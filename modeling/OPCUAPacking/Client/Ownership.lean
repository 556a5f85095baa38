import OPCUAPacking.Client.Deals
import OPCUAPacking.Client.Footprints
import OPCUAPacking.Client.Schedule
import OPCUAPacking.Interleaving.Holders
import OPCUAPacking.Interleaving.Tally

/-!
# Ownership

Who owns the `Impl`s and the clients of the SDK, in every run.

* `Ledger` — the counts of the `shared_ptr`s, the holders of the clients and the destructors that
  are running.
* `Ledger.step` — every deal keeps it.
* `ownership` — the result about every run: no client is lost, deleted twice or used by two, and an
  `Impl` goes with its last pointer.
-/

namespace OPCUAPacking

open Interleaving

namespace Estate

/-- Whether `pImpl` points to `Impl` number `i`. -/
def points (y : Estate) (i : ImplId) : Int := if y.pImpl = some i then 1 else 0

/-- The client of an `Impl`. -/
def client (y : Estate) (i : ImplId) : Option Handle := (y.impls i).bind (·.client)

/-- What the threads and the `Impl`s hold. -/
def holder (y : Estate) (g : Tid → Grip) : Tid ⊕ ImplId → Option Handle :=
  Sum.elim (fun t => (g t).raw) y.client

end Estate

/-- The accounts: `g` is what each thread has in its grip, and `n` the number of pointers to each
`Impl` that the threads hold together. -/
structure Ledger (g : Tid → Grip) (n : ImplId → Int) (y : Estate) : Prop where
  /-- The count of an `Impl` is the number of its pointers. -/
  counted : ∀ i, (y.refs i : Int) = y.points i + n i
  /-- The pointers of one thread are among them. -/
  owned : ∀ t i, ((g t).owns.count i : Int) ≤ n i
  /-- There are none to an `Impl` that was not constructed. -/
  unbuilt : ∀ i, y.impls i = none → y.refs i = 0
  /-- Each live client has one holder, and nobody holds another. -/
  holding : Holding (y.holder g) y.clients
  /-- A destructor runs when no pointer is left. -/
  ended : ∀ t i, (g t).ending.impl? = some i → y.refs i = 0 ∧ y.impls i ≠ none
  /-- It is run by one thread. -/
  lone : Apart fun t => (g t).ending.impl?
  /-- An `Impl` without pointers has no client once its destructor has released it. -/
  vacant : ∀ i, y.refs i = 0 → y.client i = none ∨ ∃ t, (g t).ending = .begun i

variable {t u : Tid} {g : Tid → Grip} {n n' : ImplId → Int} {y y' : Estate} {ℓ' : Grip} {i : ImplId}

namespace Ledger

theorem nonneg (hg : Ledger g n y) (i : ImplId) : 0 ≤ n i :=
  (Int.natCast_nonneg _).trans (hg.owned 0 i)

/-- A pointer that a thread holds is counted. -/
theorem refs_pos_of_owns (hg : Ledger g n y) (hi : i ∈ (g t).owns) : 0 < y.refs i := by
  have hcount : 0 < (g t).owns.count i := List.count_pos_iff.mpr hi
  have howned := hg.owned t i
  have hcounted := hg.counted i
  have hpoints : 0 ≤ y.points i := by
    unfold Estate.points
    split_ifs <;> decide
  omega

/-- So is `pImpl`. -/
theorem refs_pos_of_pImpl (hg : Ledger g n y) (hi : y.pImpl = some i) : 0 < y.refs i := by
  have hnonneg := hg.nonneg i
  have hcounted := hg.counted i
  rw [Estate.points, if_pos hi] at hcounted
  omega

theorem built_of_refs_pos (hg : Ledger g n y) (hi : 0 < y.refs i) : y.impls i ≠ none := fun hnone =>
  hi.ne' (hg.unbuilt i hnone)

end Ledger

/-! ### The counts -/

/-- One pointer more. -/
theorem Estate.retain_refs (y : Estate) (i j : ImplId) :
    ((y.retain i).refs j : Int) = y.refs j + if i = j then 1 else 0 := by
  by_cases hij : i = j
  · subst hij
    simp [retain]
  · simp [retain, Function.update_of_ne (Ne.symm hij), hij]

/-- One less. -/
theorem Estate.drop_refs (hi : 0 < y.refs i) (j : ImplId) :
    ((y.drop i).refs j : Int) = y.refs j - if i = j then 1 else 0 := by
  by_cases hij : i = j
  · subst hij
    simp only [drop, Function.update_self, if_true]
    omega
  · simp [drop, Function.update_of_ne (Ne.symm hij), hij]

theorem Grip.hold_count (ℓ : Grip) (i j : ImplId) :
    ((ℓ.hold i).owns.count j : Int) = ℓ.owns.count j + if i = j then 1 else 0 := by
  simp only [hold, List.count_cons, beq_iff_eq]
  split_ifs <;> simp

theorem Grip.letGo_count {ℓ : Grip} (hi : i ∈ ℓ.owns) (j : ImplId) :
    ((ℓ.letGo i).owns.count j : Int) = ℓ.owns.count j - if i = j then 1 else 0 := by
  have hpos : 0 < ℓ.owns.count i := List.count_pos_iff.mpr hi
  by_cases hij : i = j
  · subst hij
    simp only [letGo, List.count_erase_self, if_true]
    omega
  · simp [letGo, List.count_erase_of_ne (Ne.symm hij), hij]

/-- What a deal does to the count of an `Impl`, it does to `pImpl` and to the pointers of its
thread. -/
theorem Deal.count_eq {ℓ ℓ' : Grip} (hdeal : Deal t ℓ y ℓ' y') (hpos : ∀ i ∈ ℓ.owns, 0 < y.refs i)
    (j : ImplId) : (y'.refs j : Int) - y'.points j - ℓ'.owns.count j =
      y.refs j - y.points j - ℓ.owns.count j := by
  have hpoint : ∀ {i : ImplId}, y.pImpl = some i → y.points j = if i = j then 1 else 0 := by
    intro i hi
    simp [Estate.points, hi]
  have hnew : ∀ (i : ImplId) refs clients impls,
      Estate.points ⟨some i, refs, clients, impls⟩ j = if i = j then 1 else 0 := by
    intro i refs clients impls
    simp [Estate.points]
  cases hdeal with
  | @copy i | @retain i | @lockSelf i =>
      have hrefs := y.retain_refs i j
      have howns := ℓ.hold_count i j
      change ((y.retain i).refs j : Int) - y.points j - ((ℓ.hold i).owns.count j : Int) = _
      omega
  | @construct i client =>
      have hrefs := (y.setImpl i ⟨some client, .none, false⟩).retain_refs i j
      have howns := ℓ.hold_count i j
      change (((y.setImpl i _).retain i).refs j : Int) - y.points j -
        ((ℓ.hold i).owns.count j : Int) = _
      rw [hrefs, howns]
      change (y.refs j : Int) + _ - _ - _ = _
      omega
  | @take i hℓ hy =>
      have howns := ℓ.hold_count i j
      -- the pointer changes hands: `pImpl` loses what the thread gains
      change (y.refs j : Int) - 0 - ((ℓ.hold i).owns.count j : Int) = _
      rw [hpoint hy]
      omega
  | @replace i k hℓ hk hy =>
      have hrefs := y.retain_refs k j
      have howns := ℓ.hold_count i j
      -- `pImpl` gets a new pointer to `k`, and the thread the old one to `i`
      change ((y.retain k).refs j : Int) - Estate.points ⟨some k, _, _, _⟩ j -
        ((ℓ.hold i).owns.count j : Int) = _
      rw [hnew, hpoint hy]
      omega
  | @fill k hℓ hk hy =>
      have hrefs := y.retain_refs k j
      have hpoints : y.points j = 0 := by simp [Estate.points, hy]
      change ((y.retain k).refs j : Int) - Estate.points ⟨some k, _, _, _⟩ j -
        (ℓ.owns.count j : Int) = _
      rw [hnew, hpoints]
      omega
  | @release i hℓ | @releaseLast i hℓ =>
      have hrefs := Estate.drop_refs (hpos i hℓ) j
      have howns := Grip.letGo_count hℓ j
      change ((y.drop i).refs j : Int) - y.points j - ((ℓ.letGo i).owns.count j : Int) = _
      omega
  | _ => rfl

/-! ### Deals keep the accounts -/

namespace Ledger

/-- What was constructed stays so. -/
theorem impls_of_deal {ℓ ℓ' : Grip} (hdeal : Deal t ℓ y ℓ' y') (hi : y.impls i ≠ none) :
    y'.impls i ≠ none := by
  have hset : ∀ (j : ImplId) (k : Assets), (y.setImpl j k).impls i ≠ none := by
    intro j k
    by_cases hij : i = j
    · subst hij
      simp [Estate.setImpl]
    · simpa [Estate.setImpl, hij] using hi
  cases hdeal with
  | construct | empty | create | join | detach | finish | begin | finishThread => exact hset _ _
  | _ => exact hi

/-- An `Impl` without pointers gets none, unless it is constructed. -/
theorem refs_of_deal (hg : Ledger g n y) (hdeal : Deal t (g t) y ℓ' y') (h0 : y.refs i = 0)
    (hi : y.impls i = none → y'.impls i = none) : y'.refs i = 0 := by
  have hretain : ∀ {j : ImplId}, 0 < y.refs j → (y.retain j).refs i = 0 := by
    intro j hj
    have hij : i ≠ j := by
      rintro rfl
      exact hj.ne' h0
    simpa [Estate.retain, hij] using h0
  have hdrop : ∀ j, (y.drop j).refs i = 0 := by
    intro j
    by_cases hij : i = j
    · subst hij
      simp [Estate.drop, h0]
    · simpa [Estate.drop, hij] using h0
  cases hdeal with
  | copy hy => exact hretain (hg.refs_pos_of_pImpl hy)
  | replace hℓ hj | fill hℓ hj => exact hretain (hg.refs_pos_of_owns hj)
  | retain hℓ => exact hretain (hg.refs_pos_of_owns hℓ)
  | lockSelf hℓ hy => exact hretain (Nat.pos_of_ne_zero hy)
  | release | releaseLast => exact hdrop _
  | @construct j client hℓ hcharge hy =>
      have hij : i ≠ j := by
        rintro rfl
        simpa [Estate.setImpl, Estate.retain] using hi hy
      simpa [Estate.retain, Estate.setImpl, hij] using h0
  | _ => exact h0

end Ledger

/-! ### The holders of the clients -/

namespace Estate

theorem holder_update (y : Estate) (g : Tid → Grip) (t : Tid) (ℓ : Grip) :
    y.holder (Function.update g t ℓ) = Function.update (y.holder g) (.inl t) ℓ.raw := by
  funext a
  rcases a with u | i
  · by_cases hu : u = t
    · subst hu
      simp [holder]
    · simp [holder, hu]
  · simp [holder]

theorem client_setImpl (y : Estate) (i : ImplId) (k : Assets) :
    (y.setImpl i k).client = Function.update y.client i k.client := by
  funext j
  by_cases hj : j = i
  · subst hj
    simp [client, setImpl]
  · simp [client, setImpl, hj]

theorem holder_setImpl (y : Estate) (g : Tid → Grip) (i : ImplId) (k : Assets) :
    (y.setImpl i k).holder g = Function.update (y.holder g) (.inr i) k.client := by
  rw [holder, client_setImpl, holder]
  exact (Sum.elim_update_right ..)

/-- A client that is the same has the same holder. -/
theorem holder_same {y y' : Estate} {g : Tid → Grip} {t : Tid} {ℓ : Grip}
    (hclient : y'.client = y.client) (hraw : ℓ.raw = (g t).raw) :
    y'.holder (Function.update g t ℓ) = y.holder g := by
  rw [holder_update, hraw, holder, hclient]
  exact Function.update_eq_self (Sum.inl t) _

end Estate

namespace Ledger

/-- The clients keep one holder each. -/
theorem holding_of_deal (hg : Ledger g n y) (hdeal : Deal t (g t) y ℓ' y') :
    Holding (y'.holder (Function.update g t ℓ')) y'.clients := by
  have hclient : ∀ {i : ImplId} {k k' : Assets}, y.impls i = some k → k'.client = k.client →
      (y.setImpl i k').client = y.client := by
    intro i k k' hk hsame
    rw [Estate.client_setImpl, hsame]
    exact Function.update_eq_self_iff.mpr (by simp [Estate.client, hk])
  have hkept : ∀ {z : Estate} {ℓ : Grip}, z.client = y.client → ℓ.raw = (g t).raw →
      z.clients = y.clients → Holding (z.holder (Function.update g t ℓ)) z.clients := by
    intro z ℓ hz hraw hclients
    rw [Estate.holder_same hz hraw, hclients]
    exact hg.holding
  cases hdeal with
  | @construct i client hℓ hcharge hy =>
      have hnone : y.holder g (.inr i) = none := by simp [Estate.holder, Estate.client, hy]
      -- the thread hands its client to the `Impl`
      have hswap := comp_swap (y.holder g) (a := .inl t) (b := .inr i) Sum.inl_ne_inr hnone
      rw [Estate.holder_update]
      change Holding (Function.update ((y.setImpl i _).holder g) _ _) _
      rw [Estate.holder_setImpl, ← hℓ]
      exact hswap ▸ hg.holding.comp (Equiv.swap (.inl t) (.inr i))
  | @empty i k hℓ hending hy =>
      have hnone : y.holder g (.inl t) = none := hℓ
      -- the `Impl` hands its client to the thread that destroys it
      have hswap := comp_swap (y.holder g) (a := .inr i) (b := .inl t) Sum.inr_ne_inl hnone
      have hk : y.holder g (.inr i) = k.client := by simp [Estate.holder, Estate.client, hy]
      rw [Estate.holder_update, Estate.holder_setImpl,
        Function.update_comm Sum.inr_ne_inl, ← hk]
      exact hswap ▸ hg.holding.comp (Equiv.swap (.inr i) (.inl t))
  | new hℓ hy =>
      rw [Estate.holder_update]
      exact hg.holding.gain hℓ hy
  | delete hℓ =>
      rw [Estate.holder_update]
      exact hg.holding.lose hℓ
  | create hℓ hy | join hy | detach hℓ hearly hy | finish hy | begin hℓ hy
  | finishThread hℓ hself hy =>
      exact hkept (hclient hy rfl) rfl rfl
  | _ => exact hkept rfl rfl rfl

/-! ### The destructors -/

/-- A destructor starts when the last pointer goes. -/
theorem ending_of_deal {ℓ ℓ' : Grip} (hdeal : Deal t ℓ y ℓ' y')
    (hi : ℓ'.ending.impl? = some i) :
    ℓ.ending.impl? = some i ∨ y.refs i = 1 ∧ y'.refs i = 0 := by
  cases hdeal with
  | releaseLast hℓ hending hcharge hy =>
      obtain rfl := Option.some.inj hi
      exact .inr ⟨hy, by simp [Estate.drop, hy]⟩
  | empty hℓ hending hy => exact .inl (hending ▸ hi)
  | leave hℓ => cases hi
  | _ => exact .inl hi

theorem ended_of_deal (hg : Ledger g n y) (hdeal : Deal t (g t) y ℓ' y')
    (hi : (Function.update g t ℓ' u).ending.impl? = some i) :
    y'.refs i = 0 ∧ y'.impls i ≠ none := by
  have hkept : ∀ {v}, (g v).ending.impl? = some i → y'.refs i = 0 ∧ y'.impls i ≠ none := by
    intro v hv
    obtain ⟨h0, hbuilt⟩ := hg.ended v i hv
    exact ⟨hg.refs_of_deal hdeal h0 fun hnone => absurd hnone hbuilt, impls_of_deal hdeal hbuilt⟩
  by_cases hu : u = t
  · subst hu
    rw [Function.update_self] at hi
    rcases ending_of_deal hdeal hi with hbefore | ⟨h1, h0⟩
    · exact hkept hbefore
    · exact ⟨h0, impls_of_deal hdeal (hg.built_of_refs_pos (h1 ▸ Nat.one_pos))⟩
  · rw [Function.update_of_ne hu] at hi
    exact hkept hi

theorem lone_of_deal (hg : Ledger g n y) (hdeal : Deal t (g t) y ℓ' y') :
    Apart fun u => (Function.update g t ℓ' u).ending.impl? := by
  -- two destructors of one `Impl`: the later one has just started
  have hlater : ∀ {u i}, u ≠ t → (g u).ending.impl? = some i → ℓ'.ending.impl? = some i →
      u = t := by
    intro u i hne hu ht
    rcases ending_of_deal hdeal ht with hbefore | ⟨h1, -⟩
    · exact hg.lone hu hbefore
    · exact absurd ((hg.ended u i hu).1.symm.trans h1) (by decide)
  intro u v i hu hv
  by_cases hut : u = t <;> by_cases hvt : v = t
  · exact hut.trans hvt.symm
  · subst hut
    simp only [Function.update_self] at hu
    simp only [Function.update_of_ne hvt] at hv
    exact (hlater hvt hv hu).symm
  · subst hvt
    simp only [Function.update_self] at hv
    simp only [Function.update_of_ne hut] at hu
    exact hlater hut hu hv
  · simp only [Function.update_of_ne hut] at hu
    simp only [Function.update_of_ne hvt] at hv
    exact hg.lone hu hv

/-- The last pointer goes with a destructor. -/
theorem begun_of_deal (hg : Ledger g n y) (hdeal : Deal t (g t) y ℓ' y') (hi : y.refs i ≠ 0)
    (h0 : y'.refs i = 0) : ℓ'.ending = .begun i := by
  have hretain : ∀ j, (y.retain j).refs i ≠ 0 := by
    intro j
    by_cases hij : i = j
    · subst hij
      simp [Estate.retain]
    · simpa [Estate.retain, hij] using hi
  cases hdeal with
  | copy | replace | fill | construct | retain | lockSelf => exact absurd h0 (hretain _)
  | @release j hℓ hcharge hy =>
      have hpos := hg.refs_pos_of_owns hℓ
      by_cases hij : i = j
      · subst hij
        simp only [Estate.drop, Function.update_self] at h0
        omega
      · exact absurd (by simpa [Estate.drop, hij] using h0) hi
  | @releaseLast j hℓ hending hcharge hy =>
      by_cases hij : i = j
      · rw [hij]
      · exact absurd (by simpa [Estate.drop, hij] using h0) hi
  | _ => exact absurd h0 hi

/-- An `Impl` without a client gets none, unless it is constructed. -/
theorem client_of_deal {ℓ ℓ' : Grip} (hdeal : Deal t ℓ y ℓ' y') (hi : y.client i = none)
    (h0 : y'.refs i = 0) : y'.client i = none := by
  have hset : ∀ {j : ImplId} {k k' : Assets}, y.impls j = some k →
      (k'.client = k.client ∨ k'.client = none) → (y.setImpl j k').client i = none := by
    intro j k k' hk hk'
    rw [Estate.client_setImpl]
    by_cases hij : i = j
    · subst hij
      have hnone : k.client = none := by simpa [Estate.client, hk] using hi
      rcases hk' with h | h <;> simp [h, hnone]
    · simpa [hij] using hi
  cases hdeal with
  | @construct j client hℓ hcharge hy =>
      by_cases hij : i = j
      · subst hij
        simp [Estate.retain] at h0
      · simpa [Estate.client, Estate.retain, Estate.setImpl, hij] using hi
  | empty hℓ hending hy => exact hset hy (.inr rfl)
  | create hℓ hy | join hy | detach hℓ hearly hy | finish hy | begin hℓ hy
  | finishThread hℓ hself hy =>
      exact hset hy (.inl rfl)
  | _ => exact hi

/-- A destructor that has not released the client yet does not end. -/
theorem begun_or_empty {ℓ ℓ' : Grip} (hdeal : Deal t ℓ y ℓ' y') (hi : ℓ.ending = .begun i) :
    ℓ'.ending = .begun i ∨ y'.client i = none := by
  cases hdeal with
  | releaseLast hℓ hending => exact absurd (hending.symm.trans hi) (by rintro ⟨⟩)
  | leave hℓ => exact absurd (hℓ.symm.trans hi) (by rintro ⟨⟩)
  | @empty j k hℓ hending hy =>
      obtain rfl : j = i := Ending.begun.inj (hending.symm.trans hi)
      exact .inr (by simp [Estate.client, Estate.setImpl])
  | _ => exact .inl hi

theorem vacant_of_deal (hg : Ledger g n y) (hdeal : Deal t (g t) y ℓ' y') (h0 : y'.refs i = 0) :
    y'.client i = none ∨ ∃ u, (Function.update g t ℓ' u).ending = .begun i := by
  by_cases hi : y.refs i = 0
  · rcases hg.vacant i hi with hnone | ⟨u, hu⟩
    · exact .inl (client_of_deal hdeal hnone h0)
    · by_cases hut : u = t
      · subst hut
        exact (begun_or_empty hdeal hu).symm.imp_right fun h => ⟨u, by rwa [Function.update_self]⟩
      · exact .inr ⟨u, by rwa [Function.update_of_ne hut]⟩
  · exact .inr ⟨t, by rw [Function.update_self]; exact hg.begun_of_deal hdeal hi h0⟩

/-- Every deal keeps the accounts. -/
theorem step (hg : Ledger g n y) (hdeal : Deal t (g t) y ℓ' y')
    (hn : ∀ i, n' i = n i + ℓ'.owns.count i - (g t).owns.count i)
    (howned : ∀ u i, ((Function.update g t ℓ' u).owns.count i : Int) ≤ n' i) :
    Ledger (Function.update g t ℓ') n' y' where
  counted i := by
    have hbefore := hg.counted i
    have hbalance := hdeal.count_eq (fun _ hi => hg.refs_pos_of_owns hi) i
    rw [hn i]
    omega
  owned := howned
  unbuilt i hnone := by
    have hbefore : y.impls i = none := by_contra fun hbuilt => impls_of_deal hdeal hbuilt hnone
    exact hg.refs_of_deal hdeal (hg.unbuilt i hbefore) fun _ => hnone
  holding := hg.holding_of_deal hdeal
  ended u i hi := hg.ended_of_deal hdeal hi
  lone := hg.lone_of_deal hdeal
  vacant i h0 := hg.vacant_of_deal hdeal h0

end Ledger

/-! ### Runs -/

/-- How many `shared_ptr`s to `Impl` number `i` the threads hold together. -/
def owners (i : ImplId) (h : ClientHistory) : Int :=
  Event.tally Grip.track {} (fun ℓ => (ℓ.owns.count i : Int)) h

/-- The event creates the client. -/
def obtains (client : Handle) (e : Event ClientSig) : Bool :=
  match e.op, e.resp with
  | .clientNew, .ok handle => handle == some client
  | _, _ => false

/-- The event deletes it. -/
def deletes (client : Handle) (e : Event ClientSig) : Bool :=
  match e.op with
  | .clientDelete handle => handle == client
  | _ => false

/-- What was there at first and what was created is deleted or live. -/
def ClientBalance (first : List Handle) (h : ClientHistory) (live : List Handle) : Prop :=
  ∀ client, first.count client + h.countP (obtains client) =
    h.countP (deletes client) + live.count client

variable {o : ClientOp} {r : o.Resp} {h : ClientHistory} {s s' : ClientState}
  {calls : Tid → List ClientCall} {endpointUrl : String} {w : ImplState} {c : ClientPool}
  {first : List Handle}

/-- An event changes what its own thread has in its grip. -/
theorem grip_cons (t : Tid) (o : ClientOp) (r : o.Resp) (h : ClientHistory) :
    (fun u => grip u (⟨t, o, r⟩ :: h)) =
      Function.update (fun u => grip u h) t ((grip t h).track h o r) := by
  funext u
  by_cases hu : u = t
  · subst hu
    rw [Function.update_self]
    exact Event.stage_cons_self o r h
  · rw [Function.update_of_ne hu]
    exact Event.stage_cons_ne (Ne.symm hu) o r h

/-- Every operation keeps the accounts. -/
theorem ledger_step (hg : Ledger (fun u => grip u h) (owners · h) s.estate)
    (hexec : s.exec t o r = some s') (hallows : (grip t h).Allows o r) :
    Ledger (fun u => grip u (⟨t, o, r⟩ :: h)) (owners · (⟨t, o, r⟩ :: h)) s'.estate := by
  have hcounts : ∀ u i, ((grip u (⟨t, o, r⟩ :: h)).owns.count i : Int) ≤
      owners i (⟨t, o, r⟩ :: h) := fun u i =>
    Event.le_tally (f := fun ℓ : Grip => (ℓ.owns.count i : Int)) rfl
      (fun _ => Int.natCast_nonneg _) u
  have hdeal := ClientState.deal_of_exec (h := h) hexec hallows
  rw [grip_cons]
  refine hg.step hdeal (fun i => rfl) fun u i => ?_
  rw [← grip_cons]
  exact hcounts u i

/-- Every operation keeps the balance of the clients. -/
theorem clientBalance_step (hbalance : ClientBalance first h s.clients)
    (hexec : s.exec t o r = some s')
    (hlive : ∀ client, o = .clientDelete client → client ∈ s.clients) :
    ClientBalance first (⟨t, o, r⟩ :: h) s'.clients := by
  intro client
  have hbefore := hbalance client
  rw [List.countP_cons, List.countP_cons]
  by_cases hnew : o = .clientNew
  · subst hnew
    -- only a client that `clientNew` has returned counts
    rcases r with e | _ | handle
    · cases hexec
      simpa [obtains, deletes] using hbefore
    · cases hexec
      simpa [obtains, deletes] using hbefore
    · obtain ⟨-, rfl⟩ := ClientState.whenever_eq_some.mp hexec
      simp only [obtains, deletes, List.count_cons, beq_iff_eq, Option.some.injEq,
        Bool.false_eq_true, if_false]
      omega
  · by_cases hdelete : ∃ handle, o = .clientDelete handle
    · obtain ⟨handle, rfl⟩ := hdelete
      cases hexec
      -- it is live, so deleting it takes it from the list
      have hpos : 0 < s.clients.count handle := List.count_pos_iff.mpr (hlive handle rfl)
      by_cases hsame : handle = client
      · subst hsame
        simp only [obtains, deletes, List.count_erase_self, beq_self_eq_true, if_true,
          Bool.false_eq_true, if_false]
        omega
      · simpa [obtains, deletes, hsame, List.count_erase_of_ne (Ne.symm hsame)] using hbefore
    · have htrades : ¬o.Trades := fun ho => by
        cases o with
        | clientNew => exact hnew rfl
        | clientDelete handle => exact hdelete ⟨handle, rfl⟩
        | _ => exact ho.elim
      rw [(ClientState.frame_of_exec hexec).clients htrades]
      have hobtains : obtains client ⟨t, o, r⟩ = false := by
        cases o <;> first | rfl | exact absurd rfl hnew
      have hdeletes : deletes client ⟨t, o, r⟩ = false := by
        cases o <;> first | rfl | exact absurd ⟨_, rfl⟩ hdelete
      simpa [hobtains, hdeletes] using hbefore

/-- A client that nobody has called yet has one `Impl`, which has the client of the SDK. -/
theorem ledger_start :
    Ledger (fun _ => {}) (fun _ => 0) (ClientState.start endpointUrl w).estate := by
  have hclient : ∀ i, (ClientState.start endpointUrl w).estate.client i =
      if i = 0 then w.impl else none := by
    intro i
    by_cases hi : i = 0
    · subst hi
      simp [Estate.client, ClientState.estate, ClientState.start, ImplState.assets]
    · simp [Estate.client, ClientState.estate, ClientState.start, hi]
  refine ⟨fun i => ?_, fun _ _ => le_rfl, fun i hi => ?_, ⟨?_, ?_, fun client => ?_⟩, ?_, ?_,
    fun i h0 => ?_⟩
  · by_cases hi : i = 0
    · subst hi
      simp [Estate.points, ClientState.estate, ClientState.start]
    · simp [Estate.points, ClientState.estate, ClientState.start, hi, Ne.symm hi]
  · by_cases hi0 : i = 0
    · subst hi0
      simp [ClientState.estate, ClientState.start] at hi
    · simp [ClientState.estate, ClientState.start, hi0]
  · cases hw : w.impl <;> simp [ClientState.estate, ClientState.start, hw]
  · rintro (u | i) (v | j) client ha hb
    · cases ha
    · cases ha
    · cases hb
    · have hi : i = 0 := by
        by_contra hi
        exact absurd ((if_neg hi ▸ hclient i).symm.trans ha) (Option.some_ne_none client).symm
      have hj : j = 0 := by
        by_contra hj
        exact absurd ((if_neg hj ▸ hclient j).symm.trans hb) (Option.some_ne_none client).symm
      rw [hi, hj]
  · constructor
    · intro hmem
      refine ⟨.inr 0, ?_⟩
      change (ClientState.start endpointUrl w).estate.client 0 = some client
      rw [hclient, if_pos rfl]
      exact Option.mem_toList.mp hmem
    · rintro ⟨u | i, ha⟩
      · cases ha
      · change (ClientState.start endpointUrl w).estate.client i = some client at ha
        rw [hclient] at ha
        split_ifs at ha with hi
        exact Option.mem_toList.mpr ha
  · rintro u i ⟨⟩
  · rintro u v i ⟨⟩
  · by_cases hi : i = 0
    · subst hi
      simp [ClientState.estate, ClientState.start] at h0
    · exact .inl ((hclient i).trans (if_neg hi))

/-- The accounts in every state, and what a thread has in its grip that has returned. -/
theorem ledger_of_reach (hc : ClientPool.Reach (.start calls (.start endpointUrl w)) c) :
    (Ledger (fun u => grip u c.state.history) (owners · c.state.history) c.state.world.estate ∧
      ClientBalance w.impl.toList c.state.history c.state.world.clients) ∧
      ∀ t replies, c.Returned t (.ok replies) → grip t c.state.history = {} := by
  have hfollows : ∀ u, gripProtocol.Follows u
      ((ClientPool.start calls (.start endpointUrl w)).pool u)
      (fun r ℓ => ∀ replies, r = .ok replies → ℓ = {}) {} := fun u => Client.grip_runAll (calls u)
  have hended := (Protocol.recorded_each
    (Q := fun _ r (ℓ : Grip) => ∀ replies, r = .ok replies → ℓ = {}) rfl hfollows hc).2
  refine ⟨?_, fun t replies ht => hended t _ ht replies rfl⟩
  refine Protocol.recorded_invariant
    (fun s : Traced ClientSig ClientState =>
      Ledger (fun u => grip u s.history) (owners · s.history) s.world.estate ∧
        ClientBalance w.impl.toList s.history s.world.clients)
    (Q := fun _ r (ℓ : Grip) => ∀ replies, r = .ok replies → ℓ = {}) rfl hfollows ?_ ?_ hc
  · refine ⟨ledger_start, fun client => ?_⟩
    change _ + 0 = 0 + w.impl.toList.count client
    omega
  · rintro t o r s s' ⟨hledger, hbalance⟩ hs hallows
    rw [hs.history_eq]
    refine ⟨ledger_step hledger hs.exec_eq hallows, clientBalance_step hbalance hs.exec_eq ?_⟩
    rintro client rfl
    exact (hledger.holding.mem_iff client).mpr ⟨.inl t, hallows⟩

/-- The pointers and the clients of a run that began with the clients in `first`. -/
structure Ownership (first : List Handle) (c : ClientPool) : Prop where
  /-- The count of an `Impl` is the number of its pointers: `pImpl`, and what the threads hold. -/
  counted : ∀ i, (c.state.world.refs i : Int) =
    c.state.world.estate.points i + owners i c.state.history
  /-- Each live client has one holder, a thread or an `Impl`, and nobody holds one that is not. -/
  holding : Holding (c.state.world.estate.holder fun t => grip t c.state.history)
    c.state.world.clients
  /-- A client is deleted as often as it was obtained, but for those that are live. -/
  balance : ClientBalance first c.state.history c.state.world.clients
  /-- An `Impl` without pointers has no client, unless a thread runs its destructor. -/
  vacant : ∀ i, c.state.world.refs i = 0 → c.state.world.estate.client i = none ∨
    ∃ t, (grip t c.state.history).ending = .begun i
  /-- No two threads run the destructor of the same. -/
  lone : ∀ t u i, (grip t c.state.history).ending.impl? = some i →
    (grip u c.state.history).ending.impl? = some i → t = u
  /-- When all threads have ended their calls, the only pointer is `pImpl`, and the only live client
  is that of the `Impl` that it points to. -/
  settled : (∀ t, ∃ replies, c.Returned t (.ok replies)) →
    (∀ i, c.state.world.refs i = if c.state.world.pImpl = some i then 1 else 0) ∧
      ∀ client, client ∈ c.state.world.clients ↔
        ∃ i, c.state.world.pImpl = some i ∧ c.state.world.estate.client i = some client

/-- When no thread has anything in its grip, the threads hold no pointer. -/
theorem owners_of_idle (hidle : ∀ t, grip t h = {}) (i : ImplId) : owners i h = 0 := by
  refine le_antisymm (not_lt.mp fun hpos => ?_) ?_
  · obtain ⟨t, ht⟩ :=
      Event.exists_of_tally_pos (f := fun ℓ : Grip => (ℓ.owns.count i : Int)) rfl hpos
    have hnone : Event.stage Grip.track {} t h = {} := hidle t
    rw [hnone] at ht
    exact absurd ht (lt_irrefl 0)
  · exact (Int.natCast_nonneg ((grip 0 h).owns.count i)).trans
      (Event.le_tally (f := fun ℓ : Grip => (ℓ.owns.count i : Int)) rfl
        (fun _ => Int.natCast_nonneg _) 0)

/-- In every run, nothing is lost, deleted twice or left behind. -/
theorem ownership (hc : ClientPool.Reach (.start calls (.start endpointUrl w)) c) :
    Ownership w.impl.toList c := by
  obtain ⟨⟨hledger, hbalance⟩, hreturned⟩ := ledger_of_reach hc
  refine ⟨hledger.counted, hledger.holding, hbalance, hledger.vacant,
    fun t u i ht hu => hledger.lone ht hu, fun hall => ?_⟩
  have hidle : ∀ t, grip t c.state.history = {} := by
    intro t
    obtain ⟨replies, ht⟩ := hall t
    exact hreturned t replies ht
  have hrefs : ∀ i, c.state.world.refs i = if c.state.world.pImpl = some i then 1 else 0 := by
    intro i
    have hcounted := hledger.counted i
    rw [owners_of_idle hidle, Estate.points] at hcounted
    change (c.state.world.refs i : Int) = (if c.state.world.pImpl = some i then 1 else 0) + 0
      at hcounted
    split_ifs at hcounted ⊢ <;> omega
  refine ⟨hrefs, fun client => (hledger.holding.mem_iff client).trans ⟨?_, ?_⟩⟩
  · rintro ⟨t | i, ha⟩
    · change (grip t c.state.history).raw = some client at ha
      rw [hidle t] at ha
      cases ha
    · refine ⟨i, by_contra fun hi => ?_, ha⟩
      -- an `Impl` outside `pImpl` has no pointer left, hence no client
      rcases hledger.vacant i ((hrefs i).trans (if_neg hi)) with hnone | ⟨t, ht⟩
      · exact absurd (hnone.symm.trans ha) (Option.some_ne_none client).symm
      · rw [hidle t] at ht
        cases ht
  · rintro ⟨i, -, hi⟩
    exact ⟨.inr i, hi⟩

/-- A client is shut down while a call still holds its `Impl`. -/
def outlived : Option ClientPool :=
  ClientPool.run [[.checkConnected], [.shutdown]] ImplState.connected
    (({} : Environment).clientMoves 0 2 ++ ({} : Environment).clientMoves 1 15 ++
      ({} : Environment).clientMoves 0 12)

/-- The call destroys the `Impl` and deletes the client, once. -/
theorem ownership_outlived :
    ∃ c : ClientPool, Ownership [1] c ∧ c.Returned 1 (.ok [.result (.ok ())]) ∧
      c.state.world.clients = [] ∧ c.state.history.countP (deletes 1) = 1 := by
  have hplay : outlived.any (fun d => d.result? 1 == some (.ok [.result (.ok ())]) &&
      (d.state.world.clients == [] && d.state.history.countP (deletes 1) == 1)) = true := by
    decide
  obtain ⟨d, -, hd, hcheck⟩ := Config.exists_reach_of_play hplay
  simp only [Bool.and_eq_true, beq_iff_eq] at hcheck
  exact ⟨d, ownership hd, Config.returned_of_result? hcheck.1, hcheck.2⟩

end OPCUAPacking
