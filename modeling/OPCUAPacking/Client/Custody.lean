import OPCUAPacking.Client.Exclusion
import OPCUAPacking.Client.Outcomes
import OPCUAPacking.Interleaving.Tally

/-!
# Custody

Who has to shut an `Impl` down. A thread takes it into its hands when it constructs it, or when it
moves it out of `pImpl`, and gives it up when it puts it into `pImpl` or shuts it down.

* `Custody` — the `Impl` in the hands of a thread, which its own operations move.
* `custodyBalance_of_reach` — in every state an `Impl` that was constructed is in one place: in
  `pImpl`, in the hands of a thread, or shut down.
* `singleCustody` — so each is shut down once at most, and none is left behind.
-/

namespace OPCUAPacking

open Interleaving

/-- The `Impl` that a thread has to shut down. -/
abbrev Custody := Option ImplId

namespace Custody

/-- How an operation moves it. -/
def track (_ : ClientHistory) (ℓ : Custody) : (o : ClientOp) → o.Resp → Custody
  | .implConstruct _ _, i => some i
  | .pImplTake, doomed => doomed
  | .pImplAdopt _, .replaced old => old
  | .shutdownBegin _ _, _ => none
  | _, _ => ℓ

/-- What a thread may do: it takes nothing while its hands are full, and adopts or shuts down what
it has in them. -/
def Allows (ℓ : Custody) : (o : ClientOp) → o.Resp → Prop
  | .implConstruct _ _, _ => ℓ = none
  | .pImplTake, _ => ℓ = none
  | .pImplAdopt candidate, _ => ℓ = some candidate
  | .shutdownBegin i _, _ => ℓ = some i
  | _, _ => True

end Custody

/-- What thread `t` has in its hands after a history. -/
def custody (t : Tid) (h : ClientHistory) : Custody := Event.stage Custody.track none t h

/-- The protocol of the hands. -/
abbrev custodyProtocol : Protocol ClientSig (Traced ClientSig ClientState) Custody :=
  Protocol.recorded ClientState.exec Custody.Allows Custody.track fun _ => none

/-- The operation moves an `Impl` into the hands of a thread or out of them. -/
def ClientOp.Moves : ClientOp → Prop
  | .implConstruct _ _ | .pImplTake | .pImplAdopt _ | .shutdownBegin _ _ => True
  | _ => False

/-- The other operations are always allowed. -/
theorem ClientOp.allows_of_not_moves {o : ClientOp} (h : ¬o.Moves) (es : ClientHistory)
    (ℓ : Custody) (r : o.Resp) : ℓ.Allows o r ∧ ℓ.track es o r = ℓ := by
  cases o <;> first | exact ⟨trivial, rfl⟩ | exact absurd trivial h

theorem ClientOp.Drops.not_moves {o : ClientOp} (h : o.Drops) : ¬o.Moves := by
  cases o <;> first | exact id | exact h.elim

theorem ClientOp.Serves.not_moves {o : ClientOp} (h : o.Serves) : ¬o.Moves := by
  rcases h with h | rfl | rfl | rfl
  · exact h.not_moves
  · exact id
  · exact id
  · exact id

theorem ClientOp.Watches.not_moves {o : ClientOp} (h : o.Watches) : ¬o.Moves := by
  rcases h with h | ⟨i, rfl⟩
  · exact h.not_moves
  · exact id

namespace Client

variable {α β : Type} {t : Tid} {ℓ : Custody}

/-! ### The programs -/

/-- A program that moves nothing leaves the hands as they are. -/
theorem custody_of_uses {A : ClientOp → Prop} (hA : ∀ {o}, A o → ¬o.Moves) {p : Client α}
    (hp : Proc.Uses A p) (ℓ : Custody) :
    custodyProtocol.Follows t p (fun _ ℓ' => ℓ' = ℓ) ℓ := by
  refine Protocol.keeps_recorded_of_uses (I := (· = ℓ)) ?_ hp ℓ rfl
  rintro o ho es _ r rfl
  exact ClientOp.allows_of_not_moves (hA ho) es _ r

/-- An operation that moves nothing, then the rest. -/
theorem custody_perform {o : ClientOp} {f : o.Resp → Client β}
    {Q : Except Exn β → Custody → Prop} (hf : ∀ r, custodyProtocol.Follows t (f r) Q ℓ)
    (ho : ¬o.Moves := by exact id) :
    custodyProtocol.Follows t (perform o >>= f : Client β) Q ℓ := by
  refine Protocol.follows_recorded_perform fun es r => ?_
  obtain ⟨hallows, hsame⟩ := ClientOp.allows_of_not_moves ho es ℓ r
  rw [hsame]
  exact ⟨hallows, hf r⟩

/-- An operation that moves nothing, by itself. -/
theorem custody_op {o : ClientOp} {Q : Except Exn o.Resp → Custody → Prop}
    (hQ : ∀ r, Q (.ok r) ℓ) (ho : ¬o.Moves := by exact id) :
    custodyProtocol.Follows t (perform o) Q ℓ := by
  refine Protocol.follows_recorded_op fun es r => ?_
  obtain ⟨hallows, hsame⟩ := ClientOp.allows_of_not_moves ho es ℓ r
  rw [hsame]
  exact ⟨hallows, hQ r⟩

/-- A member function of an `Impl`. -/
theorem custody_onImpl (i : ImplId) (p : Impl α) (ℓ : Custody) :
    custodyProtocol.Follows t (onImpl i p) (fun _ ℓ' => ℓ' = ℓ) ℓ :=
  custody_of_uses (A := ClientOp.Drops) ClientOp.Drops.not_moves (uses_onImpl (fun _ => trivial) p)
    ℓ

/-- Dropping a pointer. -/
theorem custody_drop (i : ImplId) (ℓ : Custody) :
    custodyProtocol.Follows t (drop i) (fun _ ℓ' => ℓ' = ℓ) ℓ :=
  custody_of_uses ClientOp.Drops.not_moves (uses_drop i) ℓ

/-- The `Impl` in the hands is shut down, and they are empty. -/
theorem custody_shutdownImpl (i : ImplId) (caller : ShutdownCaller) :
    custodyProtocol.Follows t (shutdownImpl i caller) (fun _ ℓ' => ℓ' = none) (some i) :=
  Protocol.follows_recorded_perform fun _ _ => ⟨rfl, custody_onImpl i Impl.shutdown none⟩

/-- It is shut down, and its pointer is dropped; then the rest. -/
theorem custody_discard {i : ImplId} {caller : ShutdownCaller} {p : Client β}
    {Q : Except Exn β → Custody → Prop} (hp : custodyProtocol.Follows t p Q none) :
    custodyProtocol.Follows t
      (do shutdownImpl i caller; drop i; p : Client β) Q (some i) := by
  refine Protocol.Follows.bind_noThrow (fun _ ℓ => ℓ = none)
    ((custody_shutdownImpl i caller).mono fun _ _ h _ _ => h) (noThrow_shutdownImpl i caller) ?_
  rintro _ _ rfl
  refine Protocol.Follows.bind_noThrow (fun _ ℓ => ℓ = none)
    ((custody_drop i none).mono fun _ _ h _ _ => h) (noThrow_drop i) ?_
  rintro _ _ rfl
  exact hp

/-- The handlers of a public function. -/
theorem custody_catching {systemText : String} {p : Client (Result α RichError)}
    {I : Custody → Prop} (hp : custodyProtocol.Follows t p (fun _ => I) ℓ) :
    custodyProtocol.Follows t (catching systemText p) (fun _ => I) ℓ := by
  refine Protocol.Follows.bind (fun _ => I) (Protocol.follows_attempt.mpr hp) ?_ fun _ _ h => h
  rintro (e | a) ℓ' hℓ'
  · exact hℓ'
  · exact hℓ'

/-- What `shutdownInternal` moves out it shuts down. -/
theorem custody_shutdownInternal :
    custodyProtocol.Follows t shutdownInternal (fun _ ℓ' => ℓ' = none) none := by
  refine Protocol.follows_recorded_perform fun es doomed => ⟨rfl, ?_⟩
  cases doomed with
  | none => exact rfl
  | some i => exact custody_discard rfl

/-- `shutdown`. -/
theorem custody_shutdown :
    custodyProtocol.Follows t shutdown (fun _ ℓ' => ℓ' = none) none := by
  refine custody_perform fun entry => ?_
  cases entry with
  | recreating | terminated => exact rfl
  | won =>
      refine Protocol.Follows.ensuring (fun _ ℓ' => ℓ' = none)
        (custody_catching custody_shutdownInternal) ?_
      rintro r _ rfl
      exact custody_op fun _ => ⟨rfl, rfl⟩

/-- The destructor. -/
theorem custody_destructor :
    custodyProtocol.Follows t destructor (fun _ ℓ' => ℓ' = none) none := by
  refine custody_perform fun settled => ?_
  refine Protocol.Follows.bind (fun _ ℓ' => ℓ' = none) ?_ ?_ fun _ _ h => h
  · cases settled with
    | true => exact rfl
    | false => exact custody_op fun _ => rfl
  · rintro _ _ rfl
    refine Protocol.Follows.bind (fun _ ℓ' => ℓ' = none)
      (Protocol.follows_attempt.mpr custody_shutdownInternal) ?_ fun _ _ h => h
    rintro _ _ rfl
    exact rfl

/-! ### recreateGiveUpClient -/

/-- How the scope of the candidate `i` finds the hands: empty when it was adopted, and else still
holding it. -/
def AfterBringUp (i : ImplId) (r : Except Exn (Bool × Result Unit RichError)) (ℓ : Custody) :
    Prop :=
  (∃ a, r = .ok (true, a)) ∧ ℓ = none ∨ (∀ a, r ≠ .ok (true, a)) ∧ ℓ = some i

/-- The candidate goes into `pImpl`, and what was there is shut down. -/
theorem custody_adopt (i : ImplId) :
    custodyProtocol.Follows t (adopt i) (AfterBringUp i) (some i) := by
  refine Protocol.follows_recorded_perform fun es adoption => ⟨rfl, ?_⟩
  have hreset : custodyProtocol.Follows t
      (do perform .guardReset; pure (true, .ok ()) : Client (Bool × Result Unit RichError))
      (AfterBringUp i) none :=
    custody_perform fun _ => .inl ⟨⟨_, rfl⟩, rfl⟩
  cases adoption with
  | terminated => exact .inr ⟨nofun, rfl⟩
  | replaced old =>
      cases old with
      | none => exact hreset
      | some j => exact custody_discard hreset

/-- The candidate is brought up. -/
theorem custody_bringUp (i : ImplId) :
    custodyProtocol.Follows t (bringUp i) (AfterBringUp i) (some i) := by
  have hstep : ∀ {γ : Type} (p : Impl γ) {f : γ → Client (Bool × Result Unit RichError)},
      (∀ a, custodyProtocol.Follows t (f a) (AfterBringUp i) (some i)) →
      custodyProtocol.Follows t (onImpl i p >>= f : Client _) (AfterBringUp i) (some i) := by
    intro γ p f hf
    refine Protocol.Follows.bind _ (custody_onImpl i p _) ?_ fun e _ h => .inr ⟨nofun, h⟩
    rintro a _ rfl
    exact hf a
  refine hstep _ fun r => ?_
  cases r with
  | error e => exact .inr ⟨nofun, rfl⟩
  | ok u =>
      refine hstep _ fun r => ?_
      cases r with
      | error e => exact .inr ⟨nofun, rfl⟩
      | ok u =>
          refine hstep _ fun r => ?_
          cases r with
          | error e => exact .inr ⟨nofun, rfl⟩
          | ok u => exact custody_adopt i

/-- The scope of the candidate leaves the hands empty. -/
theorem custody_candidateScope (i : ImplId) :
    custodyProtocol.Follows t (candidateScope i) (fun _ ℓ' => ℓ' = none) (some i) := by
  refine custody_perform fun _ => ?_
  refine Protocol.Follows.bind_noThrow (AfterBringUp i)
    (Protocol.follows_attempt.mpr ((custody_bringUp i).mono fun r ℓ h _ he => by cases he; exact h))
    (Proc.noThrow_attempt _) fun r ℓ hℓ => ?_
  have hdrops : ∀ {p : Client (Result Unit RichError)},
      custodyProtocol.Follows t p (fun _ ℓ' => ℓ' = none) none →
      custodyProtocol.Follows t (do drop i; drop i; p : Client (Result Unit RichError))
        (fun _ ℓ' => ℓ' = none) none := by
    intro p hp
    refine Protocol.Follows.bind _ (custody_drop i none) ?_ fun _ _ h => h
    rintro _ _ rfl
    refine Protocol.Follows.bind _ (custody_drop i none) ?_ fun _ _ h => h
    rintro _ _ rfl
    exact hp
  -- a candidate that was not adopted is shut down first
  have hdiscard : ∀ {p : Client (Result Unit RichError)},
      custodyProtocol.Follows t p (fun _ ℓ' => ℓ' = none) none →
      custodyProtocol.Follows t
        (do shutdownImpl i .candidate; drop i; drop i; p : Client (Result Unit RichError))
        (fun _ ℓ' => ℓ' = none) (some i) := by
    intro p hp
    refine Protocol.Follows.bind _ (custody_shutdownImpl i .candidate) ?_ fun _ _ h => h
    rintro _ _ rfl
    exact hdrops hp
  rcases hℓ with ⟨⟨a, rfl⟩, rfl⟩ | ⟨hr, rfl⟩
  · exact hdrops rfl
  · rcases r with e | ⟨adopted, a⟩
    · exact hdiscard rfl
    · cases adopted with
      | false => exact hdiscard rfl
      | true => exact absurd rfl (hr a)

/-- A response that may be an exception. -/
theorem custody_orThrow (r : Except Exn α) (ℓ : Custody) :
    custodyProtocol.Follows t (orThrow r) (fun _ ℓ' => ℓ' = ℓ) ℓ := by
  cases r <;> exact rfl

/-- An allocation. -/
theorem custody_allocateOwning (client : Option Handle) (ℓ : Custody) :
    custodyProtocol.Follows t (allocateOwning client) (fun _ ℓ' => ℓ' = ℓ) ℓ := by
  have hK := Proc.closed_uses (S := ClientSig) (ε := Exn) fun o => ¬o.Moves
  refine custody_of_uses (A := fun o => ¬o.Moves) id ?_ ℓ
  refine hK.bind (uses_perform (o := .allocate) id) fun r => ?_
  cases r with
  | ok u => exact hK.pure ()
  | error e => exact hK.bind (uses_deleteClient (fun _ => id) client) fun _ => hK.throw e

/-- The `try` block of `recreateGiveUpClient`. -/
theorem custody_recreateWith (config : ClientConfig) :
    custodyProtocol.Follows t (recreateWith config) (fun _ ℓ' => ℓ' = none) none := by
  refine custody_perform fun r => ?_
  refine Protocol.Follows.bind _ (custody_orThrow r none) ?_ fun _ _ h => h
  rintro _ _ rfl
  refine custody_perform fun r => ?_
  refine Protocol.Follows.bind _ (custody_orThrow r none) ?_ fun _ _ h => h
  rintro client _ rfl
  refine Protocol.Follows.bind _ (custody_allocateOwning client none) ?_ fun _ _ h => h
  rintro _ _ rfl
  cases client with
  | none => exact rfl
  | some handle =>
      refine Protocol.Follows.bind _ (custody_allocateOwning _ none) ?_ fun _ _ h => h
      rintro _ _ rfl
      exact Protocol.follows_recorded_perform fun es i => ⟨rfl, custody_candidateScope i⟩

/-- `recreateGiveUpClient`. -/
theorem custody_recreateGiveUpClient :
    custodyProtocol.Follows t recreateGiveUpClient (fun _ ℓ' => ℓ' = none) none := by
  refine custody_perform fun entry => ?_
  cases entry with
  | recreating | terminated => exact rfl
  | won =>
      refine custody_perform fun _ => ?_
      refine Protocol.Follows.ensuring (fun _ ℓ' => ℓ' = none) ?_ ?_
      · refine custody_perform fun drained => ?_
        cases drained with
        | false => exact rfl
        | true =>
            refine custody_perform fun life => ?_
            split_ifs
            · exact rfl
            refine custody_perform fun config => custody_perform fun found => ?_
            cases found with
            | false => exact rfl
            | true => exact custody_catching (custody_recreateWith _)
      · rintro r _ rfl
        exact custody_op fun _ => ⟨rfl, rfl⟩

/-! ### Every call -/

/-- Every call leaves the hands empty. -/
theorem custody_run (c : ClientCall) :
    custodyProtocol.Follows t c.run (fun _ ℓ' => ℓ' = none) none := by
  have hreply : ∀ {γ : Type} {wrap : γ → ClientReply} {p : Client γ},
      custodyProtocol.Follows t p (fun _ ℓ' => ℓ' = none) none →
      custodyProtocol.Follows t (replying wrap p) (fun _ ℓ' => ℓ' = none) none := fun hp =>
    Protocol.Follows.bind _ hp (fun _ _ h => h) fun _ _ h => h
  cases c with
  | recreateGiveUpClient => exact hreply custody_recreateGiveUpClient
  | shutdown => exact hreply custody_shutdown
  | destructor => exact hreply custody_destructor
  | watchdog i =>
      exact hreply (custody_of_uses ClientOp.Watches.not_moves (uses_watchdogThread i) none)
  | _ => exact hreply (custody_of_uses ClientOp.Serves.not_moves (uses_call _ _) none)

/-- So does every thread. -/
theorem custody_runAll (cs : List ClientCall) :
    custodyProtocol.Follows t (ClientCall.runAll cs) (fun _ ℓ' => ℓ' = none) none := by
  induction cs with
  | nil => exact rfl
  | cons c cs ih =>
      refine Protocol.Follows.bind _ (custody_run c) ?_ fun _ _ h => h
      rintro reply _ rfl
      exact Protocol.Follows.bind _ ih (fun _ _ h => h) fun _ _ h => h

end Client

/-! ### The balance -/

/-- The hands hold `Impl` number `i`. -/
def Custody.holds (i : ImplId) (ℓ : Custody) : Int := if ℓ = some i then 1 else 0

/-- The event starts the shutdown of `Impl` number `i`. -/
def beginsShutdown (i : ImplId) (e : Event ClientSig) : Bool :=
  match e.op with
  | .shutdownBegin j _ => j == i
  | _ => false

/-- In how many hands `Impl` number `i` is. -/
def inHands (i : ImplId) (h : ClientHistory) : Int :=
  Event.tally Custody.track none (Custody.holds i) h

/-- How often it was shut down. -/
def shutdowns (i : ImplId) (h : ClientHistory) : Nat := h.countP (beginsShutdown i)

/-- Whether it was constructed. -/
def built (i : ImplId) (s : ClientState) : Int := if (s.impls i).isSome = true then 1 else 0

/-- An `Impl` that was constructed is in one place, and no other is anywhere. -/
def CustodyBalance (h : ClientHistory) (s : ClientState) : Prop :=
  ∀ i, Custody.holds i s.pImpl + inHands i h + shutdowns i h = built i s

variable {t : Tid} {o : ClientOp} {r : o.Resp} {i : ImplId} {h : ClientHistory}
  {s s' : ClientState}

namespace Custody

theorem holds_nonneg (i : ImplId) (ℓ : Custody) : 0 ≤ holds i ℓ := by
  unfold holds
  split_ifs <;> decide

theorem holds_pos {ℓ : Custody} : 0 < holds i ℓ ↔ ℓ = some i := by
  unfold holds
  split_ifs with hℓ <;> simp [hℓ]

@[simp]
theorem holds_none (i : ImplId) : holds i none = 0 := rfl

@[simp]
theorem holds_self (i : ImplId) : holds i (some i) = 1 := if_pos rfl

theorem holds_of_ne {i j : ImplId} (hij : j ≠ i) : holds i (some j) = 0 :=
  if_neg fun h => hij (Option.some.inj h)

end Custody

/-- An event changes the number of hands by what it does to those of its own thread. -/
theorem inHands_cons (i : ImplId) : inHands i (⟨t, o, r⟩ :: h) =
    inHands i h + Custody.holds i ((custody t h).track h o r) - Custody.holds i (custody t h) :=
  rfl

theorem shutdowns_cons (i : ImplId) (e : Event ClientSig) :
    (shutdowns i (e :: h) : Int) = shutdowns i h + if beginsShutdown i e = true then 1 else 0 := by
  rw [shutdowns, List.countP_cons]
  push_cast
  rfl

/-- The operations that move nothing leave `pImpl`, and construct nothing. -/
theorem still_of_not_moves (ho : ¬o.Moves) (hexec : s.exec t o r = some s') :
    s'.pImpl = s.pImpl ∧ ∀ i, (s'.impls i).isSome = (s.impls i).isSome := by
  have hframe := ClientState.frame_of_exec hexec
  have hreplaces : ¬o.Replaces := fun h => by
    cases o <;> first | exact ho trivial | exact h.elim
  refine ⟨hframe.pImpl hreplaces, fun j => ?_⟩
  by_cases hbuilds : o.Builds
  · cases o with
    | implConstruct config client => exact absurd trivial ho
    | impl i o =>
        -- an operation of an `Impl` changes one that is there
        obtain ⟨w, hi, hw⟩ := Option.bind_eq_some_iff.mp hexec
        obtain ⟨w', -, rfl⟩ := Option.map_eq_some_iff.mp hw
        by_cases hj : j = i
        · subst hj
          simp [ClientState.setImpl, hi]
        · simp [ClientState.setImpl, hj]
    | _ => exact hbuilds.elim
  · rw [hframe.impls hbuilds]

/-- The operations that move nothing shut nothing down. -/
theorem not_beginsShutdown (ho : ¬o.Moves) (i : ImplId) : beginsShutdown i ⟨t, o, r⟩ = false := by
  cases o <;> first | rfl | exact absurd trivial ho

/-- A new `Impl` is one that was not there. -/
theorem built_setImpl {j : ImplId} (hnone : s.impls j = none) (i : ImplId) (w : ImplState) :
    built i (s.setImpl j w) = built i s + Custody.holds i (some j) := by
  by_cases hi : i = j
  · subst hi
    simp [built, ClientState.setImpl, hnone]
  · rw [Custody.holds_of_ne (Ne.symm hi)]
    simp [built, ClientState.setImpl, hi]

/-- What an operation takes from one place it puts into another. -/
theorem custody_transfer (hexec : s.exec t o r = some s') {ℓ : Custody} (hallows : ℓ.Allows o r)
    (i : ImplId) :
    Custody.holds i s'.pImpl + Custody.holds i (ℓ.track h o r) +
        (if beginsShutdown i ⟨t, o, r⟩ = true then 1 else 0) - built i s' =
      Custody.holds i s.pImpl + Custody.holds i ℓ - built i s := by
  by_cases hmoves : o.Moves
  · cases o with
    | implConstruct config client =>
        obtain rfl := hallows
        obtain ⟨hnone, rfl⟩ := ClientState.whenever_eq_some.mp hexec
        -- one more `Impl`, which is in the hands of its thread
        have hbuilt := built_setImpl hnone i (.construct config s.endpointUrl client)
        change Custody.holds i s.pImpl + Custody.holds i (some r) + 0 - built i (s.setImpl r _) = _
        rw [hbuilt, Custody.holds_none]
        omega
    | pImplTake =>
        obtain rfl := hallows
        obtain ⟨rfl, rfl⟩ := ClientState.whenever_eq_some.mp hexec
        -- from `pImpl` into the hands of the thread
        change Custody.holds i none + Custody.holds i s.pImpl + 0 - built i s = _
        omega
    | pImplAdopt candidate =>
        obtain rfl := hallows
        cases r with
        | terminated =>
            obtain ⟨-, rfl⟩ := ClientState.whenever_eq_some.mp hexec
            change Custody.holds i s.pImpl + Custody.holds i (some candidate) + 0 - built i s = _
            omega
        | replaced old =>
            obtain ⟨⟨-, rfl⟩, rfl⟩ := ClientState.whenever_eq_some.mp hexec
            -- the candidate and the old `Impl` change places
            change Custody.holds i (some candidate) + Custody.holds i s.pImpl + 0 - built i s = _
            omega
    | shutdownBegin j caller =>
        obtain rfl := hallows
        obtain rfl := Option.some.inj hexec
        -- out of the hands of the thread, into the history
        change Custody.holds i s.pImpl + Custody.holds i none + (if (j == i) = true then 1 else 0) -
          built i s = _
        by_cases hj : j = i
        · simp [hj]
        · simp [hj, Custody.holds_of_ne hj]
    | _ => exact hmoves.elim
  · obtain ⟨hpImpl, himpls⟩ := still_of_not_moves hmoves hexec
    rw [(ClientOp.allows_of_not_moves hmoves h ℓ r).2, hpImpl, not_beginsShutdown hmoves i, built,
      himpls i]
    simp [built]

/-- So every operation keeps the balance. -/
theorem custodyBalance_step (hinv : CustodyBalance h s) (hexec : s.exec t o r = some s')
    (hallows : (custody t h).Allows o r) : CustodyBalance (⟨t, o, r⟩ :: h) s' := by
  intro i
  have hbefore := hinv i
  have htransfer := custody_transfer (h := h) hexec hallows i
  rw [inHands_cons, shutdowns_cons]
  omega

/-! ### Runs -/

variable {calls : Tid → List ClientCall} {endpointUrl : String} {w : ImplState} {c : ClientPool}

/-- A client that nobody has called yet has one `Impl`, in `pImpl`. -/
theorem custodyBalance_start : CustodyBalance [] (ClientState.start endpointUrl w) := by
  intro i
  change Custody.holds i (some 0) + 0 + ((0 : Nat) : Int) = _
  by_cases hi : i = 0
  · subst hi
    simp [built, ClientState.start]
  · simp [built, ClientState.start, hi, Custody.holds_of_ne (Ne.symm hi)]

/-- The hands that are not empty are few, and a thread that has returned has nothing in them. -/
theorem custodyBalance_of_reach (hc : ClientPool.Reach (.start calls (.start endpointUrl w)) c) :
    CustodyBalance c.state.history c.state.world ∧
      ∀ t a, c.Returned t a → custody t c.state.history = none := by
  have hfollows : ∀ u, custodyProtocol.Follows u
      ((ClientPool.start calls (.start endpointUrl w)).pool u) (fun _ ℓ => ℓ = none) none :=
    fun u => Client.custody_runAll (calls u)
  refine ⟨?_, (Protocol.recorded_each (Q := fun _ _ ℓ => ℓ = none) rfl hfollows hc).2⟩
  refine Protocol.recorded_invariant
    (fun s : Traced ClientSig ClientState => CustodyBalance s.history s.world)
    (Q := fun _ _ ℓ => ℓ = none) rfl hfollows custodyBalance_start ?_ hc
  intro t o r s s' hinv hs hallows
  rw [hs.history_eq]
  exact custodyBalance_step hinv hs.exec_eq hallows

/-- `Impl` number `i` is in the hands of some thread. -/
def InHands (i : ImplId) (h : ClientHistory) : Prop := ∃ t, custody t h = some i

/-- Each `Impl` is shut down once, by the one who has it. -/
structure SingleCustody (c : ClientPool) : Prop where
  /-- An `Impl` that was constructed is in `pImpl`, or in the hands of a thread, or shut down. -/
  placed : ∀ i, (c.state.world.impls i).isSome = true →
    c.state.world.pImpl = some i ∧ ¬InHands i c.state.history ∧ shutdowns i c.state.history = 0 ∨
    c.state.world.pImpl ≠ some i ∧ InHands i c.state.history ∧ shutdowns i c.state.history = 0 ∨
    c.state.world.pImpl ≠ some i ∧ ¬InHands i c.state.history ∧ shutdowns i c.state.history = 1
  /-- No other is anywhere. -/
  absent : ∀ i, c.state.world.impls i = none →
    c.state.world.pImpl ≠ some i ∧ ¬InHands i c.state.history ∧ shutdowns i c.state.history = 0
  /-- No two threads have the same. -/
  unique : ∀ t u i, custody t c.state.history = some i → custody u c.state.history = some i → t = u
  /-- None is shut down twice, whoever the callers are. -/
  once : ∀ i, shutdowns i c.state.history ≤ 1
  /-- When all calls have ended, each is in `pImpl` or was shut down. -/
  settled : c.Quiescent → ∀ i, (c.state.world.impls i).isSome = true →
    c.state.world.pImpl = some i ∨ shutdowns i c.state.history = 1

/-- What one thread has in its hands is counted. -/
theorem holds_le_inHands (i : ImplId) (t : Tid) (h : ClientHistory) :
    Custody.holds i (custody t h) ≤ inHands i h :=
  Event.le_tally (f := Custody.holds i) rfl (Custody.holds_nonneg i) t

/-- An `Impl` is in the hands of a thread when the number of hands is positive. -/
theorem inHands_pos : 0 < inHands i h ↔ InHands i h := by
  constructor
  · intro hpos
    obtain ⟨t, ht⟩ := Event.exists_of_tally_pos (f := Custody.holds i) rfl hpos
    exact ⟨t, Custody.holds_pos.mp ht⟩
  · rintro ⟨t, ht⟩
    exact (Custody.holds_pos.mpr ht).trans_le (holds_le_inHands i t h)

/-- The three places of the balance are not negative, and the sum is one at most. -/
theorem CustodyBalance.bounds (hbalance : CustodyBalance h s) (i : ImplId) :
    Custody.holds i s.pImpl + inHands i h + shutdowns i h = built i s ∧
      0 ≤ Custody.holds i s.pImpl ∧ 0 ≤ inHands i h ∧ built i s ≤ 1 := by
  refine ⟨hbalance i, Custody.holds_nonneg i _,
    (Custody.holds_nonneg i _).trans (holds_le_inHands i 0 h), ?_⟩
  unfold built
  split_ifs <;> decide

/-- In every run, each `Impl` is in one place, and is shut down once at most. -/
theorem singleCustody (hc : ClientPool.Reach (.start calls (.start endpointUrl w)) c) :
    SingleCustody c := by
  obtain ⟨hbalance, hreturned⟩ := custodyBalance_of_reach hc
  refine ⟨fun i hi => ?_, fun i hi => ?_, fun t u i ht hu => ?_, fun i => ?_, fun hquiet i hi => ?_⟩
  · obtain ⟨hsum, hcurrent, hheld, -⟩ := hbalance.bounds i
    rw [built, if_pos hi] at hsum
    rw [Ne, ← Custody.holds_pos, ← inHands_pos]
    omega
  · obtain ⟨hsum, hcurrent, hheld, -⟩ := hbalance.bounds i
    rw [built, hi] at hsum
    simp only [Option.isSome_none, Bool.false_eq_true, if_false] at hsum
    rw [Ne, ← Custody.holds_pos, ← inHands_pos]
    omega
  · obtain ⟨hsum, hcurrent, -, hone⟩ := hbalance.bounds i
    by_contra hne
    -- two hands would count twice, and the sum is at most one
    have hboth : Custody.holds i (custody t c.state.history) +
        Custody.holds i (custody u c.state.history) ≤ inHands i c.state.history :=
      Event.add_le_tally (f := Custody.holds i) rfl (Custody.holds_nonneg i) hne
    rw [ht, hu, Custody.holds_self] at hboth
    omega
  · obtain ⟨hsum, hcurrent, hheld, hone⟩ := hbalance.bounds i
    omega
  · obtain ⟨hsum, hcurrent, hheld, -⟩ := hbalance.bounds i
    have hnone : ¬InHands i c.state.history := by
      rintro ⟨t, ht⟩
      obtain ⟨a, ha⟩ := hquiet t
      exact absurd ((hreturned t a ha).symm.trans ht) (Option.some_ne_none i).symm
    rw [built, if_pos hi] at hsum
    rw [← inHands_pos] at hnone
    rw [← Custody.holds_pos]
    omega

/-- A client that was given up is recreated. -/
def recreated : Option ClientPool :=
  ClientPool.run [[.recreateGiveUpClient]] { ImplState.connected with lifeState := .givenUp }
    (({} : Environment).clientMoves 0 118)

/-- The old `Impl` was shut down, and the new one is in `pImpl`. -/
theorem singleCustody_recreated :
    ∃ c : ClientPool, SingleCustody c ∧ c.Returned 0 (.ok [.result (.ok ())]) ∧
      c.state.world.pImpl = some 1 ∧ shutdowns 0 c.state.history = 1 := by
  have hplay : recreated.any (fun d => d.result? 0 == some (.ok [.result (.ok ())]) &&
      (d.state.world.pImpl == some 1 && shutdowns 0 d.state.history == 1)) = true := by
    decide
  obtain ⟨d, -, hd, hcheck⟩ := Config.exists_reach_of_play hplay
  simp only [Bool.and_eq_true, beq_iff_eq] at hcheck
  exact ⟨d, singleCustody hd, Config.returned_of_result? hcheck.1, hcheck.2⟩

end OPCUAPacking
