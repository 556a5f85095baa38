import OPCUAPacking.Client.Ownership

/-!
# Lifetime

An `Impl` is there as long as somebody works on it. The watchdog thread of an `Impl` starts with a
bare pointer, and gets a `shared_ptr` only once it runs; what keeps the `Impl` until then is that
whoever has to shut it down joins the watchdog before its own pointer goes.

* `Upkeep` — who has to shut an `Impl` down, and what its watchdog does meanwhile.
* `Upkeep.step` — every deal keeps it.
* `lifetime` — the result about every run: nothing is used after it is destroyed, and the last
  pointer goes when the watchdog is joined and the stop flag is set.
-/

namespace OPCUAPacking

open Interleaving

namespace Estate

/-- Who has an `Impl` in charge: `pImpl`, or a thread. -/
def charges (y : Estate) (g : Tid → Grip) (a : Option Tid) : Option ImplId :=
  a.elim y.pImpl fun t => (g t).charge.impl?

/-- What the watchdog of an `Impl` does. -/
def watchdog (y : Estate) (i : ImplId) : Option Watchdog := (y.impls i).map (·.watchdog)

end Estate

/-- The upkeep of the `Impl`s. -/
structure Upkeep (g : Tid → Grip) (y : Estate) : Prop where
  /-- No two have the same in charge. -/
  apart : Apart (y.charges g)
  /-- A thread holds a pointer to what it has in charge. -/
  owned : ∀ t i, (g t).charge.impl? = some i → i ∈ (g t).owns
  /-- A candidate whose watchdog may be started has none. -/
  fresh : ∀ t i, (g t).charge = .fresh i → y.watchdog i = some .none
  /-- What was joined is not started again. -/
  joined : ∀ t i, (g t).charge = .joined i → ∃ d, y.watchdog i = some d ∧ d.joinable = false
  /-- Each `Impl` is down, or somebody has it in charge. -/
  covered : ∀ i k, y.impls i = some k → k.IsDown ∨ Held (y.charges g) i
  /-- A watchdog thread without a pointer has not been joined. -/
  early : ∀ t i, (g t).early = some i → y.watchdog i = some (.running t)
  /-- Nor has one that has found itself to be the watchdog. -/
  self : ∀ t i, (g t).self = some i → y.watchdog i = some (.running t)

variable {t u : Tid} {g : Tid → Grip} {n : ImplId → Int} {y y' : Estate} {ℓ ℓ' : Grip} {i : ImplId}

/-! ### The charges -/

namespace Charge

variable {c : Charge} {i j : ImplId}

@[simp]
theorem start_impl? (i : ImplId) (c : Charge) : (c.start i).impl? = c.impl? := by
  unfold start
  split_ifs with hc
  · rw [hc]
    rfl
  · rfl

@[simp]
theorem settle_impl? (i : ImplId) (c : Charge) : (c.settle i).impl? = c.impl? := by
  unfold settle
  split_ifs with hc
  · rw [hc]
    rfl
  · rfl

/-! No step of a charge makes it a fresh one, and only `settle` makes it a joined one. -/

theorem fresh_of_start (h : c.start j = .fresh i) : c = .fresh i := by
  unfold start at h
  split_ifs at h
  exact h

theorem fresh_of_settle (h : c.settle j = .fresh i) : c = .fresh i := by
  unfold settle at h
  split_ifs at h
  exact h

theorem fresh_of_finish (h : c.finish j = .fresh i) : c = .fresh i := by
  unfold finish at h
  split_ifs at h
  exact h

theorem joined_of_start (h : c.start j = .joined i) : c = .joined i := by
  unfold start at h
  split_ifs at h
  exact h

theorem joined_of_settle (h : c.settle j = .joined i) : c = .joined i ∨ i = j := by
  unfold settle at h
  split_ifs at h
  · exact .inr (Charge.joined.inj h).symm
  · exact .inl h

theorem joined_of_finish (h : c.finish j = .joined i) : c = .joined i := by
  unfold finish at h
  split_ifs at h
  exact h

end Charge

namespace Estate

theorem charges_update (y : Estate) (g : Tid → Grip) (t : Tid) (ℓ : Grip) :
    y.charges (Function.update g t ℓ) =
      Function.update (y.charges g) (some t) ℓ.charge.impl? := by
  funext a
  rcases a with _ | u
  · simp [charges]
  · by_cases hu : u = t
    · subst hu
      simp [charges]
    · simp [charges, hu]

/-- The charges depend on `pImpl` and on the charges of the threads. -/
theorem charges_of_pImpl (y y' : Estate) (g : Tid → Grip) :
    y'.charges g = Function.update (y.charges g) none y'.pImpl := by
  funext a
  rcases a with _ | u
  · simp [charges]
  · simp [charges]

/-- They are the same when these are. -/
theorem charges_same (hpImpl : y'.pImpl = y.pImpl) (hcharge : ℓ.charge.impl? = (g t).charge.impl?) :
    y'.charges (Function.update g t ℓ) = y.charges g := by
  rw [charges_update, charges_of_pImpl y y', hpImpl, hcharge]
  have hnone : Function.update (y.charges g) none y.pImpl = y.charges g :=
    Function.update_eq_self none _
  rw [hnone]
  exact Function.update_eq_self (some t) _

end Estate

/-- What a deal does to the charges: nothing, or `pImpl` and the thread exchange them, or the thread
takes a new one, or gives one up. -/
theorem Deal.charges (hdeal : Deal t (g t) y ℓ' y') :
    y'.charges (Function.update g t ℓ') = y.charges g ∨
    y'.charges (Function.update g t ℓ') = y.charges g ∘ Equiv.swap none (some t) ∨
    (∃ i, y.impls i = none ∧ (g t).charge = .none ∧
      y'.charges (Function.update g t ℓ') = Function.update (y.charges g) (some t) (some i)) ∨
    ∃ i k, (g t).charge = .joined i ∧ y.impls i = some k ∧
      y'.impls i = some { k with stop := true } ∧
      y'.charges (Function.update g t ℓ') = Function.update (y.charges g) (some t) none := by
  -- the thread and `pImpl` exchange their charges when one of them has none, or both have one
  have hswap : ∀ {z : Estate} {ℓ : Grip}, z.pImpl = (g t).charge.impl? → ℓ.charge.impl? = y.pImpl →
      z.charges (Function.update g t ℓ) = y.charges g ∘ Equiv.swap none (some t) := by
    intro z ℓ hz hℓ
    funext a
    rcases a with _ | u
    · simpa [Estate.charges] using hz
    · by_cases hu : u = t
      · subst hu
        simpa [Estate.charges] using hℓ
      · have hne : (some u : Option Tid) ≠ some t := fun h => hu (Option.some.inj h)
        simp [Estate.charges, Equiv.swap_apply_of_ne_of_ne (Option.some_ne_none u) hne, hu]
  cases hdeal with
  | take hℓ hy => exact .inr (.inl (hswap (by rw [hℓ]; rfl) hy.symm))
  | replace hℓ hj hy => exact .inr (.inl (hswap hℓ.symm hy.symm))
  | fill hℓ hj hy => exact .inr (.inl (hswap hℓ.symm hy.symm))
  | @construct i client hℓ hcharge hy =>
      refine .inr (.inr (.inl ⟨i, hy, hcharge, ?_⟩))
      rw [Estate.charges_update]
      rfl
  | @finish i k hy =>
      by_cases hcharge : (g t).charge = .joined i
      · refine .inr (.inr (.inr ⟨i, k, hcharge, hy, by simp [Estate.setImpl], ?_⟩))
        rw [Estate.charges_update, Charge.finish, if_pos hcharge]
        rfl
      · refine .inl (Estate.charges_same rfl ?_)
        simp [Charge.finish, hcharge]
  | start | create | settle | join | detach =>
      exact .inl (Estate.charges_same rfl (by simp))
  | _ => exact .inl (Estate.charges_same rfl rfl)

/-! ### The watchdogs -/

/-- What a deal does to the watchdog of an `Impl` that was constructed. -/
theorem Deal.watchdog {d : Watchdog} (hdeal : Deal t ℓ y ℓ' y') (hi : y.watchdog i = some d) :
    y'.watchdog i = some d ∨
    (ℓ.charge = .fresh i ∧ ℓ'.charge = .held i ∧ y'.watchdog i = some .created) ∨
    (d = .finished ∧ y'.watchdog i = some .joined) ∨
    (ℓ.self = some i ∧ ℓ.early = none ∧ ℓ'.self = none ∧ y'.watchdog i = some .detached) ∨
    (d = .created ∧ ℓ.early = none ∧ y'.watchdog i = some (.running t)) ∨
    (d = .running t ∧ ℓ.early = none ∧ ℓ.self = none ∧ y'.watchdog i = some .finished) := by
  have hset : ∀ (j : ImplId) (k : Assets), (y.setImpl j k).watchdog i =
      if i = j then some k.watchdog else y.watchdog i := by
    intro j k
    by_cases hij : i = j
    · subst hij
      simp [Estate.watchdog, Estate.setImpl]
    · simp [Estate.watchdog, Estate.setImpl, hij]
  have hold : ∀ {j k}, y.impls j = some k → i = j → k.watchdog = d := by
    rintro j k hk rfl
    simpa [Estate.watchdog, hk] using hi
  cases hdeal with
  -- each deal is about one `Impl`: if that is `i` it says how the watchdog moves, else nothing
  -- moves
  | @construct j client hℓ hcharge hy =>
      have hij : i ≠ j := by
        rintro rfl
        simp [Estate.watchdog, hy] at hi
      refine .inl ((hset j _).trans ?_)
      rw [if_neg hij, hi]
  | @empty j k hℓ hending hy | @finish j k hy =>
      refine .inl ((hset j _).trans ?_)
      split_ifs with hij
      · rw [hold hy hij]
      · exact hi
  | @create j k hℓ hy =>
      by_cases hij : i = j
      · subst hij
        exact .inr (.inl ⟨hℓ, by simp [hℓ, Charge.start], (hset i _).trans (if_pos rfl)⟩)
      · exact .inl ((hset j _).trans ((if_neg hij).trans hi))
  | @join j k hy hk =>
      by_cases hij : i = j
      · subst hij
        exact .inr (.inr (.inl ⟨(hold hy rfl).symm.trans hk, (hset i _).trans (if_pos rfl)⟩))
      · exact .inl ((hset j _).trans ((if_neg hij).trans hi))
  | @detach j k hℓ hearly hy =>
      by_cases hij : i = j
      · subst hij
        exact .inr (.inr (.inr (.inl ⟨hℓ, hearly, rfl, (hset i _).trans (if_pos rfl)⟩)))
      · exact .inl ((hset j _).trans ((if_neg hij).trans hi))
  | @begin j k hℓ hy hk =>
      by_cases hij : i = j
      · subst hij
        exact .inr (.inr (.inr (.inr (.inl ⟨(hold hy rfl).symm.trans hk, hℓ,
          (hset i _).trans (if_pos rfl)⟩))))
      · exact .inl ((hset j _).trans ((if_neg hij).trans hi))
  | @finishThread j k hℓ hself hy hk =>
      by_cases hij : i = j
      · subst hij
        exact .inr (.inr (.inr (.inr (.inr ⟨(hold hy rfl).symm.trans hk, hℓ, hself,
          (hset i _).trans (if_pos rfl)⟩))))
      · exact .inl ((hset j _).trans ((if_neg hij).trans hi))
  | _ => exact .inl hi

namespace Upkeep

/-- Two threads do not have the same in charge. -/
theorem charge_unique (hu : Upkeep g y) (ht : (g t).charge.impl? = some i)
    (hu' : (g u).charge.impl? = some i) : t = u :=
  Option.some.inj (hu.apart (a := some t) (b := some u) ht hu')

/-- A watchdog that runs is the same after an operation of another thread. -/
theorem running_of_deal (hup : Upkeep g y) (hdeal : Deal t (g t) y ℓ' y')
    (hi : y.watchdog i = some (.running u)) :
    y'.watchdog i = some (.running u) ∨
      u = t ∧ (g t).early = none ∧ ((g t).self = some i → ℓ'.self = none) := by
  rcases hdeal.watchdog hi with hsame | ⟨hfresh, -, -⟩ | ⟨⟨⟩, -⟩ | ⟨hself, hearly, hnone, -⟩ |
    ⟨⟨⟩, -⟩ | ⟨hrunning, hearly, hself, -⟩
  · exact .inl hsame
  · exact absurd ((hup.fresh t i hfresh).symm.trans hi) (by rintro ⟨⟩)
  · have ht : some (Watchdog.running t) = some (.running u) := (hup.self t i hself).symm.trans hi
    exact .inr ⟨(Watchdog.running.inj (Option.some.inj ht)).symm, hearly, fun _ => hnone⟩
  · refine .inr ⟨Watchdog.running.inj hrunning, hearly, fun h => ?_⟩
    exact absurd (hself.symm.trans h) (Option.some_ne_none i).symm

/-- A watchdog that is joined stays so, unless it may be started. -/
theorem settled_of_deal (hdeal : Deal t (g t) y ℓ' y') {d : Watchdog}
    (hi : y.watchdog i = some d) (hd : d.joinable = false) :
    (∃ d', y'.watchdog i = some d' ∧ d'.joinable = false) ∨
      (g t).charge = .fresh i ∧ ℓ'.charge = .held i := by
  rcases hdeal.watchdog hi with hsame | ⟨hfresh, hheld, -⟩ | ⟨rfl, -⟩ | ⟨-, -, -, hdetached⟩ |
    ⟨rfl, -⟩ | ⟨rfl, -⟩
  · exact .inl ⟨d, hsame, hd⟩
  · exact .inr ⟨hfresh, hheld⟩
  · cases hd
  · exact .inl ⟨.detached, hdetached, rfl⟩
  · cases hd
  · cases hd

end Upkeep

/-! ### What a thread takes on -/

theorem Deal.owned (hdeal : Deal t ℓ y ℓ' y')
    (hℓ : ∀ i, ℓ.charge.impl? = some i → i ∈ ℓ.owns) (hi : ℓ'.charge.impl? = some i) :
    i ∈ ℓ'.owns := by
  cases hdeal with
  | copy | retain | lockSelf => exact List.mem_cons_of_mem _ (hℓ i hi)
  | take | replace | construct =>
      obtain rfl := Option.some.inj hi
      exact List.mem_cons_self
  | fill => cases hi
  | release _ hcharge | releaseLast _ _ hcharge =>
      rw [show (Grip.letGo ℓ _).charge = ℓ.charge from rfl, hcharge] at hi
      cases hi
  | start | create =>
      rw [Charge.start_impl?] at hi
      exact hℓ i hi
  | settle | join | detach =>
      rw [Charge.settle_impl?] at hi
      exact hℓ i hi
  | @finish j k =>
      simp only [Charge.finish] at hi
      split_ifs at hi
      · cases hi
      · exact hℓ i hi
  | _ => exact hℓ i hi

theorem Deal.fresh (hdeal : Deal t ℓ y ℓ' y') (hi : ℓ'.charge = .fresh i) :
    ℓ.charge = .fresh i ∨ y'.watchdog i = some .none := by
  cases hdeal with
  | take | replace | fill => cases hi
  | construct =>
      obtain rfl := Charge.fresh.inj hi
      exact .inr (by simp [Estate.watchdog, Estate.retain, Estate.setImpl])
  | start | create => exact .inl (Charge.fresh_of_start hi)
  | settle | join | detach => exact .inl (Charge.fresh_of_settle hi)
  | finish => exact .inl (Charge.fresh_of_finish hi)
  | _ => exact .inl hi

theorem Deal.joined (hdeal : Deal t ℓ y ℓ' y') (hi : ℓ'.charge = .joined i) :
    ℓ.charge = .joined i ∨ ∃ d, y'.watchdog i = some d ∧ d.joinable = false := by
  have hset : ∀ k : Assets, (y.setImpl i k).watchdog i = some k.watchdog := by
    intro k
    simp [Estate.watchdog, Estate.setImpl]
  cases hdeal with
  | take | replace | fill | construct => cases hi
  | start | create => exact .inl (Charge.joined_of_start hi)
  | @settle j k hy hk =>
      -- there was no thread to join
      refine (Charge.joined_of_settle hi).imp_right ?_
      rintro rfl
      exact ⟨k.watchdog, by simp [Estate.watchdog, hy], hk⟩
  | join =>
      refine (Charge.joined_of_settle hi).imp_right ?_
      rintro rfl
      exact ⟨.joined, hset _, rfl⟩
  | detach =>
      refine (Charge.joined_of_settle hi).imp_right ?_
      rintro rfl
      exact ⟨.detached, hset _, rfl⟩
  | finish => exact .inl (Charge.joined_of_finish hi)
  | _ => exact .inl hi

theorem Deal.early (hdeal : Deal t ℓ y ℓ' y') (hi : ℓ'.early = some i) :
    ℓ.early = some i ∨ y'.watchdog i = some (.running t) := by
  cases hdeal with
  | lockSelf => cases hi
  | begin =>
      obtain rfl := Option.some.inj hi
      exact .inr (by simp [Estate.watchdog, Estate.setImpl])
  | _ => exact .inl hi

theorem Deal.self (hdeal : Deal t ℓ y ℓ' y') (hi : ℓ'.self = some i) :
    ℓ.self = some i ∨ y'.watchdog i = some (.running t) := by
  cases hdeal with
  | detach => cases hi
  | isSelf hy hk =>
      obtain rfl := Option.some.inj hi
      exact .inr (by simp [Estate.watchdog, hy, hk])
  | _ => exact .inl hi

/-- A stop flag that is set stays so. -/
theorem Deal.stop {k k' : Assets} (hdeal : Deal t ℓ y ℓ' y') (hk : y.impls i = some k)
    (hstop : k.stop = true) (hk' : y'.impls i = some k') : k'.stop = true := by
  have hset : ∀ {j : ImplId} {a b : Assets}, y.impls j = some a →
      (y.setImpl j b).impls i = some k' → (b.stop = a.stop ∨ b.stop = true) → k'.stop = true := by
    intro j a b ha hb' hb
    by_cases hij : i = j
    · subst hij
      obtain rfl : b = k' := by simpa [Estate.setImpl] using hb'
      obtain rfl : a = k := Option.some.inj (ha.symm.trans hk)
      rcases hb with hb | hb
      · exact hb.trans hstop
      · exact hb
    · obtain rfl : k = k' := by simpa [Estate.setImpl, hij, hk] using hb'
      exact hstop
  cases hdeal with
  -- an `Impl` is constructed under a number that none has had
  | @construct j client hℓ hcharge hy =>
      have hij : i ≠ j := by
        rintro rfl
        exact absurd (hy.symm.trans hk) (Option.some_ne_none k).symm
      obtain rfl : k = k' := by simpa [Estate.retain, Estate.setImpl, hij, hk] using hk'
      exact hstop
  | empty hℓ hending hy | create hℓ hy | join hy | detach hℓ hearly hy | begin hℓ hy
  | finishThread hℓ hself hy => exact hset hy hk' (.inl rfl)
  | finish hy => exact hset hy hk' (.inr rfl)
  | _ =>
      obtain rfl : k = k' := Option.some.inj (hk.symm.trans hk')
      exact hstop

/-- What is constructed has its constructor in charge. -/
theorem Deal.built (hdeal : Deal t (g t) y ℓ' y') (hi : y.impls i = none)
    (hi' : y'.impls i ≠ none) :
    Held (y'.charges (Function.update g t ℓ')) i := by
  have hset : ∀ {j : ImplId} {a b : Assets}, y.impls j = some a →
      (y.setImpl j b).impls i = none := by
    intro j a b ha
    have hij : i ≠ j := by
      rintro rfl
      exact absurd (hi.symm.trans ha) (Option.some_ne_none a).symm
    simpa [Estate.setImpl, hij] using hi
  cases hdeal with
  | @construct j client hℓ hcharge hy =>
      by_cases hij : i = j
      · subst hij
        exact ⟨some t, by simp [Estate.charges, Charge.impl?]⟩
      · exact absurd (by simpa [Estate.retain, Estate.setImpl, hij] using hi) hi'
  | empty hℓ hending hy | create hℓ hy | join hy | detach hℓ hearly hy | begin hℓ hy
  | finishThread hℓ hself hy | finish hy => exact absurd (hset hy) hi'
  | _ => exact absurd hi hi'

namespace Upkeep

/-- Nobody has an `Impl` in charge that was not constructed. -/
theorem built_of_held (hup : Upkeep g y) (hg : Ledger g n y) (hi : Held (y.charges g) i) :
    y.impls i ≠ none := by
  obtain ⟨_ | t, ht⟩ := hi
  · exact hg.built_of_refs_pos (hg.refs_pos_of_pImpl ht)
  · exact hg.built_of_refs_pos (hg.refs_pos_of_owns (hup.owned t i ht))

theorem apart_of_deal (hup : Upkeep g y) (hg : Ledger g n y) (hdeal : Deal t (g t) y ℓ' y') :
    Apart (y'.charges (Function.update g t ℓ')) := by
  rcases hdeal.charges with hsame | hswap | ⟨i, hnone, -, hgain⟩ | ⟨i, k, -, -, -, hlose⟩
  · exact hsame ▸ hup.apart
  · exact hswap ▸ hup.apart.comp _
  · exact hgain ▸ hup.apart.gain (fun hheld => hup.built_of_held hg hheld hnone) _
  · exact hlose ▸ hup.apart.lose _

/-- An `Impl` that is down stays down, unless its watchdog may be started. -/
theorem down_of_deal (hdeal : Deal t (g t) y ℓ' y') {k k' : Assets} (hk : y.impls i = some k)
    (hdown : k.IsDown) (hk' : y'.impls i = some k') :
    k'.IsDown ∨ (g t).charge = .fresh i ∧ ℓ'.charge = .held i := by
  have hwatchdog : y.watchdog i = some k.watchdog := by simp [Estate.watchdog, hk]
  refine (settled_of_deal hdeal hwatchdog hdown.1).imp_left ?_
  rintro ⟨d, hd, hjoinable⟩
  obtain rfl : k'.watchdog = d := by simpa [Estate.watchdog, hk'] using hd
  exact ⟨hjoinable, hdeal.stop hk hdown.2 hk'⟩

/-- The charge that a thread gives up is down. -/
theorem covered_of_deal (hup : Upkeep g y) (hdeal : Deal t (g t) y ℓ' y') {k' : Assets}
    (hk' : y'.impls i = some k') :
    k'.IsDown ∨ Held (y'.charges (Function.update g t ℓ')) i := by
  cases hk : y.impls i with
  | none => exact .inr (hdeal.built hk (hk' ▸ Option.some_ne_none k'))
  | some k =>
      -- what is down stays down, or is charged to the thread that starts it
      have hdown : k.IsDown → k'.IsDown ∨ Held (y'.charges (Function.update g t ℓ')) i :=
        fun hdown => (down_of_deal hdeal hk hdown hk').imp_right fun h =>
          ⟨some t, by simp [Estate.charges, h.2, Charge.impl?]⟩
      rcases hup.covered i k hk with hbefore | hheld
      · exact hdown hbefore
      rcases hdeal.charges with hsame | hswap | ⟨j, hnone, hcharge, hgain⟩ |
        ⟨j, k₀, hcharge, hk₀, hstop, hlose⟩
      · exact .inr (hsame ▸ hheld)
      · exact .inr (hswap ▸ (held_comp _).mpr hheld)
      · refine .inr (hgain ▸ (held_gain ?_).mpr (.inr hheld))
        simp [Estate.charges, hcharge, Charge.impl?]
      · have hcharged : y.charges g (some t) = some j := by
          simp [Estate.charges, hcharge, Charge.impl?]
        by_cases hij : i = j
        · subst hij
          obtain ⟨d, hd, hjoinable⟩ := hup.joined t i hcharge
          obtain rfl : k₀.watchdog = d := by simpa [Estate.watchdog, hk₀] using hd
          obtain rfl := Option.some.inj (hstop.symm.trans hk')
          exact .inl ⟨hjoinable, rfl⟩
        · exact .inr (hlose ▸ (hup.apart.held_lose hcharged).mpr ⟨hij, hheld⟩)

/-- What a thread has after a deal it had before, or the deal has brought it about. -/
theorem of_update {P : Grip → Prop} {C : Prop} (hi : P (Function.update g t ℓ' u))
    (hkept : P (g u) → C) (hnew : u = t → P ℓ' → P (g t) ∨ C) : C := by
  by_cases hu : u = t
  · subst hu
    rw [Function.update_self] at hi
    exact (hnew rfl hi).elim hkept id
  · rw [Function.update_of_ne hu] at hi
    exact hkept hi

theorem fresh_of_deal (hup : Upkeep g y) (hdeal : Deal t (g t) y ℓ' y')
    (hi : (Function.update g t ℓ' u).charge = .fresh i) : y'.watchdog i = some .none := by
  have hkept : (g u).charge = .fresh i → y'.watchdog i = some .none := by
    intro hbefore
    have hnone := hup.fresh u i hbefore
    rcases hdeal.watchdog hnone with hsame | ⟨hfresh, hheld, -⟩ | ⟨⟨⟩, -⟩ | ⟨hself, -⟩ | ⟨⟨⟩, -⟩ |
      ⟨⟨⟩, -⟩
    · exact hsame
    · obtain rfl : t = u := hup.charge_unique (by rw [hfresh]; rfl) (by rw [hbefore]; rfl)
      rw [Function.update_self, hheld] at hi
      cases hi
    · exact absurd ((hup.self t i hself).symm.trans hnone) (by rintro ⟨⟩)
  exact of_update (P := fun ℓ => ℓ.charge = .fresh i) hi hkept fun _ => hdeal.fresh

theorem joined_of_deal (hup : Upkeep g y) (hdeal : Deal t (g t) y ℓ' y')
    (hi : (Function.update g t ℓ' u).charge = .joined i) :
    ∃ d, y'.watchdog i = some d ∧ d.joinable = false := by
  have hkept : (g u).charge = .joined i → ∃ d, y'.watchdog i = some d ∧ d.joinable = false := by
    intro hbefore
    obtain ⟨d, hd, hjoinable⟩ := hup.joined u i hbefore
    refine (settled_of_deal hdeal hd hjoinable).resolve_right ?_
    rintro ⟨hfresh, -⟩
    obtain rfl : t = u := hup.charge_unique (by rw [hfresh]; rfl) (by rw [hbefore]; rfl)
    exact absurd (hfresh.symm.trans hbefore) (by rintro ⟨⟩)
  exact of_update (P := fun ℓ => ℓ.charge = .joined i) hi hkept fun _ => hdeal.joined

theorem early_of_deal (hup : Upkeep g y) (hdeal : Deal t (g t) y ℓ' y')
    (hi : (Function.update g t ℓ' u).early = some i) : y'.watchdog i = some (.running u) := by
  have hkept : (g u).early = some i → y'.watchdog i = some (.running u) := by
    intro hbefore
    refine (hup.running_of_deal hdeal (hup.early u i hbefore)).resolve_right ?_
    rintro ⟨rfl, hnone, -⟩
    exact absurd (hnone.symm.trans hbefore) (Option.some_ne_none i).symm
  exact of_update (P := fun ℓ => ℓ.early = some i) hi hkept fun hu hearly => hu ▸ hdeal.early hearly

theorem self_of_deal (hup : Upkeep g y) (hdeal : Deal t (g t) y ℓ' y')
    (hi : (Function.update g t ℓ' u).self = some i) : y'.watchdog i = some (.running u) := by
  have hkept : (g u).self = some i → y'.watchdog i = some (.running u) := by
    intro hbefore
    refine (hup.running_of_deal hdeal (hup.self u i hbefore)).resolve_right ?_
    rintro ⟨rfl, -, hnone⟩
    rw [Function.update_self] at hi
    exact absurd ((hnone hbefore).symm.trans hi) (Option.some_ne_none i).symm
  exact of_update (P := fun ℓ => ℓ.self = some i) hi hkept fun hu hself => hu ▸ hdeal.self hself

/-- Every deal keeps the upkeep. -/
theorem step (hup : Upkeep g y) (hg : Ledger g n y) (hdeal : Deal t (g t) y ℓ' y') :
    Upkeep (Function.update g t ℓ') y' where
  apart := hup.apart_of_deal hg hdeal
  owned u i hi := by
    by_cases hu : u = t
    · subst hu
      rw [Function.update_self] at hi ⊢
      exact hdeal.owned (hup.owned u) hi
    · rw [Function.update_of_ne hu] at hi ⊢
      exact hup.owned u i hi
  fresh u i hi := hup.fresh_of_deal hdeal hi
  joined u i hi := hup.joined_of_deal hdeal hi
  covered i k hk := hup.covered_of_deal hdeal hk
  early u i hi := hup.early_of_deal hdeal hi
  self u i hi := hup.self_of_deal hdeal hi

/-- An `Impl` without pointers is down. -/
theorem isDown_of_refs_eq_zero (hup : Upkeep g y) (hg : Ledger g n y) {k : Assets}
    (hk : y.impls i = some k) (h0 : y.refs i = 0) : k.IsDown := by
  refine (hup.covered i k hk).resolve_right ?_
  rintro ⟨_ | t, ht⟩
  · exact (hg.refs_pos_of_pImpl ht).ne' h0
  · exact (hg.refs_pos_of_owns (hup.owned t i ht)).ne' h0

/-- The `Impl` of a watchdog thread that has no pointer yet has another. -/
theorem refs_pos_of_early (hup : Upkeep g y) (hg : Ledger g n y) (hi : (g t).early = some i) :
    0 < y.refs i := by
  refine Nat.pos_of_ne_zero fun h0 => ?_
  obtain ⟨k, hk, hrunning⟩ := Option.map_eq_some_iff.mp (hup.early t i hi)
  have hdown := (hup.isDown_of_refs_eq_zero hg hk h0).1
  rw [hrunning] at hdown
  cases hdown

end Upkeep

/-! ### Runs -/

variable {o : ClientOp} {r : o.Resp} {h : ClientHistory} {calls : Tid → List ClientCall}
  {endpointUrl : String} {w : ImplState} {c d : ClientPool}

/-- A client that nobody has called yet has its `Impl` in `pImpl`. -/
theorem upkeep_start : Upkeep (fun _ => {}) (ClientState.start endpointUrl w).estate where
  apart := by
    rintro (_ | t) (_ | u) i ha hb
    · rfl
    · cases hb
    · cases ha
    · cases ha
  owned := by rintro t i ⟨⟩
  fresh := by rintro t i ⟨⟩
  joined := by rintro t i ⟨⟩
  covered i k hk := by
    refine .inr ⟨none, ?_⟩
    by_cases hi : i = 0
    · subst hi
      rfl
    · simp [ClientState.estate, ClientState.start, hi] at hk
  early := by rintro t i ⟨⟩
  self := by rintro t i ⟨⟩

/-- The upkeep in every state, and that every operation was allowed. -/
theorem upkeep_of_reach (hc : ClientPool.Reach (.start calls (.start endpointUrl w)) c) :
    Upkeep (fun u => grip u c.state.history) c.state.world.estate ∧
      Event.Each (fun es e => (grip e.tid es).Allows e.op e.resp) c.state.history := by
  have hfollows : ∀ u, gripProtocol.Follows u
      ((ClientPool.start calls (.start endpointUrl w)).pool u)
      (fun r ℓ => ∀ replies, r = .ok replies → ℓ = {}) {} := fun u => Client.grip_runAll (calls u)
  refine ⟨?_, (Protocol.recorded_each
    (Q := fun _ r (ℓ : Grip) => ∀ replies, r = .ok replies → ℓ = {}) rfl hfollows hc).1⟩
  have hboth : Ledger (fun u => grip u c.state.history) (owners · c.state.history)
      c.state.world.estate ∧ Upkeep (fun u => grip u c.state.history) c.state.world.estate := by
    refine Protocol.recorded_invariant
      (fun s : Traced ClientSig ClientState =>
        Ledger (fun u => grip u s.history) (owners · s.history) s.world.estate ∧
          Upkeep (fun u => grip u s.history) s.world.estate)
      (Q := fun _ r (ℓ : Grip) => ∀ replies, r = .ok replies → ℓ = {}) rfl hfollows
      ⟨ledger_start, upkeep_start⟩ ?_ hc
    rintro t o r s s' ⟨hledger, hupkeep⟩ hs hallows
    rw [hs.history_eq]
    refine ⟨ledger_step hledger hs.exec_eq hallows, ?_⟩
    rw [grip_cons]
    exact hupkeep.step hledger (ClientState.deal_of_exec hs.exec_eq hallows)
  exact hboth.2

/-- So is the one that a step performs. -/
theorem ClientPool.Performs.grip_allows (h : c.Performs t o r d)
    (hc : ClientPool.Reach (.start calls (.start endpointUrl w)) c) :
    (grip t c.state.history).Allows o r := by
  have heach := (upkeep_of_reach (hc.tail h.1)).2
  rw [h.2] at heach
  exact (Event.each_cons.mp heach).1

/-- Who works on an `Impl` has it in its grip. -/
theorem Grip.AllowsImpl.reaches {o : ImplOp} {r : o.Resp} (h : ℓ.AllowsImpl i o r)
    (hbegin : o ≠ .watchdogBegin) (hend : o ≠ .watchdogEnd) : ℓ.Reaches i := by
  cases o with
  | watchdogBegin => exact absurd rfl hbegin
  | watchdogEnd => exact absurd rfl hend
  | resetImpl =>
      refine .inr (.inl ?_)
      rw [h.2]
      rfl
  | watchdogCreate => exact h.2
  | watchdogDetach => exact h.2.2
  | store a v => cases a <;> first | exact h | exact h.2
  | casWeak a e d | casStrong a e d =>
      cases a <;> first | exact h | exact h.2 | exact h.elim
  | writeConfig => exact h.2
  | _ => exact h

/-- The `Impl`s of a run are there as long as they are used. -/
structure Lifetime (c : ClientPool) : Prop where
  /-- Who performs an operation on an `Impl` finds it there: it has a pointer, or the thread runs
  its destructor. -/
  alive : ∀ d t i o r, c.Performs t (.impl i o) r d → o ≠ .watchdogEnd →
    0 < c.state.world.refs i ∨ (grip t c.state.history).ending.impl? = some i
  /-- `shared_from_this` in a watchdog thread finds a pointer. -/
  found : ∀ d t i found, c.Performs t (.lockSelf i) found d → found = true
  /-- When an `Impl` has no pointer, its watchdog is joined or there was none, and the stop flag is
  set: the destructor does not wait. -/
  down : ∀ i w, c.state.world.impls i = some w → c.state.world.refs i = 0 →
    w.watchdog.joinable = false ∧ w.stop = true
  /-- It never gets one again. -/
  gone : ∀ d, ClientPool.Step c d → ∀ i, c.state.world.impls i ≠ none →
    c.state.world.refs i = 0 → d.state.world.refs i = 0

/-- In every run, no `Impl` is used after it is destroyed. -/
theorem lifetime (hc : ClientPool.Reach (.start calls (.start endpointUrl w)) c) : Lifetime c := by
  obtain ⟨⟨hledger, -⟩, -⟩ := ledger_of_reach hc
  obtain ⟨hupkeep, -⟩ := upkeep_of_reach hc
  have hallows : ∀ {d t o r}, c.Performs t o r d → (grip t c.state.history).Allows o r :=
    fun h => h.grip_allows hc
  refine ⟨fun d t i o r hperforms hend => ?_, fun d t i found hperforms => ?_,
    fun i w hw h0 => ?_, fun d hstep i hbuilt h0 => ?_⟩
  · by_cases hbegin : o = .watchdogBegin
    · subst hbegin
      -- a thread that has been created and not joined keeps its `Impl` from going down
      obtain ⟨w, hi, hw⟩ := Option.bind_eq_some_iff.mp hperforms.exec_eq
      obtain ⟨w', hw', -⟩ := Option.map_eq_some_iff.mp hw
      obtain ⟨hcreated, -⟩ := ImplState.whenever_eq_some.mp hw'
      refine .inl (Nat.pos_of_ne_zero fun h0 => ?_)
      have hjoinable : w.watchdog.joinable = false :=
        (hupkeep.isDown_of_refs_eq_zero hledger (k := w.assets)
          (by simp [ClientState.estate, hi]) h0).1
      rw [hcreated] at hjoinable
      cases hjoinable
    · rcases (hallows hperforms).reaches hbegin hend with howns | hending | hearly
      · exact .inl (hledger.refs_pos_of_owns howns)
      · exact .inr hending
      · exact .inl (hupkeep.refs_pos_of_early hledger hearly)
  · obtain ⟨hfound, -⟩ := ClientState.whenever_eq_some.mp hperforms.exec_eq
    -- who joins the watchdog holds a pointer until it has ended
    have hpos : 0 < c.state.world.refs i :=
      hupkeep.refs_pos_of_early (t := t) hledger (hallows hperforms)
    rw [hfound, decide_eq_true_eq]
    exact hpos.ne'
  · exact hupkeep.isDown_of_refs_eq_zero hledger (k := w.assets)
      (by simp [ClientState.estate, hw]) h0
  · cases hstep with
    | @perform t o k r s' hp hs =>
        have hdeal := ClientState.deal_of_exec (h := c.state.history) hs.exec_eq
          (hallows ⟨.perform hp hs, hs.history_eq⟩)
        refine hledger.refs_of_deal hdeal h0 fun hnone => absurd ?_ hbuilt
        simpa [ClientState.estate] using hnone
    | round hp => exact h0

/-- A client is shut down while its watchdog thread has no pointer yet. -/
def lateWatchdog : Option ClientPool :=
  ClientPool.run [[.watchdog 0], [.shutdown]] { ImplState.connected with watchdog := .created }
    (({} : Environment).clientMoves 0 1 ++ ({} : Environment).clientMoves 1 11 ++
      ({} : Environment).clientMoves 0 2)

/-- The watchdog finds the pointer of the thread that waits to join it. -/
theorem lifetime_lateWatchdog :
    ∃ c : ClientPool, Lifetime c ∧ c.state.world.pImpl = none ∧ c.state.world.refs 0 = 2 := by
  have hplay : lateWatchdog.any (fun d =>
      d.state.world.pImpl == none && d.state.world.refs 0 == 2) = true := by
    decide
  obtain ⟨d, -, hd, hcheck⟩ := Config.exists_reach_of_play hplay
  simp only [Bool.and_eq_true, beq_iff_eq] at hcheck
  exact ⟨d, lifetime hd, hcheck⟩

end OPCUAPacking
