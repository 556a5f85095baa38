import OPCUAPacking.Client.Roles

/-!
# Turns

What the operations of a client do to the members that its lifecycle is decided by, in the roles in
which they are performed.

* `Sync` — the flags, the counters, the guards and `pImpl`.
* `Turn` — one step of a thread: its role and the members, before and after. It is all that the
  invariants of the lifecycle need to know about the code.
* `ClientState.turn_of_exec` — every operation performed in its role is a turn.
-/

namespace OPCUAPacking

open Interleaving

/-- The members of a client that its lifecycle is decided by. -/
structure Sync where
  recreating : Bool
  terminated : Bool
  inFlight : Int
  shutdownInFlight : Int
  isReset : Tid → Bool
  pImpl : Option ImplId

namespace Sync

/-- Neither flag is set. -/
def IsOpen (y : Sync) : Prop := y.recreating = false ∧ y.terminated = false

/-- The destructor need not wait. -/
def IsSettled (y : Sync) : Prop := y.recreating = false ∧ y.shutdownInFlight = 0

/-- The release of a `RecreateGuard`. -/
def release (t : Tid) (y : Sync) : Sync :=
  if y.isReset t then y
  else { y with isReset := Function.update y.isReset t true, recreating := false }

/-- The end of a `ShutdownCallGuard`. -/
def leave (y : Sync) : Sync :=
  if 0 < y.shutdownInFlight then { y with shutdownInFlight := y.shutdownInFlight - 1 } else y

@[simp]
theorem release_terminated (t : Tid) (y : Sync) : (y.release t).terminated = y.terminated := by
  unfold release
  split_ifs <;> rfl

@[simp]
theorem release_inFlight (t : Tid) (y : Sync) : (y.release t).inFlight = y.inFlight := by
  unfold release
  split_ifs <;> rfl

@[simp]
theorem release_shutdownInFlight (t : Tid) (y : Sync) :
    (y.release t).shutdownInFlight = y.shutdownInFlight := by
  unfold release
  split_ifs <;> rfl

@[simp]
theorem release_pImpl (t : Tid) (y : Sync) : (y.release t).pImpl = y.pImpl := by
  unfold release
  split_ifs <;> rfl

@[simp]
theorem leave_recreating (y : Sync) : (y.leave).recreating = y.recreating := by
  unfold leave
  split_ifs <;> rfl

@[simp]
theorem leave_terminated (y : Sync) : (y.leave).terminated = y.terminated := by
  unfold leave
  split_ifs <;> rfl

@[simp]
theorem leave_inFlight (y : Sync) : (y.leave).inFlight = y.inFlight := by
  unfold leave
  split_ifs <;> rfl

@[simp]
theorem leave_isReset (y : Sync) : (y.leave).isReset = y.isReset := by
  unfold leave
  split_ifs <;> rfl

@[simp]
theorem leave_pImpl (y : Sync) : (y.leave).pImpl = y.pImpl := by
  unfold leave
  split_ifs <;> rfl

end Sync

/-- The members of a state that the lifecycle is decided by. -/
def ClientState.sync (s : ClientState) : Sync :=
  ⟨s.recreating, s.terminated, s.inFlight, s.shutdownInFlight, s.isReset, s.pImpl⟩

/-- What thread `t` may do to its role and to the members. -/
inductive Turn (t : Tid) : Role → Sync → Role → Sync → Prop where
  /-- Nothing of this. -/
  | stay {ℓ : Role} {y : Sync} : Turn t ℓ y ℓ y
  /-- An active lease begins. -/
  | lease {ℓ : Role} {y : Sync} (hℓ : ℓ.rests = true) (hy : y.IsOpen) :
      Turn t ℓ y .leased { y with inFlight := y.inFlight + 1 }
  /-- `pImpl` is copied. -/
  | copy {y : Sync} : Turn t .leased y .serving y
  /-- The lease ends. -/
  | giveBack {y : Sync} : Turn t .serving y .free { y with inFlight := y.inFlight - 1 }
  /-- A recreate wins the flag. -/
  | enter {ℓ : Role} {y : Sync} (hℓ : ℓ.rests = true) (hy : y.IsOpen) :
      Turn t ℓ y .entered { y with recreating := true }
  /-- Its guard is constructed. -/
  | guard {y : Sync} :
      Turn t .entered y .guarded { y with isReset := Function.update y.isReset t false }
  /-- Its drain succeeds. -/
  | drain {y : Sync} (hy : y.inFlight = 0) : Turn t .guarded y .drained y
  /-- It finds an `Impl`. -/
  | find {y : Sync} (hy : y.pImpl ≠ none) : Turn t .drained y .found y
  /-- It replaces the `Impl`. -/
  | adopt {y : Sync} (i : ImplId) (hy : y.terminated = false) :
      Turn t .found y .found { y with pImpl := some i }
  /-- It resets its guard. -/
  | reset {y : Sync} : Turn t .found y .released (y.release t)
  /-- Its guard is destroyed. -/
  | destroy {ℓ : Role} {y : Sync} (hℓ : ℓ.Guarded) : Turn t ℓ y .free (y.release t)
  /-- A `shutdown` wins. -/
  | close {ℓ : Role} {y : Sync} (hℓ : ℓ.rests = true) (hy : y.IsOpen) :
      Turn t ℓ y .closing { y with terminated := true, shutdownInFlight := y.shutdownInFlight + 1 }
  /-- It ends. -/
  | leave {y : Sync} : Turn t .closing y .free y.leave
  /-- The destructor has to wait. -/
  | wait {ℓ : Role} {y : Sync} (hℓ : ℓ.rests = true) :
      Turn t ℓ y .waiting { y with terminated := true }
  /-- It does not. -/
  | pass {ℓ : Role} {y : Sync} (hℓ : ℓ.rests = true) (hy : y.IsSettled) :
      Turn t ℓ y .passed { y with terminated := true }
  /-- Its wait is over. -/
  | resume {y : Sync} (hy : y.IsSettled) : Turn t .waiting y .passed y
  /-- `pImpl` is moved out. -/
  | take {ℓ : Role} {y : Sync} (hℓ : ℓ = .closing ∨ ℓ = .passed) :
      Turn t ℓ y ℓ { y with pImpl := none }

namespace ClientState

variable {t : Tid} {o : ClientOp} {r : o.Resp} {s s' : ClientState} {ℓ : Role}

/-- The operations that do not concern the roles leave the members. -/
theorem sync_of_plain (ho : o.Plain) (h : exec t o r s = some s') : s'.sync = s.sync := by
  cases o with
  | clientNew =>
      rcases r with e | _ | client
      · cases h; rfl
      · cases h; rfl
      · obtain ⟨-, rfl⟩ := whenever_eq_some.mp h
        rfl
  | impl i o =>
      obtain ⟨w, -, hw⟩ := Option.bind_eq_some_iff.mp h
      obtain ⟨w', -, rfl⟩ := Option.map_eq_some_iff.mp hw
      rfl
  | implConstruct config client | release i =>
      obtain ⟨-, rfl⟩ := whenever_eq_some.mp h
      rfl
  | allocate | clientDelete client | retain i | shutdownBegin i caller =>
      cases h
      rfl
  | lockSelf i =>
      obtain ⟨-, rfl⟩ := whenever_eq_some.mp h
      cases r <;> rfl
  | _ => exact ho.elim

theorem entry_eq_won : s.entry = .won ↔ s.sync.IsOpen := by
  simp only [entry, Sync.IsOpen, sync]
  cases s.recreating <;> cases s.terminated <;> simp

theorem leaseReason_eq_active : s.leaseReason = .active ↔ s.sync.IsOpen := by
  simp only [leaseReason, Sync.IsOpen, sync]
  cases s.recreating <;> cases s.terminated <;> simp

theorem isSettled_iff : s.isSettled = true ↔ s.sync.IsSettled := by
  simp [isSettled, Sync.IsSettled, sync]

theorem sync_releaseGuard : (s.releaseGuard t).sync = s.sync.release t := by
  by_cases hreset : s.isReset t = true
  · simp [releaseGuard, Sync.release, sync, hreset]
  · simp [releaseGuard, Sync.release, sync, hreset]

theorem sync_leave :
    (if 0 < s.shutdownInFlight then { s with shutdownInFlight := s.shutdownInFlight - 1 }
      else s).sync = s.sync.leave := by
  by_cases hpos : 0 < s.shutdownInFlight
  · simp [Sync.leave, sync, hpos]
  · simp [Sync.leave, sync, hpos]

/-- What an operation does, performed in its role. -/
theorem turn_of_exec (es : ClientHistory) (h : exec t o r s = some s') (hallows : ℓ.Allows o r) :
    Turn t ℓ s.sync (ℓ.track es o r) s'.sync := by
  by_cases hplain : o.Plain
  · rw [sync_of_plain hplain h, (hplain.track_eq es ℓ r).2]
    exact .stay
  cases o with
  | leaseAcquire =>
      obtain ⟨hr, rfl⟩ := whenever_eq_some.mp h
      cases r with
      | active => exact .lease hallows (leaseReason_eq_active.mp hr.symm)
      | recreating | terminated => exact .stay
  | leaseRelease =>
      obtain rfl := hallows
      cases h
      exact .giveBack
  | recreateEnter =>
      obtain ⟨hr, rfl⟩ := whenever_eq_some.mp h
      cases r with
      | won => exact .enter hallows (entry_eq_won.mp hr.symm)
      | recreating | terminated => exact .stay
  | recreateDrain ms =>
      obtain rfl := hallows
      obtain ⟨hr, rfl⟩ := whenever_eq_some.mp h
      cases r with
      | true => exact .drain (of_decide_eq_true hr.symm)
      | false => exact .stay
  | guardConstruct =>
      obtain rfl := hallows
      cases h
      exact .guard
  | guardReset =>
      obtain rfl := hallows
      cases h
      exact sync_releaseGuard ▸ .reset
  | guardDestroy =>
      cases h
      exact sync_releaseGuard ▸ .destroy hallows
  | shutdownEnter =>
      obtain ⟨hr, rfl⟩ := whenever_eq_some.mp h
      cases r with
      | won => exact .close hallows (entry_eq_won.mp hr.symm)
      | recreating | terminated => exact .stay
  | shutdownLeave =>
      obtain rfl := hallows
      cases h
      exact sync_leave ▸ .leave
  | terminate =>
      obtain ⟨hr, rfl⟩ := whenever_eq_some.mp h
      cases r with
      | true => exact .pass hallows (isSettled_iff.mp hr.symm)
      | false => exact .wait hallows
  | destructorWait =>
      obtain rfl := hallows
      obtain ⟨hr, rfl⟩ := whenever_eq_some.mp h
      exact .resume (isSettled_iff.mp hr)
  | pImplCopy =>
      obtain rfl := hallows
      obtain ⟨-, rfl⟩ := whenever_eq_some.mp h
      cases r <;> exact .copy
  | pImplTake =>
      obtain ⟨-, rfl⟩ := whenever_eq_some.mp h
      exact .take hallows
  | pImplAdopt i =>
      obtain rfl := hallows
      cases r with
      | terminated =>
          obtain ⟨-, rfl⟩ := whenever_eq_some.mp h
          exact .stay
      | replaced old =>
          obtain ⟨⟨hterm, -⟩, rfl⟩ := whenever_eq_some.mp h
          exact .adopt i hterm
  | pImplLifeState =>
      obtain rfl := hallows
      obtain ⟨hr, rfl⟩ := whenever_eq_some.mp h
      cases r with
      | none => exact .stay
      | some life =>
          refine .find fun hnone => ?_
          simp [current, show s.pImpl = none from hnone] at hr
  | pImplConfig | pImplExists =>
      obtain ⟨-, rfl⟩ := whenever_eq_some.mp h
      exact .stay
  | _ => exact absurd trivial hplain

end ClientState

/-! ### What a turn keeps -/

namespace Role

theorem not_leases_of_rests {ℓ : Role} (h : ℓ.rests = true) : ℓ.leases = false := by
  cases ℓ <;> first | rfl | cases h

theorem not_recreates_of_rests {ℓ : Role} (h : ℓ.rests = true) : ℓ.recreates = false := by
  cases ℓ <;> first | rfl | cases h

theorem not_closes_of_rests {ℓ : Role} (h : ℓ.rests = true) : ℓ.closes = false := by
  cases ℓ <;> first | rfl | cases h

theorem recreates_of_swaps {ℓ : Role} (h : ℓ.swaps = true) : ℓ.recreates = true := by
  cases ℓ <;> first | rfl | cases h

/-- The guard of the thread is constructed, and not reset. -/
def holdsGuard : Role → Bool
  | .guarded | .drained | .found => true
  | _ => false

end Role

/-- The guard of a thread is what its role says. -/
def GuardAgrees (t : Tid) (ℓ : Role) (y : Sync) : Prop :=
  (ℓ.holdsGuard = true → y.isReset t = false) ∧ (ℓ = .released → y.isReset t = true)

namespace Turn

variable {t u : Tid} {ℓ ℓ' : Role} {y y' : Sync}

/-- The counter of the leases counts the thread when it holds one. -/
theorem inFlight_eq (h : Turn t ℓ y ℓ' y') :
    y'.inFlight = y.inFlight + (if ℓ'.leases then 1 else 0) - (if ℓ.leases then 1 else 0) := by
  cases h with
  | lease hℓ hy | enter hℓ hy | close hℓ hy | wait hℓ | pass hℓ hy =>
      rw [Role.not_leases_of_rests hℓ]
      simp [Role.leases]
  | destroy hℓ => rcases hℓ with rfl | rfl | rfl | rfl <;> simp [Role.leases]
  | stay | take hℓ => simp
  | _ => simp [Role.leases]

/-- The counter of `shutdown` counts the thread when it is the winner. -/
theorem shutdownInFlight_eq (h : Turn t ℓ y ℓ' y')
    (hpos : ℓ.closes = true → 0 < y.shutdownInFlight) :
    y'.shutdownInFlight =
      y.shutdownInFlight + (if ℓ'.closes then 1 else 0) - (if ℓ.closes then 1 else 0) := by
  cases h with
  | lease hℓ hy | enter hℓ hy | close hℓ hy | wait hℓ | pass hℓ hy =>
      rw [Role.not_closes_of_rests hℓ]
      simp [Role.closes]
  | destroy hℓ => rcases hℓ with rfl | rfl | rfl | rfl <;> simp [Role.closes]
  | leave => simp [Sync.leave, hpos rfl, Role.closes]
  | stay | take hℓ => simp
  | _ => simp [Role.closes]

/-- The flag of a recreate is set by the thread that wins it, which found neither flag, and cleared
by that thread. -/
theorem recreating_eq (h : Turn t ℓ y ℓ' y') (hguard : GuardAgrees t ℓ y) :
    (y'.recreating = y.recreating ∧ ℓ'.recreates = ℓ.recreates) ∨
      (y.IsOpen ∧ y'.recreating = true ∧ ℓ.recreates = false ∧ ℓ'.recreates = true) ∨
      (y'.recreating = false ∧ ℓ.recreates = true ∧ ℓ'.recreates = false) := by
  cases h with
  | lease hℓ hy | close hℓ hy | wait hℓ | pass hℓ hy =>
      exact .inl ⟨rfl, (Role.not_recreates_of_rests hℓ).symm⟩
  | enter hℓ hy => exact .inr (.inl ⟨hy, rfl, Role.not_recreates_of_rests hℓ, rfl⟩)
  | reset =>
      refine .inr (.inr ⟨?_, rfl, rfl⟩)
      simp [Sync.release, hguard.1 rfl]
  | destroy hℓ =>
      rcases hℓ with rfl | rfl | rfl | rfl
      · refine .inr (.inr ⟨?_, rfl, rfl⟩)
        simp [Sync.release, hguard.1 rfl]
      · refine .inr (.inr ⟨?_, rfl, rfl⟩)
        simp [Sync.release, hguard.1 rfl]
      · refine .inr (.inr ⟨?_, rfl, rfl⟩)
        simp [Sync.release, hguard.1 rfl]
      · -- the late destructor of a guard that was reset
        refine .inl ⟨?_, rfl⟩
        simp [Sync.release, hguard.2 rfl]
  | leave => exact .inl ⟨y.leave_recreating, rfl⟩
  | _ => exact .inl ⟨rfl, rfl⟩

/-- The guard of the thread is what its new role says. -/
theorem guardAgrees (h : Turn t ℓ y ℓ' y') (hguard : GuardAgrees t ℓ y) : GuardAgrees t ℓ' y' := by
  cases h with
  | stay | take hℓ => exact hguard
  | guard => exact ⟨fun _ => Function.update_self _ _ _, by rintro ⟨⟩⟩
  | drain hy | find hy | adopt i hy => exact ⟨fun _ => hguard.1 rfl, by rintro ⟨⟩⟩
  | reset =>
      refine ⟨by rintro ⟨⟩, fun _ => ?_⟩
      simp [Sync.release, hguard.1 rfl]
  | _ => exact ⟨by rintro ⟨⟩, by rintro ⟨⟩⟩

/-- The guards of the others are left alone. -/
theorem isReset_eq (h : Turn t ℓ y ℓ' y') (hu : u ≠ t) : y'.isReset u = y.isReset u := by
  cases h with
  | guard => exact Function.update_of_ne hu _ _
  | reset | destroy hℓ =>
      simp only [Sync.release]
      split_ifs
      · rfl
      · exact Function.update_of_ne hu _ _
  | leave => rw [y.leave_isReset]
  | _ => rfl

/-- Termination is final. -/
theorem terminated (h : Turn t ℓ y ℓ' y') (hy : y.terminated = true) : y'.terminated = true := by
  cases h with
  | close hℓ hy' | wait hℓ | pass hℓ hy' => rfl
  | reset | destroy hℓ => exact (y.release_terminated t).trans hy
  | leave => exact y.leave_terminated.trans hy
  | _ => exact hy

/-- A lease becomes active where neither flag is set. -/
theorem leases (h : Turn t ℓ y ℓ' y') (hℓ : ℓ'.leases = true) : ℓ.leases = true ∨ y.IsOpen := by
  cases h with
  | lease _ hy => exact .inr hy
  | copy => exact .inl rfl
  | stay | take _ => exact .inl hℓ
  | _ => cases hℓ

/-- A drain succeeds where no lease is active. -/
theorem swaps (h : Turn t ℓ y ℓ' y') (hℓ : ℓ'.swaps = true) :
    ℓ.swaps = true ∨ y.inFlight = 0 := by
  cases h with
  | drain hy => exact .inr hy
  | find hy | adopt i hy => exact .inl rfl
  | stay | take _ => exact .inl hℓ
  | _ => cases hℓ

/-- A `shutdown` wins where neither flag is set, and sets `m_terminated`. -/
theorem closing (h : Turn t ℓ y ℓ' y') (hℓ : ℓ' = .closing) :
    ℓ = .closing ∨ (y'.terminated = true ∧ y'.recreating = false ∧ y.terminated = false) := by
  cases h with
  | close _ hy => exact .inr ⟨rfl, hy.1, hy.2⟩
  | stay | take _ => exact .inl hℓ
  | _ => cases hℓ

/-- The destructor that waits has set `m_terminated`. -/
theorem waiting (h : Turn t ℓ y ℓ' y') (hℓ : ℓ' = .waiting) :
    ℓ = .waiting ∨ y'.terminated = true := by
  cases h with
  | wait _ => exact .inr rfl
  | stay | take _ => exact .inl hℓ
  | _ => cases hℓ

/-- A recreate goes on once it has found an `Impl`. -/
theorem found (h : Turn t ℓ y ℓ' y') (hℓ : ℓ' = .found) : ℓ = .found ∨ y'.pImpl ≠ none := by
  cases h with
  | find hy => exact .inr hy
  | adopt i hy => exact .inr nofun
  | stay | take _ => exact .inl hℓ
  | _ => cases hℓ

/-- Nobody else moves it out. -/
theorem pImpl_eq_none (h : Turn t ℓ y ℓ' y') (hy : y'.pImpl = none) :
    y.pImpl = none ∨ ℓ = .closing ∨ ℓ = .passed := by
  cases h with
  | take hℓ => exact .inr hℓ
  | adopt i _ => cases hy
  | reset | destroy hℓ => exact .inl ((y.release_pImpl t).symm.trans hy)
  | leave => exact .inl (y.leave_pImpl.symm.trans hy)
  | _ => exact .inl hy

end Turn

end OPCUAPacking
