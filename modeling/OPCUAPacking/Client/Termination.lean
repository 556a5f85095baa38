import OPCUAPacking.Client.Exclusion

/-!
# Termination is final

Once `m_terminated` is set it stays set, nobody is let in any more, and `pImpl` can only be moved
out.

* `admits` — the events by which a call is let in.
* `TerminationFinal` — what holds of any later configuration of a run.
* `terminationFinal` — the result about every run.
-/

namespace OPCUAPacking

open Interleaving

/-- The event wins a `shutdown`. -/
def winsShutdown (e : Event ClientSig) : Bool :=
  match e.op, e.resp with
  | .shutdownEnter, entry => entry == .won
  | _, _ => false

/-- The event makes a lease active, or wins a recreate or a `shutdown`. -/
def admits (e : Event ClientSig) : Bool :=
  match e.op, e.resp with
  | .leaseAcquire, reason => reason == .active
  | .recreateEnter, entry => entry == .won
  | .shutdownEnter, entry => entry == .won
  | _, _ => false

variable {t : Tid} {o : ClientOp} {r : o.Resp} {s s' : ClientState} {ℓ ℓ' : Role} {y y' : Sync}

/-- A call is let in where neither flag is set. -/
theorem isOpen_of_admits (hexec : s.exec t o r = some s') (he : admits ⟨t, o, r⟩ = true) :
    s.sync.IsOpen := by
  cases o with
  | leaseAcquire =>
      obtain ⟨rfl, -⟩ := ClientState.whenever_eq_some.mp hexec
      exact ClientState.leaseReason_eq_active.mp (beq_iff_eq.mp he)
  | recreateEnter | shutdownEnter =>
      obtain ⟨rfl, -⟩ := ClientState.whenever_eq_some.mp hexec
      exact ClientState.entry_eq_won.mp (beq_iff_eq.mp he)
  | _ => cases he

/-- Winning a `shutdown` is one way to be let in. -/
theorem admits_of_winsShutdown {e : Event ClientSig} (he : winsShutdown e = true) :
    admits e = true := by
  obtain ⟨t, o, r⟩ := e
  cases o with
  | shutdownEnter => exact he
  | _ => cases he

/-- The winner of a `shutdown` sets `m_terminated`. -/
theorem terminated_of_winsShutdown (hexec : s.exec t o r = some s')
    (he : winsShutdown ⟨t, o, r⟩ = true) : s'.terminated = true := by
  cases o with
  | shutdownEnter =>
      obtain rfl := beq_iff_eq.mp he
      obtain ⟨-, rfl⟩ := ClientState.whenever_eq_some.mp hexec
      rfl
  | _ => cases he

namespace Turn

/-- Once `m_terminated` is set, `pImpl` can only be moved out. -/
theorem pImpl_of_terminated (h : Turn t ℓ y ℓ' y') (hy : y.terminated = true) :
    y'.pImpl = y.pImpl ∨ y'.pImpl = none := by
  cases h with
  | adopt i hopen => exact absurd (hy.symm.trans hopen) (by decide)
  | take _ => exact .inr rfl
  | reset | destroy hℓ => exact .inl (y.release_pImpl t)
  | leave => exact .inl y.leave_pImpl
  | _ => exact .inl rfl

/-- Only a thread that has found an `Impl` puts one in. -/
theorem pImpl_ne_none (h : Turn t ℓ y ℓ' y') (hy : y.pImpl = none) (hy' : y'.pImpl ≠ none) :
    ℓ = .found := by
  cases h with
  | adopt i _ => rfl
  | take _ => exact absurd rfl hy'
  | reset | destroy hℓ => exact absurd ((y.release_pImpl t).trans hy) hy'
  | leave => exact absurd (y.leave_pImpl.trans hy) hy'
  | _ => exact absurd hy hy'

end Turn

/-- What holds of `d`, later in a run than `c`. -/
structure TerminationFinal (c d : ClientPool) : Prop where
  /-- `m_terminated` is never cleared. -/
  terminated : c.state.world.terminated = true → d.state.world.terminated = true
  /-- Once it is set, no lease becomes active and nobody wins a recreate or a `shutdown`. -/
  refused : c.state.world.terminated = true → ∃ es, d.state.history = es ++ c.state.history ∧
    ∀ e ∈ es, admits e = false
  /-- No candidate is adopted any more. -/
  kept : c.state.world.terminated = true →
    d.state.world.pImpl = c.state.world.pImpl ∨ d.state.world.pImpl = none
  /-- With or without it, a null `pImpl` stays null. -/
  vanished : c.state.world.pImpl = none → d.state.world.pImpl = none
  /-- At most one `shutdown` has ever won. -/
  winner : d.state.history.countP winsShutdown ≤ 1

/-! ### Runs -/

variable {calls : Tid → List ClientCall} {endpointUrl : String} {s : ImplState} {c d : ClientPool}

/-- What every turn keeps, holds from wherever it holds first. -/
theorem ClientPool.keeps {P : Traced ClientSig ClientState → Prop}
    (hc : ClientPool.Reach (.start calls (.start endpointUrl s)) c)
    (hstep : ∀ {t o r s s'}, ExclusionInv s.history s.world.sync → P s →
      Traced.Step ClientState.exec t o r s s' → (role t s.history).Allows o r → P s')
    (hP : P c.state) (hd : ClientPool.Reach c d) : P d.state :=
  (Protocol.recorded_keeps
    (fun s : Traced ClientSig ClientState => ExclusionInv s.history s.world.sync ∧ P s)
    (Q := fun _ _ (ℓ : Role) => ℓ.rests = true) rfl (ClientPool.follows_role _)
    (fun h hs hallows => ⟨exclusion_step h.1 hs hallows, hstep h.1 h.2 hs hallows⟩) hc
    ⟨exclusionInv_of_reach hc, hP⟩ hd).2

/-- A `shutdown` that has won has set `m_terminated`, and no other wins. -/
theorem winner_step {s s' : Traced ClientSig ClientState}
    (hinv : s.history.countP winsShutdown = 0 ∨
      s.history.countP winsShutdown = 1 ∧ s.world.terminated = true)
    (hs : Traced.Step ClientState.exec t o r s s') (hallows : (role t s.history).Allows o r) :
    s'.history.countP winsShutdown = 0 ∨
      s'.history.countP winsShutdown = 1 ∧ s'.world.terminated = true := by
  have hturn := ClientState.turn_of_exec s.history hs.exec_eq hallows
  rw [hs.history_eq, List.countP_cons]
  by_cases hwins : winsShutdown ⟨t, o, r⟩ = true
  · rcases hinv with hnone | ⟨-, hterm⟩
    · exact .inr ⟨by simp [hnone, hwins], terminated_of_winsShutdown hs.exec_eq hwins⟩
    · have hopen := isOpen_of_admits hs.exec_eq (admits_of_winsShutdown hwins)
      exact absurd (hterm.symm.trans hopen.2) (by decide)
  · rcases hinv with hnone | ⟨hone, hterm⟩
    · exact .inl (by simp [hnone, hwins])
    · exact .inr ⟨by simp [hone, hwins], hturn.terminated hterm⟩

/-- In every run, termination is final. -/
theorem terminationFinal (hc : ClientPool.Reach (.start calls (.start endpointUrl s)) c)
    (hd : ClientPool.Reach c d) : TerminationFinal c d := by
  have hkept : c.state.world.terminated = true → d.state.world.terminated = true ∧
      (∃ es, d.state.history = es ++ c.state.history ∧ ∀ e ∈ es, admits e = false) ∧
      (d.state.world.pImpl = c.state.world.pImpl ∨ d.state.world.pImpl = none) := by
    intro hterm
    refine ClientPool.keeps (P := fun s => s.world.terminated = true ∧
      (∃ es, s.history = es ++ c.state.history ∧ ∀ e ∈ es, admits e = false) ∧
      (s.world.pImpl = c.state.world.pImpl ∨ s.world.pImpl = none)) hc ?_
      ⟨hterm, ⟨[], rfl, fun _ he => absurd he List.not_mem_nil⟩, .inl rfl⟩ hd
    rintro t o r s s' - ⟨hs, ⟨es, hes, hnone⟩, hpImpl⟩ hstep hallows
    have hturn := ClientState.turn_of_exec s.history hstep.exec_eq hallows
    refine ⟨hturn.terminated hs, ⟨⟨t, o, r⟩ :: es, ?_, ?_⟩, ?_⟩
    · rw [hstep.history_eq, hes]
      rfl
    · refine List.forall_mem_cons.mpr ⟨Bool.eq_false_iff.mpr fun he => ?_, hnone⟩
      exact absurd (hs.symm.trans (isOpen_of_admits hstep.exec_eq he).2) (by decide)
    -- a candidate is adopted only while the flag is clear
    · rcases hturn.pImpl_of_terminated hs with heq | hempty
      · rw [show s'.world.pImpl = s.world.pImpl from heq]
        exact hpImpl
      · exact .inr hempty
  refine ⟨fun h => (hkept h).1, fun h => (hkept h).2.1, fun h => (hkept h).2.2, fun h => ?_, ?_⟩
  · refine ClientPool.keeps (P := fun s => s.world.pImpl = none) hc ?_ h hd
    intro t o r s s' hinv hnone hstep hallows
    have hturn := ClientState.turn_of_exec s.history hstep.exec_eq hallows
    by_contra hsome
    exact hinv.found t (hturn.pImpl_ne_none hnone hsome) hnone
  · have hwinner := ClientPool.keeps (P := fun s => s.history.countP winsShutdown = 0 ∨
      s.history.countP winsShutdown = 1 ∧ s.world.terminated = true) .refl
      (fun _ hP hs hallows => winner_step hP hs hallows) (.inl rfl) (hc.trans hd)
    rcases hwinner with hnone | ⟨hone, -⟩
    · exact hnone ▸ Nat.zero_le 1
    · exact hone.le

/-- A `shutdown` has won. -/
def shutdownWon : Option ClientPool :=
  ClientPool.run [[.shutdown], [.connect, .shutdown]] .connected
    (({} : Environment).clientMoves 0 1)

/-- A `connect` that comes later is refused, and a second `shutdown` returns at once. -/
theorem terminationFinal_refused :
    ∃ c d : ClientPool, TerminationFinal c d ∧ c.state.world.terminated = true ∧
      d.Returned 1 (.ok [.result (.error ⟨.alreadyTerminated,
        "connect: client has been terminated"⟩), .result (.ok ())]) := by
  have hplay : shutdownWon.any (fun c => c.state.world.terminated &&
      (c.play ClientState.exec (({} : Environment).clientMoves 1 2)).any fun d =>
        d.result? 1 == some (.ok [.result (.error ⟨.alreadyTerminated,
          "connect: client has been terminated"⟩), .result (.ok ())])) = true := by
    decide
  obtain ⟨c, -, hc, hcheck⟩ := Config.exists_reach_of_play hplay
  obtain ⟨hterm, hrest⟩ := Bool.and_eq_true_iff.mp hcheck
  obtain ⟨d, -, hd, hret⟩ := Config.exists_reach_of_play hrest
  exact ⟨c, d, terminationFinal hc hd, hterm, Config.returned_of_result? (beq_iff_eq.mp hret)⟩

end OPCUAPacking
