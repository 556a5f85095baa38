import OPCUAPacking.Impl.Attempts
import OPCUAPacking.Impl.Schedule

/-!
# A successful disconnect is visible

`disconnect` returns success from two places. In its polling loop it has learnt of the closed
channel from the cached word; after a timeout it asks the SDK itself and does not publish the
answer, while `TurnToRecovring` looks at the cached word only.

* `directAnswer` — the answer of `getState` that a call has not published.
* `ClosedSeen` — if it says that the channel is closed, the cached state is not healthy.
* `disconnectVisible` — a successful `disconnect` leaves a client that is neither healthy nor
  RUNNING exactly when `ClosedSeen` holds of its history.
-/

namespace OPCUAPacking

open Interleaving

/-- The latest answer of `getState`, with the history before it, if nobody has tried to publish it:
the compare-exchange of `tryPublishIfUnchanged` has not followed. -/
def directAnswer : History → Option (Triple × History)
  | [] => none
  | e :: es =>
      match e.op, e.resp with
      | .casStrong .statePacked _ _, _ => none
      | .sdkReturn _ .getState, .ok f => some (f, es)
      | _, _ => directAnswer es

/-- An answer that was not published and says that the channel is closed finds the cached state not
healthy. -/
def ClosedSeen (s : ImplState) (h : History) : Prop :=
  ∀ a ∈ directAnswer h, a.1.channel = .closed →
    ∀ s' ∈ Event.replay ImplState.exec s a.2, s'.isHealthy = false

instance (s : ImplState) (h : History) : Decidable (ClosedSeen s h) :=
  inferInstanceAs (Decidable (∀ a ∈ directAnswer h, a.1.channel = .closed →
    ∀ s' ∈ Event.replay ImplState.exec s a.2, s'.isHealthy = false))

/-! ### Operations that leave the answer -/

/-- Operations that neither ask `getState` nor write what the cached state is made of. -/
structure ImplOp.Mute (o : ImplOp) : Prop where
  lost : ¬o.Writes .connectionLost
  word : ¬o.Writes .statePacked
  answer : ∀ client, o ≠ .sdkReturn client .getState

theorem ImplOp.Local.mute {o : ImplOp} (h : o.Local) : o.Mute where
  lost := h.not_writes
  word := h.not_writes
  answer client := by
    rintro rfl
    exact h

theorem ImplOp.Leaves.mute {o : ImplOp} (h : o.Leaves) : o.Mute := by
  cases o with
  | unlock m | taskDec => exact ⟨id, id, nofun⟩
  | store a v =>
      cases a with
      | connState => exact ⟨nofun, nofun, nofun⟩
      | _ => exact h.elim
  | _ => exact h.elim

theorem ImplOp.Timing.mute {o : ImplOp} (h : o.Timing) : o.Mute where
  lost := h.not_writes nofun
  word := h.not_writes nofun
  answer client := by
    rintro rfl
    rcases h with h | ⟨ts, ⟨⟩⟩
    exact h

theorem ImplOp.mute_demotion : (casWeak .lifeState .running .recovering).Mute :=
  ⟨nofun, nofun, nofun⟩

/-- They do not change whether the client is healthy. -/
theorem ImplState.isHealthy_of_mute {t : Tid} {o : ImplOp} {r : o.Resp} {s s' : ImplState}
    (ho : o.Mute) (h : exec t o r s = some s') : s'.isHealthy = s.isHealthy := by
  have hlost : s'.connectionLost = s.connectionLost := get_of_not_writes h ho.lost
  have hword : s'.statePacked = s.statePacked := get_of_not_writes h ho.word
  rw [isHealthy, isHealthy, hlost, hword]

/-- They leave the answer. -/
theorem directAnswer_of_mute {t : Tid} {o : ImplOp} {r : o.Resp} {h : History} (ho : o.Mute) :
    directAnswer (⟨t, o, r⟩ :: h) = directAnswer h := by
  cases o with
  | casStrong a e d => cases a <;> first | exact absurd rfl ho.word | rfl
  | sdkReturn client c => cases c <;> first | exact absurd rfl (ho.answer client) | rfl
  | _ => rfl

/-! ### The protocol -/

variable {s : ImplState} {m m' : Moment} {o : ImplOp} {r : o.Resp}

/-- The history leads from `s` to where the thread is. -/
def Replays (s : ImplState) (m : Moment) : Prop :=
  Event.replay ImplState.exec s m.history = some m.world

/-- Every answer has been published. -/
def AllPublished (s : ImplState) (m : Moment) : Prop :=
  Replays s m ∧ directAnswer m.history = none

/-- The SDK has answered `f`, which was not published; the client is as healthy as it was then. -/
def Answered (s : ImplState) (f : Triple) (m : Moment) : Prop :=
  Replays s m ∧ ∃ es s', directAnswer m.history = some (f, es) ∧
    Event.replay ImplState.exec s es = some s' ∧ s'.isHealthy = m.world.isHealthy

/-- The client is neither healthy nor RUNNING. -/
def ImplState.IsDown (s : ImplState) : Prop := s.isHealthy = false ∧ s.lifeState ≠ .running

/-- What a success of `disconnect` says. -/
def VisibleEnd (s : ImplState) (m : Moment) : Prop :=
  Replays s m ∧ (m.world.IsDown ↔ ClosedSeen s m.history)

theorem Replays.step (hm : Replays s m) (h : AloneStep AnyStep o r m m') : Replays s m' :=
  Event.replay_step hm h

theorem AllPublished.step (hm : AllPublished s m) (ho : o.Mute) (h : AloneStep AnyStep o r m m') :
    AllPublished s m' :=
  ⟨hm.1.step h, by rw [h.history_eq, directAnswer_of_mute ho, hm.2]⟩

theorem Answered.step {f : Triple} (hm : Answered s f m) (ho : o.Mute)
    (h : AloneStep AnyStep o r m m') : Answered s f m' := by
  obtain ⟨hreplays, es, s', hanswer, hes, hhealthy⟩ := hm
  refine ⟨hreplays.step h, es, s', ?_, hes, ?_⟩
  · rw [h.history_eq, directAnswer_of_mute ho, hanswer]
  · rw [hhealthy, ImplState.isHealthy_of_mute ho h.exec_eq]

/-- Neither healthy nor RUNNING, on the way out. -/
theorem VisibleEnd.step (hm : VisibleEnd s m) (ho : o.Leaves) (h : AloneStep AnyStep o r m m') :
    VisibleEnd s m' := by
  obtain ⟨hreplays, hiff⟩ := hm
  refine ⟨hreplays.step h, ?_⟩
  have hcore := ImplState.core_of_leaves ho h.exec_eq
  have hdown : m'.world.IsDown ↔ m.world.IsDown :=
    show m'.world.core.IsDown ↔ m.world.core.IsDown from hcore ▸ Iff.rfl
  rw [hdown, hiff, h.history_eq, ClosedSeen, ClosedSeen, directAnswer_of_mute ho.mute]

namespace Impl

theorem steady_replays (s : ImplState) : Steady AnyStep (Replays s) (Replays s) :=
  steady_of_steps (fun _ hm => hm) fun _ _ _ _ hm h => hm.step h

theorem looking_allPublished (s : ImplState) : Looking AnyStep (Replays s) (AllPublished s) where
  inv _ hm := hm.1
  look _ ho _ _ _ hm h := hm.step ho.mute h

theorem looking_answered (s : ImplState) (f : Triple) :
    Looking AnyStep (Replays s) (Answered s f) where
  inv _ hm := hm.1
  look _ ho _ _ _ hm h := hm.step ho.mute h

/-- The success of the polling loop: the word says that the channel is closed. -/
theorem visible_closed (hm : AllPublished s m)
    (hclosed : (unpackState m.world.statePacked).channel = .closed) :
    Alone AnyStep (Replays s) turnToRecovring (fun r m' => r = .ok () ∧ VisibleEnd s m') m := by
  have hnot : m.world.isHealthy = false := by
    have hne : UA_SecureChannelState.closed ≠ .open := by decide
    simp [ImplState.isHealthy, Triple.isReady, StateFields.triple, hclosed, hne]
  refine (alone_turnToRecovring (looking_allPublished s) hm fun _ _ _ hm h =>
    hm.step ImplOp.mute_demotion h).mono ?_
  rintro r m' ⟨hr, hworld, hm'⟩
  have hdown : m'.world.IsDown := by
    have hstale := hworld ▸ ImplState.not_isStale_recover m.world
    have hhealthy : m'.world.isHealthy = false := by rw [hworld, ImplState.isHealthy_recover, hnot]
    exact ⟨hhealthy, fun hrunning => hstale ⟨hrunning, hhealthy⟩⟩
  refine ⟨hr, hm'.1, iff_of_true hdown ?_⟩
  rw [ClosedSeen, hm'.2]
  rintro a ⟨⟩

/-- The success after a timeout: the SDK itself says so. -/
theorem visible_direct {f : Triple} (hm : Answered s f m) (hclosed : f.channel = .closed) :
    Alone AnyStep (Replays s) turnToRecovring (fun r m' => r = .ok () ∧ VisibleEnd s m') m := by
  refine (alone_turnToRecovring (looking_answered s f) hm fun _ _ _ hm h =>
    hm.step ImplOp.mute_demotion h).mono ?_
  rintro r m' ⟨hr, hworld, hreplays, es, s', hanswer, hes, hhealthy⟩
  refine ⟨hr, hreplays, ?_⟩
  have hstale : ¬m'.world.IsStale := hworld ▸ ImplState.not_isStale_recover m.world
  have hseen : ClosedSeen s m'.history ↔ m'.world.isHealthy = false := by
    rw [ClosedSeen, hanswer]
    simp [hclosed, hes, hhealthy]
  rw [hseen]
  exact ⟨fun hdown => hdown.1, fun h => ⟨h, fun hrunning => hstale ⟨hrunning, h⟩⟩⟩

/-- The direct `getState`. -/
theorem visible_getState (client : Handle) (hm : Replays s m) :
    Alone AnyStep (Replays s) (withLock .sdkMutex (sdk client .getState))
      (Ends (Replays s) (Answered s)) m := by
  have hS := steady_replays s
  refine alone_withLock hS.toDrifting.looking hm (fun m₁ hm₁ => ?_)
    (unlocking_ends hS.leaving.unlocking fun f mx r m m' hm h => ?_)
  · have hK := polling_of_drifting hS.toDrifting
    refine alone_drift hS.toDrifting hm₁ (o := .sdkCall client .getState) (.inl rfl)
      fun callbacks m₂ hm₂ _ => ?_
    refine alone_keeps (hK.forEach hK.runCallback callbacks) hm₂ (fun _ m₃ hm₃ => ?_)
      fun _ _ h => h
    refine alone_step fun r m₄ _ hreturn => ?_
    have hm₄ := hm₃.step hreturn
    refine ⟨hm₄, ?_⟩
    cases r with
    | error e => exact hm₄
    | ok f =>
        have hworld : m₃.world = m₄.world := Option.some.inj hreturn.exec_eq
        refine ⟨hm₄, m₃.history, m₃.world, ?_, hm₃, by rw [hworld]⟩
        rw [hreturn.history_eq]
        rfl
  · have hm' := hm.step (ImplOp.Local.mute (o := .unlock mx) trivial) h
    exact ⟨hm'.1, hm'⟩

/-- The last look of `disconnect` after a timeout. -/
theorem visible_timedOut (client : Handle) (hm : Replays s m) :
    Alone AnyStep (Replays s) (disconnectTimedOut client)
      (Ends (Replays s) (DisconnectEnds (Replays s) (Replays s) (VisibleEnd s))) m := by
  refine alone_bind _ (visible_getState client hm) ?_ fun _ _ h => h
  intro f m₁ hm₁
  split
  case isTrue hclosed =>
    refine alone_bind _ (visible_direct hm₁ hclosed) ?_ ?_
    · rintro _ m₂ ⟨-, hm₂⟩
      exact hm₂
    · rintro e m₂ ⟨⟨⟩, -⟩
  case isFalse => exact alone_disconnectAgain (steady_replays s) client hm₁.1

/-- `disconnect`. -/
theorem visible_disconnect (hm : Replays s m) (hidle : m.world.connState = .idle) :
    Alone AnyStep (Replays s) disconnect (fun r m' => Ends (Replays s)
      (DisconnectEnds (Replays s) (Replays s) (VisibleEnd s)) r m' ∧ m'.world.connState = .idle)
      m := by
  have hS := steady_replays s
  refine alone_disconnect hS.waiting hS (looking_allPublished s) (fun _ h => h) (fun _ h => h.1) ?_
    (fun _ _ _ _ hm h => hm.step h) ?_ ?_ (fun _ hm hclosed => visible_closed hm hclosed)
    (fun client _ hm => visible_timedOut client hm) hm hidle
  · intro o ho r m m' hm h
    have hm' := hm.step ho h
    exact ⟨hm'.1, hm'⟩
  · intro e f r m m' hm h
    exact ⟨hm.step h, by rw [h.history_eq]; rfl⟩
  · exact keeps_updateBadStatusTime (fun _ hm => hm.1) fun o ho r m m' hm h => hm.step ho.mute h

end Impl

/-! ### The exact condition -/

/-- Run alone, a successful `disconnect` leaves a client that is neither healthy nor RUNNING exactly
when the cached state was not healthy where `getState`, asked after a timeout, said CLOSED. -/
theorem disconnectVisible {s : ImplState} {d : ImplPool} (hidle : s.connState = .idle)
    (hd : ImplPool.Reach (ImplPool.alone .disconnect (.start s)) d)
    (hret : d.Returned 0 (.ok (.disconnect (.ok ())))) :
    (d.state.world.isHealthy = false ∧ d.state.world.lifeState ≠ .running) ↔
      ClosedSeen s d.state.history := by
  have hstart : Replays s (Traced.start s) := rfl
  obtain ⟨-, hends⟩ := Impl.reach_solo hstart (Impl.visible_disconnect hstart hidle) hd
  obtain ⟨a, ha, hend, -⟩ := hends _ hret
  cases ha
  exact hend.2

/-- The SDK reports that the channel is closed. -/
def disconnectClosed : Option ImplPool :=
  let env : Environment := { state := ⟨.good, .closed, .closed⟩ }
  (ImplPool.alone .disconnect (.start .connected)).play ImplState.exec (env.moves 0 44)

/-- The success is visible. -/
theorem disconnectVisible_closed :
    ∃ d : ImplPool, d.Returned 0 (.ok (.disconnect (.ok ()))) ∧
      d.state.world.isHealthy = false ∧ d.state.world.lifeState ≠ .running := by
  have hplay : disconnectClosed.any (fun d => decide (ClosedSeen .connected d.state.history) &&
      d.result? 0 == some (.ok (.disconnect (.ok ())))) = true := by
    decide
  obtain ⟨d, -, hd, hcheck⟩ := Config.exists_reach_of_play hplay
  simp only [Bool.and_eq_true, decide_eq_true_eq, beq_iff_eq] at hcheck
  have hret := Config.returned_of_result? hcheck.2
  exact ⟨d, hret, (disconnectVisible rfl hd hret).mpr hcheck.1⟩

/-- The SDK reports a healthy client until the time is up, and a closed channel when it is asked
directly. -/
def disconnectTimedOutHealthy : Option ImplPool :=
  let before : Environment := {}
  let after : Environment := { state := ⟨.good, .closed, .closed⟩, now := 100000 }
  (ImplPool.alone .disconnect (.start .connected)).play ImplState.exec
    (before.moves 0 33 ++ after.moves 0 15)

/-- The call succeeds, and the client is still healthy and RUNNING. -/
theorem not_disconnectVisible :
    ¬∀ (s : ImplState) (d : ImplPool), s.IsOpen → s.connState = .idle →
      ImplPool.Reach (ImplPool.alone .disconnect (.start s)) d →
      d.Returned 0 (.ok (.disconnect (.ok ()))) →
      d.state.world.isHealthy = false ∧ d.state.world.lifeState ≠ .running := by
  intro hall
  have hplay : disconnectTimedOutHealthy.any (fun d => d.state.world.isHealthy &&
      d.result? 0 == some (.ok (.disconnect (.ok ())))) = true := by
    decide +kernel
  obtain ⟨d, -, hd, hcheck⟩ := Config.exists_reach_of_play hplay
  simp only [Bool.and_eq_true, beq_iff_eq] at hcheck
  have hdown := hall _ d ⟨rfl, rfl⟩ rfl hd (Config.returned_of_result? hcheck.2)
  exact absurd (hcheck.1.symm.trans hdown.1) nofun

end OPCUAPacking
