import OPCUAPacking.Impl.Decisions
import OPCUAPacking.Impl.Dues
import OPCUAPacking.Impl.Schedule

/-!
# Life state and health at the exits

While no other thread acts, a successful `connect` leaves a client that is RUNNING and healthy with
nothing left of an earlier fault; and no other end of `connect`, `disconnect` or a decision leaves
it RUNNING without being healthy. The final else branch of a decision, which promotes the client
without a look, is never taken.

* `ImplState.IsSound` — what a successful `connect` leaves.
* `exitsAgree` — every exit of every operation.
-/

namespace OPCUAPacking

open Interleaving

namespace ImplState

/-- An open `Impl` that was not given up. -/
def IsLive (s : ImplState) : Prop := s.IsOpen ∧ s.lifeState ≠ .givenUp

/-- RUNNING and healthy, with nothing left of an earlier fault. -/
structure IsSound (s : ImplState) : Prop where
  running : s.lifeState = .running
  healthy : s.isHealthy = true
  notLost : s.connectionLost = false
  noTimer : s.lastBadStatusMs = 0

variable {s s' : ImplState}

theorem IsLive.not_isGone (h : s.IsLive) : ¬s.IsGone := by
  obtain ⟨⟨hshutdown, himpl⟩, hlife⟩ := h
  rintro (hstop | hnone)
  · simp [stopSignal, hshutdown, hlife] at hstop
  · rw [hnone] at himpl
    cases himpl

theorem IsSound.not_isStale (h : s.IsSound) : ¬s.IsStale := fun hstale =>
  absurd (h.healthy.symm.trans hstale.2) nofun

/-- A client whose triple is ready is promoted to a sound one. -/
theorem isSound_promote (hlife : s.lifeState ≠ .givenUp)
    (hready : (unpackState s.statePacked).triple.isReady = true) : s.promote.IsSound := by
  rw [promote, if_neg hlife]
  exact ⟨rfl, by simpa [isHealthy] using hready, rfl, rfl⟩

/-- A promotion leaves `m_connState`. -/
theorem idle_promote (h : s.connState = .idle) : s.promote.connState = .idle := by
  unfold promote
  split <;> exact h

/-- The triple of a healthy client is ready. -/
theorem isReady_of_isHealthy (h : s.isHealthy = true) :
    (unpackState s.statePacked).triple.isReady = true :=
  (Bool.and_eq_true_iff.mp h).2

/-- A live `Impl` stays live, unless it is given up. -/
theorem IsLive.step {t : Tid} {o : ImplOp} {r : o.Resp} (hs : s.IsLive) (ho : o.Live)
    (hspares : o.Spares) (h : exec t o r s = some s') : s'.IsLive :=
  ⟨(open_of_exec ho hs.1 h).1, fun hgone => hs.2 (givenUp_of_exec hspares h hgone)⟩

end ImplState

/-! ### The protocol -/

/-- Nobody has taken the client away. -/
def Undropped (h : History) : Prop := ∀ e ∈ h, e.op ≠ .resetImpl

/-- In a live `Impl`, whose client nobody has taken away. -/
def LiveAt (m : Moment) : Prop := Undropped m.history ∧ m.world.IsLive

/-- Where `connect` has succeeded. -/
def SoundAt (m : Moment) : Prop := LiveAt m ∧ m.world.IsSound

variable {m m' : Moment} {o : ImplOp} {r : o.Resp}

/-- A longer history without `doCleanup`. -/
theorem undropped_cons {t : Tid} {h : History} (hh : Undropped h) (ho : o ≠ .resetImpl) :
    Undropped (⟨t, o, r⟩ :: h) := by
  intro e he
  rcases List.mem_cons.mp he with rfl | he
  · exact ho
  · exact hh e he

theorem ImplOp.Live.ne_resetImpl (ho : o.Live) : o ≠ .resetImpl := by
  rintro rfl
  rcases ho with ho | ho | ho | ho <;> exact ho

/-- Only `inactivityCallback` and `TurnToRunning` write the flag, with a store. -/
theorem ImplOp.Live.lost_of_writes (ho : o.Live) (hw : o.Writes .connectionLost) :
    ∃ v, o = .store .connectionLost v := by
  cases o with
  | store a v =>
      obtain rfl : a = .connectionLost := hw
      exact ⟨v, rfl⟩
  | casWeak a e d | casStrong a e d =>
      obtain rfl : a = .connectionLost := hw
      rcases ho with ho | ho | ho | ho <;> exact ho.elim
  | _ => exact hw.elim

theorem ImplOp.Drifts.live (ho : o.Drifts) : o.Live := by
  rcases ho with ho | ho | rfl
  · exact .inl ho.quiet
  · exact .inr (.inr (.inl ho))
  · exact .inr (.inl trivial)

theorem ImplOp.Timing.live (ho : o.Timing) : o.Live :=
  .inl (ho.elim (fun ho => ho.looks.quiet) fun ho => ho.quiet)

theorem ImplOp.live_of_busy (ho : o.InFlight ∨ o.Demotes) : o.Live := by
  rcases ho with ho | rfl
  · exact .inr (.inr (.inr ho))
  · exact .inr (.inl nofun)

theorem ImplOp.Promotes.live (ho : o.Promotes) : o.Live := by
  cases o with
  | casWeak a e d =>
      cases a with
      | lifeState => exact .inr (.inl ho.1)
      | _ => exact ho.elim
  | store a v =>
      cases a with
      | connectionLost => exact .inr (.inl trivial)
      | lastBadStatusMs => exact .inl trivial
      | _ => exact ho.elim
  | load a =>
      cases a with
      | lastBadStatusMs => exact .inl ⟨nofun, nofun⟩
      | _ => exact ho.elim
  | _ => exact ho.elim

theorem ImplOp.Leaves.live (ho : o.Leaves) : o.Live := by
  cases o with
  | store a v => cases a <;> first | exact ho.elim | exact .inr (.inr (.inr ho))
  | unlock m => exact .inl trivial
  | taskDec => exact .inr (.inr (.inr trivial))
  | _ => exact ho.elim

/-- A step of a live `Impl` that does not give it up. -/
theorem LiveAt.step (hm : LiveAt m) (ho : o.Live) (hspares : o.Spares)
    (h : AloneStep AnyStep o r m m') : LiveAt m' :=
  ⟨h.history_eq ▸ undropped_cons hm.1 ho.ne_resetImpl, hm.2.step ho hspares h.exec_eq⟩

namespace Impl

theorem steady_liveAt : Steady AnyStep (fun m => Undropped m.history) LiveAt where
  inv _ hm := hm.1
  drift _ ho _ _ _ hm h := hm.step ho.live ho.spares h
  timer := keeps_updateBadStatusTime (fun _ hm => hm.1) fun _ ho _ _ _ hm h =>
    hm.step ho.live ho.spares h
  busy _ ho _ _ _ hm h := hm.step (ImplOp.live_of_busy ho) (ImplOp.spares_of_busy ho) h

theorem leaving_soundAt : Leaving AnyStep (fun m => Undropped m.history) SoundAt := by
  intro o ho r m m' hm h
  obtain ⟨hkept, hlive⟩ := steady_liveAt.leaving o ho r m m' hm.1 h
  have hcore := ImplState.core_of_leaves ho h.exec_eq
  have hsound : m'.world.core.IsSound := hcore ▸ ⟨hm.2.1, hm.2.2, hm.2.3, hm.2.4⟩
  exact ⟨hkept, hlive, hsound.1, hsound.2, hsound.3, hsound.4⟩

/-- `TurnToRunning`, where the triple is ready. -/
theorem sound_turnToRunning (hm : LiveAt m)
    (hready : (unpackState m.world.statePacked).triple.isReady = true) :
    Alone AnyStep (fun m => Undropped m.history) turnToRunning
      (fun r m' => r = .ok () ∧ SoundAt m') m := by
  refine (alone_promotes steady_liveAt.toDrifting.looking
    (fun _ ho _ _ _ hm h => hm.step ho.live ho.spares h) hm).mono ?_
  rintro r m' ⟨hr, hworld, hm'⟩
  exact ⟨hr, hm', hworld ▸ ImplState.isSound_promote hm.2.2 hready⟩

/-- `connect`. -/
theorem sound_connect (hm : LiveAt m) (hidle : m.world.connState = .idle) :
    Alone AnyStep (fun m => Undropped m.history) connect (fun r m' =>
      Ends LiveAt (ConnectEnds LiveAt LiveAt SoundAt) r m' ∧ m'.world.connState = .idle) m := by
  refine alone_connect steady_liveAt.waiting steady_liveAt.toDrifting steady_liveAt (fun _ h => h)
    (fun _ h => h) leaving_soundAt
    (fun client url _ _ _ hm h =>
      hm.step (o := .sdkCall client (.connectAsync url)) (.inr (.inr (.inr trivial))) trivial h)
    (fun client url _ _ _ hm h =>
      hm.step (o := .sdkReturn client (.connectAsync url)) (.inr (.inr (.inr trivial))) trivial h)
    ?_
    (fun m hm hhealthy => sound_turnToRunning hm (ImplState.isReady_of_isHealthy hhealthy)) hm hidle
  intro m f m' hm hload hready
  obtain ⟨rfl, hworld⟩ := hload.loadFields
  exact sound_turnToRunning (hm.step (o := .loadFields) (.inl trivial) trivial hload)
    (hworld ▸ hready)

/-- `disconnect`. -/
theorem sound_disconnect (hm : LiveAt m) (hidle : m.world.connState = .idle) :
    Alone AnyStep (fun m => Undropped m.history) disconnect (fun r m' =>
      Ends LiveAt (DisconnectEnds LiveAt LiveAt fun m => LiveAt m ∧ ¬m.world.IsStale) r m' ∧
        m'.world.connState = .idle) m :=
  alone_disconnect_recovers steady_liveAt.waiting steady_liveAt (fun _ h => h)
    (fun client _ _ _ hm h =>
      hm.step (o := .sdkCall client .disconnectAsync) (.inr (.inr (.inr trivial))) trivial h)
    hm hidle

/-! ### Decisions -/

/-- How a decision ends: unless it ends with an exception, the client is not RUNNING without being
healthy. -/
abbrev Settled : Except Exn Unit → Moment → Prop := Ends (fun _ => True) fun _ m => ¬m.world.IsStale

/-- In a live `Impl` on which nobody connects or disconnects. -/
def IdleAt (m : Moment) : Prop := LiveAt m ∧ m.world.connState = .idle

theorem drifting_idleAt : Drifting AnyStep (fun m => Undropped m.history) IdleAt :=
  drifting_idle steady_liveAt.toDrifting

theorem settled_turnToRunning (hm : LiveAt m)
    (hready : (unpackState m.world.statePacked).triple.isReady = true) :
    Alone AnyStep (fun m => Undropped m.history) turnToRunning Settled m := by
  refine (sound_turnToRunning hm hready).mono ?_
  rintro r m' ⟨rfl, hm'⟩
  exact hm'.2.not_isStale

/-- Giving up leaves a client that is not RUNNING. -/
theorem givenUp_turnToGiveup (hm : LiveAt m) :
    Alone AnyStep (fun m => Undropped m.history) turnToGiveup
      (Ends LiveAt fun _ m => m.world.lifeState = .givenUp) m := by
  refine alone_turnToGiveup steady_liveAt.toDrifting.looking
    (alone_ends_of_keeps steady_liveAt.timer hm) ?_ ?_ fun _ _ h => h
  · rintro e r m m' hm h
    exact ⟨h.history_eq ▸ undropped_cons hm.1 nofun, h.casWeak_error ▸ hm.2⟩
  · rintro e m m' hm h
    refine ⟨h.history_eq ▸ undropped_cons hm.1 nofun, ?_⟩
    rw [h.casWeak_ok.2]
    rfl

/-- The window check. -/
theorem settled_giveUpIfExpired (hm : LiveAt m) (hidle : m.world.connState = .idle) :
    Alone AnyStep (fun m => Undropped m.history) giveUpIfExpired
      (Ends (fun m => ∀ e, Settled (.error e) m) fun expired m =>
        if expired then Settled (.ok ()) m else LiveAt m ∧ m.world.connState = .idle) m := by
  refine (alone_giveUpIfExpired drifting_idleAt.looking (fun _ _ _ hm h => ?_)
    drifting_idleAt.timer (fun _ hm => hm.1) (fun _ hm => givenUp_turnToGiveup hm.1)
    ⟨hm, hidle⟩).mono ?_
  · exact ⟨hm.1.step (o := .load .lastBadStatusMs) (.inl ⟨nofun, nofun⟩) trivial h, h.load.2 ▸ hm.2⟩
  · rintro (e | expired) m₁ hm₁
    · exact fun _ => trivial
    · cases expired with
      | false => exact hm₁
      | true => exact fun hstale => absurd (hstale.1.symm.trans hm₁) nofun

/-- A decision, whatever stands in its final else branch. -/
theorem settled_decision (last : Impl Unit) (hm : IdleAt m) :
    Alone AnyStep (fun m => Undropped m.history) (doWatchdogDecisionOr last) Settled m := by
  have hpromoted : ∀ m, LiveAt m → m.world.connState = .idle → m.world.isHealthy = true →
      Alone AnyStep (fun m => Undropped m.history) turnToRunning Settled m := fun m hm _ hh =>
    settled_turnToRunning hm (ImplState.isReady_of_isHealthy hh)
  exact steady_decision last steady_liveAt.toDrifting steady_liveAt
    (fun _ => settled_giveUpIfExpired) (fun _ => sound_connect)
    (fun m hm hidle => hpromoted m hm.1 hidle hm.2.healthy) hpromoted
    (fun _ hm => hm.2.not_isGone) (fun _ _ _ _ => trivial) (fun _ _ _ hstale => hstale)
    (fun _ hm _ hgone => absurd hgone hm.2.not_isGone) (fun _ _ _ _ => trivial) hpromoted hm.1 hm.2

end Impl

/-! ### Every exit -/

/-- Run alone on a live `Impl`: a successful `connect` leaves it sound; the other exits of
`connect`, `disconnect` and a decision do not leave it RUNNING without being healthy; and whatever
program stands in the final else branch of a decision, `doCleanup` for one, it is not run. -/
theorem exitsAgree {s : ImplState} (hlive : s.IsLive) (hidle : s.connState = .idle) :
    (∀ (d : ImplPool) r, ImplPool.Reach (.alone .connect (.start s)) d →
      d.Returned 0 (.ok (.connect r)) → (r = .ok () → d.state.world.IsSound) ∧
        (r = .error .connectFailed ∨ r = .error .timeoutNotconnect → ¬d.state.world.IsStale)) ∧
    (∀ (d : ImplPool) r, ImplPool.Reach (.alone .disconnect (.start s)) d →
      d.Returned 0 (.ok (.disconnect r)) →
        r = .ok () ∨ r = .error .disconnectFail ∨ r = .error .timeoutNotdisconnect →
        ¬d.state.world.IsStale) ∧
    (∀ (d : ImplPool) r, ImplPool.Reach (.alone .watchdogDecision (.start s)) d →
      d.Returned 0 (.ok r) → ¬d.state.world.IsStale) ∧
    ∀ (last : Impl Unit) (d : ImplPool), ImplPool.Reach
      (.solo (Impl.replying (fun _ => .unit) (Impl.doWatchdogDecisionOr last)) (.start s)) d →
      Undropped d.state.history := by
  have hstart : LiveAt (.start s) := ⟨nofun, hlive⟩
  refine ⟨fun d r hd hret => ?_, fun d r hd hret => ?_, fun d r hd hret => ?_,
    fun last d hd => ?_⟩
  · obtain ⟨-, hends⟩ := Impl.reach_solo hstart.1 (Impl.sound_connect hstart hidle) hd
    obtain ⟨a, ha, hend, -⟩ := hends _ hret
    cases ha
    cases r with
    | ok u => exact ⟨fun _ => hend.2, by rintro (⟨⟨⟩⟩ | ⟨⟨⟩⟩)⟩
    | error e =>
        refine ⟨nofun, fun _ => ?_⟩
        -- an error that says the client is gone does not occur on a live one
        rcases hend with ⟨hm, -, hgone⟩ | ⟨-, -, hstale⟩
        · exact absurd hgone hm.2.not_isGone
        · exact hstale
  · obtain ⟨-, hends⟩ := Impl.reach_solo hstart.1 (Impl.sound_disconnect hstart hidle) hd
    obtain ⟨a, ha, hend, -⟩ := hends _ hret
    cases ha
    intro _
    cases r with
    | ok u => exact hend.2
    | error e =>
        rcases hend with ⟨hm, -, hgone⟩ | ⟨-, -, hstale⟩
        · exact absurd hgone hm.2.not_isGone
        · exact hstale
  · obtain ⟨-, hends⟩ := Impl.reach_solo hstart.1
      (Impl.settled_decision Impl.turnToRunning ⟨hstart, hidle⟩) hd
    obtain ⟨_, _, hend⟩ := hends _ hret
    exact hend
  · exact (Impl.reach_solo hstart.1 (Impl.settled_decision last ⟨hstart, hidle⟩) hd).1

/-- A fresh `Impl` connects. -/
def connectFresh : Option ImplPool :=
  let env : Environment := {}
  (ImplPool.alone .connect (.start (.construct {} "opc.tcp://plc:4840" 1))).play ImplState.exec
    (env.moves 0 47)

/-- It is sound afterwards. -/
theorem exitsAgree_connect :
    ∃ d : ImplPool, d.Returned 0 (.ok (.connect (.ok ()))) ∧ d.state.world.IsSound := by
  have hplay : connectFresh.any
      (fun d => d.result? 0 == some (.ok (.connect (.ok ())))) = true := by
    decide
  obtain ⟨d, -, hd, hcheck⟩ := Config.exists_reach_of_play hplay
  have hret := Config.returned_of_result? (beq_iff_eq.mp hcheck)
  have hlive : (ImplState.construct {} "opc.tcp://plc:4840" 1).IsLive := ⟨⟨rfl, rfl⟩, nofun⟩
  exact ⟨d, hret, ((exitsAgree hlive rfl).1 d _ hd hret).1 rfl⟩

end OPCUAPacking
