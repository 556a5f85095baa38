import OPCUAPacking.Impl.Exits
import OPCUAPacking.Impl.Recovery
import OPCUAPacking.Impl.Session

/-!
# A lost connection is torn down

After `inactivityCallback` the client should not be healthy again before a `disconnectAsync` was
issued. The success test of `connect` looks at the triple only, and clears the flag.

* `outstanding` — whether an inactivity event has had no `disconnectAsync` since.
* `attempting` — whether `connect` is polling.
* `Attentive` — `connect` does not find the triple ready while an event is outstanding.
* `lostStaysUnhealthy` — in sessions whose steps are attentive, an outstanding event is seen.
-/

namespace OPCUAPacking

open Interleaving

/-- The connection was lost, and no `disconnectAsync` has been issued since. -/
def outstanding : History → Bool
  | [] => false
  | ⟨_, .store .connectionLost true, _⟩ :: _ => true
  | ⟨_, .sdkCall _ .disconnectAsync, _⟩ :: _ => false
  | _ :: es => outstanding es

/-- A `connectAsync` was issued, and the call that issued it polls. -/
def attempting : History → Bool
  | [] => false
  | ⟨_, .sdkCall _ (.connectAsync _), _⟩ :: _ => true
  | ⟨_, .sdkCall _ .disconnectAsync, _⟩ :: _ => false
  | ⟨_, .store .connState _, _⟩ :: _ => false
  | _ :: es => attempting es

/-- The event finds the triple ready. -/
def readsReady : Event ImplSig → Bool
  | ⟨_, .loadFields, f⟩ => f.triple.isReady
  | _ => false

/-- The success test of `connect` does not find the triple ready while a lost connection is
outstanding. -/
def Attentive (m : Moment) (e : Event ImplSig) : Prop :=
  readsReady e = true → attempting m.history = true → outstanding m.history = false

instance (m : Moment) (e : Event ImplSig) : Decidable (Attentive m e) :=
  inferInstanceAs (Decidable (_ → _ → _))

/-- A lost connection that is outstanding is not forgotten. -/
def Remembers (m : Moment) : Prop := outstanding m.history = true → m.world.connectionLost = true

/-! ### Histories -/

variable {ok : Moment → Event ImplSig → Prop} {m m' : Moment} {t : Tid} {o : ImplOp} {r : o.Resp}
  {h : History}

theorem outstanding_cons (hlost : ¬o.Writes .connectionLost) (ho : o.connects = false) :
    outstanding (⟨t, o, r⟩ :: h) = outstanding h := by
  cases o with
  | store a v => cases a <;> first | exact absurd rfl hlost | rfl
  | sdkCall client c => cases c <;> first | rfl | cases ho
  | _ => rfl

theorem attempting_cons (hconn : ¬o.Writes .connState) (ho : o.connects = false) :
    attempting (⟨t, o, r⟩ :: h) = attempting h := by
  cases o with
  | store a v => cases a <;> first | exact absurd rfl hconn | rfl
  | sdkCall client c => cases c <;> first | rfl | cases ho
  | _ => rfl

/-- `disconnectAsync` answers the event. -/
theorem outstanding_call {client : Handle} {c : SdkCall} {callbacks : List Callback} :
    outstanding (⟨t, .sdkCall client c, callbacks⟩ :: h) = true → outstanding h = true := by
  cases c with
  | disconnectAsync => exact nofun
  | _ => exact id

/-- Every step but the one that clears the flag. -/
theorem Remembers.step (hm : Remembers m) (ho : o.Live) (hclear : o ≠ .store .connectionLost false)
    (h : AloneStep ok o r m m') : Remembers m' := by
  by_cases hw : o.Writes .connectionLost
  · obtain ⟨v, rfl⟩ := ho.lost_of_writes hw
    cases v with
    | false => exact absurd rfl hclear
    | true =>
        intro _
        rw [AloneStep.store h]
        rfl
  · intro hout
    have hlost : m'.world.connectionLost = m.world.connectionLost :=
      ImplState.get_of_not_writes (a := .connectionLost) h.exec_eq hw
    rw [hlost]
    refine hm ?_
    rw [h.history_eq] at hout
    cases hcalls : o.connects with
    | false => rwa [outstanding_cons hw hcalls] at hout
    | true =>
        cases o with
        | sdkCall client c => exact outstanding_call hout
        | _ => cases hcalls

/-- Giving up forgets nothing. -/
theorem Remembers.giveUp {e : LifeState} {r : Except LifeState Unit} (hm : Remembers m)
    (h : AloneStep ok (.casWeak .lifeState e .givenUp) r m m') : Remembers m' := by
  intro hout
  have hlost : m'.world.connectionLost = m.world.connectionLost :=
    ImplState.get_of_not_writes (a := .connectionLost) h.exec_eq nofun
  rw [h.history_eq] at hout
  rw [hlost]
  exact hm hout

/-! ### What the calls keep -/

/-- In an open `Impl` that remembers, and was not given up unless it is `dead`. -/
structure FaultAt (dead : Prop) (m : Moment) : Prop where
  remembers : Remembers m
  isOpen : m.world.IsOpen
  alive : m.world.lifeState = .givenUp → dead

/-- Where nothing is outstanding. -/
def TornAt (dead : Prop) (m : Moment) : Prop := FaultAt dead m ∧ outstanding m.history = false

/-- Where `connect` polls. -/
def AttemptAt (dead : Prop) (m : Moment) : Prop := FaultAt dead m ∧ attempting m.history = true

variable {dead : Prop}

theorem FaultAt.step (hm : FaultAt dead m) (ho : o.Live)
    (hclear : o ≠ .store .connectionLost false)
    (hspares : o.Spares) (h : AloneStep ok o r m m') : FaultAt dead m' where
  remembers := hm.remembers.step ho hclear h
  isOpen := (ImplState.open_of_exec ho hm.isOpen h.exec_eq).1
  alive hgone := hm.alive (ImplState.givenUp_of_exec hspares h.exec_eq hgone)

theorem ImplOp.Drifts.connects (ho : o.Drifts) : o.connects = false := by
  rcases ho with ho | ho | rfl
  · cases o with
    | sdkCall client c => cases c <;> first | rfl | exact absurd ho nofun
    | _ => rfl
  · cases o <;> first | rfl | exact ho.elim
  · rfl

theorem ImplOp.Timing.connects (ho : o.Timing) : o.connects = false := by
  rcases ho with ho | ho
  · exact ImplOp.Drifts.connects (.inl ho.looks)
  · cases o <;> first | rfl | exact ho.elim

theorem ImplOp.Drifts.ne_clear (ho : o.Drifts) : o ≠ .store .connectionLost false := by
  rintro rfl
  rcases ho with ho | ho | ⟨⟨⟩⟩
  · exact ho
  · exact ho

theorem ImplOp.Timing.ne_clear (ho : o.Timing) : o ≠ .store .connectionLost false := by
  rintro rfl
  exact ho.not_writes (a := .connectionLost) nofun rfl

theorem ImplOp.ne_clear_of_busy (ho : o.InFlight ∨ o.Demotes) :
    o ≠ .store .connectionLost false := by
  rintro rfl
  rcases ho with ho | ⟨⟨⟩⟩
  exact ho

theorem FaultAt.drift (hm : FaultAt dead m) (ho : o.Drifts) (h : AloneStep ok o r m m') :
    FaultAt dead m' :=
  hm.step ho.live ho.ne_clear ho.spares h

/-- Where nothing is outstanding, the flag may be cleared. -/
theorem TornAt.step (hm : TornAt dead m) (ho : o.Live) (hlost : o ≠ .store .connectionLost true)
    (hspares : o.Spares) (h : AloneStep ok o r m m') : TornAt dead m' := by
  have htorn : outstanding m'.history = false := by
    rw [h.history_eq]
    by_cases hw : o.Writes .connectionLost
    · obtain ⟨v, rfl⟩ := ho.lost_of_writes hw
      cases v with
      | false => exact hm.2
      | true => exact absurd rfl hlost
    · refine Bool.eq_false_iff.mpr fun hout => ?_
      cases hcalls : o.connects with
      | false => exact absurd ((outstanding_cons hw hcalls).symm.trans hout) (by simp [hm.2])
      | true =>
          cases o with
          | sdkCall client c => exact absurd (outstanding_call hout) (by simp [hm.2])
          | _ => cases hcalls
  refine ⟨⟨fun hout => absurd (htorn.symm.trans hout) nofun,
    (ImplState.open_of_exec ho hm.1.isOpen h.exec_eq).1, fun hgone => ?_⟩, htorn⟩
  exact hm.1.alive (ImplState.givenUp_of_exec hspares h.exec_eq hgone)

/-- The client may have been given up. -/
theorem FaultAt.weaken (hm : FaultAt dead m) : FaultAt True m :=
  ⟨hm.remembers, hm.isOpen, fun _ => trivial⟩

/-- An open client that was not given up can be used. -/
theorem FaultAt.not_isGone (hm : FaultAt False m) : ¬m.world.IsGone :=
  ImplState.IsLive.not_isGone ⟨hm.isOpen, fun hgone => hm.alive hgone⟩

namespace Impl

theorem steady_faultAt : Steady Attentive Remembers (FaultAt dead) where
  inv _ hm := hm.remembers
  drift _ ho _ _ _ hm h := hm.drift ho h
  timer := keeps_updateBadStatusTime (fun _ hm => hm.remembers) fun _ ho _ _ _ hm h =>
    hm.step ho.live ho.ne_clear ho.spares h
  busy _ ho _ _ _ hm h :=
    hm.step (ImplOp.live_of_busy ho) (ImplOp.ne_clear_of_busy ho) (ImplOp.spares_of_busy ho) h

theorem drifting_attemptAt : Drifting Attentive Remembers (AttemptAt dead) where
  inv _ hm := hm.1.remembers
  drift o ho r m m' hm h := by
    refine ⟨hm.1.drift ho h, ?_⟩
    rw [h.history_eq, attempting_cons (ho.not_writes nofun nofun) ho.connects]
    exact hm.2
  timer := keeps_updateBadStatusTime (fun _ hm => hm.1.remembers) fun o ho r m m' hm h => by
    refine ⟨hm.1.step ho.live ho.ne_clear ho.spares h, ?_⟩
    rw [h.history_eq, attempting_cons (ho.not_writes nofun) ho.connects]
    exact hm.2

theorem looking_tornAt : Looking Attentive Remembers (TornAt dead) where
  inv _ hm := hm.1.remembers
  look o ho r m m' hm h := by
    refine hm.step (.inl ho.looks.quiet) ?_ (ImplOp.spares_of_not_writes ho.not_writes) h
    rintro rfl
    exact ho

theorem leaving_tornAt : Leaving Attentive Remembers (TornAt dead) := by
  intro o ho r m m' hm h
  have hm' : TornAt dead m' := by
    refine hm.step ho.live ?_ ho.spares h
    rintro rfl
    exact ho
  exact ⟨hm'.1.remembers, hm'⟩

/-- `TurnToRunning`, where nothing is outstanding. -/
theorem torn_turnToRunning (hm : TornAt dead m) :
    Alone Attentive Remembers turnToRunning
      (fun r m' => r = .ok () ∧ TornAt dead m' ∧ m'.world = m.world.promote) m := by
  refine (alone_promotes looking_tornAt (fun o ho r m m' hm h => ?_) hm).mono fun _ _ h =>
    ⟨h.1, h.2.2, h.2.1⟩
  refine hm.step ho.live ?_ ho.spares h
  rintro rfl
  exact absurd ho nofun

/-- A healthy client has nothing outstanding. -/
theorem torn_of_healthy (hm : FaultAt dead m) (hhealthy : m.world.isHealthy = true) :
    TornAt dead m := by
  refine ⟨hm, Bool.eq_false_iff.mpr fun hout => ?_⟩
  rw [ImplState.isHealthy, hm.remembers hout] at hhealthy
  cases hhealthy

/-- `connect`. -/
theorem fault_connect (hm : FaultAt dead m) (hidle : m.world.connState = .idle) :
    Alone Attentive Remembers connect (fun r m' =>
      Ends (FaultAt dead) (ConnectEnds (FaultAt dead) (FaultAt dead) (TornAt dead)) r m' ∧
        m'.world.connState = .idle) m := by
  have hturn : ∀ m, TornAt dead m → Alone Attentive Remembers turnToRunning
      (fun r m' => r = .ok () ∧ TornAt dead m') m := fun m hm =>
    (torn_turnToRunning hm).mono fun _ _ h => ⟨h.1, h.2.1⟩
  refine alone_connect steady_faultAt.waiting drifting_attemptAt steady_faultAt (fun _ h => h.1)
    (fun _ h => h) leaving_tornAt (fun client url m callbacks m' hm h => ?_)
    (fun client url r m m' hm h => ?_) (fun m f m' hm hload hready => ?_)
    (fun m hm hhealthy => hturn m (torn_of_healthy hm.1 hhealthy)) hm hidle
  · refine ⟨steady_faultAt.busy (.sdkCall client (.connectAsync url)) (.inl trivial) _ _ _ hm h, ?_⟩
    rw [h.history_eq]
    rfl
  · refine ⟨steady_faultAt.busy (.sdkReturn client (.connectAsync url)) (.inl trivial) _ _ _ hm.1 h,
      ?_⟩
    rw [h.history_eq]
    exact hm.2
  · -- the success test does not look at the flag, but the step is attentive
    have hm' := hm.1.drift (o := .loadFields) (.inl trivial) hload
    refine hturn m' ⟨hm', ?_⟩
    rw [hload.history_eq]
    exact hload.meets hready hm.2

/-- The window check. -/
theorem fault_giveUpIfExpired (hm : FaultAt False m) (hidle : m.world.connState = .idle) :
    Alone Attentive Remembers giveUpIfExpired
      (Ends (fun m' => Exn → FaultAt True m' ∧ m'.world.connState = .idle) fun expired m' =>
        if expired then FaultAt True m' ∧ m'.world.connState = .idle
        else FaultAt False m' ∧ m'.world.connState = .idle) m := by
  have hsteady : Steady Attentive Remembers (FaultAt False) := steady_faultAt
  have hI := drifting_idle hsteady.toDrifting
  refine (alone_giveUpIfExpired hI.looking (fun _ _ _ hm h => ?_) hI.timer
    (X := fun m => FaultAt True m ∧ m.world.connState = .idle)
    (G := fun m => FaultAt True m ∧ m.world.connState = .idle)
    (fun _ hm => ⟨hm.1.weaken, hm.2⟩) (fun m hm => ?_) ⟨hm, hidle⟩).mono ?_
  · exact ⟨hm.1.step (o := .load .lastBadStatusMs) (.inl ⟨nofun, nofun⟩) nofun trivial h,
      h.load.2 ▸ hm.2⟩
  · refine alone_turnToGiveup hI.looking
      ((alone_ends_of_keeps hI.timer hm).mono ?_) ?_ ?_ fun _ hm _ => ⟨hm.1.weaken, hm.2⟩
    · rintro (e | u) m₁ hm₁
      · exact ⟨hm₁.1.weaken, hm₁.2⟩
      · exact hm₁
    · rintro e observed m₁ m₂ hm₁ h
      exact ⟨⟨hm₁.1.remembers.giveUp h, h.casWeak_error ▸ hm₁.1.isOpen,
        h.casWeak_error ▸ hm₁.1.alive⟩, h.casWeak_error ▸ hm₁.2⟩
    · rintro e m₁ m₂ hm₁ h
      have hremembers := hm₁.1.remembers.giveUp h
      obtain ⟨-, hworld⟩ := h.casWeak_ok
      exact ⟨hremembers, ⟨hremembers, hworld ▸ hm₁.1.isOpen, fun _ => trivial⟩, hworld ▸ hm₁.2⟩
  · rintro (e | expired) m₁ hm₁
    · exact fun _ => hm₁
    · exact hm₁

/-- A decision on a client that was not given up. -/
theorem fault_decision (hm : FaultAt False m) (hidle : m.world.connState = .idle) :
    Alone Attentive Remembers doWatchdogDecision
      (fun _ m' => FaultAt True m' ∧ m'.world.connState = .idle) m := by
  have hturn : ∀ m, TornAt False m → m.world.connState = .idle → Alone Attentive Remembers
      turnToRunning (fun _ m' => FaultAt True m' ∧ m'.world.connState = .idle) m := by
    refine fun m hm hidle => (torn_turnToRunning hm).mono ?_
    rintro r m' ⟨-, hm', hworld⟩
    exact ⟨hm'.1.weaken, hworld ▸ ImplState.idle_promote hidle⟩
  have hhealthy : ∀ m, FaultAt False m → m.world.connState = .idle → m.world.isHealthy = true →
      Alone Attentive Remembers turnToRunning
        (fun _ m' => FaultAt True m' ∧ m'.world.connState = .idle) m := fun m hm hidle hh =>
    hturn m (torn_of_healthy hm hh) hidle
  exact steady_decision turnToRunning steady_faultAt.toDrifting steady_faultAt
    (fun _ => fault_giveUpIfExpired) (fun _ => fault_connect) hturn hhealthy
    (fun _ hm => hm.not_isGone) (fun _ _ hm hidle => ⟨hm.weaken, hidle⟩)
    (fun _ hm hidle _ => ⟨hm.weaken, hidle⟩) (fun _ hm _ hgone => absurd hgone hm.not_isGone)
    (fun _ _ hm hidle => ⟨hm.weaken, hidle⟩) hhealthy hm hidle

/-- Every call of a session. -/
theorem fault_sessionCall (c : SessionCall) : (aloneProtocol Attentive Remembers).Keeps
    (fun m => FaultAt True m ∧ m.world.connState = .idle) 0 c.run := by
  have hsteady : Steady Attentive Remembers (FaultAt True) := steady_faultAt
  have hI := drifting_idle hsteady.toDrifting
  refine composed_sessionCall (polling_of_drifting hI) c (fun m hm => ?_)
    (alone_keeps_disconnect steady_faultAt) (fun _ m hm => ?_)
  · refine (fault_connect hm.1 hm.2).mono fun _ _ h => ⟨?_, h.2⟩
    exact keeps_of_callEnds (fun _ h => h) (fun _ h => h.1) h.1
  · by_cases hlife : m.world.lifeState = .givenUp
    · -- a client that was given up is left alone
      have hstop : m.world.stopSignal = true := by simp [ImplState.stopSignal, hlife]
      refine alone_sees (alone_stopSignal hI.looking hm) fun m₁ hm₁ _ => ?_
      rw [hstop]
      exact hm₁
    · exact fault_decision ⟨hm.1.remembers, hm.1.isOpen, hlife⟩ hm.2

end Impl

/-! ### Sessions -/

/-- In every session on an open client in which `connect` does not find the triple ready while a
lost connection is outstanding, also in the middle of its calls: an outstanding event keeps the
client from being healthy. -/
theorem lostStaysUnhealthy {s : ImplState} (hopen : s.IsOpen) (hidle : s.connState = .idle)
    {m : Moment} (hm : Session Attentive s m) (c : SessionCall) {d : ImplPool}
    (hd : Config.Reach (Traced.StepIf Attentive ImplState.exec) (ImplPool.solo c.run m) d)
    (hout : outstanding d.state.history = true) : d.state.world.isHealthy = false := by
  have hremembers : Remembers d.state := by
    refine hm.visits (I := fun m => FaultAt True m ∧ m.world.connState = .idle)
      (fun _ hm => hm.1.remembers) Impl.fault_sessionCall ⟨⟨nofun, hopen, fun _ => trivial⟩, hidle⟩
      c hd
  rw [ImplState.isHealthy, hremembers hout]
  rfl

/-- `inactivityCallback` is fired on a healthy client. -/
def inactive : Option ImplPool :=
  let env : Environment := {}
  (ImplPool.solo (SessionCall.callback .inactivity).run (.start .connected)).playIf Attentive
    ImplState.exec (env.moves 0 4)

/-- `checkConnected` afterwards, though the SDK reports a ready triple. -/
def checksAfter (m : Moment) : Option ImplPool :=
  let env : Environment := {}
  (ImplPool.solo SessionCall.checkConnected.run m).playIf Attentive ImplState.exec (env.moves 0 20)

/-- The client is not healthy. -/
theorem lostStaysUnhealthy_checked :
    ∃ (m : Moment) (d : ImplPool), Session Attentive .connected m ∧
      Config.Reach (Traced.StepIf Attentive ImplState.exec)
        (ImplPool.solo SessionCall.checkConnected.run m) d ∧
      outstanding d.state.history = true ∧ d.state.world.isHealthy = false := by
  have hplay : inactive.any (fun d => (d.result? 0).isSome &&
      (checksAfter d.state).any fun d' => outstanding d'.state.history) = true := by
    decide +kernel
  obtain ⟨d, -, hd, hcheck⟩ := Config.exists_reach_of_play hplay
  obtain ⟨hreturned, hchecks⟩ := Bool.and_eq_true_iff.mp hcheck
  obtain ⟨a, ha⟩ := Option.isSome_iff_exists.mp hreturned
  obtain ⟨d', -, hd', hout⟩ := Config.exists_reach_of_play hchecks
  have hsession : Session Attentive .connected d.state :=
    .call (.callback .inactivity) .start hd (Config.returned_of_result? ha)
  exact ⟨d.state, d', hsession, hd', hout,
    lostStaysUnhealthy ⟨rfl, rfl⟩ rfl hsession .checkConnected hd' hout⟩

/-- `inactivityCallback` is fired on a healthy client, in a session without condition. -/
def inactiveAny : Option ImplPool :=
  let env : Environment := {}
  (ImplPool.solo (SessionCall.callback .inactivity).run (.start .connected)).play ImplState.exec
    (env.moves 0 4)

/-- `connect` afterwards. -/
def connectsAfter (m : Moment) : Option ImplPool :=
  let env : Environment := {}
  (ImplPool.solo SessionCall.connect.run m).play ImplState.exec (env.moves 0 46)

/-- `connect` finds the triple ready, clears the flag and declares the client healthy, with no
`disconnectAsync` since the event. -/
theorem not_lostStaysUnhealthy :
    ¬∀ (s : ImplState) (m : Moment) (c : SessionCall) (d : ImplPool), s.IsOpen →
      s.connState = .idle → Session AnyStep s m →
      Config.Reach (Traced.StepIf AnyStep ImplState.exec) (ImplPool.solo c.run m) d →
      outstanding d.state.history = true → d.state.world.isHealthy = false := by
  intro hall
  have hplay : inactiveAny.any (fun d => (d.result? 0).isSome && (connectsAfter d.state).any
      fun d' => outstanding d'.state.history && d'.state.world.isHealthy) = true := by
    decide +kernel
  obtain ⟨d, -, hd, hcheck⟩ := Config.exists_reach_of_play hplay
  obtain ⟨hreturned, hconnects⟩ := Bool.and_eq_true_iff.mp hcheck
  obtain ⟨a, ha⟩ := Option.isSome_iff_exists.mp hreturned
  obtain ⟨d', -, hd', hcheck'⟩ := Config.exists_reach_of_play hconnects
  obtain ⟨hout, hhealthy⟩ := Bool.and_eq_true_iff.mp hcheck'
  have hsession : Session AnyStep .connected d.state :=
    .call (.callback .inactivity) .start hd (Config.returned_of_result? ha)
  have hfalse := hall .connected d.state .connect d' ⟨rfl, rfl⟩ rfl hsession hd' hout
  exact absurd (hfalse.symm.trans hhealthy) nofun

end OPCUAPacking
