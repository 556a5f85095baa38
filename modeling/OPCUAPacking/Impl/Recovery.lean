import OPCUAPacking.Impl.Exits
import OPCUAPacking.Impl.Visible

/-!
# What an unhealthy verdict leads to

A decision that does not find the client healthy should give up, find it healthy again, or issue a
`connectAsync` or `disconnectAsync`. The branch for a channel that is not closed polls the SDK once
and leaves if the channel is still not closed.

* `acted` — whether the decision has issued a connection call.
* `lastPoll`, `beforeCall` — the last `runIterate` of a history, and the history before it.
* `PollSettles` — the condition on that poll.
* `decisionRecovers` — a decision recovers exactly when its last poll meets the condition.
-/

namespace OPCUAPacking

open Interleaving

/-- The call that opens or closes the connection. -/
def ImplOp.connects : ImplOp → Bool
  | .sdkCall _ c => c.isConnection
  | _ => false

/-- `connectAsync` or `disconnectAsync` has been issued. -/
def acted (h : History) : Bool := h.any fun e => e.op.connects

/-- The history up to the return of the last `runIterate`, if no answer of `getState` has been
published since. -/
def lastPoll : History → Option History
  | [] => none
  | e :: es =>
      match e.op with
      | .casStrong .statePacked _ _ => none
      | .sdkReturn _ (.runIterate _) => some (e :: es)
      | _ => lastPoll es

/-- The history before the last call of the SDK. -/
def beforeCall : History → Option History
  | [] => none
  | e :: es =>
      match e.op with
      | .sdkCall _ _ => some es
      | _ => beforeCall es

namespace ImplState

/-- What the SDK has reported. -/
def report (s : ImplState) : Bool × BitVec 64 := (s.connectionLost, s.statePacked)

/-- The channel is closed. -/
def IsClosed (s : ImplState) : Prop := (unpackState s.statePacked).channel = .closed

/-- The state in which a decision takes the branch for a channel that is not closed: the connection
is not lost, the session is activated. -/
def IsHalfOpen (s : ImplState) : Prop :=
  s.connectionLost = false ∧ (unpackState s.statePacked).session = .activated ∧ ¬s.IsClosed

instance (s : ImplState) : Decidable s.IsClosed := inferInstanceAs (Decidable (_ = _))

instance (s : ImplState) : Decidable s.IsHalfOpen := inferInstanceAs (Decidable (_ ∧ _))

variable {s s' : ImplState}

theorem isHealthy_of_report (h : s'.report = s.report) : s'.isHealthy = s.isHealthy := by
  obtain ⟨hlost, hword⟩ := Prod.mk.inj h
  rw [isHealthy, isHealthy, hlost, hword]

theorem isClosed_of_report (h : s'.report = s.report) : s'.IsClosed ↔ s.IsClosed := by
  rw [IsClosed, IsClosed, (Prod.mk.inj h).2]

theorem isHalfOpen_of_report (h : s'.report = s.report) : s'.IsHalfOpen ↔ s.IsHalfOpen := by
  rw [IsHalfOpen, IsHalfOpen, isClosed_of_report h, (Prod.mk.inj h).1, (Prod.mk.inj h).2]

/-- What the SDK has reported stays, where nobody writes it. -/
theorem report_of_mute {t : Tid} {o : ImplOp} {r : o.Resp} (ho : o.Mute)
    (h : exec t o r s = some s') : s'.report = s.report := by
  have hlost : s'.connectionLost = s.connectionLost := get_of_not_writes h ho.lost
  have hword : s'.statePacked = s.statePacked := get_of_not_writes h ho.word
  rw [report, report, hlost, hword]

end ImplState

/-- The last poll that no probe has followed, if it came before any connection call and began in a
half open state, left the channel closed or the client healthy. -/
def PollSettles (s : ImplState) (h : History) : Prop :=
  ∀ es ∈ lastPoll h, acted es = false → ∀ es₀ ∈ beforeCall es,
    ∀ s₀ ∈ Event.replay ImplState.exec s es₀, ∀ s₁ ∈ Event.replay ImplState.exec s es,
      s₀.IsHalfOpen → s₁.IsClosed ∨ s₁.isHealthy = true

instance (s : ImplState) (h : History) : Decidable (PollSettles s h) :=
  inferInstanceAs (Decidable (∀ _ ∈ _, _))

/-- What an unhealthy verdict must lead to. -/
def Recovers (m : Moment) : Prop :=
  m.world.lifeState = .givenUp ∨ m.world.isHealthy = true ∨ acted m.history = true

/-! ### Histories -/

variable {s : ImplState} {m m' : Moment} {t : Tid} {o : ImplOp} {r : o.Resp} {h : History}

theorem acted_cons : acted (⟨t, o, r⟩ :: h) = (o.connects || acted h) := List.any_cons

/-- Connection calls are not forgotten. -/
theorem acted_cons_of_acted (hh : acted h = true) : acted (⟨t, o, r⟩ :: h) = true := by
  rw [acted_cons, hh, Bool.or_true]

/-- Other operations are no connection calls. -/
theorem acted_cons_of_not (ho : o.connects = false) : acted (⟨t, o, r⟩ :: h) = acted h := by
  rw [acted_cons, ho, Bool.false_or]

theorem ImplOp.Drifts.not_connects (ho : o.Drifts) : o.connects = false := by
  cases o with
  | sdkCall client c =>
      rcases ho with ho | ho | ho
      · cases c <;> first | rfl | cases ho
      · exact ho.elim
      · cases ho
  | _ => rfl

theorem ImplOp.Timing.not_connects (ho : o.Timing) : o.connects = false := by
  rcases ho with ho | ho
  · exact ImplOp.Drifts.not_connects (.inl ho.looks)
  · cases o <;> first | rfl | exact ho.elim

theorem ImplOp.Timing.not_return (ho : o.Timing) (client : Handle) (c : SdkCall) :
    o ≠ .sdkReturn client c := by
  rintro rfl
  exact ho.elim id id

/-- Other operations leave the last poll. -/
theorem lastPoll_cons (hword : ¬o.Writes .statePacked)
    (hpoll : ∀ client ms, o ≠ .sdkReturn client (.runIterate ms)) :
    lastPoll (⟨t, o, r⟩ :: h) = lastPoll h := by
  cases o with
  | casStrong a e d => cases a <;> first | exact absurd rfl hword | rfl
  | sdkReturn client c => cases c <;> first | exact absurd rfl (hpoll client _) | rfl
  | _ => rfl

/-- Other operations leave the last call. -/
theorem beforeCall_cons (hcall : ∀ client c, o ≠ .sdkCall client c) :
    beforeCall (⟨t, o, r⟩ :: h) = beforeCall h := by
  cases o with
  | sdkCall client c => exact absurd rfl (hcall client c)
  | _ => rfl

/-- Operations that concern no poll. -/
theorem pollSettles_cons (hword : ¬o.Writes .statePacked)
    (hpoll : ∀ client ms, o ≠ .sdkReturn client (.runIterate ms)) :
    PollSettles s (⟨t, o, r⟩ :: h) ↔ PollSettles s h := by
  rw [PollSettles, PollSettles, lastPoll_cons hword hpoll]

/-- A decision that has probed the client and not polled it since has nothing to answer for. -/
theorem pollSettles_of_probed (hh : lastPoll h = none) : PollSettles s h := fun _ hes =>
  absurd (hh.symm.trans hes) nofun

/-- Nor has one for what it does after a connection call. -/
theorem pollSettles_cons_of_acted (hacted : acted h = true) (hh : PollSettles s h) :
    PollSettles s (⟨t, o, r⟩ :: h) := by
  by_cases hpoll : ∃ client ms, o = .sdkReturn client (.runIterate ms)
  · obtain ⟨client, ms, rfl⟩ := hpoll
    rintro es hes hnot
    cases hes
    exact absurd (hnot.symm.trans (acted_cons_of_acted hacted)) nofun
  · push Not at hpoll
    by_cases hword : o.Writes .statePacked
    · cases o with
      | store a v | casWeak a e d =>
        cases hword
        exact hh
      | casStrong a e d =>
        cases hword
        exact pollSettles_of_probed rfl
      | _ => exact hword.elim
    · exact (pollSettles_cons hword hpoll).mpr hh

/-! ### The protocol -/

/-- In a live `Impl` whose history leads from `s`. -/
def TraceAt (s : ImplState) (m : Moment) : Prop := LiveAt m ∧ Replays s m

/-- Where the last poll has met the condition. -/
def SettledAt (s : ImplState) (m : Moment) : Prop := TraceAt s m ∧ PollSettles s m.history

/-- After a connection call. -/
def ActedAt (s : ImplState) (m : Moment) : Prop := SettledAt s m ∧ acted m.history = true

/-- Before any connection call, and between the calls. -/
def UnactedAt (s : ImplState) (m : Moment) : Prop :=
  (TraceAt s m ∧ acted m.history = false) ∧ m.world.connState = .idle

/-- After the probe, before any poll, where the SDK has reported what it has in `s₀`. -/
def ProbedAt (s s₀ : ImplState) (m : Moment) : Prop :=
  UnactedAt s m ∧ lastPoll m.history = none ∧ m.world.report = s₀.report

/-- After a poll that began where the SDK had reported what it has in `s₀`; it has reported nothing
since the poll. -/
def PolledAt (s s₀ : ImplState) (m : Moment) : Prop :=
  UnactedAt s m ∧ ∃ es es₀ s₀' s₁, lastPoll m.history = some es ∧ acted es = false ∧
    beforeCall es = some es₀ ∧ Event.replay ImplState.exec s es₀ = some s₀' ∧
    s₀'.report = s₀.report ∧ Event.replay ImplState.exec s es = some s₁ ∧ s₁.report = m.world.report

/-- What the condition says after a poll. -/
theorem PolledAt.pollSettles {s₀ : ImplState} (hm : PolledAt s s₀ m) :
    PollSettles s m.history ↔
      (s₀.IsHalfOpen → m.world.IsClosed ∨ m.world.isHealthy = true) := by
  obtain ⟨-, es, es₀, s₀', s₁, hes, hunacted, hes₀, hs₀, hreport₀, hs₁, hreport₁⟩ := hm
  rw [← ImplState.isHalfOpen_of_report hreport₀, ← ImplState.isClosed_of_report hreport₁,
    ← ImplState.isHealthy_of_report hreport₁, PollSettles]
  simp [hes, hunacted, hes₀, hs₀, hs₁]

namespace Impl

theorem steady_traceAt (s : ImplState) : Steady AnyStep (Replays s) (TraceAt s) where
  inv _ hm := hm.2
  drift _ ho _ _ _ hm h := ⟨hm.1.step ho.live ho.spares h, hm.2.step h⟩
  timer := keeps_updateBadStatusTime (fun _ hm => hm.2) fun _ ho _ _ _ hm h =>
    ⟨hm.1.step ho.live ho.spares h, hm.2.step h⟩
  busy _ ho _ _ _ hm h :=
    ⟨hm.1.step (ImplOp.live_of_busy ho) (ImplOp.spares_of_busy ho) h, hm.2.step h⟩

/-- After a connection call the polls do not matter. -/
theorem actedAt_step (hm : ActedAt s m) (h : AloneStep AnyStep o r m m') (hm' : TraceAt s m') :
    ActedAt s m' := by
  refine ⟨⟨hm', ?_⟩, ?_⟩ <;> rw [h.history_eq]
  · exact pollSettles_cons_of_acted hm.2 hm.1.2
  · exact acted_cons_of_acted hm.2

theorem steady_actedAt (s : ImplState) : Steady AnyStep (Replays s) (ActedAt s) where
  inv _ hm := hm.1.1.2
  drift o ho r m m' hm h := actedAt_step hm h ((steady_traceAt s).drift o ho r m m' hm.1.1 h)
  timer := keeps_updateBadStatusTime (fun _ hm => hm.1.1.2) fun _ ho _ _ _ hm h =>
    actedAt_step hm h ⟨hm.1.1.1.step ho.live ho.spares h, hm.1.1.2.step h⟩
  busy o ho r m m' hm h := actedAt_step hm h ((steady_traceAt s).busy o ho r m m' hm.1.1 h)

/-- Before its first SDK call a connection call polls nothing. -/
theorem waiting_settledAt (s : ImplState) : Waiting AnyStep (Replays s) (SettledAt s) where
  inv _ hm := hm.1.2
  look o ho r m m' hm h := by
    refine ⟨(steady_traceAt s).waiting.look o ho r m m' hm.1 h, ?_⟩
    rw [h.history_eq, pollSettles_cons ho.mute.word (by rintro _ _ rfl; exact ho)]
    exact hm.2
  scope o ho r m m' hm h := by
    refine ⟨(steady_traceAt s).waiting.scope o ho r m m' hm.1 h, ?_⟩
    rw [h.history_eq, pollSettles_cons ?_ ?_]
    · exact hm.2
    · rcases ho with ho | rfl | rfl
      · exact ho.mute.word
      · exact id
      · exact nofun
    · rintro _ _ rfl
      rcases ho with ho | ⟨⟨⟩⟩ | ⟨⟨⟩⟩
      exact ho

theorem drifting_unactedAt (s : ImplState) : Drifting AnyStep (Replays s) (UnactedAt s) :=
  drifting_idle
    { inv := fun _ hm => hm.1.2
      drift := fun o ho r m m' hm h => ⟨(steady_traceAt s).drift o ho r m m' hm.1 h,
        h.history_eq ▸ (acted_cons_of_not ho.not_connects).trans hm.2⟩
      timer := keeps_updateBadStatusTime_and (steady_traceAt s).timer fun _ ho _ _ _ h hm =>
        h.history_eq ▸ (acted_cons_of_not ho.not_connects).trans hm }

theorem probedAt_step {s₀ : ImplState} (hm : ProbedAt s s₀ m) (ho : o.Timing)
    (h : AloneStep AnyStep o r m m') : ProbedAt s s₀ m' := by
  obtain ⟨⟨⟨⟨hlive, hreplays⟩, hacted⟩, hidle⟩, hpoll, hreport⟩ := hm
  refine ⟨⟨⟨⟨hlive.step ho.live ho.spares h, hreplays.step h⟩, ?_⟩, ?_⟩, ?_, ?_⟩
  · rw [h.history_eq, acted_cons_of_not ho.not_connects, hacted]
  · exact (ImplState.get_of_not_writes (a := .connState) h.exec_eq (ho.not_writes nofun)).trans
      hidle
  · rw [h.history_eq, lastPoll_cons ho.mute.word fun client _ => ho.not_return client _, hpoll]
  · rw [ImplState.report_of_mute ho.mute h.exec_eq, hreport]

theorem looking_probedAt (s s₀ : ImplState) : Looking AnyStep (Replays s) (ProbedAt s s₀) where
  inv _ hm := hm.1.1.1.2
  look _ ho _ _ _ hm h := probedAt_step hm (.inl ho) h

theorem timing_probedAt (s s₀ : ImplState) :
    (aloneProtocol AnyStep (Replays s)).Keeps (ProbedAt s s₀) 0 updateBadStatusTime :=
  keeps_updateBadStatusTime (fun _ hm => hm.1.1.1.2) fun _ ho _ _ _ hm h => probedAt_step hm ho h

/-- After a poll, while nothing is reported. -/
theorem polledAt_step {s₀ : ImplState} (hm : PolledAt s s₀ m) (ho : o.Mute)
    (hreturn : ∀ client c, o ≠ .sdkReturn client c) (h : AloneStep AnyStep o r m m')
    (hm' : UnactedAt s m') : PolledAt s s₀ m' := by
  obtain ⟨-, es, es₀, s₀', s₁, hes, hunacted, hes₀, hs₀, hreport₀, hs₁, hreport₁⟩ := hm
  refine ⟨hm', es, es₀, s₀', s₁, ?_, hunacted, hes₀, hs₀, hreport₀, hs₁, ?_⟩
  · rw [h.history_eq, lastPoll_cons ho.word fun client ms => hreturn client _, hes]
  · rw [ImplState.report_of_mute ho h.exec_eq, hreport₁]

theorem looking_polledAt (s s₀ : ImplState) : Looking AnyStep (Replays s) (PolledAt s s₀) where
  inv _ hm := hm.1.1.1.2
  look o ho r m m' hm h := polledAt_step hm ho.mute (by rintro _ _ rfl; exact ho) h
    ((drifting_unactedAt s).looking.look o ho r m m' hm.1 h)

/-! ### Connecting -/

/-- How a decision ends: unless it ends with an exception, it has recovered exactly when its last
poll meets the condition. -/
abbrev RecoveryEnds (s : ImplState) : Except Exn Unit → Moment → Prop :=
  Ends (fun _ => True) fun _ m => Recovers m ↔ PollSettles s m.history

/-- After a connection call both sides hold. -/
theorem recovers_of_acted (hm : ActedAt s m) : Recovers m ↔ PollSettles s m.history :=
  iff_of_true (.inr (.inr hm.2)) hm.1.2

theorem acted_turnToRunning (hm : ActedAt s m) : Alone AnyStep (Replays s) turnToRunning
    (fun r m' => r = .ok () ∧ ActedAt s m') m := by
  refine (alone_promotes (steady_actedAt s).toDrifting.looking ?_ hm).mono
    fun r m' h => ⟨h.1, h.2.2⟩
  exact fun o ho r m m' hm h =>
    actedAt_step hm h ⟨hm.1.1.1.step ho.live ho.spares h, hm.1.1.2.step h⟩

/-- The first connection call. -/
theorem SettledAt.act {client : Handle} {c : SdkCall} {r : List Callback} (hm : SettledAt s m)
    (hc : c.isConnection = true) (h : AloneStep AnyStep (.sdkCall client c) r m m') :
    ActedAt s m' := by
  have hm' := (steady_traceAt s).busy (.sdkCall client c) (.inl trivial) r m m' hm.1 h
  refine ⟨⟨hm', ?_⟩, ?_⟩ <;> rw [h.history_eq]
  · exact (pollSettles_cons (by rintro ⟨⟩) (by rintro _ _ ⟨⟩)).mpr hm.2
  · rw [acted_cons, ImplOp.connects, hc, Bool.true_or]

theorem recovery_connectAndTurn (hm : SettledAt s m) (hidle : m.world.connState = .idle) :
    Alone AnyStep (Replays s) connectAndTurn (RecoveryEnds s) m := by
  have hL := steady_actedAt s
  have hconnect := alone_connect (waiting_settledAt s) hL.toDrifting hL (fun _ h => h)
    (fun _ hm => hm.1) hL.leaving
    (fun _ url _ _ _ hm h => SettledAt.act (c := .connectAsync url) hm rfl h)
    (fun client url => hL.busy (.sdkReturn client (.connectAsync url)) (.inl trivial)) ?_
    (fun _ hm _ => acted_turnToRunning hm) hm hidle
  refine alone_connectAndTurn (fun _ _ _ _ => trivial) (fun _ hm => hm.1.1.2.not_isGone) hL
    hconnect ?_ fun _ hm _ _ => recovers_of_acted hm
  · intro m' hm' _
    refine (acted_turnToRunning hm').mono ?_
    rintro r m'' ⟨rfl, hm''⟩
    exact recovers_of_acted hm''
  · exact fun m f m' hm h _ => acted_turnToRunning (hL.toDrifting.looking.look .loadFields trivial
      f m m' hm h)

/-- After a `disconnectAsync`. -/
theorem recovery_connectIfClosed (client : Handle) (hm : ActedAt s m)
    (hidle : m.world.connState = .idle) :
    Alone AnyStep (Replays s) (connectIfClosed client) (RecoveryEnds s) m := by
  have hL := steady_actedAt s
  have hI := drifting_idle hL.toDrifting
  have hK := polling_of_drifting hI
  refine alone_keeps (hK.callRunIterate client 1) ⟨hm, hidle⟩ (fun _ m₁ hm₁ => ?_)
    fun _ _ _ => trivial
  refine alone_sees (alone_isChannelClosed hI.looking hm₁) fun m₂ hm₂ _ => ?_
  split
  · exact recovery_connectAndTurn hm₂.1.1 hm₂.2
  · refine (alone_recovers hL hm₂.1).mono ?_
    rintro r m₃ ⟨rfl, hm₃, -⟩
    exact recovers_of_acted hm₃

theorem recovery_reconnect (client : Handle) (hm : SettledAt s m)
    (hidle : m.world.connState = .idle) :
    Alone AnyStep (Replays s) (reconnect client) (RecoveryEnds s) m := by
  refine alone_reconnect (fun _ _ _ _ => trivial) (fun _ hm => hm.1.1.2.not_isGone)
    (alone_disconnect_recovers (waiting_settledAt s) (steady_actedAt s) (fun _ hm => hm.1)
      (fun _ _ _ _ hm h => SettledAt.act (c := .disconnectAsync) hm rfl h) hm hidle) ?_
  rintro m' (hm' | hm') hidle'
  · exact recovery_connectIfClosed client hm'.1 hidle'
  · exact recovery_connectIfClosed client hm' hidle'

/-! ### The poll -/

/-- Callbacks of a poll. -/
theorem uses_runCallback (cb : Callback) :
    Uses (fun o => o.Local ∨ o.WordWrite ∨ o = .store .connectionLost true) _ (runCallback cb) := by
  have hK := @Proc.closed_uses ImplSig Exn fun o =>
    o.Local ∨ o.WordWrite ∨ o = .store .connectionLost true
  exact composed_runCallback hK.toComposed (fun a ha => uses_perform (.inl ha))
    (fun o ho => uses_perform (.inr (.inl ho))) (uses_perform (.inr (.inr rfl))) cb

/-- The poll of a branch, from the state after the probe. -/
theorem polled_callRunIterate {s₀ : ImplState} (client : Handle) (hm : ProbedAt s s₀ m) :
    Alone AnyStep (Replays s) (callRunIterate client)
      (Ends (TraceAt s) fun _ => PolledAt s s₀) m := by
  have hU := drifting_unactedAt s
  refine alone_withLock (looking_probedAt s s₀) hm (fun m₁ hm₁ => ?_)
    (unlocking_ends (steady_traceAt s).leaving.unlocking fun _ => (looking_polledAt s s₀).unlocking)
  refine alone_bind (Ends (TraceAt s) fun _ => PolledAt s s₀) ?_ (fun _ _ h => h) fun _ _ h => h
  refine alone_step fun callbacks m₂ _ hcall => ?_
  have hm₂ : UnactedAt s m₂ :=
    hU.drift (.sdkCall client (.runIterate 1)) (.inl rfl) _ _ _ hm₁.1 hcall
  -- the callbacks call nothing
  have hkeeps : ∀ cb, (aloneProtocol AnyStep (Replays s)).Keeps
      (fun m => UnactedAt s m ∧ beforeCall m.history = some m₁.history) 0 (runCallback cb) := by
    refine fun cb => Protocol.keeps_solo_of_uses (fun _ hm => hm.1.1.1.2) ?_ (uses_runCallback cb)
    rintro o ho r m m' ⟨hm, hbefore⟩ h
    refine ⟨hU.drift o (ho.imp_left fun h => h.looks) r m m' hm h, ?_⟩
    rw [h.history_eq, beforeCall_cons ?_, hbefore]
    rintro _ _ rfl
    rcases ho with ho | ho | ⟨⟨⟩⟩ <;> exact ho
  have hK := Protocol.closed_keeps (ε := Exn) (aloneProtocol AnyStep (Replays s))
    (fun m => UnactedAt s m ∧ beforeCall m.history = some m₁.history) 0
  refine ⟨hm₂.1.1.2, alone_keeps (hK.forEach hkeeps callbacks) ⟨hm₂, ?_⟩ (fun _ m₃ hm₃ => ?_)
    fun _ _ hm => hm.1.1.1⟩
  · rw [hcall.history_eq]
    rfl
  · refine alone_step fun r m₄ _ hreturn => ?_
    have hm₄ : UnactedAt s m₄ :=
      hU.drift (.sdkReturn client (.runIterate 1)) (.inl rfl) _ _ _ hm₃.1 hreturn
    refine ⟨hm₄.1.1.2, ?_⟩
    cases r with
    | error e => exact hm₄.1.1
    | ok status =>
        refine ⟨hm₄, m₄.history, m₁.history, m₁.world, m₄.world, ?_, hm₄.1.2, ?_, hm₁.1.1.1.2,
          hm₁.2.2, hm₄.1.1.2, rfl⟩
        · rw [hreturn.history_eq]
          rfl
        · rw [hreturn.history_eq, beforeCall_cons (by rintro _ _ ⟨⟩), hm₃.2]

/-! ### The branches -/

theorem recovery_promoted (hm : SettledAt s m) (hhealthy : m.world.isHealthy = true) :
    Alone AnyStep (Replays s) turnToRunning (RecoveryEnds s) m := by
  refine (alone_promotes (waiting_settledAt s).toLooking ?_ hm).mono ?_
  · rintro o ho r m m' ⟨⟨hlive, hreplays⟩, hsettles⟩ h
    refine ⟨⟨hlive.step ho.live ho.spares h, hreplays.step h⟩, ?_⟩
    rw [h.history_eq, pollSettles_cons ?_ ?_]
    · exact hsettles
    · cases o with
      | casWeak a e d | store a v => cases a <;> first | exact ho.elim | exact nofun
      | load a => exact id
      | _ => exact ho.elim
    · rintro _ _ rfl
      exact ho
  · rintro r m' ⟨rfl, hworld, hm'⟩
    have hsound := ImplState.isSound_promote hm.1.1.2.2 (ImplState.isReady_of_isHealthy hhealthy)
    exact iff_of_true (.inr (.inl (hworld ▸ hsound.healthy))) hm'.2

/-- Giving up, after the probe. -/
theorem recovery_turnToGiveup {s₀ : ImplState} (hm : ProbedAt s s₀ m) :
    Alone AnyStep (Replays s) turnToGiveup (Ends (ProbedAt s s₀) fun _ m =>
      m.world.lifeState = .givenUp ∧ lastPoll m.history = none) m := by
  refine alone_turnToGiveup (looking_probedAt s s₀)
    (alone_ends_of_keeps (timing_probedAt s s₀) hm) ?_ ?_ fun _ hm hdead => ⟨hdead, hm.2.1⟩
  · rintro e r m m' ⟨⟨⟨⟨⟨hkept, hlive⟩, hreplays⟩, hacted⟩, hidle⟩, hpoll, hreport⟩ h
    have hworld := h.casWeak_error
    refine ⟨⟨⟨⟨⟨h.history_eq ▸ undropped_cons hkept nofun, hworld ▸ hlive⟩, hreplays.step h⟩, ?_⟩,
      hworld ▸ hidle⟩, ?_, hworld ▸ hreport⟩
    · rw [h.history_eq, acted_cons_of_not rfl, hacted]
    · rw [h.history_eq, lastPoll_cons (by rintro ⟨⟩) (by rintro _ _ ⟨⟩), hpoll]
  · rintro e m m' hm h
    refine ⟨hm.1.1.1.2.step h, by rw [h.casWeak_ok.2]; rfl, ?_⟩
    rw [h.history_eq, lastPoll_cons (by rintro ⟨⟩) (by rintro _ _ ⟨⟩), hm.2.1]

/-- The window check, then the rest of a branch. -/
theorem recovery_unlessExpired {p : Impl Unit} {s₀ : ImplState} (hm : ProbedAt s s₀ m)
    (hp : ∀ m', ProbedAt s s₀ m' → Alone AnyStep (Replays s) p (RecoveryEnds s) m') :
    Alone AnyStep (Replays s) (giveUpIfExpired >>= fun expired => Proc.when (!expired) p)
      (RecoveryEnds s) m := by
  refine alone_bind _ (alone_giveUpIfExpired (looking_probedAt s s₀)
    (fun _ _ _ hm h => probedAt_step (o := .load .lastBadStatusMs) hm (.inr trivial) h)
    (timing_probedAt s s₀) (fun _ hm => hm) (fun _ hm => recovery_turnToGiveup hm) hm) ?_
    fun _ _ _ => trivial
  rintro expired m₁ hm₁
  cases expired with
  | false => exact hp m₁ hm₁
  | true => exact iff_of_true (.inl hm₁.1) (pollSettles_of_probed hm₁.2)

theorem recovery_decideOpen {s₀ : ImplState} (client : Handle) (hm : ProbedAt s s₀ m)
    (hopen : s₀.IsHalfOpen) :
    Alone AnyStep (Replays s) (decideOpen client) (RecoveryEnds s) m := by
  have hP := looking_polledAt s s₀
  refine recovery_unlessExpired hm fun m₁ hm₁ => ?_
  refine alone_bind _ (polled_callRunIterate client hm₁) (fun _ m₂ hm₂ => ?_) fun _ _ _ => trivial
  refine alone_sees (alone_isChannelClosed hP hm₂) fun m₃ hm₃ hworld₃ => ?_
  split
  next hclosed =>
    have hclosed₃ : m₃.world.IsClosed := hworld₃ ▸ beq_iff_eq.mp hclosed
    exact recovery_connectAndTurn ⟨hm₃.1.1.1, hm₃.pollSettles.mpr fun _ => .inl hclosed₃⟩ hm₃.1.2
  next hclosed =>
  have hnot : ¬m₃.world.IsClosed := fun h => hclosed (beq_iff_eq.mpr (hworld₃ ▸ h))
  refine (alone_turnToRecovring hP hm₃ ?_).mono ?_
  · intro r m m' hm h
    refine polledAt_step hm ImplOp.mute_demotion (by rintro _ _ ⟨⟩) h
      ⟨⟨(steady_traceAt s).busy _ (.inr rfl) r m m' hm.1.1.1 h, ?_⟩, ?_⟩
    · rw [h.history_eq, acted_cons_of_not rfl, hm.1.1.2]
    · exact (ImplState.get_of_not_writes (a := .connState) h.exec_eq nofun).trans hm.1.2
  · rintro r m₄ ⟨rfl, hworld₄, hm₄⟩
    have hreport : m₄.world.report = m₃.world.report := by
      rw [hworld₄, ImplState.recover]
      split <;> rfl
    rw [← ImplState.isClosed_of_report hreport] at hnot
    have hlive : m₄.world.lifeState ≠ .givenUp := hm₄.1.1.1.1.2.2
    change Recovers m₄ ↔ PollSettles s m₄.history
    rw [hm₄.pollSettles, Recovers]
    simp [hopen, hnot, hlive, hm₄.1.1.2]

theorem recovery_decideBad {s₀ : ImplState} (client : Handle) (hm : ProbedAt s s₀ m)
    (hclosed : s₀.IsClosed) :
    Alone AnyStep (Replays s) (decideBad client) (RecoveryEnds s) m := by
  have hP := looking_polledAt s s₀
  refine recovery_unlessExpired hm fun m₁ hm₁ => ?_
  refine alone_bind _ (polled_callRunIterate client hm₁) (fun _ m₂ hm₂ => ?_) fun _ _ _ => trivial
  refine alone_sees (alone_isHealthyCached hP hm₂) fun m₃ hm₃ hworld₃ => ?_
  have hsettled : SettledAt s m₃ :=
    ⟨hm₃.1.1.1, hm₃.pollSettles.mpr fun hopen => absurd hclosed hopen.2.2⟩
  cases hhealthy : m₂.world.isHealthy with
  | false => exact recovery_reconnect client hsettled hm₃.1.2
  | true => exact recovery_promoted hsettled (hworld₃ ▸ hhealthy)

/-- A decision. -/
theorem recovery_decision (hm : UnactedAt s m) :
    Alone AnyStep (Replays s) doWatchdogDecision (RecoveryEnds s) m := by
  -- after the probe: nothing polled since, whatever the SDK has reported
  let A : Moment → Prop := fun m => UnactedAt s m ∧ lastPoll m.history = none
  have hprobed : ∀ m, A m → ProbedAt s m.world m := fun m hm => ⟨hm.1, hm.2, rfl⟩
  have hA : Looking AnyStep (Replays s) A := ⟨fun m hm => hm.1.1.1.2, fun o ho r m m' hm h =>
    have hm' := (looking_probedAt s m.world).look o ho r m m' (hprobed m hm) h
    ⟨hm'.1, hm'.2.1⟩⟩
  have hB : Looking AnyStep (Replays s) fun m => A m ∧ m.world.IsClosed :=
    ⟨fun m hm => hA.inv m hm.1, fun o ho r m m' hm h => ⟨hA.look o ho r m m' hm.1 h,
      (ImplState.isClosed_of_report (ImplState.report_of_mute ho.mute h.exec_eq)).mpr hm.2⟩⟩
  have htimer : (aloneProtocol AnyStep (Replays s)).Keeps A 0 updateBadStatusTime := fun m hm =>
    (timing_probedAt s m.world m (hprobed m hm)).mono fun _ _ h => ⟨h.1, h.2.1⟩
  refine alone_decision turnToRunning hA hB ?_ ?_ ?_ ?_ (drifting_unactedAt s) (fun _ hm => hm.1) ?_
    htimer (fun _ hm hgone => absurd hgone hm.1.1.1.2.not_isGone) (fun _ _ _ => trivial) ?_ hm
  · intro m f m' hm h hclosed
    obtain ⟨rfl, hworld⟩ := h.loadFields
    exact ⟨hA.look .loadFields trivial _ m m' hm h, hworld ▸ hclosed⟩
  · intro client m hm _
    exact recovery_unlessExpired (hprobed m hm) fun m' hm' =>
      recovery_reconnect client ⟨hm'.1.1.1, pollSettles_of_probed hm'.2.1⟩ hm'.1.2
  · exact fun client m hm _ hlost hsession hchannel =>
      recovery_decideOpen client (hprobed m hm) ⟨hlost, hsession, hchannel⟩
  · exact fun client m hm _ => recovery_decideBad client (hprobed m hm.1) hm.2
  · intro e f r m m' hm h
    refine ⟨(drifting_unactedAt s).publish e f r m m' hm h, ?_⟩
    rw [h.history_eq]
    rfl
  · exact fun m hm hhealthy =>
      recovery_promoted ⟨hm.1.1.1, pollSettles_of_probed hm.2⟩ hhealthy

end Impl

/-! ### The exact condition -/

/-- Run alone on a live `Impl`, a decision leaves it given up or healthy, or issues a connection
call, exactly when its last poll meets the condition. -/
theorem decisionRecovers {s : ImplState} (hlive : s.IsLive) (hidle : s.connState = .idle)
    {d : ImplPool} {r : ImplReply}
    (hd : ImplPool.Reach (.alone .watchdogDecision (.start s)) d) (hret : d.Returned 0 (.ok r)) :
    (d.state.world.lifeState = .givenUp ∨ d.state.world.isHealthy = true ∨
      acted d.state.history = true) ↔ PollSettles s d.state.history := by
  have hstart : UnactedAt s (.start s) := ⟨⟨⟨⟨nofun, hlive⟩, rfl⟩, rfl⟩, hidle⟩
  obtain ⟨-, hends⟩ := Impl.reach_solo hstart.1.1.2 (Impl.recovery_decision hstart) hd
  obtain ⟨_, _, hend⟩ := hends _ hret
  exact hend

/-- A bad status over an open channel with an activated session. -/
def halfOpen : Environment :=
  { state := ⟨UA_StatusCode.badCommunicationError, .open, .activated⟩, now := 7 }

/-- The poll of the branch reports that the channel is closed, and the client connects. -/
def decisionReconnects : Option ImplPool :=
  let closing : Environment :=
    { halfOpen with callbacks := fun _ => [.state ⟨.good, .closed, .closed⟩] }
  let after : Environment := {}
  (ImplPool.alone .watchdogDecision (.start .connected)).play ImplState.exec
    (halfOpen.moves 0 38 ++ closing.moves 0 20 ++ after.moves 0 44)

/-- The decision recovers. -/
theorem decisionRecovers_reconnects :
    ∃ d : ImplPool, d.Returned 0 (.ok .unit) ∧ (d.state.world.lifeState = .givenUp ∨
      d.state.world.isHealthy = true ∨ acted d.state.history = true) := by
  have hplay : decisionReconnects.any (fun d => decide (PollSettles .connected d.state.history) &&
      d.result? 0 == some (.ok .unit)) = true := by
    decide +kernel
  obtain ⟨d, -, hd, hcheck⟩ := Config.exists_reach_of_play hplay
  simp only [Bool.and_eq_true, decide_eq_true_eq, beq_iff_eq] at hcheck
  have hret := Config.returned_of_result? hcheck.2
  exact ⟨d, hret, (decisionRecovers ⟨⟨rfl, rfl⟩, by decide⟩ rfl hd hret).mpr hcheck.1⟩

/-- Nothing changes during the poll. -/
def decisionOnlyPolls : Option ImplPool :=
  (ImplPool.alone .watchdogDecision (.start .connected)).play ImplState.exec (halfOpen.moves 0 50)

/-- `getState` reports a client that is ready. -/
def saysReady : Event ImplSig → Bool
  | ⟨_, .sdkReturn _ .getState, .ok f⟩ => f.isReady
  | _ => false

/-- `getState` never reports a client that is ready, and the decision leaves it RECOVERING, with no
connection call. -/
theorem not_decisionRecovers :
    ¬∀ (s : ImplState) (d : ImplPool) (r : ImplReply), s.IsLive → s.connState = .idle →
      ImplPool.Reach (.alone .watchdogDecision (.start s)) d → d.Returned 0 (.ok r) →
      d.state.history.any saysReady = false → d.state.world.lifeState = .givenUp ∨
        d.state.world.isHealthy = true ∨ acted d.state.history = true := by
  intro hall
  have hplay : decisionOnlyPolls.any (fun d => d.state.world.lifeState == .recovering &&
      !d.state.world.isHealthy && !acted d.state.history && !d.state.history.any saysReady &&
      d.result? 0 == some (.ok .unit)) = true := by
    decide +kernel
  obtain ⟨d, -, hd, hcheck⟩ := Config.exists_reach_of_play hplay
  simp only [Bool.and_eq_true, Bool.not_eq_true', beq_iff_eq] at hcheck
  obtain ⟨⟨⟨⟨hlife, hunhealthy⟩, hunacted⟩, hunready⟩, hret⟩ := hcheck
  rcases hall _ d _ ⟨⟨rfl, rfl⟩, by decide⟩ rfl hd (Config.returned_of_result? hret) hunready with
    h | h | h
  · exact absurd (hlife.symm.trans h) nofun
  · exact absurd (hunhealthy.symm.trans h) nofun
  · exact absurd (hunacted.symm.trans h) nofun

end OPCUAPacking
