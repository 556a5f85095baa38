import OPCUAPacking.Impl.GiveUp

/-!
# The drain of `shutdown`

`shutdown` sets the two flags of the stop signal and then waits for the counter of the calls in
flight to become zero. A call counts itself before it looks at the stop signal, so when the wait
succeeds no call is left that has not seen the signal: none starts a service any more.

* `DutyView` — what a thread has done: whether it is counted, whether it has seen since then that
  the stop signal was off, and how far it is in giving the signal itself.
* `DutyView.Allows` — the discipline: a service is started by a counted thread that has seen the
  signal off, and the wait comes after the signal.
-/

namespace OPCUAPacking

open Interleaving

/-- Where a thread stands in the scope of an `InFlightGuard`. -/
inductive Duty where
  | free
  | counted
  /-- Counted, and has seen since then that the stop signal was off. -/
  | cleared
  deriving DecidableEq

/-- The thread has seen that the stop signal was off. -/
def Duty.clear : Duty → Duty
  | .free => .free
  | .counted | .cleared => .cleared

/-- How far a thread is in giving the stop signal. -/
inductive Signal where
  | none
  /-- It has cleared `m_running`. -/
  | off
  /-- `m_shutdown` is set, by this thread or by another. -/
  | given
  deriving DecidableEq

/-- The stage of a thread. -/
structure DutyView where
  duty : Duty
  signal : Signal

namespace DutyView

/-- At the start of a call. -/
def start : DutyView := ⟨.free, .none⟩

/-- How an operation moves the stage. -/
def track (_ : History) (ℓ : DutyView) : (o : ImplOp) → o.Resp → DutyView
  | .taskInc, _ => { ℓ with duty := .counted }
  | .taskDec, _ => { ℓ with duty := .free }
  | .load .shutdown, false => { ℓ with duty := ℓ.duty.clear }
  | .load .shutdown, true => { ℓ with signal := .given }
  | .load .running, true => { ℓ with duty := ℓ.duty.clear }
  | .store .running _, _ => { ℓ with signal := .off }
  | .store .shutdown _, _ => { ℓ with signal := .given }
  | _, _ => ℓ

/-- What a thread may do at a stage. -/
def Allows (ℓ : DutyView) : (o : ImplOp) → o.Resp → Prop
  | .taskInc, _ => ℓ.duty = .free
  | .taskDec, _ => ℓ.duty ≠ .free
  | .sdkCall _ c, _ => c.isQuiet = false → ℓ.duty = .cleared
  | .store .running v, _ => v = false
  | .store .shutdown v, _ => v = true ∧ ℓ.signal ≠ .none
  | .taskWait _, _ => ℓ.signal = .given
  | _, _ => True

end DutyView

/-- The stage of thread `t` after a history. -/
def dutyView (t : Tid) (es : History) : DutyView := Event.stage DutyView.track .start t es

/-- The protocol of the calls in flight. -/
abbrev dutyProtocol : Protocol ImplSig (Traced ImplSig ImplState) DutyView :=
  Protocol.recorded ImplState.exec DutyView.Allows DutyView.track fun _ => .start

/-! ### The calls -/

/-- A set of stages that looking at the stop signal does not leave. -/
def DutyView.Stable (I : DutyView → Prop) : Prop :=
  ∀ ℓ, I ℓ → I { ℓ with duty := ℓ.duty.clear } ∧ I { ℓ with signal := .given }

namespace ImplOp

/-- Operations other than looking at the stop signal, giving it and counting. -/
def Dutiful : ImplOp → Prop
  | .load .shutdown | .load .running | .store .running _ | .store .shutdown _ => True
  | .taskInc | .taskDec | .taskWait _ => True
  | .sdkCall _ c => c.isQuiet = false
  | _ => False

/-- They are allowed at every stage and leave it. -/
theorem track_of_not_dutiful {o : ImplOp} (h : ¬o.Dutiful) (es : History) (ℓ : DutyView)
    (r : o.Resp) : ℓ.Allows o r ∧ ℓ.track es o r = ℓ := by
  cases o with
  | load a | store a v => cases a <;> first | exact absurd trivial h | exact ⟨trivial, rfl⟩
  | taskInc | taskDec | taskWait ms => exact absurd trivial h
  | sdkCall client c => exact ⟨fun hc => absurd hc h, rfl⟩
  | _ => exact ⟨trivial, rfl⟩

/-- The operations of the functions that do not count themselves keep a stable set. -/
theorem track_of_stable {I : DutyView → Prop} (hI : DutyView.Stable I) {o : ImplOp}
    (h : o.Quiet ∨ o.LifeWrite ∨ o.WordWrite) (es : History) (ℓ : DutyView) (r : o.Resp)
    (hℓ : I ℓ) : ℓ.Allows o r ∧ I (ℓ.track es o r) := by
  by_cases hd : o.Dutiful
  · cases o with
    | load a =>
        cases a with
        | shutdown =>
            cases r <;> first | exact ⟨trivial, (hI ℓ hℓ).1⟩ | exact ⟨trivial, (hI ℓ hℓ).2⟩
        | running => cases r <;> first | exact ⟨trivial, hℓ⟩ | exact ⟨trivial, (hI ℓ hℓ).1⟩
        | _ => exact hd.elim
    | store a v =>
        cases a with
        | shutdown | running => rcases h with h | h | h <;> exact h.elim
        | _ => exact hd.elim
    | taskInc | taskDec | taskWait ms => rcases h with h | h | h <;> exact h.elim
    | sdkCall client c =>
        rcases h with h | h | h
        · exact absurd (h.symm.trans hd) nofun
        · exact h.elim
        · exact h.elim
    | _ => exact hd.elim
  · obtain ⟨hallows, htrack⟩ := track_of_not_dutiful hd es ℓ r
    exact ⟨hallows, htrack.symm ▸ hℓ⟩

end ImplOp

namespace Impl

variable {t : Tid}

/-- An operation that does not concern the protocol keeps every set of stages. -/
theorem keeps_of_not_dutiful {o : ImplOp} (h : ¬o.Dutiful) (I : DutyView → Prop) :
    dutyProtocol.Keeps I t (perform o) :=
  Protocol.keeps_recorded_perform fun es ℓ r hℓ =>
    ⟨(ImplOp.track_of_not_dutiful h es ℓ r).1, (ImplOp.track_of_not_dutiful h es ℓ r).2.symm ▸ hℓ⟩

/-- The functions that do not count themselves keep every stable set. -/
theorem blocks_duty {I : DutyView → Prop} (hI : DutyView.Stable I) :
    Blocks fun _ (p : Impl _) => dutyProtocol.Keeps I t p := by
  have hK := Protocol.closed_keeps (ε := Exn) dutyProtocol I t
  have hop : ∀ o : ImplOp, o.Quiet ∨ o.LifeWrite ∨ o.WordWrite →
      dutyProtocol.Keeps I t (perform o) := fun o ho =>
    Protocol.keeps_recorded_perform fun es ℓ r hℓ => ImplOp.track_of_stable hI ho es ℓ r hℓ
  have hquiet : ∀ o : ImplOp, o.Quiet → dutyProtocol.Keeps I t (perform o) := fun o ho =>
    hop o (.inl ho)
  have hlife : ∀ o : ImplOp, o.LifeWrite → dutyProtocol.Keeps I t (perform o) := fun o ho =>
    hop o (.inr (.inl ho))
  have hword : ∀ o : ImplOp, o.WordWrite → dutyProtocol.Keeps I t (perform o) := fun o ho =>
    hop o (.inr (.inr ho))
  exact blocks_of_ops hK hquiet hlife (closed_runCallback hK hquiet hlife hword)
    (closed_probe hK hquiet hlife hword)

/-- A look at `m_connState` moves nothing. -/
theorem keeps_connState (I : DutyView → Prop) : dutyProtocol.Keeps I t (load .connState) :=
  keeps_of_not_dutiful id I

/-- A block under a mutex. -/
theorem duty_withLock {α : Type} {m : Mutex} {body : Impl α} {Q : Except Exn α → DutyView → Prop}
    {ℓ : DutyView} (hb : dutyProtocol.Follows t body Q ℓ) :
    dutyProtocol.Follows t (withLock m body) Q ℓ :=
  follows_withLock (fun _ => trivial) (fun _ => trivial) (fun _ _ => rfl) (fun _ _ => rfl) hb

/-- Being free is stable. -/
theorem stable_free : DutyView.Stable fun ℓ => ℓ.duty = .free :=
  fun _ hℓ => ⟨congrArg Duty.clear hℓ, hℓ⟩

/-- Being counted is stable. -/
theorem stable_counted : DutyView.Stable fun ℓ => ℓ.duty ≠ .free := by
  rintro ⟨duty, signal⟩ hℓ
  refine ⟨?_, hℓ⟩
  cases duty with
  | free => exact absurd rfl hℓ
  | counted | cleared => exact nofun

/-- Having seen the signal off is stable. -/
theorem stable_cleared : DutyView.Stable fun ℓ => ℓ.duty = .cleared :=
  fun _ hℓ => ⟨congrArg Duty.clear hℓ, hℓ⟩

/-- Having given the signal is stable. -/
theorem stable_given : DutyView.Stable fun ℓ => ℓ.duty = .free ∧ ℓ.signal = .given :=
  fun _ hℓ => ⟨⟨congrArg Duty.clear hℓ.1, hℓ.2⟩, hℓ.1, rfl⟩

/-- A counted thread that finds the stop signal off has seen it off. -/
theorem duty_stopSignal {ℓ : DutyView} (hℓ : ℓ.duty ≠ .free) :
    dutyProtocol.Follows t getEffectiveStopSignal
      (fun r ℓ' => ℓ'.duty ≠ .free ∧ (r = .ok false → ℓ'.duty = .cleared)) ℓ := by
  have hclear : ∀ ℓ : DutyView, ℓ.duty ≠ .free → ℓ.duty.clear = .cleared := by
    rintro ⟨duty, signal⟩ h
    cases duty <;> first | rfl | exact absurd rfl h
  have hgivenUp : ∀ ℓ : DutyView, ℓ.duty = .cleared → dutyProtocol.Follows t isGivenUp
      (fun r ℓ' => ℓ'.duty ≠ .free ∧ (r = .ok false → ℓ'.duty = .cleared)) ℓ := fun ℓ h =>
    ((blocks_duty stable_cleared).isGivenUp ℓ h).mono fun _ _ h' => ⟨h' ▸ nofun, fun _ => h'⟩
  refine Protocol.follows_recorded_perform fun es shutdown => ⟨trivial, ?_⟩
  cases shutdown with
  | false => exact hgivenUp _ (hclear ℓ hℓ)
  | true =>
      refine Protocol.follows_recorded_perform fun es running => ⟨trivial, ?_⟩
      cases running with
      | false => exact ⟨hℓ, nofun⟩
      | true => exact hgivenUp _ (hclear _ hℓ)

/-- In the scope of an `InFlightGuard`. -/
theorem duty_inFlight {α : Type} {body : Impl α} {ℓ : DutyView} (hℓ : ℓ.duty = .free)
    (hb : ∀ ℓ : DutyView, ℓ.duty = .counted →
      dutyProtocol.Follows t body (fun _ ℓ' => ℓ'.duty ≠ .free) ℓ) :
    dutyProtocol.Follows t (inFlight body) (fun _ ℓ' => ℓ'.duty = .free) ℓ := by
  refine Protocol.follows_recorded_perform fun es _ => ⟨hℓ, ?_⟩
  refine Protocol.Follows.ensuring (fun _ ℓ' => ℓ'.duty ≠ .free) (hb _ rfl) fun r ℓ' hr => ?_
  exact Protocol.follows_recorded_op fun es' _ => ⟨hr, rfl, rfl⟩

/-- A thread that has seen the signal off may use the SDK. -/
theorem keeps_sdk (client : Handle) (c : SdkCall) :
    dutyProtocol.Keeps (fun ℓ => ℓ.duty = .cleared) t (sdk client c) :=
  closed_sdk (Protocol.closed_keeps (ε := Exn) dutyProtocol _ t)
    (blocks_duty stable_cleared).runCallback
    (Protocol.keeps_recorded_perform fun _ _ _ hℓ => ⟨fun _ => hℓ, hℓ⟩)
    (keeps_of_not_dutiful id _)

/-- The connection functions, once the signal was seen off. -/
theorem connecting_duty :
    Connecting fun _ (p : Impl _) => dutyProtocol.Keeps (fun ℓ => ℓ.duty = .cleared) t p := by
  refine (blocks_duty stable_cleared).connecting (Protocol.closed_keeps _ _ _) fun o ho => ?_
  cases o with
  | sdkCall client c =>
      exact Protocol.keeps_recorded_perform fun _ _ _ hℓ => ⟨fun _ => hℓ, hℓ⟩
  | sdkReturn client c => exact keeps_of_not_dutiful id _
  | store a v | casStrong a e d =>
      cases a <;> first | exact keeps_of_not_dutiful id _ | exact ho.elim
  | _ => exact ho.elim

/-- `connect` counts itself, looks at the stop signal and only then uses the SDK. -/
theorem keeps_connect : dutyProtocol.Keeps (fun ℓ => ℓ.duty = .free) t connect := by
  intro ℓ hℓ
  refine duty_inFlight hℓ fun ℓ hℓ => ?_
  refine Protocol.Follows.bind _ (duty_stopSignal (hℓ.trans_ne nofun)) ?_ fun _ _ h => h.1
  rintro stop ℓ ⟨hcounted, hclear⟩
  cases stop with
  | true => exact hcounted
  | false =>
      have hK := connecting_duty (t := t)
      refine ((hK.bind hK.connectClient fun r => ?_) ℓ (hclear rfl)).mono fun _ _ h => h ▸ nofun
      cases r with
      | error e => exact hK.pure _
      | ok client => exact hK.singleFlight (hK.connectHeld client)

/-- The client snapshot of a counted thread comes with a look at the stop signal. -/
theorem duty_client {E : Type} {nullError stopError : E} {ℓ : DutyView} (hℓ : ℓ.duty ≠ .free) :
    dutyProtocol.Follows t
      (withLock .lock do
        let impl ← perform .copyImpl
        match impl with
        | none => pure (.error nullError)
        | some client =>
            let stop ← getEffectiveStopSignal
            if stop then pure (.error stopError) else pure (.ok client) : Impl (Result Handle E))
      (fun r ℓ' => ℓ'.duty ≠ .free ∧ ∀ client, r = .ok (.ok client) → ℓ'.duty = .cleared) ℓ := by
  refine duty_withLock (Protocol.follows_recorded_perform fun es impl => ⟨trivial, ?_⟩)
  cases impl with
  | none => exact ⟨hℓ, nofun⟩
  | some client =>
      refine Protocol.Follows.bind _ (duty_stopSignal hℓ) ?_ fun _ _ h => ⟨h.1, nofun⟩
      rintro stop ℓ' ⟨hcounted, hclear⟩
      cases stop with
      | true => exact ⟨hcounted, nofun⟩
      | false => exact ⟨hcounted, fun _ _ => hclear rfl⟩

/-- `disconnect` counts itself, and the client snapshot comes with a look at the stop signal. -/
theorem keeps_disconnect : dutyProtocol.Keeps (fun ℓ => ℓ.duty = .free) t disconnect := by
  intro ℓ hℓ
  refine duty_inFlight hℓ fun ℓ hℓ => ?_
  refine Protocol.Follows.bind _ (duty_client (hℓ.trans_ne nofun)) ?_ fun _ _ h => h.1
  rintro r ℓ ⟨hcounted, hclear⟩
  cases r with
  | error e => exact hcounted
  | ok client =>
      have hK := connecting_duty (t := t)
      exact (hK.singleFlight (hK.disconnectHeld client) ℓ (hclear client rfl)).mono
        fun _ _ h => h ▸ nofun

/-- `batchRead` looks at the stop signal again once it is counted. -/
theorem keeps_batchRead (nodes : List ReadValue) :
    dutyProtocol.Keeps (fun ℓ => ℓ.duty = .free) t (batchRead nodes) := by
  have hfree := blocks_duty (t := t) stable_free
  have hcounted := blocks_duty (t := t) stable_counted
  have hcleared := blocks_duty (t := t) stable_cleared
  intro ℓ hℓ
  refine Protocol.Follows.andThen (fun _ ℓ => ℓ.duty = .free) (hfree.checkStop _ ℓ hℓ) ?_
    (fun _ _ h => h) fun _ _ h => h
  refine fun _ ℓ hℓ => duty_inFlight hℓ fun ℓ hℓ => ?_
  refine Protocol.Follows.andThen (fun _ ℓ => ℓ.duty ≠ .free)
    (hcounted.readChecks (keeps_connState _) nodes ℓ (hℓ.trans_ne nofun)) ?_ (fun _ _ h => h)
    fun _ _ h => h
  refine fun _ ℓ hℓ => Protocol.Follows.andThen (fun _ ℓ => ℓ.duty ≠ .free)
    (hcounted.buildReadRequest nodes ℓ hℓ) ?_ (fun _ _ h => h) fun _ _ h => h
  refine fun request ℓ hℓ => Protocol.Follows.andThen _ (duty_client hℓ) ?_ (fun _ _ h => h.1)
    fun _ _ h => h.1
  rintro client ℓ ⟨-, hclear⟩
  refine ((hcleared.bind (hcleared.quiet .readConfig trivial) fun _ =>
    hcleared.bind hcleared.nowMs fun _ => hcleared.loop fun _ => ?_) ℓ (hclear client rfl)).mono
    fun _ _ h => h ▸ nofun
  exact hcleared.readAttempt (keeps_connState _) (hcleared.withLock _ (keeps_sdk client _))

/-- `batchWrite` looks at the stop signal again once it is counted. -/
theorem keeps_batchWrite (nodes : List WriteValue) :
    dutyProtocol.Keeps (fun ℓ => ℓ.duty = .free) t (batchWrite nodes) := by
  have hfree := blocks_duty (t := t) stable_free
  have hcounted := blocks_duty (t := t) stable_counted
  have hcleared := blocks_duty (t := t) stable_cleared
  intro ℓ hℓ
  refine Protocol.Follows.andThen (fun _ ℓ => ℓ.duty = .free) (hfree.checkStop _ ℓ hℓ) ?_
    (fun _ _ h => h) fun _ _ h => h
  refine fun _ ℓ hℓ => duty_inFlight hℓ fun ℓ hℓ => ?_
  refine Protocol.Follows.andThen (fun _ ℓ => ℓ.duty ≠ .free)
    (hcounted.writeChecks (keeps_connState _) nodes ℓ (hℓ.trans_ne nofun)) ?_ (fun _ _ h => h)
    fun _ _ h => h
  refine fun _ ℓ hℓ => Protocol.Follows.andThen (fun _ ℓ => ℓ.duty ≠ .free)
    (hcounted.buildWriteRequest nodes ℓ hℓ) ?_ (fun _ _ h => h) fun _ _ h => h
  refine fun request ℓ hℓ => Protocol.Follows.andThen _ (duty_client hℓ) ?_ (fun _ _ h => h.1)
    fun _ _ h => h.1
  rintro client ℓ ⟨-, hclear⟩
  refine ((hcleared.andThen (hcleared.checkStop _) fun _ =>
    hcleared.andThen (hcleared.checkState (keeps_connState _) _ _ _) fun _ => ?_) ℓ
      (hclear client rfl)).mono fun _ _ h => h ▸ nofun
  exact hcleared.writeService (hcleared.withLock _ (keeps_sdk client _))

/-! ### shutdown -/

/-- After `signalShutdown` the stop signal has been given. -/
theorem duty_signalShutdown {ℓ : DutyView} (hℓ : ℓ.duty = .free) :
    dutyProtocol.Follows t signalShutdown
      (fun _ ℓ' => ℓ'.duty = .free ∧ ℓ'.signal = .given) ℓ := by
  refine Protocol.Follows.bind (fun _ ℓ' => ℓ'.duty = .free ∧ ℓ'.signal = .given) (duty_withLock ?_)
    ?_ fun _ _ h => h
  · refine Protocol.follows_recorded_perform fun es shutdown => ⟨trivial, ?_⟩
    cases shutdown with
    | true => exact ⟨hℓ, rfl⟩
    | false =>
        refine Protocol.follows_recorded_perform fun es' _ => ⟨rfl, ?_⟩
        refine Protocol.follows_recorded_perform fun es'' _ => ⟨⟨rfl, nofun⟩, ?_⟩
        exact ⟨congrArg Duty.clear hℓ, rfl⟩
  · have hgiven := blocks_duty (t := t) stable_given
    exact fun already ℓ hℓ =>
      hgiven.when (hgiven.bind (hgiven.load .stop) fun _ => hgiven.pure ()) ℓ hℓ

/-- `shutdown` gives the signal before it waits. -/
theorem keeps_shutdown : dutyProtocol.Keeps (fun ℓ => ℓ.duty = .free) t shutdown := by
  have hgiven := blocks_duty (t := t) stable_given
  intro ℓ hℓ
  refine Protocol.Follows.bind _ (duty_signalShutdown hℓ) ?_ fun _ _ h => h.1
  refine fun _ ℓ hℓ => Protocol.Follows.bind (fun _ ℓ => ℓ.duty = .free ∧ ℓ.signal = .given)
    (hgiven.joinWatchdog (keeps_of_not_dutiful id _) (keeps_of_not_dutiful id _) ℓ hℓ) ?_
    fun _ _ h => h.1
  refine fun _ ℓ hℓ => Protocol.follows_recorded_perform fun es _ => ⟨trivial, ?_⟩
  refine Protocol.Follows.bind (fun _ (ℓ : DutyView) => ℓ.duty = .free) ?_ (fun _ _ h => h)
    fun _ _ h => h
  refine Protocol.follows_recorded_perform fun es' _ => ⟨trivial, ?_⟩
  exact Protocol.follows_recorded_op fun es'' _ => ⟨hℓ.2, hℓ.1⟩

/-- Every call keeps the discipline, and ends uncounted. -/
theorem keeps_duty (c : ImplCall) : dutyProtocol.Keeps (fun ℓ => ℓ.duty = .free) t c.run := by
  have hfree := blocks_duty (t := t) stable_free
  have hgiveUp : dutyProtocol.Keeps (fun ℓ => ℓ.duty = .free) t setGiveUpSignal :=
    composed_setGiveUpSignal hfree.toComposed (fun a => hfree.quiet (.load a)) fun o ho =>
      Protocol.keeps_recorded_perform fun es ℓ r hℓ =>
        ImplOp.track_of_stable stable_free (.inr (.inl ho)) es ℓ r hℓ
  exact hfree.run (keeps_of_not_dutiful id _) (keeps_of_not_dutiful id _) hgiveUp keeps_connect
    keeps_disconnect keeps_batchRead keeps_batchWrite keeps_shutdown c

end Impl

/-- In a history, every thread kept the discipline. -/
def DutyHistory : History → Prop :=
  Event.Each fun es e => (dutyView e.tid es).Allows e.op e.resp

variable {calls : Tid → Option ImplCall} {s : ImplState} {c : ImplPool}

/-- In every run, threads keep the discipline. -/
theorem dutyHistory_of_reach (hc : ImplPool.Reach (ImplPool.start calls s) c) :
    DutyHistory c.state.history := by
  have hf : ∀ u, dutyProtocol.Follows u ((ImplPool.start calls s).pool u) (fun _ _ => True)
      .start := by
    intro u
    change dutyProtocol.Follows u (ImplCall.thread (calls u)) _ _
    cases calls u with
    | none => trivial
    | some call => exact (Impl.keeps_duty call _ rfl).mono fun _ _ _ => trivial
  exact (Protocol.recorded_each (Q := fun _ _ (_ : DutyView) => True) rfl hf hc).1

/-! ### The counter -/

/-- The threads that are counted after an operation of thread `t`. -/
def countedStep (T : Finset Tid) (t : Tid) : ImplOp → Finset Tid
  | .taskInc => insert t T
  | .taskDec => T.erase t
  | _ => T

/-- The threads that are counted after a history. -/
def countedTids : History → Finset Tid
  | [] => ∅
  | e :: es => countedStep (countedTids es) e.tid e.op

theorem dutyView_cons_self (t : Tid) (o : ImplOp) (r : o.Resp) (es : History) :
    dutyView t (⟨t, o, r⟩ :: es) = (dutyView t es).track es o r :=
  @Event.stage_cons_self ImplSig DutyView DutyView.track .start t o r es

theorem dutyView_cons_ne {t u : Tid} (h : u ≠ t) (o : ImplOp) (r : o.Resp) (es : History) :
    dutyView t (⟨u, o, r⟩ :: es) = dutyView t es :=
  @Event.stage_cons_ne ImplSig DutyView DutyView.track .start t u h o r es

/-- Looking at the stop signal counts nobody. -/
theorem Duty.clear_eq_free {d : Duty} : d.clear = .free ↔ d = .free := by
  cases d <;> decide

/-- Only the ends of an `InFlightGuard` count a thread. -/
theorem track_duty_eq_free {o : ImplOp} (hinc : o ≠ .taskInc) (hdec : o ≠ .taskDec) (es : History)
    (ℓ : DutyView) (r : o.Resp) : (ℓ.track es o r).duty = .free ↔ ℓ.duty = .free := by
  cases o with
  | load a =>
      cases a with
      | shutdown | running => cases r <;> first | exact Iff.rfl | exact Duty.clear_eq_free
      | _ => exact Iff.rfl
  | store a v => cases a <;> exact Iff.rfl
  | taskInc => exact absurd rfl hinc
  | taskDec => exact absurd rfl hdec
  | _ => exact Iff.rfl

/-- The counted threads are those in the scope of an `InFlightGuard`. -/
theorem mem_countedTids {t : Tid} {h : History} :
    t ∈ countedTids h ↔ (dutyView t h).duty ≠ .free := by
  induction h with
  | nil => exact ⟨nofun, fun h => absurd rfl h⟩
  | cons e es ih =>
      obtain ⟨u, o, r⟩ := e
      by_cases hu : u = t
      · subst hu
        rw [dutyView_cons_self, countedTids]
        by_cases hinc : o = .taskInc
        · subst hinc
          exact ⟨fun _ => nofun, fun _ => Finset.mem_insert_self _ _⟩
        by_cases hdec : o = .taskDec
        · subst hdec
          exact ⟨fun h => absurd h (Finset.notMem_erase _ _), fun h => absurd rfl h⟩
        have hsame : countedStep (countedTids es) u o = countedTids es := by
          cases o <;> first | rfl | exact absurd rfl hinc | exact absurd rfl hdec
        rw [Ne, track_duty_eq_free hinc hdec, hsame]
        exact ih
      · rw [dutyView_cons_ne hu, countedTids, ← ih]
        cases o with
        | taskInc => exact Finset.mem_insert.trans (or_iff_right (Ne.symm hu))
        | taskDec => exact Finset.mem_erase.trans (and_iff_right (Ne.symm hu))
        | _ => rfl

/-- What an operation does to the counter. -/
theorem ImplState.taskCounter_of_exec {t : Tid} {o : ImplOp} {r : o.Resp} {s s' : ImplState}
    (h : exec t o r s = some s') : s'.taskCounter = match o with
      | .taskInc => s.taskCounter + 1
      | .taskDec => s.taskCounter - 1
      | _ => s.taskCounter := by
  cases o with
  | taskInc | taskDec =>
      cases h
      rfl
  | _ => exact (frame_of_exec h).taskCounter nofun nofun

/-- The flags of the stop signal are only given, never taken back. -/
theorem ImplState.flags_of_exec {t : Tid} {o : ImplOp} {r : o.Resp} {s s' : ImplState}
    (ho : Impl.Footprint o) (h : exec t o r s = some s') :
    (s.running = false → s'.running = false) ∧ (s.shutdown = true → s'.shutdown = true) ∧
      (s'.shutdown = true → s.shutdown = true ∨ ∃ v, o = .store .shutdown v) := by
  have hrunning : ¬o.Writes .running → s'.running = s.running := get_of_not_writes h
  have hshutdown : ¬o.Writes .shutdown → s'.shutdown = s.shutdown := get_of_not_writes h
  cases o with
  | store a v =>
      cases h
      cases a with
      | running =>
          obtain rfl : v = false := by
            rcases ho with (ho | ho | ho | ho) | ho <;> first | exact ho | exact ho.elim
          exact ⟨fun _ => rfl, id, .inl⟩
      | shutdown =>
          obtain rfl : v = true := by
            rcases ho with (ho | ho | ho | ho) | ho <;> first | exact ho | exact ho.elim
          exact ⟨id, fun _ => rfl, fun _ => .inr ⟨true, rfl⟩⟩
      | _ => exact ⟨id, id, .inl⟩
  | casWeak a e d | casStrong a e d =>
      cases a with
      | running | shutdown => rcases ho with (ho | ho | ho | ho) | ho <;> exact ho.elim
      | _ =>
          rw [hrunning nofun, hshutdown nofun]
          exact ⟨id, id, .inl⟩
  | _ =>
      rw [hrunning id, hshutdown id]
      exact ⟨id, id, .inl⟩

/-- Once the stop signal is given, nobody sees it off any more. -/
theorem duty_cleared_of_track {t : Tid} {o : ImplOp} {r : o.Resp} {s s' : ImplState} {ℓ : DutyView}
    {es : History} (h : ImplState.exec t o r s = some s') (hshutdown : s.shutdown = true)
    (hrunning : s.running = false) (hc : (ℓ.track es o r).duty = .cleared) : ℓ.duty = .cleared := by
  cases o with
  | load a =>
      obtain ⟨hget, -⟩ := ImplState.whenever_eq_some.mp h
      cases a with
      | shutdown =>
          obtain rfl : true = r := hshutdown.symm.trans hget
          exact hc
      | running =>
          obtain rfl : false = r := hrunning.symm.trans hget
          exact hc
      | _ => exact hc
  | store a v => cases a <;> exact hc
  | taskInc | taskDec => cases hc
  | _ => exact hc

/-- A thread that has got far in giving the signal found `m_shutdown` set, or did it. -/
theorem signal_of_track {t : Tid} {o : ImplOp} {r : o.Resp} {s s' : ImplState} {ℓ : DutyView}
    {es : History} (h : ImplState.exec t o r s = some s') (hallows : ℓ.Allows o r) :
    ((ℓ.track es o r).signal ≠ .none →
      ℓ.signal ≠ .none ∨ s.shutdown = true ∨ s'.running = false) ∧
    ((ℓ.track es o r).signal = .given → ℓ.signal = .given ∨ s'.shutdown = true) := by
  cases o with
  | load a =>
      obtain ⟨hget, rfl⟩ := ImplState.whenever_eq_some.mp h
      cases a with
      | shutdown =>
          cases r with
          | true => exact ⟨fun _ => .inr (.inl hget), fun _ => .inr hget⟩
          | false => exact ⟨.inl, .inl⟩
      | running => cases r <;> exact ⟨.inl, .inl⟩
      | _ => exact ⟨.inl, .inl⟩
  | store a v =>
      cases h
      cases a with
      | running => exact ⟨fun _ => .inr (.inr hallows), nofun⟩
      | shutdown => exact ⟨fun _ => .inl hallows.2, fun _ => .inr hallows.1⟩
      | _ => exact ⟨.inl, .inl⟩
  | _ => exact ⟨.inl, .inl⟩

/-! ### The invariant of the drain -/

/-- The event is a wait for the calls in flight that found the counter zero. -/
def isDrain (e : Event ImplSig) : Bool :=
  match e.op, e.resp with
  | .taskWait _, drained => drained
  | _, _ => false

/-- The event starts a service. -/
def isServiceStart (e : Event ImplSig) : Bool :=
  match e.op with
  | .sdkCall _ c => !c.isQuiet
  | _ => false

/-- What the counter, the flags and the stages of the threads have to do with each other. -/
structure DrainInv (s : Traced ImplSig ImplState) : Prop where
  counter : s.world.taskCounter = (countedTids s.history).card
  flags : s.world.shutdown = true → s.world.running = false
  off : ∀ t, (dutyView t s.history).signal ≠ .none → s.world.running = false
  given : ∀ t, (dutyView t s.history).signal = .given → s.world.shutdown = true
  /-- After the drain the signal stays on, and no call is left that has seen it off. -/
  drained : (∃ e ∈ s.history, isDrain e = true) →
    s.world.shutdown = true ∧ ∀ t, (dutyView t s.history).duty ≠ .cleared

/-- The counter counts the counted threads. -/
theorem counter_step {t : Tid} {o : ImplOp} {r : o.Resp} {s s' : ImplState} {es : History}
    (h : ImplState.exec t o r s = some s') (hallows : (dutyView t es).Allows o r)
    (hcounter : s.taskCounter = (countedTids es).card) :
    s'.taskCounter = (countedTids (⟨t, o, r⟩ :: es)).card := by
  rw [ImplState.taskCounter_of_exec h, countedTids, hcounter]
  cases o with
  | taskInc =>
      have hnot : t ∉ countedTids es := fun hmem => mem_countedTids.mp hmem hallows
      exact (Finset.card_insert_of_notMem hnot).symm
  | taskDec => exact (Finset.card_erase_of_mem (mem_countedTids.mpr hallows)).symm
  | _ => rfl

/-- Every step keeps the invariant. -/
theorem drainInv_step {t : Tid} {o : ImplOp} {r : o.Resp} {s s' : Traced ImplSig ImplState}
    (ho : Impl.Footprint o) (hs : DrainInv s) (h : Traced.Step ImplState.exec t o r s s')
    (hallows : (dutyView t s.history).Allows o r) : DrainInv s' := by
  obtain ⟨hrunning, hshutdown, hnew⟩ := ImplState.flags_of_exec ho h.exec_eq
  obtain ⟨hoff, hgiven⟩ := signal_of_track h.exec_eq hallows
  -- only the view of the thread that moves can change
  have hview : ∀ u, dutyView u s'.history =
      if u = t then (dutyView t s.history).track s.history o r else dutyView u s.history := by
    intro u
    rw [h.history_eq]
    split_ifs with hu
    · rw [hu, dutyView_cons_self]
    · rw [dutyView_cons_ne (Ne.symm hu)]
  have hstopped : s'.world.shutdown = true → s'.world.running = false := by
    intro hs'
    rcases hnew hs' with hold | ⟨v, rfl⟩
    · exact hrunning (hs.flags hold)
    · exact hrunning (hs.off t hallows.2)
  refine ⟨?_, hstopped, ?_, ?_, ?_⟩
  · rw [h.history_eq]
    exact counter_step h.exec_eq hallows hs.counter
  · intro u hu
    rw [hview] at hu
    split_ifs at hu with hut
    · rcases hoff hu with hold | hset | hcleared
      · exact hrunning (hs.off t hold)
      · exact hrunning (hs.flags hset)
      · exact hcleared
    · exact hrunning (hs.off u hu)
  · intro u hu
    rw [hview] at hu
    split_ifs at hu with hut
    · exact (hgiven hu).elim (fun hold => hshutdown (hs.given t hold)) id
    · exact hshutdown (hs.given u hu)
  · rintro ⟨e, hmem, hdrain⟩
    rw [h.history_eq] at hmem
    rcases List.mem_cons.mp hmem with rfl | hmem
    · -- the wait itself: the signal was given, and nobody is counted
      cases o with
      | taskWait ms =>
          have hzero : s.world.taskCounter = 0 := by
            have hcompleted := (ImplState.whenever_eq_some.mp h.exec_eq).1
            exact of_decide_eq_true (hcompleted.symm.trans hdrain)
          have hempty : countedTids s.history = ∅ := by
            rw [← Finset.card_eq_zero, ← hs.counter, hzero]
          refine ⟨hshutdown (hs.given t hallows), fun u hcleared => ?_⟩
          have hsame : dutyView u s'.history = dutyView u s.history := by
            rw [hview]
            split_ifs with hu
            · rw [hu]
              rfl
            · rfl
          have hmem : u ∈ countedTids s.history := by
            rw [mem_countedTids, ← hsame, hcleared]
            exact nofun
          rw [hempty] at hmem
          exact absurd hmem (Finset.notMem_empty u)
      | _ => cases hdrain
    -- a wait of before: the signal stays given, so no check is passed any more
    · obtain ⟨hset, hnone⟩ := hs.drained ⟨e, hmem, hdrain⟩
      refine ⟨hshutdown hset, fun u hcleared => ?_⟩
      rw [hview] at hcleared
      split_ifs at hcleared with hu
      · exact hnone t (duty_cleared_of_track h.exec_eq hset (hs.flags hset) hcleared)
      · exact hnone u hcleared

/-- No service starts after a drain. -/
def NoServiceAfterDrain : History → Prop :=
  Event.Each fun es e => (∃ e' ∈ es, isDrain e' = true) → isServiceStart e = false

/-- In every run the invariant holds, and no service starts after a drain. -/
theorem drainInv_of_reach (hcounter : s.taskCounter = 0) (hflag : s.shutdown = false)
    (hc : ImplPool.Reach (ImplPool.start calls s) c) :
    DrainInv c.state ∧ NoServiceAfterDrain c.state.history := by
  induction hc with
  | refl =>
      refine ⟨⟨hcounter, fun h => absurd (hflag.symm.trans h) nofun, fun _ h => absurd rfl h,
        fun _ h => (by cases h), ?_⟩, Event.each_nil⟩
      rintro ⟨e, hmem, -⟩
      cases hmem
  | @tail d c hd hstep ih =>
      obtain ⟨hinv, hnone⟩ := ih
      have hduty := dutyHistory_of_reach (hd.tail hstep)
      cases hstep with
      | @perform t o k r s' hp hs =>
          have ho : Impl.Footprint o := by
            have huses := uses_of_reach hd t
            rw [hp] at huses
            exact huses.1
          obtain ⟨hallows, -⟩ : (dutyView t d.state.history).Allows o r ∧ _ := by
            have := hduty
            simp only [hs.history_eq] at this
            exact Event.each_cons.mp this
          refine ⟨drainInv_step ho hinv hs hallows, ?_⟩
          simp only [hs.history_eq]
          refine Event.each_cons.mpr ⟨fun hdrain => ?_, hnone⟩
          cases o with
          | sdkCall client call =>
              cases hq : call.isQuiet with
              | true => simp [isServiceStart, hq]
              | false => exact absurd (hallows hq) ((hinv.drained hdrain).2 t)
          | _ => rfl
      | round hp => exact ⟨hinv, hnone⟩

end OPCUAPacking
