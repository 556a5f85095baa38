import OPCUAPacking.Impl.Lifecycle
import OPCUAPacking.Interleaving.Protocol

/-!
# Calls, and the parts they are made of

* `ImplCall` — what a thread may run on an `Impl`; `ImplCall.run` is its program, and `ImplPool` a
  pool with one call per thread.
* `Impl.Polling K` — the property `K` of programs follows from the parts of a program, and holds of
  the operations that touch nothing shared but to read it and of the functions that write the state
  word. `Impl.Blocks K` adds the functions that write the life state, `Impl.Busy K` the operations
  of the calls that count themselves in flight.
* `Impl.Polling.isConnected` and the lemmas after it — such a property holds of every function.
-/

namespace OPCUAPacking

open Interleaving

/-! ### Calls -/

/-- What a thread may run on an `Impl`. -/
inductive ImplCall where
  | batchRead (nodes : List ReadValue)
  | batchWrite (nodes : List WriteValue)
  | isConnected (iterateTimeoutMs : UInt32)
  | connect
  | disconnect
  | setGiveUpSignal
  | turnToRunning
  | turnToRecovring
  | turnToGiveup
  | watchdogDecision
  | watchdogThread
  | callback (cb : Callback)
  | shutdown

/-- What a call returns. -/
inductive ImplReply where
  | unit
  | read (r : Result (List ReadResult) RichError)
  | write (r : Result (List WriteResult) RichError)
  | connected (r : Result Bool ConnectErrorState)
  | connect (r : Result Unit ConnectErrorState)
  | disconnect (r : Result Unit DisconnectErrorState)
  | giveUp (r : Result Unit RichError)
  | api (r : Result Unit RichError)
  deriving DecidableEq

/-- Wrap what a program returns. -/
def Impl.replying {α : Type} (wrap : α → ImplReply) (p : Impl α) : Impl ImplReply := do
  let a ← p
  pure (wrap a)

/-- The program of a call. -/
def ImplCall.run : ImplCall → Impl ImplReply
  | .batchRead nodes => Impl.replying .read (Impl.batchRead nodes)
  | .batchWrite nodes => Impl.replying .write (Impl.batchWrite nodes)
  | .isConnected ms => Impl.replying .connected (Impl.isConnected ms)
  | .connect => Impl.replying .connect Impl.connect
  | .disconnect => Impl.replying .disconnect Impl.disconnect
  | .setGiveUpSignal => Impl.replying .giveUp Impl.setGiveUpSignal
  | .turnToRunning => Impl.replying (fun _ => .unit) Impl.turnToRunning
  | .turnToRecovring => Impl.replying (fun _ => .unit) Impl.turnToRecovring
  | .turnToGiveup => Impl.replying (fun _ => .unit) Impl.turnToGiveup
  | .watchdogDecision => Impl.replying (fun _ => .unit) Impl.doWatchdogDecision
  | .watchdogThread => Impl.replying (fun _ => .unit) Impl.watchdogThread
  | .callback cb => Impl.replying (fun _ => .unit) (Impl.runCallback cb)
  | .shutdown => Impl.replying (fun _ => .unit) Impl.shutdown

/-- A pool of threads on one `Impl`, with the history of what they did. -/
abbrev ImplPool := Config ImplSig (Traced ImplSig ImplState) (Except Exn ImplReply)

/-- The operations performed so far, newest first. -/
abbrev History := List (Event ImplSig)

/-- The program of a thread that may have a call to run. -/
def ImplCall.thread : Option ImplCall → Impl ImplReply
  | some c => c.run
  | none => pure .unit

/-- The pool in which every thread is at the beginning of its call. -/
def ImplPool.start (calls : Tid → Option ImplCall) (s : ImplState) : ImplPool :=
  ⟨fun t => ImplCall.thread (calls t), Traced.start s⟩

/-- Runs of a pool. -/
abbrev ImplPool.Reach : ImplPool → ImplPool → Prop := Config.Reach (Traced.Step ImplState.exec)

/-! ### Operations by what they touch -/

/-- A call that reads the state of the SDK or drives it. -/
def SdkCall.isQuiet : SdkCall → Bool
  | .runIterate _ | .getState => true
  | _ => false

/-- Operations that change no flag, no counter and neither of the two state machines. The word
itself, as opposed to its fields, is only read by its writers, and `m_connState` by the batches. -/
def ImplOp.Quiet : ImplOp → Prop
  | .load a => a ≠ .statePacked ∧ a ≠ .connState
  | .loadFields | .lock _ | .unlock _ => True
  | .store .lastBadStatusMs _ => True
  | .copyImpl | .readConfig | .readEndpointUrl => True
  | .watchdogExists | .watchdogJoinable | .watchdogIsSelf => True
  | .sdkCall _ c | .sdkReturn _ c => c.isQuiet = true
  | .getConfig _ | .nowMs | .steadyNow | .sleep _ | .waitBegin _ | .waitBlock => True
  | .alloc | .setScalarCopy _ | .reserve | .statusCodeName _ => True
  | _ => False

/-- A member that any function may look at: not the word itself, not the give-up timer and not
`m_connState`. -/
def Atomic.isOpen : Atomic → Bool
  | .statePacked | .lastBadStatusMs | .connState => false
  | _ => true

/-- The quiet operations that write nothing but the owners of the mutexes. -/
def ImplOp.Looks : ImplOp → Prop
  | .load a => a.isOpen = true
  | .store _ _ => False
  | o => o.Quiet

theorem ImplOp.Looks.quiet {o : ImplOp} (h : o.Looks) : o.Quiet := by
  cases o with
  | load a =>
      have hopen : a.isOpen = true := h
      constructor <;> rintro rfl <;> cases hopen
  | store a v => exact h.elim
  | _ => exact h

theorem Atomic.quiet_load {a : Atomic} (h : a.isOpen = true) : (ImplOp.load a).Quiet :=
  ImplOp.Looks.quiet (o := .load a) h

/-- The operations on the give-up timer. -/
def ImplOp.Timer : ImplOp → Prop
  | .load .lastBadStatusMs | .store .lastBadStatusMs _ => True
  | _ => False

theorem ImplOp.Timer.quiet {o : ImplOp} (h : o.Timer) : o.Quiet := by
  cases o with
  | load a => cases a <;> first | exact h.elim | exact ⟨nofun, nofun⟩
  | store a v => cases a <;> first | exact h.elim | trivial
  | _ => exact h.elim

/-- Those in which the SDK has no part. -/
def ImplOp.Local : ImplOp → Prop
  | .sdkCall _ _ | .sdkReturn _ _ => False
  | o => o.Looks

/-- They write no atomic member. -/
theorem ImplOp.Local.not_writes {o : ImplOp} {a : Atomic} (h : o.Local) : ¬o.Writes a := by
  cases o with
  | store b v | casWeak b e d | casStrong b e d => exact h.elim
  | _ => exact id

theorem ImplOp.Local.looks {o : ImplOp} (h : o.Local) : o.Looks := by
  cases o with
  | sdkCall client c | sdkReturn client c => exact h.elim
  | _ => exact h

/-- The operations of the calls that count themselves in flight. -/
def ImplOp.InFlight : ImplOp → Prop
  | .taskInc | .taskDec => True
  | .load .connState => True
  | .store .connState v => v = .idle
  | .casStrong .connState e d => e = .idle ∧ d = .connecting
  | .sdkCall _ _ | .sdkReturn _ _ => True
  | _ => False

/-- A call that opens or closes the connection. -/
def SdkCall.isConnection : SdkCall → Bool
  | .connectAsync _ | .disconnectAsync => true
  | _ => false

/-- The operations of the thread that connects or disconnects. -/
def ImplOp.Connecting : ImplOp → Prop
  | .store .connState v => v = .idle
  | .casStrong .connState e d => e = .idle ∧ d = .connecting
  | .sdkCall _ c | .sdkReturn _ c => c.isConnection = true
  | _ => False

theorem ImplOp.Connecting.inFlight {o : ImplOp} (h : o.Connecting) : o.InFlight := by
  cases o with
  | store a v | casStrong a e d => cases a <;> exact h
  | sdkCall client c | sdkReturn client c => trivial
  | _ => exact h.elim

/-- The operations of the writers of the life state and of the lost flag. No compare-exchange
expects GIVEN_UP. -/
def ImplOp.LifeWrite : ImplOp → Prop
  | .casWeak .lifeState e _ | .casStrong .lifeState e _ => e ≠ .givenUp
  | .store .connectionLost _ => True
  | _ => False

/-- The operations of the writers of the state word. Every compare-exchange counts the version
up. -/
def ImplOp.WordWrite : ImplOp → Prop
  | .load .statePacked => True
  | .casWeak .statePacked e d | .casStrong .statePacked e d =>
      ∃ f : Triple, d = f.pack ((unpackState e).version + 1)
  | .callback _ => True
  | _ => False

/-- The operations that start and stop an `Impl`. -/
def ImplOp.Lifecycle : ImplOp → Prop
  | .store .running v => v = false
  | .store .shutdown v | .store .stop v => v = true
  | .taskWait _ => True
  | .watchdogCreate | .watchdogJoin | .watchdogDetach | .watchdogBegin | .watchdogEnd => True
  | _ => False

/-- The operations of the calls that do not concern the state word. -/
def ImplOp.Plain (o : ImplOp) : Prop := o.Quiet ∨ o.LifeWrite ∨ o.InFlight ∨ o.Lifecycle

namespace Impl

section StopSignal

variable {K : (α : Type) → Impl α → Prop} (hK : @Proc.Composed ImplSig Exn K)
  (hload : ∀ a : Atomic, a.isOpen = true → K a.Val (load a))

include hK hload

/-- The stop signal, from the loads of its parts. -/
theorem composed_stopSignal : K _ getEffectiveStopSignal := by
  have hgivenUp : K _ isGivenUp := hK.bind (hload .lifeState rfl) fun _ => hK.pure _
  exact hK.bind (hload .shutdown rfl) fun _ => Proc.Composed.ite
    (hK.bind (hload .running rfl) fun _ => Proc.Composed.ite hgivenUp (hK.pure _))
    hgivenUp

variable (hlock : ∀ {α : Type} (m : Mutex) {body : Impl α}, K α body → K α (withLock m body))
  (hcopy : K _ (perform .copyImpl))

include hlock hcopy

/-- The client snapshot of `connect`, from its parts. -/
theorem composed_connectClient : K _ connectClient := by
  refine hlock _ (hK.bind (composed_stopSignal hK hload) fun _ => Proc.Composed.ite (hK.pure _)
    (hK.bind hcopy fun impl => ?_))
  cases impl <;> exact hK.pure _

/-- The client snapshot of `disconnect`, from its parts. -/
theorem composed_disconnectClient : K _ disconnectClient := by
  refine hlock _ (hK.bind hcopy fun impl => ?_)
  cases impl with
  | none => exact hK.pure _
  | some client =>
      exact hK.bind (composed_stopSignal hK hload) fun _ =>
        Proc.Composed.ite (hK.pure _) (hK.pure _)

end StopSignal

/-- A property of programs that follows from their parts, and holds of the quiet operations, of the
blocks under a mutex, of the SDK calls and the callbacks, and of the functions that write the state
word or start the give-up timer. -/
structure Polling (K : (α : Type) → Impl α → Prop) : Prop extends Proc.Composed K where
  quiet : ∀ o : ImplOp, o.Looks → K o.Resp (perform o)
  withLock : ∀ {α : Type} (m : Mutex) {body : Impl α}, K α body → K α (withLock m body)
  nowMs : K Int nowMs
  reserve : K Unit (perform .reserve >>= orThrow)
  /-- A call that only reads the SDK or drives it. -/
  sdk : ∀ client {c : SdkCall}, c.isQuiet = true → K c.Result (sdk client c)
  runCallback : ∀ cb, K Unit (runCallback cb)
  probe : ∀ client, K Triple (probe client)
  updateBadStatusTime : K Unit updateBadStatusTime

/-- `Polling`, with the functions that write the life state. -/
structure Blocks (K : (α : Type) → Impl α → Prop) : Prop extends Polling K where
  turnToRunning : K Unit turnToRunning
  turnToRecovring : K Unit turnToRecovring
  turnToGiveup : K Unit turnToGiveup
  shouldTriggerGiveUp : K Bool shouldTriggerGiveUp

namespace Polling

variable {K : (α : Type) → Impl α → Prop} (hK : Polling K) {α : Type}

include hK

theorem load (a : Atomic) (ha : a.isOpen = true := by rfl) : K a.Val (load a) :=
  hK.quiet (.load a) ha

/-- A result for which memory is reserved. -/
theorem reserving (a : α) : K α (do let r ← perform .reserve; orThrow r; pure a) :=
  show K α ((perform .reserve >>= orThrow) >>= fun _ => pure a) from
    hK.bind hK.reserve fun _ => hK.pure a

theorem isGivenUp : K Bool isGivenUp := hK.bind (hK.load _) fun _ => hK.pure _

theorem getEffectiveStopSignal : K Bool getEffectiveStopSignal :=
  composed_stopSignal hK.toComposed fun a => hK.quiet (.load a)

theorem loadState : K StateFields loadState := hK.quiet .loadFields trivial

theorem isHealthyCached : K Bool isHealthyCached :=
  hK.bind (hK.load .connectionLost) fun _ =>
    Proc.Composed.ite (hK.pure _) (hK.bind hK.loadState fun _ => hK.pure _)

theorem isChannelClosed : K Bool isChannelClosed := hK.bind hK.loadState fun _ => hK.pure _

theorem isConnectBad : K Bool isConnectBad := hK.bind hK.loadState fun _ => hK.pure _

theorem callRunIterate (client : Handle) (ms : UInt32) : K Unit (callRunIterate client ms) :=
  hK.withLock _ (hK.bind (hK.sdk client rfl) fun _ => hK.pure _)

/-- The client snapshot under `m_lock`. -/
theorem snapshot : K _ (Impl.withLock .lock (perform .copyImpl)) :=
  hK.withLock .lock (hK.quiet .copyImpl trivial)

/-- The health probe. -/
theorem isConnected (ms : UInt32) : K _ (isConnected ms) := by
  refine hK.bind (hK.withLock _ hK.getEffectiveStopSignal) fun stop => ?_
  refine Proc.Composed.ite (hK.pure _) (hK.bind hK.snapshot fun impl => ?_)
  cases impl with
  | none => exact hK.pure _
  | some client =>
      exact hK.bind (hK.callRunIterate client ms) fun _ => hK.bind (hK.probe client) fun _ =>
        hK.bind (hK.when hK.updateBadStatusTime) fun _ =>
          hK.bind hK.isHealthyCached fun _ => hK.pure _

/-! ### Backoff and the checks of the batches -/

theorem waitForStop (ms : UInt32) : K Unit (waitForStop ms) :=
  hK.bind (hK.quiet (.waitBegin ms) trivial) fun _ => hK.loop fun _ =>
    hK.bind hK.getEffectiveStopSignal fun _ => Proc.Composed.ite (hK.pure _)
      (hK.bind (hK.quiet .waitBlock trivial) fun _ => Proc.Composed.ite
        (hK.bind hK.getEffectiveStopSignal fun _ => hK.pure _) (hK.pure _))

theorem delayFunction (retry : UInt32) : K Unit (delayFunction retry) :=
  hK.bind (hK.quiet .readConfig trivial) fun _ => hK.loop fun _ => Proc.Composed.ite
    (hK.bind hK.getEffectiveStopSignal fun _ => Proc.Composed.ite (hK.pure _)
      (hK.bind (hK.waitForStop _) fun _ => hK.pure _)) (hK.pure _)

theorem checkState (hconn : K _ (Impl.load .connState)) (givenUp recovering busy : String) :
    K _ (checkState givenUp recovering busy) :=
  hK.bind (hK.load .lifeState) fun _ => Proc.Composed.ite (hK.pure _) <|
    hK.bind (hK.load .lifeState) fun _ => Proc.Composed.ite (hK.pure _) <|
      hK.bind hconn fun _ => Proc.Composed.ite (hK.pure _) (hK.pure _)

theorem checkStop (text : String) : K _ (checkStop text) :=
  hK.bind (hK.withLock _ hK.getEffectiveStopSignal) fun _ =>
    Proc.Composed.ite (hK.pure _) (hK.pure _)

theorem checkHealthy (text : String) : K _ (checkHealthy text) :=
  hK.bind hK.isHealthyCached fun _ => Proc.Composed.ite (hK.pure _) (hK.pure _)

theorem checkAlloc (text : String) : K _ (checkAlloc text) :=
  hK.bind (hK.quiet .alloc trivial) fun _ => Proc.Composed.ite (hK.pure _) (hK.pure _)

theorem batchClient (nullText stopText : String) : K _ (batchClient nullText stopText) := by
  refine hK.withLock _ (hK.bind (hK.quiet .copyImpl trivial) fun impl => ?_)
  cases impl with
  | none => exact hK.pure _
  | some client =>
      exact hK.bind hK.getEffectiveStopSignal fun _ => Proc.Composed.ite (hK.pure _) (hK.pure _)

theorem safeStatusCodeName (code : UA_StatusCode) : K _ (safeStatusCodeName code) :=
  hK.bind (hK.quiet (.statusCodeName code) trivial) fun _ => hK.pure _

theorem uaNodeIDAlloc (node : NodeId) : K _ (uaNodeIDAlloc node) := by
  refine hK.andThen (hK.pure _) fun _ => ?_
  cases node.id with
  | numeric n => exact hK.pure _
  | string s =>
      exact hK.bind (hK.quiet .alloc trivial) fun _ => Proc.Composed.ite (hK.pure _)
        (Proc.Composed.ite (hK.pure _) (hK.pure _))

theorem buildReadRequest (nodes : List ReadValue) : K _ (buildReadRequest nodes) :=
  hK.mapResult (fun v => hK.andThen (hK.uaNodeIDAlloc v.node) fun _ => hK.pure _) nodes

theorem readResults (nodes : List ReadValue) (response : UA_ReadResponse) :
    K _ (readResults nodes response) := by
  unfold Impl.readResults
  cases response.results with
  | null size => exact hK.pure _
  | data items =>
      exact Proc.Composed.ite (hK.pure _) (hK.reserving _)

theorem readChecks (hconn : K _ (Impl.load .connState)) (nodes : List ReadValue) :
    K _ (readChecks nodes) :=
  hK.andThen (hK.checkState hconn _ _ _) fun _ => Proc.Composed.ite (hK.pure _)
    (hK.andThen (hK.checkHealthy _) fun _ => hK.checkAlloc _)

theorem readAttemptChecks (hconn : K _ (Impl.load .connState)) (startTime : Int) :
    K _ (readAttemptChecks startTime) :=
  hK.andThen (hK.checkStop _) fun _ => hK.bind hK.nowMs fun _ =>
    hK.bind (hK.quiet .readConfig trivial) fun _ => Proc.Composed.ite (hK.pure _)
      (hK.checkState hconn _ _ _)

theorem writeItem (v : WriteValue) : K _ (writeItem v) :=
  hK.andThen (hK.uaNodeIDAlloc v.node) fun _ => hK.andThen (hK.pure _) fun value =>
    hK.bind (hK.quiet (.setScalarCopy value) trivial) fun _ =>
      Proc.Composed.ite (hK.pure _) (hK.pure _)

theorem buildWriteRequest (nodes : List WriteValue) : K _ (buildWriteRequest nodes) :=
  hK.mapResult hK.writeItem nodes

theorem writeResults (nodes : List WriteValue) (response : UA_WriteResponse) :
    K _ (writeResults nodes response) := by
  have hfailed := hK.bind (hK.safeStatusCodeName response.serviceResult) fun name =>
    hK.pure (α := Result (List WriteResult) RichError)
      (.error ⟨.serviceFailed, "batchWrite: service failed, serviceResult=" ++ name⟩)
  unfold Impl.writeResults
  cases response.results with
  | null size => exact hfailed
  | data items =>
      exact Proc.Composed.ite (hK.reserving _) hfailed

theorem writeChecks (hconn : K _ (Impl.load .connState)) (nodes : List WriteValue) :
    K _ (writeChecks nodes) :=
  hK.andThen (hK.checkState hconn _ _ _) fun _ => Proc.Composed.ite (hK.pure _)
    (hK.andThen (hK.checkHealthy _) fun _ => hK.checkAlloc _)

/-! ### The rounds of the polling loops -/

theorem wallDeadline : K _ wallDeadline :=
  hK.bind (hK.quiet .steadyNow trivial) fun _ => hK.bind (hK.quiet .readConfig trivial) fun _ =>
    hK.pure _

theorem timedOut (start deadline : Int) : K _ (timedOut start deadline) :=
  hK.bind hK.nowMs fun _ => hK.bind (hK.quiet .steadyNow trivial) fun _ =>
    hK.bind (hK.quiet .readConfig trivial) fun _ => hK.pure _

theorem connectClient : K _ connectClient :=
  composed_connectClient hK.toComposed (fun a => hK.quiet (.load a)) hK.withLock
    (hK.quiet .copyImpl trivial)

theorem disconnectClient : K _ disconnectClient :=
  composed_disconnectClient hK.toComposed (fun a => hK.quiet (.load a)) hK.withLock
    (hK.quiet .copyImpl trivial)

/-! ### What the watchdog looks at -/

theorem isBadOrUnhealthy : K _ isBadOrUnhealthy :=
  hK.bind hK.isConnectBad fun _ => Proc.Composed.ite (hK.pure _)
    (hK.bind hK.isHealthyCached fun _ => hK.pure _)

theorem isLost (f : StateFields) : K _ (isLost f) :=
  hK.bind (hK.load .connectionLost) fun _ => hK.pure _

theorem housekeeping : K _ housekeeping := by
  refine hK.bind hK.snapshot fun impl => ?_
  cases impl with
  | none => exact hK.pure _
  | some client => exact hK.bind (hK.callRunIterate client 0) fun _ => hK.pure _

end Polling

namespace Blocks

variable {K : (α : Type) → Impl α → Prop} (hK : Blocks K) {α : Type}

include hK

/-! ### The watchdog, from `connect` and `disconnect` -/

theorem giveUpIfExpired : K _ giveUpIfExpired :=
  hK.bind hK.updateBadStatusTime fun _ => hK.bind hK.shouldTriggerGiveUp fun _ =>
    hK.bind (hK.when hK.turnToGiveup) fun _ => hK.pure _

section Watchdog

variable (hconnect : K _ connect) (hdisconnect : K _ disconnect)

include hconnect

theorem connectAndTurn : K _ connectAndTurn := by
  refine hK.bind hconnect fun r => ?_
  cases r with
  | ok u => exact hK.turnToRunning
  | error e => exact hK.bind (hK.when hK.turnToGiveup) fun _ => hK.when hK.turnToRecovring

theorem connectIfClosed (client : Handle) : K _ (connectIfClosed client) :=
  hK.bind (hK.callRunIterate client 1) fun _ => hK.bind hK.isChannelClosed fun _ =>
    Proc.Composed.ite (hK.connectAndTurn hconnect) hK.turnToRecovring

include hdisconnect

theorem reconnect (client : Handle) : K _ (reconnect client) := by
  refine hK.bind hdisconnect fun r => ?_
  cases r with
  | ok u => exact hK.connectIfClosed hconnect client
  | error e => exact Proc.Composed.ite hK.turnToGiveup (hK.connectIfClosed hconnect client)

theorem decideUnhealthy (client : Handle) : K _ (decideUnhealthy client) := by
  have hreconnect := hK.reconnect hconnect hdisconnect client
  refine hK.bind hK.loadState fun f => hK.bind (hK.isLost f) fun _ => Proc.Composed.ite ?_
    (hK.bind hK.isChannelClosed fun _ => Proc.Composed.ite ?_
      (hK.bind hK.isBadOrUnhealthy fun _ => Proc.Composed.ite ?_ hK.turnToRunning))
  · exact hK.bind hK.giveUpIfExpired fun _ => hK.when hreconnect
  · exact hK.bind hK.giveUpIfExpired fun _ => hK.when (hK.connectIfClosed hconnect client)
  · exact hK.bind hK.giveUpIfExpired fun _ => hK.when (hK.bind (hK.callRunIterate client 1)
      fun _ => hK.bind hK.isHealthyCached fun _ => Proc.Composed.ite hK.turnToRunning hreconnect)

/-- A decision, from the connection functions. -/
theorem doWatchdogDecision : K _ doWatchdogDecision := by
  refine hK.bind hK.getEffectiveStopSignal fun _ => Proc.Composed.ite (hK.pure _)
    (hK.bind hK.snapshot fun impl => ?_)
  cases impl with
  | none => exact hK.pure _
  | some client =>
      have hunhealthy := hK.decideUnhealthy hconnect hdisconnect client
      refine hK.bind (hK.isConnected 0) fun r => ?_
      rcases r with e | healthy
      · exact hK.when hunhealthy
      · cases healthy with
        | true => exact hK.turnToRunning
        | false => exact hunhealthy

theorem decideIfDue (last : Int) (retryCounter : UInt32) : K _ (decideIfDue last retryCounter) :=
  hK.bind hK.nowMs fun _ => hK.bind (hK.quiet .readConfig trivial) fun _ => Proc.Composed.ite
    (hK.bind (hK.doWatchdogDecision hconnect hdisconnect) fun _ =>
      hK.bind (hK.load .lifeState) fun _ => hK.pure _) (hK.pure _)

theorem watchdogStep (recovering : Bool) (last : Int) (retryCounter : UInt32) :
    K _ (watchdogStep recovering last retryCounter) :=
  hK.bind (hK.when (hK.delayFunction _)) fun _ =>
    hK.bind (hK.decideIfDue hconnect hdisconnect _ _) fun _ =>
      hK.bind (hK.waitForStop _) fun _ => hK.pure _

omit hconnect hdisconnect in
theorem watchdogCatch (last : Int) (retryCounter : UInt32) (e : Exn) :
    K _ (watchdogCatch last retryCounter e) := by
  cases e with
  | badAlloc what | systemError what => exact hK.bind hK.turnToGiveup fun _ => hK.pure _
  | exception what => exact hK.bind (hK.delayFunction _) fun _ => hK.pure _
  | other => exact hK.bind (hK.delayFunction _) fun _ => hK.pure _

theorem watchdogRound (l : WatchdogLocals) : K _ (watchdogRound l) := by
  refine hK.bind hK.getEffectiveStopSignal fun _ => Proc.Composed.ite (hK.pure _)
    (hK.bind (hK.attempt hK.housekeeping) fun r => ?_)
  rcases r with e | alive
  · exact hK.watchdogCatch _ _ e
  · cases alive with
    | false => exact hK.pure _
    | true =>
        refine hK.bind (hK.load .lifeState) fun life =>
          hK.bind (hK.attempt (hK.watchdogStep hconnect hdisconnect _ _ _)) fun r => ?_
        cases r with
        | error e => exact hK.watchdogCatch _ _ e
        | ok l => exact hK.pure _

/-- The watchdog loop, from the connection functions. -/
theorem runWatchdog : K _ runWatchdog :=
  hK.bind hK.nowMs fun _ => hK.loop (hK.watchdogRound hconnect hdisconnect)

end Watchdog

end Blocks

/-- `Blocks`, with the calls that open and close the connection. -/
structure Driving (K : (α : Type) → Impl α → Prop) : Prop extends Blocks K where
  /-- A call that opens or closes the connection. -/
  sdkConnection : ∀ client {c : SdkCall}, c.isConnection = true → K c.Result (Impl.sdk client c)

namespace Driving

variable {K : (α : Type) → Impl α → Prop} (hK : Driving K) {α : Type}

include hK

theorem abandonConnect (client : Handle) : K _ (abandonConnect client) :=
  hK.bind (hK.withLock _ (hK.sdkConnection client rfl)) fun _ =>
    hK.bind hK.turnToRecovring fun _ => hK.pure _

theorem connectTimedOut (client : Handle) : K _ (connectTimedOut client) := by
  refine hK.bind (hK.isConnected 50) fun r => ?_
  rcases r with e | _
  · cases e <;> first | exact hK.pure _ | exact hK.abandonConnect client
  · exact hK.bind hK.isHealthyCached fun _ => Proc.Composed.ite
      (hK.bind hK.turnToRunning fun _ => hK.pure _) (hK.abandonConnect client)

theorem connectRoundEnd (client : Handle) (start deadline : Int) :
    K _ (connectRoundEnd client start deadline) :=
  hK.bind (hK.timedOut _ _) fun _ => Proc.Composed.ite
    (hK.bind (hK.connectTimedOut client) fun _ => hK.pure _)
    (hK.bind hK.getEffectiveStopSignal fun _ => Proc.Composed.ite (hK.pure _) (hK.pure _))

theorem connectRound (client : Handle) (start deadline : Int) :
    K _ (connectRound client start deadline) := by
  have hend := hK.connectRoundEnd client start deadline
  refine hK.bind (hK.isConnected 50) fun r => ?_
  rcases r with e | _
  · cases e <;> first | exact hK.pure _ | exact hend
  · exact hK.bind hK.loadState fun _ => Proc.Composed.ite
      (hK.bind hK.turnToRunning fun _ => hK.pure _) hend

theorem connectHeld (client : Handle) : K _ (connectHeld client) := by
  refine hK.bind (hK.withLock _ ?_) fun _ => Proc.Composed.ite ?_ (hK.pure _)
  · exact hK.bind (hK.quiet .readEndpointUrl trivial) fun url =>
      hK.bind (hK.sdkConnection client rfl) fun _ => Proc.Composed.ite (hK.pure _)
        (hK.bind hK.turnToRecovring fun _ => hK.pure _)
  · exact hK.bind hK.nowMs fun _ => hK.bind hK.wallDeadline fun _ =>
      hK.loop fun _ => hK.connectRound client _ _

theorem disconnectTimedOut (client : Handle) : K _ (disconnectTimedOut client) :=
  hK.bind (hK.withLock _ (hK.sdk client rfl)) fun _ => Proc.Composed.ite
    (hK.bind hK.turnToRecovring fun _ => hK.pure _)
    (hK.bind (hK.withLock _ (hK.sdkConnection client rfl)) fun _ =>
      hK.bind hK.turnToRecovring fun _ => hK.pure _)

theorem disconnectRoundEnd (client : Handle) (start deadline : Int) :
    K _ (disconnectRoundEnd client start deadline) :=
  hK.bind (hK.timedOut _ _) fun _ => Proc.Composed.ite
    (hK.bind (hK.disconnectTimedOut client) fun _ => hK.pure _)
    (hK.bind hK.getEffectiveStopSignal fun _ => Proc.Composed.ite (hK.pure _)
      (hK.bind (hK.quiet (.sleep 50) trivial) fun _ => hK.pure _))

theorem disconnectRound (client : Handle) (start deadline : Int) :
    K _ (disconnectRound client start deadline) := by
  refine hK.bind (hK.isConnected 50) fun r => ?_
  rcases r with e | _
  · cases e <;> exact hK.pure _
  · exact hK.bind hK.loadState fun _ => hK.bind (hK.when hK.updateBadStatusTime) fun _ =>
      Proc.Composed.ite (hK.bind hK.turnToRecovring fun _ => hK.pure _)
        (hK.disconnectRoundEnd client start deadline)

theorem disconnectHeld (client : Handle) : K _ (disconnectHeld client) := by
  refine hK.bind (hK.withLock _ ?_) fun _ => Proc.Composed.ite ?_ (hK.pure _)
  · exact hK.bind (hK.sdkConnection client rfl) fun _ => Proc.Composed.ite (hK.pure _)
      (hK.bind hK.turnToRecovring fun _ => hK.pure _)
  · exact hK.bind hK.nowMs fun _ => hK.bind hK.wallDeadline fun _ =>
      hK.loop fun _ => hK.disconnectRound client _ _

end Driving

/-- `Driving`, with the scope of a `CASGuard`. -/
structure Connecting (K : (α : Type) → Impl α → Prop) : Prop extends Driving K where
  singleFlight : ∀ {α : Type} {busy : ConnState → α} {body : Impl α}, K α body →
    K α (singleFlight busy body)

/-- `Connecting`, with the scope of an `InFlightGuard`. -/
structure Busy (K : (α : Type) → Impl α → Prop) : Prop extends Connecting K where
  inFlight : ∀ {α : Type} {body : Impl α}, K α body → K α (inFlight body)

namespace Polling

variable {K : (α : Type) → Impl α → Prop} (hK : Polling K)

include hK

/-- What follows from the response to a read. -/
theorem readResponse (nodes : List ReadValue) (response : UA_ReadResponse)
    (maxRetries retry : UInt32) :
    K (UInt32 ⊕ Result (List ReadResult) RichError)
      (if isRetryable response.serviceResult then
        if retry ≠ maxRetries then do
          Impl.delayFunction retry
          pure (.inl (retry + 1))
        else do
          let name ← Impl.safeStatusCodeName response.serviceResult
          pure (.inr (.error ⟨.serviceRetryExhausted,
            "batchRead: max retries exhausted, last status=" ++ name⟩))
      else do
        let r ← Impl.readResults nodes response
        pure (.inr r)) :=
  Proc.Composed.ite
    (Proc.Composed.ite (hK.bind (hK.delayFunction _) fun _ => hK.pure _)
      (hK.bind (hK.safeStatusCodeName _) fun _ => hK.pure _))
    (hK.bind (hK.readResults nodes _) fun _ => hK.pure _)

theorem readService {nodes : List ReadValue} {request : List UA_ReadValueId} {client : Handle}
    {maxRetries retry : UInt32}
    (hread : K _ (Impl.withLock .sdkMutex (Impl.sdk client (.serviceRead request)))) :
    K _ (readService nodes request client maxRetries retry) :=
  hK.bind hread fun response => hK.readResponse nodes response maxRetries retry

theorem readAttempt {nodes : List ReadValue} {request : List UA_ReadValueId} {client : Handle}
    {startTime : Int} {maxRetries retry : UInt32} (hconn : K _ (Impl.load .connState))
    (hread : K _ (Impl.withLock .sdkMutex (Impl.sdk client (.serviceRead request)))) :
    K _ (readAttempt nodes request client startTime maxRetries retry) := by
  refine Proc.Composed.ite (hK.bind (hK.readAttemptChecks hconn _) fun r => ?_) (hK.pure _)
  cases r with
  | error e => exact hK.pure _
  | ok u => exact hK.readService hread

theorem writeService {nodes : List WriteValue} {request : List UA_WriteValue} {client : Handle}
    (hwrite : K _ (Impl.withLock .sdkMutex (Impl.sdk client (.serviceWrite request)))) :
    K _ (writeService nodes request client) :=
  hK.bind hwrite fun _ => hK.writeResults nodes _

/-- The counted part of `batchRead`, from its service. -/
theorem batchReadCounted (hconn : K _ (Impl.load .connState)) (hread : ∀ client request,
      K _ (Impl.withLock .sdkMutex (Impl.sdk client (.serviceRead request))))
    (nodes : List ReadValue) : K _ (batchReadCounted nodes) :=
  hK.andThen (hK.readChecks hconn nodes) fun _ => hK.andThen (hK.buildReadRequest nodes) fun _ =>
    hK.andThen (hK.batchClient _ _) fun _ => hK.bind (hK.quiet .readConfig trivial) fun _ =>
      hK.bind hK.nowMs fun _ => hK.loop fun _ => hK.readAttempt hconn (hread _ _)

/-- The counted part of `batchWrite`, from its service. -/
theorem batchWriteCounted (hconn : K _ (Impl.load .connState)) (hwrite : ∀ client request,
      K _ (Impl.withLock .sdkMutex (Impl.sdk client (.serviceWrite request))))
    (nodes : List WriteValue) : K _ (batchWriteCounted nodes) :=
  hK.andThen (hK.writeChecks hconn nodes) fun _ => hK.andThen (hK.buildWriteRequest nodes) fun _ =>
    hK.andThen (hK.batchClient _ _) fun _ => hK.andThen (hK.checkStop _) fun _ =>
      hK.andThen (hK.checkState hconn _ _ _) fun _ => hK.writeService (hwrite _ _)

end Polling

namespace Busy

variable {K : (α : Type) → Impl α → Prop} (hK : Busy K) {α : Type}

include hK

theorem connect : K _ connect := by
  refine hK.inFlight (hK.bind hK.getEffectiveStopSignal fun _ => Proc.Composed.ite (hK.pure _)
    (hK.bind hK.connectClient fun r => ?_))
  cases r with
  | error e => exact hK.pure _
  | ok client => exact hK.singleFlight (hK.connectHeld client)

theorem disconnect : K _ disconnect := by
  refine hK.inFlight (hK.bind hK.disconnectClient fun r => ?_)
  cases r with
  | error e => exact hK.pure _
  | ok client => exact hK.singleFlight (hK.disconnectHeld client)

/-- `batchRead`, from its service. -/
theorem batchRead (hconn : K _ (load .connState)) (hread : ∀ client request,
      K _ (Impl.withLock .sdkMutex (sdk client (.serviceRead request)))) (nodes : List ReadValue) :
    K _ (batchRead nodes) :=
  hK.andThen (hK.checkStop _) fun _ => hK.inFlight (hK.batchReadCounted hconn hread nodes)

/-- `batchWrite`, from its service. -/
theorem batchWrite (hconn : K _ (load .connState)) (hwrite : ∀ client request,
      K _ (Impl.withLock .sdkMutex (sdk client (.serviceWrite request))))
    (nodes : List WriteValue) : K _ (batchWrite nodes) :=
  hK.andThen (hK.checkStop _) fun _ => hK.inFlight (hK.batchWriteCounted hconn hwrite nodes)

end Busy

/-! ### Starting and stopping -/

section Lifecycle

variable {K : (α : Type) → Impl α → Prop} (hK : Blocks K)

include hK

theorem Blocks.joinWatchdog (hdetach : K _ (perform .watchdogDetach))
    (hjoin : K _ (perform .watchdogJoin)) : K _ joinWatchdog :=
  hK.bind (hK.quiet .watchdogJoinable trivial) fun _ =>
    hK.when (hK.bind (hK.quiet .watchdogIsSelf trivial) fun _ => Proc.Composed.ite hdetach hjoin)

/-- The watchdog thread, from the connection functions. -/
theorem Blocks.watchdogThread (hbegin : K _ (perform .watchdogBegin))
    (hend : K _ (perform .watchdogEnd)) (hconnect : K _ connect) (hdisconnect : K _ disconnect) :
    K _ watchdogThread :=
  hK.bind hbegin fun _ => hK.bind (hK.runWatchdog hconnect hdisconnect) fun _ => hend

/-- Every call, from the calls that count themselves in flight and from `shutdown`. -/
theorem Blocks.run (hbegin : K _ (perform .watchdogBegin)) (hend : K _ (perform .watchdogEnd))
    (hgiveUp : K _ setGiveUpSignal) (hconnect : K _ connect) (hdisconnect : K _ disconnect)
    (hread : ∀ nodes, K _ (batchRead nodes)) (hwrite : ∀ nodes, K _ (batchWrite nodes))
    (hshutdown : K _ shutdown) (c : ImplCall) : K _ c.run := by
  have hreply : ∀ {α : Type} {p : Impl α} (wrap : α → ImplReply), K α p →
      K _ (replying wrap p) := fun wrap hp => hK.bind hp fun _ => hK.pure _
  cases c with
  | batchRead nodes => exact hreply _ (hread nodes)
  | batchWrite nodes => exact hreply _ (hwrite nodes)
  | isConnected ms => exact hreply _ (hK.isConnected ms)
  | connect => exact hreply _ hconnect
  | disconnect => exact hreply _ hdisconnect
  | setGiveUpSignal => exact hreply _ hgiveUp
  | turnToRunning => exact hreply _ hK.turnToRunning
  | turnToRecovring => exact hreply _ hK.turnToRecovring
  | turnToGiveup => exact hreply _ hK.turnToGiveup
  | watchdogDecision => exact hreply _ (hK.doWatchdogDecision hconnect hdisconnect)
  | watchdogThread => exact hreply _ (hK.watchdogThread hbegin hend hconnect hdisconnect)
  | callback cb => exact hreply _ (hK.runCallback cb)
  | shutdown => exact hreply _ hshutdown

variable (hops : ∀ o : ImplOp, o.Lifecycle → K o.Resp (perform o))

include hops

theorem Blocks.signalShutdown : K _ signalShutdown :=
  hK.bind (hK.withLock _ (hK.bind (hK.load .shutdown) fun _ => Proc.Composed.ite (hK.pure _)
      (hK.bind (hops (.store .running false) rfl) fun _ =>
        hK.bind (hops (.store .shutdown true) rfl) fun _ => hK.pure _))) fun _ =>
    hK.when (hK.bind (hK.load .stop) fun _ => hK.pure _)

theorem Blocks.drain : K _ drain :=
  hK.bind (hK.quiet .readConfig trivial) fun _ => hops (.taskWait _) trivial

theorem Blocks.shutdown : K _ shutdown :=
  hK.bind (hK.signalShutdown hops) fun _ =>
    hK.bind (hK.joinWatchdog (hops .watchdogDetach trivial) (hops .watchdogJoin trivial)) fun _ =>
      hK.bind (hops (.store .stop true) rfl) fun _ => hK.bind (hK.drain hops) fun _ => hK.pure _

end Lifecycle

/-! ### The writers, from their operations -/

section Writers

variable {K : (α : Type) → Impl α → Prop}

section Composed

variable (hK : @Proc.Composed ImplSig Exn K)
  (hload : ∀ a : Atomic, a.isOpen = true → K a.Val (load a))

include hK hload

theorem composed_inactivityCallback (hstore : K Unit (store .connectionLost true)) :
    K _ inactivityCallback :=
  hK.bind (composed_stopSignal hK hload) fun _ => hK.when hstore

theorem composed_setGiveUpSignal (hlife : ∀ o : ImplOp, o.LifeWrite → K o.Resp (perform o)) :
    K _ setGiveUpSignal := by
  refine hK.bind (hload .lifeState rfl) fun _ => hK.loop fun expected => ?_
  split
  · next hlive =>
    refine hK.bind (hlife (.casWeak .lifeState _ _) ?_) fun r => ?_
    · rcases hlive with rfl | rfl <;> exact nofun
    cases r <;> exact hK.pure _
  · exact hK.pure _

theorem composed_runCallback (hword : ∀ o : ImplOp, o.WordWrite → K o.Resp (perform o))
    (hstore : K Unit (store .connectionLost true)) (cb : Callback) : K _ (runCallback cb) := by
  refine hK.bind (hword (.callback cb) trivial) fun _ => ?_
  cases cb with
  | state f =>
      refine hK.bind (hword (.load .statePacked) trivial) fun old => hK.loop fun old =>
        hK.bind (hword (.casWeak .statePacked _ _) ⟨f, rfl⟩) fun r => ?_
      cases r <;> exact hK.pure _
  | inactivity => exact composed_inactivityCallback hK hload hstore

end Composed

/-! The functions that lock a mutex or read the clock, from these parts and their operations. -/

section Parts

variable (hK : @Proc.Composed ImplSig Exn K)
  (hlocal : ∀ o : ImplOp, o.Local → K o.Resp (perform o))
  (hlife : ∀ o : ImplOp, o.LifeWrite → K o.Resp (perform o))
  (hlock : ∀ {α : Type} (m : Mutex) {body : Impl α}, K α body → K α (withLock m body))
  (htime : ∀ o : ImplOp, o.Timer → K o.Resp (perform o)) (hnow : K Int nowMs)

include hK

/-- An SDK call, from its two ends and the callbacks in between. -/
theorem composed_sdk {client : Handle} {c : SdkCall} (hcallback : ∀ cb, K Unit (runCallback cb))
    (hcall : K _ (perform (.sdkCall client c)))
    (hreturn : K c.Result (perform (.sdkReturn client c) >>= orThrow)) :
    K c.Result (sdk client c) :=
  hK.bind hcall fun cbs => hK.bind (hK.forEach hcallback cbs) fun _ => hreturn

include hlocal

theorem composed_isHealthyCached : K _ isHealthyCached :=
  hK.bind (hlocal (.load .connectionLost) rfl) fun _ => Proc.Composed.ite (hK.pure _)
    (hK.bind (hlocal .loadFields trivial) fun _ => hK.pure _)

include hlife

theorem composed_turnToRecovring : K _ turnToRecovring := by
  have hhealthy := composed_isHealthyCached hK hlocal
  refine hK.bind (hlocal (.load .lifeState) rfl) fun _ => hK.loop fun expected => ?_
  split
  · next hrun =>
    refine hK.bind hhealthy fun _ => Proc.Composed.ite (hK.pure _) (hK.bind
      (hlife (.casWeak .lifeState _ _) (hrun.trans_ne nofun)) fun r => ?_)
    cases r with
    | error observed => exact hK.pure _
    | ok u =>
        exact hK.bind hhealthy fun _ => hK.bind (hK.when (hK.bind
          (hlife (.casStrong .lifeState _ _) nofun) fun _ => hK.pure _)) fun _ => hK.pure _
  · exact hK.pure _

include hlock htime

theorem composed_turnToRunning : K _ turnToRunning := by
  refine hK.bind (hlocal (.load .lifeState) rfl) fun _ => hK.loop fun expected => ?_
  split
  · next hlive =>
    refine hK.bind (hlife (.casWeak .lifeState _ _) ?_) fun r => ?_
    · rcases hlive with rfl | rfl <;> exact nofun
    cases r with
    | error observed => exact hK.pure _
    | ok u =>
        exact hK.bind (hlife (.store .connectionLost false) trivial) fun _ =>
          hK.bind (hlock _ (hK.bind (htime (.load .lastBadStatusMs) trivial)
            fun _ => hK.when (htime (.store .lastBadStatusMs 0) trivial))) fun _ => hK.pure _
  · exact hK.pure _

include hnow

omit hlocal hlife in
theorem composed_updateBadStatusTime : K _ updateBadStatusTime :=
  hlock _ (hK.bind (htime (.load .lastBadStatusMs) trivial) fun _ =>
    hK.when (hK.bind hnow fun now => htime (.store .lastBadStatusMs now) trivial))

theorem composed_turnToGiveup : K _ turnToGiveup := by
  refine hK.bind (composed_updateBadStatusTime hK hlock htime hnow) fun _ =>
    hK.bind (hlocal (.load .lifeState) rfl) fun _ => hK.loop fun expected => ?_
  split
  · next hlive =>
    refine hK.bind (hlife (.casWeak .lifeState _ _) hlive) fun r => ?_
    cases r <;> exact hK.pure _
  · exact hK.pure _

omit hlocal htime in
/-- The blocks, from the operations that write the life state, from the parts that lock a mutex or
may throw, and from the two functions that write the state word. -/
theorem blocks_of_parts (hquiet : ∀ o : ImplOp, o.Quiet → K o.Resp (perform o))
    (hreserve : K Unit (perform .reserve >>= orThrow))
    (hsdk : ∀ client {c : SdkCall}, c.isQuiet = true → K c.Result (sdk client c))
    (hcallback : ∀ cb, K Unit (runCallback cb)) (hprobe : ∀ client, K Triple (probe client)) :
    Blocks K where
  toComposed := hK
  quiet o ho := hquiet o ho.quiet
  withLock := hlock
  nowMs := hnow
  reserve := hreserve
  sdk := hsdk
  runCallback := hcallback
  probe := hprobe
  updateBadStatusTime := composed_updateBadStatusTime hK hlock (fun o ho => hquiet o ho.quiet) hnow
  turnToRunning := composed_turnToRunning hK (fun o ho => hquiet o ho.looks.quiet) hlife hlock
    fun o ho => hquiet o ho.quiet
  turnToRecovring := composed_turnToRecovring hK (fun o ho => hquiet o ho.looks.quiet) hlife
  turnToGiveup := composed_turnToGiveup hK (fun o ho => hquiet o ho.looks.quiet) hlife hlock
    (fun o ho => hquiet o ho.quiet) hnow
  shouldTriggerGiveUp :=
    hK.bind (hquiet (.load .lastBadStatusMs) ⟨nofun, nofun⟩) fun _ => Proc.Composed.ite (hK.pure _)
      (hK.bind hnow fun _ => hK.bind (hquiet .readConfig trivial) fun _ => hK.pure _)

end Parts

/-- The probe, from its SDK call. -/
theorem composed_probe (hK : @Proc.Composed ImplSig Exn K)
    (hlock : ∀ {α : Type} (m : Mutex) {body : Impl α}, K α body → K α (withLock m body))
    (hword : ∀ o : ImplOp, o.WordWrite → K o.Resp (perform o)) (client : Handle)
    (hsdk : K _ (sdk client .getState)) : K _ (probe client) := by
  refine hK.bind (hword (.load .statePacked) trivial) fun expected =>
    hK.bind (hlock _ hsdk) fun f => hK.bind (hK.bind (hword (.casStrong .statePacked _ _) ⟨f, rfl⟩)
      fun r => ?_) fun _ => hK.pure _
  cases r <;> exact hK.pure _

/-! The same, where a program may end with an exception anywhere. -/

variable (hK : @Proc.Closed ImplSig Exn K)
  (hquiet : ∀ o : ImplOp, o.Quiet → K o.Resp (perform o))
  (hlife : ∀ o : ImplOp, o.LifeWrite → K o.Resp (perform o))
  (hword : ∀ o : ImplOp, o.WordWrite → K o.Resp (perform o))

include hK

theorem closed_orThrow {α : Type} (r : Except Exn α) : K α (orThrow r) := by
  cases r with
  | ok a => exact hK.pure a
  | error e => exact hK.throw e

/-- An SDK call, from its two ends and the callbacks in between. -/
theorem closed_sdk {client : Handle} {c : SdkCall} (hcallback : ∀ cb, K Unit (runCallback cb))
    (hcall : K _ (perform (.sdkCall client c))) (hreturn : K _ (perform (.sdkReturn client c))) :
    K c.Result (sdk client c) :=
  composed_sdk hK.toComposed hcallback hcall (hK.bind hreturn fun r => closed_orThrow hK r)

theorem closed_withLock (hlocal : ∀ o : ImplOp, o.Local → K o.Resp (perform o)) {α : Type}
    (m : Mutex) {body : Impl α} (hb : K α body) : K α (withLock m body) :=
  hK.bind (hlocal (.lock m) trivial) fun _ => hK.ensuring (hlocal (.unlock m) trivial) hb

include hquiet hlife

/-- The blocks, from the operations that write the life state and from the two functions that write
the state word. -/
theorem blocks_of_ops (hcallback : ∀ cb, K Unit (runCallback cb))
    (hprobe : ∀ client, K Triple (probe client)) : Blocks K :=
  blocks_of_parts hK.toComposed hlife
    (fun m _ => closed_withLock hK (fun o ho => hquiet o ho.looks.quiet) m)
    (hK.bind (hquiet .nowMs trivial) fun r => closed_orThrow hK r) hquiet
    (hK.bind (hquiet .reserve trivial) fun r => closed_orThrow hK r)
    (fun client _ hc => closed_sdk hK hcallback (hquiet (.sdkCall client _) hc)
      (hquiet (.sdkReturn client _) hc))
    hcallback hprobe

include hword

theorem closed_runCallback (cb : Callback) : K _ (runCallback cb) :=
  composed_runCallback hK.toComposed (fun a ha => hquiet (.load a) (Atomic.quiet_load ha)) hword
    (hlife (.store .connectionLost true) trivial) cb

theorem closed_probe (client : Handle) : K _ (probe client) :=
  composed_probe hK.toComposed
    (fun m _ => closed_withLock hK (fun o ho => hquiet o ho.looks.quiet) m) hword client
    (closed_sdk hK (closed_runCallback hK hquiet hlife hword)
      (hquiet (.sdkCall client .getState) rfl) (hquiet (.sdkReturn client .getState) rfl))

end Writers

/-- The thread that connects or disconnects, from its operations. -/
theorem Blocks.connecting {K : (α : Type) → Impl α → Prop} (hB : Blocks K)
    (hK : @Proc.Closed ImplSig Exn K) (hop : ∀ o : ImplOp, o.Connecting → K o.Resp (perform o)) :
    Connecting K where
  toBlocks := hB
  singleFlight hb := by
    refine hK.bind (hop (.casStrong .connState .idle .connecting) ⟨rfl, rfl⟩) fun r => ?_
    cases r with
    | ok u => exact hK.ensuring (hop (.store .connState .idle) rfl) hb
    | error observed => exact hK.pure _
  sdkConnection _ _ hc :=
    closed_sdk hK hB.runCallback (hop (.sdkCall _ _) hc) (hop (.sdkReturn _ _) hc)

/-- The scope of an `InFlightGuard`, from its two ends. -/
theorem Connecting.busy {K : (α : Type) → Impl α → Prop} (hC : Connecting K)
    (hK : @Proc.Closed ImplSig Exn K) (hinc : K _ (perform .taskInc))
    (hdec : K _ (perform .taskDec)) : Busy K where
  toConnecting := hC
  inFlight hb := hK.bind hinc fun _ => hK.ensuring hdec hb

/-- Every call, from the operations that do not concern the state word and from the two functions
that write it. -/
theorem closed_run {K : (α : Type) → Impl α → Prop} (hK : @Proc.Closed ImplSig Exn K)
    (hplain : ∀ o : ImplOp, o.Plain → K o.Resp (perform o))
    (hcallback : ∀ cb, K Unit (runCallback cb)) (hprobe : ∀ client, K Triple (probe client))
    (c : ImplCall) : K _ c.run := by
  have hquiet : ∀ o : ImplOp, o.Quiet → K o.Resp (perform o) := fun o ho => hplain o (.inl ho)
  have hlife : ∀ o : ImplOp, o.LifeWrite → K o.Resp (perform o) := fun o ho =>
    hplain o (.inr (.inl ho))
  have hinFlight : ∀ o : ImplOp, o.InFlight → K o.Resp (perform o) := fun o ho =>
    hplain o (.inr (.inr (.inl ho)))
  have hops : ∀ o : ImplOp, o.Lifecycle → K o.Resp (perform o) := fun o ho =>
    hplain o (.inr (.inr (.inr ho)))
  have hbusy : Busy K :=
    ((blocks_of_ops hK hquiet hlife hcallback hprobe).connecting hK fun o ho =>
      hinFlight o ho.inFlight).busy hK (hinFlight .taskInc trivial) (hinFlight .taskDec trivial)
  have hservice : ∀ client (c : SdkCall), K _ (Impl.withLock .sdkMutex (sdk client c)) :=
    fun client c => hbusy.withLock _
      (closed_sdk hK hcallback (hinFlight (.sdkCall _ _) trivial)
        (hinFlight (.sdkReturn _ _) trivial))
  have hconn := hinFlight (.load .connState) trivial
  exact hbusy.run (hops .watchdogBegin trivial) (hops .watchdogEnd trivial)
    (composed_setGiveUpSignal hK.toComposed (fun a ha => hquiet (.load a) (Atomic.quiet_load ha))
      hlife)
    hbusy.connect hbusy.disconnect (hbusy.batchRead hconn fun client _ => hservice client _)
    (hbusy.batchWrite hconn fun client _ => hservice client _) (hbusy.toBlocks.shutdown hops) c

/-! ### The footprint of a call -/

/-- Every operation that occurs in the program satisfies `A`. -/
abbrev Uses (A : ImplOp → Prop) (α : Type) (p : Impl α) : Prop := @Proc.Uses ImplSig Exn α A p

theorem uses_perform {A : ImplOp → Prop} {o : ImplOp} (h : A o) : Uses A _ (perform o) :=
  ⟨h, fun _ => trivial⟩

/-- The operations that occur in calls. -/
def Footprint (o : ImplOp) : Prop := o.Plain ∨ o.WordWrite

/-- The footprint of every call. -/
theorem uses_run (c : ImplCall) : Uses Footprint _ c.run := by
  have hK : @Proc.Closed ImplSig Exn (Uses Footprint) := @Proc.closed_uses ImplSig Exn Footprint
  have hplain : ∀ o : ImplOp, o.Plain → Uses Footprint _ (perform o) := fun _ h =>
    uses_perform (.inl h)
  have hquiet : ∀ o : ImplOp, o.Quiet → Uses Footprint _ (perform o) := fun o ho =>
    hplain o (.inl ho)
  have hlife : ∀ o : ImplOp, o.LifeWrite → Uses Footprint _ (perform o) := fun o ho =>
    hplain o (.inr (.inl ho))
  have hword : ∀ o : ImplOp, o.WordWrite → Uses Footprint _ (perform o) := fun _ h =>
    uses_perform (.inr h)
  exact closed_run hK hplain (closed_runCallback hK hquiet hlife hword)
    (closed_probe hK hquiet hlife hword) c

/-- The footprint of every thread. -/
theorem uses_thread (c : Option ImplCall) : Uses Footprint _ (ImplCall.thread c) := by
  cases c with
  | none => trivial
  | some c => exact uses_run c

/-- The threads of a pool use the operations of the calls, from the start of a run on. -/
theorem uses_start (calls : Tid → Option ImplCall) (s : ImplState) (t : Tid) :
    ((ImplPool.start calls s).pool t).Uses Footprint :=
  uses_thread (calls t)

/-- A block under a mutex, in a protocol that the mutexes do not concern. -/
theorem follows_withLock {L α : Type} {cond : L → (o : ImplOp) → o.Resp → Prop}
    {track : Event.Track ImplSig L} {start : Tid → L} {t : Tid} {m : Mutex} {body : Impl α}
    {Q : Except Exn α → L → Prop} {ℓ : L}
    (hlock : ∀ ℓ, cond ℓ (.lock m) ()) (hunlock : ∀ ℓ, cond ℓ (.unlock m) ())
    (htlock : ∀ es ℓ, track es ℓ (ImplOp.lock m) () = ℓ)
    (htunlock : ∀ es ℓ, track es ℓ (ImplOp.unlock m) () = ℓ)
    (hb : (Protocol.recorded ImplState.exec cond track start).Follows t body Q ℓ) :
    (Protocol.recorded ImplState.exec cond track start).Follows t (withLock m body) Q ℓ := by
  refine Protocol.follows_recorded_perform fun es _ => ⟨hlock ℓ, ?_⟩
  rw [htlock]
  refine Protocol.Follows.ensuring Q hb fun r ℓ' hr => ?_
  refine Protocol.follows_recorded_op fun es' _ => ⟨hunlock ℓ', ?_⟩
  rw [htunlock]
  exact ⟨rfl, hr⟩

end Impl

/-- Throughout a run, the threads use the operations of the calls. -/
theorem uses_of_reach {calls : Tid → Option ImplCall} {s : ImplState} {c : ImplPool}
    (hc : ImplPool.Reach (ImplPool.start calls s) c) (t : Tid) :
    (c.pool t).Uses Impl.Footprint :=
  (hc.uses (P := fun _ => True) (fun _ _ _ => trivial) (Impl.uses_start calls s) trivial).2 t

end OPCUAPacking
