import OPCUAPacking.Config
import OPCUAPacking.Interleaving.Pool
import OPCUAPacking.StateWord
import OPCUAPacking.Values

/-!
# The operations of an `Impl`

The atomic operations that the member functions of `OPC_UA_Client::Impl` are built from, and what
they do to its state.

* `Atomic` — the atomic members, with `load`, `store` and the two compare-exchanges.
* `SdkCall`, `Callback` — the calls of `ISdk` on a client, and the callbacks that the SDK fires
  from inside them. A call is two operations, `sdkCall` when it starts and `sdkReturn` when it
  ends; the callbacks run between them, on the calling thread.
* `ImplState` — the members, the owners of the mutexes and the state of the watchdog thread.
* `ImplState.exec` — the transition function. What the SDK, the clocks and the allocator answer is
  the environment's choice.
-/

namespace OPCUAPacking

open Interleaving

/-- A `UA_Client*` that `clientNew` returned. -/
abbrev Handle := Nat

/-- `ConnState`. -/
inductive ConnState where
  | idle
  | connecting
  deriving DecidableEq, Repr

/-- `LifeState`. -/
inductive LifeState where
  | running
  | recovering
  | givenUp
  deriving DecidableEq, Repr

/-- The atomic members of `Impl`. -/
inductive Atomic where
  | connState
  | lifeState
  | running
  | shutdown
  | connectionLost
  | statePacked
  | stop
  | lastBadStatusMs
  deriving DecidableEq, Repr

/-- The type of an atomic member. -/
@[reducible]
def Atomic.Val : Atomic → Type
  | .connState => ConnState
  | .lifeState => LifeState
  | .running => Bool
  | .shutdown => Bool
  | .connectionLost => Bool
  | .statePacked => BitVec 64
  | .stop => Bool
  | .lastBadStatusMs => Int

instance : (a : Atomic) → DecidableEq a.Val
  | .connState => inferInstanceAs (DecidableEq ConnState)
  | .lifeState => inferInstanceAs (DecidableEq LifeState)
  | .running => inferInstanceAs (DecidableEq Bool)
  | .shutdown => inferInstanceAs (DecidableEq Bool)
  | .connectionLost => inferInstanceAs (DecidableEq Bool)
  | .statePacked => inferInstanceAs (DecidableEq (BitVec 64))
  | .stop => inferInstanceAs (DecidableEq Bool)
  | .lastBadStatusMs => inferInstanceAs (DecidableEq Int)

/-- The mutexes that a thread holds across other operations: `m_lock`, `m_sdkMutex` and
`m_BadStatusMsMx`. The task counter is only touched in blocks under `m_taskCvMx`, which are
operations of their own, and the mutexes of the two waits are free while a thread waits. -/
inductive Mutex where
  | lock
  | sdkMutex
  | badStatusMsMx
  deriving DecidableEq, Repr

/-! ### The SDK -/

/-- `UA_ReadValueId`, with a null index range. -/
structure UA_ReadValueId where
  nodeId : UA_NodeId
  attributeId : UInt32
  deriving DecidableEq, Repr

/-- `UA_WriteValue`, with a scalar value. -/
structure UA_WriteValue where
  nodeId : UA_NodeId
  attributeId : UInt32
  value : UA_Scalar
  deriving DecidableEq, Repr

/-- `UA_ATTRIBUTEID_VALUE`. -/
def attributeIdValue : UInt32 := 13

/-- An array of a response: a data pointer and a size. The pointer may be null whatever the size
says. -/
inductive UA_Array (α : Type) where
  | null (size : Nat)
  | data (items : List α)
  deriving DecidableEq, Repr

/-- The size of an array. -/
def UA_Array.size {α : Type} : UA_Array α → Nat
  | .null size => size
  | .data items => items.length

/-- `UA_DataValue`. -/
structure UA_DataValue where
  value : UA_Variant
  status : UA_StatusCode
  deriving DecidableEq, Repr

/-- `UA_ReadResponse`. -/
structure UA_ReadResponse where
  serviceResult : UA_StatusCode
  results : UA_Array UA_DataValue
  deriving DecidableEq, Repr

/-- `UA_WriteResponse`. -/
structure UA_WriteResponse where
  serviceResult : UA_StatusCode
  results : UA_Array UA_StatusCode
  deriving DecidableEq, Repr

/-- The calls of `ISdk` on a client. -/
inductive SdkCall where
  | connectAsync (url : String)
  | disconnectAsync
  | runIterate (timeoutMs : UInt32)
  | getState
  | serviceRead (request : List UA_ReadValueId)
  | serviceWrite (request : List UA_WriteValue)
  deriving DecidableEq, Repr

/-- What a call returns; `getState` fills a triple. -/
@[reducible]
def SdkCall.Result : SdkCall → Type
  | .connectAsync _ => UA_StatusCode
  | .disconnectAsync => UA_StatusCode
  | .runIterate _ => UA_StatusCode
  | .getState => Triple
  | .serviceRead _ => UA_ReadResponse
  | .serviceWrite _ => UA_WriteResponse

/-- The callbacks that `applyConfiguration` registers. -/
inductive Callback where
  /-- `stateCallback`, with what it reports. -/
  | state (f : Triple)
  /-- `inactivityCallback`. -/
  | inactivity
  deriving DecidableEq, Repr

/-! ### Operations -/

/-- The atomic operations. -/
inductive ImplOp where
  | load (a : Atomic)
  /-- `unpackState(state_packed.load())`. -/
  | loadFields
  | store (a : Atomic) (v : a.Val)
  /-- `compare_exchange_weak`: may fail although the expected value is there. -/
  | casWeak (a : Atomic) (expected desired : a.Val)
  /-- `compare_exchange_strong`. -/
  | casStrong (a : Atomic) (expected desired : a.Val)
  | lock (m : Mutex)
  | unlock (m : Mutex)
  /-- The constructor of `InFlightGuard`. -/
  | taskInc
  /-- The destructor of `InFlightGuard`. -/
  | taskDec
  /-- `m_taskCv.wait_for`: whether the counter was zero in time. -/
  | taskWait (timeoutMs : Nat)
  /-- Read `m_impl`. -/
  | copyImpl
  /-- `m_impl.reset()`; the handle that it held. -/
  | resetImpl
  | readConfig
  | writeConfig (config : ClientConfig)
  | readEndpointUrl
  /-- `m_watchdogThread` is not null. -/
  | watchdogExists
  /-- It is not null and `joinable()`. -/
  | watchdogJoinable
  /-- Its id is that of the calling thread. -/
  | watchdogIsSelf
  /-- `make_unique<std::thread>(runWatchdog)`. -/
  | watchdogCreate
  | watchdogJoin
  | watchdogDetach
  /-- The watchdog thread starts. -/
  | watchdogBegin
  /-- The watchdog thread ends. -/
  | watchdogEnd
  /-- The SDK fires a callback. -/
  | callback (cb : Callback)
  /-- A call of `ISdk` starts; the callbacks that the SDK fires from inside it. -/
  | sdkCall (client : Handle) (c : SdkCall)
  /-- The call ends, with its result or an exception. -/
  | sdkReturn (client : Handle) (c : SdkCall)
  /-- `ISdk::getConfig`: whether the pointer is not null. -/
  | getConfig (client : Handle)
  /-- `ISdk::nowMs`. -/
  | nowMs
  /-- `steady_clock::now`, in milliseconds. -/
  | steadyNow
  | sleep (ms : Nat)
  /-- A `wait_for` with a predicate begins. -/
  | waitBegin (ms : UInt32)
  /-- It blocks until it is woken or the time is up (`true`). -/
  | waitBlock
  /-- An allocation of the SDK: whether it succeeded. -/
  | alloc
  /-- `UA_Variant_setScalarCopy`. -/
  | setScalarCopy (v : UA_Scalar)
  /-- An allocation of the standard library. -/
  | reserve
  /-- `UA_StatusCode_name`; nothing for a null or empty name. -/
  | statusCodeName (code : UA_StatusCode)

namespace ImplOp

/-- The responses to an operation. A failed compare-exchange yields the value it observed. -/
@[reducible]
def Resp : ImplOp → Type
  | .load a => a.Val
  | .loadFields => StateFields
  | .store _ _ => Unit
  | .casWeak a _ _ => Except a.Val Unit
  | .casStrong a _ _ => Except a.Val Unit
  | .lock _ => Unit
  | .unlock _ => Unit
  | .taskInc => Unit
  | .taskDec => Unit
  | .taskWait _ => Bool
  | .copyImpl => Option Handle
  | .resetImpl => Option Handle
  | .readConfig => ClientConfig
  | .writeConfig _ => Unit
  | .readEndpointUrl => String
  | .watchdogExists => Bool
  | .watchdogJoinable => Bool
  | .watchdogIsSelf => Bool
  | .watchdogCreate => Except Exn Unit
  | .watchdogJoin => Unit
  | .watchdogDetach => Unit
  | .watchdogBegin => Unit
  | .watchdogEnd => Unit
  | .callback _ => Unit
  | .sdkCall _ _ => List Callback
  | .sdkReturn _ c => Except Exn c.Result
  | .getConfig _ => Except Exn Bool
  | .nowMs => Except Exn Int
  | .steadyNow => Int
  | .sleep _ => Unit
  | .waitBegin _ => Unit
  | .waitBlock => Bool
  | .alloc => Bool
  | .setScalarCopy _ => UA_StatusCode
  | .reserve => Except Exn Unit
  | .statusCodeName _ => Option String

end ImplOp

/-- The signature of the operations of an `Impl`. -/
@[reducible]
def ImplSig : Sig := ⟨ImplOp, ImplOp.Resp⟩

/-- The code of the member functions. -/
abbrev Impl (α : Type) := Proc ImplSig Exn α

/-! ### The state -/

/-- The watchdog thread. -/
inductive Watchdog where
  | none
  | created
  | running (t : Tid)
  | finished
  | joined
  | detached
  deriving DecidableEq, Repr

namespace Watchdog

/-- The pointer is not null. -/
def «exists» : Watchdog → Bool
  | .none => false
  | _ => true

/-- `joinable()`. -/
def joinable : Watchdog → Bool
  | .created | .running _ | .finished => true
  | _ => false

end Watchdog

/-- The members of an `Impl`, with the initial values that its constructor gives them. -/
structure ImplState where
  impl : Option Handle
  endpointUrl : String
  config : ClientConfig
  connState : ConnState := .idle
  lifeState : LifeState := .running
  running : Bool := true
  shutdown : Bool := false
  connectionLost : Bool := false
  statePacked : BitVec 64 :=
    packState UA_StatusCode.badNotConnected UA_SecureChannelState.closed UA_SessionState.closed 0
  stop : Bool := false
  lastBadStatusMs : Int := 0
  taskCounter : Nat := 0
  watchdog : Watchdog := .none
  /-- The owner of `m_lock`. -/
  lockOwner : Option Tid := none
  /-- The owner of `m_sdkMutex`. -/
  sdkOwner : Option Tid := none
  /-- The owner of `m_BadStatusMsMx`. -/
  badStatusOwner : Option Tid := none
  deriving DecidableEq, Repr

namespace ImplState

/-- The constructor of `Impl`. -/
def construct (config : ClientConfig) (endpointUrl : String) (client : Handle) : ImplState :=
  { impl := some client, endpointUrl, config }

/-- The value of an atomic member. -/
def get (s : ImplState) : (a : Atomic) → a.Val
  | .connState => s.connState
  | .lifeState => s.lifeState
  | .running => s.running
  | .shutdown => s.shutdown
  | .connectionLost => s.connectionLost
  | .statePacked => s.statePacked
  | .stop => s.stop
  | .lastBadStatusMs => s.lastBadStatusMs

/-- Write an atomic member. -/
def set (s : ImplState) : (a : Atomic) → a.Val → ImplState
  | .connState, v => { s with connState := v }
  | .lifeState, v => { s with lifeState := v }
  | .running, v => { s with running := v }
  | .shutdown, v => { s with shutdown := v }
  | .connectionLost, v => { s with connectionLost := v }
  | .statePacked, v => { s with statePacked := v }
  | .stop, v => { s with stop := v }
  | .lastBadStatusMs, v => { s with lastBadStatusMs := v }

/-- The owner of a mutex. -/
def owner (s : ImplState) : Mutex → Option Tid
  | .lock => s.lockOwner
  | .sdkMutex => s.sdkOwner
  | .badStatusMsMx => s.badStatusOwner

/-- Set the owner of a mutex. -/
def setOwner (s : ImplState) (o : Option Tid) : Mutex → ImplState
  | .lock => { s with lockOwner := o }
  | .sdkMutex => { s with sdkOwner := o }
  | .badStatusMsMx => { s with badStatusOwner := o }

/-- The state, provided the condition holds. -/
def whenever (c : Prop) [Decidable c] (s : ImplState) : Option ImplState :=
  if c then some s else none

/-- A compare-exchange that ends with the response `r`; `spurious` says whether it may fail
although the expected value is there. -/
def cas (s : ImplState) (spurious : Bool) (a : Atomic) (expected desired : a.Val) :
    Except a.Val Unit → Option ImplState
  | .ok () => whenever (s.get a = expected) (s.set a desired)
  | .error observed => whenever (s.get a = observed ∧ (spurious ∨ observed ≠ expected)) s

/-- Thread `t` performs an operation that ends with the response `r`; `none` if it cannot. -/
def exec (t : Tid) : (o : ImplOp) → o.Resp → ImplState → Option ImplState
  | .load a, v, s => whenever (s.get a = v) s
  | .loadFields, f, s => whenever (unpackState s.statePacked = f) s
  | .store a v, _, s => some (s.set a v)
  | .casWeak a e d, r, s => s.cas true a e d r
  | .casStrong a e d, r, s => s.cas false a e d r
  | .lock m, _, s => whenever (s.owner m = none) (s.setOwner (some t) m)
  | .unlock m, _, s => whenever (s.owner m = some t) (s.setOwner none m)
  | .taskInc, _, s => some { s with taskCounter := s.taskCounter + 1 }
  | .taskDec, _, s => some { s with taskCounter := s.taskCounter - 1 }
  | .taskWait _, completed, s => whenever (completed = decide (s.taskCounter = 0)) s
  | .copyImpl, client, s => whenever (client = s.impl) s
  | .resetImpl, client, s => whenever (client = s.impl) { s with impl := none }
  | .readConfig, c, s => whenever (c = s.config) s
  | .writeConfig c, _, s => some { s with config := c }
  | .readEndpointUrl, url, s => whenever (url = s.endpointUrl) s
  | .watchdogExists, b, s => whenever (b = s.watchdog.exists) s
  | .watchdogJoinable, b, s => whenever (b = s.watchdog.joinable) s
  | .watchdogIsSelf, b, s => whenever (b = decide (s.watchdog = .running t)) s
  | .watchdogCreate, .ok (), s => some { s with watchdog := .created }
  | .watchdogCreate, .error _, s => some s
  | .watchdogJoin, _, s => whenever (s.watchdog = .finished) { s with watchdog := .joined }
  | .watchdogDetach, _, s => some { s with watchdog := .detached }
  | .watchdogBegin, _, s => whenever (s.watchdog = .created) { s with watchdog := .running t }
  | .watchdogEnd, _, s =>
      some (if s.watchdog = .running t then { s with watchdog := .finished } else s)
  | .callback _, _, s => some s
  | .sdkCall _ _, _, s => some s
  | .sdkReturn _ _, _, s => some s
  | .getConfig _, _, s => some s
  | .nowMs, _, s => some s
  | .steadyNow, _, s => some s
  | .sleep _, _, s => some s
  | .waitBegin _, _, s => some s
  | .waitBlock, _, s => some s
  | .alloc, _, s => some s
  | .setScalarCopy _, _, s => some s
  | .reserve, _, s => some s
  | .statusCodeName _, _, s => some s

/-! ### What the members say -/

/-- `getEffectiveStopSignal`, of a state. -/
def stopSignal (s : ImplState) : Bool :=
  (s.shutdown && !s.running) || s.lifeState == .givenUp

/-- `isHealthyCached`, of a state. -/
def isHealthy (s : ImplState) : Bool :=
  !s.connectionLost && (unpackState s.statePacked).triple.isReady

/-- An `Impl` that nobody shuts down: the flag is off and the client is there. -/
def IsOpen (s : ImplState) : Prop := s.shutdown = false ∧ s.impl.isSome = true

/-- RUNNING, although not healthy. -/
def IsStale (s : ImplState) : Prop := s.lifeState = .running ∧ s.isHealthy = false

instance (s : ImplState) : Decidable s.IsStale := inferInstanceAs (Decidable (_ ∧ _))

/-! ### What an operation changes -/

@[simp]
theorem whenever_eq_some {c : Prop} [Decidable c] {s s' : ImplState} :
    whenever c s = some s' ↔ c ∧ s = s' := by
  simp [whenever]

@[simp]
theorem get_set_self (s : ImplState) (a : Atomic) (v : a.Val) : (s.set a v).get a = v := by
  cases a <;> rfl

/-- Writing one member leaves the others. -/
theorem get_set_of_ne {a b : Atomic} (h : a ≠ b) (s : ImplState) (v : a.Val) :
    (s.set a v).get b = s.get b := by
  cases a <;> cases b <;> first | rfl | exact absurd rfl h

@[simp]
theorem get_setOwner (s : ImplState) (o : Option Tid) (m : Mutex) (a : Atomic) :
    (s.setOwner o m).get a = s.get a := by
  cases m <;> cases a <;> rfl

/-- A compare-exchange either finds the expected value and writes, or changes nothing. -/
theorem cas_eq_some {s s' : ImplState} {spurious : Bool} {a : Atomic} {expected desired : a.Val}
    {r : Except a.Val Unit} :
    s.cas spurious a expected desired r = some s' ↔
      (r = .ok () ∧ s.get a = expected ∧ s' = s.set a desired) ∨
      (r = .error (s.get a) ∧ (spurious = true ∨ s.get a ≠ expected) ∧ s' = s) := by
  rcases r with observed | u
  · simp only [cas, whenever_eq_some, reduceCtorEq, false_and, false_or, Except.error.injEq]
    constructor
    · rintro ⟨⟨rfl, h⟩, rfl⟩
      exact ⟨rfl, h, rfl⟩
    · rintro ⟨rfl, h, rfl⟩
      exact ⟨⟨rfl, h⟩, rfl⟩
  · simp only [cas, whenever_eq_some, reduceCtorEq, false_and, or_false, true_and]
    exact and_congr_right fun _ => eq_comm

end ImplState

/-- The operation may write an atomic member. -/
def ImplOp.Writes (a : Atomic) : ImplOp → Prop
  | .store b _ | .casWeak b _ _ | .casStrong b _ _ => b = a
  | _ => False

/-- The operation may change what `m_watchdogThread` is. -/
def ImplOp.Handles : ImplOp → Prop
  | .watchdogCreate | .watchdogJoin | .watchdogDetach | .watchdogBegin | .watchdogEnd => True
  | _ => False

namespace ImplState

/-- An operation changes no atomic member that it does not write. -/
theorem get_of_not_writes {t : Tid} {o : ImplOp} {r : o.Resp} {s s' : ImplState} {a : Atomic}
    (h : exec t o r s = some s') (hw : ¬o.Writes a) : s'.get a = s.get a := by
  cases o with
  | store b v =>
      cases h
      exact get_set_of_ne hw s v
  | casWeak b e d | casStrong b e d =>
      rcases cas_eq_some.mp h with ⟨-, -, rfl⟩ | ⟨-, -, rfl⟩
      · exact get_set_of_ne hw s d
      · rfl
  | watchdogCreate => rcases r with _ | _ <;> cases h <;> cases a <;> rfl
  | watchdogEnd =>
      simp only [exec, Option.some.injEq] at h
      subst h
      split <;> cases a <;> rfl
  | _ =>
      simp only [exec, whenever_eq_some, Option.some.injEq] at h
      obtain ⟨-, rfl⟩ := h
      first | exact get_setOwner _ _ _ _ | (cases a <;> rfl)

/-- The members that are not atomic are left alone by all operations but those that are for them. -/
structure Frame (o : ImplOp) (s s' : ImplState) : Prop where
  impl : o ≠ .resetImpl → s'.impl = s.impl
  config : (∀ config, o ≠ .writeConfig config) → s'.config = s.config
  watchdog : ¬o.Handles → s'.watchdog = s.watchdog
  taskCounter : o ≠ .taskInc → o ≠ .taskDec → s'.taskCounter = s.taskCounter

/-- So does every operation. -/
theorem frame_of_exec {t : Tid} {o : ImplOp} {r : o.Resp} {s s' : ImplState}
    (h : exec t o r s = some s') : Frame o s s' := by
  have hset : ∀ a v, Frame o s (s.set a v) := fun a v => by
    constructor <;> intros <;> cases a <;> rfl
  have howner : ∀ owner m, Frame o s (s.setOwner owner m) := fun owner m => by
    constructor <;> intros <;> cases m <;> rfl
  have hsame : Frame o s s := ⟨fun _ => rfl, fun _ => rfl, fun _ => rfl, fun _ _ => rfl⟩
  cases o with
  | store a v =>
      cases h
      exact hset a v
  | casWeak a e d | casStrong a e d =>
      rcases cas_eq_some.mp h with ⟨-, -, rfl⟩ | ⟨-, -, rfl⟩
      · exact hset a d
      · exact hsame
  | lock m | unlock m =>
      obtain ⟨-, rfl⟩ := whenever_eq_some.mp h
      exact howner _ m
  | taskInc =>
      cases h
      exact ⟨fun _ => rfl, fun _ => rfl, fun _ => rfl, fun hinc => absurd rfl hinc⟩
  | taskDec =>
      cases h
      exact ⟨fun _ => rfl, fun _ => rfl, fun _ => rfl, fun _ hdec => absurd rfl hdec⟩
  | resetImpl =>
      obtain ⟨-, rfl⟩ := whenever_eq_some.mp h
      exact ⟨fun hreset => absurd rfl hreset, fun _ => rfl, fun _ => rfl, fun _ _ => rfl⟩
  | writeConfig config =>
      cases h
      exact ⟨fun _ => rfl, fun hwrite => absurd rfl (hwrite config), fun _ => rfl, fun _ _ => rfl⟩
  | watchdogCreate =>
      rcases r with e | u <;> cases h
      · exact hsame
      · exact ⟨fun _ => rfl, fun _ => rfl, fun hhandles => absurd trivial hhandles, fun _ _ => rfl⟩
  | watchdogJoin | watchdogBegin =>
      obtain ⟨-, rfl⟩ := whenever_eq_some.mp h
      exact ⟨fun _ => rfl, fun _ => rfl, fun hhandles => absurd trivial hhandles, fun _ _ => rfl⟩
  | watchdogDetach =>
      cases h
      exact ⟨fun _ => rfl, fun _ => rfl, fun hhandles => absurd trivial hhandles, fun _ _ => rfl⟩
  | watchdogEnd =>
      simp only [exec, Option.some.injEq] at h
      subst h
      split
      · exact ⟨fun _ => rfl, fun _ => rfl, fun hhandles => absurd trivial hhandles, fun _ _ => rfl⟩
      · exact hsame
  -- the others only look, or ask the SDK, the clocks and the allocator
  | _ =>
      simp only [exec, whenever_eq_some, Option.some.injEq] at h
      obtain ⟨-, rfl⟩ := h
      exact hsame

end ImplState

end OPCUAPacking
