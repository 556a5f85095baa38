import OPCUAPacking.Impl.Calls

/-!
# Playing schedules

Concrete answers to the operations of an `Impl`, for playing a schedule: the members answer what
they hold, and an `Environment` says what the SDK, the clocks and the allocator answer.
-/

namespace OPCUAPacking

open Interleaving

/-- What the SDK, the clocks and the allocator answer. -/
structure Environment where
  /-- The callbacks that a call fires. -/
  callbacks : SdkCall → List Callback := fun _ => []
  /-- What a call that returns a status answers. -/
  status : SdkCall → UA_StatusCode := fun _ => UA_StatusCode.good
  /-- What `getState` reports. -/
  state : Triple := ⟨UA_StatusCode.good, .open, .activated⟩
  /-- The results of a read. -/
  readResults : UA_Array UA_DataValue := .null 0
  /-- The results of a write. -/
  writeResults : UA_Array UA_StatusCode := .null 0
  /-- The two clocks. -/
  now : Int := 0
  /-- A wait ends because the time is up. -/
  expired : Bool := true

namespace Environment

/-- What an SDK call returns. -/
def result (env : Environment) : (c : SdkCall) → c.Result
  | .connectAsync url => env.status (.connectAsync url)
  | .disconnectAsync => env.status .disconnectAsync
  | .runIterate ms => env.status (.runIterate ms)
  | .getState => env.state
  | .serviceRead request => ⟨env.status (.serviceRead request), env.readResults⟩
  | .serviceWrite request => ⟨env.status (.serviceWrite request), env.writeResults⟩

/-- What thread `t` is answered in a state. -/
def answer (env : Environment) (t : Tid) : Oracle ImplSig ImplState
  | .load a, s => s.get a
  | .loadFields, s => unpackState s.statePacked
  | .store _ _, _ => ()
  | .casWeak a e _, s => if s.get a = e then .ok () else .error (s.get a)
  | .casStrong a e _, s => if s.get a = e then .ok () else .error (s.get a)
  | .lock _, _ => ()
  | .unlock _, _ => ()
  | .taskInc, _ => ()
  | .taskDec, _ => ()
  | .taskWait _, s => decide (s.taskCounter = 0)
  | .copyImpl, s => s.impl
  | .resetImpl, s => s.impl
  | .readConfig, s => s.config
  | .writeConfig _, _ => ()
  | .readEndpointUrl, s => s.endpointUrl
  | .watchdogExists, s => s.watchdog.exists
  | .watchdogJoinable, s => s.watchdog.joinable
  | .watchdogIsSelf, s => decide (s.watchdog = .running t)
  | .watchdogCreate, _ => .ok ()
  | .watchdogJoin, _ => ()
  | .watchdogDetach, _ => ()
  | .watchdogBegin, _ => ()
  | .watchdogEnd, _ => ()
  | .callback _, _ => ()
  | .sdkCall _ c, _ => env.callbacks c
  | .sdkReturn _ c, _ => .ok (env.result c)
  | .getConfig _, _ => .ok true
  | .nowMs, _ => .ok env.now
  | .steadyNow, _ => env.now
  | .sleep _, _ => ()
  | .waitBegin _, _ => ()
  | .waitBlock, _ => env.expired
  | .alloc, _ => true
  | .setScalarCopy _, _ => UA_StatusCode.good
  | .reserve, _ => .ok ()
  | .statusCodeName _, _ => none

/-- Thread `t` moves `n` times. -/
def moves (env : Environment) (t : Tid) (n : Nat) : List (Tid × Oracle ImplSig ImplState) :=
  List.replicate n (t, env.answer t)

end Environment

/-- Every move of `env.moves t n` is one of thread `t`. -/
theorem Environment.mem_moves {env : Environment} {t : Tid} {n : Nat}
    {m : Tid × Oracle ImplSig ImplState} (h : m ∈ env.moves t n) : m.1 = t := by
  rw [(List.mem_replicate.mp h).2]

/-- An `Impl` that has found its client healthy. -/
def ImplState.connected : ImplState :=
  { construct {} "opc.tcp://plc:4840" 1 with
    statePacked := (Triple.mk UA_StatusCode.good .open .activated).pack 1 }

/-- It runs with the local profile. -/
def ImplState.connectedLocal : ImplState :=
  { connected with config := ({} : ClientConfig).applyProfile .local }

/-- The calls of finitely many threads, from thread 0 on. -/
def callsOf (cs : List ImplCall) (t : Tid) : Option ImplCall := cs[t]?

/-- What holds of all calls of a list holds of the threads that run them. -/
theorem of_callsOf {P : ImplCall → Prop} {cs : List ImplCall} (h : ∀ call ∈ cs, P call) (t : Tid)
    (call : ImplCall) (hcall : callsOf cs t = some call) : P call :=
  h call (List.mem_of_getElem? hcall)

namespace ImplPool

/-- Play a schedule whose steps meet a condition, from the start of the calls. -/
def runIf (ok : Traced ImplSig ImplState → Event ImplSig → Prop) [∀ s e, Decidable (ok s e)]
    (cs : List ImplCall) (s : ImplState) (sched : List (Tid × Oracle ImplSig ImplState)) :
    Option ImplPool :=
  (start (callsOf cs) s).playIf ok ImplState.exec sched

/-- Play a schedule from the start of the calls. -/
def run (cs : List ImplCall) (s : ImplState) (sched : List (Tid × Oracle ImplSig ImplState)) :
    Option ImplPool :=
  runIf (fun _ _ => True) cs s sched

/-- After a schedule of threads that all have a call and have all returned, every thread has. -/
theorem quiescent_of_runIf {ok : Traced ImplSig ImplState → Event ImplSig → Prop}
    [∀ s e, Decidable (ok s e)] {cs : List ImplCall} {s : ImplState}
    {sched : List (Tid × Oracle ImplSig ImplState)} {d : ImplPool}
    (h : runIf ok cs s sched = some d) (hsched : ∀ m ∈ sched, m.1 < cs.length)
    (hret : ∀ t < cs.length, ∃ a, d.Returned t a) : d.Quiescent := by
  intro t
  by_cases ht : t < cs.length
  · exact hret t ht
  · refine ⟨.ok .unit, ?_⟩
    have hne : ∀ m ∈ sched, t ≠ m.1 := fun m hm heq => ht (heq ▸ hsched m hm)
    have hnone : callsOf cs t = none := List.getElem?_eq_none (Nat.not_lt.mp ht)
    change d.pool t = _
    rw [Config.pool_of_play h hne]
    change ImplCall.thread (callsOf cs t) = _
    rw [hnone]
    rfl

end ImplPool

end OPCUAPacking
