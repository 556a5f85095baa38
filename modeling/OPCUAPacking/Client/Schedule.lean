import OPCUAPacking.Client.Api
import OPCUAPacking.Impl.Schedule

/-!
# Playing schedules of a client

Concrete answers to the operations of an `OPC_UA_Client`, for playing a schedule: the members answer
what they hold, and the `Environment` of the `Impl`s says what the SDK, the clocks and the
allocators answer.
-/

namespace OPCUAPacking

open Interleaving

/-- What thread `t` is answered in a state. The only other `Impl` of a schedule is number 1, with
client 2. -/
def Environment.clientAnswer (env : Environment) (t : Tid) : Oracle ClientSig ClientState
  | .leaseAcquire, s => s.leaseReason
  | .leaseRelease, _ => ()
  | .recreateEnter, s => s.entry
  | .recreateDrain _, s => decide (s.inFlight = 0)
  | .guardConstruct, _ => ()
  | .guardReset, _ => ()
  | .guardDestroy, _ => ()
  | .shutdownEnter, s => s.entry
  | .shutdownLeave, _ => ()
  | .terminate, s => s.isSettled
  | .destructorWait, _ => ()
  | .pImplCopy, s => s.pImpl
  | .pImplTake, s => s.pImpl
  | .pImplAdopt _, s => if s.terminated then .terminated else .replaced s.pImpl
  | .pImplLifeState, s => s.current.map (·.lifeState)
  | .pImplConfig, s => s.current.map (·.config)
  | .pImplExists, s => s.pImpl.isSome
  | .allocate, _ => .ok ()
  | .clientNew, _ => .ok (some 2)
  | .clientDelete _, _ => ()
  | .implConstruct _ _, _ => 1
  | .retain _, _ => ()
  | .lockSelf i, s => decide (s.refs i ≠ 0)
  | .release i, s => decide (s.refs i = 1)
  | .shutdownBegin _ _, _ => ()
  | .impl i o, s => env.answer t o ((s.impls i).getD .connected)

/-- Thread `t` moves `n` times. -/
def Environment.clientMoves (env : Environment) (t : Tid) (n : Nat) :
    List (Tid × Oracle ClientSig ClientState) :=
  List.replicate n (t, env.clientAnswer t)

namespace ClientPool

/-- The calls of finitely many threads, from thread 0 on. -/
def callsOf (cs : List (List ClientCall)) (t : Tid) : List ClientCall := cs[t]?.getD []

/-- Play a schedule whose steps meet a condition, from the start of the calls. -/
def runIf (ok : Traced ClientSig ClientState → Event ClientSig → Prop) [∀ s e, Decidable (ok s e)]
    (cs : List (List ClientCall)) (s : ImplState)
    (sched : List (Tid × Oracle ClientSig ClientState)) : Option ClientPool :=
  (start (callsOf cs) (.start "opc.tcp://plc:4840" s)).playIf ok ClientState.exec sched

/-- Play a schedule from the start of the calls. -/
abbrev run (cs : List (List ClientCall)) (s : ImplState)
    (sched : List (Tid × Oracle ClientSig ClientState)) : Option ClientPool :=
  runIf (fun _ _ => True) cs s sched

end ClientPool

end OPCUAPacking
