import OPCUAPacking.Client.Members
import OPCUAPacking.Interleaving.Handlers

/-!
# What holds of every call

A property of programs that follows from their parts holds of the public functions, of the
destructor and of the watchdog threads when it holds of their operations and of the functions of an
`Impl` that they run.

* `Client.Parts K` — the operations that several calls share, and the functions of an `Impl`.
* `Client.Parts.recreateGiveUpClient` — recreating a client, from the operations of its own.
* `Client.Parts.run` — every call.
* `Chained`, `Client.follows_runAll` — the calls of a thread, each from where the one before has
  left it.
-/

namespace OPCUAPacking

open Interleaving

namespace ClientOp

/-- The operations of the calls other than `recreateGiveUpClient`. -/
def Common : ClientOp → Prop
  | .leaseAcquire | .leaseRelease | .shutdownEnter | .shutdownLeave => True
  | .terminate | .destructorWait | .pImplCopy | .pImplTake => True
  | .clientDelete _ | .lockSelf _ | .release _ | .shutdownBegin _ _ => True
  | _ => False

/-- The operations of `recreateGiveUpClient` alone. -/
def Recreates : ClientOp → Prop
  | .recreateEnter | .recreateDrain _ => True
  | .guardConstruct | .guardReset | .guardDestroy => True
  | .pImplAdopt _ | .pImplLifeState | .pImplConfig | .pImplExists => True
  | .allocate | .clientNew | .implConstruct _ _ | .retain _ => True
  | _ => False

end ClientOp

namespace Client

/-- The property follows from the parts of a program, and holds of the operations that several calls
share and of the functions of an `Impl` that they run, but for `batchWrite`. -/
structure Parts (K : (α : Type) → Client α → Prop) : Prop extends Proc.Closed K where
  common : ∀ o : ClientOp, o.Common → K o.Resp (perform o)
  member : ∀ i, Impl.Members fun _ p => K _ (onImpl i p)
  shutdown : ∀ i, K _ (onImpl i Impl.shutdown)
  destroy : ∀ i, K _ (onImpl i Impl.destroy)
  watchdogBegin : ∀ i, K _ (onImpl i (Impl.perform .watchdogBegin))
  watchdogEnd : ∀ i, K _ (onImpl i (Impl.perform .watchdogEnd))

namespace Parts

variable {K : (α : Type) → Client α → Prop} (hK : Parts K) {α : Type}

include hK

theorem orThrow (r : Except Exn α) : K _ (orThrow r) := by
  cases r with
  | ok a => exact hK.pure a
  | error e => exact hK.throw e

theorem deleteClient (client : Option Handle) : K _ (deleteClient client) := by
  cases client with
  | none => exact hK.pure ()
  | some client => exact hK.common (.clientDelete client) trivial

theorem drop (i : ImplId) : K _ (drop i) :=
  hK.bind (hK.common (.release i) trivial) fun _ =>
    hK.when (hK.bind (hK.destroy i) fun _ => hK.deleteClient _)

theorem catching {systemText : String} {p : Client (Result α RichError)} (hp : K _ p) :
    K _ (catching systemText p) := by
  refine hK.bind (hK.attempt hp) fun r => ?_
  cases r <;> exact hK.pure _

/-- A public function under a lease. -/
theorem call (refusals : Refusals) {body : Impl (Result α RichError)}
    (hbody : ∀ i, K _ (onImpl i body)) : K _ (call refusals body) := by
  have hcurrent : K _ (onCurrent refusals body) := by
    refine hK.bind (hK.common .pImplCopy trivial) fun i => ?_
    cases i with
    | none => exact hK.pure _
    | some i => exact hK.bind (hbody i) fun _ => hK.pure _
  have hleased : K _ (leased refusals body) := by
    refine hK.bind (hK.common .leaseAcquire trivial) fun reason => ?_
    cases reason with
    | recreating | terminated => exact hK.pure _
    | active => exact hK.ensuring (hK.common .leaseRelease trivial) hcurrent
  refine hK.bind hleased fun r => hK.bind ?_ fun _ => hK.pure _
  cases r.1 with
  | none => exact hK.pure ()
  | some i => exact hK.drop i

theorem shutdownImpl (i : ImplId) (caller : ShutdownCaller) : K _ (shutdownImpl i caller) :=
  hK.bind (hK.common (.shutdownBegin i caller) trivial) fun _ => hK.shutdown i

theorem shutdownInternal : K _ shutdownInternal := by
  refine hK.bind (hK.common .pImplTake trivial) fun doomed => ?_
  cases doomed with
  | none => exact hK.pure _
  | some i =>
      exact hK.bind (hK.shutdownImpl i .internal) fun _ => hK.bind (hK.drop i) fun _ => hK.pure _

/-- `OPC_UA_Client::shutdown`. -/
theorem shutdownCall : K _ Client.shutdown := by
  refine hK.bind (hK.common .shutdownEnter trivial) fun entry => ?_
  cases entry with
  | recreating | terminated => exact hK.pure _
  | won => exact hK.ensuring (hK.common .shutdownLeave trivial) (hK.catching hK.shutdownInternal)

theorem destructor : K _ destructor :=
  hK.bind (hK.common .terminate trivial) fun _ =>
    hK.bind (hK.when (hK.common .destructorWait trivial)) fun _ =>
      hK.bind (hK.attempt hK.shutdownInternal) fun _ => hK.pure _

theorem watchdogThread (i : ImplId) : K _ (watchdogThread i) :=
  hK.bind (hK.watchdogBegin i) fun _ => hK.bind (hK.member i).nowMs fun _ =>
    hK.bind (hK.common (.lockSelf i) trivial) fun _ => hK.bind (hK.when (hK.throw _)) fun _ =>
      hK.bind ((hK.member i).watchdogRounds _) fun _ => hK.bind (hK.drop i) fun _ =>
        hK.watchdogEnd i

/-! ### recreateGiveUpClient -/

section Recreate

variable (hop : ∀ o : ClientOp, o.Recreates → K o.Resp (perform o))

include hop

theorem adopt (i : ImplId) : K _ (adopt i) := by
  refine hK.bind (hop (.pImplAdopt i) trivial) fun adoption => ?_
  have hreset : K _ (do perform .guardReset; pure (true, .ok ()) :
      Client (Bool × Result Unit RichError)) :=
    hK.bind (hop .guardReset trivial) fun _ => hK.pure _
  cases adoption with
  | terminated => exact hK.pure _
  | replaced old =>
      cases old with
      | none => exact hreset
      | some j =>
          exact hK.bind (hK.shutdownImpl j .replaced) fun _ => hK.bind (hK.drop j) fun _ => hreset

theorem allocateOwning (client : Option Handle) : K _ (allocateOwning client) := by
  refine hK.bind (hop .allocate trivial) fun r => ?_
  cases r with
  | ok u => exact hK.pure _
  | error e => exact hK.bind (hK.deleteClient client) fun _ => hK.throw e

variable (hconfigure : ∀ i, K _ (onImpl i (Impl.configureClient true)))
  (hstart : ∀ i, K _ (onImpl i Impl.startWatchdog))

include hconfigure hstart

theorem bringUp (i : ImplId) : K _ (bringUp i) := by
  refine hK.bind (hconfigure i) fun r => ?_
  rcases r with e | u
  · exact hK.pure _
  refine hK.bind (hK.member i).connect fun r => ?_
  rcases r with e | u
  · exact hK.pure _
  refine hK.bind (hstart i) fun r => ?_
  rcases r with e | u
  · exact hK.pure _
  · exact hK.adopt hop i

theorem candidateScope (i : ImplId) : K _ (candidateScope i) := by
  refine hK.bind (hop (.retain i) trivial) fun _ =>
    hK.bind (hK.attempt (hK.bringUp hop hconfigure hstart i)) fun r =>
      hK.bind (hK.when (hK.shutdownImpl i .candidate)) fun _ => hK.bind (hK.drop i) fun _ =>
        hK.bind (hK.drop i) fun _ => ?_
  cases r with
  | ok a => exact hK.pure _
  | error e => exact hK.throw e

theorem recreateWith (config : ClientConfig) : K _ (recreateWith config) := by
  refine hK.bind (hop .allocate trivial) fun r => hK.bind (hK.orThrow r) fun _ =>
    hK.bind (hop .clientNew trivial) fun r => hK.bind (hK.orThrow r) fun client =>
      hK.bind (hK.allocateOwning hop client) fun _ => ?_
  cases client with
  | none => exact hK.pure _
  | some handle =>
      exact hK.bind (hK.allocateOwning hop _) fun _ =>
        hK.bind (hop (.implConstruct config handle) trivial) fun i =>
          hK.candidateScope hop hconfigure hstart i

/-- `OPC_UA_Client::recreateGiveUpClient`. -/
theorem recreateGiveUpClient : K _ Client.recreateGiveUpClient := by
  have hguarded : K _ recreateGuarded :=
    hK.bind (hop (.recreateDrain 2000) trivial) fun _ => Proc.Composed.ite (hK.pure _) <|
      hK.bind (hop .pImplLifeState trivial) fun _ => Proc.Composed.ite (hK.pure _) <|
        hK.bind (hop .pImplConfig trivial) fun _ => hK.bind (hop .pImplExists trivial) fun _ =>
          Proc.Composed.ite (hK.pure _)
            (hK.catching (hK.recreateWith hop hconfigure hstart _))
  refine hK.bind (hop .recreateEnter trivial) fun entry => ?_
  cases entry with
  | recreating | terminated => exact hK.pure _
  | won =>
      exact hK.bind (hop .guardConstruct trivial) fun _ =>
        hK.ensuring (hop .guardDestroy trivial) hguarded

end Recreate

/-! ### Every call -/

/-- What a call returns is wrapped. -/
theorem replying {wrap : α → ClientReply} {p : Client α} (hp : K _ p) : K _ (replying wrap p) :=
  hK.bind hp fun _ => hK.pure _

/-- Every call, from the two that need operations of their own. -/
theorem run (c : ClientCall) (hwrite : ∀ nodes, c = .batchWrite nodes → K _ (batchWrite nodes))
    (hrecreate : c = .recreateGiveUpClient → K _ Client.recreateGiveUpClient) : K _ c.run := by
  have hcall : ∀ {β : Type} {wrap : Result β RichError → ClientReply} (refusals : Refusals)
      {body : Impl (Result β RichError)}, (∀ i, K _ (onImpl i body)) →
      K _ (Client.replying wrap (Client.call refusals body)) := fun refusals _ hbody =>
    hK.replying (hK.call refusals hbody)
  cases c with
  | connect => exact hcall _ fun i => (hK.member i).apiConnect
  | disconnect => exact hcall _ fun i => (hK.member i).apiDisconnect
  | checkConnected => exact hcall _ fun i => (hK.member i).checkConnected
  | isHealthy => exact hcall _ fun i => (hK.member i).isHealthy
  | checkLifeState => exact hcall _ fun i => (hK.member i).checkLifeState
  | setGiveUpSignal => exact hcall _ fun i => (hK.member i).setGiveUpSignal
  | batchRead nodes => exact hcall _ fun i => (hK.member i).batchRead nodes
  | batchWrite nodes => exact hK.replying (hwrite nodes rfl)
  | recreateGiveUpClient => exact hK.replying (hrecreate rfl)
  | shutdown => exact hK.replying hK.shutdownCall
  | destructor => exact hK.replying hK.destructor
  | watchdog i => exact hK.replying (hK.watchdogThread i)

/-- A list of calls, from the calls. -/
theorem runAll (cs : List ClientCall) (hcs : ∀ c ∈ cs, K _ c.run) :
    K _ (ClientCall.runAll cs) := by
  induction cs with
  | nil => exact hK.pure _
  | cons c cs ih =>
      obtain ⟨hc, hrest⟩ := List.forall_mem_cons.mp hcs
      exact hK.bind hc fun _ => hK.bind (ih hrest) fun _ => hK.pure _

end Parts

end Client

/-- One operation of an `Impl`, then the rest of a function of the same. -/
theorem Client.follows_onImpl_perform {L β : Type} {cond : L → (o : ClientOp) → o.Resp → Prop}
    {track : Event.Track ClientSig L} {start : Tid → L} {t : Tid} {ℓ : L} {i : ImplId} {o : ImplOp}
    {f : o.Resp → Impl β} {Q : Except Exn β → L → Prop}
    (h : ∀ es r, cond ℓ (.impl i o) r ∧
      (Protocol.recorded ClientState.exec cond track start).Follows t (onImpl i (f r)) Q
        (track es ℓ (.impl i o) r)) :
    (Protocol.recorded ClientState.exec cond track start).Follows t
      (onImpl i (Impl.perform o >>= f : Impl β)) Q ℓ :=
  Protocol.follows_recorded_op h

/-! ### One call after the other -/

/-- Each call returns what it may from where the one before has left the thread. -/
inductive Chained {L : Type} (Post : ClientCall → L → ClientReply → L → Prop) :
    List ClientCall → L → List ClientReply → L → Prop where
  | nil {ℓ : L} : Chained Post [] ℓ [] ℓ
  | cons {c : ClientCall} {cs : List ClientCall} {reply : ClientReply} {replies : List ClientReply}
      {ℓ ℓ' ℓ'' : L} : Post c ℓ reply ℓ' → Chained Post cs ℓ' replies ℓ'' →
        Chained Post (c :: cs) ℓ (reply :: replies) ℓ''

/-- The calls of a thread are chained when each of them may follow where `I` holds, and leaves it
so. -/
theorem Client.follows_runAll {σ L : Type} {P : Protocol ClientSig σ L} {t : Tid}
    {Post : ClientCall → L → ClientReply → L → Prop} {I : List ClientCall → L → Prop}
    (hrun : ∀ c cs ℓ, I (c :: cs) ℓ →
      P.Follows t c.run (fun r ℓ' => ∀ reply, r = .ok reply → Post c ℓ reply ℓ' ∧ I cs ℓ') ℓ)
    (cs : List ClientCall) {ℓ : L} (hI : I cs ℓ) :
    P.Follows t (ClientCall.runAll cs)
      (fun r ℓ' => ∀ replies, r = .ok replies → Chained Post cs ℓ replies ℓ') ℓ := by
  induction cs generalizing ℓ with
  | nil =>
      rintro _ ⟨⟩
      exact .nil
  | cons c cs ih =>
      refine Protocol.Follows.bind _ (hrun c cs ℓ hI) ?_ (by rintro x ℓ' - _ ⟨⟩)
      intro reply ℓ' h
      obtain ⟨hpost, hI'⟩ := h reply rfl
      refine Protocol.Follows.bind _ (ih hI') ?_ (by rintro x ℓ'' - _ ⟨⟩)
      rintro replies ℓ'' h _ ⟨⟩
      exact .cons hpost (h replies rfl)

end OPCUAPacking
