import OPCUAPacking.Client.Api
import OPCUAPacking.Impl.Calls

/-!
# The member functions that a client runs

The functions of an `Impl` that `OPC_UA_Client` and its watchdog threads run.

* `Impl.Members K` — the property `K` of programs holds of those that neither write to the server
  nor bring the `Impl` up or take it down.
* `Impl.members_of_blocks`, `Impl.members_of_ops` — it does when it follows from the parts of a
  program and holds of the operations.
* `Impl.Polling.configureClient`, `Impl.Polling.startWatchdog`, `Impl.Blocks.destroy` — the others,
  in the same way.
-/

namespace OPCUAPacking

open Interleaving

/-- The operations by which `configureClient` writes what the constructor has written before. -/
def ImplOp.Configures : ImplOp → Prop
  | .writeConfig _ => True
  | .store .connState v => v = .idle
  | .store .lifeState v => v = .running
  | .store .running v => v = true
  | .store .shutdown v | .store .connectionLost v => v = false
  | _ => False

/-- The operations of an `Impl` at work: its client, its configuration and its watchdog thread stay,
GIVEN_UP is not left, and `m_stop` is not set. -/
def ImplOp.Calm : ImplOp → Prop
  | .resetImpl | .watchdogCreate | .watchdogJoin | .watchdogDetach => False
  | .watchdogBegin | .watchdogEnd | .writeConfig _ => False
  | .store .stop _ | .casWeak .stop _ _ | .casStrong .stop _ _ => False
  | .store .lifeState _ => False
  | .casWeak .lifeState e _ | .casStrong .lifeState e _ => e ≠ .givenUp
  | _ => True

/-- The operation is part of a call of `serviceWrite`. -/
def ImplOp.Sends : ImplOp → Prop
  | .sdkCall _ (.serviceWrite _) | .sdkReturn _ (.serviceWrite _) => True
  | _ => False

namespace ImplOp

variable {o : ImplOp}

theorem Quiet.calm (h : o.Quiet) : o.Calm := by
  cases o with
  | store a v => cases a <;> trivial
  | casWeak a e d | casStrong a e d => exact h.elim
  | _ => trivial

theorem LifeWrite.calm (h : o.LifeWrite) : o.Calm := by
  cases o with
  | store a v | casWeak a e d | casStrong a e d => cases a <;> first | exact h | exact h.elim
  | _ => exact h.elim

theorem WordWrite.calm (h : o.WordWrite) : o.Calm := by
  cases o with
  | store a v => exact h.elim
  | casWeak a e d | casStrong a e d => cases a <;> first | exact h.elim | trivial
  | _ => first | exact h.elim | trivial

theorem InFlight.calm (h : o.InFlight) : o.Calm := by
  cases o with
  | store a v | casStrong a e d => cases a <;> first | exact h.elim | trivial
  | casWeak a e d => exact h.elim
  | _ => first | exact h.elim | trivial

theorem Quiet.not_sends (h : o.Quiet) : ¬o.Sends := by
  cases o with
  | sdkCall client c | sdkReturn client c => cases c <;> first | exact id | cases h
  | _ => exact id

theorem Connecting.not_sends (h : o.Connecting) : ¬o.Sends := by
  cases o with
  | sdkCall client c | sdkReturn client c => cases c <;> first | exact id | cases h
  | _ => exact id

end ImplOp

namespace Impl

/-- The property holds of the member functions that a client runs on an `Impl` at work. -/
structure Members (K : (α : Type) → Impl α → Prop) : Prop where
  apiConnect : K _ Api.connect
  apiDisconnect : K _ Api.disconnect
  checkConnected : K _ Api.checkConnected
  isHealthy : K _ Api.isHealthy
  checkLifeState : K (Result LifeState RichError) (do
    let life ← load .lifeState
    pure (.ok life))
  setGiveUpSignal : K _ (Api.catching setGiveUpSignal)
  batchRead : ∀ nodes, K _ (Client.catchingBatch (batchRead nodes))
  connect : K _ connect
  nowMs : K _ nowMs
  watchdogRounds : ∀ l, K _ (Proc.loop l watchdogRound)

section Members

variable {K : (α : Type) → Impl α → Prop}

/-! ### Bringing up and taking down -/

/-- `configureClient`, from the repair of the configuration and the operations that reset the
state. -/
theorem Polling.configureClient_of_default (hB : Polling K) (hK : @Proc.Closed ImplSig Exn K)
    {useDefault : Bool} (hdefault : K _ (applyDefault useDefault))
    (hset : ∀ a : Atomic, ∀ v, (ImplOp.store a v).Configures → K _ (perform (.store a v))) :
    K _ (configureClient useDefault) := by
  have hgetConfig : ∀ {β : Type} (client : Handle) {f : Bool → Impl β}, (∀ found, K β (f found)) →
      K β (do let r ← perform (.getConfig client); let found ← orThrow r; f found) :=
    fun client _ hf => hK.bind (hB.quiet (.getConfig client) trivial) fun r =>
      hK.bind (closed_orThrow hK r) hf
  refine hB.andThen ?_ fun client => hgetConfig client fun found => Proc.Composed.ite (hK.pure _)
    (hB.andThen hdefault fun _ => hK.bind ?_ fun _ => hK.pure _)
  · refine hK.bind (hB.quiet .copyImpl trivial) fun impl => ?_
    cases impl with
    | none => exact hK.pure _
    | some client =>
        refine hK.bind (hB.quiet .watchdogExists trivial) fun started =>
          Proc.Composed.ite (hK.pure _) (hgetConfig client fun found =>
            Proc.Composed.ite (hK.pure _) (hK.bind (hB.quiet .readConfig trivial) fun config => ?_))
        cases config.check with
        | none => exact hK.pure _
        | some msg => exact Proc.Composed.ite (hK.pure _) (hK.pure _)
  · exact hK.bind (hset .connState .idle rfl) fun _ =>
      hK.bind (hset .lifeState .running rfl) fun _ =>
        hK.bind (hset .running true rfl) fun _ =>
          hK.bind (hset .shutdown false rfl) fun _ =>
            hK.bind (hset .connectionLost false rfl) fun _ =>
              hK.bind (hB.isConnected 50) fun _ => hK.pure _

/-- `configureClient`, from the operations that configure. -/
theorem Polling.configureClient (hB : Polling K) (hK : @Proc.Closed ImplSig Exn K)
    (hset : ∀ o : ImplOp, o.Configures → K o.Resp (perform o)) (useDefault : Bool) :
    K _ (configureClient useDefault) := by
  refine hB.configureClient_of_default hK (Proc.Composed.ite ?_ (hK.pure _))
    fun a v => hset (.store a v)
  refine hK.bind (hB.quiet .readConfig trivial) fun config =>
    hK.bind (hset (.writeConfig _) trivial) fun _ => ?_
  cases config.applyDefaultIfInvalid.2 <;> exact hK.pure _

/-- `startWatchdog`, from the creation of the thread. -/
theorem Polling.startWatchdog (hB : Polling K) (hK : @Proc.Closed ImplSig Exn K)
    (hrunning : K _ (perform (.store .running true))) (hcreate : K _ (perform .watchdogCreate)) :
    K _ startWatchdog :=
  hK.bind (hB.quiet .watchdogJoinable trivial) fun _ => Proc.Composed.ite (hK.pure _)
    (hK.bind hrunning fun _ => hK.bind hcreate fun r =>
      hK.bind (closed_orThrow hK r) fun _ => hK.pure _)

/-- The destructor, from the operations that stop an `Impl`. -/
theorem Blocks.destroy (hB : Blocks K) (hops : ∀ o : ImplOp, o.Lifecycle → K o.Resp (perform o))
    (hreset : K _ (perform .resetImpl)) : K _ destroy :=
  hB.bind (hB.load .stop) fun _ => hB.bind (hB.when (hB.shutdown hops)) fun _ =>
    hB.bind (hops (.store .shutdown true) rfl) fun _ =>
      hB.bind (hops (.store .running false) rfl) fun _ =>
        hB.bind (hB.quiet .watchdogExists trivial) fun _ =>
          hB.bind (hB.when (hB.joinWatchdog (hops .watchdogDetach trivial)
            (hops .watchdogJoin trivial))) fun _ => hB.withLock .lock hreset

/-! ### At work -/

/-- The handlers of a batch function. -/
theorem closed_catchingBatch (hK : @Proc.Closed ImplSig Exn K) {β : Type}
    {p : Impl (Result β RichError)} (hp : K _ p) : K _ (Client.catchingBatch p) := by
  refine hK.bind (hK.attempt hp) fun r => ?_
  cases r <;> exact hK.pure _

/-- The members, from the functions that count themselves in flight. -/
theorem members_of_blocks (hK : @Proc.Closed ImplSig Exn K) (hB : Blocks K)
    (hconnect : K _ Impl.connect) (hdisconnect : K _ Impl.disconnect)
    (hread : ∀ nodes, K _ (Impl.batchRead nodes)) (hgiveUp : K _ Impl.setGiveUpSignal) :
    Members K := by
  have hcatching : ∀ {β : Type} {p : Impl (Result β RichError)}, K _ p → K _ (Api.catching p) := by
    refine fun hp => hK.bind (hK.attempt hp) fun r => ?_
    cases r <;> exact hK.pure _
  have hquery : ∀ {name : String} {p : Impl (Result Unit RichError)}, K _ p →
      K _ (Api.query name p) := fun hp =>
    hK.bind hB.getEffectiveStopSignal fun _ => Proc.Composed.ite (hK.pure _) (hcatching hp)
  refine
    { apiConnect := hcatching (hK.bind hconnect fun r => ?_)
      apiDisconnect := hcatching (hK.bind hdisconnect fun r => ?_)
      checkConnected := hquery (hK.bind (hB.isConnected 0) fun r => ?_)
      isHealthy := hquery (hK.bind hB.isHealthyCached fun _ =>
        Proc.Composed.ite (hK.pure _) (hK.pure _))
      checkLifeState := hK.bind (hB.load .lifeState) fun _ => hK.pure _
      setGiveUpSignal := hcatching hgiveUp
      batchRead := fun nodes => closed_catchingBatch hK (hread nodes)
      connect := hconnect
      nowMs := hB.nowMs
      watchdogRounds := fun l => hK.loop (hB.watchdogRound hconnect hdisconnect) }
  · cases r <;> exact hK.pure _
  · cases r <;> exact hK.pure _
  · rcases r with e | healthy
    · exact hK.pure _
    · cases healthy <;> exact hK.pure _

section Ops

variable (hK : @Proc.Closed ImplSig Exn K)
  (hop : ∀ o : ImplOp, o.Calm → ¬o.Sends → K o.Resp (perform o))

include hK hop

/-- The functions that the calls are made of, from the calm operations. -/
theorem busy_of_ops : Busy K := by
  have hquiet : ∀ o : ImplOp, o.Quiet → K o.Resp (perform o) := fun o ho =>
    hop o ho.calm ho.not_sends
  have hlife : ∀ o : ImplOp, o.LifeWrite → K o.Resp (perform o) := fun o ho => by
    refine hop o ho.calm ?_
    cases o <;> first | exact id | exact ho.elim
  have hword : ∀ o : ImplOp, o.WordWrite → K o.Resp (perform o) := fun o ho => by
    refine hop o ho.calm ?_
    cases o <;> first | exact id | exact ho.elim
  exact ((blocks_of_ops hK hquiet hlife (closed_runCallback hK hquiet hlife hword)
    (closed_probe hK hquiet hlife hword)).connecting hK fun o ho =>
      hop o ho.inFlight.calm ho.not_sends).busy hK (hop .taskInc trivial id)
        (hop .taskDec trivial id)

/-- The members, in the same way. -/
theorem members_of_ops : Members K := by
  have hB := busy_of_ops hK hop
  have hconn := hop (.load .connState) trivial id
  refine members_of_blocks hK hB.toBlocks hB.connect hB.disconnect
    (hB.batchRead hconn fun client _ => ?_) (composed_setGiveUpSignal hK.toComposed
      (fun a ha => hop (.load a) (Atomic.quiet_load ha).calm id) fun o ho => hop o ho.calm ?_)
  · exact hB.withLock _ (closed_sdk hK hB.runCallback (hop (.sdkCall _ _) trivial id)
      (hop (.sdkReturn _ _) trivial id))
  · cases o <;> first | exact id | exact ho.elim

end Ops

/-- `batchWrite`, from all of them. -/
theorem batchWrite_of_ops (hK : @Proc.Closed ImplSig Exn K)
    (hop : ∀ o : ImplOp, o.Calm → K o.Resp (perform o)) (nodes : List WriteValue) :
    K _ (Client.catchingBatch (batchWrite nodes)) := by
  have hB := busy_of_ops hK fun o ho _ => hop o ho
  have hconn := hop (.load .connState) trivial
  exact closed_catchingBatch hK (hB.batchWrite hconn (fun client request => hB.withLock _
    (closed_sdk hK hB.runCallback (hop (.sdkCall _ _) trivial) (hop (.sdkReturn _ _) trivial)))
    nodes)

end Members

end Impl

end OPCUAPacking
