import OPCUAPacking.Client.Ops
import OPCUAPacking.Impl.Api

/-!
# The public functions

The public functions of `OPC_UA_Client`, its destructor, and the watchdog threads of its `Impl`s.

* `Client.onImpl` — runs a member function of `Impl` on one of them.
* `Client.drop` — drops a `shared_ptr`; the last one runs `~Impl` and deletes the client.
* `Client.leased` — a public function in the scope of its `ApiLease`.
* `Client.recreateGiveUpClient`, `Client.shutdown`, `Client.destructor`.
* `ClientCall`, `ClientPool` — any number of threads, each with a list of calls.
-/

namespace OPCUAPacking

open Interleaving

namespace Client

variable {α : Type}

/-! ### Operations as statements -/

/-- Perform one operation. -/
def perform (o : ClientOp) : Client o.Resp := @Proc.perform ClientSig Exn o

/-- Run a member function on the `Impl`. -/
def onImpl (i : ImplId) (p : Impl α) : Client α :=
  Prog.handle (T := ClientSig) (fun o => .op (.impl i o) .ret) p

/-- A response that may be an exception. -/
def orThrow : Except Exn α → Client α
  | .ok a => pure a
  | .error e => Proc.throw e

/-- Delete the client that `~Impl` has released, if there was one. -/
def deleteClient : Option Handle → Client Unit
  | some client => perform (.clientDelete client)
  | none => pure ()

/-- Drop a `shared_ptr<Impl>`. The last one runs the destructor. -/
def drop (i : ImplId) : Client Unit := do
  let last ← perform (.release i)
  Proc.when last do
    let client ← onImpl i Impl.destroy
    deleteClient client

/-- Drop a `shared_ptr<Impl>` that may be null. -/
def dropIfAny : Option ImplId → Client Unit
  | some i => drop i
  | none => pure ()

/-- The handlers at the end of a public function; `systemText` is the text before `e.what()`. -/
def catching (systemText : String) (p : Client (Result α RichError)) :
    Client (Result α RichError) := do
  let r ← Proc.attempt p
  match r with
  | .ok a => pure a
  | .error e => pure (.error (.ofExn systemText e))

/-! ### The calls under a lease -/

/-- The errors of a call that finds no `Impl` to run on. -/
structure Refusals where
  recreating : RichError
  terminated : RichError
  nullptr : RichError

/-- Those of most calls. -/
def refusals (name : String) : Refusals where
  recreating := ⟨.recreating, name ++ ": client is being recreated, please retry later"⟩
  terminated := ⟨.alreadyTerminated, name ++ ": client has been terminated"⟩
  nullptr := ⟨.alreadyTerminated, name ++ ": client is nullptr"⟩

/-- Run `body` on the `Impl` that `pImpl` points to. The copy of the pointer is returned with the
result: it outlives the lease. -/
def onCurrent (refusals : Refusals) (body : Impl (Result α RichError)) :
    Client (Option ImplId × Result α RichError) := do
  let i ← perform .pImplCopy
  match i with
  | none => pure (none, .error refusals.nullptr)
  | some i =>
      let r ← onImpl i body
      pure (some i, r)

/-- A public function in the scope of its `ApiLease`. -/
def leased (refusals : Refusals) (body : Impl (Result α RichError)) :
    Client (Option ImplId × Result α RichError) := do
  let reason ← perform .leaseAcquire
  match reason with
  | .recreating => pure (none, .error refusals.recreating)
  | .terminated => pure (none, .error refusals.terminated)
  | .active => Proc.ensuring (perform .leaseRelease) (onCurrent refusals body)

/-- A public function that runs `body` under a lease. The lease is declared after the pointer, so
it is released first. -/
def call (refusals : Refusals) (body : Impl (Result α RichError)) :
    Client (Result α RichError) := do
  let r ← leased refusals body
  dropIfAny r.1
  pure r.2

/-- `OPC_UA_Client::connect`. -/
def connect : Client (Result Unit RichError) := call (refusals "connect") Api.connect

/-- `OPC_UA_Client::disconnect`. -/
def disconnect : Client (Result Unit RichError) := call (refusals "disconnect") Api.disconnect

/-- `OPC_UA_Client::checkConnected`. -/
def checkConnected : Client (Result Unit RichError) :=
  call (refusals "checkConnected") Api.checkConnected

/-- `OPC_UA_Client::isHealthy`. -/
def isHealthy : Client (Result Unit RichError) := call (refusals "isHealthy") Api.isHealthy

/-- `OPC_UA_Client::checkLifeState`. -/
def checkLifeState : Client (Result LifeState RichError) :=
  call (refusals "checkLifeState") do
    let life ← Impl.load .lifeState
    pure (.ok life)

/-- `OPC_UA_Client::setGiveUpSignal`. -/
def setGiveUpSignal : Client (Result Unit RichError) :=
  call
    { recreating := ⟨.recreating, "setGiveUpSignal: recreating"⟩
      terminated := ⟨.alreadyTerminated, "setGiveUpSignal: terminated"⟩
      nullptr := ⟨.notInitialized, "setGiveUpSignal: client is nullptr"⟩ }
    (Api.catching Impl.setGiveUpSignal)

/-- The handlers of the two batch functions, which spell one text differently. -/
def catchingBatch (p : Impl (Result α RichError)) : Impl (Result α RichError) := do
  let r ← Proc.attempt p
  match r with
  | .ok a => pure a
  | .error e => pure (.error (.ofExn "System error: " e))

/-- `OPC_UA_Client::batchRead`. -/
def batchRead (nodes : List ReadValue) : Client (Result (List ReadResult) RichError) :=
  call (refusals "batchRead") (catchingBatch (Impl.batchRead nodes))

/-- `OPC_UA_Client::batchWrite`. -/
def batchWrite (nodes : List WriteValue) : Client (Result (List WriteResult) RichError) :=
  call (refusals "batchWrite") (catchingBatch (Impl.batchWrite nodes))

/-! ### shutdown and the destructor -/

/-- A call of `Impl::shutdown`. -/
def shutdownImpl (i : ImplId) (caller : ShutdownCaller) : Client Unit := do
  perform (.shutdownBegin i caller)
  onImpl i Impl.shutdown

/-- `shutdownInternal`. -/
def shutdownInternal : Client (Result Unit RichError) := do
  let doomed ← perform .pImplTake
  match doomed with
  | none => pure (.ok ())
  | some i =>
      shutdownImpl i .internal
      drop i
      pure (.ok ())

/-- `OPC_UA_Client::shutdown`. -/
def shutdown : Client (Result Unit RichError) := do
  let entry ← perform .shutdownEnter
  match entry with
  | .recreating =>
      pure (.error ⟨.recreating, "shutdown: client is being recreated, please retry later"⟩)
  | .terminated => pure (.ok ())
  | .won => Proc.ensuring (perform .shutdownLeave) (catching "System error:" shutdownInternal)

/-- `~OPC_UA_Client`. -/
def destructor : Client Unit := do
  let settled ← perform .terminate
  Proc.when (!settled) (perform .destructorWait)
  -- whatever it throws, the destructor must not
  let _ ← Proc.attempt shutdownInternal
  pure ()

/-! ### recreateGiveUpClient -/

/-- Replace `pImpl` by the candidate, and shut the old `Impl` down before the guard is reset.
Whether the candidate was adopted is returned with the result. -/
def adopt (i : ImplId) : Client (Bool × Result Unit RichError) := do
  let adoption ← perform (.pImplAdopt i)
  match adoption with
  | .terminated => pure (false, .error ⟨.alreadyTerminated, "shutdown called during recreate"⟩)
  | .replaced old =>
      -- `m_recreating` stays set until the old `Impl` is down: the destructor waits for it
      match old with
      | some j =>
          shutdownImpl j .replaced
          drop j
      | none => pure ()
      perform .guardReset
      pure (true, .ok ())

/-- Configure the candidate, connect it and start its watchdog, then adopt it. -/
def bringUp (i : ImplId) : Client (Bool × Result Unit RichError) := do
  -- the defaults are allowed here, whatever `create` was told
  let r ← onImpl i (Impl.configureClient true)
  match r with
  | .error _ => pure (false, .error ⟨.invalidConfig, "configureClient failed"⟩)
  | .ok () =>
      let r ← onImpl i Impl.connect
      match r with
      | .error e => pure (false, .error ⟨e.toRichErrorCode, connectErrorStateToString e⟩)
      | .ok () =>
          let r ← onImpl i Impl.startWatchdog
          match r with
          | .error e => pure (false, .error e)
          | .ok () => adopt i

/-- The scope of `CandidateGuard`. It shuts down a candidate that was not adopted; then its
`shared_ptr` and `newImpl` go. -/
def candidateScope (i : ImplId) : Client (Result Unit RichError) := do
  perform (.retain i)
  let r ← Proc.attempt (bringUp i)
  -- an exception comes before the block that sets `adopted`
  let adopted := match r with
    | .ok a => a.1
    | .error _ => false
  Proc.when (!adopted) (shutdownImpl i .candidate)
  drop i
  drop i
  match r with
  | .ok a => pure a.2
  | .error e => Proc.throw e

/-- An allocation while the scope owns a client: when it fails, the client is deleted. -/
def allocateOwning (client : Option Handle) : Client Unit := do
  let r ← perform .allocate
  match r with
  | .ok () => pure ()
  | .error e =>
      deleteClient client
      Proc.throw e

/-- The `try` block of `recreateGiveUpClient`. -/
def recreateWith (config : ClientConfig) : Client (Result Unit RichError) := do
  let r ← perform .allocate
  orThrow r
  -- from here on every way out has to delete the client, or hand it to an `Impl`
  let r ← perform .clientNew
  let client ← orThrow r
  -- the control block of the `shared_ptr`: its deleter takes care of the client
  allocateOwning client
  match client with
  | some handle =>
      -- the `Impl` itself, which takes the client over
      allocateOwning client
      let i ← perform (.implConstruct config handle)
      candidateScope i
  | none => pure (.error ⟨.sdkError, "UA_Client_new() failed"⟩)

/-- `recreateGiveUpClient` in the scope of its `RecreateGuard`. -/
def recreateGuarded : Client (Result Unit RichError) := do
  let drained ← perform (.recreateDrain 2000)
  if !drained then
    pure (.error ⟨.inFlightTimeout,
      "recreateGiveUpClient: timeout waiting for in-flight APIs to drain"⟩)
  else
    let life ← perform .pImplLifeState
    -- a null `pImpl` counts as RUNNING
    if life.getD .running ≠ .givenUp then
      pure (.error ⟨.notGivenUp, "recreateGiveUpClient: client is not in GIVEN_UP state"⟩)
    else
      let config ← perform .pImplConfig
      -- `m_lock` is taken anew each time, so each block looks at `pImpl` again
      let found ← perform .pImplExists
      if !found then pure (.error ⟨.notInitialized, "client = nullptr"⟩)
      else catching "System error:" (recreateWith (config.getD {}))

/-- `OPC_UA_Client::recreateGiveUpClient`. -/
def recreateGiveUpClient : Client (Result Unit RichError) := do
  let entry ← perform .recreateEnter
  match entry with
  | .recreating =>
      pure (.error ⟨.recreating,
        "recreateGiveUpClient: client is being recreated, please retry later"⟩)
  | .terminated =>
      pure (.error ⟨.alreadyTerminated, "recreateGiveUpClient: client has been terminated"⟩)
  | .won =>
      -- the flag is won before the guard exists, and nothing in between throws
      perform .guardConstruct
      Proc.ensuring (perform .guardDestroy) recreateGuarded

/-! ### The watchdog threads -/

/-- The watchdog thread of an `Impl`. `runWatchdog` holds a `shared_ptr` to it, once it has read the
clock. -/
def watchdogThread (i : ImplId) : Client Unit := do
  onImpl i (Impl.perform .watchdogBegin)
  let last ← onImpl i Impl.nowMs
  -- until here the thread has no pointer of its own
  let found ← perform (.lockSelf i)
  Proc.when (!found) (Proc.throw (.exception "bad_weak_ptr"))
  onImpl i (Proc.loop (last, 0) Impl.watchdogRound)
  drop i
  onImpl i (Impl.perform .watchdogEnd)

end Client

/-! ### Calls -/

/-- What a thread may run on a client. -/
inductive ClientCall where
  | connect
  | disconnect
  | checkConnected
  | isHealthy
  | checkLifeState
  | setGiveUpSignal
  | batchRead (nodes : List ReadValue)
  | batchWrite (nodes : List WriteValue)
  | recreateGiveUpClient
  | shutdown
  | destructor
  | watchdog (i : ImplId)

/-- What a call returns. -/
inductive ClientReply where
  | unit
  | result (r : Result Unit RichError)
  | lifeState (r : Result LifeState RichError)
  | read (r : Result (List ReadResult) RichError)
  | write (r : Result (List WriteResult) RichError)
  deriving DecidableEq

/-- Wrap what a program returns. -/
def Client.replying {α : Type} (wrap : α → ClientReply) (p : Client α) : Client ClientReply := do
  let a ← p
  pure (wrap a)

/-- The program of a call. -/
def ClientCall.run : ClientCall → Client ClientReply
  | .connect => Client.replying .result Client.connect
  | .disconnect => Client.replying .result Client.disconnect
  | .checkConnected => Client.replying .result Client.checkConnected
  | .isHealthy => Client.replying .result Client.isHealthy
  | .checkLifeState => Client.replying .lifeState Client.checkLifeState
  | .setGiveUpSignal => Client.replying .result Client.setGiveUpSignal
  | .batchRead nodes => Client.replying .read (Client.batchRead nodes)
  | .batchWrite nodes => Client.replying .write (Client.batchWrite nodes)
  | .recreateGiveUpClient => Client.replying .result Client.recreateGiveUpClient
  | .shutdown => Client.replying .result Client.shutdown
  | .destructor => Client.replying (fun _ => .unit) Client.destructor
  | .watchdog i => Client.replying (fun _ => .unit) (Client.watchdogThread i)

/-- The program of a thread: its calls, one after the other. -/
def ClientCall.runAll : List ClientCall → Client (List ClientReply)
  | [] => pure []
  | c :: cs => do
      let r ← c.run
      let rs ← runAll cs
      pure (r :: rs)

/-- A pool of threads on one client, with the history of what they did. -/
abbrev ClientPool := Config ClientSig (Traced ClientSig ClientState) (Except Exn (List ClientReply))

/-- The operations performed so far, newest first. -/
abbrev ClientHistory := List (Event ClientSig)

/-- The pool in which every thread is at the beginning of its calls. -/
def ClientPool.start (calls : Tid → List ClientCall) (s : ClientState) : ClientPool :=
  ⟨fun t => ClientCall.runAll (calls t), Traced.start s⟩

/-- Runs of a pool. -/
abbrev ClientPool.Reach : ClientPool → ClientPool → Prop :=
  Config.Reach (Traced.Step ClientState.exec)

/-- One step of a pool. -/
abbrev ClientPool.Step : ClientPool → ClientPool → Prop :=
  Config.Step (Traced.Step ClientState.exec)

/-- In the step from `c` to `d` thread `t` performs the operation `o`, which answers `r`. -/
def ClientPool.Performs (c : ClientPool) (t : Tid) (o : ClientOp) (r : o.Resp) (d : ClientPool) :
    Prop :=
  ClientPool.Step c d ∧ d.state.history = ⟨t, o, r⟩ :: c.state.history

/-- The step is one of the transition function. -/
theorem ClientPool.Performs.exec_eq {c d : ClientPool} {t : Tid} {o : ClientOp} {r : o.Resp}
    (h : c.Performs t o r d) :
    c.state.world.exec t o r = some d.state.world := by
  obtain ⟨hstep, hhistory⟩ := h
  cases hstep with
  | perform hp hs =>
      have hevent := hs.history_eq.symm.trans hhistory
      cases List.cons.inj hevent |>.1
      exact hs.exec_eq
  | round hp => exact absurd hhistory.symm (List.cons_ne_self _ _)

end OPCUAPacking
