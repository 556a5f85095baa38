import OPCUAPacking.Impl.LifeState

/-!
# Connecting and disconnecting

`connect` and `disconnect` of `Impl`. Both count themselves in flight, take a snapshot of the
client, win `m_connState` by a compare-exchange and release it when they leave; the winner starts
the asynchronous operation and then polls `isConnected` until the state is reached, the time is up
or the stop signal is set.
-/

namespace OPCUAPacking

open Interleaving

namespace Impl

/-- Run `body` as the one thread that connects or disconnects; `busy` answers the others from the
state they observed. The release is the destructor of `CASGuard`. -/
def singleFlight {α : Type} (busy : ConnState → α) (body : Impl α) : Impl α := do
  let r ← casStrong .connState .idle .connecting
  match r with
  | .ok () => Proc.ensuring (store .connState .idle) body
  | .error observed => pure (busy observed)

/-- The steady-clock bound of the polling loops: `2 * timeoutMs + 500` from now, in the arithmetic
of `uint32_t`. -/
def wallDeadline : Impl Int := do
  let now ← perform .steadyNow
  let config ← perform .readConfig
  pure (now + (2 * config.timeoutMs + 500).toNat)

/-- Both clocks are read; the time is up when either is past its bound. -/
def timedOut (start deadline : Int) : Impl Bool := do
  let now ← nowMs
  let steady ← perform .steadyNow
  let config ← perform .readConfig
  pure (decide (now - start > config.timeoutMs.toNat ∨ steady ≥ deadline))

/-! ### connect -/

/-- `connectAsync` under `m_sdkMutex`: whether it was accepted. -/
def startConnect (client : Handle) : Impl Bool :=
  withLock .sdkMutex do
    let url ← perform .readEndpointUrl
    let retval ← sdk client (.connectAsync url)
    if retval.isGood then pure true
    else
      turnToRecovring
      pure false

/-- The connection is given up after a timeout. -/
def abandonConnect (client : Handle) : Impl (Result Unit ConnectErrorState) := do
  let _ ← withLock .sdkMutex (sdk client .disconnectAsync)
  turnToRecovring
  pure (.error .timeoutNotconnect)

/-- The last look after a timeout. -/
def connectTimedOut (client : Handle) : Impl (Result Unit ConnectErrorState) := do
  let last ← isConnected
  match last with
  | .error .shutdown => pure (.error .shutdown)
  | .error .nullptr => pure (.error .nullptr)
  -- no error of a probe but these two ends the call by itself
  | .error _ => abandonConnect client
  | .ok _ =>
      let healthy ← isHealthyCached
      if healthy then
        turnToRunning
        pure (.ok ())
      else abandonConnect client

/-- The end of a round of `connect`: leave on a timeout or the stop signal, else go round. -/
def connectRoundEnd (client : Handle) (start deadline : Int) :
    Impl (Unit ⊕ Result Unit ConnectErrorState) := do
  let expired ← timedOut start deadline
  if expired then
    let r ← connectTimedOut client
    pure (.inr r)
  else
    let stop ← getEffectiveStopSignal
    if stop then pure (.inr (.error .shutdown)) else pure (.inl ())

/-- A round of the polling loop of `connect`. -/
def connectRound (client : Handle) (start deadline : Int) :
    Impl (Unit ⊕ Result Unit ConnectErrorState) := do
  let r ← isConnected
  match r with
  | .error .shutdown => pure (.inr (.error .shutdown))
  | .error .nullptr => pure (.inr (.error .nullptr))
  | .error _ => connectRoundEnd client start deadline
  | .ok _ =>
      let f ← loadState
      if f.triple.isReady then
        turnToRunning
        pure (.inr (.ok ()))
      else connectRoundEnd client start deadline

/-- The body of `connect` once `m_connState` is won. -/
def connectHeld (client : Handle) : Impl (Result Unit ConnectErrorState) := do
  -- the clocks are read only once the SDK has accepted
  let accepted ← startConnect client
  if accepted then
    let start ← nowMs
    let deadline ← wallDeadline
    Proc.loop () fun _ => connectRound client start deadline
  else pure (.error .connectFailed)

/-- The client snapshot of `connect`. -/
def connectClient : Impl (Result Handle ConnectErrorState) :=
  withLock .lock do
    let stop ← getEffectiveStopSignal
    if stop then pure (.error .shutdown)
    else
      let impl ← perform .copyImpl
      match impl with
      | none => pure (.error .nullptr)
      | some client => pure (.ok client)

/-- What `connect` answers a thread that did not win `m_connState`. -/
def connectBusy (observed : ConnState) : Result Unit ConnectErrorState :=
  if observed = .connecting then .error .threadbusy else .error .unknown

/-- `Impl::connect`. -/
def connect : Impl (Result Unit ConnectErrorState) :=
  inFlight do
    let stop ← getEffectiveStopSignal
    if stop then pure (.error .shutdown)
    else
      let client ← connectClient
      match client with
      | .error e => pure (.error e)
      | .ok client => singleFlight connectBusy (connectHeld client)

/-! ### disconnect -/

/-- `disconnectAsync` under `m_sdkMutex`: whether it was accepted. -/
def startDisconnect (client : Handle) : Impl Bool :=
  withLock .sdkMutex do
    let retval ← sdk client .disconnectAsync
    if retval.isGood then pure true
    else
      turnToRecovring
      pure false

/-- The last look after a timeout, at the SDK itself. -/
def disconnectTimedOut (client : Handle) : Impl (Result Unit DisconnectErrorState) := do
  let f ← withLock .sdkMutex (sdk client .getState)
  -- the channel may have closed after the last probe: then the call has succeeded
  if f.channel = .closed then
    turnToRecovring
    pure (.ok ())
  else
    let _ ← withLock .sdkMutex (sdk client .disconnectAsync)
    turnToRecovring
    pure (.error .timeoutNotdisconnect)

/-- The end of a round of `disconnect`. -/
def disconnectRoundEnd (client : Handle) (start deadline : Int) :
    Impl (Unit ⊕ Result Unit DisconnectErrorState) := do
  let expired ← timedOut start deadline
  if expired then
    let r ← disconnectTimedOut client
    pure (.inr r)
  else
    let stop ← getEffectiveStopSignal
    if stop then pure (.inr (.error .shutdown))
    else
      -- `connect` has no such pause: its probe waits in the SDK
      perform (.sleep 50)
      pure (.inl ())

/-- A round of the polling loop of `disconnect`. -/
def disconnectRound (client : Handle) (start deadline : Int) :
    Impl (Unit ⊕ Result Unit DisconnectErrorState) := do
  let r ← isConnected
  match r with
  | .error .shutdown => pure (.inr (.error .shutdown))
  | .error _ => pure (.inr (.error .nullptr))
  | .ok _ =>
      let f ← loadState
      Proc.when (!f.status.isGood) updateBadStatusTime
      if f.channel = .closed then
        turnToRecovring
        pure (.inr (.ok ()))
      else disconnectRoundEnd client start deadline

/-- The body of `disconnect` once `m_connState` is won. -/
def disconnectHeld (client : Handle) : Impl (Result Unit DisconnectErrorState) := do
  let accepted ← startDisconnect client
  if accepted then
    let start ← nowMs
    let deadline ← wallDeadline
    Proc.loop () fun _ => disconnectRound client start deadline
  else pure (.error .disconnectFail)

/-- The client snapshot of `disconnect`; it tests the pointer before the stop signal. -/
def disconnectClient : Impl (Result Handle DisconnectErrorState) :=
  withLock .lock do
    let impl ← perform .copyImpl
    match impl with
    | none => pure (.error .nullptr)
    | some client =>
        let stop ← getEffectiveStopSignal
        if stop then pure (.error .shutdown) else pure (.ok client)

/-- What `disconnect` answers a thread that did not win `m_connState`. -/
def disconnectBusy (observed : ConnState) : Result Unit DisconnectErrorState :=
  if observed = .connecting then .error .threadbusy else .error .unknown

/-- `Impl::disconnect`. -/
def disconnect : Impl (Result Unit DisconnectErrorState) :=
  inFlight do
    let client ← disconnectClient
    match client with
    | .error e => pure (.error e)
    | .ok client => singleFlight disconnectBusy (disconnectHeld client)

end Impl

end OPCUAPacking
