import OPCUAPacking.Impl.Watchdog

/-!
# Configuration and teardown

`configureClient` and `startWatchdog`, which bring an `Impl` up, and `shutdown` with the
destructor, which take it down.
-/

namespace OPCUAPacking

open Interleaving

namespace Impl

/-! ### Bringing up -/

/-- `validateConfiguration`; it yields the client that it found in `m_impl`. -/
def validateConfiguration (useDefault : Bool) : Impl (Result Handle RichError) := do
  let impl ← perform .copyImpl
  match impl with
  | none => pure (.error ⟨.notInitialized, "m_impl is uninitialized"⟩)
  | some client =>
      let started ← perform .watchdogExists
      if started then pure (.error ⟨.invalidState, "already started"⟩)
      else
        let r ← perform (.getConfig client)
        let found ← orThrow r
        if !found then pure (.error ⟨.sdkError, "get Config fail"⟩)
        else
          let config ← perform .readConfig
          match config.check with
          | some msg =>
              -- it is repaired later, in `applyDefault`
              if !useDefault then pure (.error ⟨.invalidConfig, msg⟩) else pure (.ok client)
          | none => pure (.ok client)

/-- The default configuration, if it is asked for and needed. What the repair leaves is kept even
when it fails. -/
def applyDefault (useDefault : Bool) : Impl (Result Unit RichError) :=
  if useDefault then do
    let config ← perform .readConfig
    perform (.writeConfig config.applyDefaultIfInvalid.1)
    match config.applyDefaultIfInvalid.2 with
    | .ok _ => pure (.ok ())
    | .error e => pure (.error e)
  else pure (.ok ())

/-- The initial values of the atomics, and a first probe. -/
def resetState : Impl Unit := do
  store .connState .idle
  store .lifeState .running
  store .running true
  store .shutdown false
  store .connectionLost false
  -- its result is not looked at: `connect` follows
  let _ ← isConnected
  pure ()

/-- `applyConfiguration`. -/
def applyConfiguration (client : Handle) (useDefault : Bool) : Impl (Result Unit RichError) := do
  let r ← perform (.getConfig client)
  let found ← orThrow r
  if !found then pure (.error ⟨.sdkError, "get Config fail"⟩)
  else
    Proc.andThen (applyDefault useDefault) fun _ => do
      resetState
      pure (.ok ())

/-- `configureClient`. -/
def configureClient (useDefault : Bool) : Impl (Result Unit RichError) :=
  Proc.andThen (validateConfiguration useDefault) fun client =>
    applyConfiguration client useDefault

/-- `startWatchdog`. -/
def startWatchdog : Impl (Result Unit RichError) := do
  let joinable ← perform .watchdogJoinable
  if joinable then pure (.ok ())
  else
    store .running true
    -- `std::thread` may throw; the flag stays set then
    let r ← perform .watchdogCreate
    orThrow r
    pure (.ok ())

/-! ### Taking down -/

/-- `signalShutdown`. Waking the sleepers changes no state. -/
def signalShutdown : Impl Unit := do
  let already ← withLock .lock do
    let shutdown ← load .shutdown
    if shutdown then pure true
    else
      store .running false
      store .shutdown true
      pure false
  Proc.when (!already) do
    let _ ← load .stop
    pure ()

/-- `joinWatchdog`: the watchdog thread itself detaches instead. -/
def joinWatchdog : Impl Unit := do
  let joinable ← perform .watchdogJoinable
  Proc.when joinable do
    let self ← perform .watchdogIsSelf
    -- a thread that joins itself would throw
    if self then perform .watchdogDetach else perform .watchdogJoin

/-- The wait for the calls in flight: whether the counter was zero in time. -/
def drain : Impl Bool := do
  let config ← perform .readConfig
  perform (.taskWait (max config.timeoutMs (config.watchdogIntervalMs * 2)).toNat)

/-- `Impl::shutdown`. -/
def shutdown : Impl Unit := do
  signalShutdown
  joinWatchdog
  store .stop true
  let _ ← drain
  pure ()

/-- `doCleanup`: the client that was released, if there was one. -/
def doCleanup : Impl (Option Handle) :=
  withLock .lock (perform .resetImpl)

/-- `~Impl`: the client that it released. -/
def destroy : Impl (Option Handle) := do
  let stop ← load .stop
  Proc.when (!stop) shutdown
  -- set again, so that the watchdog leaves whatever `shutdown` did
  store .shutdown true
  store .running false
  let started ← perform .watchdogExists
  Proc.when started joinWatchdog
  doCleanup

end Impl

end OPCUAPacking
