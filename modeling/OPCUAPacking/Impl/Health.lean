import OPCUAPacking.Impl.Ops

/-!
# Stop signal, state word and health probe

The member functions of `Impl` that read the stop signal and the cached state, the callbacks that
write it, and `isConnected`, which refreshes it from the SDK.

* `getEffectiveStopSignal`, `isHealthyCached`, `isChannelClosed`, `isConnectBad`.
* `updatePacked`, `tryPublishIfUnchanged` — the two writers of the state word.
* `sdk` — a call of `ISdk`: the callbacks that it fires run inline on the calling thread.
* `isConnected` — the health probe.
-/

namespace OPCUAPacking

open Interleaving

namespace Impl

/-! ### Operations as statements -/

/-- Perform one operation. -/
def perform (o : ImplOp) : Impl o.Resp := @Proc.perform ImplSig Exn o

/-- `a.load()`. -/
def load (a : Atomic) : Impl a.Val := perform (.load a)

/-- `a.store(v)`. -/
def store (a : Atomic) (v : a.Val) : Impl Unit := perform (.store a v)

/-- `a.compare_exchange_weak(expected, desired)`. -/
def casWeak (a : Atomic) (expected desired : a.Val) : Impl (Except a.Val Unit) :=
  perform (.casWeak a expected desired)

/-- `a.compare_exchange_strong(expected, desired)`. -/
def casStrong (a : Atomic) (expected desired : a.Val) : Impl (Except a.Val Unit) :=
  perform (.casStrong a expected desired)

/-- A block under a `lock_guard`. -/
def withLock {α : Type} (m : Mutex) (body : Impl α) : Impl α := do
  perform (.lock m)
  Proc.ensuring (perform (.unlock m)) body

/-- The scope of an `InFlightGuard`. -/
def inFlight {α : Type} (body : Impl α) : Impl α := do
  perform .taskInc
  Proc.ensuring (perform .taskDec) body

/-- A response that may be an exception. -/
def orThrow {α : Type} : Except Exn α → Impl α
  | .ok a => pure a
  | .error e => Proc.throw e

/-- `nowMsImpl`. -/
def nowMs : Impl Int := do
  let r ← perform .nowMs
  orThrow r

/-! ### Reading the flags and the state word -/

/-- `m_lifeState == GIVEN_UP`. -/
def isGivenUp : Impl Bool := do
  let life ← load .lifeState
  pure (life == .givenUp)

/-- `getEffectiveStopSignal`. -/
def getEffectiveStopSignal : Impl Bool := do
  let shutdown ← load .shutdown
  if shutdown then
    let running ← load .running
    if running then isGivenUp else pure true
  else isGivenUp

/-- `unpackState(state_packed.load())`. -/
def loadState : Impl StateFields := perform .loadFields

/-- `isHealthyCached`. -/
def isHealthyCached : Impl Bool := do
  let lost ← load .connectionLost
  if lost then pure false
  -- the flag of `inactivityCallback` overrules the word
  else
    let f ← loadState
    pure f.triple.isReady

/-- `isChannelClosed`. -/
def isChannelClosed : Impl Bool := do
  let f ← loadState
  pure (f.channel == .closed)

/-- `isConnectBad`. -/
def isConnectBad : Impl Bool := do
  let f ← loadState
  pure f.status.isBad

/-! ### Writing the state word -/

/-- `updatePacked` with the mutation of `stateCallback`: the triple must be written, whatever is
in the word. -/
def updatePacked (f : Triple) : Impl Unit := do
  let old ← load .statePacked
  Proc.loop old fun old => do
    let r ← casWeak .statePacked old (f.pack ((unpackState old).version + 1))
    match r with
    | .ok () => pure (.inr ())
    -- a weak exchange may also fail without a change: the round is repeated with what it saw
    | .error observed => pure (.inl observed)

/-- `tryPublishIfUnchanged`: one attempt, given up if the word has changed. -/
def tryPublishIfUnchanged (expected : BitVec 64) (f : Triple) : Impl Bool := do
  let r ← casStrong .statePacked expected (f.pack ((unpackState expected).version + 1))
  match r with
  | .ok () => pure true
  | .error _ => pure false

/-! ### Callbacks and SDK calls -/

/-- `stateCallback`. -/
def stateCallback (f : Triple) : Impl Unit := updatePacked f

/-- `inactivityCallback`. -/
def inactivityCallback : Impl Unit := do
  let stop ← getEffectiveStopSignal
  Proc.when (!stop) (store .connectionLost true)

/-- The SDK fires a callback. The `Impl` is alive: whoever calls the SDK holds a reference. -/
def runCallback (cb : Callback) : Impl Unit := do
  perform (.callback cb)
  match cb with
  | .state f => stateCallback f
  | .inactivity => inactivityCallback

/-- A call of `ISdk` on a client. -/
def sdk (client : Handle) (c : SdkCall) : Impl c.Result := do
  let callbacks ← perform (.sdkCall client c)
  -- the callbacks run on the calling thread, before the call returns or throws
  Proc.forEach runCallback callbacks
  let r ← perform (.sdkReturn client c)
  orThrow r

/-- `callRunIterate`. -/
def callRunIterate (client : Handle) (timeoutMs : UInt32 := 1) : Impl Unit :=
  withLock .sdkMutex do
    let _ ← sdk client (.runIterate timeoutMs)
    pure ()

/-! ### The give-up timer and the health probe -/

/-- `updateBadStatusTime`. -/
def updateBadStatusTime : Impl Unit :=
  withLock .badStatusMsMx do
    let ts ← load .lastBadStatusMs
    -- the first bad status counts, later ones do not move the window
    Proc.when (ts = 0) do
      let now ← nowMs
      store .lastBadStatusMs now

/-- `resetGiveUpTimer`. -/
def resetGiveUpTimer : Impl Unit :=
  withLock .badStatusMsMx do
    let ts ← load .lastBadStatusMs
    Proc.when (ts ≠ 0) (store .lastBadStatusMs 0)

/-- `shouldTriggerGiveUp`. -/
def shouldTriggerGiveUp : Impl Bool := do
  let ts ← load .lastBadStatusMs
  if ts = 0 then pure false
  else
    let now ← nowMs
    let config ← perform .readConfig
    pure (decide (config.giveUpThresholdMs ≤ now - ts))

/-- The part of `isConnected` between the refresh of the SDK and the verdict: the word is read
before the SDK is asked, and what the SDK says is published only if nobody wrote in between. -/
def probe (client : Handle) : Impl Triple := do
  let expected ← load .statePacked
  let f ← withLock .sdkMutex (sdk client .getState)
  let _ ← tryPublishIfUnchanged expected f
  pure f

/-- `isConnected`. -/
def isConnected (iterateTimeoutMs : UInt32 := 50) : Impl (Result Bool ConnectErrorState) := do
  let stop ← withLock .lock getEffectiveStopSignal
  if stop then pure (.error .shutdown)
  else
    let impl ← withLock .lock (perform .copyImpl)
    match impl with
    | none => pure (.error .nullptr)
    | some client =>
        callRunIterate client iterateTimeoutMs
        let f ← probe client
        -- what the SDK has answered starts the window, the verdict comes from the word
        Proc.when (!f.status.isGood) updateBadStatusTime
        let healthy ← isHealthyCached
        pure (.ok healthy)

end Impl

end OPCUAPacking
