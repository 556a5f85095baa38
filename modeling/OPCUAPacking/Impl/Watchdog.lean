import OPCUAPacking.Impl.Batch
import OPCUAPacking.Impl.Connection

/-!
# The watchdog

`doWatchdogDecision`, one verdict with at most one attempt to reconnect, and `runWatchdog`, the
loop of the watchdog thread that takes a decision every `watchdogIntervalMs`.
-/

namespace OPCUAPacking

open Interleaving

namespace Impl

/-- Start the give-up timer; give up if the window is over. -/
def giveUpIfExpired : Impl Bool := do
  updateBadStatusTime
  let expired ← shouldTriggerGiveUp
  Proc.when expired turnToGiveup
  pure expired

/-- `connect`, and the life state that follows from its result. -/
def connectAndTurn : Impl Unit := do
  let r ← connect
  match r with
  | .ok () => turnToRunning
  | .error e =>
      Proc.when (e.isGone) turnToGiveup
      -- another thread holds the connection: it decides the life state
      Proc.when (e ≠ .threadbusy) turnToRecovring

/-- Connect if the channel is closed by now. -/
def connectIfClosed (client : Handle) : Impl Unit := do
  callRunIterate client
  -- the SDK connects only on a closed channel; the next decision tries again
  let closed ← isChannelClosed
  if closed then connectAndTurn else turnToRecovring

/-- Disconnect, then connect, once each. -/
def reconnect (client : Handle) : Impl Unit := do
  let r ← disconnect
  match r with
  | .ok () => connectIfClosed client
  | .error e => if DisconnectErrorState.isGone e then turnToGiveup else connectIfClosed client

/-- The branch for a lost connection or a session that is not activated. -/
def decideLost (client : Handle) : Impl Unit := do
  let expired ← giveUpIfExpired
  Proc.when (!expired) (reconnect client)

/-- The branch for a channel that is not closed. -/
def decideOpen (client : Handle) : Impl Unit := do
  let expired ← giveUpIfExpired
  Proc.when (!expired) (connectIfClosed client)

/-- The branch for a bad status or any other unhealthy state. -/
def decideBad (client : Handle) : Impl Unit := do
  let expired ← giveUpIfExpired
  Proc.when (!expired) do
    callRunIterate client
    let healthy ← isHealthyCached
    -- driving the SDK may have been enough
    if healthy then turnToRunning else reconnect client

/-- `isConnectBad() || !isHealthyCached()`. -/
def isBadOrUnhealthy : Impl Bool := do
  let bad ← isConnectBad
  if bad then pure true
  else
    let healthy ← isHealthyCached
    pure !healthy

/-- `connectionLost || session != ACTIVATED`, with the session of the word read before. -/
def isLost (f : StateFields) : Impl Bool := do
  let lost ← load .connectionLost
  pure (lost || f.session != .activated)

/-- The part of a decision after a probe that did not find the client healthy. -/
def decideUnhealthy (client : Handle) : Impl Unit := do
  let f ← loadState
  let lost ← isLost f
  if lost then decideLost client
  else
    -- the channel and the status are read anew, not taken from `f`
    let closed ← isChannelClosed
    if !closed then decideOpen client
    else
      let bad ← isBadOrUnhealthy
      if bad then decideBad client else turnToRunning

/-- `doWatchdogDecision`. -/
def doWatchdogDecision : Impl Unit := do
  let stop ← getEffectiveStopSignal
  if stop then pure ()
  else
    let impl ← withLock .lock (perform .copyImpl)
    match impl with
    | none => pure ()
    | some client =>
        let r ← isConnected 0
        match r with
        | .ok true => turnToRunning
        | .ok false => decideUnhealthy client
        -- a client that is shut down or gone is left alone
        | .error e => Proc.when (!e.isGone) (decideUnhealthy client)

/-! ### The loop -/

/-- The time of the last decision and the retry counter. -/
abbrev WatchdogLocals := Int × UInt32

/-- The idle part of an iteration: drive the SDK without blocking. The thread ends if there is no
client (`false`). -/
def housekeeping : Impl Bool := do
  let impl ← withLock .lock (perform .copyImpl)
  match impl with
  | none => pure false
  | some client =>
      callRunIterate client 0
      pure true

/-- A decision, if it is due. -/
def decideIfDue (last : Int) (retryCounter : UInt32) : Impl WatchdogLocals := do
  let now ← nowMs
  let config ← perform .readConfig
  if now - last ≥ config.watchdogIntervalMs.toNat then
    doWatchdogDecision
    let life ← load .lifeState
    -- the time before the decision: its own length counts towards the next interval
    pure (now, if life = .recovering then retryCounter + 1 else 0)
  else pure (last, retryCounter)

/-- The rest of an iteration: back off while recovering, decide, wait. -/
def watchdogStep (recovering : Bool) (last : Int) (retryCounter : UInt32) :
    Impl WatchdogLocals := do
  Proc.when recovering (delayFunction retryCounter)
  let l ← decideIfDue last retryCounter
  waitForStop 100
  pure l

/-- The handlers of an iteration. After a failed allocation or a system error the client is given
up and the thread ends; after any other exception the loop goes on. -/
def watchdogCatch (last : Int) (retryCounter : UInt32) : Exn → Impl (WatchdogLocals ⊕ Unit)
  | .badAlloc _ | .systemError _ => do
      turnToGiveup
      pure (.inr ())
  | .exception _ | .other => do
      delayFunction (retryCounter + 1)
      pure (.inl (last, retryCounter + 1))

/-- An iteration of the loop. -/
def watchdogRound (l : WatchdogLocals) : Impl (WatchdogLocals ⊕ Unit) := do
  let stop ← getEffectiveStopSignal
  if stop then pure (.inr ())
  else
    let r ← Proc.attempt housekeeping
    match r with
    | .error e => watchdogCatch l.1 l.2 e
    | .ok false => pure (.inr ())
    | .ok true =>
        let life ← load .lifeState
        -- the counter that an exception finds has already been increased
        let retryCounter := if life = .recovering then l.2 + 1 else l.2
        let r ← Proc.attempt (watchdogStep (life = .recovering) l.1 retryCounter)
        match r with
        | .error e => watchdogCatch l.1 retryCounter e
        | .ok l => pure (.inl l)

/-- `runWatchdog`. -/
def runWatchdog : Impl Unit := do
  let last ← nowMs
  Proc.loop (last, 0) watchdogRound

/-- The watchdog thread. An exception that leaves `runWatchdog` terminates the process, so nothing
follows it. -/
def watchdogThread : Impl Unit := do
  perform .watchdogBegin
  runWatchdog
  perform .watchdogEnd

end Impl

end OPCUAPacking
