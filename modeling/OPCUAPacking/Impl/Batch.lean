import OPCUAPacking.Impl.LifeState

/-!
# Batch reads and writes

`batchRead` and `batchWrite` of `Impl`, with the backoff between the attempts of a read. A write
is attempted once.

* `calculateBackoff`, `delayFunction` — the capped exponential backoff, slept in slices.
* `buildReadRequest`, `buildWriteRequest` — the requests, item by item, up to the first item that
  is rejected.
* `readAttempt` — one round of the retry loop.
-/

namespace OPCUAPacking

open Interleaving

namespace Impl

/-! ### Backoff -/

/-- `calculateBackoff`: `base << retry` in 64 bits, capped. -/
def calculateBackoff (config : ClientConfig) (retry : UInt32) : UInt32 :=
  let base := config.retryBackoffBaseMs.toUInt64
  let cap := config.retryMaxBackoffMs.toUInt64
  if 32 ≤ retry then cap.toUInt32
  else
    let delay := base <<< retry.toUInt64
    if cap < delay then cap.toUInt32 else delay.toUInt32

/-- `wait_for` with the stop signal as its predicate. -/
def waitForStop (ms : UInt32) : Impl Unit := do
  perform (.waitBegin ms)
  Proc.loop () fun _ => do
    let stop ← getEffectiveStopSignal
    if stop then pure (.inr ())
    else
      let expired ← perform .waitBlock
      if expired then
        -- the predicate is read once more when the time is up
        let _ ← getEffectiveStopSignal
        pure (.inr ())
      else pure (.inl ())

/-- `delayFunction`: sleep for the backoff in slices of 100 ms, each preceded by a look at the
stop signal. -/
def delayFunction (retry : UInt32) : Impl Unit := do
  let config ← perform .readConfig
  let backoffMs := calculateBackoff config retry
  Proc.loop (0 : UInt32) fun elapsedMs =>
    if elapsedMs < backoffMs then do
      let stop ← getEffectiveStopSignal
      if stop then pure (.inr ())
      else
        waitForStop (min 100 (backoffMs - elapsedMs))
        pure (.inl (elapsedMs + min 100 (backoffMs - elapsedMs)))
    else pure (.inr ())

/-! ### Checks -/

/-- The checks of the life state and of the connection state, with the texts of the caller. -/
def checkState (givenUp recovering busy : String) : Impl (Result Unit RichError) := do
  let life ← load .lifeState
  if life = .givenUp then pure (.error ⟨.notConnected, givenUp⟩)
  else
    let life ← load .lifeState
    -- this is a second load: the life state may have changed since the first
    if life = .recovering then pure (.error ⟨.notConnected, recovering⟩)
    else
      let conn ← load .connState
      if conn ≠ .idle then pure (.error ⟨.threadBusy, busy⟩) else pure (.ok ())

/-- The stop signal, read under `m_lock`, with the text of the caller. -/
def checkStop (text : String) : Impl (Result Unit RichError) := do
  let stop ← withLock .lock getEffectiveStopSignal
  if stop then pure (.error ⟨.alreadyTerminated, text⟩) else pure (.ok ())

/-- The cached state, with the text of the caller. -/
def checkHealthy (text : String) : Impl (Result Unit RichError) := do
  let healthy ← isHealthyCached
  if healthy then pure (.ok ()) else pure (.error ⟨.notConnected, text⟩)

/-- `UA_Array_new` of the request, with the text of the caller. -/
def checkAlloc (text : String) : Impl (Result Unit RichError) := do
  let allocated ← perform .alloc
  if allocated then pure (.ok ()) else pure (.error ⟨.internalError, text⟩)

/-- The client snapshot of a batch, with the texts of the caller. -/
def batchClient (nullText stopText : String) : Impl (Result Handle RichError) :=
  withLock .lock do
    let impl ← perform .copyImpl
    match impl with
    | none => pure (.error ⟨.alreadyTerminated, nullText⟩)
    | some client =>
        let stop ← getEffectiveStopSignal
        if stop then pure (.error ⟨.alreadyTerminated, stopText⟩) else pure (.ok client)

/-- `snprintf("0x%08X")`. -/
def hexString (code : UA_StatusCode) : String :=
  "0x" ++ String.ofList ((List.range 8).map fun i =>
    (Nat.digitChar ((code.toNat >>> (4 * (7 - i))) % 16)).toUpper)

/-- `safeStatusCodeName`. -/
def safeStatusCodeName (code : UA_StatusCode) : Impl String := do
  let name ← perform (.statusCodeName code)
  pure (name.getD (hexString code))

/-- `uaNodeIDAlloc`. -/
def uaNodeIDAlloc (node : NodeId) : Impl (Result UA_NodeId RichError) :=
  Proc.andThen (pure node.validate) fun _ =>
    match node.id with
    | .numeric n => pure (.ok ⟨node.ns, .numeric n⟩)
    | .string s => do
        let allocated ← perform .alloc
        if !allocated then
          pure (.error ⟨.internalError,
            "NodeId: UA_NODEID_STRING_ALLOC failed for ns=" ++ toString node.ns.toNat⟩)
        -- `UA_NODEID_STRING_ALLOC` copies up to the first NUL
        else if (cString s).isEmpty then
          pure (.error ⟨.invalidArgument, "NodeId: string length is 0"⟩)
        else pure (.ok ⟨node.ns, .string (cString s)⟩)

/-! ### batchRead -/

/-- An item of the read request. -/
def readItem (v : ReadValue) : Impl (Result UA_ReadValueId RichError) :=
  Proc.andThen (uaNodeIDAlloc v.node) fun nodeId => pure (.ok ⟨nodeId, attributeIdValue⟩)

/-- The read request. -/
def buildReadRequest (nodes : List ReadValue) : Impl (Result (List UA_ReadValueId) RichError) :=
  Proc.mapResult readItem nodes

/-- The service results after which a read is attempted again. -/
def isRetryable (sr : UA_StatusCode) : Bool :=
  sr == UA_StatusCode.badConnectionClosed || sr == UA_StatusCode.badCommunicationError ||
    sr == UA_StatusCode.badSessionIdInvalid || sr == UA_StatusCode.badSecureChannelIdInvalid ||
    sr == UA_StatusCode.badNotConnected || sr == UA_StatusCode.badSecureChannelClosed ||
    sr == UA_StatusCode.badServerNotConnected || sr == UA_StatusCode.badTimeout ||
    sr == UA_StatusCode.badSessionClosed

/-- The result of one node of a read. -/
def decodeRead (node : ReadValue) (item : UA_DataValue) : ReadResult :=
  if item.status.isGood then
    match readConversion node.node.dataType item.value with
    | .ok v => { rawStatus := item.status, value := some v }
    | .error e => { rawStatus := item.status, errorCode := e.code }
  else { rawStatus := item.status, errorCode := .sdkError }

/-- The results of a read. -/
def readResults (nodes : List ReadValue) (response : UA_ReadResponse) :
    Impl (Result (List ReadResult) RichError) :=
  let failed : Result (List ReadResult) RichError :=
    .error ⟨.serviceFailed, "read fail : read_response.responseHeader.serviceResult : " ++
      toString response.serviceResult.toNat ++ " read_response.resultsSize : " ++
      toString response.results.size⟩
  match response.results with
  -- a response may carry a length without the results
  | .null _ => pure failed
  | .data items =>
      if !response.serviceResult.isGood || items.length != nodes.length then pure failed
      else do
        let r ← perform .reserve
        orThrow r
        pure (.ok (List.zipWith decodeRead nodes items))

/-- One `serviceRead`, with what follows from its response: another round or a result. -/
def readService (nodes : List ReadValue) (request : List UA_ReadValueId) (client : Handle)
    (maxRetries retry : UInt32) : Impl (UInt32 ⊕ Result (List ReadResult) RichError) := do
  let response ← withLock .sdkMutex (sdk client (.serviceRead request))
  if isRetryable response.serviceResult then
    -- the last attempt is not followed by a wait
    if retry ≠ maxRetries then
      delayFunction retry
      pure (.inl (retry + 1))
    else
      let name ← safeStatusCodeName response.serviceResult
      pure (.inr (.error ⟨.serviceRetryExhausted,
        "batchRead: max retries exhausted, last status=" ++ name⟩))
  else
    let r ← readResults nodes response
    pure (.inr r)

/-- The checks before an attempt. -/
def readAttemptChecks (startTime : Int) : Impl (Result Unit RichError) :=
  Proc.andThen (checkStop "batchRead: client is shutting down") fun _ => do
    let now ← nowMs
    let config ← perform .readConfig
    -- the budget is tested before an attempt, so the last one may overrun it
    if now - startTime > config.maxTotalWaitMs.toNat then
      pure (.error ⟨.budgetExceeded, "batchRead: total time budget exceeded"⟩)
    else
      checkState "batchRead:client life state is GIVEN_UP"
        "batchRead:client life state is RECOVERING" "batchRead:client life state is THREAD_BUSY"

/-- A round of the retry loop. -/
def readAttempt (nodes : List ReadValue) (request : List UA_ReadValueId) (client : Handle)
    (startTime : Int) (maxRetries retry : UInt32) :
    Impl (UInt32 ⊕ Result (List ReadResult) RichError) :=
  if retry < maxRetries + 1 then do
    let r ← readAttemptChecks startTime
    match r with
    | .error e => pure (.inr (.error e))
    | .ok () => readService nodes request client maxRetries retry
  else pure (.inr (.error ⟨.internalError, "batchRead: unreachable code path"⟩))

/-- The checks of `batchRead` before the request is built. -/
def readChecks (nodes : List ReadValue) : Impl (Result Unit RichError) :=
  Proc.andThen (checkState "batchRead:client life state is GIVEN_UP"
      "batchRead: client life state is RECOVERING"
      "batchRead:client life state is THREAD_BUSY") fun _ =>
    if nodes.isEmpty then pure (.error ⟨.invalidArgument, "batchRead: nodes list is empty"⟩)
    else
      Proc.andThen (checkHealthy "batchRead: connection is not healthy") fun _ =>
        checkAlloc "batchRead: UA_Array_new failed"

/-- The body of `batchRead` in the scope of its `InFlightGuard`. -/
def batchReadCounted (nodes : List ReadValue) : Impl (Result (List ReadResult) RichError) :=
  Proc.andThen (readChecks nodes) fun _ =>
    Proc.andThen (buildReadRequest nodes) fun request =>
      Proc.andThen (batchClient "batchRead: client is nullptr"
          "batchRead: client is shutting down") fun client => do
        let config ← perform .readConfig
        let startTime ← nowMs
        -- `attempts` is computed once, from the configuration read here
        Proc.loop 0 fun retry =>
          readAttempt nodes request client startTime config.maxRetries retry

/-- `Impl::batchRead`. -/
def batchRead (nodes : List ReadValue) : Impl (Result (List ReadResult) RichError) :=
  Proc.andThen (checkStop "client is shutting down") fun _ => inFlight (batchReadCounted nodes)

/-! ### batchWrite -/

/-- An item of the write request: the node, then the value. -/
def writeItem (v : WriteValue) : Impl (Result UA_WriteValue RichError) :=
  Proc.andThen (uaNodeIDAlloc v.node) fun nodeId =>
    -- a failed node or value ends the batch before anything is sent
    Proc.andThen (pure (writeConversion v.node.dataType v.value)) fun value => do
      let status ← perform (.setScalarCopy value)
      if status ≠ UA_StatusCode.good then
        pure (.error (.ofContext "OPCUADataCovert : batchSet_UA_Scalar_StatusCode fail"))
      else pure (.ok ⟨nodeId, attributeIdValue, value⟩)

/-- The write request. -/
def buildWriteRequest (nodes : List WriteValue) : Impl (Result (List UA_WriteValue) RichError) :=
  Proc.mapResult writeItem nodes

/-- The result of one node of a write. -/
def decodeWrite (status : UA_StatusCode) : WriteResult :=
  if status.isGood then ⟨.good, .ok, status⟩ else ⟨.bad, .sdkError, status⟩

/-- The results of a write. -/
def writeResults (nodes : List WriteValue) (response : UA_WriteResponse) :
    Impl (Result (List WriteResult) RichError) :=
  let failed : Impl (Result (List WriteResult) RichError) := do
    let name ← safeStatusCodeName response.serviceResult
    pure (.error ⟨.serviceFailed, "batchWrite: service failed, serviceResult=" ++ name⟩)
  match response.results with
  | .null _ => failed
  | .data items =>
      if response.serviceResult.isGood && decide (0 < items.length) &&
          items.length == nodes.length then do
        let r ← perform .reserve
        orThrow r
        pure (.ok (items.map decodeWrite))
      else failed

/-- The checks of the states, made before the request is built and again before it is sent. -/
def writeCheckState : Impl (Result Unit RichError) :=
  checkState "batchWrite: client life state is GIVEN_UP"
    "batchWrite: client life state is RECOVERING" "batchWrite: client life state is THREAD_BUSY"

/-- The checks of `batchWrite` before the request is built. -/
def writeChecks (nodes : List WriteValue) : Impl (Result Unit RichError) :=
  Proc.andThen writeCheckState fun _ =>
    if nodes.isEmpty then pure (.error ⟨.invalidArgument, "batchWrite: nodes list is empty"⟩)
    else
      Proc.andThen (checkHealthy "batchWrite: connection is not healthy") fun _ =>
        checkAlloc "batchWrite: UA_Array_new failed"

/-- The one `serviceWrite`, with the results that follow from its response. -/
def writeService (nodes : List WriteValue) (request : List UA_WriteValue) (client : Handle) :
    Impl (Result (List WriteResult) RichError) := do
  let response ← withLock .sdkMutex (sdk client (.serviceWrite request))
  writeResults nodes response

/-- The body of `batchWrite` in the scope of its `InFlightGuard`. -/
def batchWriteCounted (nodes : List WriteValue) : Impl (Result (List WriteResult) RichError) :=
  Proc.andThen (writeChecks nodes) fun _ =>
    Proc.andThen (buildWriteRequest nodes) fun request =>
      Proc.andThen (batchClient "batchWrite: client is nullptr"
          "batchWrite: client is shutting down") fun client =>
        -- the checks of the beginning once more: a write is not repeated, so this is the last look
        Proc.andThen (checkStop "batchWrite: client is shutting down") fun _ =>
          Proc.andThen writeCheckState fun _ => writeService nodes request client

/-- `Impl::batchWrite`. -/
def batchWrite (nodes : List WriteValue) : Impl (Result (List WriteResult) RichError) :=
  Proc.andThen (checkStop "batchWrite: client is shutting down") fun _ =>
    inFlight (batchWriteCounted nodes)

end Impl

end OPCUAPacking
