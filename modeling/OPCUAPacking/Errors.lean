/-!
# Error codes and results

The error types of the client: `RichError` with its codes, the states that the connection
functions of `Impl` report, their mapping to error codes and texts, and the exceptions that may
travel through the implementation.
-/

namespace OPCUAPacking

/-- `RichError::ErrorCode`. -/
inductive ErrorCode where
  | invalidState
  | recreating
  | givenupIng
  | notGivenUp
  | alreadyTerminated
  | notInitialized
  | invalidArgument
  | invalidConfig
  | typeMismatch
  | typeNotsupport
  | conversionFailed
  | notConnected
  | connectTimeout
  | sessionNotActivated
  | channelNotOpen
  | channelNotClosed
  | disconnectTimeout
  | threadBusy
  | inFlightTimeout
  | budgetExceeded
  | serviceFailed
  | serviceRetryExhausted
  | sdkError
  | internalError
  | unknown
  | ok
  deriving DecidableEq, Repr

/-- An error code with its context text. -/
structure RichError where
  code : ErrorCode
  context : String
  deriving DecidableEq, Repr

/-- An error with a context only is of code `UNKNOWN`. -/
def RichError.ofContext (context : String) : RichError := ⟨.unknown, context⟩

/-- `Result<T, E>`: a value or an error. -/
abbrev Result (T E : Type) := Except E T

/-- The exceptions a call may throw; `what` is the text of the standard ones. -/
inductive Exn where
  /-- `std::bad_alloc`. -/
  | badAlloc (what : String)
  /-- `std::system_error`. -/
  | systemError (what : String)
  /-- Any other `std::exception`. -/
  | exception (what : String)
  /-- Anything else. -/
  | other
  deriving DecidableEq, Repr

/-- The handlers at the end of every public entry point. `systemText` is the text before
`e.what()` for a `std::system_error`, which the entry points spell in two ways. -/
def RichError.ofExn (systemText : String) : Exn → RichError
  | .badAlloc what => ⟨.internalError, "Memory allocation failed: " ++ what⟩
  | .systemError what => ⟨.sdkError, systemText ++ what⟩
  | .exception what => ⟨.internalError, "Unexpected error: " ++ what⟩
  | .other => ⟨.unknown, "Unknown error"⟩

/-- `ConnectErrorState`. -/
inductive ConnectErrorState where
  | shutdown
  | nullptr
  | threadbusy
  | unknown
  | connectFailed
  | timeoutNotconnect
  deriving DecidableEq, Repr

/-- `DisconnectErrorState`. -/
inductive DisconnectErrorState where
  | shutdown
  | nullptr
  | threadbusy
  | timeoutNotdisconnect
  | disconnectFail
  | unknown
  deriving DecidableEq, Repr

/-- `connectErrorStateToString`. -/
def connectErrorStateToString : ConnectErrorState → String
  | .shutdown => "client is shut down"
  | .nullptr => "client implementation is null"
  | .threadbusy => "another thread is connecting/disconnecting"
  | .unknown => "unknown connection state"
  | .connectFailed => "connect failed"
  | .timeoutNotconnect => "connect timeout and connection not established"

/-- `disconnectErrorStateToString`. -/
def disconnectErrorStateToString : DisconnectErrorState → String
  | .shutdown => "client is shut down"
  | .nullptr => "client implementation is null"
  | .threadbusy => "another thread is connecting/disconnecting"
  | .timeoutNotdisconnect => "disconnect timeout and connection not disconnected"
  | .disconnectFail => "async disconnect failed"
  | .unknown => "unknown disconnect state"

/-- `toRichErrorCode(ConnectErrorState)`. -/
def ConnectErrorState.toRichErrorCode : ConnectErrorState → ErrorCode
  | .shutdown => .alreadyTerminated
  | .nullptr => .notInitialized
  | .threadbusy => .threadBusy
  | .connectFailed => .serviceFailed
  | .timeoutNotconnect => .connectTimeout
  | .unknown => .unknown

/-- `toRichErrorCode(DisconnectErrorState)`. -/
def DisconnectErrorState.toRichErrorCode : DisconnectErrorState → ErrorCode
  | .shutdown => .alreadyTerminated
  | .nullptr => .notInitialized
  | .threadbusy => .threadBusy
  | .timeoutNotdisconnect => .disconnectTimeout
  | .disconnectFail => .serviceFailed
  | .unknown => .unknown

/-- The connection error means that the client is going away. -/
def ConnectErrorState.isGone : ConnectErrorState → Bool
  | .shutdown | .nullptr => true
  | _ => false

/-- The disconnection error means that the client is going away. -/
def DisconnectErrorState.isGone : DisconnectErrorState → Bool
  | .shutdown | .nullptr => true
  | _ => false

end OPCUAPacking
