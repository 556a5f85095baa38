import OPCUAPacking.Impl.Watchdog

/-!
# The public functions on their `Impl`

What a public function of `OPC_UA_Client` does with the `Impl` that it has copied from `pImpl`: it
calls the function of the `Impl` and turns the error state, or an exception, into a `RichError`.

* `Api.catching` — the handlers.
* `Api.connect`, `Api.disconnect` — the connection calls.
* `Api.checkConnected`, `Api.isHealthy` — the two health queries; both refuse a client that has been
  told to stop.
-/

namespace OPCUAPacking

open Interleaving

namespace Api

variable {α : Type}

/-- The handlers at the end of a public function. -/
def catching (p : Impl (Result α RichError)) : Impl (Result α RichError) := do
  let r ← Proc.attempt p
  match r with
  | .ok a => pure a
  | .error e => pure (.error (.ofExn "System error:" e))

/-- `OPC_UA_Client::connect`. -/
def connect : Impl (Result Unit RichError) :=
  catching do
    let r ← Impl.connect
    match r with
    | .ok () => pure (.ok ())
    | .error e => pure (.error ⟨e.toRichErrorCode, connectErrorStateToString e⟩)

/-- `OPC_UA_Client::disconnect`. -/
def disconnect : Impl (Result Unit RichError) :=
  catching do
    let r ← Impl.disconnect
    match r with
    | .ok () => pure (.ok ())
    | .error e => pure (.error ⟨e.toRichErrorCode, disconnectErrorStateToString e⟩)

/-- A health query: refused once the client has been told to stop. -/
def query (name : String) (p : Impl (Result Unit RichError)) : Impl (Result Unit RichError) := do
  let stop ← Impl.getEffectiveStopSignal
  if stop then pure (.error ⟨.notConnected, name ++ ": client is not running"⟩) else catching p

/-- `OPC_UA_Client::checkConnected`. -/
def checkConnected : Impl (Result Unit RichError) :=
  query "checkConnected" do
    let r ← Impl.isConnected 0
    match r with
    | .ok true => pure (.ok ())
    | .ok false => pure (.error ⟨.notConnected, "checkConnected: fail"⟩)
    | .error e => pure (.error ⟨e.toRichErrorCode, "checkConnected: fail"⟩)

/-- `OPC_UA_Client::isHealthy`. -/
def isHealthy : Impl (Result Unit RichError) :=
  query "isHealthy" do
    let healthy ← Impl.isHealthyCached
    if healthy then pure (.ok ()) else pure (.error ⟨.notConnected, "isHealthy: fail"⟩)

end Api

end OPCUAPacking
