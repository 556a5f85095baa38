import OPCUAPacking.Client.Calls
import OPCUAPacking.Interleaving.Returns

/-!
# Refusals

A call is refused with RECREATING, THREAD_BUSY or IN_FLIGHT_TIMEOUT only after an operation of its
own has found something taken.

* `ErrorCode.refuses`, `ClientReply.Refused` — the refusals.
* `ImplOp.obstructed`, `ClientOp.obstructed` — an operation has found something taken.
* `obstructions` — the moments at which those of a thread have.
* `refusals_of_reach` — in every run, a refusal comes with a moment of its own.
-/

namespace OPCUAPacking

open Interleaving

/-- The code says that something else is under way, and that the call may be repeated. -/
def ErrorCode.refuses : ErrorCode → Bool
  | .recreating | .threadBusy | .inFlightTimeout => true
  | _ => false

/-- The error is not a refusal. -/
def RichError.Innocent (e : RichError) : Prop := e.code.refuses = false

/-- If the result is an error, the error satisfies `P`. -/
def OnError {α E : Type} (P : E → Prop) : Result α E → Prop
  | .ok _ => True
  | .error e => P e

/-- The result is a refusal. -/
def IsRefusal {α : Type} (r : Result α RichError) : Prop :=
  ∃ e, r = .error e ∧ e.code.refuses = true

/-- So is the reply. -/
def ClientReply.Refused : ClientReply → Prop
  | .unit => False
  | .result r => IsRefusal r
  | .lifeState r => IsRefusal r
  | .read r => IsRefusal r
  | .write r => IsRefusal r

/-- The operation found something taken. -/
def ImplOp.obstructed : (o : ImplOp) → o.Resp → Bool
  | .load .connState, conn => conn == .connecting
  | .casStrong .connState _ _, .error observed => observed == .connecting
  | .taskWait _, completed => !completed
  | _, _ => false

/-- So it is with those of a client. -/
def ClientOp.obstructed : (o : ClientOp) → o.Resp → Bool
  | .leaseAcquire, reason => reason == .recreating
  | .recreateEnter, entry => entry == .recreating
  | .shutdownEnter, entry => entry == .recreating
  | .recreateDrain _, drained => !drained
  | .terminate, settled => !settled
  | .impl _ o, r => o.obstructed r
  | _, _ => false

/-- A result whose error is not a refusal is none. -/
theorem OnError.not_isRefusal {α : Type} {r : Result α RichError}
    (hr : OnError RichError.Innocent r) : ¬IsRefusal r := by
  rintro ⟨e, rfl, he⟩
  exact absurd (he.symm.trans hr) nofun

/-- An exception is reported under a code of its own. -/
theorem innocent_ofExn (systemText : String) (e : Exn) :
    (RichError.ofExn systemText e).Innocent := by
  cases e <;> rfl

theorem innocent_connect {e : ConnectErrorState} {text : String} (he : e ≠ .threadbusy) :
    RichError.Innocent ⟨e.toRichErrorCode, text⟩ := by
  cases e <;> first | rfl | exact absurd rfl he

theorem innocent_disconnect {e : DisconnectErrorState} {text : String} (he : e ≠ .threadbusy) :
    RichError.Innocent ⟨e.toRichErrorCode, text⟩ := by
  cases e <;> first | rfl | exact absurd rfl he

namespace Impl

variable {α β E : Type} {P : E → Prop}

/-- Unless it is obstructed, the function ends with no error but one that satisfies `P`. -/
abbrev Spares (P : E → Prop) (p : Impl (Result α E)) : Prop :=
  Proc.YieldsUnless (fun o r => ImplOp.obstructed o r = true) (OnError P) p

/-- A function whose errors satisfy `P` ends, or goes on with one whose errors do. -/
theorem spares_andThen {p : Impl (Result α E)} {f : α → Impl (Result β E)} (hp : Spares P p)
    (hf : ∀ a, Spares P (f a)) : Spares P (Proc.andThen p f) :=
  Proc.YieldsUnless.andThen hp (fun _ h => h) fun a _ => hf a

theorem spares_mapResult {p : α → Impl (Result β E)} (hp : ∀ a, Spares P (p a)) (as : List α) :
    Spares P (Proc.mapResult p as) := by
  induction as with
  | nil => exact Proc.yields_pure trivial
  | cons a as ih =>
      exact spares_andThen (hp a) fun b => spares_andThen ih fun _ => Proc.yields_pure trivial

/-! ### The batches -/

/-- The checks of the states refuse a call when `m_connState` is taken. -/
theorem spares_checkState (givenUp recovering busy : String) :
    Spares RichError.Innocent (checkState givenUp recovering busy) := by
  -- the life states are refused under codes of their own
  refine Proc.yields_bind fun life => Proc.yields_ite (Proc.yields_pure rfl) ?_
  refine Proc.yields_bind fun life => Proc.yields_ite (Proc.yields_pure rfl) ?_
  -- and `m_connState` only when it is taken
  refine Proc.yields_perform fun conn hconn => ?_
  have hidle : conn = .idle := by
    cases conn with
    | idle => rfl
    | connecting => exact absurd rfl hconn
  rw [hidle]
  exact Proc.yields_pure trivial

theorem spares_checkStop (text : String) : Spares RichError.Innocent (checkStop text) :=
  Proc.yields_bind fun _ => Proc.yields_ite (Proc.yields_pure rfl) (Proc.yields_pure trivial)

theorem spares_checkHealthy (text : String) : Spares RichError.Innocent (checkHealthy text) :=
  Proc.yields_bind fun _ => Proc.yields_ite (Proc.yields_pure trivial) (Proc.yields_pure rfl)

theorem spares_checkAlloc (text : String) : Spares RichError.Innocent (checkAlloc text) :=
  Proc.yields_bind fun _ => Proc.yields_ite (Proc.yields_pure trivial) (Proc.yields_pure rfl)

theorem spares_batchClient (nullText stopText : String) :
    Spares RichError.Innocent (batchClient nullText stopText) := by
  refine Proc.yields_bind fun _ => Proc.YieldsUnless.ensuring (Proc.yields_bind fun impl => ?_)
  cases impl with
  | none => exact Proc.yields_pure rfl
  | some client =>
      exact Proc.yields_bind fun _ =>
        Proc.yields_ite (Proc.yields_pure rfl) (Proc.yields_pure trivial)

theorem spares_uaNodeIDAlloc (node : NodeId) : Spares RichError.Innocent (uaNodeIDAlloc node) := by
  have hvalidate : OnError RichError.Innocent node.validate := by
    unfold NodeId.validate
    cases node.id with
    | numeric n => trivial
    | string s =>
        dsimp only
        split_ifs <;> first | rfl | trivial
  refine spares_andThen (Proc.yields_pure hvalidate) fun _ => ?_
  cases node.id with
  | numeric n => exact Proc.yields_pure trivial
  | string s =>
      exact Proc.yields_bind fun allocated => Proc.yields_ite (Proc.yields_pure rfl)
        (Proc.yields_ite (Proc.yields_pure rfl) (Proc.yields_pure trivial))

/-- The checks of `batchRead` and `batchWrite` before the request is built. -/
theorem spares_checks {check : Impl (Result Unit RichError)}
    (hcheck : Spares RichError.Innocent check) (empty : Bool)
    (emptyText healthyText allocText : String) :
    Spares RichError.Innocent (Proc.andThen check fun _ =>
      if empty then pure (.error ⟨.invalidArgument, emptyText⟩)
      else Proc.andThen (checkHealthy healthyText) fun _ => checkAlloc allocText) :=
  spares_andThen hcheck fun _ => Proc.yields_ite (Proc.yields_pure rfl)
    (spares_andThen (spares_checkHealthy _) fun _ => spares_checkAlloc _)

theorem spares_readItem (v : ReadValue) : Spares RichError.Innocent (readItem v) :=
  spares_andThen (spares_uaNodeIDAlloc v.node) fun _ => Proc.yields_pure trivial

theorem spares_readResults (nodes : List ReadValue) (response : UA_ReadResponse) :
    Spares RichError.Innocent (readResults nodes response) := by
  unfold readResults
  cases response.results with
  | null size => exact Proc.yields_pure rfl
  | data items =>
      exact Proc.yields_ite (Proc.yields_pure rfl)
        (Proc.yields_bind fun _ => Proc.yields_bind fun _ => Proc.yields_pure trivial)

/-- A round ends the loop with no refusal, unless its checks find `m_connState` taken. -/
theorem spares_readAttempt (nodes : List ReadValue) (request : List UA_ReadValueId)
    (client : Handle) (startTime : Int) (maxRetries retry : UInt32) :
    Proc.YieldsUnless (fun o r => ImplOp.obstructed o r = true)
      (Sum.elim (fun _ => True) (OnError RichError.Innocent))
      (readAttempt nodes request client startTime maxRetries retry) := by
  have hchecks : Spares RichError.Innocent (readAttemptChecks startTime) :=
    spares_andThen (spares_checkStop _) fun _ => Proc.yields_bind fun _ =>
      Proc.yields_bind fun _ => Proc.yields_ite (Proc.yields_pure rfl) (spares_checkState _ _ _)
  refine Proc.yields_ite (hchecks.bind fun r hr => ?_) (Proc.yields_pure rfl)
  cases r with
  | error e => exact Proc.yields_pure hr
  | ok u =>
      refine Proc.yields_bind fun response => Proc.yields_ite (Proc.yields_ite ?_ ?_) ?_
      -- a bad status is tried again, or reported under its own code
      · exact Proc.yields_bind fun _ => Proc.yields_pure trivial
      · exact Proc.yields_bind fun name => Proc.yields_pure rfl
      · exact (spares_readResults nodes response).bind fun r hr => Proc.yields_pure hr

theorem spares_batchRead (nodes : List ReadValue) :
    Spares RichError.Innocent (batchRead nodes) := by
  refine spares_andThen (spares_checkStop _) fun _ => Proc.yields_bind fun _ =>
    Proc.YieldsUnless.ensuring ?_
  refine spares_andThen (spares_checks (spares_checkState _ _ _) _ _ _ _) fun _ =>
    spares_andThen (spares_mapResult spares_readItem nodes) fun request =>
      spares_andThen (spares_batchClient _ _) fun client => Proc.yields_bind fun config =>
        Proc.yields_bind fun startTime => Proc.YieldsUnless.loop fun retry => ?_
  exact spares_readAttempt nodes request client startTime config.maxRetries retry

theorem spares_writeItem (v : WriteValue) : Spares RichError.Innocent (writeItem v) := by
  have hconversion : OnError RichError.Innocent (writeConversion v.node.dataType v.value) := by
    unfold writeConversion
    cases writeConversion.uaType v.node.dataType with
    | none => rfl
    | some type =>
        dsimp only [writeConvert]
        split_ifs <;> first | rfl | trivial
  exact spares_andThen (spares_uaNodeIDAlloc v.node) fun nodeId =>
    spares_andThen (Proc.yields_pure hconversion) fun value => Proc.yields_bind fun status =>
      Proc.yields_ite (Proc.yields_pure rfl) (Proc.yields_pure trivial)

theorem spares_writeResults (nodes : List WriteValue) (response : UA_WriteResponse) :
    Spares RichError.Innocent (writeResults nodes response) := by
  unfold writeResults
  cases response.results with
  | null size => exact Proc.yields_bind fun name => Proc.yields_pure rfl
  | data items =>
      exact Proc.yields_ite
        (Proc.yields_bind fun _ => Proc.yields_bind fun _ => Proc.yields_pure trivial)
        (Proc.yields_bind fun name => Proc.yields_pure rfl)

theorem spares_batchWrite (nodes : List WriteValue) :
    Spares RichError.Innocent (batchWrite nodes) := by
  refine spares_andThen (spares_checkStop _) fun _ => Proc.yields_bind fun _ =>
    Proc.YieldsUnless.ensuring ?_
  exact spares_andThen (spares_checks (spares_checkState _ _ _) _ _ _ _) fun _ =>
    spares_andThen (spares_mapResult spares_writeItem nodes) fun request =>
      spares_andThen (spares_batchClient _ _) fun client => spares_andThen (spares_checkStop _)
        fun _ => spares_andThen (spares_checkState _ _ _) fun _ => Proc.yields_bind fun response =>
          spares_writeResults nodes response

/-! ### The connection calls -/

/-- The scope of a `CASGuard`, where a loser is answered by what it observed. -/
theorem spares_singleFlight (busy : ConnState → Result α E) {body : Impl (Result α E)}
    (hbusy : OnError P (busy .idle)) (hb : Spares P body) : Spares P (singleFlight busy body) := by
  refine Proc.yields_perform fun r hr => ?_
  rcases r with observed | u
  -- the exchange is a strong one, so a loser has observed CONNECTING
  · cases observed with
    | idle => exact Proc.yields_pure hbusy
    | connecting => exact absurd rfl hr
  · exact hb.ensuring

/-- A probe knows of no other call. -/
theorem spares_isConnected (ms : UInt32) : Spares (· ≠ .threadbusy) (isConnected ms) := by
  refine Proc.yields_bind fun stop => Proc.yields_ite (Proc.yields_pure nofun)
    (Proc.yields_bind fun impl => ?_)
  cases impl with
  | none => exact Proc.yields_pure nofun
  | some client =>
      exact Proc.yields_bind fun _ => Proc.yields_bind fun _ => Proc.yields_bind fun _ =>
        Proc.yields_bind fun _ => Proc.yields_pure trivial

theorem spares_connectTimedOut (client : Handle) :
    Spares (· ≠ .threadbusy) (connectTimedOut client) := by
  have habandon : Spares (· ≠ .threadbusy) (abandonConnect client) :=
    Proc.yields_bind fun _ => Proc.yields_bind fun _ => Proc.yields_pure nofun
  refine Proc.yields_bind fun last => ?_
  rcases last with e | healthy
  · cases e <;> first | exact habandon | exact Proc.yields_pure nofun
  · exact Proc.yields_bind fun _ =>
      Proc.yields_ite (Proc.yields_bind fun _ => Proc.yields_pure trivial) habandon

theorem spares_connectHeld (client : Handle) : Spares (· ≠ .threadbusy) (connectHeld client) := by
  refine Proc.yields_bind fun accepted => Proc.yields_ite ?_ (Proc.yields_pure nofun)
  refine Proc.yields_bind fun start => Proc.yields_bind fun deadline =>
    Proc.YieldsUnless.loop fun _ => ?_
  have hend : Proc.YieldsUnless (fun o r => ImplOp.obstructed o r = true)
      (Sum.elim (fun _ => True) (OnError (· ≠ .threadbusy)))
      (connectRoundEnd client start deadline) :=
    Proc.yields_bind fun expired => Proc.yields_ite
      ((spares_connectTimedOut client).bind fun r hr => Proc.yields_pure hr)
      (Proc.yields_bind fun stop =>
        Proc.yields_ite (Proc.yields_pure nofun) (Proc.yields_pure trivial))
  refine Proc.yields_bind fun r => ?_
  rcases r with e | healthy
  · cases e <;> first | exact hend | exact Proc.yields_pure nofun
  · exact Proc.yields_bind fun f =>
      Proc.yields_ite (Proc.yields_bind fun _ => Proc.yields_pure trivial) hend

/-- `Impl::connect` answers THREADBUSY when it has not won `m_connState`. -/
theorem spares_connect : Spares (· ≠ .threadbusy) connect := by
  refine Proc.yields_bind fun _ => Proc.YieldsUnless.ensuring ?_
  refine Proc.yields_bind fun stop => Proc.yields_ite (Proc.yields_pure nofun) ?_
  have hclient : Spares (· ≠ .threadbusy) connectClient := by
    refine Proc.yields_bind fun _ => Proc.YieldsUnless.ensuring (Proc.yields_bind fun stop =>
      Proc.yields_ite (Proc.yields_pure nofun) (Proc.yields_bind fun impl => ?_))
    cases impl with
    | none => exact Proc.yields_pure nofun
    | some client => exact Proc.yields_pure trivial
  refine hclient.bind fun client hclient => ?_
  cases client with
  | error e => exact Proc.yields_pure hclient
  | ok client => exact spares_singleFlight connectBusy nofun (spares_connectHeld client)

theorem spares_disconnectHeld (client : Handle) :
    Spares (· ≠ .threadbusy) (disconnectHeld client) := by
  refine Proc.yields_bind fun accepted => Proc.yields_ite ?_ (Proc.yields_pure nofun)
  refine Proc.yields_bind fun start => Proc.yields_bind fun deadline =>
    Proc.YieldsUnless.loop fun _ => Proc.yields_bind fun r => ?_
  have hexpired : Spares (· ≠ .threadbusy) (disconnectTimedOut client) :=
    Proc.yields_bind fun f => Proc.yields_ite (Proc.yields_bind fun _ => Proc.yields_pure trivial)
      (Proc.yields_bind fun _ => Proc.yields_bind fun _ => Proc.yields_pure nofun)
  rcases r with e | healthy
  · cases e <;> exact Proc.yields_pure nofun
  · refine Proc.yields_bind fun f => Proc.yields_bind fun _ =>
      Proc.yields_ite (Proc.yields_bind fun _ => Proc.yields_pure trivial) ?_
    exact Proc.yields_bind fun expired => Proc.yields_ite
      (hexpired.bind fun r hr => Proc.yields_pure hr)
      (Proc.yields_bind fun stop => Proc.yields_ite (Proc.yields_pure nofun)
        (Proc.yields_bind fun _ => Proc.yields_pure trivial))

/-- So does `Impl::disconnect`. -/
theorem spares_disconnect : Spares (· ≠ .threadbusy) disconnect := by
  refine Proc.yields_bind fun _ => Proc.YieldsUnless.ensuring ?_
  have hclient : Spares (· ≠ .threadbusy) disconnectClient := by
    refine Proc.yields_bind fun _ => Proc.YieldsUnless.ensuring (Proc.yields_bind fun impl => ?_)
    cases impl with
    | none => exact Proc.yields_pure nofun
    | some client =>
        exact Proc.yields_bind fun stop =>
          Proc.yields_ite (Proc.yields_pure nofun) (Proc.yields_pure trivial)
  refine hclient.bind fun client hclient => ?_
  cases client with
  | error e => exact Proc.yields_pure hclient
  | ok client =>
      exact spares_singleFlight disconnectBusy nofun (spares_disconnectHeld client)

/-! ### The public functions on their `Impl` -/

/-- The handlers of a public function report an exception under a code of its own. -/
theorem spares_catching {p : Impl (Result α RichError)} (hp : Spares RichError.Innocent p) :
    Spares RichError.Innocent (Api.catching p) := by
  refine hp.attempt.bind fun r hr => ?_
  cases r with
  | ok a => exact Proc.yields_pure (hr a rfl)
  | error e => exact Proc.yields_pure (innocent_ofExn _ e)

/-- So do those of the batches. -/
theorem spares_catchingBatch {p : Impl (Result α RichError)} (hp : Spares RichError.Innocent p) :
    Spares RichError.Innocent (Client.catchingBatch p) := by
  refine hp.attempt.bind fun r hr => ?_
  cases r with
  | ok a => exact Proc.yields_pure (hr a rfl)
  | error e => exact Proc.yields_pure (innocent_ofExn _ e)

theorem spares_apiConnect : Spares RichError.Innocent Api.connect := by
  refine spares_catching (spares_connect.bind fun r hr => ?_)
  cases r with
  | ok u => exact Proc.yields_pure trivial
  | error e => exact Proc.yields_pure (innocent_connect hr)

theorem spares_apiDisconnect : Spares RichError.Innocent Api.disconnect := by
  refine spares_catching (spares_disconnect.bind fun r hr => ?_)
  cases r with
  | ok u => exact Proc.yields_pure trivial
  | error e => exact Proc.yields_pure (innocent_disconnect hr)

theorem spares_checkConnected : Spares RichError.Innocent Api.checkConnected := by
  refine Proc.yields_bind fun stop => Proc.yields_ite (Proc.yields_pure rfl)
    (spares_catching ((spares_isConnected 0).bind fun r hr => ?_))
  rcases r with e | (_ | _)
  · exact Proc.yields_pure (innocent_connect hr)
  · exact Proc.yields_pure rfl
  · exact Proc.yields_pure trivial

theorem spares_isHealthy : Spares RichError.Innocent Api.isHealthy :=
  Proc.yields_bind fun _ => Proc.yields_ite (Proc.yields_pure rfl) (spares_catching
    (Proc.yields_bind fun _ =>
      Proc.yields_ite (Proc.yields_pure trivial) (Proc.yields_pure rfl)))

theorem spares_setGiveUpSignal : Spares RichError.Innocent setGiveUpSignal := by
  refine Proc.yields_bind fun life => Proc.YieldsUnless.loop fun expected =>
    Proc.yields_ite (Proc.yields_bind fun r => ?_) (Proc.yields_pure rfl)
  cases r with
  | ok u => exact Proc.yields_pure trivial
  | error observed => exact Proc.yields_pure trivial

end Impl

namespace Client

variable {α : Type}

/-- Unless it is obstructed, the function is not refused. -/
abbrev Spares (p : Client (Result α RichError)) : Prop :=
  Proc.YieldsUnless (fun o r => ClientOp.obstructed o r = true) (OnError RichError.Innocent) p

/-- A function of an `Impl`. -/
theorem yields_onImpl {Q : α → Prop} {p : Impl α}
    (hp : Proc.YieldsUnless (fun o r => ImplOp.obstructed o r = true) Q p) (i : ImplId) :
    Proc.YieldsUnless (fun o r => ClientOp.obstructed o r = true) Q (onImpl i p) :=
  Prog.ReturnsUnless.handle hp fun _ _ h => h

theorem spares_catching {systemText : String} {p : Client (Result α RichError)} (hp : Spares p) :
    Spares (catching systemText p) := by
  refine hp.attempt.bind fun r hr => ?_
  cases r with
  | ok a => exact Proc.yields_pure (hr a rfl)
  | error e => exact Proc.yields_pure (innocent_ofExn _ e)

/-- A public function under a lease: it is refused when the client is being recreated. -/
theorem spares_call {refusals : Refusals} {body : Impl (Result α RichError)}
    (hterminated : refusals.terminated.Innocent) (hnull : refusals.nullptr.Innocent)
    (hb : Impl.Spares RichError.Innocent body) : Spares (call refusals body) := by
  have hcurrent : Proc.YieldsUnless (fun o r => ClientOp.obstructed o r = true)
      (fun r => OnError RichError.Innocent r.2) (onCurrent refusals body) := by
    refine Proc.yields_bind fun i => ?_
    cases i with
    | none => exact Proc.yields_pure hnull
    | some i => exact (yields_onImpl hb i).bind fun r hr => Proc.yields_pure hr
  refine Proc.YieldsUnless.bind (R := fun r => OnError RichError.Innocent r.2)
    (Proc.yields_perform fun reason hreason => ?_)
    fun r hr => Proc.yields_bind fun _ => Proc.yields_pure hr
  cases reason with
  | recreating => exact absurd rfl hreason
  | terminated => exact Proc.yields_pure hterminated
  | active => exact hcurrent.ensuring

/-- `shutdown`. -/
theorem spares_shutdown : Spares shutdown := by
  refine Proc.yields_perform fun entry hentry => ?_
  cases entry with
  | recreating => exact absurd rfl hentry
  | terminated => exact Proc.yields_pure trivial
  | won =>
      refine (spares_catching (Proc.yields_bind fun doomed => ?_)).ensuring
      cases doomed with
      | none => exact Proc.yields_pure trivial
      | some i => exact Proc.yields_bind fun _ => Proc.yields_bind fun _ => Proc.yields_pure trivial

/-- Bringing a candidate up: nobody else can have won its `m_connState`. -/
theorem yields_bringUp (i : ImplId) :
    Proc.YieldsUnless (fun o r => ClientOp.obstructed o r = true)
      (fun r => OnError RichError.Innocent r.2) (bringUp i) := by
  have hstart : Impl.Spares RichError.Innocent Impl.startWatchdog :=
    Proc.yields_bind fun joinable => Proc.yields_ite (Proc.yields_pure trivial)
      (Proc.yields_bind fun _ => Proc.yields_bind fun r => Proc.yields_bind fun _ =>
        Proc.yields_pure trivial)
  refine Proc.yields_bind fun r => ?_
  rcases r with e | u
  · exact Proc.yields_pure rfl
  refine (yields_onImpl Impl.spares_connect i).bind fun r hr => ?_
  rcases r with e | u
  · exact Proc.yields_pure (innocent_connect hr)
  refine (yields_onImpl hstart i).bind fun r hr => ?_
  rcases r with e | u
  · exact Proc.yields_pure hr
  refine Proc.yields_bind fun adoption => ?_
  cases adoption with
  | terminated => exact Proc.yields_pure rfl
  | replaced old =>
      cases old with
      | none => exact Proc.yields_bind fun _ => Proc.yields_pure trivial
      | some j =>
          exact Proc.yields_bind fun _ => Proc.yields_bind fun _ => Proc.yields_bind fun _ =>
            Proc.yields_pure trivial

/-- `recreateGiveUpClient`: it is refused while another one is under way, and when the calls do not
drain. -/
theorem spares_recreateGiveUpClient : Spares recreateGiveUpClient := by
  have hcandidate : ∀ i, Spares (candidateScope i) := by
    refine fun i => Proc.yields_bind fun _ => (yields_bringUp i).attempt.bind fun r hr =>
      Proc.yields_bind fun _ => Proc.yields_bind fun _ => Proc.yields_bind fun _ => ?_
    cases r with
    | ok a => exact Proc.yields_pure (hr a rfl)
    | error e => exact Proc.yields_throw e
  have hwith : ∀ config, Spares (recreateWith config) := by
    refine fun config => Proc.yields_bind fun _ => Proc.yields_bind fun _ =>
      Proc.yields_bind fun _ => Proc.yields_bind fun client => Proc.yields_bind fun _ => ?_
    cases client with
    | none => exact Proc.yields_pure rfl
    | some handle => exact Proc.yields_bind fun _ => Proc.yields_bind fun i => hcandidate i
  have hguarded : Spares recreateGuarded := by
    refine Proc.yields_perform fun drained hdrained => ?_
    -- no call is left, so what follows fails only for reasons of its own
    obtain rfl : drained = true := by simpa [ClientOp.obstructed] using hdrained
    exact Proc.yields_bind fun life => Proc.yields_ite (Proc.yields_pure rfl)
      (Proc.yields_bind fun config => Proc.yields_bind fun found =>
        Proc.yields_ite (Proc.yields_pure rfl) (spares_catching (hwith _)))
  refine Proc.yields_perform fun entry hentry => ?_
  cases entry with
  | recreating => exact absurd rfl hentry
  | terminated => exact Proc.yields_pure rfl
  | won => exact Proc.yields_bind fun _ => hguarded.ensuring

end Client

/-! ### Every call -/

/-- Unless it is obstructed, a call is not refused. -/
theorem ClientCall.spares_run (c : ClientCall) :
    Proc.YieldsUnless (fun o r => ClientOp.obstructed o r = true) (¬ClientReply.Refused ·)
      c.run := by
  have hreply : ∀ {β : Type} (wrap : Result β RichError → ClientReply)
      {p : Client (Result β RichError)}, (∀ r, (wrap r).Refused → IsRefusal r) →
      Client.Spares p → Proc.YieldsUnless (fun o r => ClientOp.obstructed o r = true)
        (¬ClientReply.Refused ·) (Client.replying wrap p) := fun wrap _ hwrap hp =>
    Proc.YieldsUnless.bind hp fun r hr => Proc.yields_pure fun hrefused =>
      hr.not_isRefusal (hwrap r hrefused)
  cases c with
  | connect =>
      exact hreply .result (fun _ => id) (Client.spares_call rfl rfl Impl.spares_apiConnect)
  | disconnect =>
      exact hreply .result (fun _ => id) (Client.spares_call rfl rfl Impl.spares_apiDisconnect)
  | checkConnected =>
      exact hreply .result (fun _ => id) (Client.spares_call rfl rfl Impl.spares_checkConnected)
  | isHealthy =>
      exact hreply .result (fun _ => id) (Client.spares_call rfl rfl Impl.spares_isHealthy)
  | checkLifeState =>
      exact hreply .lifeState (fun _ => id) (Client.spares_call rfl rfl
        (Proc.yields_bind fun life => Proc.yields_pure (a := Except.ok life) trivial))
  | setGiveUpSignal =>
      exact hreply .result (fun _ => id)
        (Client.spares_call rfl rfl (Impl.spares_catching Impl.spares_setGiveUpSignal))
  | batchRead nodes =>
      exact hreply .read (fun _ => id) (Client.spares_call rfl rfl
        (Impl.spares_catchingBatch (Impl.spares_batchRead nodes)))
  | batchWrite nodes =>
      exact hreply .write (fun _ => id) (Client.spares_call rfl rfl
        (Impl.spares_catchingBatch (Impl.spares_batchWrite nodes)))
  | recreateGiveUpClient => exact hreply .result (fun _ => id) Client.spares_recreateGiveUpClient
  | shutdown => exact hreply .result (fun _ => id) Client.spares_shutdown
  | destructor | watchdog i => exact Proc.yields_bind fun _ => Proc.yields_pure id

/-- The moments at which an operation of the thread has found something taken. -/
def obstructions (t : Tid) (h : ClientHistory) : List ClientHistory :=
  Event.moments ClientOp.obstructed t h

/-- No moment goes by, and a refusal comes with a new one. -/
def RefusedFor (_ : ClientCall) (ℓ : List ClientHistory) (reply : ClientReply)
    (ℓ' : List ClientHistory) : Prop :=
  ℓ <:+ ℓ' ∧ (reply.Refused → ℓ' ≠ ℓ)

/-- In every run, a refusal comes with a moment at which the call has found something taken. -/
theorem refusals_of_reach {calls : Tid → List ClientCall} {w : ClientState} {c : ClientPool}
    {t : Tid} {replies : List ClientReply} (hc : ClientPool.Reach (.start calls w) c)
    (hret : c.Returned t (.ok replies)) :
    Chained RefusedFor (calls t) [] replies (obstructions t c.state.history) := by
  have hruns : (Protocol.momentsProtocol ClientState.exec ClientOp.obstructed).Follows t
      (ClientCall.runAll (calls t))
      (fun r ℓ' => ∀ replies, r = .ok replies → Chained RefusedFor (calls t) [] replies ℓ') [] :=
    Client.follows_runAll (I := fun _ _ => True) (fun c cs ℓ _ =>
      (Protocol.follows_moments c.spares_run ℓ).mono fun r ℓ' h reply hr =>
        ⟨⟨h.1, fun hrefused hsame => h.2 hsame reply hr hrefused⟩, trivial⟩) (calls t) trivial
  exact Protocol.own_returned hruns hc hret replies rfl

end OPCUAPacking
