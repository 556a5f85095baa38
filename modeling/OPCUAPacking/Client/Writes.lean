import OPCUAPacking.Client.Calls
import OPCUAPacking.Client.Footprints
import OPCUAPacking.Client.Outcomes
import OPCUAPacking.Client.Schedule
import OPCUAPacking.Impl.Script
import OPCUAPacking.Interleaving.Census

/-!
# Writes

A `batchWrite` sends its batch to the server at most once, and what it returns says whether a retry
is safe. No other call sends anything.

* `WriteValue.Carried` — an item of a request carries an item of a batch.
* `Truthful` — what a `batchWrite` may say about what it has sent.
* `Client.write_run` — every call, with what it sends.
* `atMostOnce` — the result about every run.
-/

namespace OPCUAPacking

open Interleaving

/-- The item of a batch is refused: for its node identifier, for its type, for a value of another
type or for a string with an embedded NUL. -/
def WriteValue.rejected (v : WriteValue) : Bool :=
  v.node.rejected || v.node.dataType.uaType != some v.value.toUA.type || v.value.hasEmbeddedNul

/-- The item of a request carries the item of a batch. -/
structure WriteValue.Carried (v : WriteValue) (u : UA_WriteValue) : Prop where
  accepted : v.rejected = false
  nodeId : u.nodeId = ⟨v.node.ns, v.node.id⟩
  attributeId : u.attributeId = attributeIdValue
  /-- It is read back as the value that the caller has given. -/
  value : u.value.toValue = .ok v.value

/-- What a thread and the server say to each other about writes. -/
inductive Exchange where
  | sent (request : List UA_WriteValue)
  | answered (r : Except Exn UA_WriteResponse)

/-- The request that is sent. -/
def Exchange.request? : Exchange → Option (List UA_WriteValue)
  | .sent request => some request
  | .answered _ => none

/-- The writes of a thread. -/
structure WriteLog where
  /-- The batches that it has to write. -/
  due : List (List WriteValue)
  /-- What was said so far, oldest first. -/
  log : List Exchange := []

namespace WriteLog

/-- Something more is said. -/
def extend (ℓ : WriteLog) (δ : List Exchange) : WriteLog := { ℓ with log := ℓ.log ++ δ }

/-- The requests sent so far. -/
def requests (ℓ : WriteLog) : List (List UA_WriteValue) := ℓ.log.filterMap Exchange.request?

/-- The requests carry different batches, in their order. -/
def Fits (ℓ : WriteLog) (requests : List (List UA_WriteValue)) : Prop :=
  ∃ l : List (List WriteValue), l.Sublist ℓ.due ∧
    List.Forall₂ (List.Forall₂ WriteValue.Carried) l requests

/-- What an operation says. -/
def track (_ : ClientHistory) (ℓ : WriteLog) : (o : ClientOp) → o.Resp → WriteLog
  | .impl _ (.sdkCall _ (.serviceWrite request)), _ => ℓ.extend [.sent request]
  | .impl _ (.sdkReturn _ (.serviceWrite _)), r => ℓ.extend [.answered r]
  | _, _ => ℓ

/-- A request carries a batch that none has carried before. -/
def Allows (ℓ : WriteLog) : (o : ClientOp) → o.Resp → Prop
  | .impl _ (.sdkCall _ (.serviceWrite request)), _ => ℓ.Fits (ℓ.requests ++ [request])
  | _, _ => True

@[simp]
theorem extend_nil (ℓ : WriteLog) : ℓ.extend [] = ℓ := by simp [extend]

@[simp]
theorem extend_extend (ℓ : WriteLog) (δ δ' : List Exchange) :
    (ℓ.extend δ).extend δ' = ℓ.extend (δ ++ δ') := by
  simp [extend]

@[simp]
theorem extend_due (ℓ : WriteLog) (δ : List Exchange) : (ℓ.extend δ).due = ℓ.due := rfl

@[simp]
theorem requests_extend (ℓ : WriteLog) (δ : List Exchange) :
    (ℓ.extend δ).requests = ℓ.requests ++ δ.filterMap Exchange.request? := by
  simp [extend, requests]

end WriteLog

/-- The batches that are written by a list of calls. -/
def batches : List ClientCall → List (List WriteValue)
  | [] => []
  | .batchWrite nodes :: cs => nodes :: batches cs
  | _ :: cs => batches cs

/-- The writes of thread `t` after a history. -/
def writeLog (calls : Tid → List ClientCall) (t : Tid) (h : ClientHistory) : WriteLog :=
  Event.stage WriteLog.track ⟨batches (calls t), []⟩ t h

/-- The protocol of the writes. -/
abbrev writeProtocol (calls : Tid → List ClientCall) :
    Protocol ClientSig (Traced ClientSig ClientState) WriteLog :=
  Protocol.recorded ClientState.exec WriteLog.Allows WriteLog.track fun t => ⟨batches (calls t), []⟩

/-- The codes of errors that may come after a write. -/
def ErrorCode.isLate : ErrorCode → Bool
  | .serviceFailed | .sdkError | .internalError | .unknown => true
  | _ => false

/-- What is returned after a response of the server. -/
def Reports (nodes : List WriteValue) (response : UA_WriteResponse)
    (r : Result (List WriteResult) RichError) : Prop :=
  (∀ results, r = .ok results → ∃ items, response.serviceResult.isGood = true ∧
    response.results = .data items ∧ items.length = nodes.length ∧
      results = items.map Impl.decodeWrite) ∧
  ∀ e, r = .error e → e.code.isLate = true

/-- What a `batchWrite` that has said `δ` may return. -/
structure Truthful (nodes : List WriteValue) (δ : List Exchange)
    (r : Result (List WriteResult) RichError) : Prop where
  /-- It has sent nothing, or one request that carries the batch. -/
  once : δ = [] ∨ ∃ request answers, δ = .sent request :: answers ∧
    List.Forall₂ WriteValue.Carried nodes request ∧ answers.filterMap Exchange.request? = []
  /-- It reports the results that the server has answered. -/
  done : ∀ results, r = .ok results → ∃ request response items,
    δ = [.sent request, .answered (.ok response)] ∧ response.serviceResult.isGood = true ∧
      response.results = .data items ∧ items.length = nodes.length ∧
        results = items.map Impl.decodeWrite
  /-- After any other error than these, nothing was sent. -/
  refused : ∀ e, r = .error e → e.code.isLate = false → δ = []

/-- An error without a request. -/
theorem Truthful.unsent (nodes : List WriteValue) (e : RichError) :
    Truthful nodes [] (.error e) where
  once := .inl rfl
  done := by rintro _ ⟨⟩
  refused _ _ _ := rfl

/-- What a call has said that returns a reply: a `batchWrite` what it returns, and any other
nothing. -/
def ClientCall.Accounts (c : ClientCall) (ℓ : WriteLog) (reply : ClientReply) (ℓ' : WriteLog) :
    Prop :=
  match c, reply with
  | .batchWrite nodes, .write r => ∃ δ, ℓ' = ℓ.extend δ ∧ Truthful nodes δ r
  | .batchWrite _, _ => False
  | _, _ => ℓ' = ℓ

/-! ### The items -/

namespace Impl

/-- A node identifier that is accepted is sent as it is. -/
theorem yields_uaNodeIDAlloc (node : NodeId) :
    Proc.Yields (fun r => ∀ nodeId, r = .ok nodeId →
      node.rejected = false ∧ nodeId = ⟨node.ns, node.id⟩) (uaNodeIDAlloc node) := by
  refine Proc.YieldsUnless.andThen (R := fun r => node.validate = r) (Proc.yields_pure rfl)
    (by rintro e - _ ⟨⟩) fun _ hvalid => ?_
  have haccepted : node.rejected = false := by
    refine Bool.eq_false_iff.mpr fun hrejected => ?_
    obtain ⟨text, htext⟩ := NodeId.validate_of_rejected hrejected
    cases hvalid.symm.trans htext
  have htoUA := NodeId.toUA_of_validate hvalid
  unfold NodeId.toUA at htoUA
  cases hid : node.id with
  | numeric n =>
      refine Proc.yields_pure ?_
      rintro _ ⟨⟩
      exact ⟨haccepted, rfl⟩
  | string s =>
      simp only [hid] at htoUA
      refine Proc.yields_bind fun allocated => ?_
      split_ifs
      · exact Proc.yields_pure (by rintro _ ⟨⟩)
      · exact Proc.yields_pure (by rintro _ ⟨⟩)
      · refine Proc.yields_pure ?_
        rintro _ ⟨⟩
        exact ⟨haccepted, htoUA⟩

/-- So is an item. -/
theorem yields_writeItem (v : WriteValue) :
    Proc.Yields (fun r => ∀ u, r = .ok u → v.Carried u) (writeItem v) := by
  refine Proc.YieldsUnless.andThen (yields_uaNodeIDAlloc v.node) (by rintro e - _ ⟨⟩)
    fun nodeId hnodeId => ?_
  obtain ⟨hnode, rfl⟩ := hnodeId nodeId rfl
  refine Proc.YieldsUnless.andThen (R := fun r => writeConversion v.node.dataType v.value = r)
    (Proc.yields_pure rfl) (by rintro e - _ ⟨⟩)
    fun value hvalue => Proc.yields_bind fun status => ?_
  obtain ⟨htype, hnul, rfl⟩ := writeConversion_eq_ok.mp hvalue
  split_ifs
  · exact Proc.yields_pure (by rintro _ ⟨⟩)
  · refine Proc.yields_pure ?_
    rintro _ ⟨⟩
    refine ⟨?_, rfl, rfl, ValueType.toValue_toUA hnul⟩
    simp [WriteValue.rejected, hnode, htype, hnul]

/-- And a request. -/
theorem yields_buildWriteRequest (nodes : List WriteValue) :
    Proc.Yields (fun r => ∀ request, r = .ok request →
      List.Forall₂ WriteValue.Carried nodes request) (buildWriteRequest nodes) := by
  induction nodes with
  | nil =>
      refine Proc.yields_pure ?_
      rintro _ ⟨⟩
      exact .nil
  | cons v nodes ih =>
      refine Proc.YieldsUnless.andThen (yields_writeItem v) (by rintro e - _ ⟨⟩) fun u hu => ?_
      refine Proc.YieldsUnless.andThen ih (by rintro e - _ ⟨⟩) fun request hrequest =>
        Proc.yields_pure ?_
      rintro _ ⟨⟩
      exact .cons (hu u rfl) (hrequest request rfl)

/-- The results are those that the server has answered. -/
theorem yields_writeReport (nodes : List WriteValue) (response : UA_WriteResponse) :
    Proc.Yields (Reports nodes response) (writeResults nodes response) := by
  have hfailed : ∀ text : String, Proc.Yields (S := ImplSig) (ε := Exn)
      (Reports nodes response) (pure (.error ⟨.serviceFailed, text⟩)) := by
    refine fun text => Proc.yields_pure ⟨by rintro _ ⟨⟩, ?_⟩
    rintro _ ⟨⟩
    rfl
  unfold writeResults
  split
  · exact Proc.yields_bind fun name => hfailed _
  · next items hitems =>
    split_ifs with hgood
    · refine Proc.yields_bind fun r => Proc.yields_bind fun _ =>
        Proc.yields_pure ⟨?_, by rintro _ ⟨⟩⟩
      rintro _ ⟨⟩
      simp only [Bool.and_eq_true, beq_iff_eq] at hgood
      exact ⟨items, hgood.1.1, hitems, hgood.2, rfl⟩
    · exact Proc.yields_bind fun name => hfailed _

end Impl

/-! ### The silent parts -/

/-- The operation is no part of a write. -/
def ClientOp.Silent : ClientOp → Prop
  | .impl _ o => ¬o.Sends
  | _ => True

/-- It is always allowed, and says nothing. -/
theorem ClientOp.Silent.track_eq {o : ClientOp} (h : o.Silent) (es : ClientHistory) (ℓ : WriteLog)
    (r : o.Resp) : ℓ.Allows o r ∧ ℓ.track es o r = ℓ := by
  cases o with
  | impl i o =>
      cases o with
      | sdkCall client c | sdkReturn client c =>
          cases c <;> first | exact ⟨trivial, rfl⟩ | exact absurd trivial h
      | _ => exact ⟨trivial, rfl⟩
  | _ => exact ⟨trivial, rfl⟩

namespace Client

variable {calls : Tid → List ClientCall} {α : Type} {t : Tid} {i : ImplId} {ℓ : WriteLog}
  {nodes : List WriteValue} {request : List UA_WriteValue}

/-- The program on the `Impl` says nothing. -/
abbrev SilentOn (i : ImplId) (α : Type) (p : Impl α) : Prop :=
  Proc.Uses ClientOp.Silent (onImpl i p)

theorem closed_silentOn (i : ImplId) : @Proc.Closed ImplSig Exn (SilentOn i) :=
  (Proc.closed_uses (S := ClientSig) ClientOp.Silent).handle _

theorem silentOn_perform {o : ImplOp} (ho : ¬o.Sends) : SilentOn i _ (Impl.perform o) :=
  ⟨ho, fun _ => trivial⟩

/-- The functions that the calls are made of. -/
theorem busy_silentOn (i : ImplId) : Impl.Busy (SilentOn i) :=
  Impl.busy_of_ops (closed_silentOn i) fun _ _ ho => silentOn_perform ho

theorem lifecycle_silentOn (o : ImplOp) (ho : o.Lifecycle) : SilentOn i _ (Impl.perform o) := by
  refine silentOn_perform ?_
  cases o <;> first | exact id | exact ho.elim

theorem configures_silentOn (o : ImplOp) (ho : o.Configures) : SilentOn i _ (Impl.perform o) := by
  refine silentOn_perform ?_
  cases o <;> first | exact id | exact ho.elim

/-- The parts of the calls. -/
theorem parts_silent : Parts fun _ p => Proc.Uses ClientOp.Silent p where
  toClosed := Proc.closed_uses (S := ClientSig) ClientOp.Silent
  common o ho := uses_perform (by cases o <;> trivial)
  member i := Impl.members_of_ops (closed_silentOn i) fun _ _ ho => silentOn_perform ho
  shutdown i := (busy_silentOn i).toBlocks.shutdown lifecycle_silentOn
  destroy i := (busy_silentOn i).toBlocks.destroy lifecycle_silentOn (silentOn_perform id)
  watchdogBegin i := silentOn_perform id
  watchdogEnd i := silentOn_perform id

/-- Recreating a client. -/
theorem silent_recreateGiveUpClient : Proc.Uses ClientOp.Silent recreateGiveUpClient :=
  parts_silent.recreateGiveUpClient
    (fun o ho => uses_perform (by cases o <;> trivial))
    (fun i =>
      (busy_silentOn i).toPolling.configureClient (closed_silentOn i) configures_silentOn true)
    fun i => (busy_silentOn i).toPolling.startWatchdog (closed_silentOn i) (silentOn_perform id)
      (silentOn_perform id)

/-- A silent program leaves the log. -/
theorem write_silent {p : Client α} (hp : Proc.Uses ClientOp.Silent p) (ℓ : WriteLog) :
    (writeProtocol calls).Follows t p (fun _ ℓ' => ℓ' = ℓ) ℓ := by
  refine Protocol.keeps_recorded_of_uses (I := (· = ℓ)) ?_ hp ℓ rfl
  rintro o ho es _ r rfl
  exact ho.track_eq es _ r

/-- Continuing on success, after a silent program. -/
theorem write_andThen {β γ : Type} {R : β → Prop} {p : Impl (Result β RichError)}
    {f : β → Impl (Result γ RichError)}
    {Q : Except Exn (Result γ RichError) → WriteLog → Prop} (hp : SilentOn i _ p)
    (hR : Proc.Yields (fun r => ∀ a, r = .ok a → R a) p)
    (hf : ∀ a, R a → (writeProtocol calls).Follows t (onImpl i (f a)) Q ℓ)
    (he : ∀ e, Q (.ok (.error e)) ℓ) (hx : ∀ x, Q (.error x) ℓ) :
    (writeProtocol calls).Follows t (onImpl i (Proc.andThen p f)) Q ℓ := by
  refine Protocol.Follows.handle_bind (fun r ℓ' => ℓ' = ℓ ∧ ∀ a, r = .ok (.ok a) → R a) ?_ ?_ ?_
  · refine ((write_silent hp ℓ).and_returns (Prog.Returns.handle hR)).mono ?_
    rintro r _ ⟨rfl, hr⟩
    exact ⟨rfl, fun a ha => hr _ ha a rfl⟩
  · rintro (e | a) _ ⟨rfl, hr⟩
    · exact he e
    · exact hf a (hr a rfl)
  · rintro x _ ⟨rfl, -⟩
    exact hx x

/-- So it is where nothing is known of the first part. -/
theorem write_then {β γ : Type} {p : Impl (Result β RichError)} {f : β → Impl (Result γ RichError)}
    {Q : Except Exn (Result γ RichError) → WriteLog → Prop} (hp : SilentOn i _ p)
    (hf : ∀ a, (writeProtocol calls).Follows t (onImpl i (f a)) Q ℓ)
    (he : ∀ e, Q (.ok (.error e)) ℓ) (hx : ∀ x, Q (.error x) ℓ) :
    (writeProtocol calls).Follows t (onImpl i (Proc.andThen p f)) Q ℓ :=
  write_andThen (R := fun _ => True) hp (Proc.yields_of_forall (fun _ _ _ => trivial) p)
    (fun a _ => hf a) he hx

/-! ### batchWrite -/

/-- What a batch has said, when it ends. -/
def Wrote (nodes : List WriteValue) (ℓ : WriteLog)
    (r : Except Exn (Result (List WriteResult) RichError)) (ℓ' : WriteLog) : Prop :=
  (ℓ' = ℓ ∧ ∀ results, r ≠ .ok (.ok results)) ∨
  ∃ request answers, ℓ' = ℓ.extend (.sent request :: answers) ∧
    List.Forall₂ WriteValue.Carried nodes request ∧
      answers.filterMap Exchange.request? = [] ∧
        ∀ a, r = .ok a → ∃ response, answers = [.answered (.ok response)] ∧ Reports nodes response a

/-- One call of the service. -/
theorem write_sdk (client : Handle) (hfits : ℓ.Fits (ℓ.requests ++ [request])) :
    (writeProtocol calls).Follows t
      (onImpl i (Impl.withLock .sdkMutex (Impl.sdk client (.serviceWrite request))))
      (fun r ℓ' => ∃ answers, ℓ' = ℓ.extend (.sent request :: answers) ∧
        answers.filterMap Exchange.request? = [] ∧
          ∀ response, r = .ok response → answers = [.answered (.ok response)]) ℓ := by
  refine follows_onImpl_perform fun es _ => ⟨trivial, ?_⟩
  refine Protocol.Follows.handle_ensuring (fun r ℓ' => ∃ answers,
    ℓ' = ℓ.extend (.sent request :: answers) ∧ answers.filterMap Exchange.request? = [] ∧
      ∀ response, r = .ok response → answers = [.answered (.ok response)]) ?_ fun r ℓ' h =>
    Protocol.follows_recorded_op fun es' _ => ⟨trivial, rfl, h⟩
  refine follows_onImpl_perform fun es' callbacks => ⟨hfits, ?_⟩
  -- the request is sent when the call starts; its callbacks and its answer come later
  have hcallbacks : SilentOn i _ (Proc.forEach Impl.runCallback callbacks) :=
    (closed_silentOn i).toComposed.forEach (busy_silentOn i).runCallback callbacks
  refine Protocol.Follows.handle_bind _ (write_silent hcallbacks _) ?_ ?_
  · rintro _ _ rfl
    refine follows_onImpl_perform fun es'' r => ⟨trivial, ?_⟩
    cases r with
    | ok response =>
        exact ⟨[.answered (.ok response)], by simp [WriteLog.track], rfl, by rintro _ ⟨⟩; rfl⟩
    | error x => exact ⟨[.answered (.error x)], by simp [WriteLog.track], rfl, by rintro _ ⟨⟩⟩
  · rintro x _ rfl
    exact ⟨[], rfl, rfl, by rintro _ ⟨⟩⟩

/-- The service, with the results that follow from its response. -/
theorem write_writeService (client : Handle)
    (hcarried : List.Forall₂ WriteValue.Carried nodes request)
    (hfits : ℓ.Fits (ℓ.requests ++ [request])) :
    (writeProtocol calls).Follows t (onImpl i (Impl.writeService nodes request client))
      (Wrote nodes ℓ) ℓ := by
  refine Protocol.Follows.handle_bind _ (write_sdk client hfits) ?_ ?_
  · rintro response _ ⟨answers, rfl, -, hanswers⟩
    have hresults : SilentOn i _ (Impl.writeResults nodes response) :=
      (busy_silentOn i).toBlocks.writeResults nodes response
    refine ((write_silent hresults _).and_returns
      (Prog.Returns.handle (Impl.yields_writeReport nodes response))).mono ?_
    rintro r _ ⟨rfl, hreports⟩
    obtain rfl := hanswers response rfl
    exact .inr ⟨request, _, rfl, hcarried, rfl, fun a ha => ⟨response, rfl, hreports a ha⟩⟩
  · rintro x _ ⟨answers, rfl, hnone, -⟩
    exact .inr ⟨request, answers, rfl, hcarried, hnone, by rintro _ ⟨⟩⟩

/-- `Impl::batchWrite`. -/
theorem write_implBatchWrite (hfits : ∀ request, List.Forall₂ WriteValue.Carried nodes request →
      ℓ.Fits (ℓ.requests ++ [request])) :
    (writeProtocol calls).Follows t (onImpl i (Impl.batchWrite nodes)) (Wrote nodes ℓ) ℓ := by
  have hB := (busy_silentOn i).toBlocks
  have hconn : SilentOn i _ (Impl.load .connState) := silentOn_perform id
  -- before the service nothing is said
  have he : ∀ e, Wrote nodes ℓ (.ok (.error e)) ℓ := fun e => .inl ⟨rfl, by rintro _ ⟨⟩⟩
  have hx : ∀ x, Wrote nodes ℓ (.error x) ℓ := fun x => .inl ⟨rfl, by rintro _ ⟨⟩⟩
  refine write_then (hB.checkStop _) (fun _ => ?_) he hx
  refine follows_onImpl_perform fun es _ => ⟨trivial, ?_⟩
  refine Protocol.Follows.handle_ensuring (Wrote nodes ℓ) ?_ fun r ℓ' h =>
    Protocol.follows_recorded_op fun es' _ => ⟨trivial, rfl, h⟩
  refine write_then (hB.writeChecks hconn nodes) (fun _ => ?_) he hx
  refine write_andThen (hB.buildWriteRequest nodes) (Impl.yields_buildWriteRequest nodes)
    (fun request hrequest => ?_) he hx
  refine write_then (hB.batchClient _ _) (fun client => ?_) he hx
  refine write_then (hB.checkStop _) (fun _ => ?_) he hx
  refine write_then (hB.checkState hconn _ _ _) (fun _ => ?_) he hx
  exact write_writeService client hrequest (hfits request hrequest)

/-- What a `batchWrite` returns is truthful. -/
theorem Wrote.truthful {r : Except Exn (Result (List WriteResult) RichError)} {ℓ' : WriteLog}
    {a : Result (List WriteResult) RichError} (h : Wrote nodes ℓ r ℓ')
    (hok : ∀ b, r = .ok b → a = b)
    (hthrow : ∀ x, r = .error x → a = .error (.ofExn "System error: " x)) :
    ∃ δ, ℓ' = ℓ.extend δ ∧ Truthful nodes δ a := by
  rcases h with ⟨rfl, hnot⟩ | ⟨request, answers, rfl, hcarried, hnone, hreports⟩
  · refine ⟨[], by simp, .inl rfl, ?_, fun _ _ _ => rfl⟩
    rintro results rfl
    cases r with
    | ok b => exact absurd (congrArg Except.ok (hok b rfl).symm) (hnot results)
    | error x => cases hthrow x rfl
  · refine ⟨_, rfl, .inr ⟨request, answers, rfl, hcarried, hnone⟩, ?_, ?_⟩
    · rintro results rfl
      cases r with
      | ok b =>
          obtain rfl := hok b rfl
          obtain ⟨response, rfl, hdone, -⟩ := hreports _ rfl
          obtain ⟨items, hitems⟩ := hdone results rfl
          exact ⟨request, response, items, rfl, hitems⟩
      | error x => cases hthrow x rfl
    · rintro e rfl hcode
      cases r with
      | ok b =>
          obtain rfl := hok b rfl
          -- after a request the errors are the late ones
          obtain ⟨response, -, -, hlate⟩ := hreports _ rfl
          exact absurd ((hlate e rfl).symm.trans hcode) (by decide)
      | error x =>
          cases hthrow x rfl
          cases x <;> cases hcode

/-- The handlers of `batchWrite` throw nothing. -/
theorem write_catchingBatch (hfits : ∀ request, List.Forall₂ WriteValue.Carried nodes request →
      ℓ.Fits (ℓ.requests ++ [request])) :
    (writeProtocol calls).Follows t (onImpl i (catchingBatch (Impl.batchWrite nodes)))
      (fun r ℓ' => ∀ a, r = .ok a → ∃ δ, ℓ' = ℓ.extend δ ∧ Truthful nodes δ a) ℓ := by
  refine Protocol.Follows.handle_bind (fun r ℓ' => ∀ a, r = .ok a → Wrote nodes ℓ a ℓ') ?_ ?_ ?_
  · rw [Proc.handle_attempt]
    refine Protocol.follows_attempt.mpr ((write_implBatchWrite hfits).mono ?_)
    rintro r ℓ' h _ ⟨⟩
    exact h
  · rintro (x | b) ℓ' h _ ⟨⟩
    · exact (h _ rfl).truthful (by rintro _ ⟨⟩) (by rintro _ ⟨⟩; rfl)
    · exact (h _ rfl).truthful (by rintro _ ⟨⟩; rfl) (by rintro _ ⟨⟩)
  · rintro x ℓ' - _ ⟨⟩

/-- What a program may return that has said `δ`. -/
abbrev Says {β : Type} (T : List Exchange → β → Prop) (ℓ : WriteLog) (r : Except Exn β)
    (ℓ' : WriteLog) : Prop :=
  ∀ a, r = .ok a → ∃ δ, ℓ' = ℓ.extend δ ∧ T δ a

/-- `OPC_UA_Client::batchWrite`. -/
theorem write_batchWrite (hfits : ∀ request, List.Forall₂ WriteValue.Carried nodes request →
      ℓ.Fits (ℓ.requests ++ [request])) :
    (writeProtocol calls).Follows t (batchWrite nodes) (Says (Truthful nodes) ℓ) ℓ := by
  have hunsent : ∀ e, Says (fun δ a => Truthful nodes δ a.2) ℓ
      (.ok ((none, .error e) : Option ImplId × Result (List WriteResult) RichError)) ℓ := by
    rintro e _ ⟨⟩
    exact ⟨[], by simp, .unsent nodes e⟩
  have hleased : (writeProtocol calls).Follows t
      (leased (refusals "batchWrite") (catchingBatch (Impl.batchWrite nodes)))
      (Says (fun δ a => Truthful nodes δ a.2) ℓ) ℓ := by
    refine Protocol.follows_recorded_perform fun es reason => ⟨trivial, ?_⟩
    cases reason with
    | recreating | terminated => exact hunsent _
    | active =>
        refine Protocol.Follows.ensuring (Says (fun δ a => Truthful nodes δ a.2) ℓ) ?_
          fun r ℓ' h => Protocol.follows_recorded_op fun es' _ => ⟨trivial, rfl, h⟩
        refine Protocol.follows_recorded_perform fun es' i => ⟨trivial, ?_⟩
        cases i with
        | none => exact hunsent _
        | some i =>
            refine Protocol.Follows.bind _ (write_catchingBatch hfits) ?_ (by rintro x ℓ' - _ ⟨⟩)
            rintro a ℓ' h _ ⟨⟩
            exact h a rfl
  refine Protocol.Follows.bind _ hleased ?_ (by rintro x ℓ' - _ ⟨⟩)
  -- dropping the pointer may run the destructor, which sends nothing
  intro r ℓ' h
  have hdrop : Proc.Uses ClientOp.Silent (dropIfAny r.1) := by
    cases r.1 with
    | none => exact trivial
    | some i => exact parts_silent.drop i
  refine Protocol.Follows.bind _ (write_silent hdrop ℓ') ?_ (by rintro x ℓ' - _ ⟨⟩)
  rintro _ _ rfl _ ⟨⟩
  exact h r rfl

/-! ### Every call -/

/-- The calls that are still to be run find room for their batches. -/
def HasRoom (cs : List ClientCall) (ℓ : WriteLog) : Prop :=
  ∃ l : List (List WriteValue), (l ++ batches cs).Sublist ℓ.due ∧
    List.Forall₂ (List.Forall₂ WriteValue.Carried) l ℓ.requests

/-- A call says what it returns, and leaves room for those that follow. -/
theorem write_run (c : ClientCall) (cs : List ClientCall) (ℓ : WriteLog)
    (hroom : HasRoom (c :: cs) ℓ) :
    (writeProtocol calls).Follows t c.run
      (fun r ℓ' => ∀ reply, r = .ok reply → c.Accounts ℓ reply ℓ' ∧ HasRoom cs ℓ') ℓ := by
  obtain ⟨l, hsub, hcarried⟩ := hroom
  have hsilent : (∀ nodes, c ≠ .batchWrite nodes) → (writeProtocol calls).Follows t c.run
      (fun r ℓ' => ∀ reply, r = .ok reply → c.Accounts ℓ reply ℓ' ∧ HasRoom cs ℓ') ℓ := by
    intro hc
    have hbatches : batches (c :: cs) = batches cs := by
      cases c with
      | batchWrite nodes => exact absurd rfl (hc nodes)
      | _ => rfl
    refine (write_silent (parts_silent.run c (fun nodes h => absurd h (hc nodes))
      fun _ => silent_recreateGiveUpClient) ℓ).mono ?_
    rintro _ _ rfl reply -
    -- the log is the same, and so are the batches to come
    refine ⟨?_, l, hbatches ▸ hsub, hcarried⟩
    cases c with
    | batchWrite nodes => exact absurd rfl (hc nodes)
    | _ => rfl
  cases c with
  | batchWrite nodes =>
      change (l ++ nodes :: batches cs).Sublist ℓ.due at hsub
      have hafter : ∀ {request}, List.Forall₂ WriteValue.Carried nodes request →
          List.Forall₂ (List.Forall₂ WriteValue.Carried) (l ++ [nodes]) (ℓ.requests ++ [request]) :=
        fun h => List.rel_append hcarried (.cons h .nil)
      refine Protocol.Follows.bind _ (write_batchWrite fun request h => ?_) ?_
        (by rintro x ℓ' - _ ⟨⟩)
      · refine ⟨l ++ [nodes], .trans ?_ hsub, hafter h⟩
        simp
      · rintro r ℓ' h _ ⟨⟩
        obtain ⟨δ, rfl, htruthful⟩ := h r rfl
        refine ⟨⟨δ, rfl, htruthful⟩, ?_⟩
        -- nothing was sent and the batch is skipped, or one request was and it carries the batch
        rcases htruthful.once with rfl | ⟨request, answers, rfl, hrequest, hnone⟩
        · refine ⟨l, .trans ?_ hsub, by simpa using hcarried⟩
          exact (List.Sublist.refl l).append (List.sublist_cons_self nodes _)
        · refine ⟨l ++ [nodes], by simpa using hsub, ?_⟩
          simpa [hnone, Exchange.request?] using hafter hrequest
  | _ => exact hsilent (by rintro _ ⟨⟩)

end Client

/-! ### Runs -/

variable {calls : Tid → List ClientCall} {w : ClientState} {c : ClientPool}

/-- An operation that is allowed keeps the batches apart. -/
theorem WriteLog.fits_track {ℓ : WriteLog} {o : ClientOp} {r : o.Resp} (es : ClientHistory)
    (hfits : ℓ.Fits ℓ.requests) (hallows : ℓ.Allows o r) :
    (ℓ.track es o r).due = ℓ.due ∧ (ℓ.track es o r).Fits (ℓ.track es o r).requests := by
  by_cases ho : o.Silent
  · rw [(ho.track_eq es ℓ r).2]
    exact ⟨rfl, hfits⟩
  · cases o with
    | impl i o =>
        cases o with
        | sdkCall client call =>
            cases call with
            | serviceWrite request =>
                refine ⟨rfl, ?_⟩
                change ℓ.Fits (ℓ.extend [.sent request]).requests
                rw [requests_extend]
                exact hallows
            | _ => exact absurd id ho
        | sdkReturn client call =>
            cases call with
            | serviceWrite request =>
                refine ⟨rfl, ?_⟩
                -- an answer is no request
                change ℓ.Fits (ℓ.extend [.answered r]).requests
                rw [requests_extend, List.filterMap_cons_none rfl, List.filterMap_nil,
                  List.append_nil]
                exact hfits
            | _ => exact absurd id ho
        | _ => exact absurd id ho
    | _ => exact absurd trivial ho

/-- Every batch is sent at most once, and what is returned says whether it was. -/
structure AtMostOnce (calls : Tid → List ClientCall) (c : ClientPool) : Prop where
  /-- What a thread has sent so far carries batches of different calls of it, in their order. -/
  sent : ∀ t, ∃ l : List (List WriteValue), l.Sublist (batches (calls t)) ∧
    List.Forall₂ (List.Forall₂ WriteValue.Carried) l (writeLog calls t c.state.history).requests
  /-- When its calls have returned, each has said what its reply accounts for. -/
  returned : ∀ t replies, c.Returned t (.ok replies) →
    Chained ClientCall.Accounts (calls t) ⟨batches (calls t), []⟩ replies
      (writeLog calls t c.state.history)

/-- In every run, from any state of the client, a batch is sent at most once. -/
theorem atMostOnce (hc : ClientPool.Reach (.start calls w) c) : AtMostOnce calls c := by
  have hfollows : ∀ u, (writeProtocol calls).Follows u ((ClientPool.start calls w).pool u)
      (fun r ℓ' => ∀ replies, r = .ok replies →
        Chained ClientCall.Accounts (calls u) ⟨batches (calls u), []⟩ replies ℓ')
      ⟨batches (calls u), []⟩ := fun u =>
    Client.follows_runAll Client.write_run (calls u) ⟨[], List.Sublist.refl _, .nil⟩
  constructor
  · have hinv := Protocol.recorded_invariant
      (fun s : Traced ClientSig ClientState => ∀ u,
        (writeLog calls u s.history).due = batches (calls u) ∧
          (writeLog calls u s.history).Fits (writeLog calls u s.history).requests)
      rfl hfollows (fun u => ⟨rfl, [], List.nil_sublist _, .nil⟩) ?_ hc
    · intro t
      obtain ⟨hdue, l, hsub, hcarried⟩ := hinv t
      exact ⟨l, hdue ▸ hsub, hcarried⟩
    · intro t o r s s' hs hstep hallows u
      rw [hstep.history_eq]
      by_cases hut : t = u
      · subst hut
        obtain ⟨hdue, hfits⟩ := hs t
        obtain ⟨hdue', hfits'⟩ := WriteLog.fits_track s.history hfits hallows
        rw [writeLog, Event.stage_cons_self]
        exact ⟨hdue'.trans hdue, hfits'⟩
      · rw [writeLog, Event.stage_cons_ne hut]
        exact hs u
  · intro t replies ht
    exact (Protocol.recorded_each rfl hfollows hc).2 t _ ht replies rfl

/-- A word of a data block. -/
def wordNode : NodeId := { ns := 3, id := .numeric 7, dataType := .word }

/-- A thread writes a word, and then a value of another type. -/
def writeCalls : Tid → List ClientCall :=
  ClientPool.callsOf
    [[.batchWrite [⟨wordNode, .word 5⟩], .batchWrite [⟨wordNode, .bool true⟩]]]

/-- The server accepts what is written. -/
def writesOnce : Option ClientPool :=
  ClientPool.run [[.batchWrite [⟨wordNode, .word 5⟩], .batchWrite [⟨wordNode, .bool true⟩]]]
    .connected (({ writeResults := .data [UA_StatusCode.good] } : Environment).clientMoves 0 50)

/-- The second batch is refused, and only the first one is sent. -/
theorem atMostOnce_refused :
    ∃ c : ClientPool, AtMostOnce writeCalls c ∧
      c.Returned 0 (.ok [.write (.ok [⟨.good, .ok, UA_StatusCode.good⟩]),
        .write (.error ⟨.typeMismatch,
          "writeTraits: declared S7DataType does not match the ValueType alternative"⟩)]) ∧
      (writeLog writeCalls 0 c.state.history).requests =
        [[⟨⟨3, .numeric 7⟩, attributeIdValue, .uint16 5⟩]] := by
  have hplay : writesOnce.any (fun d =>
      d.result? 0 == some (.ok [.write (.ok [⟨.good, .ok, UA_StatusCode.good⟩]),
        .write (.error ⟨.typeMismatch,
          "writeTraits: declared S7DataType does not match the ValueType alternative"⟩)]) &&
      (writeLog writeCalls 0 d.state.history).requests ==
        [[⟨⟨3, .numeric 7⟩, attributeIdValue, .uint16 5⟩]]) = true := by
    decide
  obtain ⟨d, -, hd, hcheck⟩ := Config.exists_reach_of_play hplay
  simp only [Bool.and_eq_true, beq_iff_eq] at hcheck
  exact ⟨d, atMostOnce hd, Config.returned_of_result? hcheck.1, hcheck.2⟩

end OPCUAPacking
