import OPCUAPacking.Impl.Schedule
import OPCUAPacking.Variants

/-!
# The items of a read

What `batchRead` makes of the items of a response.

* `decodeRaw` — the body of its item loop on variants in memory; it decodes what `decodeRead`
  decodes (`decodeRaw_eq`).
* `ReadItem` — what the result of an item has to be, in terms of the item alone.
* `Served` — the response that a thread last received decides the results that it returns.
* `readItems_faithful` — in every run, a successful `batchRead` returns such results.
-/

namespace OPCUAPacking

open Interleaving

/-! ### One item -/

/-- `UA_DataValue` in memory. -/
structure RawDataValue where
  value : RawVariant
  status : UA_StatusCode

/-- The item with its pointers resolved. -/
def RawDataValue.abs (item : RawDataValue) : UA_DataValue := ⟨item.value.abs, item.status⟩

/-- The body of the item loop of `batchRead`. -/
def decodeRaw (node : ReadValue) (item : RawDataValue) : Option ReadResult :=
  if item.status.isGood then do
    let (r, value) ← dispatchRaw node.node.dataType item.value none
    match r with
    | .ok () => pure { rawStatus := item.status, value }
    | .error e => pure { rawStatus := item.status, value, errorCode := e.code }
  else pure { rawStatus := item.status, value := none, errorCode := .sdkError }

/-- It reads through no invalid pointer. -/
theorem decodeRaw_eq (node : ReadValue) (item : RawDataValue) :
    decodeRaw node item = some (Impl.decodeRead node item.abs) := by
  obtain ⟨var, status⟩ := item
  change (if status.isGood then _ else _) = some (if status.isGood then _ else _)
  split
  · rw [dispatchRaw_eq]
    unfold readDispatch readConversion setNormalScalar
    cases readConversion.uaType node.node.dataType with
    | none => rfl
    | some type =>
        dsimp only [RawDataValue.abs]
        cases readConvert type var.abs <;> rfl
  · rfl

/-- The scalar is the one of the value; a string in full length. -/
inductive Carries : UA_Scalar → ValueType → Prop where
  | boolean (v : Bool) : Carries (.boolean v) (.bool v)
  | sbyte (v : Int8) : Carries (.sbyte v) (.sint v)
  | byte (v : UInt8) : Carries (.byte v) (.byte v)
  | int16 (v : Int16) : Carries (.int16 v) (.int v)
  | uint16 (v : UInt16) : Carries (.uint16 v) (.word v)
  | int32 (v : Int32) : Carries (.int32 v) (.dint v)
  | uint32 (v : UInt32) : Carries (.uint32 v) (.udint v)
  | int64 (v : Int64) : Carries (.int64 v) (.lint v)
  | uint64 (v : UInt64) : Carries (.uint64 v) (.ulint v)
  | float (bits : BitVec 32) : Carries (.float bits) (.real bits)
  | double (bits : BitVec 64) : Carries (.double bits) (.lreal bits)
  | string (s : Bytes) : Carries (.string (some s)) (.string s)

/-- The variant is a scalar of exactly the type of the PLC type; the data of a string are there. -/
def RawVariant.Readable (dataType : S7DataType) (var : RawVariant) : Prop :=
  var.isScalar = true ∧ ∃ v, var.data = .object v ∧ dataType.uaType = some v.type ∧
    v ≠ .string none

/-- What the result of an item has to be. -/
structure ReadItem (dataType : S7DataType) (item : RawDataValue) (result : ReadResult) : Prop where
  /-- A value is present exactly with the code OK. -/
  value_iff : result.value.isSome = true ↔ result.errorCode = .ok
  /-- The code is OK exactly if the status is Good and the variant can be read as the type. -/
  ok_iff : result.errorCode = .ok ↔ item.status.isGood = true ∧ item.value.Readable dataType
  /-- The value is of the declared alternative, and the payload of the variant. -/
  payload : ∀ value, result.value = some value → value.Holds dataType ∧
    ∃ v, item.value.data = .object v ∧ Carries v value
  rawStatus : result.rawStatus = item.status
  /-- The other codes. -/
  notGood : item.status.isGood = false → result.errorCode = .sdkError
  unsupported : item.status.isGood = true → dataType ∉ S7DataType.scalars →
    result.errorCode = .typeNotsupport
  mismatch : item.status.isGood = true → dataType ∈ S7DataType.scalars →
    ¬item.value.Readable dataType → result.errorCode = .typeMismatch

/-- The conversion of a scalar yields its payload. -/
theorem carries_of_toValue {v : UA_Scalar} {value : ValueType} (h : v.toValue = .ok value) :
    Carries v value ∧ value.toUA.type = v.type ∧ v ≠ .string none := by
  cases v with
  | string data =>
      cases data with
      | none => cases h
      | some s =>
          cases h
          exact ⟨.string s, rfl, nofun⟩
  | other index => cases h
  | _ =>
      cases h
      exact ⟨by constructor, rfl, nofun⟩

/-- A scalar of a convertible type has a payload, unless it is a string without data. -/
theorem exists_toValue {dataType : S7DataType} {v : UA_Scalar}
    (htype : dataType.uaType = some v.type) (hdata : v ≠ .string none) :
    ∃ value, v.toValue = .ok value := by
  cases v with
  | string data =>
      cases data with
      | none => exact absurd rfl hdata
      | some s => exact ⟨_, rfl⟩
  | other index => cases dataType <;> cases htype
  | _ => exact ⟨_, rfl⟩

/-- The conversion of a variant in memory. -/
theorem readConvert_abs {dataType : S7DataType} {type : UA_DataType} (var : RawVariant)
    (htype : dataType.uaType = some type) :
    (∃ value v, readConvert type var.abs = .ok value ∧ var.data = .object v ∧ Carries v value ∧
        value.Holds dataType ∧ var.Readable dataType) ∨
      (∃ e, readConvert type var.abs = .error e ∧ e.code = .typeMismatch ∧
        ¬var.Readable dataType) := by
  by_cases hread : var.Readable dataType
  · obtain ⟨hscalar, v, hdata, htype', hstring⟩ := hread
    obtain ⟨value, hvalue⟩ := exists_toValue htype' hstring
    obtain ⟨hcarries, hsame, -⟩ := carries_of_toValue hvalue
    have hv : v.type = type := Option.some.inj (htype'.symm.trans htype)
    refine .inl ⟨value, v, ?_, hdata, hcarries, ?_, hscalar, v, hdata, htype', hstring⟩
    · rw [RawVariant.abs_eq_scalar.mpr ⟨hscalar, hdata⟩]
      exact (if_pos hv).trans hvalue
    · rw [ValueType.holds_iff, hsame, htype']
  · refine .inr ?_
    cases habs : var.abs with
    | empty => exact ⟨_, rfl, rfl, hread⟩
    | array type' length => exact ⟨_, rfl, rfl, hread⟩
    | scalar v =>
        obtain ⟨hscalar, hdata⟩ := RawVariant.abs_eq_scalar.mp habs
        by_cases hv : v.type = type
        · -- of the right type, but a string without data
          have hstring : v = .string none := by
            by_contra hne
            exact hread ⟨hscalar, v, hdata, hv ▸ htype, hne⟩
          subst hstring
          exact ⟨_, if_pos hv, rfl, hread⟩
        · exact ⟨_, if_neg hv, rfl, hread⟩

/-- The result of an item is what it has to be. -/
theorem readItem_decodeRead (node : ReadValue) (item : RawDataValue) :
    ReadItem node.node.dataType item (Impl.decodeRead node item.abs) := by
  obtain ⟨var, status⟩ := item
  change ReadItem _ _ (if status.isGood then _ else _)
  cases hgood : status.isGood with
  | false =>
      rw [if_neg nofun]
      constructor <;> simp [RawDataValue.abs, hgood]
  | true =>
      rw [if_pos rfl]
      unfold readConversion
      rw [readConversion.uaType_eq]
      cases htype : node.node.dataType.uaType with
      | none =>
          -- a type without a converter is not readable, whatever the server sends
          have hscalar : node.node.dataType ∉ S7DataType.scalars := by
            rw [← S7DataType.uaType_isSome, htype]
            exact nofun
          have hread : ¬var.Readable node.node.dataType := by
            rintro ⟨-, v, -, hv, -⟩
            cases htype.symm.trans hv
          constructor <;> simp [RawDataValue.abs, hgood, hscalar, hread]
      | some type =>
          have hscalar : node.node.dataType ∈ S7DataType.scalars := by
            rw [← S7DataType.uaType_isSome, htype]
            rfl
          dsimp only [RawDataValue.abs]
          rcases readConvert_abs var htype with
            ⟨value, v, hok, hdata, hcarries, hholds, hread⟩ | ⟨e, herr, hcode, hread⟩
          · rw [hok]
            constructor <;> simp [hgood, hscalar, hread, hholds]
            exact ⟨v, hdata, hcarries⟩
          · rw [herr]
            constructor <;> simp [hgood, hscalar, hread, hcode]

/-! ### Runs -/

/-- How an operation moves the last response that a thread received. -/
def responseTrack (_ : History) (ℓ : Option UA_ReadResponse) :
    (o : ImplOp) → o.Resp → Option UA_ReadResponse
  | .sdkReturn _ (.serviceRead _), .ok response => some response
  | _, _ => ℓ

/-- The last response to a `serviceRead` that thread `t` received. -/
def lastResponse (t : Tid) (es : History) : Option UA_ReadResponse :=
  Event.stage responseTrack none t es

/-- What a thread knows of the responses that it received. -/
abbrev responseProtocol : Protocol ImplSig (Traced ImplSig ImplState) (Option UA_ReadResponse) :=
  Protocol.own ImplState.exec responseTrack fun _ => none

/-- The results are those of the response, item by item. -/
def Served (nodes : List ReadValue) (r : Result (List ReadResult) RichError)
    (ℓ : Option UA_ReadResponse) : Prop :=
  ∀ results, r = .ok results → ∃ response items, ℓ = some response ∧
    response.results = .data items ∧ items.length = nodes.length ∧
    results = List.zipWith Impl.decodeRead nodes items

/-- What a function returns that returns the results. -/
def EndsServed (nodes : List ReadValue) :
    Except Exn (Result (List ReadResult) RichError) → Option UA_ReadResponse → Prop
  | .error _, _ => True
  | .ok r, ℓ => Served nodes r ℓ

/-- An error has no results. -/
theorem served_error {nodes : List ReadValue} {e : RichError} {ℓ : Option UA_ReadResponse} :
    Served nodes (.error e) ℓ := nofun

namespace Impl

variable {t : Tid} {nodes : List ReadValue} {ℓ : Option UA_ReadResponse}

/-- A part of which nothing is asked. -/
theorem served_skip {α : Type} (p : Impl α) (ℓ : Option UA_ReadResponse) :
    responseProtocol.Follows t p (fun _ _ => True) ℓ :=
  Protocol.follows_own_trivial (fun _ _ => trivial) ℓ

/-- A check before the results. -/
theorem served_andThen {α : Type} {p : Impl (Result α RichError)}
    {f : α → Impl (Result (List ReadResult) RichError)}
    (hf : ∀ a ℓ', responseProtocol.Follows t (f a) (EndsServed nodes) ℓ') :
    responseProtocol.Follows t (Proc.andThen p f) (EndsServed nodes) ℓ :=
  Protocol.Follows.andThen (fun _ _ => True) (served_skip p ℓ) (fun a ℓ' _ => hf a ℓ')
    (fun _ _ _ => served_error) fun _ _ _ => trivial

/-- The response is the last one received. -/
theorem served_serviceRead (client : Handle) (request : List UA_ReadValueId)
    (ℓ : Option UA_ReadResponse) :
    responseProtocol.Follows t (withLock .sdkMutex (sdk client (.serviceRead request)))
      (fun r ℓ' => ∀ response, r = .ok response → ℓ' = some response) ℓ := by
  refine follows_withLock (fun _ => trivial) (fun _ => trivial) (fun _ _ => rfl) (fun _ _ => rfl) ?_
  refine Protocol.Follows.bind _ (served_skip _ ℓ) (fun callbacks ℓ₁ _ => ?_) nofun
  refine Protocol.Follows.bind _ (served_skip _ ℓ₁) (fun _ ℓ₂ _ => ?_) nofun
  refine Protocol.follows_own_op fun es r => ?_
  cases r with
  | error e => exact nofun
  | ok response =>
      rintro _ ⟨⟩
      rfl

/-- The results of a response. -/
theorem served_readResults {response : UA_ReadResponse} (hℓ : ℓ = some response) :
    responseProtocol.Follows t (readResults nodes response) (EndsServed nodes) ℓ := by
  unfold readResults
  cases hresults : response.results with
  | null size => exact served_error
  | data items =>
      dsimp only
      split
      · exact served_error
      · next hmatch =>
        rw [Bool.or_eq_true, not_or, bne_iff_ne, not_not] at hmatch
        refine Protocol.follows_own_op fun es r => ?_
        cases r with
        | error e => exact trivial
        | ok u =>
            rintro _ ⟨⟩
            exact ⟨response, items, hℓ, hresults, hmatch.2, rfl⟩

/-- A round of the retry loop goes on, or leaves with the results of its response. -/
theorem served_readAttempt (request : List UA_ReadValueId) (client : Handle) (startTime : Int)
    (maxRetries retry : UInt32) (ℓ : Option UA_ReadResponse) :
    responseProtocol.Follows t (readAttempt nodes request client startTime maxRetries retry)
      (fun r ℓ' => Sum.elim (fun _ _ => True) (EndsServed nodes) (Proc.roundExit r) ℓ') ℓ := by
  unfold readAttempt
  split
  case isFalse => exact served_error
  case isTrue =>
  refine Protocol.Follows.bind _ (served_skip _ ℓ) (fun checked ℓ₁ _ => ?_) fun _ _ _ => trivial
  cases checked with
  | error e => exact served_error
  | ok u =>
      refine Protocol.Follows.bind _ (served_serviceRead client request ℓ₁)
        (fun response ℓ₂ hresponse => ?_) fun _ _ _ => trivial
      split
      · split
        · exact Protocol.Follows.bind _ (served_skip _ ℓ₂) (fun _ _ _ => trivial)
            fun _ _ _ => trivial
        · exact Protocol.Follows.bind _ (served_skip _ ℓ₂) (fun _ _ _ => served_error)
            fun _ _ _ => trivial
      · refine Protocol.Follows.bind _ (served_readResults (hresponse response rfl))
          (fun _ _ h => h)
          fun _ _ h => h

/-- A `batchRead` returns the results of the last response. -/
theorem served_batchRead (nodes : List ReadValue) (ℓ : Option UA_ReadResponse) :
    responseProtocol.Follows t (batchRead nodes) (EndsServed nodes) ℓ := by
  have hcounted : ∀ ℓ,
      responseProtocol.Follows t (batchReadCounted nodes) (EndsServed nodes) ℓ := by
    intro ℓ
    refine served_andThen fun _ ℓ₁ => served_andThen fun request ℓ₂ =>
      served_andThen fun client ℓ₃ => ?_
    refine Protocol.Follows.bind _ (served_skip _ ℓ₃) (fun config ℓ₄ _ => ?_) fun _ _ _ => trivial
    refine Protocol.Follows.bind _ (served_skip _ ℓ₄) (fun start ℓ₅ _ => ?_) fun _ _ _ => trivial
    exact Protocol.Follows.loop (fun _ _ => True) trivial fun retry ℓ' _ =>
      served_readAttempt request client start config.maxRetries retry ℓ'
  refine served_andThen fun _ ℓ₁ => ?_
  refine Protocol.Follows.bind _ (served_skip _ ℓ₁) (fun _ ℓ₂ _ => ?_) fun _ _ _ => trivial
  -- the guard leaves the results as they are
  refine Protocol.Follows.ensuring _ (hcounted ℓ₂) fun r ℓ₃ hr => ?_
  exact Protocol.follows_own_op fun es _ => ⟨rfl, hr⟩

end Impl

variable {calls : Tid → Option ImplCall} {s : ImplState} {c : ImplPool} {t : Tid}
  {nodes : List ReadValue} {results : List ReadResult}

/-- The results of a successful `batchRead` are those of the last response, and each is what the
item has to be, whatever the item looks like in memory. -/
theorem readItems_faithful (hcall : calls t = some (.batchRead nodes))
    (hc : ImplPool.Reach (ImplPool.start calls s) c)
    (hret : c.Returned t (.ok (.read (.ok results)))) :
    ∃ response items, lastResponse t c.state.history = some response ∧
      response.results = .data items ∧ items.length = nodes.length ∧
      results.length = nodes.length ∧
      ∀ (i : Nat) node result, nodes[i]? = some node → results[i]? = some result →
        ∃ item, items[i]? = some item ∧
          ∀ raw : RawDataValue, raw.abs = item → ReadItem node.node.dataType raw result := by
  have hfollows : responseProtocol.Follows t ((ImplPool.start calls s).pool t)
      (fun r ℓ => ∀ results, r = .ok (.read (.ok results)) → Served nodes (.ok results) ℓ)
      none := by
    change responseProtocol.Follows t (ImplCall.thread (calls t)) _ none
    rw [hcall]
    refine Protocol.Follows.bind _ (Impl.served_batchRead nodes none) (fun r ℓ hr => ?_) nofun
    rintro results ⟨⟩
    exact hr
  obtain ⟨response, items, hlast, hdata, hlen, rfl⟩ :=
    Protocol.own_returned hfollows hc hret results rfl results rfl
  refine ⟨response, items, hlast, hdata, hlen, by simp [hlen], ?_⟩
  intro i node result hnode hresult
  obtain ⟨item, hitem⟩ : ∃ item, items[i]? = some item := by
    have hi : i < items.length := hlen ▸ (List.getElem?_eq_some_iff.mp hnode).1
    exact ⟨items[i], List.getElem?_eq_getElem hi⟩
  refine ⟨item, hitem, ?_⟩
  rintro raw rfl
  rw [List.getElem?_zipWith_eq_some] at hresult
  obtain ⟨node', item', hnode', hitem', rfl⟩ := hresult
  cases hnode.symm.trans hnode'
  cases hitem.symm.trans hitem'
  exact readItem_decodeRead node raw

/-- A scalar and an array are read as an INT and a REAL. -/
def readScalarAndArray : Option ImplPool :=
  let env : Environment :=
    { readResults := .data [⟨.scalar (.int16 7), UA_StatusCode.good⟩,
        ⟨.array .float 2, UA_StatusCode.good⟩] }
  ImplPool.run [.batchRead [⟨{ ns := 1, id := .numeric 1, dataType := .int }⟩,
    ⟨{ ns := 1, id := .numeric 2, dataType := .real }⟩]] .connected (env.moves 0 34)

/-- The scalar is there, the array is a mismatch. -/
theorem readItems_faithful_array :
    ∃ c : ImplPool, ∃ results, c.Returned 0 (.ok (.read (.ok results))) ∧
      results = [{ value := some (.int 7) }, { errorCode := .typeMismatch }] ∧
      ∃ response, lastResponse 0 c.state.history = some response := by
  have hplay : readScalarAndArray.any (fun d => d.result? 0 == some (.ok (.read (.ok
      [{ value := some (.int 7) }, { errorCode := .typeMismatch }])))) = true := by
    decide
  obtain ⟨d, -, hd, hcheck⟩ := Config.exists_reach_of_play hplay
  have hret := Config.returned_of_result? (beq_iff_eq.mp hcheck)
  obtain ⟨response, -, hlast, -⟩ := readItems_faithful rfl hd hret
  exact ⟨d, _, hret, rfl, response, hlast⟩

end OPCUAPacking
