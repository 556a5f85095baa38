import OPCUAPacking.StateWord
import OPCUAPacking.Values

/-!
# Conversion between values and variants

The two dispatchers as the batch functions call them: `readConversion::dispatch` with the optional
value that it fills, `writeConversion::dispatch` with the copy into the variant of the write value.

* `ValueType.Holds` — which alternative belongs to which PLC type.
* `readDispatch`, `writeDispatch` — the dispatchers.
* `conversion_roundTrip` — what is accepted for a write, how it is read back, and as what type it
  is not.
-/

namespace OPCUAPacking

/-- The alternative is the one that the PLC type declares. -/
def ValueType.Holds : ValueType → S7DataType → Prop
  | .bool _, .bool => True
  | .sint _, .sint => True
  | .byte _, .byte => True
  | .int _, .int => True
  | .word _, .word => True
  | .dint _, .dint => True
  | .udint _, .udint => True
  | .udint _, .dword => True
  | .lint _, .lint => True
  | .ulint _, .ulint => True
  | .real _, .real => True
  | .lreal _, .lreal => True
  | .string _, .string => True
  | _, _ => False

/-- The 13 scalar types. -/
def S7DataType.scalars : List S7DataType :=
  [.bool, .sint, .byte, .int, .word, .dint, .udint, .dword, .lint, .ulint, .real, .lreal, .string]

/-- `var.type` is not null. -/
def UA_Variant.hasType : UA_Variant → Bool
  | .empty => false
  | _ => true

/-- `var.data` is not null; an empty array has the sentinel. -/
def UA_Variant.hasData : UA_Variant → Bool
  | .empty => false
  | _ => true

/-- `setNormalScalar`: the result, and what the optional holds after it. -/
def setNormalScalar (type : UA_DataType) (var : UA_Variant) :
    Result Unit RichError × Option ValueType :=
  match readConvert type var with
  | .ok value => (.ok (), some value)
  | .error e => (.error e, none)

/-- `readConversion::dispatch`, with what the optional holds before it. -/
def readDispatch (dataType : S7DataType) (var : UA_Variant) (value : Option ValueType) :
    Result Unit RichError × Option ValueType :=
  match readConversion.uaType dataType with
  | some type => setNormalScalar type var
  | none => (.error ⟨.typeNotsupport, "Unsupported S7DataType"⟩, value)

section Copy

-- `UA_Variant_setScalarCopy`: its status, and the variant that it leaves.
variable (setScalarCopy : UA_Scalar → UA_StatusCode × UA_Variant)

/-- The rest of `writeTraits::convert`, from the copy on: the variant of the write value. -/
def copyScalar (v : UA_Scalar) : Result UA_Variant RichError :=
  if (setScalarCopy v).1 ≠ UA_StatusCode.good then
    .error (.ofContext "OPCUADataCovert : batchSet_UA_Scalar_StatusCode fail")
  else if !(setScalarCopy v).2.hasType then .error (.ofContext "value.type null")
  else if !(setScalarCopy v).2.hasData then .error (.ofContext "value.data null")
  else .ok (setScalarCopy v).2

/-- `writeConversion::dispatch`: the variant of the write value. -/
def writeDispatch (dataType : S7DataType) (value : ValueType) : Result UA_Variant RichError :=
  match writeConversion dataType value with
  | .ok v => copyScalar setScalarCopy v
  | .error e => .error e

end Copy

/-! ### The tables -/

/-- The table of built-in types has an entry for the scalar types only. -/
theorem S7DataType.uaType_isSome {d : S7DataType} : d.uaType.isSome = true ↔ d ∈ scalars := by
  cases d <;> decide

/-- An alternative belongs to the PLC types that have its built-in type. -/
theorem ValueType.holds_iff {v : ValueType} {d : S7DataType} :
    v.Holds d ↔ d.uaType = some v.toUA.type := by
  cases v <;> cases d <;> simp [Holds, S7DataType.uaType, toUA, UA_Scalar.type]

/-- Two PLC types share a built-in type only as UDINT and DWORD do. -/
theorem S7DataType.uaType_inj {d d' : S7DataType} (hne : d' ≠ d) {type : UA_DataType}
    (h : d.uaType = some type) (h' : d'.uaType = some type) :
    d = .udint ∧ d' = .dword ∨ d = .dword ∧ d' = .udint := by
  have hsame : d'.uaType = d.uaType := h'.trans h.symm
  have hsome : d.uaType.isSome := by rw [h]; rfl
  revert hne hsame hsome
  clear h h'
  cases d <;> cases d' <;> decide

/-- The type of the scalar of an alternative is that of the value read from it. -/
theorem readConvert_of_ne {type : UA_DataType} {v : UA_Scalar} (h : v.type ≠ type) :
    readConvert type (.scalar v) = .error ⟨.typeMismatch, "type mismatch"⟩ :=
  if_neg h

/-! ### The round trip -/

section RoundTrip

variable {setScalarCopy : UA_Scalar → UA_StatusCode × UA_Variant} {d : S7DataType} {v : ValueType}

/-- The copy stores the scalar. -/
theorem copyScalar_eq (hcopy : ∀ v, setScalarCopy v = (UA_StatusCode.good, .scalar v))
    (v : UA_Scalar) : copyScalar setScalarCopy v = .ok (.scalar v) := by
  simp [copyScalar, hcopy, UA_Variant.hasType, UA_Variant.hasData]

/-- What a write accepts, and the variant that it sends. -/
theorem writeDispatch_eq_ok (hcopy : ∀ v, setScalarCopy v = (UA_StatusCode.good, .scalar v))
    {x : UA_Variant} : writeDispatch setScalarCopy d v = .ok x ↔
      v.Holds d ∧ v.hasEmbeddedNul = false ∧ x = .scalar v.toUA := by
  unfold writeDispatch
  rw [ValueType.holds_iff]
  cases hw : writeConversion d v with
  | error e =>
      refine ⟨nofun, fun ⟨htype, hnul, _⟩ => ?_⟩
      rw [writeConversion_eq_ok.mpr ⟨htype, hnul, rfl⟩] at hw
      cases hw
  | ok u =>
      obtain ⟨htype, hnul, rfl⟩ := writeConversion_eq_ok.mp hw
      simp only [copyScalar_eq hcopy, Except.ok.injEq, htype, hnul, true_and]
      exact eq_comm

/-- What a read returns that is asked for another type. A type without a converter leaves the
optional as it was, which is empty in a new `ReadResult`. -/
def ReadsOther (v : ValueType) (x : UA_Variant) (d d' : S7DataType) : Prop :=
  ∀ value, (d' ∉ S7DataType.scalars → value = none) →
    (readDispatch d' x value = (.ok (), some v) ∧
        (d = .udint ∧ d' = .dword ∨ d = .dword ∧ d' = .udint)) ∨
      ∃ e, readDispatch d' x value = (.error e, none) ∧
        e.code = if d' ∈ S7DataType.scalars then .typeMismatch else .typeNotsupport

/-- The scalar of an accepted value, read as another type. -/
theorem readsOther {d' : S7DataType} (hne : d' ≠ d) (hholds : v.Holds d)
    (hnul : v.hasEmbeddedNul = false) : ReadsOther v (.scalar v.toUA) d d' := by
  intro value hnone
  have htype := ValueType.holds_iff.mp hholds
  cases hd' : d'.uaType with
  | none =>
      have hnot : d' ∉ S7DataType.scalars := by
        rw [← S7DataType.uaType_isSome, hd']
        exact nofun
      obtain rfl := hnone hnot
      refine .inr ⟨⟨.typeNotsupport, "Unsupported S7DataType"⟩, ?_, ?_⟩
      · simp [readDispatch, readConversion.uaType_eq, hd']
      · rw [if_neg hnot]
  | some type =>
      have hscalar : d' ∈ S7DataType.scalars := by
        rw [← S7DataType.uaType_isSome, hd']
        rfl
      by_cases hsame : v.toUA.type = type
      · refine .inl ⟨?_, S7DataType.uaType_inj hne htype (hsame ▸ hd')⟩
        simp [readDispatch, readConversion.uaType_eq, hd', setNormalScalar, readConvert, hsame,
          ValueType.toValue_toUA hnul]
      · refine .inr ⟨⟨.typeMismatch, "type mismatch"⟩, ?_, (if_pos hscalar).symm⟩
        simp [readDispatch, readConversion.uaType_eq, hd', setNormalScalar, readConvert_of_ne hsame]

/-- The conversions of a value of a PLC type, there and back. -/
structure RoundTrips (setScalarCopy : UA_Scalar → UA_StatusCode × UA_Variant) (d : S7DataType)
    (v : ValueType) : Prop where
  /-- A write accepts exactly the values of the 13 scalar types, without an embedded NUL. -/
  accepted : (∃ x, writeDispatch setScalarCopy d v = .ok x) ↔
    d ∈ S7DataType.scalars ∧ v.Holds d ∧ v.hasEmbeddedNul = false
  /-- What is written is read back, whatever the optional held. -/
  read : ∀ x value, writeDispatch setScalarCopy d v = .ok x →
    readDispatch d x value = (.ok (), some v)
  /-- As another type it is read only where the types coincide. -/
  other : ∀ x d', writeDispatch setScalarCopy d v = .ok x → d' ≠ d → ReadsOther v x d d'

/-- Every value makes the round trip under every type, if the copy stores the scalar that it is
given. -/
theorem conversion_roundTrip
    (hcopy : ∀ v, setScalarCopy v = (UA_StatusCode.good, UA_Variant.scalar v)) (d : S7DataType)
    (v : ValueType) : RoundTrips setScalarCopy d v where
  accepted := by
    have hscalar : v.Holds d → d ∈ S7DataType.scalars := fun h => by
      rw [← S7DataType.uaType_isSome, ValueType.holds_iff.mp h]
      rfl
    simp only [writeDispatch_eq_ok hcopy]
    constructor
    · rintro ⟨x, hholds, hnul, -⟩
      exact ⟨hscalar hholds, hholds, hnul⟩
    · rintro ⟨-, hholds, hnul⟩
      exact ⟨_, hholds, hnul, rfl⟩
  read x value hx := by
    obtain ⟨hholds, hnul, rfl⟩ := (writeDispatch_eq_ok hcopy).mp hx
    simp [readDispatch, readConversion.uaType_eq, ValueType.holds_iff.mp hholds, setNormalScalar,
      readConvert, ValueType.toValue_toUA hnul]
  other x d' hx hne := by
    obtain ⟨hholds, hnul, rfl⟩ := (writeDispatch_eq_ok hcopy).mp hx
    exact readsOther hne hholds hnul

/-- A string that is written as STRING is read back as STRING, and not as REAL. -/
theorem conversion_roundTrip_string :
    let copy : UA_Scalar → UA_StatusCode × UA_Variant := fun v => (UA_StatusCode.good, .scalar v)
    let value : ValueType := .string [0x4F, 0x4B]
    RoundTrips copy .string value ∧
      readDispatch .string (.scalar value.toUA) none = (.ok (), some value) ∧
      (readDispatch .real (.scalar value.toUA) none).2 = none :=
  ⟨conversion_roundTrip (fun _ => rfl) _ _, rfl, rfl⟩

end RoundTrip

end OPCUAPacking
