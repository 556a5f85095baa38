import OPCUAPacking.Conversion

/-!
# Variants in memory

A variant as the SDK lays it out: a type pointer, an array length and a data pointer, which may be
null, the sentinel of an empty array, or point to values. `UA_Variant` is what is left of it once
the pointers are resolved.

* `RawVariant` — a variant in memory; what lies behind a valid pointer has the type of the variant.
* `RawVariant.abs` — the variant that it is.
* `convertRaw`, `dispatchRaw` — the conversions as they follow the pointers; `none` would be a read
  through an invalid pointer. They do not make one, and agree with `readConvert` and `readDispatch`
  (`convertRaw_eq`, `dispatchRaw_eq`).
-/

namespace OPCUAPacking

/-- The data pointer of a variant: null, `UA_EMPTY_ARRAY_SENTINEL`, or the address of a value, the
first one of an array. -/
inductive UA_Pointer where
  | null
  | sentinel
  | object (first : UA_Scalar)
  deriving DecidableEq, Repr

namespace UA_Pointer

/-- The address is above that of the sentinel. -/
def isValid : UA_Pointer → Bool
  | .object _ => true
  | _ => false

/-- The value at the address. -/
def deref : UA_Pointer → Option UA_Scalar
  | .object v => some v
  | _ => none

end UA_Pointer

/-- `UA_Variant` in memory. -/
structure RawVariant where
  type : Option UA_DataType
  arrayLength : Nat
  data : UA_Pointer
  /-- Memory that a variant points to holds values of its type. -/
  typed : ∀ v, data = .object v → type = some v.type

namespace RawVariant

/-- `UA_Variant_isScalar`. -/
def isScalar (var : RawVariant) : Bool := var.arrayLength == 0 && var.data.isValid

/-- The variant, with its pointers resolved. -/
def abs (var : RawVariant) : UA_Variant :=
  match var.type, var.data.deref with
  | none, _ => .empty
  | some type, none => .array type var.arrayLength
  | some type, some v => if var.arrayLength = 0 then .scalar v else .array type var.arrayLength

/-- A scalar in memory. -/
def ofScalar (v : UA_Scalar) : RawVariant where
  type := some v.type
  arrayLength := 0
  data := .object v
  typed := by
    rintro _ ⟨⟩
    rfl

@[simp]
theorem abs_ofScalar (v : UA_Scalar) : (ofScalar v).abs = .scalar v := rfl

/-- The variant is a scalar exactly if it is one in memory and has a type. -/
theorem abs_eq_scalar {var : RawVariant} {v : UA_Scalar} :
    var.abs = .scalar v ↔ var.isScalar = true ∧ var.data = .object v := by
  obtain ⟨type, arrayLength, data, typed⟩ := var
  cases data with
  | null | sentinel => cases type <;> simp [abs, isScalar, UA_Pointer.deref, UA_Pointer.isValid]
  | object u =>
      have htype := typed u rfl
      subst htype
      by_cases hlen : arrayLength = 0 <;>
        simp [abs, isScalar, UA_Pointer.deref, UA_Pointer.isValid, hlen]

end RawVariant

/-! ### The conversions -/

/-- `readTraits::convert`. -/
def convertRaw (type : UA_DataType) (var : RawVariant) : Option (Result ValueType RichError) :=
  if var.type ≠ some type || !var.isScalar then some (.error ⟨.typeMismatch, "type mismatch"⟩)
  else do
    let v ← var.data.deref
    pure v.toValue

/-- `readConversion::dispatch`, with what the optional holds before it. -/
def dispatchRaw (dataType : S7DataType) (var : RawVariant) (value : Option ValueType) :
    Option (Result Unit RichError × Option ValueType) :=
  match readConversion.uaType dataType with
  | some type => do
      let r ← convertRaw type var
      match r with
      | .ok v => pure (.ok (), some v)
      | .error e => pure (.error e, none)
  | none => pure (.error ⟨.typeNotsupport, "Unsupported S7DataType"⟩, value)

/-- The conversion reads through no invalid pointer, and converts the variant that it finds. -/
theorem convertRaw_eq (type : UA_DataType) (var : RawVariant) :
    convertRaw type var = some (readConvert type var.abs) := by
  unfold convertRaw
  split
  case isTrue hmiss =>
    rw [Bool.or_eq_true, decide_eq_true_eq, Bool.not_eq_true'] at hmiss
    congr 1
    -- what is not a scalar of the type is a mismatch in either view
    cases habs : var.abs with
    | empty => rfl
    | array type' length => rfl
    | scalar v =>
        obtain ⟨hscalar, hdata⟩ := RawVariant.abs_eq_scalar.mp habs
        have htype := var.typed v hdata
        have hne : v.type ≠ type := by
          rintro rfl
          rcases hmiss with hmiss | hmiss
          · exact hmiss htype
          · exact absurd (hscalar.symm.trans hmiss) nofun
        exact (readConvert_of_ne hne).symm
  case isFalse hhit =>
    rw [Bool.or_eq_true, decide_eq_true_eq, Bool.not_eq_true', not_or, not_not,
      Bool.not_eq_false] at hhit
    obtain ⟨htype, hscalar⟩ := hhit
    cases hdata : var.data with
    | null | sentinel => simp [RawVariant.isScalar, hdata, UA_Pointer.isValid] at hscalar
    | object v =>
        have hv : v.type = type := Option.some.inj ((var.typed v hdata).symm.trans htype)
        rw [RawVariant.abs_eq_scalar.mpr ⟨hscalar, hdata⟩]
        simp [UA_Pointer.deref, readConvert, hv]

/-- So does the dispatcher. -/
theorem dispatchRaw_eq (dataType : S7DataType) (var : RawVariant) (value : Option ValueType) :
    dispatchRaw dataType var value = some (readDispatch dataType var.abs value) := by
  unfold dispatchRaw readDispatch setNormalScalar
  cases readConversion.uaType dataType with
  | none => rfl
  | some type =>
      simp only [convertRaw_eq]
      cases readConvert type var.abs <;> rfl

end OPCUAPacking
