import OPCUAPacking.Errors
import Mathlib.Data.List.TakeWhile
import Mathlib.Logic.Basic

/-!
# Values and node identifiers

The values of the client, the scalars and variants of the SDK, and the conversions between them.

* `readConversion.converters`, `readTraits.s7TypeToUATraits`, `readTraits.uaTypeTraits` — the tables
  of a read; those of a write are tables of their own.
* `S7DataType.uaType` — the built-in type that represents a PLC type, if it has one; the tables
  agree on it.
* `readConversion`, `writeConversion` — the two conversions.
* `NodeId.validate` — the checks that `uaNodeIDAlloc` makes before it allocates.

`readConversion_of_writeConversion` says that what is converted for a write is read back as the
same value.
-/

namespace OPCUAPacking

/-- The contents of a `std::string`. -/
abbrev Bytes := List UInt8

/-- What a C string function sees of a `std::string`: the bytes before the first NUL. -/
def cString (s : Bytes) : Bytes := s.takeWhile (· ≠ 0)

/-- `containsEmbeddedNul`. -/
def containsEmbeddedNul (s : Bytes) : Bool := s.contains 0

theorem cString_of_not_containsEmbeddedNul {s : Bytes} (h : containsEmbeddedNul s = false) :
    cString s = s := by
  refine List.takeWhile_eq_self_iff.mpr fun b hb => ?_
  have hne : b ≠ 0 := by
    rintro rfl
    simp [containsEmbeddedNul, hb] at h
  simpa using hne

/-- `S7DataType`. -/
inductive S7DataType where
  | bool
  | sint
  | byte
  | int
  | word
  | dint
  | udint
  | dword
  | lint
  | ulint
  | real
  | lreal
  | string
  | array
  | struct
  | unknown
  deriving DecidableEq, Repr

/-- `UA_DataType`: the types of the conversion tables, and the others. -/
inductive UA_DataType where
  | boolean
  | sbyte
  | byte
  | int16
  | uint16
  | int32
  | uint32
  | int64
  | uint64
  | float
  | double
  | string
  | other (index : Nat)
  deriving DecidableEq, Repr

/-- The C++ types that the traits are specialised for. -/
inductive CppType where
  | bool
  | int8
  | uint8
  | int16
  | uint16
  | int32
  | uint32
  | int64
  | uint64
  | float
  | double
  | string
  deriving DecidableEq, Repr

/-! ### The tables of a read -/

/-- `readConversion::converters`: the type that the converter of a PLC type is instantiated for. -/
def readConversion.converters : S7DataType → Option S7DataType
  | .bool => some .bool
  | .sint => some .sint
  | .byte => some .byte
  | .int => some .int
  | .word => some .word
  | .dword => some .dword
  | .dint => some .dint
  | .udint => some .udint
  | .lint => some .lint
  | .ulint => some .ulint
  | .real => some .real
  | .lreal => some .lreal
  | .string => some .string
  | _ => none

/-- `readTraits::S7TypeToUATraits`. -/
def readTraits.s7TypeToUATraits : S7DataType → Option CppType
  | .bool => some .bool
  | .sint => some .int8
  | .byte => some .uint8
  | .int => some .int16
  | .word => some .uint16
  | .dint => some .int32
  | .udint => some .uint32
  | .lint => some .int64
  | .ulint => some .uint64
  | .dword => some .uint32
  | .real => some .float
  | .lreal => some .double
  | .string => some .string
  | _ => none

/-- `readTraits::UATypeTraits`. -/
def readTraits.uaTypeTraits : CppType → UA_DataType
  | .bool => .boolean
  | .int8 => .sbyte
  | .uint8 => .byte
  | .int16 => .int16
  | .uint16 => .uint16
  | .int32 => .int32
  | .uint32 => .uint32
  | .int64 => .int64
  | .uint64 => .uint64
  | .float => .float
  | .double => .double
  | .string => .string

/-- The built-in type that a PLC type is read as. -/
def readConversion.uaType (dataType : S7DataType) : Option UA_DataType := do
  let type ← converters dataType
  let traits ← readTraits.s7TypeToUATraits type
  pure (readTraits.uaTypeTraits traits)

/-! ### The tables of a write -/

/-- `writeConversion::converters`: the type that the converter of a PLC type is instantiated for. -/
def writeConversion.converters : S7DataType → Option S7DataType
  | .bool => some .bool
  | .sint => some .sint
  | .byte => some .byte
  | .int => some .int
  | .word => some .word
  | .dword => some .dword
  | .dint => some .dint
  | .udint => some .udint
  | .lint => some .lint
  | .ulint => some .ulint
  | .real => some .real
  | .lreal => some .lreal
  | .string => some .string
  | _ => none

/-- `writeTraits::S7TypeToUATraits`. -/
def writeTraits.s7TypeToUATraits : S7DataType → Option CppType
  | .bool => some .bool
  | .sint => some .int8
  | .byte => some .uint8
  | .int => some .int16
  | .word => some .uint16
  | .dint => some .int32
  | .udint => some .uint32
  | .lint => some .int64
  | .ulint => some .uint64
  | .dword => some .uint32
  | .real => some .float
  | .lreal => some .double
  | .string => some .string
  | _ => none

/-- `writeTraits::UATypeTraits`. -/
def writeTraits.uaTypeTraits : CppType → UA_DataType
  | .bool => .boolean
  | .int8 => .sbyte
  | .uint8 => .byte
  | .int16 => .int16
  | .uint16 => .uint16
  | .int32 => .int32
  | .uint32 => .uint32
  | .int64 => .int64
  | .uint64 => .uint64
  | .float => .float
  | .double => .double
  | .string => .string

/-- The built-in type that a PLC type is written as. -/
def writeConversion.uaType (dataType : S7DataType) : Option UA_DataType := do
  let type ← converters dataType
  let traits ← writeTraits.s7TypeToUATraits type
  pure (writeTraits.uaTypeTraits traits)

/-- The built-in type of a PLC type, if it has one. -/
def S7DataType.uaType : S7DataType → Option UA_DataType
  | .bool => some .boolean
  | .sint => some .sbyte
  | .byte => some .byte
  | .int => some .int16
  | .word => some .uint16
  | .dint => some .int32
  | .udint => some .uint32
  | .dword => some .uint32
  | .lint => some .int64
  | .ulint => some .uint64
  | .real => some .float
  | .lreal => some .double
  | .string => some .string
  | .array => none
  | .struct => none
  | .unknown => none

/-- It is the one of a read, and the one of a write. -/
theorem readConversion.uaType_eq (d : S7DataType) : readConversion.uaType d = d.uaType := by
  cases d <;> rfl

theorem writeConversion.uaType_eq (d : S7DataType) : writeConversion.uaType d = d.uaType := by
  cases d <;> rfl

/-! ### Values and variants -/

/-- `ValueType`. Floating-point values are their bit patterns, which the code only copies. -/
inductive ValueType where
  | bool (v : Bool)
  | sint (v : Int8)
  | byte (v : UInt8)
  | int (v : Int16)
  | word (v : UInt16)
  | dint (v : Int32)
  | udint (v : UInt32)
  | lint (v : Int64)
  | ulint (v : UInt64)
  | real (bits : BitVec 32)
  | lreal (bits : BitVec 64)
  | string (s : Bytes)
  deriving DecidableEq, Repr

/-- A scalar of the SDK. The data pointer of a string may be null. -/
inductive UA_Scalar where
  | boolean (v : Bool)
  | sbyte (v : Int8)
  | byte (v : UInt8)
  | int16 (v : Int16)
  | uint16 (v : UInt16)
  | int32 (v : Int32)
  | uint32 (v : UInt32)
  | int64 (v : Int64)
  | uint64 (v : UInt64)
  | float (bits : BitVec 32)
  | double (bits : BitVec 64)
  | string (data : Option Bytes)
  | other (index : Nat)
  deriving DecidableEq, Repr

/-- `UA_Variant`. An empty array has the sentinel as its data pointer and is no scalar. -/
inductive UA_Variant where
  | empty
  | scalar (v : UA_Scalar)
  | array (type : UA_DataType) (length : Nat)
  deriving DecidableEq, Repr

/-- The type of a scalar. -/
def UA_Scalar.type : UA_Scalar → UA_DataType
  | .boolean _ => .boolean
  | .sbyte _ => .sbyte
  | .byte _ => .byte
  | .int16 _ => .int16
  | .uint16 _ => .uint16
  | .int32 _ => .int32
  | .uint32 _ => .uint32
  | .int64 _ => .int64
  | .uint64 _ => .uint64
  | .float _ => .float
  | .double _ => .double
  | .string _ => .string
  | .other index => .other index

/-- The scalar that `UA_Variant_setScalarCopy` stores for an alternative; a string goes through
`c_str()`. -/
def ValueType.toUA : ValueType → UA_Scalar
  | .bool v => .boolean v
  | .sint v => .sbyte v
  | .byte v => .byte v
  | .int v => .int16 v
  | .word v => .uint16 v
  | .dint v => .int32 v
  | .udint v => .uint32 v
  | .lint v => .int64 v
  | .ulint v => .uint64 v
  | .real bits => .float bits
  | .lreal bits => .double bits
  | .string s => .string (some (cString s))

/-- The value that a scalar is read as. -/
def UA_Scalar.toValue : UA_Scalar → Result ValueType RichError
  | .boolean v => .ok (.bool v)
  | .sbyte v => .ok (.sint v)
  | .byte v => .ok (.byte v)
  | .int16 v => .ok (.int v)
  | .uint16 v => .ok (.word v)
  | .int32 v => .ok (.dint v)
  | .uint32 v => .ok (.udint v)
  | .int64 v => .ok (.lint v)
  | .uint64 v => .ok (.ulint v)
  | .float bits => .ok (.real bits)
  | .double bits => .ok (.lreal bits)
  | .string (some s) => .ok (.string s)
  | .string none => .error ⟨.typeMismatch, "src->data is nullptr"⟩
  | .other _ => .error ⟨.typeMismatch, "type mismatch"⟩

/-- The alternative is a string with an embedded NUL. -/
def ValueType.hasEmbeddedNul : ValueType → Bool
  | .string s => containsEmbeddedNul s
  | _ => false

/-- `readTraits::convert`: the variant is a scalar of the type. -/
def readConvert (type : UA_DataType) : UA_Variant → Result ValueType RichError
  | .scalar v => if v.type = type then v.toValue else .error ⟨.typeMismatch, "type mismatch"⟩
  | _ => .error ⟨.typeMismatch, "type mismatch"⟩

/-- `readConversion::dispatch`. -/
def readConversion (dataType : S7DataType) (var : UA_Variant) : Result ValueType RichError :=
  match readConversion.uaType dataType with
  | some type => readConvert type var
  | none => .error ⟨.typeNotsupport, "Unsupported S7DataType"⟩

/-- `writeTraits::convert` up to the copy: the alternative is that of the type, and a string has
no embedded NUL. -/
def writeConvert (type : UA_DataType) (value : ValueType) : Result UA_Scalar RichError :=
  if value.toUA.type ≠ type then
    .error ⟨.typeMismatch,
      "writeTraits: declared S7DataType does not match the ValueType alternative"⟩
  else if value.hasEmbeddedNul then
    .error ⟨.invalidArgument, "writeTraits: STRING value contains embedded NULL"⟩
  else .ok value.toUA

/-- `writeConversion::dispatch` up to the copy. -/
def writeConversion (dataType : S7DataType) (value : ValueType) : Result UA_Scalar RichError :=
  match writeConversion.uaType dataType with
  | some type => writeConvert type value
  | none => .error ⟨.typeNotsupport, "Unsupported S7DataType"⟩

/-- The scalar of a value without an embedded NUL is read as that value. -/
theorem ValueType.toValue_toUA {value : ValueType} (h : value.hasEmbeddedNul = false) :
    value.toUA.toValue = .ok value := by
  cases value with
  | string s =>
      rw [toUA, cString_of_not_containsEmbeddedNul h]
      rfl
  | _ => rfl

/-- What a conversion for a write accepts. -/
theorem writeConversion_eq_ok {dataType : S7DataType} {value : ValueType} {v : UA_Scalar} :
    writeConversion dataType value = .ok v ↔
      dataType.uaType = some value.toUA.type ∧ value.hasEmbeddedNul = false ∧
        v = value.toUA := by
  unfold writeConversion
  rw [writeConversion.uaType_eq]
  cases hty : dataType.uaType with
  | none => simp
  | some type =>
      simp only [writeConvert, Option.some.injEq]
      split
      · next hne => simp [Ne.symm hne]
      · next heq =>
        have htype : value.toUA.type = type := not_not.mp heq
        cases hnul : value.hasEmbeddedNul <;> simp [htype, eq_comm]

/-- A value that a write accepts is read back unchanged, under the same declared type. -/
theorem readConversion_of_writeConversion {dataType : S7DataType} {value : ValueType}
    {v : UA_Scalar} (h : writeConversion dataType value = .ok v) :
    readConversion dataType (.scalar v) = .ok value := by
  obtain ⟨htype, hnul, rfl⟩ := writeConversion_eq_ok.mp h
  simp [readConversion, readConversion.uaType_eq, htype, readConvert, ValueType.toValue_toUA hnul]

/-! ### Node identifiers -/

/-- The identifier of a node: a string or a number. -/
inductive Identifier where
  | string (s : Bytes)
  | numeric (n : UInt32)
  deriving DecidableEq, Repr

/-- `NodeId`. -/
structure NodeId where
  ns : UInt16 := 0
  id : Identifier
  dataType : S7DataType := .unknown
  deriving DecidableEq, Repr

/-- `UA_NodeId`. -/
structure UA_NodeId where
  namespaceIndex : UInt16
  identifier : Identifier
  deriving DecidableEq, Repr

/-- The checks of `uaNodeIDAlloc` on a string identifier. -/
def NodeId.validate (node : NodeId) : Result Unit RichError :=
  match node.id with
  | .string s =>
      if s.isEmpty then
        .error ⟨.invalidArgument, "NodeId: id is empty for ns=" ++ toString node.ns.toNat⟩
      else if containsEmbeddedNul s then
        .error ⟨.invalidArgument, "NodeId: contains embedded NULL"⟩
      else .ok ()
  | .numeric _ => .ok ()

/-- What `UA_NODEID_STRING_ALLOC` and `UA_NODEID_NUMERIC` build. -/
def NodeId.toUA (node : NodeId) : UA_NodeId :=
  match node.id with
  | .string s => ⟨node.ns, .string (cString s)⟩
  | .numeric n => ⟨node.ns, .numeric n⟩

/-- A node identifier that passes the checks reaches the SDK as it is. -/
theorem NodeId.toUA_of_validate {node : NodeId} (h : node.validate = .ok ()) :
    node.toUA = ⟨node.ns, node.id⟩ := by
  unfold toUA
  unfold validate at h
  cases hid : node.id with
  | numeric n => rfl
  | string s =>
      simp only [hid] at h
      split at h
      · cases h
      · split at h
        · cases h
        · next hnul => simp [cString_of_not_containsEmbeddedNul (Bool.not_eq_true _ ▸ hnul)]

/-- `ReadValue`. -/
structure ReadValue where
  node : NodeId
  deriving DecidableEq, Repr

/-- `WriteValue`. -/
structure WriteValue where
  node : NodeId
  value : ValueType
  deriving DecidableEq, Repr

/-- `ReadResult`. -/
structure ReadResult where
  rawStatus : BitVec 32 := 0
  errorCode : ErrorCode := .ok
  value : Option ValueType := none
  deriving DecidableEq, Repr

/-- `WriteResult::Status`. -/
inductive WriteStatus where
  | good
  | bad
  deriving DecidableEq, Repr

/-- `WriteResult`. -/
structure WriteResult where
  status : WriteStatus := .bad
  errorCode : ErrorCode := .ok
  rawStatus : BitVec 32 := 0
  deriving DecidableEq, Repr

end OPCUAPacking
