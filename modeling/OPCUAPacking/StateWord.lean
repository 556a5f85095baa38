import Mathlib.Data.BitVec

/-!
# The packed state word

The connection status, the channel state and the session state that the SDK last reported, packed
with a version into one 64-bit word:

* bits 63–48: the version, one more after every write;
* bits 47–16: the status code;
* bits 15–8: the channel state;
* bits 7–0: the session state.

`unpackState_packState` and `packState_unpackState` say that the encoding loses nothing and that
no field leaks into another.
-/

namespace OPCUAPacking

/-- `UA_StatusCode`. -/
abbrev UA_StatusCode := BitVec 32

/-- `UA_SecureChannelState`. The enumerators fit the byte that the word keeps of them. -/
abbrev UA_SecureChannelState := BitVec 8

/-- `UA_SessionState`. The enumerators fit the byte that the word keeps of them. -/
abbrev UA_SessionState := BitVec 8

namespace UA_SecureChannelState

/-- `UA_SECURECHANNELSTATE_CLOSED`. -/
def closed : UA_SecureChannelState := 0

/-- `UA_SECURECHANNELSTATE_OPEN`. -/
def «open» : UA_SecureChannelState := 11

end UA_SecureChannelState

namespace UA_SessionState

/-- `UA_SESSIONSTATE_CLOSED`. -/
def closed : UA_SessionState := 0

/-- `UA_SESSIONSTATE_ACTIVATED`. -/
def activated : UA_SessionState := 4

end UA_SessionState

namespace UA_StatusCode

def good : UA_StatusCode := 0x00000000
def badOutOfMemory : UA_StatusCode := 0x80030000
def badCommunicationError : UA_StatusCode := 0x80050000
def badTimeout : UA_StatusCode := 0x800A0000
def badServerNotConnected : UA_StatusCode := 0x800D0000
def badSecureChannelIdInvalid : UA_StatusCode := 0x80220000
def badSessionIdInvalid : UA_StatusCode := 0x80250000
def badSessionClosed : UA_StatusCode := 0x80260000
def badSecureChannelClosed : UA_StatusCode := 0x80860000
def badNotConnected : UA_StatusCode := 0x808A0000
def badConnectionClosed : UA_StatusCode := 0x80AE0000

/-- `UA_StatusCode_isGood`: the two severity bits are zero. -/
def isGood (code : UA_StatusCode) : Bool := code >>> 30 == 0

/-- `UA_StatusCode_isBad`: the severity is `0b10` or above. -/
def isBad (code : UA_StatusCode) : Bool := 2 ≤ (code >>> 30).toNat

end UA_StatusCode

/-- The fields of the state word. -/
structure StateFields where
  status : UA_StatusCode
  channel : UA_SecureChannelState
  session : UA_SessionState
  version : BitVec 16
  deriving DecidableEq, Repr

/-- `packState`. -/
def packState (status : UA_StatusCode) (channel : UA_SecureChannelState)
    (session : UA_SessionState) (version : BitVec 16) : BitVec 64 :=
  (version.zeroExtend 64 <<< 48) ||| (status.zeroExtend 64 <<< 16) |||
    (channel.zeroExtend 64 <<< 8) ||| (session.zeroExtend 64 <<< 0)

/-- `unpackState`. -/
def unpackState (v : BitVec 64) : StateFields where
  status := ((v >>> 16) &&& 0xFFFFFFFF).truncate 32
  channel := ((v >>> 8) &&& 0xFF).truncate 8
  session := ((v >>> 0) &&& 0xFF).truncate 8
  version := ((v &&& (0xFFFF <<< 48)) >>> 48).truncate 16

/-- What a state word says about the connection: the status, the channel and the session. -/
structure Triple where
  status : UA_StatusCode
  channel : UA_SecureChannelState
  session : UA_SessionState
  deriving DecidableEq, Repr

namespace Triple

/-- The status is Good, the channel open and the session activated. -/
def isReady (f : Triple) : Bool :=
  f.status.isGood && f.channel == .open && f.session == .activated

/-- The word that stores a triple with a version. -/
def pack (f : Triple) (version : BitVec 16) : BitVec 64 :=
  packState f.status f.channel f.session version

end Triple

/-- The triple of a state word. -/
def StateFields.triple (f : StateFields) : Triple := ⟨f.status, f.channel, f.session⟩

/-! ### The encoding loses nothing -/

/-- The word is the concatenation of its fields. -/
theorem packState_eq_append (status : UA_StatusCode) (channel : UA_SecureChannelState)
    (session : UA_SessionState) (version : BitVec 16) :
    packState status channel session version = version ++ status ++ channel ++ session := by
  ext i hi
  simp only [packState, BitVec.getElem_or]
  simp
  grind

/-- A shift and a mask of `n` low bits extract `n` bits. -/
theorem truncate_ushiftRight_mask {n k : Nat} (v : BitVec 64) (h : n ≤ 64) :
    ((v >>> k) &&& (BitVec.allOnes n).zeroExtend 64).truncate n = v.extractLsb' k n := by
  ext i hi
  simp [BitVec.getLsbD_setWidth, hi]
  omega

/-- The fields are slices of the word. -/
theorem unpackState_eq_extract (v : BitVec 64) :
    unpackState v =
      ⟨v.extractLsb' 16 32, v.extractLsb' 8 8, v.extractLsb' 0 8, v.extractLsb' 48 16⟩ := by
  -- the version is masked before it is shifted, the others after
  have hver : ((v &&& (0xFFFF <<< 48)) >>> 48).truncate 16 = v.extractLsb' 48 16 := by
    rw [show (0xFFFF <<< 48 : BitVec 64) = (BitVec.allOnes 16).zeroExtend 64 <<< 48 from rfl]
    ext i hi
    simp only [BitVec.getElem_setWidth, BitVec.getLsbD_ushiftRight, BitVec.getLsbD_and,
      BitVec.getLsbD_shiftLeft, BitVec.getLsbD_setWidth, BitVec.getLsbD_allOnes,
      BitVec.getElem_extractLsb']
    simp
    omega
  rw [← hver, ← truncate_ushiftRight_mask v (by decide : 32 ≤ 64),
    ← truncate_ushiftRight_mask v (by decide : 8 ≤ 64),
    ← truncate_ushiftRight_mask v (by decide : 8 ≤ 64)]
  rfl

/-- What is packed is unpacked again. -/
@[simp]
theorem unpackState_packState (status : UA_StatusCode) (channel : UA_SecureChannelState)
    (session : UA_SessionState) (version : BitVec 16) :
    unpackState (packState status channel session version) =
      ⟨status, channel, session, version⟩ := by
  rw [unpackState_eq_extract, packState_eq_append, StateFields.mk.injEq]
  refine ⟨?_, ?_, ?_, ?_⟩ <;>
  · ext i hi
    simp
    try grind

/-- Every word is the packing of its fields. -/
theorem packState_unpackState (v : BitVec 64) :
    packState (unpackState v).status (unpackState v).channel (unpackState v).session
      (unpackState v).version = v := by
  rw [unpackState_eq_extract, packState_eq_append]
  ext i hi
  simp
  grind

namespace Triple

/-- A packed triple is read back. -/
@[simp]
theorem triple_unpackState_pack (f : Triple) (version : BitVec 16) :
    (unpackState (f.pack version)).triple = f := by
  simp [pack, StateFields.triple]

/-- Its version is the one it was packed with. -/
@[simp]
theorem version_unpackState_pack (f : Triple) (version : BitVec 16) :
    (unpackState (f.pack version)).version = version := by
  simp [pack]

end Triple

end OPCUAPacking
