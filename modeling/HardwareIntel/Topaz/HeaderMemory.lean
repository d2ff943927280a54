import HardwareIntel.Library.Memory
import HardwareIntel.Topaz.HeaderElements

/-!
# Headers in memory

The same functions once more, on the memory they write to (`agrees_run` compares both). An element
is a word for its type, a byte for the number of its bits, and the bytes of the bits; the next one
follows on a word boundary, and a token without bits takes just its word. The pointers to the
elements are kept in an array beside the memory, and its last index in the header.

The functions of `tng_hostheader.c` and `pnw_hostheader.c` differ in the types of the elements and in
what is checked before the array is used: `Host` is the difference.
-/

namespace HardwareIntel.Topaz

/-- `HEADER_ELEMENT_TYPE` of the TopazHP driver. -/
inductive HeaderElementType
  | startcodeRawdata | startcodeMidhdr | rawdata | qp | sqp | frameqscale | sliceqscale
  | insertbytealignH264 | insertbytealignMpg4 | insertbytealignMpg2 | vbvMpg2 | temporalRefMpg2
  | currmbnr | frameNum | temporalReference | extendedTr | idrPicId | picOrderCnt | gobFrameId
  | vopTimeIncrement | moduloTimeBase | bottomField | sliceNum | mpeg2SliceVerticalPos
  | mpeg2IsIntraSlice | mpeg2PictureStructure | reference | adaptive | directSpatialMvFlag
  | numRefIdxActive | reorderL0 | reorderL1 | temporalId | anchorPicFlag
  | bphSeiNalInitialCpbRemovalDelay | bphSeiNalInitialCpbRemovalDelayOffset
  | pthSeiNalCpbRemovalDelay | pthSeiNalDpbOutputDelay | sliceweightedpredictionstruct | customQuant
  deriving DecidableEq

/-- `HEADER_ELEMENT_TYPE` of the older driver. -/
inductive PnwHeaderElementType
  | startcodeRawdata | rawdata | qp | sqp | frameqscale | sliceqscale | insertbytealignH264
  | insertbytealignMpg4 | bphSeiNalInitialCpbRemovalDelay | bphSeiNalInitialCpbRemovalDelayOffset
  | pthSeiNalCpbRemovalDelay | pthSeiNalDpbOutputDelay

/-- What the two drivers do differently. -/
structure Host (τ : Type) where
  code : τ → ℕ
  rawdata : τ
  /-- The types whose elements hold bits. -/
  raw : List τ
  /-- Nothing is written when there are too many elements. -/
  checksWrites : Bool
  /-- The number of elements is checked again when it has been increased. -/
  checksTokens : Bool

def tng : Host HeaderElementType where
  code := HeaderElementType.ctorIdx
  rawdata := .rawdata
  raw := [.startcodeRawdata, .rawdata, .startcodeMidhdr]
  checksWrites := false
  checksTokens := false

def pnw : Host PnwHeaderElementType where
  code := PnwHeaderElementType.ctorIdx
  rawdata := .rawdata
  raw := [.startcodeRawdata, .rawdata]
  checksWrites := true
  checksTokens := true

def elementsEmpty : ℕ := 9999

/-- `MTX_HEADER_PARAMS` and the array of pointers into it. -/
structure HeaderParams where
  elements : ℕ
  elementStream : ℕ → UInt8
  elementPointers : ℕ → ℕ

namespace HeaderParams

variable (h : HeaderParams)

/-- The pointer to the current element. -/
def current : ℕ := h.elementPointers h.elements

/-- The number of bits of the current element. -/
def size : ℕ := (h.elementStream (h.current + 4)).toNat

/-- A new element where the pointer is. -/
def beginElement (code : ℕ) : HeaderParams :=
  { h with
    elementStream :=
      Function.update (setWord h.elementStream h.current code) (h.current + 4) 0 }

/-- A pointer for the next element. -/
def nextElement (offset : ℕ) : HeaderParams :=
  { h with
    elements := h.elements + 1
    elementPointers := Function.update h.elementPointers (h.elements + 1) (h.current + offset) }

/-- "Beginning a new byte, clear byte". -/
def clearByte : HeaderParams :=
  if h.size % 8 = 0 then
    { h with elementStream := Function.update h.elementStream (h.current + 5 + h.size / 8) 0 }
  else h

/-- Set bits of the current byte. -/
def setBits (v : ℕ) : HeaderParams :=
  { h with
    elementStream := Function.update h.elementStream (h.current + 5 + h.size / 8)
      (h.elementStream (h.current + 5 + h.size / 8) ||| UInt8.ofNat v) }

/-- Count `n` bits as written. -/
def countBits (n : ℕ) : HeaderParams :=
  { h with elementStream := Function.update h.elementStream (h.current + 4) (UInt8.ofNat (h.size + n)) }

end HeaderParams

namespace Host

variable {τ : Type} (host : Host τ)

def isRawCode (code : ℕ) : Bool := host.raw.any (host.code · == code)

/-- The offset of the next element, which is computed in 8 bits. -/
def nextOffset (code size : ℕ) : ℕ :=
  if host.isRawCode code then ((size + 8 + 31) % 256 / 32 + 1) * 4 else 4

/-- `insert_element_token`. -/
def insertElementToken (h : HeaderParams) (token : τ) : HeaderParams :=
  if h.elements ≠ elementsEmpty ∧ maxNumberElements ≤ h.elements then h
  else if h.elements = elementsEmpty then { h with elements := 0 }.beginElement (host.code token)
  else if host.checksTokens ∧ maxNumberElements ≤ h.elements + 1 then
    { h with elements := h.elements + 1 }
  else
    (h.nextElement (host.nextOffset (word h.elementStream h.current) h.size)).beginElement
      (host.code token)

/-- `write_upto8bits_elements`, with a bound on the depth of its recursion as before. -/
def writeUpto8bitsCalls : ℕ → HeaderParams → ℕ → ℕ → HeaderParams
  | 0, h, _, _ => h
  | calls + 1, h, writeBits, bitCnt =>
    if bitCnt = 0 ∨ host.checksWrites ∧ maxNumberElements ≤ h.elements then h
    else
      let value := writeBits % 256 % 2 ^ bitCnt
      if h.size % 8 = 0 ∧ 120 ≤ h.size then
        writeUpto8bitsCalls calls ((h.nextElement (5 + 15)).beginElement (host.code host.rawdata))
          value bitCnt
      else
        let used := h.size % 8
        if bitCnt + used ≤ 8 then
          (h.clearByte.setBits (value * 2 ^ (8 - bitCnt - used))).countBits bitCnt
        else
          let left := bitCnt + used - 8
          writeUpto8bitsCalls calls
            ((h.clearByte.setBits (value / 2 ^ left)).countBits (bitCnt - left)) (value % 2 ^ left) left

def writeUpto8bitsElements (h : HeaderParams) (writeBits bitCnt : ℕ) : HeaderParams :=
  host.writeUpto8bitsCalls 4 h writeBits bitCnt

end Host

/-! ### Sequences of calls -/

/-- The calls that write bits. -/
inductive HeaderWrite
  | upto8bits (writeBits bitCnt : ℕ)
  | upto32bits (writeBits bitCnt : ℕ)
  | ue (uiVal : ℕ)
  | se (iVal : ℤ)
  deriving DecidableEq

namespace HeaderWrite

def pieces : HeaderWrite → List (ℕ × ℕ)
  | upto8bits v n => [(v, n)]
  | upto32bits v n => upto32bitsPieces v n
  | ue v => uePieces v
  | se v => sePieces v

/-- The bits that a call is to write. -/
def bits : HeaderWrite → List Bool
  | upto8bits v n => HardwareIntel.bits n v
  | upto32bits v n => HardwareIntel.bits n v
  | ue v => ueBits v
  | se v => seBits v

/-- The arguments for which a call is defined. -/
def Valid : HeaderWrite → Prop
  | upto8bits _ n => n ≤ 8
  | upto32bits _ n => 1 ≤ n ∧ n ≤ 32
  | ue v => v < 2 ^ 32
  | se v => -2 ^ 30 < v ∧ v < 2 ^ 30

@[simp] theorem valid_upto8bits (v n : ℕ) : (upto8bits v n).Valid ↔ n ≤ 8 := Iff.rfl

@[simp] theorem valid_upto32bits (v n : ℕ) : (upto32bits v n).Valid ↔ 1 ≤ n ∧ n ≤ 32 := Iff.rfl

end HeaderWrite

/-- A call of one of the writing functions. -/
inductive HeaderCall (τ : Type)
  | token (type : τ)
  | write (w : HeaderWrite)
  deriving DecidableEq

namespace Host

variable {τ : Type} (host : Host τ)

def writePieces (h : HeaderParams) (pieces : List (ℕ × ℕ)) : HeaderParams :=
  pieces.foldl (fun h p => host.writeUpto8bitsElements h p.1 p.2) h

def call (h : HeaderParams) : HeaderCall τ → HeaderParams
  | .token type => host.insertElementToken h type
  | .write w => host.writePieces h w.pieces

/-- The calls of a writing function, one after the other. -/
def run (h : HeaderParams) (calls : List (HeaderCall τ)) : HeaderParams := calls.foldl host.call h

/-- The header at the beginning: no element, and a pointer to the memory of the elements. -/
def start (memory : ℕ → UInt8) (pointers : ℕ → ℕ) : HeaderParams :=
  ⟨elementsEmpty, memory, Function.update pointers 0 0⟩

end Host

variable {w : HeaderWrite}

/-- What a call writes is what it is to write. -/
theorem HeaderWrite.Valid.piecesBits (h : w.Valid) : piecesBits w.pieces = w.bits := by
  cases w with
  | upto8bits v n => exact List.append_nil _
  | upto32bits v n => exact piecesBits_upto32bitsPieces v h.1
  | ue v => exact piecesBits_uePieces h
  | se v => exact piecesBits_sePieces (by have hlow := h.1; omega) (by have hhigh := h.2; omega)

/-- At most a byte is written at a time. -/
def HeaderWrite.Short : HeaderWrite → Prop
  | .upto8bits _ n => n ≤ 8
  | _ => True

instance decidableShort : (w : HeaderWrite) → Decidable w.Short
  | .upto8bits _ n => inferInstanceAs (Decidable (n ≤ 8))
  | .upto32bits _ _ | .ue _ | .se _ => instDecidableTrue

/-- No piece is longer than a byte. -/
theorem HeaderWrite.Short.pieces_le (h : w.Short) : ∀ p ∈ w.pieces, p.2 ≤ 8 := by
  cases w with
  | upto8bits v n => exact List.forall_mem_singleton.mpr h
  | upto32bits v n => exact upto32bitsPieces_le v n
  | ue v => exact uePieces_le v
  | se v => exact uePieces_le _

theorem HeaderWrite.Valid.short (h : w.Valid) : w.Short := by
  cases w with
  | upto8bits v n => exact h
  | upto32bits v n => trivial
  | ue v => trivial
  | se v => trivial

end HardwareIntel.Topaz
