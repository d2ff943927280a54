import HardwareIntel.Library.Bits
import Mathlib.Logic.Function.Basic

/-!
# Elements of a partially coded header

The host writes a header as a list of elements. An element of raw data holds up to 120 bits; the
others are tokens, which the firmware replaces by bits that only it knows. Bits are written at most
eight at a time: an element that is full is left for a new one, and bits that do not fit into the
current byte are written in two parts.

`MtxHeader.Holds qp l n h` says what a header stands for: when the firmware puts the code of `qp`
in the place of the token, the bits are `l`. Each writing function gets one lemma of the form
"from a header that holds `l`, a header that holds `l` and these bits", and no proof about a whole
header looks at bytes again.
-/

namespace HardwareIntel.Topaz

open List Function

/-- The element types that parameter sets use. -/
inductive ElementType
  | startcodeRawdata
  | startcodeMidhdr
  | rawdata
  | qp
  | insertByteAlignH264
  | customQuant

/-- The types whose elements hold bits. -/
def ElementType.isRaw : ElementType → Bool
  | .startcodeRawdata | .startcodeMidhdr | .rawdata => true
  | _ => false

/-- An element: its type, the number of its bits, and its bytes. -/
structure Element where
  type : ElementType
  size : ℕ
  bytes : ℕ → ℕ

/-- The elements of a header, the newest first: there is none as long as the count is
`ELEMENTS_EMPTY`. `stale` is what the memory holds where an element will be put. -/
structure MtxHeader where
  elements : List Element
  stale : ℕ → ℕ → ℕ

def maxNumberElements : ℕ := 16

namespace MtxHeader

/-- A new element behind the others. -/
def newElement (h : MtxHeader) (type : ElementType) : MtxHeader :=
  { h with elements := ⟨type, 0, h.stale h.elements.length⟩ :: h.elements }

/-- `tng__insert_element_token`. The index of the current element is one less than their number. -/
def insertElementToken (h : MtxHeader) (token : ElementType) : MtxHeader :=
  if maxNumberElements ≤ h.elements.length - 1 then h else h.newElement token

end MtxHeader

/-- "Beginning a new byte, clear byte". -/
def Element.clearByte (e : Element) : Element :=
  if e.size % 8 = 0 then { e with bytes := Function.update e.bytes (e.size / 8) 0 } else e

/-- Set bits of the current byte and count `n` of them as written. -/
def Element.put (e : Element) (v n : ℕ) : Element :=
  { e with
    bytes := Function.update e.bytes (e.size / 8) (e.bytes (e.size / 8) ||| v)
    size := e.size + n }

/-! ### Values of more than eight bits

Their functions write pieces of at most eight bits, and nothing they do depends on the header. -/

/-- The bytes below the first one, down to byte 0. -/
def bytePieces : ℕ → ℕ → List (ℕ × ℕ)
  | 0, _ => []
  | n + 1, v => (v / 2 ^ (8 * n) % 256, 8) :: bytePieces n v

/-- The pieces that `write_upto32bits_elements` writes. -/
def upto32bitsPieces (writeBits bitCnt : ℕ) : List (ℕ × ℕ) :=
  let endByte := (bitCnt + 7) / 8
  let top := writeBits / 2 ^ (8 * (endByte - 1)) % 256
  (top, if bitCnt % 8 ≠ 0 then bitCnt % 8 else 8) :: bytePieces (endByte - 1) writeBits

/-- The first loop of `tng__generate_ue`, on 32-bit numbers: the numeric part and the number of
zeros before it. -/
def ueLength : ℕ → ℕ → ℕ → ℕ → ℕ × ℕ
  | 0, _, val, zeros => (val, zeros)
  | fuel + 1, lp, val, zeros =>
    if (lp + 2 ^ 32 - 1) % 2 ^ 32 < val then
      ueLength fuel ((lp + lp) % 2 ^ 32) (val - lp) (zeros + 1)
    else (val, zeros)

/-- The zeros before the code, and the bit that ends them. -/
def zeroPieces : ℕ → ℕ → List (ℕ × ℕ)
  | 0, lp => [(1, lp + 1)]
  | fuel + 1, lp => if 8 < lp + 1 then (0, 8) :: zeroPieces fuel (lp - 8) else [(1, lp + 1)]

/-- The numeric part of the code. -/
def numericPieces : ℕ → ℕ → ℕ → List (ℕ × ℕ)
  | 0, zeros, val => [(val % 256, zeros)]
  | fuel + 1, zeros, val =>
    if 8 < zeros then
      let chunk := val / 2 ^ (zeros - 8)
      (chunk % 256, 8) :: numericPieces fuel (zeros - 8) (val - chunk * 2 ^ (zeros - 8))
    else [(val % 256, zeros)]

/-- The pieces that `generate_ue` writes. -/
def uePieces (uiVal : ℕ) : List (ℕ × ℕ) :=
  let (val, zeros) := ueLength 33 1 uiVal 0
  zeroPieces zeros zeros ++ numericPieces zeros zeros val

/-- The pieces that `generate_se` writes. -/
def sePieces (iVal : ℤ) : List (ℕ × ℕ) :=
  uePieces (if 0 < iVal then (iVal + iVal - 1) % 2 ^ 32 else (-iVal - iVal) % 2 ^ 32).toNat

/-! ### The writing functions -/

namespace MtxHeader

/-- `tng__write_upto8bits_elements`, with a bound on the depth of its recursion: it calls itself
once for a new element and once for the bits that do not fit into the current byte. -/
def writeUpto8bitsCalls : ℕ → MtxHeader → ℕ → ℕ → MtxHeader
  | 0, h, _, _ => h
  | calls + 1, h, writeBits, bitCnt =>
    if bitCnt = 0 then h else
    match h.elements with
    | [] => h
    | e :: es =>
      -- unused bits are zeroed
      let value := writeBits % 256 % 2 ^ bitCnt
      if e.size % 8 = 0 ∧ 120 ≤ e.size then
        writeUpto8bitsCalls calls (h.newElement .rawdata) value bitCnt
      else
        let used := e.size % 8
        if bitCnt + used ≤ 8 then
          { h with elements := e.clearByte.put (value * 2 ^ (8 - bitCnt - used)) bitCnt :: es }
        else
          let left := bitCnt + used - 8
          writeUpto8bitsCalls calls
            { h with elements := e.clearByte.put (value / 2 ^ left) (bitCnt - left) :: es }
            (value % 2 ^ left) left

def writeUpto8bitsElements (h : MtxHeader) (writeBits bitCnt : ℕ) : MtxHeader :=
  writeUpto8bitsCalls 4 h writeBits bitCnt

def writePieces (h : MtxHeader) (pieces : List (ℕ × ℕ)) : MtxHeader :=
  pieces.foldl (fun h p => h.writeUpto8bitsElements p.1 p.2) h

/-- `tng__write_upto32bits_elements`. -/
def writeUpto32bitsElements (h : MtxHeader) (writeBits bitCnt : ℕ) : MtxHeader :=
  h.writePieces (upto32bitsPieces writeBits bitCnt)

/-- `tng__generate_ue`. -/
def generateUe (h : MtxHeader) (uiVal : ℕ) : MtxHeader := h.writePieces (uePieces uiVal)

/-- `tng__generate_se`. -/
def generateSe (h : MtxHeader) (iVal : ℤ) : MtxHeader := h.writePieces (sePieces iVal)

/-- `tng__H264_writebits_startcode_prefix_element`. -/
def startcodePrefixElement (h : MtxHeader) (byteSize : ℕ) : MtxHeader :=
  (Nat.repeat (fun h => h.writeUpto8bitsElements 0 8) (byteSize - 1) h).writeUpto8bitsElements 1 8

end MtxHeader

/-! ### The bits of the pieces -/

/-- The bits of pieces that are written one after the other. -/
def piecesBits (pieces : List (ℕ × ℕ)) : List Bool := pieces.flatMap fun p => bits p.2 p.1

/-- The bits of a piece and the others. -/
@[simp] theorem piecesBits_cons (p : ℕ × ℕ) (pieces : List (ℕ × ℕ)) :
    piecesBits (p :: pieces) = bits p.2 p.1 ++ piecesBits pieces := rfl

/-- The bits of two sequences. -/
theorem piecesBits_append (a b : List (ℕ × ℕ)) :
    piecesBits (a ++ b) = piecesBits a ++ piecesBits b :=
  flatMap_append

/-- Only the low bits of a byte are written. -/
theorem bits_byte {n : ℕ} (hn : n ≤ 8) (v : ℕ) : bits n (v % 256) = bits n v := by
  rw [show 256 = 2 ^ 8 by decide, bits_mod hn]

/-- The value that is left when unused bits have been zeroed. -/
theorem bits_value {k : ℕ} (hk : k ≤ 8) (v : ℕ) : bits k (v % 256 % 2 ^ k) = bits k v := by
  rw [bits_mod (Nat.le_refl k), bits_byte hk]

/-- The bits of whole bytes. -/
theorem piecesBits_bytePieces (n v : ℕ) : piecesBits (bytePieces n v) = bits (8 * n) v := by
  induction n with
  | zero => rfl
  | succ n ih =>
    rw [bytePieces, piecesBits_cons, ih, bits_byte le_rfl, ← bits_add, Nat.mul_succ, Nat.add_comm]

/-- The bits of a value. -/
theorem piecesBits_upto32bitsPieces (v : ℕ) {n : ℕ} (hn : 1 ≤ n) :
    piecesBits (upto32bitsPieces v n) = bits n v := by
  rw [upto32bitsPieces, piecesBits_cons, piecesBits_bytePieces]
  split
  · rw [bits_byte (by omega), ← bits_add]
    congr 1
    omega
  · rw [bits_byte le_rfl, ← bits_add]
    congr 1
    omega

/-- The bits in front of a code. -/
theorem piecesBits_zeroPieces {fuel lp : ℕ} (hfuel : lp ≤ fuel) :
    piecesBits (zeroPieces fuel lp) = List.replicate lp false ++ [true] := by
  have hlast : ∀ lp, bits (lp + 1) 1 = List.replicate lp false ++ [true] := by
    intro lp
    rw [bits_add, show 1 / 2 ^ 1 = 0 by decide, bits_zero_right]
    rfl
  induction fuel generalizing lp with
  | zero =>
    obtain rfl := Nat.le_zero.mp hfuel
    rfl
  | succ fuel ih =>
    rw [zeroPieces]
    split
    · rw [piecesBits_cons, ih (by omega), bits_zero_right, ← append_assoc,
        replicate_append_replicate]
      congr 2
      omega
    · rw [piecesBits_cons, hlast, piecesBits, flatMap_nil, append_nil]

/-- The bits of the number of a code. -/
theorem piecesBits_numericPieces {fuel zeros : ℕ} (v : ℕ) (hfuel : zeros ≤ fuel) :
    piecesBits (numericPieces fuel zeros v) = bits zeros v := by
  induction fuel generalizing zeros v with
  | zero =>
    obtain rfl := Nat.le_zero.mp hfuel
    rfl
  | succ fuel ih =>
    rw [numericPieces]
    split
    · rw [piecesBits_cons, ih _ (by omega), bits_byte le_rfl]
      have hmod : v - v / 2 ^ (zeros - 8) * 2 ^ (zeros - 8) = v % 2 ^ (zeros - 8) := by
        rw [Nat.mod_eq_sub_mul_div, Nat.mul_comm]
      rw [hmod, bits_mod le_rfl, ← bits_add]
      congr 1
      omega
    · rw [piecesBits_cons, bits_byte (by omega), piecesBits, flatMap_nil, append_nil]

/-- The first loop from its `k`-th turn on. -/
theorem ueLength_from {v k fuel : ℕ} (hv : v < 2 ^ 32) (hk : k ≤ (v + 1).log2)
    (hfuel : (v + 1).log2 < fuel + k) :
    ueLength fuel (2 ^ k % 2 ^ 32) (v + 1 - 2 ^ k) k =
      (v + 1 - 2 ^ (v + 1).log2, (v + 1).log2) := by
  have hle : 2 ^ (v + 1).log2 ≤ v + 1 := Nat.log2_self_le (by omega)
  have hlt : v + 1 < 2 ^ ((v + 1).log2 + 1) := Nat.lt_log2_self
  have hlog : (v + 1).log2 < 33 := by
    rw [Nat.log2_lt (by omega)]
    omega
  induction fuel generalizing k with
  | zero => omega
  | succ fuel ih =>
    rcases Nat.eq_or_lt_of_le hk with hlast | hmore
    · -- no turn is left: in the case of `2 ^ 32 - 1` the counter has become zero
      have hstop : ¬ (2 ^ k % 2 ^ 32 + 2 ^ 32 - 1) % 2 ^ 32 < v + 1 - 2 ^ k := by
        rw [← hlast] at hlt hle
        rcases Nat.lt_or_ge k 32 with hsmall | hlarge
        · have hpow : 2 ^ k < 2 ^ 32 := Nat.pow_lt_pow_right (by omega) hsmall
          have hcounter : (2 ^ k + 2 ^ 32 - 1) % 2 ^ 32 = 2 ^ k - 1 := by
            rw [show 2 ^ k + 2 ^ 32 - 1 = (2 ^ k - 1) + 2 ^ 32 by omega, Nat.add_mod_right,
              Nat.mod_eq_of_lt (by omega)]
          omega
        · obtain rfl : k = 32 := by omega
          omega
      rw [ueLength, if_neg hstop, hlast]
    · have hpow : 2 ^ (k + 1) ≤ 2 ^ (v + 1).log2 := Nat.pow_le_pow_right (by omega) hmore
      have hsmall : 2 ^ k < 2 ^ 32 := Nat.pow_lt_pow_right (by omega) (by omega)
      have hpos : 0 < 2 ^ k := Nat.two_pow_pos k
      have hcounter : (2 ^ k + 2 ^ 32 - 1) % 2 ^ 32 = 2 ^ k - 1 := by
        rw [show 2 ^ k + 2 ^ 32 - 1 = (2 ^ k - 1) + 2 ^ 32 by omega, Nat.add_mod_right,
          Nat.mod_eq_of_lt (by omega)]
      have hnext : 2 ^ (k + 1) = 2 ^ k + 2 ^ k := by rw [Nat.pow_succ]; omega
      rw [ueLength, Nat.mod_eq_of_lt hsmall, hcounter, if_pos (by omega), ← hnext,
        show v + 1 - 2 ^ k - 2 ^ k = v + 1 - 2 ^ (k + 1) by omega]
      exact ih (by omega) (by omega)

/-- The bits of an unsigned code. -/
theorem piecesBits_uePieces {v : ℕ} (hv : v < 2 ^ 32) : piecesBits (uePieces v) = ueBits v := by
  have hfuel : (v + 1).log2 < 33 + 0 := by
    rw [Nat.add_zero, Nat.log2_lt (by omega)]
    omega
  have hval : ueLength 33 1 v 0 = (v + 1 - 2 ^ (v + 1).log2, (v + 1).log2) := by
    simpa using ueLength_from hv (Nat.zero_le _) hfuel
  have hle : 2 ^ (v + 1).log2 ≤ v + 1 := Nat.log2_self_le (by omega)
  have hnumeric : bits (v + 1).log2 (v + 1 - 2 ^ (v + 1).log2) = bits (v + 1).log2 (v + 1) := by
    rw [← bits_mod (Nat.le_refl _) (v + 1), Nat.mod_eq_sub_mod hle, bits_mod (Nat.le_refl _)]
  rw [uePieces, hval]
  rw [piecesBits_append, piecesBits_zeroPieces le_rfl, piecesBits_numericPieces _ le_rfl, hnumeric,
    ueBits, expGolomb, append_assoc, singleton_append]

/-- The bits of a signed code. -/
theorem piecesBits_sePieces {v : ℤ} (hlow : -2 ^ 31 < v) (hhigh : v < 2 ^ 31) :
    piecesBits (sePieces v) = seBits v := by
  have hcode : (if 0 < v then (v + v - 1) % 2 ^ 32 else (-v - v) % 2 ^ 32).toNat = seCodeNum v := by
    rw [seCodeNum]
    split <;> omega
  rw [sePieces, hcode]
  refine piecesBits_uePieces ?_
  rw [seCodeNum]
  split <;> omega

/-- A byte has eight bits. -/
theorem bytePieces_le (n v : ℕ) : ∀ p ∈ bytePieces n v, p.2 ≤ 8 := by
  induction n with
  | zero => exact fun p hp => absurd hp not_mem_nil
  | succ n ih => exact forall_mem_cons.mpr ⟨le_rfl, ih⟩

/-- The pieces in front of a code are short. -/
theorem zeroPieces_le {fuel lp : ℕ} (hfuel : lp ≤ fuel) : ∀ p ∈ zeroPieces fuel lp, p.2 ≤ 8 := by
  induction fuel generalizing lp with
  | zero =>
    obtain rfl := Nat.le_zero.mp hfuel
    exact forall_mem_singleton.mpr (by decide)
  | succ fuel ih =>
    rw [zeroPieces]
    split
    · exact forall_mem_cons.mpr ⟨le_rfl, ih (by omega)⟩
    · exact forall_mem_singleton.mpr (by dsimp only; omega)

/-- So are those of its number. -/
theorem numericPieces_le {fuel zeros : ℕ} (v : ℕ) (hfuel : zeros ≤ fuel) :
    ∀ p ∈ numericPieces fuel zeros v, p.2 ≤ 8 := by
  induction fuel generalizing zeros v with
  | zero =>
    obtain rfl := Nat.le_zero.mp hfuel
    exact forall_mem_singleton.mpr (Nat.zero_le 8)
  | succ fuel ih =>
    rw [numericPieces]
    split
    · exact forall_mem_cons.mpr ⟨le_rfl, ih _ (by omega)⟩
    · exact forall_mem_singleton.mpr (by dsimp only; omega)

/-- So are those of the whole code. -/
theorem uePieces_le (v : ℕ) : ∀ p ∈ uePieces v, p.2 ≤ 8 := by
  exact forall_mem_append.mpr ⟨zeroPieces_le le_rfl, numericPieces_le _ le_rfl⟩

/-- So are those of a value. -/
theorem upto32bitsPieces_le (v n : ℕ) : ∀ p ∈ upto32bitsPieces v n, p.2 ≤ 8 := by
  refine forall_mem_cons.mpr ⟨?_, bytePieces_le _ _⟩
  split <;> omega

/-! ### What a header stands for -/

/-- The bits of an element of raw data. -/
def Element.raw (e : Element) : List Bool :=
  (List.range e.size).map fun i => (e.bytes (i / 8)).testBit (7 - i % 8)

/-- The trailing bits that end a payload of `n` bits on a byte boundary. -/
def rbspTrailingBits (n : ℕ) : List Bool :=
  true :: List.replicate ((8 - (n + 1) % 8) % 8) false

/-- The bits of a list of elements, the newest first, with the tokens replaced. -/
def streamOf (qp : ℤ) : List Element → List Bool
  | [] => []
  | e :: es =>
    let before := streamOf qp es
    match e.type with
    | .startcodeRawdata | .startcodeMidhdr | .rawdata => before ++ e.raw
    | .qp => before ++ seBits qp
    | .insertByteAlignH264 => before ++ rbspTrailingBits before.length
    | .customQuant => before

def MtxHeader.stream (qp : ℤ) (h : MtxHeader) : List Bool := streamOf qp h.elements

/-- An element that takes bits: what is left of the current byte is zero. -/
structure Element.Open (e : Element) : Prop where
  raw : e.type.isRaw = true
  size_le : e.size ≤ 120
  clear : e.size % 8 ≠ 0 → ∀ b < 8 - e.size % 8, (e.bytes (e.size / 8)).testBit b = false

/-- The header stands for the bits `l`, and more bits can be written. Its elements take at most `n`
bits more than `l` has, a full element being counted for each token. -/
structure MtxHeader.Holds (qp : ℤ) (l : List Bool) (n : ℤ) (h : MtxHeader) : Prop where
  stream : h.stream qp = l
  writable : ∃ e es, h.elements = e :: es ∧ e.Open ∧
    ((120 * es.length + e.size : ℕ) : ℤ) ≤ (l.length : ℕ) + n

/-- A raw element adds its bits. -/
theorem streamOf_raw {qp : ℤ} {e : Element} (es : List Element) (h : e.type.isRaw = true) :
    streamOf qp (e :: es) = streamOf qp es ++ e.raw := by
  cases e with
  | mk type size bytes => cases type <;> first | rfl | cases h

/-- An element has its size. -/
@[simp] theorem length_raw (e : Element) : e.raw.length = e.size := by simp [Element.raw]

/-! ### Writing at most a byte -/

/-- What `write_upto8bits_elements` does with a header of any kind: the number of bits in the last
element, bits put into its current byte, a new element, and a header that is not written to. -/
structure BitSink (σ : Type) where
  size : σ → ℕ
  put : σ → ℕ → ℕ → σ
  next : σ → σ
  blocked : σ → Bool

namespace BitSink

variable {σ : Type} (w : BitSink σ)

/-- There is no room in the last element. -/
abbrev Full (h : σ) : Prop := w.size h % 8 = 0 ∧ 120 ≤ w.size h

/-- The calls of the function, with a bound on the depth of its recursion. -/
def calls : ℕ → σ → ℕ → ℕ → σ
  | 0, h, _, _ => h
  | calls + 1, h, writeBits, bitCnt =>
    if bitCnt = 0 ∨ w.blocked h then h
    else
      let value := writeBits % 256 % 2 ^ bitCnt
      if w.Full h then BitSink.calls calls (w.next h) value bitCnt
      else
        let used := w.size h % 8
        if bitCnt + used ≤ 8 then w.put h (value * 2 ^ (8 - bitCnt - used)) bitCnt
        else
          let left := bitCnt + used - 8
          BitSink.calls calls (w.put h (value / 2 ^ left) (bitCnt - left)) (value % 2 ^ left) left

variable {w} {h : σ} {v k : ℕ}

/-- A call that writes something. -/
theorem calls_succ {calls : ℕ} (hk : 0 < k) (hopen : w.blocked (w.calls (calls + 1) h v k) = false) :
    w.calls (calls + 1) h v k =
      if w.Full h then w.calls calls (w.next h) (v % 256 % 2 ^ k) k
      else if k + w.size h % 8 ≤ 8 then w.put h (v % 256 % 2 ^ k * 2 ^ (8 - k - w.size h % 8)) k
      else w.calls calls
        (w.put h (v % 256 % 2 ^ k / 2 ^ (k + w.size h % 8 - 8)) (k - (k + w.size h % 8 - 8)))
        (v % 256 % 2 ^ k % 2 ^ (k + w.size h % 8 - 8)) (k + w.size h % 8 - 8) := by
  rw [BitSink.calls] at hopen ⊢
  refine if_neg fun hstop => ?_
  rw [if_pos hstop] at hopen
  exact absurd (hstop.resolve_left hk.ne') (Bool.eq_false_iff.mp hopen)

variable (w) in
/-- A relation between bits and headers that is kept when bits are put into the current byte, or
into a new element behind a full one. -/
structure Keeps (Q : List Bool → σ → Prop) : Prop where
  put : ∀ {l h v k}, Q l h → ¬ w.Full h → v < 2 ^ k → k + w.size h % 8 ≤ 8 →
    Q (l ++ bits k v) (w.put h (v * 2 ^ (8 - k - w.size h % 8)) k) ∧
      w.size (w.put h (v * 2 ^ (8 - k - w.size h % 8)) k) = w.size h + k
  next : ∀ {l h v k}, Q l h → w.Full h → 0 < k → k ≤ 8 → v < 2 ^ k →
    Q (l ++ bits k v) (w.put (w.next h) (v * 2 ^ (8 - k)) k)
  size_next : ∀ {l h}, Q l h → w.Full h → w.size (w.next h) = 0

namespace Keeps

variable {Q : List Bool → σ → Prop} (hw : w.Keeps Q) {l : List Bool} (hQ : Q l h)
include hw hQ

/-- A call that finds room for its bits in the current byte. -/
theorem calls_fits (calls : ℕ) (hfull : ¬ w.Full h) (hk : 0 < k) (hfits : k + w.size h % 8 ≤ 8)
    (hopen : w.blocked (w.calls (calls + 1) h v k) = false) :
    Q (l ++ bits k v) (w.calls (calls + 1) h v k) := by
  rw [calls_succ hk hopen, if_neg hfull, if_pos hfits, ← bits_value (by omega) v]
  exact (hw.put hQ hfull (Nat.mod_lt _ (Nat.two_pow_pos k)) hfits).1

/-- A call at the beginning of a byte. -/
theorem calls_boundary (calls : ℕ) (hsize : w.size h % 8 = 0) (hk : 0 < k) (hk8 : k ≤ 8)
    (hopen : w.blocked (w.calls (calls + 2) h v k) = false) :
    Q (l ++ bits k v) (w.calls (calls + 2) h v k) := by
  by_cases hfull : w.Full h
  · have hnext := hw.next hQ hfull hk hk8
      (Nat.mod_lt (v % 256 % 2 ^ k % 256) (Nat.two_pow_pos k))
    have hzero := hw.size_next hQ hfull
    have hroom : ¬ w.Full (w.next h) := fun hnot => absurd hnot.2 (by omega)
    have hcall := calls_succ hk hopen
    rw [if_pos hfull] at hcall
    rw [hcall] at hopen ⊢
    rw [calls_succ hk hopen, if_neg hroom, hzero, if_pos (by omega)]
    rw [bits_value hk8, bits_value hk8] at hnext
    exact hnext
  · exact hw.calls_fits hQ (calls + 1) hfull hk (by omega) hopen

/-- Bits that are written are appended. -/
theorem write (hk : k ≤ 8) (hopen : w.blocked (w.calls 4 h v k) = false) :
    Q (l ++ bits k v) (w.calls 4 h v k) := by
  rcases Nat.eq_zero_or_pos k with rfl | hpos
  · rw [BitSink.calls, if_pos (.inl rfl), bits_zero, append_nil]
    exact hQ
  by_cases hsize : w.size h % 8 = 0
  · exact hw.calls_boundary hQ 2 hsize hpos hk hopen
  have hfull : ¬ w.Full h := fun hboth => hsize hboth.1
  by_cases hfits : k + w.size h % 8 ≤ 8
  · exact hw.calls_fits hQ 3 hfull hpos hfits hopen
  · -- the first bits fill the byte, the others begin the next one
    obtain ⟨left, hleft⟩ : ∃ left, left = k + w.size h % 8 - 8 := ⟨_, rfl⟩
    have hcall := calls_succ hpos hopen
    rw [if_neg hfull, if_neg hfits, ← hleft] at hcall
    rw [hcall] at hopen ⊢
    have hsplit : bits k v = bits (k - left) (v % 256 % 2 ^ k / 2 ^ left) ++
        bits left (v % 256 % 2 ^ k % 2 ^ left) := by
      rw [bits_mod (Nat.le_refl left), ← bits_add, show k - left + left = k by omega,
        bits_value hk]
    have hfirst : v % 256 % 2 ^ k / 2 ^ left < 2 ^ (k - left) := by
      rw [Nat.div_lt_iff_lt_mul (Nat.two_pow_pos _), ← Nat.pow_add,
        show k - left + left = k by omega]
      exact Nat.mod_lt _ (Nat.two_pow_pos k)
    have hput := hw.put hQ hfull hfirst (by omega)
    rw [show 8 - (k - left) - w.size h % 8 = 0 by omega, Nat.pow_zero, Nat.mul_one] at hput
    rw [hsplit, ← append_assoc]
    exact hw.calls_boundary hput.1 1 (by omega) (by omega) (by omega) hopen

end Keeps

end BitSink

/-! ### Writing bits -/

section Put

variable {e : Element}

/-- Clearing a byte ahead changes nothing that is in use. -/
theorem Element.Open.clearByte (h : e.Open) (hfull : ¬ (e.size % 8 = 0 ∧ 120 ≤ e.size)) :
    e.clearByte.Open ∧ e.clearByte.size = e.size ∧ e.clearByte.raw = e.raw ∧ e.size < 120 ∧
      e.clearByte.type = e.type ∧
      ∀ b < 8 - e.size % 8, (e.clearByte.bytes (e.size / 8)).testBit b = false := by
  have hlt : e.size < 120 := by
    have hle := h.size_le
    by_contra hge
    exact hfull ⟨by omega, by omega⟩
  by_cases hsize : e.size % 8 = 0
  · have hclear : e.clearByte = { e with bytes := Function.update e.bytes (e.size / 8) 0 } := by
      rw [Element.clearByte, if_pos hsize]
    rw [hclear]
    refine ⟨⟨h.raw, h.size_le, fun hne => absurd hsize hne⟩, rfl, ?_, hlt, rfl, fun b _ => by simp⟩
    refine map_congr_left fun i hi => ?_
    have hilt := mem_range.mp hi
    have hne : i / 8 ≠ e.size / 8 := by
      intro heq
      have hilt' : i < e.size := hilt
      omega
    simp [update_of_ne hne]
  · have hclear : e.clearByte = e := by rw [Element.clearByte, if_neg hsize]
    rw [hclear]
    exact ⟨h, rfl, rfl, hlt, rfl, h.clear hsize⟩

/-- Bits that fit into the current byte are appended, and what is left of it stays zero. -/
theorem Element.put_fits {v n : ℕ} (h : e.Open) (hlt : e.size < 120)
    (hzero : ∀ b < 8 - e.size % 8, (e.bytes (e.size / 8)).testBit b = false)
    (hv : v < 2 ^ n) (hfits : n + e.size % 8 ≤ 8) :
    (e.put (v * 2 ^ (8 - n - e.size % 8)) n).raw = e.raw ++ bits n v ∧
      (e.put (v * 2 ^ (8 - n - e.size % 8)) n).Open := by
  have htest : ∀ b, (v * 2 ^ (8 - n - e.size % 8)).testBit b =
      (decide (8 - n - e.size % 8 ≤ b) && v.testBit (b - (8 - n - e.size % 8))) := by
    intro b
    rw [← Nat.shiftLeft_eq, Nat.testBit_shiftLeft]
  have hhigh : ∀ b, n ≤ b → v.testBit b = false := by
    intro b hb
    exact Nat.testBit_lt_two_pow (Nat.lt_of_lt_of_le hv (Nat.pow_le_pow_right (by omega) hb))
  constructor
  · refine ext_getElem (by simp [Element.put]) fun i hi hi' => ?_
    have hilt : i < e.size + n := by simpa [Element.put] using hi
    by_cases hold : i < e.size
    · -- an old bit: it is in another byte, or above the bits that are set
      rw [getElem_append_left (by simpa using hold)]
      simp only [Element.raw, Element.put, getElem_map, getElem_range]
      by_cases hbyte : i / 8 = e.size / 8
      · rw [hbyte, update_self, Nat.testBit_or, htest, hhigh _ (by omega)]
        simp
      · rw [update_of_ne hbyte]
    · have hbyte : i / 8 = e.size / 8 := by omega
      rw [getElem_append_right (by simpa using hold), getElem_bits]
      simp only [Element.raw, Element.put, getElem_map, getElem_range, length_map, length_range]
      rw [hbyte, update_self, Nat.testBit_or, htest, hzero _ (by omega), Bool.false_or,
        decide_eq_true (by omega), Bool.true_and]
      congr 1
      omega
  · refine ⟨h.raw, by simp only [Element.put]; omega, fun hne b hb => ?_⟩
    simp only [Element.put] at hne hb ⊢
    have hbyte : (e.size + n) / 8 = e.size / 8 := by omega
    rw [hbyte, update_self, Nat.testBit_or, htest, hzero b (by omega), Bool.false_or,
      decide_eq_false (by omega), Bool.false_and]

/-- Bits that are put into the current byte, which is cleared if it begins. -/
theorem Element.Open.put {v n : ℕ} (h : e.Open) (hfull : ¬ (e.size % 8 = 0 ∧ 120 ≤ e.size))
    (hv : v < 2 ^ n) (hfits : n + e.size % 8 ≤ 8) :
    (e.clearByte.put (v * 2 ^ (8 - n - e.size % 8)) n).raw = e.raw ++ bits n v ∧
      (e.clearByte.put (v * 2 ^ (8 - n - e.size % 8)) n).Open ∧
      (e.clearByte.put (v * 2 ^ (8 - n - e.size % 8)) n).size = e.size + n ∧
      (e.clearByte.put (v * 2 ^ (8 - n - e.size % 8)) n).type = e.type := by
  obtain ⟨hopen, hsize, hraw, hlt, htype, hzero⟩ := h.clearByte hfull
  rw [← hsize] at hfits hlt hzero
  have hput := Element.put_fits hopen hlt hzero hv hfits
  rw [hsize, hraw] at hput
  exact ⟨hput.1, hput.2, congrArg (· + n) hsize, htype⟩

end Put

namespace MtxHeader

/-- Writing to the last element of a header. -/
def sink : BitSink MtxHeader where
  size h := (h.elements.head?.map Element.size).getD 0
  put h v n :=
    match h.elements with
    | [] => h
    | e :: es => { h with elements := e.clearByte.put v n :: es }
  next h := h.newElement .rawdata
  blocked _ := false

/-- The loop is the one of the sink. -/
theorem writeUpto8bitsCalls_eq (calls : ℕ) : ∀ (h : MtxHeader) (v k : ℕ),
    writeUpto8bitsCalls calls h v k = sink.calls calls h v k := by
  induction calls with
  | zero => exact fun _ _ _ => rfl
  | succ calls ih =>
    rintro ⟨_ | ⟨e, es⟩, stale⟩ v k
    · have hnil : ∀ v k, writeUpto8bitsCalls calls ⟨[], stale⟩ v k = ⟨[], stale⟩ := by
        cases calls <;> simp [writeUpto8bitsCalls]
      simp only [BitSink.calls, ← ih]
      simp [writeUpto8bitsCalls, sink, hnil]
    · simp only [BitSink.calls, ← ih]
      simp only [writeUpto8bitsCalls, Bool.false_eq_true, or_false, sink]
      rfl

end MtxHeader

namespace MtxHeader.Holds

variable {qp : ℤ} {l : List Bool} {n : ℤ} {h : MtxHeader}

variable {es : List Element} {e : Element}

/-- Bits that are put into the current byte. -/
theorem put {v k : ℕ} (hh : h.Holds qp l n) (helements : h.elements = e :: es)
    (hfull : ¬ (e.size % 8 = 0 ∧ 120 ≤ e.size)) (hv : v < 2 ^ k) (hfits : k + e.size % 8 ≤ 8) :
    Holds qp (l ++ bits k v) n
      { h with elements := e.clearByte.put (v * 2 ^ (8 - k - e.size % 8)) k :: es } := by
  obtain ⟨e', es', helements', hopen, hroom⟩ := hh.writable
  obtain ⟨rfl, rfl⟩ : e = e' ∧ es = es' := by
    simpa using helements.symm.trans helements'
  obtain ⟨hraw, hopen', hsize, -⟩ := hopen.put hfull hv hfits
  refine ⟨?_, _, _, rfl, hopen', ?_⟩
  · have hstream := hh.stream
    rw [MtxHeader.stream, helements, streamOf_raw es hopen.raw] at hstream
    rw [MtxHeader.stream, streamOf_raw es hopen'.raw, hraw, ← append_assoc, hstream]
  · simp only [hsize, length_append, length_bits]
    omega

/-- A full element is left for a new one. -/
theorem newElement_of_full (hh : h.Holds qp l n) (helements : h.elements = e :: es)
    (hfull : 120 ≤ e.size) : (h.newElement .rawdata).Holds qp l n := by
  obtain ⟨e', es', helements', hopen, hroom⟩ := hh.writable
  obtain ⟨rfl, rfl⟩ : e = e' ∧ es = es' := by
    simpa using helements.symm.trans helements'
  refine ⟨?_, _, _, rfl, ⟨rfl, Nat.zero_le _, fun hne => absurd rfl hne⟩, ?_⟩
  · rw [← hh.stream, MtxHeader.stream, newElement, streamOf_raw _ rfl]
    simp [Element.raw, MtxHeader.stream]
  · have hsize := hopen.size_le
    simp only [helements, length_cons]
    omega

variable (qp n) in
/-- What is written to a header that stands for some bits is appended to them. -/
theorem keeps : sink.Keeps fun l h => h.Holds qp l n where
  put := by
    rintro l ⟨elements, stale⟩ v k hh hfull hv hfits
    obtain ⟨e, es, helements, hopen, -⟩ := hh.writable
    obtain rfl : elements = e :: es := helements
    exact ⟨hh.put rfl hfull hv hfits, (hopen.put hfull hv hfits).2.2.1⟩
  next := by
    rintro l ⟨elements, stale⟩ v k hh hfull hk hk8 hv
    obtain ⟨e, es, helements, hopen, -⟩ := hh.writable
    obtain rfl : elements = e :: es := helements
    exact (hh.newElement_of_full rfl hfull.2).put rfl (fun hnot => by cases hnot.2) hv hk8
  size_next _ _ := rfl

/-- Bits that are written are appended. -/
theorem writeUpto8bits {k : ℕ} (hh : h.Holds qp l n) (v : ℕ) (hk : k ≤ 8) :
    (h.writeUpto8bitsElements v k).Holds qp (l ++ bits k v) n := by
  rw [writeUpto8bitsElements, writeUpto8bitsCalls_eq]
  exact (keeps qp n).write hh hk rfl

/-- The pieces of a value are appended one after the other. -/
theorem writePieces {pieces : List (ℕ × ℕ)} (hle : ∀ p ∈ pieces, p.2 ≤ 8) (hh : h.Holds qp l n) :
    (h.writePieces pieces).Holds qp (l ++ piecesBits pieces) n := by
  induction pieces generalizing h l with
  | nil => exact (append_nil l).symm ▸ hh
  | cons p pieces ih =>
    obtain ⟨hp, hrest⟩ := forall_mem_cons.mp hle
    have hfirst := ih hrest (hh.writeUpto8bits p.1 hp)
    rwa [append_assoc] at hfirst

/-- Thirty-two bits. -/
theorem writeUpto32bits (hh : h.Holds qp l n) (v : ℕ) :
    (h.writeUpto32bitsElements v 32).Holds qp (l ++ bits 32 v) n :=
  piecesBits_upto32bitsPieces v (n := 32) (by decide) ▸
    hh.writePieces (upto32bitsPieces_le v 32)

/-- A number below `2 ^ 32` is written in Exp-Golomb code. -/
theorem generateUe {v : ℕ} (hh : h.Holds qp l n) (hv : v < 2 ^ 32) :
    (h.generateUe v).Holds qp (l ++ ueBits v) n :=
  piecesBits_uePieces hv ▸ hh.writePieces (uePieces_le v)

/-- A signed number is written in Exp-Golomb code. -/
theorem generateSe {v : ℤ} (hh : h.Holds qp l n) (hlow : -2 ^ 31 < v) (hhigh : v < 2 ^ 31) :
    (h.generateSe v).Holds qp (l ++ seBits v) n :=
  piecesBits_sePieces hlow hhigh ▸ hh.writePieces (uePieces_le _)

/-! ### Tokens -/

/-- The first element of a header. -/
theorem startcode (hempty : h.elements = []) :
    (h.insertElementToken .startcodeRawdata).Holds qp [] 0 := by
  have hnew : h.insertElementToken .startcodeRawdata = h.newElement .startcodeRawdata := by
    rw [insertElementToken, hempty, if_neg (by decide)]
  rw [hnew]
  refine ⟨?_, _, _, rfl, ⟨rfl, Nat.zero_le _, fun hne => absurd rfl hne⟩, ?_⟩
  · simp [MtxHeader.stream, newElement, hempty, streamOf, Element.raw]
  · simp [hempty]

/-- As long as there is little in a header, a token is inserted. -/
theorem insertElementToken_eq (hh : h.Holds qp l n) (hroom : (l.length : ℕ) + n < 1920)
    (token : ElementType) : h.insertElementToken token = h.newElement token := by
  obtain ⟨e, es, helements, hopen, hle⟩ := hh.writable
  have hcount : ¬ maxNumberElements ≤ h.elements.length - 1 := by
    rw [helements, length_cons, maxNumberElements]
    omega
  rw [insertElementToken, if_neg hcount]

/-- The code of the quantiser, and an element for the bits behind it. -/
theorem insertQp (hh : h.Holds qp l n) (hroom : (l.length : ℕ) + n < 1800) :
    ((h.insertElementToken .qp).insertElementToken .rawdata).Holds qp (l ++ seBits qp)
      (n + 240 - (seBits qp).length) := by
  obtain ⟨e, es, helements, hopen, hle⟩ := hh.writable
  have hqp := hh.insertElementToken_eq (by omega) .qp
  have hcount : ¬ maxNumberElements ≤ (h.newElement .qp).elements.length - 1 := by
    simp only [newElement, helements, length_cons, maxNumberElements]
    omega
  rw [hqp, insertElementToken, if_neg hcount]
  refine ⟨?_, _, _, rfl, ⟨rfl, Nat.zero_le _, fun hne => absurd rfl hne⟩, ?_⟩
  · have hstream : streamOf qp h.elements = l := hh.stream
    simp [MtxHeader.stream, newElement, streamOf, Element.raw, hstream]
  · simp only [newElement, helements, length_cons, length_append]
    omega

/-- The alignment that ends a parameter set. -/
theorem byteAlign (hh : h.Holds qp l n) (hroom : (l.length : ℕ) + n < 1920) :
    (h.insertElementToken .insertByteAlignH264).stream qp = l ++ rbspTrailingBits l.length := by
  have hstream : streamOf qp h.elements = l := hh.stream
  rw [hh.insertElementToken_eq hroom]
  simp [MtxHeader.stream, newElement, streamOf, hstream]

/-- The start code of four bytes. -/
theorem startcodePrefix (hh : h.Holds qp l n) :
    (h.startcodePrefixElement 4).Holds qp (l ++ bits 32 1) n := by
  have hzeros := ((hh.writeUpto8bits 0 (Nat.le_refl 8)).writeUpto8bits 0
    (Nat.le_refl 8)).writeUpto8bits 0 (Nat.le_refl 8)
  have hall := hzeros.writeUpto8bits 1 (Nat.le_refl 8)
  have hcode : bits 8 0 ++ (bits 8 0 ++ (bits 8 0 ++ bits 8 1)) = bits 32 1 := by decide
  simp only [append_assoc, hcode] at hall
  exact hall

end MtxHeader.Holds

end HardwareIntel.Topaz
