import HardwareIntel.Library.Bits
import Mathlib.Logic.Function.Basic

/-!
# The writer of packed headers

The bits of a header are collected in words of the host. A word that is full is swapped, so that its
first bit is in the first byte; what is left of a value starts the next word, together with the bits of
the value that were used before, which are pushed out while the word is filled. `Packed` are the words
without the memory, and `Held.putUi` says that the memory has them.

An `int` that overflows gives no result, nor does a size that is negative or an index that is out of
bounds.
-/

namespace HardwareIntel.VideoEncoder

open List Function

/-- `BITSTREAM_ALLOCATE_STEPPING` -/
def bitstreamAllocateStepping : ℕ := 4096

structure Bitstream where
  buffer : ℕ → BitVec 32
  bitOffset : ℕ
  maxSizeInDword : ℕ

/-- `va_swap32`, on a host that has the low byte first. -/
def vaSwap32 (val : BitVec 32) : BitVec 32 :=
  let pval (i : ℕ) : BitVec 32 := (val.extractLsb' (8 * i) 8).setWidth 32
  pval 0 <<< 24 ||| pval 1 <<< 16 ||| pval 2 <<< 8 ||| pval 3

/-- A shift of a word to the left. The processor takes the count modulo 32. -/
def shiftWord (w : BitVec 32) (n : ℕ) : BitVec 32 := w <<< (n % 32)

/-- The result of a calculation with `int`. -/
def intResult (z : ℤ) : Option ℤ := if -2 ^ 31 ≤ z ∧ z < 2 ^ 31 then some z else none

def bitstreamStart : Bitstream := ⟨fun _ => 0, 0, bitstreamAllocateStepping⟩

def bitstreamEnd (bs : Bitstream) : Bitstream :=
  let pos := bs.bitOffset / 32
  let bitOffset := bs.bitOffset % 32
  let bitLeft := 32 - bitOffset
  if bitOffset ≠ 0 then
    { bs with
      buffer := Function.update bs.buffer pos (vaSwap32 (shiftWord (bs.buffer pos) bitLeft)) }
  else bs

section Writer

-- what `realloc` finds in the words that it adds, and how long a loop may take
variable (added : ℕ → BitVec 32) (fuel : ℕ) (bs : Bitstream)

/-- The words after `realloc`. -/
def grow (buffer : ℕ → BitVec 32) (maxSizeInDword : ℕ) : ℕ → BitVec 32 :=
  fun i => if i < maxSizeInDword then buffer i else added i

def bitstreamPutUi (val : BitVec 32) (sizeInBits : ℕ) : Option Bitstream :=
  let pos := bs.bitOffset / 32
  let bitLeft := 32 - bs.bitOffset % 32
  if sizeInBits = 0 then some bs
  else if 2 ^ 31 ≤ bs.bitOffset + sizeInBits ∨ bs.maxSizeInDword ≤ pos then none
  else if sizeInBits < bitLeft then
    some { bs with
      bitOffset := bs.bitOffset + sizeInBits
      buffer := Function.update bs.buffer pos (shiftWord (bs.buffer pos) sizeInBits ||| val) }
  else
    let left := sizeInBits - bitLeft
    let buffer := Function.update bs.buffer pos
      (vaSwap32 (shiftWord (bs.buffer pos) bitLeft ||| val >>> left))
    if pos + 1 = bs.maxSizeInDword then
      some {
        bitOffset := bs.bitOffset + sizeInBits
        maxSizeInDword := bs.maxSizeInDword + bitstreamAllocateStepping
        buffer := Function.update (grow added buffer bs.maxSizeInDword) (pos + 1) val }
    else
      some { bs with
        bitOffset := bs.bitOffset + sizeInBits
        buffer := Function.update buffer (pos + 1) val }

/-- The loop of `bitstream_put_ue`, with `tmp_val` and `size_in_bits`. -/
def countBits : ℕ → BitVec 32 → ℕ → Option ℕ
  | 0, tmpVal, sizeInBits => if tmpVal = 0 then some sizeInBits else none
  | fuel + 1, tmpVal, sizeInBits =>
    if tmpVal = 0 then some sizeInBits else countBits fuel (tmpVal.sshiftRight 1) (sizeInBits + 1)

def bitstreamPutUe (val : BitVec 32) : Option Bitstream := do
  let val := val + 1
  let sizeInBits ← countBits fuel val 0
  if sizeInBits = 0 then none
  else
    let bs ← bitstreamPutUi added bs 0 (sizeInBits - 1)
    bitstreamPutUi added bs val sizeInBits

/-- `new_val` of `bitstream_put_se`. -/
def seNewVal (val : ℤ) : Option ℤ :=
  if val ≤ 0 then intResult (-2 * val)
  else (intResult (2 * val)).bind fun double => intResult (double - 1)

def bitstreamPutSe (val : ℤ) : Option Bitstream := do
  let newVal ← seNewVal val
  bitstreamPutUe added fuel bs (BitVec.ofInt 32 newVal)

/-- `bitstream_byte_aligning`, for a bit that passes its assertion. -/
def bitstreamByteAligning (bit : Bool) : Option Bitstream :=
  let bitOffset := bs.bitOffset % 8
  let bitLeft := 8 - bitOffset
  if bitOffset = 0 then some bs
  else bitstreamPutUi added bs (if bit then 1 <<< bitLeft - 1 else 0) bitLeft

/-- A call that writes. -/
inductive Put
  | ui (val : BitVec 32) (sizeInBits : ℕ)
  | ue (val : BitVec 32)
  | se (val : ℤ)
  | byteAligning (bit : Bool)

def put : Put → Option Bitstream
  | .ui val sizeInBits => bitstreamPutUi added bs val sizeInBits
  | .ue val => bitstreamPutUe added fuel bs val
  | .se val => bitstreamPutSe added fuel bs val
  | .byteAligning bit => bitstreamByteAligning added bs bit

/-- Calls one after the other. -/
def puts (ps : List Put) : Option Bitstream := ps.foldlM (put added fuel) bs

end Writer

/-- A byte in memory. -/
def byteAt (buffer : ℕ → BitVec 32) (i : ℕ) : BitVec 8 := (buffer (i / 4)).extractLsb' (8 * (i % 4)) 8

/-- The first `n` bytes in memory, as bits. -/
def memoryBits (buffer : ℕ → BitVec 32) (n : ℕ) : List Bool :=
  (List.range n).flatMap fun i => bits 8 (byteAt buffer i).toNat

/-- The bytes that a header takes, as bits. -/
def headerBits (bs : Bitstream) : List Bool := memoryBits bs.buffer ((bs.bitOffset + 7) / 8)

/-! ### What should be written -/

namespace Put

/-- The bits of a call, if there are `length` bits before it. -/
def code (length : ℕ) : Put → List Bool
  | ui val sizeInBits => bits sizeInBits val.toNat
  | ue val => ueBits val.toNat
  | se val => seBits val
  | byteAligning bit => List.replicate ((8 - length % 8) % 8) bit

/-- The arguments that a call may have. -/
def Valid : Put → Prop
  | ui val sizeInBits => 1 ≤ sizeInBits ∧ sizeInBits ≤ 32 ∧ val.toNat < 2 ^ sizeInBits
  | ue val => val.toNat < 2 ^ 32 - 1
  | se val => -2 ^ 31 < val ∧ val < 2 ^ 31
  | byteAligning _ => True

instance : ∀ p : Put, Decidable p.Valid
  | ui _ _ => instDecidableAnd
  | ue val => inferInstanceAs (Decidable (val.toNat < 2 ^ 32 - 1))
  | se _ => instDecidableAnd
  | byteAligning _ => isTrue trivial

/-- A size that does not shift a word more than it is long. -/
def Short : Put → Prop
  | ui _ sizeInBits => sizeInBits ≤ 32
  | _ => True

/-- A valid call is short. -/
theorem Valid.short {p : Put} (h : p.Valid) : p.Short := by
  cases p with
  | ui val sizeInBits => exact h.2.1
  | _ => trivial

/-- The value that is in the word when it is written to its end just by this call, if `last` was the one
before. -/
def last (length : ℕ) (last : BitVec 32) : Put → BitVec 32
  | ui val _ => val
  | ue val => val + 1
  | se val => BitVec.ofNat 32 (seCodeNum val + 1)
  | byteAligning bit =>
    if length % 8 = 0 then last else if bit then 1 <<< (8 - length % 8) - 1 else 0

/-- What a call needs, if there are `length` bits before it and the last value was `last`: a number with
an Exp-Golomb code is not too large, and 32 bits in a word of their own have all bits of `last`. -/
def Sound (length : ℕ) (last : BitVec 32) : Put → Prop
  | ui val sizeInBits => sizeInBits = 32 → length % 32 = 0 → last ||| val = val
  | ue val => val.toNat + 1 < 2 ^ 31
  | se val => -2 ^ 30 < val ∧ val < 2 ^ 30
  | byteAligning _ => True

instance (length : ℕ) (last : BitVec 32) : ∀ p : Put, Decidable (p.Sound length last)
  | ui val sizeInBits =>
    inferInstanceAs (Decidable (sizeInBits = 32 → length % 32 = 0 → last ||| val = val))
  | ue val => inferInstanceAs (Decidable (val.toNat + 1 < 2 ^ 31))
  | se _ => instDecidableAnd
  | byteAligning _ => isTrue trivial

end Put

/-- The bits of calls, if there are `length` bits before them. -/
def codes : ℕ → List Put → List Bool
  | _, [] => []
  | length, p :: ps => p.code length ++ codes (length + (p.code length).length) ps

/-- All calls have what they need. -/
def AllSound : ℕ → BitVec 32 → List Put → Prop
  | _, _, [] => True
  | length, last, p :: ps =>
    p.Sound length last ∧ AllSound (length + (p.code length).length) (p.last length last) ps

instance AllSound.decidable : ∀ (length : ℕ) (last : BitVec 32) (ps : List Put),
    Decidable (AllSound length last ps)
  | _, _, [] => isTrue trivial
  | _, _, _ :: ps => @instDecidableAnd _ _ _ (AllSound.decidable _ _ ps)

/-! ### Bits in words -/

/-- The bits of an `or`. -/
theorem testBit_toNat_or (w v : BitVec 32) (i : ℕ) :
    (w ||| v).toNat.testBit i = (w.getLsbD i || v.getLsbD i) := by
  rw [BitVec.testBit_toNat, BitVec.getLsbD_or]

/-- The low bits of a word are those of the value that comes last. -/
theorem bits_or_of_shift {n : ℕ} (hn : n < 32) (w v : BitVec 32) :
    bits n (shiftWord w n ||| v).toNat = bits n v.toNat := by
  refine bits_congr fun i hi => ?_
  rw [testBit_toNat_or, shiftWord, Nat.mod_eq_of_lt hn, BitVec.getLsbD_shiftLeft, BitVec.testBit_toNat]
  simp [hi]

/-- A value is put behind the bits of a word. -/
theorem bits_shift_or {r n : ℕ} (hn : n < 32) (hr : r + n ≤ 32) (w : BitVec 32) {v : BitVec 32}
    (hv : v.toNat < 2 ^ n) :
    bits (r + n) (shiftWord w n ||| v).toNat = bits r w.toNat ++ bits n v.toNat := by
  rw [bits_add, bits_or_of_shift hn]
  congr 1
  refine bits_congr fun i hi => ?_
  have hlt : i + n < 32 := by omega
  have hhigh : v.getLsbD (i + n) = false := by
    exact Nat.testBit_lt_two_pow (lt_of_lt_of_le hv (Nat.pow_le_pow_right (by decide) (by omega)))
  rw [Nat.testBit_div_two_pow, testBit_toNat_or, shiftWord, Nat.mod_eq_of_lt hn,
    BitVec.getLsbD_shiftLeft, hhigh, BitVec.testBit_toNat]
  simp [hlt]

/-- A word goes to its end. -/
theorem bits_shift_zero {r : ℕ} (hr : 0 < r) (hr' : r < 32) (w : BitVec 32) :
    bits 32 (shiftWord w (32 - r)).toNat = bits r w.toNat ++ List.replicate (32 - r) false := by
  have hbits := @bits_shift_or r (32 - r) (by omega) (by omega) w 0#32 (Nat.two_pow_pos _)
  rwa [BitVec.or_zero, Nat.add_sub_of_le (by omega : r ≤ 32), BitVec.toNat_zero, bits_zero_right] at hbits

/-- The bytes of a word that was swapped. -/
theorem byte_vaSwap32 (w : BitVec 32) {j : ℕ} (hj : j < 4) :
    (vaSwap32 w).extractLsb' (8 * j) 8 = w.extractLsb' (8 * (3 - j)) 8 := by
  apply BitVec.eq_of_getLsbD_eq
  intro i hi
  all_goals
    simp only [vaSwap32, BitVec.getLsbD_extractLsb', BitVec.getLsbD_or, BitVec.getLsbD_shiftLeft,
      BitVec.getLsbD_setWidth]
    grind

/-- The bits of a byte of a word. -/
theorem bits_byte (w : BitVec 32) (k : ℕ) :
    bits 8 (w.extractLsb' k 8).toNat = bits 8 (w.toNat / 2 ^ k) := by
  refine bits_congr fun i hi => ?_
  rw [BitVec.testBit_toNat, BitVec.getLsbD_extractLsb', Nat.testBit_div_two_pow, ← BitVec.testBit_toNat,
    Nat.add_comm]
  simp [hi]

/-! ### Bits in memory -/

variable {buffer : ℕ → BitVec 32}

/-- One more byte of the memory. -/
theorem memoryBits_succ (n : ℕ) :
    memoryBits buffer (n + 1) = memoryBits buffer n ++ bits 8 (byteAt buffer n).toNat := by
  rw [memoryBits, range_succ, flatMap_append, flatMap_singleton]
  rfl

/-- Eight bits for each byte. -/
@[simp] theorem length_memoryBits (n : ℕ) : (memoryBits buffer n).length = 8 * n := by
  induction n with
  | zero => rfl
  | succ n ih => rw [memoryBits_succ, length_append, ih, length_bits, Nat.mul_succ]

/-- Fewer bytes. -/
theorem memoryBits_of_le {m n : ℕ} (h : m ≤ n) :
    memoryBits buffer m = (memoryBits buffer n).take (8 * m) := by
  induction n, h using Nat.le_induction with
  | base => rw [take_of_length_le (by rw [length_memoryBits])]
  | succ n hle ih =>
    rw [memoryBits_succ, take_append_of_le_length (by rw [length_memoryBits]; omega), ih]

/-- The bits of a word, byte by byte. -/
theorem bits_bytes (n : ℕ) : bits 32 n =
    bits 8 (n / 2 ^ 24) ++ bits 8 (n / 2 ^ 16) ++ bits 8 (n / 2 ^ 8) ++ bits 8 n := by
  rw [bits_add 24 8, bits_add 16 8, bits_add 8 8]
  simp only [Nat.div_div_eq_div_mul]
  rfl

/-- A word in memory is the next four bytes. -/
theorem memoryBits_word {k : ℕ} {w : BitVec 32} (hw : buffer k = vaSwap32 w) :
    memoryBits buffer (4 * (k + 1)) = memoryBits buffer (4 * k) ++ bits 32 w.toNat := by
  have hbyte : ∀ j < 4, bits 8 (byteAt buffer (4 * k + j)).toNat =
      bits 8 (w.toNat / 2 ^ (8 * (3 - j))) := by
    intro j hj
    rw [byteAt, show (4 * k + j) / 4 = k by omega, show (4 * k + j) % 4 = j by omega, hw,
      byte_vaSwap32 w hj, bits_byte]
  calc memoryBits buffer (4 * (k + 1))
      = memoryBits buffer (4 * k) ++ bits 8 (byteAt buffer (4 * k)).toNat ++
          bits 8 (byteAt buffer (4 * k + 1)).toNat ++ bits 8 (byteAt buffer (4 * k + 2)).toNat ++
          bits 8 (byteAt buffer (4 * k + 3)).toNat := by
        rw [← memoryBits_succ, ← memoryBits_succ, ← memoryBits_succ, ← memoryBits_succ]
        rfl
    _ = memoryBits buffer (4 * k) ++ bits 32 w.toNat := by
        have hfirst : bits 8 (byteAt buffer (4 * k)).toNat = bits 8 (w.toNat / 2 ^ (8 * (3 - 0))) :=
          hbyte 0 (by decide)
        rw [hfirst, hbyte 1 (by decide), hbyte 2 (by decide), hbyte 3 (by decide), bits_bytes]
        simp

/-- Words in memory. -/
theorem memoryBits_words {ws : List (BitVec 32)}
    (h : ∀ (j : ℕ) (hj : j < ws.length), buffer j = vaSwap32 ws[j]) :
    memoryBits buffer (4 * ws.length) = ws.flatMap fun w => bits 32 w.toNat := by
  induction ws using List.reverseRecOn with
  | nil => rfl
  | append_singleton ws w ih =>
    have hlast : buffer ws.length = vaSwap32 w := by
      rw [h ws.length (by rw [length_append, length_singleton]; omega)]
      simp
    have hbefore : ∀ (j : ℕ) (hj : j < ws.length), buffer j = vaSwap32 ws[j] := by
      intro j hj
      rw [h j (by rw [length_append]; omega), getElem_append_left hj]
    rw [length_append, length_singleton, memoryBits_word hlast, ih hbefore,
      flatMap_append, flatMap_singleton]

/-! ### Words that are filled -/

/-- What has been written: the words that are full, as they were before they were swapped, and the word
that is being filled, of which the last `count` bits are in use. -/
structure Packed where
  full : List (BitVec 32)
  count : ℕ
  word : BitVec 32

namespace Packed

variable (t : Packed)

def length : ℕ := 32 * t.full.length + t.count

/-- The bits that have been written. -/
def written : List Bool := t.full.flatMap (fun w => bits 32 w.toNat) ++ bits t.count t.word.toNat

def putUi (val : BitVec 32) (sizeInBits : ℕ) : Option Packed :=
  if sizeInBits = 0 then some t
  else if 2 ^ 31 ≤ t.length + sizeInBits then none
  else if t.count + sizeInBits < 32 then
    some ⟨t.full, t.count + sizeInBits, shiftWord t.word sizeInBits ||| val⟩
  else
    let left := t.count + sizeInBits - 32
    some ⟨t.full ++ [shiftWord t.word (32 - t.count) ||| val >>> left], left, val⟩

/-- The memory of a writer holds the words. -/
structure Held (bs : Bitstream) : Prop where
  count_lt : t.count < 32
  bitOffset : bs.bitOffset = t.length
  inBounds : t.full.length < bs.maxSizeInDword
  word : bs.buffer t.full.length = t.word
  full : ∀ (j : ℕ) (hj : j < t.full.length), bs.buffer j = vaSwap32 t.full[j]

variable {t : Packed} {bs : Bitstream}

/-- The word that is being filled. -/
theorem Held.pos (h : t.Held bs) : bs.bitOffset / 32 = t.full.length := by
  have hcount := h.count_lt
  rw [h.bitOffset, length]
  omega

/-- How much of it is in use. -/
theorem Held.mod (h : t.Held bs) : bs.bitOffset % 32 = t.count := by
  have hcount := h.count_lt
  rw [h.bitOffset, length]
  omega

/-- The memory of a writer is filled word by word. -/
theorem Held.putUi (h : t.Held bs) (added : ℕ → BitVec 32) (val : BitVec 32) (sizeInBits : ℕ)
    (hsize : sizeInBits ≤ 32) :
    match t.putUi val sizeInBits with
    | none => bitstreamPutUi added bs val sizeInBits = none
    | some t' => ∃ bs', bitstreamPutUi added bs val sizeInBits = some bs' ∧ t'.Held bs' := by
  have hcount := h.count_lt
  have hbounds := h.inBounds
  rw [Packed.putUi, bitstreamPutUi]
  simp only [h.pos, h.mod, h.word]
  by_cases hzero : sizeInBits = 0
  · rw [if_pos hzero, if_pos hzero]
    exact ⟨bs, rfl, h⟩
  by_cases hint : 2 ^ 31 ≤ t.length + sizeInBits
  · rw [if_neg hzero, if_neg hzero, if_pos hint, if_pos (Or.inl (h.bitOffset ▸ hint))]
  have hint' : ¬ (2 ^ 31 ≤ bs.bitOffset + sizeInBits ∨ bs.maxSizeInDword ≤ t.full.length) := by
    rw [h.bitOffset]
    omega
  rw [if_neg hzero, if_neg hzero, if_neg hint, if_neg hint']
  by_cases hfits : t.count + sizeInBits < 32
  · rw [if_pos hfits, if_pos (by omega : sizeInBits < 32 - t.count)]
    refine ⟨_, rfl, hfits, ?_, hbounds, update_self .., fun j hj => ?_⟩
    · simp only [h.bitOffset, length, Nat.add_assoc]
    · dsimp only at hj ⊢
      rw [update_of_ne (Nat.ne_of_lt hj), h.full j hj]
  · have hleft : sizeInBits - (32 - t.count) = t.count + sizeInBits - 32 := by omega
    rw [if_neg hfits, if_neg (by omega : ¬ sizeInBits < 32 - t.count), hleft]
    have hlength : bs.bitOffset + sizeInBits =
        32 * (t.full.length + 1) + (t.count + sizeInBits - 32) := by
      rw [h.bitOffset, length]
      omega
    have hlast : t.count + sizeInBits - 32 < 32 := by omega
    -- the words that are full do not change any more, in place or after they are moved
    have hfull : ∀ {buffer : ℕ → BitVec 32} {w : BitVec 32},
        (∀ j < t.full.length, buffer j = bs.buffer j) → buffer t.full.length = vaSwap32 w →
        ∀ (j : ℕ) (hj : j < (t.full ++ [w]).length), buffer j = vaSwap32 (t.full ++ [w])[j] := by
      intro buffer w hbefore hnew j hj
      rw [length_append, length_singleton] at hj
      by_cases hj' : j < t.full.length
      · rw [hbefore j hj', h.full j hj', getElem_append_left hj']
      · obtain rfl : j = t.full.length := by omega
        rw [hnew, getElem_concat_length rfl]
    by_cases hmax : t.full.length + 1 = bs.maxSizeInDword
    · rw [if_pos hmax]
      refine ⟨_, rfl, hlast, ?_, ?_, ?_, hfull (fun j hj => ?_) ?_⟩ <;> dsimp only
      · rw [hlength, length, length_append, length_singleton]
      · rw [length_append, length_singleton, bitstreamAllocateStepping]
        omega
      · rw [length_append, length_singleton, update_self]
      · rw [update_of_ne (by omega), grow, if_pos (by omega),
          update_of_ne (Nat.ne_of_lt hj)]
      · rw [update_of_ne (by omega), grow, if_pos (by omega), update_self]
    · rw [if_neg hmax]
      refine ⟨_, rfl, hlast, ?_, ?_, ?_, hfull (fun j hj => ?_) ?_⟩ <;> dsimp only
      · rw [hlength, length, length_append, length_singleton]
      · rw [length_append, length_singleton]
        omega
      · rw [length_append, length_singleton, update_self]
      · rw [update_of_ne (by omega), update_of_ne (Nat.ne_of_lt hj)]
      · rw [update_of_ne (by omega), update_self]

/-- A new stream holds nothing. -/
theorem held_start : (⟨[], 0, 0⟩ : Packed).Held bitstreamStart :=
  ⟨by decide, rfl, by decide, rfl, fun j hj => nomatch hj⟩

/-- The bytes of what has been written. -/
theorem Held.headerBits_end (h : t.Held bs) :
    headerBits (bitstreamEnd bs) = t.written ++ List.replicate ((8 - t.length % 8) % 8) false := by
  have hcount := h.count_lt
  rw [headerBits, bitstreamEnd]
  simp only [h.pos, h.mod, h.word]
  by_cases hzero : t.count = 0
  · have hlength : t.length = 32 * t.full.length := by rw [length, hzero, Nat.add_zero]
    rw [if_neg (not_not.mpr hzero), h.bitOffset, hlength, written, hzero, bits_zero, append_nil,
      show (32 * t.full.length + 7) / 8 = 4 * t.full.length by omega,
      show (8 - 32 * t.full.length % 8) % 8 = 0 by omega, replicate_zero, append_nil,
      memoryBits_words h.full]
  · rw [if_pos hzero, h.bitOffset]
    set buffer := Function.update bs.buffer t.full.length
      (vaSwap32 (shiftWord t.word (32 - t.count))) with hbuffer
    have hfull : memoryBits buffer (4 * t.full.length) =
        t.full.flatMap fun w => bits 32 w.toNat := by
      refine memoryBits_words fun j hj => ?_
      rw [hbuffer, update_of_ne (Nat.ne_of_lt hj), h.full j hj]
    have hlast : memoryBits buffer (4 * (t.full.length + 1)) =
        t.written ++ List.replicate (32 - t.count) false := by
      rw [memoryBits_word (update_self ..), hfull, written,
        bits_shift_zero (Nat.pos_of_ne_zero hzero) hcount, append_assoc]
    have hlength : t.written.length = t.length := by
      rw [written, length_append, length_bits, ← hfull, length_memoryBits, length]
      omega
    have hmod : t.length % 8 = t.count % 8 := by
      rw [length]
      omega
    have hbytes : 8 * ((t.length + 7) / 8) = t.length + (8 - t.length % 8) % 8 := by omega
    have hle : (t.length + 7) / 8 ≤ 4 * (t.full.length + 1) := by
      rw [length]
      omega
    rw [memoryBits_of_le hle, hlast, hbytes, ← hlength, take_length_add_append,
      take_replicate, Nat.min_eq_left (by omega)]

end Packed

end HardwareIntel.VideoEncoder
