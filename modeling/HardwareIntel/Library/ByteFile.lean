import Mathlib.Data.List.Infix
import Mathlib.Data.List.TakeWhile
import HardwareIntel.Library.Wire

/-!
# Reading the bytes of a file

A file is the list of its bytes. `readAt` is what a read gives from a position on; it is short where
the file ends. A read overwrites the front of a buffer and leaves the rest of it as it was: `fill`.
-/

namespace HardwareIntel

open List

/-- The bytes that a read of `size` bytes at a position gives. -/
def readAt (file : List UInt8) (pos size : ℕ) : List UInt8 := (file.drop pos).take size

/-- A buffer after bytes were read into it. -/
def fill (got buf : List UInt8) : List UInt8 := got ++ buf.drop got.length

/-- The bytes of a string in C. -/
def cString (l : List UInt8) : List UInt8 := l.takeWhile (· ≠ 0)

/-- The word of two bytes at a position, the low byte first. -/
def halfAt (l : List UInt8) (pos : ℕ) : ℕ := ofLittleEndian (readAt l pos 2)

/-- The sum of bytes in 16 bits. -/
def byteSum (l : List UInt8) : ℕ := (l.map UInt8.toNat).sum % 2 ^ 16

theorem length_readAt (file : List UInt8) (pos size : ℕ) :
    (readAt file pos size).length = min size (file.length - pos) := by
  simp [readAt]

theorem length_readAt_of_le {file : List UInt8} {pos size : ℕ} (h : pos + size ≤ file.length) :
    (readAt file pos size).length = size := by
  rw [length_readAt]
  omega

theorem readAt_of_le {file : List UInt8} {pos : ℕ} (h : file.length ≤ pos) (size : ℕ) :
    readAt file pos size = [] := by
  rw [readAt, drop_eq_nil_of_le h, take_nil]

/-- A part of what was read is a part of the file. -/
theorem readAt_readAt {pos size start n : ℕ} (h : pos + size ≤ n) (file : List UInt8) :
    readAt (readAt file start n) pos size = readAt file (start + pos) size := by
  rw [readAt, readAt, readAt, drop_take, take_take, drop_drop, Nat.min_eq_left (by omega)]

theorem take_readAt {size n : ℕ} (h : size ≤ n) (file : List UInt8) (pos : ℕ) :
    (readAt file pos n).take size = readAt file pos size := by
  rw [readAt, readAt, take_take, Nat.min_eq_left h]

theorem halfAt_readAt {pos n : ℕ} (h : pos + 2 ≤ n) (file : List UInt8) :
    halfAt (readAt file 0 n) pos = halfAt file pos := by
  rw [halfAt, readAt_readAt h, Nat.zero_add, halfAt]

/-- A part of the front. -/
theorem readAt_append_left {a : List UInt8} {pos size : ℕ} (h : pos + size ≤ a.length)
    (b : List UInt8) : readAt (a ++ b) pos size = readAt a pos size := by
  rw [readAt, readAt, drop_append_of_le_length (by omega), take_append_of_le_length]
  rw [length_drop]
  omega

/-- A part between two others. -/
theorem readAt_middle {a b : List UInt8} {pos size : ℕ} (ha : a.length = pos)
    (hb : b.length = size) (c : List UInt8) : readAt (a ++ (b ++ c)) pos size = b := by
  rw [readAt, ← ha, drop_left, ← hb, take_left]

/-- A word that was written is read back. -/
theorem halfAt_middle {a : List UInt8} {pos n : ℕ} (ha : a.length = pos) (hn : n < 2 ^ 16)
    (c : List UInt8) : halfAt (a ++ (littleEndian 2 n ++ c)) pos = n := by
  rw [halfAt, readAt_middle ha (length_littleEndian 2 n), ofLittleEndian_littleEndian]
  exact Nat.mod_eq_of_lt hn

theorem byteSum_lt (l : List UInt8) : byteSum l < 2 ^ 16 := Nat.mod_lt _ (by decide)

theorem halfAt_lt (l : List UInt8) (pos : ℕ) : halfAt l pos < 2 ^ 16 := by
  have hlength : (readAt l pos 2).length ≤ 2 := by
    rw [length_readAt]
    exact Nat.min_le_left _ _
  calc halfAt l pos < 256 ^ (readAt l pos 2).length := ofLittleEndian_lt _
    _ ≤ 256 ^ 2 := Nat.pow_le_pow_right (by decide) hlength

/-- A string that was written is read back. -/
theorem cString_append {l : List UInt8} (h : 0 ∉ l) (rest : List UInt8) :
    cString (l ++ 0 :: rest) = l := by
  rw [cString, takeWhile_append_of_pos]
  · simp
  · intro b hb
    simpa using fun h0 : b = 0 => h (h0 ▸ hb)

theorem zero_notMem_cString (l : List UInt8) : 0 ∉ cString l := by
  intro h
  simpa using mem_takeWhile_imp h

@[simp] theorem fill_nil (buf : List UInt8) : fill [] buf = buf := rfl

/-- A read of the whole buffer leaves nothing of it. -/
theorem fill_of_length {got buf : List UInt8} (h : buf.length ≤ got.length) :
    fill got buf = got := by
  rw [fill, drop_eq_nil_of_le h, append_nil]

theorem length_fill {got buf : List UInt8} (h : got.length ≤ buf.length) :
    (fill got buf).length = buf.length := by
  rw [fill, length_append, length_drop]
  omega

end HardwareIntel
