import Mathlib.Algebra.Group.Nat.Defs
import Mathlib.Data.List.Basic

/-!
# Memory

A memory gives a value for every position. `overwrite` puts a list into it, and `slice` takes one
out; the lemmas say what is found after a write, and that nothing is changed elsewhere. In a memory
of bytes there are words of 32 bits, the least significant byte first.
-/

namespace HardwareIntel

universe u

section Memory

variable {α : Type u}

/-- Put a list into a memory, from position `i` on. -/
def overwrite (m : ℕ → α) (i : ℕ) (l : List α) (j : ℕ) : α :=
  if i ≤ j then l[j - i]?.getD (m j) else m j

/-- The `n` values from position `i` on. -/
def slice (m : ℕ → α) (i n : ℕ) : List α := (List.range n).map fun j => m (i + j)

@[simp] theorem length_slice (m : ℕ → α) (i n : ℕ) : (slice m i n).length = n := by
  simp [slice]

theorem slice_add (m : ℕ → α) (i n k : ℕ) :
    slice m i (n + k) = slice m i n ++ slice m (i + n) k := by
  simp [slice, List.range_add, Nat.add_assoc]

theorem overwrite_of_lt (m : ℕ → α) (l : List α) {i j : ℕ} (h : j < i) :
    overwrite m i l j = m j := by
  rw [overwrite, if_neg (by omega)]

theorem overwrite_of_le (m : ℕ → α) (l : List α) {i j : ℕ} (h : i + l.length ≤ j) :
    overwrite m i l j = m j := by
  rw [overwrite, List.getElem?_eq_none (by omega)]
  split <;> rfl

theorem slice_congr {m m' : ℕ → α} {i n : ℕ} (h : ∀ j, i ≤ j → j < i + n → m' j = m j) :
    slice m' i n = slice m i n := by
  refine List.map_congr_left fun j hj => ?_
  have hlt := List.mem_range.mp hj
  exact h (i + j) (by omega) (by omega)

/-- What is before the list stays. -/
theorem slice_overwrite_of_le (m : ℕ → α) (l : List α) {n i : ℕ} (h : n ≤ i) :
    slice (overwrite m i l) 0 n = slice m 0 n :=
  slice_congr fun j _ hj => overwrite_of_lt m l (by omega)

/-- What has been put is there. -/
theorem slice_overwrite_self (m : ℕ → α) (i : ℕ) (l : List α) :
    slice (overwrite m i l) i l.length = l := by
  refine List.ext_getElem (by simp) fun j hj hj' => ?_
  simp [slice, overwrite, hj']

/-- A list that is put behind the first `n` values. -/
theorem slice_overwrite_append (m : ℕ → α) (n : ℕ) (l : List α) :
    slice (overwrite m n l) 0 (n + l.length) = slice m 0 n ++ l := by
  rw [slice_add, slice_overwrite_of_le m l (Nat.le_refl n), Nat.zero_add, slice_overwrite_self]

/-- The values after the first `n` are moved to the front. -/
theorem slice_overwrite_slice (m : ℕ → α) (n k : ℕ) :
    slice m 0 (n + k) = slice m 0 n ++ slice (overwrite m 0 (slice m n k)) 0 k := by
  have hself := slice_overwrite_self m 0 (slice m n k)
  rw [length_slice] at hself
  rw [slice_add, Nat.zero_add, hself]

end Memory

section Words

/-- The word at position `i`. -/
def word (m : ℕ → UInt8) (i : ℕ) : ℕ :=
  (m i).toNat + 2 ^ 8 * (m (i + 1)).toNat + 2 ^ 16 * (m (i + 2)).toNat + 2 ^ 24 * (m (i + 3)).toNat

/-- Put a word at position `i`. -/
def setWord (m : ℕ → UInt8) (i v : ℕ) : ℕ → UInt8 :=
  overwrite m i [UInt8.ofNat v, UInt8.ofNat (v / 2 ^ 8), UInt8.ofNat (v / 2 ^ 16),
    UInt8.ofNat (v / 2 ^ 24)]

theorem word_congr {m m' : ℕ → UInt8} {i : ℕ} (h : ∀ j, i ≤ j → j < i + 4 → m' j = m j) :
    word m' i = word m i := by
  unfold word
  rw [h i (by omega) (by omega), h (i + 1) (by omega) (by omega), h (i + 2) (by omega) (by omega),
    h (i + 3) (by omega) (by omega)]

theorem word_setWord (m : ℕ → UInt8) {i v : ℕ} (h : v < 2 ^ 32) : word (setWord m i v) i = v := by
  have h1 : ∀ k, i ≤ i + k := by omega
  simp only [word, setWord, overwrite, Nat.le_refl, h1, if_true, Nat.sub_self,
    Nat.add_sub_cancel_left, List.getElem?_cons_zero, List.getElem?_cons_succ, Option.getD_some,
    UInt8.toNat_ofNat']
  omega

theorem setWord_of_lt (m : ℕ → UInt8) (v : ℕ) {i j : ℕ} (h : j < i) : setWord m i v j = m j :=
  overwrite_of_lt m _ h

theorem setWord_of_le (m : ℕ → UInt8) (v : ℕ) {i j : ℕ} (h : i + 4 ≤ j) : setWord m i v j = m j :=
  overwrite_of_le m _ (by simpa using h)

end Words

end HardwareIntel
