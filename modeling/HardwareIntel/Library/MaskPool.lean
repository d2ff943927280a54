import Mathlib.Algebra.BigOperators.Group.List.Basic
import Mathlib.Data.Nat.Bitwise

/-!
# Pools of numbered resources in bit masks

A resource with number `i` is in a mask when bit `i` of the mask is set. A `MaskPool` keeps what
nobody has in two masks: `free`, and `reclaimed` for what was given back and is still to be merged
into `free`. `MaskPool.holds p i` counts in how many of the two masks `i` is; taking a resource
lowers the count of its number by one, giving it back raises it, and merging the masks changes no
count as long as no resource is in both. So a law of conservation, `holds` plus the number of owners,
is kept by every operation.
-/

namespace HardwareIntel

open List

variable {w : ℕ}

/-! ## Masks -/

def clearBit (mask : BitVec w) (i : ℕ) : BitVec w := mask &&& ~~~(1#w <<< i)

def setBit (mask : BitVec w) (i : ℕ) : BitVec w := mask ||| (1#w <<< i)

/-- The lowest number in the mask, and the mask without it. -/
def takeLowest (mask : BitVec w) : Option (ℕ × BitVec w) :=
  ((List.range w).find? fun i => mask.getLsbD i).map fun i => (i, clearBit mask i)

theorem getLsbD_one_shiftLeft (i j : ℕ) (hj : j < w) : (1#w <<< i).getLsbD j = decide (j = i) := by
  rw [BitVec.getLsbD_shiftLeft, BitVec.getLsbD_one, Bool.eq_iff_iff]
  simp only [Bool.and_eq_true, decide_eq_true_eq, Bool.not_eq_true', decide_eq_false_iff_not]
  omega

theorem getLsbD_clearBit (mask : BitVec w) (i j : ℕ) :
    (clearBit mask i).getLsbD j = (mask.getLsbD j && decide (j ≠ i)) := by
  rw [clearBit, BitVec.getLsbD_and, BitVec.getLsbD_not]
  by_cases hj : j < w
  · rw [getLsbD_one_shiftLeft i j hj]
    simp [hj]
  · rw [BitVec.getLsbD_of_ge mask j (Nat.le_of_not_lt hj)]
    rfl

theorem getLsbD_setBit (mask : BitVec w) (i : ℕ) {j : ℕ} (hj : j < w) :
    (setBit mask i).getLsbD j = (mask.getLsbD j || decide (j = i)) := by
  rw [setBit, BitVec.getLsbD_or, getLsbD_one_shiftLeft i j hj]

/-- The mask of the numbers below `n`. -/
theorem getLsbD_shiftLeft_sub_one {n : ℕ} (hn : n < w) (j : ℕ) :
    ((1#w <<< n) - 1#w).getLsbD j = decide (j < n) := by
  have hpow : 2 ^ n < 2 ^ w := Nat.pow_lt_pow_right (by decide) hn
  have hone : 1 % 2 ^ w = 1 := Nat.mod_eq_of_lt (Nat.one_lt_two_pow (by omega))
  have hvalue : ((1#w <<< n) - 1#w).toNat = 2 ^ n - 1 := by
    have hpos : 0 < 2 ^ n := Nat.two_pow_pos n
    have hle : 1#w ≤ 1#w <<< n := by
      rw [BitVec.le_def, BitVec.toNat_shiftLeft, BitVec.toNat_ofNat, hone, Nat.one_shiftLeft,
        Nat.mod_eq_of_lt hpow]
      exact hpos
    rw [BitVec.toNat_sub_of_le hle, BitVec.toNat_shiftLeft, BitVec.toNat_ofNat, hone,
      Nat.one_shiftLeft, Nat.mod_eq_of_lt hpow]
  rw [BitVec.getLsbD, hvalue, Nat.testBit_two_pow_sub_one]

/-- A choice of a number in a mask, which is cleared. -/
def Picks (pick : BitVec w → Option (ℕ × BitVec w)) : Prop :=
  ∀ mask i rest, pick mask = some (i, rest) → mask.getLsbD i = true ∧ rest = clearBit mask i

theorem picks_takeLowest : Picks (takeLowest (w := w)) := by
  intro mask i rest h
  obtain ⟨j, hj, heq⟩ := Option.map_eq_some_iff.mp h
  cases heq
  exact ⟨List.find?_some hj, rfl⟩

/-! ## Owners in a list of places -/

section Owners

variable {α : Type*} {l : List α} {i : ℕ} {a b : α}

/-- The total of a list of numbers when one place changes. -/
theorem sum_map_set (f : α → ℕ) (h : l[i]? = some a) :
    ((l.set i b).map f).sum + f a = (l.map f).sum + f b := by
  induction l generalizing i with
  | nil => simp at h
  | cons x l ih =>
    cases i with
    | zero =>
      simp only [List.getElem?_cons_zero, Option.some.injEq] at h
      simp only [set_cons_zero, map_cons, sum_cons, h]
      omega
    | succ i =>
      have hrest := ih (by simpa using h)
      simp only [set_cons_succ, map_cons, sum_cons]
      omega

/-- The number of places that pass a test when one place changes. -/
theorem countP_set_add (p : α → Bool) (h : l[i]? = some a) :
    (l.set i b).countP p + (p a).toNat = l.countP p + (p b).toNat := by
  have hsum := sum_map_set (b := b) (fun x => (p x).toNat) h
  have hcount : ∀ l : List α, (l.map fun x => (p x).toNat).sum = l.countP p := by
    intro l
    induction l with
    | nil => rfl
    | cons x l ih => cases hx : p x <;> simp [hx, ih, Nat.add_comm]
  rwa [hcount, hcount] at hsum

/-- The number of numbers below `n` that pass a test, when the test changes for one number. -/
theorem countP_range_add {f g : ℕ → Bool} {n : ℕ} (h : ∀ j ≠ i, f j = g j) (hi : i < n) :
    (List.range n).countP f + (g i).toNat = (List.range n).countP g + (f i).toNat := by
  have hcount : ∀ n, (List.range n).countP f + (if i < n then (g i).toNat else 0) =
      (List.range n).countP g + (if i < n then (f i).toNat else 0) := by
    intro n
    induction n with
    | zero => rfl
    | succ n ih =>
      rw [range_succ, countP_append, countP_append, countP_singleton, countP_singleton]
      rcases Nat.lt_trichotomy i n with hlt | rfl | hgt
      · rw [if_pos hlt, if_pos hlt] at ih
        rw [if_pos (Nat.lt_succ_of_lt hlt), if_pos (Nat.lt_succ_of_lt hlt), h n (Nat.ne_of_gt hlt)]
        omega
      · rw [if_neg (Nat.lt_irrefl i), if_neg (Nat.lt_irrefl i)] at ih
        cases f i <;> cases g i <;> simp <;> omega
      · rw [if_neg (Nat.lt_asymm hgt), if_neg (Nat.lt_asymm hgt)] at ih
        rw [if_neg (Nat.not_lt.mpr hgt), if_neg (Nat.not_lt.mpr hgt), h n (Nat.ne_of_lt hgt)]
        omega
  have htotal := hcount n
  rwa [if_pos hi, if_pos hi] at htotal

end Owners

/-! ## Pools -/

/-- What nobody has, in two masks. -/
structure MaskPool (w : ℕ) where
  free : BitVec w
  reclaimed : BitVec w

namespace MaskPool

variable {p q : MaskPool w} {i : ℕ}

/-- The pool of the numbers below `n`. -/
def full (w n : ℕ) : MaskPool w := ⟨(1#w <<< n) - 1#w, 0#w⟩

/-- The number of masks that `i` is in. -/
def holds (p : MaskPool w) (i : ℕ) : ℕ := (p.free.getLsbD i).toNat + (p.reclaimed.getLsbD i).toNat

/-- Take what has been reclaimed first. -/
def take (p : MaskPool w) (pick : BitVec w → Option (ℕ × BitVec w)) : Option (ℕ × MaskPool w) :=
  match pick p.reclaimed with
  | some (i, rest) => some (i, { p with reclaimed := rest })
  | none => (pick p.free).map fun (i, rest) => (i, { p with free := rest })

/-- Merge what has been reclaimed into the free mask. -/
def merge (p : MaskPool w) : MaskPool w := ⟨p.free ||| p.reclaimed, 0#w⟩

theorem holds_full {n : ℕ} (hn : n < w) (i : ℕ) : (full w n).holds i = if i < n then 1 else 0 := by
  rw [holds, full, getLsbD_shiftLeft_sub_one hn, BitVec.getLsbD_zero]
  by_cases h : i < n <;> simp [h]

theorem holds_eq_zero_of_le (h : w ≤ i) : p.holds i = 0 := by
  rw [holds, BitVec.getLsbD_of_ge _ _ h, BitVec.getLsbD_of_ge _ _ h]
  rfl

theorem toNat_getLsbD_clearBit {mask : BitVec w} (h : mask.getLsbD i = true) (j : ℕ) :
    ((clearBit mask i).getLsbD j).toNat + (if j = i then 1 else 0) = (mask.getLsbD j).toNat := by
  rw [getLsbD_clearBit]
  by_cases hj : j = i
  · subst hj
    simp [h]
  · simp [hj]

theorem toNat_getLsbD_setBit {mask : BitVec w} (hi : i < w) (h : mask.getLsbD i = false) (j : ℕ) :
    ((setBit mask i).getLsbD j).toNat = (mask.getLsbD j).toNat + (if j = i then 1 else 0) := by
  by_cases hj : j = i
  · subst hj
    rw [getLsbD_setBit mask j hi, h]
    simp
  · by_cases hw : j < w
    · rw [getLsbD_setBit mask i hw]
      simp [hj]
    · rw [BitVec.getLsbD_of_ge _ _ (Nat.le_of_not_lt hw),
        BitVec.getLsbD_of_ge _ _ (Nat.le_of_not_lt hw), if_neg hj, Nat.add_zero]

/-- What is taken leaves the pool. -/
theorem holds_take {pick : BitVec w → Option (ℕ × BitVec w)} (hpick : Picks pick)
    (h : p.take pick = some (i, q)) (j : ℕ) :
    q.holds j + (if j = i then 1 else 0) = p.holds j := by
  unfold take at h
  split at h
  · rename_i k rest hrest
    cases h
    obtain ⟨hbit, hclear⟩ := hpick _ _ _ hrest
    have hcount := toNat_getLsbD_clearBit hbit j
    simp only [holds, hclear]
    omega
  · obtain ⟨⟨k, rest⟩, hrest, heq⟩ := Option.map_eq_some_iff.mp h
    cases heq
    obtain ⟨hbit, hclear⟩ := hpick _ _ _ hrest
    have hcount := toNat_getLsbD_clearBit hbit j
    simp only [holds, hclear]
    omega

/-- What is given back is in the pool again. -/
theorem holds_setBit_reclaimed (hi : i < w) (h : p.holds i = 0) (j : ℕ) :
    ({ p with reclaimed := setBit p.reclaimed i } : MaskPool w).holds j =
      p.holds j + (if j = i then 1 else 0) := by
  have hbit : p.reclaimed.getLsbD i = false := by
    rw [← Bool.toNat_eq_zero]
    unfold holds at h
    omega
  have hcount := toNat_getLsbD_setBit hi hbit j
  simp only [holds]
  omega

/-- The same for the free mask. -/
theorem holds_setBit_free (hi : i < w) (h : p.holds i = 0) (j : ℕ) :
    ({ p with free := setBit p.free i } : MaskPool w).holds j =
      p.holds j + (if j = i then 1 else 0) := by
  have hbit : p.free.getLsbD i = false := by
    rw [← Bool.toNat_eq_zero]
    unfold holds at h
    omega
  have hcount := toNat_getLsbD_setBit hi hbit j
  simp only [holds]
  omega

/-- Merging loses nothing when no number is in both masks. -/
theorem holds_merge (h : p.holds i ≤ 1) : p.merge.holds i = p.holds i := by
  unfold holds at h ⊢
  rw [merge, BitVec.getLsbD_or, BitVec.getLsbD_zero]
  cases hfree : p.free.getLsbD i <;> cases hreclaimed : p.reclaimed.getLsbD i <;>
    simp_all

end MaskPool

end HardwareIntel
