import Mathlib.Data.Nat.Init
import Mathlib.Tactic.Ring

/-!
# Planes

A plane has rows of one width at a stride. If the width is not above the stride, its rows do not
meet, and a place of it has one value: `Plane.unique`.
-/

namespace HardwareIntel

universe u

variable {α : Type u}

/-- Numbers below a product are the numbers of tiles and of places in them. -/
theorem lt_mul_iff {x n d : ℕ} : x < n * d ↔ ∃ q < n, ∃ r < d, x = q * d + r := by
  constructor
  · intro h
    have hd : 0 < d := Nat.pos_of_ne_zero fun hd => by
      rw [hd, Nat.mul_zero] at h
      exact Nat.not_lt_zero x h
    exact ⟨x / d, (Nat.div_lt_iff_lt_mul hd).mpr h, x % d, Nat.mod_lt x hd,
      (Nat.div_add_mod' x d).symm⟩
  · rintro ⟨q, hq, r, hr, rfl⟩
    calc q * d + r < q * d + d := Nat.add_lt_add_left hr _
      _ = (q + 1) * d := (Nat.succ_mul q d).symm
      _ ≤ n * d := Nat.mul_le_mul_right d hq

/-- A number determines its tile and its place there. -/
theorem tile_inj {d q q' r r' : ℕ} (hr : r < d) (hr' : r' < d) (h : q * d + r = q' * d + r') :
    q = q' ∧ r = r' := by
  have hplace : r = r' := by
    rw [← Nat.mul_add_mod_of_lt hr, h, Nat.mul_add_mod_of_lt hr']
  have hd : 0 < d := (Nat.zero_le r).trans_lt hr
  rw [hplace, Nat.add_right_cancel_iff] at h
  exact ⟨Nat.eq_of_mul_eq_mul_right hd h, hplace⟩

/-- Place `p` of row `i` has the value `value i p`. -/
def Plane (base stride rows width : ℕ) (value : ℕ → ℕ → α) (a : ℕ) (v : α) : Prop :=
  ∃ i < rows, ∃ p < width, a = base + i * stride + p ∧ v = value i p

variable {base stride rows rows' width : ℕ} {value value' : ℕ → ℕ → α} {a : ℕ} {v : α}

namespace Plane

theorem intro {i p : ℕ} (hi : i < rows) (hp : p < width) :
    Plane base stride rows width value (base + i * stride + p) (value i p) :=
  ⟨i, hi, p, hp, rfl, rfl⟩

theorem le (h : Plane base stride rows width value a v) : base ≤ a := by
  obtain ⟨i, -, p, -, rfl, -⟩ := h
  omega

theorem lt (hwidth : width ≤ stride) (h : Plane base stride rows width value a v) :
    a < base + rows * stride := by
  obtain ⟨i, hi, p, hp, rfl, -⟩ := h
  have hlt : i * stride + p < rows * stride :=
    lt_mul_iff.mpr ⟨i, hi, p, hp.trans_le hwidth, rfl⟩
  omega

theorem unique {i p : ℕ} (hwidth : width ≤ stride) (hp : p < width)
    (h : Plane base stride rows width value (base + i * stride + p) v) : v = value i p := by
  obtain ⟨i', -, p', hp', heq, rfl⟩ := h
  rw [Nat.add_assoc, Nat.add_assoc, Nat.add_left_cancel_iff] at heq
  obtain ⟨rfl, rfl⟩ := tile_inj (hp.trans_le hwidth) (hp'.trans_le hwidth) heq
  rfl

/-- The values count only where there are places. -/
theorem congr (h : ∀ i < rows, ∀ p < width, value i p = value' i p) :
    Plane base stride rows width value a v ↔ Plane base stride rows width value' a v := by
  refine exists_congr fun i => and_congr_right fun hi => exists_congr fun p =>
    and_congr_right fun hp => ?_
  rw [h i hi p hp]

/-- A plane is cut between two rows. -/
theorem cut : Plane base stride (rows + rows') width value a v ↔
    Plane base stride rows width value a v ∨
      Plane (base + rows * stride) stride rows' width (fun i => value (rows + i)) a v := by
  constructor
  · rintro ⟨i, hi, p, hp, rfl, rfl⟩
    obtain hlow | hhigh := Nat.lt_or_ge i rows
    · exact .inl ⟨i, hlow, p, hp, rfl, rfl⟩
    · obtain ⟨i, rfl⟩ := Nat.exists_eq_add_of_le hhigh
      exact .inr ⟨i, by omega, p, hp, by ring, rfl⟩
  · rintro (⟨i, hi, p, hp, rfl, rfl⟩ | ⟨i, hi, p, hp, rfl, rfl⟩)
    · exact ⟨i, by omega, p, hp, rfl, rfl⟩
    · exact ⟨rows + i, by omega, p, hp, by ring, rfl⟩

end Plane

end HardwareIntel
