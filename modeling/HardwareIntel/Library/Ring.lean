import Mathlib.Data.List.Nodup
import Mathlib.Data.List.Range
import Mathlib.Data.List.Perm.Subperm
import Mathlib.Data.Nat.ModEq

/-!
# Stretches of a ring

A ring buffer with `n` cells is walked by indices that are advanced modulo `n`. The cells that one
index has passed and another has not are `ring n a k`: the `k` cells from `a` on. When each cell
carries a status, `Occupies n P l` says that the cells whose status is `P` are those of the list
`l`, in the order in which they will be reached. Advancing the index at the back appends to the
list, advancing the one in front takes from its head; the rules below say so for any change of the
predicate that adds or removes the right cells.
-/

namespace HardwareIntel

open List

variable {n a k l : ℕ}

/-- The `k` cells of a ring of `n` from the cell `a` on. -/
def ring (n a k : ℕ) : List ℕ := (List.range k).map fun i => (a + i) % n

@[simp] theorem ring_zero : ring n a 0 = [] := rfl

@[simp] theorem length_ring : (ring n a k).length = k := by simp [ring]

theorem ring_one (ha : a < n) : ring n a 1 = [a] := by
  simp [ring, range_succ, Nat.mod_eq_of_lt ha]

theorem lt_of_mem_ring {i : ℕ} (hn : 0 < n) (h : i ∈ ring n a k) : i < n := by
  obtain ⟨j, -, rfl⟩ := mem_map.mp h
  exact Nat.mod_lt _ hn

/-- A stretch goes on where its first part ends. -/
theorem ring_append : ring n a (k + l) = ring n a k ++ ring n ((a + k) % n) l := by
  simp only [ring, range_add, map_append, map_map, Function.comp_def]
  congr 1
  exact map_congr_left fun i _ => by rw [Nat.mod_add_mod, Nat.add_assoc]

theorem ring_succ (ha : a < n) : ring n a (k + 1) = a :: ring n ((a + 1) % n) k := by
  rw [Nat.add_comm, ring_append, ring_one ha, singleton_append]

theorem ring_concat (hn : 0 < n) : ring n a (k + 1) = ring n a k ++ [(a + k) % n] := by
  rw [ring_append, ring_one (Nat.mod_lt _ hn)]

/-- A stretch that is not longer than the ring passes no cell twice. -/
theorem ring_nodup (hk : k ≤ n) : (ring n a k).Nodup := by
  refine List.Nodup.map_on (fun i hi j hj hij => ?_) nodup_range
  have hmod : i % n = j % n := Nat.ModEq.add_left_cancel' a hij
  rwa [Nat.mod_eq_of_lt ((mem_range.mp hi).trans_le hk),
    Nat.mod_eq_of_lt ((mem_range.mp hj).trans_le hk)] at hmod

/-- A stretch that is one cell longer than the ring comes back to a cell only at its end. -/
theorem nodup_dropLast_ring (hk : k ≤ n + 1) : (ring n a k).dropLast.Nodup := by
  cases k with
  | zero => exact nodup_nil
  | succ k =>
    rw [ring, range_succ, map_append, map_singleton, dropLast_concat]
    exact ring_nodup (Nat.le_of_succ_le_succ hk)

/-! ## The cells with a status -/

/-- The cells below `n` with `P` are those of the list, each listed once. -/
structure Occupies (n : ℕ) (P : ℕ → Prop) (cells : List ℕ) : Prop where
  nodup : cells.Nodup
  lt : ∀ i ∈ cells, i < n
  iff : ∀ i < n, P i ↔ i ∈ cells

namespace Occupies

variable {P Q : ℕ → Prop} {cells front rest : List ℕ}

theorem nil (h : ∀ i < n, ¬P i) : Occupies n P [] :=
  ⟨nodup_nil, by simp, fun i hi => by simp [h i hi]⟩

section

variable (h : Occupies n P cells)
include h

theorem congr (hPQ : ∀ i < n, Q i ↔ P i) : Occupies n Q cells :=
  ⟨h.nodup, h.lt, fun i hi => (hPQ i hi).trans (h.iff i hi)⟩

theorem of_mem {i : ℕ} (hi : i ∈ cells) : P i := (h.iff i (h.lt i hi)).mpr hi

theorem mem {i : ℕ} (hi : i < n) (hP : P i) : i ∈ cells := (h.iff i hi).mp hP

/-- There are no more cells than the ring has. -/
theorem length_le : cells.length ≤ n := by
  have hsub : cells ⊆ List.range n := fun i hi => mem_range.mpr (h.lt i hi)
  simpa using (subperm_of_subset h.nodup hsub).length_le

end

/-- Cells that join the others are listed last. -/
theorem append (h : Occupies n P front) (hnodup : rest.Nodup) (hlt : ∀ i ∈ rest, i < n)
    (hnew : ∀ i ∈ rest, ¬P i) (hQ : ∀ i < n, Q i ↔ P i ∨ i ∈ rest) :
    Occupies n Q (front ++ rest) where
  nodup := nodup_append'.mpr
    ⟨h.nodup, hnodup, fun i hi hi' => hnew i hi' (h.of_mem hi)⟩
  lt i hi := (mem_append.mp hi).elim (h.lt i) (hlt i)
  iff i hi := by rw [hQ i hi, h.iff i hi, mem_append]

/-- Cells that leave are those at the head of the list. -/
theorem drop (h : Occupies n P (front ++ rest)) (hQ : ∀ i < n, Q i ↔ P i ∧ i ∉ front) :
    Occupies n Q rest where
  nodup := (nodup_append'.mp h.nodup).2.1
  lt i hi := h.lt i (mem_append_right _ hi)
  iff i hi := by
    have hdisjoint := (nodup_append'.mp h.nodup).2.2
    rw [hQ i hi, h.iff i hi, mem_append]
    exact ⟨fun hmem => hmem.1.resolve_left hmem.2,
      fun hmem => ⟨.inr hmem, fun hfront => hdisjoint hfront hmem⟩⟩

end Occupies

end HardwareIntel
