import Mathlib.Data.List.Pairwise
import Mathlib.Algebra.Order.Group.Int

/-!
# Moves of ranges in memory

A move copies a range of a memory to another place. `memmove` does it for all ranges; `memcpy` is defined
only for ranges that do not overlap. If no move writes what a later one reads or has written, everything
arrives as it was: `moves_at`.
-/

namespace HardwareIntel

open List

universe u

variable {α : Type u}

structure Move where
  dst : ℤ
  src : ℤ
  size : ℕ

/-- No address is in both ranges. -/
def Apart (a : ℤ) (n : ℕ) (b : ℤ) (k : ℕ) : Prop := a + n ≤ b ∨ b + k ≤ a

instance (a : ℤ) (n : ℕ) (b : ℤ) (k : ℕ) : Decidable (Apart a n b k) := instDecidableOr

namespace Move

/-- `memmove`: the range is read before it is written. -/
def memmove (m : ℤ → α) (mv : Move) : ℤ → α :=
  fun a => if mv.dst ≤ a ∧ a < mv.dst + mv.size then m (mv.src + (a - mv.dst)) else m a

/-- The ranges do not overlap. -/
def Disjoint (mv : Move) : Prop := mv.size = 0 ∨ Apart mv.dst mv.size mv.src mv.size

instance (mv : Move) : Decidable mv.Disjoint := instDecidableOr

/-- `memcpy`, which is not defined for ranges that overlap. -/
def memcpy (m : ℤ → α) (mv : Move) : Option (ℤ → α) := if mv.Disjoint then some (mv.memmove m) else none

/-- The second move finds what it reads, and writes somewhere else. -/
structure Keeps (first second : Move) : Prop where
  source : Apart first.dst first.size second.src second.size
  target : Apart first.dst first.size second.dst second.size

theorem memmove_of_apart (m : ℤ → α) (mv : Move) {a : ℤ} {n : ℕ} (h : Apart mv.dst mv.size a n)
    {c : ℕ} (hc : c < n) : mv.memmove m (a + c) = m (a + c) := by
  have hout : ¬ (mv.dst ≤ a + c ∧ a + c < mv.dst + mv.size) := by
    rw [Apart] at h
    omega
  rw [memmove, if_neg hout]

theorem memmove_at (m : ℤ → α) (mv : Move) {c : ℕ} (hc : c < mv.size) :
    mv.memmove m (mv.dst + c) = m (mv.src + c) := by
  have hin : mv.dst ≤ mv.dst + c ∧ mv.dst + c < mv.dst + mv.size := by omega
  rw [memmove, if_pos hin, add_sub_cancel_left]

end Move

/-- Moves one after the other. -/
def moves (m : ℤ → α) (ms : List Move) : ℤ → α := ms.foldl Move.memmove m

/-- What no move writes stays. -/
theorem moves_of_apart {ms : List Move} {a : ℤ} {n : ℕ}
    (h : ∀ mv ∈ ms, Apart mv.dst mv.size a n) {c : ℕ} (hc : c < n) :
    ∀ m : ℤ → α, moves m ms (a + c) = m (a + c) := by
  induction ms with
  | nil => exact fun _ => rfl
  | cons mv ms ih =>
    intro m
    obtain ⟨hmv, hms⟩ := forall_mem_cons.mp h
    exact (ih hms (mv.memmove m)).trans (mv.memmove_of_apart m hmv hc)

/-- What a move reads arrives. -/
theorem moves_at {ms : List Move} (h : ms.Pairwise Move.Keeps) : ∀ (m : ℤ → α) {mv : Move},
    mv ∈ ms → ∀ {c : ℕ}, c < mv.size → moves m ms (mv.dst + c) = m (mv.src + c) := by
  induction ms with
  | nil => exact fun _ _ hmv => nomatch hmv
  | cons first ms ih =>
    intro m mv hmv c hc
    obtain ⟨hfirst, hms⟩ := pairwise_cons.mp h
    obtain rfl | hmv := mem_cons.mp hmv
    · have hkept : ∀ other ∈ ms, Apart other.dst other.size mv.dst mv.size :=
        fun other hother => (hfirst other hother).target.symm
      exact (moves_of_apart hkept hc (mv.memmove m)).trans (mv.memmove_at m hc)
    · exact (ih hms (first.memmove m) hmv hc).trans
        (first.memmove_of_apart m (hfirst mv hmv).source hc)

/-- Moves by `memcpy`. -/
def copies (m : ℤ → α) (ms : List Move) : Option (ℤ → α) := ms.foldlM Move.memcpy m

/-- Copies are moves if no ranges overlap, and are not defined otherwise. -/
theorem copies_eq (ms : List Move) : ∀ m : ℤ → α,
    copies m ms = if ∀ mv ∈ ms, mv.Disjoint then some (moves m ms) else none := by
  induction ms with
  | nil => exact fun _ => (if_pos (forall_mem_nil _)).symm
  | cons mv ms ih =>
    intro m
    have hcons : copies m (mv :: ms) = (mv.memcpy m).bind fun m => copies m ms := rfl
    rw [hcons, Move.memcpy]
    by_cases hmv : mv.Disjoint
    · rw [if_pos hmv, Option.bind_some, ih]
      simp only [forall_mem_cons, hmv, true_and]
      rfl
    · rw [if_neg hmv, if_neg fun h => hmv (forall_mem_cons.mp h).1]
      rfl

end HardwareIntel
