import Mathlib.Data.BitVec
import Mathlib.Data.List.Basic
import Mathlib.Data.List.GetD

/-!
# Address spaces of `2 ^ w` cells

Addresses wrap around. A range that starts below a limit lies below it exactly if its end does:
`within_iff`. Chunks that are written one after the other, without wrapping, are read back as one:
`contents_placed`.
-/

namespace HardwareIntel

open List

universe u

variable {α : Type u} {w : ℕ}

/-- The addresses of the range of `n` cells from `p` on. -/
def span (p : BitVec w) (n : ℕ) : List (BitVec w) := (List.range n).map fun i => p + BitVec.ofNat w i

/-- What is in a range. -/
def contents (mem : BitVec w → α) (p : BitVec w) (n : ℕ) : List α := (span p n).map mem

/-- All of the range is below the limit. -/
def Within (p : BitVec w) (n limit : ℕ) : Prop := ∀ a ∈ span p n, a.toNat < limit

theorem toNat_add_ofNat {p : BitVec w} {i : ℕ} (h : p.toNat + i < 2 ^ w) :
    (p + BitVec.ofNat w i).toNat = p.toNat + i := by
  rw [BitVec.toNat_add, BitVec.toNat_ofNat, Nat.add_mod_mod, Nat.mod_eq_of_lt h]

theorem mem_span {p a : BitVec w} {n : ℕ} : a ∈ span p n ↔ ∃ i < n, p + BitVec.ofNat w i = a := by
  simp [span]

theorem length_contents (mem : BitVec w → α) (p : BitVec w) (n : ℕ) : (contents mem p n).length = n := by
  rw [contents, span, length_map, length_map, length_range]

theorem within_iff {p : BitVec w} {n limit : ℕ} (hp : p.toNat ≤ limit) (hlimit : limit < 2 ^ w) :
    Within p n limit ↔ p.toNat + n ≤ limit := by
  constructor
  · intro h
    by_contra hover
    have hmem : p + BitVec.ofNat w (limit - p.toNat) ∈ span p n := mem_span.mpr ⟨_, by omega, rfl⟩
    have hlast := h _ hmem
    rw [toNat_add_ofNat (by omega)] at hlast
    omega
  · intro h a ha
    obtain ⟨i, hi, rfl⟩ := mem_span.mp ha
    rw [toNat_add_ofNat (by omega)]
    omega

theorem contents_add (mem : BitVec w → α) (p : BitVec w) (n k : ℕ) :
    contents mem p (n + k) = contents mem p n ++ contents mem (p + BitVec.ofNat w n) k := by
  simp only [contents, span, range_add, map_append, map_map, Function.comp_def,
    BitVec.ofNat_add, BitVec.add_assoc]

/-- A write of cells from an address on. -/
structure Store (α : Type u) (w : ℕ) where
  pos : BitVec w
  cells : List α

namespace Store

def run (mem : BitVec w → α) (s : Store α w) : BitVec w → α :=
  fun a => s.cells.getD (a - s.pos).toNat (mem a)

def Within (s : Store α w) (limit : ℕ) : Prop := HardwareIntel.Within s.pos s.cells.length limit

end Store

/-- The memory after writes. -/
def stored (mem : BitVec w → α) (ss : List (Store α w)) : BitVec w → α := ss.foldl Store.run mem

/-- Chunks one behind the other. -/
def placed : BitVec w → List (List α) → List (Store α w)
  | _, [] => []
  | p, chunk :: chunks => ⟨p, chunk⟩ :: placed (p + BitVec.ofNat w chunk.length) chunks

/-- Chunks lie below a limit exactly if their end does. -/
theorem within_placed {limit : ℕ} (hlimit : limit < 2 ^ w) (chunks : List (List α)) :
    ∀ p : BitVec w, p.toNat ≤ limit →
      ((∀ s ∈ placed p chunks, s.Within limit) ↔ p.toNat + chunks.flatten.length ≤ limit) := by
  induction chunks with
  | nil => exact fun p hp => iff_of_true (forall_mem_nil _) hp
  | cons chunk chunks ih =>
    intro p hp
    rw [placed, forall_mem_cons, Store.Within, within_iff hp hlimit, flatten_cons, length_append]
    dsimp only
    constructor
    · rintro ⟨hchunk, hchunks⟩
      have hnext := toNat_add_ofNat (hchunk.trans_lt hlimit)
      have hrest := (ih _ (hnext.trans_le hchunk)).mp hchunks
      omega
    · intro hall
      have hchunk : p.toNat + chunk.length ≤ limit := by omega
      have hnext := toNat_add_ofNat (hchunk.trans_lt hlimit)
      exact ⟨hchunk, (ih _ (hnext.trans_le hchunk)).mpr (by omega)⟩

/-- Cells below the chunks stay. -/
theorem stored_placed_of_lt (chunks : List (List α)) : ∀ (mem : BitVec w → α) {p a : BitVec w},
    a < p → p.toNat + chunks.flatten.length < 2 ^ w → stored mem (placed p chunks) a = mem a := by
  induction chunks with
  | nil => exact fun _ _ _ _ _ => rfl
  | cons chunk chunks ih =>
    intro mem p a ha hfits
    rw [flatten_cons, length_append] at hfits
    rw [BitVec.lt_def] at ha
    have hnext := @toNat_add_ofNat w p chunk.length (by omega)
    have hbelow : a < p + BitVec.ofNat w chunk.length := by
      rw [BitVec.lt_def]
      omega
    have hstep : (Store.mk p chunk).run mem a = mem a := by
      have hsub : chunk.length ≤ (a - p).toNat := by
        rw [BitVec.toNat_sub, Nat.mod_eq_of_lt (by omega)]
        omega
      exact getD_eq_default _ _ hsub
    exact (ih _ hbelow (by omega)).trans hstep

/-- Chunks are read back. -/
theorem contents_placed (chunks : List (List α)) : ∀ (mem : BitVec w → α) {p : BitVec w},
    p.toNat + chunks.flatten.length < 2 ^ w →
      contents (stored mem (placed p chunks)) p chunks.flatten.length = chunks.flatten := by
  induction chunks with
  | nil => exact fun _ _ _ => rfl
  | cons chunk chunks ih =>
    intro mem p hfits
    rw [flatten_cons, length_append] at hfits ⊢
    have hnext := @toNat_add_ofNat w p chunk.length (by omega)
    have hfirst : contents (stored mem (placed p (chunk :: chunks))) p chunk.length = chunk := by
      refine ext_getElem (length_contents _ _ _) fun i hi hi' => ?_
      have hat := @toNat_add_ofNat w p i (by omega)
      have hbelow : p + BitVec.ofNat w i < p + BitVec.ofNat w chunk.length := by
        rw [BitVec.lt_def]
        omega
      have hkept := stored_placed_of_lt chunks ((Store.mk p chunk).run mem) hbelow (by omega)
      have hwritten : (Store.mk p chunk).run mem (p + BitVec.ofNat w i) = chunk[i] := by
        have hsub : (p + BitVec.ofNat w i - p).toNat = i := by
          rw [add_sub_cancel_left, BitVec.toNat_ofNat, Nat.mod_eq_of_lt (by omega)]
        rw [Store.run, hsub, getD_eq_getElem _ _ hi']
      simp only [contents, span, getElem_map, getElem_range]
      exact hkept.trans hwritten
    have hrest := ih ((Store.mk p chunk).run mem) (p := p + BitVec.ofNat w chunk.length) (by omega)
    rw [contents_add, hfirst]
    exact congrArg (chunk ++ ·) hrest

end HardwareIntel
