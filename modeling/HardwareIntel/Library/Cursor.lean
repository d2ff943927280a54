import HardwareIntel.Library.Memory
import HardwareIntel.Library.Wire

/-!
# Reading a memory from its beginning

A cursor is a position in a memory of bytes, together with the ranges that have been read. It reads
without knowing where the data ends. As it moves over all that it reads, no byte behind the data has
been read iff its position is not behind the end (`Covers.inside_iff`). And as long as this holds,
what it reads is what stands there (`Before.bytes`, `Before.word`).
-/

namespace HardwareIntel

open List

/-- A position in a memory, and the ranges that have been read: where they start, and their
lengths. -/
structure Cursor where
  offset : ℕ
  reads : List (ℕ × ℕ)

namespace Cursor

def start : Cursor := ⟨0, []⟩

/-- Read bytes. -/
def bytes (mem : ℕ → UInt8) (n : ℕ) (p : Cursor) : List UInt8 × Cursor :=
  (slice mem p.offset n, ⟨p.offset + n, p.reads ++ [(p.offset, n)]⟩)

/-- Read a word in network order. -/
def word (mem : ℕ → UInt8) (p : Cursor) : ℕ × Cursor :=
  (ofLittleEndian (p.bytes mem 4).1.reverse, (p.bytes mem 4).2)

/-- All bytes that have been read are below the bound. -/
def Inside (bound : ℕ) (p : Cursor) : Prop :=
  ∀ r ∈ p.reads, ∀ k, r.1 ≤ k → k < r.1 + r.2 → k < bound

/-- Exactly the bytes before the position have been read. -/
def Covers (p : Cursor) : Prop :=
  ∀ k, (∃ r ∈ p.reads, r.1 ≤ k ∧ k < r.1 + r.2) ↔ k < p.offset

variable {mem : ℕ → UInt8} {p : Cursor} {n bound : ℕ} {data rest : List UInt8}

@[simp] theorem offset_bytes : (p.bytes mem n).2.offset = p.offset + n := rfl

@[simp] theorem offset_word : (p.word mem).2.offset = p.offset + 4 := rfl

theorem covers_start : start.Covers := fun k => by simp [start]

theorem Covers.bytes (h : p.Covers) (mem : ℕ → UInt8) (n : ℕ) : (p.bytes mem n).2.Covers := by
  intro k
  simp only [Cursor.bytes, mem_append, mem_singleton, or_and_right, exists_or, h k, exists_eq_left]
  omega

theorem Covers.word (h : p.Covers) (mem : ℕ → UInt8) : (p.word mem).2.Covers := h.bytes mem 4

theorem Covers.inside_iff (h : p.Covers) : p.Inside bound ↔ p.offset ≤ bound := by
  constructor
  · intro hinside
    by_contra hnot
    obtain ⟨r, hr, hlow, hhigh⟩ := (h bound).mpr (by omega)
    exact Nat.lt_irrefl bound (hinside r hr bound hlow hhigh)
  · intro hle r hr k hlow hhigh
    exact Nat.lt_of_lt_of_le ((h k).mp ⟨r, hr, hlow, hhigh⟩) hle

/-! ## What stands there -/

/-- The memory starts with the data; behind them may be anything. -/
def Holds (mem : ℕ → UInt8) (data : List UInt8) : Prop := slice mem 0 data.length = data

/-- The position is before the given rest of the data. -/
def Before (data rest : List UInt8) (p : Cursor) : Prop :=
  ∃ before, data = before ++ rest ∧ before.length = p.offset

theorem before_start (data : List UInt8) : start.Before data data := ⟨[], rfl, rfl⟩

theorem Before.offset_le (h : p.Before data rest) : p.offset ≤ data.length := by
  obtain ⟨before, rfl, hlength⟩ := h
  rw [length_append]
  omega

theorem Before.length_eq (h : p.Before data rest) : data.length = p.offset + rest.length := by
  obtain ⟨before, rfl, hlength⟩ := h
  rw [length_append, hlength]

/-- Bytes that stand at the position are read. -/
theorem Before.bytes (hmem : Holds mem data) {b : List UInt8} (h : p.Before data (b ++ rest)) :
    (p.bytes mem b.length).1 = b ∧ (p.bytes mem b.length).2.Before data rest := by
  obtain ⟨before, hdata, hlength⟩ := h
  have hsplit : slice mem 0 p.offset ++ (slice mem p.offset b.length ++
      slice mem (p.offset + b.length) rest.length) = before ++ (b ++ rest) := by
    rw [← hdata, ← hmem, ← slice_add]
    have htotal : data.length = p.offset + (b.length + rest.length) := by
      rw [hdata, length_append, length_append, hlength]
    rw [htotal, slice_add mem 0 p.offset, Nat.zero_add]
  have hrest := (append_inj hsplit (by simp [hlength])).2
  refine ⟨(append_inj hrest (by simp)).1, before ++ b, ?_, ?_⟩
  · rw [hdata, append_assoc]
  · rw [length_append, hlength, offset_bytes]

/-- A word that stands at the position is read. -/
theorem Before.word (hmem : Holds mem data) {w : ℕ} (hw : w < 2 ^ 32)
    (h : p.Before data (encodeWord w ++ rest)) :
    (p.word mem).1 = w ∧ (p.word mem).2.Before data rest := by
  obtain ⟨hbytes, hbefore⟩ := Before.bytes hmem h
  rw [length_encodeWord] at hbytes hbefore
  refine ⟨?_, hbefore⟩
  rw [Cursor.word, hbytes, ofLittleEndian_reverse_encodeWord hw]

/-- Bytes that are inside the data stand at the position. -/
theorem Before.exists_bytes (h : p.Before data rest) (hle : p.offset + n ≤ data.length) :
    ∃ b rest', rest = b ++ rest' ∧ b.length = n := by
  have hlength := h.length_eq
  exact ⟨rest.take n, rest.drop n, (take_append_drop n rest).symm, length_take_of_le (by omega)⟩

/-- A word that is inside the data stands at the position. -/
theorem Before.exists_word (h : p.Before data rest) (hle : p.offset + 4 ≤ data.length) :
    ∃ w rest', w < 2 ^ 32 ∧ rest = encodeWord w ++ rest' := by
  obtain ⟨b, rest', rfl, hb⟩ := h.exists_bytes hle
  obtain ⟨w, hw, rfl⟩ := exists_encodeWord hb
  exact ⟨w, rest', hw, rfl⟩

end Cursor

end HardwareIntel
