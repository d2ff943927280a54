import HardwareIntel.Library.ByteFile
import Mathlib.Logic.Relation

/-!
# The search for the simple index object

`AsfExtractor::initialize` looks at the objects behind the data object, one after the other, until one of
them is the simple index object. It goes on by the size that is in the header of an object, in 64 bits,
and stops behind the size of the file. A size that is nearly 2^64 leads back to an object that has been
looked at; `search_ends_iff` says that there is no other way for the search to fail.
-/

namespace HardwareIntel.Asf

/-- What is known when the search starts. The parser says what an index object is, and how large the
file is. -/
structure IndexSearch where
  file : List UInt8
  fileSize : ℕ
  headerObjectSize : ℕ
  dataObjectSize : ℕ
  isSimpleIndexObject : List UInt8 → Bool

/-- How a turn of the loop ends. -/
inductive Turn
  | stop (index : Option ℕ)
  | next (offset : ℕ)

namespace IndexSearch

variable (s : IndexSearch)

/-- The size of an object, from its header of 24 bytes. -/
def objectSize (offset : ℕ) : ℕ := ofLittleEndian (readAt (readAt s.file offset 24) 16 8)

/-- What is added to the offset: the size, or the header of an object without a size. -/
def objectStep (offset : ℕ) : ℕ := if s.objectSize offset = 0 then 24 else s.objectSize offset

/-- A turn of the loop. -/
def turn (offset : ℕ) : Turn :=
  let objectHeader := readAt s.file offset 24
  if objectHeader.length ≠ 24 then .stop none
  else if s.isSimpleIndexObject objectHeader then .stop (some offset)
  else
    let offset := (offset + s.objectStep offset) % 2 ^ 64
    if s.fileSize ≤ offset then .stop none else .next offset

/-- The loop, with the offsets that it visits, and where the index is. -/
def search : ℕ → ℕ → Option (List ℕ × Option ℕ)
  | 0, _ => none
  | fuel + 1, offset =>
    match s.turn offset with
    | .stop index => some ([offset], index)
    | .next offset' => (search fuel offset').map fun r => (offset :: r.1, r.2)

/-- `mDataPacketEndOffset` -/
def start : ℕ := (s.headerObjectSize + s.dataObjectSize) % 2 ^ 64

/-- The search ends, and goes forward in the file. -/
def Ends : Prop :=
  ∃ fuel visited index, s.search fuel s.start = some (visited, index) ∧ visited.Pairwise (· < ·)

/-- The search goes from an offset to another one. -/
def Goes (offset offset' : ℕ) : Prop := s.turn offset = .next offset'

/-- The offset behind an object is in 64 bits, or what is left of it is behind the file. It does not
matter if there is no object here, or an index object. -/
def NoWrap (offset : ℕ) : Prop :=
  (readAt s.file offset 24).length = 24 → s.isSimpleIndexObject (readAt s.file offset 24) = false →
    offset + s.objectStep offset < 2 ^ 64 ∨
      s.fileSize ≤ (offset + s.objectStep offset) % 2 ^ 64

variable {s}

theorem objectStep_pos (offset : ℕ) : 0 < s.objectStep offset := by
  rw [objectStep]
  split_ifs with h
  · decide
  · exact Nat.pos_of_ne_zero h

variable {offset : ℕ}

/-- What a turn that goes on does. -/
theorem goes_iff {offset' : ℕ} : s.Goes offset offset' ↔
    (readAt s.file offset 24).length = 24 ∧ s.isSimpleIndexObject (readAt s.file offset 24) = false ∧
      (offset + s.objectStep offset) % 2 ^ 64 < s.fileSize ∧
      offset' = (offset + s.objectStep offset) % 2 ^ 64 := by
  rw [Goes, turn]
  by_cases hread : (readAt s.file offset 24).length = 24
  · rw [if_neg (not_not.mpr hread)]
    by_cases hindex : s.isSimpleIndexObject (readAt s.file offset 24) = true
    · rw [if_pos hindex]
      exact iff_of_false (fun h => nomatch h) fun h => absurd (hindex.symm.trans h.2.1) (by decide)
    · rw [if_neg hindex]
      by_cases hsize : s.fileSize ≤ (offset + s.objectStep offset) % 2 ^ 64
      · rw [if_pos hsize]
        exact iff_of_false (fun h => nomatch h) fun h => absurd hsize (Nat.not_le.mpr h.2.2.1)
      · rw [if_neg hsize, Turn.next.injEq]
        exact ⟨fun h => ⟨hread, Bool.eq_false_iff.mpr hindex, Nat.not_le.mp hsize, h.symm⟩,
          fun h => h.2.2.2.symm⟩
  · rw [if_pos hread]
    exact iff_of_false (fun h => nomatch h) fun h => hread h.1

/-- The sum does not wrap just if the search goes forward. -/
theorem noWrap_iff (hoffset : offset < 2 ^ 64) :
    s.NoWrap offset ↔ ∀ offset', s.Goes offset offset' → offset < offset' := by
  have hpos := s.objectStep_pos offset
  have hlt : s.objectStep offset < 2 ^ 64 := by
    have hbytes : (readAt (readAt s.file offset 24) 16 8).length ≤ 8 := by
      rw [length_readAt]
      exact Nat.min_le_left _ _
    rw [objectStep]
    split_ifs
    · decide
    · calc s.objectSize offset < 256 ^ (readAt (readAt s.file offset 24) 16 8).length :=
            ofLittleEndian_lt _
        _ ≤ 256 ^ 8 := Nat.pow_le_pow_right (by decide) hbytes
  constructor
  · intro h offset' hgoes
    obtain ⟨hread, hindex, hsize, rfl⟩ := goes_iff.mp hgoes
    have hwrap := h hread hindex
    omega
  · intro h hread hindex
    by_cases hsize : s.fileSize ≤ (offset + s.objectStep offset) % 2 ^ 64
    · exact Or.inr hsize
    · have hforward := h _ (goes_iff.mpr ⟨hread, hindex, Nat.not_le.mp hsize, rfl⟩)
      omega

theorem start_lt : s.start < 2 ^ 64 := Nat.mod_lt _ (by decide)

theorem lt_of_goes {offset' : ℕ} (h : s.Goes offset offset') : offset' < 2 ^ 64 := by
  obtain ⟨-, -, -, rfl⟩ := goes_iff.mp h
  exact Nat.mod_lt _ (by decide)

/-- The turn that comes next. -/
theorem search_succ {fuel offset' : ℕ} (h : s.Goes offset offset') :
    s.search (fuel + 1) offset = (s.search fuel offset').map fun r => (offset :: r.1, r.2) := by
  rw [search, h]

theorem search_stop {fuel : ℕ} {index : Option ℕ} (h : s.turn offset = .stop index) :
    s.search (fuel + 1) offset = some ([offset], index) := by
  rw [search, h]

/-- The first offset that is visited is the one where the search starts. -/
theorem exists_visited {fuel : ℕ} {visited : List ℕ} {index : Option ℕ}
    (h : s.search fuel offset = some (visited, index)) : ∃ rest, visited = offset :: rest := by
  cases fuel with
  | zero => cases h
  | succ fuel =>
    cases hturn : s.turn offset with
    | stop index' =>
      rw [search_stop hturn] at h
      exact ⟨[], (Prod.mk.inj (Option.some.inj h)).1.symm⟩
    | next offset' =>
      rw [search_succ hturn] at h
      obtain ⟨r, -, hr⟩ := Option.map_eq_some_iff.mp h
      exact ⟨r.1, (Prod.mk.inj hr).1.symm⟩

/-- A search that ends and goes forward does so at all offsets that it can go to. -/
theorem forward_of_search {fuel : ℕ} : ∀ {offset : ℕ} {visited : List ℕ} {index : Option ℕ},
    s.search fuel offset = some (visited, index) → visited.Pairwise (· < ·) →
      ∀ {a}, Relation.ReflTransGen s.Goes offset a → ∀ b, s.Goes a b → a < b := by
  induction fuel with
  | zero =>
    intro offset visited index h
    cases h
  | succ fuel ih =>
    intro offset visited index h hpairwise a ha b hb
    cases hturn : s.turn offset with
    | stop index' =>
      obtain rfl | ⟨c, hc, -⟩ := Relation.ReflTransGen.cases_head ha
      · cases hturn.symm.trans hb
      · cases hturn.symm.trans hc
    | next offset' =>
      rw [search_succ hturn] at h
      obtain ⟨⟨visited', index'⟩, hrest, hr⟩ := Option.map_eq_some_iff.mp h
      obtain ⟨rfl, -⟩ := Prod.mk.inj hr
      obtain ⟨hfirst, hpairwise⟩ := List.pairwise_cons.mp hpairwise
      obtain rfl | ⟨c, hc, ha⟩ := Relation.ReflTransGen.cases_head ha
      · obtain rfl : b = offset' := Turn.next.inj (hb.symm.trans hturn)
        obtain ⟨rest, rfl⟩ := exists_visited hrest
        exact hfirst b (List.mem_cons_self ..)
      · obtain rfl : c = offset' := Turn.next.inj (hc.symm.trans hturn)
        exact ih hrest hpairwise ha b hb

/-- A search that goes forward ends, as the offsets are in 64 bits. -/
theorem search_of_forward : ∀ (n : ℕ) {offset : ℕ}, 2 ^ 64 ≤ offset + n → offset < 2 ^ 64 →
    (∀ {a}, Relation.ReflTransGen s.Goes offset a → ∀ b, s.Goes a b → a < b) →
      ∃ fuel visited index, s.search fuel offset = some (visited, index) ∧
        visited.Pairwise (· < ·) ∧ ∀ a ∈ visited, offset ≤ a := by
  intro n
  induction n with
  | zero => exact fun hle hlt => absurd hle (Nat.not_le.mpr hlt)
  | succ n ih =>
    intro offset hle hlt hforward
    cases hturn : s.turn offset with
    | stop index =>
      refine ⟨1, _, _, search_stop hturn, List.pairwise_singleton _ _, ?_⟩
      simp
    | next offset' =>
      have hgoes : s.Goes offset offset' := hturn
      have hlt' := hforward .refl offset' hgoes
      obtain ⟨fuel, visited, index, hsearch, hpairwise, hmem⟩ :=
        ih (by omega) (lt_of_goes hgoes) fun ha => hforward (ha.head hgoes)
      refine ⟨fuel + 1, offset :: visited, index, ?_, ?_, ?_⟩
      · rw [search_succ hgoes, hsearch]
        rfl
      · exact List.pairwise_cons.mpr ⟨fun a ha => lt_of_lt_of_le hlt' (hmem a ha), hpairwise⟩
      · intro a ha
        obtain rfl | ha := List.mem_cons.mp ha
        · exact le_refl a
        · exact le_of_lt (lt_of_lt_of_le hlt' (hmem a ha))

theorem lt_of_reach {a : ℕ} (h : Relation.ReflTransGen s.Goes s.start a) : a < 2 ^ 64 := by
  obtain rfl | ⟨c, -, hc⟩ := Relation.ReflTransGen.cases_tail h
  · exact s.start_lt
  · exact lt_of_goes hc

/-- The search ends and goes forward just if no size that it uses leads out of 64 bits and back into
the file. -/
theorem search_ends_iff (s : IndexSearch) :
    s.Ends ↔ ∀ offset, Relation.ReflTransGen s.Goes s.start offset → s.NoWrap offset := by
  constructor
  · rintro ⟨fuel, visited, index, hsearch, hpairwise⟩ offset hreach
    exact (noWrap_iff (lt_of_reach hreach)).mpr (forward_of_search hsearch hpairwise hreach)
  · intro h
    obtain ⟨fuel, visited, index, hsearch, hpairwise, -⟩ :=
      @search_of_forward s (2 ^ 64) _ (Nat.le_add_left _ _) s.start_lt fun ha =>
        (noWrap_iff (lt_of_reach ha)).mp (h _ ha)
    exact ⟨fuel, visited, index, hsearch, hpairwise⟩

/-- Two objects, of which the second one has a size of 2^64 - 24. -/
def backwards : IndexSearch where
  file := List.replicate 80 0 ++ (List.replicate 16 0 ++ littleEndian 8 24) ++
    (List.replicate 16 0 ++ littleEndian 8 (2 ^ 64 - 24))
  fileSize := 128
  headerObjectSize := 30
  dataObjectSize := 50
  isSimpleIndexObject header := header.take 4 = [0x90, 0x08, 0x00, 0x33]

/-- The search goes from one of them to the other and back. -/
theorem backwards_not_ends : ¬ ∀ s : IndexSearch, s.Ends := by
  intro h
  have hgoes : backwards.Goes 80 104 := by rfl
  have hgoes' : backwards.Goes 104 80 := by rfl
  obtain ⟨fuel, visited, index, hsearch, hpairwise⟩ := h backwards
  exact absurd (forward_of_search hsearch hpairwise (.single hgoes) 80 hgoes') (by decide)

end IndexSearch

end HardwareIntel.Asf
