import HardwareIntel.Library.Bits
import Mathlib.Tactic.Ring

/-!
# Syntaxes of bits

A `BitSyntax` says which syntax element comes next, given the values of those before it. What a writer
puts in their place is a list of `Item`s: bits, the value that is read from them, and the value that was
meant. `Scans.read_iff` says when the values that were meant are read back: the syntax has to end
exactly after the items, and each value has to be the one that was meant. The rules of `Judges` find
out for a given syntax what this comes to.
-/

namespace HardwareIntel

open List Option

/-- What is to be read, and how it goes on after the value of an element. -/
inductive BitSyntax
  | done
  | fail
  | element (reader : BitReader ℤ) (next : ℤ → BitSyntax)

/-- The bits in place of a syntax element. Nothing is meant by what is not known to the writer. -/
structure Item where
  bits : List Bool
  value : ℤ
  meant : Option ℤ

/-- The value that is read is the one that was meant. -/
def Means (value : ℤ) (meant : Option ℤ) : Prop := ∀ v ∈ meant, v = value

@[simp] theorem means_none (value : ℤ) : Means value none := fun _ hv => nomatch hv

@[simp] theorem means_some (value v : ℤ) : Means value (some v) ↔ v = value :=
  ⟨fun h => h v rfl, fun h _ hv => (some.inj hv).symm.trans h⟩

namespace BitSyntax

/-- The values of all elements. -/
def read : BitSyntax → BitReader (List ℤ)
  | done => pure []
  | fail => fun _ => none
  | element reader next => do
    let v ← reader
    let vs ← (next v).read
    pure (v :: vs)

/-- Each element that is met is read from the bits of its item. -/
def Scans : BitSyntax → List Item → Prop
  | element reader next, w :: ws =>
    Reads reader w.bits w.value ∧ (Means w.value w.meant → (next w.value).Scans ws)
  | _, _ => True

/-- The syntax ends after the items, and their values are those that were meant. -/
def Covers : BitSyntax → List Item → Prop
  | done, [] => True
  | element _ next, w :: ws => Means w.value w.meant ∧ (next w.value).Covers ws
  | _, _ => False

/-- The values that were meant are read back exactly if the syntax covers the items. -/
theorem Scans.read_iff {s : BitSyntax} {ws : List Item} (hscans : s.Scans ws) (rest : List Bool) :
    (∃ values padding, s.read (ws.flatMap Item.bits ++ rest) = some (values, padding) ∧
      List.Forall₂ Means values (ws.map Item.meant)) ↔ s.Covers ws := by
  induction ws generalizing s with
  | nil =>
    cases s with
    | done => exact iff_of_true ⟨[], rest, rfl, .nil⟩ trivial
    | fail => exact iff_of_false (fun ⟨_, _, h, _⟩ => nomatch h) id
    | element reader next =>
      refine iff_of_false (fun ⟨values, padding, hread, hvalues⟩ => ?_) id
      obtain rfl := List.forall₂_nil_right_iff.mp hvalues
      obtain ⟨⟨v, rest'⟩, -, hread⟩ := bind_eq_some_iff.mp hread
      obtain ⟨⟨vs, rest''⟩, -, hread⟩ := bind_eq_some_iff.mp hread
      nomatch hread
  | cons w ws ih =>
    cases s with
    | done =>
      refine iff_of_false (fun ⟨values, padding, hread, hvalues⟩ => ?_) id
      obtain ⟨rfl, -⟩ := Prod.mk.inj (some.inj hread)
      nomatch hvalues
    | fail => exact iff_of_false (fun ⟨_, _, h, _⟩ => nomatch h) id
    | element reader next =>
      obtain ⟨hreads, hnext⟩ := hscans
      have hread : (element reader next).read ((w :: ws).flatMap Item.bits ++ rest) =
          ((next w.value).read (ws.flatMap Item.bits ++ rest)).map
            fun p => (w.value :: p.1, p.2) := by
        rw [flatMap_cons, append_assoc, read, BitReader.bind_eq (hreads _), map_eq_bind]
        rfl
      rw [hread]
      refine ⟨fun ⟨values, padding, hread, hvalues⟩ => ?_, fun ⟨hmeans, hcovers⟩ => ?_⟩
      · obtain ⟨⟨vs, padding'⟩, hrest, heq⟩ := map_eq_some_iff.mp hread
        obtain ⟨rfl, rfl⟩ := Prod.mk.inj heq
        obtain ⟨hmeans, hvalues'⟩ := List.forall₂_cons.mp hvalues
        exact ⟨hmeans, (ih (hnext hmeans)).mp ⟨vs, padding', hrest, hvalues'⟩⟩
      · obtain ⟨vs, padding, hread, hvalues⟩ := (ih (hnext hmeans)).mpr hcovers
        exact ⟨w.value :: vs, padding, by rw [hread]; rfl, .cons hmeans hvalues⟩

end BitSyntax

/-! ### Numbers -/

namespace BitReader

/-- An unsigned number of `n` bits. -/
def uint (n : ℕ) : BitReader ℤ := (fun v => (v.toNat : ℤ)) <$> u n

/-- A signed number of `n` bits. -/
def sint (n : ℕ) : BitReader ℤ := (fun v => v.toInt) <$> u n

/-- A number in Exp-Golomb code. -/
def ueInt : BitReader ℤ := (fun v : ℕ => (v : ℤ)) <$> ue

end BitReader

namespace Item

/-- A number in `n` bits, of which the upper ones may be lost. -/
def uint (n v : ℕ) : Item := ⟨HardwareIntel.bits n v, ((v % 2 ^ n : ℕ) : ℤ), some (v : ℤ)⟩

/-- A signed number that is meant to be `v`, and what is written for it. -/
def sint (n pattern : ℕ) (v : ℤ) : Item :=
  ⟨HardwareIntel.bits n pattern, (BitVec.ofNat n pattern).toInt, some v⟩

def ue (v : ℕ) : Item := ⟨ueBits v, (v : ℤ), some (v : ℤ)⟩

/-- The number that bits stand for. -/
def number (l : List Bool) : ℕ := l.foldl (fun n b => 2 * n + b.toNat) 0

/-- Bits that someone else inserts. -/
def inserted (l : List Bool) : Item := ⟨l, (number l : ℤ), none⟩

theorem foldl_number (l : List Bool) (m : ℕ) :
    l.foldl (fun n b => 2 * n + b.toNat) m = m * 2 ^ l.length + number l := by
  induction l generalizing m with
  | nil => simp [number]
  | cons b l ih =>
    rw [number, foldl_cons, foldl_cons, ih, ih (2 * 0 + b.toNat), length_cons, Nat.pow_succ]
    ring

theorem number_cons (b : Bool) (l : List Bool) :
    number (b :: l) = b.toNat * 2 ^ l.length + number l := by
  rw [number, foldl_cons, foldl_number, Nat.mul_zero, Nat.zero_add]

theorem number_lt (l : List Bool) : number l < 2 ^ l.length := by
  induction l with
  | nil => exact Nat.one_pos
  | cons b l ih =>
    have hb := b.toNat_le
    rw [number_cons, length_cons, Nat.pow_succ]
    calc b.toNat * 2 ^ l.length + number l < 1 * 2 ^ l.length + 2 ^ l.length :=
          Nat.add_lt_add_of_le_of_lt (Nat.mul_le_mul_right _ hb) ih
      _ = 2 ^ l.length * 2 := by ring

theorem bits_number (l : List Bool) : HardwareIntel.bits l.length (number l) = l := by
  induction l with
  | nil => rfl
  | cons b l ih =>
    have hlt := number_lt l
    have hdiv : number (b :: l) / 2 ^ l.length = b.toNat := by
      rw [number_cons, Nat.mul_comm, Nat.mul_add_div (Nat.two_pow_pos _), Nat.div_eq_of_lt hlt,
        Nat.add_zero]
    have hmod : number (b :: l) % 2 ^ l.length = number l := by
      rw [number_cons, Nat.mul_comm, Nat.mul_add_mod, Nat.mod_eq_of_lt hlt]
    rw [length_cons, Nat.add_comm, bits_add, hdiv, ← bits_mod (Nat.le_refl l.length), hmod, ih]
    cases b <;> rfl

end Item

namespace BitSyntax

variable {n v : ℕ} {next : ℤ → BitSyntax} {ws : List Item}

theorem reads_uint (n v : ℕ) : Reads (BitReader.uint n) (Item.uint n v).bits (Item.uint n v).value := by
  have hreads := (Reads.u n v).map fun v => (v.toNat : ℤ)
  rwa [BitVec.toNat_ofNat] at hreads

theorem uint_value_eq_iff : ((v : ℤ) = (Item.uint n v).value) ↔ v < 2 ^ n := by
  rw [Item.uint, Int.natCast_inj, eq_comm]
  exact Nat.mod_eq_iff_lt (Nat.ne_of_gt (Nat.two_pow_pos n))

theorem bits_inj {w : ℕ} (hv : v < 2 ^ n) (hw : w < 2 ^ n) (h : bits n v = bits n w) : v = w := by
  have hread := (reads_uint n v []).symm.trans
    ((congrArg (fun l => BitReader.uint n (l ++ [])) h).trans (reads_uint n w []))
  have hvalue := (Prod.mk.inj (some.inj hread)).1
  rwa [← uint_value_eq_iff.mpr hv, ← uint_value_eq_iff.mpr hw, Int.natCast_inj] at hvalue

/-- The values that were meant are read back exactly if something holds. -/
structure Judges (s : BitSyntax) (ws : List Item) (p : Prop) : Prop where
  scans : s.Scans ws
  covers : s.Covers ws ↔ p

namespace Judges

variable {s : BitSyntax} {p q : Prop}

theorem read_iff (h : s.Judges ws p) (rest : List Bool) :
    (∃ values padding, s.read (ws.flatMap Item.bits ++ rest) = some (values, padding) ∧
      List.Forall₂ Means values (ws.map Item.meant)) ↔ p :=
  (h.scans.read_iff rest).trans h.covers

theorem congr (h : s.Judges ws p) (hpq : p ↔ q) : s.Judges ws q := ⟨h.scans, h.covers.trans hpq⟩

theorem done : BitSyntax.done.Judges [] True := ⟨trivial, Iff.rfl⟩

theorem done_cons (w : Item) : BitSyntax.done.Judges (w :: ws) False := ⟨trivial, Iff.rfl⟩

theorem fail (ws : List Item) : BitSyntax.fail.Judges ws False := by
  cases ws with
  | nil => exact ⟨trivial, Iff.rfl⟩
  | cons w ws => exact ⟨trivial, Iff.rfl⟩

theorem nil (reader : BitReader ℤ) (next : ℤ → BitSyntax) : (element reader next).Judges [] False :=
  ⟨trivial, Iff.rfl⟩

theorem uint (hnext : v < 2 ^ n → (next v).Judges ws p) :
    (element (.uint n) next).Judges (.uint n v :: ws) (v < 2 ^ n ∧ p) := by
  refine ⟨⟨reads_uint n v, fun hmeans => ?_⟩, fun ⟨hmeans, hcovers⟩ => ?_, fun ⟨hlt, hp⟩ => ?_⟩
  · have hvalue : (v : ℤ) = (Item.uint n v).value := (means_some _ _).mp hmeans
    rw [← hvalue]
    exact (hnext (uint_value_eq_iff.mp hvalue)).scans
  · have hvalue : (v : ℤ) = (Item.uint n v).value := (means_some _ _).mp hmeans
    have hlt := uint_value_eq_iff.mp hvalue
    rw [← hvalue] at hcovers
    exact ⟨hlt, (hnext hlt).covers.mp hcovers⟩
  · have hvalue : (v : ℤ) = (Item.uint n v).value := uint_value_eq_iff.mpr hlt
    refine ⟨(means_some _ _).mpr hvalue, ?_⟩
    rw [← hvalue]
    exact (hnext hlt).covers.mpr hp

theorem sint (h : s.Judges ws p) (pattern : ℕ) (x : ℤ) :
    (element (.sint n) fun _ => s).Judges (.sint n pattern x :: ws)
      (x = (BitVec.ofNat n pattern).toInt ∧ p) :=
  ⟨⟨(Reads.u n pattern).map BitVec.toInt, fun _ => h.scans⟩, and_congr (means_some _ _) h.covers⟩

theorem ue (h : (next v).Judges ws p) : (element .ueInt next).Judges (.ue v :: ws) p :=
  ⟨⟨(Reads.ue v).map fun v : ℕ => (v : ℤ), fun _ => h.scans⟩,
    (and_iff_right ((means_some _ _).mpr rfl)).trans h.covers⟩

theorem inserted (h : s.Judges ws p) {l : List Bool} (hl : l.length = n) :
    (element (.uint n) fun _ => s).Judges (.inserted l :: ws) p := by
  have hreads := reads_uint n (Item.number l)
  have hbits : (Item.uint n (Item.number l)).bits = l := by
    rw [← hl]
    exact Item.bits_number l
  have hvalue : (Item.uint n (Item.number l)).value = (Item.number l : ℤ) :=
    (uint_value_eq_iff.mpr (hl ▸ Item.number_lt l)).symm
  rw [hbits, hvalue] at hreads
  exact ⟨⟨hreads, fun _ => h.scans⟩, (and_iff_right (means_none _)).trans h.covers⟩

end Judges

end BitSyntax

end HardwareIntel
