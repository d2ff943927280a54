import Mathlib.Data.List.Basic
import Mathlib.Data.BitVec

/-!
# Bit strings and their readers

A number is written as a string of bits, the most significant bit first, or with an Exp-Golomb
code, whose length depends on the number. A reader takes what it reads from the front of a string.
`Reads r l a` says that `r` takes exactly `l`, whatever comes after it, and returns `a`; this
relation goes through the monad, so the reader of a whole syntax is followed element by element.
-/

namespace HardwareIntel

open List Option

/-- The `n` low bits of `v`, the most significant bit first. -/
def bits : ℕ → ℕ → List Bool
  | 0, _ => []
  | n + 1, v => v.testBit n :: bits n v

/-- The Exp-Golomb code of a number that is one less than `w`. -/
def expGolomb (w : ℕ) : List Bool :=
  List.replicate w.log2 false ++ true :: bits w.log2 w

/-- The code `ue(v)`. -/
def ueBits (v : ℕ) : List Bool := expGolomb (v + 1)

/-- The number a signed value is coded as: `1, 2, 3, ..` for `1, -1, 2, ..`. -/
def seCodeNum (v : ℤ) : ℕ := if 0 < v then (2 * v - 1).toNat else (-2 * v).toNat

/-- The code `se(v)`. -/
def seBits (v : ℤ) : List Bool := ueBits (seCodeNum v)

@[simp] theorem bits_zero (v : ℕ) : bits 0 v = [] := rfl

theorem bits_succ (n v : ℕ) : bits (n + 1) v = v.testBit n :: bits n v := rfl

@[simp] theorem length_bits (n v : ℕ) : (bits n v).length = n := by
  induction n with
  | zero => rfl
  | succ n ih => simp [bits_succ, ih]

theorem bits_congr {n v w : ℕ} (h : ∀ i < n, v.testBit i = w.testBit i) : bits n v = bits n w := by
  induction n with
  | zero => rfl
  | succ n ih => rw [bits_succ, bits_succ, h n (by omega), ih fun i hi => h i (by omega)]

/-- Only the low bits count. -/
theorem bits_mod {n m : ℕ} (h : n ≤ m) (v : ℕ) : bits n (v % 2 ^ m) = bits n v := by
  refine bits_congr fun i hi => ?_
  have him : i < m := by omega
  simp [Nat.testBit_mod_two_pow, him]

theorem bits_add (m n v : ℕ) : bits (m + n) v = bits m (v / 2 ^ n) ++ bits n v := by
  induction m with
  | zero => simp
  | succ m ih =>
    rw [show m + 1 + n = (m + n) + 1 by omega, bits_succ, bits_succ, ih, Nat.testBit_div_two_pow,
      cons_append]

theorem bits_zero_right (n : ℕ) : bits n 0 = List.replicate n false := by
  induction n with
  | zero => rfl
  | succ n ih => simp [bits_succ, ih, replicate_succ]

theorem getElem_bits {n v i : ℕ} (h : i < (bits n v).length) :
    (bits n v)[i] = v.testBit (n - 1 - i) := by
  induction n generalizing i with
  | zero => simp at h
  | succ n ih =>
    cases i with
    | zero => simp [bits_succ]
    | succ i =>
      simp only [bits_succ, getElem_cons_succ]
      rw [ih, show n + 1 - 1 - (i + 1) = n - 1 - i by omega]

theorem bits_ones (n : ℕ) : bits n (2 ^ n - 1) = List.replicate n true := by
  have hones : ∀ m k : ℕ, m ≤ k → bits m (2 ^ k - 1) = List.replicate m true := by
    intro m k hmk
    induction m with
    | zero => rfl
    | succ m ih =>
      rw [bits_succ, ih (by omega), Nat.testBit_two_pow_sub_one, decide_eq_true (by omega),
        replicate_succ]
  exact hones n n (le_refl n)

theorem length_expGolomb (w : ℕ) : (expGolomb w).length = 2 * w.log2 + 1 := by
  rw [expGolomb, length_append, length_replicate, length_cons, length_bits]
  omega

/-- The two values of an Exp-Golomb code. -/
theorem expGolomb_eq {w : ℕ} (hw : w ≠ 0) : expGolomb w = bits w.log2 0 ++ bits (w.log2 + 1) w := by
  have hbit : w.testBit w.log2 = true := Nat.testBit_log2 hw
  rw [expGolomb, bits_zero_right, bits_succ, hbit]

theorem length_ueBits (v : ℕ) : (ueBits v).length = 2 * (v + 1).log2 + 1 := by
  simp [ueBits, expGolomb]
  omega

/-- The code of a 32-bit number has at most 65 bits. -/
theorem length_ueBits_le {v : ℕ} (hv : v < 2 ^ 32) : (ueBits v).length ≤ 65 := by
  have hlog : (v + 1).log2 < 33 := by
    rw [Nat.log2_lt (by omega)]
    omega
  rw [length_ueBits]
  omega

/-- A reader of bits: what it has read, and the bits that are left. -/
abbrev BitReader (α : Type) := StateT (List Bool) Option α

namespace BitReader

/-- One bit. -/
def flag : BitReader Bool
  | [] => none
  | b :: rest => some (b, rest)

/-- An unsigned number of `n` bits. -/
def u : (n : ℕ) → BitReader (BitVec n)
  | 0 => pure 0
  | n + 1 => do
    let b ← flag
    let v ← u n
    pure (BitVec.cons b v)

/-- The number of zeros before the first one, which is read too. -/
def leadingZeros : List Bool → Option (ℕ × List Bool)
  | [] => none
  | true :: rest => some (0, rest)
  | false :: rest => (leadingZeros rest).map fun (n, rest) => (n + 1, rest)

/-- An unsigned number in Exp-Golomb code. -/
def ue : BitReader ℕ := do
  let n ← (leadingZeros : BitReader ℕ)
  let v ← u n
  pure (2 ^ n - 1 + v.toNat)

/-- A signed number in Exp-Golomb code. -/
def se : BitReader ℤ := do
  let k ← ue
  pure (if k % 2 = 1 then ((k + 1) / 2 : ℕ) else -((k / 2 : ℕ) : ℤ))

/-- What is read only when a flag is set. -/
def onlyIf (c : Bool) (r : BitReader α) : BitReader (Option α) :=
  if c then some <$> r else pure none

/-- The same syntax a number of times. -/
def times : ℕ → BitReader α → BitReader (List α)
  | 0, _ => pure []
  | n + 1, r => do
    let a ← r
    let as ← times n r
    pure (a :: as)

/-- A reader that fails unless a condition holds. -/
def ensure (c : Bool) : BitReader Unit := if c then pure () else fun _ => none

/-- The bits that are left, which are not read. -/
def peek : BitReader (List Bool) := fun l => some (l, l)

theorem bind_eq {r : BitReader α} {f : α → BitReader β} {l l' : List Bool} {a : α}
    (h : r l = some (a, l')) : (r >>= f) l = f a l' := by
  change (r l >>= fun p => f p.1 p.2) = _
  rw [h]
  rfl

/-- The bits that a number of `n` bits has been read from. -/
theorem exists_append_of_u {n : ℕ} :
    ∀ {l rest : List Bool} {v : BitVec n}, u n l = some (v, rest) →
      ∃ l', l = l' ++ rest ∧ l'.length = n := by
  induction n with
  | zero =>
    intro l rest v h
    obtain ⟨-, rfl⟩ := Prod.mk.inj (some.inj h)
    exact ⟨[], rfl, rfl⟩
  | succ n ih =>
    intro l rest v h
    obtain ⟨⟨b, l₁⟩, hb, h⟩ := bind_eq_some_iff.mp h
    obtain ⟨⟨v₁, l₂⟩, hv, h⟩ := bind_eq_some_iff.mp h
    obtain ⟨-, rfl⟩ := Prod.mk.inj (some.inj h)
    obtain ⟨l', rfl, hlength⟩ := ih hv
    cases l with
    | nil => cases hb
    | cons b' l =>
      obtain ⟨-, rfl⟩ := Prod.mk.inj (some.inj hb)
      exact ⟨b' :: l', rfl, congrArg (· + 1) hlength⟩

/-- The code of zero is a single one. -/
theorem eq_cons_of_ue_zero {l rest : List Bool} (h : ue l = some (0, rest)) : l = true :: rest := by
  obtain ⟨⟨n, l₁⟩, hzeros, h⟩ := bind_eq_some_iff.mp h
  obtain ⟨⟨v, l₂⟩, hv, h⟩ := bind_eq_some_iff.mp h
  obtain ⟨hvalue, rfl⟩ := Prod.mk.inj (some.inj h)
  have hn : n = 0 := by
    by_contra hn
    have hpow : 2 ≤ 2 ^ n := Nat.le_self_pow hn 2
    omega
  subst hn
  obtain ⟨-, rfl⟩ := Prod.mk.inj (some.inj hv)
  cases l with
  | nil => cases hzeros
  | cons b l =>
    cases b with
    | true =>
      obtain ⟨-, rfl⟩ := Prod.mk.inj (some.inj hzeros)
      rfl
    | false =>
      obtain ⟨r, -, hr⟩ := map_eq_some_iff.mp hzeros
      cases hr

end BitReader

/-- A reader takes exactly these bits, whatever follows, and returns this value. -/
def Reads (r : BitReader α) (l : List Bool) (a : α) : Prop :=
  ∀ rest, r (l ++ rest) = some (a, rest)

namespace Reads

open BitReader

theorem pure (a : α) : Reads (Pure.pure a) [] a := fun _ => rfl

variable {r : BitReader α} {l : List Bool} {a : α}

theorem bind {f : α → BitReader β} {l' : List Bool} {b : β} (hr : Reads r l a)
    (hf : Reads (f a) l' b) : Reads (r >>= f) (l ++ l') b := by
  intro rest
  rw [append_assoc, BitReader.bind_eq (hr _)]
  exact hf rest

theorem map (f : α → β) (h : Reads r l a) : Reads (f <$> r) l (f a) := by
  intro rest
  change (r (l ++ rest) >>= fun p => Option.some (f p.1, p.2)) = _
  rw [h rest]
  rfl

theorem bind_pure (h : Reads r l a) (f : α → β) :
    Reads (r >>= fun x => Pure.pure (f x)) l (f a) := by
  have hread : Reads (r >>= fun x => Pure.pure (f x)) (l ++ []) (f a) := h.bind (Reads.pure (f a))
  rwa [append_nil] at hread

theorem flag (b : Bool) : Reads flag [b] b := fun _ => rfl

theorem flag_bits (v : ℕ) : Reads BitReader.flag (bits 1 v) (v.testBit 0) := fun _ => rfl

theorem u (n v : ℕ) : Reads (u n) (bits n v) (BitVec.ofNat n v) := by
  induction n with
  | zero =>
    intro rest
    exact congrArg some (Prod.ext (BitVec.eq_of_toNat_eq (by simp [Nat.mod_one])) rfl)
  | succ n ih =>
    have hvalue : BitVec.cons (v.testBit n) (BitVec.ofNat n v) = BitVec.ofNat (n + 1) v := by
      refine BitVec.eq_of_toNat_eq ?_
      rw [BitVec.toNat_cons', BitVec.toNat_ofNat, BitVec.toNat_ofNat, Nat.mod_pow_succ,
        Nat.toNat_testBit, Nat.shiftLeft_eq, Nat.mul_comm, Nat.add_comm]
    have hread : Reads (BitReader.u (n + 1)) ([v.testBit n] ++ (bits n v ++ []))
        (BitVec.cons (v.testBit n) (BitVec.ofNat n v)) :=
      (Reads.flag _).bind (ih.bind (Reads.pure _))
    rwa [hvalue, append_nil] at hread

theorem leadingZeros (n : ℕ) :
    Reads (leadingZeros : BitReader ℕ) (List.replicate n false ++ [true]) n := by
  intro rest
  induction n with
  | zero => rfl
  | succ n ih =>
    simp only [replicate_succ, cons_append, BitReader.leadingZeros]
    rw [ih]
    rfl

theorem ue (v : ℕ) : Reads ue (ueBits v) v := by
  have hpow : 2 ^ (v + 1).log2 ≤ v + 1 := Nat.log2_self_le (by omega)
  have hlt : v + 1 < 2 ^ ((v + 1).log2 + 1) := Nat.lt_log2_self
  have hread : Reads BitReader.ue
      ((List.replicate (v + 1).log2 false ++ [true]) ++ (bits (v + 1).log2 (v + 1) ++ []))
      (2 ^ (v + 1).log2 - 1 + (BitVec.ofNat (v + 1).log2 (v + 1)).toNat) :=
    (Reads.leadingZeros _).bind ((Reads.u _ _).bind (Reads.pure _))
  have hvalue : 2 ^ (v + 1).log2 - 1 + (BitVec.ofNat (v + 1).log2 (v + 1)).toNat = v := by
    rw [BitVec.toNat_ofNat, Nat.mod_eq_sub_mod hpow, Nat.mod_eq_of_lt (by omega)]
    omega
  rw [hvalue] at hread
  simpa [ueBits, expGolomb] using hread

theorem se (v : ℤ) : Reads se (seBits v) v := by
  have hread : Reads BitReader.se (seBits v ++ [])
      (if seCodeNum v % 2 = 1 then (((seCodeNum v + 1) / 2 : ℕ) : ℤ)
        else -((seCodeNum v / 2 : ℕ) : ℤ)) :=
    (Reads.ue _).bind (Reads.pure _)
  have hvalue : (if seCodeNum v % 2 = 1 then (((seCodeNum v + 1) / 2 : ℕ) : ℤ)
      else -((seCodeNum v / 2 : ℕ) : ℤ)) = v := by
    rw [seCodeNum]
    split_ifs <;> omega
  rw [hvalue, append_nil] at hread
  exact hread

theorem onlyIf_true (h : Reads r l a) :
    Reads (onlyIf true r) l (some a) := h.map some

theorem onlyIf_false (r : BitReader α) : Reads (onlyIf false r) [] none := Reads.pure none

theorem ensure_true : Reads (BitReader.ensure true) [] () := Reads.pure ()

theorem times_zero (r : BitReader α) : Reads (times 0 r) [] [] := Reads.pure []

theorem times_succ {n : ℕ} {l' : List Bool} {as : List α} (h : Reads r l a)
    (hs : Reads (times n r) l' as) : Reads (times (n + 1) r) (l ++ l') (a :: as) := by
  have hread : Reads (times (n + 1) r) (l ++ (l' ++ [])) (a :: as) :=
    h.bind (hs.bind (Reads.pure _))
  rwa [append_nil] at hread

end Reads

/-- Different words have different bits. -/
theorem bits_toNat_inj {n : ℕ} {w v : BitVec n} : bits n w.toNat = bits n v.toNat ↔ w = v := by
  refine ⟨fun h => ?_, fun h => h ▸ rfl⟩
  have hread := (Reads.u n w.toNat []).symm.trans
    ((congrArg (fun l => BitReader.u n (l ++ [])) h).trans (Reads.u n v.toNat []))
  have hvalue := (Prod.mk.inj (some.inj hread)).1
  rwa [BitVec.ofNat_toNat, BitVec.ofNat_toNat, BitVec.setWidth_eq, BitVec.setWidth_eq] at hvalue

end HardwareIntel
