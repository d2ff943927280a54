import HardwareIntel.VideoEncoder.Bitstream

/-!
# What the calls of the writer write

A call puts one value or two. They fill the words of `Packed`, of which the memory of the writer has the
bytes. `puts_encode_iff` says when these are the bits that the calls stand for.

A word is not pushed out by a single value of 32 bits, as a shift by 32 does nothing: the last value that
was put before is still there. The loop that counts the bits of a number for `ue(v)` shifts an `int`, and
does not end for a negative one. Everything else is written as it should be, in as many words as it takes.
-/

namespace HardwareIntel.VideoEncoder

open List Option

/-- The number of bits of a number. -/
def bitLength (n : ℕ) : ℕ := if n = 0 then 0 else n.log2 + 1

/-- A number has one bit more than its half. -/
theorem bitLength_div_two {n : ℕ} (hn : n ≠ 0) : bitLength n = bitLength (n / 2) + 1 := by
  rw [bitLength, bitLength, if_neg hn, Nat.log2_def]
  by_cases htwo : 2 ≤ n
  · rw [if_pos htwo, if_neg (by omega)]
  · rw [if_neg htwo, if_pos (by omega)]

variable {added : ℕ → BitVec 32} {fuel : ℕ} {val w : BitVec 32}

/-- The bits of a number that is not negative are counted. -/
theorem countBits_of_lt (hw : w.toNat < 2 ^ 31) (k : ℕ) :
    countBits fuel w k = if w.toNat < 2 ^ fuel then some (k + bitLength w.toNat) else none := by
  induction fuel generalizing w k with
  | zero =>
    have hzero : w = 0 ↔ w.toNat < 2 ^ 0 := by
      rw [Nat.pow_zero, Nat.lt_one_iff, ← BitVec.toNat_inj]
      rfl
    rw [countBits]
    by_cases h : w.toNat < 2 ^ 0
    · rw [if_pos h, if_pos (hzero.mpr h), Nat.lt_one_iff.mp h]
      rfl
    · rw [if_neg h, if_neg (mt hzero.mp h)]
  | succ fuel ih =>
    rw [countBits]
    by_cases hzero : w = 0
    · rw [if_pos hzero, hzero]
      exact (if_pos (Nat.two_pow_pos (fuel + 1))).symm
    · have hne : w.toNat ≠ 0 := fun h => hzero (BitVec.eq_of_toNat_eq h)
      have hmsb : w.msb = false := by
        rw [BitVec.msb_eq_false_iff_two_mul_lt]
        omega
      have hhalf : (w.sshiftRight 1).toNat = w.toNat / 2 := by
        rw [BitVec.sshiftRight_eq_of_msb_false hmsb, BitVec.toNat_ushiftRight, Nat.shiftRight_one]
      have hfuel : w.toNat / 2 < 2 ^ fuel ↔ w.toNat < 2 ^ (fuel + 1) := by
        omega
      rw [if_neg hzero, ih (by rw [hhalf]; omega), hhalf, bitLength_div_two hne]
      simp only [hfuel, Nat.add_assoc, Nat.add_comm 1]

/-- The bits of a negative number are never all gone. -/
theorem countBits_of_le (hw : 2 ^ 31 ≤ w.toNat) (k : ℕ) : countBits fuel w k = none := by
  have hne : ∀ {w : BitVec 32}, w.msb = true → w ≠ 0 := by
    rintro w hmsb rfl
    cases hmsb
  have hmsb : w.msb = true := by
    rw [BitVec.msb_eq_true_iff_two_mul_ge]
    omega
  clear hw
  induction fuel generalizing w k with
  | zero => rw [countBits, if_neg (hne hmsb)]
  | succ fuel ih => rw [countBits, if_neg (hne hmsb), ih _ (by rw [BitVec.msb_sshiftRight, hmsb])]

/-- The values that are put for a number that is one more than what is coded. -/
def uePieces (w : BitVec 32) : Option (List (BitVec 32 × ℕ)) :=
  if w ≠ 0 ∧ w.toNat < 2 ^ 31 then some [(0, w.toNat.log2), (w, w.toNat.log2 + 1)] else none

/-- The values that a call puts, if there are `length` bits before it. -/
def Put.pieces (length : ℕ) : Put → Option (List (BitVec 32 × ℕ))
  | ui val sizeInBits => some [(val, sizeInBits)]
  | ue val => uePieces (val + 1)
  | se val => (seNewVal val).bind fun newVal => uePieces (BitVec.ofInt 32 newVal + 1)
  | byteAligning bit =>
    if length % 8 = 0 then some []
    else some [(if bit then 1 <<< (8 - length % 8) - 1 else 0, 8 - length % 8)]

/-- A number in the range of `int` is the result. -/
theorem intResult_of_mem {z : ℤ} (hlow : -2 ^ 31 ≤ z) (hhigh : z < 2 ^ 31) : intResult z = some z :=
  if_pos ⟨hlow, hhigh⟩

/-- More turns do not change what a loop gives. -/
theorem countBits_mono {n : ℕ} {k : ℕ} (h : countBits fuel w k = some n) :
    countBits 31 w k = some n := by
  by_cases hw : w.toNat < 2 ^ 31
  · rw [countBits_of_lt hw] at h ⊢
    rw [if_pos hw]
    exact (ite_none_right_eq_some.mp h).2
  · rw [countBits_of_le (Nat.not_lt.mp hw)] at h
    cases h

/-- A result stays when the loop may take more turns. -/
theorem bitstreamPutUe_mono {bs bs' : Bitstream} (h : bitstreamPutUe added fuel bs val = some bs') :
    bitstreamPutUe added 31 bs val = some bs' := by
  obtain ⟨n, hn, h⟩ := bind_eq_some_iff.mp h
  exact bind_eq_some_iff.mpr ⟨n, countBits_mono hn, h⟩

/-- A result does not depend on how long loops may take. -/
theorem put_mono {bs bs' : Bitstream} {p : Put} (h : put added fuel bs p = some bs') :
    put added 31 bs p = some bs' := by
  cases p with
  | ui val sizeInBits => exact h
  | ue val => exact bitstreamPutUe_mono h
  | se val =>
    obtain ⟨newVal, hnew, h⟩ := bind_eq_some_iff.mp h
    exact bind_eq_some_iff.mpr ⟨newVal, hnew, bitstreamPutUe_mono h⟩
  | byteAligning bit => exact h

/-- A number in Exp-Golomb code that is written is not too large. -/
theorem lt_of_bitstreamPutUe {bs bs' : Bitstream}
    (h : bitstreamPutUe added fuel bs val = some bs') : val.toNat + 1 < 2 ^ 31 := by
  obtain ⟨n, hn, h⟩ := bind_eq_some_iff.mp h
  obtain ⟨hzero, -⟩ := ite_none_left_eq_some.mp h
  have hone : (1 : BitVec 32).toNat = 1 := rfl
  have hlt : (val + 1).toNat < 2 ^ 31 := by
    by_contra hle
    rw [countBits_of_le (Nat.not_lt.mp hle)] at hn
    cases hn
  have hne : (val + 1).toNat ≠ 0 := by
    intro hval
    rw [countBits_of_lt hlt, hval, Nat.zero_add] at hn
    exact hzero (some.inj (ite_none_right_eq_some.mp hn).2).symm
  rw [BitVec.toNat_add, hone] at hlt hne
  omega

/-- A code that is written is of a value below the limit. -/
theorem lt_of_puts_ue {ps : List Put} (hval : Put.ue val ∈ ps) :
    ∀ {bs bs' : Bitstream}, puts added fuel bs ps = some bs' → val.toNat + 1 < 2 ^ 31 := by
  induction ps with
  | nil => cases hval
  | cons p ps ih =>
    intro bs bs' h
    obtain ⟨bs₁, hp, h⟩ := bind_eq_some_iff.mp h
    obtain rfl | hmem := mem_cons.mp hval
    · exact lt_of_bitstreamPutUe hp
    · exact ih hmem h

/-- The same for a sequence of calls. -/
theorem puts_mono {ps : List Put} :
    ∀ {bs bs' : Bitstream}, puts added fuel bs ps = some bs' → puts added 31 bs ps = some bs' := by
  induction ps with
  | nil => exact fun h => h
  | cons p ps ih =>
    intro bs bs' h
    obtain ⟨bs₁, hp, h⟩ := bind_eq_some_iff.mp h
    exact bind_eq_some_iff.mpr ⟨bs₁, put_mono hp, ih h⟩

namespace Put

/-- The bits that a call leaves, if there are `length` bits before it and the last value was `last`. -/
def stored (length : ℕ) (last : BitVec 32) : Put → List Bool
  | ui val sizeInBits =>
    if sizeInBits = 32 ∧ length % 32 = 0 then bits 32 (last ||| val).toNat
    else bits sizeInBits val.toNat
  | p => p.code length

/-- The call comes to an end. -/
def Ends : Put → Prop
  | ui _ _ => True
  | ue val => val.toNat + 1 < 2 ^ 31
  | se val => -2 ^ 30 < val ∧ val < 2 ^ 30
  | byteAligning _ => True

instance : ∀ p : Put, Decidable p.Ends
  | ui _ _ => isTrue trivial
  | ue val => inferInstanceAs (Decidable (val.toNat + 1 < 2 ^ 31))
  | se _ => instDecidableAnd
  | byteAligning _ => isTrue trivial

/-- A call writes at most 65 bits. -/
theorem Valid.length_code_le {p : Put} (h : p.Valid) (length : ℕ) : (p.code length).length ≤ 65 := by
  cases p with
  | ui val sizeInBits =>
    rw [code, length_bits]
    exact h.2.1.trans (by decide)
  | ue val => exact length_ueBits_le val.isLt
  | se val =>
    obtain ⟨hlow, hhigh⟩ := h
    refine length_ueBits_le ?_
    rw [seCodeNum]
    split_ifs <;> omega
  | byteAligning bit =>
    rw [code, length_replicate]
    omega

/-- As many bits are stored as the code has. -/
theorem length_stored (length : ℕ) (last : BitVec 32) (p : Put) :
    (p.stored length last).length = (p.code length).length := by
  cases p with
  | ui val sizeInBits =>
    rw [stored, code, length_bits]
    split_ifs with h
    · rw [length_bits, h.1]
    · rw [length_bits]
  | _ => rfl

/-- What a call needs is to end and to leave its bits. -/
theorem sound_iff (length : ℕ) (last : BitVec 32) (p : Put) :
    p.Sound length last ↔ p.Ends ∧ p.stored length last = p.code length := by
  cases p with
  | ui val sizeInBits =>
    rw [Sound, stored, code, Ends, true_and]
    split_ifs with h
    · obtain ⟨rfl, hlength⟩ := h
      rw [bits_toNat_inj]
      exact ⟨fun h => h rfl hlength, fun h _ _ => h⟩
    · exact iff_of_true (fun hsize hlength => absurd ⟨hsize, hlength⟩ h) rfl
  | ue val => exact (and_iff_left rfl).symm
  | se val => exact (and_iff_left rfl).symm
  | byteAligning bit => exact (and_iff_left rfl).symm

end Put

/-- The bits that calls leave. -/
def storedAll : ℕ → BitVec 32 → List Put → List Bool
  | _, _, [] => []
  | length, last, p :: ps =>
    p.stored length last ++ storedAll (length + (p.code length).length) (p.last length last) ps

/-- The same for a sequence of calls. -/
theorem length_storedAll (ps : List Put) : ∀ (length : ℕ) (last : BitVec 32),
    (storedAll length last ps).length = (codes length ps).length := by
  induction ps with
  | nil => exact fun _ _ => rfl
  | cons p ps ih =>
    intro length last
    rw [storedAll, codes, length_append, length_append, p.length_stored, ih]

/-- Few calls write few bits. -/
theorem length_codes_le {ps : List Put} (hps : ∀ p ∈ ps, p.Valid) :
    ∀ length : ℕ, (codes length ps).length ≤ 65 * ps.length := by
  induction ps with
  | nil => exact fun _ => Nat.le_refl 0
  | cons p ps ih =>
    intro length
    obtain ⟨hp, hps⟩ := forall_mem_cons.mp hps
    have hrest := ih hps (length + (p.code length).length)
    have hfirst := hp.length_code_le length
    rw [codes, length_append, length_cons]
    omega

/-- All calls are sound if they end and store their codes. -/
theorem allSound_iff (ps : List Put) : ∀ (length : ℕ) (last : BitVec 32),
    AllSound length last ps ↔ (∀ p ∈ ps, p.Ends) ∧ storedAll length last ps = codes length ps := by
  induction ps with
  | nil => exact fun _ _ => iff_of_true trivial ⟨forall_mem_nil _, rfl⟩
  | cons p ps ih =>
    intro length last
    rw [AllSound, p.sound_iff, ih, storedAll, codes, forall_mem_cons]
    constructor
    · rintro ⟨⟨hends, hp⟩, hall, hps⟩
      exact ⟨⟨hends, hall⟩, by rw [hp, hps]⟩
    · rintro ⟨⟨hends, hall⟩, heq⟩
      obtain ⟨hp, hps⟩ := append_inj heq (p.length_stored length last)
      exact ⟨⟨hends, hp⟩, hall, hps⟩

namespace Packed

def put (t : Packed) (p : Put) : Option Packed :=
  (p.pieces t.length).bind fun pieces => pieces.foldlM (fun t piece => t.putUi piece.1 piece.2) t

def puts (t : Packed) (ps : List Put) : Option Packed := ps.foldlM put t

/-- A writer has a result if the words have one, and its memory holds them. -/
def Follows (b : Option Bitstream) : Option Packed → Prop
  | none => b = none
  | some t => ∃ bs, b = some bs ∧ t.Held bs

/-- Two programs that follow each other, part by part. -/
theorem Follows.bind {a : Option Packed} {b : Option Bitstream} (h : Follows b a)
    {f : Packed → Option Packed} {g : Bitstream → Option Bitstream}
    (hfg : ∀ t bs, a = some t → t.Held bs → Follows (g bs) (f t)) : Follows (b.bind g) (a.bind f) := by
  cases a with
  | none =>
    obtain rfl := h
    rfl
  | some t =>
    obtain ⟨bs, rfl, hheld⟩ := h
    exact hfg t bs rfl hheld

variable {t : Packed} {bs : Bitstream} (added : ℕ → BitVec 32)

variable {last val : BitVec 32} {sizeInBits : ℕ}

/-- Packed bits follow the stream when a value is put. -/
theorem Held.follows_putUi (h : t.Held bs) (val : BitVec 32) (hsize : sizeInBits ≤ 32) :
    Follows (bitstreamPutUi added bs val sizeInBits) (t.putUi val sizeInBits) := by
  have hput := h.putUi added val sizeInBits hsize
  cases ht : t.putUi val sizeInBits with
  | none =>
    rw [ht] at hput
    exact hput
  | some t' =>
    rw [ht] at hput
    exact hput

/-- They follow it when a code of Golomb is put. -/
theorem Held.follows_ue (h : t.Held bs) (val : BitVec 32) :
    Follows (bitstreamPutUe added 31 bs val) ((uePieces (val + 1)).bind fun pieces =>
      pieces.foldlM (fun t piece => t.putUi piece.1 piece.2) t) := by
  rw [bitstreamPutUe, uePieces]
  generalize val + 1 = w
  by_cases hw : w.toNat < 2 ^ 31
  · rw [countBits_of_lt hw, if_pos hw, Nat.zero_add, bitLength]
    by_cases hzero : w = 0
    · have hpieces : ¬ (w ≠ 0 ∧ w.toNat < 2 ^ 31) := fun h => h.1 hzero
      have hcount : w.toNat = 0 := by rw [hzero]; rfl
      rw [if_neg hpieces, if_pos hcount]
      rfl
    · have hne : w.toNat ≠ 0 := fun h => hzero (BitVec.eq_of_toNat_eq h)
      have hlog : w.toNat.log2 < 31 := (Nat.log2_lt hne).mpr hw
      have hpieces : w ≠ 0 ∧ w.toNat < 2 ^ 31 := ⟨hzero, hw⟩
      rw [if_pos hpieces, if_neg hne]
      simp only [Option.bind_eq_bind, Option.bind_some, Nat.succ_ne_zero, if_false,
        Nat.add_sub_cancel, List.foldlM_cons, List.foldlM_nil, Option.pure_def, Option.bind_fun_some]
      refine (h.follows_putUi added 0 (by omega)).bind fun t₁ bs₁ _ h₁ => ?_
      exact h₁.follows_putUi added w (by omega)
  · have hpieces : ¬ (w ≠ 0 ∧ w.toNat < 2 ^ 31) := fun h => hw h.2
    rw [countBits_of_le (Nat.not_lt.mp hw), if_neg hpieces]
    rfl

/-- They follow it when any call is made. -/
theorem Held.follows_put (h : t.Held bs) {p : Put} (hp : p.Short) :
    Follows (VideoEncoder.put added 31 bs p) (t.put p) := by
  cases p with
  | ui val sizeInBits =>
    have hput : t.put (.ui val sizeInBits) = t.putUi val sizeInBits := by
      simp [put, Put.pieces]
    rw [hput]
    exact h.follows_putUi added val hp
  | ue val => exact h.follows_ue added val
  | se val =>
    rw [put, Put.pieces, Option.bind_assoc]
    change Follows ((seNewVal val).bind _) _
    cases seNewVal val with
    | none => rfl
    | some newVal => exact h.follows_ue added _
  | byteAligning bit =>
    have hmod : bs.bitOffset % 8 = t.length % 8 := by rw [h.bitOffset]
    rw [put, Put.pieces]
    change Follows (bitstreamByteAligning added bs bit) _
    rw [bitstreamByteAligning, hmod]
    by_cases hzero : t.length % 8 = 0
    · rw [if_pos hzero, if_pos hzero]
      exact ⟨bs, rfl, h⟩
    · rw [if_neg hzero, if_neg hzero, Option.bind_some, List.foldlM_cons]
      simp only [List.foldlM_nil, Option.pure_def, Option.bind_eq_bind, Option.bind_fun_some]
      exact h.follows_putUi added _ (by omega)

/-- They follow it along a sequence of calls. -/
theorem Held.follows_puts {ps : List Put} (hps : ∀ p ∈ ps, p.Short) :
    ∀ {t : Packed} {bs : Bitstream}, t.Held bs →
      Follows (VideoEncoder.puts added 31 bs ps) (t.puts ps) := by
  induction ps with
  | nil => exact fun {t bs} h => ⟨bs, rfl, h⟩
  | cons p ps ih =>
    intro t bs h
    obtain ⟨hp, hps⟩ := forall_mem_cons.mp hps
    exact (h.follows_put added hp).bind fun t₁ bs₁ _ h₁ => ih hps h₁

/-! ### What is written -/

/-- The bits behind the ones that have been written, for a value that fits. -/
def chunk (t : Packed) (val : BitVec 32) (sizeInBits : ℕ) : List Bool :=
  if sizeInBits = 32 ∧ t.count = 0 then bits 32 (t.word ||| val).toNat else bits sizeInBits val.toNat

/-- A value has its size. -/
theorem length_chunk (t : Packed) (val : BitVec 32) (sizeInBits : ℕ) :
    (t.chunk val sizeInBits).length = sizeInBits := by
  rw [chunk]
  split_ifs with h
  · rw [length_bits, h.1]
  · rw [length_bits]

/-- A value that does not fill a word, by its bits. -/
theorem chunk_of_lt (t : Packed) (val : BitVec 32) (h : sizeInBits < 32) :
    t.chunk val sizeInBits = bits sizeInBits val.toNat := by
  rw [chunk, if_neg (fun hsize => absurd hsize.1 (Nat.ne_of_lt h))]

/-- The word that is being filled has `last` in it if nothing of it is in use yet. -/
structure Reg (t : Packed) (last : BitVec 32) : Prop where
  count_lt : t.count < 32
  word : t.count = 0 → t.word = last
  inInt : t.length < 2 ^ 31

/-- The length is that of what is written. -/
theorem length_written (t : Packed) : t.written.length = t.length := by
  have hfull : ∀ ws : List (BitVec 32),
      (ws.flatMap fun w => bits 32 w.toNat).length = 32 * ws.length := by
    intro ws
    induction ws with
    | nil => rfl
    | cons w ws ih =>
      rw [flatMap_cons, length_append, ih, length_bits, length_cons]
      omega
  rw [written, length_append, hfull, length_bits, length]

/-- A value does not fit behind the limit of `int`. -/
theorem putUi_of_le {t : Packed} (hsize : 0 < sizeInBits) (val : BitVec 32)
    (h : 2 ^ 31 ≤ t.length + sizeInBits) : t.putUi val sizeInBits = none := by
  rw [putUi, if_neg (Nat.ne_of_gt hsize), if_pos h]

/-- A value that fits is put behind the ones before it. -/
theorem Reg.putUi (ht : t.Reg last) (hpos : 0 < sizeInBits) (hsize : sizeInBits ≤ 32)
    (hval : val.toNat < 2 ^ sizeInBits) (h : t.length + sizeInBits < 2 ^ 31) :
    ∃ t', t.putUi val sizeInBits = some t' ∧ t'.Reg val ∧
      t'.written = t.written ++ t.chunk val sizeInBits := by
  have hcount := ht.count_lt
  rw [Packed.putUi, if_neg (Nat.ne_of_gt hpos), if_neg (Nat.not_le.mpr h)]
  by_cases hfits : t.count + sizeInBits < 32
  · rw [if_pos hfits]
    refine ⟨_, rfl, ⟨hfits, fun hzero => ?_, ?_⟩, ?_⟩
    · dsimp only at hzero
      omega
    · rw [length] at h ⊢
      dsimp only
      omega
    · rw [written, written, bits_shift_or (by omega) (by omega) _ hval, chunk_of_lt t val (by omega),
        append_assoc]
  · rw [if_neg hfits]
    generalize hk : t.count + sizeInBits - 32 = k
    refine ⟨_, rfl, ⟨?_, fun _ => rfl, ?_⟩, ?_⟩
    · dsimp only
      omega
    · rw [length] at h ⊢
      rw [length_append, length_singleton]
      dsimp only
      omega
    rw [written, written, flatMap_append, flatMap_singleton, append_assoc, append_assoc]
    congr 1
    by_cases hzero : t.count = 0
    · have hsize' : sizeInBits = 32 := by omega
      have hshift : shiftWord t.word (32 - 0) ||| val >>> 0 = t.word ||| val := by
        exact congrArg (· ||| val) (BitVec.shiftLeft_zero t.word)
      obtain rfl : k = 0 := by omega
      rw [chunk, if_pos ⟨hsize', hzero⟩, hzero, hshift, bits_zero, bits_zero, append_nil,
        nil_append]
    · have hchunk : t.chunk val sizeInBits = bits sizeInBits val.toNat := by
        rw [chunk, if_neg (fun h => hzero h.2)]
      have hsplit : sizeInBits = (32 - t.count) + k := by omega
      have hhigh : (val >>> k).toNat < 2 ^ (32 - t.count) := by
        rw [BitVec.toNat_ushiftRight, Nat.shiftRight_eq_div_pow]
        apply Nat.div_lt_of_lt_mul
        rwa [← Nat.pow_add, Nat.add_comm k, ← hsplit]
      have hword := @bits_shift_or t.count (32 - t.count) (by omega) (by omega) t.word _ hhigh
      rw [Nat.add_sub_of_le (le_of_lt hcount)] at hword
      rw [hchunk, hword, BitVec.toNat_ushiftRight, Nat.shiftRight_eq_div_pow, append_assoc,
        ← bits_add, ← hsplit]

/-- How a call may come out: it has no result, or it leaves its bits. -/
def Outcome (t : Packed) (last : BitVec 32) (p : Put) : Prop :=
  (t.put p = none ∧ ¬ (p.Ends ∧ t.length + (p.code t.length).length < 2 ^ 31)) ∨
  ∃ t', t.put p = some t' ∧ t'.Reg (p.last t.length last) ∧
    t'.written = t.written ++ p.stored t.length last ∧
    p.Ends ∧ t.length + (p.code t.length).length < 2 ^ 31

/-- How much of the word is in use, by the length. -/
theorem Reg.length_mod {t : Packed} (ht : t.Reg last) : t.length % 32 = t.count := by
  have hcount := ht.count_lt
  rw [length]
  omega

/-- The length after bits have been written. -/
theorem length_of_written {t t' : Packed} {l : List Bool} (h : t'.written = t.written ++ l) :
    t'.length = t.length + l.length := by
  rw [← length_written, h, length_append, length_written]

/-- One piece is put as it is. -/
theorem foldlM_singleton (t : Packed) (piece : BitVec 32 × ℕ) :
    [piece].foldlM (fun t piece => t.putUi piece.1 piece.2) t = t.putUi piece.1 piece.2 := by
  simp

/-- How a value comes out. -/
theorem outcome_ui {t : Packed} (ht : t.Reg last) (hvalid : (Put.ui val sizeInBits).Valid) :
    t.Outcome last (.ui val sizeInBits) := by
  obtain ⟨hpos, hsize, hval⟩ := hvalid
  have hput : t.put (.ui val sizeInBits) = t.putUi val sizeInBits := foldlM_singleton t _
  have hcode : ((Put.ui val sizeInBits).code t.length).length = sizeInBits := length_bits _ _
  rw [Outcome, hput, hcode]
  by_cases hint : 2 ^ 31 ≤ t.length + sizeInBits
  · exact Or.inl ⟨putUi_of_le hpos val hint, fun h => absurd h.2 (Nat.not_lt.mpr hint)⟩
  · have hlt : t.length + sizeInBits < 2 ^ 31 := Nat.not_le.mp hint
    obtain ⟨t', hput', hreg, hwritten⟩ := ht.putUi hpos hsize hval hlt
    have hstored : (Put.ui val sizeInBits).stored t.length last = t.chunk val sizeInBits := by
      rw [Put.stored, chunk, ht.length_mod]
      split_ifs with hword
      · rw [ht.word hword.2]
      · rfl
    exact Or.inr ⟨t', hput', hreg, hstored ▸ hwritten, trivial, hlt⟩

/-- A value of fewer than 32 bits, or of none. -/
theorem Reg.putUi_of_lt {t : Packed} (ht : t.Reg last) (hsize : sizeInBits < 32)
    (hval : val.toNat < 2 ^ sizeInBits) (h : t.length + sizeInBits < 2 ^ 31) :
    ∃ t' last', t.putUi val sizeInBits = some t' ∧ t'.Reg last' ∧
      t'.written = t.written ++ bits sizeInBits val.toNat := by
  by_cases hzero : sizeInBits = 0
  · refine ⟨t, last, if_pos hzero, ht, ?_⟩
    rw [hzero, bits_zero, append_nil]
  · obtain ⟨t', hput, hreg, hwritten⟩ :=
      ht.putUi (Nat.pos_of_ne_zero hzero) (le_of_lt hsize) hval h
    exact ⟨t', val, hput, hreg, chunk_of_lt t val hsize ▸ hwritten⟩

/-- The values of an Exp-Golomb code are put one behind the other. -/
theorem Reg.putPieces {t : Packed} (ht : t.Reg last) {w : BitVec 32} (hw : w ≠ 0)
    (hlt : w.toNat < 2 ^ 31) :
    match [(0, w.toNat.log2), (w, w.toNat.log2 + 1)].foldlM
      (fun (t : Packed) (piece : BitVec 32 × ℕ) => t.putUi piece.1 piece.2) t with
    | none => 2 ^ 31 ≤ t.length + (expGolomb w.toNat).length
    | some t' => t.length + (expGolomb w.toNat).length < 2 ^ 31 ∧ t'.Reg w ∧
      t'.written = t.written ++ expGolomb w.toNat := by
  have hne : w.toNat ≠ 0 := fun h => hw (BitVec.eq_of_toNat_eq h)
  have hlog : w.toNat.log2 < 31 := (Nat.log2_lt hne).mpr hlt
  have hfits : w.toNat < 2 ^ (w.toNat.log2 + 1) := Nat.lt_log2_self
  rw [length_expGolomb, expGolomb_eq hne]
  generalize w.toNat.log2 = n at hlog hfits
  rw [foldlM_cons]
  by_cases hzeros : t.length + n < 2 ^ 31
  · have hzero : (0#32).toNat < 2 ^ n := Nat.two_pow_pos n
    obtain ⟨t₁, last₁, hput₁, ht₁, hwritten₁⟩ := ht.putUi_of_lt (by omega) hzero hzeros
    have hlength₁ : t₁.length = t.length + n := by
      rw [length_of_written hwritten₁, length_bits]
    rw [show t.putUi 0 n = some t₁ from hput₁, bind_eq_bind, bind_some, foldlM_singleton]
    by_cases hint : t₁.length + (n + 1) < 2 ^ 31
    · obtain ⟨t₂, hput₂, ht₂, hwritten₂⟩ := ht₁.putUi (by omega) (by omega) hfits hint
      rw [hput₂]
      refine ⟨by omega, ht₂, ?_⟩
      rw [hwritten₂, hwritten₁, chunk_of_lt t₁ w (by omega), append_assoc]
      rfl
    · rw [putUi_of_le (by omega) w (Nat.not_lt.mp hint)]
      omega
  · have hput : t.putUi 0 n = none ∨ t.putUi 0 n = some t ∧ n = 0 := by
      by_cases hzero : n = 0
      · exact Or.inr ⟨if_pos hzero, hzero⟩
      · exact Or.inl (putUi_of_le (Nat.pos_of_ne_zero hzero) 0 (Nat.not_lt.mp hzeros))
    obtain hnone | ⟨hsome, rfl⟩ := hput
    · rw [hnone]
      change 2 ^ 31 ≤ t.length + (2 * n + 1)
      omega
    · rw [hsome, bind_eq_bind, bind_some, foldlM_singleton, putUi_of_le (by omega) w (by omega)]
      omega

/-- A number in Exp-Golomb code, if what is put is one more. -/
theorem outcome_pieces {t : Packed} (ht : t.Reg last) {p : Put} {w : BitVec 32} (hw : w ≠ 0)
    (hpieces : p.pieces t.length = uePieces w) (hlast : p.last t.length last = w)
    (hcode : w.toNat < 2 ^ 31 → p.code t.length = expGolomb w.toNat)
    (hstored : p.stored t.length last = p.code t.length) (hends : p.Ends ↔ w.toNat < 2 ^ 31) :
    t.Outcome last p := by
  rw [Outcome, put, hpieces, uePieces, hends, hlast, hstored]
  by_cases hlt : w.toNat < 2 ^ 31
  · have hput := ht.putPieces hw hlt
    have hboth : w ≠ 0 ∧ w.toNat < 2 ^ 31 := ⟨hw, hlt⟩
    rw [hcode hlt, if_pos hboth, bind_some]
    cases hresult : [(0, w.toNat.log2), (w, w.toNat.log2 + 1)].foldlM
        (fun (t : Packed) (piece : BitVec 32 × ℕ) => t.putUi piece.1 piece.2) t with
    | none =>
      rw [hresult] at hput
      exact Or.inl ⟨rfl, fun h => absurd h.2 (Nat.not_lt.mpr hput)⟩
    | some t' =>
      rw [hresult] at hput
      obtain ⟨hint, hreg, hwritten⟩ := hput
      exact Or.inr ⟨t', rfl, hreg, hwritten, hlt, hint⟩
  · have hnot : ¬ (w ≠ 0 ∧ w.toNat < 2 ^ 31) := fun h => hlt h.2
    rw [if_neg hnot]
    exact Or.inl ⟨rfl, fun h => hlt h.1⟩

/-- How an unsigned code comes out. -/
theorem outcome_ue {t : Packed} (ht : t.Reg last) (hvalid : (Put.ue val).Valid) :
    t.Outcome last (.ue val) := by
  have hval : val.toNat < 2 ^ 32 - 1 := hvalid
  have hone : (1 : BitVec 32).toNat = 1 := rfl
  have hadd : (val + 1).toNat = val.toNat + 1 := by
    exact Nat.mod_eq_of_lt (by omega)
  have hne : val + 1 ≠ 0 := by
    intro hzero
    rw [hzero] at hadd
    exact absurd hadd (by simp)
  refine outcome_pieces ht hne rfl rfl (fun _ => ?_) rfl ?_
  · rw [Put.code, ueBits, hadd]
  · rw [Put.Ends, hadd]

/-- The number that a signed value is coded as, if no `int` overflows. -/
theorem seNewVal_eq (val : ℤ) :
    seNewVal val = if -2 ^ 30 < val ∧ val < 2 ^ 30 then some (seCodeNum val : ℤ) else none := by
  rw [seNewVal, seCodeNum]
  by_cases hval : -2 ^ 30 < val ∧ val < 2 ^ 30
  · rw [if_pos hval]
    by_cases hpos : 0 < val
    · rw [if_neg (not_le.mpr hpos), if_pos hpos, intResult_of_mem (by omega) (by omega),
        bind_some, intResult_of_mem (by omega) (by omega), Int.toNat_of_nonneg (by omega)]
    · rw [if_pos (not_lt.mp hpos), if_neg hpos, intResult_of_mem (by omega) (by omega),
        Int.toNat_of_nonneg (by omega)]
  · rw [if_neg hval]
    by_cases hpos : 0 < val
    · have hint : ¬ (-2 ^ 31 ≤ 2 * val ∧ 2 * val < 2 ^ 31) := by omega
      rw [if_neg (not_le.mpr hpos), intResult, if_neg hint, bind_none]
    · have hint : ¬ (-2 ^ 31 ≤ -2 * val ∧ -2 * val < 2 ^ 31) := by omega
      rw [if_pos (not_lt.mp hpos), intResult, if_neg hint]

/-- How a signed code comes out. -/
theorem outcome_se {t : Packed} (ht : t.Reg last) (val : ℤ) : t.Outcome last (.se val) := by
  by_cases hval : -2 ^ 30 < val ∧ val < 2 ^ 30
  · have hcode : seCodeNum val + 1 < 2 ^ 31 := by
      rw [seCodeNum]
      split_ifs <;> omega
    have hw : (BitVec.ofNat 32 (seCodeNum val + 1)).toNat = seCodeNum val + 1 := by
      exact Nat.mod_eq_of_lt (by omega)
    have hne : BitVec.ofNat 32 (seCodeNum val + 1) ≠ 0 := by
      intro hzero
      rw [hzero] at hw
      exact absurd hw (by simp)
    refine outcome_pieces ht hne ?_ rfl (fun _ => ?_) rfl ?_
    · rw [Put.pieces, seNewVal_eq, if_pos hval, bind_some, BitVec.ofInt_natCast, BitVec.ofNat_add]
      rfl
    · rw [Put.code, seBits, ueBits, hw]
    · rw [hw]
      exact iff_of_true hval hcode
  · refine Or.inl ⟨?_, fun h => hval h.1⟩
    rw [put, Put.pieces, seNewVal_eq, if_neg hval]
    rfl

/-- How an alignment comes out. -/
theorem outcome_byteAligning {t : Packed} (ht : t.Reg last) (bit : Bool) :
    t.Outcome last (.byteAligning bit) := by
  have hstored : (Put.byteAligning bit).stored t.length last =
      List.replicate ((8 - t.length % 8) % 8) bit := rfl
  rw [Outcome, put, Put.pieces, hstored, Put.code, Put.last, length_replicate]
  by_cases hzero : t.length % 8 = 0
  · rw [if_pos hzero, if_pos hzero, hzero]
    exact Or.inr ⟨t, rfl, ht, (append_nil _).symm, trivial, ht.inInt⟩
  · have hsize : (8 - t.length % 8) % 8 = 8 - t.length % 8 := by omega
    rw [if_neg hzero, if_neg hzero, bind_some, foldlM_singleton, hsize]
    have hpos : 0 < 8 - t.length % 8 := by omega
    have hlt : 8 - t.length % 8 < 8 := by omega
    generalize 8 - t.length % 8 = n at hpos hlt
    have hones : ∀ n < 8, (1 <<< n - 1 : BitVec 32).toNat = 2 ^ n - 1 := by decide
    have hval : (if bit then 1 <<< n - 1 else 0 : BitVec 32).toNat = if bit then 2 ^ n - 1 else 0 := by
      cases bit with
      | false => rfl
      | true => exact hones n hlt
    have hbits : bits n (if bit then 1 <<< n - 1 else 0 : BitVec 32).toNat = List.replicate n bit := by
      rw [hval]
      cases bit with
      | false => exact bits_zero_right n
      | true => exact bits_ones n
    by_cases hint : 2 ^ 31 ≤ t.length + n
    · exact Or.inl ⟨putUi_of_le hpos _ hint, fun h => absurd h.2 (Nat.not_lt.mpr hint)⟩
    · have hfits : (if bit then 1 <<< n - 1 else 0 : BitVec 32).toNat < 2 ^ n := by
        rw [hval]
        have hone := Nat.two_pow_pos n
        split_ifs <;> omega
      obtain ⟨t', hput, hreg, hwritten⟩ :=
        ht.putUi hpos (by omega) hfits (Nat.not_le.mp hint)
      rw [chunk_of_lt t _ (by omega), hbits] at hwritten
      exact Or.inr ⟨t', hput, hreg, hwritten, trivial, Nat.not_le.mp hint⟩

/-- Every call that is valid comes out so. -/
theorem Reg.outcome {t : Packed} (ht : t.Reg last) {p : Put} (hp : p.Valid) : t.Outcome last p := by
  cases p with
  | ui val sizeInBits => exact outcome_ui ht hp
  | ue val => exact outcome_ue ht hp
  | se val => exact outcome_se ht val
  | byteAligning bit => exact outcome_byteAligning ht bit

/-- Calls have no result, or they leave their bits. -/
theorem Reg.puts {ps : List Put} (hps : ∀ p ∈ ps, p.Valid) :
    ∀ {t : Packed} {last : BitVec 32}, t.Reg last →
      (t.puts ps = none ∧ ¬ ((∀ p ∈ ps, p.Ends) ∧ t.length + (codes t.length ps).length < 2 ^ 31)) ∨
      ∃ t', t.puts ps = some t' ∧ t'.written = t.written ++ storedAll t.length last ps ∧
        (∀ p ∈ ps, p.Ends) ∧ t.length + (codes t.length ps).length < 2 ^ 31 := by
  induction ps with
  | nil =>
    intro t last ht
    exact Or.inr ⟨t, rfl, (append_nil _).symm, forall_mem_nil _, ht.inInt⟩
  | cons p ps ih =>
    intro t last ht
    obtain ⟨hp, hps⟩ := forall_mem_cons.mp hps
    have hcons : t.puts (p :: ps) = (t.put p).bind fun t' => t'.puts ps := rfl
    rw [hcons, codes, length_append, forall_mem_cons, storedAll]
    obtain ⟨hnone, hnot⟩ | ⟨t₁, hput, hreg, hwritten, hends, hint⟩ := ht.outcome hp
    · rw [hnone]
      exact Or.inl ⟨rfl, fun h => hnot ⟨h.1.1, by omega⟩⟩
    · have hlength : t₁.length = t.length + (p.code t.length).length := by
        rw [length_of_written hwritten, p.length_stored]
      rw [hput, bind_some, ← Nat.add_assoc, ← hlength]
      obtain ⟨hnone, hnot⟩ | ⟨t', hputs, hwritten', hends', hint'⟩ := ih hps hreg
      · exact Or.inl ⟨hnone, fun h => hnot ⟨h.1.2, h.2⟩⟩
      · refine Or.inr ⟨t', hputs, ?_, ⟨hends, hends'⟩, hint'⟩
        rw [hwritten', hwritten, append_assoc]

/-- A new stream is in order. -/
theorem reg_start : (⟨[], 0, 0⟩ : Packed).Reg 0 := ⟨by decide, fun _ => rfl, by decide⟩

end Packed

/-- The zeros that fill the last byte. -/
def padding (length : ℕ) : List Bool := List.replicate ((8 - length % 8) % 8) false

/-- The calls after `bitstream_start` end, and after `bitstream_end` the bytes are the bits of all values
one behind the other. -/
def Encodes (added : ℕ → BitVec 32) (ps : List Put) : Prop :=
  ∃ fuel bs, puts added fuel bitstreamStart ps = some bs ∧ bs.bitOffset = (codes 0 ps).length ∧
    headerBits (bitstreamEnd bs) = codes 0 ps ++ padding (codes 0 ps).length

/-- Valid calls have no result, or the bytes are the bits that they leave. -/
theorem puts_stored (added : ℕ → BitVec 32) {ps : List Put} (hps : ∀ p ∈ ps, p.Valid) :
    ((∀ fuel, puts added fuel bitstreamStart ps = none) ∧
      ¬ ((∀ p ∈ ps, p.Ends) ∧ (codes 0 ps).length < 2 ^ 31)) ∨
    ∃ bs, (∀ {fuel bs'}, puts added fuel bitstreamStart ps = some bs' → bs' = bs) ∧
      puts added 31 bitstreamStart ps = some bs ∧ bs.bitOffset = (codes 0 ps).length ∧
      headerBits (bitstreamEnd bs) = storedAll 0 0 ps ++ padding (codes 0 ps).length ∧
      (∀ p ∈ ps, p.Ends) ∧ (codes 0 ps).length < 2 ^ 31 := by
  have hlength : (⟨[], 0, 0⟩ : Packed).length = 0 := rfl
  have hempty : (⟨[], 0, 0⟩ : Packed).written = [] := rfl
  have hfollows := Packed.Held.follows_puts added (fun p hp => (hps p hp).short) Packed.held_start
  have houtcome := Packed.Reg.puts hps Packed.reg_start
  rw [hlength, hempty, Nat.zero_add, nil_append] at houtcome
  obtain ⟨hnone, hnot⟩ | ⟨t, hputs, hwritten, hends, hint⟩ := houtcome
  · rw [hnone] at hfollows
    refine Or.inl ⟨fun fuel => ?_, hnot⟩
    cases hfuel : puts added fuel bitstreamStart ps with
    | none => rfl
    | some bs => exact nomatch (puts_mono hfuel).symm.trans hfollows
  · rw [hputs] at hfollows
    obtain ⟨bs, hbs, hheld⟩ := hfollows
    have hbits : t.length = (codes 0 ps).length := by
      rw [← t.length_written, hwritten, length_storedAll]
    refine Or.inr ⟨bs, fun h => some.inj ((puts_mono h).symm.trans hbs), hbs, ?_, ?_, hends, hint⟩
    · rw [hheld.bitOffset, hbits]
    · rw [hheld.headerBits_end, hwritten, hbits, padding]

/-- The bytes are right just if no number with an Exp-Golomb code is too large, no value of 32 bits in a
word of its own lacks a bit of the value before it, and the bits can be counted. -/
theorem puts_encode_iff (added : ℕ → BitVec 32) (ps : List Put) (hps : ∀ p ∈ ps, p.Valid) :
    Encodes added ps ↔ AllSound 0 0 ps ∧ (codes 0 ps).length < 2 ^ 31 := by
  rw [allSound_iff]
  obtain ⟨hnone, hnot⟩ | ⟨bs, hunique, hputs, hoffset, hbits, hends, hint⟩ := puts_stored added hps
  · refine iff_of_false ?_ fun h => hnot ⟨h.1.1, h.2⟩
    rintro ⟨fuel, bs, hputs, -⟩
    rw [hnone fuel] at hputs
    cases hputs
  · constructor
    · rintro ⟨fuel, bs', hputs', -, hbits'⟩
      rw [hunique hputs'] at hbits'
      exact ⟨⟨hends, append_cancel_right (hbits.symm.trans hbits')⟩, hint⟩
    · rintro ⟨⟨-, hcodes⟩, -⟩
      exact ⟨31, bs, hputs, hoffset, by rw [hbits, hcodes]⟩

/-- Values of all kinds, and one of 32 bits that is in two words. -/
theorem puts_encode_all : Encodes (fun _ => 0) [.ui 5 3, .ue 7, .se (-3), .byteAligning true,
    .ui 0xFFFFFFFF 32, .ui 0 1, .byteAligning false] :=
  (puts_encode_iff (fun _ => 0) _ (by decide)).mpr (by decide)

/-- The bits of a word that was written before are still in the next one, if a single value fills it; and
for a large number the loop of `bitstream_put_ue` does not end. -/
theorem word_not_pushed_out :
    (¬ ∀ (added : ℕ → BitVec 32) (ps : List Put), (∀ p ∈ ps, p.Valid) → Encodes added ps) ∧
    ∀ fuel, bitstreamPutUe (fun _ => 0) fuel bitstreamStart 0x7FFFFFFF = none := by
  constructor
  · intro h
    obtain ⟨fuel, bs, hputs, -, hbits⟩ := h (fun _ => 0) [.ui 15 32, .ui 900 32] (by decide)
    cases hputs
    exact absurd hbits (by decide)
  · intro fuel
    have hcount : countBits fuel (0x7FFFFFFF + 1) 0 = none := countBits_of_le (by decide) 0
    rw [bitstreamPutUe, hcount]
    rfl

end HardwareIntel.VideoEncoder
