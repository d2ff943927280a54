import Mathlib.Data.List.Basic
import Mathlib.Tactic.Linarith

/-!
# Network-order words in byte lists

Thirty-two bit words in network order, and readers that take their value from the front of a byte
list and return the rest. A reader fails when the bytes are not there. The lemmas say that a reader
undoes the corresponding writer whatever bytes follow, so that the readers of a message compose.
-/

namespace HardwareIntel

open List

/-! ## Words -/

/-- The four bytes of a word, most significant first. -/
def encodeWord (n : ℕ) : List UInt8 :=
  [UInt8.ofNat (n / 2 ^ 24), UInt8.ofNat (n / 2 ^ 16), UInt8.ofNat (n / 2 ^ 8), UInt8.ofNat n]

/-- Read a word. -/
def readWord : List UInt8 → Option (ℕ × List UInt8)
  | b₃ :: b₂ :: b₁ :: b₀ :: rest =>
    some (b₃.toNat * 2 ^ 24 + b₂.toNat * 2 ^ 16 + b₁.toNat * 2 ^ 8 + b₀.toNat, rest)
  | _ => none

@[simp] theorem length_encodeWord (n : ℕ) : (encodeWord n).length = 4 := by
  simp [encodeWord]

/-- Reading a word undoes writing it. -/
theorem readWord_encodeWord_append {n : ℕ} (hn : n < 2 ^ 32) (rest : List UInt8) :
    readWord (encodeWord n ++ rest) = some (n, rest) := by
  simp only [encodeWord, readWord, cons_append, nil_append, UInt8.toNat_ofNat',
    Option.some.injEq, Prod.mk.injEq, and_true]
  omega

/-- Four bytes are those of a word. -/
theorem exists_encodeWord {b : List UInt8} (hb : b.length = 4) :
    ∃ w, w < 2 ^ 32 ∧ b = encodeWord w := by
  match b, hb with
  | [b₃, b₂, b₁, b₀], _ =>
    have h₃ := b₃.toNat_lt
    have h₂ := b₂.toNat_lt
    have h₁ := b₁.toNat_lt
    have h₀ := b₀.toNat_lt
    refine ⟨b₃.toNat * 2 ^ 24 + b₂.toNat * 2 ^ 16 + b₁.toNat * 2 ^ 8 + b₀.toNat, by omega, ?_⟩
    simp only [encodeWord, List.cons.injEq, and_true, ← UInt8.toNat_inj, UInt8.toNat_ofNat']
    refine ⟨?_, ?_, ?_, ?_⟩ <;> omega

/-! ## Signed words -/

/-- The word that stores an integer in two's complement. -/
def wordOfInt (i : ℤ) : ℕ := (i % 2 ^ 32).toNat

/-- The integer that a word stores in two's complement. -/
def intOfWord (n : ℕ) : ℤ := if n < 2 ^ 31 then n else (n : ℤ) - 2 ^ 32

/-- An integer fits in a word. -/
theorem wordOfInt_lt (i : ℤ) : wordOfInt i < 2 ^ 32 := by
  unfold wordOfInt
  omega

/-- A signed word is read back from its two's complement. -/
theorem intOfWord_wordOfInt {i : ℤ} (hlow : -2 ^ 31 ≤ i) (hhigh : i < 2 ^ 31) :
    intOfWord (wordOfInt i) = i := by
  unfold intOfWord wordOfInt
  split <;> omega

/-! ## Buffers -/

/-- Read `n` bytes. -/
def readBytes (n : ℕ) (l : List UInt8) : Option (List UInt8 × List UInt8) :=
  if n ≤ l.length then some (l.take n, l.drop n) else none

/-- Reading as many bytes as were written gives them back. -/
theorem readBytes_append (b rest : List UInt8) :
    readBytes b.length (b ++ rest) = some (b, rest) := by
  simp [readBytes]

/-- A buffer preceded by its length. -/
def encodeBuffer (b : List UInt8) : List UInt8 := encodeWord b.length ++ b

/-- Read a length and that many bytes. -/
def readBuffer (l : List UInt8) : Option (List UInt8 × List UInt8) :=
  (readWord l).bind fun (n, rest) => readBytes n rest

/-- Reading a buffer undoes writing it. -/
theorem readBuffer_encodeBuffer_append {b : List UInt8} (hb : b.length < 2 ^ 32)
    (rest : List UInt8) : readBuffer (encodeBuffer b ++ rest) = some (b, rest) := by
  rw [encodeBuffer, append_assoc, readBuffer, readWord_encodeWord_append hb, Option.bind_some]
  exact readBytes_append b rest

@[simp] theorem length_encodeBuffer (b : List UInt8) : (encodeBuffer b).length = b.length + 4 := by
  simp [encodeBuffer, Nat.add_comm]

/-! ## Little-endian words -/

/-- The `w` low bytes of a number, least significant first. -/
def littleEndian : ℕ → ℕ → List UInt8
  | 0, _ => []
  | w + 1, n => UInt8.ofNat n :: littleEndian w (n / 256)

/-- The number that bytes stand for, least significant first. -/
def ofLittleEndian : List UInt8 → ℕ
  | [] => 0
  | b :: l => b.toNat + 256 * ofLittleEndian l

theorem littleEndian_succ (w n : ℕ) :
    littleEndian (w + 1) n = UInt8.ofNat n :: littleEndian w (n / 256) := rfl

theorem ofLittleEndian_cons (b : UInt8) (l : List UInt8) :
    ofLittleEndian (b :: l) = b.toNat + 256 * ofLittleEndian l := rfl

@[simp] theorem length_littleEndian (w n : ℕ) : (littleEndian w n).length = w := by
  induction w generalizing n with
  | zero => rfl
  | succ w ih => rw [littleEndian_succ, length_cons, ih]

/-- Reading a little-endian word gives the bits that fit. -/
theorem ofLittleEndian_littleEndian (w n : ℕ) : ofLittleEndian (littleEndian w n) = n % 256 ^ w := by
  induction w generalizing n with
  | zero => simp [littleEndian, ofLittleEndian, Nat.mod_one]
  | succ w ih =>
    have hbyte : (UInt8.ofNat n).toNat = n % 256 := UInt8.toNat_ofNat'
    rw [littleEndian_succ, ofLittleEndian_cons, ih, hbyte, Nat.pow_succ, Nat.mul_comm (256 ^ w) 256,
      Nat.mod_mul]

/-- A word in network order, read from its last byte on. -/
theorem ofLittleEndian_reverse_encodeWord {n : ℕ} (hn : n < 2 ^ 32) :
    ofLittleEndian (encodeWord n).reverse = n := by
  simp only [encodeWord, reverse_cons, reverse_nil, nil_append, cons_append,
    ofLittleEndian, UInt8.toNat_ofNat']
  omega

/-- Only the bits that fit are written. -/
theorem littleEndian_mod (w n : ℕ) : littleEndian w (n % 256 ^ w) = littleEndian w n := by
  induction w generalizing n with
  | zero => rfl
  | succ w ih =>
    have hbyte : UInt8.ofNat (n % 256 ^ (w + 1)) = UInt8.ofNat n := by
      refine UInt8.toNat_inj.mp ?_
      rw [UInt8.toNat_ofNat', UInt8.toNat_ofNat', Nat.pow_succ, Nat.mul_comm, Nat.mod_mul_right_mod]
    have hhigh : n % 256 ^ (w + 1) / 256 = n / 256 % 256 ^ w := by
      rw [Nat.pow_succ, Nat.mul_comm, Nat.mod_mul_right_div_self]
    rw [littleEndian, littleEndian, hbyte, hhigh, ih]

/-- A long word is a short one followed by its high part. -/
theorem littleEndian_add (w v n : ℕ) :
    littleEndian (w + v) n = littleEndian w n ++ littleEndian v (n / 256 ^ w) := by
  induction w generalizing n with
  | zero => simp [littleEndian]
  | succ w ih =>
    rw [Nat.succ_add, littleEndian, littleEndian, ih, cons_append, Nat.div_div_eq_div_mul,
      Nat.pow_succ, Nat.mul_comm (256 ^ w) 256]

theorem ofLittleEndian_append (l l' : List UInt8) :
    ofLittleEndian (l ++ l') = ofLittleEndian l + 256 ^ l.length * ofLittleEndian l' := by
  induction l with
  | nil => simp [ofLittleEndian]
  | cons b l ih =>
    rw [cons_append, ofLittleEndian_cons, ofLittleEndian_cons, ih, length_cons, Nat.pow_succ,
      Nat.mul_add, Nat.add_assoc, Nat.mul_comm (256 ^ l.length) 256, Nat.mul_assoc]

theorem ofLittleEndian_lt (l : List UInt8) : ofLittleEndian l < 256 ^ l.length := by
  induction l with
  | nil => exact Nat.one_pos
  | cons b l ih =>
    have hbyte : b.toNat < 256 := b.toNat_lt
    rw [ofLittleEndian_cons, length_cons, Nat.pow_succ]
    omega

/-- Bytes are those of the number they stand for. -/
theorem littleEndian_ofLittleEndian (l : List UInt8) :
    littleEndian l.length (ofLittleEndian l) = l := by
  induction l with
  | nil => rfl
  | cons b l ih =>
    have hbyte : b.toNat < 256 := b.toNat_lt
    have hlow : UInt8.ofNat (b.toNat + 256 * ofLittleEndian l) = b := by
      apply UInt8.toNat_inj.mp
      rw [UInt8.toNat_ofNat']
      omega
    have hhigh : (b.toNat + 256 * ofLittleEndian l) / 256 = ofLittleEndian l := by omega
    rw [ofLittleEndian_cons, length_cons, littleEndian_succ, hlow, hhigh, ih]

/-! ## Streams that are cut -/

/-- The size of a piece: at least one byte, and no more than is asked for and is there. -/
def pieceSize (cut size available : ℕ) : ℕ := max 1 (min cut (min size available))

/-- Send a buffer in pieces of any size; `fuel` bounds the number of pieces. -/
def sendPieces (cuts : ℕ → ℕ) : ℕ → List UInt8 → List (List UInt8)
  | 0, _ => []
  | fuel + 1, l =>
    if l = [] then []
    else
      let n := pieceSize (cuts fuel) l.length l.length
      l.take n :: sendPieces cuts fuel (l.drop n)

/-- Receive `size` bytes in pieces of any size, with what is left; it fails when the stream ends. -/
def receivePieces (cuts : ℕ → ℕ) : ℕ → ℕ → List UInt8 → Option (List UInt8 × List UInt8)
  | _, 0, l => some ([], l)
  | 0, _ + 1, _ => none
  | fuel + 1, size + 1, l =>
    if l = [] then none
    else
      let n := pieceSize (cuts fuel) (size + 1) l.length
      (receivePieces cuts fuel (size + 1 - n) (l.drop n)).map fun (b, rest) => (l.take n ++ b, rest)

theorem pieceSize_bounds (cut : ℕ) {size available : ℕ} (hsize : 0 < size) (havailable : 0 < available) :
    1 ≤ pieceSize cut size available ∧ pieceSize cut size available ≤ size ∧
      pieceSize cut size available ≤ available := by
  unfold pieceSize
  omega

/-- What is sent is the buffer, however it is cut. -/
theorem flatten_sendPieces (cuts : ℕ → ℕ) {fuel : ℕ} {l : List UInt8} (h : l.length ≤ fuel) :
    (sendPieces cuts fuel l).flatten = l := by
  induction fuel generalizing l with
  | zero =>
    rw [length_eq_zero_iff.mp (Nat.le_zero.mp h)]
    rfl
  | succ fuel ih =>
    rw [sendPieces]
    split
    · rename_i hnil
      rw [hnil]
      rfl
    · rename_i hne
      have hpos : 0 < l.length := length_pos_iff.mpr hne
      obtain ⟨hone, -, -⟩ := pieceSize_bounds (cuts fuel) hpos hpos
      rw [flatten_cons, ih (by rw [length_drop]; omega), take_append_drop]

/-- What is received is what was asked for, however it is cut. -/
theorem receivePieces_eq (cuts : ℕ → ℕ) {fuel size : ℕ} (h : size ≤ fuel) (l : List UInt8) :
    receivePieces cuts fuel size l = readBytes size l := by
  induction fuel generalizing size l with
  | zero =>
    rw [Nat.le_zero.mp h]
    simp [receivePieces, readBytes]
  | succ fuel ih =>
    cases size with
    | zero => simp [receivePieces, readBytes]
    | succ size =>
      rw [receivePieces]
      split
      · rename_i hnil
        rw [hnil]
        rfl
      · rename_i hne
        obtain ⟨hone, hle, havailable⟩ :=
          pieceSize_bounds (cuts fuel) (Nat.succ_pos size) (length_pos_iff.mpr hne)
        dsimp only
        generalize pieceSize (cuts fuel) (size + 1) l.length = n at hone hle havailable ⊢
        rw [ih (by omega), readBytes, readBytes, length_drop]
        by_cases hfits : size + 1 ≤ l.length
        · have htake : l.take n ++ (l.drop n).take (size + 1 - n) = l.take (size + 1) := by
            rw [← take_add, Nat.add_sub_cancel' hle]
          have hdrop : (l.drop n).drop (size + 1 - n) = l.drop (size + 1) := by
            rw [drop_drop, Nat.add_sub_cancel' hle]
          rw [if_pos (by omega), if_pos hfits, Option.map_some, htake, hdrop]
        · rw [if_neg (by omega), if_neg hfits]
          rfl

/-! ## Sequences of buffers -/

/-- Buffers one after the other, each preceded by its length. -/
def encodeBuffers (bs : List (List UInt8)) : List UInt8 := bs.flatMap encodeBuffer

/-- Read `n` buffers. -/
def readBuffers : ℕ → List UInt8 → Option (List (List UInt8) × List UInt8)
  | 0, l => some ([], l)
  | n + 1, l =>
    (readBuffer l).bind fun (b, rest) =>
      (readBuffers n rest).map fun (bs, rest) => (b :: bs, rest)

/-- Reading as many buffers as were written gives them back. -/
theorem readBuffers_encodeBuffers_append {bs : List (List UInt8)}
    (hbs : ∀ b ∈ bs, b.length < 2 ^ 32) (rest : List UInt8) :
    readBuffers bs.length (encodeBuffers bs ++ rest) = some (bs, rest) := by
  induction bs with
  | nil => rfl
  | cons b bs ih =>
    have hb : b.length < 2 ^ 32 := hbs b (mem_cons_self ..)
    have hread := ih fun b' hb' => hbs b' (mem_cons_of_mem _ hb')
    rw [length_cons, readBuffers, encodeBuffers, flatMap_cons, append_assoc,
      readBuffer_encodeBuffer_append hb, Option.bind_some, ← encodeBuffers]
    simp [hread]

end HardwareIntel
