import HardwareIntel.Topaz.HeaderLayout

/-!
# How much room a header takes

The elements of a header go into the 248 bytes of `asElementStream`, and 16 pointers point to them.
Where the elements end is known from the tokens and the numbers of bits alone: `Shape` is how many
elements there are, where the last one begins and how many bits it has. The calls of a writing
function stay in both arrays exactly when the shape at their end does, which `fits_of_shape` and
`Host.Fits.shape` say.
-/

namespace HardwareIntel.Topaz

open List Function

/-- The bytes of `asElementStream`. -/
def elementStreamSize : ℕ := (32 - 1) * 8

section Definitions

variable {τ : Type} (host : Host τ)

/-- What the writing functions check before they do nothing. -/
def HeaderParams.Overflows (h : HeaderParams) : Prop :=
  h.elements ≠ elementsEmpty ∧ maxNumberElements ≤ h.elements

/-- The calls stay in the array of pointers and in that of the elements, and none is dropped. -/
structure Host.Fits (calls : List (HeaderCall τ)) : Prop where
  pointers : ∀ memory pointers, host.Stays (Host.start memory pointers) calls
  kept : ∀ memory pointers before c after, calls = before ++ c :: after →
    ¬(host.run (Host.start memory pointers) before).Overflows
  inside : ∀ memory pointers before after, calls = before ++ after → ∀ j, elementStreamSize ≤ j →
    (host.run (Host.start memory pointers) before).elementStream j = memory j

/-- The elements behind a call. -/
def Host.layoutCall (es : List (ℕ × List Bool)) : HeaderCall τ → List (ℕ × List Bool)
  | .token type => (host.code type, []) :: es
  | .write w => host.fill es (piecesBits w.pieces)

def Host.layout (es : List (ℕ × List Bool)) (calls : List (HeaderCall τ)) : List (ℕ × List Bool) :=
  calls.foldl host.layoutCall es

end Definitions

/-- The number of bits that a call writes. -/
def HeaderWrite.size (w : HeaderWrite) : ℕ := (piecesBits w.pieces).length

@[simp] theorem HeaderWrite.size_upto8bits (v n : ℕ) : (HeaderWrite.upto8bits v n).size = n := by
  rw [HeaderWrite.size, HeaderWrite.pieces, piecesBits, flatMap_singleton, length_bits]

/-- A value has its size. -/
theorem HeaderWrite.size_upto32bits (v : ℕ) {n : ℕ} (hn : 1 ≤ n) :
    (HeaderWrite.upto32bits v n).size = n := by
  rw [HeaderWrite.size, HeaderWrite.pieces, piecesBits_upto32bitsPieces v hn, length_bits]

/-- The size of an unsigned code. -/
theorem HeaderWrite.size_ue {v : ℕ} (hv : v < 2 ^ 32) :
    (HeaderWrite.ue v).size = 2 * (v + 1).log2 + 1 := by
  rw [HeaderWrite.size, HeaderWrite.pieces, piecesBits_uePieces hv, ueBits, expGolomb,
    length_append, length_cons, length_replicate, length_bits]
  omega

/-- A bound for it, by the size of the value. -/
theorem HeaderWrite.size_ue_le {v k : ℕ} (hv : v < 2 ^ k) (hk : k ≤ 32) :
    (HeaderWrite.ue v).size ≤ 2 * k + 1 := by
  have hlog : (v + 1).log2 < k + 1 := by
    rw [Nat.log2_lt (by omega), Nat.pow_succ]
    omega
  rw [HeaderWrite.size_ue (hv.trans_le (Nat.pow_le_pow_right (by decide) hk))]
  omega

/-- A number of zero bits is taken for a whole byte. -/
@[simp] theorem HeaderWrite.size_upto32bits_zero (v : ℕ) : (HeaderWrite.upto32bits v 0).size = 8 :=
  rfl

/-! ### Shapes -/

/-- Where the last element is: behind how many others, at which address, and with how many bits. -/
structure Shape where
  before : ℕ
  address : ℕ
  raw : Bool
  size : ℕ

namespace Shape

/-- The end of the bytes that are used. -/
def reach (s : Shape) : ℕ := s.address + 5 + (s.size + 7) / 8

/-- The address of the next element. -/
def stop (s : Shape) : ℕ := s.address + if s.raw then ((s.size + 39) / 32 + 1) * 4 else 4

def token (s : Shape) (raw : Bool) : Shape := ⟨s.before + 1, s.stop, raw, 0⟩

/-- Bits are written, and every 120 of them begin a new element. -/
def write (s : Shape) (n : ℕ) : Shape :=
  ⟨s.before + (s.size + n - 1) / 120, s.address + 20 * ((s.size + n - 1) / 120), s.raw,
    s.size + n - 120 * ((s.size + n - 1) / 120)⟩

variable {τ : Type} (host : Host τ)

def call (s : Shape) : HeaderCall τ → Shape
  | .token type => s.token (host.isRawCode (host.code type))
  | .write w => s.write w.size

def run (s : Shape) (calls : List (HeaderCall τ)) : Shape := calls.foldl (call host) s

/-- Bits stand in elements of raw data only. -/
structure Valid (s : Shape) : Prop where
  size_le : s.size ≤ 120
  other : s.raw = false → s.size = 0

/-- The first element of a header. -/
def first (raw : Bool) : Shape := ⟨0, 0, raw, 0⟩

/-- The first element is in order. -/
theorem valid_first (raw : Bool) : (first raw).Valid := ⟨Nat.zero_le _, fun _ => rfl⟩

variable {s : Shape}

/-- A token keeps the shape in order. -/
theorem Valid.token (raw : Bool) : (s.token raw).Valid := ⟨Nat.zero_le _, fun _ => rfl⟩

/-- So do bits. -/
theorem Valid.write (hs : s.Valid) (hraw : s.raw = true) (n : ℕ) : (s.write n).Valid := by
  have hle := hs.size_le
  refine ⟨?_, fun hother => absurd (hraw.symm.trans hother) (by decide)⟩
  rw [Shape.write]
  dsimp only
  omega

/-- A token moves the end on. -/
theorem Valid.reach_le_token (hs : s.Valid) (raw : Bool) : s.reach ≤ (s.token raw).reach := by
  rw [reach, reach, Shape.token, stop]
  cases hraw : s.raw with
  | false =>
    have hzero := hs.other hraw
    simp only [Bool.false_eq_true, if_false]
    omega
  | true =>
    simp only [if_true]
    omega

/-- So do bits. -/
theorem reach_le_write (n : ℕ) : s.reach ≤ (s.write n).reach := by
  rw [reach, reach, Shape.write]
  dsimp only
  omega

/-- No call takes elements away. -/
theorem before_le_run (calls : List (HeaderCall τ)) : s.before ≤ (s.run host calls).before := by
  induction calls generalizing s with
  | nil => exact le_rfl
  | cons c calls ih =>
    refine le_trans ?_ ih
    cases c with
    | token type => exact Nat.le_succ _
    | write w => exact Nat.le_add_right _ _

end Shape

/-- Bits are written into elements that hold them. -/
def Host.Proper {τ : Type} (host : Host τ) : Bool → List (HeaderCall τ) → Prop
  | _, [] => True
  | _, .token type :: calls => host.Proper (host.isRawCode (host.code type)) calls
  | raw, .write w :: calls => raw = true ∧ w.Short ∧ host.Proper raw calls

instance decidableProper {τ : Type} (host : Host τ) :
    (raw : Bool) → (calls : List (HeaderCall τ)) → Decidable (host.Proper raw calls)
  | _, [] => instDecidableTrue
  | _, .token type :: calls => decidableProper host (host.isRawCode (host.code type)) calls
  | raw, .write w :: calls => @instDecidableAnd (raw = true) (w.Short ∧ host.Proper raw calls) _
      (@instDecidableAnd w.Short (host.Proper raw calls) _ (decidableProper host raw calls))

namespace Shape

variable {τ : Type} {host : Host τ} {s : Shape} {a b : List (HeaderCall τ)}

/-- Calls move the end on. -/
theorem Valid.reach_le_run (hs : s.Valid) (hproper : host.Proper s.raw a) :
    s.reach ≤ (s.run host a).reach := by
  induction a generalizing s with
  | nil => exact le_rfl
  | cons c calls ih =>
    cases c with
    | token type => exact (hs.reach_le_token _).trans (ih (.token _) hproper)
    | write w => exact (reach_le_write _).trans (ih (hs.write hproper.1 _) hproper.2.2)

/-- The calls at the beginning reach no further than all of them. -/
theorem Valid.append (hs : s.Valid) (hproper : host.Proper s.raw (a ++ b)) :
    host.Proper s.raw a ∧ (s.run host a).reach ≤ (s.run host (a ++ b)).reach := by
  induction a generalizing s with
  | nil => exact ⟨trivial, hs.reach_le_run hproper⟩
  | cons c calls ih =>
    cases c with
    | token type => exact ih (.token _) hproper
    | write w =>
      obtain ⟨hraw, hshort, hrest⟩ := hproper
      obtain ⟨hproper', hreach⟩ := ih (hs.write hraw w.size) hrest
      exact ⟨⟨hraw, hshort, hproper'⟩, hreach⟩

/-- Proper calls behind proper calls. -/
theorem proper_append (ha : host.Proper s.raw a) (hb : host.Proper (s.run host a).raw b) :
    host.Proper s.raw (a ++ b) := by
  induction a generalizing s with
  | nil => exact hb
  | cons c calls ih =>
    cases c with
    | token type => exact @ih (s.token (host.isRawCode (host.code type))) ha hb
    | write w => exact ⟨ha.1, ha.2.1, @ih (s.write w.size) ha.2.2 hb⟩

end Shape

section Shapes

variable {τ : Type} {host : Host τ} {h : HeaderParams} {es : List (ℕ × List Bool)}

variable (host) in
/-- The shape of some elements, the newest first. -/
def shapeOf : List (ℕ × List Bool) → Shape
  | [] => ⟨0, 0, false, 0⟩
  | (code, l) :: es => ⟨es.length, host.endOf es, host.isRawCode code, l.length⟩

/-- Where the last element is after some bits. -/
theorem fill_shape {code : ℕ} {l : List Bool} (hcoded : host.Coded)
    (hraw : host.isRawCode code = true) (hle : l.length ≤ 120) (b : List Bool) :
    ∃ q code' l' es', host.fill ((code, l) :: es) b = (code', l') :: es' ∧
      host.isRawCode code' = true ∧ es'.length = es.length + q ∧
      host.endOf es' = host.endOf es + 20 * q ∧ l'.length + 120 * q = l.length + b.length ∧
      l'.length ≤ 120 ∧ (0 < q → 0 < l'.length) := by
  induction b using List.reverseRecOn with
  | nil => exact ⟨0, code, l, es, rfl, hraw, rfl, rfl, rfl, hle, fun hq => absurd hq (by decide)⟩
  | append_singleton b x ih =>
    obtain ⟨q, code', l', es', hfill, hraw', hlength, hend, hsum, hle', -⟩ := ih
    rw [fill_append, hfill, Host.fill, foldl_cons, foldl_nil, Host.pushBit]
    rw [length_append, length_singleton]
    split
    · refine ⟨q, code', l' ++ [x], es', rfl, hraw', hlength, hend, ?_⟩
      rw [length_append, length_singleton]
      omega
    · refine ⟨q + 1, host.code host.rawdata, [x], (code', l') :: es', rfl, hcoded.rawdata, ?_, ?_, ?_⟩
      · rw [length_cons, hlength]
        omega
      · rw [Host.endOf, Host.bytesOf, if_pos hraw', hend]
        omega
      · rw [length_singleton]
        omega

/-- The shape after bits. -/
theorem shapeOf_fill (hcoded : host.Coded) (hw : Writable host es)
    (hvalid : (shapeOf host es).Valid) (b : List Bool) :
    shapeOf host (host.fill es b) = (shapeOf host es).write b.length := by
  obtain ⟨⟨code, l⟩, es, rfl, hraw⟩ := hw
  obtain ⟨q, code', l', es', hfill, hraw', hlength, hend, hsum, hle, hpos⟩ :=
    @fill_shape _ _ es _ _ hcoded hraw hvalid.size_le b
  have hq : (l.length + b.length - 1) / 120 = q := by omega
  rw [hfill, shapeOf, shapeOf, Shape.write]
  dsimp only
  rw [hq, hlength, hend, hraw', hraw, Shape.mk.injEq]
  exact ⟨rfl, rfl, rfl, by omega⟩

/-- The shape after a token. -/
theorem shapeOf_token (type : τ) (hne : es ≠ []) :
    shapeOf host ((host.code type, []) :: es) =
      (shapeOf host es).token (host.isRawCode (host.code type)) := by
  obtain ⟨⟨code, l⟩, es, rfl⟩ := exists_cons_of_ne_nil hne
  rfl

/-- There is an element, and what is known of it in memory. -/
structure Host.At (host : Host τ) (h : HeaderParams) (es : List (ℕ × List Bool)) : Prop where
  laid : Laid host h es
  ne_nil : es ≠ []

namespace Host.At

section

variable (hat : host.At h es)
include hat

/-- The shape counts the elements. -/
theorem before : (shapeOf host es).before = h.elements := by
  obtain ⟨⟨code, l⟩, es, rfl⟩ := exists_cons_of_ne_nil hat.ne_nil
  exact (Nat.succ.inj hat.laid.elements).symm

/-- The shape of a header is in order. -/
theorem valid : (shapeOf host es).Valid := by
  obtain ⟨⟨code, l⟩, es, rfl⟩ := exists_cons_of_ne_nil hat.ne_nil
  have hstored := hat.laid.storedAt
  refine ⟨?_, fun hother => congrArg List.length (hstored.other hother)⟩
  cases hraw : host.isRawCode code with
  | true => exact (hstored.raw hraw).2
  | false =>
    rw [shapeOf, hstored.other hraw]
    exact Nat.zero_le _

/-- It has the address of the last element. -/
theorem address : (shapeOf host es).address = h.current := by
  obtain ⟨⟨code, l⟩, es, rfl⟩ := exists_cons_of_ne_nil hat.ne_nil
  exact hat.laid.current.symm

/-- It has the size of the last element. -/
theorem size (hraw : (shapeOf host es).raw = true) :
    (shapeOf host es).size = h.size := by
  obtain ⟨⟨code, l⟩, es, rfl⟩ := exists_cons_of_ne_nil hat.ne_nil
  exact (hat.laid.size hraw).symm

/-- A header whose last element holds bits can be written to. -/
theorem writable (hraw : (shapeOf host es).raw = true) : Writable host es := by
  obtain ⟨⟨code, l⟩, es, rfl⟩ := exists_cons_of_ne_nil hat.ne_nil
  exact ⟨_, _, rfl, hraw⟩

end

end Host.At

/-! ### What stays in memory -/

/-- The size after bits that fit. -/
theorem size_put {v n : ℕ} (hn : h.size + n < 256) :
    ((h.clearByte.setBits v).countBits n).size = h.size + n := by
  have hset : (h.clearByte.setBits v).size = h.clearByte.size := by
    change (Function.update h.clearByte.elementStream (h.clearByte.current + 5 +
      h.clearByte.size / 8) _ (h.clearByte.current + 4)).toNat = _
    rw [update_of_ne (by omega)]
    rfl
  have hcount : ((h.clearByte.setBits v).countBits n).elementStream
      ((h.clearByte.setBits v).current + 4) = UInt8.ofNat ((h.clearByte.setBits v).size + n) :=
    update_self ..
  refine (congrArg UInt8.toNat hcount).trans ?_
  rw [hset, size_clearByte, UInt8.toNat_ofNat', Nat.mod_eq_of_lt hn]

/-- A new element is empty. -/
theorem size_begin (code : ℕ) : (h.beginElement code).size = 0 := by
  change (Function.update (setWord h.elementStream h.current code) (h.current + 4) 0
    (h.current + 4)).toNat = 0
  rw [update_self]
  rfl

/-- What is behind the type and the size of a new element stays. -/
theorem elementStream_begin {code j : ℕ} (hj : h.current + 5 ≤ j) :
    (h.beginElement code).elementStream j = h.elementStream j :=
  (update_of_ne (by omega) _ _).trans (setWord_of_le _ _ (by omega))

/-- A piece of bits leaves what is behind them; a new element takes five bytes more. -/
theorem elementStream_calls (calls : ℕ) {v k j : ℕ} (hk : k ≤ 8) (hsize : h.size ≤ 120)
    (hj : h.current + 5 + (h.size + k + 7) / 8 + (if 120 < h.size + k then 5 else 0) ≤ j) :
    (host.writeUpto8bitsCalls calls h v k).elementStream j = h.elementStream j := by
  induction calls generalizing h v k with
  | zero => rfl
  | succ calls ih =>
    rw [Host.writeUpto8bitsCalls]
    split
    · rfl
    · rename_i hguard
      dsimp only
      split
      · rename_i hfull
        rw [if_pos (by omega)] at hj
        have hcurrent : (h.nextElement (5 + 15)).current = h.current + (5 + 15) :=
          update_self ..
        have hnext : ((h.nextElement (5 + 15)).beginElement (host.code host.rawdata)).current =
            h.current + (5 + 15) := hcurrent
        have hzero := size_begin (h := h.nextElement (5 + 15)) (host.code host.rawdata)
        rw [ih hk (by omega) (by rw [hnext, hzero, if_neg (by omega)]; omega)]
        exact elementStream_begin (by rw [hcurrent]; omega)
      · rename_i hfull
        split
        · exact elementStream_put (by omega) (by omega)
        · rename_i hsplit
          have hsize' : ∀ v, ((h.clearByte.setBits v).countBits
              (k - (k + h.size % 8 - 8))).size = h.size + (k - (k + h.size % 8 - 8)) :=
            fun v => size_put (by omega)
          have hcurrent' : ∀ v, ((h.clearByte.setBits v).countBits
              (k - (k + h.size % 8 - 8))).current = h.current := fun _ => current_clearByte
          rw [ih (by omega) (by rw [hsize']; omega) ?_]
          · exact elementStream_put (by omega) (by omega)
          · rw [hsize', hcurrent']
            split <;> split at hj <;> omega

/-! ### Calls -/

/-- The functions of a driver check nothing but the number of elements before a token. -/
structure Host.Unchecked {τ : Type} (host : Host τ) : Prop extends host.Coded where
  writes : host.checksWrites = false
  tokens : host.checksTokens = false

/-- A step from one header to another that changes nothing behind the elements. -/
structure Host.Leads (host : Host τ) (h : HeaderParams) (es : List (ℕ × List Bool))
    (h' : HeaderParams) (es' : List (ℕ × List Bool)) : Prop where
  at' : host.At h' es'
  before_le : (shapeOf host es).before ≤ (shapeOf host es').before
  reach_le : (shapeOf host es).reach ≤ (shapeOf host es').reach
  frame : ∀ j, (shapeOf host es').reach ≤ j → h'.elementStream j = h.elementStream j

namespace Host.Leads

variable {h' h'' : HeaderParams} {es' es'' : List (ℕ × List Bool)}

/-- Nothing done leads to the same header. -/
theorem refl (hat : host.At h es) : host.Leads h es h es := ⟨hat, le_rfl, le_rfl, fun _ _ => rfl⟩

/-- Two steps lead where each leads. -/
theorem trans (h₁ : host.Leads h es h' es') (h₂ : host.Leads h' es' h'' es'') :
    host.Leads h es h'' es'' :=
  ⟨h₂.at', h₁.before_le.trans h₂.before_le, h₁.reach_le.trans h₂.reach_le, fun j hj =>
    (h₂.frame j hj).trans (h₁.frame j (h₂.reach_le.trans hj))⟩

end Host.Leads

namespace Host.At

variable (hun : host.Unchecked) (hat : host.At h es)
include hun hat

/-- A token leads to the header with it. -/
theorem token (type : τ) (hfew : h.elements < maxNumberElements) :
    host.Leads h es (host.insertElementToken h type) ((host.code type, []) :: es) := by
  have hlaid := hat.laid.insertElementToken hat.ne_nil hun.toCoded type hfew fun hchecks =>
    absurd (hun.tokens.symm.trans hchecks) (by decide)
  have hat' : host.At (host.insertElementToken h type) ((host.code type, []) :: es) :=
    ⟨hlaid, cons_ne_nil _ _⟩
  have hshape := @shapeOf_token _ host _ type hat.ne_nil
  refine ⟨hat', ?_, ?_, fun j hj => ?_⟩
  · rw [hshape]
    exact Nat.le_succ _
  · rw [hshape]
    exact hat.valid.reach_le_token _
  · have hsome : h.elements ≠ elementsEmpty := by
      rw [maxNumberElements] at hfew
      rw [elementsEmpty]
      omega
    have haddress := hat'.address
    rw [Shape.reach] at hj
    rw [Host.insertElementToken, if_neg (fun hboth => Nat.not_le.mpr hfew hboth.2), if_neg hsome,
      if_neg (by rw [hun.tokens]; exact fun hboth => absurd hboth.1 (by decide))] at haddress ⊢
    exact elementStream_begin (by
      rw [haddress] at hj
      exact (Nat.le_add_right _ _).trans hj)

/-- A piece leads to the header with its bits. -/
theorem piece (v : ℕ) {k : ℕ} (hraw : (shapeOf host es).raw = true) (hk : k ≤ 8) :
    host.Leads h es (host.writeUpto8bitsElements h v k) (host.fill es (bits k v)) := by
  have hw := hat.writable hraw
  have hlaid := hat.laid.piece (v := v) hun.toCoded hw hk fun hchecks =>
    absurd (hun.writes.symm.trans hchecks) (by decide)
  have hshape := shapeOf_fill hun.toCoded hw hat.valid (bits k v)
  rw [length_bits] at hshape
  refine ⟨⟨hlaid, (hw.fill hun.toCoded _).ne_nil⟩, ?_, ?_, fun j hj => ?_⟩
  · rw [hshape]
    exact Nat.le_add_right _ _
  · rw [hshape]
    exact Shape.reach_le_write k
  · have hsize := hat.size hraw
    have hle := hat.valid.size_le
    rcases Nat.eq_zero_or_pos k with rfl | hpos
    · rw [Host.writeUpto8bitsElements, Host.writeUpto8bitsCalls, if_pos (.inl rfl)]
    · rw [hshape, Shape.reach, Shape.write, hat.address, hsize] at hj
      dsimp only at hj
      refine elementStream_calls 4 hk (hsize ▸ hle) ?_
      split <;> omega

/-- Pieces lead to the header with their bits. -/
theorem pieces {pieces : List (ℕ × ℕ)} (hraw : (shapeOf host es).raw = true)
    (hpieces : ∀ p ∈ pieces, p.2 ≤ 8) :
    host.Leads h es (host.writePieces h pieces) (host.fill es (piecesBits pieces)) := by
  induction pieces generalizing h es with
  | nil => exact .refl hat
  | cons p pieces ih =>
    rw [forall_mem_cons] at hpieces
    have hp := hat.piece hun p.1 hraw hpieces.1
    have hraw' : (shapeOf host (host.fill es (bits p.2 p.1))).raw = true := by
      rw [shapeOf_fill hun.toCoded (hat.writable hraw) hat.valid]
      exact hraw
    rw [piecesBits_cons, fill_append]
    exact hp.trans (ih hp.at' hraw' hpieces.2)

variable {calls : List (HeaderCall τ)}

/-- One call, and what is known of the calls after it. -/
theorem call {c : HeaderCall τ} (hfew : h.elements < maxNumberElements)
    (hproper : host.Proper (shapeOf host es).raw (c :: calls)) :
    host.Leads h es (host.call h c) (host.layoutCall es c) ∧
      shapeOf host (host.layoutCall es c) = (shapeOf host es).call host c ∧
      host.Proper (shapeOf host (host.layoutCall es c)).raw calls := by
  cases c with
  | token type =>
    have hshape := @shapeOf_token _ host _ type hat.ne_nil
    exact ⟨hat.token hun type hfew, hshape, hproper⟩
  | write w =>
    obtain ⟨hraw, hshort, hrest⟩ := hproper
    have hshape := shapeOf_fill hun.toCoded (hat.writable hraw) hat.valid (piecesBits w.pieces)
    exact ⟨hat.pieces hun hraw hshort.pieces_le, hshape, hshape ▸ hrest⟩

/-- The calls stay in the array of pointers if the shape at their end does, and then it is the shape
of what is in memory. -/
theorem run (hfew : h.elements < maxNumberElements)
    (hproper : host.Proper (shapeOf host es).raw calls) :
    (host.Stays h calls ↔ ((shapeOf host es).run host calls).before < maxNumberElements) ∧
      (host.Stays h calls → host.Leads h es (host.run h calls) (host.layout es calls) ∧
        shapeOf host (host.layout es calls) = (shapeOf host es).run host calls) := by
  induction calls generalizing h es with
  | nil => exact ⟨iff_of_true trivial (hat.before ▸ hfew), fun _ => ⟨.refl hat, rfl⟩⟩
  | cons c calls ih =>
    obtain ⟨hc, hshape, hproper'⟩ := hat.call hun hfew hproper
    by_cases hroom : (host.call h c).elements < maxNumberElements
    · obtain ⟨hiff, hlaid⟩ := ih hc.at' hroom hproper'
      rw [hshape] at hiff hlaid
      refine ⟨(and_iff_right hroom).trans hiff, fun hstays => ?_⟩
      obtain ⟨hleads, hend⟩ := hlaid hstays.2
      exact ⟨hc.trans hleads, hend⟩
    · have hmany : maxNumberElements ≤ ((shapeOf host es).run host (c :: calls)).before := by
        refine le_trans (Nat.not_lt.mp hroom) ?_
        rw [← hc.at'.before, hshape]
        exact Shape.before_le_run host calls
      exact ⟨iff_of_false (fun hstays => hroom hstays.1) (Nat.not_lt.mpr hmany),
        fun hstays => absurd hstays.1 hroom⟩

end Host.At

/-- The first token of a header. -/
theorem at_start (hcoded : host.Coded) (type : τ) (memory : ℕ → UInt8) (pointers : ℕ → ℕ) :
    host.At (host.insertElementToken (Host.start memory pointers) type) [(host.code type, [])] := by
  have hempty : (Host.start memory pointers).elements = elementsEmpty := rfl
  have hpointer : (Host.start memory pointers).elementPointers 0 = 0 :=
    update_self 0 0 pointers
  exact ⟨laid_first hpointer (hcoded.lt _), cons_ne_nil _ _⟩

/-! ### What fits -/

section Fits

variable {type : τ} {calls : List (HeaderCall τ)}

variable (host) in
/-- The shape of a header. -/
abbrev Host.shape (type : τ) (calls : List (HeaderCall τ)) : Shape :=
  (Shape.first (host.isRawCode (host.code type))).run host calls

/-- The first token has the index zero. -/
theorem first_elements (type : τ) (memory : ℕ → UInt8) (pointers : ℕ → ℕ) (hcoded : host.Coded) :
    (host.insertElementToken (Host.start memory pointers) type).elements = 0 :=
  (at_start hcoded type memory pointers).before.symm

/-- A header fits if its shape does. -/
theorem fits_of_shape (hun : host.Unchecked)
    (hproper : host.Proper (host.isRawCode (host.code type)) calls)
    (hbefore : (host.shape type calls).before < maxNumberElements)
    (hreach : (host.shape type calls).reach ≤ elementStreamSize) : host.Fits (.token type :: calls) := by
  have hfirst : ∀ memory pointers,
      (host.insertElementToken (Host.start memory pointers) type).elements < maxNumberElements := by
    intro memory pointers
    rw [first_elements type memory pointers hun.toCoded]
    decide
  have hstays : ∀ memory pointers, host.Stays (Host.start memory pointers) (.token type :: calls) :=
    fun memory pointers => ⟨hfirst memory pointers,
      ((at_start hun.toCoded type memory pointers).run hun (hfirst memory pointers)
        hproper).1.mpr hbefore⟩
  refine ⟨hstays, fun memory pointers before c after heq => ?_,
    fun memory pointers before after heq j hj => ?_⟩
  · cases before with
    | nil => exact fun hover => hover.1 rfl
    | cons c' before =>
      obtain ⟨rfl, rfl⟩ := List.cons.inj heq
      have hrun := Stays.run (Stays.append (hstays memory pointers).2).1 (hfirst memory pointers)
      exact fun hover => Nat.not_le.mpr hrun hover.2
  · cases before with
    | nil => rfl
    | cons c' before =>
      obtain ⟨rfl, rfl⟩ := List.cons.inj heq
      have hat := at_start hun.toCoded type memory pointers
      obtain ⟨hproper', hle⟩ := (Shape.valid_first _).append hproper
      obtain ⟨hleads, hshape⟩ := (hat.run hun (hfirst memory pointers) hproper').2
        (Stays.append (hstays memory pointers).2).1
      have hlast : (host.shape type before).reach ≤ j :=
        hle.trans (hreach.trans hj)
      have hempty : (Host.start memory pointers).elements = elementsEmpty := rfl
      refine (hleads.frame j (by rw [hshape]; exact hlast)).trans ?_
      refine elementStream_begin ?_
      have hcurrent : ({ Host.start memory pointers with elements := 0 } : HeaderParams).current = 0 :=
        update_self 0 0 pointers
      rw [hcurrent]
      exact le_trans (by decide) hj

/-- The first bit of a byte. -/
theorem raw_getElem?_byte (e : Element) {k : ℕ} (hk : 8 * k < e.size) :
    e.raw[8 * k]? = some ((e.bytes k).testBit 7) := by
  rw [Element.raw, List.getElem?_map, List.getElem?_range hk, Option.map_some,
    Nat.mul_div_cancel_left k (by decide), Nat.mul_mod_right]

/-- The shape of a header that fits, which ends with bits. -/
theorem Host.Fits.shape (hun : host.Unchecked) (hfits : host.Fits (.token type :: calls))
    (hproper : host.Proper (host.isRawCode (host.code type)) calls) :
    (host.shape type calls).before < maxNumberElements ∧
      ((host.shape type calls).raw = true → 0 < (host.shape type calls).size →
        (host.shape type calls).reach ≤ elementStreamSize) := by
  have hrun : ∀ memory, host.At (host.run (Host.start memory fun _ => 0) (.token type :: calls))
        (host.layout [(host.code type, [])] calls) ∧
      shapeOf host (host.layout [(host.code type, [])] calls) = host.shape type calls := by
    intro memory
    obtain ⟨hfirst, hstays⟩ := hfits.pointers memory fun _ => 0
    obtain ⟨hleads, hshape⟩ := ((at_start hun.toCoded type memory fun _ => 0).run hun hfirst
      hproper).2 hstays
    exact ⟨hleads.at', hshape⟩
  obtain ⟨hfirst, hstays⟩ := hfits.pointers (fun _ => 0) fun _ => 0
  refine ⟨((at_start hun.toCoded type _ _).run hun hfirst hproper).1.mp hstays,
    fun hraw hsize => ?_⟩
  -- the last byte that is used begins with a bit that does not depend on what was there
  rw [← (hrun fun _ => 0).2] at hraw hsize ⊢
  obtain ⟨⟨code, l⟩, es, hes⟩ := exists_cons_of_ne_nil (hrun fun _ => 0).1.ne_nil
  rw [hes] at hrun hraw hsize ⊢
  have hraw' : host.isRawCode code = true := hraw
  have hpos : 0 < l.length := hsize
  by_contra hfar
  have hbyte : ∀ b : UInt8, l[8 * ((l.length - 1) / 8)]? = some (b.toNat.testBit 7) := by
    intro b
    have hstored := ((hrun fun _ => b).1.laid.stored.2.1.raw hraw').1
    have hinside := hfits.inside (fun _ => b) (fun _ => 0) _ [] (append_nil _).symm
      (host.endOf es + 5 + (l.length - 1) / 8) (by
        rw [shapeOf, Shape.reach] at hfar
        dsimp only at hfar
        omega)
    have hlength := congrArg List.length hstored
    rw [length_raw] at hlength
    have hbit := raw_getElem?_byte
      (elementAt (host.run (Host.start (fun _ => b) fun _ => 0) (.token type :: calls)).elementStream
        (host.endOf es)) (k := (l.length - 1) / 8) (by omega)
    rw [hstored] at hbit
    exact hbit.trans (congrArg (fun b : UInt8 => some (b.toNat.testBit 7)) hinside)
  exact absurd ((hbyte 0).symm.trans (hbyte 255)) (by decide)

/-- A header that ends with bits fits exactly if its shape does. -/
theorem fits_iff_shape (hun : host.Unchecked)
    (hproper : host.Proper (host.isRawCode (host.code type)) calls)
    (hraw : (host.shape type calls).raw = true)
    (hsize : 0 < (host.shape type calls).size) :
    host.Fits (.token type :: calls) ↔
      (host.shape type calls).before < maxNumberElements ∧
      (host.shape type calls).reach ≤ elementStreamSize :=
  ⟨fun hfits => ⟨(hfits.shape hun hproper).1, (hfits.shape hun hproper).2 hraw hsize⟩,
    fun h => fits_of_shape hun hproper h.1 h.2⟩

/-- The calls at the beginning of those that fit. -/
theorem Host.Fits.of_append {a b : List (HeaderCall τ)} (hfits : host.Fits (a ++ b)) :
    host.Fits a := by
  refine ⟨fun memory pointers => (Stays.append (hfits.pointers memory pointers)).1,
    fun memory pointers before c after heq => ?_, fun memory pointers before after heq => ?_⟩
  · exact hfits.kept memory pointers before c (after ++ b) (by rw [heq, append_assoc]; rfl)
  · exact hfits.inside memory pointers before (after ++ b) (by rw [heq, append_assoc])

end Fits

end Shapes

/-! ### Counting bits and tokens -/

section Counting

variable {τ : Type} {host : Host τ} {s : Shape} {calls a b : List (HeaderCall τ)}

def HeaderCall.size : HeaderCall τ → ℕ
  | .token _ => 0
  | .write w => w.size

def HeaderCall.isToken : HeaderCall τ → Bool
  | .token _ => true
  | .write _ => false

/-- A call that writes at most a byte at a time. -/
def HeaderCall.ShortWrite : HeaderCall τ → Prop
  | .token _ => False
  | .write w => w.Short

/-- Short writes are proper. -/
theorem proper_of_shortWrites (hcalls : ∀ c ∈ calls, c.ShortWrite) : host.Proper true calls := by
  induction calls with
  | nil => trivial
  | cons c calls ih =>
    rw [forall_mem_cons] at hcalls
    cases c with
    | token type => exact hcalls.1.elim
    | write w => exact ⟨rfl, hcalls.1, ih hcalls.2⟩

/-- The number of bits that calls write. -/
def callsSize (calls : List (HeaderCall τ)) : ℕ := (calls.map HeaderCall.size).sum

/-- The number of tokens among the calls. -/
def tokenCount (calls : List (HeaderCall τ)) : ℕ := calls.countP HeaderCall.isToken

@[simp] theorem callsSize_nil : callsSize ([] : List (HeaderCall τ)) = 0 := rfl

@[simp] theorem callsSize_cons (c : HeaderCall τ) : callsSize (c :: calls) = c.size + callsSize calls :=
  rfl

@[simp] theorem callsSize_append : callsSize (a ++ b) = callsSize a + callsSize b := by
  rw [callsSize, map_append, sum_append]
  rfl

@[simp] theorem tokenCount_append : tokenCount (a ++ b) = tokenCount a + tokenCount b :=
  countP_append

namespace Shape

/-- The shape after two sequences. -/
theorem run_append : s.run host (a ++ b) = (s.run host a).run host b := foldl_append

/-- Bits written twice. -/
theorem Valid.write_write (hs : s.Valid) (m n : ℕ) : (s.write m).write n = s.write (m + n) := by
  have hle := hs.size_le
  rw [Shape.write, Shape.write, Shape.write, Shape.mk.injEq]
  dsimp only
  refine ⟨?_, ?_, rfl, ?_⟩ <;> omega

/-- Bits for which the last element has room. -/
theorem write_of_le {n : ℕ} (hle : s.size + n ≤ 120) : s.write n = { s with size := s.size + n } := by
  have hzero : (s.size + n - 1) / 120 = 0 := by omega
  rw [Shape.write, hzero]
  rfl

/-- Bits in a row are written as one. -/
theorem Valid.run_writes (hs : s.Valid) (hraw : s.raw = true)
    (hcalls : ∀ c ∈ calls, c.ShortWrite) : s.run host calls = s.write (callsSize calls) := by
  induction calls generalizing s with
  | nil => exact (@write_of_le s 0 hs.size_le).symm
  | cons c calls ih =>
    rw [forall_mem_cons] at hcalls
    cases c with
    | token type => exact nomatch hcalls.1
    | write w =>
      rw [callsSize_cons, HeaderCall.size, ← hs.write_write]
      exact ih (hs.write hraw _) hraw hcalls.2

/-- The tokens and the bits bound the number of elements and the bytes that they take. -/
theorem Valid.run_le (hs : s.Valid) (hproper : host.Proper s.raw calls) :
    120 * (s.run host calls).before + (s.run host calls).size ≤
      120 * s.before + s.size + (120 * tokenCount calls + callsSize calls) ∧
    8 * (s.run host calls).address + (s.run host calls).size + 40 * s.before ≤
      8 * s.address + s.size + (40 * (s.run host calls).before + 31 * tokenCount calls +
        callsSize calls) := by
  induction calls generalizing s with
  | nil =>
    simp only [run, foldl_nil, tokenCount, countP_nil, callsSize_nil]
    omega
  | cons c calls ih =>
    cases c with
    | token type =>
      obtain ⟨hbefore, haddress⟩ := ih (.token (host.isRawCode (host.code type))) hproper
      have hcount : tokenCount (.token type :: calls) = tokenCount calls + 1 :=
        countP_cons_of_pos rfl
      have htoken : (s.token (host.isRawCode (host.code type))).before = s.before + 1 := rfl
      have hzero : (s.token (host.isRawCode (host.code type))).size = 0 := rfl
      have hnext : 8 * (s.token (host.isRawCode (host.code type))).address ≤
          8 * s.address + s.size + 71 := by
        rw [Shape.token, stop]
        dsimp only
        split <;> omega
      rw [htoken, hzero] at hbefore haddress
      rw [hcount, callsSize_cons, HeaderCall.size]
      change 120 * ((s.token _).run host calls).before + ((s.token _).run host calls).size ≤ _ ∧
        8 * ((s.token _).run host calls).address + ((s.token _).run host calls).size + _ ≤
          _ + (40 * ((s.token _).run host calls).before + _ + _)
      omega
    | write w =>
      obtain ⟨hbefore, haddress⟩ := ih (hs.write hproper.1 w.size) hproper.2.2
      have hcount : tokenCount (.write w :: calls) = tokenCount calls :=
        countP_cons_of_neg Bool.false_ne_true
      have hwrite : 120 * (s.write w.size).before + (s.write w.size).size =
            120 * s.before + s.size + w.size ∧
          8 * (s.write w.size).address + (s.write w.size).size + 40 * s.before =
            8 * s.address + s.size + (40 * (s.write w.size).before + w.size) := by
        rw [Shape.write]
        dsimp only
        omega
      rw [hcount, callsSize_cons, HeaderCall.size]
      change 120 * ((s.write _).run host calls).before + ((s.write _).run host calls).size ≤ _ ∧
        8 * ((s.write _).run host calls).address + ((s.write _).run host calls).size + _ ≤
          _ + (40 * ((s.write _).run host calls).before + _ + _)
      omega

end Shape

/-- A header of few tokens and bits fits. -/
theorem fits_of_few {type : τ} (hun : host.Unchecked)
    (hproper : host.Proper (host.isRawCode (host.code type)) calls)
    (hfew : 120 * tokenCount calls + callsSize calls < 1440) (hbits : callsSize calls < 800) :
    host.Fits (.token type :: calls) := by
  obtain ⟨hbefore, haddress⟩ :=
    (Shape.valid_first (host.isRawCode (host.code type))).run_le hproper
  obtain ⟨hzero, hzero', hzero''⟩ : (Shape.first (host.isRawCode (host.code type))).before = 0 ∧
      (Shape.first (host.isRawCode (host.code type))).size = 0 ∧
      (Shape.first (host.isRawCode (host.code type))).address = 0 := ⟨rfl, rfl, rfl⟩
  refine fits_of_shape hun hproper ?_ ?_
  · rw [Host.shape, maxNumberElements]
    omega
  · rw [Host.shape, Shape.reach, elementStreamSize]
    omega

/-- Calls that begin and end in an element that holds bits. -/
structure Host.Keeps (host : Host τ) (calls : List (HeaderCall τ)) : Prop where
  proper : ∀ rest, host.Proper true rest → host.Proper true (calls ++ rest)

namespace Host.Keeps

/-- No calls keep the element. -/
theorem nil : host.Keeps [] := ⟨fun _ h => h⟩

/-- Two sequences that keep it. -/
theorem append (ha : host.Keeps a) (hb : host.Keeps b) : host.Keeps (a ++ b) :=
  ⟨fun rest h => by
    rw [append_assoc]
    exact ha.proper _ (hb.proper rest h)⟩

/-- Short writes keep it. -/
theorem of_shortWrites (hcalls : ∀ c ∈ calls, c.ShortWrite) : host.Keeps calls := by
  refine ⟨fun rest hrest => ?_⟩
  have hproper := @Shape.proper_append _ host (Shape.first true) calls rest
    (proper_of_shortWrites hcalls)
  rw [(Shape.valid_first true).run_writes rfl hcalls] at hproper
  exact hproper hrest

end Host.Keeps

end Counting

end HardwareIntel.Topaz
