import Mathlib.Tactic.Ring
import HardwareIntel.Library.ByteFile
import HardwareIntel.Library.Space

/-!
# Key blobs of the software keymaster

`wrap_key` writes a header, the type of a key, a public length that is always zero and the private key;
`unwrap_key` finds the private key again. It reads both lengths as signed numbers and adds them to a
pointer before it compares: `unwrap_key_delimited`.
-/

namespace HardwareIntel.Keymaster.SoftKey

open List Option

/-- Pointers of 32 bits. -/
abbrev Address := BitVec 32

/-- The bytes of an `int` from the highest, as `wrap_key` writes them. -/
def intBytes (v : BitVec 32) : List UInt8 :=
  [3, 2, 1, 0].map fun i => ⟨(v.sshiftRight (8 * i) &&& 0xFF).setWidth 8⟩

/-- The `int` of four bytes, as `unwrap_key` reads it. -/
def ofBytes (bytes : List UInt8) : BitVec 32 :=
  bytes.foldl (fun v b => v <<< 8 ||| b.toBitVec.setWidth 32) 0

/-- `wrap_key`, from the header of soft keys and the encoding of a private key: the blob and the length
that is reported. -/
def wrapKey (header der : List UInt8) (type : BitVec 32) : Option (List UInt8 × BitVec 32) :=
  let publicLen : BitVec 32 := 0
  let privateLen := BitVec.ofNat 32 der.length
  if privateLen.toInt ≤ 0 then none
  else
    let keyBlobLength := BitVec.ofNat 32 header.length + 4 + 4 + privateLen + 4 + publicLen
    some (header ++ intBytes type ++ intBytes publicLen ++ intBytes privateLen ++ der, keyBlobLength)

/-- The arguments of `d2i_PrivateKey`. -/
structure D2iCall where
  type : BitVec 32
  p : Address
  length : BitVec 32

/-- What `unwrap_key` reads, and its call of `d2i_PrivateKey`. -/
structure Outcome where
  reads : List Address
  call : Option D2iCall

def readInt (mem : Address → UInt8) (p : Address) : BitVec 32 := ofBytes (contents mem p 4)

/-- `is_softkey`: the blob starts with the header. -/
def isSoftkey (header : List UInt8) (mem : Address → UInt8) (keyBlob : Address) : Bool :=
  contents mem keyBlob header.length == header

/-- `unwrap_key`, with pointers and lengths modulo `2 ^ 32`. -/
def unwrapKey (header : List UInt8) (mem : Address → UInt8) (keyBlob keyBlobLength : BitVec 32) :
    Outcome :=
  let headerSize := BitVec.ofNat 32 header.length
  let last := keyBlob + keyBlobLength
  if keyBlob = 0 then ⟨[], none⟩
  else if keyBlobLength < headerSize + 4 + 4 + 1 + 4 + 1 then ⟨[], none⟩
  else if ¬ isSoftkey header mem keyBlob then ⟨span keyBlob header.length, none⟩
  else
    let p := keyBlob + headerSize
    let type := readInt mem p
    let publicLen := readInt mem (p + 4)
    let reads := span keyBlob header.length ++ span p 4 ++ span (p + 4) 4
    let p := p + 4 + 4
    if p + publicLen > last then ⟨reads, none⟩
    else
      let p := p + publicLen
      if (last - p).toInt < 2 then ⟨reads, none⟩
      else
        let privateLen := readInt mem p
        let reads := reads ++ span p 4
        let p := p + 4
        if p + privateLen > last then ⟨reads, none⟩ else ⟨reads, some ⟨type, p, privateLen⟩⟩

/-- A blob in memory. -/
structure Offered (mem : Address → UInt8) (keyBlob : Address) (blob : List UInt8) : Prop where
  address : keyBlob ≠ 0
  fits : keyBlob.toNat + blob.length < 2 ^ 32
  bytes : ∀ i (hi : i < blob.length), mem (keyBlob + BitVec.ofNat 32 i) = blob[i]

/-- Only bytes of the blob are read, and the private key is a range of them. -/
structure Outcome.Inside (o : Outcome) (keyBlob : Address) (n : ℕ) : Prop where
  reads : ∀ a ∈ o.reads, keyBlob.toNat ≤ a.toNat ∧ a.toNat < keyBlob.toNat + n
  call : ∀ c ∈ o.call, 0 ≤ c.length.toInt ∧ keyBlob.toNat ≤ c.p.toNat ∧
    c.p.toNat + c.length.toInt ≤ keyBlob.toNat + n

theorem Outcome.inside_iff (o : Outcome) (keyBlob : Address) (n : ℕ) :
    o.Inside keyBlob n ↔
      (∀ a ∈ o.reads, keyBlob.toNat ≤ a.toNat ∧ a.toNat < keyBlob.toNat + n) ∧
      ∀ c ∈ o.call, 0 ≤ c.length.toInt ∧ keyBlob.toNat ≤ c.p.toNat ∧
        c.p.toNat + c.length.toInt ≤ keyBlob.toNat + n :=
  ⟨fun h => ⟨h.reads, h.call⟩, fun h => ⟨h.1, h.2⟩⟩

/-- The `int` at a position of a blob. -/
def intAt (blob : List UInt8) (pos : ℕ) : BitVec 32 := ofBytes (readAt blob pos 4)

/-- The distance of the private length from the end, modulo `2 ^ 32`. -/
def rest (header blob : List UInt8) : BitVec 32 :=
  BitVec.ofNat 32 (blob.length - (header.length + 8)) - intAt blob (header.length + 4)

theorem getLsbD_byte {i : ℕ} (hi : i < 8) : (0xFF : BitVec 32).getLsbD i = true := by
  have hall : ∀ i < 8, (0xFF : BitVec 32).getLsbD i = true := by decide
  exact hall i hi

/-- One round of the loop that reads puts the next byte below the bits above it. -/
theorem shift_or_byte (v : BitVec 32) {k : ℕ} (hk : k + 8 ≤ 32) :
    (v >>> (k + 8)) <<< 8 ||| ((v.sshiftRight k &&& 0xFF).setWidth 8).setWidth 32 = v >>> k := by
  refine BitVec.eq_of_getLsbD_eq fun i hi => ?_
  rw [BitVec.getLsbD_or, BitVec.getLsbD_shiftLeft, BitVec.getLsbD_ushiftRight,
    BitVec.getLsbD_ushiftRight, BitVec.getLsbD_setWidth, BitVec.getLsbD_setWidth, BitVec.getLsbD_and,
    BitVec.getLsbD_sshiftRight]
  by_cases hlow : i < 8
  · have hbit : k + i < 32 := by omega
    rw [getLsbD_byte hlow]
    simp [hi, hlow, hbit, not_le.mpr hi]
  · have hbit : k + 8 + (i - 8) = k + i := by omega
    simp [hi, hlow, hbit]

/-- An `int` that was written is read back. -/
theorem ofBytes_intBytes (v : BitVec 32) : ofBytes (intBytes v) = v := by
  have hzero : (0 : BitVec 32) <<< 8 = (v >>> (24 + 8)) <<< 8 := by
    rw [BitVec.ushiftRight_eq_zero (by decide)]
    rfl
  have hround (i : ℕ) (hi : 8 * i + 8 ≤ 32) := shift_or_byte v hi
  simp only [ofBytes, intBytes, map_cons, map_nil, foldl_cons, foldl_nil]
  rw [hzero, hround 3 (by decide), hround 2 (by decide), hround 1 (by decide), hround 0 (by decide)]
  rfl

theorem length_intBytes (v : BitVec 32) : (intBytes v).length = 4 := rfl

section Offered

variable {header blob : List UInt8} {mem : Address → UInt8} {keyBlob : Address}
  (h : Offered mem keyBlob blob)

include h

theorem Offered.toNat_add {i : ℕ} (hi : i ≤ blob.length) :
    (keyBlob + BitVec.ofNat 32 i).toNat = keyBlob.toNat + i := by
  have hfits := h.fits
  exact toNat_add_ofNat (by omega)

/-- The bytes of a part of the blob. -/
theorem Offered.contents {pos n : ℕ} (hn : pos + n ≤ blob.length) :
    contents mem (keyBlob + BitVec.ofNat 32 pos) n = readAt blob pos n := by
  refine ext_getElem ?_ fun i hi hi' => ?_
  · rw [length_contents, length_readAt_of_le hn]
  · rw [length_readAt_of_le hn] at hi'
    have hadd : keyBlob + BitVec.ofNat 32 pos + BitVec.ofNat 32 i =
        keyBlob + BitVec.ofNat 32 (pos + i) := by rw [BitVec.add_assoc, BitVec.ofNat_add]
    simp only [HardwareIntel.contents, span, readAt, getElem_map, getElem_range, getElem_take,
      getElem_drop, hadd]
    exact h.bytes (pos + i) (by omega)

theorem Offered.readInt {pos : ℕ} (hpos : pos + 4 ≤ blob.length) :
    readInt mem (keyBlob + BitVec.ofNat 32 pos) = intAt blob pos := by
  rw [SoftKey.readInt, h.contents hpos, intAt]

theorem Offered.isSoftkey_iff (hheader : header.length ≤ blob.length) :
    isSoftkey header mem keyBlob = true ↔ header <+: blob := by
  have hspan := h.contents ((Nat.zero_add _).trans_le hheader)
  rw [BitVec.add_zero] at hspan
  rw [isSoftkey, hspan, beq_iff_eq, readAt, drop_zero, prefix_iff_eq_take, eq_comm]

/-- The addresses of a part of the blob. -/
theorem Offered.mem_span {pos n : ℕ} (hn : pos + n ≤ blob.length) {a : Address}
    (ha : a ∈ span (keyBlob + BitVec.ofNat 32 pos) n) :
    keyBlob.toNat ≤ a.toNat ∧ a.toNat < keyBlob.toNat + blob.length := by
  obtain ⟨i, hi, rfl⟩ := mem_map.mp ha
  rw [mem_range] at hi
  rw [BitVec.add_assoc, ← BitVec.ofNat_add, h.toNat_add (by omega)]
  omega

end Offered

section

variable {header blob : List UInt8} {mem : Address → UInt8} {keyBlob : Address}

/-- A pointer before the end, in 32 bits, is past it if the distance is more than the end itself. -/
theorem lt_sub_iff (last d : BitVec 32) : last - d > last ↔ last.toNat < d.toNat := by
  rw [gt_iff_lt, BitVec.lt_def, BitVec.toNat_sub]
  omega

theorem toInt_lt_two_iff (d : BitVec 32) : d.toInt < 2 ↔ d.toNat < 2 ∨ 2 ^ 31 ≤ d.toNat := by
  rw [BitVec.toInt_eq_toNat_cond]
  split <;> omega

/-- Where the pointer is behind the public key. -/
theorem public_end (hsize : header.length + 8 ≤ blob.length) :
    keyBlob + BitVec.ofNat 32 header.length + 4 + 4 + intAt blob (header.length + 4) =
      keyBlob + BitVec.ofNat 32 blob.length - rest header blob := by
  have hlength : BitVec.ofNat 32 blob.length =
      BitVec.ofNat 32 (blob.length - (header.length + 8)) + (BitVec.ofNat 32 header.length + 8) := by
    rw [show (8 : BitVec 32) = BitVec.ofNat 32 8 from rfl, ← BitVec.ofNat_add, ← BitVec.ofNat_add,
      Nat.sub_add_cancel hsize]
  rw [rest, hlength]
  ring

theorem unwrapKey_eq (hheader : header.length + 14 < 2 ^ 32) (h : Offered mem keyBlob blob) :
    unwrapKey header mem keyBlob (BitVec.ofNat 32 blob.length) =
      let d := rest header blob
      let p := keyBlob + BitVec.ofNat 32 blob.length - d
      let privateLen := readInt mem p
      let reads := span keyBlob header.length ++
        span (keyBlob + BitVec.ofNat 32 header.length) 4 ++
        span (keyBlob + BitVec.ofNat 32 (header.length + 4)) 4
      if blob.length < header.length + 14 then ⟨[], none⟩
      else if ¬ header <+: blob then ⟨span keyBlob header.length, none⟩
      else if keyBlob.toNat + blob.length < d.toNat then ⟨reads, none⟩
      else if d.toNat < 2 ∨ 2 ^ 31 ≤ d.toNat then ⟨reads, none⟩
      else if keyBlob.toNat + blob.length < (d - 4 - privateLen).toNat then
        ⟨reads ++ span p 4, none⟩
      else ⟨reads ++ span p 4, some ⟨intAt blob header.length, p + 4, privateLen⟩⟩ := by
  have hfits := h.fits
  have hshort : BitVec.ofNat 32 blob.length < BitVec.ofNat 32 header.length + 4 + 4 + 1 + 4 + 1 ↔
      blob.length < header.length + 14 := by
    rw [BitVec.lt_def]
    have hfour : (4 : BitVec 32).toNat = 4 := rfl
    have hone : (1 : BitVec 32).toNat = 1 := rfl
    simp only [BitVec.toNat_add, BitVec.toNat_ofNat, hfour, hone]
    omega
  have hend : (keyBlob + BitVec.ofNat 32 blob.length).toNat = keyBlob.toNat + blob.length :=
    h.toNat_add le_rfl
  rw [unwrapKey]
  simp only [h.address, if_false, hshort]
  by_cases hlength : blob.length < header.length + 14
  · simp [hlength]
  simp only [hlength, if_false, h.isSoftkey_iff (by omega : header.length ≤ blob.length)]
  by_cases hstarts : header <+: blob
  swap
  · simp [hstarts]
  have hfour : keyBlob + BitVec.ofNat 32 header.length + 4 =
      keyBlob + BitVec.ofNat 32 (header.length + 4) := by
    rw [BitVec.ofNat_add, BitVec.add_assoc]
    rfl
  have hsub (last d v : BitVec 32) : last - d + 4 + v = last - (d - 4 - v) := by ring
  have hsub' (last d : BitVec 32) : last - (last - d) = d := by ring
  have hpublic := @public_end header blob keyBlob (by omega)
  rw [hfour] at hpublic
  simp only [hstarts, not_true_eq_false, if_false, hfour,
    h.readInt (by omega : header.length + 4 ≤ blob.length),
    h.readInt (by omega : header.length + 4 + 4 ≤ blob.length), hpublic, lt_sub_iff, hsub, hsub',
    toInt_lt_two_iff, hend]

/-- The condition on a blob: a public length that is refused, or leaves four bytes of the blob, and a
private length that is refused, or is one of the remaining bytes. -/
def Delimited (header blob : List UInt8) (keyBlob : Address) : Prop :=
  let d := rest header blob
  let privateLen := intAt blob (blob.length - d.toNat)
  blob.length < header.length + 14 ∨ ¬ header <+: blob ∨
    keyBlob.toNat + blob.length < d.toNat ∨ d.toNat < 2 ∨ 2 ^ 31 ≤ d.toNat ∨
    (4 ≤ d.toNat ∧ d.toNat ≤ blob.length ∧
      (keyBlob.toNat + blob.length < (d - 4 - privateLen).toNat ∨
        0 ≤ privateLen.toInt ∧ privateLen.toInt ≤ d.toNat - 4))

section

variable (h : Offered mem keyBlob blob)
include h

/-- The reads before the private length are inside. -/
theorem Offered.first_reads (hlength : header.length + 14 ≤ blob.length) {a : Address}
    (ha : a ∈ span keyBlob header.length ++ span (keyBlob +
      BitVec.ofNat 32 header.length) 4 ++ span (keyBlob + BitVec.ofNat 32 (header.length + 4)) 4) :
    keyBlob.toNat ≤ a.toNat ∧ a.toNat < keyBlob.toNat + blob.length := by
  rw [mem_append, mem_append] at ha
  obtain (ha | ha) | ha := ha
  · rw [← BitVec.add_zero keyBlob] at ha
    have hspan : a ∈ span (keyBlob + BitVec.ofNat 32 0) _ := ha
    exact h.mem_span (by omega) hspan
  · exact h.mem_span (by omega) ha
  · exact h.mem_span (by omega) ha

variable {d : BitVec 32}

/-- The pointer behind the public key. -/
theorem Offered.toNat_public_end (hd : d.toNat ≤ keyBlob.toNat + blob.length) :
    (keyBlob + BitVec.ofNat 32 blob.length - d).toNat = keyBlob.toNat + blob.length - d.toNat := by
  have hfits := h.fits
  rw [BitVec.toNat_sub, h.toNat_add le_rfl]
  omega

theorem Offered.public_end_eq (hd : d.toNat ≤ blob.length) :
    keyBlob + BitVec.ofNat 32 blob.length - d =
      keyBlob + BitVec.ofNat 32 (blob.length - d.toNat) := by
  refine BitVec.eq_of_toNat_eq ?_
  rw [h.toNat_public_end (hd.trans (Nat.le_add_left _ _)), h.toNat_add (Nat.sub_le _ _)]
  omega

/-- The private length is read inside the blob exactly when four bytes remain and the pointer did not go
back over the beginning. -/
theorem Offered.span_public_end (hd : d.toNat ≤ keyBlob.toNat + blob.length) :
    (∀ a ∈ span (keyBlob + BitVec.ofNat 32 blob.length - d) 4,
      keyBlob.toNat ≤ a.toNat ∧ a.toNat < keyBlob.toNat + blob.length) ↔
      4 ≤ d.toNat ∧ d.toNat ≤ blob.length := by
  have hpoint := h.toNat_public_end hd
  constructor
  · intro hspan
    have hat {i : ℕ} (hi : i < 4) := hspan _ (mem_map.mpr ⟨i, mem_range.mpr hi, rfl⟩)
    have hfirst := (hat (by decide : 0 < 4)).1
    rw [BitVec.add_zero, hpoint] at hfirst
    refine ⟨not_lt.mp fun hfour => ?_, by omega⟩
    -- The end itself is read.
    have hlast := (hat hfour).2
    rw [BitVec.ofNat_toNat, BitVec.setWidth_eq, sub_add_cancel, h.toNat_add le_rfl] at hlast
    exact lt_irrefl _ hlast
  · rintro ⟨hfour, hle⟩ a ha
    rw [h.public_end_eq hle] at ha
    exact h.mem_span (by omega) ha

/-- The private key is delimited exactly when its length is not negative and not too large. -/
theorem Offered.call_inside {privateLen type : BitVec 32} (hfour : 4 ≤ d.toNat)
    (hle : d.toNat ≤ blob.length) :
    (∀ c ∈ if keyBlob.toNat + blob.length < (d - 4 - privateLen).toNat then none
        else some (D2iCall.mk type (keyBlob + BitVec.ofNat 32 blob.length - d + 4) privateLen),
      0 ≤ c.length.toInt ∧ keyBlob.toNat ≤ c.p.toNat ∧
        c.p.toNat + c.length.toInt ≤ keyBlob.toNat + blob.length) ↔
      (keyBlob.toNat + blob.length < (d - 4 - privateLen).toNat ∨
        0 ≤ privateLen.toInt ∧ privateLen.toInt ≤ d.toNat - 4) := by
  have hfits := h.fits
  have hpoint : (keyBlob + BitVec.ofNat 32 blob.length - d + 4).toNat =
      keyBlob.toNat + blob.length - d.toNat + 4 := by
    have hnum : (4 : BitVec 32).toNat = 4 := rfl
    rw [BitVec.toNat_add, h.toNat_public_end (by omega), hnum]
    omega
  by_cases hpast : keyBlob.toNat + blob.length < (d - 4 - privateLen).toNat
  · rw [if_pos hpast]
    exact iff_of_true (fun _ hc => nomatch hc) (.inl hpast)
  · rw [if_neg hpast]
    simp only [mem_def, some.injEq, forall_eq', hpoint, hpast, false_or]
    omega

end

/-- `unwrap_key` stays inside a blob exactly if both lengths are refused or delimit parts of it. -/
theorem unwrapKey_inside_iff (hheader : header.length + 14 < 2 ^ 32)
    (h : Offered mem keyBlob blob) :
    (unwrapKey header mem keyBlob (BitVec.ofNat 32 blob.length)).Inside keyBlob blob.length ↔
      Delimited header blob keyBlob := by
  have hnone {reads : List Address} (hreads : ∀ a ∈ reads, keyBlob.toNat ≤ a.toNat ∧
      a.toNat < keyBlob.toNat + blob.length) :
      Outcome.Inside ⟨reads, none⟩ keyBlob blob.length :=
    ⟨hreads, fun _ hc => nomatch hc⟩
  rw [unwrapKey_eq hheader h, Delimited]
  by_cases hlength : blob.length < header.length + 14
  · rw [if_pos hlength]
    exact iff_of_true (hnone (forall_mem_nil _)) (.inl hlength)
  have hfirst {a : Address} := @Offered.first_reads header blob mem keyBlob h (by omega) a
  rw [if_neg hlength]
  by_cases hstarts : header <+: blob
  swap
  · rw [if_pos hstarts]
    refine iff_of_true (hnone fun a ha => hfirst ?_) (.inr (.inl hstarts))
    exact mem_append_left _ (mem_append_left _ ha)
  rw [if_neg (not_not.mpr hstarts)]
  generalize rest header blob = d
  by_cases hpast : keyBlob.toNat + blob.length < d.toNat
  · rw [if_pos hpast]
    exact iff_of_true (hnone fun a => hfirst) (by tauto)
  rw [if_neg hpast]
  by_cases hshort : d.toNat < 2 ∨ 2 ^ 31 ≤ d.toNat
  · rw [if_pos hshort]
    exact iff_of_true (hnone fun a => hfirst) (by tauto)
  rw [if_neg hshort]
  have hspan := h.span_public_end (not_lt.mp hpast)
  rw [← apply_ite (Outcome.mk _), Outcome.inside_iff, forall_mem_append, hspan]
  by_cases hread : 4 ≤ d.toNat ∧ d.toNat ≤ blob.length
  · obtain ⟨hfour, hle⟩ := hread
    have hback : keyBlob + BitVec.ofNat 32 blob.length - d =
        keyBlob + BitVec.ofNat 32 (blob.length - d.toNat) := h.public_end_eq hle
    have hint := h.readInt (show blob.length - d.toNat + 4 ≤ blob.length by omega)
    rw [h.call_inside hfour hle, hback, hint]
    tauto
  · exact iff_of_false (fun hin => hread hin.1.2) (by tauto)

end

section Wrapped

variable {header der : List UInt8} {type : BitVec 32}

/-- The bytes of a blob that `wrap_key` made. -/
def wrapped (header der : List UInt8) (type : BitVec 32) : List UInt8 :=
  header ++ intBytes type ++ intBytes 0 ++ intBytes (BitVec.ofNat 32 der.length) ++ der

theorem length_wrapped : (wrapped header der type).length = header.length + 12 + der.length := by
  simp only [wrapped, length_append, length_intBytes]

theorem eq_wrapped_of_wrapKey {blob : List UInt8} {keyBlobLength : BitVec 32}
    (hwrap : wrapKey header der type = some (blob, keyBlobLength)) :
    blob = wrapped header der type ∧ keyBlobLength = BitVec.ofNat 32 blob.length := by
  obtain ⟨-, hblob⟩ := ite_none_left_eq_some.mp hwrap
  obtain ⟨rfl, rfl⟩ := Prod.mk.inj (some.inj hblob)
  refine ⟨rfl, ?_⟩
  rw [show (header ++ intBytes type ++ intBytes 0 ++ intBytes (BitVec.ofNat 32 der.length) ++ der).length =
    header.length + 4 + 4 + der.length + 4 + 0 from length_wrapped.trans (by omega)]
  simp only [BitVec.ofNat_add]
  rfl

/-- The fields of the blob. -/
theorem intAt_wrapped : intAt (wrapped header der type) header.length = type ∧
    intAt (wrapped header der type) (header.length + 4) = 0 ∧
    intAt (wrapped header der type) (header.length + 8) = BitVec.ofNat 32 der.length := by
  simp only [intAt, wrapped, append_assoc]
  refine ⟨?_, ?_, ?_⟩
  · rw [readAt_middle rfl (length_intBytes type), ofBytes_intBytes]
  · rw [← append_assoc, readAt_middle (by rw [length_append, length_intBytes])
      (length_intBytes 0), ofBytes_intBytes]
  · rw [← append_assoc, ← append_assoc,
      readAt_middle (by rw [length_append, length_append, length_intBytes, length_intBytes])
      (length_intBytes _), ofBytes_intBytes]

theorem readAt_wrapped :
    readAt (wrapped header der type) (header.length + 12) der.length = der := by
  have hdrop : (wrapped header der type).drop (header.length + 12) = der := by
    refine drop_left' ?_
    simp [length_intBytes]
  rw [readAt, hdrop, take_length]

/-- `d2i_PrivateKey` is given the type and the bytes. -/
def Outcome.PassesOn (o : Outcome) (mem : Address → UInt8) (type : BitVec 32) (der : List UInt8) :
    Prop :=
  ∃ p length, o.call = some ⟨type, p, length⟩ ∧ length.toInt = der.length ∧
    contents mem p der.length = der

/-- A wrapped key is unwrapped exactly when it is longer than a byte, and the blob behind the public length
is not half of the address space. -/
theorem unwrap_wrapped_iff {blob : List UInt8} {keyBlobLength : BitVec 32}
    {mem : Address → UInt8} {keyBlob : Address} (hheader : header.length + 14 < 2 ^ 32)
    (hwrap : wrapKey header der type = some (blob, keyBlobLength))
    (h : Offered mem keyBlob blob) :
    (unwrapKey header mem keyBlob keyBlobLength).PassesOn mem type der ↔
      2 ≤ der.length ∧ der.length + 4 < 2 ^ 31 := by
  obtain ⟨rfl, rfl⟩ := eq_wrapped_of_wrapKey hwrap
  have hfits := h.fits
  rw [length_wrapped] at hfits
  obtain ⟨htype, hpublic, hprivate⟩ := @intAt_wrapped header der type
  have hstarts : header <+: wrapped header der type := by
    simp only [wrapped, append_assoc]
    exact prefix_append _ _
  have hrest : rest header (wrapped header der type) = BitVec.ofNat 32 (der.length + 4) := by
    rw [rest, hpublic, length_wrapped, sub_zero]
    congr 1
    omega
  have hnat : (rest header (wrapped header der type)).toNat = der.length + 4 := by
    rw [hrest, BitVec.toNat_ofNat]
    exact Nat.mod_eq_of_lt (by omega)
  rw [unwrapKey_eq hheader h]
  simp only [hstarts, not_true_eq_false, if_false, hnat]
  by_cases hlength : (wrapped header der type).length < header.length + 14
  · rw [if_pos hlength]
    rw [length_wrapped] at hlength
    exact iff_of_false (fun ⟨_, _, hcall, _⟩ => nomatch hcall) (by omega)
  rw [if_neg hlength, if_neg (by rw [length_wrapped]; omega)]
  rw [length_wrapped] at hlength
  by_cases hhalf : der.length + 4 < 2 ∨ 2 ^ 31 ≤ der.length + 4
  · rw [if_pos hhalf]
    exact iff_of_false (fun ⟨_, _, hcall, _⟩ => nomatch hcall) (by omega)
  rw [if_neg hhalf]
  have hpoint : keyBlob + BitVec.ofNat 32 (wrapped header der type).length -
      rest header (wrapped header der type) = keyBlob + BitVec.ofNat 32 (header.length + 8) := by
    rw [h.public_end_eq (by rw [hnat, length_wrapped]; omega), hnat, length_wrapped]
    congr 2
    omega
  have hread := h.readInt (show header.length + 8 + 4 ≤ _ by rw [length_wrapped]; omega)
  have hzero : BitVec.ofNat 32 (der.length + 4) - 4 - BitVec.ofNat 32 der.length = 0 := by
    rw [BitVec.ofNat_add]
    change BitVec.ofNat 32 der.length + 4 - 4 - BitVec.ofNat 32 der.length = 0
    ring
  rw [hpoint, hread, hprivate, hrest, hzero, htype]
  have hnear : ¬ keyBlob.toNat + (wrapped header der type).length < (0 : BitVec 32).toNat :=
    Nat.not_lt_zero _
  refine iff_of_true ⟨_, _, rfl, ?_, ?_⟩ (by omega)
  · rw [BitVec.toInt_ofNat', Int.bmod_eq_of_le (by omega) (by omega)]
  · rw [BitVec.add_assoc, show (4 : BitVec 32) = BitVec.ofNat 32 4 from rfl, ← BitVec.ofNat_add,
      h.contents (by rw [length_wrapped]), readAt_wrapped]

end Wrapped

/-- When a wrapped key comes back, and when a blob is read inside only. -/
theorem unwrap_key_exact {header : List UInt8} (hheader : header.length + 14 < 2 ^ 32)
    {mem : Address → UInt8} {keyBlob : Address} {blob : List UInt8}
    (h : Offered mem keyBlob blob) :
    (∀ (type : BitVec 32) (der : List UInt8) (keyBlobLength : BitVec 32),
      wrapKey header der type = some (blob, keyBlobLength) →
      ((unwrapKey header mem keyBlob keyBlobLength).PassesOn mem type der ↔
        2 ≤ der.length ∧ der.length + 4 < 2 ^ 31)) ∧
    ((unwrapKey header mem keyBlob (BitVec.ofNat 32 blob.length)).Inside keyBlob blob.length ↔
      Delimited header blob keyBlob) :=
  ⟨fun _ _ _ hwrap => unwrap_wrapped_iff hheader hwrap h, unwrapKey_inside_iff hheader h⟩

/-- A memory with a blob at `0x1000`. -/
def memoryWith (blob : List UInt8) (a : Address) : UInt8 := blob.getD (a.toNat - 0x1000) 0

theorem offered_memoryWith {blob : List UInt8} (hlength : blob.length < 2 ^ 31) :
    Offered (memoryWith blob) 0x1000 blob := by
  have hnum : (0x1000 : BitVec 32).toNat = 0x1000 := rfl
  refine ⟨by decide, by omega, fun i hi => ?_⟩
  rw [memoryWith, BitVec.toNat_add, BitVec.toNat_ofNat, hnum, Nat.mod_eq_of_lt (by omega),
    Nat.mod_eq_of_lt (by omega), Nat.add_sub_cancel_left, getD_eq_getElem?_getD,
    List.getElem?_eq_getElem hi, getD_some]

/-- The header of the key store, `PK#8`, and a key of two bytes. -/
theorem unwrap_key_exact_small :
    wrapKey [80, 75, 35, 56] [1, 2] 6 =
        some (wrapped [80, 75, 35, 56] [1, 2] 6, 18) ∧
      (unwrapKey [80, 75, 35, 56] (memoryWith (wrapped [80, 75, 35, 56] [1, 2] 6)) 0x1000 18).PassesOn
        (memoryWith (wrapped [80, 75, 35, 56] [1, 2] 6)) 6 [1, 2] :=
  have h := unwrap_key_exact (by decide) (offered_memoryWith (by decide))
  ⟨by decide, (h.1 6 [1, 2] 18 (by decide)).mpr (by decide)⟩

/-- A public length of four leaves two bytes for the private length. -/
theorem unwrap_key_reads_past : ¬ ∀ (mem : Address → UInt8) (keyBlob : Address) (blob : List UInt8),
    Offered mem keyBlob blob →
    (∀ (type : BitVec 32) (der : List UInt8) (keyBlobLength : BitVec 32),
      wrapKey [80, 75, 35, 56] der type = some (blob, keyBlobLength) →
      (unwrapKey [80, 75, 35, 56] mem keyBlob keyBlobLength).PassesOn mem type der) ∧
    (unwrapKey [80, 75, 35, 56] mem keyBlob (BitVec.ofNat 32 blob.length)).Inside keyBlob
      blob.length := by
  intro h
  have hin := (h _ _ ([80, 75, 35, 56] ++ intBytes 6 ++ intBytes 4 ++ [0, 0, 0, 0, 0, 0])
    (offered_memoryWith (by decide))).2
  have hread := hin.reads (0x1000 + 18) (by decide)
  exact absurd hread (by decide)

end HardwareIntel.Keymaster.SoftKey
