import Mathlib.Data.List.Flatten
import Mathlib.Algebra.BigOperators.Group.List.Basic
import HardwareIntel.Keymaster.Firmware

/-!
# When the keymaster's messages respect their buffers

A command is `placed` chunk by chunk, so it stays in its buffer exactly if its true length does. The
responses are treated one kind after the other; `safe_iff` puts both halves together.
-/

namespace HardwareIntel.Keymaster

open List

section Response

variable {r : Reply} {announced : List (List UInt8) → Prop} {x : Received}

theorem refused_safe : refused.Safe r announced :=
  ⟨forall_mem_nil _, fun _ h => nomatch h⟩

theorem safe_some {reads : List (Offset × ℕ)} {out : List (List UInt8)} :
    Received.Safe r announced ⟨reads, some out⟩ ↔
      (∀ range ∈ reads, Within range.1 range.2 r.rspLen.toNat) ∧
        r.result = 0 ∧ r.dataLength.toNat + 8 = r.rspLen.toNat ∧ announced out := by
  constructor
  · rintro ⟨hreads, hreturned⟩
    exact ⟨hreads, hreturned out rfl⟩
  · rintro ⟨hreads, hreturned⟩
    refine ⟨hreads, fun _ hout => ?_⟩
    obtain rfl := Option.some.inj hout
    exact hreturned

theorem safe_after {pos : Offset} {n : ℕ} :
    (x.after pos n).Safe r announced ↔ Within pos n r.rspLen.toNat ∧ x.Safe r announced := by
  constructor
  · rintro ⟨hreads, hreturned⟩
    obtain ⟨hpos, hreads⟩ := forall_mem_cons.mp hreads
    exact ⟨hpos, hreads, hreturned⟩
  · rintro ⟨hpos, hreads, hreturned⟩
    exact ⟨forall_mem_cons.mpr ⟨hpos, hreads⟩, hreturned⟩

/-- A field at a fixed place is received if the response is long enough. -/
theorem within_field {pos n : ℕ} (hpos : pos + n < 2 ^ 32) (hn : 0 < n) :
    Within (BitVec.ofNat 32 pos) n r.rspLen.toNat ↔ pos + n ≤ r.rspLen.toNat := by
  have hnat : (BitVec.ofNat 32 pos).toNat = pos := by
    exact Nat.mod_eq_of_lt (by omega)
  obtain hlt | hle := Nat.lt_or_ge r.rspLen.toNat pos
  · refine iff_of_false (fun h => ?_) (by omega)
    have hfirst := h _ (mem_span.mpr ⟨0, hn, rfl⟩)
    rw [BitVec.add_zero, hnat] at hfirst
    omega
  · rw [within_iff (hnat.trans_le hle) r.rspLen.isLt, hnat]

instance (r : Reply) (lengthBad : BitVec 32 → Bool) : Decidable (r.Accepted lengthBad) :=
  instDecidableAnd

theorem checkResult_safe_iff {lengthBad : BitVec 32 → Bool} :
    (checkResult r lengthBad x).Safe r announced ↔
      (r.Accepted lengthBad → x.Safe r announced) := by
  have hlt : r.rspLen < 12 ↔ r.rspLen.toNat < 12 := BitVec.lt_def
  rw [checkResult, Reply.Accepted]
  by_cases hsuccess : r.success = true
  swap
  · rw [if_pos hsuccess]
    exact iff_of_true refused_safe fun h => absurd h.1 hsuccess
  by_cases hlength : r.rspLen.toNat < 12
  · rw [if_neg (not_not.mpr hsuccess), if_pos (hlt.mpr hlength)]
    exact iff_of_true refused_safe fun h => absurd h.2.1 (not_le.mpr hlength)
  have hfour := (@within_field r 4 4 (by decide) (by decide)).mpr (by omega)
  have height := (@within_field r 8 4 (by decide) (by decide)).mpr (by omega)
  rw [if_neg (not_not.mpr hsuccess), if_neg (hlt.not.mpr hlength)]
  by_cases hbad : lengthBad r.dataLength = true
  · rw [if_pos hbad]
    refine iff_of_true (safe_after.mpr ⟨hfour, refused_safe⟩) fun h => ?_
    exact absurd (hbad.symm.trans h.2.2.1) (by decide)
  rw [if_neg hbad]
  by_cases hresult : r.result = 0
  · rw [if_neg (not_not.mpr hresult), safe_after, safe_after]
    refine ⟨fun h _ => h.2.2, fun h => ⟨hfour, height, h ?_⟩⟩
    exact ⟨hsuccess, not_lt.mp hlength, Bool.eq_false_iff.mpr hbad, hresult⟩
  · rw [if_pos hresult]
    exact iff_of_true (safe_after.mpr ⟨hfour, safe_after.mpr ⟨height, refused_safe⟩⟩)
      fun h => absurd h.2.2.2 hresult

/-- The sum of lengths that passes the comparison is the length of the response, modulo `2 ^ 32`. -/
theorem toNat_add_eight {v t : BitVec 32} (h : v + 8 = t) : (v.toNat + 8) % 2 ^ 32 = t.toNat := by
  have hnum : (8 : BitVec 32).toNat = 8 := rfl
  rw [← h, BitVec.toNat_add, hnum]

/-- A response with a blob is used safely if the length of the blob is in it. -/
theorem readBlob_safe_iff (env : Env) (hresult : r.result = 0) :
    (readBlob env r).Safe r (fun out => (r.word 12).toNat + 8 = r.dataLength.toNat ∧
      out = [contents r.rspBuf 16 (r.word 12).toNat]) ↔ 16 ≤ r.rspLen.toNat := by
  rw [readBlob, safe_after]
  have hlength := @within_field r 12 4 (by decide) (by decide)
  refine ⟨fun h => hlength.mp h.1, fun hle => ⟨hlength.mpr hle, ?_⟩⟩
  split_ifs with hzero hsum htotal hmalloc
  · exact refused_safe
  · exact refused_safe
  · exact refused_safe
  · have hsum := toNat_add_eight ((add_assoc (r.word 12) 4 4).symm.trans (not_not.mp hsum))
    have htotal := toNat_add_eight (not_not.mp htotal)
    have hnat : (16 : Offset).toNat = 16 := rfl
    have hrange : Within (16 : Offset) (r.word 12).toNat r.rspLen.toNat := by
      rw [within_iff (hnat.trans_le hle) r.rspLen.isLt, hnat]
      omega
    exact safe_some.mpr
      ⟨forall_mem_singleton.mpr hrange, hresult, by omega, by omega, rfl⟩
  · exact refused_safe

/-- The comparison of a public key's lengths, as numbers. -/
theorem sum_eq_iff {m e v : BitVec 32} :
    m + e + 8 + 4 + 4 = v ↔ (m.toNat + e.toNat + 16) % 2 ^ 32 = v.toNat := by
  have height : (8 : BitVec 32).toNat = 8 := rfl
  have hfour : (4 : BitVec 32).toNat = 4 := rfl
  rw [← BitVec.toNat_inj]
  simp only [BitVec.toNat_add, height, hfour]
  omega

theorem add_eight_eq_iff {v t : BitVec 32} (ht : 8 ≤ t.toNat) :
    v + 8 = t ↔ v.toNat + 8 = t.toNat := by
  have height : (8 : BitVec 32).toNat = 8 := rfl
  rw [← BitVec.toNat_inj, BitVec.toNat_add, height]
  omega

/-- The modulus and the exponent are received if their lengths do not wrap around, and the modulus is not
received otherwise. -/
theorem within_key {m e : BitVec 32} (hle : 24 ≤ r.rspLen.toNat)
    (hsum : (m.toNat + e.toNat + 16) % 2 ^ 32 = r.dataLength.toNat)
    (htotal : r.dataLength.toNat + 8 = r.rspLen.toNat) :
    (m.toNat + e.toNat + 16 < 2 ^ 32 →
      Within (24 : Offset) m.toNat r.rspLen.toNat ∧ Within (24 + m) e.toNat r.rspLen.toNat) ∧
    (Within (24 : Offset) m.toNat r.rspLen.toNat → m.toNat + e.toNat + 16 < 2 ^ 32) := by
  have hnat : (24 : Offset).toNat = 24 := rfl
  have hlen := r.rspLen.isLt
  have hmodulus := @within_iff 32 24 m.toNat _ (hnat.trans_le hle) hlen
  rw [hmodulus]
  refine ⟨fun hwrap => ⟨by omega, ?_⟩, fun h => by omega⟩
  have hpos : (24 + m).toNat = 24 + m.toNat := by
    rw [BitVec.toNat_add, hnat]
    omega
  rw [within_iff (by omega) hlen]
  omega

/-- A response with a public key is used safely if the lengths are in it and their sum does not wrap
around. -/
theorem readPublicKey_safe_iff (env : Env) (hlength : 12 ≤ r.rspLen.toNat) (hresult : r.result = 0) :
    (readPublicKey env r).Safe r (fun out => r.word 12 = 1 ∧
      (r.word 16).toNat + (r.word 20).toNat + 16 = r.dataLength.toNat ∧
        out = [contents r.rspBuf 24 (r.word 16).toNat,
          contents r.rspBuf (24 + r.word 16) (r.word 20).toNat]) ↔
      16 ≤ r.rspLen.toNat ∧ (r.word 12 = 1 → 24 ≤ r.rspLen.toNat ∧
        ((r.word 16).toNat + (r.word 20).toNat + 16 < 2 ^ 32 ∨
          ((r.word 16).toNat + (r.word 20).toNat + 16) % 2 ^ 32 ≠ r.dataLength.toNat ∨
          r.dataLength.toNat + 8 ≠ r.rspLen.toNat ∨ env.rsaNew = false)) := by
  have h16 := @within_field r 16 4 (by decide) (by decide)
  have h20 := @within_field r 20 4 (by decide) (by decide)
  rw [readPublicKey, safe_after]
  refine and_congr (@within_field r 12 4 (by decide) (by decide)) ?_
  by_cases htype : r.word 12 = 1
  swap
  · rw [if_pos htype]
    exact iff_of_true refused_safe fun h => absurd h htype
  have hfields : (Within (16 : Offset) 4 r.rspLen.toNat ∧ Within (20 : Offset) 4 r.rspLen.toNat) ↔
      24 ≤ r.rspLen.toNat :=
    ⟨fun h => h20.mp h.2, fun h => ⟨h16.mpr (by omega), h20.mpr h⟩⟩
  rw [if_neg (not_not.mpr htype), safe_after, safe_after, forall_prop_of_true htype, ← and_assoc, hfields]
  refine and_congr_right fun hle => ?_
  by_cases hsum : r.word 16 + r.word 20 + 8 + 4 + 4 = r.dataLength
  swap
  · rw [if_pos hsum]
    exact iff_of_true refused_safe (.inr (.inl (sum_eq_iff.not.mp hsum)))
  by_cases htotal : r.dataLength + 8 = r.rspLen
  swap
  · rw [if_neg (not_not.mpr hsum), if_pos htotal]
    exact iff_of_true refused_safe (.inr (.inr (.inl ((add_eight_eq_iff (by omega)).not.mp htotal))))
  by_cases hrsa : env.rsaNew = true
  swap
  · rw [if_neg (not_not.mpr hsum), if_neg (not_not.mpr htotal), if_pos hrsa]
    exact iff_of_true refused_safe (.inr (.inr (.inr (Bool.eq_false_iff.mpr hrsa))))
  rw [if_neg (not_not.mpr hsum), if_neg (not_not.mpr htotal), if_neg (not_not.mpr hrsa)]
  have hsum := sum_eq_iff.mp hsum
  have htotal := (add_eight_eq_iff (by omega)).mp htotal
  obtain ⟨hwithin, hwrap⟩ := within_key hle hsum htotal
  simp only [hsum, htotal, hrsa, ne_eq, not_true_eq_false, Bool.true_eq_false, or_false]
  constructor
  · intro h
    refine hwrap ?_
    -- The modulus is read first, whatever comes of it.
    split_ifs at h
    · exact (safe_after.mp h).1
    · exact h.reads _ mem_cons_self
    · exact (safe_after.mp h).1
  · intro hlt
    obtain ⟨hmodulus, hexponent⟩ := hwithin hlt
    split_ifs
    · exact safe_after.mpr ⟨hmodulus, safe_after.mpr ⟨hexponent, refused_safe⟩⟩
    · refine safe_some.mpr ⟨?_, hresult, htotal, htype, ?_, rfl⟩
      · exact forall_mem_cons.mpr ⟨hmodulus, forall_mem_singleton.mpr hexponent⟩
      · rw [← hsum, Nat.mod_eq_of_lt hlt]
    · exact safe_after.mpr ⟨hmodulus, refused_safe⟩

theorem noData_safe_iff : noData.Safe r (fun out => out = []) ↔
    r.result = 0 ∧ r.dataLength.toNat + 8 = r.rspLen.toNat := by
  rw [noData, safe_some]
  simp only [and_true]
  exact and_iff_right (forall_mem_nil _)

end Response

section Command

variable {id : BitVec 32} {fixed : List (BitVec 32)} {parts : List (List UInt8)}

theorem length_wordBytes (v : BitVec 32) : (wordBytes v).length = 4 := length_littleEndian 4 _

theorem length_flatten_words (words : List (BitVec 32)) :
    (words.map wordBytes).flatten.length = 4 * words.length := by
  induction words with
  | nil => rfl
  | cons v words ih =>
    rw [map_cons, flatten_cons, length_append, ih, length_wordBytes, length_cons]
    omega

theorem length_flatten_lengths (parts : List (List UInt8)) :
    (parts.map fun part => littleEndian 4 part.length).flatten.length = 4 * parts.length := by
  induction parts with
  | nil => rfl
  | cons part parts ih =>
    rw [map_cons, flatten_cons, length_append, ih, length_littleEndian, length_cons]
    omega

theorem length_message : (message id fixed parts).length =
    8 + (4 * fixed.length + 4 * parts.length + parts.flatten.length) := by
  rw [message, length_append, length_append, length_append, length_append,
    length_wordBytes, length_littleEndian, length_flatten_words, length_flatten_lengths]
  omega

/-- The lengths of the parts, as the functions add them. -/
theorem sum_lengths (parts : List (List UInt8)) :
    (parts.map fun part => BitVec.ofNat 32 part.length).sum = BitVec.ofNat 32 parts.flatten.length := by
  induction parts with
  | nil => rfl
  | cons part parts ih =>
    rw [map_cons, sum_cons, ih, flatten_cons, length_append, BitVec.ofNat_add]

/-- The words of the lengths, which are true below `2 ^ 32`. -/
theorem map_lengths (hparts : parts.flatten.length < 2 ^ 32) :
    (parts.map fun part => BitVec.ofNat 32 part.length).map wordBytes =
      parts.map fun part => littleEndian 4 part.length := by
  rw [map_map]
  refine map_congr_left fun part hpart => ?_
  have hle := (sublist_flatten_of_mem hpart).length_le
  have hnat : (BitVec.ofNat 32 part.length).toNat = part.length := by
    exact Nat.mod_eq_of_lt (by omega)
  exact congrArg (littleEndian 4) hnat

theorem nothing_safe {req : Request} {r : Reply} : Outcome.nothing.Safe req r :=
  ⟨forall_mem_nil _, (fun _ h => nomatch h), refused_safe⟩

/-- `cmd_len` is the length of the command, modulo `2 ^ 32`. -/
theorem toNat_cmdLen : ((parts.map fun part => BitVec.ofNat 32 part.length).sum +
      BitVec.ofNat 32 (4 * fixed.length + 4 * (parts.map fun part => BitVec.ofNat 32 part.length).length) +
      8).toNat = (message id fixed parts).length % 2 ^ 32 := by
  have height : (8 : BitVec 32) = BitVec.ofNat 32 8 := rfl
  rw [sum_lengths, length_map, height, ← BitVec.ofNat_add, ← BitVec.ofNat_add,
    BitVec.toNat_ofNat, length_message]
  congr 1
  omega

/-- The chunks of a command whose length does not wrap around. -/
theorem flatten_chunks (hlength : (message id fixed parts).length < 2 ^ 32) :
    ([wordBytes id, wordBytes ((parts.map fun part => BitVec.ofNat 32 part.length).sum +
      BitVec.ofNat 32 (4 * fixed.length + 4 * (parts.map fun part => BitVec.ofNat 32 part.length).length))] ++
      (fixed ++ parts.map fun part => BitVec.ofNat 32 part.length).map wordBytes ++ parts).flatten =
      message id fixed parts := by
  rw [length_message] at hlength
  have hdata : (BitVec.ofNat 32 (parts.flatten.length + (4 * fixed.length + 4 * parts.length))).toNat =
      4 * fixed.length + 4 * parts.length + parts.flatten.length := by
    rw [BitVec.toNat_ofNat, Nat.mod_eq_of_lt (by omega)]
    omega
  rw [sum_lengths, length_map, ← BitVec.ofNat_add, map_append, map_lengths (by omega)]
  simp only [message, wordBytes, hdata, flatten_append, flatten_cons, flatten_nil,
    append_nil, append_assoc]

theorem length_chunks (v : BitVec 32) :
    ([wordBytes id, wordBytes v] ++
      (fixed ++ parts.map fun part => BitVec.ofNat 32 part.length).map wordBytes ++
      parts).flatten.length = (message id fixed parts).length := by
  rw [flatten_append, flatten_append, length_append, length_append,
    length_flatten_words, length_append, length_map, length_message]
  simp only [flatten_cons, flatten_nil, length_append, length_nil, length_wordBytes]
  omega

/-- A command stays in its buffer, and is complete, exactly if its length is refused or does not wrap
around. -/
theorem command_safe_iff (env : Env) {received : Received} {req : Request} {r : Reply}
    (hreq : req.message = message id fixed parts) :
    (command env id fixed parts received).Safe req r ↔
      (env.buffers = true → maxMessageSize < req.message.length % 2 ^ 32 ∨
        (req.message.length ≤ maxMessageSize ∧ received.Safe r fun out => req.Announced r out)) := by
  have hmax : maxMessageSize < 2 ^ 32 := by decide
  have hzero : (0 : Offset).toNat ≤ maxMessageSize := Nat.zero_le _
  have hcmd := @toNat_cmdLen id fixed parts
  have hover (v : BitVec 32) : v > BitVec.ofNat 32 maxMessageSize ↔ maxMessageSize < v.toNat := by
    rw [gt_iff_lt, BitVec.lt_def, BitVec.toNat_ofNat, Nat.mod_eq_of_lt hmax]
  rw [command]
  by_cases hbuffers : env.buffers = true
  swap
  · rw [if_pos hbuffers]
    exact iff_of_true nothing_safe fun h => absurd h hbuffers
  rw [if_neg (not_not.mpr hbuffers), forall_prop_of_true hbuffers, hreq]
  by_cases hlen : maxMessageSize < (message id fixed parts).length % 2 ^ 32
  · rw [if_pos ((hover _).mpr (hcmd ▸ hlen))]
    refine iff_of_true ⟨(within_placed hmax _ 0 hzero).mpr ?_, (fun _ h => nomatch h), refused_safe⟩
      (.inl hlen)
    exact show 0 + (wordBytes _ ++ (wordBytes _ ++ [])).length ≤ maxMessageSize by
      rw [length_append, append_nil, length_wordBytes, length_wordBytes]
      decide
  · rw [if_neg ((hover _).not.mpr (hcmd ▸ hlen)), or_iff_right hlen]
    constructor
    · rintro ⟨hwrites, -, hreceived⟩
      have hfits := (within_placed hmax _ 0 hzero).mp hwrites
      rw [length_chunks] at hfits
      exact ⟨(Nat.le_add_left _ _).trans hfits, hreceived⟩
    · rintro ⟨hfits, hreceived⟩
      refine ⟨(within_placed hmax _ 0 hzero).mpr ?_, ?_, hreceived⟩
      · rw [length_chunks]
        exact (Nat.zero_add _).trans_le hfits
      · intro cmd hsent
        have hlength := hfits.trans_lt hmax
        rw [← Option.some.inj hsent, hcmd, Nat.mod_eq_of_lt hlength, hreq, ← flatten_chunks hlength]
        exact contents_placed _ env.commandBuffer 
          (by rw [flatten_chunks hlength]; exact (Nat.zero_add _).trans_lt hlength)

/-- The public exponent is stored as two words. -/
theorem littleEndian_eight (v : BitVec 64) :
    littleEndian 8 v.toNat = wordBytes (v.extractLsb' 0 32) ++ wordBytes (v.extractLsb' 32 32) := by
  have hword (n : ℕ) : littleEndian 4 (n % 2 ^ 32) = littleEndian 4 n := littleEndian_mod 4 n
  have hhigh : v.toNat >>> 32 = v.toNat / 256 ^ 4 := Nat.shiftRight_eq_div_pow _ _
  rw [littleEndian_add 4 4, wordBytes, wordBytes, BitVec.extractLsb'_toNat, BitVec.extractLsb'_toNat,
    hword, hword, hhigh, Nat.shiftRight_zero]

theorem exists_wordBytes (v : BitVec 32) : ∃ a b c d, wordBytes v = [a, b, c, d] :=
  ⟨_, _, _, _, rfl⟩

/-- The command of `intel_keymaster_generate_rsa_keypair`, whose fields are written before the header. -/
theorem generate_sent (mem : Offset → UInt8) (modulusSize : BitVec 32) (publicExponent : BitVec 64) :
    contents (stored mem [⟨8, wordBytes 1⟩, ⟨12, wordBytes modulusSize⟩, ⟨16, wordBytes 0⟩,
      ⟨20, littleEndian 8 publicExponent.toNat⟩, ⟨0, wordBytes 1⟩, ⟨4, wordBytes (16 + 4)⟩]) 0
      (16 + 4 + 8) = (Request.generate modulusSize publicExponent).message := by
  obtain ⟨_, _, _, _, hmodulus⟩ := exists_wordBytes modulusSize
  obtain ⟨_, _, _, _, hlow⟩ := exists_wordBytes (publicExponent.extractLsb' 0 32)
  obtain ⟨_, _, _, _, hhigh⟩ := exists_wordBytes (publicExponent.extractLsb' 32 32)
  have hone : wordBytes 1#32 = [1, 0, 0, 0] := rfl
  have hzero : wordBytes 0#32 = [0, 0, 0, 0] := rfl
  have hlength : wordBytes (16 + 4) = littleEndian 4 20 := rfl
  have htwenty : littleEndian 4 20 = [20, 0, 0, 0] := rfl
  rw [littleEndian_eight, hlength]
  simp [Request.message, message, hmodulus, hlow, hhigh, hone, hzero, htwenty, contents, span,
    range_succ, stored, Store.run]

theorem generate_safe_iff (env : Env) (modulusSize : BitVec 32) (publicExponent : BitVec 64)
    (r : Reply) :
    (intelKeymasterGenerateRsaKeypair env modulusSize publicExponent r).Safe
        (.generate modulusSize publicExponent) r ↔
      (env.arguments = true ∧ env.buffers = true → (checkResult r tooSmall (readBlob env r)).Safe r
        fun out => Request.Announced r out (.generate modulusSize publicExponent)) := by
  rw [intelKeymasterGenerateRsaKeypair]
  by_cases hstarted : env.arguments = true ∧ env.buffers = true
  swap
  · rw [if_pos (not_and_or.mp hstarted)]
    exact iff_of_true nothing_safe fun h => absurd h hstarted
  rw [if_neg (not_or.mpr ⟨not_not.mpr hstarted.1, not_not.mpr hstarted.2⟩),
    forall_prop_of_true hstarted]
  refine ⟨fun h => h.received, fun h => ⟨?_, ?_, h⟩⟩
  · have hmax : maxMessageSize < 2 ^ 32 := by decide
    have hat {p n : ℕ} (hp : p + n ≤ 28) : Within (BitVec.ofNat 32 p) n maxMessageSize := by
      have hnat : (BitVec.ofNat 32 p).toNat = p := by
        exact Nat.mod_eq_of_lt (by omega)
      have hsize : p + n ≤ maxMessageSize := hp.trans (by decide)
      rw [within_iff (by omega) hmax]
      omega
    simp only [forall_mem_cons, Store.Within, length_wordBytes, length_littleEndian]
    exact ⟨hat (by decide : 8 + 4 ≤ 28), hat (by decide : 12 + 4 ≤ 28), hat (by decide : 16 + 4 ≤ 28),
      hat (by decide : 20 + 8 ≤ 28), hat (by decide : 0 + 4 ≤ 28), hat (by decide : 4 + 4 ≤ 28),
      forall_mem_nil _⟩
  · intro cmd hsent
    rw [← Option.some.inj hsent]
    exact generate_sent _ _ _

end Command

section

variable (env : Env) (r : Reply)

/-- A call is safe if it is refused, and otherwise if its command and its response are. -/
theorem request_safe_iff {id : BitVec 32} {fixed : List (BitVec 32)} {parts : List (List UInt8)}
    {received : Received} {req : Request} {invalid : Prop} [Decidable invalid]
    (hreq : req.message = message id fixed parts)
    (hstarted : req.Started env ↔ ¬ invalid ∧ env.buffers = true)
    (hreceived : received.Safe r (fun out => req.Announced r out) ↔ req.ReplyFits env r) :
    (if invalid then Outcome.nothing else command env id fixed parts received).Safe req r ↔
      req.Fits env r := by
  rw [Request.Fits, hstarted]
  by_cases hinvalid : invalid
  · rw [if_pos hinvalid]
    exact iff_of_true nothing_safe fun h => absurd hinvalid h.1
  · rw [if_neg hinvalid, command_safe_iff env hreq, hreceived, and_iff_right hinvalid]

theorem blob_safe_iff : (checkResult r tooSmall (readBlob env r)).Safe r (fun out =>
      (r.word 12).toNat + 8 = r.dataLength.toNat ∧ out = [contents r.rspBuf 16 (r.word 12).toNat]) ↔
      (r.Accepted tooSmall → 16 ≤ r.rspLen.toNat) :=
  checkResult_safe_iff.trans (forall_congr' fun h => readBlob_safe_iff env h.2.2.2)

theorem generate_fits_iff (modulusSize : BitVec 32) (publicExponent : BitVec 64) :
    (Request.generate modulusSize publicExponent).Fits env r ↔
      (env.arguments = true ∧ env.buffers = true → r.Accepted tooSmall → 16 ≤ r.rspLen.toNat) := by
  have hlength : (Request.generate modulusSize publicExponent).message.length = 28 := length_message
  have hshort : ¬ maxMessageSize < 28 % 2 ^ 32 := by decide
  have hfits : 28 ≤ maxMessageSize := by decide
  rw [Request.Fits, hlength, or_iff_right hshort, and_iff_right hfits]
  rfl

/-- The functions respect their buffers, send the complete command and return what a consistent response
announces, exactly if the length of the command does not wrap around and the response is not one of those
that they take for longer, or for more consistent, than it is. -/
theorem run_safe_iff (req : Request) : (run env r req).Safe req r ↔ req.Fits env r := by
  cases req with
  | generate modulusSize publicExponent =>
    rw [run, generate_safe_iff, generate_fits_iff]
    exact forall_congr' fun _ => blob_safe_iff env r
  | importKey n e d =>
    refine request_safe_iff env r rfl ?_ (blob_safe_iff env r)
    rw [Request.Started, not_not]
  | unwrapKey keyBlob =>
    refine request_safe_iff env r rfl ?_
      (checkResult_safe_iff.trans (forall_congr' fun h => readPublicKey_safe_iff env h.2.1 h.2.2.2))
    rw [Request.Started]
    tauto
  | sign keyBlob data =>
    refine request_safe_iff env r rfl ?_ (blob_safe_iff env r)
    rw [Request.Started]
    tauto
  | verify keyBlob signedData signature =>
    refine request_safe_iff env r rfl ?_ (checkResult_safe_iff.trans (forall_congr' fun h => ?_))
    · rw [Request.Started]
      tauto
    · obtain ⟨-, -, hlength, hresult⟩ := h
      have hfour : r.dataLength.toNat = 4 := by
        rw [not_not.mp (of_decide_eq_false hlength)]
        rfl
      refine noData_safe_iff.trans ?_
      rw [and_iff_right hresult, hfour, eq_comm]
  | delete keyBlob =>
    refine request_safe_iff env r rfl ?_ (checkResult_safe_iff.trans (forall_congr' fun h => ?_))
    · rw [Request.Started]
      tauto
    · exact noData_safe_iff.trans (and_iff_right h.2.2.2)

end

/-- A response of twelve bytes that says success and announces no data. -/
def shortReply : Reply := ⟨true, 12, fun a => if a = 4 then 4 else 0⟩

/-- `intel_keymaster_generate_rsa_keypair` reads a length behind the response of twelve bytes. -/
theorem generate_reads_past : ¬ ∀ (env : Env) (r : Reply) (req : Request),
    r.rspLen.toNat ≤ maxMessageSize → (run env r req).Safe req r := by
  intro h
  have hsafe := h ⟨true, true, fun _ => 0, fun _ => true, true, fun _ => true, true⟩ shortReply
    (.generate 2048 65537) (by decide)
  have hrange := (blob_safe_iff _ _).mp hsafe.received (by decide)
  exact absurd hrange (by decide)

end HardwareIntel.Keymaster
