import HardwareIntel.VideoEncoder.PackedHeaders

/-!
# Packed SEI messages

`build_packed_sei_buffer_timing` writes the payloads of two messages with writers of their own, and
copies their bytes into a unit. A decoder reads the messages, and from each payload the values, by the
lengths that the sequence has for them.

The initial delays are written with the length of the removal delays, so they are read back only if
the lengths are the same. `seiDecodes_iff` says what else there is: two delays of 32 bits, of which the
second one has the bits of the first one in it.
-/

namespace HardwareIntel.VideoEncoder

open List Option Topaz

/-- The arguments of `build_packed_sei_buffer_timing`. -/
structure SeiTiming where
  initCpbRemovalLength : ℕ
  initCpbRemovalDelay : BitVec 32
  initCpbRemovalDelayOffset : BitVec 32
  cpbRemovalLength : ℕ
  cpbRemovalDelay : BitVec 32
  dpbOutputLength : ℕ
  dpbOutputDelay : BitVec 32

section Builder

variable (added : ℕ → BitVec 32) (fuel : ℕ)

/-- A payload: a bit shows its end if the last byte is not full. -/
def payloadStream (ps : List Put) : Option Bitstream := do
  let bs ← puts added fuel bitstreamStart ps
  let bs ← if bs.bitOffset % 8 ≠ 0 then bitstreamPutUi added bs 1 1 else some bs
  return bitstreamEnd bs

def byteSize (bs : Bitstream) : ℕ := (bs.bitOffset + 7) / 8

/-- A message with the bytes of a payload. -/
def messagePuts (payloadType : BitVec 32) (bs : Bitstream) : List Put :=
  [.ui payloadType 8, .ui (BitVec.ofNat 32 (byteSize bs)) 8] ++
    (List.range (byteSize bs)).map fun i => putUi (byteAt bs.buffer i) 8

variable (args : SeiTiming)

/-- What is written to `sei_bp_bs`. -/
def bufferingPuts : List Put :=
  [.ue 0, .ui args.initCpbRemovalDelay args.cpbRemovalLength,
    .ui args.initCpbRemovalDelayOffset args.cpbRemovalLength]

/-- What is written to `sei_pic_bs`. -/
def timingPuts : List Put :=
  [.ui args.cpbRemovalDelay args.cpbRemovalLength, .ui args.dpbOutputDelay args.dpbOutputLength]

def buildPackedSeiBufferTiming : Option Bitstream := do
  let seiBpBs ← payloadStream added fuel (bufferingPuts args)
  let seiPicBs ← payloadStream added fuel (timingPuts args)
  let bs ← puts added fuel bitstreamStart (nalStartCodePrefix ++ nalHeader 0 6 ++
    (messagePuts 0 seiBpBs ++ messagePuts 1 seiPicBs ++ rbspTrailingBits))
  return bitstreamEnd bs

end Builder

/-! ### What a decoder reads -/

/-- A number as a sum of bytes, of which only the last one is not 255. -/
def ffCoded : ℕ → BitReader ℕ
  | 0 => fun _ => none
  | fuel + 1 => do
    let byte ← BitReader.u 8
    if byte = 255 then (255 + ·) <$> ffCoded fuel else pure byte.toNat

/-- Some bits as they are. -/
def rawBits (n : ℕ) : BitReader (List Bool) :=
  fun l => if n ≤ l.length then some (l.take n, l.drop n) else none

structure SeiMessage where
  payloadType : ℕ
  payload : List Bool

/-- `sei_message()`, with the payload as it is. -/
def seiMessage (fuel : ℕ) : BitReader SeiMessage := do
  let payloadType ← ffCoded fuel
  let payloadSize ← ffCoded fuel
  let payload ← rawBits (8 * payloadSize)
  pure ⟨payloadType, payload⟩

/-- The loop of `sei_rbsp()`. -/
def seiMessages (fuel : ℕ) : ℕ → BitReader (List SeiMessage)
  | 0 => fun _ => none
  | n + 1 => do
    let message ← seiMessage fuel
    let more ← moreRbspData
    let messages ← if more then seiMessages fuel n else pure []
    pure (message :: messages)

/-- `sei_rbsp()`. There are no more messages or bytes than bits. -/
def seiRbsp : BitReader (List SeiMessage) := fun l => seiMessages l.length l.length l

/-- A payload ends with its last byte, which a one and zeros fill. -/
def payloadEnd (l : List Bool) : Option Unit :=
  if l = [] then some ()
  else if l.length < 8 then (rbspTrailing l).map Prod.fst
  else none

/-- Read a whole payload. -/
def decodePayload {α : Type} (payload : BitReader α) (l : List Bool) : Option α := do
  let (a, rest) ← payload l
  payloadEnd rest
  return a

/-- `buffering_period()` with one schedule, of which the initial delays have a length. -/
def bufferingPeriod (length : ℕ) : BitReader (ℕ × ℕ × ℕ) := do
  let seqParameterSetId ← BitReader.ue
  let delay ← BitReader.u length
  let offset ← BitReader.u length
  pure (seqParameterSetId, delay.toNat, offset.toNat)

/-- `pic_timing()` with delays of some lengths and without `pic_struct`. -/
def picTiming (cpbLength dpbLength : ℕ) : BitReader (ℕ × ℕ) := do
  let cpbRemovalDelay ← BitReader.u cpbLength
  let dpbOutputDelay ← BitReader.u dpbLength
  pure (cpbRemovalDelay.toNat, dpbOutputDelay.toNat)

section Arguments

variable (added : ℕ → BitVec 32) (args : SeiTiming)

/-- The bytes of `build_packed_sei_buffer_timing` are read as two messages, and the payloads as the
values that were passed in. -/
def SeiDecodes : Prop :=
  ∃ fuel bs bp pic, buildPackedSeiBufferTiming added fuel args = some bs ∧
    decodeUnit 6 seiRbsp (headerBits bs) = some ([⟨0, bp⟩, ⟨1, pic⟩], []) ∧
    decodePayload (bufferingPeriod args.initCpbRemovalLength) bp =
      some (0, args.initCpbRemovalDelay.toNat, args.initCpbRemovalDelayOffset.toNat) ∧
    decodePayload (picTiming args.cpbRemovalLength args.dpbOutputLength) pic =
      some (args.cpbRemovalDelay.toNat, args.dpbOutputDelay.toNat)

/-- Lengths between 1 and 32, and values that fit their lengths. -/
structure SeiTiming.Valid : Prop where
  init : 1 ≤ args.initCpbRemovalLength ∧ args.initCpbRemovalLength ≤ 32
  initDelay : args.initCpbRemovalDelay.toNat < 2 ^ args.initCpbRemovalLength
  initOffset : args.initCpbRemovalDelayOffset.toNat < 2 ^ args.initCpbRemovalLength
  cpb : 1 ≤ args.cpbRemovalLength ∧ args.cpbRemovalLength ≤ 32
  cpbDelay : args.cpbRemovalDelay.toNat < 2 ^ args.cpbRemovalLength
  dpb : 1 ≤ args.dpbOutputLength ∧ args.dpbOutputLength ≤ 32
  dpbDelay : args.dpbOutputDelay.toNat < 2 ^ args.dpbOutputLength

/-- The initial delays are written with the length of the removal delays. If the delays of a picture have
32 bits each, the second one has all bits of the first one. -/
def SeiFits : Prop :=
  args.initCpbRemovalLength = args.cpbRemovalLength ∧
    (args.cpbRemovalLength = 32 → args.dpbOutputLength = 32 →
      args.cpbRemovalDelay ||| args.dpbOutputDelay = args.dpbOutputDelay)

instance : Decidable (SeiFits args) := instDecidableAnd

end Arguments

/-! ### Payloads -/

/-- What is behind a payload of `n` bits in its last byte. -/
def payloadTail (n : ℕ) : List Bool := if n % 8 = 0 then [] else trailing n

/-- The end of a payload is read. -/
theorem payloadEnd_tail (n : ℕ) : payloadEnd (payloadTail n) = some () := by
  rw [payloadTail]
  split_ifs with h
  · rfl
  · have hne : trailing n ≠ [] := cons_ne_nil _ _
    have hlength : (trailing n).length < 8 := by
      rw [trailing, length_cons, length_replicate]
      omega
    rw [payloadEnd, if_neg hne, if_pos hlength, rbspTrailing_trailing]
    rfl

/-- What ends a payload of some bits more than whole bytes. -/
theorem eq_trailing_of_payloadEnd {l : List Bool} (hl : l ≠ []) (h : payloadEnd l = some ()) :
    ∃ n, l = true :: List.replicate n false := by
  rw [payloadEnd, if_neg hl] at h
  obtain ⟨-, h⟩ := Option.ite_none_right_eq_some.mp h
  obtain ⟨r, h, -⟩ := Option.map_eq_some_iff.mp h
  cases l with
  | nil => exact absurd rfl hl
  | cons b zeros =>
    cases b with
    | false => cases h
    | true =>
      obtain ⟨hzeros, -⟩ := Option.ite_none_right_eq_some.mp h
      refine ⟨zeros.length, congrArg _ (List.eq_replicate_iff.mpr ⟨rfl, fun b hb => ?_⟩)⟩
      simp only [Bool.and_eq_true, List.all_eq_true] at hzeros
      exact Bool.not_eq_true' b ▸ hzeros.1 b hb

/-- The place of the last one is the same, however the bits are split. -/
theorem length_eq_of_last_one {l l' : List Bool} {m n : ℕ}
    (h : l ++ true :: List.replicate m false = l' ++ true :: List.replicate n false) :
    l.length = l'.length := by
  have hreverse := congrArg List.reverse h
  simp only [reverse_append, reverse_cons, reverse_replicate, append_assoc,
    cons_append, nil_append] at hreverse
  have htake : ∀ (k : ℕ) (r : List Bool),
      (List.replicate k false ++ true :: r).takeWhile (! ·) = List.replicate k false := by
    intro k r
    simp
  have hzeros := congrArg (List.takeWhile (! ·)) hreverse
  rw [htake, htake] at hzeros
  have hlength := congrArg List.length h
  have hcount := congrArg List.length hzeros
  simp only [length_append, length_cons, length_replicate] at hlength hcount
  omega

namespace Packed

/-- A value takes its bits, whether it fits or not. -/
theorem putUi_length {t : Packed} {val : BitVec 32} {sizeInBits : ℕ} (hcount : t.count < 32)
    (hpos : 0 < sizeInBits) (hsize : sizeInBits ≤ 32) (h : t.length + sizeInBits < 2 ^ 31) :
    ∃ t', t.putUi val sizeInBits = some t' ∧ t'.count < 32 ∧ t'.length = t.length + sizeInBits := by
  rw [putUi, if_neg (Nat.ne_of_gt hpos), if_neg (Nat.not_le.mpr h)]
  by_cases hfits : t.count + sizeInBits < 32
  · rw [if_pos hfits]
    exact ⟨_, rfl, hfits, (Nat.add_assoc ..).symm⟩
  · rw [if_neg hfits]
    refine ⟨_, rfl, ?_, ?_⟩
    · dsimp only
      omega
    · rw [length, length, length_append, length_singleton]
      dsimp only
      omega

/-- The word itself is what it was filled with. -/
theorem reg_word {t : Packed} (hcount : t.count < 32) (hint : t.length < 2 ^ 31) : t.Reg t.word :=
  ⟨hcount, fun _ => rfl, hint⟩

end Packed

/-- Ending the stream does not move the offset. -/
theorem bitOffset_bitstreamEnd (bs : Bitstream) : (bitstreamEnd bs).bitOffset = bs.bitOffset := by
  simp only [bitstreamEnd]
  split_ifs <;> rfl

/-- The bytes of a payload: what its calls leave, and what is behind it. -/
theorem payloadStream_eq (added : ℕ → BitVec 32) {ps : List Put} (hps : ∀ p ∈ ps, p.Short) {t : Packed}
    (hputs : (⟨[], 0, 0⟩ : Packed).puts ps = some t) (hint : t.length + 1 < 2 ^ 31) :
    ∃ bs, (∀ {fuel bs'}, payloadStream added fuel ps = some bs' → bs' = bs) ∧
      payloadStream added 31 ps = some bs ∧
      headerBits bs = t.written ++ payloadTail t.length ∧ byteSize bs = (t.length + 7) / 8 := by
  have hfollows := Packed.Held.follows_puts added hps Packed.held_start
  rw [hputs] at hfollows
  obtain ⟨bs₁, hbs₁, hheld⟩ := hfollows
  have hstream : ∀ {fuel bs'}, payloadStream added fuel ps = some bs' →
      payloadStream added 31 ps = some bs' := by
    intro fuel bs' h
    obtain ⟨bs₂, hbs₂, h⟩ := bind_eq_some_iff.mp h
    exact bind_eq_some_iff.mpr ⟨bs₂, puts_mono hbs₂, h⟩
  have hpayload : ∃ bs, payloadStream added 31 ps = some bs ∧
      headerBits bs = t.written ++ payloadTail t.length ∧ byteSize bs = (t.length + 7) / 8 := by
    rw [payloadStream, hbs₁, bind_eq_bind, bind_some, hheld.bitOffset, payloadTail]
    by_cases hfull : t.length % 8 = 0
    · rw [if_neg (not_not.mpr hfull), if_pos hfull]
      refine ⟨_, rfl, ?_, ?_⟩
      · rw [hheld.headerBits_end, hfull]
        rfl
      · rw [byteSize, bitOffset_bitstreamEnd, hheld.bitOffset]
    · have hfits : (1 : BitVec 32).toNat < 2 ^ 1 := by decide
      obtain ⟨t', hput, -, hwritten⟩ := (Packed.reg_word hheld.count_lt (by omega)).putUi (by decide)
        (by decide) hfits hint
      have hput' := hheld.follows_putUi added 1 (show 1 ≤ 32 by decide)
      rw [hput] at hput'
      obtain ⟨bs₂, hbs₂, hheld₂⟩ := hput'
      have hlength : t'.length = t.length + 1 := by
        rw [Packed.length_of_written hwritten, Packed.length_chunk]
      rw [if_pos hfull, if_neg hfull, hbs₂]
      refine ⟨_, rfl, ?_, ?_⟩
      · rw [hheld₂.headerBits_end, hwritten, Packed.chunk_of_lt t 1 (by decide), hlength,
          append_assoc]
        rfl
      · rw [byteSize, bitOffset_bitstreamEnd, hheld₂.bitOffset, hlength]
        omega
  obtain ⟨bs, hbs, hpayload⟩ := hpayload
  exact ⟨bs, fun h => some.inj ((hstream h).symm.trans hbs), hbs, hpayload⟩

/-! ### Messages -/

/-- The bits of a message. -/
def messageBits (message : SeiMessage) : List Bool :=
  bits 8 message.payloadType ++ (bits 8 (message.payload.length / 8) ++ message.payload)

/-- A message of a small type, with a payload of few bytes. -/
structure SeiMessage.Small (message : SeiMessage) : Prop where
  payloadType : message.payloadType < 255
  payload : message.payload.length / 8 < 255
  bytes : message.payload.length % 8 = 0

/-- A number below 255 takes one byte. -/
theorem reads_ffCoded {n : ℕ} (hn : n < 255) (fuel : ℕ) : Reads (ffCoded (fuel + 1)) (bits 8 n) n := by
  have hvalue : (BitVec.ofNat 8 n).toNat = n := by
    exact Nat.mod_eq_of_lt (by omega)
  have hne : BitVec.ofNat 8 n ≠ 255 := by
    intro h
    rw [h] at hvalue
    exact absurd hn (by rw [← hvalue]; decide)
  have hread : Reads (ffCoded (fuel + 1)) (bits 8 n ++ []) n := by
    apply (Reads.u 8 n).bind
    rw [if_neg hne, hvalue]
    exact Reads.pure n
  rwa [append_nil] at hread

/-- Bits are read as they are. -/
theorem reads_rawBits (l : List Bool) : Reads (rawBits l.length) l l := by
  intro rest
  rw [rawBits, if_pos (by rw [length_append]; omega), take_left, drop_left]

/-- A small message is read back. -/
theorem reads_seiMessage {message : SeiMessage} (h : message.Small) (fuel : ℕ) :
    Reads (seiMessage (fuel + 1)) (messageBits message) message := by
  have hlength : message.payload.length = 8 * (message.payload.length / 8) := by
    have hbytes := h.bytes
    omega
  have hpayload := reads_rawBits message.payload
  rw [hlength] at hpayload
  exact (reads_ffCoded h.payloadType fuel).bind ((reads_ffCoded h.payload fuel).bind
    (hpayload.bind_pure _))

/-- Messages in front of the trailing bits. -/
theorem seiMessages_append {messages : List SeiMessage} (hne : messages ≠ [])
    (hsmall : ∀ message ∈ messages, message.Small) (n fuel : ℕ) :
    ∀ {turns : ℕ}, messages.length ≤ turns →
      seiMessages (fuel + 1) turns (messages.flatMap messageBits ++ trailing n) =
        some (messages, trailing n) := by
  induction messages with
  | nil => exact absurd rfl hne
  | cons message messages ih =>
    intro turns hturns
    obtain ⟨hmessage, hrest⟩ := forall_mem_cons.mp hsmall
    obtain ⟨turns, rfl⟩ := Nat.exists_eq_add_of_lt hturns
    rw [flatMap_cons, append_assoc]
    unfold seiMessages
    rw [BitReader.bind_eq (reads_seiMessage hmessage fuel _)]
    by_cases hlast : messages = []
    · subst hlast
      have hmore : moreRbspData (trailing n) = some (false, trailing n) := by
        have hzeros : (trailing n).tail.contains true = false := by
          rw [trailing, tail_cons]
          simp
        change some ((trailing n).tail.contains true, _) = _
        rw [hzeros]
      rw [flatMap_nil, nil_append, BitReader.bind_eq hmore]
      rfl
    · have hbits : messages.flatMap messageBits ≠ [] := by
        obtain ⟨next, others, rfl⟩ := exists_cons_of_ne_nil hlast
        exact cons_ne_nil _ _
      rw [BitReader.bind_eq (moreRbspData_append hbits n)]
      have hmessages := @ih hlast hrest (messages.length + turns) (Nat.le_add_right _ _)
      rw [if_pos rfl, BitReader.bind_eq hmessages]
      rfl

/-- What is written for a message. -/
theorem plainBits_messagePuts {payloadType : BitVec 32} {bs : Bitstream} (hsize : byteSize bs < 256) :
    plainBits (messagePuts payloadType bs) =
      messageBits ⟨payloadType.toNat, headerBits bs⟩ := by
  have hlength : (headerBits bs).length / 8 = byteSize bs := by
    rw [headerBits, length_memoryBits, byteSize]
    omega
  have hheader : plainBits [.ui payloadType 8, .ui (BitVec.ofNat 32 (byteSize bs)) 8] =
      bits 8 payloadType.toNat ++ bits 8 (byteSize bs) := by
    simp only [plainBits, flatMap_cons, flatMap_nil, Put.code, BitVec.toNat_ofNat,
      append_nil, Nat.mod_eq_of_lt (show byteSize bs < 2 ^ 32 by omega)]
  have hbytes : plainBits ((List.range (byteSize bs)).map fun i => putUi (byteAt bs.buffer i) 8) =
      headerBits bs := by
    rw [plainBits, flatMap_map]
    rfl
  rw [messagePuts, plainBits_append, hheader, hbytes, messageBits, hlength, append_assoc]

/-- A message is put by steady calls. -/
theorem steady_messagePuts {payloadType : BitVec 32} {bs : Bitstream}
    (htype : payloadType.toNat < 256) (hsize : byteSize bs < 256) :
    ∀ p ∈ messagePuts payloadType bs, p.Steady := by
  have hui : ∀ {val : BitVec 32}, val.toNat < 256 → (Put.ui val 8).Steady := fun hval =>
    ⟨⟨⟨by decide, by decide, hval⟩, trivial⟩, (by decide : 8 < 32)⟩
  rw [messagePuts]
  simp only [List.forall_mem_append, List.forall_mem_cons, List.forall_mem_map]
  refine ⟨⟨hui htype, hui ?_, List.forall_mem_nil _⟩, fun i _ => steady_putUi _ (by decide)⟩
  exact lt_of_le_of_lt (Nat.mod_le _ _) hsize

/-- The unit is read as the two messages if the payloads have few bytes. -/
theorem decode_messages (added : ℕ → BitVec 32) {bp pic : Bitstream} (hbp : byteSize bp < 255)
    (hpic : byteSize pic < 255) :
    ∃ bs, (∀ {fuel bs'}, puts added fuel bitstreamStart (nalStartCodePrefix ++ nalHeader 0 6 ++
        (messagePuts 0 bp ++ messagePuts 1 pic ++ rbspTrailingBits)) = some bs' → bs' = bs) ∧
      puts added 31 bitstreamStart (nalStartCodePrefix ++ nalHeader 0 6 ++
        (messagePuts 0 bp ++ messagePuts 1 pic ++ rbspTrailingBits)) = some bs ∧
      decodeUnit 6 seiRbsp (headerBits (bitstreamEnd bs)) =
        some ([⟨0, headerBits bp⟩, ⟨1, headerBits pic⟩], []) := by
  have hsmall : ∀ {payloadType : ℕ} {bs : Bitstream}, payloadType < 255 → byteSize bs < 255 →
      (⟨payloadType, headerBits bs⟩ : SeiMessage).Small := by
    intro payloadType bs htype hsize
    rw [byteSize] at hsize
    refine ⟨htype, ?_, ?_⟩ <;> dsimp only <;> rw [headerBits, length_memoryBits] <;> omega
  have hbits : plainBits (messagePuts 0 bp ++ messagePuts 1 pic) =
      [⟨0, headerBits bp⟩, ⟨1, headerBits pic⟩].flatMap messageBits := by
    rw [plainBits_append, plainBits_messagePuts (by omega), plainBits_messagePuts (by omega),
      flatMap_cons, flatMap_cons, flatMap_nil, append_nil]
    rfl
  refine decode_plain added (forall_mem_append.mpr ⟨by decide, forall_mem_append.mpr
    ⟨steady_messagePuts (by decide) (by omega), steady_messagePuts (by decide) (by omega)⟩⟩) ?_
    fun n => ?_
  · simp only [messagePuts, length_append, length_cons, length_nil, length_map, length_range]
    omega
  · have hall : ∀ message ∈ ([⟨0, headerBits bp⟩, ⟨1, headerBits pic⟩] : List SeiMessage),
        message.Small := by
      simp only [forall_mem_cons]
      exact ⟨hsmall (by decide) hbp, hsmall (by decide) hpic, forall_mem_nil _⟩
    rw [seiRbsp, hbits]
    have hlength : 2 ≤ ([⟨0, headerBits bp⟩, ⟨1, headerBits pic⟩].flatMap messageBits ++
        trailing n).length := by
      simp only [flatMap_cons, messageBits, length_append, length_bits]
      omega
    obtain ⟨turns, hturns⟩ := Nat.exists_eq_add_of_le' hlength
    exact seiMessages_append (cons_ne_nil _ _) hall n _ (Nat.le_add_left _ _)

/-! ### When the values are read back -/

section Payloads

variable {args : SeiTiming}

/-- What is written for the buffering period ends with its values, which take the length of the removal
delays twice. -/
theorem buffering_stream (added : ℕ → BitVec 32) (hv : args.Valid) :
    ∃ bs l, (∀ {fuel bs'}, payloadStream added fuel (bufferingPuts args) = some bs' → bs' = bs) ∧
      payloadStream added 31 (bufferingPuts args) = some bs ∧ byteSize bs < 255 ∧
      headerBits bs = l ++ trailing (1 + 2 * args.cpbRemovalLength) ∧
      l.length = 1 + 2 * args.cpbRemovalLength ∧
      (args.initCpbRemovalLength = args.cpbRemovalLength →
        l = ueBits 0 ++ (bits args.cpbRemovalLength args.initCpbRemovalDelay.toNat ++
          bits args.cpbRemovalLength args.initCpbRemovalDelayOffset.toNat)) := by
  obtain ⟨hpos, hle⟩ := hv.cpb
  have hshort : ∀ p ∈ bufferingPuts args, p.Short := by
    rw [bufferingPuts]
    simp only [forall_mem_cons]
    exact ⟨trivial, hle, hle, forall_mem_nil _⟩
  obtain ⟨t₁, hput₁, hcount₁, hlength₁⟩ := @Packed.putUi_length ⟨[], 1, 1⟩ args.initCpbRemovalDelay
    args.cpbRemovalLength (by decide) hpos hle (show 1 + args.cpbRemovalLength < 2 ^ 31 by omega)
  have hfirst : (⟨[], 1, 1⟩ : Packed).length = 1 := rfl
  obtain ⟨t₂, hput₂, -, hlength₂⟩ := @Packed.putUi_length t₁ args.initCpbRemovalDelayOffset
    args.cpbRemovalLength hcount₁ hpos hle (by omega)
  have hputs : (⟨[], 0, 0⟩ : Packed).puts (bufferingPuts args) = some t₂ := by
    have hue : (⟨[], 0, 0⟩ : Packed).put (.ue 0) = some ⟨[], 1, 1⟩ := rfl
    have hui : ∀ (t : Packed) (val : BitVec 32) (sizeInBits : ℕ),
        t.put (.ui val sizeInBits) = t.putUi val sizeInBits := fun t _ _ => t.foldlM_singleton _
    rw [bufferingPuts, Packed.puts, foldlM_cons, hue, bind_eq_bind, bind_some,
      foldlM_cons, hui, hput₁, bind_eq_bind, bind_some, foldlM_cons, hui, hput₂]
    rfl
  have hlength : t₂.length = 1 + 2 * args.cpbRemovalLength := by omega
  obtain ⟨bs, hunique, hbs, hbits, hsize⟩ := payloadStream_eq added hshort hputs (by omega)
  have hodd : t₂.length % 8 ≠ 0 := by omega
  rw [payloadTail, if_neg hodd, hlength] at hbits
  refine ⟨bs, t₂.written, hunique, hbs, by omega, hbits, by rw [t₂.length_written, hlength],
    fun hsame => ?_⟩
  have hvalid : ∀ p ∈ bufferingPuts args, p.Valid := by
    rw [bufferingPuts]
    simp only [forall_mem_cons]
    exact ⟨by decide, ⟨hpos, hle, hsame ▸ hv.initDelay⟩, ⟨hpos, hle, hsame ▸ hv.initOffset⟩,
      forall_mem_nil _⟩
  obtain ⟨hnone, -⟩ | ⟨t, ht, hwritten, -⟩ := Packed.Reg.puts hvalid Packed.reg_start
  · cases hnone.symm.trans hputs
  · obtain rfl := some.inj (ht.symm.trans hputs)
    have hue : ((Put.ue 0).code 0).length = 1 := rfl
    have hfirst : ((Put.ui args.initCpbRemovalDelay args.cpbRemovalLength).code 1).length =
        args.cpbRemovalLength := length_bits _ _
    -- a value of 32 bits is behind one bit or 33 bits
    have hstored : ∀ (val last : BitVec 32) {n : ℕ}, n = 1 ∨ n = 1 + args.cpbRemovalLength →
        (Put.ui val args.cpbRemovalLength).stored n last = bits args.cpbRemovalLength val.toNat := by
      intro val last n hn
      have hword : ¬ (args.cpbRemovalLength = 32 ∧ n % 32 = 0) := by omega
      exact if_neg hword
    rw [hwritten, bufferingPuts, storedAll, storedAll, storedAll, storedAll, append_nil]
    simp only [Packed.length, length_nil, Nat.mul_zero, Nat.zero_add, hue, hfirst]
    rw [hstored _ _ (Or.inl rfl), hstored _ _ (Or.inr rfl)]
    rfl

/-- The buffering period is read back just if the lengths are the same. -/
theorem buffering_decodes_iff (hv : args.Valid) {l : List Bool}
    (hlength : l.length = 1 + 2 * args.cpbRemovalLength)
    (hsame : args.initCpbRemovalLength = args.cpbRemovalLength →
      l = ueBits 0 ++ (bits args.cpbRemovalLength args.initCpbRemovalDelay.toNat ++
        bits args.cpbRemovalLength args.initCpbRemovalDelayOffset.toNat)) :
    decodePayload (bufferingPeriod args.initCpbRemovalLength)
        (l ++ trailing (1 + 2 * args.cpbRemovalLength)) =
      some (0, args.initCpbRemovalDelay.toNat, args.initCpbRemovalDelayOffset.toNat) ↔
    args.initCpbRemovalLength = args.cpbRemovalLength := by
  constructor
  · intro h
    obtain ⟨⟨a, rest⟩, hread, h⟩ := bind_eq_some_iff.mp h
    obtain ⟨u, hend, h⟩ := bind_eq_some_iff.mp h
    obtain rfl := some.inj h
    obtain ⟨⟨id, l₁⟩, hid, hread⟩ := bind_eq_some_iff.mp hread
    obtain ⟨⟨delay, l₂⟩, hdelay, hread⟩ := bind_eq_some_iff.mp hread
    obtain ⟨⟨offset, l₃⟩, hoffset, hread⟩ := bind_eq_some_iff.mp hread
    obtain ⟨hvalues, rfl⟩ := Prod.mk.inj (some.inj hread)
    obtain rfl : id = 0 := (Prod.mk.inj hvalues).1
    obtain ⟨l₄, rfl, hlength₄⟩ := BitReader.exists_append_of_u hdelay
    obtain ⟨l₅, rfl, hlength₅⟩ := BitReader.exists_append_of_u hoffset
    have hall := BitReader.eq_cons_of_ue_zero hid
    have htrailing := length_trailing (1 + 2 * args.cpbRemovalLength)
    have htotal := congrArg List.length hall
    simp only [length_append, length_cons, hlength, hlength₄, hlength₅] at htotal
    -- the values take an odd number of bits, so the bit that ends the payload is there
    have hrest : l₃ ≠ [] := by
      rintro rfl
      rw [length_nil] at htotal
      omega
    obtain ⟨n, rfl⟩ := eq_trailing_of_payloadEnd hrest hend
    rw [← append_assoc, ← cons_append] at hall
    have hlast := length_eq_of_last_one hall
    rw [hlength, length_cons, length_append, hlength₄, hlength₅] at hlast
    omega
  · intro h
    have hdelay : (BitVec.ofNat args.cpbRemovalLength args.initCpbRemovalDelay.toNat).toNat =
        args.initCpbRemovalDelay.toNat := by
      exact Nat.mod_eq_of_lt (h ▸ hv.initDelay)
    have hoffset : (BitVec.ofNat args.cpbRemovalLength args.initCpbRemovalDelayOffset.toNat).toNat =
        args.initCpbRemovalDelayOffset.toNat := by
      exact Nat.mod_eq_of_lt (h ▸ hv.initOffset)
    have hread : Reads (bufferingPeriod args.cpbRemovalLength)
        (ueBits 0 ++ (bits args.cpbRemovalLength args.initCpbRemovalDelay.toNat ++
          bits args.cpbRemovalLength args.initCpbRemovalDelayOffset.toNat))
        (0, args.initCpbRemovalDelay.toNat, args.initCpbRemovalDelayOffset.toNat) := by
      refine (Reads.ue 0).bind ((Reads.u _ _).bind ?_)
      have hlast := (Reads.u args.cpbRemovalLength args.initCpbRemovalDelayOffset.toNat).bind_pure
        fun offset => (0, args.initCpbRemovalDelay.toNat, offset.toNat)
      rw [hoffset] at hlast
      rw [hdelay]
      exact hlast
    have hodd : (1 + 2 * args.cpbRemovalLength) % 8 ≠ 0 := by omega
    have hend := payloadEnd_tail (1 + 2 * args.cpbRemovalLength)
    rw [payloadTail, if_neg hodd] at hend
    rw [h, hsame h, decodePayload, hread _, bind_eq_bind, bind_some]
    dsimp only
    rw [hend]
    rfl

/-- What is written for the timing of a picture: the second delay may have bits of the first one. -/
def timingBits (args : SeiTiming) : List Bool :=
  bits args.cpbRemovalLength args.cpbRemovalDelay.toNat ++
    bits args.dpbOutputLength (if args.cpbRemovalLength = 32 ∧ args.dpbOutputLength = 32 then
      args.cpbRemovalDelay ||| args.dpbOutputDelay else args.dpbOutputDelay).toNat

/-- The timing is stored as it is. -/
theorem storedAll_timingPuts (hv : args.Valid) :
    storedAll 0 0 (timingPuts args) = timingBits args := by
  have hcpb := hv.cpb
  have hfirst : (Put.ui args.cpbRemovalDelay args.cpbRemovalLength).stored 0 0 =
      bits args.cpbRemovalLength args.cpbRemovalDelay.toNat := by
    have hor : (0 : BitVec 32) ||| args.cpbRemovalDelay = args.cpbRemovalDelay := BitVec.zero_or
    rw [Put.stored, hor]
    split_ifs with h
    · rw [h.1]
    · rfl
  have hlength : ((Put.ui args.cpbRemovalDelay args.cpbRemovalLength).code 0).length =
      args.cpbRemovalLength := length_bits _ _
  have hword : args.dpbOutputLength = 32 ∧ args.cpbRemovalLength % 32 = 0 ↔
      args.cpbRemovalLength = 32 ∧ args.dpbOutputLength = 32 := by omega
  rw [timingPuts, storedAll, storedAll, storedAll, append_nil, hfirst, hlength, Nat.zero_add,
    Put.stored, timingBits]
  simp only [hword]
  split_ifs with h
  · rw [h.2]
    rfl
  · rfl

/-- The stream of the timing, for every memory and fuel. -/
theorem timing_stream (added : ℕ → BitVec 32) (hv : args.Valid) :
    ∃ bs, (∀ {fuel bs'}, payloadStream added fuel (timingPuts args) = some bs' → bs' = bs) ∧
      payloadStream added 31 (timingPuts args) = some bs ∧ byteSize bs < 255 ∧
      headerBits bs = timingBits args ++ payloadTail (timingBits args).length := by
  obtain ⟨hcpb, hcpb'⟩ := hv.cpb
  obtain ⟨hdpb, hdpb'⟩ := hv.dpb
  have hvalid : ∀ p ∈ timingPuts args, p.Valid := by
    rw [timingPuts]
    simp only [forall_mem_cons]
    exact ⟨⟨hcpb, hcpb', hv.cpbDelay⟩, ⟨hdpb, hdpb', hv.dpbDelay⟩, forall_mem_nil _⟩
  have hcodes := length_codes_le hvalid 0
  have hfew : (timingPuts args).length = 2 := rfl
  have hends : ∀ p ∈ timingPuts args, p.Ends := by
    rw [timingPuts]
    simp only [forall_mem_cons]
    exact ⟨trivial, trivial, forall_mem_nil _⟩
  obtain ⟨-, hnot⟩ | ⟨t, hputs, hwritten, -⟩ := Packed.Reg.puts hvalid Packed.reg_start
  · refine absurd ⟨hends, ?_⟩ hnot
    change 0 + (codes 0 (timingPuts args)).length < 2 ^ 31
    omega
  · have hbits : t.written = timingBits args := hwritten.trans (storedAll_timingPuts hv)
    have hlength : t.length = args.cpbRemovalLength + args.dpbOutputLength := by
      rw [← t.length_written, hbits, timingBits, length_append, length_bits, length_bits]
    obtain ⟨bs, hunique, hbs, hheader, hsize⟩ :=
      payloadStream_eq added (fun p hp => (hvalid p hp).short) hputs (by omega)
    refine ⟨bs, hunique, hbs, by omega, ?_⟩
    rw [hheader, ← t.length_written, hbits]

/-- The timing of a picture is read back just if the second delay has the bits that it should have. -/
theorem timing_decodes_iff (hv : args.Valid) :
    decodePayload (picTiming args.cpbRemovalLength args.dpbOutputLength)
        (timingBits args ++ payloadTail (timingBits args).length) =
      some (args.cpbRemovalDelay.toNat, args.dpbOutputDelay.toNat) ↔
    (args.cpbRemovalLength = 32 → args.dpbOutputLength = 32 →
      args.cpbRemovalDelay ||| args.dpbOutputDelay = args.dpbOutputDelay) := by
  have hcpb : (BitVec.ofNat args.cpbRemovalLength args.cpbRemovalDelay.toNat).toNat =
      args.cpbRemovalDelay.toNat := by
    exact Nat.mod_eq_of_lt hv.cpbDelay
  rw [timingBits]
  generalize hsecond : (if args.cpbRemovalLength = 32 ∧ args.dpbOutputLength = 32 then
    args.cpbRemovalDelay ||| args.dpbOutputDelay else args.dpbOutputDelay) = second
  have hfits : second.toNat < 2 ^ args.dpbOutputLength := by
    rw [← hsecond]
    split_ifs with h
    · rw [h.2]
      exact BitVec.isLt _
    · exact hv.dpbDelay
  have hdpb : (BitVec.ofNat args.dpbOutputLength second.toNat).toNat = second.toNat := by
    exact Nat.mod_eq_of_lt hfits
  have hread : Reads (picTiming args.cpbRemovalLength args.dpbOutputLength)
      (bits args.cpbRemovalLength args.cpbRemovalDelay.toNat ++
        bits args.dpbOutputLength second.toNat) (args.cpbRemovalDelay.toNat, second.toNat) := by
    apply (Reads.u _ _).bind
    have hlast := (Reads.u args.dpbOutputLength second.toNat).bind_pure
      fun dpb => (args.cpbRemovalDelay.toNat, dpb.toNat)
    rw [hdpb] at hlast
    rw [hcpb]
    exact hlast
  rw [decodePayload, hread _, bind_eq_bind, bind_some]
  dsimp only
  rw [payloadEnd_tail, ← and_imp, ← hsecond]
  change some _ = some _ ↔ _
  rw [some_inj, Prod.mk_inj, and_iff_right rfl, BitVec.toNat_inj]
  split_ifs with h
  · exact ⟨fun heq _ => heq, fun heq => heq h⟩
  · exact iff_of_true rfl fun h' => absurd h' h

/-- The messages that are read from the bytes of the function. -/
theorem decode_sei (added : ℕ → BitVec 32) {bp pic : Bitstream}
    (hbp : ∀ {fuel bs'}, payloadStream added fuel (bufferingPuts args) = some bs' → bs' = bp)
    (hbp' : payloadStream added 31 (bufferingPuts args) = some bp) (hbpSize : byteSize bp < 255)
    (hpic : ∀ {fuel bs'}, payloadStream added fuel (timingPuts args) = some bs' → bs' = pic)
    (hpic' : payloadStream added 31 (timingPuts args) = some pic) (hpicSize : byteSize pic < 255) :
    ∃ bs, (∀ {fuel bs'}, buildPackedSeiBufferTiming added fuel args = some bs' → bs' = bs) ∧
      buildPackedSeiBufferTiming added 31 args = some bs ∧
      decodeUnit 6 seiRbsp (headerBits bs) =
        some ([⟨0, headerBits bp⟩, ⟨1, headerBits pic⟩], []) := by
  obtain ⟨bs, hunique, hbs, hdecode⟩ := decode_messages added hbpSize hpicSize
  refine ⟨bitstreamEnd bs, ?_, ?_, hdecode⟩
  · intro fuel bs' h
    obtain ⟨bp', hbp₁, h⟩ := bind_eq_some_iff.mp h
    obtain ⟨pic', hpic₁, h⟩ := bind_eq_some_iff.mp h
    obtain ⟨bs₁, hputs, h⟩ := bind_eq_some_iff.mp h
    obtain rfl := hbp hbp₁
    obtain rfl := hpic hpic₁
    obtain rfl := some.inj h
    rw [hunique hputs]
  · simp only [buildPackedSeiBufferTiming, hbp', hpic', hbs, bind_eq_bind, bind_some]
    rfl

/-- When the messages are read back. -/
theorem seiDecodes_iff (added : ℕ → BitVec 32) (hv : args.Valid) :
    SeiDecodes added args ↔ SeiFits args := by
  obtain ⟨bp, l, hbp, hbp', hbpSize, hbpBits, hlength, hsame⟩ := buffering_stream added hv
  obtain ⟨pic, hpic, hpic', hpicSize, hpicBits⟩ := timing_stream added hv
  obtain ⟨bs, hunique, hbs, hdecode⟩ := decode_sei added hbp hbp' hbpSize hpic hpic' hpicSize
  rw [SeiFits, ← buffering_decodes_iff hv hlength hsame, ← timing_decodes_iff hv, ← hbpBits,
    ← hpicBits]
  constructor
  · rintro ⟨fuel, bs', bp', pic', hbuild, hmessages, hbuffering, htiming⟩
    rw [hunique hbuild, hdecode] at hmessages
    obtain ⟨hlist, -⟩ := Prod.mk.inj (some.inj hmessages)
    obtain ⟨hfirst, hlist⟩ := List.cons.inj hlist
    obtain ⟨hsecond, -⟩ := List.cons.inj hlist
    obtain rfl := congrArg SeiMessage.payload hfirst
    obtain rfl := congrArg SeiMessage.payload hsecond
    exact ⟨hbuffering, htiming⟩
  · rintro ⟨hbuffering, htiming⟩
    exact ⟨31, bs, _, _, hbs, hdecode, hbuffering, htiming⟩

end Payloads

/-! ### All packed headers -/

/-- The headers that are read back as they were meant. -/
theorem packed_headers_decode (added : ℕ → BitVec 32) :
    (∀ (profile : ℤ) (seqParam : VAEncSequenceParameterBufferH264), Asserted seqParam →
      seqParam.bitsPerSecond.toNat < 2 ^ 31 →
      ((∃ unitsInTick timeScale, SeqDecodes added profile seqParam unitsInTick timeScale) ↔
        SeqWritable seqParam ∧ SeqStandard profile seqParam) ∧
      (SeqDecodes added profile seqParam seqParam.numUnitsInTick seqParam.timeScale ↔
        SeqFits profile seqParam)) ∧
    (∀ picParam, PicDecodes added picParam ↔ PicStandard picParam) ∧
    ∀ args : SeiTiming, args.Valid → (SeiDecodes added args ↔ SeiFits args) :=
  ⟨fun profile _ hasserted hrate => seqDecodes_iff profile added hasserted hrate,
    fun picParam => picDecodes_iff picParam added, fun _ hv => seiDecodes_iff added hv⟩

/-- A sequence of 320 by 240 at two megabits, in the baseline profile. -/
def smallSequence : VAEncSequenceParameterBufferH264 where
  seqParameterSetId := 0
  levelIdc := 30
  bitsPerSecond := 2000000
  maxNumRefFrames := 1
  pictureWidthInMbs := 20
  pictureHeightInMbs := 15
  chromaFormatIdc := 1
  frameMbsOnlyFlag := 1
  seqScalingMatrixPresentFlag := 0
  direct8x8InferenceFlag := 0
  log2MaxFrameNumMinus4 := 0
  picOrderCntType := 0
  log2MaxPicOrderCntLsbMinus4 := 2
  bitDepthLumaMinus8 := 0
  bitDepthChromaMinus8 := 0
  frameCroppingFlag := 0
  frameCropLeftOffset := 0
  frameCropRightOffset := 0
  frameCropTopOffset := 0
  frameCropBottomOffset := 0
  vuiParametersPresentFlag := 1
  aspectRatioInfoPresentFlag := 0
  timingInfoPresentFlag := 1
  bitstreamRestrictionFlag := 0
  numUnitsInTick := 15
  timeScale := 900

/-- A picture with the values that the encoder sets. -/
def smallPicture : VAEncPictureParameterBufferH264 where
  picParameterSetId := 0
  seqParameterSetId := 0
  picInitQp := 26
  numRefIdxL0ActiveMinus1 := 0
  numRefIdxL1ActiveMinus1 := 0
  chromaQpIndexOffset := 0
  secondChromaQpIndexOffset := 0
  entropyCodingModeFlag := 0
  weightedPredFlag := 0
  weightedBipredIdc := 0
  constrainedIntraPredFlag := 0
  transform8x8ModeFlag := 0
  deblockingFilterControlPresentFlag := 1
  redundantPicCntPresentFlag := 0
  picOrderPresentFlag := 0
  picScalingMatrixPresentFlag := 0

/-- Delays of 24 bits, the length that a sequence has for them. -/
def timing24 : SeiTiming := ⟨24, 90000, 0, 24, 12000, 24, 6000⟩

theorem packed_headers_decode_small :
    SeqDecodes (fun _ => 0) vaProfileH264Main smallSequence 15 900 ∧
      PicDecodes (fun _ => 0) smallPicture ∧ SeiDecodes (fun _ => 0) timing24 := by
  obtain ⟨hseq, hpic, hsei⟩ := packed_headers_decode fun _ => 0
  refine ⟨(hseq vaProfileH264Main smallSequence (by decide) (by decide)).2.mpr
    ⟨?_, ?_, by decide, by decide⟩, (hpic smallPicture).mpr ?_, (hsei timing24 ?_).mpr (by decide)⟩
  · exact ⟨by decide, by decide, by decide, by decide, by decide, by decide, by decide⟩
  · exact ⟨by decide, by decide, by decide, by decide, by decide⟩
  · exact ⟨by decide, by decide, by decide, by decide, by decide⟩
  · exact ⟨by decide, by decide, by decide, by decide, by decide, by decide, by decide⟩

/-- The bits of 2^28 bit/s overflow when they are counted as bytes; a flag of the picture is written as a
constant; and initial delays of 24 bits are written with 16 bits if the removal delays have so many. -/
theorem packed_headers_not_decoded :
    (¬ ∀ added profile seqParam, Asserted seqParam → seqParam.bitsPerSecond.toNat < 2 ^ 31 →
      ∃ unitsInTick timeScale, SeqDecodes added profile seqParam unitsInTick timeScale) ∧
    (¬ ∀ added picParam, PicDecodes added picParam) ∧
    ¬ ∀ added (args : SeiTiming), args.Valid → SeiDecodes added args := by
  refine ⟨fun h => ?_, fun h => ?_, fun h => ?_⟩
  · have hdecodes := h (fun _ => 0) vaProfileH264Main
      { smallSequence with bitsPerSecond := 2 ^ 28 } (by decide) (by decide)
    obtain ⟨hiff, -⟩ := @seqDecodes_iff vaProfileH264Main
      { smallSequence with bitsPerSecond := 2 ^ 28 } (fun _ => 0) (by decide) (by decide)
    exact absurd (hiff.mp hdecodes).1.rate_lt (by decide)
  · have hdecodes := h (fun _ => 0) { smallPicture with constrainedIntraPredFlag := 1 }
    exact absurd ((picDecodes_iff _ _).mp hdecodes).intraPred (by decide)
  · have hvalid : ({ timing24 with cpbRemovalLength := 16 } : SeiTiming).Valid :=
      ⟨by decide, by decide, by decide, by decide, by decide, by decide, by decide⟩
    exact absurd ((seiDecodes_iff (fun _ => 0) hvalid).mp (h _ _ hvalid)).1 (by decide)

end HardwareIntel.VideoEncoder
