import HardwareIntel.Library.BitSyntax
import HardwareIntel.Topaz.TemplateCapacity

/-!
# The SEI messages that the driver prepares

A message says how many bytes its payload has, and the payload follows. A decoder reads the payload by
the syntax of `pic_timing()` or `buffering_period()`, with the lengths that the sequence announces.

The size is counted in bits in a byte, so it is wrong from 256 bits on, and it does not count what the
firmware adds to a payload that ends on a byte boundary. A negative offset of time is written with `^`
in place of a power, which is right for offsets of two bits only. `sei_messages_consistent_iff` says that
arguments which fit their fields are read back in all other cases.
-/

namespace HardwareIntel.Topaz

open List TngCall BitSyntax

/-! ### What the firmware makes of a header -/

/-- What the firmware inserts for a token in front of which there are `n` bits: a field of the length
that is announced for it, or what is missing to the next byte. -/
structure Firmware (announced : HeaderElementType → ℕ) where
  insert : ℕ → ℕ → List Bool
  align : ℕ → List Bool
  length_insert : ∀ t n, (insert (tng.code t) n).length = announced t
  aligned : ∀ n, 8 ∣ n + (align n).length
  length_align_le : ∀ n, (align n).length ≤ 8

namespace Firmware

variable {announced : HeaderElementType → ℕ} (fw : Firmware announced)

/-- The bits of an element of a type behind other bits. -/
def element (code : ℕ) (l acc : List Bool) : List Bool :=
  if tng.isRawCode code then acc ++ l
  else if code = tng.code .insertbytealignH264 then acc ++ fw.align acc.length
  else acc ++ fw.insert code acc.length

/-- The bits of the elements of a header, the newest first. -/
def elements : List (ℕ × List Bool) → List Bool
  | [] => []
  | (code, l) :: es => fw.element code l (elements es)

def step (acc : List Bool) : TngCall → List Bool
  | .token type => fw.element (tng.code type) [] acc
  | .write w => acc ++ w.bits

/-- The bits that calls stand for. -/
def stream (calls : List TngCall) : List Bool := calls.foldl fw.step []

variable {es : List (ℕ × List Bool)}

/-- The firmware reads the bits that are filled in. -/
theorem elements_fill (hw : Writable tng es) (b : List Bool) :
    fw.elements (tng.fill es b) = fw.elements es ++ b := by
  induction b using List.reverseRecOn with
  | nil => exact (append_nil _).symm
  | append_singleton b x ih =>
    obtain ⟨⟨code, l⟩, es', hfill, hraw⟩ := hw.fill coded_tng b
    rw [fill_append, ← append_assoc, ← ih, hfill, Host.fill, foldl_cons, foldl_nil, Host.pushBit]
    split
    · rw [elements, elements, element, element, if_pos hraw, if_pos hraw, append_assoc]
    · rw [elements, element, if_pos coded_tng.rawdata]

/-- The elements that calls lay out stand for the bits of the calls. -/
theorem elements_layout {calls : List TngCall} (hproper : tng.Proper (shapeOf tng es).raw calls)
    (hvalid : ∀ w, HeaderCall.write w ∈ calls → w.Valid) :
    fw.elements (tng.layout es calls) = calls.foldl fw.step (fw.elements es) := by
  induction calls generalizing es with
  | nil => rfl
  | cons c calls ih =>
    have hvalid' := fun w hw => hvalid w (mem_cons_of_mem _ hw)
    cases c with
    | token type => exact ih hproper hvalid'
    | write w =>
      obtain ⟨hraw, -, hrest⟩ := hproper
      have hw : Writable tng es := by
        cases es with
        | nil => nomatch hraw
        | cons e es => exact ⟨e, es, rfl, hraw⟩
      obtain ⟨e, es', hfill, hraw'⟩ := hw.fill coded_tng (piecesBits w.pieces)
      have hraw'' : (shapeOf tng (tng.fill es (piecesBits w.pieces))).raw = true := by
        rw [hfill]
        exact hraw'
      have hbits := (hvalid w (mem_cons_self ..)).piecesBits
      refine (@ih (tng.fill es (piecesBits w.pieces)) (hraw''.symm ▸ hraw ▸ hrest) hvalid').trans ?_
      rw [fw.elements_fill hw, hbits]
      rfl

/-- The bits of a call that writes. -/
def callBits : TngCall → List Bool
  | .token _ => []
  | .write w => w.bits

/-- Short writes add their bits. -/
theorem foldl_writes {calls : List TngCall} (hcalls : ∀ c ∈ calls, c.ShortWrite) (acc : List Bool) :
    calls.foldl fw.step acc = acc ++ calls.flatMap callBits := by
  induction calls generalizing acc with
  | nil => exact (append_nil acc).symm
  | cons c calls ih =>
    rw [forall_mem_cons] at hcalls
    cases c with
    | token type => exact hcalls.1.elim
    | write w =>
      rw [foldl_cons, ih hcalls.2, flatMap_cons, ← append_assoc]
      rfl

/-- A token adds what the firmware inserts. -/
theorem step_insert (type : HeaderElementType) (hraw : tng.isRawCode (tng.code type) = false)
    (halign : tng.code type ≠ tng.code .insertbytealignH264) (acc : List Bool) :
    fw.step acc (insertElementToken type) = acc ++ fw.insert (tng.code type) acc.length := by
  rw [insertElementToken, step, element, hraw, if_neg Bool.false_ne_true, if_neg halign]

/-- A raw element adds nothing by itself. -/
theorem step_raw (type : HeaderElementType) (hraw : tng.isRawCode (tng.code type) = true)
    (acc : List Bool) : fw.step acc (insertElementToken type) = acc := by
  rw [insertElementToken, step, element, if_pos hraw, append_nil]

/-- The header of a message and its end. -/
theorem stream_sei (payloadType : ℕ) (payloadSizeBits : UInt8) {calls : List TngCall} {l : List Bool}
    (hcalls : ∀ acc : List Bool, acc.length = 48 → calls.foldl fw.step acc = acc ++ l) :
    fw.stream (seiHeaderCalls payloadType payloadSizeBits ++ calls ++ seiEndCalls) =
      bits 24 1 ++ bits 8 6 ++ bits 8 payloadType ++ bits 8 ((payloadSizeBits.toNat + 7) / 8) ++
        (l ++ fw.align (48 + l.length)) ++ bits 8 0x80 := by
  have hheader : (seiHeaderCalls payloadType payloadSizeBits).foldl fw.step [] =
      bits 24 1 ++ bits 8 6 ++ bits 8 payloadType ++ bits 8 ((payloadSizeBits.toNat + 7) / 8) := rfl
  have hend : ∀ acc : List Bool, seiEndCalls.foldl fw.step acc =
      acc ++ fw.align acc.length ++ bits 8 0x80 := by
    intro acc
    change (acc ++ fw.align acc.length) ++ [] ++ bits 8 0x80 = _
    rw [append_nil]
  have hlength : (bits 24 1 ++ bits 8 6 ++ bits 8 payloadType ++
      bits 8 ((payloadSizeBits.toNat + 7) / 8)).length = 48 := by simp
  rw [stream, foldl_append, foldl_append, hheader, hcalls _ hlength, hend, length_append, hlength]
  simp

end Firmware

/-! ### What a decoder reads -/

/-- `NumClockTS`, by the table of `pic_struct`. -/
def picStructClockTs : ℕ → Option ℕ
  | 0 | 1 | 2 => some 1
  | 3 | 4 | 7 => some 2
  | 5 | 6 | 8 => some 3
  | _ => none

/-- The time of a clock timestamp. -/
def timeSyntax (fullTimestampFlag : ℤ) (next : BitSyntax) : BitSyntax :=
  if fullTimestampFlag ≠ 0 then
    .element (.uint 6) fun _ => -- seconds_value
    .element (.uint 6) fun _ => -- minutes_value
    .element (.uint 5) fun _ => next -- hours_value
  else
    .element (.uint 1) fun secondsFlag => if secondsFlag ≠ 0 then
      .element (.uint 6) fun _ =>
      .element (.uint 1) fun minutesFlag => if minutesFlag ≠ 0 then
        .element (.uint 6) fun _ =>
        .element (.uint 1) fun hoursFlag => if hoursFlag ≠ 0 then
          .element (.uint 5) fun _ => next
        else next
      else next
    else next

/-- A clock timestamp. -/
def timestampSyntax (timeOffsetLength : ℕ) (next : BitSyntax) : BitSyntax :=
  .element (.uint 1) fun clockTimestampFlag => if clockTimestampFlag ≠ 0 then
    .element (.uint 2) fun _ => -- ct_type
    .element (.uint 1) fun _ => -- nuit_field_based_flag
    .element (.uint 5) fun _ => -- counting_type
    .element (.uint 1) fun fullTimestampFlag =>
    .element (.uint 1) fun _ => -- discontinuity_flag
    .element (.uint 1) fun _ => -- cnt_dropped_flag
    .element (.uint 8) fun _ => -- n_frames
    timeSyntax fullTimestampFlag (if 0 < timeOffsetLength then
      .element (.sint timeOffsetLength) fun _ => next
    else next)
  else next

def timestampsSyntax (timeOffsetLength : ℕ) : ℕ → BitSyntax
  | 0 => .done
  | n + 1 => timestampSyntax timeOffsetLength (timestampsSyntax timeOffsetLength n)

/-- `pic_timing()`. The sequence says whether there are delays and how long they are, whether
`pic_struct` is present, and how long an offset of time is. -/
def picTimingSyntax (delays : Option (ℕ × ℕ)) (picStructPresentFlag : Bool) (timeOffsetLength : ℕ) :
    BitSyntax :=
  let picStruct := if picStructPresentFlag then
      .element (.uint 4) fun picStruct =>
        (picStructClockTs picStruct.toNat).elim .fail (timestampsSyntax timeOffsetLength)
    else .done
  match delays with
  | some (m, n) => .element (.uint m) fun _ => .element (.uint n) fun _ => picStruct
  | none => picStruct

/-- Some initial delays, each with its offset. -/
def delaysSyntax (length : ℕ) (next : BitSyntax) : ℕ → BitSyntax
  | 0 => next
  | n + 1 => .element (.uint length) fun _ => .element (.uint length) fun _ => delaysSyntax length next n

/-- `buffering_period()`. The sequence says how many delays there are and how long they are. -/
def bufferingPeriodSyntax (nalCpbCnt vclCpbCnt length : ℕ) : BitSyntax :=
  .element .ueInt fun _ => delaysSyntax length (delaysSyntax length .done vclCpbCnt) nalCpbCnt

/-! ### Messages -/

/-- The elements in memory are determined. -/
theorem Stored.unique {h : HeaderParams} {es es' : List (ℕ × List Bool)} (hs : Stored tng h es)
    (hs' : Stored tng h es') (hlength : es.length = es'.length) : es = es' := by
  induction es generalizing es' with
  | nil => exact (eq_nil_of_length_eq_zero hlength.symm).symm
  | cons e es ih =>
    obtain ⟨e', es', rfl⟩ := exists_cons_of_length_eq_add_one hlength.symm
    obtain ⟨code, l⟩ := e
    obtain ⟨code', l'⟩ := e'
    obtain ⟨-, hat, hrest⟩ := hs
    obtain ⟨-, hat', hrest'⟩ := hs'
    obtain rfl := ih hrest hrest' (Nat.succ.inj hlength)
    obtain rfl := hat.type.symm.trans hat'.type
    cases hraw : tng.isRawCode code with
    | true => rw [← (hat.raw hraw).1, (hat'.raw hraw).1]
    | false => rw [hat.other hraw, hat'.other hraw]

/-- What is in memory when calls fit. -/
theorem laid_of_fits {calls : List TngCall} (hproper : tng.Proper true calls)
    (hfits : tng.Fits (.token .startcodeRawdata :: calls)) (memory : ℕ → UInt8) (pointers : ℕ → ℕ) :
    Laid tng (tng.run (Host.start memory pointers) (.token .startcodeRawdata :: calls))
      (tng.layout [] (.token .startcodeRawdata :: calls)) := by
  have hat := at_start coded_tng HeaderElementType.startcodeRawdata memory pointers
  obtain ⟨hfew, hstays⟩ := hfits.pointers memory pointers
  exact ((hat.run unchecked_tng hfew hproper).2 hstays).1.at'.laid

/-- A message of a type: its size is that of the payload, and the values that a decoder reads from it
are those that were meant. -/
def IsSei (payloadType : ℕ) (payloadSyntax : BitSyntax) (arguments : List (Option ℤ))
    (l : List Bool) : Prop :=
  ∃ size payload values padding, size < 256 ∧
    l = bits 24 1 ++ bits 8 6 ++ bits 8 payloadType ++ bits 8 size ++ payload ++ bits 8 0x80 ∧
    payload.length = 8 * size ∧ payloadSyntax.read payload = some (values, padding) ∧
    List.Forall₂ Means values arguments

/-- The size of a payload of `n` bits is counted in a byte, and nothing is added to whole bytes. -/
def Firmware.Sized {announced : HeaderElementType → ℕ} (fw : Firmware announced) (n : ℕ) : Prop :=
  n ≤ 255 ∧ (8 ∣ n → fw.align (48 + n) = [])

/-- The calls write a message: they stay in the memory for it, each of them is defined, and the firmware
makes the message of the elements that are there. -/
def WritesSei {announced : HeaderElementType → ℕ} (fw : Firmware announced) (payloadType : ℕ)
    (payloadSyntax : BitSyntax) (arguments : List (Option ℤ)) (calls : List TngCall) : Prop :=
  tng.Fits calls ∧ (∀ w, HeaderCall.write w ∈ calls → w.Valid) ∧
    ∀ memory pointers, ∃ es, Laid tng (tng.run (Host.start memory pointers) calls) es ∧
      IsSei payloadType payloadSyntax arguments (fw.elements es)

section Messages

variable {announced : HeaderElementType → ℕ} (fw : Firmware announced)

/-- The payload has as many bytes as are counted. -/
theorem length_payload_iff (n : ℕ) :
    n + (fw.align (48 + n)).length = 8 * ((n % 256 + 7) / 8) ↔ fw.Sized n := by
  have haligned := fw.aligned (48 + n)
  have hle := fw.length_align_le (48 + n)
  rw [Firmware.Sized, ← length_eq_zero_iff]
  omega

variable {payloadType : ℕ}

/-- When a message is the one of its arguments. -/
theorem isSei_iff {payloadSyntax : BitSyntax} {items : List Item} {p : Prop} {l : List Bool}
    {payloadSizeBits : UInt8} (hitems : items.flatMap Item.bits = l)
    (hsize : payloadSizeBits.toNat = l.length % 256) (hjudges : payloadSyntax.Judges items p) :
    IsSei payloadType payloadSyntax (items.map Item.meant)
      (bits 24 1 ++ bits 8 6 ++ bits 8 payloadType ++ bits 8 ((payloadSizeBits.toNat + 7) / 8) ++
        (l ++ fw.align (48 + l.length)) ++ bits 8 0x80) ↔ fw.Sized l.length ∧ p := by
  subst hitems
  rw [← length_payload_iff, ← hjudges.read_iff (fw.align (48 + (items.flatMap Item.bits).length)), hsize]
  refine ⟨fun ⟨size, payload, values, padding, hlt, heq, hlength, hread, hmeans⟩ => ?_,
    fun ⟨hlength, values, padding, hread, hmeans⟩ => ?_⟩
  · obtain ⟨hhead, -⟩ := append_inj' heq rfl
    have hheader : ∀ size, (bits 24 1 ++ bits 8 6 ++ bits 8 payloadType ++ bits 8 size).length = 48 := by
      simp
    obtain ⟨hheader', hpayload⟩ := append_inj hhead ((hheader _).trans (hheader _).symm)
    obtain ⟨-, hbits⟩ := append_inj' hheader' (by simp)
    have hsize' := bits_inj (show _ < 2 ^ 8 by omega) hlt hbits
    subst hpayload
    refine ⟨?_, values, padding, hread, hmeans⟩
    rw [← length_append, hlength, hsize']
  · refine ⟨_, _, values, padding, ?_, rfl, ?_, hread, hmeans⟩
    · omega
    · rw [length_append, hlength]

/-- The elements in memory stand for the bits of the calls. -/
theorem writesSei_iff {payloadSyntax : BitSyntax} {arguments : List (Option ℤ)}
    {calls : List TngCall} (hproper : tng.Proper true calls) :
    WritesSei fw payloadType payloadSyntax arguments (.token .startcodeRawdata :: calls) ↔
      tng.Fits (.token .startcodeRawdata :: calls) ∧ (∀ w, HeaderCall.write w ∈ calls → w.Valid) ∧
        IsSei payloadType payloadSyntax arguments (fw.stream (.token .startcodeRawdata :: calls)) := by
  have hvalid : (∀ w, HeaderCall.write w ∈ HeaderCall.token HeaderElementType.startcodeRawdata :: calls →
      w.Valid) ↔ ∀ w, HeaderCall.write w ∈ calls → w.Valid := by simp
  rw [WritesSei, hvalid]
  refine and_congr_right fun hfits => and_congr_right fun hvalid => ?_
  have helements : fw.elements (tng.layout [] (.token .startcodeRawdata :: calls)) =
      fw.stream (.token .startcodeRawdata :: calls) :=
    @Firmware.elements_layout _ fw [(tng.code .startcodeRawdata, [])] calls hproper hvalid
  refine ⟨fun h => ?_, fun h memory pointers =>
    ⟨_, laid_of_fits hproper hfits memory pointers, helements.symm ▸ h⟩⟩
  obtain ⟨es, hlaid, hsei⟩ := h (fun _ => 0) fun _ => 0
  have hlaid' := laid_of_fits hproper hfits (fun _ => 0) fun _ => 0
  have hes := hlaid.stored.unique hlaid'.stored (hlaid.elements.symm.trans hlaid'.elements)
  rwa [← helements, ← hes]

/-- When a message is consistent. -/
theorem writesSei_message_iff {payloadSyntax : BitSyntax} {items : List Item} {p : Prop}
    {body : List TngCall} {payloadSizeBits : UInt8} {n : ℕ} (hproper : tng.Proper true body)
    (hbody : ∀ acc : List Bool, acc.length = 48 →
      body.foldl fw.step acc = acc ++ items.flatMap Item.bits)
    (hn : (items.flatMap Item.bits).length = n) (hsize : payloadSizeBits.toNat = n % 256)
    (hjudges : (∀ w, HeaderCall.write w ∈ body → w.Valid) → payloadSyntax.Judges items p) :
    WritesSei fw payloadType payloadSyntax (items.map Item.meant)
        (seiHeaderCalls payloadType payloadSizeBits ++ body ++ seiEndCalls) ↔
      tng.Fits (seiHeaderCalls payloadType payloadSizeBits ++ body ++ seiEndCalls) ∧
        (∀ w, HeaderCall.write w ∈ body → w.Valid) ∧ fw.Sized n ∧ p := by
  have hheader : ∀ c ∈ (seiHeaderCalls payloadType payloadSizeBits).tail, c.ShortWrite := by
    simp [seiHeaderCalls, startcodePrefixElement]
  have hall : tng.Proper true
      ((seiHeaderCalls payloadType payloadSizeBits).tail ++ (body ++ seiEndCalls)) :=
    Host.Keeps.proper (.of_shortWrites hheader) _
      (Shape.proper_append (s := Shape.first true) hproper (seiEnd_proper _))
  have hvalid : (∀ w, HeaderCall.write w ∈ (seiHeaderCalls payloadType payloadSizeBits).tail ++
      (body ++ seiEndCalls) → w.Valid) ↔ ∀ w, HeaderCall.write w ∈ body → w.Valid := by
    simp [seiHeaderCalls, seiEndCalls, startcodePrefixElement, writeUpto8bitsElements,
      insertElementToken, or_imp, forall_and]
  have hcalls : seiHeaderCalls payloadType payloadSizeBits ++ body ++ seiEndCalls =
      .token .startcodeRawdata ::
        ((seiHeaderCalls payloadType payloadSizeBits).tail ++ (body ++ seiEndCalls)) :=
    append_assoc ..
  have hstream := fw.stream_sei payloadType payloadSizeBits hbody
  rw [hcalls] at hstream ⊢
  rw [writesSei_iff fw hall, hvalid, hstream]
  refine and_congr_right fun _ => and_congr_right fun hvalid => ?_
  rw [← hn]
  exact isSei_iff fw rfl (hsize.trans (by rw [hn])) (hjudges hvalid)

end Messages

/-! ### Picture timing -/

/-- The number that a call writes. -/
def callItem : TngCall → Item
  | .write (.upto8bits v n) | .write (.upto32bits v n) => .uint n v
  | .write (.ue v) => .ue v
  | .write (.se v) => ⟨seBits v, v, some v⟩
  | .token _ => .inserted []

/-- The bits of the calls. -/
theorem flatMap_callItem (calls : List TngCall) :
    (calls.map callItem).flatMap Item.bits = calls.flatMap Firmware.callBits := by
  rw [flatMap_map]
  congr 1
  funext c
  cases c with
  | token type => rfl
  | write w => cases w <;> rfl

namespace PictureTiming

variable (a : PictureTiming)

/-- The lengths of the fields that the firmware inserts. -/
def announced : HeaderElementType → ℕ
  | .pthSeiNalCpbRemovalDelay => a.cpbRemovalDelayLengthMinus1.toNat + 1
  | .pthSeiNalDpbOutputDelay => a.dpbOutputDelayLengthMinus1.toNat + 1
  | _ => 0

def payloadSyntax : BitSyntax :=
  picTimingSyntax
    (if a.cpbDpbDelaysPresentFlag ≠ 0 then
      some (a.announced .pthSeiNalCpbRemovalDelay, a.announced .pthSeiNalDpbOutputDelay)
    else none)
    (a.picStructPresentFlag ≠ 0) a.timeOffsetLength.toNat

/-! The arguments in the order in which they are to be read. -/

def timeArguments : List UInt8 :=
  if a.fullTimestampFlag ≠ 0 then [a.secondsValue, a.minutesValue, a.hoursValue]
  else
    a.secondsFlag :: if a.secondsFlag ≠ 0 then
      a.secondsValue :: a.minutesFlag :: if a.minutesFlag ≠ 0 then
        a.minutesValue :: a.hoursFlag :: if a.hoursFlag ≠ 0 then [a.hoursValue] else []
      else []
    else []

def timestampArguments (i : ℕ) : List ℤ :=
  if a.clockTimestampFlag i ≠ 0 then
    ([a.clockTimestampFlag i, a.ctType, a.nuitFieldBasedFlag, a.countingType, a.fullTimestampFlag,
        a.discontinuityFlag, a.cntDroppedFlag, a.nFrames] ++ a.timeArguments).map
      (fun v => (v.toNat : ℤ)) ++
    if 0 < a.timeOffsetLength then [a.timeOffset.toInt] else []
  else [(a.clockTimestampFlag i).toNat]

/-- What a decoder is to read. The delays are up to the firmware. -/
def arguments : List (Option ℤ) :=
  (if a.cpbDpbDelaysPresentFlag ≠ 0 then [none, none] else []) ++
  if a.picStructPresentFlag ≠ 0 then
    ((a.picStruct.toNat : ℤ) ::
      (List.range a.numClockTs.toNat).flatMap a.timestampArguments).map some
  else []

/-! What is written for them. -/

def timestampItems (i : ℕ) : List Item :=
  .uint 1 (a.clockTimestampFlag i).toNat ::
    if a.clockTimestampFlag i ≠ 0 then
      [.uint 2 a.ctType.toNat, .uint 1 a.nuitFieldBasedFlag.toNat, .uint 5 a.countingType.toNat,
        .uint 1 a.fullTimestampFlag.toNat, .uint 1 a.discontinuityFlag.toNat,
        .uint 1 a.cntDroppedFlag.toNat, .uint 8 a.nFrames.toNat] ++
      a.timeCalls.map callItem ++
      if 0 < a.timeOffsetLength then
        [.sint a.timeOffsetLength.toNat a.timeOffsetBits.toNat a.timeOffset.toInt]
      else []
    else []

def picStructItems : List Item :=
  if a.picStructPresentFlag ≠ 0 then
    .uint 4 a.picStruct.toNat :: (List.range a.numClockTs.toNat).flatMap a.timestampItems
  else []

def delayItems (fw : Firmware a.announced) : List Item :=
  if a.cpbDpbDelaysPresentFlag ≠ 0 then
    [.inserted (fw.insert (tng.code .pthSeiNalCpbRemovalDelay) 48),
      .inserted (fw.insert (tng.code .pthSeiNalDpbOutputDelay)
        (48 + a.announced .pthSeiNalCpbRemovalDelay))]
  else []

def items (fw : Firmware a.announced) : List Item := a.delayItems fw ++ a.picStructItems

/-! ### When it is read back -/

/-- The time fits its fields. -/
def TimeInRange : Prop :=
  if a.fullTimestampFlag ≠ 0 then
    a.secondsValue.toNat < 2 ^ 6 ∧ a.minutesValue.toNat < 2 ^ 6 ∧ a.hoursValue.toNat < 2 ^ 5
  else a.secondsFlag.toNat < 2 ^ 1 ∧ (a.secondsFlag ≠ 0 →
    a.secondsValue.toNat < 2 ^ 6 ∧ a.minutesFlag.toNat < 2 ^ 1 ∧ (a.minutesFlag ≠ 0 →
      a.minutesValue.toNat < 2 ^ 6 ∧ a.hoursFlag.toNat < 2 ^ 1 ∧ (a.hoursFlag ≠ 0 →
        a.hoursValue.toNat < 2 ^ 5)))

/-- The offsets that are written as they are to be read: the others are negative. -/
def OffsetInRange : Prop :=
  a.timeOffset.toInt < 2 ^ (a.timeOffsetLength.toNat - 1) ∧
    (0 ≤ a.timeOffset.toInt ∨ a.timeOffsetLength.toNat = 2 ∧ -2 ≤ a.timeOffset.toInt)

/-- A timestamp fits its fields. -/
def TimestampInRange (i : ℕ) : Prop :=
  (a.clockTimestampFlag i).toNat < 2 ^ 1 ∧ (a.clockTimestampFlag i ≠ 0 →
    a.ctType.toNat < 2 ^ 2 ∧ a.nuitFieldBasedFlag.toNat < 2 ^ 1 ∧ a.countingType.toNat < 2 ^ 5 ∧
    a.fullTimestampFlag.toNat < 2 ^ 1 ∧ a.discontinuityFlag.toNat < 2 ^ 1 ∧
    a.cntDroppedFlag.toNat < 2 ^ 1 ∧ a.TimeInRange ∧ (0 < a.timeOffsetLength → a.OffsetInRange))

/-- The timestamps fit their fields, and there are as many as the structure of the picture has. -/
def TimestampsInRange : Prop :=
  a.picStructPresentFlag ≠ 0 → picStructClockTs a.picStruct.toNat = some a.numClockTs.toNat ∧
    ∀ i < a.numClockTs.toNat, a.TimestampInRange i

section Judges

variable {s t : BitSyntax} {ws ws' : List Item} {p q : Prop}

/-- A flag is a number that is not zero. -/
theorem natCast_flag (x : UInt8) : ((x.toNat : ℕ) : ℤ) ≠ 0 ↔ x ≠ 0 := by
  rw [Ne, Int.natCast_eq_zero, ← UInt8.toNat_zero, UInt8.toNat_inj]

/-- Elements that are read if a flag is set. -/
theorem judges_flag {x : UInt8} (hset : x ≠ 0 → s.Judges (ws ++ ws') (p ∧ q))
    (hunset : t.Judges ws' q) :
    (if ((x.toNat : ℕ) : ℤ) ≠ 0 then s else t).Judges ((if x ≠ 0 then ws else []) ++ ws')
      ((x ≠ 0 → p) ∧ q) := by
  by_cases hx : x ≠ 0
  · rw [if_pos ((natCast_flag x).mpr hx), if_pos hx, forall_prop_of_true hx]
    exact hset hx
  · rw [if_neg (fun h => hx ((natCast_flag x).mp h)), if_neg hx, nil_append]
    exact hunset.congr (and_iff_right fun h => absurd h hx).symm

/-- The time of a time stamp. -/
theorem judges_time (h : s.Judges ws q) :
    (timeSyntax ((a.fullTimestampFlag.toNat : ℕ) : ℤ) s).Judges (a.timeCalls.map callItem ++ ws)
      (a.TimeInRange ∧ q) := by
  rw [timeSyntax, timeCalls, TimeInRange]
  by_cases hfull : a.fullTimestampFlag ≠ 0
  · rw [if_pos ((natCast_flag _).mpr hfull), if_pos hfull, if_pos hfull, and_assoc, and_assoc]
    exact .uint fun _ => .uint fun _ => .uint fun _ => h
  · rw [if_neg (fun h => hfull ((natCast_flag _).mp h)), if_neg hfull, if_neg hfull, map_cons,
      apply_ite (List.map callItem), and_assoc]
    refine .uint fun _ => judges_flag (fun _ => ?_) h
    rw [map_cons, map_cons, apply_ite (List.map callItem), and_assoc, and_assoc]
    refine .uint fun _ => .uint fun _ => judges_flag (fun _ => ?_) h
    rw [map_cons, map_cons, apply_ite (List.map callItem), and_assoc, and_assoc]
    exact .uint fun _ => .uint fun _ => judges_flag (fun _ => .uint fun _ => h) h

/-- What the power of two is taken for. -/
theorem offset_pattern : (2 ^ 32 : ℤ) ∣ (a.timeOffset.toInt - a.timeOffsetBits.toNat) +
    if a.timeOffset < 0 then ((2 ^^^ a.timeOffsetLength.toNat : ℕ) : ℤ) else 0 := by
  have hword : ∀ y : Int32, (2 ^ 32 : ℤ) ∣ y.toInt - y.toUInt32.toNat := by
    intro y
    have hbmod : y.toInt = Int.bmod y.toUInt32.toNat (2 ^ 32) := y.toBitVec.toInt_eq_toNat_bmod
    rw [hbmod]
    exact Int.dvd_bmod_sub_self
  rw [timeOffsetBits]
  split
  · have hsum := hword (Int32.ofNat (2 ^^^ a.timeOffsetLength.toNat) + a.timeOffset)
    have hadd : (2 ^ 32 : ℤ) ∣ (Int32.ofNat (2 ^^^ a.timeOffsetLength.toNat) + a.timeOffset).toInt -
        ((Int32.ofNat (2 ^^^ a.timeOffsetLength.toNat)).toInt + a.timeOffset.toInt) := by
      rw [Int32.toInt_add]
      exact Int.dvd_bmod_sub_self
    have hconst : (2 ^ 32 : ℤ) ∣ (Int32.ofNat (2 ^^^ a.timeOffsetLength.toNat)).toInt -
        ((2 ^^^ a.timeOffsetLength.toNat : ℕ) : ℤ) := by
      rw [Int32.toInt_ofNat']
      exact Int.dvd_bmod_sub_self
    omega
  · rw [add_zero]
    exact hword a.timeOffset

/-- When the wrong power agrees with the right one. -/
theorem two_pow_dvd_xor : ∀ len < 33, 0 < len → (2 ^ len ∣ 2 ^^^ len ↔ len = 2) := by decide

/-- When the time offset reads back. -/
theorem offset_read_iff (hpos : 0 < a.timeOffsetLength.toNat) (hle : a.timeOffsetLength.toNat ≤ 32) :
    a.timeOffset.toInt = (BitVec.ofNat a.timeOffsetLength.toNat a.timeOffsetBits.toNat).toInt ↔
      a.OffsetInRange := by
  have hdvd : (2 : ℤ) ^ a.timeOffsetLength.toNat ∣ 2 ^ 32 := pow_dvd_pow 2 hle
  have hpattern := hdvd.trans a.offset_pattern
  have hneg : a.timeOffset < 0 ↔ a.timeOffset.toInt < 0 := Int32.lt_iff_toInt_lt
  have hxor := two_pow_dvd_xor _ (Nat.lt_succ_of_le hle) hpos
  have hhalf : (2 : ℤ) ^ a.timeOffsetLength.toNat = 2 * 2 ^ (a.timeOffsetLength.toNat - 1) := by
    rw [← pow_succ', Nat.sub_add_cancel hpos]
  have hbmod : (BitVec.ofNat a.timeOffsetLength.toNat a.timeOffsetBits.toNat).toInt =
      Int.bmod a.timeOffsetBits.toNat (2 ^ a.timeOffsetLength.toNat) := BitVec.toInt_ofNat _
  rw [hbmod, eq_comm, Int.bmod_eq_iff (Nat.two_pow_pos _), OffsetInRange, Nat.cast_pow, Nat.cast_ofNat,
    hhalf]
  have hlow : -(2 * 2 ^ (a.timeOffsetLength.toNat - 1) / 2 : ℤ) =
      -2 ^ (a.timeOffsetLength.toNat - 1) := by omega
  have hhigh : (2 * 2 ^ (a.timeOffsetLength.toNat - 1) + 1 : ℤ) / 2 =
      2 ^ (a.timeOffsetLength.toNat - 1) := by omega
  rw [hlow, hhigh, ← hhalf]
  have hhalfpos : (0 : ℤ) < 2 ^ (a.timeOffsetLength.toNat - 1) := Int.pow_pos (by decide)
  by_cases hsign : a.timeOffset.toInt < 0
  · -- the offset is written with the wrong power of two
    rw [if_pos (hneg.mpr hsign)] at hpattern
    have hiff : (2 : ℤ) ^ a.timeOffsetLength.toNat ∣
        a.timeOffset.toInt - a.timeOffsetBits.toNat ↔ a.timeOffsetLength.toNat = 2 := by
      rw [Int.dvd_iff_dvd_of_dvd_add hpattern, ← hxor]
      exact_mod_cast Iff.rfl
    rw [hiff]
    constructor
    · rintro ⟨hge, hlt, htwo⟩
      rw [htwo] at hge
      exact ⟨hlt, .inr ⟨htwo, hge⟩⟩
    · rintro ⟨hlt, hge | ⟨htwo, hge⟩⟩
      · exact absurd hge (not_le.mpr hsign)
      · refine ⟨?_, hlt, htwo⟩
        rw [htwo]
        exact hge
  · rw [if_neg (fun h => hsign (hneg.mp h)), add_zero] at hpattern
    have hge := not_lt.mp hsign
    exact ⟨fun h => ⟨h.2.1, .inl hge⟩,
      fun h => ⟨(neg_nonpos.mpr hhalfpos.le).trans hge, h.1, hpattern⟩⟩

/-- The offset of a time stamp. -/
theorem judges_offset (hle : 0 < a.timeOffsetLength → a.timeOffsetLength.toNat ≤ 32)
    (h : s.Judges ws q) :
    (if 0 < a.timeOffsetLength.toNat then
        BitSyntax.element (.sint a.timeOffsetLength.toNat) fun _ => s
      else s).Judges
      ((if 0 < a.timeOffsetLength then
        [Item.sint a.timeOffsetLength.toNat a.timeOffsetBits.toNat a.timeOffset.toInt] else []) ++ ws)
      ((0 < a.timeOffsetLength → a.OffsetInRange) ∧ q) := by
  have hpos : 0 < a.timeOffsetLength ↔ 0 < a.timeOffsetLength.toNat := UInt8.lt_iff_toNat_lt
  by_cases hlength : 0 < a.timeOffsetLength
  · rw [if_pos (hpos.mp hlength), if_pos hlength, forall_prop_of_true hlength]
    exact (Judges.sint h _ _).congr
      (and_congr_left' (a.offset_read_iff (hpos.mp hlength) (hle hlength)))
  · rw [if_neg (fun h => hlength (hpos.mpr h)), if_neg hlength, nil_append]
    exact h.congr (and_iff_right fun h => absurd h hlength).symm

/-- A time stamp. -/
theorem judges_timestamp {i : ℕ}
    (hle : a.clockTimestampFlag i ≠ 0 → 0 < a.timeOffsetLength → a.timeOffsetLength.toNat ≤ 32)
    (h : s.Judges ws q) :
    (timestampSyntax a.timeOffsetLength.toNat s).Judges (a.timestampItems i ++ ws)
      (a.TimestampInRange i ∧ q) := by
  rw [timestampSyntax, timestampItems, TimestampInRange, cons_append, and_assoc]
  refine .uint fun _ => judges_flag (fun hflag => ?_) h
  have hrest := a.judges_time (a.judges_offset (hle hflag) h)
  have hframes : a.nFrames.toNat < 2 ^ 8 := a.nFrames.toNat_lt
  rw [append_assoc, append_assoc]
  refine Judges.congr (.uint fun _ => .uint fun _ => .uint fun _ => .uint fun _ => .uint fun _ =>
    .uint fun _ => .uint fun _ => hrest) ?_
  rw [and_iff_right hframes]
  simp [and_assoc]

/-- All time stamps. -/
theorem judges_timestamps {l : List ℕ} (n : ℕ)
    (hle : ∀ i ∈ l, a.clockTimestampFlag i ≠ 0 → 0 < a.timeOffsetLength →
      a.timeOffsetLength.toNat ≤ 32) :
    (timestampsSyntax a.timeOffsetLength.toNat n).Judges (l.flatMap a.timestampItems)
      (n = l.length ∧ ∀ i ∈ l, a.TimestampInRange i) := by
  induction l generalizing n with
  | nil =>
    cases n with
    | zero => exact Judges.done.congr (by simp)
    | succ n => exact (Judges.nil _ _).congr (by simp)
  | cons i l ih =>
    rw [forall_mem_cons] at hle
    cases n with
    | zero => exact (Judges.done_cons _).congr (by simp)
    | succ n =>
      refine (a.judges_timestamp hle.1 (ih n hle.2)).congr ?_
      rw [forall_mem_cons, length_cons, Nat.succ_inj]
      tauto

/-- The picture structure. -/
theorem judges_picStruct {l : List Item} {p : Prop}
    (h : ∀ n, (timestampsSyntax a.timeOffsetLength.toNat n).Judges l
      (n = (List.range a.numClockTs.toNat).length ∧ p)) :
    (BitSyntax.element (.uint 4) fun picStruct =>
      (picStructClockTs picStruct.toNat).elim .fail
        (timestampsSyntax a.timeOffsetLength.toNat)).Judges (.uint 4 a.picStruct.toNat :: l)
      (picStructClockTs a.picStruct.toNat = some a.numClockTs.toNat ∧ p) := by
  have hlt : ∀ {v n : ℕ}, picStructClockTs v = some n → v < 2 ^ 4 := by
    intro v n hv
    rw [picStructClockTs.eq_def] at hv
    split at hv
    all_goals first | decide | nomatch hv
  have hrest : ((picStructClockTs (a.picStruct.toNat : ℤ).toNat).elim .fail
      (timestampsSyntax a.timeOffsetLength.toNat)).Judges l
      (picStructClockTs a.picStruct.toNat = some a.numClockTs.toNat ∧ p) := by
    rw [Int.toNat_natCast]
    cases hcount : picStructClockTs a.picStruct.toNat with
    | none => exact (Judges.fail l).congr (iff_of_false id fun h => nomatch h.1)
    | some n => exact (h n).congr (by rw [length_range, Option.some_inj])
  exact (Judges.uint fun _ => hrest).congr (and_iff_right_of_imp fun h => hlt h.1)

/-- What is read back of a picture timing message. -/
theorem judges_items (fw : Firmware a.announced)
    (hle : a.picStructPresentFlag ≠ 0 → ∀ i < a.numClockTs.toNat, a.clockTimestampFlag i ≠ 0 →
      0 < a.timeOffsetLength → a.timeOffsetLength.toNat ≤ 32) :
    a.payloadSyntax.Judges (a.items fw) a.TimestampsInRange := by
  have hpicStruct : (if decide (a.picStructPresentFlag ≠ 0) = true then
      BitSyntax.element (.uint 4) fun picStruct =>
        (picStructClockTs picStruct.toNat).elim .fail (timestampsSyntax a.timeOffsetLength.toNat)
      else .done).Judges a.picStructItems a.TimestampsInRange := by
    rw [picStructItems, TimestampsInRange]
    by_cases hpresent : a.picStructPresentFlag ≠ 0
    · rw [if_pos (decide_eq_true hpresent), if_pos hpresent, forall_prop_of_true hpresent]
      have htimestamps := fun n => a.judges_timestamps n
        fun i hi => hle hpresent i (mem_range.mp hi)
      simp only [mem_range] at htimestamps
      exact a.judges_picStruct htimestamps
    · rw [if_neg (fun h => hpresent (of_decide_eq_true h)), if_neg hpresent]
      exact Judges.done.congr (iff_of_true trivial fun h => absurd h hpresent)
  rw [payloadSyntax, items, delayItems]
  split
  · exact (hpicStruct.inserted (fw.length_insert _ _)).inserted (fw.length_insert _ _)
  · exact hpicStruct

end Judges

/-! ### Its size and its bits -/

/-- The number of bits of the payload. -/
def payloadBits : ℕ :=
  (if a.cpbDpbDelaysPresentFlag ≠ 0 then
    a.announced .pthSeiNalCpbRemovalDelay + a.announced .pthSeiNalDpbOutputDelay else 0) +
  if a.picStructPresentFlag ≠ 0 then a.picStructSize else 0

/-- The size of the time in a byte. -/
theorem timeSizeBits_eq : a.timeSizeBits = UInt8.ofNat a.timeSize := by
  rw [timeSizeBits, timeSize]
  repeat' split
  all_goals first | rfl | contradiction

/-- The size of a time stamp in a byte. -/
theorem timestampSizeBits_eq (i : ℕ) : a.timestampSizeBits i = UInt8.ofNat (a.timestampSize i) := by
  have hlength : (if 0 < a.timeOffsetLength then a.timeOffsetLength else 0) = a.timeOffsetLength := by
    split
    · rfl
    · rename_i hpos
      exact (UInt8.le_zero_iff.mp (UInt8.not_lt.mp hpos)).symm
  rw [timestampSizeBits, timestampSize, timeSizeBits_eq, hlength]
  split
  · rw [UInt8.ofNat_add, UInt8.ofNat_add, UInt8.ofNat_toNat, ← UInt8.add_assoc, ← UInt8.add_assoc]
    rfl
  · rfl

/-- The bits of the payload are counted modulo 256. -/
theorem payloadSizeBits_eq : a.payloadSizeBits.toNat = a.payloadBits % 256 := by
  have hsum : ∀ l : List ℕ, (l.map a.timestampSizeBits).sum = UInt8.ofNat (l.map a.timestampSize).sum := by
    intro l
    induction l with
    | nil => rfl
    | cons i l ih =>
      rw [map_cons, map_cons, sum_cons, sum_cons, ih, timestampSizeBits_eq, UInt8.ofNat_add]
  have hdelays : (a.cpbRemovalDelayLengthMinus1 + 1 + a.dpbOutputDelayLengthMinus1 + 1).toUInt8 =
      UInt8.ofNat (a.announced .pthSeiNalCpbRemovalDelay + a.announced .pthSeiNalDpbOutputDelay) := by
    rw [← UInt8.toNat_inj, UInt32.toNat_toUInt8, UInt8.toNat_ofNat', announced, announced,
      UInt32.toNat_add, UInt32.toNat_add, UInt32.toNat_add, UInt32.toNat_one]
    omega
  have heq : a.payloadSizeBits = UInt8.ofNat a.payloadBits := by
    rw [payloadSizeBits, payloadBits, picStructSize, UInt8.ofNat_add, hsum, hdelays]
    congr 1
    · split <;> rfl
    · split
      · rw [UInt8.ofNat_add]
        rfl
      · rfl
  rw [heq]
  exact UInt8.toNat_ofNat'

/-- The elements mean the arguments. -/
theorem arguments_eq (fw : Firmware a.announced) : (a.items fw).map Item.meant = a.arguments := by
  have htime : (a.timeCalls.map callItem).map Item.meant =
      (a.timeArguments.map fun v => (v.toNat : ℤ)).map some := by
    rw [timeCalls, timeArguments]
    repeat' split
    all_goals rfl
  have htimestamp : ∀ i, (a.timestampItems i).map Item.meant = (a.timestampArguments i).map some := by
    intro i
    rw [timestampItems, timestampArguments]
    split
    · rw [map_cons, map_append, map_append, htime, map_append, map_append, map_append]
      split <;> rfl
    · rfl
  rw [items, arguments, map_append, delayItems, picStructItems]
  congr 1
  · split <;> rfl
  · split
    · rw [map_cons, map_cons, map_flatMap, map_flatMap]
      simp only [htimestamp]
      rfl
    · rfl

/-- The bits of a time stamp. -/
theorem timestampItems_bits (i : ℕ) :
    (a.timestampItems i).flatMap Item.bits = (a.timestampCalls i).flatMap Firmware.callBits := by
  rw [timestampItems, timestampCalls, flatMap_cons, flatMap_cons]
  split
  · rw [flatMap_append, flatMap_append, flatMap_callItem, flatMap_append, flatMap_append]
    split <;> rfl
  · rfl

/-- The bits of the payload as the firmware makes them. -/
theorem foldl_body (fw : Firmware a.announced) {acc : List Bool} (hacc : acc.length = 48) :
    (a.delayCalls ++ a.picStructCalls).foldl fw.step acc =
      acc ++ (a.items fw).flatMap Item.bits := by
  have hdelays : a.delayCalls.foldl fw.step acc = acc ++ (a.delayItems fw).flatMap Item.bits := by
    rw [delayCalls, delayItems]
    split
    · rw [foldl_cons, foldl_cons, foldl_nil,
        fw.step_insert .pthSeiNalCpbRemovalDelay (by decide) (by decide),
        fw.step_insert .pthSeiNalDpbOutputDelay (by decide) (by decide), length_append,
        fw.length_insert, hacc, flatMap_cons, flatMap_singleton,
        append_assoc]
      rfl
    · exact (append_nil acc).symm
  have hpicStruct : ∀ acc : List Bool, a.picStructCalls.foldl fw.step acc =
      acc ++ a.picStructItems.flatMap Item.bits := by
    intro acc
    rw [picStructCalls, picStructItems]
    split
    · have htail := fw.foldl_writes a.picStructTail_short acc
      have hitems : (Item.uint 4 a.picStruct.toNat ::
          (List.range a.numClockTs.toNat).flatMap a.timestampItems).flatMap Item.bits =
          a.picStructTail.flatMap Firmware.callBits := by
        rw [picStructTail, flatMap_cons, flatMap_cons, flatMap_assoc, flatMap_assoc]
        simp only [timestampItems_bits]
        rfl
      rw [hitems, ← htail]
      exact congrArg (fun acc => a.picStructTail.foldl fw.step acc)
        (fw.step_raw .startcodeRawdata (by decide) acc)
    · exact (append_nil acc).symm
  rw [foldl_append, hdelays, hpicStruct, items, flatMap_append, append_assoc]

/-- Their number. -/
theorem length_timestampItems (i : ℕ) :
    ((a.timestampItems i).flatMap Item.bits).length = a.timestampSize i := by
  have htime : ((a.timeCalls.map callItem).flatMap Item.bits).length = a.timeSize := by
    rw [timeCalls, timeSize]
    repeat' split
    all_goals first | rfl | contradiction
  have hoffset : ((if 0 < a.timeOffsetLength then
      [Item.sint a.timeOffsetLength.toNat a.timeOffsetBits.toNat a.timeOffset.toInt]
      else []).flatMap Item.bits).length = a.timeOffsetLength.toNat := by
    split
    · rw [flatMap_singleton]
      exact length_bits _ _
    · rename_i hpos
      rw [UInt8.le_zero_iff.mp (UInt8.not_lt.mp hpos)]
      rfl
  rw [timestampItems, timestampSize, flatMap_cons, length_append]
  split
  · rw [flatMap_append, flatMap_append, length_append, length_append, htime, hoffset]
    simp only [Item.uint, flatMap_cons, flatMap_nil, length_append, length_bits, length_nil]
    omega
  · rfl

/-- The number of bits of the message. -/
theorem length_items (fw : Firmware a.announced) :
    ((a.items fw).flatMap Item.bits).length = a.payloadBits := by
  rw [items, flatMap_append, length_append, payloadBits, delayItems, picStructItems]
  congr 1
  · split
    · rw [flatMap_cons, flatMap_singleton, length_append]
      exact congrArg₂ _ (fw.length_insert _ _) (fw.length_insert _ _)
    · rfl
  · split
    · rw [flatMap_cons, length_append, picStructSize, flatMap_assoc, length_flatMap]
      simp only [length_timestampItems]
      rfl
    · rfl

/-- When a time stamp is written by valid calls. -/
theorem valid_timestampCalls (i : ℕ) : (∀ w, HeaderCall.write w ∈ a.timestampCalls i → w.Valid) ↔
    (a.clockTimestampFlag i ≠ 0 → 0 < a.timeOffsetLength → a.timeOffsetLength.toNat ≤ 32) := by
  have htime : ∀ w, HeaderCall.write w ∈ a.timeCalls → w.Valid := by
    rw [timeCalls]
    repeat' split
    all_goals simp [writeUpto8bitsElements]
  have hpos : 0 < a.timeOffsetLength ↔ 1 ≤ a.timeOffsetLength.toNat := UInt8.lt_iff_toNat_lt
  rw [timestampCalls]
  by_cases hflag : a.clockTimestampFlag i ≠ 0
  · rw [if_pos hflag, forall_prop_of_true hflag]
    by_cases hlength : 0 < a.timeOffsetLength
    · rw [if_pos hlength, forall_prop_of_true hlength]
      simpa [writeUpto8bitsElements, writeUpto32bitsElements, or_imp, forall_and, hpos.mp hlength]
        using fun _ => htime
    · rw [if_neg hlength]
      simpa [writeUpto8bitsElements, or_imp, forall_and, hlength] using htime
  · rw [if_neg hflag]
    simp [writeUpto8bitsElements, hflag]

/-- The lengths for which the calls are defined. -/
theorem valid_iff : (∀ w, HeaderCall.write w ∈ a.delayCalls ++ a.picStructCalls → w.Valid) ↔
    (a.picStructPresentFlag ≠ 0 → ∀ i < a.numClockTs.toNat, a.clockTimestampFlag i ≠ 0 →
      0 < a.timeOffsetLength → a.timeOffsetLength.toNat ≤ 32) := by
  have hdelays : ∀ w, HeaderCall.write w ∉ a.delayCalls := by
    intro w
    rw [delayCalls]
    split <;> simp [insertElementToken]
  have happend : (∀ w, HeaderCall.write w ∈ a.delayCalls ++ a.picStructCalls → w.Valid) ↔
      ∀ w, HeaderCall.write w ∈ a.picStructCalls → w.Valid := by
    simp [hdelays]
  rw [happend, picStructCalls]
  by_cases hpresent : a.picStructPresentFlag ≠ 0
  · rw [if_pos hpresent, forall_prop_of_true hpresent]
    simp only [← valid_timestampCalls]
    simp [insertElementToken, writeUpto8bitsElements, or_imp, forall_and]
    tauto
  · rw [if_neg hpresent]
    exact iff_of_true (fun w hw => absurd hw not_mem_nil) fun h => absurd h hpresent

/-- The arguments for which a message is consistent. -/
structure Sound (fw : Firmware a.announced) : Prop where
  sized : fw.Sized a.payloadBits
  inRange : a.TimestampsInRange
  offset : a.picStructPresentFlag ≠ 0 → ∀ i < a.numClockTs.toNat, a.clockTimestampFlag i ≠ 0 →
    0 < a.timeOffsetLength → a.timeOffsetLength.toNat ≤ 32

/-- When the message is written. -/
theorem writesSei_iff (fw : Firmware a.announced) :
    WritesSei fw 1 a.payloadSyntax a.arguments a.calls ↔ a.Sound fw := by
  have hproper := a.delayCalls_proper _ a.picStructCalls_proper
  have hcalls : a.calls =
      seiHeaderCalls 1 a.payloadSizeBits ++ (a.delayCalls ++ a.picStructCalls) ++ seiEndCalls := by
    rw [calls, append_assoc (seiHeaderCalls _ _)]
  have hiff := @writesSei_message_iff _ fw 1 a.payloadSyntax (a.items fw) a.TimestampsInRange _
    a.payloadSizeBits a.payloadBits hproper (fun acc hacc => a.foldl_body fw hacc) (a.length_items fw)
    a.payloadSizeBits_eq fun hvalid => a.judges_items fw (a.valid_iff.mp hvalid)
  rw [← hcalls, arguments_eq, valid_iff, fits_iff] at hiff
  refine hiff.trans ⟨?_, fun hsound =>
    ⟨fun hpresent => ?_, hsound.offset, hsound.sized, hsound.inRange⟩⟩
  · rintro ⟨_, hvalid, hsized, hrange⟩
    exact ⟨hsized, hrange, hvalid⟩
  have hle := hsound.sized.1
  rw [payloadBits, if_pos hpresent] at hle
  split <;> omega

end PictureTiming

/-! ### Buffering period -/

namespace BufferingPeriod

variable (a : BufferingPeriod)

/-- The length of the fields that the firmware inserts. -/
def announced : HeaderElementType → ℕ
  | .bphSeiNalInitialCpbRemovalDelay | .bphSeiNalInitialCpbRemovalDelayOffset =>
    a.nalInitialCpbRemovalDelayLength.toNat
  | _ => 0

/-- The numbers of coded picture buffers. -/
def nalCpbCnt : ℕ := if a.nalHrdBpPresentFlag ≠ 0 then a.nalCpbCntMinus1.toNat + 1 else 0

def vclCpbCnt : ℕ := if a.vclHrdBpPresentFlag ≠ 0 then a.vclCpbCntMinus1.toNat + 1 else 0

def payloadSyntax : BitSyntax :=
  bufferingPeriodSyntax a.nalCpbCnt a.vclCpbCnt a.nalInitialCpbRemovalDelayLength.toNat

/-- What a decoder is to read. The delays of the NAL units are up to the firmware. -/
def arguments : List (Option ℤ) :=
  some 0 :: ((List.replicate a.nalCpbCnt [none, none]).flatten ++
    (List.replicate a.vclCpbCnt [some (a.vclInitialCpbRemovalDelay.toNat : ℤ),
      some (a.vclInitialCpbRemovalDelayOffset.toNat : ℤ)]).flatten)

/-- The pairs of delays that the firmware inserts behind `n` bits. -/
def nalItems (fw : Firmware a.announced) : ℕ → ℕ → List Item
  | 0, _ => []
  | cnt + 1, n =>
    .inserted (fw.insert (tng.code .bphSeiNalInitialCpbRemovalDelay) n) ::
    .inserted (fw.insert (tng.code .bphSeiNalInitialCpbRemovalDelayOffset)
      (n + a.nalInitialCpbRemovalDelayLength.toNat)) ::
    nalItems fw cnt (n + 2 * a.nalInitialCpbRemovalDelayLength.toNat)

def vclItem : List Item :=
  [.uint a.nalInitialCpbRemovalDelayLength.toNat a.vclInitialCpbRemovalDelay.toNat,
    .uint a.nalInitialCpbRemovalDelayLength.toNat a.vclInitialCpbRemovalDelayOffset.toNat]

def items (fw : Firmware a.announced) : List Item :=
  .ue 0 :: (a.nalItems fw a.nalCpbCnt 49 ++ (List.replicate a.vclCpbCnt a.vclItem).flatten)

/-- The delays fit their fields. -/
def DelaysInRange : Prop :=
  a.vclHrdBpPresentFlag ≠ 0 →
    a.vclInitialCpbRemovalDelay.toNat < 2 ^ a.nalInitialCpbRemovalDelayLength.toNat ∧
    a.vclInitialCpbRemovalDelayOffset.toNat < 2 ^ a.nalInitialCpbRemovalDelayLength.toNat

/-- The number of bits of the payload. -/
def payloadBits : ℕ :=
  1 + a.nalCpbCnt * a.nalInitialCpbRemovalDelayLength.toNat * 2 +
    a.vclCpbCnt * a.nalInitialCpbRemovalDelayLength.toNat * 2

/-- The size that is announced. -/
theorem payloadSizeBits_eq : a.payloadSizeBits.toNat = a.payloadBits % 256 := by
  have heq : a.payloadSizeBits = UInt8.ofNat a.payloadBits := by
    rw [payloadSizeBits, payloadBits, nalCpbCnt, vclCpbCnt, UInt8.ofNat_add, UInt8.ofNat_add]
    congr 1
    · congr 1
      split
      · rfl
      · rw [Nat.zero_mul, Nat.zero_mul]
        rfl
    · split
      · rfl
      · rw [Nat.zero_mul, Nat.zero_mul]
        rfl
  rw [heq]
  exact UInt8.toNat_ofNat'

section Judges

variable {s : BitSyntax} {ws : List Item} {q : Prop}

/-- The delays of the first kind. -/
theorem judges_nal (fw : Firmware a.announced) (h : s.Judges ws q) (cnt n : ℕ) :
    (delaysSyntax a.nalInitialCpbRemovalDelayLength.toNat s cnt).Judges (a.nalItems fw cnt n ++ ws)
      q := by
  induction cnt generalizing n with
  | zero => exact h
  | succ cnt ih =>
    exact ((ih _).inserted (fw.length_insert .bphSeiNalInitialCpbRemovalDelayOffset _)).inserted
      (fw.length_insert .bphSeiNalInitialCpbRemovalDelay _)

/-- The delays of the second kind. -/
theorem judges_vcl (cnt : ℕ) :
    (delaysSyntax a.nalInitialCpbRemovalDelayLength.toNat .done cnt).Judges
      (List.replicate cnt a.vclItem).flatten (cnt ≠ 0 →
        a.vclInitialCpbRemovalDelay.toNat < 2 ^ a.nalInitialCpbRemovalDelayLength.toNat ∧
        a.vclInitialCpbRemovalDelayOffset.toNat < 2 ^ a.nalInitialCpbRemovalDelayLength.toNat) := by
  induction cnt with
  | zero => exact Judges.done.congr (by simp)
  | succ cnt ih =>
    refine Judges.congr (.uint fun _ => .uint fun _ => ih) ?_
    tauto

/-- What is read back of a buffering period message. -/
theorem judges_items (fw : Firmware a.announced) :
    a.payloadSyntax.Judges (a.items fw) a.DelaysInRange := by
  have hcnt : a.vclCpbCnt ≠ 0 ↔ a.vclHrdBpPresentFlag ≠ 0 := by
    rw [vclCpbCnt]
    split
    · exact iff_of_true (Nat.succ_ne_zero _) ‹_›
    · exact iff_of_false (fun h => h rfl) ‹_›
  have hvcl := a.judges_vcl a.vclCpbCnt
  rw [hcnt] at hvcl
  exact (a.judges_nal fw hvcl a.nalCpbCnt 49).ue

end Judges

/-- The elements mean the arguments. -/
theorem arguments_eq (fw : Firmware a.announced) : (a.items fw).map Item.meant = a.arguments := by
  have hnal : ∀ cnt n, (a.nalItems fw cnt n).map Item.meant =
      (List.replicate cnt [none, none]).flatten := by
    intro cnt
    induction cnt with
    | zero => exact fun n => rfl
    | succ cnt ih =>
      intro n
      rw [nalItems, map_cons, map_cons, ih, replicate_succ]
      rfl
  rw [items, arguments, map_cons, map_append, hnal, map_flatten, map_replicate]
  rfl

/-- The calls between the header of a message and its end. -/
def body : List TngCall :=
  generateUe 0 :: (roundCalls a.nalHrdBpPresentFlag (a.nalCpbCntMinus1.toNat + 1) nalCalls ++
    roundCalls a.vclHrdBpPresentFlag (a.vclCpbCntMinus1.toNat + 1) a.vclCalls)

/-- The calls, with both loops unrolled. -/
theorem body_eq : a.body = generateUe 0 :: ((List.replicate a.nalCpbCnt nalCalls).flatten ++
    (List.replicate a.vclCpbCnt a.vclCalls).flatten) := by
  have hround : ∀ (flag : UInt8) (n : ℕ) (calls : List TngCall),
      roundCalls flag n calls = (List.replicate (if flag ≠ 0 then n else 0) calls).flatten := by
    intro flag n calls
    rw [roundCalls]
    split <;> rfl
  rw [body, hround, hround, nalCpbCnt, vclCpbCnt]

/-- The calls of a message, as soon as one has waited for its loops. -/
def allCalls : List TngCall := seiHeaderCalls 0 a.payloadSizeBits ++ a.body ++ seiEndCalls

/-- The loops end within 256 rounds. -/
theorem calls_eq_allCalls (hends : a.Ends) {rounds : ℕ} (hrounds : 256 ≤ rounds) :
    a.calls rounds = a.allCalls := by
  rw [a.calls_of_ends hends hrounds, allCalls, body]
  simp

section

variable (fw : Firmware a.announced)
include fw

/-- The delay has its length. -/
theorem length_delay (n : ℕ) :
    (fw.insert (tng.code .bphSeiNalInitialCpbRemovalDelay) n).length =
      a.nalInitialCpbRemovalDelayLength.toNat := fw.length_insert .bphSeiNalInitialCpbRemovalDelay n

/-- So has the offset. -/
theorem length_offset (n : ℕ) :
    (fw.insert (tng.code .bphSeiNalInitialCpbRemovalDelayOffset) n).length =
      a.nalInitialCpbRemovalDelayLength.toNat :=
  fw.length_insert .bphSeiNalInitialCpbRemovalDelayOffset n

/-- The bits of the payload as the firmware makes them. -/
theorem foldl_body {acc : List Bool} (hacc : acc.length = 48) :
    a.body.foldl fw.step acc = acc ++ (a.items fw).flatMap Item.bits := by
  have hnal : ∀ cnt (acc : List Bool), (List.replicate cnt nalCalls).flatten.foldl fw.step acc =
      acc ++ (a.nalItems fw cnt acc.length).flatMap Item.bits := by
    intro cnt
    induction cnt with
    | zero => exact fun acc => (append_nil acc).symm
    | succ cnt ih =>
      intro acc
      have hpair : nalCalls.foldl fw.step acc =
          acc ++ fw.insert (tng.code .bphSeiNalInitialCpbRemovalDelay) acc.length ++
            fw.insert (tng.code .bphSeiNalInitialCpbRemovalDelayOffset)
              (acc.length + a.nalInitialCpbRemovalDelayLength.toNat) := by
        rw [nalCalls, foldl_cons, foldl_cons, foldl_nil,
          fw.step_insert .bphSeiNalInitialCpbRemovalDelay (by decide) (by decide),
          fw.step_insert .bphSeiNalInitialCpbRemovalDelayOffset (by decide) (by decide),
          length_append, a.length_delay]
      rw [replicate_succ, flatten_cons, foldl_append, hpair, ih, nalItems,
        length_append, length_append, a.length_delay, a.length_offset, Nat.add_assoc,
        ← Nat.two_mul, flatMap_cons, flatMap_cons, append_assoc, append_assoc]
      rfl
  have hvcl : ∀ cnt (acc : List Bool), (List.replicate cnt a.vclCalls).flatten.foldl fw.step acc =
      acc ++ (List.replicate cnt a.vclItem).flatten.flatMap Item.bits := by
    intro cnt
    induction cnt with
    | zero => exact fun acc => (append_nil acc).symm
    | succ cnt ih =>
      intro acc
      have hpair : a.vclCalls.foldl fw.step acc = acc ++ a.vclItem.flatMap Item.bits := by
        rw [vclCalls, foldl_cons, fw.step_raw .startcodeRawdata (by decide)]
        exact fw.foldl_writes (by simp) acc
      rw [replicate_succ, flatten_cons, foldl_append, hpair, ih, replicate_succ,
        flatten_cons, flatMap_append, append_assoc]
  have hue : fw.step acc (generateUe 0) = acc ++ (Item.ue 0).bits := rfl
  have hlength : (acc ++ (Item.ue 0).bits).length = 49 := by
    rw [length_append, hacc]
    rfl
  rw [body_eq, foldl_cons, foldl_append, hue, hnal, hvcl, hlength, items, flatMap_cons,
    flatMap_append, append_assoc, append_assoc]

/-- The number of bits of the message. -/
theorem length_items :
    ((a.items fw).flatMap Item.bits).length = a.payloadBits := by
  have hnal : ∀ cnt n, ((a.nalItems fw cnt n).flatMap Item.bits).length =
      cnt * a.nalInitialCpbRemovalDelayLength.toNat * 2 := by
    intro cnt
    induction cnt with
    | zero =>
      intro n
      rw [Nat.zero_mul, Nat.zero_mul]
      rfl
    | succ cnt ih =>
      intro n
      rw [nalItems, flatMap_cons, flatMap_cons, length_append, length_append, ih,
        Item.inserted, Item.inserted]
      rw [a.length_delay, a.length_offset, Nat.succ_mul, Nat.add_mul]
      omega
  have hvcl : ∀ cnt, ((List.replicate cnt a.vclItem).flatten.flatMap Item.bits).length =
      cnt * a.nalInitialCpbRemovalDelayLength.toNat * 2 := by
    intro cnt
    induction cnt with
    | zero =>
      rw [Nat.zero_mul, Nat.zero_mul]
      rfl
    | succ cnt ih =>
      rw [replicate_succ, flatten_cons, flatMap_append, length_append, ih, vclItem,
        Nat.succ_mul, Nat.add_mul]
      simp only [Item.uint, flatMap_cons, flatMap_nil, length_append, length_bits, length_nil]
      omega
  have hue : (Item.ue 0).bits.length = 1 := rfl
  rw [items, flatMap_cons, flatMap_append, length_append, length_append, hnal, hvcl,
    hue, payloadBits, Nat.add_assoc]

end

/-- The lengths for which the calls are defined. -/
theorem valid_iff : (∀ w, HeaderCall.write w ∈ a.body → w.Valid) ↔
    (a.vclHrdBpPresentFlag ≠ 0 → 1 ≤ a.nalInitialCpbRemovalDelayLength.toNat ∧
      a.nalInitialCpbRemovalDelayLength.toNat ≤ 32) := by
  have hue : (HeaderWrite.ue 0).Valid := show 0 < 2 ^ 32 by decide
  have hcnt : a.vclCpbCnt ≠ 0 ↔ a.vclHrdBpPresentFlag ≠ 0 := by
    rw [vclCpbCnt]
    split
    · exact iff_of_true (Nat.succ_ne_zero _) ‹_›
    · exact iff_of_false (fun h => h rfl) ‹_›
  rw [← hcnt, body_eq]
  simp [nalCalls, vclCalls, insertElementToken, generateUe, writeUpto32bitsElements, or_imp, hue,
    forall_and, mem_replicate]

/-- The arguments for which a message is consistent. -/
structure Sound (fw : Firmware a.announced) : Prop where
  small : a.Small
  sized : fw.Sized a.payloadBits
  inRange : a.DelaysInRange
  lengths : a.vclHrdBpPresentFlag ≠ 0 → 1 ≤ a.nalInitialCpbRemovalDelayLength.toNat ∧
    a.nalInitialCpbRemovalDelayLength.toNat ≤ 32

/-- When the calls fit. -/
theorem fits_allCalls (h : a.Ends) : tng.Fits a.allCalls ↔ a.Small := by
  rw [← fits_iff]
  refine ⟨fun hfits rounds => ?_, fun hfits => a.calls_eq_allCalls h le_rfl ▸ hfits 256⟩
  obtain ⟨after, hafter⟩ := a.calls_prefix (Nat.le_add_right rounds 256)
  refine Host.Fits.of_append (b := after) ?_
  rw [hafter, a.calls_eq_allCalls h (Nat.le_add_left 256 rounds)]
  exact hfits

/-- When the message is written. -/
theorem writesSei_iff (fw : Firmware a.announced) (h : a.Ends) :
    WritesSei fw 0 a.payloadSyntax a.arguments a.allCalls ↔ a.Sound fw := by
  have hproper : tng.Proper true a.body :=
    ⟨rfl, trivial, Shape.proper_append (s := Shape.first true)
      (roundCalls_proper nalCalls_proper _ _ _) (roundCalls_proper a.vclCalls_proper _ _ _)⟩
  have hiff := @writesSei_message_iff _ fw 0 a.payloadSyntax (a.items fw) a.DelaysInRange _
    a.payloadSizeBits a.payloadBits hproper (fun acc hacc => a.foldl_body fw hacc) (a.length_items fw)
    a.payloadSizeBits_eq fun _ => a.judges_items fw
  rw [← allCalls, arguments_eq, valid_iff, a.fits_allCalls h] at hiff
  exact hiff.trans ⟨fun ⟨hsmall, hvalid, hsized, hrange⟩ => ⟨hsmall, hsized, hrange, hvalid⟩,
    fun hsound => ⟨hsound.small, hsound.lengths, hsound.sized, hsound.inRange⟩⟩

end BufferingPeriod

/-! ### Both messages -/

/-- The arguments of one of the two functions. -/
inductive SeiMessage
  | pictureTiming (a : PictureTiming)
  | bufferingPeriod (a : BufferingPeriod)

namespace SeiMessage

/-- The lengths that are announced for the fields of the firmware. -/
def announced : SeiMessage → HeaderElementType → ℕ
  | pictureTiming a => a.announced
  | bufferingPeriod a => a.announced

/-- The calls of a function, with a bound on the rounds of its loops that are looked at. -/
def calls : SeiMessage → ℕ → List TngCall
  | pictureTiming a => fun _ => a.calls
  | bufferingPeriod a => a.calls

def payloadType : SeiMessage → ℕ
  | pictureTiming _ => 1
  | bufferingPeriod _ => 0

def payloadSyntax : SeiMessage → BitSyntax
  | pictureTiming a => a.payloadSyntax
  | bufferingPeriod a => a.payloadSyntax

def arguments : SeiMessage → List (Option ℤ)
  | pictureTiming a => a.arguments
  | bufferingPeriod a => a.arguments

/-- The function returns and has written a message: as many bytes as it says, and the arguments in them. -/
def SelfConsistent (m : SeiMessage) (fw : Firmware m.announced) : Prop :=
  ∃ calls, (∃ rounds₀, ∀ rounds ≥ rounds₀, m.calls rounds = calls) ∧
    WritesSei fw m.payloadType m.payloadSyntax m.arguments calls

def Sound : (m : SeiMessage) → Firmware m.announced → Prop
  | pictureTiming a, fw => a.Sound fw
  | bufferingPeriod a, fw => a.Sound fw

end SeiMessage

/-- The messages are consistent for all sound arguments, and for no others. -/
theorem sei_messages_consistent_iff (m : SeiMessage) (fw : Firmware m.announced) :
    m.SelfConsistent fw ↔ m.Sound fw := by
  cases m with
  | pictureTiming a =>
    refine Iff.trans ⟨fun ⟨calls, ⟨rounds₀, hcalls⟩, hwrites⟩ => ?_,
      fun hwrites => ⟨a.calls, ⟨0, fun _ _ => rfl⟩, hwrites⟩⟩ (a.writesSei_iff fw)
    obtain rfl : a.calls = calls := hcalls rounds₀ le_rfl
    exact hwrites
  | bufferingPeriod a =>
    refine ⟨fun ⟨calls, ⟨rounds₀, hcalls⟩, hwrites⟩ => ?_, fun hsound => ?_⟩
    · have hsmall : a.Small := by
        rw [← BufferingPeriod.fits_iff]
        intro rounds
        obtain ⟨after, hafter⟩ := a.calls_prefix (Nat.le_add_right rounds rounds₀)
        refine Host.Fits.of_append (b := after) ?_
        have hlast : a.calls (rounds + rounds₀) = calls := hcalls _ (Nat.le_add_left _ _)
        rw [hafter, hlast]
        exact hwrites.1
      have hall : a.allCalls = calls :=
        (a.calls_eq_allCalls hsmall.ends (Nat.le_add_right 256 rounds₀)).symm.trans
          (hcalls _ (Nat.le_add_left _ _))
      exact (a.writesSei_iff fw hsmall.ends).mp (hall.symm ▸ hwrites)
    · exact ⟨a.allCalls, ⟨256, fun _ hrounds => a.calls_eq_allCalls hsound.small.ends hrounds⟩,
        (a.writesSei_iff fw hsound.small.ends).mpr hsound⟩

/-- A clock timestamp with an offset of time of -1 in eight bits. -/
def negativeOffset : PictureTiming where
  cpbDpbDelaysPresentFlag := 0
  cpbRemovalDelayLengthMinus1 := 0
  dpbOutputDelayLengthMinus1 := 0
  picStructPresentFlag := 1
  picStruct := 0
  numClockTs := 1
  clockTimestampFlag := fun _ => 1
  fullTimestampFlag := 0
  secondsFlag := 0
  minutesFlag := 0
  hoursFlag := 0
  secondsValue := 0
  minutesValue := 0
  hoursValue := 0
  ctType := 0
  nuitFieldBasedFlag := 0
  countingType := 0
  discontinuityFlag := 0
  cntDroppedFlag := 0
  nFrames := 0
  timeOffsetLength := 8
  timeOffset := -1

/-- A firmware that inserts zeros, and nothing where the bits end on a byte boundary. -/
def zeroFirmware : Firmware negativeOffset.announced where
  insert code _ := if code = tng.code .pthSeiNalCpbRemovalDelay ∨
    code = tng.code .pthSeiNalDpbOutputDelay then [false] else []
  align n := List.replicate ((8 - n % 8) % 8) false
  length_insert t n := by cases t <;> rfl
  aligned n := by
    rw [List.length_replicate]
    omega
  length_align_le n := by
    rw [List.length_replicate]
    omega

/-- The offset of -1 is written as 9, since `2 ^ 8` is 10. -/
theorem negative_offset_not_consistent :
    ¬(SeiMessage.pictureTiming negativeOffset).SelfConsistent zeroFirmware := by
  intro hconsistent
  have hsound : negativeOffset.Sound zeroFirmware :=
    (sei_messages_consistent_iff (.pictureTiming negativeOffset) zeroFirmware).mp hconsistent
  obtain ⟨-, htimestamps⟩ := hsound.inRange (by decide)
  obtain ⟨-, htimestamp⟩ := htimestamps 0 (by decide)
  obtain ⟨-, hsign⟩ := (htimestamp (by decide)).2.2.2.2.2.2.2 (by decide)
  revert hsign
  decide

end HardwareIntel.Topaz
