import HardwareIntel.Library.Cursor
import HardwareIntel.Mmgr.Payloads

/-!
# What the readers of payloads read

`set_data_ap_reset`, `set_data_core_dump`, `set_data_tft_event` and `set_data_fuse_info` of
`libclients/c/msg_to_data.c` on an arbitrary payload. Behind it the memory may hold anything, and
every allocation may fail.

Of the lengths in a payload only those of a core dump are checked, and their sum may wrap around. So
a reader stays inside a payload iff the payload has the form that the reader relies on
(`decoders_stay_inside_iff`). A client can bring about another form: the daemon copies what comes
with a request for a recovery into the reset notification.
-/

namespace HardwareIntel.MsgToData

open List Mmgr

/-! ## Readers -/

/-- A payload that was received. Its length stands in the header of the message. -/
structure Payload where
  data : Bytes
  length_lt : data.length < 2 ^ 32

/-- What a reader returns, and what it has read. -/
structure Outcome (α : Type) where
  success : Bool
  data : Option α
  cursor : Cursor

/-- The fields of a core dump notification (`mmgr_cli_core_dump_t`); a string is there once it has
been copied. -/
structure CoreDumpData where
  state : ℕ
  pathLen : ℕ
  reasonLen : ℕ
  path : Option Bytes
  reason : Option Bytes

/-- The fields of a telephony event (`mmgr_cli_tft_event_t`), with the strings that have been
copied. -/
structure TftEventData where
  type : ℕ
  nameLen : ℕ
  name : Option Bytes
  log : ℕ
  numData : ℕ
  data : List Bytes

section Readers

variable (mem : ℕ → UInt8) (alloc : ℕ → Bool)

/-- Copy strings that are preceded by their lengths, until an allocation fails; the first of them is
made with the `i`-th allocation. -/
def readStrings : ℕ → ℕ → Cursor → Bool × List Bytes × Cursor
  | _, 0, p => (true, [], p)
  | i, n + 1, p =>
    let len := p.word mem
    if !alloc i then (false, [], len.2)
    else
      let string := len.2.bytes mem len.1
      let rest := readStrings (i + 1) n string.2
      (rest.1, string.1 :: rest.2.1, rest.2.2)

/-- The number of causes, zero when no extra information is present. -/
def numCauseEntries (hdrLen lenName : ℕ) (p : Cursor) : ℕ × Cursor :=
  if hdrLen > (lenName + 4) % 2 ^ 32 then p.word mem else (0, p)

/-- `set_data_ap_reset`. Without memory for the causes there are none; the loop over them ends when
one cannot be copied. -/
def setDataApReset (hdrLen : ℕ) : Outcome ApReset :=
  let lenName := Cursor.start.word mem
  if !alloc 0 then ⟨false, none, lenName.2⟩
  else
    let name := lenName.2.bytes mem lenName.1
    let num := numCauseEntries mem hdrLen lenName.1 name.2
    if !alloc 1 then ⟨false, none, num.2⟩
    else
      let causes := readStrings mem alloc 3 (if alloc 2 then num.1 else 0) num.2
      ⟨true, some ⟨name.1, causes.2.1⟩, causes.2.2⟩

/-- `set_data_core_dump`. -/
def setDataCoreDump (hdrLen : ℕ) : Outcome CoreDumpData :=
  if hdrLen < 12 then ⟨false, none, .start⟩
  else if !alloc 0 then ⟨false, none, .start⟩
  else
    let state := Cursor.start.word mem
    let pathLen := state.2.word mem
    let reasonLen := pathLen.2.word mem
    let cd : CoreDumpData := ⟨state.1, pathLen.1, reasonLen.1, none, none⟩
    if (pathLen.1 + reasonLen.1) % 2 ^ 32 ≠ hdrLen - 12 then ⟨false, some cd, reasonLen.2⟩
    else if !alloc 1 then ⟨false, some cd, reasonLen.2⟩
    else
      let path := reasonLen.2.bytes mem pathLen.1
      let cd := { cd with path := some path.1 }
      if reasonLen.1 > 0 then
        if !alloc 2 then ⟨false, some cd, path.2⟩
        else
          let reason := path.2.bytes mem reasonLen.1
          ⟨true, some { cd with reason := some reason.1 }, reason.2⟩
      else ⟨true, some cd, path.2⟩

/-- `sizeof (mmgr_cli_tft_event_data_t)`. -/
def sizeofTftEventData : ℕ := 8

/-- `set_data_tft_event`. An array that is larger than the address space cannot be allocated. -/
def setDataTftEvent (hdrLen : ℕ) : Outcome TftEventData :=
  if hdrLen < 16 then ⟨false, none, .start⟩
  else if !alloc 0 then ⟨false, none, .start⟩
  else
    let type := Cursor.start.word mem
    let nameLen := type.2.word mem
    if !alloc 1 then ⟨false, some ⟨type.1, nameLen.1, none, 0, 0, []⟩, nameLen.2⟩
    else
      let name := nameLen.2.bytes mem nameLen.1
      let log := name.2.word mem
      let num := log.2.word mem
      let ev : TftEventData := ⟨type.1, nameLen.1, some name.1, log.1, num.1, []⟩
      if num.1 > 0 then
        if !alloc 2 || !decide (num.1 * sizeofTftEventData < 2 ^ 32) then
          ⟨false, some ev, num.2⟩
        else
          let strings := readStrings mem alloc 3 num.1 num.2
          ⟨strings.1, some { ev with data := strings.2.1 }, strings.2.2⟩
      else ⟨true, some ev, num.2⟩

/-- `set_data_fuse_info`: the whole payload is copied into the array. -/
def setDataFuseInfo (hdrLen : ℕ) : Outcome Bytes :=
  if !alloc 0 then ⟨false, none, .start⟩
  else
    let id := Cursor.start.bytes mem hdrLen
    ⟨true, some id.1, id.2⟩

/-- The readers. -/
inductive Decoder
  | apReset
  | coreDump
  | tftEvent
  | fuseInfo

/-- What a reader has read, and how many bytes it has written into an array of its own. -/
def Decoder.run (d : Decoder) (hdrLen : ℕ) : Cursor × ℕ :=
  match d with
  | .apReset => ((setDataApReset mem alloc hdrLen).cursor, 0)
  | .coreDump => ((setDataCoreDump mem alloc hdrLen).cursor, 0)
  | .tftEvent => ((setDataTftEvent mem alloc hdrLen).cursor, 0)
  | .fuseInfo =>
    let o := setDataFuseInfo mem alloc hdrLen
    (o.cursor, (o.data.getD []).length)

end Readers

/-- The reader stays inside the payload and the array of fuses, whatever stands behind the payload
and whatever cannot be allocated. -/
def Decoder.StaysInside (d : Decoder) (payload : Payload) : Prop :=
  ∀ mem, Cursor.Holds mem payload.data → ∀ alloc,
    (d.run mem alloc payload.data.length).1.Inside payload.data.length ∧
      (d.run mem alloc payload.data.length).2 ≤ fuseLen

/-! ## Forms of the payloads -/

/-- A name, and if anything follows, a number and as many causes. -/
def ApResetForm (data : Bytes) : Prop :=
  ∃ name rest, data = encodeBuffer name ++ rest ∧
    (rest = [] ∨ ∃ causes tail, rest = encodeWord causes.length ++ (encodeBuffers causes ++ tail))

/-- Three words; the second and the third add up to the length of what follows, or differ from it
even if their sum wraps around. -/
def CoreDumpForm (data : Bytes) : Prop :=
  data.length < 12 ∨ ∃ state pathLen reasonLen rest,
    state < 2 ^ 32 ∧ pathLen < 2 ^ 32 ∧ reasonLen < 2 ^ 32 ∧
      data = encodeWord state ++ (encodeWord pathLen ++ (encodeWord reasonLen ++ rest)) ∧
      ((pathLen + reasonLen) % 2 ^ 32 ≠ rest.length ∨ pathLen + reasonLen = rest.length)

/-- A type, a name, a word, a number and as many strings, unless the number is too large for an
array. -/
def TftEventForm (data : Bytes) : Prop :=
  data.length < 16 ∨ ∃ type name log num rest,
    type < 2 ^ 32 ∧ log < 2 ^ 32 ∧ num < 2 ^ 32 ∧
      data = encodeWord type ++ (encodeBuffer name ++ (encodeWord log ++ (encodeWord num ++ rest))) ∧
      (2 ^ 32 ≤ num * sizeofTftEventData ∨ ∃ strings tail,
        strings.length = num ∧ rest = encodeBuffers strings ++ tail)

/-- The forms in which nothing goes wrong. -/
def Decoder.Form (d : Decoder) (data : Bytes) : Prop :=
  match d with
  | .apReset => ApResetForm data
  | .coreDump => CoreDumpForm data
  | .tftEvent => TftEventForm data
  | .fuseInfo => data.length ≤ fuseLen

/-! ## Strings -/

section Strings

variable {mem : ℕ → UInt8} {alloc : ℕ → Bool} {data rest : Bytes} {p : Cursor} {i n : ℕ}

theorem readStrings_succ (i n : ℕ) (p : Cursor) :
    readStrings mem alloc i (n + 1) p =
      if !alloc i then (false, [], (p.word mem).2)
      else
        let string := (p.word mem).2.bytes mem (p.word mem).1
        let rest := readStrings mem alloc (i + 1) n string.2
        (rest.1, string.1 :: rest.2.1, rest.2.2) := rfl

theorem covers_readStrings (h : p.Covers) : (readStrings mem alloc i n p).2.2.Covers := by
  induction n generalizing i p with
  | zero => exact h
  | succ n ih =>
    rw [readStrings_succ]
    split
    · exact h.word mem
    · exact ih ((h.word mem).bytes mem _)

theorem offset_le_readStrings (i n : ℕ) (p : Cursor) :
    p.offset ≤ (readStrings mem alloc i n p).2.2.offset := by
  induction n generalizing i p with
  | zero => exact Nat.le_refl _
  | succ n ih =>
    rw [readStrings_succ]
    split
    · exact Nat.le_add_right ..
    · have hrest := ih (i + 1) ((p.word mem).2.bytes mem (p.word mem).1).2
      rw [Cursor.offset_bytes, Cursor.offset_word] at hrest
      exact Nat.le_trans (by omega) hrest

theorem encodeBuffers_cons (s : Bytes) (strings : List Bytes) :
    encodeBuffers (s :: strings) = encodeWord s.length ++ (s ++ encodeBuffers strings) := by
  rw [encodeBuffers, flatMap_cons, encodeBuffer, append_assoc, encodeBuffers]

/-- Strings that stand there are read without leaving the data, whatever cannot be allocated. -/
theorem readStrings_inside (hmem : Cursor.Holds mem data) (hdata : data.length < 2 ^ 32)
    {strings : List Bytes} (h : p.Before data (encodeBuffers strings ++ rest)) :
    (readStrings mem alloc i strings.length p).2.2.offset ≤ data.length := by
  induction strings generalizing i p with
  | nil => exact h.offset_le
  | cons s strings ih =>
    rw [encodeBuffers_cons, append_assoc, append_assoc] at h
    have hlength := h.length_eq
    rw [length_append, length_append] at hlength
    obtain ⟨hword, hstring⟩ := h.word hmem (by omega)
    rw [length_cons, readStrings_succ]
    split
    · exact hstring.offset_le
    · rw [hword]
      exact ih (hstring.bytes hmem).2

/-- If nothing behind the data is read, the strings stand there. -/
theorem exists_strings (hmem : Cursor.Holds mem data) (h : p.Before data rest)
    (hle : (readStrings mem (fun _ => true) i n p).2.2.offset ≤ data.length) :
    ∃ strings tail, strings.length = n ∧ rest = encodeBuffers strings ++ tail := by
  induction n generalizing i p rest with
  | zero => exact ⟨[], rest, rfl, rfl⟩
  | succ n ih =>
    rw [readStrings_succ, if_neg (by decide)] at hle
    have hafter := @offset_le_readStrings mem (fun _ => true) (i + 1) n
      ((p.word mem).2.bytes mem (p.word mem).1).2
    have hend := Nat.le_trans hafter hle
    rw [Cursor.offset_bytes, Cursor.offset_word] at hend
    obtain ⟨w, rest', hw, rfl⟩ := h.exists_word (by omega)
    obtain ⟨hword, hstring⟩ := h.word hmem hw
    rw [hword] at hend hle
    obtain ⟨s, tail, rfl, rfl⟩ := hstring.exists_bytes (by rw [Cursor.offset_word]; exact hend)
    obtain ⟨strings, tail', hlength, rfl⟩ := ih (hstring.bytes hmem).2 hle
    refine ⟨s :: strings, tail', by rw [length_cons, hlength], ?_⟩
    rw [encodeBuffers_cons, append_assoc, append_assoc]

end Strings

/-! ## The reset notification -/

section Readers

variable {mem : ℕ → UInt8} {alloc : ℕ → Bool} {data : Bytes}

theorem covers_numCauseEntries {p : Cursor} (h : p.Covers) (hdrLen lenName : ℕ) :
    (numCauseEntries mem hdrLen lenName p).2.Covers := by
  unfold numCauseEntries
  split
  · exact h.word mem
  · exact h

theorem covers_setDataApReset (hdrLen : ℕ) : (setDataApReset mem alloc hdrLen).cursor.Covers := by
  have hlen := Cursor.covers_start.word mem
  have hname := hlen.bytes mem (Cursor.start.word mem).1
  have hnum := @covers_numCauseEntries mem _ hname hdrLen (Cursor.start.word mem).1
  unfold setDataApReset
  split
  · exact hlen
  · split
    · exact hnum
    · exact covers_readStrings hnum

variable {rest : Bytes}

/-- The number of causes is read iff the payload does not end behind the name. -/
theorem numCauseEntries_eq {p : Cursor} {lenName : ℕ} (hdata : data.length < 2 ^ 32)
    (h : p.Before data rest) (hp : p.offset = lenName + 4) :
    numCauseEntries mem data.length lenName p = if rest = [] then (0, p) else p.word mem := by
  have hlength := h.length_eq
  have hmod : (lenName + 4) % 2 ^ 32 = lenName + 4 := Nat.mod_eq_of_lt (by omega)
  rw [numCauseEntries, hmod]
  by_cases hrest : rest = []
  · rw [if_pos hrest, if_neg]
    rw [hrest, length_nil] at hlength
    omega
  · rw [if_neg hrest, if_pos]
    have hpos := length_pos_of_ne_nil hrest
    omega

theorem length_le_encodeBuffers (strings : List Bytes) :
    strings.length ≤ (encodeBuffers strings).length := by
  induction strings with
  | nil => exact Nat.le_refl 0
  | cons s strings ih =>
    rw [encodeBuffers_cons, length_append, length_append, length_cons, length_encodeWord]
    omega

theorem setDataApReset_inside (hmem : Cursor.Holds mem data) (hdata : data.length < 2 ^ 32)
    (h : ApResetForm data) : (setDataApReset mem alloc data.length).cursor.offset ≤ data.length := by
  obtain ⟨name, rest, hform, hrest⟩ := h
  have hstart := Cursor.before_start data
  rw [encodeBuffer, append_assoc] at hform
  nth_rw 2 [hform] at hstart
  have hlength := hstart.length_eq
  rw [length_append, length_append, length_encodeWord] at hlength
  obtain ⟨hword, hname⟩ := hstart.word hmem (by omega)
  obtain ⟨-, hafter⟩ := hname.bytes hmem
  have hoffset : ((Cursor.start.word mem).2.bytes mem name.length).2.offset = name.length + 4 :=
    Nat.add_comm ..
  unfold setDataApReset
  dsimp only
  rw [hword, numCauseEntries_eq hdata hafter hoffset]
  split
  · exact hname.offset_le
  rcases hrest with rfl | ⟨causes, tail, rfl⟩
  · rw [if_pos rfl]
    split
    · exact hafter.offset_le
    · rw [ite_self]
      exact hafter.offset_le
  · have hcount := length_le_encodeBuffers causes
    rw [length_append, length_append] at hlength
    obtain ⟨hnum, hcauses⟩ := hafter.word hmem (by omega)
    rw [if_neg (append_ne_nil_of_left_ne_nil (by simp [encodeWord]) _), hnum]
    split
    · exact hcauses.offset_le
    · split
      · exact readStrings_inside hmem hdata hcauses
      · exact hcauses.offset_le

theorem apResetForm_of_inside (hmem : Cursor.Holds mem data) (hdata : data.length < 2 ^ 32)
    (h : (setDataApReset mem (fun _ => true) data.length).cursor.offset ≤ data.length) :
    ApResetForm data := by
  have hstart := Cursor.before_start data
  unfold setDataApReset at h
  simp only [Bool.not_true, Bool.false_eq_true, if_false, if_true] at h
  have hname : ((Cursor.start.word mem).2.bytes mem (Cursor.start.word mem).1).2.offset ≤
      (numCauseEntries mem data.length (Cursor.start.word mem).1
        ((Cursor.start.word mem).2.bytes mem (Cursor.start.word mem).1).2).2.offset := by
    unfold numCauseEntries
    split
    · exact Nat.le_add_right ..
    · exact Nat.le_refl _
  generalize hnum : numCauseEntries mem data.length (Cursor.start.word mem).1
    ((Cursor.start.word mem).2.bytes mem (Cursor.start.word mem).1).2 = num at *
  have hloop := Nat.le_trans (offset_le_readStrings ..) h
  replace hname := Nat.le_trans hname hloop
  rw [Cursor.offset_bytes, Cursor.offset_word] at hname
  obtain ⟨w, afterLen, hw, rfl⟩ := hstart.exists_word (by omega)
  obtain ⟨hword, hbefore⟩ := hstart.word hmem hw
  rw [hword] at hnum hname
  obtain ⟨name, rest, rfl, rfl⟩ := hbefore.exists_bytes hname
  obtain ⟨-, hafter⟩ := hbefore.bytes hmem
  have hoffset : ((Cursor.start.word mem).2.bytes mem name.length).2.offset = name.length + 4 :=
    Nat.add_comm ..
  rw [numCauseEntries_eq hdata hafter hoffset] at hnum
  refine ⟨name, rest, by rw [encodeBuffer, append_assoc], ?_⟩
  by_cases hrest : rest = []
  · exact .inl hrest
  · rw [if_neg hrest] at hnum
    subst hnum
    obtain ⟨count, rest', hcount, rfl⟩ := hafter.exists_word hloop
    obtain ⟨hcountWord, hcauses⟩ := hafter.word hmem hcount
    rw [hcountWord] at h
    obtain ⟨causes, tail, rfl, rfl⟩ := exists_strings hmem hcauses h
    exact .inr ⟨causes, tail, rfl⟩

/-! ## The core dump notification -/

theorem covers_setDataCoreDump (hdrLen : ℕ) : (setDataCoreDump mem alloc hdrLen).cursor.Covers := by
  have hlens := ((Cursor.covers_start.word mem).word mem).word mem
  unfold setDataCoreDump
  dsimp only
  generalize (((Cursor.start.word mem).2.word mem).2.word mem) = reasonLen at hlens ⊢
  have hpath := hlens.bytes mem ((Cursor.start.word mem).2.word mem).1
  split
  · exact Cursor.covers_start
  split
  · exact Cursor.covers_start
  split
  · exact hlens
  split
  · exact hlens
  split
  · split
    · exact hpath
    · exact hpath.bytes mem reasonLen.1
  · exact hpath

/-- The lengths that are read. -/
theorem coreDump_lengths {state pathLen reasonLen : ℕ} (hmem : Cursor.Holds mem data)
    (hstate : state < 2 ^ 32) (hpath : pathLen < 2 ^ 32) (hreason : reasonLen < 2 ^ 32)
    (hform : data = encodeWord state ++ (encodeWord pathLen ++ (encodeWord reasonLen ++ rest))) :
    ((Cursor.start.word mem).2.word mem).1 = pathLen ∧
      (((Cursor.start.word mem).2.word mem).2.word mem).1 = reasonLen := by
  have hstart := Cursor.before_start data
  nth_rw 2 [hform] at hstart
  obtain ⟨-, hpathBefore⟩ := hstart.word hmem hstate
  obtain ⟨hpathWord, hreasonBefore⟩ := hpathBefore.word hmem hpath
  exact ⟨hpathWord, (hreasonBefore.word hmem hreason).1⟩

/-- A payload with three words. -/
theorem exists_three_words (hdata : 12 ≤ data.length) :
    ∃ state pathLen reasonLen rest, state < 2 ^ 32 ∧ pathLen < 2 ^ 32 ∧ reasonLen < 2 ^ 32 ∧
      data = encodeWord state ++ (encodeWord pathLen ++ (encodeWord reasonLen ++ rest)) := by
  have hword : ∀ l : Bytes, 4 ≤ l.length → ∃ w rest, w < 2 ^ 32 ∧ l = encodeWord w ++ rest := by
    intro l hl
    obtain ⟨w, hw, hfour⟩ := exists_encodeWord (length_take_of_le hl)
    exact ⟨w, l.drop 4, hw, by rw [← hfour, take_append_drop]⟩
  obtain ⟨state, rest₁, hstate, rfl⟩ := hword data (by omega)
  rw [length_append, length_encodeWord] at hdata
  obtain ⟨pathLen, rest₂, hpath, rfl⟩ := hword rest₁ (by omega)
  rw [length_append, length_encodeWord] at hdata
  obtain ⟨reasonLen, rest, hreason, rfl⟩ := hword rest₂ (by omega)
  exact ⟨state, pathLen, reasonLen, rest, hstate, hpath, hreason, rfl⟩

theorem length_three_words {state pathLen reasonLen : ℕ}
    (hform : data = encodeWord state ++ (encodeWord pathLen ++ (encodeWord reasonLen ++ rest))) :
    data.length = 12 + rest.length := by
  rw [hform]
  simp only [length_append, length_encodeWord]
  omega

theorem setDataCoreDump_inside (hmem : Cursor.Holds mem data) (h : CoreDumpForm data) :
    (setDataCoreDump mem alloc data.length).cursor.offset ≤ data.length := by
  unfold setDataCoreDump
  dsimp only
  rcases h with hshort | ⟨state, pathLen, reasonLen, rest, hstate, hpath, hreason, hform, hsum⟩
  · rw [if_pos hshort]
    exact Nat.zero_le _
  obtain ⟨hpathWord, hreasonWord⟩ := coreDump_lengths hmem hstate hpath hreason hform
  have hlength := length_three_words hform
  rw [hpathWord, hreasonWord]
  split
  · exact Nat.zero_le _
  split
  · exact Nat.zero_le _
  split
  · simp only [Cursor.offset_word, Cursor.start]
    omega
  split
  · simp only [Cursor.offset_word, Cursor.start]
    omega
  split
  · split
    · simp only [Cursor.offset_bytes, Cursor.offset_word, Cursor.start]
      omega
    · simp only [Cursor.offset_bytes, Cursor.offset_word, Cursor.start]
      omega
  · simp only [Cursor.offset_bytes, Cursor.offset_word, Cursor.start]
    omega

/-- If the lengths are accepted, the strings are copied. -/
theorem setDataCoreDump_eq {state pathLen reasonLen : ℕ} (hmem : Cursor.Holds mem data)
    (hstate : state < 2 ^ 32) (hpath : pathLen < 2 ^ 32) (hreason : reasonLen < 2 ^ 32)
    (hform : data = encodeWord state ++ (encodeWord pathLen ++ (encodeWord reasonLen ++ rest)))
    (hsum : (pathLen + reasonLen) % 2 ^ 32 = rest.length) :
    (setDataCoreDump mem (fun _ => true) data.length).cursor.offset = 12 + pathLen + reasonLen := by
  obtain ⟨hpathWord, hreasonWord⟩ := coreDump_lengths hmem hstate hpath hreason hform
  have hlength := length_three_words hform
  unfold setDataCoreDump
  dsimp only
  rw [hpathWord, hreasonWord, if_neg (by omega), if_neg (by decide), if_neg (by omega),
    if_neg (by decide)]
  split
  · rw [if_neg (by decide)]
    simp [Cursor.start]
  · simp only [Cursor.offset_bytes, Cursor.offset_word, Cursor.start]
    omega

theorem coreDumpForm_of_inside (hmem : Cursor.Holds mem data)
    (h : (setDataCoreDump mem (fun _ => true) data.length).cursor.offset ≤ data.length) :
    CoreDumpForm data := by
  by_cases hshort : data.length < 12
  · exact .inl hshort
  obtain ⟨state, pathLen, reasonLen, rest, hstate, hpath, hreason, hform⟩ :=
    exists_three_words (Nat.le_of_not_lt hshort)
  have hlength := length_three_words hform
  refine .inr ⟨state, pathLen, reasonLen, rest, hstate, hpath, hreason, hform, ?_⟩
  by_cases hsum : (pathLen + reasonLen) % 2 ^ 32 = rest.length
  · rw [setDataCoreDump_eq hmem hstate hpath hreason hform hsum] at h
    omega
  · exact .inl hsum

/-! ## The telephony event -/

theorem covers_setDataTftEvent (hdrLen : ℕ) : (setDataTftEvent mem alloc hdrLen).cursor.Covers := by
  have hnameLen := (Cursor.covers_start.word mem).word mem
  have hname := hnameLen.bytes mem ((Cursor.start.word mem).2.word mem).1
  have hnum := (hname.word mem).word mem
  unfold setDataTftEvent
  dsimp only
  split
  · exact Cursor.covers_start
  split
  · exact Cursor.covers_start
  split
  · exact hnameLen
  split
  · split
    · exact hnum
    · exact covers_readStrings hnum
  · exact hnum

theorem setDataTftEvent_inside (hmem : Cursor.Holds mem data) (hdata : data.length < 2 ^ 32)
    (h : TftEventForm data) :
    (setDataTftEvent mem alloc data.length).cursor.offset ≤ data.length := by
  unfold setDataTftEvent
  dsimp only
  rcases h with hshort | ⟨type, name, log, num, rest, htype, hlog, hnum, hform, hrest⟩
  · rw [if_pos hshort]
    exact Nat.zero_le _
  have hstart := Cursor.before_start data
  rw [encodeBuffer, append_assoc] at hform
  nth_rw 2 [hform] at hstart
  have hlength := hstart.length_eq
  simp only [length_append, length_encodeWord] at hlength
  obtain ⟨-, hnameLen⟩ := hstart.word hmem htype
  obtain ⟨hnameWord, hname⟩ := hnameLen.word hmem (by omega)
  obtain ⟨-, hlogBefore⟩ := hname.bytes hmem
  obtain ⟨-, hnumBefore⟩ := hlogBefore.word hmem hlog
  obtain ⟨hnumWord, hstrings⟩ := hnumBefore.word hmem hnum
  rw [hnameWord, hnumWord]
  split
  · exact Nat.zero_le _
  split
  · exact Nat.zero_le _
  split
  · exact hname.offset_le
  split
  · split
    · exact hstrings.offset_le
    · rename_i hcalloc
      rcases hrest with hlarge | ⟨strings, tail, rfl, rfl⟩
      · simp only [Bool.or_eq_true, Bool.not_eq_true', decide_eq_false_iff_not] at hcalloc
        omega
      · exact readStrings_inside hmem hdata hstrings
  · exact hstrings.offset_le

/-- The number of strings, and the position behind it, if nothing fails before. -/
def numData (mem : ℕ → UInt8) : ℕ × Cursor :=
  let nameLen := (Cursor.start.word mem).2.word mem
  ((nameLen.2.bytes mem nameLen.1).2.word mem).2.word mem

/-- Without a failure the event is read to its end. -/
theorem setDataTftEvent_eq (mem : ℕ → UInt8) (hlong : ¬ data.length < 16)
    (hsmall : (numData mem).1 * sizeofTftEventData < 2 ^ 32) :
    (setDataTftEvent mem (fun _ => true) data.length).cursor =
      (readStrings mem (fun _ => true) 3 (numData mem).1 (numData mem).2).2.2 := by
  unfold numData at hsmall ⊢
  unfold setDataTftEvent
  dsimp only at hsmall ⊢
  generalize (((((Cursor.start.word mem).2.word mem).2.bytes mem
    ((Cursor.start.word mem).2.word mem).1).2.word mem).2.word mem) = num at hsmall ⊢
  simp only [if_neg hlong, Bool.not_true, Bool.false_eq_true, if_false, Bool.false_or, hsmall,
    decide_true]
  split
  · rfl
  · rename_i hzero
    rw [Nat.eq_zero_of_not_pos hzero]
    rfl

/-- If the array is too large, the event is read up to the number of strings. -/
theorem setDataTftEvent_large (mem : ℕ → UInt8) (hlong : ¬ data.length < 16)
    (hlarge : ¬ (numData mem).1 * sizeofTftEventData < 2 ^ 32) :
    (setDataTftEvent mem (fun _ => true) data.length).cursor = (numData mem).2 := by
  unfold numData at hlarge ⊢
  unfold setDataTftEvent
  dsimp only at hlarge ⊢
  generalize (((((Cursor.start.word mem).2.word mem).2.bytes mem
    ((Cursor.start.word mem).2.word mem).1).2.word mem).2.word mem) = num at hlarge ⊢
  simp only [if_neg hlong, Bool.not_true, Bool.false_eq_true, if_false, Bool.false_or, hlarge,
    decide_false, Bool.not_false, if_true]
  split
  · rfl
  · rfl

theorem tftEventForm_of_inside (hmem : Cursor.Holds mem data)
    (h : (setDataTftEvent mem (fun _ => true) data.length).cursor.offset ≤ data.length) :
    TftEventForm data := by
  by_cases hshort : data.length < 16
  · exact .inl hshort
  have hend : (numData mem).2.offset ≤ data.length := by
    by_cases hsmall : (numData mem).1 * sizeofTftEventData < 2 ^ 32
    · rw [setDataTftEvent_eq mem hshort hsmall] at h
      exact Nat.le_trans (offset_le_readStrings ..) h
    · rw [setDataTftEvent_large mem hshort hsmall] at h
      exact h
  have hstart := Cursor.before_start data
  have hzero : Cursor.start.offset = 0 := rfl
  have hsize : 16 + ((Cursor.start.word mem).2.word mem).1 ≤ data.length := by
    simp only [numData, Cursor.offset_word, Cursor.offset_bytes] at hend
    omega
  obtain ⟨type, rest₁, htype, hform₁⟩ := hstart.exists_word (by omega)
  nth_rw 2 [hform₁] at hstart
  obtain ⟨-, hnameLen⟩ := hstart.word hmem htype
  obtain ⟨nameLen, rest₂, hlt, rfl⟩ := hnameLen.exists_word
    (by rw [Cursor.offset_word]; omega)
  obtain ⟨hnameWord, hname⟩ := hnameLen.word hmem hlt
  have hnameEnd : ((Cursor.start.word mem).2.word mem).2.offset + nameLen ≤ data.length := by
    simp only [Cursor.offset_word]
    omega
  obtain ⟨name, rest₃, rfl, rfl⟩ := hname.exists_bytes hnameEnd
  obtain ⟨-, hlogBefore⟩ := hname.bytes hmem
  obtain ⟨log, rest₄, hlog, rfl⟩ := hlogBefore.exists_word
    (by simp only [Cursor.offset_word, Cursor.offset_bytes]; omega)
  obtain ⟨-, hnumBefore⟩ := hlogBefore.word hmem hlog
  obtain ⟨num, rest, hnum, rfl⟩ := hnumBefore.exists_word
    (by simp only [Cursor.offset_word, Cursor.offset_bytes]; omega)
  obtain ⟨hnumWord, hstrings⟩ := hnumBefore.word hmem hnum
  have hnumData : (numData mem).1 = num ∧ (numData mem).2.Before data rest := by
    unfold numData
    dsimp only
    rw [hnameWord]
    exact ⟨hnumWord, hstrings⟩
  refine .inr ⟨type, name, log, num, rest, htype, hlog, hnum, ?_, ?_⟩
  · rw [hform₁, encodeBuffer, append_assoc]
  · by_cases hsmall : num * sizeofTftEventData < 2 ^ 32
    · rw [setDataTftEvent_eq mem hshort (hnumData.1 ▸ hsmall), hnumData.1] at h
      exact .inr (exists_strings hmem hnumData.2 h)
    · exact .inl (Nat.le_of_not_lt hsmall)

/-! ## All readers -/

theorem covers_setDataFuseInfo (hdrLen : ℕ) : (setDataFuseInfo mem alloc hdrLen).cursor.Covers := by
  unfold setDataFuseInfo
  split
  · exact Cursor.covers_start
  · exact Cursor.covers_start.bytes mem hdrLen

theorem setDataFuseInfo_offset_le (n : ℕ) : (setDataFuseInfo mem alloc n).cursor.offset ≤ n := by
  unfold setDataFuseInfo
  split
  · exact Nat.zero_le _
  · exact (Nat.zero_add n).le

/-- What is behind the payload does not matter to a memory that holds it. -/
theorem exists_holds (data : Bytes) : ∃ mem, Cursor.Holds mem data :=
  ⟨overwrite (fun _ => 0) 0 data, slice_overwrite_self ..⟩

end Readers

/-- For every payload, whatever its content: a reader stays inside it iff it has the form that the
reader relies on. -/
theorem decoders_stay_inside_iff (d : Decoder) (payload : Payload) :
    d.StaysInside payload ↔ d.Form payload.data := by
  obtain ⟨data, hdata⟩ := payload
  obtain ⟨mem₀, hmem₀⟩ := exists_holds data
  cases d with
  | apReset =>
    constructor
    · intro h
      have hinside := (h mem₀ hmem₀ fun _ => true).1
      exact apResetForm_of_inside hmem₀ hdata ((covers_setDataApReset _).inside_iff.mp hinside)
    · intro hform mem hmem alloc
      exact ⟨(covers_setDataApReset _).inside_iff.mpr (setDataApReset_inside hmem hdata hform),
        Nat.zero_le _⟩
  | coreDump =>
    constructor
    · intro h
      have hinside := (h mem₀ hmem₀ fun _ => true).1
      exact coreDumpForm_of_inside hmem₀ ((covers_setDataCoreDump _).inside_iff.mp hinside)
    · intro hform mem hmem alloc
      exact ⟨(covers_setDataCoreDump _).inside_iff.mpr (setDataCoreDump_inside hmem hform),
        Nat.zero_le _⟩
  | tftEvent =>
    constructor
    · intro h
      have hinside := (h mem₀ hmem₀ fun _ => true).1
      exact tftEventForm_of_inside hmem₀ ((covers_setDataTftEvent _).inside_iff.mp hinside)
    · intro hform mem hmem alloc
      exact ⟨(covers_setDataTftEvent _).inside_iff.mpr (setDataTftEvent_inside hmem hdata hform),
        Nat.zero_le _⟩
  | fuseInfo =>
    constructor
    · intro h
      have hwritten := (h mem₀ hmem₀ fun _ => true).2
      simpa [Decoder.run, setDataFuseInfo, Cursor.bytes, Decoder.Form] using hwritten
    · intro hform mem hmem alloc
      refine ⟨(covers_setDataFuseInfo _).inside_iff.mpr (setDataFuseInfo_offset_le _), ?_⟩
      simp only [Decoder.run, setDataFuseInfo, Cursor.bytes]
      split
      · exact Nat.zero_le _
      · rw [Option.getD_some, length_slice]
        exact hform

/-- The extra data of a request for a recovery are relayed in a reset notification: with two bytes
of them, four are read, and the reader reports a success. -/
theorem decoders_leave_payload :
    ∃ msg, setMsgApReset 1 ⟨bytes "RIL", [0, 0]⟩ = some msg ∧
      (∀ h, ¬ Decoder.apReset.StaysInside ⟨msg.data, h⟩) ∧
      ∀ mem, (setDataApReset mem (fun _ => true) msg.data.length).success = true := by
  have hsome : (setMsgApReset 1 ⟨bytes "RIL", [0, 0]⟩).isSome = true := by decide +kernel
  obtain ⟨msg, hmsg⟩ := Option.isSome_iff_exists.mp hsome
  refine ⟨msg, hmsg, fun _ hinside => ?_, fun mem => by simp [setDataApReset]⟩
  have hdata := (msgPrepare_eq_some hmsg).1
  have hrun := (hinside (overwrite (fun _ => 0) 0 msg.data) (slice_overwrite_self ..)
    fun _ => true).1
  have hend := (covers_setDataApReset _).inside_iff.mp hrun
  dsimp only at hend
  rw [hdata] at hend
  exact absurd hend (by decide +kernel)

end HardwareIntel.MsgToData
