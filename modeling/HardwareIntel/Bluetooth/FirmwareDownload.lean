import HardwareIntel.Bluetooth.Download
import HardwareIntel.Bluetooth.SeqFile

/-!
# What a firmware download guarantees

The driver reports exactly one result, except that nobody looks at the result of sending the reset.
The buffer of a command takes the digits of a line of up to 520 characters, CR LF included, which is
one parameter less than a command can have. And a well-formed file is sent as it is if the line buffer
never makes a line of the rest of a longer one.
-/

namespace HardwareIntel.Bluetooth

open List Option HwCfg

/-! ### The size of a command -/

/-- A command whose bytes stay in the buffer that is allocated for it. -/
def Command.Fits (c : Command) : Prop := c.bytes.length ≤ hciCmdMaxLen ∧ c.len ≤ hciCmdMaxLen

/-- The longest line, with its line terminator, whose command fits. -/
def fittingLineLen : ℕ := 520

/-- Whether a command fits depends on the length of its line. -/
theorem fits_command_iff (line : Line) (c : List UInt8) :
    (line.store c).command.Fits ↔ strlen (emptyLine.store c) ≤ fittingLineLen := by
  rw [Command.Fits, Line.command, ← strlen_store line]
  have hlen := (formByte (line.store c 8) (line.store c 9)).toNat_lt
  simp only [uint16ToStream, length_append, length_cons, length_nil, length_map,
    length_range, hciCmdMaxLen, fittingLineLen]
  omega

/-- The fixed commands fit. -/
theorem fits_of_isFixed {c : Command} (h : IsFixed c) : c.Fits :=
  ⟨h.1.trans (by decide), h.2.trans (by decide)⟩

/-- The input of a controller that answers with success. -/
def successInput (content : List UInt8) : Input :=
  ⟨fun i => if i = 0 then hciEvtCmdCmplEvtCode else 0, true, some (some content), true⟩

/-- There are answers that succeed. -/
theorem succeeds_successInput (content : List UInt8) : (successInput content).Succeeds content :=
  ⟨rfl, rfl, rfl, rfl⟩

/-- Each chunk that is a command has been sent. -/
theorem exists_command_of {cs : List (List UInt8)} {new : List Command} {c : List UInt8}
    (h : List.Forall₂ IsCommandOf cs new) (hc : c ∈ cs) : ∃ command ∈ new, IsCommandOf c command := by
  induction h with
  | nil => exact absurd hc not_mem_nil
  | cons hcommand _ ih =>
    rcases mem_cons.mp hc with rfl | hc
    · exact ⟨_, mem_cons_self .., hcommand⟩
    · obtain ⟨command, hmem, hcommand⟩ := ih hc
      exact ⟨command, mem_cons_of_mem _ hmem, hcommand⟩

/-- What a whole run has sent, and how far it has read. -/
theorem sent_opened_run (usb : Bool) (s : HwCfg) (content : List UInt8) :
    ∃ pre fp new, LeadsTo usb content (s.hwConfigStart true true) ((opened usb s content).sent fp new) ∧
      List.Forall₂ IsCommandOf (commandChunks (chunks content)) new ∧
      chunks content = pre ++ chunks fp.rest ∧ (∀ c ∈ pre, isKnown c = true) ∧
      (∀ c ∈ pre.getLast?, isCommandChunk c = true) ∧ (fp.eof = true → fp.rest = []) ∧
      commandChunks (chunks fp.rest) = [] := by
  obtain ⟨pre, fp, new, hrun, hrest⟩ :=
    @memwrite_run usb content (opened usb s content) rfl rfl _ rfl fun h => absurd h Bool.false_ne_true
  exact ⟨pre, fp, new, (leadsTo_opened usb s content).trans hrun, hrest⟩

/-- The commands of a file always fit if those lines are short enough that an undisturbed download
sends. -/
theorem fits_iff (content : List UInt8) :
    (∀ (usb : Bool) (s : HwCfg) (alloc xmit : Bool) (inputs : ℕ → Input),
      (∀ k opened, (inputs k).patchfile = some (some opened) → opened = content) →
      ∀ k t, s.configuration usb alloc xmit inputs k = some t → ∀ c ∈ t.built, c.Fits) ↔
    ∀ c ∈ commandChunks (chunks content), strlen (emptyLine.store c) ≤ fittingLineLen := by
  constructor
  · intro h c hc
    have s : HwCfg := ⟨.idle, 0, .success, none, false, false, [], []⟩
    obtain ⟨pre, fp, new, hrun, hnew, -⟩ := sent_opened_run false s content
    obtain ⟨k, hk⟩ := hrun (fun _ => successInput content) fun _ => succeeds_successInput content
    obtain ⟨command, hcommand, line, rfl⟩ := exists_command_of hnew hc
    have hfits := h false s true true (fun _ => successInput content)
      (fun _ _ hopened => (some.inj (some.inj hopened)).symm) k _ hk _
      (mem_append_right _ hcommand)
    exact (fits_command_iff line c).mp hfits
  · intro h usb s alloc xmit inputs hcontent k t ht c hc
    have hvalid := configuration_valid (R := fun c => strlen (emptyLine.store c) ≤ fittingLineLen)
      (fun k opened hopened => hcontent k opened hopened ▸ h) ht
    rcases hvalid.built c hc with hfixed | ⟨line, chunk, hchunk, rfl⟩
    · exact fits_of_isFixed hfixed
    · exact (fits_command_iff line chunk).mpr hchunk

/-! ### Well-formed files -/

section Files

variable {texts : List (List UInt8)} {lines : List PatchLine}

/-- The texts of lines hold no line feed. -/
theorem forall_not_mem (h : List.Forall₂ LineText texts lines) : ∀ text ∈ texts, 0x0A ∉ text := by
  induction h with
  | nil => exact fun text h => absurd h not_mem_nil
  | cons hline _ ih => exact forall_mem_cons.mpr ⟨hline.not_mem, ih⟩

/-- Of a line's chunks only the first can be a command. -/
theorem chunksOf_filter {text : List UInt8} {line : PatchLine} (h : LineText text line) :
    (chunksOf text).filter isCommandChunk =
      (if line.isCommand then [text ++ crlf] else []) ++ (laterChunks text).filter isCommandChunk := by
  cases hline : line.isCommand with
  | false =>
    rw [chunksOf_eq h.not_mem, filter_cons_of_neg]
    · rfl
    · simp [isCommandChunk_of_skipped (h.skipped hline)]
  | true =>
    cases line with
    | command opcode params =>
      obtain ⟨hchunks, hcommand⟩ := h.chunksOf_command
      rw [laterChunks, hchunks, filter_cons_of_pos hcommand]
      rfl
    | comment => cases hline
    | blank => cases hline
    | event => cases hline

/-- The chunks that are sent: one for each command line, and what looks like a command later in a
line that is too long. -/
theorem countP_chunks (h : List.Forall₂ LineText texts lines) :
    (texts.flatMap chunksOf).countP isCommandChunk =
      lines.countP PatchLine.isCommand + (texts.flatMap laterChunks).countP isCommandChunk := by
  induction h with
  | nil => rfl
  | @cons text line texts lines hline _ ih =>
    have hcount : (chunksOf text).countP isCommandChunk =
        (if line.isCommand then 1 else 0) + (laterChunks text).countP isCommandChunk := by
      rw [countP_eq_length_filter, chunksOf_filter hline, length_append, ← countP_eq_length_filter]
      split <;> rfl
    rw [flatMap_cons, flatMap_cons, countP_append, countP_append, ih, hcount, countP_cons]
    omega

/-- The commands sent are those of the patch lines. -/
theorem sent_chunks (h : List.Forall₂ LineText texts lines)
    (hlater : ∀ text ∈ texts, ∀ c ∈ laterChunks text, skippedChunk c = true) {new : List Command}
    (hnew : List.Forall₂ IsCommandOf ((texts.flatMap chunksOf).filter isCommandChunk) new) :
    new.map Command.sent = lines.filterMap PatchLine.sent := by
  induction h generalizing new with
  | nil =>
    cases hnew
    rfl
  | @cons text line texts lines hline _ ih =>
    rw [forall_mem_cons] at hlater
    have hnone : (laterChunks text).filter isCommandChunk = [] :=
      filter_eq_nil_iff.mpr fun c hc => by simp [isCommandChunk_of_skipped (hlater.1 c hc)]
    rw [flatMap_cons, filter_append, chunksOf_filter hline, hnone, append_nil] at hnew
    cases line with
    | command opcode params =>
      cases hnew with
      | cons hcommand hnew =>
        obtain ⟨buffer, rfl⟩ := hcommand
        rw [map_cons, command_store hline, ih hlater.2 hnew]
        rfl
    | comment => exact ih hlater.2 hnew
    | blank => exact ih hlater.2 hnew
    | event => exact ih hlater.2 hnew

/-- Where every chunk is known, the commands are those that look like one. -/
theorem commandChunks_eq_filter {cs : List (List UInt8)} (h : ∀ c ∈ cs, isKnown c = true) :
    commandChunks cs = cs.filter isCommandChunk := by
  induction cs with
  | nil => rfl
  | cons c cs ih =>
    rw [forall_mem_cons] at h
    rw [commandChunks]
    cases hc : skippedChunk c with
    | true => rw [if_pos rfl, ih h.2, filter_cons_of_neg (by simp [isCommandChunk_of_skipped hc])]
    | false =>
      have hcommand : isCommandChunk c = true := by simpa [isKnown, hc] using h.1
      rw [if_neg (by simp), if_pos hcommand, ih h.2, filter_cons_of_pos hcommand]

/-- The last chunk of a file that ends with an event. -/
theorem getLast_chunks (h : List.Forall₂ LineText texts lines) (hlast : lines.getLast? = some .event)
    (hlater : ∀ text ∈ texts, ∀ c ∈ laterChunks text, skippedChunk c = true) :
    ∃ c, (texts.flatMap chunksOf).getLast? = some c ∧ skippedChunk c = true := by
  induction h with
  | nil => cases hlast
  | @cons text line texts lines hline hlines ih =>
    rw [forall_mem_cons] at hlater
    rw [flatMap_cons]
    cases hlines with
    | nil =>
      obtain rfl : line = .event := some.inj hlast
      have hall : ∀ c ∈ chunksOf text, skippedChunk c = true := by
        rw [chunksOf_eq hline.not_mem]
        exact forall_mem_cons.mpr ⟨hline.skipped rfl, hlater.1⟩
      have hne : chunksOf text ≠ [] := by
        rw [chunksOf_eq hline.not_mem]
        exact cons_ne_nil _ _
      refine ⟨(chunksOf text).getLast hne, ?_, hall _ (getLast_mem hne)⟩
      rw [flatMap_nil, append_nil, List.getLast?_eq_some_getLast hne]
    | cons hline' hlines' =>
      obtain ⟨c, hc, hskipped⟩ := ih (by simpa using hlast) hlater.2
      refine ⟨c, ?_, hskipped⟩
      rw [List.getLast?_append, hc]
      rfl

/-- As many commands are sent as there are command lines. -/
theorem length_filterMap_sent (lines : List PatchLine) :
    (lines.filterMap PatchLine.sent).length = lines.countP PatchLine.isCommand := by
  induction lines with
  | nil => rfl
  | cons line lines ih =>
    cases line with
    | command opcode params =>
      rw [filterMap_cons_some (by rfl), length_cons, ih, countP_cons_of_pos rfl]
    | comment => rwa [filterMap_cons_none rfl, countP_cons_of_neg Bool.false_ne_true]
    | blank => rwa [filterMap_cons_none rfl, countP_cons_of_neg Bool.false_ne_true]
    | event => rwa [filterMap_cons_none rfl, countP_cons_of_neg Bool.false_ne_true]

/-- Every chunk is known if those behind the first are skipped. -/
theorem isKnown_of_later (h : List.Forall₂ LineText texts lines)
    (hlater : ∀ text ∈ texts, ∀ c ∈ laterChunks text, skippedChunk c = true) :
    ∀ c ∈ texts.flatMap chunksOf, isKnown c = true := by
  induction h with
  | nil => exact fun c hc => absurd hc not_mem_nil
  | @cons text line texts lines hline _ ih =>
    rw [forall_mem_cons] at hlater
    intro c hc
    rcases mem_append.mp hc with hc | hc
    · cases hcommand : line.isCommand with
      | false =>
        rw [chunksOf_eq hline.not_mem] at hc
        rcases mem_cons.mp hc with rfl | hc
        · simp [isKnown, hline.skipped hcommand]
        · simp [isKnown, hlater.1 c hc]
      | true =>
        cases line with
        | command opcode params =>
          obtain ⟨hchunks, hcommand⟩ := hline.chunksOf_command
          rw [hchunks] at hc
          rw [mem_singleton.mp hc, isKnown, hcommand, Bool.or_true]
        | comment => cases hcommand
        | blank => cases hcommand
        | event => cases hcommand
    · exact ih hlater.2 c hc

/-- The later chunks of a line are chunks of the file. -/
theorem mem_flatMap_later (h : List.Forall₂ LineText texts lines) {text c : List UInt8}
    (htext : text ∈ texts) (hc : c ∈ laterChunks text) : c ∈ texts.flatMap chunksOf :=
  mem_flatMap.mpr ⟨text, htext, by
    rw [chunksOf_eq (forall_not_mem h text htext)]
    exact mem_cons_of_mem _ hc⟩

/-- What is sent for a file: the commands before and behind its lines are those of the driver. -/
def sentFor (usb : Bool) (lines : List PatchLine) : List (UInt16 × List UInt8) :=
  (opening usb).map Command.sent ++ lines.filterMap PatchLine.sent ++
    [manufactureCommand 0 2, rdswVersionCommand].map Command.sent

/-- The configuration after the lines have been sent and success has been reported. -/
structure Downloaded (usb : Bool) (lines : List PatchLine) (t : HwCfg) : Prop where
  stopped : t.outstanding = false
  reports : t.reports = [true]
  built : t.built.map Command.sent = sentFor usb lines

/-- If everything that is left of the file is left out, the lines before have been read one by one. -/
theorem all_known {cs pre rest : List (List UInt8)} (hcs : cs = pre ++ rest)
    (hpre : ∀ c ∈ pre, isKnown c = true) (hrest : ∀ c ∈ rest, skippedChunk c = true) :
    ∀ c ∈ cs, isKnown c = true := by
  intro c hc
  rcases mem_append.mp (hcs ▸ hc) with hc | hc
  · exact hpre c hc
  · simp [isKnown, hrest c hc]

/-- An undisturbed download of a well-formed file ends like this. -/
theorem exists_ending (h : List.Forall₂ LineText texts lines) (hcommand : lines.any PatchLine.isCommand)
    (usb : Bool) (s : HwCfg) :
    ∃ pre fp new u, LeadsTo usb (contentOf texts) (s.hwConfigStart true true) u ∧
      u.outstanding = false ∧ Ending ((opened usb s (contentOf texts)).sent fp new) fp u ∧
      List.Forall₂ IsCommandOf (commandChunks (texts.flatMap chunksOf)) new ∧
      texts.flatMap chunksOf = pre ++ chunks fp.rest ∧ (∀ c ∈ pre, isKnown c = true) ∧
      (∀ c ∈ pre.getLast?, isCommandChunk c = true) ∧ commandChunks (chunks fp.rest) = [] := by
  obtain ⟨pre, fp, new, hrun, hnew, hchunks, hpre, hlast, heof, hnone⟩ :=
    sent_opened_run usb s (contentOf texts)
  rw [chunks_contentOf (forall_not_mem h)] at hnew hchunks
  have hempty : (∀ c ∈ chunks fp.rest, skippedChunk c = true) →
      ((opened usb s (contentOf texts)).sent fp new).fwPatchfileEmpty = true := by
    intro hskipped
    rw [commandChunks_eq_filter (all_known hchunks hpre hskipped)] at hnew
    have hlength := hnew.length_eq
    rw [← countP_eq_length_filter, countP_chunks h] at hlength
    have hpos : 0 < lines.countP PatchLine.isCommand :=
      countP_pos_iff.mpr (any_eq_true.mp hcommand)
    have hne : new ≠ [] := length_pos_iff.mp (by omega)
    simp [HwCfg.sent, hne]
  obtain ⟨u, hu, hover, hending⟩ :=
    @leadsTo_ending usb (contentOf texts) ((opened usb s (contentOf texts)).sent fp new) rfl rfl fp
      rfl heof rfl rfl rfl hempty hnone
  exact ⟨pre, fp, new, u, hrun.trans hu, hover, hending, hnew, hchunks, hpre, hlast, hnone⟩

/-- A well-formed file is downloaded as it is if and only if no later chunk of a line is looked at as
a line. -/
theorem downloaded_iff (h : List.Forall₂ LineText texts lines) (hlast : lines.getLast? = some .event)
    (hcommand : lines.any PatchLine.isCommand) (usb : Bool) (s : HwCfg) (inputs : ℕ → Input)
    (hinputs : ∀ k, (inputs k).Succeeds (contentOf texts)) :
    (∃ k t, s.configuration usb true true inputs k = some t ∧ Downloaded usb lines t) ↔
      ∀ text ∈ texts, ∀ c ∈ laterChunks text, skippedChunk c = true := by
  obtain ⟨pre, fp, new, u, hu, hover, hending, hnew, hchunks, hpre, hprelast, hnone⟩ :=
    exists_ending h hcommand usb s
  obtain ⟨k, hk⟩ := hu inputs hinputs
  constructor
  · rintro ⟨j, t, ht, hdownloaded⟩
    obtain rfl := driven_end_unique hk hover ht hdownloaded.stopped
    cases hending with
    | aborted _ hreports => cases hreports.symm.trans hdownloaded.reports
    | cut _ _ hbuilt =>
      -- the last command would be that of the version
      have hlast := congrArg List.getLast? hdownloaded.built
      rw [hbuilt, map_append, List.getLast?_append, sentFor, List.getLast?_append] at hlast
      exact absurd (some.inj hlast) (by decide)
    | patched hrest hskipped _ hbuilt =>
      have hknown := all_known hchunks hpre hskipped
      have hcount := congrArg List.length hdownloaded.built
      have hlength := hnew.length_eq
      rw [commandChunks_eq_filter hknown, ← countP_eq_length_filter, countP_chunks h] at hlength
      rw [hbuilt, sentFor] at hcount
      simp only [HwCfg.sent, opened, length_map, length_append, length_filterMap_sent]
        at hcount
      have hzero : (texts.flatMap laterChunks).countP isCommandChunk = 0 := by omega
      intro text htext c hc
      have hcommand := countP_eq_zero.mp hzero c (mem_flatMap.mpr ⟨text, htext, hc⟩)
      have hc' := hknown c (mem_flatMap_later h htext hc)
      simpa [isKnown, hcommand] using hc'
  · intro hlater
    have hknown := isKnown_of_later h hlater
    rw [commandChunks_eq_filter hknown] at hnew
    have hrest : chunks fp.rest ≠ [] := by
      intro hnil
      rw [hnil, append_nil] at hchunks
      obtain ⟨c, hc, hskipped⟩ := getLast_chunks h hlast hlater
      rw [hchunks] at hc
      exact absurd (hprelast c hc) (by simp [isCommandChunk_of_skipped hskipped])
    have hskipped : ∀ c ∈ chunks fp.rest, skippedChunk c = true := by
      have hknown' : ∀ c ∈ chunks fp.rest, isKnown c = true := fun c hc =>
        hknown c (hchunks ▸ mem_append_right _ hc)
      rw [commandChunks_eq_filter hknown'] at hnone
      intro c hc
      simpa [isKnown, filter_eq_nil_iff.mp hnone c hc] using hknown' c hc
    cases hending with
    | aborted hcases =>
      rcases hcases with hnil | ⟨c, hc, hunskipped⟩
      · exact absurd (by rw [hnil]; rfl) hrest
      · exact absurd (hskipped c hc) (by simp [hunskipped])
    | cut hnil => exact absurd (by rw [hnil]; rfl) hrest
    | patched _ _ hreports hbuilt =>
      refine ⟨k, u, hk, hover, hreports, ?_⟩
      rw [hbuilt, sentFor, map_append]
      simp only [HwCfg.sent, opened, map_append]
      rw [sent_chunks h hlater hnew]

end Files

/-- When the download does what it is for: a result is reported once unless the reset is refused, the
commands of a file stay in their buffers unless a line is too long, and a well-formed file is sent
line by line unless a part of a line is taken for a line. -/
theorem firmware_download_iff (content : List UInt8) :
    (∀ (usb : Bool) (s : HwCfg) (alloc xmit : Bool) (inputs : ℕ → Input),
      (∃ k, ∀ j, k ≤ j → ∃ t, s.configuration usb alloc xmit inputs j = some t ∧
        t.reports.length = 1) ↔ ¬(alloc = true ∧ xmit = false)) ∧
    ((∀ (usb : Bool) (s : HwCfg) (alloc xmit : Bool) (inputs : ℕ → Input),
        (∀ k opened, (inputs k).patchfile = some (some opened) → opened = content) →
        ∀ k t, s.configuration usb alloc xmit inputs k = some t → ∀ c ∈ t.built, c.Fits) ↔
      ∀ c ∈ commandChunks (chunks content), strlen (emptyLine.store c) ≤ fittingLineLen) ∧
    ∀ (texts : List (List UInt8)) (lines : List PatchLine), List.Forall₂ LineText texts lines →
      lines.getLast? = some .event → lines.any PatchLine.isCommand →
      ∀ (usb : Bool) (s : HwCfg) (inputs : ℕ → Input),
        (∀ k, (inputs k).Succeeds (contentOf texts)) →
        ((∃ k t, s.configuration usb true true inputs k = some t ∧ Downloaded usb lines t) ↔
          ∀ text ∈ texts, ∀ c ∈ laterChunks text, skippedChunk c = true) :=
  ⟨reports_once_iff, fits_iff content, fun _ _ h hlast hcommand => downloaded_iff h hlast hcommand⟩

/-- A short file with one command: all three conditions are met. -/
theorem firmware_download_short :
    ∃ k t, HwCfg.configuration true ⟨.idle, 0, .success, none, false, false, [], []⟩ true true
      (fun _ => successInput (contentOf [[0x30, 0x31, 0x20, 0x38, 0x45, 0x46, 0x43, 0x20, 0x30, 0x31,
        0x61, 0x41], [0x30, 0x32]])) k = some t ∧
      Downloaded true [.command 0xFC8E [0xAA], .event] t := by
  obtain ⟨-, -, hdownloaded⟩ := firmware_download_iff []
  refine (hdownloaded _ _ (.cons ?_ (.cons (.event (by decide)) .nil)) rfl rfl true _ _
    fun _ => succeeds_successInput _).mpr ?_
  · exact @LineText.command 0xFC8E [0xAA] [0x38, 0x45, 0x46, 0x43] [0x30, 0x31] [0x61, 0x41]
      0x20 0x20 ⟨by decide, by decide⟩ ⟨by decide, by decide⟩
      (.cons (.inl rfl) (.inl rfl) (.cons (.inl rfl) (.inl rfl) .nil))
      (.cons (.inl rfl) (.inl rfl) .nil) (.cons (.inr rfl) (.inl rfl) .nil) (by decide)
  · decide

/-- If the reset is refused, nothing is reported. -/
theorem reset_refused :
    ¬∀ (usb : Bool) (s : HwCfg) (alloc xmit : Bool) (inputs : ℕ → Input),
      ∃ k, ∀ j, k ≤ j → ∃ t, s.configuration usb alloc xmit inputs j = some t ∧
        t.reports.length = 1 := by
  intro h
  obtain ⟨k, hk⟩ := h true ⟨.idle, 0, .success, none, false, false, [], []⟩ true false
    fun _ => successInput []
  obtain ⟨t, ht, hreports⟩ := hk k le_rfl
  have hstart : HwCfg.configuration true ⟨.idle, 0, .success, none, false, false, [], []⟩ true false
      (fun _ => successInput []) k = some (HwCfg.hwConfigStart
        ⟨.idle, 0, .success, none, false, false, [], []⟩ true false) :=
    driven_of_not_active rfl rfl (Nat.zero_le k)
  obtain rfl := some.inj (hstart.symm.trans ht)
  exact absurd hreports (by decide)

end HardwareIntel.Bluetooth
