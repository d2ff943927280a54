import HardwareIntel.Bluetooth.Configuration

/-!
# A download that nothing disturbs

With a controller that answers every command with success the download is determined by the chunks of
the file: `memwrite_run` sends all chunks that are commands, up to the first chunk that is neither a
command nor left out. What follows then decides the result: `finish_success` for a file whose other
chunks are all left out, `finish_abort` where there is one more chunk, or none at all.
-/

namespace HardwareIntel.Bluetooth

open List

/-- The input of a step that succeeds. -/
structure Input.Succeeds (content : List UInt8) (i : Input) : Prop where
  status : i.status = some 0
  alloc : i.alloc = true
  patchfile : i.patchfile = some (some content)
  xmit : i.xmit = true

namespace HwCfg

/-- The way of a configuration that nothing disturbs. -/
abbrev LeadsTo (usb : Bool) (content : List UInt8) (s t : HwCfg) : Prop :=
  Leads (hwConfigCback usb) outstanding (Input.Succeeds content) s t

section Steps

variable {usb : Bool} {content : List UInt8} {s t : HwCfg}

/-- A state that is reached by one command that succeeds. -/
theorem leadsTo_of_proceed (houtstanding : s.outstanding = true)
    (h : ∀ i : Input, i.Succeeds content →
      proceed usb { s with outstanding := false } i = some (t, true)) :
    LeadsTo usb content s t := by
  refine Leads.of_step houtstanding fun i hi => ?_
  rw [hwConfigCback]
  rw [if_pos ⟨hi.status, hi.alloc⟩, h i hi]
  rfl

/-- The same for a command after which the configuration gives up. -/
theorem leadsTo_abort_of_proceed (houtstanding : s.outstanding = true)
    (h : ∀ i : Input, i.Succeeds content →
      proceed usb { s with outstanding := false } i = some (t, false)) :
    LeadsTo usb content s t.abort := by
  refine Leads.of_step houtstanding fun i hi => ?_
  rw [hwConfigCback]
  rw [if_pos ⟨hi.status, hi.alloc⟩, h i hi]
  rfl

/-- The commands before the file is read. -/
def opening (usb : Bool) : List Command :=
  hciResetCommand :: (if usb then [rdswVersionCommand] else []) ++ [manufactureCommand 1 0]

/-- The state in which the first line of the file is awaited. -/
def opened (usb : Bool) (s : HwCfg) (content : List UInt8) : HwCfg where
  state := .intelMemwrite
  isPatchEnabled := 0
  nextState := .success
  fp := some ⟨content, false⟩
  fwPatchfileEmpty := s.fwPatchfileEmpty
  outstanding := true
  built := opening usb
  reports := []

/-- The configuration reaches the opened file. -/
theorem leadsTo_opened (usb : Bool) (s : HwCfg) (content : List UInt8) :
    LeadsTo usb content (s.hwConfigStart true true) (opened usb s content) := by
  cases usb with
  | false =>
    refine leadsTo_of_proceed rfl fun i hi => ?_
    simp [proceed, hwConfigStart, HwCfg.openPatchfile, hi.patchfile, HwCfg.manufactureOn, hi.xmit,
      HwCfg.transmit, opened, opening]
  | true =>
    have hversion : LeadsTo true content (s.hwConfigStart true true)
        { s.hwConfigStart true true with
          state := .intelOpenPatchfile, built := [hciResetCommand, rdswVersionCommand] } :=
      leadsTo_of_proceed rfl fun i hi => by
        simp [proceed, hwConfigStart, hi.xmit, HwCfg.transmit]
    refine hversion.trans (leadsTo_of_proceed rfl fun i hi => ?_)
    simp [proceed, hwConfigStart, HwCfg.openPatchfile, hi.patchfile, HwCfg.manufactureOn, hi.xmit,
      HwCfg.transmit, opened, opening]

/-! ### The lines of the file -/

/-- The state after some more lines have been sent. -/
def sent (s : HwCfg) (fp : File) (new : List Command) : HwCfg :=
  { s with
    fp := some fp
    fwPatchfileEmpty := s.fwPatchfileEmpty || !new.isEmpty
    built := s.built ++ new }

/-- A chunk that is left out or sent. -/
def isKnown (c : List UInt8) : Bool := skippedChunk c || isCommandChunk c

/-- A command that has been read from this chunk. -/
def IsCommandOf (c : List UInt8) (command : Command) : Prop :=
  ∃ line : Line, command = (line.store c).command

variable {r : List UInt8}

section

variable (hstate : s.state = .intelMemwrite) (houtstanding : s.outstanding = true)
include hstate houtstanding

/-- A line of the file is sent. -/
theorem memwrite_line {line : Line} {fp : File} (hfp : s.fp = some ⟨r, false⟩)
    (hline : nextLine ⟨r, false⟩ = some (.line line fp)) (hcommand : line.isCommand = true) :
    LeadsTo usb content s (s.sent fp [line.command]) := by
  refine leadsTo_of_proceed houtstanding fun i hi => ?_
  simp [proceed, hstate, HwCfg.memwrite, hfp, hline, hcommand, hi.xmit, HwCfg.transmit, sent,
    houtstanding]

/-- All chunks that are commands are sent, and those before the last of them are known. -/
theorem memwrite_run {fp : File} (hfp : s.fp = some fp) (heof : fp.eof = true → fp.rest = []) :
    ∃ pre fp' new, LeadsTo usb content s (s.sent fp' new) ∧
      List.Forall₂ IsCommandOf (commandChunks (chunks fp.rest)) new ∧
      chunks fp.rest = pre ++ chunks fp'.rest ∧ (∀ c ∈ pre, isKnown c = true) ∧
      (∀ c ∈ pre.getLast?, isCommandChunk c = true) ∧ (fp'.eof = true → fp'.rest = []) ∧
      commandChunks (chunks fp'.rest) = [] := by
  generalize hms : commandChunks (chunks fp.rest) = ms
  induction ms generalizing s fp with
  | nil =>
    refine ⟨[], fp, [], ?_, .nil, rfl, fun _ h => absurd h not_mem_nil, ?_, heof, hms⟩
    · have hs : s.sent fp [] = s := by simp [sent, ← hfp]
      rw [hs]
      exact Leads.refl s
    · exact fun _ h => absurd h (by simp)
  | cons m ms ih =>
    obtain ⟨r, eof⟩ := fp
    have hr : r ≠ [] := by
      rintro rfl
      cases hms
    cases eof with
    | true => exact absurd (heof rfl) hr
    | false =>
      obtain ⟨found, hfound, hfinds⟩ := nextLine_finds hr
      cases found with
      | endOfFile =>
        rw [← append_nil (chunks r), commandChunks_append _ hfinds.endOfFile_inv.2] at hms
        cases hms
      | line line fp =>
        obtain ⟨heof', pre, c, line, hchunks, hpre, hc, rfl⟩ := hfinds.line_inv
        have hmem : c ∈ chunks r := hchunks ▸ mem_append_right _ (mem_cons_self ..)
        rw [hchunks, commandChunks_append _ hpre, commandChunks, if_neg (by simp [hc])] at hms
        split at hms
        · rename_i hcommand
          obtain ⟨rfl, hms'⟩ := List.cons.inj hms
          have hcommand' : (line.store c).isCommand = true :=
            (isCommand_store line (mem_chunks hmem).1).trans hcommand
          have hstep : LeadsTo usb content s (s.sent fp [(line.store c).command]) :=
            memwrite_line hstate houtstanding hfp hfound hcommand'
          obtain ⟨pre', fp', new, hrun, hnew, hchunks', hpre', hlast, heof', hrest⟩ :=
            ih (s := s.sent fp [(line.store c).command]) hstate houtstanding rfl heof' hms'
          refine ⟨pre ++ c :: pre', fp', (line.store c).command :: new, hstep.trans ?_,
            .cons ⟨line, rfl⟩ hnew, ?_, ?_, ?_, heof', hrest⟩
          · simpa [sent] using hrun
          · rw [hchunks, hchunks', append_assoc, cons_append]
          · intro x hx
            rcases mem_append.mp hx with hx | hx
            · simp [isKnown, hpre x hx]
            · rcases mem_cons.mp hx with rfl | hx
              · simp [isKnown, hcommand]
              · exact hpre' x hx
          · intro x hx
            rw [List.getLast?_append_cons, List.getLast?_cons] at hx
            cases hlast' : pre'.getLast? with
            | none =>
              rw [hlast'] at hx
              exact (Option.mem_some.mp hx) ▸ hcommand
            | some y =>
              rw [hlast'] at hx
              exact (Option.mem_some.mp hx) ▸ hlast y hlast'
        · cases hms

/-! ### The end -/

/-- How a download ends when no chunk is left that can be sent. -/
inductive Ending (s : HwCfg) (fp : File) (u : HwCfg) : Prop
  | patched (hrest : fp.rest ≠ []) (hskipped : ∀ c ∈ chunks fp.rest, skippedChunk c = true)
      (hreports : u.reports = [true])
      (hbuilt : u.built = s.built ++ [manufactureCommand 0 2, rdswVersionCommand])
  | cut (hrest : fp.rest = []) (hreports : u.reports = [true])
      (hbuilt : u.built = s.built ++ [manufactureCommand 0 0])
  | aborted (hrest : fp.rest = [] ∨ ∃ c ∈ chunks fp.rest, skippedChunk c = false)
      (hreports : u.reports = [false])

variable {fp : File}

/-- After the end of the file the version is read once more. -/
theorem finish_patched (hfp : s.fp = some ⟨r, false⟩)
    (hline : nextLine ⟨r, false⟩ = some .endOfFile) (hempty : s.fwPatchfileEmpty = true) :
    ∃ u, LeadsTo usb content s u ∧ u.outstanding = false ∧ u.reports = s.reports ++ [true] ∧
      u.built = s.built ++ [manufactureCommand 0 2, rdswVersionCommand] := by
  have hoff : LeadsTo usb content s
      { s with
        state := .intelRdswVersionRecheck, isPatchEnabled := 2, nextState := .intelRdswVersionRecheck
        fp := none, built := s.built ++ [manufactureCommand 0 2] } :=
    leadsTo_of_proceed houtstanding fun i hi => by
      simp [proceed, hstate, HwCfg.memwrite, hfp, hline, hempty, hwConfigManufactureModeOff, hi.xmit,
        HwCfg.transmit, houtstanding]
  have hrecheck : LeadsTo usb content
      { s with
        state := .intelRdswVersionRecheck, isPatchEnabled := 2, nextState := .intelRdswVersionRecheck
        fp := none, built := s.built ++ [manufactureCommand 0 2] }
      { s with
        state := .success, isPatchEnabled := 2, nextState := .intelRdswVersionRecheck
        fp := none, built := s.built ++ [manufactureCommand 0 2, rdswVersionCommand] } :=
    leadsTo_of_proceed houtstanding fun i hi => by
      simp [proceed, hi.xmit, HwCfg.transmit, houtstanding]
  refine ⟨_, (hoff.trans hrecheck).trans (leadsTo_of_proceed houtstanding fun i hi => rfl), rfl, rfl,
    rfl⟩

/-- If the end of the file has been seen before, the patch is not enabled. -/
theorem finish_cut (hfp : s.fp = some ⟨r, true⟩) (hnext : s.nextState = .success)
    (hpatch : s.isPatchEnabled = 0) :
    ∃ u, LeadsTo usb content s u ∧ u.outstanding = false ∧ u.reports = s.reports ++ [true] ∧
      u.built = s.built ++ [manufactureCommand 0 0] := by
  have hoff : LeadsTo usb content s
      { s with state := .success, built := s.built ++ [manufactureCommand 0 0] } :=
    leadsTo_of_proceed houtstanding fun i hi => by
      simp [proceed, hstate, HwCfg.memwrite, hfp, hnext, hpatch, hwConfigManufactureModeOff, hi.xmit,
        HwCfg.transmit, houtstanding]
  exact ⟨_, hoff.trans (leadsTo_of_proceed houtstanding fun i hi => rfl), rfl, rfl, rfl⟩

/-- At a line that is no command the configuration fails. -/
theorem finish_aborted {line : Line} {fp : File} (hfp : s.fp = some ⟨r, false⟩)
    (hline : nextLine ⟨r, false⟩ = some (.line line fp)) (hcommand : line.isCommand = false) :
    ∃ u, LeadsTo usb content s u ∧ u.outstanding = false ∧ u.reports = s.reports ++ [false] := by
  have habort : LeadsTo usb content s
      ({ s with outstanding := false, fp := some fp } : HwCfg).abort :=
    leadsTo_abort_of_proceed houtstanding fun i hi => by
      simp [proceed, hstate, HwCfg.memwrite, hfp, hline, hcommand]
  exact ⟨_, habort, rfl, rfl⟩

/-- At the end of the file it ends as the commands before tell. -/
theorem leadsTo_ending (hfp : s.fp = some fp) (heof : fp.eof = true → fp.rest = [])
    (hnext : s.nextState = .success) (hpatch : s.isPatchEnabled = 0) (hreports : s.reports = [])
    (hempty : (∀ c ∈ chunks fp.rest, skippedChunk c = true) → s.fwPatchfileEmpty = true)
    (hnone : commandChunks (chunks fp.rest) = []) :
    ∃ u, LeadsTo usb content s u ∧ u.outstanding = false ∧ Ending s fp u := by
  obtain ⟨r, eof⟩ := fp
  cases eof with
  | true =>
    obtain ⟨u, hu, hover, hu', hbuilt⟩ := finish_cut hstate houtstanding hfp hnext hpatch
    rw [hreports] at hu'
    exact ⟨u, hu, hover, .cut (heof rfl) hu' hbuilt⟩
  | false =>
    rcases eq_or_ne r [] with rfl | hr
    · obtain ⟨u, hu, hover, hu'⟩ := finish_aborted hstate houtstanding hfp nextLine_nil rfl
      rw [hreports] at hu'
      exact ⟨u, hu, hover, .aborted (.inl rfl) hu'⟩
    · obtain ⟨found, hfound, hfinds⟩ := nextLine_finds hr
      cases found with
      | endOfFile =>
        have hskipped := hfinds.endOfFile_inv.2
        obtain ⟨u, hu, hover, hu', hbuilt⟩ :=
          finish_patched hstate houtstanding hfp hfound (hempty hskipped)
        rw [hreports] at hu'
        exact ⟨u, hu, hover, .patched hr hskipped hu' hbuilt⟩
      | line line fp =>
        obtain ⟨-, pre, c, line, hchunks, hpre, hc, rfl⟩ := hfinds.line_inv
        have hmem : c ∈ chunks r := hchunks ▸ mem_append_right _ (mem_cons_self ..)
        have hunknown : (line.store c).isCommand = false := by
          rw [isCommand_store line (mem_chunks hmem).1]
          refine Bool.eq_false_iff.mpr fun hcommand => ?_
          rw [hchunks, commandChunks_append _ hpre, commandChunks_cons _ hcommand] at hnone
          exact cons_ne_nil _ _ hnone
        obtain ⟨u, hu, hover, hu'⟩ := finish_aborted hstate houtstanding hfp hfound hunknown
        rw [hreports] at hu'
        exact ⟨u, hu, hover, .aborted (.inr ⟨c, hmem, hc⟩) hu'⟩

end

end Steps

end HwCfg

end HardwareIntel.Bluetooth
