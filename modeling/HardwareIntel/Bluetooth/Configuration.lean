import HardwareIntel.Bluetooth.PatchFile
import Mathlib.Data.Prod.Lex

/-!
# The steps of a configuration

`hwConfigCback_spec` says once what a callback does: it sends a command and leaves less work, or it
reports a result and asks for nothing more. So a configuration that is waiting for an event reports
exactly one result, and what it builds are the commands of the driver and those of the file's lines.
-/

namespace HardwareIntel.Bluetooth

open List Option

namespace HwCfg

/-- A command that is not read from a file. -/
def IsFixed (c : Command) : Prop := c.bytes.length ≤ 5 ∧ c.len ≤ 5

/-- What holds between two events. The lines that are sent are known to have the property `R`. -/
structure Valid (R : List UInt8 → Prop) (s : HwCfg) : Prop where
  state : s.state ≠ .intelManufactureOn
  file : s.state = .intelMemwrite → ∃ fp, s.fp = some fp ∧ (fp.eof = true → fp.rest = []) ∧
    ∀ c ∈ commandChunks (chunks fp.rest), R c
  nextState : s.nextState = .success ∨ s.nextState = .intelRdswVersionRecheck
  built : ∀ c ∈ s.built, IsFixed c ∨
    ∃ (line : Line) (chunk : List UInt8), R chunk ∧ c = (line.store chunk).command

/-- How far the configuration is from its end. -/
def rank : HwCfgState → ℕ
  | .intelRdswVersion => 6
  | .intelOpenPatchfile => 5
  | .intelManufactureOn => 5
  | .intelMemwrite => 4
  | .intelRdswVersionRecheck => 2
  | .success => 1
  | .idle => 0
  | .fail => 0

/-- The work that is left: first the states to come, then the lines of the file. -/
def work (s : HwCfg) : ℕ ×ₗ ℕ :=
  toLex (rank s.state, (s.fp.map fun fp => (chunks fp.rest).length).getD 0)

/-- A later state leaves less work. -/
theorem work_lt_of_rank {s t : HwCfg} (h : rank t.state < rank s.state) : t.work < s.work :=
  Prod.Lex.toLex_lt_toLex.mpr (.inl h)

/-- What `proceed` ends with. -/
inductive Outcome (R : List UInt8 → Prop) (s : HwCfg) : HwCfg × Bool → Prop
  | advances {t : HwCfg} (houtstanding : t.outstanding = true) (hvalid : t.Valid R)
      (hreports : t.reports = s.reports) (hwork : t.work < s.work) : Outcome R s (t, true)
  | reported {t : HwCfg} (houtstanding : t.outstanding = false) (hvalid : t.Valid R)
      (hreports : ∃ result, t.reports = s.reports ++ [result]) : Outcome R s (t, true)
  | refused {t : HwCfg} (houtstanding : t.outstanding = false) (hvalid : t.abort.Valid R)
      (hreports : t.reports = s.reports) : Outcome R s (t, false)

section Steps

variable {R : List UInt8 → Prop} {s t : HwCfg} {i : Input}

/-- The reset command is one of the fixed commands. -/
theorem isFixed_hciResetCommand : IsFixed hciResetCommand := by
  constructor <;> decide

/-- So is the command that asks for the version. -/
theorem isFixed_rdswVersionCommand : IsFixed rdswVersionCommand := by
  constructor <;> decide

/-- So is the command that opens and closes the memory. -/
theorem isFixed_manufactureCommand (on patchEnabled : UInt8) :
    IsFixed (manufactureCommand on patchEnabled) := ⟨le_rfl, le_rfl⟩

/-- Giving up keeps what is valid. -/
theorem Valid.abort (hvalid : s.Valid R) : s.abort.Valid R :=
  ⟨HwCfgState.noConfusion, HwCfgState.noConfusion, hvalid.nextState, hvalid.built⟩

/-- A command is sent, or `xmit_cb` refuses it. -/
theorem Valid.transmit {c : Command} (hvalid : t.Valid R) (hreports : t.reports = s.reports)
    (hwork : t.work < s.work)
    (hc : IsFixed c ∨ ∃ (line : Line) (chunk : List UInt8), R chunk ∧ c = (line.store chunk).command)
    (xmit : Bool) : Outcome R s (t.transmit c xmit) := by
  have hvalid' : (t.transmit c xmit).1.Valid R :=
    ⟨hvalid.state, hvalid.file, hvalid.nextState, fun c' hc' => by
      rcases mem_append.mp hc' with hc' | hc'
      · exact hvalid.built c' hc'
      · exact mem_singleton.mp hc' ▸ hc⟩
  cases xmit with
  | true => exact .advances rfl hvalid' hreports hwork
  | false => exact .refused rfl hvalid'.abort hreports

section

variable (hvalid : s.Valid R)
include hvalid

/-- A report ends the configuration. -/
theorem Valid.report (houtstanding : s.outstanding = false) (result : Bool) :
    Outcome R s (s.report result, true) :=
  .reported houtstanding { hvalid with } ⟨result, rfl⟩

/-- Manufacture mode is switched off; what is left of the file does not matter any more. -/
theorem Valid.manufactureModeOff (hstate : s.state = .intelMemwrite)
    (hnext : t.nextState = .success ∨ t.nextState = .intelRdswVersionRecheck)
    (hbuilt : t.built = s.built) (hreports : t.reports = s.reports) (xmit : Bool) :
    Outcome R s (t.hwConfigManufactureModeOff xmit) := by
  have hrank : rank t.nextState < rank s.state := by
    rcases hnext with h | h <;> rw [h, hstate] <;> decide
  have hne : t.nextState ≠ .intelMemwrite ∧ t.nextState ≠ .intelManufactureOn := by
    rcases hnext with h | h <;> rw [h] <;> decide
  have hvalid' : ({ t with state := t.nextState } : HwCfg).Valid R :=
    ⟨hne.2, fun h => absurd h hne.1, hnext, hbuilt ▸ hvalid.built⟩
  exact hvalid'.transmit hreports (work_lt_of_rank hrank) (.inl (isFixed_manufactureCommand _ _)) xmit

/-- Writing a line of the patch file has one of the outcomes. -/
theorem Valid.memwrite (houtstanding : s.outstanding = false) (hstate : s.state = .intelMemwrite)
    (xmit : Bool) :
    ∃ r, s.memwrite xmit = some r ∧ Outcome R s r := by
  obtain ⟨⟨r, eof⟩, hfp, heof, hcommands⟩ := hvalid.file hstate
  rw [HwCfg.memwrite, hfp, bind_eq_bind, bind_some]
  cases eof with
  | true => exact ⟨_, rfl, hvalid.manufactureModeOff hstate hvalid.nextState rfl rfl xmit⟩
  | false =>
    rcases eq_or_ne r [] with rfl | hr
    · -- the line buffer is empty, and no command
      exact ⟨_, rfl, .refused houtstanding hvalid.abort rfl⟩
    · obtain ⟨found, hfound, hfinds⟩ := nextLine_finds hr
      rw [if_neg (by simp), hfound, bind_eq_bind, bind_some]
      cases found with
      | endOfFile =>
        dsimp only
        split
        · refine ⟨_, rfl, ?_⟩
          exact hvalid.manufactureModeOff hstate (by exact .inr rfl) (by rfl) (by rfl) xmit
        · refine ⟨_, rfl, ?_⟩
          exact hvalid.manufactureModeOff hstate (by exact hvalid.nextState) (by rfl) (by rfl) xmit
      | line line fp =>
        obtain ⟨heof', pre, c, line, hchunks, hpre, -, rfl⟩ := hfinds.line_inv
        dsimp only at hcommands ⊢
        rw [hchunks, commandChunks_append _ hpre] at hcommands
        split
        · rename_i hcommand
          have hmem : c ∈ chunks r := hchunks ▸ mem_append_right _ (mem_cons_self ..)
          rw [isCommand_store line (mem_chunks hmem).1] at hcommand
          rw [commandChunks_cons _ hcommand, forall_mem_cons] at hcommands
          have hvalid' : Valid R
              { s with fp := some fp, fwPatchfileEmpty := true, state := .intelMemwrite } :=
            ⟨HwCfgState.noConfusion, fun _ => ⟨fp, rfl, heof', hcommands.2⟩, hvalid.nextState, hvalid.built⟩
          refine ⟨_, rfl, hvalid'.transmit (by rfl) (Prod.Lex.toLex_lt_toLex.mpr (.inr ⟨?_, ?_⟩))
            (.inr ⟨line, c, hcommands.1, rfl⟩) xmit⟩
          · exact congrArg rank hstate.symm
          · have hlength := congrArg List.length hchunks
            rw [length_append, length_cons] at hlength
            rw [hfp, map_some, map_some, getD_some, getD_some]
            dsimp only
            omega
        · exact ⟨_, rfl, .refused houtstanding hvalid.abort rfl⟩

/-- So has the change to manufacturer mode. -/
theorem Valid.manufactureOn (hreports : s.reports = t.reports)
    (hrank : rank .intelMemwrite < rank t.state)
    (hfile : ∃ fp, s.fp = some fp ∧ (fp.eof = true → fp.rest = []) ∧ ∀ c ∈ commandChunks (chunks fp.rest), R c)
    (xmit : Bool) :
    Outcome R t (s.manufactureOn xmit) :=
  Valid.transmit (t := { s with state := .intelMemwrite })
    ⟨HwCfgState.noConfusion, fun _ => hfile, hvalid.nextState, hvalid.built⟩ hreports (work_lt_of_rank hrank)
    (.inl (isFixed_manufactureCommand _ _)) xmit

/-- So has opening the patch file. -/
theorem Valid.openPatchfile (houtstanding : s.outstanding = false)
    (hrank : rank .intelMemwrite < rank s.state)
    (hfile : ∀ content, i.patchfile = some (some content) → ∀ c ∈ commandChunks (chunks content), R c) :
    Outcome R s (s.openPatchfile i) := by
  rw [HwCfg.openPatchfile]
  cases hpatchfile : i.patchfile with
  | none => exact hvalid.report houtstanding true
  | some opened =>
    cases opened with
    | none => exact .refused houtstanding hvalid.abort rfl
    | some content =>
      have hstate : s.state ≠ .intelMemwrite := fun h => absurd (h ▸ hrank) (lt_irrefl _)
      have hvalid' : ({ s with fp := some ⟨content, false⟩ } : HwCfg).Valid R :=
        { hvalid with file := fun h => absurd h hstate }
      exact hvalid'.manufactureOn (by rfl) hrank
        ⟨_, rfl, fun h => absurd h Bool.false_ne_true, hfile content hpatchfile⟩ _

end

/-- Every answered command has one of the outcomes. -/
theorem proceed_spec (usb : Bool) (hvalid : s.Valid R) (houtstanding : s.outstanding = false)
    (hfile : ∀ content, i.patchfile = some (some content) → ∀ c ∈ commandChunks (chunks content), R c) :
    ∃ r, s.proceed usb i = some r ∧ Outcome R s r := by
  rw [proceed]
  cases hstate : s.state with
  | intelRdswVersion =>
    cases usb with
    | true =>
      have hvalid' : ({ s with state := .intelOpenPatchfile } : HwCfg).Valid R :=
        ⟨HwCfgState.noConfusion, HwCfgState.noConfusion, hvalid.nextState, hvalid.built⟩
      refine ⟨_, rfl, hvalid'.transmit (by rfl) (work_lt_of_rank ?_)
        (.inl isFixed_rdswVersionCommand) _⟩
      rw [hstate]
      exact (by decide : rank .intelOpenPatchfile < rank .intelRdswVersion)
    | false => exact ⟨_, rfl, hvalid.openPatchfile houtstanding (by rw [hstate]; decide) hfile⟩
  | intelOpenPatchfile =>
    exact ⟨_, rfl, hvalid.openPatchfile houtstanding (by rw [hstate]; decide) hfile⟩
  | intelManufactureOn => exact absurd hstate hvalid.state
  | intelMemwrite => exact hvalid.memwrite houtstanding hstate i.xmit
  | intelRdswVersionRecheck =>
    have hvalid' : ({ s with state := .success } : HwCfg).Valid R :=
      ⟨HwCfgState.noConfusion, HwCfgState.noConfusion, hvalid.nextState, hvalid.built⟩
    refine ⟨_, rfl, hvalid'.transmit (by rfl) (work_lt_of_rank ?_)
      (.inl isFixed_rdswVersionCommand) _⟩
    rw [hstate]
    exact (by decide : rank .success < rank .intelRdswVersionRecheck)
  | success => exact ⟨_, rfl, hvalid.report houtstanding true⟩
  | fail => exact ⟨_, rfl, hvalid.report houtstanding false⟩
  | idle => exact ⟨_, rfl, .refused houtstanding hvalid.abort rfl⟩

/-- A callback either sends a command, and less is left to do, or it reports a result and the
configuration is over. -/
theorem hwConfigCback_spec (usb : Bool) (hvalid : s.Valid R)
    (hfile : ∀ content, i.patchfile = some (some content) → ∀ c ∈ commandChunks (chunks content), R c) :
    ∃ t, s.hwConfigCback usb i = some t ∧ t.Valid R ∧
      (t.outstanding = true ∧ t.reports = s.reports ∧ t.work < s.work ∨
        t.outstanding = false ∧ ∃ result, t.reports = s.reports ++ [result]) := by
  have hvalid' : ({ s with outstanding := false } : HwCfg).Valid R :=
    { hvalid with }
  rw [hwConfigCback]
  split
  · obtain ⟨⟨t, isProceeding⟩, hproceed, houtcome⟩ := proceed_spec usb hvalid' rfl hfile
    rw [hproceed, map_some]
    cases houtcome with
    | advances houtstanding hvalid hreports hwork =>
      exact ⟨t, rfl, hvalid, .inl ⟨houtstanding, hreports, hwork⟩⟩
    | reported houtstanding hvalid hreports =>
      exact ⟨t, rfl, hvalid, .inr ⟨houtstanding, hreports⟩⟩
    | refused houtstanding hvalid hreports =>
      exact ⟨t.abort, rfl, hvalid, .inr ⟨houtstanding, false, congrArg (· ++ [false]) hreports⟩⟩
  · exact ⟨_, rfl, hvalid'.abort, .inr ⟨rfl, false, rfl⟩⟩

end Steps

/-! ### Runs -/

/-- The configuration between two events: as long as one is awaited, nothing has been reported. -/
structure Running (R : List UInt8 → Prop) (s : HwCfg) : Prop where
  valid : s.Valid R
  waiting : s.outstanding = true → s.reports = []
  stopped : s.outstanding = false → s.reports.length = 1

section Runs

variable {R : List UInt8 → Prop} {inputs : ℕ → Input}

/-- The first command leads to a valid state. -/
theorem valid_hwConfigStart (R : List UInt8 → Prop) (s : HwCfg) (alloc xmit : Bool) :
    (s.hwConfigStart alloc xmit).Valid R := by
  rw [hwConfigStart]
  split
  · refine ⟨HwCfgState.noConfusion, HwCfgState.noConfusion, .inl rfl, fun c hc => ?_⟩
    rw [mem_singleton.mp hc]
    exact .inl isFixed_hciResetCommand
  · exact ⟨HwCfgState.noConfusion, HwCfgState.noConfusion, .inl rfl,
      fun c hc => absurd hc not_mem_nil⟩

/-- With it the configuration runs, unless it could not be sent. -/
theorem running_hwConfigStart (R : List UInt8 → Prop) (s : HwCfg) {alloc xmit : Bool}
    (h : ¬(alloc = true ∧ xmit = false)) : (s.hwConfigStart alloc xmit).Running R := by
  refine ⟨valid_hwConfigStart R s alloc xmit, ?_, ?_⟩
  · cases alloc <;> simp [hwConfigStart, HwCfg.transmit, HwCfg.report]
  · cases alloc <;> cases xmit <;> simp_all [hwConfigStart, HwCfg.transmit, HwCfg.report]

/-- Each answer is handled, keeps it running and leaves less work. -/
theorem Running.step {s : HwCfg} {i : Input} (usb : Bool) (hrunning : s.Running R)
    (houtstanding : s.outstanding = true)
    (hfile : ∀ content, i.patchfile = some (some content) → ∀ c ∈ commandChunks (chunks content), R c) :
    ∃ t, s.hwConfigCback usb i = some t ∧ t.Running R ∧ (t.outstanding = true → t.work < s.work) := by
  obtain ⟨t, hstep, hvalid, hcases⟩ := hwConfigCback_spec usb hrunning.valid hfile
  refine ⟨t, hstep, ?_⟩
  rw [hrunning.waiting houtstanding] at hcases
  rcases hcases with ⟨ht, hreports, hwork⟩ | ⟨ht, result, hreports⟩
  · exact ⟨⟨hvalid, fun _ => hreports, fun h => Bool.noConfusion (ht.symm.trans h)⟩, fun _ => hwork⟩
  · exact ⟨⟨hvalid, fun h => absurd (ht.symm.trans h) Bool.false_ne_true, fun _ => by rw [hreports]; rfl⟩,
      fun h => absurd (ht.symm.trans h) Bool.false_ne_true⟩

/-- Exactly one result is reported, unless the reset is refused. -/
theorem reports_once_iff (usb : Bool) (s : HwCfg) (alloc xmit : Bool) (inputs : ℕ → Input) :
    (∃ k, ∀ j, k ≤ j → ∃ t, s.configuration usb alloc xmit inputs j = some t ∧
      t.reports.length = 1) ↔ ¬(alloc = true ∧ xmit = false) := by
  constructor
  · rintro ⟨k, hk⟩ ⟨rfl, rfl⟩
    obtain ⟨t, ht, hreports⟩ := hk k le_rfl
    have hstart : s.configuration usb true false inputs k = some (s.hwConfigStart true false) :=
      driven_of_not_active rfl rfl (Nat.zero_le k)
    obtain rfl := some.inj (hstart.symm.trans ht)
    exact absurd hreports (by simp [hwConfigStart, HwCfg.transmit])
  · intro h
    have hstep : ∀ t k, Running (fun _ => True) t → t.outstanding = true →
        ∃ u, t.hwConfigCback usb (inputs k) = some u ∧ u.Running (fun _ => True) ∧
          (u.outstanding = true → u.work < t.work) :=
      fun t k hrunning houtstanding => hrunning.step usb houtstanding fun _ _ _ _ => trivial
    obtain ⟨k, t, ht, houtstanding, hrunning⟩ := driven_ends (running_hwConfigStart _ s h) hstep
    exact ⟨k, fun j hj => ⟨t, driven_of_not_active ht houtstanding hj, hrunning.stopped houtstanding⟩⟩

/-- What has been built in a run comes from lines with the property `R`. -/
theorem configuration_valid {usb alloc xmit : Bool} {s t : HwCfg} {k : ℕ}
    (hfile : ∀ k content, (inputs k).patchfile = some (some content) →
      ∀ c ∈ commandChunks (chunks content), R c)
    (h : s.configuration usb alloc xmit inputs k = some t) : t.Valid R := by
  have hstep : ∀ t k, Valid R t → t.outstanding = true →
      ∃ u, t.hwConfigCback usb (inputs k) = some u ∧ u.Valid R := by
    intro t k hvalid _
    obtain ⟨u, hu, hvalid', -⟩ := hwConfigCback_spec usb hvalid (hfile k)
    exact ⟨u, hu, hvalid'⟩
  obtain ⟨u, hu, hvalid⟩ := driven_invariant (valid_hwConfigStart R s alloc xmit) hstep k
  exact some.inj (h.symm.trans hu) ▸ hvalid

end Runs

end HwCfg

end HardwareIntel.Bluetooth
