import HardwareIntel.FuelGauge.FgConfig

/-!
# Saving the configuration of the fuel gauge

`read_fg_write_sec` reads the configuration that the gauge holds and writes it to the secondary
file, together with what `get_fg_config_table` compares later: checksums of the record and of the
primary file, and the serial number of the battery. Whatever goes wrong in between should be told.

Every step may fail. The name of the power supply, the header of the primary file and the serial
number are files of their own, and a write may be short. The secondary file is not truncated.
-/

namespace HardwareIntel.FuelGauge.SavedConfig

open List Option FgConfig

/-- A run of `read_fg_write_sec`: the files, the configuration that the gauge holds, the steps that
succeed, what `/dev/fg` gives where it is not the gauge, how many bytes of a record can be written,
and the bytes of the record that are never set. -/
structure Saving where
  inputs : Inputs
  held : List UInt8
  length_held : held.length = if inputs.isXpwr then xpwrConfigSize - 2 else tableSize - 2
  psNameRead : Bool
  devRead : Bool
  otherDev : Option (List UInt8)
  secOpened : Bool
  primaryRead : Bool
  serialRead : Bool
  written : ℕ
  garbage : List UInt8
  length_garbage : garbage.length = 13

namespace Saving

variable (e : Saving)

/-- The secondary file after it was opened. -/
def opened : List UInt8 := e.inputs.secondary.getD []

/-- Write a record to the secondary file. -/
def writeRecord (sbuf : List UInt8) : Bool × Option (List UInt8) :=
  (sbuf.length ≤ e.written, some (fill (sbuf.take e.written) e.opened))

/-- The record of the xpwr gauge. The checksum of the primary file is left out if it cannot be
read. -/
def xpwrRecord (buf : List UInt8) : List UInt8 :=
  let pcksum :=
    match if e.primaryRead then readWhole e.inputs.xpwrPrimary xpwrConfigSize else none with
    | some tmp => readAt tmp (xpwrConfigSize - 2) 2
    | none => e.garbage.take 2
  buf ++ pcksum ++ littleEndian 2 (checksum (buf ++ pcksum))

/-- `write_xpwr_sec`: whether it returns 0, and the secondary file. -/
def writeXpwrSec (buf : List UInt8) : Bool × Option (List UInt8) :=
  if e.secOpened then e.writeRecord (e.xpwrRecord buf) else (false, e.inputs.secondary)

/-- The record of the other gauges. -/
def secFileBody (tbl : List UInt8) (pcksum : ℕ) : List UInt8 :=
  tbl ++ (littleEndian 2 (checksum tbl) ++ (littleEndian 2 pcksum ++
    fill (serial e.inputs ++ [0]) e.garbage))

/-- `write_sec_config`: whether it returns 0, and the secondary file. -/
def writeSecConfig (tbl : List UInt8) : Bool × Option (List UInt8) :=
  if e.secOpened then
    match if e.primaryRead then readPrimaryHeader e.inputs.primary else none with
    | none => (false, some e.opened)
    | some (_, pcksum) =>
      if e.serialRead then e.writeRecord (e.secFileBody tbl pcksum) else (false, some e.opened)
  else (false, e.inputs.secondary)

/-- What the read of `DEV_FILE` gives. -/
def readDev : Option (List UInt8) :=
  if e.inputs.isXpwr then readWhole e.otherDev (tableSize - 2)
  else if e.devRead then some e.held else none

/-- `read_fg_write_sec`: whether it returns 0, and the secondary file. -/
def readFgWriteSec : Bool × Option (List UInt8) :=
  if e.psNameRead && e.inputs.isXpwr then
    if e.devRead then e.writeXpwrSec e.held else (false, e.inputs.secondary)
  else
    match e.readDev with
    | none => (false, e.inputs.secondary)
    | some tbl => (true, (e.writeSecConfig tbl).2)

/-- The inputs of `write_fgdev_config` later on. -/
def later (file : Option (List UInt8)) : Inputs :=
  { e.inputs with secondary := file, devWritable := true }

/-- The saved file is the configuration. -/
def Saved (file : Option (List UInt8)) : Prop := ∃ s, file = some s ∧ e.held <+: s

/-- Success means that the configuration is saved, and that it goes back to the gauge. -/
def Law : Prop :=
  (e.readFgWriteSec.1 = true →
    writeFgdevConfig (e.later e.readFgWriteSec.2) = some (.wrote e.held)) ∧
  (¬ e.Saved e.readFgWriteSec.2 → e.readFgWriteSec.1 = false)

/-! ### What is needed -/

/-- The primary file has a right checksum. -/
def RightPrimary : Prop :=
  if e.inputs.isXpwr then
    ∃ p, IsXpwrPrimary e.inputs p ∧ byteSum (p.take 36) = halfAt p 36
  else ∃ p, IsPrimary e.inputs p ∧ 6 ≤ halfAt p 2 ∧ RightChecksum p

/-- A secondary file that holds the configuration, and that is accepted unless the primary file has
this very configuration as well. -/
def Kept (file : Option (List UInt8)) : Prop :=
  ∃ s, file = some s ∧ e.held <+: s ∧
    if e.inputs.isXpwr then
      ∃ p, IsXpwrPrimary e.inputs p ∧
        (IsXpwrSecondary (e.later file) s ∧ byteSum (p.take 36) = halfAt s 36 ∨ e.held = p.take 36)
    else
      (IsSecondary (e.later file) s → IsPrinted e.inputs s) ∧
        ∃ p, IsPrimary e.inputs p ∧
          (Accepted (e.later file) p s ∨ ∃ k, IsFirstMatch e.inputs p k ∧
            e.held = (setConfigInit e.inputs.inCos (tableAt p k)).take 160)

/-- The secondary file if a step of `write_sec_config` fails: it is as it was, or new bytes were
written over the front of it. -/
def leftBehind (tbl : List UInt8) : Option (List UInt8) :=
  if e.secOpened then
    match if e.primaryRead && e.serialRead then readPrimaryHeader e.inputs.primary else none with
    | none => some e.opened
    | some (_, pcksum) => some (fill ((e.secFileBody tbl pcksum).take e.written) e.opened)
  else e.inputs.secondary

/-- All the steps of `write_sec_config` succeed. -/
def AllWritten : Prop :=
  e.secOpened = true ∧ e.primaryRead = true ∧ e.serialRead = true ∧ secFileSize ≤ e.written

/-- The saves that go well, and the failures that are told or that do no harm. -/
def Sound : Prop :=
  if e.inputs.isXpwr ∧ e.psNameRead then
    e.devRead = true → e.secOpened = true → xpwrSecConfigSize ≤ e.written →
      e.primaryRead = true ∨ ∃ p, IsXpwrPrimary e.inputs p ∧
        (halfAt p 36 = halfAt e.garbage 0 ∨ e.held = p.take 36)
  else
    ∀ tbl, e.readDev = some tbl →
      e.inputs.isXpwr = false ∧ e.AllWritten ∨ e.Kept (e.leftBehind tbl)

/-! ### The file that is read later -/

variable {e}

variable {file : Option (List UInt8)}

theorem isPrimary_later {p : List UInt8} : IsPrimary (e.later file) p ↔ IsPrimary e.inputs p :=
  ⟨fun h => { h with }, fun h => { h with }⟩

theorem isXpwrPrimary_later {p : List UInt8} :
    IsXpwrPrimary (e.later file) p ↔ IsXpwrPrimary e.inputs p :=
  ⟨fun h => ⟨h.file, h.whole⟩, fun h => ⟨h.file, h.whole⟩⟩

theorem isFirstMatch_later {p : List UInt8} {k : ℕ} :
    IsFirstMatch (e.later file) p k ↔ IsFirstMatch e.inputs p k :=
  ⟨fun h => ⟨h.whole, h.found, h.first⟩, fun h => ⟨h.whole, h.found, h.first⟩⟩

/-- The configuration that goes back to a gauge with tables. -/
theorem table_restored_iff (hx : e.inputs.isXpwr = false) {p : List UInt8}
    (hp : IsPrimary e.inputs p) (hheader : 6 ≤ halfAt p 2) (hcksum : RightChecksum p) :
    writeFgdevConfig (e.later file) = some (.wrote e.held) ↔
      (∀ s, IsSecondary (e.later file) s → IsPrinted e.inputs s) ∧
        ((∃ s, Accepted (e.later file) p s ∧ e.held = s.take 160) ∨
          (∀ s, ¬ Accepted (e.later file) p s) ∧ ∃ k, IsFirstMatch e.inputs p k ∧
            e.held = (setConfigInit e.inputs.inCos (tableAt p k)).take 160) := by
  have hp' := (@isPrimary_later e file p).mpr hp
  have hwrite : writeFgdevConfig (e.later file) = some (.wrote e.held) ↔
      ∃ table, tableConfig (e.later file) = some (some table) ∧ e.held = table.take 160 := by
    have hnot : (e.later file).isXpwr = false := hx
    rw [writeFgdevConfig, hnot, if_neg Bool.false_ne_true, map_eq_some_iff]
    constructor
    · rintro ⟨config, hconfig, hout⟩
      obtain ⟨-, table, rfl, hheld⟩ := writeDev_eq_wrote.mp hout
      exact ⟨table, hconfig, hheld⟩
    · rintro ⟨table, hconfig, hheld⟩
      exact ⟨some table, hconfig, writeDev_eq_wrote.mpr ⟨rfl, table, rfl, hheld⟩⟩
  rw [hwrite, hp'.tableConfig_eq hheader]
  obtain ⟨⟨s, hs, hbad⟩, hnone⟩ | ⟨hprinted, ⟨s, hs, htable⟩ | ⟨hnot, hpri⟩⟩ :=
    selectConfig_cases (x := e.later file) p (p.take (halfAt p 2)) (decide (RightChecksum p))
  · rw [hnone]
    constructor
    · rintro ⟨table, htable, -⟩
      cases htable
    · rintro ⟨hall, -⟩
      exact absurd (hall s hs) hbad
  · rw [htable]
    constructor
    · rintro ⟨table, htable, hheld⟩
      cases htable
      exact ⟨hprinted, Or.inl ⟨s, hs, by rw [hheld, take_take]; rfl⟩⟩
    · rintro ⟨-, ⟨s', hs', hheld⟩ | ⟨hnot, -⟩⟩
      · obtain rfl := hs.secondary.unique hs'.secondary
        exact ⟨_, rfl, by rw [hheld, take_take]; rfl⟩
      · exact absurd hs (hnot s)
  · rw [hpri]
    constructor
    · rintro ⟨table, htable, hheld⟩
      obtain ⟨hwrong, -⟩ | ⟨-, k, hk, hfound⟩ | ⟨-, -, hrest⟩ := readPriConfig_cases hp' hheader
      · exact absurd hcksum hwrong
      · rw [hfound] at htable
        cases htable
        exact ⟨hprinted, Or.inr ⟨hnot, k, isFirstMatch_later.mp hk, hheld⟩⟩
      · rw [hrest] at htable
        split_ifs at htable
        cases htable
    · rintro ⟨-, ⟨s, hs, -⟩ | ⟨-, k, hk, hheld⟩⟩
      · exact absurd hs (hnot s)
      · refine ⟨_, ?_, hheld⟩
        rw [readPriConfig, decide_eq_true hcksum, if_pos rfl,
          getPrimaryFgConfig_found hp' (isFirstMatch_later.mpr hk)]
        rfl

/-- The configuration that goes back to the xpwr gauge. -/
theorem xpwr_restored_iff (hx : e.inputs.isXpwr = true) {p : List UInt8}
    (hp : IsXpwrPrimary e.inputs p) (hcksum : byteSum (p.take 36) = halfAt p 36) :
    writeFgdevConfig (e.later file) = some (.wrote e.held) ↔
      (∃ s, IsXpwrSecondary (e.later file) s ∧ byteSum (p.take 36) = halfAt s 36 ∧
        e.held = s.take 36) ∨
      (∀ s, IsXpwrSecondary (e.later file) s → byteSum (p.take 36) ≠ halfAt s 36) ∧
        e.held = p.take 36 := by
  have hp' := (@isXpwrPrimary_later e file p).mpr hp
  have hwrite : writeFgdevConfig (e.later file) = some (.wrote e.held) ↔
      ∃ buf, xpwrConfig (e.later file).xpwrPrimary (e.later file).secondary = some buf ∧
        e.held = buf.take 36 := by
    have hyes : (e.later file).isXpwr = true := hx
    rw [writeFgdevConfig, hyes, if_pos rfl, some.injEq, writeDev_eq_wrote]
    exact and_iff_right rfl
  rw [hwrite]
  by_cases hsecondary : ∃ s, IsXpwrSecondary (e.later file) s
  · obtain ⟨s, hs⟩ := hsecondary
    have hunique : ∀ s', IsXpwrSecondary (e.later file) s' → s' = s :=
      fun s' hs' => some.inj (hs'.file.symm.trans hs.file)
    rw [xpwrConfig_secondary hp' hs]
    by_cases heq : byteSum (p.take 36) = halfAt s 36
    · rw [if_pos heq]
      constructor
      · rintro ⟨buf, hbuf, hheld⟩
        cases hbuf
        exact Or.inl ⟨s, hs, heq, by rw [hheld, take_take]; rfl⟩
      · rintro (⟨s', hs', -, hheld⟩ | ⟨hnot, -⟩)
        · obtain rfl := hunique s' hs'
          exact ⟨_, rfl, by rw [hheld, take_take]; rfl⟩
        · exact absurd heq (hnot s hs)
    · rw [if_neg heq]
      constructor
      · rintro ⟨buf, hbuf, hheld⟩
        cases hbuf
        exact Or.inr ⟨fun s' hs' => hunique s' hs' ▸ heq, by rw [hheld, take_take]; rfl⟩
      · rintro (⟨s', hs', heq', -⟩ | ⟨-, hheld⟩)
        · obtain rfl := hunique s' hs'
          exact absurd heq' heq
        · exact ⟨_, rfl, by rw [hheld, take_take]; rfl⟩
  · rw [xpwrConfig_primary hp' (not_exists.mp hsecondary), if_pos hcksum]
    constructor
    · rintro ⟨buf, hbuf, hheld⟩
      cases hbuf
      exact Or.inr ⟨fun s hs => absurd ⟨s, hs⟩ hsecondary, by rw [hheld, take_take]; rfl⟩
    · rintro (⟨s, hs, -⟩ | ⟨-, hheld⟩)
      · exact absurd ⟨s, hs⟩ hsecondary
      · exact ⟨_, rfl, by rw [hheld, take_take]; rfl⟩

theorem held_eq_take_of_prefix {n : ℕ} (hn : e.held.length = n) {s : List UInt8}
    (h : e.held <+: s) : e.held = s.take n := by
  rw [← hn]
  exact prefix_iff_eq_take.mp h

theorem length_held_table (hx : e.inputs.isXpwr = false) : e.held.length = 160 := by
  rw [e.length_held, hx]
  rfl

theorem length_held_xpwr (hx : e.inputs.isXpwr = true) : e.held.length = 36 := by
  rw [e.length_held, hx]
  rfl

/-- The files that hold the configuration and give it back. -/
theorem kept_iff (hright : e.RightPrimary) :
    writeFgdevConfig (e.later file) = some (.wrote e.held) ∧ e.Saved file ↔ e.Kept file := by
  rw [RightPrimary] at hright
  cases hx : e.inputs.isXpwr with
  | true =>
    rw [hx, if_pos rfl] at hright
    obtain ⟨p, hp, hcksum⟩ := hright
    have hlength := length_held_xpwr hx
    simp only [xpwr_restored_iff hx hp hcksum, Kept, Saved, hx, if_true]
    constructor
    · rintro ⟨⟨s', hs', heq, -⟩ | ⟨-, hheld⟩, s, hfile, hprefix⟩
      · obtain rfl := some.inj (hs'.file.symm.trans hfile)
        exact ⟨s', hfile, hprefix, p, hp, Or.inl ⟨hs', heq⟩⟩
      · exact ⟨s, hfile, hprefix, p, hp, Or.inr hheld⟩
    · rintro ⟨s, hfile, hprefix, p', hp', hkept⟩
      obtain rfl := some.inj (hp'.file.symm.trans hp.file)
      refine ⟨?_, s, hfile, hprefix⟩
      by_cases haccepted : IsXpwrSecondary (e.later file) s ∧ byteSum (p'.take 36) = halfAt s 36
      · exact Or.inl ⟨s, haccepted.1, haccepted.2, held_eq_take_of_prefix hlength hprefix⟩
      · refine Or.inr ⟨fun s' hs' heq => haccepted ?_, hkept.resolve_left haccepted⟩
        obtain rfl := some.inj (hs'.file.symm.trans hfile)
        exact ⟨hs', heq⟩
  | false =>
    rw [hx, if_neg Bool.false_ne_true] at hright
    obtain ⟨p, hp, hheader, hcksum⟩ := hright
    have hlength := length_held_table hx
    simp only [table_restored_iff hx hp hheader hcksum, Kept, Saved, hx, Bool.false_eq_true,
      if_false]
    constructor
    · rintro ⟨⟨hprinted, ⟨s', hs', -⟩ | ⟨-, hfound⟩⟩, s, hfile, hprefix⟩
      · obtain rfl := some.inj (hs'.secondary.file.symm.trans hfile)
        exact ⟨s', hfile, hprefix, hprinted s', p, hp, Or.inl hs'⟩
      · exact ⟨s, hfile, hprefix, hprinted s, p, hp, Or.inr hfound⟩
    · rintro ⟨s, hfile, hprefix, hprinted, p', hp', hkept⟩
      obtain rfl := some.inj (hp'.file.symm.trans hp.file)
      refine ⟨⟨fun s' hs' => ?_, ?_⟩, s, hfile, hprefix⟩
      · obtain rfl := some.inj (hs'.file.symm.trans hfile)
        exact hprinted hs'
      · by_cases haccepted : Accepted (e.later file) p' s
        · exact Or.inl ⟨s, haccepted, held_eq_take_of_prefix hlength hprefix⟩
        · refine Or.inr ⟨fun s' hs' => haccepted ?_, hkept.resolve_left haccepted⟩
          obtain rfl := some.inj (hs'.secondary.file.symm.trans hfile)
          exact hs'

/-- Success has to leave a file that is good. -/
theorem law_iff (hright : e.RightPrimary) :
    e.Law ↔ (e.readFgWriteSec.1 = true → e.Kept e.readFgWriteSec.2) := by
  rw [Law, ← kept_iff hright]
  constructor
  · rintro ⟨hrestored, htold⟩ hret
    refine ⟨hrestored hret, ?_⟩
    by_contra hsaved
    rw [htold hsaved] at hret
    exact Bool.false_ne_true hret
  · intro h
    refine ⟨fun hret => (h hret).1, fun hsaved => ?_⟩
    rw [← Bool.not_eq_true]
    exact fun hret => hsaved (h hret).2

/-! ### The records -/

theorem length_serial (x : Inputs) : (serial x).length ≤ 12 := by
  have htake : (x.serialNum.take 12).length ≤ 12 := by
    rw [length_take]
    exact Nat.min_le_left _ _
  exact ((List.takeWhile_prefix _).length_le).trans htake

theorem length_serialField : (fill (serial e.inputs ++ [0]) e.garbage).length = 13 := by
  have hserial := length_serial e.inputs
  rw [length_fill, e.length_garbage]
  rw [e.length_garbage, length_append, length_singleton]
  omega

theorem cString_serialField :
    cString (fill (serial e.inputs ++ [0]) e.garbage) = serial e.inputs := by
  rw [fill, append_assoc, singleton_append]
  exact cString_append (zero_notMem_cString _) _

theorem length_secFileBody (hx : e.inputs.isXpwr = false) (pcksum : ℕ) :
    (e.secFileBody e.held pcksum).length = secFileSize := by
  simp only [secFileBody, length_append, length_held_table hx, length_littleEndian,
    length_serialField]
  rfl

/-- A record that was written as a whole is accepted. -/
theorem table_record_accepted (hx : e.inputs.isXpwr = false) (hbattid : SameBattid e.inputs e.held)
    (p old : List UInt8) :
    let s := fill (e.secFileBody e.held (halfAt p 4)) old
    Accepted (e.later (some s)) p s ∧ IsPrinted e.inputs s ∧ e.held <+: s := by
  intro s
  have hlength := length_held_table hx
  have hs : s = e.held ++ (littleEndian 2 (checksum e.held) ++ (littleEndian 2 (halfAt p 4) ++
      (fill (serial e.inputs ++ [0]) e.garbage ++ old.drop secFileSize))) := by
    rw [← length_secFileBody hx (halfAt p 4)]
    simp [s, fill, secFileBody]
  have hprefix : e.held <+: s := ⟨_, hs.symm⟩
  have hcksum : halfAt s 160 = byteSum (s.take 160) := by
    rw [← held_eq_take_of_prefix hlength hprefix, hs]
    exact halfAt_middle hlength (byteSum_lt _) _
  have hpcksum : halfAt s 162 = halfAt p 4 := by
    rw [hs, ← append_assoc]
    refine halfAt_middle ?_ (halfAt_lt p 4) _
    rw [length_append, hlength, length_littleEndian]
  have hfield : readAt s 164 13 = fill (serial e.inputs ++ [0]) e.garbage := by
    rw [hs, ← append_assoc, ← append_assoc]
    refine readAt_middle ?_ length_serialField _
    simp [hlength]
  have hwhole : secFileSize ≤ s.length := by
    simp only [hs, length_append, hlength, length_littleEndian, length_serialField, secFileSize]
    omega
  have hsame : SameBattid e.inputs s := by
    rw [SameBattid, hs, readAt_append_left (by omega)]
    exact hbattid
  have hprinted : IsPrinted e.inputs s := by
    have hdrop : (s.take secFileSize).drop 164 = readAt s 164 13 := drop_take
    rw [IsPrinted, if_pos hsame, hdrop, hfield, fill]
    exact mem_append_left _ (mem_append_right _ (mem_singleton_self 0))
  refine ⟨⟨⟨rfl, hwhole, hcksum.symm⟩, hsame, ?_, hpcksum⟩, hprinted, hprefix⟩
  rw [hfield]
  exact cString_serialField

/-- The checksum of the primary file in a record of the xpwr gauge. -/
def storedPcksum (e : Saving) (p : List UInt8) : List UInt8 :=
  if e.primaryRead then readAt p 36 2 else e.garbage.take 2

theorem length_storedPcksum {p : List UInt8} (hp : IsXpwrPrimary e.inputs p) :
    (e.storedPcksum p).length = 2 := by
  have hwhole := hp.whole
  rw [storedPcksum]
  split_ifs
  · exact length_readAt_of_le hwhole
  · rw [length_take, e.length_garbage]
    rfl

theorem xpwrRecord_eq {p : List UInt8} (hp : IsXpwrPrimary e.inputs p) :
    e.xpwrRecord e.held = e.held ++ (e.storedPcksum p ++
      littleEndian 2 (checksum (e.held ++ e.storedPcksum p))) := by
  have hread := readWhole_eq_some.mpr ⟨p, hp.file, hp.whole, rfl⟩
  have hpart : readAt (p.take xpwrConfigSize) (xpwrConfigSize - 2) 2 = readAt p 36 2 := by
    rw [show p.take xpwrConfigSize = readAt p 0 xpwrConfigSize from rfl, readAt_readAt (by decide)]
    rfl
  rw [xpwrRecord, ← append_assoc, storedPcksum]
  cases e.primaryRead with
  | true => simp only [if_true, hread, hpart]
  | false => rfl

theorem length_xpwrRecord (hx : e.inputs.isXpwr = true) {p : List UInt8}
    (hp : IsXpwrPrimary e.inputs p) : (e.xpwrRecord e.held).length = xpwrSecConfigSize := by
  simp only [xpwrRecord_eq hp, length_append, length_held_xpwr hx, length_storedPcksum hp,
    length_littleEndian]
  rfl

/-- A record that was written as a whole has a right checksum. -/
theorem xpwr_record_secondary (hx : e.inputs.isXpwr = true) {p : List UInt8}
    (hp : IsXpwrPrimary e.inputs p) (old : List UInt8) :
    let s := fill (e.xpwrRecord e.held) old
    IsXpwrSecondary (e.later (some s)) s ∧ e.held <+: s ∧
      halfAt s 36 = ofLittleEndian (e.storedPcksum p) := by
  intro s
  have hlength := length_held_xpwr hx
  have hstored := length_storedPcksum hp
  have hs : s = e.held ++ (e.storedPcksum p ++
      (littleEndian 2 (checksum (e.held ++ e.storedPcksum p)) ++ old.drop xpwrSecConfigSize)) := by
    rw [← length_xpwrRecord hx hp]
    simp [s, fill, xpwrRecord_eq hp]
  have hfront : s.take 38 = e.held ++ e.storedPcksum p := by
    have htwo : (e.held ++ e.storedPcksum p).length = 38 := by
      rw [length_append, hlength, hstored]
    rw [hs, ← append_assoc, ← htwo, take_left]
  have hcksum : halfAt s 38 = byteSum (s.take 38) := by
    rw [hfront, hs, ← append_assoc]
    refine halfAt_middle ?_ (byteSum_lt _) _
    rw [length_append, hlength, hstored]
  have hwhole : xpwrSecConfigSize ≤ s.length := by
    simp only [hs, length_append, hlength, hstored, length_littleEndian, xpwrSecConfigSize]
    omega
  refine ⟨⟨rfl, hwhole, hcksum.symm⟩, ⟨_, hs.symm⟩, ?_⟩
  rw [halfAt, hs, readAt_middle hlength hstored]

/-- A whole record of the xpwr gauge is good if it has the checksum of the primary file. -/
theorem xpwr_record_kept_iff (hx : e.inputs.isXpwr = true) {p : List UInt8}
    (hp : IsXpwrPrimary e.inputs p) (hcksum : byteSum (p.take 36) = halfAt p 36)
    (old : List UInt8) :
    e.Kept (some (fill (e.xpwrRecord e.held) old)) ↔
      e.primaryRead = true ∨ ∃ p, IsXpwrPrimary e.inputs p ∧
        (halfAt p 36 = halfAt e.garbage 0 ∨ e.held = p.take 36) := by
  obtain ⟨hsecondary, hprefix, hstored⟩ := xpwr_record_secondary hx hp old
  have hunique : ∀ p', IsXpwrPrimary e.inputs p' → p' = p :=
    fun p' hp' => some.inj (hp'.file.symm.trans hp.file)
  rw [storedPcksum] at hstored
  rw [Kept]
  simp only [hx, if_true]
  constructor
  · rintro ⟨s, hs, -, p', hp', hkept⟩
    obtain rfl := some.inj hs
    obtain rfl := hunique p' hp'
    cases hread : e.primaryRead with
    | true => exact Or.inl rfl
    | false =>
      rw [hread, if_neg Bool.false_ne_true] at hstored
      refine Or.inr ⟨p', hp, hkept.imp_left fun h => ?_⟩
      rw [← hcksum, h.2, hstored]
      rfl
  · intro h
    refine ⟨_, rfl, hprefix, p, hp, ?_⟩
    cases hread : e.primaryRead with
    | true =>
      rw [hread, if_pos rfl] at hstored
      exact Or.inl ⟨hsecondary, hcksum.trans hstored.symm⟩
    | false =>
      rw [hread, if_neg Bool.false_ne_true] at hstored
      rw [hread] at h
      obtain ⟨p', hp', hleft⟩ := h.resolve_left Bool.false_ne_true
      obtain rfl := hunique p' hp'
      refine hleft.imp_left fun heq => ⟨hsecondary, ?_⟩
      rw [hcksum, heq, hstored]
      rfl

/-! ### The whole save -/

/-- A short write leaves the record unfinished, and is told. -/
theorem writeRecord_fst (sbuf : List UInt8) :
    (e.writeRecord sbuf).1 = true ↔ sbuf.length ≤ e.written := decide_eq_true_iff

theorem writeRecord_snd {sbuf : List UInt8} (h : sbuf.length ≤ e.written) :
    (e.writeRecord sbuf).2 = some (fill sbuf e.opened) := by
  rw [writeRecord, take_of_length_le h]

theorem writeSecConfig_snd (tbl : List UInt8) : (e.writeSecConfig tbl).2 = e.leftBehind tbl := by
  rw [writeSecConfig, leftBehind]
  cases e.secOpened <;> cases e.primaryRead <;> cases e.serialRead <;>
    cases readPrimaryHeader e.inputs.primary <;> rfl

/-- The file after all steps have succeeded. -/
theorem leftBehind_of_allWritten (hx : e.inputs.isXpwr = false) {p : List UInt8}
    (hp : IsPrimary e.inputs p) (h : e.AllWritten) :
    e.leftBehind e.held = some (fill (e.secFileBody e.held (halfAt p 4)) e.opened) := by
  obtain ⟨hopened, hprimary, hserial, hwritten⟩ := h
  rw [← length_secFileBody hx (halfAt p 4)] at hwritten
  simp only [leftBehind, hopened, hprimary, hserial, Bool.and_self, if_true,
    hp.readPrimaryHeader, take_of_length_le hwritten]

theorem kept_of_allWritten (hx : e.inputs.isXpwr = false) (hbattid : SameBattid e.inputs e.held)
    (hright : e.RightPrimary) (h : e.AllWritten) : e.Kept (e.leftBehind e.held) := by
  rw [RightPrimary, hx, if_neg Bool.false_ne_true] at hright
  obtain ⟨p, hp, -, -⟩ := hright
  obtain ⟨haccepted, hprinted, hprefix⟩ := table_record_accepted hx hbattid p e.opened
  rw [leftBehind_of_allWritten hx hp h, Kept]
  refine ⟨_, rfl, hprefix, ?_⟩
  rw [hx, if_neg Bool.false_ne_true]
  exact ⟨fun _ => hprinted, p, hp, Or.inl haccepted⟩

/-- A save of the xpwr gauge. -/
theorem xpwr_law_iff (hx : e.inputs.isXpwr = true) (hname : e.psNameRead = true)
    (hright : e.RightPrimary) : e.Law ↔ e.Sound := by
  have hsave : e.readFgWriteSec =
      if e.devRead then e.writeXpwrSec e.held else (false, e.inputs.secondary) := by
    rw [readFgWriteSec, hx, hname, Bool.and_self, if_pos rfl]
  rw [law_iff hright, Sound, if_pos ⟨hx, hname⟩, hsave, writeXpwrSec]
  rw [RightPrimary, hx, if_pos rfl] at hright
  obtain ⟨p, hp, hcksum⟩ := hright
  cases e.devRead with
  | false => simp
  | true =>
    cases e.secOpened with
    | false => simp
    | true =>
      have hlength := length_xpwrRecord hx hp
      simp only [if_true, forall_const]
      rw [writeRecord_fst, hlength]
      refine forall_congr' fun hwritten => ?_
      rw [writeRecord_snd (by rwa [hlength]), xpwr_record_kept_iff hx hp hcksum]

/-- A save that goes through `write_sec_config`. -/
theorem table_law_iff (hbranch : ¬ (e.inputs.isXpwr = true ∧ e.psNameRead = true))
    (hright : e.RightPrimary)
    (hbattid : e.inputs.isXpwr = false → SameBattid e.inputs e.held) : e.Law ↔ e.Sound := by
  have hsave : e.readFgWriteSec =
      match e.readDev with
      | none => (false, e.inputs.secondary)
      | some tbl => (true, (e.writeSecConfig tbl).2) := by
    rw [readFgWriteSec, if_neg]
    rw [Bool.and_eq_true]
    exact fun h => hbranch ⟨h.2, h.1⟩
  rw [law_iff hright, Sound, if_neg hbranch, hsave]
  cases hdev : e.readDev with
  | none => simp
  | some tbl =>
    simp only [writeSecConfig_snd, forall_const, some.injEq, forall_eq']
    refine ⟨Or.inr, fun h => h.elim (fun hall => ?_) id⟩
    have hheld : tbl = e.held := by
      rw [readDev, hall.1, if_neg Bool.false_ne_true] at hdev
      split_ifs at hdev
      exact (some.inj hdev).symm
    rw [hheld]
    exact kept_of_allWritten hall.1 (hbattid hall.1) hright hall.2

end Saving

open Saving in
/-- What is reported as saved is saved if and only if the failures that are not told do no harm. -/
theorem law_iff_sound (e : Saving) (hright : e.RightPrimary)
    (hbattid : e.inputs.isXpwr = false → SameBattid e.inputs e.held) : e.Law ↔ e.Sound := by
  by_cases hbranch : e.inputs.isXpwr = true ∧ e.psNameRead = true
  · exact xpwr_law_iff hbranch.1 hbranch.2 hright
  · exact table_law_iff hbranch hright hbattid

/-- A save for a gauge with tables where the secondary file cannot be opened. The primary file has
no table. -/
def unopened : Saving where
  inputs :=
    { isXpwr := false
      primary := some [0, 0, 8, 0, 8, 0, 0, 0]
      xpwrPrimary := none
      secondary := none
      psName := []
      battid := []
      serialNum := []
      inCos := false
      devWritable := true }
  held := List.replicate 160 0
  length_held := List.length_replicate
  psNameRead := true
  devRead := true
  otherDev := none
  secOpened := false
  primaryRead := true
  serialRead := true
  written := 0
  garbage := List.replicate 13 0
  length_garbage := List.length_replicate

theorem unopened_rightPrimary : unopened.RightPrimary :=
  ⟨[0, 0, 8, 0, 8, 0, 0, 0], ⟨rfl, by decide, by decide, by decide⟩, by decide, by decide⟩

/-- The save is reported as a success. -/
theorem unopened_not_law : unopened.RightPrimary ∧ SameBattid unopened.inputs unopened.held ∧
    ¬ unopened.Law := by
  refine ⟨unopened_rightPrimary, by decide, fun h => ?_⟩
  have hret := h.2 (fun ⟨s, hs, _⟩ => nomatch hs)
  exact absurd hret (by decide)

/-- The same with a battery, when the secondary file can be opened. -/
def restored : Saving :=
  { unopened with
    inputs := { unopened.inputs with battid := [66, 49], serialNum := [83, 49] }
    held := List.replicate 13 0 ++ [66, 49] ++ List.replicate 145 0
    length_held := by simp [unopened, tableSize]
    secOpened := true
    written := 177 }

/-- The configuration is saved, and later it goes back to the gauge. -/
theorem law_iff_sound_restored : (restored.Law ↔ restored.Sound) ∧ restored.readFgWriteSec.1 = true ∧
    writeFgdevConfig (restored.later restored.readFgWriteSec.2) = some (.wrote restored.held) := by
  have hright : restored.RightPrimary :=
    ⟨[0, 0, 8, 0, 8, 0, 0, 0], ⟨rfl, by decide, by decide, by decide⟩, by decide, by decide⟩
  have hiff := law_iff_sound restored hright fun _ => by decide
  have hsound : restored.Sound := by
    rw [Saving.Sound, if_neg (by decide)]
    exact fun _ _ => Or.inl ⟨rfl, rfl, rfl, rfl, le_rfl⟩
  have hsaved : restored.readFgWriteSec.1 = true := by decide
  exact ⟨hiff, hsaved, (hiff.mpr hsound).1 hsaved⟩

end HardwareIntel.FuelGauge.SavedConfig
