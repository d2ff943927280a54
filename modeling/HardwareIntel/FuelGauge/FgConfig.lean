import HardwareIntel.Library.ByteFile

/-!
# The configuration of the fuel gauge

`fg_conf_helper` writes a configuration to the fuel gauge (`write_fgdev_config`). It was saved in the
secondary file when the battery was last in use, or it comes from the primary file, which has tables
for all batteries. With the xpwr gauge there is only one table, and only checksums to look at.

A buffer is the list of its bytes, and a function that may read behind the end of one has `none` for
that. The strings that are printed are read as well. The two reads of the primary file are taken to
give the same bytes, and `battid`, which is not read from a file, to end somewhere.
-/

namespace HardwareIntel.FuelGauge.FgConfig

open List Option

/-- The size of `primary_header`. -/
def headerSize : ℕ := 8

/-- The size of `table_body`. -/
def tableSize : ℕ := 162

/-- The size of `sec_file_body`. -/
def secFileSize : ℕ := 177

/-- `MAX_PRIM_FILE_SIZE` -/
def maxPrimFileSize : ℕ := headerSize + 15 * tableSize

/-- `XPWR_CONFIG_SIZE` -/
def xpwrConfigSize : ℕ := 38

/-- `XPWR_SEC_CONFIG_SIZE` -/
def xpwrSecConfigSize : ℕ := 40

def checksum (buf : List UInt8) : ℕ := byteSum buf

/-- Read a string to its end. -/
def readString (buf : List UInt8) : Option (List UInt8) :=
  if 0 ∈ buf then some (cString buf) else none

/-- Read a string of at most `n` characters. -/
def readStringN (n : ℕ) (buf : List UInt8) : Option (List UInt8) :=
  if 0 ∈ buf.take n ∨ n ≤ buf.length then some (cString (buf.take n)) else none

/-- The files, which may be missing, the name of the power supply, the id and the serial number of
the battery, whether the device is booted for charging, and whether the gauge can be written to. -/
structure Inputs where
  isXpwr : Bool
  primary : Option (List UInt8)
  xpwrPrimary : Option (List UInt8)
  secondary : Option (List UInt8)
  psName : List UInt8
  battid : List UInt8
  serialNum : List UInt8
  inCos : Bool
  devWritable : Bool

/-- How `write_fgdev_config` returns: with an error, or with 0 after it has written bytes. -/
inductive Outcome
  | error
  | wrote (bytes : List UInt8)
  deriving DecidableEq

/-! ### The xpwr gauge -/

/-- A read that has to give a number of bytes. -/
def readWhole (file : Option (List UInt8)) (size : ℕ) : Option (List UInt8) :=
  file.bind fun file => if size ≤ file.length then some (file.take size) else none

/-- The buffer of the secondary file, if its checksum is right. -/
def xpwrSecondary (secondary : Option (List UInt8)) : Option (List UInt8) :=
  (readWhole secondary xpwrSecConfigSize).filter fun sbuf =>
    checksum (sbuf.take (xpwrSecConfigSize - 2)) = halfAt sbuf (xpwrSecConfigSize - 2)

/-- The part of `get_fg_config_table` for the xpwr gauge: the buffer that is written. -/
def xpwrConfig (primary secondary : Option (List UInt8)) : Option (List UInt8) :=
  (readWhole primary xpwrConfigSize).bind fun pbuf =>
    let pcksum := checksum (pbuf.take (xpwrConfigSize - 2))
    let useSecFile := xpwrSecondary secondary
    if pcksum ≠ halfAt pbuf (xpwrConfigSize - 2) ∧ useSecFile = none then none
    else match useSecFile with
      | some sbuf =>
        if pcksum = halfAt sbuf (xpwrSecConfigSize - 4) then some sbuf else some pbuf
      | none => some pbuf

/-! ### The other gauges -/

/-- `read_primary_header`: the size and the checksum in the header. -/
def readPrimaryHeader (primary : Option (List UInt8)) : Option (ℕ × ℕ) :=
  (readWhole primary headerSize).bind fun header =>
    if halfAt header 2 ≤ maxPrimFileSize then some (halfAt header 2, halfAt header 4) else none

/-- `is_prim_cksum_ok`: the checksum of the buffer with zeros in place of its own checksum. -/
def isPrimCksumOk (buf : List UInt8) : Option Bool :=
  if 6 ≤ buf.length then
    some (checksum (buf.take 4 ++ [0, 0] ++ buf.drop 6) = halfAt buf 4)
  else none

/-- `is_sec_cksum_ok` -/
def isSecCksumOk (sbuf : List UInt8) : Bool :=
  checksum (sbuf.take (tableSize - 2)) = halfAt sbuf (tableSize - 2)

/-- The name and the battery id of a table. -/
def matchesTable (x : Inputs) (table : List UInt8) : Prop :=
  cString (readAt table 5 8) = cString (x.psName.take 8) ∧
    cString (readAt table 13 2) = cString (x.battid.take 2)

instance (x : Inputs) (table : List UInt8) : Decidable (matchesTable x table) := instDecidableAnd

/-- The loop of `get_primary_fg_config`, from a position in the buffer on. Every iteration raises the
position. -/
def findTable (x : Inputs) (pbuf : List UInt8) : ℕ → ℕ → Option (Option (List UInt8))
  | 0, _ => some none
  | fuel + 1, size =>
    if size < halfAt pbuf 2 then
      let table := pbuf.drop size
      (readStringN 8 (table.drop 5)).bind fun _ =>
        (readStringN 8 (table.drop 13)).bind fun _ =>
          if matchesTable x table then
            if tableSize ≤ table.length then some (some (table.take tableSize)) else none
          else findTable x pbuf fuel (size + tableSize)
    else some none

/-- `get_primary_fg_config` -/
def getPrimaryFgConfig (x : Inputs) (pbuf : List UInt8) : Option (Option (List UInt8)) :=
  findTable x pbuf pbuf.length headerSize

/-- Set `config_init` when the device is booted for charging. -/
def setConfigInit (inCos : Bool) (table : List UInt8) : List UInt8 :=
  if inCos then table.set 21 1 else table

/-- The serial number as a string. -/
def serial (x : Inputs) : List UInt8 := cString (x.serialNum.take 12)

/-- The comparisons with a secondary file that has a right checksum, and what is printed if it is
for another battery. -/
def acceptsSecondary (x : Inputs) (sbuf : List UInt8) (pcksum : ℕ) : Option Bool :=
  if cString (readAt sbuf 13 2) ≠ cString (x.battid.take 2) then
    (readString (sbuf.drop 13)).map fun _ => false
  else
    (readString (sbuf.drop 164)).map fun serialNum =>
      if serialNum.length ≠ (serial x).length ∨
        serialNum.take (serial x).length ≠ serial x then false
      else pcksum = halfAt sbuf 162

/-- The label `read_pri_config`. -/
def readPriConfig (x : Inputs) (pbuf : List UInt8) (isPcksumOk : Bool) :
    Option (Option (List UInt8)) :=
  if isPcksumOk then (getPrimaryFgConfig x pbuf).map (Option.map (setConfigInit x.inCos))
  else some none

/-- The choice between the files once the primary file was read. -/
def selectConfig (x : Inputs) (pbuf : List UInt8) (pcksum : ℕ) (isPcksumOk : Bool) :
    Option (Option (List UInt8)) :=
  match readWhole x.secondary secFileSize with
  | none => readPriConfig x pbuf isPcksumOk
  | some sbuf =>
    if !isPcksumOk && !isSecCksumOk sbuf then some none
    else if !isSecCksumOk sbuf then readPriConfig x pbuf isPcksumOk
    else
      (acceptsSecondary x sbuf pcksum).bind fun accepted =>
        if accepted then some (some (sbuf.take tableSize)) else readPriConfig x pbuf isPcksumOk

/-- The part of `get_fg_config_table` for the other gauges: the table that is written. -/
def tableConfig (x : Inputs) : Option (Option (List UInt8)) :=
  match readPrimaryHeader x.primary with
  | none => some none
  | some (fileSize, pcksum) =>
    match readWhole x.primary fileSize with
    | none => some none
    | some pbuf => (isPrimCksumOk pbuf).bind (selectConfig x pbuf pcksum)

/-- The bytes that go to the gauge. -/
def writeDev (x : Inputs) (size : ℕ) : Option (List UInt8) → Outcome
  | some buf => if x.devWritable then .wrote (buf.take size) else .error
  | none => .error

def writeFgdevConfig (x : Inputs) : Option Outcome :=
  if x.isXpwr then
    some (writeDev x (xpwrConfigSize - 2) (xpwrConfig x.xpwrPrimary x.secondary))
  else (tableConfig x).map (writeDev x (tableSize - 2))

/-! ### What the files have to say -/

/-- The primary file of the other gauges was read. -/
structure IsPrimary (x : Inputs) (p : List UInt8) : Prop where
  file : x.primary = some p
  header : headerSize ≤ p.length
  max : halfAt p 2 ≤ maxPrimFileSize
  whole : halfAt p 2 ≤ p.length

/-- The checksum of the primary file is right. -/
def RightChecksum (p : List UInt8) : Prop :=
  byteSum ((p.take (halfAt p 2)).take 4 ++ [0, 0] ++ (p.take (halfAt p 2)).drop 6) = halfAt p 4

instance (p : List UInt8) : Decidable (RightChecksum p) := inferInstanceAs (Decidable (_ = _))

/-- The secondary file was read, and its checksum is right. -/
structure IsSecondary (x : Inputs) (s : List UInt8) : Prop where
  file : x.secondary = some s
  whole : secFileSize ≤ s.length
  cksum : byteSum (s.take 160) = halfAt s 160

/-- The secondary file has the id of the battery. -/
def SameBattid (x : Inputs) (s : List UInt8) : Prop :=
  cString (readAt s 13 2) = cString (x.battid.take 2)

instance (x : Inputs) (s : List UInt8) : Decidable (SameBattid x s) :=
  inferInstanceAs (Decidable (_ = _))

/-- The strings of the secondary file that are printed or compared end in the file. -/
def IsPrinted (x : Inputs) (s : List UInt8) : Prop :=
  0 ∈ (s.take secFileSize).drop (if SameBattid x s then 164 else 13)

/-- The secondary file was saved for this battery and this primary file. -/
structure Accepted (x : Inputs) (p s : List UInt8) : Prop where
  secondary : IsSecondary x s
  battid : SameBattid x s
  serial : cString (readAt s 164 13) = serial x
  pcksum : halfAt s 162 = halfAt p 4

/-- A table of the primary file. -/
def tableAt (p : List UInt8) (k : ℕ) : List UInt8 :=
  readAt p (headerSize + tableSize * k) tableSize

/-- The first whole table that matches. -/
structure IsFirstMatch (x : Inputs) (p : List UInt8) (k : ℕ) : Prop where
  whole : headerSize + tableSize * (k + 1) ≤ halfAt p 2
  found : matchesTable x (tableAt p k)
  first : ∀ j < k, ¬ matchesTable x (tableAt p j)

/-- The secondary file of the xpwr gauge was read, and its checksum is right. -/
structure IsXpwrSecondary (x : Inputs) (s : List UInt8) : Prop where
  file : x.secondary = some s
  whole : xpwrSecConfigSize ≤ s.length
  cksum : byteSum (s.take 38) = halfAt s 38

/-- The primary file of the xpwr gauge was read. -/
structure IsXpwrPrimary (x : Inputs) (p : List UInt8) : Prop where
  file : x.xpwrPrimary = some p
  whole : xpwrConfigSize ≤ p.length

/-- Bytes for the gauge that come from a file that was checked. -/
def Validated (x : Inputs) (bytes : List UInt8) : Prop :=
  if x.isXpwr then
    ∃ p, IsXpwrPrimary x p ∧
      ((∃ s, IsXpwrSecondary x s ∧ byteSum (p.take 36) = halfAt s 36 ∧ bytes = s.take 36) ∨
        byteSum (p.take 36) = halfAt p 36 ∧ bytes = p.take 36)
  else
    ∃ p, IsPrimary x p ∧
      ((∃ s, Accepted x p s ∧ bytes = s.take 160) ∨ RightChecksum p ∧ ∃ k, IsFirstMatch x p k ∧
          bytes = (setConfigInit x.inCos (tableAt p k)).take 160)

/-- The number of whole tables in the primary file. -/
def tableCount (p : List UInt8) : ℕ := (halfAt p 2 - headerSize) / tableSize

/-- What is left of the primary file behind the whole tables. -/
def restOfTables (p : List UInt8) : List UInt8 :=
  (p.take (halfAt p 2)).drop (headerSize + tableSize * tableCount p)

/-- There is nothing left, or a table that is cut off, of which the strings are there, and which does
not match. -/
def GoodRest (x : Inputs) (rest : List UInt8) : Prop :=
  rest = [] ∨ (readStringN 8 (rest.drop 5)).isSome ∧ (readStringN 8 (rest.drop 13)).isSome ∧
    ¬ matchesTable x rest

instance (x : Inputs) (rest : List UInt8) : Decidable (GoodRest x rest) :=
  inferInstanceAs (Decidable (_ ∨ _))

/-- The files with which the tables are all right. -/
structure GoodTables (x : Inputs) (p : List UInt8) : Prop where
  header : 6 ≤ halfAt p 2
  printed : ∀ s, IsSecondary x s → IsPrinted x s
  rest : RightChecksum p → (∀ s, ¬ Accepted x p s) → (∀ k, ¬ IsFirstMatch x p k) →
    GoodRest x (restOfTables p)

/-- The files with which the configuration is all right. -/
def GoodFiles (x : Inputs) : Prop :=
  if x.isXpwr then
    ∀ p s, IsXpwrPrimary x p → IsXpwrSecondary x s → byteSum (p.take 36) ≠ halfAt p 36 →
      byteSum (p.take 36) ≠ halfAt s 36 → ¬ x.devWritable
  else ∀ p, IsPrimary x p → GoodTables x p

/-! ### The search in the primary file -/

variable {x : Inputs} {p pbuf : List UInt8} {size : ℕ}

theorem matchesTable_take {l : List UInt8} {n : ℕ} (hn : 15 ≤ n) :
    matchesTable x (l.take n) ↔ matchesTable x l := by
  have htake : l.take n = readAt l 0 n := rfl
  rw [matchesTable, matchesTable, htake, readAt_readAt (by omega), readAt_readAt (by omega),
    Nat.zero_add, Nat.zero_add]

theorem matchesTable_drop {k n : ℕ} (hn : headerSize + tableSize * (k + 1) ≤ n) :
    matchesTable x ((p.take n).drop (headerSize + tableSize * k)) ↔
      matchesTable x (tableAt p k) := by
  rw [drop_take, matchesTable_take (by simp only [headerSize, tableSize] at *; omega),
    ← matchesTable_take (n := tableSize) (by decide)]
  rfl

theorem readStringN_isSome {n : ℕ} {l : List UInt8} (h : n ≤ l.length) :
    readStringN n l = some (cString (l.take n)) := by
  rw [readStringN, if_pos (Or.inr h)]

/-- One iteration of the search. -/
theorem findTable_step (x : Inputs) (pbuf : List UInt8) (fuel size : ℕ) :
    findTable x pbuf (fuel + 1) size =
      if size < halfAt pbuf 2 then
        (readStringN 8 ((pbuf.drop size).drop 5)).bind fun _ =>
          (readStringN 8 ((pbuf.drop size).drop 13)).bind fun _ =>
            if matchesTable x (pbuf.drop size) then
              if tableSize ≤ (pbuf.drop size).length then
                some (some ((pbuf.drop size).take tableSize))
              else none
            else findTable x pbuf fuel (size + tableSize)
      else some none := rfl

/-- A table whose strings can be read is taken if it matches and is there as a whole. -/
theorem findTable_succ {fuel : ℕ} (hsize : size < halfAt pbuf 2)
    (hname : (readStringN 8 (pbuf.drop (size + 5))).isSome)
    (hbattid : (readStringN 8 (pbuf.drop (size + 13))).isSome) :
    findTable x pbuf (fuel + 1) size =
      if matchesTable x (pbuf.drop size) then
        if size + tableSize ≤ pbuf.length then some (some (readAt pbuf size tableSize)) else none
      else findTable x pbuf fuel (size + tableSize) := by
  obtain ⟨name, hname⟩ := isSome_iff_exists.mp hname
  obtain ⟨battid, hbattid⟩ := isSome_iff_exists.mp hbattid
  have hlength : tableSize ≤ (pbuf.drop size).length ↔ size + tableSize ≤ pbuf.length := by
    simp only [length_drop, tableSize]
    omega
  simp only [findTable_step, if_pos hsize, drop_drop, hname, hbattid, bind_some, hlength]
  rfl

theorem findTable_of_le (h : halfAt pbuf 2 ≤ size) (fuel : ℕ) :
    findTable x pbuf fuel size = some none := by
  cases fuel with
  | zero => rfl
  | succ fuel => rw [findTable_step, if_neg (Nat.not_lt.mpr h)]

/-- The strings of a whole table can be read. -/
theorem findTable_whole {fuel : ℕ} (hn : halfAt pbuf 2 = pbuf.length)
    (hsize : size + tableSize ≤ pbuf.length) :
    findTable x pbuf (fuel + 1) size =
      if matchesTable x (pbuf.drop size) then some (some (readAt pbuf size tableSize))
      else findTable x pbuf fuel (size + tableSize) := by
  have hstring : ∀ i ≤ 150, (readStringN 8 (pbuf.drop (size + i))).isSome := by
    intro i hi
    rw [readStringN_isSome]
    · rfl
    · rw [length_drop]
      simp only [tableSize] at hsize
      omega
  rw [findTable_succ _ (hstring 5 (by decide)) (hstring 13 (by decide)), if_pos hsize]
  simp only [tableSize] at hsize
  omega

/-- The search passes whole tables that do not match. -/
theorem findTable_skip (hn : halfAt pbuf 2 = pbuf.length) (fuel : ℕ) {n : ℕ} :
    ∀ size, (∀ j < n, size + tableSize * (j + 1) ≤ pbuf.length ∧
      ¬ matchesTable x (pbuf.drop (size + tableSize * j))) →
    findTable x pbuf (fuel + n) size = findTable x pbuf fuel (size + tableSize * n) := by
  induction n with
  | zero => exact fun size _ => rfl
  | succ n ih =>
    intro size h
    have hfirst := h 0 (Nat.succ_pos n)
    rw [Nat.zero_add, Nat.mul_one, Nat.mul_zero, Nat.add_zero] at hfirst
    have hnext : ∀ j, size + tableSize + tableSize * j = size + tableSize * (j + 1) := by
      intro j
      rw [Nat.mul_succ]
      omega
    rw [← Nat.add_assoc, findTable_whole hn hfirst.1, if_neg hfirst.2, ih, hnext]
    intro j hj
    rw [hnext, hnext]
    exact h (j + 1) (Nat.succ_lt_succ hj)

theorem whole_iff_lt_tableCount {k : ℕ} :
    headerSize + tableSize * (k + 1) ≤ halfAt p 2 ↔ k < tableCount p := by
  rw [tableCount, Nat.lt_iff_add_one_le, Nat.le_div_iff_mul_le (by decide)]
  simp only [tableSize, headerSize]
  omega

/-- The buffer that was read from the primary file. -/
theorem IsPrimary.buffer (h : IsPrimary x p) (hheader : 4 ≤ halfAt p 2) :
    halfAt (p.take (halfAt p 2)) 2 = (p.take (halfAt p 2)).length := by
  rw [length_take, Nat.min_eq_left h.whole]
  exact halfAt_readAt hheader p

/-- Up to a table that is preceded by tables that do not match. -/
theorem getPrimaryFgConfig_skip (h : IsPrimary x p) (hheader : 4 ≤ halfAt p 2) {k : ℕ}
    (hk : k ≤ tableCount p) (hnot : ∀ j < k, ¬ matchesTable x (tableAt p j)) :
    getPrimaryFgConfig x (p.take (halfAt p 2)) =
      findTable x (p.take (halfAt p 2)) (halfAt p 2 - k) (headerSize + tableSize * k) := by
  have hbuffer := h.buffer hheader
  have hlength : (p.take (halfAt p 2)).length = halfAt p 2 := by
    rw [length_take, Nat.min_eq_left h.whole]
  have hfuel : halfAt p 2 - k + k = halfAt p 2 := by
    have hcount : tableCount p ≤ halfAt p 2 :=
      (Nat.div_le_self _ _).trans (Nat.sub_le _ _)
    omega
  rw [getPrimaryFgConfig, hlength]
  nth_rewrite 2 [← hfuel]
  refine findTable_skip hbuffer _ headerSize fun j hj => ?_
  have hwhole := whole_iff_lt_tableCount.mpr (hj.trans_le hk)
  exact ⟨by rwa [hlength], by rw [matchesTable_drop hwhole]; exact hnot j hj⟩

/-- The first whole table that matches is found. -/
theorem getPrimaryFgConfig_found {k : ℕ} (h : IsPrimary x p) (hk : IsFirstMatch x p k) :
    getPrimaryFgConfig x (p.take (halfAt p 2)) = some (some (tableAt p k)) := by
  have hwhole := hk.whole
  have hbuffer := h.buffer (by simp only [headerSize, tableSize] at hwhole; omega)
  have hfuel : halfAt p 2 - k = (halfAt p 2 - k - 1) + 1 := by
    simp only [headerSize, tableSize] at hwhole
    omega
  rw [getPrimaryFgConfig_skip h (by simp only [headerSize, tableSize] at hwhole; omega)
    (whole_iff_lt_tableCount.mp hwhole).le hk.first, hfuel, findTable_whole hbuffer,
    if_pos ((matchesTable_drop hwhole).mpr hk.found)]
  · have hinside : tableSize ≤ halfAt p 2 - (headerSize + tableSize * k) := by
      rw [Nat.mul_succ] at hwhole
      omega
    rw [readAt, drop_take, take_take, Nat.min_eq_left hinside]
    rfl
  · rw [length_take, Nat.min_eq_left h.whole, Nat.add_assoc, ← Nat.mul_succ]
    exact hwhole

/-- The search at a table that is cut off. -/
theorem findTable_rest {fuel : ℕ} (hn : halfAt pbuf 2 = pbuf.length)
    (hsize : pbuf.length < size + tableSize) :
    findTable x pbuf (fuel + 1) size =
      if GoodRest x (pbuf.drop size) then some none else none := by
  by_cases hend : pbuf.length ≤ size
  · have hgood : GoodRest x [] := Or.inl rfl
    rw [findTable_of_le (hn.trans_le hend), drop_eq_nil_of_le hend, if_pos hgood]
  have hrest : pbuf.drop size ≠ [] := by
    rw [ne_eq, drop_eq_nil_iff]
    exact hend
  have hshort : ¬ tableSize ≤ (pbuf.drop size).length := by
    rw [length_drop]
    omega
  have hnext : findTable x pbuf fuel (size + tableSize) = some none :=
    findTable_of_le (by omega) fuel
  rw [findTable_step, if_pos (by omega)]
  simp only [GoodRest, hrest, false_or, if_neg hshort, hnext]
  cases readStringN 8 ((pbuf.drop size).drop 5) with
  | none => rfl
  | some name =>
    cases readStringN 8 ((pbuf.drop size).drop 13) with
    | none => rfl
    | some battid => by_cases hfound : matchesTable x (pbuf.drop size) <;> simp [hfound]

/-- The search if no whole table matches. -/
theorem getPrimaryFgConfig_rest (h : IsPrimary x p) (hheader : 6 ≤ halfAt p 2)
    (hnot : ∀ j < tableCount p, ¬ matchesTable x (tableAt p j)) :
    getPrimaryFgConfig x (p.take (halfAt p 2)) =
      if GoodRest x (restOfTables p) then some none else none := by
  have hlength : (p.take (halfAt p 2)).length = halfAt p 2 := by
    rw [length_take, Nat.min_eq_left h.whole]
  have hcount : halfAt p 2 < headerSize + tableSize * (tableCount p + 1) := by
    rw [← Nat.not_le, whole_iff_lt_tableCount]
    exact lt_irrefl _
  have hfuel : halfAt p 2 - tableCount p = (halfAt p 2 - tableCount p - 1) + 1 := by
    have hdiv : tableSize * tableCount p ≤ halfAt p 2 - headerSize := Nat.mul_div_le _ _
    simp only [tableSize] at hdiv
    omega
  rw [getPrimaryFgConfig_skip h (by omega) le_rfl hnot, hfuel, findTable_rest, restOfTables]
  · exact h.buffer (by omega)
  · rw [hlength, Nat.add_assoc, ← Nat.mul_succ]
    exact hcount

/-! ### The files -/

theorem readWhole_eq_some {file : Option (List UInt8)} {buf : List UInt8} :
    readWhole file size = some buf ↔
      ∃ l, file = some l ∧ size ≤ l.length ∧ l.take size = buf := by
  cases file with
  | none => simp [readWhole]
  | some l => simp [readWhole]

theorem halfAt_take {pos n : ℕ} (h : pos + 2 ≤ n) (l : List UInt8) :
    halfAt (l.take n) pos = halfAt l pos :=
  halfAt_readAt h l

/-- The header is read from a primary file of the right size. -/
theorem IsPrimary.readPrimaryHeader (h : IsPrimary x p) :
    readPrimaryHeader x.primary = some (halfAt p 2, halfAt p 4) := by
  rw [FgConfig.readPrimaryHeader, readWhole_eq_some.mpr ⟨p, h.file, h.header, rfl⟩,
    bind_some, halfAt_take (by decide), halfAt_take (by decide), if_pos h.max]

/-- Without a primary file there is nothing to write. -/
theorem tableConfig_of_not_isPrimary (h : ∀ p, ¬ IsPrimary x p) : tableConfig x = some none := by
  cases hheader : FgConfig.readPrimaryHeader x.primary with
  | none => simp only [tableConfig, hheader]
  | some header =>
    cases hread : readWhole x.primary header.1 with
    | none => simp only [tableConfig, hheader, hread]
    | some pbuf =>
      obtain ⟨p, hfile, hwhole, -⟩ := readWhole_eq_some.mp hread
      have hfront := hheader
      rw [FgConfig.readPrimaryHeader, bind_eq_some_iff] at hfront
      obtain ⟨front, hfront, hmax⟩ := hfront
      obtain ⟨p', hfile', hsize, rfl⟩ := readWhole_eq_some.mp hfront
      obtain rfl : p' = p := some.inj (hfile'.symm.trans hfile)
      rw [halfAt_take (by decide), halfAt_take (by decide)] at hmax
      obtain ⟨hsmall, hvalue⟩ := ite_none_right_eq_some.mp hmax
      obtain rfl := some.inj hvalue
      exact absurd ⟨hfile, hsize, hsmall, hwhole⟩ (h p')

theorem isPrimCksumOk_take (h : IsPrimary x p) (hheader : 6 ≤ halfAt p 2) :
    isPrimCksumOk (p.take (halfAt p 2)) = some (decide (RightChecksum p)) := by
  have hlength : (p.take (halfAt p 2)).length = halfAt p 2 := by
    rw [length_take, Nat.min_eq_left h.whole]
  rw [isPrimCksumOk, if_pos (by omega), halfAt_take (by omega)]
  rfl

theorem IsPrimary.tableConfig_eq (h : IsPrimary x p) (hheader : 6 ≤ halfAt p 2) :
    tableConfig x =
      selectConfig x (p.take (halfAt p 2)) (halfAt p 4) (decide (RightChecksum p)) := by
  have hread := readWhole_eq_some.mpr ⟨p, h.file, h.whole, rfl⟩
  simp [tableConfig, h.readPrimaryHeader, hread, isPrimCksumOk_take h hheader]

/-- A header that is too short for its checksum. -/
theorem IsPrimary.tableConfig_eq_none (h : IsPrimary x p) (hheader : ¬ 6 ≤ halfAt p 2) :
    tableConfig x = none := by
  have hread := readWhole_eq_some.mpr ⟨p, h.file, h.whole, rfl⟩
  have hlength : (p.take (halfAt p 2)).length = halfAt p 2 := by
    rw [length_take, Nat.min_eq_left h.whole]
  simp [tableConfig, h.readPrimaryHeader, hread, isPrimCksumOk, hlength, if_neg hheader]

theorem isFirstMatch_or (x : Inputs) (p : List UInt8) :
    (∃ k, IsFirstMatch x p k) ∨ ∀ j < tableCount p, ¬ matchesTable x (tableAt p j) := by
  by_cases h : ∃ k, k < tableCount p ∧ matchesTable x (tableAt p k)
  · obtain ⟨hwhole, hfound⟩ := Nat.find_spec h
    refine Or.inl ⟨Nat.find h, whole_iff_lt_tableCount.mpr hwhole, hfound, fun j hj hmatch => ?_⟩
    exact Nat.find_min h hj ⟨hj.trans hwhole, hmatch⟩
  · exact Or.inr fun j hj hmatch => h ⟨j, hj, hmatch⟩

/-- What comes from the primary file. -/
theorem readPriConfig_cases (h : IsPrimary x p) (hheader : 6 ≤ halfAt p 2) :
    let config := readPriConfig x (p.take (halfAt p 2)) (decide (RightChecksum p))
    ¬ RightChecksum p ∧ config = some none ∨
      RightChecksum p ∧ (∃ k, IsFirstMatch x p k ∧
        config = some (some (setConfigInit x.inCos (tableAt p k)))) ∨
      RightChecksum p ∧ (∀ k, ¬ IsFirstMatch x p k) ∧
        config = if GoodRest x (restOfTables p) then some none else none := by
  intro config
  by_cases hcksum : RightChecksum p
  · right
    have hconfig : config = (getPrimaryFgConfig x (p.take (halfAt p 2))).map
        (Option.map (setConfigInit x.inCos)) := by
      simp [config, readPriConfig, hcksum, decide_true]
    by_cases hfound : ∃ k, IsFirstMatch x p k
    · obtain ⟨k, hk⟩ := hfound
      refine Or.inl ⟨hcksum, k, hk, ?_⟩
      rw [hconfig, getPrimaryFgConfig_found h hk]
      rfl
    · refine Or.inr ⟨hcksum, not_exists.mp hfound, ?_⟩
      rw [hconfig, getPrimaryFgConfig_rest h hheader ((isFirstMatch_or x p).resolve_left hfound)]
      split_ifs <;> rfl
  · left
    exact ⟨hcksum, by simp only [config, readPriConfig, hcksum, decide_false]; rfl⟩

/-! ### The secondary file -/

theorem IsSecondary.unique {s s' : List UInt8} (h : IsSecondary x s) (h' : IsSecondary x s') :
    s = s' :=
  some.inj (h.file.symm.trans h'.file)

theorem isSecCksumOk_take (s : List UInt8) :
    isSecCksumOk (s.take secFileSize) = true ↔ byteSum (s.take 160) = halfAt s 160 := by
  rw [isSecCksumOk, decide_eq_true_iff, halfAt_take (by decide), take_take]
  rfl

/-- Equal lengths and an equal front make equal strings. -/
theorem serial_eq_iff {a b : List UInt8} :
    ¬ (a.length ≠ b.length ∨ a.take b.length ≠ b) ↔ a = b := by
  constructor
  · intro h
    obtain ⟨hlength, htake⟩ := not_or.mp h
    rw [not_not] at hlength htake
    rwa [← hlength, take_length] at htake
  · rintro rfl
    simp

theorem acceptsSecondary_take (x : Inputs) (s : List UInt8) (pcksum : ℕ) :
    acceptsSecondary x (s.take secFileSize) pcksum =
      if SameBattid x s then
        (readString ((s.take secFileSize).drop 164)).map fun serialNum =>
          if serialNum = serial x then decide (pcksum = halfAt s 162) else false
      else (readString ((s.take secFileSize).drop 13)).map fun _ => false := by
  have hbattid : cString (readAt (s.take secFileSize) 13 2) = cString (readAt s 13 2) := by
    rw [show s.take secFileSize = readAt s 0 secFileSize from rfl, readAt_readAt (by decide)]
  rw [acceptsSecondary, hbattid, halfAt_take (by decide)]
  by_cases hsame : SameBattid x s
  · rw [if_pos hsame]
    refine (if_neg (not_not.mpr hsame)).trans ?_
    congr 1
    funext serialNum
    by_cases hserial : serialNum = serial x
    · rw [if_pos hserial, if_neg (serial_eq_iff.mpr hserial)]
    · rw [if_neg hserial, if_pos (not_not.mp (mt serial_eq_iff.mp hserial))]
  · rw [if_neg hsame]
    exact if_pos hsame

/-- The comparisons read a string of the file that does not end. -/
theorem acceptsSecondary_eq_none {s : List UInt8} (hprinted : ¬ IsPrinted x s) (pcksum : ℕ) :
    acceptsSecondary x (s.take secFileSize) pcksum = none := by
  rw [IsPrinted] at hprinted
  rw [acceptsSecondary_take]
  by_cases hsame : SameBattid x s
  · rw [if_pos hsame] at hprinted
    rw [if_pos hsame, readString, if_neg hprinted, map_none]
  · rw [if_neg hsame] at hprinted
    rw [if_neg hsame, readString, if_neg hprinted, map_none]

theorem acceptsSecondary_eq_some {s : List UInt8} (h : IsSecondary x s) (hprinted : IsPrinted x s) :
    ∃ accepted, acceptsSecondary x (s.take secFileSize) (halfAt p 4) = some accepted ∧
      (accepted = true ↔ Accepted x p s) := by
  rw [IsPrinted] at hprinted
  rw [acceptsSecondary_take]
  by_cases hsame : SameBattid x s
  · have hserial : (s.take secFileSize).drop 164 = readAt s 164 13 := drop_take
    rw [if_pos hsame] at hprinted
    rw [if_pos hsame, readString, if_pos hprinted, map_some, hserial]
    refine ⟨_, rfl, ?_⟩
    by_cases hstring : cString (readAt s 164 13) = serial x
    · rw [if_pos hstring, decide_eq_true_iff]
      exact ⟨fun hp => ⟨h, hsame, hstring, hp.symm⟩, fun ha => ha.pcksum.symm⟩
    · rw [if_neg hstring]
      exact ⟨fun hfalse => absurd hfalse Bool.false_ne_true, fun ha => absurd ha.serial hstring⟩
  · rw [if_neg hsame] at hprinted
    rw [if_neg hsame, readString, if_pos hprinted, map_some]
    refine ⟨_, rfl, ?_⟩
    exact ⟨fun hfalse => absurd hfalse Bool.false_ne_true, fun ha => absurd ha.battid hsame⟩

/-- What is chosen between the two files. -/
theorem selectConfig_cases (p : List UInt8) (pbuf : List UInt8) (isPcksumOk : Bool) :
    let config := selectConfig x pbuf (halfAt p 4) isPcksumOk
    (∃ s, IsSecondary x s ∧ ¬ IsPrinted x s) ∧ config = none ∨
      (∀ s, IsSecondary x s → IsPrinted x s) ∧
        ((∃ s, Accepted x p s ∧ config = some (some (s.take tableSize))) ∨
          (∀ s, ¬ Accepted x p s) ∧ config = readPriConfig x pbuf isPcksumOk) := by
  intro config
  by_cases hsecondary : ∃ s, IsSecondary x s
  · obtain ⟨s, hs⟩ := hsecondary
    have hread := readWhole_eq_some.mpr ⟨s, hs.file, hs.whole, rfl⟩
    have hcksum := (isSecCksumOk_take s).mpr hs.cksum
    have hconfig : config = (acceptsSecondary x (s.take secFileSize) (halfAt p 4)).bind
        fun accepted =>
          if accepted then some (some ((s.take secFileSize).take tableSize))
          else readPriConfig x pbuf isPcksumOk := by
      simp [config, selectConfig, hread, hcksum, Bool.not_true, Bool.and_false, Bool.false_eq_true]
    by_cases hprinted : IsPrinted x s
    · right
      obtain ⟨accepted, haccepts, haccepted⟩ := acceptsSecondary_eq_some (p := p) hs hprinted
      refine ⟨fun s' hs' => hs.unique hs' ▸ hprinted, ?_⟩
      rw [hconfig, haccepts, bind_some, take_take]
      cases accepted with
      | true => exact Or.inl ⟨s, haccepted.mp rfl, rfl⟩
      | false =>
        refine Or.inr ⟨fun s' hs' => ?_, rfl⟩
        have hfalse := haccepted.mpr (hs.unique hs'.secondary ▸ hs')
        exact absurd hfalse Bool.false_ne_true
    · left
      refine ⟨⟨s, hs, hprinted⟩, ?_⟩
      rw [hconfig, acceptsSecondary_eq_none hprinted, bind_none]
  · right
    refine ⟨fun s hs => absurd ⟨s, hs⟩ hsecondary,
      Or.inr ⟨fun s hs => hsecondary ⟨s, hs.secondary⟩, ?_⟩⟩
    cases hread : readWhole x.secondary secFileSize with
    | none => simp only [config, selectConfig, hread]
    | some sbuf =>
      obtain ⟨s, hfile, hwhole, rfl⟩ := readWhole_eq_some.mp hread
      have hcksum : isSecCksumOk (s.take secFileSize) = false := by
        rw [← Bool.not_eq_true, isSecCksumOk_take]
        exact fun hcksum => hsecondary ⟨s, hfile, hwhole, hcksum⟩
      simp only [config, selectConfig, hread, hcksum]
      cases isPcksumOk <;> rfl

/-! ### What is written -/

/-- A table that is chosen comes from a file that was checked. -/
theorem tableConfig_validated {table : List UInt8} (hx : x.isXpwr = false)
    (h : tableConfig x = some (some table)) : Validated x (table.take 160) := by
  rw [Validated, hx, if_neg Bool.false_ne_true]
  by_cases hprimary : ∃ p, IsPrimary x p
  · obtain ⟨p, hp⟩ := hprimary
    by_cases hheader : 6 ≤ halfAt p 2
    · rw [hp.tableConfig_eq hheader] at h
      refine ⟨p, hp, ?_⟩
      obtain ⟨-, hnone⟩ | ⟨-, ⟨s, hs, htable⟩ | ⟨-, hpri⟩⟩ := selectConfig_cases p _ _
      · rw [hnone] at h
        cases h
      · rw [htable] at h
        cases h
        exact Or.inl ⟨s, hs, by rw [take_take]; rfl⟩
      · rw [hpri] at h
        obtain ⟨-, hnone⟩ | ⟨hcksum, k, hk, htable⟩ | ⟨-, -, hrest⟩ :=
          readPriConfig_cases hp hheader
        · rw [hnone] at h
          cases h
        · rw [htable] at h
          cases h
          exact Or.inr ⟨hcksum, k, hk, rfl⟩
        · rw [hrest] at h
          split_ifs at h
          cases h
    · rw [hp.tableConfig_eq_none hheader] at h
      cases h
  · rw [tableConfig_of_not_isPrimary (not_exists.mp hprimary)] at h
    cases h

/-- No byte outside the buffers is read if and only if the tables are all right. -/
theorem tableConfig_ne_none_iff (x : Inputs) :
    tableConfig x ≠ none ↔ ∀ p, IsPrimary x p → GoodTables x p := by
  constructor
  · intro h p hp
    have hheader : 6 ≤ halfAt p 2 := by
      by_contra hheader
      exact h (hp.tableConfig_eq_none hheader)
    rw [hp.tableConfig_eq hheader] at h
    refine ⟨hheader, fun s hs => ?_, fun hcksum haccepted hmatch => ?_⟩
    · obtain ⟨-, hnone⟩ | ⟨hprinted, -⟩ :=
        selectConfig_cases (x := x) p (p.take (halfAt p 2)) (decide (RightChecksum p))
      · exact absurd hnone h
      · exact hprinted s hs
    · obtain ⟨-, hnone⟩ | ⟨-, ⟨s, hs, -⟩ | ⟨-, hpri⟩⟩ :=
        selectConfig_cases (x := x) p (p.take (halfAt p 2)) (decide (RightChecksum p))
      · exact absurd hnone h
      · exact absurd hs (haccepted s)
      · rw [hpri] at h
        obtain ⟨hwrong, -⟩ | ⟨-, k, hk, -⟩ | ⟨-, -, hrest⟩ := readPriConfig_cases hp hheader
        · exact absurd hcksum hwrong
        · exact absurd hk (hmatch k)
        · by_contra hbad
          exact h (hrest.trans (if_neg hbad))
  · intro h
    by_cases hprimary : ∃ p, IsPrimary x p
    · obtain ⟨p, hp⟩ := hprimary
      obtain ⟨hheader, hprinted, hrest⟩ := h p hp
      rw [hp.tableConfig_eq hheader]
      obtain ⟨⟨s, hs, hbad⟩, -⟩ | ⟨-, ⟨s, -, htable⟩ | ⟨haccepted, hpri⟩⟩ :=
        selectConfig_cases (x := x) p (p.take (halfAt p 2)) (decide (RightChecksum p))
      · exact absurd (hprinted s hs) hbad
      · rw [htable]
        exact some_ne_none _
      · rw [hpri]
        obtain ⟨-, hnone⟩ | ⟨-, k, -, htable⟩ | ⟨hcksum, hmatch, hpri⟩ :=
          readPriConfig_cases hp hheader
        · rw [hnone]
          exact some_ne_none _
        · rw [htable]
          exact some_ne_none _
        · rw [hpri, if_pos (hrest hcksum haccepted hmatch)]
          exact some_ne_none _
    · rw [tableConfig_of_not_isPrimary (not_exists.mp hprimary)]
      exact some_ne_none _

theorem xpwrSecondary_eq_some {sbuf : List UInt8} :
    xpwrSecondary x.secondary = some sbuf ↔
      ∃ s, IsXpwrSecondary x s ∧ s.take xpwrSecConfigSize = sbuf := by
  rw [xpwrSecondary, filter_eq_some_iff, decide_eq_true_iff, readWhole_eq_some]
  constructor
  · rintro ⟨⟨s, hfile, hwhole, rfl⟩, hcksum⟩
    rw [halfAt_take (by decide), take_take] at hcksum
    exact ⟨s, ⟨hfile, hwhole, hcksum⟩, rfl⟩
  · rintro ⟨s, ⟨hfile, hwhole, hcksum⟩, rfl⟩
    rw [halfAt_take (by decide), take_take]
    exact ⟨⟨s, hfile, hwhole, rfl⟩, hcksum⟩

theorem checksum_take_xpwr (p : List UInt8) :
    checksum ((p.take xpwrConfigSize).take (xpwrConfigSize - 2)) = byteSum (p.take 36) := by
  rw [take_take]
  rfl

/-- The secondary file that fits to the primary file is taken. -/
theorem xpwrConfig_secondary {s : List UInt8} (hp : IsXpwrPrimary x p) (hs : IsXpwrSecondary x s) :
    xpwrConfig x.xpwrPrimary x.secondary =
      if byteSum (p.take 36) = halfAt s 36 then some (s.take xpwrSecConfigSize)
      else some (p.take xpwrConfigSize) := by
  have hread := readWhole_eq_some.mpr ⟨p, hp.file, hp.whole, rfl⟩
  have hsecondary := xpwrSecondary_eq_some.mpr ⟨s, hs, rfl⟩
  have hstored : halfAt (s.take xpwrSecConfigSize) (xpwrSecConfigSize - 4) = halfAt s 36 :=
    halfAt_take (by decide) s
  rw [xpwrConfig, hread, bind_some, hsecondary, if_neg (fun h => nomatch h.2), checksum_take_xpwr]
  simp [hstored]

theorem xpwrConfig_primary (hp : IsXpwrPrimary x p) (hs : ∀ s, ¬ IsXpwrSecondary x s) :
    xpwrConfig x.xpwrPrimary x.secondary =
      if byteSum (p.take 36) = halfAt p 36 then some (p.take xpwrConfigSize) else none := by
  have hread := readWhole_eq_some.mpr ⟨p, hp.file, hp.whole, rfl⟩
  have hsecondary : xpwrSecondary x.secondary = none := by
    rw [eq_none_iff_forall_ne_some]
    intro sbuf hsbuf
    obtain ⟨s, hs', -⟩ := xpwrSecondary_eq_some.mp hsbuf
    exact hs s hs'
  rw [xpwrConfig, hread, bind_some, hsecondary, checksum_take_xpwr, halfAt_take (by decide)]
  by_cases hcksum : byteSum (p.take 36) = halfAt p 36
  · rw [if_pos hcksum, if_neg (fun h => h.1 hcksum)]
  · rw [if_neg hcksum, if_pos ⟨hcksum, rfl⟩]

/-- Without a primary file the gauge is left alone. -/
theorem xpwrConfig_of_not_isXpwrPrimary (h : ∀ p, ¬ IsXpwrPrimary x p) :
    xpwrConfig x.xpwrPrimary x.secondary = none := by
  cases hread : readWhole x.xpwrPrimary xpwrConfigSize with
  | none => rw [xpwrConfig, hread, bind_none]
  | some pbuf =>
    obtain ⟨p, hfile, hwhole, -⟩ := readWhole_eq_some.mp hread
    exact absurd ⟨hfile, hwhole⟩ (h p)

theorem writeDev_eq_wrote {buf : Option (List UInt8)} {bytes : List UInt8} :
    writeDev x size buf = .wrote bytes ↔
      x.devWritable = true ∧ ∃ l, buf = some l ∧ bytes = l.take size := by
  cases buf with
  | none => simp [writeDev]
  | some l =>
    cases hw : x.devWritable with
    | false => simp [writeDev, hw]
    | true => simp [writeDev, hw, eq_comm]

/-- What the xpwr gauge gets was checked, except where the primary file is taken unchecked. -/
theorem xpwrConfig_validated_iff (hx : x.isXpwr = true) :
    (∀ bytes, writeDev x (xpwrConfigSize - 2) (xpwrConfig x.xpwrPrimary x.secondary) =
      .wrote bytes → Validated x bytes) ↔
    ∀ p s, IsXpwrPrimary x p → IsXpwrSecondary x s → byteSum (p.take 36) ≠ halfAt p 36 →
      byteSum (p.take 36) ≠ halfAt s 36 → ¬ x.devWritable := by
  simp only [Validated, hx, if_true]
  constructor
  · intro h p s hp hs hwrong hother hw
    obtain ⟨p', hp', ⟨s', hs', heq, -⟩ | ⟨hright, -⟩⟩ := h _ (writeDev_eq_wrote.mpr
      ⟨hw, _, (xpwrConfig_secondary hp hs).trans (if_neg hother), rfl⟩)
    · obtain rfl := some.inj (hp.file.symm.trans hp'.file)
      obtain rfl := some.inj (hs.file.symm.trans hs'.file)
      exact hother heq
    · obtain rfl := some.inj (hp.file.symm.trans hp'.file)
      exact hwrong hright
  · intro h bytes hbytes
    obtain ⟨hw, l, hl, rfl⟩ := writeDev_eq_wrote.mp hbytes
    by_cases hprimary : ∃ p, IsXpwrPrimary x p
    · obtain ⟨p, hp⟩ := hprimary
      refine ⟨p, hp, ?_⟩
      by_cases hsecondary : ∃ s, IsXpwrSecondary x s
      · obtain ⟨s, hs⟩ := hsecondary
        rw [xpwrConfig_secondary hp hs] at hl
        split_ifs at hl with heq
        · cases hl
          exact Or.inl ⟨s, hs, heq, by rw [take_take]; rfl⟩
        · cases hl
          refine Or.inr ⟨?_, by rw [take_take]; rfl⟩
          by_contra hwrong
          exact h p s hp hs hwrong heq hw
      · rw [xpwrConfig_primary hp (not_exists.mp hsecondary)] at hl
        split_ifs at hl with hright
        cases hl
        exact Or.inr ⟨hright, by rw [take_take]; rfl⟩
    · rw [xpwrConfig_of_not_isXpwrPrimary (not_exists.mp hprimary)] at hl
      cases hl

/-- Only validated bytes are written, and no byte outside the buffers is read, if and only if the
files are good. -/
theorem validated_iff_goodFiles (x : Inputs) :
    (writeFgdevConfig x ≠ none ∧
      ∀ bytes, writeFgdevConfig x = some (.wrote bytes) → Validated x bytes) ↔ GoodFiles x := by
  rw [GoodFiles]
  cases hx : x.isXpwr with
  | true =>
    have hwrite : writeFgdevConfig x =
        some (writeDev x (xpwrConfigSize - 2) (xpwrConfig x.xpwrPrimary x.secondary)) := by
      rw [writeFgdevConfig, hx, if_pos rfl]
    rw [if_pos rfl, ← xpwrConfig_validated_iff hx, hwrite]
    simp
  | false =>
    have hwrite : writeFgdevConfig x = (tableConfig x).map (writeDev x (tableSize - 2)) := by
      rw [writeFgdevConfig, hx, if_neg Bool.false_ne_true]
    rw [if_neg Bool.false_ne_true, ← tableConfig_ne_none_iff, hwrite, ne_eq, map_eq_none_iff]
    refine ⟨And.left, fun h => ⟨h, fun bytes hbytes => ?_⟩⟩
    obtain ⟨config, hconfig, hout⟩ := map_eq_some_iff.mp hbytes
    obtain ⟨-, table, rfl, rfl⟩ := writeDev_eq_wrote.mp hout
    exact tableConfig_validated hx hconfig

/-- A primary file of the xpwr gauge with a wrong checksum, next to a secondary file that was saved
for another one. -/
def staleXpwr : Inputs :=
  { isXpwr := true
    primary := none
    xpwrPrimary := some (1 :: List.replicate 37 0)
    secondary := some (List.replicate 36 0 ++ [2, 0, 2, 0])
    psName := []
    battid := []
    serialNum := []
    inCos := false
    devWritable := true }

/-- It is written to the gauge. -/
theorem writes_staleXpwr :
    ¬ (writeFgdevConfig staleXpwr ≠ none ∧
      ∀ bytes, writeFgdevConfig staleXpwr = some (.wrote bytes) → Validated staleXpwr bytes) := by
  rw [not_and, not_forall]
  intro _
  refine ⟨1 :: List.replicate 35 0, fun h => ?_⟩
  obtain ⟨p, hp, ⟨s, hs, heq, -⟩ | ⟨hright, -⟩⟩ := h (by decide)
  · obtain rfl := some.inj hp.file
    obtain rfl := some.inj hs.file
    revert heq
    decide
  · obtain rfl := some.inj hp.file
    revert hright
    decide

end HardwareIntel.FuelGauge.FgConfig
