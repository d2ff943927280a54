import HardwareIntel.Library.ByteFile

/-!
# The battery table of the software fuel gauge

`get_fg_config_table` of `em_common/fg_algo/fg_algo_iface.c` hands the gauge algorithm the data of
the battery. It takes them from the secondary file, which holds what was saved for one battery, or
from the primary file, a checksum and a table of records for all batteries, of which
`read_primary_file` looks for the right one.

The search reads record after record into one buffer. A read that comes out short at the end of the
file leaves the rest of the last record in the buffer, and the search goes on as if there were a
whole record: `record_complete_iff` says when it is taken in by that. No read fails: a negative result
of `read` is not modelled.
-/

namespace HardwareIntel.FuelGauge.SoftwareGauge

open List Option

/-- `DC_TI_CONFIG_SIZE` -/
def configSize : ℕ := 312

/-- `DC_TI_SEC_CONFIG_SIZE` -/
def secConfigSize : ℕ := 314

def checksum (buf : List UInt8) : ℕ := byteSum buf

/-- The name of the battery at the front of a buffer has `battid` in it: `strstr`. -/
def matchesBattid (battid buf : List UInt8) : Prop := battid <:+: cString (buf.take 8)

instance (battid buf : List UInt8) : Decidable (matchesBattid battid buf) :=
  inferInstanceAs (Decidable (battid <:+: _))

/-! ### The primary file -/

/-- The variables of the loop in `read_primary_file`. -/
structure RecordSearch where
  pos : ℕ
  buf : List UInt8
  readSize : ℕ
  tryCount : ℕ

/-- One iteration: the search goes on, or it ends with an error or with the contents of the buffer. -/
def searchStep (file battid : List UInt8) (s : RecordSearch) :
    RecordSearch ⊕ Option (List UInt8) :=
  let got := readAt file s.pos configSize
  let buf := fill got s.buf
  let tryCount := if got.length ≠ configSize then s.tryCount - 1 else s.tryCount
  if got.length ≠ configSize ∧ tryCount = 1 then .inr none
  else
    let readSize := s.readSize + got.length
    if ¬ matchesBattid battid buf ∧ readSize ≤ file.length then
      .inl ⟨s.pos + got.length, buf, readSize, tryCount⟩
    else if file.length < readSize then .inr none
    else .inr (some buf)

/-- The loop; there is no result if it has not ended after `fuel` iterations. -/
def search (file battid : List UInt8) : ℕ → RecordSearch → Option (Option (List UInt8))
  | 0, _ => none
  | fuel + 1, s =>
    match searchStep file battid s with
    | .inl s => search file battid fuel s
    | .inr result => some result

/-- The search behind the checksum, which leaves `buf` to be overwritten. -/
def startSearch (buf : List UInt8) : RecordSearch := ⟨4, buf, 0, 6⟩

/-- `read_primary_file`: the buffer after it has returned 0. -/
def readPrimaryFile (file : Option (List UInt8)) (buf battid : List UInt8) :
    Option (List UInt8) :=
  file.bind fun file => (search file battid (file.length + 6) (startSearch buf)).join

/-- `checksum_primary`: the checksum of the file, and the one it begins with. The file is read into
an array, behind which there is something else. -/
def checksumPrimary (file behind : List UInt8) : ℕ × ℕ :=
  (byteSum (file.drop 4), ofLittleEndian ((file ++ behind).take 4))

/-! ### The choice of the table -/

/-- `read_secondary_file`: the buffer after it has returned 0. -/
def readSecondaryFile (file : Option (List UInt8)) (battid : List UInt8) : Option (List UInt8) :=
  file.bind fun file =>
    let buf := readAt file 0 secConfigSize
    if buf.length = secConfigSize ∧ matchesBattid battid buf then some buf else none

/-- The files, which may be missing, the battery, what is in `pri_buf` when it has been allocated and
behind the array of `checksum_primary`, and whether the algorithm is `TI_ALGO`. -/
structure Inputs where
  primary : Option (List UInt8)
  secondary : Option (List UInt8)
  battid : List UInt8
  priBuf : List UInt8
  behind : List UInt8
  tiAlgo : Bool
  length_priBuf : priBuf.length = configSize

/-- How `get_fg_config_table` returns: with an error, with 0, or with what `update_fg_conf` makes of
these bytes. -/
inductive Outcome
  | error
  | nothing
  | update (cfg : List UInt8)
  deriving DecidableEq

def getFgConfigTable (x : Inputs) : Outcome :=
  let secBuf := readSecondaryFile x.secondary x.battid
  let useSecFile := secBuf.filter fun secBuf =>
    checksum (secBuf.take (secConfigSize - 2)) = halfAt secBuf (secConfigSize - 2)
  match x.primary, readPrimaryFile x.primary x.priBuf x.battid with
  | some file, some priBuf =>
    let (pcksum, tmp) := checksumPrimary file x.behind
    if pcksum ≠ tmp ∧ useSecFile = none then .error
    else if !x.tiAlgo then .nothing
    else .update ((useSecFile.getD priBuf).take configSize)
  | _, _ => .error

/-! ### What it may take -/

/-- The bytes are those of a secondary file for the battery, with a right checksum. -/
def FromSecondary (x : Inputs) (cfg : List UInt8) : Prop :=
  ∃ file ∈ x.secondary, secConfigSize ≤ file.length ∧ cfg = readAt file 0 configSize ∧
    checksum (readAt file 0 configSize) = halfAt file configSize ∧ matchesBattid x.battid file

/-- A record of the primary file. -/
def record (file : List UInt8) (k : ℕ) : List UInt8 := readAt file (4 + configSize * k) configSize

/-- The bytes are those of a complete record for the battery, in a primary file with a right
checksum. -/
def FromPrimary (x : Inputs) (cfg : List UInt8) : Prop :=
  ∃ file ∈ x.primary, ∃ k, 4 + configSize * (k + 1) ≤ file.length ∧ cfg = record file k ∧
    matchesBattid x.battid cfg ∧ checksum (file.drop 4) = ofLittleEndian (file.take 4)

/-- How many complete records a primary file has. -/
def recordCount (file : List UInt8) : ℕ := (file.length - 4) / configSize

/-- What is in the buffer at the end of the file: the bytes behind the last complete record, and
behind them the bytes of that record or what was there before. -/
def leftover (file priBuf : List UInt8) : List UInt8 :=
  fill (record file (recordCount file))
    (if 0 < recordCount file then record file (recordCount file - 1) else priBuf)

/-- The secondary file is for this battery, and its checksum is right. -/
def SecondaryValid (x : Inputs) : Prop :=
  ∃ file ∈ x.secondary, secConfigSize ≤ file.length ∧ matchesBattid x.battid file ∧
    checksum (readAt file 0 configSize) = halfAt file configSize

/-- If the primary file is needed, it has a complete record for the battery, or what is left in the
buffer at its end does not look like one. -/
def HasRecord (x : Inputs) : Prop :=
  ∀ file ∈ x.primary, x.tiAlgo = true → ¬ SecondaryValid x →
    (checksumPrimary file x.behind).1 = (checksumPrimary file x.behind).2 →
    (∃ k < recordCount file, matchesBattid x.battid (record file k)) ∨
      ¬ matchesBattid x.battid (leftover file x.priBuf)

/-! ### The search -/

section Search

variable {file battid buf : List UInt8} {k : ℕ}

theorem record_le (hk : k < recordCount file) : 4 + configSize * (k + 1) ≤ file.length := by
  have hle : configSize * (k + 1) ≤ file.length - 4 :=
    (Nat.mul_le_mul_left _ hk).trans (Nat.mul_div_le _ _)
  have hpos : 0 < configSize * (k + 1) := Nat.mul_pos (by decide) (Nat.succ_pos k)
  omega

theorem length_record (hk : k < recordCount file) : (record file k).length = configSize := by
  have hle := record_le hk
  rw [Nat.mul_succ] at hle
  exact length_readAt_of_le (by omega)

theorem lt_recordCount (h : 4 + configSize * (k + 1) ≤ file.length) : k < recordCount file := by
  rw [recordCount, Nat.lt_iff_add_one_le, Nat.le_div_iff_mul_le (by decide), Nat.mul_comm]
  omega

/-- Behind the last complete record there is less than a record. -/
theorem tail_lt : file.length < 4 + configSize * (recordCount file + 1) := by
  by_contra hle
  exact Nat.lt_irrefl _ (lt_recordCount (Nat.le_of_not_lt hle))

/-- A complete record replaces the buffer. -/
theorem searchStep_record (hbuf : buf.length = configSize) (hk : k < recordCount file) :
    searchStep file battid ⟨4 + configSize * k, buf, configSize * k, 6⟩ =
      if matchesBattid battid (record file k) then .inr (some (record file k))
      else .inl ⟨4 + configSize * (k + 1), record file k, configSize * (k + 1), 6⟩ := by
  have hlength := length_record hk
  have hle := record_le hk
  have hfill : fill (record file k) buf = record file k := fill_of_length (by omega)
  have hread : readAt file (4 + configSize * k) configSize = record file k := rfl
  rw [Nat.mul_succ] at hle ⊢
  have hsize : configSize * k + configSize ≤ file.length := by omega
  simp only [searchStep, hread, hlength, hfill, ne_eq, not_true_eq_false, false_and, if_false,
    hsize, and_true, Nat.not_lt.mpr hsize, Nat.add_assoc]
  by_cases hmatch : matchesBattid battid (record file k)
  · rw [if_neg (not_not_intro hmatch), if_pos hmatch]
  · rw [if_pos hmatch, if_neg hmatch]

/-- At the end of the file the search gives up after some tries. -/
theorem search_ended {s : RecordSearch} (tries : ℕ) (hpos : file.length ≤ s.pos)
    (hsize : s.readSize ≤ file.length) (hmatch : ¬ matchesBattid battid s.buf)
    (htries : s.tryCount = tries + 2) {fuel : ℕ} (hfuel : tries < fuel) :
    search file battid fuel s = some none := by
  induction tries generalizing s fuel with
  | zero =>
    obtain ⟨fuel, rfl⟩ := Nat.exists_eq_add_of_lt hfuel
    rw [search, searchStep, readAt_of_le hpos, htries]
    rfl
  | succ tries ih =>
    obtain ⟨fuel, rfl⟩ : ∃ n, fuel = n + 1 := ⟨fuel - 1, by omega⟩
    have hstep : searchStep file battid s = .inl ⟨s.pos, s.buf, s.readSize, tries + 2⟩ := by
      simp [searchStep, readAt_of_le hpos, htries, configSize, hmatch, hsize]
    rw [search, hstep]
    exact ih (s := ⟨s.pos, s.buf, s.readSize, tries + 2⟩) hpos hsize hmatch rfl (by omega)

/-- The bytes behind the last complete record are put over what is in the buffer. -/
theorem search_tail (hsize : configSize * recordCount file ≤ file.length)
    {fuel : ℕ} (hfuel : 5 ≤ fuel) :
    search file battid fuel ⟨4 + configSize * recordCount file, buf,
        configSize * recordCount file, 6⟩ =
      some (if matchesBattid battid (fill (record file (recordCount file)) buf) then
        some (fill (record file (recordCount file)) buf) else none) := by
  obtain ⟨fuel, rfl⟩ : ∃ n, fuel = n + 1 := ⟨fuel - 1, by omega⟩
  have htail := @tail_lt file
  rw [Nat.mul_succ] at htail
  have hlength : (record file (recordCount file)).length =
      file.length - (4 + configSize * recordCount file) := by
    rw [record, length_readAt]
    omega
  have hshort : (record file (recordCount file)).length ≠ configSize := by
    rw [hlength, configSize] at *
    omega
  have htotal : configSize * recordCount file + (record file (recordCount file)).length ≤
      file.length := by
    omega
  have hread : readAt file (4 + configSize * recordCount file) configSize =
      record file (recordCount file) := rfl
  simp only [search, searchStep, hread, ne_eq, hshort, not_false_eq_true, if_true, true_and,
    htotal, and_true, Nat.not_lt.mpr htotal, if_false, Nat.reduceSub, Nat.reduceEqDiff]
  by_cases hmatch : matchesBattid battid (fill (record file (recordCount file)) buf)
  · rw [if_neg (not_not_intro hmatch), if_pos hmatch]
  · rw [if_pos hmatch, if_neg hmatch]
    exact search_ended 3 (by dsimp only; omega) htotal hmatch rfl (by omega)

/-- The loop ends at the first complete record that matches. -/
theorem search_found {j : ℕ} (hbuf : buf.length = configSize) (hj : k + j < recordCount file)
    (hmatch : matchesBattid battid (record file (k + j)))
    (hnone : ∀ i < j, ¬ matchesBattid battid (record file (k + i))) {fuel : ℕ} (hfuel : j < fuel) :
    search file battid fuel ⟨4 + configSize * k, buf, configSize * k, 6⟩ =
      some (some (record file (k + j))) := by
  induction j generalizing k buf fuel with
  | zero =>
    obtain ⟨fuel, rfl⟩ := Nat.exists_eq_add_of_lt hfuel
    rw [Nat.add_zero] at hj hmatch ⊢
    rw [search, searchStep_record hbuf hj, if_pos hmatch]
    rfl
  | succ j ih =>
    obtain ⟨fuel, rfl⟩ : ∃ n, fuel = n + 1 := ⟨fuel - 1, by omega⟩
    have hk : k < recordCount file := by omega
    have hfirst : ¬ matchesBattid battid (record file k) := hnone 0 (Nat.succ_pos j)
    rw [search, searchStep_record hbuf hk, if_neg hfirst, show k + (j + 1) = k + 1 + j by omega]
    refine ih (length_record hk) (by omega) ?_ (fun i hi => ?_) (by omega)
    · rwa [show k + 1 + j = k + (j + 1) by omega]
    · rw [show k + 1 + i = k + (i + 1) by omega]
      exact hnone (i + 1) (by omega)

/-- If no complete record matches, the loop comes to the end of the file. -/
theorem search_passes {n : ℕ} (hbuf : buf.length = configSize) (hn : k + n = recordCount file)
    (hnone : ∀ i < n, ¬ matchesBattid battid (record file (k + i))) (fuel : ℕ) :
    search file battid (n + fuel) ⟨4 + configSize * k, buf, configSize * k, 6⟩ =
      search file battid fuel ⟨4 + configSize * recordCount file,
        if 0 < n then record file (recordCount file - 1) else buf,
        configSize * recordCount file, 6⟩ := by
  induction n generalizing k buf with
  | zero => rw [← hn, Nat.zero_add, Nat.add_zero, if_neg (Nat.lt_irrefl 0)]
  | succ n ih =>
    have hk : k < recordCount file := by omega
    have hfirst : ¬ matchesBattid battid (record file k) := hnone 0 (Nat.succ_pos n)
    have hlast : (if 0 < n then record file (recordCount file - 1) else record file k) =
        record file (recordCount file - 1) := by
      split
      · rfl
      · rw [show recordCount file - 1 = k by omega]
    rw [show n + 1 + fuel = n + fuel + 1 by omega, search, searchStep_record hbuf hk,
      if_neg hfirst, if_pos (Nat.succ_pos n)]
    dsimp only
    rw [ih (length_record hk) (by omega) fun i hi => ?_, hlast]
    rw [show k + 1 + i = k + (i + 1) by omega]
    exact hnone (i + 1) (by omega)

theorem mul_recordCount_le (file : List UInt8) :
    configSize * recordCount file ≤ file.length - 4 := Nat.mul_div_le _ _

/-- The search always ends: at a complete record that matches, or at the end of the file. -/
theorem search_ends (hbuf : buf.length = configSize) :
    (∃ j < recordCount file, matchesBattid battid (record file j) ∧
      search file battid (file.length + 6) (startSearch buf) = some (some (record file j))) ∨
    ((∀ j < recordCount file, ¬ matchesBattid battid (record file j)) ∧
      search file battid (file.length + 6) (startSearch buf) =
        some (if matchesBattid battid (leftover file buf) then some (leftover file buf)
          else none)) := by
  have hcount := mul_recordCount_le file
  have hle : recordCount file ≤ configSize * recordCount file :=
    Nat.le_mul_of_pos_left _ (by decide)
  by_cases hfound : ∃ j < recordCount file, matchesBattid battid (record file j)
  · left
    obtain ⟨hj, hmatch⟩ := Nat.find_spec hfound
    refine ⟨Nat.find hfound, hj, hmatch, ?_⟩
    have hfirst := @search_found file battid buf 0 (Nat.find hfound) hbuf
      (by rwa [Nat.zero_add]) (by rwa [Nat.zero_add]) (fun i hi => ?_) (file.length + 6) (by omega)
    · rwa [Nat.zero_add] at hfirst
    · rw [Nat.zero_add]
      exact fun h => Nat.find_min hfound hi ⟨by omega, h⟩
  · right
    have hnone : ∀ j < recordCount file, ¬ matchesBattid battid (record file j) :=
      fun j hj h => hfound ⟨j, hj, h⟩
    refine ⟨hnone, ?_⟩
    have hpasses := search_passes (k := 0) (n := recordCount file) hbuf (Nat.zero_add _)
      (fun i hi => by rw [Nat.zero_add]; exact hnone i hi) (file.length + 6 - recordCount file)
    rw [Nat.add_sub_cancel' (by omega)] at hpasses
    rw [startSearch]
    rw [Nat.mul_zero, Nat.add_zero] at hpasses
    rw [hpasses, search_tail (by omega) (by omega)]
    rfl

end Search

/-! ### The table -/

section Table

variable {x : Inputs}

theorem matchesBattid_readAt {n : ℕ} (hn : 8 ≤ n) (battid file : List UInt8) :
    matchesBattid battid (readAt file 0 n) ↔ matchesBattid battid file := by
  rw [matchesBattid, take_readAt hn, matchesBattid, readAt, drop_zero]

/-- The buffer of the secondary file if its data can be used. -/
def usableSecondary (x : Inputs) : Option (List UInt8) :=
  (readSecondaryFile x.secondary x.battid).filter fun secBuf =>
    checksum (secBuf.take (secConfigSize - 2)) = halfAt secBuf (secConfigSize - 2)

theorem usableSecondary_eq_some {secBuf : List UInt8} :
    usableSecondary x = some secBuf ↔
      ∃ file ∈ x.secondary, (secConfigSize ≤ file.length ∧ matchesBattid x.battid file ∧
        checksum (readAt file 0 configSize) = halfAt file configSize) ∧
        secBuf = readAt file 0 secConfigSize := by
  have hread : ∀ file : List UInt8, ((readAt file 0 secConfigSize).length = secConfigSize ∧
      matchesBattid x.battid (readAt file 0 secConfigSize)) ↔
      secConfigSize ≤ file.length ∧ matchesBattid x.battid file := by
    intro file
    rw [matchesBattid_readAt (by decide), length_readAt]
    refine and_congr_left fun _ => ?_
    omega
  have hsum : ∀ file : List UInt8,
      (checksum ((readAt file 0 secConfigSize).take (secConfigSize - 2)) =
        halfAt (readAt file 0 secConfigSize) (secConfigSize - 2)) ↔
      checksum (readAt file 0 configSize) = halfAt file configSize := by
    intro file
    rw [take_readAt (by decide), halfAt_readAt (by decide)]
    rfl
  rw [usableSecondary, filter_eq_some_iff, readSecondaryFile, bind_eq_some_iff]
  constructor
  · rintro ⟨⟨file, hfile, hbuf⟩, hcheck⟩
    obtain ⟨hvalid, hbuf⟩ := ite_none_right_eq_some.mp hbuf
    obtain rfl := some.inj hbuf
    obtain ⟨hlength, hmatch⟩ := (hread file).mp hvalid
    exact ⟨file, hfile, ⟨hlength, hmatch, (hsum file).mp (of_decide_eq_true hcheck)⟩, rfl⟩
  · rintro ⟨file, hfile, ⟨hlength, hmatch, hcheck⟩, rfl⟩
    refine ⟨⟨file, hfile, ?_⟩, decide_eq_true ((hsum file).mpr hcheck)⟩
    rw [if_pos ((hread file).mpr ⟨hlength, hmatch⟩)]

theorem usableSecondary_eq_none : usableSecondary x = none ↔ ¬ SecondaryValid x := by
  rw [← not_iff_not, not_not, ← ne_eq, ne_none_iff_exists']
  constructor
  · rintro ⟨secBuf, hbuf⟩
    obtain ⟨file, hfile, hvalid, -⟩ := usableSecondary_eq_some.mp hbuf
    exact ⟨file, hfile, hvalid⟩
  · rintro ⟨file, hfile, hvalid⟩
    exact ⟨_, usableSecondary_eq_some.mpr ⟨file, hfile, hvalid, rfl⟩⟩

/-- What `get_fg_config_table` has to go through before it uses data. -/
theorem getFgConfigTable_eq_update {cfg : List UInt8} :
    getFgConfigTable x = .update cfg ↔
      ∃ file ∈ x.primary, ∃ priBuf, readPrimaryFile x.primary x.priBuf x.battid = some priBuf ∧
        ¬ ((checksumPrimary file x.behind).1 ≠ (checksumPrimary file x.behind).2 ∧
          usableSecondary x = none) ∧
        x.tiAlgo = true ∧ cfg = ((usableSecondary x).getD priBuf).take configSize := by
  rw [getFgConfigTable, ← usableSecondary]
  cases hprimary : x.primary with
  | none => simp
  | some file =>
    cases hread : readPrimaryFile (some file) x.priBuf x.battid with
    | none => simp
    | some priBuf =>
      simp only [mem_def, some.injEq, exists_eq_left']
      split_ifs with hcheck halgo
      · simp [hcheck]
      · simp only [Bool.not_eq_eq_eq_not, Bool.not_true] at halgo
        simp [halgo]
      · simp only [Bool.not_eq_true', Bool.not_eq_false] at halgo
        exact ⟨fun h => ⟨hcheck, halgo, (Outcome.update.inj h).symm⟩, fun h => h.2.2 ▸ rfl⟩

end Table

/-- `get_fg_config_table` takes the data from a valid secondary file or from one complete record of
a valid primary file exactly if `HasRecord` holds; and the search for the record always ends. -/
theorem record_complete_iff (x : Inputs) :
    (∀ file ∈ x.primary, (search file x.battid (file.length + 6) (startSearch x.priBuf)).isSome) ∧
    ((∀ cfg, getFgConfigTable x = .update cfg → FromSecondary x cfg ∨ FromPrimary x cfg) ↔
      HasRecord x) := by
  refine ⟨fun file _ => ?_, fun hsound file hfile halgo hsec hcheck => ?_,
    fun hrecord cfg hcfg => ?_⟩
  · rcases @search_ends file x.battid _ x.length_priBuf with
      ⟨j, -, -, hsearch⟩ | ⟨-, hsearch⟩
    · rw [hsearch, isSome_some]
    · rw [hsearch, isSome_some]
  · -- if what is left over matches and no record does, it would be used
    by_contra hnot
    rw [not_or, not_not] at hnot
    obtain ⟨hnone, hleft⟩ := hnot
    have hread : readPrimaryFile x.primary x.priBuf x.battid = some (leftover file x.priBuf) := by
      rw [hfile]
      rcases @search_ends file x.battid _ x.length_priBuf with
        ⟨j, hj, hmatch, -⟩ | ⟨-, hsearch⟩
      · exact absurd ⟨j, hj, hmatch⟩ hnone
      · rw [readPrimaryFile, bind_some, hsearch, if_pos hleft, join_some]
    have hnosec : usableSecondary x = none := usableSecondary_eq_none.mpr hsec
    have hcfg := hsound _ (getFgConfigTable_eq_update.mpr
      ⟨file, hfile, _, hread, fun h => h.1 hcheck, halgo, rfl⟩)
    rcases hcfg with ⟨sec, hsecfile, hlength, -, hsum, hmatch⟩ |
      ⟨file', hfile', k, hk, hcfg, hmatch, -⟩
    · exact hsec ⟨sec, hsecfile, hlength, hmatch, hsum⟩
    · obtain rfl : file = file' := some.inj (hfile.symm.trans hfile')
      rw [hcfg] at hmatch
      exact hnone ⟨k, lt_recordCount hk, hmatch⟩
  · obtain ⟨file, hfile, priBuf, hread, hcheck, halgo, rfl⟩ := getFgConfigTable_eq_update.mp hcfg
    cases hsec : usableSecondary x with
    | some secBuf =>
      obtain ⟨sec, hsecfile, ⟨hlength, hmatch, hsum⟩, rfl⟩ := usableSecondary_eq_some.mp hsec
      left
      rw [getD_some, take_readAt (by decide)]
      exact ⟨sec, hsecfile, hlength, rfl, hsum, hmatch⟩
    | none =>
      right
      have hinvalid := usableSecondary_eq_none.mp hsec
      have hsum : (checksumPrimary file x.behind).1 = (checksumPrimary file x.behind).2 := by
        by_contra hne
        exact hcheck ⟨hne, hsec⟩
      rw [getD_none]
      rw [hfile, readPrimaryFile, bind_some] at hread
      rcases @search_ends file x.battid _ x.length_priBuf with
        ⟨j, hj, hmatch, hsearch⟩ | ⟨hnone, hsearch⟩
      · rw [hsearch, join_some] at hread
        obtain rfl := some.inj hread
        have hle := record_le hj
        rw [take_of_length_le (length_record hj).le]
        refine ⟨file, hfile, j, hle, rfl, hmatch, ?_⟩
        rw [checksumPrimary, take_append_of_le_length (by omega)] at hsum
        exact hsum
      · rw [hsearch] at hread
        obtain ⟨hleft, hread⟩ := ite_none_right_eq_some.mp hread
        rcases hrecord file hfile halgo hinvalid hsum with ⟨k, hk, hmatch⟩ | hnot
        · exact absurd hmatch (hnone k hk)
        · exact absurd hleft hnot

/-- A primary file with one record, of zeros, and one byte more, which is the name of the battery. -/
def cutInputs : Inputs where
  primary := some ([66, 0, 0, 0] ++ List.replicate 312 0 ++ [66])
  secondary := none
  battid := [66]
  priBuf := List.replicate 312 0
  behind := []
  tiAlgo := true
  length_priBuf := List.length_replicate

/-- The last byte of the file makes a record for the battery out of one that is for no battery. -/
theorem record_mixed : ¬ ∀ cfg, getFgConfigTable cutInputs = .update cfg →
    FromSecondary cutInputs cfg ∨ FromPrimary cutInputs cfg := by
  intro hsound
  have hupdate : getFgConfigTable cutInputs = .update (66 :: List.replicate 311 0) := by
    decide +kernel
  rcases hsound _ hupdate with ⟨file, hfile, -⟩ | ⟨file, hfile, k, hk, hcfg, -⟩
  · exact nomatch hfile
  · obtain rfl := some.inj hfile
    have hk0 : k = 0 := by
      simp only [length_append, length_cons, length_nil, length_replicate, configSize] at hk
      omega
    subst hk0
    exact absurd hcfg (by decide)

end HardwareIntel.FuelGauge.SoftwareGauge
