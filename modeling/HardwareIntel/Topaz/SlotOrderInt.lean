import HardwareIntel.Topaz.SlotOrder

/-!
# The frame order in machine integers

The functions of `tng_slotorder.c` once more, with the integers they compute with: `int`
computations that overflow and divisions by zero are undefined, so each function has a result only
if there are none. `Sound.getFrameDpyOrder` says that there is always a frame if the period of I
frames divides into groups and its product with that of IDR frames stays in the range of an `int`.
-/

namespace HardwareIntel.Topaz

open Option

namespace Machine

/-- An `int` computation. -/
def int (x : ℤ) : Option ℤ := if -2 ^ 31 ≤ x ∧ x < 2 ^ 31 then some x else none

/-- An `int` as an `unsigned long long`. -/
def toUll (x : ℤ) : UInt64 := ⟨BitVec.ofInt 64 x⟩

/-- An `unsigned long long` as an `int`. -/
def toInt (n : UInt64) : ℤ := n.toUInt32.toInt32.toInt

/-- The remainder of `unsigned long long` numbers. -/
def mod (n m : UInt64) : Option UInt64 := if m = 0 then none else some (n % m)

/-- `FRAME_ORDER_INFO`. -/
structure FrameOrderInfo where
  maxDpyNum : UInt64
  slotConsumeDpyOrder : ℕ → ℤ
  slotConsumeEncOrder : ℕ → ℤ
  lastFrameType : FrameType
  lastSlot : ℤ

/-- The length of a period. -/
def periodLength (intracnt idrcnt : ℤ) : Option UInt64 := do
  let product ← int (intracnt * idrcnt)
  let length ← int (product + 1)
  pure (toUll length)

/-- The place of a frame in its period. -/
def periodCount (n : UInt64) (intracnt idrcnt : ℤ) : Option UInt64 :=
  if idrcnt ≠ 0 then do
    let length ← periodLength intracnt idrcnt
    mod n length
  else some n

def displayingOrder2EncodingOrder (displayingOrder : UInt64) (bframes intracnt idrcnt : ℤ) :
    Option UInt64 := do
  let count ← periodCount displayingOrder intracnt idrcnt
  let poc := toInt count
  if poc = 0 then pure displayingOrder
  else
    let group ← int (bframes + 1)
    if group = 0 then none
    else if poc.tmod group = 0 then pure (displayingOrder - toUll bframes)
    else pure (displayingOrder + 1)

/-- One iteration of the loop that fills the slots. -/
def fillSlot (bframes : ℤ) (info : FrameOrderInfo) (i : ℕ) : FrameOrderInfo :=
  let enc :=
    if i = 0 then Function.update info.slotConsumeEncOrder 0 0
    else if i = 1 then Function.update info.slotConsumeEncOrder (bframes + 2 - 1).toNat 1
    else Function.update info.slotConsumeEncOrder (i - 1) i
  { info with
    slotConsumeEncOrder := enc
    slotConsumeDpyOrder := Function.update info.slotConsumeDpyOrder i i }

/-- Put the frame `n` into the slot, given its number in encoding order. -/
def putFrame (slot : ℕ) (n enc : UInt64) (info : FrameOrderInfo) : FrameOrderInfo :=
  { info with
    maxDpyNum := n
    slotConsumeDpyOrder := Function.update info.slotConsumeDpyOrder slot (toInt n)
    slotConsumeEncOrder := Function.update info.slotConsumeEncOrder slot (toInt enc) }

def getSlotIndex (bframes intracnt idrcnt displayingOrder encodingCount : ℤ)
    (lastInfo : FrameOrderInfo) : Option (ℕ × FrameOrderInfo) := do
  let slots ← int (bframes + 2)
  if displayingOrder = 0 then
    let info := (List.range slots.toNat).foldl (fillSlot bframes) lastInfo
    let enc ← displayingOrder2EncodingOrder (toUll slots) bframes intracnt idrcnt
    pure (0, putFrame 0 (toUll slots) enc info)
  else
    let slot := ((List.range slots.toNat).find? fun i =>
      lastInfo.slotConsumeEncOrder i == encodingCount).getD 0
    let enc ← displayingOrder2EncodingOrder (lastInfo.maxDpyNum + 1) bframes intracnt idrcnt
    pure (slot, putFrame slot (lastInfo.maxDpyNum + 1) enc lastInfo)

/-- The type and the displaying order of the frame that is encoded next. -/
def nextFrame (encodingCount : UInt64) (bframes intracnt idrcnt : ℤ) (lastFrameType : FrameType) :
    Option (FrameType × UInt64) := do
  let val ← periodCount encodingCount intracnt idrcnt
  let group ← int (bframes + 1)
  if val = 0 then pure (.intraIdr, encodingCount)
  else
    let inGroup ← mod (val - 1) (toUll group)
    if inGroup ≠ 0 then pure (.interB, encodingCount - 1)
    else if lastFrameType = .intraIdr then pure (.interP, encodingCount + toUll bframes)
    else
      let groupCount ← mod ((val - 1) / toUll group) (toUll (intracnt.tdiv group))
      if groupCount ≠ 0 then pure (.interP, encodingCount + toUll bframes)
      else pure (.intraFrame, encodingCount + toUll bframes)

/-- What `getFrameDpyOrder` returns. -/
inductive DpyOrder
  | failed
  | frame (displayingOrder : UInt64) (info : FrameOrderInfo)

/-- `getFrameDpyOrder`. -/
def getFrameDpyOrder (encodingCount : UInt64) (bframes intracnt idrcnt : ℤ)
    (lastInfo : FrameOrderInfo) : Option DpyOrder := do
  let group ← int (bframes + 1)
  if group = 0 then none
  else if intracnt.tmod group ≠ 0 ∨ bframes = 0 then pure .failed
  else
    let (frameType, dispIndex) ←
      nextFrame encodingCount bframes intracnt idrcnt lastInfo.lastFrameType
    let (slot, info) ← getSlotIndex bframes intracnt idrcnt (toInt dispIndex)
      (toInt encodingCount) lastInfo
    pure (.frame dispIndex { info with lastFrameType := frameType, lastSlot := toShort slot })

/-! ### When everything is defined -/

/-- Periods for which the frames can be reordered: whole groups, and no overflow. -/
structure Sound (bframes intracnt idrcnt : ℤ) : Prop where
  bframes_pos : 0 < bframes
  bframes_lt : bframes + 2 < 2 ^ 31
  intracnt_ne : intracnt ≠ 0
  intracnt_ge : -2 ^ 31 ≤ intracnt
  intracnt_lt : intracnt < 2 ^ 31
  dvd : bframes + 1 ∣ intracnt
  product : idrcnt ≠ 0 → -2 ^ 31 ≤ intracnt * idrcnt ∧ intracnt * idrcnt + 1 < 2 ^ 31

section Defined

variable {bframes intracnt idrcnt : ℤ}

/-- A value in range is an `int`. -/
theorem int_eq {x : ℤ} (hge : -2 ^ 31 ≤ x) (hlt : x < 2 ^ 31) : int x = some x := if_pos ⟨hge, hlt⟩

/-- A value comes back from 64 bits. -/
theorem toInt_toUll {x : ℤ} (hge : -2 ^ 32 ≤ x) (hlt : x < 2 ^ 32) :
    (toUll x).toBitVec.toInt = x := by
  have hbmod : (toUll x).toBitVec.toInt = x.bmod (2 ^ 64) := BitVec.toInt_ofInt x
  rw [hbmod]
  exact Int.bmod_eq_of_le (by omega) (by omega)

/-- Only zero becomes zero. -/
theorem toUll_eq_zero {x : ℤ} (hge : -2 ^ 32 ≤ x) (hlt : x < 2 ^ 32) : toUll x = 0 ↔ x = 0 := by
  refine ⟨fun h => ?_, fun h => h ▸ rfl⟩
  rw [← toInt_toUll hge hlt, h]
  rfl

section

variable (h : Sound bframes intracnt idrcnt)
include h

/-- The size of a group is an `int`. -/
theorem Sound.group : int (bframes + 1) = some (bframes + 1) :=
  int_eq (by have := h.bframes_pos; omega) (by have := h.bframes_lt; omega)

/-- The length of a period is not minus one. -/
theorem Sound.length_ne : intracnt * idrcnt + 1 ≠ 0 := by
  intro hzero
  have hone : intracnt ∣ 1 := ⟨-idrcnt, by rw [mul_neg]; omega⟩
  have hgroup := Int.le_of_dvd Int.one_pos (h.dvd.trans hone)
  have hpos := h.bframes_pos
  omega

/-- The place in the period exists. -/
theorem Sound.periodCount (n : UInt64) :
    ∃ m, periodCount n intracnt idrcnt = some m := by
  rw [Machine.periodCount]
  split
  · rename_i hidr
    obtain ⟨hge, hlt⟩ := h.product hidr
    have hlength : periodLength intracnt idrcnt = some (toUll (intracnt * idrcnt + 1)) := by
      rw [periodLength, int_eq hge (by omega), bind_eq_bind, bind_some,
        int_eq (by omega) hlt]
      rfl
    have hne : toUll (intracnt * idrcnt + 1) ≠ 0 := fun hzero =>
      h.length_ne ((toUll_eq_zero (by omega) (by omega)).mp hzero)
    rw [hlength]
    exact ⟨_, if_neg hne⟩
  · exact ⟨n, rfl⟩

/-- The encoding order exists. -/
theorem Sound.displayingOrder2EncodingOrder (n : UInt64) :
    ∃ m, displayingOrder2EncodingOrder n bframes intracnt idrcnt = some m := by
  obtain ⟨count, hcount⟩ := h.periodCount n
  have hne : bframes + 1 ≠ 0 := by
    have hpos := h.bframes_pos
    omega
  rw [Machine.displayingOrder2EncodingOrder, hcount, h.group]
  dsimp only [bind_eq_bind, bind_some]
  split
  · exact ⟨_, rfl⟩
  · split
    · exact ⟨_, rfl⟩
    · exact ⟨_, rfl⟩

/-- The slot exists. -/
theorem Sound.getSlotIndex (displayingOrder encodingCount : ℤ) (info : FrameOrderInfo) :
    ∃ r, getSlotIndex bframes intracnt idrcnt displayingOrder encodingCount info = some r := by
  have hslots : int (bframes + 2) = some (bframes + 2) :=
    int_eq (by have := h.bframes_pos; omega) h.bframes_lt
  rw [Machine.getSlotIndex, hslots]
  dsimp only [bind_eq_bind, bind_some]
  split
  · obtain ⟨enc, henc⟩ := h.displayingOrder2EncodingOrder (toUll (bframes + 2))
    rw [henc]
    exact ⟨_, rfl⟩
  · obtain ⟨enc, henc⟩ := h.displayingOrder2EncodingOrder (info.maxDpyNum + 1)
    rw [henc]
    exact ⟨_, rfl⟩

/-- The next frame exists. -/
theorem Sound.nextFrame (n : UInt64) (type : FrameType) :
    ∃ r, nextFrame n bframes intracnt idrcnt type = some r := by
  obtain ⟨val, hval⟩ := h.periodCount n
  have hpos := h.bframes_pos
  have hlt := h.bframes_lt
  have hgroup : toUll (bframes + 1) ≠ 0 := fun hzero => by
    have := (toUll_eq_zero (by omega) (by omega)).mp hzero
    omega
  have hcount : toUll (intracnt.tdiv (bframes + 1)) ≠ 0 := fun hzero => by
    have hle := Int.natAbs_tdiv_le_natAbs intracnt (bframes + 1)
    have hge := h.intracnt_ge
    have hlt := h.intracnt_lt
    have hdiv := (toUll_eq_zero (by omega) (by omega)).mp hzero
    have hmul := Int.tdiv_mul_cancel h.dvd
    rw [hdiv, Int.zero_mul] at hmul
    exact h.intracnt_ne hmul.symm
  rw [Machine.nextFrame, hval, h.group]
  dsimp only [bind_eq_bind, bind_some]
  rw [mod, if_neg hgroup, mod, if_neg hcount]
  dsimp only [bind_some]
  repeat' split
  all_goals exact ⟨_, rfl⟩

/-- With sound periods a frame is always returned. -/
theorem Sound.getFrameDpyOrder (n : UInt64) (info : FrameOrderInfo) : ∃ order info',
      getFrameDpyOrder n bframes intracnt idrcnt info = some (.frame order info') := by
  have hpos := h.bframes_pos
  obtain ⟨⟨type, order⟩, hnext⟩ := h.nextFrame n info.lastFrameType
  obtain ⟨⟨slot, info'⟩, hslot⟩ := h.getSlotIndex (toInt order) (toInt n) info
  have hfails : ¬(intracnt.tmod (bframes + 1) ≠ 0 ∨ bframes = 0) := by
    rintro (hmod | hzero)
    · exact hmod (Int.tmod_eq_zero_of_dvd h.dvd)
    · omega
  rw [Machine.getFrameDpyOrder, h.group]
  dsimp only [bind_eq_bind, bind_some]
  rw [if_neg (by omega), if_neg hfails, hnext]
  dsimp only [bind_some]
  rw [hslot]
  exact ⟨_, _, rfl⟩

end

/-- A frame is returned for periods of whole groups only. -/
theorem dvd_of_getFrameDpyOrder {n order : UInt64} {info info' : FrameOrderInfo}
    (hlt : 0 ≤ bframes) (hlt' : bframes + 1 < 2 ^ 31)
    (h : getFrameDpyOrder n bframes intracnt idrcnt info = some (.frame order info')) :
    bframes + 1 ∣ intracnt := by
  have hgroup : int (bframes + 1) = some (bframes + 1) := int_eq (by omega) hlt'
  rw [Machine.getFrameDpyOrder, hgroup] at h
  dsimp only [bind_eq_bind, bind_some] at h
  rw [if_neg (by omega)] at h
  split at h
  · cases h
  · rename_i hfails
    exact Int.dvd_of_tmod_eq_zero (not_not.mp fun hmod => hfails (.inl hmod))

end Defined

end Machine

end HardwareIntel.Topaz
