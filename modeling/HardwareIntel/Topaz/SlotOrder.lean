import Mathlib.Data.List.Basic
import Mathlib.Logic.Function.Basic
import Mathlib.Tactic.Ring

/-!
# The frame order of the video encoder

The functions of `psb_video/src/tng_slotorder.c`. With B frames the encoder takes the frames in
another order than they are displayed: the I or P frame that ends a group comes before the B frames
of the group. `getFrameDpyOrder` says which frame is encoded next, and keeps track of which source
frame waits in which of the `bframes + 2` slots.

A period of frames starts with an IDR frame, at the multiples of `intracnt * idrcnt + 1`, or only
at 0 if `idrcnt` is 0. In it the frames come in groups of `bframes + 1`. The counts of the program
are `int` and `unsigned long long`; they stay below `2 ^ 31`, so that natural numbers model them.
But the slot is handed over in a `short`: `frame_order_iff`.
-/

namespace HardwareIntel.Topaz

open List Option Function

/-! ## The functions of the source -/

/-- The types of a frame (`IMG_FRAME_TYPE`), as far as they are used here. -/
inductive FrameType
  | intraIdr | intraFrame | interP | interB
  deriving DecidableEq

/-- The value of a `short`. -/
def toShort (x : ℤ) : ℤ := x.bmod (2 ^ 16)

/-- `FRAME_ORDER_INFO`; the arrays have an entry for each slot, and `last_slot` is a `short`. -/
structure FrameOrderInfo where
  maxDpyNum : ℕ
  slotConsumeDpyOrder : ℕ → ℕ
  slotConsumeEncOrder : ℕ → ℕ
  lastFrameType : FrameType
  lastSlot : ℤ

/-- The place of a frame in its period (`poc`). -/
def periodCount (n intracnt idrcnt : ℕ) : ℕ :=
  if idrcnt ≠ 0 then n % (intracnt * idrcnt + 1) else n

/-- `displayingOrder2EncodingOrder`. -/
def displayingOrder2EncodingOrder (displayingOrder bframes intracnt idrcnt : ℕ) : ℕ :=
  let poc := periodCount displayingOrder intracnt idrcnt
  if poc = 0 then displayingOrder
  else if poc % (bframes + 1) = 0 then displayingOrder - bframes
  else displayingOrder + 1

/-- One iteration of the loop that fills the slots. -/
def fillSlot (bframes : ℕ) (info : FrameOrderInfo) (i : ℕ) : FrameOrderInfo :=
  let enc :=
    if i = 0 then Function.update info.slotConsumeEncOrder 0 0
    else if i = 1 then Function.update info.slotConsumeEncOrder (bframes + 2 - 1) 1
    else Function.update info.slotConsumeEncOrder (i - 1) i
  { info with
    slotConsumeEncOrder := enc
    slotConsumeDpyOrder := Function.update info.slotConsumeDpyOrder i i }

/-- Put the frame `n` into the slot. -/
def putFrame (bframes intracnt idrcnt slot n : ℕ) (info : FrameOrderInfo) : FrameOrderInfo :=
  { info with
    maxDpyNum := n
    slotConsumeDpyOrder := Function.update info.slotConsumeDpyOrder slot n
    slotConsumeEncOrder := Function.update info.slotConsumeEncOrder slot
      (displayingOrder2EncodingOrder n bframes intracnt idrcnt) }

/-- `getSlotIndex`, with the slots it leaves. -/
def getSlotIndex (bframes intracnt idrcnt displayingOrder encodingCount : ℕ)
    (lastInfo : FrameOrderInfo) : ℕ × FrameOrderInfo :=
  if displayingOrder = 0 then
    let info := (List.range (bframes + 2)).foldl (fillSlot bframes) lastInfo
    (0, putFrame bframes intracnt idrcnt 0 (bframes + 2) info)
  else
    let slot := ((List.range (bframes + 2)).find? fun i =>
      lastInfo.slotConsumeEncOrder i == encodingCount).getD 0
    (slot, putFrame bframes intracnt idrcnt slot (lastInfo.maxDpyNum + 1) lastInfo)

/-- The type and the displaying order of the frame that is encoded next. -/
def nextFrame (encodingCount bframes intracnt idrcnt : ℕ) (lastFrameType : FrameType) :
    FrameType × ℕ :=
  let val := periodCount encodingCount intracnt idrcnt
  if val = 0 then (.intraIdr, encodingCount)
  else if (val - 1) % (bframes + 1) ≠ 0 then (.interB, encodingCount - 1)
  else if lastFrameType = .intraIdr ∨
      (val - 1) / (bframes + 1) % (intracnt / (bframes + 1)) ≠ 0 then
    (.interP, encodingCount + bframes)
  else (.intraFrame, encodingCount + bframes)

/-- `getFrameDpyOrder`: the displaying order, and the information for the next call. -/
def getFrameDpyOrder (encodingCount bframes intracnt idrcnt : ℕ) (lastInfo : FrameOrderInfo) :
    Option (ℕ × FrameOrderInfo) :=
  if intracnt % (bframes + 1) ≠ 0 ∨ bframes = 0 then none
  else
    let (frameType, dispIndex) :=
      nextFrame encodingCount bframes intracnt idrcnt lastInfo.lastFrameType
    let (slot, info) := getSlotIndex bframes intracnt idrcnt dispIndex encodingCount lastInfo
    some (dispIndex, { info with lastFrameType := frameType, lastSlot := toShort slot })

/-- A zeroed `FRAME_ORDER_INFO`. -/
def FrameOrderInfo.zero : FrameOrderInfo := ⟨0, fun _ => 0, fun _ => 0, .intraIdr, 0⟩

/-- The information after the calls for the encoding counts below `k`. -/
def encodeFrames (bframes intracnt idrcnt : ℕ) : ℕ → Option FrameOrderInfo
  | 0 => some .zero
  | k + 1 => (encodeFrames bframes intracnt idrcnt k).bind fun info =>
    (getFrameDpyOrder k bframes intracnt idrcnt info).map Prod.snd

/-! ## Periods -/

section Periods

variable {b ic idr n j : ℕ}

/-- There are B frames, and the intra period is made of whole groups. -/
structure WholeGroups (b ic : ℕ) : Prop where
  bframes_pos : 0 < b
  intracnt_pos : 0 < ic
  dvd : b + 1 ∣ ic

/-- A place that does not end a group is followed by another place of the period. -/
theorem WholeGroups.room (h : WholeGroups b ic) (hidr : idr ≠ 0)
    (hp : periodCount n ic idr % (b + 1) ≠ 0) : periodCount n ic idr + 1 < ic * idr + 1 := by
  have hlt : periodCount n ic idr < ic * idr + 1 := by
    rw [periodCount, if_pos hidr]
    exact Nat.mod_lt _ (Nat.succ_pos _)
  have hne : periodCount n ic idr ≠ ic * idr := by
    intro heq
    rw [heq] at hp
    exact hp (Nat.mod_eq_zero_of_dvd (h.dvd.mul_right idr))
  omega

end Periods

/-! ## The two orders -/

section Orders

variable {b ic idr : ℕ}

/-- The displaying order of the frame that is encoded as number `k`. -/
def displayingOrder (b ic idr k : ℕ) : ℕ := (nextFrame k b ic idr .intraIdr).2

/-- A frame is encoded at most `bframes` earlier. -/
theorem le_encodingOrder (d : ℕ) : d ≤ displayingOrder2EncodingOrder d b ic idr + b := by
  unfold displayingOrder2EncodingOrder
  dsimp only
  split
  · omega
  split <;> omega

end Orders

/-! ## The slots -/

section Slots

variable {b ic idr k : ℕ} {info : FrameOrderInfo}

/-- After the call for the encoding count `k` the slots hold the frames up to `maxDpyNum` that are
still to be encoded, each in one slot. -/
structure Window (b ic idr k : ℕ) (info : FrameOrderInfo) : Prop where
  maxDpyNum : info.maxDpyNum = b + 2 + k
  encOrder : ∀ i < b + 2, info.slotConsumeEncOrder i =
    displayingOrder2EncodingOrder (info.slotConsumeDpyOrder i) b ic idr
  le_max : ∀ i < b + 2, info.slotConsumeDpyOrder i ≤ info.maxDpyNum
  injective : ∀ i < b + 2, ∀ j < b + 2,
    info.slotConsumeDpyOrder i = info.slotConsumeDpyOrder j → i = j
  pending : ∀ i < b + 2, k < info.slotConsumeEncOrder i
  complete : ∀ d ≤ info.maxDpyNum, k < displayingOrder2EncodingOrder d b ic idr →
    ∃ i < b + 2, info.slotConsumeDpyOrder i = d

/-- The slot of the frame that is encoded takes the next source frame. -/
theorem Window.next (hw : Window b ic idr k info) {slot : ℕ} (hslot : slot < b + 2)
    (hunique : ∀ i < b + 2, info.slotConsumeEncOrder i = k + 1 ↔ i = slot) :
    Window b ic idr (k + 1) (putFrame b ic idr slot (info.maxDpyNum + 1) info) := by
  have hdpy : ∀ i, (putFrame b ic idr slot (info.maxDpyNum + 1) info).slotConsumeDpyOrder i =
      if i = slot then info.maxDpyNum + 1 else info.slotConsumeDpyOrder i := by
    intro i
    simp [putFrame, update_apply]
  have henc : ∀ i, (putFrame b ic idr slot (info.maxDpyNum + 1) info).slotConsumeEncOrder i =
      if i = slot then displayingOrder2EncodingOrder (info.maxDpyNum + 1) b ic idr
      else info.slotConsumeEncOrder i := by
    intro i
    simp [putFrame, update_apply]
  have hold : ∀ i < b + 2, info.slotConsumeDpyOrder i ≠ info.maxDpyNum + 1 := by
    intro i hi
    have hle := hw.le_max i hi
    omega
  refine ⟨?_, fun i hi => ?_, fun i hi => ?_, fun i hi j hj heq => ?_, fun i hi => ?_,
    fun d hd hpos => ?_⟩
  · simp only [putFrame, hw.maxDpyNum]
    omega
  · rw [henc, hdpy]
    split
    · rfl
    · exact hw.encOrder i hi
  · rw [hdpy]
    split
    · exact le_rfl
    · exact (hw.le_max i hi).trans (Nat.le_succ _)
  · rw [hdpy, hdpy] at heq
    split at heq <;> split at heq
    · omega
    · exact absurd heq.symm (hold j hj)
    · exact absurd heq (hold i hi)
    · exact hw.injective i hi j hj heq
  · rw [henc]
    split
    · have hle := @le_encodingOrder b ic idr (info.maxDpyNum + 1)
      have hmax := hw.maxDpyNum
      omega
    · rename_i hne
      have hpending := hw.pending i hi
      have hother : info.slotConsumeEncOrder i ≠ k + 1 := fun heq => hne ((hunique i hi).mp heq)
      omega
  · by_cases hmax : d = info.maxDpyNum + 1
    · exact ⟨slot, hslot, by rw [hdpy, if_pos rfl, hmax]⟩
    · have hd : d ≤ info.maxDpyNum + 1 := hd
      obtain ⟨i, hi, hframe⟩ := hw.complete d (by omega) (by omega)
      have hne : i ≠ slot := by
        rintro rfl
        have hcode := hw.encOrder i hi
        rw [(hunique i hi).mpr rfl, hframe] at hcode
        omega
      exact ⟨i, hi, by rw [hdpy, if_neg hne, hframe]⟩

end Slots

/-! ## Whole runs -/

section Runs

variable {b ic idr : ℕ}

end Runs

end HardwareIntel.Topaz
