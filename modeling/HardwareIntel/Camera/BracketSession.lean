import HardwareIntel.Camera.OnlineBracket

/-!
# A burst with lost frames, step by step

The thread of `OnlineBracket` takes the snapshots while the client fetches those that are there. The
two share the counters, the snapshots and the list of settings, so here a step is what the thread does
up to the next place where it matters what the client has done meanwhile. The calls of the ISP and of
the 3A library succeed; an error that the code itself reports is recorded. A step is `none` if an array
is indexed behind its end.
-/

namespace HardwareIntel.Camera

variable {α : Type}

/-- Who has called `skipFrames`. -/
inductive SkipCaller
  | startBracketing
  | applyBracketing
  /-- The recovery in `applyBracketing`, with the number of retries behind it. -/
  | recovery (retryCount : ℕ)

/-- Where the thread is. In `startBracketing` it is the client that calls `skipFrames`. -/
inductive Place
  /-- The head of the loop in `threadLoop`. -/
  | loop
  /-- The head of the loop in `skipFrames`. -/
  | skip (numFrames doBracket i retryCount : ℕ) (caller : SkipCaller)
  /-- Before `getSnapshot` in this loop. -/
  | skipGrab (numFrames doBracket i retryCount : ℕ) (caller : SkipCaller)
  /-- Before `getRecoveryParams` in this loop. -/
  | skipRecover (retryCount : ℕ) (caller : SkipCaller)
  /-- Before `applyBracketingParams` in `applyBracketing`. -/
  | apply
  /-- Before `getSnapshot` in `applyBracketing`. -/
  | take (retryCount : ℕ)
  /-- Before `getRecoveryParams` in `applyBracketing`. -/
  | takeRecover (retryCount : ℕ)

/-- What the client does: it waits in `getSnapshot` for an answer, or has got one. -/
inductive BracketClient
  | idle
  | waiting
  | answered
  deriving DecidableEq

/-- The object with the settings in `mBracketingParams`, newest first, the results of
`getNextAeConfig`, and the frames that were taken from the ISP and put back. -/
structure BracketSession (α : Type) extends OnlineBracket α where
  place : Place
  client : BracketClient
  mBracketingParams : List α
  configs : List (Option α)
  taken : List ℕ
  put : List ℕ
  failed : Bool

inductive BracketEvent
  /-- The thread goes on; frames are lost before one that it grabs. -/
  | thread (lost : ℕ)
  | getSnapshot
  /-- The client goes on in `getSnapshot` behind the message. -/
  | answered
  | getNextAeConfig
  deriving DecidableEq

namespace BracketSession

/-! ## The thread -/

def mBurstCaptureNum (s : BracketSession α) : ℕ := s.mSnapshotBufs.length

/-- `applyBracketingParams`, with the settings. -/
def applyBracketingParams (s : BracketSession α) : Option (BracketSession α) :=
  s.toOnlineBracket.applyBracketingParams.map fun b =>
    { s with
      toOnlineBracket := b
      mBracketingParams :=
        if s.mBracketNum < s.mBurstLength then s.currentValue :: s.mBracketingParams
        else s.mBracketingParams }

/-- A frame is taken from the ISP. -/
def grab (lost : ℕ) (s : BracketSession α) : ℕ × BracketSession α :=
  let (frame, b) := s.toOnlineBracket.grab fun _ => lost
  (frame, { s with toOnlineBracket := b, taken := s.taken ++ [frame] })

def getNumLostFrames (frame : ℕ) (s : BracketSession α) : ℕ × BracketSession α :=
  let (numLost, b) := s.toOnlineBracket.getNumLostFrames frame
  (numLost, { s with toOnlineBracket := b })

/-- `getRecoveryParams`, and the call of `skipFrames` or the next round of it. -/
def recover (retryCount : ℕ) (caller : SkipCaller) (s : BracketSession α) :
    Option (BracketSession α) :=
  s.toOnlineBracket.getRecoveryParams.map fun ((skipNum, bracketNum), b) =>
    { s with toOnlineBracket := b, place := .skip skipNum bracketNum 0 retryCount caller }

/-- The end of `skipFrames`. -/
def skipped (s : BracketSession α) : SkipCaller → BracketSession α
  | .startBracketing => { s with mState := .bracketing, place := .loop }
  | .applyBracketing => { s with place := if s.mFpsAdaptSkip < 2 then .apply else .take 0 }
  | .recovery retryCount => { s with place := .take retryCount }

/-- A round of the loop in `skipFrames`, from `getSnapshot` on. -/
def skipGrab (lost numFrames doBracket i retryCount : ℕ) (caller : SkipCaller)
    (s : BracketSession α) : BracketSession α :=
  let (frame, s) := s.grab lost
  let (numLost, s) := s.getNumLostFrames frame
  let s := { s with put := s.put ++ [frame] }
  if 0 < numLost then
    -- the frames are lost, but this is no error for the caller
    if retryCount = maxRetryCount then s.skipped caller
    else if i + numLost < numFrames then
      { s with place := .skip numFrames doBracket (i + numLost + 1) retryCount caller }
    else { s with place := .skipRecover retryCount caller }
  else { s with place := .skip numFrames doBracket (i + 1) retryCount caller }

/-- The end of `applyBracketing`. -/
def capture (frame : ℕ) (s : BracketSession α) : BracketSession α :=
  let s := { s with
    mSnapshotBufs := s.mSnapshotBufs ++ [frame]
    mLastFrameSequenceNbr := some frame
    place := .loop }
  if s.mBurstCaptureNum = s.mBurstLength then { s with mState := .capture } else s

/-- `applyBracketing` from `getSnapshot` on. -/
def take (lost retryCount : ℕ) (s : BracketSession α) : Option (BracketSession α) :=
  if s.mBurstCaptureNum < s.mBurstLength then
    let (frame, s) := s.grab lost
    let (numLost, s) := s.getNumLostFrames frame
    if 0 < numLost then
      if retryCount = maxRetryCount then some ({ s with failed := true }.capture frame)
      else some { s with put := s.put ++ [frame], place := .takeRecover retryCount }
    else some (s.capture frame)
  else none

/-- The start of `applyBracketing`. -/
def applyBracketing (s : BracketSession α) : BracketSession α :=
  if 0 < s.mFpsAdaptSkip then
    { s with place :=
        .skip s.mFpsAdaptSkip (if 2 ≤ s.mFpsAdaptSkip then 1 else 0) 0 0 .applyBracketing }
  else { s with place := .apply }

/-- `waitForAndExecuteMessage`, with no other message than that of `getSnapshot`. -/
def waitForAndExecuteMessage (s : BracketSession α) : BracketSession α :=
  if s.client = .waiting then { s with client := .answered } else s

/-- A round of `threadLoop`. -/
def threadLoop (s : BracketSession α) : BracketSession α :=
  match s.mState with
  | .stopped | .capture => s.waitForAndExecuteMessage
  | .bracketing =>
    if s.client = .waiting ∧ s.mSnapshotReqNum < s.mBurstCaptureNum then s.waitForAndExecuteMessage
    else s.applyBracketing

def thread (lost : ℕ) (s : BracketSession α) : Option (BracketSession α) :=
  match s.place with
  | .loop => some s.threadLoop
  | .skip numFrames doBracket i retryCount caller =>
    if i < numFrames then
      (if i < doBracket then s.applyBracketingParams else some s).map fun s =>
        { s with place := .skipGrab numFrames doBracket i retryCount caller }
    else some (s.skipped caller)
  | .skipGrab numFrames doBracket i retryCount caller =>
    some (s.skipGrab lost numFrames doBracket i retryCount caller)
  | .skipRecover retryCount caller => s.recover (retryCount + 1) caller
  | .apply => s.applyBracketingParams.map fun s => { s with place := .take 0 }
  | .take retryCount => s.take lost retryCount
  | .takeRecover retryCount => s.recover 0 (.recovery (retryCount + 1))

/-! ## The client -/

/-- The end of `getSnapshot`. -/
def fetch (s : BracketSession α) : Option (BracketSession α) :=
  if s.mSnapshotReqNum < s.mBurstLength then
    some { s with mSnapshotReqNum := s.mSnapshotReqNum + 1, client := .idle }
  else none

/-- A call of `getSnapshot`. -/
def getSnapshot (s : BracketSession α) : Option (BracketSession α) :=
  if s.mSnapshotReqNum < s.mBurstCaptureNum then s.fetch else some { s with client := .waiting }

/-- A call of `getNextAeConfig`; it returns nothing if there are no settings. -/
def getNextAeConfig (s : BracketSession α) : BracketSession α :=
  { s with
    configs := s.configs ++ [s.mBracketingParams.getLast?]
    mBracketingParams := s.mBracketingParams.dropLast }

/-- A step; nothing happens if it is not the turn of the client. -/
def step (s : BracketSession α) : BracketEvent → Option (BracketSession α)
  | .thread lost => s.thread lost
  | .getSnapshot => if s.mState ≠ .stopped ∧ s.client = .idle then s.getSnapshot else some s
  | .answered => if s.client = .answered then s.fetch else some s
  | .getNextAeConfig =>
    if s.mState ≠ .stopped ∧ s.client = .idle then some s.getNextAeConfig else some s

end BracketSession

/-- A burst with these exposure values, at the start of `startBracketing`. -/
def BracketSession.init [LinearOrder α] (evMin evMax : α) (cpfLag cssMajorVersion : ℕ)
    (bracketValues : List α) (skip : ℕ) : Option (BracketSession α) :=
  (initBracketing evMin evMax bracketValues skip).map fun b =>
    let s : BracketSession α :=
      { b with
        place := .loop, client := .idle, mBracketingParams := [], configs := [], taken := [],
        put := [], failed := false }
    let lag := OnlineBracket.exposureLag cpfLag cssMajorVersion
    if b.mFpsAdaptSkip < lag then
      { s with place := .skip (lag - b.mFpsAdaptSkip) (lag - b.mFpsAdaptSkip) 0 0 .startBracketing }
    else s.skipped .startBracketing

end HardwareIntel.Camera
