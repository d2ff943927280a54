import HardwareIntel.Library.Runs
import HardwareIntel.MultiDisplay.ListenerTable

/-!
# The display mode of the multi-display composer

`MultiDisplayComposer` (`libmultidisplay/native`) keeps a word of mode bits: which display is
connected, and whether a video is playing. The bits are changed by six operations, and listeners are
told of a change by broadcasts. drm is initialized, so that the connection can be read; what is read
is an input of the operation.

Nothing in the code reads what a listener was told, how often the mode has changed, or what was read
last. `mode_tracked` says that the mode is right and known to the listeners as long as no read of
the connection goes from HDMI to DVI or back, and `registerCallback` finds nothing new that a
listener should be told.
-/

namespace HardwareIntel.MultiDisplay

open List

/-- The bits of `MDS_DISPLAY_MODE`. -/
structure Mode where
  dviConnected : Bool
  hdmiConnected : Bool
  widiOn : Bool
  videoOn : Bool
  vppChanged : Bool
  deriving DecidableEq

def Mode.none : Mode := ⟨false, false, false, false, false⟩

/-- `drm_hdmi_getConnectionStatus` -/
inductive ConnectionStatus
  | disconnected
  | hdmi
  | dvi

/-- `MDS_VIDEO_STATE` -/
inductive VideoState
  | unknown
  | preparing
  | prepared
  | unpreparing
  | unprepared
  deriving DecidableEq

/-- `MDS_DISPLAY_ID` -/
inductive DisplayId
  | primary
  | external
  | virtual
  deriving DecidableEq

/-- `MDS_SCALING_TYPE` -/
inductive ScalingType
  | none
  | fullScreen
  | center
  | aspect
  deriving DecidableEq

/-- `MDS_VIDEO_SESSION_MAX_VALUE` -/
def videoSessionMax : ℕ := 16

/-- `MDS_LISTENER_MAX_VALUE` -/
def listenerMax : ℕ := videoSessionMax * 4

/-- `MDS_MSG_MODE_CHANGE` -/
def modeChange : UInt32 := 2

def overscanMax : ℤ := 5

structure Listener where
  msg : UInt32
  id : ℕ
  name : String
  /-- the modes it was told, newest first -/
  told : List Mode
  /-- how often the mode had changed when it was registered -/
  since : ℕ

namespace Listener

def checkMsg (l : Listener) (msg : UInt32) : Bool := msg &&& l.msg != 0

/-- The last mode it was told, apart from the announcements of a changed VPP state. -/
def lastTold (l : Listener) : Option Mode := (l.told.filter fun mode => !mode.vppChanged).head?

end Listener

structure Composer where
  mode : Mode
  /-- the states of `mVideos` -/
  videos : ℕ → VideoState
  listenerId : ℕ
  listeners : List Listener
  /-- a callback is registered -/
  callback : Bool
  scaleType : ScalingType
  horizontalStep : ℤ
  verticalStep : ℤ
  displayId : DisplayId
  lastRead : ConnectionStatus
  changes : ℕ
  /-- the last change came from a session that became unprepared -/
  unpreparedLast : Bool

namespace Composer

/-- The sessions in a state that passes the test. -/
def countVideos (s : Composer) (p : VideoState → Bool) : ℕ :=
  (List.range videoSessionMax).countP fun i => p (s.videos i)

def hasVideoPlaying (s : Composer) : Bool := 1 ≤ s.countVideos (· == .prepared)

def videoSessionSize (s : Composer) : ℕ := s.countVideos (· != .unprepared)

def updateHdmiConnectStatus (s : Composer) (status : ConnectionStatus) : Composer :=
  { s with
    mode := match status with
      | .hdmi => { s.mode with hdmiConnected := true }
      | .dvi => { s.mode with dviConnected := true }
      | .disconnected => { s.mode with hdmiConnected := false, dviConnected := false }
    lastRead := status }

/-- The composer after `drm_init` has succeeded. -/
def constructed (status : ConnectionStatus) : Composer :=
  { mode := .none
    videos := fun _ => .unprepared
    listenerId := 0
    listeners := []
    callback := false
    scaleType := .none
    horizontalStep := 0
    verticalStep := 0
    displayId := .primary
    lastRead := .disconnected
    changes := 0
    unpreparedLast := false : Composer }.updateHdmiConnectStatus status

/-- `broadcastMessageLocked` of the mode. -/
def broadcastMode (s : Composer) (ignoreVideoDriver : Bool) : Composer :=
  { s with listeners := s.listeners.map fun l =>
      if (ignoreVideoDriver && l.name == "VideoDriver") || !l.checkMsg modeChange then l
      else { l with told := s.mode :: l.told } }

/-- The video bit is made to agree with the sessions. -/
def setVideoOn (s : Composer) : Composer :=
  { s with mode := { s.mode with videoOn := s.hasVideoPlaying } }

/-- The answers of the callback to `setHdmiScalingType` and `setHdmiOverscan`, and of
SurfaceFlinger. -/
structure ScalingAnswers where
  scalingType : Bool
  overscan : Bool
  surfaceFlinger : Bool

/-- The end of `notifyHotplugLocked`: overscan compensation and scaling are reset. -/
def resetScaling (s : Composer) (a : ScalingAnswers) : Composer :=
  let stepped := decide (s.horizontalStep ≠ 0) || decide (s.verticalStep ≠ 0)
  let scaled := decide (s.scaleType ≠ .none)
  let result := s.callback && scaled && a.scalingType
  let result := if s.callback && result && stepped then a.overscan else result
  let result := if !result && (scaled || stepped) then a.surfaceFlinger else result
  if result then { s with scaleType := .none, horizontalStep := 0, verticalStep := 0 } else s

def notifyHotplug (s : Composer) (dispId : DisplayId) (connected : Bool)
    (status : ConnectionStatus) (a : ScalingAnswers) : Composer :=
  if dispId = .virtual then
    { s with mode := { s.mode with widiOn := connected } }.broadcastMode false
  else
    let t := s.setVideoOn.updateHdmiConnectStatus status
    let t := if s.mode ≠ t.mode then t.broadcastMode false else t
    t.resetScaling a

def updateVideoState (s : Composer) (sessionId : ℤ) (state : VideoState) : Composer :=
  if sessionId < 0 ∨ videoSessionMax ≤ sessionId then s
  else if s.videos sessionId.toNat = state then s
  else if state = .unknown then s
  else
    let t := { s with videos := Function.update s.videos sessionId.toNat state }.setVideoOn
    if s.mode ≠ t.mode then t.broadcastMode (state = .unprepared) else t

def resetVideoPlayback (s : Composer) : Composer :=
  if s.videoSessionSize = 0 then s
  else
    { s with
      videos := fun _ => .unprepared
      mode := { s.mode with videoOn := false } }.broadcastMode false

/-- `setVppState`; `status` is `none` for -1. -/
def setVppState (s : Composer) (dpyId : DisplayId) (connected : Bool) (status : Option ℤ) :
    Composer :=
  match status with
  | none =>
    if dpyId ≠ .virtual then s
    else { s with displayId := if connected then dpyId else .primary }
  | some _ =>
    let t := { s with mode := { s.mode with vppChanged := true } }.broadcastMode false
    { t with mode := { t.mode with vppChanged := false } }

def registerCallback (s : Composer) (isNull : Bool) (status : ConnectionStatus) : Composer :=
  if isNull then s else { s with callback := true }.updateHdmiConnectStatus status

/-- The first id that no listener has, or the maximum. -/
def validId (listeners : List Listener) : ℕ :=
  ((List.range listenerMax).find? fun i => listeners.all fun l => l.id != i).getD listenerMax

/-- `registerListener`, with the name, or `none` for a null pointer. The order of the listeners does
not matter. -/
def registerListener (s : Composer) (isNull : Bool) (name : Option String) (msg : UInt32) :
    Composer :=
  match name with
  | none => s
  | some name =>
    if msg = 0 ∨ isNull then s
    else if listenerMax ≤ s.listeners.length ∨ listenerMax ≤ s.listenerId then s
    else if s.listeners.any fun l => l.id == s.listenerId then s
    else
      let listeners := ⟨msg, s.listenerId, name, [], s.changes⟩ :: s.listeners
      { s with
        listeners := listeners
        listenerId :=
          if listenerMax ≤ s.listenerId + 1 then validId listeners else s.listenerId + 1 }

def unregisterListener (s : Composer) (listenerId : ℤ) : Composer :=
  if listenerId < 0 then s
  else { s with listeners := s.listeners.eraseP fun l => l.id == listenerId.toNat }

def setHdmiScalingType (s : Composer) (type : ScalingType) (a : ScalingAnswers) : Composer :=
  if (s.callback && a.scalingType) || a.surfaceFlinger then { s with scaleType := type } else s

def setHdmiOverscan (s : Composer) (hVal vVal : ℤ) (a : ScalingAnswers) : Composer :=
  let hVal := if overscanMax < hVal then 0 else overscanMax - hVal
  let vVal := if overscanMax < vVal then 0 else overscanMax - vVal
  if (s.callback && a.overscan) || a.surfaceFlinger then
    { s with horizontalStep := hVal, verticalStep := vVal }
  else s

end Composer

/-! ### Runs -/

/-- The operations, with what is read from drm. -/
inductive Operation
  | updateVideoState (sessionId : ℤ) (state : VideoState)
  | resetVideoPlayback
  | updateHdmiConnectionStatus (connected : Bool) (status : ConnectionStatus)
      (a : Composer.ScalingAnswers)
  | updateWidiConnectionStatus (connected : Bool)
  | registerCallback (isNull : Bool) (status : ConnectionStatus)
  | unregisterCallback
  | setVppState (dpyId : DisplayId) (connected : Bool) (status : Option ℤ)
  | registerListener (isNull : Bool) (name : Option String) (msg : UInt32)
  | unregisterListener (listenerId : ℤ)
  | setHdmiScalingType (type : ScalingType) (a : Composer.ScalingAnswers)
  | setHdmiOverscan (hVal vVal : ℤ) (a : Composer.ScalingAnswers)

/-- A session becomes unprepared. -/
def Operation.unprepares : Operation → Bool
  | .updateVideoState _ state => state = .unprepared
  | _ => false

namespace Composer

def operate (s : Composer) : Operation → Composer
  | .updateVideoState sessionId state => s.updateVideoState sessionId state
  | .resetVideoPlayback => s.resetVideoPlayback
  | .updateHdmiConnectionStatus connected status a => s.notifyHotplug .external connected status a
  | .updateWidiConnectionStatus connected =>
    s.notifyHotplug .virtual connected .disconnected ⟨false, false, false⟩
  | .registerCallback isNull status => s.registerCallback isNull status
  | .unregisterCallback => { s with callback := false }
  | .setVppState dpyId connected status => s.setVppState dpyId connected status
  | .registerListener isNull name msg => s.registerListener isNull name msg
  | .unregisterListener listenerId => s.unregisterListener listenerId
  | .setHdmiScalingType type a => s.setHdmiScalingType type a
  | .setHdmiOverscan hVal vVal a => s.setHdmiOverscan hVal vVal a

/-- The change of the mode, if there is one, is counted. -/
def count (s t : Composer) (unprepared : Bool) : Composer :=
  if s.mode = t.mode then t else { t with changes := t.changes + 1, unpreparedLast := unprepared }

/-- One operation. -/
def step (s : Composer) (x : Operation) : Option Composer :=
  some (s.count (s.operate x) x.unprepares)

/-- The video bit agrees with the sessions, and the connection is the one that was read last. -/
structure ModeAgrees (s : Composer) : Prop where
  videoOn : s.mode.videoOn = true ↔ ∃ i < videoSessionMax, s.videos i = .prepared
  hdmi : s.mode.hdmiConnected = true ↔ s.lastRead = .hdmi
  dvi : s.mode.dviConnected = true ↔ s.lastRead = .dvi

/-- The mode is right, and the listeners know it. -/
structure ModeTracked (s : Composer) : Prop extends ModeAgrees s where
  told : ∀ l ∈ s.listeners, l.checkMsg modeChange = true → l.since < s.changes →
    ¬ (s.unpreparedLast = true ∧ l.name = "VideoDriver") → l.lastTold = some s.mode

/-- The connection that is read is not HDMI while the mode says DVI, or the other way round. -/
def readKeeps (s : Composer) : ConnectionStatus → Bool
  | .hdmi => !s.mode.dviConnected
  | .dvi => !s.mode.hdmiConnected
  | .disconnected => true

/-- The reads of the connection fit the mode, and one in `registerCallback` changes the mode only
when no listener is to be told. -/
def keeps (s : Composer) : Operation → Bool
  | .updateHdmiConnectionStatus _ status _ => s.readKeeps status
  | .registerCallback isNull status =>
    isNull || (s.readKeeps status && ((s.updateHdmiConnectStatus status).mode == s.mode ||
      s.listeners.all fun l => !l.checkMsg modeChange))
  | _ => true

end Composer

/-! ### The table of listeners -/

/-- What the table keeps of a listener. -/
def Listener.entry (l : Listener) : MultiDisplayListener Unit := ⟨l.msg, l.id, l.name, ()⟩

def Composer.table (s : Composer) : ListenerTable Unit := ⟨s.listenerId, s.listeners.map Listener.entry⟩

/-- The call of the table that an operation makes. -/
def Operation.listenerCall : Operation → Option (ListenerCall Unit)
  | .registerListener isNull name msg =>
    some (.register ⟨if isNull then none else some (), name, msg⟩)
  | .unregisterListener listenerId => some (.unregister listenerId)
  | _ => none

namespace Composer

/-- A listener is registered in the table. -/
theorem table_registerListener (s : Composer) (isNull : Bool) (name : Option String) (msg : UInt32) :
    (s.registerListener isNull name msg).table =
      (s.table.registerListener listenerMax ⟨if isNull then none else some (), name, msg⟩).1 := by
  have hvalid : ∀ listeners : List Listener,
      validId listeners = ListenerTable.validId listenerMax (listeners.map Listener.entry) := by
    intro listeners
    simp only [validId, ListenerTable.validId, ListenerTable.used, any_map, not_any_eq_all_not]
    rfl
  cases name with
  | none => rfl
  | some name =>
    cases isNull with
    | true =>
      rw [registerListener, if_pos (.inr rfl)]
      rfl
    | false =>
      have hlength : s.table.listeners.length = s.listeners.length := length_map ..
      have hused : ListenerTable.used s.table.listeners s.listenerId =
          s.listeners.any fun l => l.id == s.listenerId := any_map
      have hid : s.table.listenerId = s.listenerId := rfl
      simp only [registerListener, ListenerTable.registerListener, Bool.false_eq_true, or_false,
        if_false, hlength, hvalid, hused, hid, apply_ite table, apply_ite Prod.fst]
      rfl

theorem table_broadcastMode (s : Composer) (ignoreVideoDriver : Bool) :
    (s.broadcastMode ignoreVideoDriver).table = s.table := by
  refine congrArg (ListenerTable.mk _) ((map_map ..).trans (map_congr_left fun l _ => ?_))
  simp only [Function.comp_apply]
  split
  · rfl
  · rfl

theorem table_resetScaling (s : Composer) (a : ScalingAnswers) : (s.resetScaling a).table = s.table :=
  (apply_ite table ..).trans (ite_self _)

/-- Of the operations, only those of the table change it. -/
theorem table_operate (s : Composer) (x : Operation) : (s.operate x).table =
    match x.listenerCall with
    | some (.register a) => (s.table.registerListener listenerMax a).1
    | some (.unregister listenerId) => s.table.unregisterListener listenerId
    | none => s.table := by
  cases x with
  | registerListener isNull name msg => exact s.table_registerListener isNull name msg
  | unregisterListener listenerId =>
    simp only [operate, Composer.unregisterListener, Operation.listenerCall,
      ListenerTable.unregisterListener, apply_ite table]
    rw [table, table, eraseP_map]
    rfl
  | updateVideoState sessionId state =>
    simp only [operate, Composer.updateVideoState, Operation.listenerCall, apply_ite table,
      table_broadcastMode]
    split
    · rfl
    split
    · rfl
    split
    · rfl
    · exact ite_self _
  | resetVideoPlayback =>
    simp only [operate, Composer.resetVideoPlayback, Operation.listenerCall, apply_ite table,
      table_broadcastMode]
    exact ite_self _
  | updateHdmiConnectionStatus connected status a =>
    refine (table_resetScaling _ a).trans ((apply_ite table ..).trans ?_)
    rw [table_broadcastMode]
    exact ite_self _
  | updateWidiConnectionStatus connected => exact table_broadcastMode _ _
  | registerCallback isNull status =>
    simp only [operate, Composer.registerCallback, Operation.listenerCall]
    split <;> rfl
  | unregisterCallback => rfl
  | setVppState dpyId connected status =>
    cases status with
    | none => exact (apply_ite table ..).trans (ite_self _)
    | some _ =>
      exact table_broadcastMode { s with mode := { s.mode with vppChanged := true } } false
  | setHdmiScalingType type a =>
    simp only [operate, Composer.setHdmiScalingType, Operation.listenerCall]
    split <;> rfl
  | setHdmiOverscan hVal vVal a =>
    simp only [operate, Composer.setHdmiOverscan, Operation.listenerCall]
    split <;> rfl

/-- The table of every state that is reached is one that calls of the table lead to. -/
theorem exists_listenerCalls {C : Composer → Operation → Prop} {status : ConnectionStatus}
    {s : Composer} (hrun : Reach Composer.step C (constructed status) s) :
    ∃ calls, s.table = (ListenerTable.run listenerMax calls).1 := by
  refine hrun.invariant (I := fun s => ∃ calls, s.table = (ListenerTable.run listenerMax calls).1)
    ⟨[], rfl⟩ ?_
  rintro s x t ⟨calls, hcalls⟩ - hstep
  obtain rfl := Option.some.inj hstep
  have hcount : (s.count (s.operate x) x.unprepares).table = (s.operate x).table :=
    (apply_ite table ..).trans (ite_self _)
  rw [hcount, table_operate]
  cases hcall : x.listenerCall with
  | none => exact ⟨calls, hcalls⟩
  | some call =>
    refine ⟨calls ++ [call], ?_⟩
    rw [ListenerTable.run, foldl_append, ← ListenerTable.run, hcalls]
    cases call with
    | register a => rfl
    | unregister listenerId => rfl

end Composer

/-! ### What listeners are told -/

namespace Composer

variable {s t : Composer} {l : Listener}

theorem hasVideoPlaying_iff :
    s.hasVideoPlaying = true ↔ ∃ i < videoSessionMax, s.videos i = .prepared := by
  simp [hasVideoPlaying, countVideos, Nat.succ_le_iff, countP_pos_iff]

/-- An operation has left the listeners with what they should know of its new mode: those who were
told nothing have just been registered, or have seen no change, or are a video driver that a session
became unprepared for. -/
structure Announced (s t : Composer) (unprepared : Bool) : Prop where
  changes : t.changes = s.changes
  last : t.unpreparedLast = s.unpreparedLast
  vpp : t.mode.vppChanged = false
  since : ∀ l ∈ t.listeners, l.since ≤ s.changes
  told : ∀ l ∈ t.listeners, l.checkMsg modeChange = true →
    (l.since = s.changes ∧ t.mode = s.mode) ∨ l.lastTold = some t.mode ∨
    ∃ o ∈ s.listeners, o.checkMsg modeChange = true ∧ l.name = o.name ∧ l.since = o.since ∧
      l.lastTold = o.lastTold ∧ (t.mode = s.mode ∨ (unprepared = true ∧ l.name = "VideoDriver"))

/-- The mode is right and known, and no announcement of a VPP change is left in it. -/
structure Tracked (s : Composer) : Prop extends ModeTracked s where
  vpp : s.mode.vppChanged = false
  since : ∀ l ∈ s.listeners, l.since ≤ s.changes

variable {unprepared : Bool} {status : ConnectionStatus}

/-- A change that keeps the mode and loses listeners at most. -/
theorem Tracked.announced_of_mode (h : s.Tracked) (hmode : t.mode = s.mode)
    (hchanges : t.changes = s.changes) (hlast : t.unpreparedLast = s.unpreparedLast)
    (hlisteners : ∀ l ∈ t.listeners, l ∈ s.listeners) : Announced s t unprepared where
  changes := hchanges
  last := hlast
  vpp := hmode ▸ h.vpp
  since := fun l hl => h.since l (hlisteners l hl)
  told := fun l hl hcheck =>
    Or.inr (Or.inr ⟨l, hlisteners l hl, hcheck, rfl, rfl, rfl, Or.inl hmode⟩)

/-- A broadcast after a change of the mode. -/
theorem Tracked.announced_broadcast (h : s.Tracked) (hvpp : t.mode.vppChanged = false)
    (hchanges : t.changes = s.changes) (hlast : t.unpreparedLast = s.unpreparedLast)
    (hlisteners : t.listeners = s.listeners) :
    Announced s (t.broadcastMode unprepared) unprepared where
  changes := hchanges
  last := hlast
  vpp := hvpp
  since := by
    intro l hl
    simp only [broadcastMode, hlisteners, mem_map] at hl
    obtain ⟨o, ho, rfl⟩ := hl
    split <;> exact h.since o ho
  told := by
    intro l hl hcheck
    simp only [broadcastMode, hlisteners, mem_map] at hl
    obtain ⟨o, ho, rfl⟩ := hl
    right
    split at hcheck
    · rename_i hskipped
      rw [if_pos hskipped]
      rw [hcheck, Bool.not_true, Bool.or_false, Bool.and_eq_true, beq_iff_eq] at hskipped
      exact Or.inr ⟨o, ho, hcheck, rfl, rfl, rfl, Or.inr hskipped⟩
    · rename_i htold
      have hnow : (t.broadcastMode unprepared).mode = t.mode := rfl
      rw [if_neg htold, hnow]
      exact Or.inl (by simp [Listener.lastTold, hvpp])

/-- A broadcast after an operation that may have left the mode as it was. -/
theorem Tracked.announced_ite (h : s.Tracked) (hvpp : t.mode.vppChanged = false)
    (hchanges : t.changes = s.changes) (hlast : t.unpreparedLast = s.unpreparedLast)
    (hlisteners : t.listeners = s.listeners) :
    Announced s (if s.mode ≠ t.mode then t.broadcastMode unprepared else t) unprepared := by
  split
  · exact h.announced_broadcast hvpp hchanges hlast hlisteners
  · rename_i hmode
    exact h.announced_of_mode (not_not.mp hmode).symm hchanges hlast
      fun l hl => hlisteners ▸ hl

theorem Tracked.count (h : s.Tracked) (hagrees : t.ModeAgrees) (ha : Announced s t unprepared) :
    (s.count t unprepared).Tracked := by
  unfold Composer.count
  split
  · rename_i hmode
    refine { hagrees with told := ?_, vpp := ha.vpp, since := fun l hl => ha.changes ▸ ha.since l hl }
    intro l hl hcheck hsince hexempt
    rw [ha.changes] at hsince
    rw [ha.last] at hexempt
    rcases ha.told l hl hcheck with ⟨hnew, -⟩ | htold | ⟨o, ho, hocheck, hname, hosince, hlast, -⟩
    · omega
    · exact htold
    · rw [hlast, ← hmode]
      exact h.told o ho hocheck (hosince ▸ hsince) (hname ▸ hexempt)
  · rename_i hmode
    refine ⟨⟨{ hagrees with }, ?_⟩, ha.vpp, fun l hl => ?_⟩
    · intro l hl hcheck _ hexempt
      rcases ha.told l hl hcheck with ⟨-, hsame⟩ | htold | ⟨o, -, -, -, -, -, hsame | hdriver⟩
      · exact absurd hsame.symm hmode
      · exact htold
      · exact absurd hsame.symm hmode
      · exact absurd hdriver hexempt
    · have hle := ha.since l hl
      dsimp only
      rw [ha.changes]
      omega

/-! ### The operations -/

theorem ModeAgrees.read (h : s.ModeAgrees) (hkeeps : s.readKeeps status = true) :
    (s.updateHdmiConnectStatus status).ModeAgrees := by
  have hdvi : status = .hdmi → s.mode.dviConnected = false := by
    rintro rfl
    simpa [readKeeps] using hkeeps
  have hhdmi : status = .dvi → s.mode.hdmiConnected = false := by
    rintro rfl
    simpa [readKeeps] using hkeeps
  cases status with
  | disconnected => exact ⟨h.videoOn, by simp [updateHdmiConnectStatus], by simp [updateHdmiConnectStatus]⟩
  | hdmi => exact ⟨h.videoOn, by simp [updateHdmiConnectStatus], by simp [updateHdmiConnectStatus, hdvi]⟩
  | dvi => exact ⟨h.videoOn, by simp [updateHdmiConnectStatus, hhdmi], by simp [updateHdmiConnectStatus]⟩

theorem vppChanged_read (s : Composer) (status : ConnectionStatus) :
    (s.updateHdmiConnectStatus status).mode.vppChanged = s.mode.vppChanged := by
  cases status <;> rfl

theorem modeAgrees_constructed (status : ConnectionStatus) : (constructed status).ModeAgrees := by
  refine ModeAgrees.read ⟨?_, ?_, ?_⟩ (by cases status <;> rfl) <;> simp [Mode.none]

theorem tracked_constructed (status : ConnectionStatus) : (constructed status).Tracked where
  toModeAgrees := modeAgrees_constructed status
  told := by simp [constructed, updateHdmiConnectStatus]
  vpp := vppChanged_read _ status
  since := by simp [constructed, updateHdmiConnectStatus]

theorem ModeAgrees.setVideoOn (hhdmi : s.mode.hdmiConnected = true ↔ s.lastRead = .hdmi)
    (hdvi : s.mode.dviConnected = true ↔ s.lastRead = .dvi) : s.setVideoOn.ModeAgrees :=
  ⟨hasVideoPlaying_iff, hhdmi, hdvi⟩

/-- A broadcast changes only what the listeners were told. -/
theorem ModeAgrees.broadcastMode (h : s.ModeAgrees) (ignoreVideoDriver : Bool) :
    (s.broadcastMode ignoreVideoDriver).ModeAgrees :=
  { h with }

theorem ModeAgrees.announce (h : t.ModeAgrees) (s : Composer) (unprepared : Bool) :
    (if s.mode ≠ t.mode then t.broadcastMode unprepared else t).ModeAgrees := by
  split
  · exact h.broadcastMode unprepared
  · exact h

/-- The scaling is nothing that the mode depends on. -/
theorem resetScaling_frame (s : Composer) (a : ScalingAnswers) :
    ∃ type h v, s.resetScaling a =
      { s with scaleType := type, horizontalStep := h, verticalStep := v } := by
  unfold resetScaling
  extract_lets stepped scaled result₀ result₁ result
  split
  · exact ⟨.none, 0, 0, rfl⟩
  · exact ⟨s.scaleType, s.horizontalStep, s.verticalStep, rfl⟩

theorem Tracked.widi (h : s.Tracked) (connected : Bool) (status : ConnectionStatus)
    (a : ScalingAnswers) :
    (s.count (s.notifyHotplug .virtual connected status a) false).Tracked := by
  refine h.count (ModeAgrees.broadcastMode ?_ false) ?_
  · exact { h with }
  · exact h.announced_broadcast (by exact h.vpp) (by rfl) (by rfl) (by rfl)

theorem Tracked.external (h : s.Tracked) (hkeeps : s.readKeeps status = true) (connected : Bool)
    (a : ScalingAnswers) :
    (s.count (s.notifyHotplug .external connected status a) false).Tracked := by
  have hagrees : (s.setVideoOn.updateHdmiConnectStatus status).ModeAgrees :=
    (ModeAgrees.setVideoOn h.hdmi h.dvi).read hkeeps
  have hvpp : (s.setVideoOn.updateHdmiConnectStatus status).mode.vppChanged = false :=
    (vppChanged_read _ status).trans h.vpp
  have hannounced : Announced s (if s.mode ≠ (s.setVideoOn.updateHdmiConnectStatus status).mode then
      (s.setVideoOn.updateHdmiConnectStatus status).broadcastMode false
    else s.setVideoOn.updateHdmiConnectStatus status) false := h.announced_ite hvpp rfl rfl rfl
  have htold := hagrees.announce s false
  rw [Composer.notifyHotplug, if_neg (by decide)]
  dsimp only
  generalize (if s.mode ≠ (s.setVideoOn.updateHdmiConnectStatus status).mode then
      (s.setVideoOn.updateHdmiConnectStatus status).broadcastMode false
    else s.setVideoOn.updateHdmiConnectStatus status) = t at hannounced htold ⊢
  obtain ⟨type, hstep, vstep, hframe⟩ := t.resetScaling_frame a
  rw [hframe]
  exact h.count { htold with }
    { hannounced with }

/-- An operation that does nothing to the mode. -/
theorem Tracked.unchanged (h : s.Tracked) (unprepared : Bool) : (s.count s unprepared).Tracked :=
  h.count h.toModeAgrees (h.announced_of_mode (by rfl) (by rfl) (by rfl) (by exact fun _ hl => hl))

theorem Tracked.updateVideoState (h : s.Tracked) (sessionId : ℤ) (state : VideoState) :
    (s.count (s.updateVideoState sessionId state) (state = .unprepared)).Tracked := by
  unfold Composer.updateVideoState
  split
  · exact h.unchanged _
  · split
    · exact h.unchanged _
    · split
      · exact h.unchanged _
      · dsimp only
        refine h.count (ModeAgrees.announce ?_ s _) ?_
        · exact ModeAgrees.setVideoOn h.hdmi h.dvi
        · exact h.announced_ite (by exact h.vpp) (by rfl) (by rfl) (by rfl)

theorem Tracked.resetVideoPlayback (h : s.Tracked) :
    (s.count s.resetVideoPlayback false).Tracked := by
  unfold Composer.resetVideoPlayback
  split
  · exact h.unchanged false
  · refine h.count (ModeAgrees.broadcastMode ?_ false) ?_
    · exact ⟨by simp, h.hdmi, h.dvi⟩
    · exact h.announced_broadcast (by exact h.vpp) (by rfl) (by rfl) (by rfl)

/-- The announcement of a VPP state is over when the operation ends: the last mode that a listener
was told before counts. -/
theorem Tracked.setVppState (h : s.Tracked) (dpyId : DisplayId) (connected : Bool)
    (status : Option ℤ) : (s.count (s.setVppState dpyId connected status) false).Tracked := by
  cases status with
  | none =>
    unfold Composer.setVppState
    dsimp only
    split
    · exact h.unchanged false
    · exact h.count { h with }
        (h.announced_of_mode (by rfl) (by rfl) (by rfl) (by exact fun _ hl => hl))
  | some status =>
    have hmode : (s.setVppState dpyId connected (some status)).mode = s.mode := by
      simp [Composer.setVppState, Composer.broadcastMode, ← h.vpp]
    refine h.count ⟨?_, ?_, ?_⟩ ⟨rfl, rfl, hmode ▸ h.vpp, ?_, ?_⟩
    · rw [hmode]
      exact h.videoOn
    · rw [hmode]
      exact h.hdmi
    · rw [hmode]
      exact h.dvi
    · intro l hl
      obtain ⟨o, ho, rfl⟩ := mem_map.mp hl
      split <;> exact h.since o ho
    · intro l hl hcheck
      obtain ⟨o, ho, rfl⟩ := mem_map.mp hl
      refine Or.inr (Or.inr ⟨o, ho, ?_, ?_, ?_, ?_, Or.inl hmode⟩)
      · split at hcheck <;> exact hcheck
      · split <;> rfl
      · split <;> rfl
      · split
        · rfl
        · simp [Listener.lastTold]

theorem Tracked.registerCallback (h : s.Tracked) {isNull : Bool}
    (hkeeps : s.keeps (.registerCallback isNull status) = true) :
    (s.count (s.registerCallback isNull status) false).Tracked := by
  unfold Composer.registerCallback
  split
  · exact h.unchanged false
  · rename_i hnull
    simp only [keeps, hnull, Bool.false_or, Bool.and_eq_true, Bool.or_eq_true, beq_iff_eq,
      all_eq_true, Bool.not_eq_true'] at hkeeps
    obtain ⟨hread, hquiet⟩ := hkeeps
    have hagrees := h.toModeAgrees.read hread
    refine h.count { hagrees with }
      ⟨rfl, rfl, (vppChanged_read _ status).trans h.vpp, h.since, fun l hl hcheck => ?_⟩
    rcases hquiet with hmode | hnone
    · exact Or.inr (Or.inr ⟨l, hl, hcheck, rfl, rfl, rfl, Or.inl hmode⟩)
    · rw [hnone l hl] at hcheck
      cases hcheck

theorem Tracked.registerListener (h : s.Tracked) (isNull : Bool) (name : Option String)
    (msg : UInt32) : (s.count (s.registerListener isNull name msg) false).Tracked := by
  unfold Composer.registerListener
  split
  · exact h.unchanged false
  · split
    · exact h.unchanged false
    · split
      · exact h.unchanged false
      · split
        · exact h.unchanged false
        · refine h.count { h with } ⟨rfl, rfl, h.vpp, ?_, ?_⟩
          · intro l hl
            rcases mem_cons.mp hl with rfl | hl
            · exact Nat.le_refl _
            · exact h.since l hl
          · intro l hl hcheck
            rcases mem_cons.mp hl with rfl | hl
            · exact Or.inl ⟨rfl, rfl⟩
            · exact Or.inr (Or.inr ⟨l, hl, hcheck, rfl, rfl, rfl, Or.inl rfl⟩)

theorem Tracked.step {x : Operation} (h : s.Tracked) (hkeeps : s.keeps x = true)
    (hstep : s.step x = some t) : t.Tracked := by
  rw [← Option.some.inj hstep]
  cases x with
  | updateVideoState sessionId state => exact h.updateVideoState sessionId state
  | resetVideoPlayback => exact h.resetVideoPlayback
  | updateHdmiConnectionStatus connected status a => exact h.external hkeeps connected a
  | updateWidiConnectionStatus connected => exact h.widi connected _ _
  | registerCallback isNull status => exact h.registerCallback hkeeps
  | unregisterCallback =>
    exact h.count ⟨h.videoOn, h.toModeAgrees.hdmi, h.dvi⟩
      (h.announced_of_mode (by rfl) (by rfl) (by rfl) (by exact fun _ hl => hl))
  | setVppState dpyId connected status => exact h.setVppState dpyId connected status
  | registerListener isNull name msg => exact h.registerListener isNull name msg
  | unregisterListener listenerId =>
    unfold operate Composer.unregisterListener
    dsimp only
    split
    · exact h.unchanged _
    · exact h.count ⟨h.videoOn, h.toModeAgrees.hdmi, h.dvi⟩
        (h.announced_of_mode (by rfl) (by rfl) (by rfl)
          (by exact fun _ hl => mem_of_mem_eraseP hl))
  | setHdmiScalingType type a =>
    unfold operate Composer.setHdmiScalingType
    dsimp only
    split
    · exact h.count ⟨h.videoOn, h.toModeAgrees.hdmi, h.dvi⟩
        (h.announced_of_mode (by rfl) (by rfl) (by rfl) (by exact fun _ hl => hl))
    · exact h.unchanged _
  | setHdmiOverscan hVal vVal a =>
    unfold operate Composer.setHdmiOverscan
    dsimp only
    split
    · exact h.count ⟨h.videoOn, h.toModeAgrees.hdmi, h.dvi⟩
        (h.announced_of_mode (by rfl) (by rfl) (by rfl) (by exact fun _ hl => hl))
    · exact h.unchanged _

end Composer

open Composer

/-- In every run whose reads of the connection do not go from HDMI to DVI or back, and in which
`registerCallback` finds no change that a listener should be told, the mode is right after every
operation and the listeners know it. -/
theorem mode_tracked {status : ConnectionStatus} {s : Composer}
    (hrun : Reach Composer.step (fun s x => s.keeps x = true) (constructed status) s) :
    s.ModeTracked :=
  (hrun.invariant (tracked_constructed status) fun _ _ _ => Tracked.step).toModeTracked

/-- A listener is registered, HDMI is connected and a video starts. -/
theorem mode_tracked_video : ∃ s : Composer, s.ModeTracked ∧
    s.mode = ⟨false, true, false, true, false⟩ ∧ s.listeners.map (·.lastTold) = [some s.mode] := by
  obtain ⟨s, hrun, hs⟩ : ∃ s, Reach Composer.step (fun s x => s.keeps x = true)
      (constructed .disconnected) s ∧ s.mode = ⟨false, true, false, true, false⟩ ∧
        s.listeners.map (·.lastTold) = [some s.mode] :=
    Reach.exists_of_decide (fun _ _ h => h)
      [.registerListener false (some "VideoDriver") modeChange,
        .updateHdmiConnectionStatus true .hdmi ⟨false, false, false⟩,
        .updateVideoState 0 .prepared] (by decide)
  exact ⟨s, mode_tracked hrun, hs⟩

/-- HDMI is connected when the callback is registered, and then the monitor is changed for a DVI
one: both bits are set. -/
theorem hdmi_and_dvi_connected : ¬ ∀ (status : ConnectionStatus) (s : Composer),
    Reach Composer.step (fun _ _ => True) (constructed status) s → s.ModeTracked := by
  intro h
  obtain ⟨s, hrun, hhdmi, hdvi⟩ : ∃ s, Reach Composer.step (fun _ _ => True) (constructed .hdmi) s ∧
      s.mode.hdmiConnected = true ∧ s.mode.dviConnected = true :=
    Reach.exists_of_decide (fun _ _ h => h)
      [.updateHdmiConnectionStatus true .dvi ⟨false, false, false⟩] (by decide)
  have htracked := h .hdmi s hrun
  have hread := htracked.dvi.mp hdvi
  rw [htracked.hdmi.mp hhdmi] at hread
  cases hread

end HardwareIntel.MultiDisplay
