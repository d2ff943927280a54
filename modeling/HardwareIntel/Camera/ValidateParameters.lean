import Mathlib.Data.List.Infix
import HardwareIntel.Library.Brackets

/-!
# Validation of camera parameters

`validateParameters` accepts a set of parameters if every check passes. The modes are looked for in
their lists of supported values by `validateString`, which scans the list with a bracket counter;
the range of the preview's frame rates is only looked for as a part of the text.
`validateParameters_exact` says when all that is accepted is a member.
-/

namespace HardwareIntel.Camera.Parameters

open List Option

/-- Strings of C, without their end. -/
abbrev Str := List Char

/-- The comparisons of `validateString` at the end of an element: the element is the value, or a
bracket, the value and one more character. -/
def matchesValue (value element : Str) : Bool :=
  (decide (element.length = value.length) && element.take value.length == value) ||
    (decide (element.length = value.length + 2) && element.head? == some '(' &&
      (element.drop 1).take value.length == value)

/-- The loop of `validateString`, from `endPtr` on, with the bracket level and the characters from
`startPtr` on. -/
def scan (value : Str) : Str → ℤ → Str → Bool
  | [], bracketLevel, element => decide (bracketLevel = 0) && matchesValue value element
  | c :: rest, bracketLevel, element =>
    if c = '(' then scan value rest (bracketLevel + 1) (element ++ [c])
    else if c = ')' then scan value rest (bracketLevel - 1) (element ++ [c])
    else if bracketLevel = 0 ∧ c = ',' then
      matchesValue value element || scan value rest bracketLevel []
    else scan value rest bracketLevel (element ++ [c])

def validateString : Option Str → Option Str → Bool
  | some _, none => false
  | none, _ => true
  | some value, some supportList => scan value supportList 0 []

/-- The keys that are read. -/
inductive Key
  | supportedPreviewSizes | supportedPreviewFpsRange | supportedPreviewFormats
  | supportedPreviewFrameRates | supportedPictureSizes | supportedPictureFormats
  | supportedJpegThumbnailSizes | supportedWhiteBalance | supportedEffects | supportedSceneModes
  | maxNumFocusAreas | autoExposureLockSupported | autoWhitebalanceLockSupported | maxZoom
  | zoomRatios | zoomSupported | smoothZoomSupported | supportedVideoSizes | maxNumDetectedFacesHw
  | maxNumDetectedFacesSw | videoSnapshotSupported | videoStabilizationSupported
  | supportedNoiseReductionAndEdgeEnhancement | supportedMultiAccessColorCorrections
  | supportedAeModes | supportedShutter | supportedAperture | supportedAfLockModes
  | supportedBackLightingCorrectionModes | supportedAfMeteringModes | supportedBurstLength
  | supportedBurstFps | supportedBurstSpeed | supportedPreviewUpdateMode | supportedRawDataFormats
  | supportedCaptureBracket | supportedRotationModes | supportedHdrImaging
  | supportedHdrSaveOriginal | supportedSmileShutter | supportedBlinkShutter
  | supportedFaceDetection | supportedFaceRecognition | supportedSceneDetection | supportedPanorama
  | supportedPanoramaLivePreviewSizes | panoramaMaxSnapshotCount | hwOverlayRenderingSupported
  | supportedSlowMotionRate | supportedRecordingFrameRates | supportedHighSpeedResolutionFps
  | dualModeSupported | supportedDualCameraMode | supportedBurstStartIndex
  | maxBurstLengthWithNegativeStartIndex | supportedContrastModes | supportedSaturationModes
  | supportedSharpnessModes | supportedUll | sdvSupported | supportedSaveMirrored
  | supportedGpsImgDirectionRef | supportedFocusModes | supportedAntibanding
  | maxExposureCompensation | minExposureCompensation | exposureCompensationStep | supportedIso
  | supportedAwbMappingModes | supportedAeMeteringModes | supportedXnr | supportedAnr
  | previewFpsRange | recordingFrameRate | jpegQuality | jpegThumbnailQuality | jpegThumbnailWidth
  | jpegThumbnailHeight | pictureFormat | previewFormat | rotation | whiteBalance | zoom
  | flashMode | supportedFlashModes | sceneMode | focusMode | burstLength | burstStartIndex
  | captureBracket | burstSpeed | hwOverlayRendering | panoramaLivePreviewSize | antibanding
  | effect | exposureCompensation | noiseReductionAndEdgeEnhancement | multiAccessColorCorrection
  | autoExposureLock | autoWhitebalanceLock | videoStabilization | sdv | dualMode | dualCameraMode
  | continuousShooting | continuousShootingSupported | contrastMode | saturationMode
  | sharpnessMode | intelligentMode | supportedIntelligentMode | colorbar | supportedColorbar
  | previewSize | videoSize | pictureSize
  deriving DecidableEq

/-- The parameters that are set. -/
abbrev Params := Key → Option Str

abbrev Size := ℤ × ℤ

/-- The methods of `CameraParameters`. -/
structure CameraParameters where
  set : Params → Key → Option Str → Params
  getInt : Params → Key → ℤ
  getSupportedPreviewSizes : Params → List Size
  getSupportedVideoSizes : Params → List Size
  getSupportedPictureSizes : Params → List Size
  getPreviewSize : Params → Size
  getVideoSize : Params → Size
  getPictureSize : Params → Size
  getPreviewFpsRange : Params → ℤ × ℤ

/-- `validateReadOnlyParameters`: values that changed are restored. -/
def validateReadOnlyParameters (methods : CameraParameters) (oldParams : Params) (keys : List Key)
    (params : Params) : Params :=
  keys.foldl (fun p key => if oldParams key = p key then p else methods.set p key (oldParams key))
    params

def readOnly : List Key :=
  [.supportedPreviewSizes, .supportedPreviewFpsRange, .supportedPreviewFormats,
    .supportedPreviewFrameRates, .supportedPictureSizes, .supportedPictureFormats,
    .supportedJpegThumbnailSizes, .supportedWhiteBalance, .supportedEffects, .supportedSceneModes,
    .maxNumFocusAreas, .autoExposureLockSupported, .autoWhitebalanceLockSupported, .maxZoom,
    .zoomRatios, .zoomSupported, .smoothZoomSupported, .supportedVideoSizes,
    .maxNumDetectedFacesHw, .maxNumDetectedFacesSw, .videoSnapshotSupported,
    .videoStabilizationSupported, .supportedNoiseReductionAndEdgeEnhancement,
    .supportedMultiAccessColorCorrections, .supportedAeModes, .supportedShutter,
    .supportedAperture, .supportedAfLockModes, .supportedBackLightingCorrectionModes,
    .supportedAfMeteringModes, .supportedBurstLength, .supportedBurstFps, .supportedBurstSpeed,
    .supportedPreviewUpdateMode, .supportedRawDataFormats, .supportedCaptureBracket,
    .supportedRotationModes, .supportedHdrImaging, .supportedHdrSaveOriginal,
    .supportedSmileShutter, .supportedBlinkShutter, .supportedFaceDetection,
    .supportedFaceRecognition, .supportedSceneDetection, .supportedPanorama,
    .supportedPanoramaLivePreviewSizes, .panoramaMaxSnapshotCount, .hwOverlayRenderingSupported,
    .supportedSlowMotionRate, .supportedRecordingFrameRates, .supportedHighSpeedResolutionFps,
    .dualModeSupported, .supportedDualCameraMode, .supportedBurstStartIndex,
    .maxBurstLengthWithNegativeStartIndex, .supportedContrastModes, .supportedSaturationModes,
    .supportedSharpnessModes, .supportedUll, .sdvSupported, .supportedSaveMirrored,
    .supportedGpsImgDirectionRef]

def readOnlyInScene : List Key :=
  [.supportedFocusModes, .supportedAntibanding, .maxExposureCompensation,
    .minExposureCompensation, .exposureCompensationStep, .supportedIso, .supportedAwbMappingModes,
    .supportedAeMeteringModes, .supportedXnr, .supportedAnr]

/-- The parameters after the read-only ones were restored, some of them only if the scene mode did
not change. -/
def restoreReadOnly (methods : CameraParameters) (oldParams params : Params) : Params :=
  let params := validateReadOnlyParameters methods oldParams readOnly params
  if oldParams .sceneMode = params .sceneMode then
    validateReadOnlyParameters methods oldParams readOnlyInScene params
  else params

def validateSize (size : Size) (supportedSizes : List Size) (onlyWarning : Bool) : Bool :=
  if size.1 < 0 ∨ size.2 < 0 then false else decide (size ∈ supportedSizes) || onlyWarning

/-- `isParameterSet`: the value starts with `true`. -/
def isParameterSet (param : Key) (params : Params) : Bool :=
  match params param with
  | some value => "true".toList.isPrefixOf value
  | none => false

def validateBoolParameter (param supported : Key) (params : Params) : Bool :=
  match params param with
  | none => true
  | some value =>
    if value ≠ "true".toList ∧ value ≠ "false".toList then false
    else !(isParameterSet param params && !isParameterSet supported params)

/-- `strtol` with base 10: the number and what follows it, or zero and all of the text. -/
def strtol (s : Str) : ℤ × Str :=
  let t := s.dropWhile fun c => c ∈ [' ', '\t', '\n', '\x0b', '\x0c', '\r']
  let (sign, t) : ℤ × Str :=
    match t with
    | '-' :: t => (-1, t)
    | '+' :: t => (1, t)
    | t => (1, t)
  let digits := t.takeWhile Char.isDigit
  let number : ℤ := digits.foldl (fun n c => 10 * n + (c.toNat - '0'.toNat)) 0
  if digits = [] then (0, s)
  else (max (-2 ^ 31) (min (2 ^ 31 - 1) (sign * number)), t.dropWhile Char.isDigit)

def atoi (s : Str) : ℤ := (strtol s).1

/-- The sizes of thumbnails. Every round takes two characters at least; there is no result if one
behind the end is read. -/
def thumbnailSizes : ℕ → Str → Option (List Size)
  | 0, _ => none
  | n + 1, s =>
    let (width, s) := strtol s
    match s with
    | [] => none
    | _ :: s =>
      let (height, s) := strtol s
      match s with
      | [] => some [(width, height)]
      | _ :: s => (thumbnailSizes n s).map ((width, height) :: ·)

/-- A negative start index excludes brackets and long bursts. -/
def validateBurstStart (methods : CameraParameters) (p : Params) : Bool :=
  match p .burstStartIndex with
  | none => true
  | some burstStart =>
    if atoi burstStart < 0 then
      let noBracket := (p .captureBracket).all (· == "none".toList)
      let length := (p .burstLength).elim 0 atoi
      noBracket && decide (length ≤ methods.getInt p .maxBurstLengthWithNegativeStartIndex)
    else true

/-- The frame rates of the preview: the range is somewhere in the list of ranges. -/
def validateFpsRange (methods : CameraParameters) (p : Params) : Bool :=
  let (minFPS, maxFPS) := methods.getPreviewFpsRange p
  let notFound :=
    match p .previewFpsRange, p .supportedPreviewFpsRange with
    | some fpsRange, some fpsRanges => !decide (fpsRange <:+: fpsRanges)
    | _, _ => false
  !(notFound || decide (minFPS < 0) || decide (maxFPS < 0))

/-- A mode against its list. -/
def validateMode (p : Params) (mode : Key × Key) : Option Bool :=
  some (validateString (p mode.1) (p mode.2))

/-- The checks in the order of the code. -/
def checks (methods : CameraParameters) (continuousJpeg : Bool) (p : Params) : List (Option Bool) :=
  let onlyWarning := !continuousJpeg
  let previewSizes :=
    methods.getSupportedPreviewSizes p ++ if continuousJpeg then [(3264, 1836)] else []
  let pictureSize := methods.getPictureSize p
  let between (low : ℤ) (key : Key) (high : ℤ) :=
    some (decide (low ≤ methods.getInt p key ∧ methods.getInt p key ≤ high))
  let thumbnail :=
    match p .supportedJpegThumbnailSizes with
    | none => some false
    | some sizes => (thumbnailSizes (sizes.length + 1) sizes).map fun sizes =>
      validateSize (methods.getInt p .jpegThumbnailWidth, methods.getInt p .jpegThumbnailHeight)
        sizes onlyWarning
  [some (validateSize (methods.getPreviewSize p) previewSizes onlyWarning),
    some (validateFpsRange methods p),
    some (validateSize (methods.getVideoSize p) (methods.getSupportedVideoSizes p) onlyWarning),
    validateMode p (.recordingFrameRate, .supportedRecordingFrameRates),
    some (pictureSize == (0, 0) ||
      validateSize pictureSize (methods.getSupportedPictureSizes p) onlyWarning),
    between 1 .jpegQuality 100, between 1 .jpegThumbnailQuality 100,
    thumbnail, validateMode p (.pictureFormat, .supportedPictureFormats),
    validateMode p (.previewFormat, .supportedPreviewFormats),
    some (decide (methods.getInt p .rotation ∈ [0, 90, 180, 270])),
    validateMode p (.whiteBalance, .supportedWhiteBalance),
    between 0 .zoom (methods.getInt p .maxZoom), validateMode p (.flashMode, .supportedFlashModes),
    validateMode p (.sceneMode, .supportedSceneModes),
    validateMode p (.focusMode, .supportedFocusModes),
    validateMode p (.burstLength, .supportedBurstLength),
    some (validateBurstStart methods p), validateMode p (.burstSpeed, .supportedBurstSpeed),
    validateMode p (.hwOverlayRendering, .hwOverlayRenderingSupported),
    validateMode p (.panoramaLivePreviewSize, .supportedPanoramaLivePreviewSizes),
    validateMode p (.antibanding, .supportedAntibanding),
    validateMode p (.effect, .supportedEffects),
    between (methods.getInt p .minExposureCompensation) .exposureCompensation
      (methods.getInt p .maxExposureCompensation),
    validateMode p (.noiseReductionAndEdgeEnhancement, .supportedNoiseReductionAndEdgeEnhancement),
    validateMode p (.multiAccessColorCorrection, .supportedMultiAccessColorCorrections),
    some (validateBoolParameter .autoExposureLock .autoExposureLockSupported p),
    some (validateBoolParameter .autoWhitebalanceLock .autoWhitebalanceLockSupported p),
    some (validateBoolParameter .videoStabilization .videoStabilizationSupported p),
    some (validateBoolParameter .sdv .sdvSupported p),
    some (validateBoolParameter .dualMode .dualModeSupported p),
    validateMode p (.dualCameraMode, .supportedDualCameraMode),
    some (validateBoolParameter .continuousShooting .continuousShootingSupported p),
    validateMode p (.contrastMode, .supportedContrastModes),
    validateMode p (.saturationMode, .supportedSaturationModes),
    validateMode p (.sharpnessMode, .supportedSharpnessModes),
    validateMode p (.intelligentMode, .supportedIntelligentMode),
    validateMode p (.colorbar, .supportedColorbar)]

inductive Status
  | noError
  | badValue
  deriving DecidableEq

/-- The first check that fails decides. -/
def runChecks : List (Option Bool) → Option Status
  | [] => some .noError
  | none :: _ => none
  | some false :: _ => some .badValue
  | some true :: rest => runChecks rest

/-- `validateParameters`, which also restores read-only parameters. There is no status if the list
of thumbnail sizes is read behind its end. -/
def validateParameters (methods : CameraParameters) (continuousJpeg : Bool)
    (oldParams params : Params) : Option Status × Params :=
  let params := restoreReadOnly methods oldParams params
  (runChecks (checks methods continuousJpeg params), params)

/-! ## What is accepted -/

section Scan

variable {value list : Str}

theorem matchesValue_iff {element : Str} : matchesValue value element = true ↔
    element = value ∨ ∃ c, element = '(' :: value ++ [c] := by
  simp only [matchesValue, Bool.or_eq_true, Bool.and_eq_true, decide_eq_true_iff, beq_iff_eq]
  refine or_congr ⟨?_, ?_⟩ ⟨?_, ?_⟩
  · rintro ⟨hlength, htake⟩
    rw [← htake, ← hlength, List.take_length]
  · rintro rfl
    exact ⟨rfl, List.take_length⟩
  · rintro ⟨⟨hlength, hhead⟩, htake⟩
    obtain ⟨b, tail, rfl⟩ := List.exists_cons_of_length_pos (by omega : 0 < element.length)
    obtain rfl := Option.some.inj hhead
    have htail : (tail.drop value.length).length = 1 := by
      rw [List.length_drop]
      rw [List.length_cons] at hlength
      omega
    obtain ⟨c, hc⟩ := List.length_eq_one_iff.mp htail
    refine ⟨c, congrArg ('(' :: ·) ?_⟩
    rw [← List.take_append_drop value.length tail, hc]
    exact congrArg (· ++ [c]) htake
  · rintro ⟨c, rfl⟩
    refine ⟨⟨by simp, rfl⟩, ?_⟩
    exact List.take_left

/-- The scan finds the elements whose brackets cancel. -/
theorem scan_iff {rest : Str} : ∀ {element : Str} {level : ℤ}, net element = level →
    (scan value rest level element = true ↔ ∃ e ∈ (elements level rest).modifyHead (element ++ ·),
        net e = 0 ∧ matchesValue value e = true) := by
  induction rest with
  | nil =>
    intro element level hlevel
    rw [scan, Bool.and_eq_true_iff, decide_eq_true_iff, ← hlevel]
    have hlast : (elements (net element) []).modifyHead (element ++ ·) = [element] :=
      congrArg ([·]) (append_nil element)
    simp [hlast]
  | cons c rest ih =>
    intro element level hlevel
    have hnext := ih (net_append_singleton hlevel c)
    rw [← modifyHead_elements] at hnext
    rw [scan, elements]
    by_cases hopen : c = '('
    · have hcomma : ¬ (c = ',' ∧ level = 0) :=
        fun h => absurd (hopen.symm.trans h.1) (by decide)
      have hweight : weight c = 1 := if_pos hopen
      rw [if_pos hopen, if_neg hcomma, hweight]
      rwa [hweight] at hnext
    by_cases hclose : c = ')'
    · have hcomma : ¬ (c = ',' ∧ level = 0) :=
        fun h => absurd (hclose.symm.trans h.1) (by decide)
      have hweight : weight c = -1 := (if_neg hopen).trans (if_pos hclose)
      rw [if_neg hopen, if_pos hclose, if_neg hcomma, hweight, sub_eq_add_neg]
      rwa [hweight] at hnext
    have hweight : weight c = 0 := (if_neg hopen).trans (if_neg hclose)
    rw [if_neg hopen, if_neg hclose]
    rw [hweight, add_zero] at hnext
    by_cases hcomma : c = ',' ∧ level = 0
    · obtain ⟨hc, rfl⟩ := hcomma
      have hrest := @ih [] 0 net_nil
      rw [modifyHead_nil_append] at hrest
      have hsplit : ([] :: elements 0 rest).modifyHead (element ++ ·) =
          element :: elements 0 rest :=
        congrArg (· :: elements 0 rest) (append_nil element)
      rw [if_pos ⟨rfl, hc⟩, if_pos ⟨hc, rfl⟩, Bool.or_eq_true_iff, hrest, hsplit]
      simp [hlevel]
    · rw [if_neg fun h => hcomma ⟨h.2, h.1⟩, if_neg hcomma, hweight, add_zero]
      exact hnext

/-- What `validateString` accepts. -/
theorem validateString_iff : validateString (some value) (some list) = true ↔
    ∃ e ∈ elements 0 list, net e = 0 ∧ (e = value ∨ ∃ c, e = '(' :: value ++ [c]) := by
  rw [validateString, scan_iff net_nil, modifyHead_nil_append]
  simp [matchesValue_iff]

/-- The value is an element itself, or its brackets are balanced, or no element is a bracket, the
value and one more character. -/
def Clear (value list : Str) : Prop :=
  value ∈ elements 0 list ∨ Balanced value ∨ ∀ c, '(' :: value ++ [c] ∉ elements 0 list

/-- The last character of an element around a balanced value closes the bracket. -/
theorem eq_of_net_eq_zero (h : Balanced value) {c : Char} (hnet : net ('(' :: value ++ [c]) = 0) :
    c = ')' := by
  have hopen : weight '(' = 1 := rfl
  rw [cons_append, net_cons, net_append, h.net, net_cons, net_nil, hopen, weight] at hnet
  by_cases hbracket : c = '('
  · rw [if_pos hbracket] at hnet
    exact absurd hnet (by decide)
  · by_contra hclose
    rw [if_neg hbracket, if_neg hclose] at hnet
    exact absurd hnet (by decide)

/-- What is accepted is a member, if nothing else than a pair of brackets was taken off. -/
theorem isMember_iff_clear (h : validateString (some value) (some list) = true) :
    IsMember value list ↔ Clear value list := by
  obtain ⟨e, he, hnet, rfl | ⟨c, rfl⟩⟩ := validateString_iff.mp h
  · exact iff_of_true (.inl he) (.inl he)
  · constructor
    · rintro (hmem | ⟨-, hbalanced⟩)
      · exact .inl hmem
      · exact .inr (.inl hbalanced)
    · rintro (hmem | hbalanced | hnone)
      · exact .inl hmem
      · obtain rfl := eq_of_net_eq_zero hbalanced hnet
        exact .inr ⟨he, hbalanced⟩
      · exact absurd he (hnone c)

theorem validateString_of_isMember (hlist : Balanced list) (h : IsMember value list) :
    validateString (some value) (some list) = true := by
  obtain hmem | ⟨hmem, -⟩ := h
  · exact validateString_iff.mpr ⟨_, hmem, net_of_mem_elements hlist hmem, .inl rfl⟩
  · exact validateString_iff.mpr ⟨_, hmem, net_of_mem_elements hlist hmem, .inr ⟨_, rfl⟩⟩

/-- For a list with balanced brackets, members are accepted, and nothing else is accepted exactly if
the value is clear. -/
theorem validateString_exact (hlist : Balanced list) :
    (validateString (some value) (some list) = true ↔ IsMember value list) ↔ Clear value list := by
  by_cases h : validateString (some value) (some list) = true
  · rw [iff_true_left h]
    exact isMember_iff_clear h
  · refine iff_of_true (iff_of_false h fun hmem => h (validateString_of_isMember hlist hmem)) ?_
    refine .inr (.inr fun c hc => h (validateString_iff.mpr ⟨_, hc, ?_, .inr ⟨c, rfl⟩⟩))
    exact net_of_mem_elements hlist hc

end Scan

/-- The parameters that are checked against a list of supported values. -/
def modes : List (Key × Key) :=
  [(.recordingFrameRate, .supportedRecordingFrameRates), (.pictureFormat, .supportedPictureFormats),
    (.previewFormat, .supportedPreviewFormats), (.whiteBalance, .supportedWhiteBalance),
    (.flashMode, .supportedFlashModes), (.sceneMode, .supportedSceneModes),
    (.focusMode, .supportedFocusModes), (.burstLength, .supportedBurstLength),
    (.burstSpeed, .supportedBurstSpeed), (.hwOverlayRendering, .hwOverlayRenderingSupported),
    (.panoramaLivePreviewSize, .supportedPanoramaLivePreviewSizes),
    (.antibanding, .supportedAntibanding), (.effect, .supportedEffects),
    (.noiseReductionAndEdgeEnhancement, .supportedNoiseReductionAndEdgeEnhancement),
    (.multiAccessColorCorrection, .supportedMultiAccessColorCorrections),
    (.dualCameraMode, .supportedDualCameraMode), (.contrastMode, .supportedContrastModes),
    (.saturationMode, .supportedSaturationModes), (.sharpnessMode, .supportedSharpnessModes),
    (.intelligentMode, .supportedIntelligentMode), (.colorbar, .supportedColorbar)]

/-- A parameter that is set has a list, and is a member of it. -/
def Supported (p : Params) (key list : Key) : Prop :=
  ∀ value ∈ p key, ∃ supportList ∈ p list, IsMember value supportList

/-- The modes and the range of the preview's frame rates are members of their lists. -/
def AllSupported (p : Params) : Prop :=
  (∀ mode ∈ modes, Supported p mode.1 mode.2) ∧
    Supported p .previewFpsRange .supportedPreviewFpsRange

/-- The condition: modes that are clear, and a range of frame rates with a list that has it, if at
all, as a member and not only as a part of its text. -/
def AllClear (p : Params) : Prop :=
  (∀ mode ∈ modes, ∀ value ∈ p mode.1, ∀ supportList ∈ p mode.2, Clear value supportList) ∧
    ∀ value ∈ p .previewFpsRange, ∃ supportList ∈ p .supportedPreviewFpsRange,
      value <:+: supportList → IsMember value supportList

theorem runChecks_noError {cs : List (Option Bool)} (h : runChecks cs = some .noError) :
    ∀ c ∈ cs, c = some true := by
  induction cs with
  | nil => exact forall_mem_nil _
  | cons c cs ih =>
    match c, h with
    | some true, h => exact forall_mem_cons.mpr ⟨rfl, ih h⟩

/-- Parameters that do not change are not restored. -/
theorem restoreReadOnly_self (methods : CameraParameters) (p : Params) :
    restoreReadOnly methods p p = p := by
  have hkeys (keys : List Key) : validateReadOnlyParameters methods p keys p = p := by
    induction keys with
    | nil => rfl
    | cons key keys ih =>
      rw [validateReadOnlyParameters, foldl_cons, if_pos rfl]
      exact ih
  rw [restoreReadOnly, hkeys, hkeys, ite_self]

section Checks

variable {methods : CameraParameters} {continuousJpeg : Bool} {p : Params}
  (h : runChecks (checks methods continuousJpeg p) = some .noError)

include h

theorem mode_accepted {mode : Key × Key} (hmode : mode ∈ modes) :
    validateString (p mode.1) (p mode.2) = true := by
  have hchecks : validateMode p mode ∈ checks methods continuousJpeg p := by
    revert mode
    simp only [modes, forall_mem_cons]
    simp [checks]
  exact some.inj (runChecks_noError h _ hchecks)

theorem range_accepted {value supportList : Str} (hvalue : p .previewFpsRange = some value)
    (hlist : p .supportedPreviewFpsRange = some supportList) : value <:+: supportList := by
  have hrange : some (validateFpsRange methods p) ∈ checks methods continuousJpeg p :=
    mem_cons_of_mem _ mem_cons_self
  have htrue := some.inj (runChecks_noError h _ hrange)
  rw [validateFpsRange, hvalue, hlist] at htrue
  simp only [Bool.not_eq_true', Bool.or_eq_false_iff, Bool.not_eq_false',
    decide_eq_true_iff] at htrue
  exact htrue.1.1

theorem supported_iff_clear {mode : Key × Key} (hmode : mode ∈ modes) :
    Supported p mode.1 mode.2 ↔
      ∀ value ∈ p mode.1, ∀ supportList ∈ p mode.2, Clear value supportList := by
  have haccepted := mode_accepted h hmode
  refine forall₂_congr fun value hvalue => ?_
  rw [mem_def.mp hvalue] at haccepted
  cases hlist : p mode.2 with
  | none =>
    rw [hlist] at haccepted
    exact absurd haccepted Bool.false_ne_true
  | some supportList =>
    rw [hlist] at haccepted
    simp only [mem_def, some.injEq, exists_eq_left', forall_eq']
    exact isMember_iff_clear haccepted

/-- Of the parameters that pass all checks, the modes and the range of the preview's frame rates are
members of their lists exactly if they are clear. -/
theorem allSupported_iff_allClear : AllSupported p ↔ AllClear p := by
  refine and_congr (forall₂_congr fun mode hmode => supported_iff_clear h hmode)
    (forall₂_congr fun value hvalue =>
      exists_congr fun supportList => and_congr_right fun hlist => ?_)
  exact (imp_iff_right (range_accepted h hvalue hlist)).symm

end Checks

/-- Exactly which values and parameters that are accepted are members of their lists. -/
theorem validateParameters_exact (value list : Str) :
    (Balanced list →
      ((validateString (some value) (some list) = true ↔ IsMember value list) ↔ Clear value list)) ∧
    ∀ (methods : CameraParameters) (continuousJpeg : Bool) (oldParams params p : Params),
      validateParameters methods continuousJpeg oldParams params = (some .noError, p) →
      (AllSupported p ↔ AllClear p) := by
  refine ⟨fun hlist => validateString_exact hlist, fun methods continuousJpeg _ _ p h => ?_⟩
  obtain ⟨hchecks, rfl⟩ := Prod.mk.inj h
  exact allSupported_iff_allClear hchecks

/-- Methods that read decimal numbers and sizes with an `x` between the numbers. -/
def decimalMethods : CameraParameters where
  set p key value := Function.update p key value
  getInt p key := (p key).elim (-1) atoi
  getSupportedPreviewSizes _ := []
  getSupportedVideoSizes _ := []
  getSupportedPictureSizes _ := []
  getPreviewSize p := pairOf (p .previewSize)
  getVideoSize p := pairOf (p .videoSize)
  getPictureSize p := pairOf (p .pictureSize)
  getPreviewFpsRange p := pairOf (p .previewFpsRange)
where
  pairOf : Option Str → ℤ × ℤ
    | none => (-1, -1)
    | some s => ((strtol s).1, (strtol ((strtol s).2.drop 1)).1)

/-- Parameters with a value that is only a part of the supported range of frame rates. -/
def partOfRange (key : Key) : Option Str :=
  (List.lookup key [(.previewSize, "640x480"), (.videoSize, "640x480"), (.pictureSize, "640x480"),
    (.previewFpsRange, "0500,30304"), (.supportedPreviewFpsRange, "(10500,30304)"),
    (.jpegQuality, "95"), (.jpegThumbnailQuality, "50"), (.jpegThumbnailWidth, "160"),
    (.jpegThumbnailHeight, "120"), (.supportedJpegThumbnailSizes, "160x120,0x0"),
    (.rotation, "0"), (.zoom, "0"), (.maxZoom, "30"), (.effect, "none"),
    (.supportedEffects, "none,mono,negative")]).map String.toList

theorem partOfRange_accepted :
    validateParameters decimalMethods false partOfRange partOfRange =
      (some .noError, partOfRange) := by
  have hchecks : runChecks (checks decimalMethods false partOfRange) = some .noError := by
    decide
  rw [validateParameters, restoreReadOnly_self, hchecks]

/-- The effect is in its list, and the range of frame rates is not in its own. -/
theorem validateParameters_exact_partOfRange :
    (validateString (some "on".toList) (some "off,on".toList) = true ↔
      IsMember "on".toList "off,on".toList) ∧
      ¬ AllSupported partOfRange := by
  have hclear : Clear "on".toList "off,on".toList := .inl (by decide)
  obtain ⟨hexact, hparams⟩ := validateParameters_exact "on".toList "off,on".toList
  refine ⟨(hexact (by decide)).mpr hclear, ?_⟩
  rw [hparams _ _ _ _ _ partOfRange_accepted]
  intro h
  obtain ⟨supportList, hlist, hmember⟩ := h.2 "0500,30304".toList rfl
  obtain rfl : "(10500,30304)".toList = supportList := some.inj hlist
  exact absurd (hmember (by decide)) (by decide)

/-- A closing bracket is taken for the end of an element in brackets. -/
theorem validateString_not_member : ¬ ∀ value list : Str, Balanced list →
    (validateString (some value) (some list) = true ↔ IsMember value list) := by
  intro h
  have hmember := (h "a)".toList "(a)b".toList (by decide)).mp (by decide)
  exact absurd hmember (by decide)

end HardwareIntel.Camera.Parameters
