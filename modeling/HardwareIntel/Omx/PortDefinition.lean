import HardwareIntel.Omx.Buffers
import Mathlib.Algebra.Group.Nat.Defs
import Mathlib.Data.List.GetD

/-!
# Updating the definition of an OMX port

`PortBase::SetPortDefinition` and `getFrameBufSize` of `wrs_omxil_core/base/src/portbase.cpp`. The
union `format` is one record, since the members for audio, video and image begin with the same two
pointers and a call sets the other fields that its domain reads. `cMIMEType` points to the array
`definition_format_mimetype` of `maxName` bytes, `OMX_MAX_STRINGNAME_SIZE`; the bytes from there on
are a function of the offset, so that a write behind the array can be told. `eFormat` of the domain
`Other` lies over the pointer.

The string is copied without its end for audio and video, the end is written one byte too far, and
the size of a frame is computed modulo `2 ^ 32`; `isExact` says which calls do not suffer from it.
-/

namespace HardwareIntel.Omx

open List

/-! ## The definition of a port -/

/-- `OMX_PORTDOMAINTYPE`; any other number is unknown. -/
inductive PortDomain
  | audio | video | image | other
  | unknown (code : UInt32)
  deriving DecidableEq

/-- `OMX_COLOR_FORMATTYPE`; the formats that `getFrameBufSize` does not know are numbered. -/
inductive ColorFormat
  | yCbYCr | cbYCrY | yuv420Planar | yuv420SemiPlanar
  | other (code : UInt32)

/-- The union `format`, except for `cMIMEType`. -/
structure PortFormat where
  pNativeRender : ℕ
  nFrameWidth : UInt32
  nFrameHeight : UInt32
  nStride : Int32
  nSliceHeight : UInt32
  nBitrate : UInt32
  xFramerate : UInt32
  bFlagErrorConcealment : Bool
  eEncoding : ℕ
  eCompressionFormat : ℕ
  eColorFormat : ColorFormat
  pNativeWindow : ℕ
  eFormat : ℕ

/-- `OMX_PARAM_PORTDEFINITIONTYPE`. -/
structure PortDefinition where
  nPortIndex : UInt32
  eDir : Direction
  nBufferCountActual : UInt32
  nBufferCountMin : UInt32
  nBufferSize : UInt32
  bEnabled : Bool
  bPopulated : Bool
  eDomain : PortDomain
  bBuffersContiguous : Bool
  nBufferAlignment : UInt32
  format : PortFormat

/-- A C string: its characters before the end. -/
structure CString where
  chars : List UInt8
  noNul : ∀ c ∈ chars, c ≠ 0

/-- A port with its definition, the bytes from `definition_format_mimetype` on, and whether
`cMIMEType` still points there. -/
structure DefinedPort where
  definition : PortDefinition
  mimetype : ℕ → UInt8
  pointed : Bool

/-- A call of `SetPortDefinition`: the definition with its string, and `overwrite_readonly`. -/
structure DefinitionCall where
  definition : PortDefinition
  cMIMEType : CString
  overwriteReadonly : Bool

/-- What a call returns, `OMX_ErrorNone` or `OMX_ErrorBadParameter`, the offsets that it wrote in
`definition_format_mimetype`, and the port after it. -/
structure DefinitionAnswer where
  ok : Bool
  written : List ℕ
  port : DefinedPort

/-! ## `SetPortDefinition` -/

/-- `MAX_INPUT_PORT_SIZE`. -/
def maxInputPortSize : UInt32 := 6220800

/-- `PortBase::getFrameBufSize`, where `none` is the result `-1`. -/
def getFrameBufSize (colorFormat : ColorFormat) (width height : UInt32) : Option UInt32 :=
  match colorFormat with
  | .yCbYCr => some (width * height * 2)
  | .cbYCrY => some (width * height * 2)
  | .yuv420Planar => some ((width * height * 3) >>> 1)
  | .yuv420SemiPlanar => some ((width * height * 3) >>> 1)
  | .other _ => none

/-- The checks of a call from outside against the stored definition. -/
def acceptsReadonly (temp p : PortDefinition) : Bool :=
  temp.nPortIndex = p.nPortIndex && temp.eDir = p.eDir && temp.eDomain = p.eDomain &&
    (temp.nBufferCountActual = p.nBufferCountActual ||
      temp.nBufferCountMin ≤ p.nBufferCountActual) &&
    !(temp.nBufferSize < p.nBufferSize && temp.eDir = .input && maxInputPortSize < p.nBufferSize)

/-- What a call from outside that passes the checks changes before the format. -/
def updateWritable (temp p : PortDefinition) : PortDefinition :=
  { temp with
    nBufferCountActual := p.nBufferCountActual
    nBufferSize :=
      if temp.nBufferSize < p.nBufferSize ∧ temp.eDir = .input then p.nBufferSize
      else temp.nBufferSize }

/-- What a call from inside changes before the format. -/
def overwriteAll (temp p : PortDefinition) : PortDefinition := { p with format := temp.format }

/-- `mimetype_len`, an `OMX_U32`. -/
def mimetypeLen (maxName : ℕ) (text : CString) : ℕ := min (text.chars.length % 2 ^ 32) (maxName - 1)

/-- `strncpy`. -/
def strncpy (mem : ℕ → UInt8) (text : CString) (n : ℕ) : ℕ → UInt8 :=
  fun i => if i < n then text.chars.getD i 0 else mem i

/-- The copy of the string, of `n` bytes, and the end behind the byte after `mimetype_len`. -/
def copyMimetype (maxName : ℕ) (mem : ℕ → UInt8) (text : CString) (n : ℕ) : ℕ → UInt8 :=
  Function.update (strncpy mem text n) (mimetypeLen maxName text + 1) 0

/-- The assignments for the audio domain. -/
def setAudio (format pformat : PortFormat) : PortFormat :=
  { format with
    pNativeRender := pformat.pNativeRender
    bFlagErrorConcealment := pformat.bFlagErrorConcealment
    eEncoding := pformat.eEncoding }

/-- The assignments for the video domain. -/
def setVideo (format pformat : PortFormat) (overwriteReadonly : Bool) : PortFormat :=
  { format with
    pNativeRender := pformat.pNativeRender
    nFrameWidth := pformat.nFrameWidth
    nFrameHeight := pformat.nFrameHeight
    nBitrate := pformat.nBitrate
    xFramerate := pformat.xFramerate
    bFlagErrorConcealment := pformat.bFlagErrorConcealment
    eCompressionFormat := pformat.eCompressionFormat
    eColorFormat := pformat.eColorFormat
    pNativeWindow := pformat.pNativeWindow
    nStride := if overwriteReadonly then pformat.nStride else pformat.nFrameWidth.toInt32
    nSliceHeight := if overwriteReadonly then pformat.nSliceHeight else pformat.nFrameHeight }

/-- The assignments for the image domain. -/
def setImage (format pformat : PortFormat) (overwriteReadonly : Bool) : PortFormat :=
  { format with
    nFrameWidth := pformat.nFrameWidth
    nFrameHeight := pformat.nFrameHeight
    nStride := pformat.nStride
    bFlagErrorConcealment := pformat.bFlagErrorConcealment
    eCompressionFormat := pformat.eCompressionFormat
    eColorFormat := pformat.eColorFormat
    pNativeWindow := pformat.pNativeWindow
    nSliceHeight := if overwriteReadonly then pformat.nSliceHeight else format.nSliceHeight }

namespace DefinedPort

/-- The number of bytes that `strncpy` copies in a domain. -/
def copied (maxName : ℕ) (domain : PortDomain) (text : CString) : ℕ :=
  if domain = .image then mimetypeLen maxName text + 1 else mimetypeLen maxName text

/-- A successful call that copies the string. -/
def storeNamed (maxName : ℕ) (port : DefinedPort) (c : DefinitionCall) (temp : PortDefinition) :
    DefinitionAnswer :=
  let n := copied maxName c.definition.eDomain c.cMIMEType
  ⟨true, List.range n ++ [mimetypeLen maxName c.cMIMEType + 1], { port with
      definition := temp
      mimetype := copyMimetype maxName port.mimetype c.cMIMEType n }⟩

/-- `PortBase::SetPortDefinition`; there is no result if the string would be copied to where
`cMIMEType` no longer points. -/
def setPortDefinition (maxName : ℕ) (port : DefinedPort) (c : DefinitionCall) :
    Option DefinitionAnswer :=
  let p := c.definition
  if !c.overwriteReadonly && !acceptsReadonly port.definition p then some ⟨false, [], port⟩
  else
    let temp := if c.overwriteReadonly then overwriteAll port.definition p
      else updateWritable port.definition p
    match p.eDomain with
    | .audio =>
      let temp := { temp with format := setAudio temp.format p.format }
      if port.pointed then some (port.storeNamed maxName c temp) else none
    | .video =>
      let format := setVideo temp.format p.format c.overwriteReadonly
      let nFrameSize := getFrameBufSize format.eColorFormat format.nFrameWidth format.nFrameHeight
      let temp := { temp with format := format, nBufferSize := nFrameSize.getD temp.nBufferSize }
      if port.pointed then some (port.storeNamed maxName c temp) else none
    | .image =>
      let temp := { temp with format := setImage temp.format p.format c.overwriteReadonly }
      if port.pointed then some (port.storeNamed maxName c temp) else none
    | .other =>
      let temp := { temp with format := { temp.format with eFormat := p.format.eFormat } }
      some ⟨true, [], { port with definition := temp, pointed := false }⟩
    | .unknown _ => some ⟨false, [], port⟩

/-! ## What a call should do -/

/-- The size of a frame in the formats that have one: two bytes a pixel, or one and a half. -/
def frameSize (colorFormat : ColorFormat) (width height : ℕ) : Option ℕ :=
  match colorFormat with
  | .yCbYCr => some (width * height * 2)
  | .cbYCrY => some (width * height * 2)
  | .yuv420Planar => some (width * height * 3 / 2)
  | .yuv420SemiPlanar => some (width * height * 3 / 2)
  | .other _ => none

/-- The C string in memory has these characters. -/
def Stores (mem : ℕ → UInt8) (chars : List UInt8) : Prop :=
  (∀ i (hi : i < chars.length), mem i = chars[i]) ∧ mem chars.length = 0

/-- The domains whose format has a string. -/
def Named (domain : PortDomain) : Prop := domain = .audio ∨ domain = .video ∨ domain = .image

/-- An error changes nothing; otherwise the string is stored, truncated to the length of a name,
only bytes of the array are written, and the buffer size of a video port is the one of a frame. -/
structure Correct (maxName : ℕ) (port : DefinedPort) (c : DefinitionCall)
    (answer : DefinitionAnswer) : Prop where
  error : answer.ok = false →
    answer.port.definition = port.definition ∧ answer.port.mimetype = port.mimetype
  stored : answer.ok = true → Named c.definition.eDomain →
    Stores answer.port.mimetype (c.cMIMEType.chars.take (maxName - 1))
  inside : ∀ i ∈ answer.written, i < maxName
  size : answer.ok = true → c.definition.eDomain = .video → ∀ n,
    frameSize c.definition.format.eColorFormat c.definition.format.nFrameWidth.toNat
      c.definition.format.nFrameHeight.toNat = some n → answer.port.definition.nBufferSize.toNat = n

/-- All the calls return and do what they should. -/
def CorrectRun (maxName : ℕ) : DefinedPort → List DefinitionCall → Prop
  | _, [] => True
  | port, c :: calls =>
    ∃ answer, port.setPortDefinition maxName c = some answer ∧ Correct maxName port c answer ∧
      CorrectRun maxName answer.port calls

/-! ## When it does -/

/-- The call passes the checks, and its domain is known. -/
def accepts (port : DefinedPort) (c : DefinitionCall) : Bool :=
  (c.overwriteReadonly || acceptsReadonly port.definition c.definition) &&
    match c.definition.eDomain with
    | .unknown _ => false
    | _ => true

/-- The end of the string is written inside the array, and the byte behind the characters copied,
which the audio and video domains leave as it is, is the right one. A string of `2 ^ 32` characters
or more has a wrong `mimetype_len`. -/
def exactName (maxName : ℕ) (mem : ℕ → UInt8) (domain : PortDomain) (text : CString) : Bool :=
  let len := mimetypeLen maxName text
  len + 1 < maxName && (text.chars.length < 2 ^ 32 || len + 2 = maxName) &&
    (domain = .image || mem len = text.chars.getD len 0)

/-- The product in `getFrameBufSize` is less than `2 ^ 32`. -/
def exactSize (format : PortFormat) : Bool :=
  let pixels := format.nFrameWidth.toNat * format.nFrameHeight.toNat
  match format.eColorFormat with
  | .yCbYCr => pixels * 2 < 2 ^ 32
  | .cbYCrY => pixels * 2 < 2 ^ 32
  | .yuv420Planar => pixels * 3 < 2 ^ 32
  | .yuv420SemiPlanar => pixels * 3 < 2 ^ 32
  | .other _ => true

/-- A call that is rejected, or whose string and frame suit the port. -/
def isExact (maxName : ℕ) (port : DefinedPort) (c : DefinitionCall) : Bool :=
  !port.accepts c ||
    exactName maxName port.mimetype c.definition.eDomain c.cMIMEType &&
      (c.definition.eDomain ≠ .video || exactSize c.definition.format)

/-- All calls are such. -/
def exactRun (maxName : ℕ) : DefinedPort → List DefinitionCall → Bool
  | _, [] => true
  | port, c :: calls =>
    port.isExact maxName c &&
      (port.setPortDefinition maxName c).all fun answer => exactRun maxName answer.port calls

/-! ## The string -/

theorem copyMimetype_apply (maxName : ℕ) (mem : ℕ → UInt8) (text : CString) (n i : ℕ) :
    copyMimetype maxName mem text n i =
      if i = mimetypeLen maxName text + 1 then 0
      else if i < n then text.chars.getD i 0 else mem i := by
  simp [copyMimetype, strncpy, Function.update_apply]

/-- The first characters of a string that is copied. -/
theorem copyMimetype_of_lt {maxName : ℕ} (mem : ℕ → UInt8) (text : CString) {n i : ℕ}
    (hn : mimetypeLen maxName text ≤ n) (hi : i < mimetypeLen maxName text) :
    copyMimetype maxName mem text n i = text.chars.getD i 0 := by
  rw [copyMimetype_apply, if_neg (by omega), if_pos (by omega)]

/-- The byte behind the first end. -/
theorem copyMimetype_succ (maxName : ℕ) (mem : ℕ → UInt8) (text : CString) (n : ℕ) :
    copyMimetype maxName mem text n (mimetypeLen maxName text + 1) = 0 := by
  rw [copyMimetype_apply, if_pos rfl]

/-- The byte behind the characters counted. -/
theorem copyMimetype_len (maxName : ℕ) (mem : ℕ → UInt8) (domain : PortDomain) (text : CString) :
    copyMimetype maxName mem text (copied maxName domain text) (mimetypeLen maxName text) =
      if domain = .image then text.chars.getD (mimetypeLen maxName text) 0
      else mem (mimetypeLen maxName text) := by
  rw [copyMimetype_apply, if_neg (by omega), copied]
  split_ifs <;> first | rfl | omega

theorem le_copied (maxName : ℕ) (domain : PortDomain) (text : CString) :
    mimetypeLen maxName text ≤ copied maxName domain text := by
  unfold copied
  split_ifs <;> omega

/-- A string that is stored in the array as a whole. -/
theorem stores_iff_of_short {maxName : ℕ} (mem : ℕ → UInt8) (domain : PortDomain) (text : CString)
    (hroom : mimetypeLen maxName text + 1 < maxName) (hshort : text.chars.length < 2 ^ 32) :
    Stores (copyMimetype maxName mem text (copied maxName domain text))
        (text.chars.take (maxName - 1)) ↔
      domain = .image ∨
        mem (mimetypeLen maxName text) = text.chars.getD (mimetypeLen maxName text) 0 := by
  have hlen : mimetypeLen maxName text = text.chars.length := by
    unfold mimetypeLen at *
    omega
  have htake : text.chars.take (maxName - 1) = text.chars := take_of_length_le (by omega)
  have hend : text.chars.getD (mimetypeLen maxName text) 0 = 0 := by
    rw [hlen]
    simp
  have hbyte := copyMimetype_len maxName mem domain text
  rw [hend, hlen] at hbyte
  rw [htake, hend, hlen]
  constructor
  · rintro ⟨-, hzero⟩
    rw [hbyte] at hzero
    by_cases hdomain : domain = .image
    · exact .inl hdomain
    · rw [if_neg hdomain] at hzero
      exact .inr hzero
  · intro h
    refine ⟨fun i hi => ?_, ?_⟩
    · rw [copyMimetype_of_lt mem text (le_copied _ _ _) (hlen.symm ▸ hi)]
      exact getD_eq_getElem _ _ hi
    · rw [hbyte]
      by_cases hdomain : domain = .image
      · rw [if_pos hdomain]
      · rw [if_neg hdomain]
        exact h.resolve_left hdomain

/-- A string whose length is counted modulo `2 ^ 32`. -/
theorem stores_iff_of_long {maxName : ℕ} (mem : ℕ → UInt8) (domain : PortDomain) (text : CString)
    (hroom : mimetypeLen maxName text + 1 < maxName) (hlong : 2 ^ 32 ≤ text.chars.length) :
    Stores (copyMimetype maxName mem text (copied maxName domain text))
        (text.chars.take (maxName - 1)) ↔
      mimetypeLen maxName text + 2 = maxName ∧ (domain = .image ∨
        mem (mimetypeLen maxName text) = text.chars.getD (mimetypeLen maxName text) 0) := by
  have hlt : mimetypeLen maxName text < text.chars.length := by
    unfold mimetypeLen
    omega
  have hne : mimetypeLen maxName text + 1 ≠ text.chars.length := by
    unfold mimetypeLen
    omega
  have hlength : (text.chars.take (maxName - 1)).length = min (maxName - 1) text.chars.length :=
    length_take
  have hbyte := copyMimetype_len maxName mem domain text
  have hsucc := copyMimetype_succ maxName mem text (copied maxName domain text)
  constructor
  · rintro ⟨hchars, -⟩
    have hroom' : mimetypeLen maxName text + 2 = maxName := by
      -- a character is never zero, so the end that is written must lie behind the truncated string
      by_contra hfar
      have hi : mimetypeLen maxName text + 1 < (text.chars.take (maxName - 1)).length := by omega
      have hchar := hchars _ hi
      rw [hsucc] at hchar
      exact text.noNul _ (mem_of_mem_take (getElem_mem hi)) hchar.symm
    refine ⟨hroom', ?_⟩
    by_cases hdomain : domain = .image
    · exact .inl hdomain
    · have hchar := hchars (mimetypeLen maxName text) (by omega)
      rw [hbyte, if_neg hdomain, getElem_take] at hchar
      exact .inr (hchar.trans (getD_eq_getElem _ _ hlt).symm)
  · rintro ⟨hroom', h⟩
    have hend : (text.chars.take (maxName - 1)).length = mimetypeLen maxName text + 1 := by omega
    refine ⟨fun i hi => ?_, by rw [hend]; exact hsucc⟩
    rw [getElem_take, ← getD_eq_getElem _ 0 (by omega)]
    rcases Nat.lt_or_ge i (mimetypeLen maxName text) with hlow | hhigh
    · exact copyMimetype_of_lt mem text (le_copied _ _ _) hlow
    · obtain rfl : i = mimetypeLen maxName text := by omega
      rw [hbyte]
      by_cases hdomain : domain = .image
      · rw [if_pos hdomain]
      · rw [if_neg hdomain]
        exact h.resolve_left hdomain

/-- The bytes written lie in the array if the last one does. -/
theorem inside_iff (maxName : ℕ) (domain : PortDomain) (text : CString) :
    (∀ i ∈ List.range (copied maxName domain text) ++ [mimetypeLen maxName text + 1],
      i < maxName) ↔ mimetypeLen maxName text + 1 < maxName := by
  have hcopied : copied maxName domain text ≤ mimetypeLen maxName text + 1 := by
    unfold copied
    split_ifs <;> omega
  simp only [mem_append, mem_range, mem_singleton]
  exact ⟨fun h => h _ (.inr rfl), fun h i hi => by omega⟩

/-- The string is stored inside the array. -/
theorem exactName_iff (maxName : ℕ) (mem : ℕ → UInt8) (domain : PortDomain) (text : CString) :
    exactName maxName mem domain text = true ↔
      Stores (copyMimetype maxName mem text (copied maxName domain text))
          (text.chars.take (maxName - 1)) ∧
        ∀ i ∈ List.range (copied maxName domain text) ++ [mimetypeLen maxName text + 1],
          i < maxName := by
  rw [inside_iff]
  by_cases hroom : mimetypeLen maxName text + 1 < maxName
  · rcases Nat.lt_or_ge text.chars.length (2 ^ 32) with hshort | hlong
    · rw [stores_iff_of_short mem domain text hroom hshort]
      simp only [exactName, Bool.and_eq_true, Bool.or_eq_true, decide_eq_true_iff]
      tauto
    · rw [stores_iff_of_long mem domain text hroom hlong]
      have := Nat.not_lt.mpr hlong
      simp only [exactName, Bool.and_eq_true, Bool.or_eq_true, decide_eq_true_iff]
      tauto
  · simp only [exactName, Bool.and_eq_true, decide_eq_true_iff]
    tauto

/-! ## The size of a frame -/

/-- Half a product modulo `2 ^ 32` is less than half of `2 ^ 32`. -/
theorem half_mod_iff (n : ℕ) : n < 4294967296 ↔ (n % 4294967296) >>> 1 = n / 2 := by
  omega

/-- The buffer size is the one of a frame if the product does not wrap around. -/
theorem exactSize_iff (format : PortFormat) (size : UInt32) :
    exactSize format = true ↔ ∀ n,
      frameSize format.eColorFormat format.nFrameWidth.toNat format.nFrameHeight.toNat = some n →
        ((getFrameBufSize format.eColorFormat format.nFrameWidth format.nFrameHeight).getD
          size).toNat = n := by
  cases h : format.eColorFormat with
  | yCbYCr => simp [exactSize, frameSize, getFrameBufSize, h]
  | cbYCrY => simp [exactSize, frameSize, getFrameBufSize, h]
  | yuv420Planar => simp [exactSize, frameSize, getFrameBufSize, h, half_mod_iff]
  | yuv420SemiPlanar => simp [exactSize, frameSize, getFrameBufSize, h, half_mod_iff]
  | other code => simp [exactSize, frameSize, h]

/-! ## One call -/

variable {maxName : ℕ} {port : DefinedPort} {c : DefinitionCall}

/-- A rejected call returns an error and changes nothing. -/
theorem setPortDefinition_of_rejected (h : port.accepts c = false) :
    port.setPortDefinition maxName c = some ⟨false, [], port⟩ := by
  unfold setPortDefinition
  by_cases hreadonly :
      (!c.overwriteReadonly && !acceptsReadonly port.definition c.definition) = true
  · simp [hreadonly]
  · have hpass : (c.overwriteReadonly || acceptsReadonly port.definition c.definition) = true := by
      simpa [imp_iff_or_not, or_comm] using hreadonly
    simp only [hreadonly]
    cases hdomain : c.definition.eDomain with
    | unknown code => rfl
    | audio => simp [accepts, hdomain, hpass] at h
    | video => simp [accepts, hdomain, hpass] at h
    | image => simp [accepts, hdomain, hpass] at h
    | other => simp [accepts, hdomain, hpass] at h

/-- An accepted call with a string stores the string and a definition. -/
theorem setPortDefinition_of_accepted (maxName : ℕ) (hpointed : port.pointed = true)
    (h : port.accepts c = true) (hother : c.definition.eDomain ≠ .other) :
    Named c.definition.eDomain ∧ ∃ temp,
      port.setPortDefinition maxName c = some (port.storeNamed maxName c temp) ∧
      (c.definition.eDomain = .video → ∃ size, temp.nBufferSize =
        (getFrameBufSize c.definition.format.eColorFormat c.definition.format.nFrameWidth
          c.definition.format.nFrameHeight).getD size) := by
  rw [accepts, Bool.and_eq_true] at h
  obtain ⟨hpass, hknown⟩ := h
  have hreadonly :
      (!c.overwriteReadonly && !acceptsReadonly port.definition c.definition) = false := by
    simpa [imp_iff_or_not, or_comm] using hpass
  unfold setPortDefinition
  simp only [hreadonly, hpointed, if_true]
  cases hdomain : c.definition.eDomain with
  | unknown code => simp [hdomain] at hknown
  | audio => exact ⟨.inl rfl, _, rfl, fun hvideo => absurd hvideo (by decide)⟩
  | video => exact ⟨.inr (.inl rfl), _, rfl, fun _ => ⟨_, rfl⟩⟩
  | image => exact ⟨.inr (.inr rfl), _, rfl, fun hvideo => absurd hvideo (by decide)⟩
  | other => exact absurd hdomain hother

/-- A call does what it should exactly if it is exact. -/
theorem correct_iff (maxName : ℕ) (hpointed : port.pointed = true)
    (hother : c.definition.eDomain ≠ .other) :
    ∃ answer, port.setPortDefinition maxName c = some answer ∧ answer.port.pointed = true ∧
      (Correct maxName port c answer ↔ port.isExact maxName c = true) := by
  cases haccepts : port.accepts c with
  | false =>
    refine ⟨_, setPortDefinition_of_rejected haccepts, hpointed, ?_⟩
    refine iff_of_true ⟨fun _ => ⟨rfl, rfl⟩, ?_, ?_, ?_⟩ (by simp [isExact, haccepts])
    · exact fun hok => absurd hok Bool.false_ne_true
    · exact fun i hi => absurd hi not_mem_nil
    · exact fun hok => absurd hok Bool.false_ne_true
  | true =>
    obtain ⟨hnamed, temp, hcall, hsize⟩ :=
      setPortDefinition_of_accepted maxName hpointed haccepts hother
    refine ⟨_, hcall, hpointed, ?_⟩
    have hexact : port.isExact maxName c = true ↔
        exactName maxName port.mimetype c.definition.eDomain c.cMIMEType = true ∧
          (c.definition.eDomain = .video → exactSize c.definition.format = true) := by
      simp [isExact, haccepts, imp_iff_not_or]
    rw [hexact, exactName_iff]
    constructor
    · intro h
      refine ⟨⟨h.stored rfl hnamed, h.inside⟩, fun hvideo => ?_⟩
      obtain ⟨size, htemp⟩ := hsize hvideo
      refine (exactSize_iff _ size).mpr fun n hn => ?_
      rw [← htemp]
      exact h.size rfl hvideo n hn
    · rintro ⟨⟨hstored, hinside⟩, hvideosize⟩
      refine ⟨fun hok => absurd hok.symm Bool.false_ne_true, fun _ _ => hstored, hinside,
        fun _ hvideo n hn => ?_⟩
      obtain ⟨size, htemp⟩ := hsize hvideo
      have := (exactSize_iff _ size).mp (hvideosize hvideo) n hn
      rw [← htemp] at this
      exact this

/-! ## All calls -/

/-- A sequence of calls does what it should exactly if each of them is exact. -/
theorem correctRun_iff (maxName : ℕ) (port : DefinedPort) (hpointed : port.pointed = true)
    (calls : List DefinitionCall) (hother : ∀ c ∈ calls, c.definition.eDomain ≠ .other) :
    CorrectRun maxName port calls ↔ port.exactRun maxName calls = true := by
  induction calls generalizing port with
  | nil => exact iff_of_true trivial rfl
  | cons c calls ih =>
    obtain ⟨answer, hcall, hpointed', hcorrect⟩ :=
      correct_iff maxName hpointed (hother c mem_cons_self)
    have hrest := ih answer.port hpointed' fun c' hc' => hother c' (mem_cons_of_mem _ hc')
    simp only [CorrectRun, exactRun, hcall, Option.some.injEq, exists_eq_left', Option.all_some,
      Bool.and_eq_true, hcorrect, hrest]

/-! ## A video port -/

/-- A string of `n` letters. -/
def letters (n : ℕ) : CString := ⟨List.replicate n 97, by simp⟩

/-- A format of a frame in NV12. -/
def nv12Format (width height : UInt32) : PortFormat where
  pNativeRender := 0
  nFrameWidth := width
  nFrameHeight := height
  nStride := width.toInt32
  nSliceHeight := height
  nBitrate := 0
  xFramerate := 0
  bFlagErrorConcealment := false
  eEncoding := 0
  eCompressionFormat := 0
  eColorFormat := .yuv420SemiPlanar
  pNativeWindow := 0
  eFormat := 0

/-- An output port in the video domain. -/
def nv12Definition (width height : UInt32) : PortDefinition where
  nPortIndex := 1
  eDir := .output
  nBufferCountActual := 4
  nBufferCountMin := 2
  nBufferSize := 38016
  bEnabled := true
  bPopulated := false
  eDomain := .video
  bBuffersContiguous := false
  nBufferAlignment := 0
  format := nv12Format width height

/-- A port as its constructor leaves it. -/
def nv12Port : DefinedPort := ⟨nv12Definition 176 144, fun _ => 0, true⟩

/-- The client changes the size of the frame, asks for too few buffers, and names the format. -/
theorem correctRun_nv12 :
    CorrectRun 128 nv12Port
      [⟨nv12Definition 1920 1080, letters 0, false⟩,
        ⟨{ nv12Definition 640 480 with nBufferCountActual := 1 }, letters 9, false⟩,
        ⟨nv12Definition 1280 720, letters 9, false⟩] :=
  (correctRun_iff 128 nv12Port rfl _ (by simp [nv12Definition])).mpr (by decide)

/-- With a name of 127 letters, the end is written behind the array; after a longer name, the end
of a shorter one is missing; and the size of a large frame wraps around. -/
theorem not_correctRun_nv12 :
    ¬ CorrectRun 128 nv12Port [⟨nv12Definition 176 144, letters 127, false⟩] ∧
      ¬ CorrectRun 128 nv12Port
        [⟨nv12Definition 176 144, letters 9, false⟩, ⟨nv12Definition 176 144, letters 3, false⟩] ∧
      ¬ CorrectRun 128 nv12Port [⟨nv12Definition 65536 32768, letters 0, false⟩] := by
  refine ⟨?_, ?_, ?_⟩
  · rintro ⟨answer, hcall, hcorrect, -⟩
    cases hcall
    exact absurd (hcorrect.inside 128 (by decide +kernel)) (by decide)
  · rintro ⟨answer, hcall, -, answer', hcall', hcorrect, -⟩
    cases hcall
    cases hcall'
    exact absurd (hcorrect.stored rfl (.inr (.inl rfl))).2 (by decide)
  · rintro ⟨answer, hcall, hcorrect, -⟩
    cases hcall
    exact absurd (hcorrect.size rfl rfl _ rfl) (by decide)

end DefinedPort

end HardwareIntel.Omx
