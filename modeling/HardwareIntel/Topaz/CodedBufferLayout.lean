import HardwareIntel.Topaz.Jpeg

/-!
# The layout of the JPEG coded buffer

`ProcessPictureParam` of `psb_video/src/tng_jpegES.c` checks a picture, divides its coded buffer
among the scans and writes the header of the image. The first 1024 bytes are kept for the header,
and the scans share the rest. The test of the size asks for 27 bytes only, and the size of the rest
is an unsigned difference: in a smaller buffer the coded buffers lie outside, and if the rest is
small they do not hold their own headers.
-/

namespace HardwareIntel.Topaz

/-! ## The test of a picture -/

/-- The fields of `VAEncPictureParameterBufferJPEG` that are checked. -/
structure EncPictureParameterBufferJpeg where
  profile : ℕ
  progressive : ℕ
  huffman : ℕ
  interleaved : ℕ
  differential : ℕ
  sampleBitDepth : ℕ
  numComponents : ℕ
  quality : ℕ

/-- The `VAStatus` values of `ProcessPictureParam`, apart from those of `psb_buffer_map`. -/
inductive VaStatus
  | success
  | errorUnknown
  | errorInvalidParameter
  | errorInvalidBuffer
  | mapFailed
  deriving DecidableEq

/-- The buffer that `ProcessPictureParam` is given, the size of the coded buffer that it names, if
there is one, and whether that can be mapped. -/
structure PictureObject where
  numElements : ℕ
  size : ℕ
  params : EncPictureParameterBufferJpeg
  codedBuf : Option UInt32
  mapped : Bool

/-- `sizeof(VAEncPictureParameterBufferJPEG)`. -/
def sizeofPictureParameter : ℕ := 32

/-- `MTX_MAX_COMPONENTS`. -/
def mtxMaxComponents : ℕ := 3

/-- The parameters that the encoder supports. -/
def EncPictureParameterBufferJpeg.Supported (params : EncPictureParameterBufferJpeg) : Prop :=
  params.profile = 0 ∧ params.progressive = 0 ∧ params.huffman = 1 ∧ params.interleaved = 0 ∧
    params.differential = 0 ∧ params.sampleBitDepth = 8 ∧
    params.numComponents = mtxMaxComponents ∧ params.quality ≤ 100

instance (params : EncPictureParameterBufferJpeg) : Decidable params.Supported :=
  inferInstanceAs (Decidable (_ ∧ _))

/-- The result of `ProcessPictureParam`; `PrepareHeader` always succeeds. -/
def PictureObject.status (object : PictureObject) : VaStatus :=
  if object.numElements ≠ 1 ∨ object.size ≠ sizeofPictureParameter then .errorUnknown
  else if ¬ object.params.Supported then .errorInvalidParameter
  else
    match object.codedBuf with
    | none => .errorInvalidBuffer
    | some size =>
      if object.mapped = false then .mapFailed
      else if size.toNat < 9 + 6 + 4 * 3 then .errorInvalidBuffer
      else .success

/-! ## The layout -/

/-- Where the coded buffer of a scan begins, as `AssignCodedDataBuffers` and `IssueBufferToHW`
compute it in 32 bits. -/
def codedBufferStart (info : ScanEncodeInfo) (size : UInt32) (i : ℕ) : ℕ :=
  (headerMaxSize + i * sizePerCodedBuffer info size) % 2 ^ 32

/-- The header ends before the coded buffers begin; these lie in the whole, apart from each other,
and each is large enough for a `BUFFER_HEADER`. -/
structure SafeLayout (info : ScanEncodeInfo) (tables : QuantTables) (size : UInt32) : Prop where
  header : bufferHeaderSize + (jpegHeader info tables).length ≤ headerMaxSize
  beyond : ∀ m j, headerMaxSize ≤ j → processPictureParam info tables m j = m j
  inside : ∀ i < info.numberOfCodedBuffers,
    codedBufferStart info size i + sizePerCodedBuffer info size ≤ size.toNat
  apart : ∀ i < info.numberOfCodedBuffers, ∀ j < info.numberOfCodedBuffers, i ≠ j →
    codedBufferStart info size i + sizePerCodedBuffer info size ≤ codedBufferStart info size j ∨
      codedBufferStart info size j + sizePerCodedBuffer info size ≤ codedBufferStart info size i
  large : bufferHeaderSize ≤ sizePerCodedBuffer info size

section Layout

variable {info : ScanEncodeInfo} {size : UInt32}

/-- `PrepareHeader` writes nothing behind the part that is kept for it. -/
theorem processPictureParam_of_le (info : ScanEncodeInfo) (tables : QuantTables) (m : ℕ → UInt8)
    {j : ℕ} (hj : headerMaxSize ≤ j) : processPictureParam info tables m j = m j := by
  have hlength := length_jpegHeader_le info tables
  have hsize : bufferHeaderSize = 16 := rfl
  have hmax : headerMaxSize = 1024 := rfl
  rw [processPictureParam, setWord_of_le _ _ (by omega), setWord_of_le _ _ (by omega),
    overwrite_of_le _ _ (by omega), setWord_of_le _ _ (by omega), setWord_of_le _ _ (by omega)]

section

variable (hsize : headerMaxSize ≤ size.toNat)
include hsize

/-- The rest of the coded buffer, if there is one. -/
theorem sizePerCodedBuffer_of_le :
    sizePerCodedBuffer info size =
      (size.toNat - headerMaxSize) / info.numberOfCodedBuffers / 16 * 16 := by
  have hlt := size.toNat_lt
  have hdiff : (size.toNat + (2 ^ 32 - headerMaxSize)) % 2 ^ 32 = size.toNat - headerMaxSize := by
    omega
  rw [sizePerCodedBuffer, hdiff]

/-- The coded buffers fit behind the head. -/
theorem mul_sizePerCodedBuffer_le :
    info.numberOfCodedBuffers * sizePerCodedBuffer info size ≤ size.toNat - headerMaxSize := by
  rw [sizePerCodedBuffer_of_le hsize]
  calc info.numberOfCodedBuffers * ((size.toNat - headerMaxSize) / info.numberOfCodedBuffers / 16
        * 16)
      ≤ info.numberOfCodedBuffers * ((size.toNat - headerMaxSize) / info.numberOfCodedBuffers) :=
        Nat.mul_le_mul_left _ (Nat.div_mul_le_self _ _)
    _ ≤ size.toNat - headerMaxSize := Nat.mul_div_le _ _

/-- Nothing is cut off where the coded buffers fit. -/
theorem codedBufferStart_of_le {i : ℕ} (hi : i ≤ info.numberOfCodedBuffers) :
    codedBufferStart info size i = headerMaxSize + i * sizePerCodedBuffer info size := by
  have hmul : info.numberOfCodedBuffers * sizePerCodedBuffer info size ≤
      size.toNat - headerMaxSize := mul_sizePerCodedBuffer_le hsize
  have hle : i * sizePerCodedBuffer info size ≤
      info.numberOfCodedBuffers * sizePerCodedBuffer info size := Nat.mul_le_mul_right _ hi
  have hlt := size.toNat_lt
  exact Nat.mod_eq_of_lt (by omega)

end

/-- The layout is safe if each scan has room for a `BUFFER_HEADER` behind the header. -/
theorem safeLayout_of_le (tables : QuantTables) (hpos : 0 < info.numberOfCodedBuffers)
    (h : headerMaxSize + bufferHeaderSize * info.numberOfCodedBuffers ≤ size.toNat) :
    SafeLayout info tables size := by
  have hsize : headerMaxSize ≤ size.toNat := by omega
  have hmul : info.numberOfCodedBuffers * sizePerCodedBuffer info size ≤
      size.toNat - headerMaxSize := mul_sizePerCodedBuffer_le hsize
  have hlength := length_jpegHeader_le info tables
  have hheader : bufferHeaderSize ≤ headerMaxSize := by decide
  have hnext : ∀ {i j : ℕ}, i < j → j ≤ info.numberOfCodedBuffers →
      codedBufferStart info size i + sizePerCodedBuffer info size ≤
        codedBufferStart info size j := by
    intro i j hij hj
    rw [codedBufferStart_of_le hsize (by omega), codedBufferStart_of_le hsize hj, Nat.add_assoc,
      ← Nat.succ_mul]
    exact Nat.add_le_add_left (Nat.mul_le_mul_right _ hij) _
  refine ⟨by omega, fun m j => processPictureParam_of_le info tables m, fun i hi => ?_,
    fun i hi j hj hij => ?_, ?_⟩
  · refine Nat.le_trans (hnext hi (Nat.le_refl _)) ?_
    rw [codedBufferStart_of_le hsize (Nat.le_refl _)]
    omega
  · rcases Nat.lt_or_gt_of_ne hij with hlt | hlt
    · exact Or.inl (hnext hlt hj.le)
    · exact Or.inr (hnext hlt hi.le)
  · have hshare : 16 ≤ (size.toNat - headerMaxSize) / info.numberOfCodedBuffers := by
      rw [Nat.le_div_iff_mul_le hpos]
      have hunit : bufferHeaderSize = 16 := rfl
      rw [hunit] at h
      omega
    rw [sizePerCodedBuffer_of_le hsize]
    show 16 ≤ _
    omega

/-- The first coded buffer begins behind the header. -/
theorem le_of_safeLayout {tables : QuantTables} (hpos : 0 < info.numberOfCodedBuffers)
    (h : SafeLayout info tables size) :
    headerMaxSize + bufferHeaderSize * info.numberOfCodedBuffers ≤ size.toNat := by
  have hfirst := h.inside 0 hpos
  rw [codedBufferStart, Nat.zero_mul, Nat.add_zero, Nat.mod_eq_of_lt (by decide)] at hfirst
  have hsize : headerMaxSize ≤ size.toNat := by omega
  have hmul : info.numberOfCodedBuffers * sizePerCodedBuffer info size ≤
      size.toNat - headerMaxSize := mul_sizePerCodedBuffer_le hsize
  have hlarge := Nat.mul_le_mul_left info.numberOfCodedBuffers h.large
  rw [Nat.mul_comm] at hlarge
  omega

end Layout

/-! ## Accepted pictures -/

/-- An accepted picture names a coded buffer of at least 27 bytes. -/
theorem codedBuf_of_success {object : PictureObject} (h : object.status = .success) :
    ∃ size, object.codedBuf = some size ∧ 27 ≤ size.toNat := by
  rw [PictureObject.status] at h
  split at h
  · cases h
  · split at h
    · cases h
    · split at h
      · cases h
      · rename_i size heq
        split at h
        · cases h
        · split at h
          · cases h
          · exact ⟨size, heq, by omega⟩

/-- For every image and coded buffer that are accepted: the layout is safe iff the coded buffer has
room for the header part and a `BUFFER_HEADER` for each scan. -/
theorem coded_buffer_layout_safe_iff {numCores : ℕ} {width height : UInt16} {info : ScanEncodeInfo}
    (hcreate : jpegCreateContext numCores width height = some info) {object : PictureObject}
    (haccept : object.status = .success) (tables : QuantTables) :
    ∃ size, object.codedBuf = some size ∧
      (SafeLayout (initializeScanCounter info) tables size ↔
        headerMaxSize + bufferHeaderSize * info.numberOfCodedBuffers ≤ size.toNat) := by
  obtain ⟨size, hsize, -⟩ := codedBuf_of_success haccept
  have hcreated := created_of_createContext hcreate
  have hpos : 0 < (initializeScanCounter info).numberOfCodedBuffers := by
    rw [initializeScanCounter, hcreated.buffers]
    exact hcreated.scans_pos
  exact ⟨size, hsize, le_of_safeLayout hpos, safeLayout_of_le tables hpos⟩

/-- A picture that the encoder supports, with a coded buffer of the given size. -/
def supportedPicture (size : UInt32) : PictureObject where
  numElements := 1
  size := 32
  params := ⟨0, 0, 1, 0, 0, 8, 3, 50⟩
  codedBuf := some size
  mapped := true

/-- An image of 32 × 32 pixels in 2048 bytes. -/
theorem coded_buffer_layout_safe_two_scans :
    ∃ info, jpegCreateContext 2 32 32 = some info ∧
      SafeLayout (initializeScanCounter info) ⟨fun _ => 1, fun _ => 1⟩ 2048 := by
  have hcreate : jpegCreateContext 2 32 32 = some ⟨2, 32, 32, 2, 2, 4, 2, 2, 2, 0, 0⟩ := by decide
  have haccept : (supportedPicture 2048).status = .success := by decide
  obtain ⟨size, hsize, hiff⟩ :=
    coded_buffer_layout_safe_iff hcreate haccept ⟨fun _ => 1, fun _ => 1⟩
  obtain rfl : 2048 = size := Option.some.inj hsize
  exact ⟨_, hcreate, hiff.mpr (by decide)⟩

/-- `coded_buf_size` of `createContext` in `libmix/imageencoder/ImageEncoder.cpp`. -/
def imageEncoderCodedBufSize (width height : ℕ) : ℕ :=
  ((width + 15) / 16 * ((height + 15) / 16) * 320 + 640 + 0xf) / 16 * 16

/-- An image of 16 × 16 pixels, in the coded buffer that the image encoder makes for it. -/
theorem coded_buffer_layout_not_safe :
    ∃ info, jpegCreateContext 2 16 16 = some info ∧ imageEncoderCodedBufSize 16 16 = 960 ∧
      (supportedPicture 960).status = .success ∧
      ∀ tables, ¬ SafeLayout (initializeScanCounter info) tables 960 := by
  refine ⟨⟨2, 16, 16, 1, 1, 1, 1, 1, 1, 0, 0⟩, by decide, by decide, by decide, fun tables h => ?_⟩
  exact absurd (le_of_safeLayout (by decide) h) (by decide)

/-! ## The image encoder -/

section ImageEncoder

variable {numCores : ℕ} {width height : UInt16} {info : ScanEncodeInfo}

/-- The MCUs of an image that is accepted. -/
theorem mcus_of_createContext (h : jpegCreateContext numCores width height = some info) :
    info.numberMCUsToEncode = (width.toNat + 15) / 16 * ((height.toNat + 15) / 16) := by
  have hpos : 0 < info.numberMCUsToEncode := by
    have hcreated := created_of_createContext h
    exact Nat.zero_lt_of_lt hcreated.lt_total
  obtain ⟨hinit, -⟩ := Option.filter_eq_some_iff.mp h
  unfold initializeJpegEncode at hinit
  dsimp only at hinit
  generalize (if ((evenSize height + (16 - 1)) / 16 + (numCores - 1)) / numCores *
      ((evenSize width + (16 - 1)) / 16) > maxMcuPerScan / ((evenSize width + (16 - 1)) / 16) *
        ((evenSize width + (16 - 1)) / 16) then _ else _) = perScan at hinit
  split at hinit
  · cases hinit
  · rw [← Option.some.inj hinit] at hpos ⊢
    have hmcus : ∀ size : UInt16, 0 < (evenSize size + (16 - 1)) / 16 →
        (evenSize size + (16 - 1)) / 16 = (size.toNat + 15) / 16 := by
      intro size hsize
      have hlt := size.toNat_lt
      simp only [evenSize] at hsize ⊢
      omega
    have hx := Nat.pos_of_mul_pos_right hpos
    have hy := Nat.pos_of_mul_pos_left hpos
    rw [hmcus width hx, hmcus height hy]

/-- The coded buffers of the image encoder are large enough for all images but the smallest. -/
theorem imageEncoder_layout_safe_iff (hcreate : jpegCreateContext numCores width height = some info)
    (tables : QuantTables) :
    SafeLayout (initializeScanCounter info) tables
        (UInt32.ofNat (imageEncoderCodedBufSize width.toNat height.toNat)) ↔
      1 < info.numberMCUsToEncode := by
  have hcreated := created_of_createContext hcreate
  have hmcus := mcus_of_createContext hcreate
  have hmax : headerMaxSize = 1024 := rfl
  have hunit : bufferHeaderSize = 16 := rfl
  have htotal : info.numberMCUsToEncode ≤ maxScanNum * maxMcuPerScan :=
    hcreated.total_le.trans (Nat.mul_le_mul hcreated.scans_le hcreated.perScan_le)
  have hbound : maxScanNum * maxMcuPerScan = 114688 := rfl
  have hcount : info.numberOfCodedBuffers ≤ 7 := hcreated.buffers ▸ hcreated.scans_le
  have hpos : 0 < (initializeScanCounter info).numberOfCodedBuffers :=
    hcreated.buffers ▸ hcreated.scans_pos
  have hsize : (UInt32.ofNat (imageEncoderCodedBufSize width.toNat height.toNat)).toNat =
      info.numberMCUsToEncode * 320 + 640 := by
    have hsmall : UInt32.size = 2 ^ 32 := rfl
    rw [imageEncoderCodedBufSize, ← hmcus, UInt32.toNat_ofNat_of_lt' (by omega)]
    omega
  have hiff : headerMaxSize + bufferHeaderSize * (initializeScanCounter info).numberOfCodedBuffers ≤
      info.numberMCUsToEncode * 320 + 640 ↔ 1 < info.numberMCUsToEncode := by
    rw [hmax, hunit, show (initializeScanCounter info).numberOfCodedBuffers =
      info.numberOfCodedBuffers from rfl]
    omega
  rw [← hiff, ← hsize]
  exact ⟨le_of_safeLayout hpos, safeLayout_of_le tables hpos⟩

/-- An image of 32 × 32 pixels, in the coded buffer that the image encoder makes for it. -/
theorem imageEncoder_layout_safe_four_mcus :
    ∃ info, jpegCreateContext 2 32 32 = some info ∧
      ∀ tables, SafeLayout (initializeScanCounter info) tables
        (UInt32.ofNat (imageEncoderCodedBufSize 32 32)) := by
  have hcreate : jpegCreateContext 2 32 32 = some ⟨2, 32, 32, 2, 2, 4, 2, 2, 2, 0, 0⟩ := by decide
  exact ⟨_, hcreate, fun tables => (imageEncoder_layout_safe_iff hcreate tables).mpr (by decide)⟩

end ImageEncoder

end HardwareIntel.Topaz
