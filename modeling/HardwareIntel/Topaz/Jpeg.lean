import HardwareIntel.Library.Memory
import Mathlib.Tactic.Ring

/-!
# Assembly of a JPEG image

The JPEG encoder of `psb_video/src/tng_jpegES.c`. The image is cut into scans, each of which starts
at the beginning of a row of MCUs and is encoded by the hardware into a coded buffer of its own.
`InitializeJpegEncode` chooses the size of the scans, `EndPicture` issues them, and `AppendMarkers`
puts restart markers and the end marker behind the segments of the hardware and links the parts of
the coded buffer: the header, and the coded buffers.

The sizes come from 16-bit picture sizes and stay far below `2 ^ 32`; the scan and buffer counts,
which are stored in 16 and 8 bits, are truncated as in the source.
-/

namespace HardwareIntel.Topaz

open List

/-! ## The scans -/

/-- `TOPAZHP_SCAN_ENCODE_INFO`, with the sizes of the image. -/
structure ScanEncodeInfo where
  numCores : ℕ
  outputWidth : ℕ
  outputHeight : ℕ
  numberMCUsX : ℕ
  numberMCUsY : ℕ
  numberMCUsToEncode : ℕ
  numberMCUsToEncodePerScan : ℕ
  scansInImage : ℕ
  numberOfCodedBuffers : ℕ
  cScan : ℕ
  sScan : ℕ
  deriving DecidableEq

/-- The size of a picture for the JPEG encoder: `~0x1 & (size + 0x1)` in 16 bits. -/
def evenSize (size : UInt16) : ℕ := (size.toNat + 1) / 2 * 2 % 2 ^ 16

/-- `PTG_JPEG_MAX_MCU_PER_SCAN`. -/
def maxMcuPerScan : ℕ := 0x4000

/-- `InitializeJpegEncode`; `none` if it divides by zero. -/
def initializeJpegEncode (numCores width height : ℕ) : Option ScanEncodeInfo :=
  let x := (width + (16 - 1)) / 16
  let y := (height + (16 - 1)) / 16
  let perCore := (y + (numCores - 1)) / numCores * x
  let upperLimit := maxMcuPerScan / x * x
  let perScan := if perCore > upperLimit then upperLimit else perCore
  let scans := (x * y + (perScan - 1)) / perScan % 2 ^ 16
  if numCores = 0 ∨ x = 0 ∨ perScan = 0 then none
  else some ⟨numCores, width, height, x, y, x * y, perScan, scans, scans % 2 ^ 8, 0, 0⟩

/-- `PTG_JPEG_MAX_SCAN_NUM`. -/
def maxScanNum : ℕ := 7

/-- `tng_jpeg_CreateContext`, for the given number of cores. -/
def jpegCreateContext (numCores : ℕ) (width height : UInt16) : Option ScanEncodeInfo :=
  (initializeJpegEncode numCores (evenSize width) (evenSize height)).filter fun info =>
    !(decide (info.scansInImage < 1) || decide (info.scansInImage > maxScanNum))

/-- `InitializeScanCounter`, called by `tng_jpeg_BeginPicture`. -/
def initializeScanCounter (info : ScanEncodeInfo) : ScanEncodeInfo :=
  { info with cScan := info.scansInImage, sScan := info.scansInImage }

/-- What `IssueBufferToHW` writes for a coded buffer (`MTX_ISSUE_BUFFERS`). -/
structure IssuedScan where
  buffer : ℕ
  mcuPositionOfScanAndPipeNo : ℕ
  mcuCntAndResetFlag : ℕ

/-- `IssueBufferToHW`. -/
def issueBufferToHW (info : ScanEncodeInfo) (buffer scanNumber pipe mcus : ℕ) : IssuedScan :=
  let position := (((info.scansInImage - scanNumber) * info.numberMCUsToEncodePerScan) <<< 2) &&&
    (2 ^ 32 - 1 - 2)
  ⟨buffer, if pipe ≤ 3 then position ||| pipe else position, (mcus <<< 1) ||| 1⟩

/-- The loop of `tng_jpeg_EndPicture` over the remaining coded buffers. -/
def issueScans (info : ScanEncodeInfo) : ℕ → ℕ → ℕ → ℕ → List IssuedScan
  | 0, _, _, _ => []
  | _ + 1, _, 0, _ => []
  | buffers + 1, buffer, sScan + 1, remain =>
    let pipe := if info.numCores = 1 then 0 else (buffer + 1) % info.numCores
    if sScan > 0 then
      issueBufferToHW info buffer (sScan + 1) pipe info.numberMCUsToEncodePerScan ::
        issueScans info buffers (buffer + 1) sScan (remain - info.numberMCUsToEncodePerScan)
    else
      -- The last scan takes the remaining MCUs.
      issueBufferToHW info buffer (sScan + 1) 0 remain :: issueScans info buffers (buffer + 1) 0 0

/-- The scans issued by `tng_jpeg_EndPicture`. -/
def jpegEndPicture (info : ScanEncodeInfo) : List IssuedScan :=
  issueScans info info.numberOfCodedBuffers 0 info.sScan info.numberMCUsToEncode

/-- The first MCU of a scan, as the hardware reads it. -/
def IssuedScan.start (scan : IssuedScan) : ℕ := scan.mcuPositionOfScanAndPipeNo >>> 2

/-- The number of MCUs of a scan. -/
def IssuedScan.count (scan : IssuedScan) : ℕ := scan.mcuCntAndResetFlag >>> 1

/-! ## The header -/

/-- `fPutBitsToBuffer`: the low bytes of a value, the most significant one first. -/
def putBits (noOfBytes actualBits : ℕ) : List UInt8 :=
  (List.range noOfBytes).reverse.map fun i => UInt8.ofNat (actualBits / 2 ^ (8 * i))

/-- `gZigZag`. -/
def zigZag : List ℕ :=
  [0, 1, 8, 16, 9, 2, 3, 10, 17, 24, 32, 25, 18, 11, 4, 5, 12, 19, 26, 33, 40, 48, 41, 34, 27, 20,
    13, 6, 7, 14, 21, 28, 35, 42, 49, 56, 57, 50, 43, 36, 29, 22, 15, 23, 30, 37, 44, 51, 58, 59,
    52, 45, 38, 31, 39, 46, 53, 60, 61, 54, 47, 55, 62, 63]

/-- `gMarkerDataLumaDc`. -/
def markerDataLumaDc : List UInt8 :=
  [0x00, 0x00, 0x01, 0x05, 0x01, 0x01, 0x01, 0x01, 0x01, 0x01, 0x00, 0x00, 0x00, 0x00, 0x00, 0x00,
    0x00, 0x00, 0x01, 0x02, 0x03, 0x04, 0x05, 0x06, 0x07, 0x08, 0x09, 0x0A, 0x0B]

/-- `gMarkerDataLumaAc`. -/
def markerDataLumaAc : List UInt8 :=
  [0x10, 0x00, 0x02, 0x01, 0x03, 0x03, 0x02, 0x04, 0x03, 0x05, 0x05, 0x04, 0x04, 0x00, 0x00, 0x01,
    0x7D, 0x01, 0x02, 0x03, 0x00, 0x04, 0x11, 0x05, 0x12, 0x21, 0x31, 0x41, 0x06, 0x13, 0x51,
    0x61, 0x07, 0x22, 0x71, 0x14, 0x32, 0x81, 0x91, 0xA1, 0x08, 0x23, 0x42, 0xB1, 0xC1, 0x15,
    0x52, 0xD1, 0xF0, 0x24, 0x33, 0x62, 0x72, 0x82, 0x09, 0x0A, 0x16, 0x17, 0x18, 0x19, 0x1A,
    0x25, 0x26, 0x27, 0x28, 0x29, 0x2A, 0x34, 0x35, 0x36, 0x37, 0x38, 0x39, 0x3A, 0x43, 0x44,
    0x45, 0x46, 0x47, 0x48, 0x49, 0x4A, 0x53, 0x54, 0x55, 0x56, 0x57, 0x58, 0x59, 0x5A, 0x63,
    0x64, 0x65, 0x66, 0x67, 0x68, 0x69, 0x6A, 0x73, 0x74, 0x75, 0x76, 0x77, 0x78, 0x79, 0x7A,
    0x83, 0x84, 0x85, 0x86, 0x87, 0x88, 0x89, 0x8A, 0x92, 0x93, 0x94, 0x95, 0x96, 0x97, 0x98,
    0x99, 0x9A, 0xA2, 0xA3, 0xA4, 0xA5, 0xA6, 0xA7, 0xA8, 0xA9, 0xAA, 0xB2, 0xB3, 0xB4, 0xB5,
    0xB6, 0xB7, 0xB8, 0xB9, 0xBA, 0xC2, 0xC3, 0xC4, 0xC5, 0xC6, 0xC7, 0xC8, 0xC9, 0xCA, 0xD2,
    0xD3, 0xD4, 0xD5, 0xD6, 0xD7, 0xD8, 0xD9, 0xDA, 0xE1, 0xE2, 0xE3, 0xE4, 0xE5, 0xE6, 0xE7,
    0xE8, 0xE9, 0xEA, 0xF1, 0xF2, 0xF3, 0xF4, 0xF5, 0xF6, 0xF7, 0xF8, 0xF9, 0xFA]

/-- `gMarkerDataChromaDc`. -/
def markerDataChromaDc : List UInt8 :=
  [0x01, 0x00, 0x03, 0x01, 0x01, 0x01, 0x01, 0x01, 0x01, 0x01, 0x01, 0x01, 0x00, 0x00, 0x00, 0x00,
    0x00, 0x00, 0x01, 0x02, 0x03, 0x04, 0x05, 0x06, 0x07, 0x08, 0x09, 0x0A, 0x0B]

/-- `gMarkerDataChromaAc`. -/
def markerDataChromaAc : List UInt8 :=
  [0x11, 0x00, 0x02, 0x01, 0x02, 0x04, 0x04, 0x03, 0x04, 0x07, 0x05, 0x04, 0x04, 0x00, 0x01, 0x02,
    0x77, 0x00, 0x01, 0x02, 0x03, 0x11, 0x04, 0x05, 0x21, 0x31, 0x06, 0x12, 0x41, 0x51, 0x07,
    0x61, 0x71, 0x13, 0x22, 0x32, 0x81, 0x08, 0x14, 0x42, 0x91, 0xA1, 0xB1, 0xC1, 0x09, 0x23,
    0x33, 0x52, 0xF0, 0x15, 0x62, 0x72, 0xD1, 0x0A, 0x16, 0x24, 0x34, 0xE1, 0x25, 0xF1, 0x17,
    0x18, 0x19, 0x1A, 0x26, 0x27, 0x28, 0x29, 0x2A, 0x35, 0x36, 0x37, 0x38, 0x39, 0x3A, 0x43,
    0x44, 0x45, 0x46, 0x47, 0x48, 0x49, 0x4A, 0x53, 0x54, 0x55, 0x56, 0x57, 0x58, 0x59, 0x5A,
    0x63, 0x64, 0x65, 0x66, 0x67, 0x68, 0x69, 0x6A, 0x73, 0x74, 0x75, 0x76, 0x77, 0x78, 0x79,
    0x7A, 0x82, 0x83, 0x84, 0x85, 0x86, 0x87, 0x88, 0x89, 0x8A, 0x92, 0x93, 0x94, 0x95, 0x96,
    0x97, 0x98, 0x99, 0x9A, 0xA2, 0xA3, 0xA4, 0xA5, 0xA6, 0xA7, 0xA8, 0xA9, 0xAA, 0xB2, 0xB3,
    0xB4, 0xB5, 0xB6, 0xB7, 0xB8, 0xB9, 0xBA, 0xC2, 0xC3, 0xC4, 0xC5, 0xC6, 0xC7, 0xC8, 0xC9,
    0xCA, 0xD2, 0xD3, 0xD4, 0xD5, 0xD6, 0xD7, 0xD8, 0xD9, 0xDA, 0xE2, 0xE3, 0xE4, 0xE5, 0xE6,
    0xE7, 0xE8, 0xE9, 0xEA, 0xF2, 0xF3, 0xF4, 0xF5, 0xF6, 0xF7, 0xF8, 0xF9, 0xFA]

/-- The quantization tables (`JPEG_MTX_QUANT_TABLE`). -/
structure QuantTables where
  luma : ℕ → UInt8
  chroma : ℕ → UInt8

/-- A quantization table in the marker segment. -/
def dqtSegment (lqpq : ℕ) (table : ℕ → UInt8) : List UInt8 :=
  putBits 2 0xFFDB ++ putBits 3 lqpq ++ zigZag.map table

/-- A Huffman table in the marker segment. -/
def dhtSegment (length : ℕ) (table : List UInt8) : List UInt8 :=
  putBits 2 0xFFC4 ++ putBits 2 length ++ table

/-- The restart interval in the marker segment. -/
def driSegment (info : ScanEncodeInfo) : List UInt8 :=
  if info.cScan > 1 then
    putBits 2 0xFFDD ++ putBits 2 4 ++ putBits 2 info.numberMCUsToEncodePerScan
  else []

/-- `EncodeMarkerSegment`, with the Huffman tables. -/
def encodeMarkerSegment (info : ScanEncodeInfo) (tables : QuantTables) : List UInt8 :=
  putBits 2 0xFFD8 ++ dqtSegment (0x00430 <<< 4) tables.luma ++
    dqtSegment ((0x00430 <<< 4) ||| 1) tables.chroma ++
    dhtSegment 0x001F markerDataLumaDc ++ dhtSegment 0x00B5 markerDataLumaAc ++
    dhtSegment 0x001F markerDataChromaDc ++ dhtSegment 0x00B5 markerDataChromaAc ++
    driSegment info

/-- A component in the frame header. -/
def frameComponent (id sampling table : ℕ) : List UInt8 :=
  putBits 1 id ++ putBits 1 sampling ++ putBits 1 table

/-- `EncodeFrameHeader`, for the three components of interleaved chroma. -/
def encodeFrameHeader (info : ScanEncodeInfo) : List UInt8 :=
  putBits 2 0xFFC0 ++ putBits 2 (8 + 3 * 3) ++ putBits 1 8 ++ putBits 2 info.outputHeight ++
    putBits 2 info.outputWidth ++ putBits 1 3 ++
    frameComponent 1 (((16 >>> 3) <<< 4) ||| (16 >>> 3)) 0 ++
    frameComponent 2 (((16 >>> 4) <<< 4) ||| (8 >>> 3)) 1 ++
    frameComponent 3 (((16 >>> 4) <<< 4) ||| (8 >>> 3)) 1

/-- `JPGEncodeSOSHeader`. -/
def encodeSOSHeader : List UInt8 :=
  putBits 2 0xFFDA ++ putBits 2 (6 + (3 <<< 1)) ++ putBits 1 3 ++
    (List.range 3).flatMap (fun comp => putBits 1 (comp + 1) ++
      putBits 1 (((if comp ≠ 0 then 1 else 0) <<< 4) ||| if comp ≠ 0 then 1 else 0)) ++
    putBits 1 0 ++ putBits 1 63 ++ putBits 1 0

/-- The header of the image, as `PrepareHeader` writes it. -/
def jpegHeader (info : ScanEncodeInfo) (tables : QuantTables) : List UInt8 :=
  encodeMarkerSegment info tables ++ encodeFrameHeader info ++ encodeSOSHeader

/-! ## The coded buffer -/

/-- `PTG_JPEG_HEADER_MAX_SIZE`. -/
def headerMaxSize : ℕ := 1024

/-- `sizeof(BUFFER_HEADER)`; its first word is `ui32BytesUsed` and its last `ui32Reserved3`, the
offset of the next part. -/
def bufferHeaderSize : ℕ := 16

/-- `AssignCodedDataBuffers`: the size of a coded buffer, `size` being that of the whole. -/
def sizePerCodedBuffer (info : ScanEncodeInfo) (size : UInt32) : ℕ :=
  (size.toNat + (2 ^ 32 - headerMaxSize)) % 2 ^ 32 / info.numberOfCodedBuffers / 16 * 16

/-- The header part of the coded buffer after `ProcessPictureParam`. -/
def processPictureParam (info : ScanEncodeInfo) (tables : QuantTables) (m : ℕ → UInt8) :
    ℕ → UInt8 :=
  let header := jpegHeader info tables
  -- `PrepareHeader` clears a word first, by an offset that counts words.
  let m := setWord (setWord m 0 0) (4 * bufferHeaderSize) 0
  let m := overwrite m bufferHeaderSize header
  setWord (setWord m 12 headerMaxSize) 0 header.length

/-- The state of `tng_jpeg_AppendMarkers`. -/
structure AppendState where
  memory : ℕ → UInt8
  segStart : ℕ
  bytesWritten : ℕ

/-- One iteration of the loop of `tng_jpeg_AppendMarkers`. -/
def appendRestart (sizePer : ℕ) (s : AppendState) (bCnt : ℕ) : AppendState :=
  let next := headerMaxSize + sizePer * bCnt
  let m := setWord s.memory (s.segStart + 12) next
  let used := word m s.segStart
  if bCnt > 0 then
    let m := overwrite m (s.segStart + bufferHeaderSize + used)
      [0xff, UInt8.ofNat (((bCnt - 1) &&& 0x7) ||| 0xD0)]
    ⟨setWord m s.segStart (used + 2), next, (s.bytesWritten + (used + 2)) % 2 ^ 32⟩
  else ⟨m, next, (s.bytesWritten + used) % 2 ^ 32⟩

/-- The end of `tng_jpeg_AppendMarkers`, for the last part. -/
def appendEndOfImage (s : AppendState) : AppendState :=
  let m := setWord s.memory (s.segStart + 12) 0
  let used := word m s.segStart
  let m := overwrite m (s.segStart + bufferHeaderSize + used) (putBits 2 0xFFD9)
  ⟨setWord m s.segStart (used + 2), s.segStart, ((s.bytesWritten + used) % 2 ^ 32 + 2) % 2 ^ 32⟩

/-- `tng_jpeg_AppendMarkers`. -/
def jpegAppendMarkers (info : ScanEncodeInfo) (size : UInt32) (m : ℕ → UInt8) : AppendState :=
  appendEndOfImage ((List.range info.numberOfCodedBuffers).foldl
    (appendRestart (sizePerCodedBuffer info size)) ⟨setWord m 12 headerMaxSize, 0, 0⟩)

/-- The parts of a coded buffer from an offset on, at most `n` of them, as
`psb_codedbuf_map_mangle` goes through them. -/
def codedParts (m : ℕ → UInt8) : ℕ → ℕ → List (List UInt8)
  | 0, _ => []
  | n + 1, offset =>
    let part := slice m (offset + bufferHeaderSize) (word m offset)
    let next := word m (offset + 12)
    if next = 0 then [part] else part :: codedParts m n next

/-! ## The scans partition the image -/

/-- Ranges, given by their first element and their length, that follow each other from one element to
another, none of them empty. -/
def Consecutive : ℕ → List (ℕ × ℕ) → ℕ → Prop
  | first, [], last => first = last
  | first, (start, count) :: ranges, last =>
    start = first ∧ 0 < count ∧ Consecutive (first + count) ranges last

variable {info : ScanEncodeInfo} {segments : List (List UInt8)} {m : ℕ → UInt8} {data : List UInt8}

/-- What the hardware reads from an issued scan. -/
theorem start_issueBufferToHW {scanNumber : ℕ} (buffer pipe mcus : ℕ)
    (h : (info.scansInImage - scanNumber) * info.numberMCUsToEncodePerScan < 2 ^ 30) :
    (issueBufferToHW info buffer scanNumber pipe mcus).start =
      (info.scansInImage - scanNumber) * info.numberMCUsToEncodePerScan := by
  generalize hx : (info.scansInImage - scanNumber) * info.numberMCUsToEncodePerScan = x at h
  have hposition : ((x <<< 2) &&& (2 ^ 32 - 1 - 2)) >>> 2 = x := by
    rw [Nat.shiftRight_and_distrib, Nat.shiftLeft_shiftRight]
    exact (Nat.and_two_pow_sub_one_eq_mod x 30).trans (Nat.mod_eq_of_lt h)
  simp only [issueBufferToHW, IssuedScan.start, hx]
  split
  · rename_i hpipe
    have hzero : pipe >>> 2 = 0 := by
      omega
    rw [Nat.shiftRight_or_distrib, hposition, hzero, Nat.or_zero]
  · exact hposition

/-- The number of units of a scan. -/
theorem count_issueBufferToHW (info : ScanEncodeInfo) (buffer scanNumber pipe mcus : ℕ) :
    (issueBufferToHW info buffer scanNumber pipe mcus).count = mcus := by
  simp only [issueBufferToHW, IssuedScan.count, Nat.shiftRight_or_distrib, Nat.shiftLeft_shiftRight]
  exact Nat.or_zero mcus

/-- What `tng_jpeg_CreateContext` accepts. -/
structure Created (info : ScanEncodeInfo) : Prop where
  total : info.numberMCUsToEncode = info.numberMCUsX * info.numberMCUsY
  dvd : info.numberMCUsX ∣ info.numberMCUsToEncodePerScan
  perScan_pos : 0 < info.numberMCUsToEncodePerScan
  perScan_le : info.numberMCUsToEncodePerScan ≤ maxMcuPerScan
  scans_pos : 0 < info.scansInImage
  scans_le : info.scansInImage ≤ maxScanNum
  buffers : info.numberOfCodedBuffers = info.scansInImage
  lt_total : (info.scansInImage - 1) * info.numberMCUsToEncodePerScan < info.numberMCUsToEncode
  total_le : info.numberMCUsToEncode ≤ info.scansInImage * info.numberMCUsToEncodePerScan

/-- The number of scans of size `p` that `n` MCUs need. -/
theorem ceil_scans {n p : ℕ} (hp : 0 < p) (hscans : 0 < (n + (p - 1)) / p) :
    ((n + (p - 1)) / p - 1) * p < n ∧ n ≤ (n + (p - 1)) / p * p := by
  have hdiv := Nat.div_add_mod (n + (p - 1)) p
  have hmod := Nat.mod_lt (n + (p - 1)) hp
  rw [Nat.mul_comm p] at hdiv
  rw [Nat.sub_mul, Nat.one_mul]
  have hle : p ≤ (n + (p - 1)) / p * p := Nat.le_mul_of_pos_left p hscans
  omega

/-- What a context that is created has. -/
theorem created_of_createContext {numCores : ℕ} {width height : UInt16}
    (h : jpegCreateContext numCores width height = some info) : Created info := by
  obtain ⟨hinit, hscans⟩ := Option.filter_eq_some_iff.mp h
  unfold initializeJpegEncode at hinit
  dsimp only at hinit
  generalize hx : (evenSize width + (16 - 1)) / 16 = x at hinit
  generalize hy : (evenSize height + (16 - 1)) / 16 = y at hinit
  generalize hper : (if (y + (numCores - 1)) / numCores * x > maxMcuPerScan / x * x then
    maxMcuPerScan / x * x else (y + (numCores - 1)) / numCores * x) = p at hinit
  split at hinit
  · exact absurd hinit (by simp)
  obtain rfl := Option.some.inj hinit
  have hlimit : p ≤ maxMcuPerScan / x * x := by
    rw [← hper]
    split <;> omega
  have hdvd : x ∣ p := by
    rw [← hper]
    split <;> exact Nat.dvd_mul_left ..
  have hp : 0 < p := by omega
  -- The number of scans fits into its field, since a scan has at least a row.
  have hlt : (x * y + (p - 1)) / p < 2 ^ 16 := by
    have hy' : y ≤ 4096 := by
      rw [← hy]
      unfold evenSize
      omega
    have hrows : x * y ≤ p * 4096 := Nat.mul_le_mul (Nat.le_of_dvd hp hdvd) hy'
    rw [Nat.div_lt_iff_lt_mul hp]
    omega
  simp only [Nat.mod_eq_of_lt hlt, Bool.not_eq_true', Bool.or_eq_false_iff,
    decide_eq_false_iff_not] at hscans
  have hpos : 0 < (x * y + (p - 1)) / p := by omega
  have hle : (x * y + (p - 1)) / p ≤ maxScanNum := by omega
  obtain ⟨hbelow, habove⟩ := ceil_scans hp hpos
  constructor
  · rfl
  · exact hdvd
  · exact hp
  · exact hlimit.trans (Nat.div_mul_le_self ..)
  all_goals simp only [Nat.mod_eq_of_lt hlt]
  · exact hpos
  · exact hle
  · exact Nat.mod_eq_of_lt (by unfold maxScanNum at hle; omega)
  · exact hbelow
  · exact habove

/-- What a list of issued scans covers: MCUs from one to another without a gap, from the beginnings
of rows on, in coded buffers from `buffer` on; all scans but the last have the announced length. -/
structure Scans (info : ScanEncodeInfo) (buffer first last : ℕ) (scans : List IssuedScan) :
    Prop where
  consecutive : Consecutive first (scans.map fun scan => (scan.start, scan.count)) last
  row : ∀ scan ∈ scans, info.numberMCUsX ∣ scan.start
  announced : ∀ scan ∈ scans.dropLast, scan.count = info.numberMCUsToEncodePerScan
  buffers : scans.map IssuedScan.buffer = List.range' buffer scans.length

/-- The first unit of each scan is in range. -/
theorem start_lt (h : Created info) {buffer : ℕ} (hbuffer : buffer < info.scansInImage) :
    buffer * info.numberMCUsToEncodePerScan < 2 ^ 30 := by
  have hscans : buffer ≤ 7 := by
    have := h.scans_le
    unfold maxScanNum at this
    omega
  have hle := Nat.mul_le_mul hscans h.perScan_le
  unfold maxMcuPerScan at hle
  omega

/-- Where the scan of a coded buffer starts, `n` being the number of the buffers after it. -/
theorem start_issued (h : Created info) {n buffer : ℕ} (hn : buffer + (n + 1) = info.scansInImage)
    (pipe mcus : ℕ) :
    (issueBufferToHW info buffer (n + 1) pipe mcus).start =
      buffer * info.numberMCUsToEncodePerScan := by
  have hnumber : info.scansInImage - (n + 1) = buffer := by omega
  have hbuffer : buffer < info.scansInImage := by omega
  have hlt := start_lt h hbuffer
  rw [start_issueBufferToHW, hnumber]
  rwa [hnumber]

/-- The loop over the last `n + 1` coded buffers. -/
theorem scans_issueScans (h : Created info) {n buffer remain : ℕ}
    (hn : buffer + (n + 1) = info.scansInImage)
    (hremain : buffer * info.numberMCUsToEncodePerScan + remain = info.numberMCUsToEncode)
    (hlast : n * info.numberMCUsToEncodePerScan < remain) :
    Scans info buffer (buffer * info.numberMCUsToEncodePerScan) info.numberMCUsToEncode
        (issueScans info (n + 1) buffer (n + 1) remain) ∧
      (issueScans info (n + 1) buffer (n + 1) remain).length = n + 1 := by
  induction n generalizing buffer remain with
  | zero =>
    have hstart := start_issued h hn
    refine ⟨⟨?_, ?_, ?_, ?_⟩, rfl⟩
    · simp [issueScans, Consecutive, hstart, count_issueBufferToHW, hremain]
      omega
    · simpa [issueScans, hstart] using h.dvd.mul_left buffer
    · simp [issueScans]
    · rfl
  | succ n ih =>
    rw [Nat.succ_mul] at hlast
    have hnext : (buffer + 1) * info.numberMCUsToEncodePerScan =
        buffer * info.numberMCUsToEncodePerScan + info.numberMCUsToEncodePerScan := Nat.succ_mul ..
    have hstart := start_issued h hn
    obtain ⟨hrest, hlength⟩ := @ih (buffer + 1) (remain - info.numberMCUsToEncodePerScan)
      (by omega) (by omega) (by omega)
    rw [issueScans, if_pos (by omega)]
    refine ⟨⟨?_, ?_, ?_, ?_⟩, by rw [length_cons, hlength]⟩
    · refine ⟨hstart _ _, ?_, ?_⟩
      · rw [count_issueBufferToHW]
        exact h.perScan_pos
      · rw [count_issueBufferToHW, ← hnext]
        exact hrest.consecutive
    · intro scan hscan
      rcases mem_cons.mp hscan with rfl | hscan
      · rw [hstart]
        exact h.dvd.mul_left buffer
      · exact hrest.row scan hscan
    · intro scan hscan
      rw [dropLast_cons_of_ne_nil (ne_nil_of_length_pos (by omega))] at hscan
      rcases mem_cons.mp hscan with rfl | hscan
      · exact count_issueBufferToHW ..
      · exact hrest.announced scan hscan
    · rw [map_cons, hrest.buffers, length_cons, List.range'_succ]
      rfl

/-- The scans of a picture. -/
theorem scans_jpegEndPicture (h : Created info) :
    Scans info 0 0 info.numberMCUsToEncode (jpegEndPicture (initializeScanCounter info)) ∧
      (jpegEndPicture (initializeScanCounter info)).length = info.numberOfCodedBuffers := by
  obtain ⟨n, hn⟩ := Nat.exists_eq_succ_of_ne_zero (Nat.pos_iff_ne_zero.mp h.scans_pos)
  have hcreated : Created (initializeScanCounter info) := { h with }
  have hlast := h.lt_total
  rw [hn, Nat.succ_sub_one] at hlast
  have hfirst : 0 + (n + 1) = (initializeScanCounter info).scansInImage := by
    rw [Nat.zero_add]
    exact hn.symm
  have hremain : 0 * (initializeScanCounter info).numberMCUsToEncodePerScan +
      info.numberMCUsToEncode = (initializeScanCounter info).numberMCUsToEncode := by
    rw [Nat.zero_mul, Nat.zero_add]
    rfl
  obtain ⟨hscans, hlength⟩ := scans_issueScans hcreated hfirst hremain hlast
  rw [Nat.zero_mul] at hscans
  have hcall : jpegEndPicture (initializeScanCounter info) =
      issueScans (initializeScanCounter info) (n + 1) 0 (n + 1) info.numberMCUsToEncode := by
    unfold jpegEndPicture initializeScanCounter
    rw [h.buffers, hn]
  rw [hcall, h.buffers, hn]
  exact ⟨{ hscans with }, hlength⟩

/-! ## The parts of the coded buffer -/

/-- At an offset there is a part with the given data. -/
def PartAt (m : ℕ → UInt8) (offset : ℕ) (data : List UInt8) : Prop :=
  word m offset = data.length ∧ slice m (offset + bufferHeaderSize) data.length = data

/-- A part is where the memory is the same. -/
theorem PartAt.congr {m' : ℕ → UInt8} {offset : ℕ} (h : PartAt m offset data)
    (hsame : ∀ j, offset ≤ j → j < offset + bufferHeaderSize + data.length → m' j = m j) :
    PartAt m' offset data := by
  have hsize : bufferHeaderSize = 16 := rfl
  refine ⟨?_, ?_⟩
  · rw [word_congr fun j hj hj' => hsame j hj (by omega)]
    exact h.1
  · rw [slice_congr fun j hj hj' => hsame j (by omega) (by omega)]
    exact h.2

/-- A marker is put behind the data of a part, and the offset of the next part is set. -/
def finishPart (m : ℕ → UInt8) (offset next : ℕ) (marker : List UInt8) : ℕ → UInt8 :=
  let m := setWord m (offset + 12) next
  let used := word m offset
  setWord (overwrite m (offset + bufferHeaderSize + used) marker) offset (used + 2)

/-- What is there afterwards. -/
structure Finished (m : ℕ → UInt8) (offset next : ℕ) (data : List UInt8) (m' : ℕ → UInt8) :
    Prop where
  part : PartAt m' offset data
  next : word m' (offset + 12) = next
  before : ∀ j < offset, m' j = m j
  after : ∀ j, offset + bufferHeaderSize + data.length ≤ j → m' j = m j

/-- A part is finished with its marker. -/
theorem finished_finishPart {offset next : ℕ} {marker : List UInt8} (h : PartAt m offset data)
    (hnext : next < 2 ^ 32) (hdata : data.length + 2 < 2 ^ 32) (hmarker : marker.length = 2) :
    Finished m offset next (data ++ marker) (finishPart m offset next marker) := by
  have hused : word (setWord m (offset + 12) next) offset = data.length := by
    rw [word_congr fun j _ hj => setWord_of_lt m next (by omega)]
    exact h.1
  have hsize : bufferHeaderSize = 16 := rfl
  unfold finishPart
  dsimp only
  rw [hused]
  refine ⟨⟨?_, ?_⟩, ?_, fun j hj => ?_, fun j hj => ?_⟩
  · rw [word_setWord _ hdata, length_append, hmarker]
  · have hsame : slice (overwrite (setWord m (offset + 12) next)
        (offset + bufferHeaderSize + data.length) marker) (offset + bufferHeaderSize) data.length =
          data := by
      rw [slice_congr fun j hj hj' => ?_]
      · exact h.2
      · rw [overwrite_of_lt _ _ (by omega), setWord_of_le _ _ (by omega)]
    rw [slice_congr fun j hj _ => setWord_of_le _ _ (by omega), length_append, slice_add,
      hsame, slice_overwrite_self]
  · rw [word_congr fun j hj _ => setWord_of_le _ _ (by omega),
      word_congr fun j _ hj => overwrite_of_lt _ _ (by omega), word_setWord _ hnext]
  · rw [setWord_of_lt _ _ hj, overwrite_of_lt _ _ (by omega), setWord_of_lt _ _ (by omega)]
  · rw [length_append] at hj
    rw [setWord_of_le _ _ (by omega), overwrite_of_le _ _ (by omega), setWord_of_le _ _ (by omega)]

/-! ## The image -/

/-- The segments from number `k` on, with restart markers counted modulo 8 between them and the end
marker behind the last. -/
def withMarkers : ℕ → List (List UInt8) → List (List UInt8)
  | _, [] => []
  | _, [segment] => [segment ++ [0xFF, 0xD9]]
  | k, segment :: next :: segments =>
    (segment ++ [0xFF, UInt8.ofNat (0xD0 + k % 8)]) :: withMarkers (k + 1) (next :: segments)

/-- The offset of a coded buffer. -/
def bufferOffset (sizePer k : ℕ) : ℕ := headerMaxSize + sizePer * k

/-- The segments from number `k` on are in their coded buffers. -/
def Placed (sizePer : ℕ) (m : ℕ → UInt8) : ℕ → List (List UInt8) → Prop
  | _, [] => True
  | k, segment :: segments =>
    PartAt m (bufferOffset sizePer k) segment ∧ Placed sizePer m (k + 1) segments

/-- The place of the next coded buffer. -/
theorem bufferOffset_succ (sizePer k : ℕ) :
    bufferOffset sizePer (k + 1) = bufferOffset sizePer k + sizePer := by
  unfold bufferOffset
  rw [Nat.mul_succ, Nat.add_assoc]

/-- The parts are where the memory is the same. -/
theorem Placed.congr {sizePer k : ℕ} {m' : ℕ → UInt8} (h : Placed sizePer m k segments)
    (hsame : ∀ j, bufferOffset sizePer k ≤ j → m' j = m j) : Placed sizePer m' k segments := by
  induction segments generalizing k with
  | nil => trivial
  | cons segment segments ih =>
    refine ⟨h.1.congr fun j hj _ => hsame j hj, ih h.2 fun j hj => hsame j ?_⟩
    rw [bufferOffset_succ] at hj
    omega

/-- The restart markers follow each other. -/
theorem restart_marker (k : ℕ) :
    [0xff, UInt8.ofNat ((k &&& 0x7) ||| 0xD0)] = [0xFF, UInt8.ofNat (0xD0 + k % 8)] := by
  have hor : ∀ r < 8, r ||| 0xD0 = 0xD0 + r := by decide
  have hand : k &&& 0x7 = k % 8 := Nat.and_two_pow_sub_one_eq_mod k 3
  rw [hand, hor _ (Nat.mod_lt k (by decide))]

/-- An iteration with a restart marker finishes a part. -/
theorem appendRestart_succ (sizePer k : ℕ) (s : AppendState) (h : PartAt s.memory s.segStart data) :
    appendRestart sizePer s (k + 1) =
      ⟨finishPart s.memory s.segStart (bufferOffset sizePer (k + 1))
          [0xFF, UInt8.ofNat (0xD0 + k % 8)],
        bufferOffset sizePer (k + 1), (s.bytesWritten + (data.length + 2)) % 2 ^ 32⟩ := by
  have hused : ∀ next, word (setWord s.memory (s.segStart + 12) next) s.segStart =
      data.length := by
    intro next
    rw [word_congr fun j _ hj => setWord_of_lt _ next (by omega)]
    exact h.1
  simp only [appendRestart, Nat.zero_lt_succ, if_true, Nat.add_sub_cancel, restart_marker,
    finishPart, hused, bufferOffset]

/-- The last part ends the image. -/
theorem appendEndOfImage_eq (s : AppendState) (h : PartAt s.memory s.segStart data) :
    appendEndOfImage s = ⟨finishPart s.memory s.segStart 0 [0xFF, 0xD9], s.segStart,
      (s.bytesWritten + (data.length + 2)) % 2 ^ 32⟩ := by
  have hused : word (setWord s.memory (s.segStart + 12) 0) s.segStart = data.length := by
    rw [word_congr fun j _ hj => setWord_of_lt _ 0 (by omega)]
    exact h.1
  have hmarker : putBits 2 0xFFD9 = [0xFF, 0xD9] := by decide
  simp [appendEndOfImage, finishPart, hused, hmarker, Nat.add_assoc]

/-- A part and what follows it. -/
theorem codedParts_succ {offset next : ℕ} (n : ℕ) (hpart : PartAt m offset data)
    (hnext : word m (offset + 12) = next) :
    codedParts m (n + 1) offset = if next = 0 then [data] else data :: codedParts m n next := by
  rw [codedParts, hpart.1, hpart.2, hnext]

/-- The loop from a coded buffer on, and the end of the image. -/
theorem append_segments {sizePer k : ℕ} {segment : List UInt8} {s : AppendState}
    (hstart : s.segStart = bufferOffset sizePer k)
    (hplaced : Placed sizePer s.memory k (segment :: segments))
    (hfits : ∀ d ∈ segment :: segments, bufferHeaderSize + d.length + 2 ≤ sizePer)
    (hend : bufferOffset sizePer (k + (segments.length + 1)) < 2 ^ 32) :
    let t := appendEndOfImage
      ((List.range' (k + 1) segments.length).foldl (appendRestart sizePer) s)
    (∀ n, segments.length < n → codedParts t.memory n (bufferOffset sizePer k) =
        withMarkers k (segment :: segments)) ∧
      t.bytesWritten =
        (s.bytesWritten + (withMarkers k (segment :: segments)).flatten.length) % 2 ^ 32 ∧
      ∀ j < bufferOffset sizePer k, t.memory j = s.memory j := by
  have hsize : bufferHeaderSize = 16 := rfl
  induction segments generalizing k segment s with
  | nil =>
    have hlength := hfits segment (mem_cons_self ..)
    have hoffset := bufferOffset_succ sizePer k
    simp only [length_nil, Nat.zero_add] at hend
    have hpart : PartAt s.memory s.segStart segment := hstart ▸ hplaced.1
    have hfinished : Finished s.memory s.segStart 0 (segment ++ [0xFF, 0xD9])
        (finishPart s.memory s.segStart 0 [0xFF, 0xD9]) :=
      finished_finishPart hpart (by decide) (by omega) rfl
    simp only [length_nil, List.range'_zero, foldl_nil, appendEndOfImage_eq s hpart]
    refine ⟨fun n hn => ?_, ?_, fun j hj => hfinished.before j (hstart ▸ hj)⟩
    · obtain ⟨n, rfl⟩ := Nat.exists_eq_add_one_of_ne_zero (Nat.pos_iff_ne_zero.mp hn)
      rw [← hstart, codedParts_succ n hfinished.part hfinished.next]
      rfl
    · simp [withMarkers]
  | cons next segments ih =>
    have hlength := hfits segment (mem_cons_self ..)
    have hoffset := bufferOffset_succ sizePer k
    have hpart : PartAt s.memory s.segStart segment := hstart ▸ hplaced.1
    have hrest : k + 1 + (segments.length + 1) = k + ((next :: segments).length + 1) := by
      rw [length_cons]
      omega
    have hnext : bufferOffset sizePer (k + 1) < 2 ^ 32 := by
      refine Nat.lt_of_le_of_lt ?_ hend
      exact Nat.add_le_add_left (Nat.mul_le_mul_left _ (by omega)) _
    have hfinished : Finished s.memory s.segStart (bufferOffset sizePer (k + 1))
        (segment ++ [0xFF, UInt8.ofNat (0xD0 + k % 8)])
        (finishPart s.memory s.segStart (bufferOffset sizePer (k + 1))
          [0xFF, UInt8.ofNat (0xD0 + k % 8)]) :=
      finished_finishPart hpart hnext (by omega) rfl
    have hafter : ∀ j, bufferOffset sizePer (k + 1) ≤ j →
        finishPart s.memory s.segStart (bufferOffset sizePer (k + 1))
          [0xFF, UInt8.ofNat (0xD0 + k % 8)] j = s.memory j := by
      intro j hj
      refine hfinished.after j ?_
      rw [length_append, hstart]
      simp only [length_cons, length_nil]
      omega
    rw [length_cons, List.range'_succ, foldl_cons, appendRestart_succ sizePer k s hpart]
    obtain ⟨hparts, hwritten, hbefore⟩ := ih (s := ⟨finishPart s.memory s.segStart
        (bufferOffset sizePer (k + 1)) [0xFF, UInt8.ofNat (0xD0 + k % 8)],
        bufferOffset sizePer (k + 1), (s.bytesWritten + (segment.length + 2)) % 2 ^ 32⟩) rfl
      (hplaced.2.congr hafter) (fun d hd => hfits d (mem_cons_of_mem _ hd)) (hrest ▸ hend)
    refine ⟨fun n hn => ?_, ?_, fun j hj => ?_⟩
    · obtain ⟨n, rfl⟩ := Nat.exists_eq_add_one_of_ne_zero (Nat.ne_of_gt (Nat.zero_lt_of_lt hn))
      have hpart' := hfinished.part.congr fun j hj hj' => hbefore j ?_
      · have hword := hfinished.next
        rw [← word_congr fun j hj hj' => hbefore j (by omega)] at hword
        rw [← hstart, codedParts_succ n hpart' hword, if_neg, hparts n (by omega)]
        · rfl
        · unfold bufferOffset headerMaxSize
          omega
      · rw [length_append, hstart] at hj'
        simp only [length_cons, length_nil] at hj'
        omega
    · rw [hwritten, Nat.mod_add_mod]
      simp only [withMarkers, flatten_cons, length_append, length_cons, length_nil]
      congr 1
      omega
    · rw [hbefore j (by omega)]
      exact hfinished.before j (hstart ▸ hj)

@[simp] theorem length_putBits (n v : ℕ) : (putBits n v).length = n := by
  simp [putBits]

/-- The image's header fits. -/
theorem length_jpegHeader_le (info : ScanEncodeInfo) (tables : QuantTables) :
    (jpegHeader info tables).length ≤ headerMaxSize - bufferHeaderSize := by
  have hdqt : ∀ lqpq table, (dqtSegment lqpq table).length = 69 := by
    intro lqpq table
    simp [dqtSegment, zigZag]
  have hdht : ∀ length table, (dhtSegment length table).length = 4 + table.length := by
    intro length table
    simp only [dhtSegment, length_append, length_putBits]
  have hdri : (driSegment info).length ≤ 6 := by
    unfold driSegment
    split <;> simp
  have hframe : (encodeFrameHeader info).length = 19 := by
    simp [encodeFrameHeader, frameComponent]
  have hsos : encodeSOSHeader.length = 14 := by decide
  have hlumaDc : markerDataLumaDc.length = 29 := by decide
  have hlumaAc : markerDataLumaAc.length = 179 := by decide +kernel
  have hchromaDc : markerDataChromaDc.length = 29 := by decide
  have hchromaAc : markerDataChromaAc.length = 179 := by decide +kernel
  simp only [jpegHeader, encodeMarkerSegment, length_append, length_putBits, hdqt, hdht,
    hframe, hsos, hlumaDc, hlumaAc, hchromaDc, hchromaAc, headerMaxSize, bufferHeaderSize]
  omega

/-- The image's header is the first part. -/
theorem partAt_processPictureParam (info : ScanEncodeInfo) (tables : QuantTables)
    (m : ℕ → UInt8) : PartAt (processPictureParam info tables m) 0 (jpegHeader info tables) := by
  have hlength := length_jpegHeader_le info tables
  unfold headerMaxSize bufferHeaderSize at hlength
  unfold processPictureParam
  refine ⟨word_setWord _ (by omega), ?_⟩
  have hsize : bufferHeaderSize = 16 := rfl
  rw [slice_congr fun j hj _ => setWord_of_le _ _ (by omega),
    slice_congr fun j hj _ => setWord_of_le _ _ (by omega), Nat.zero_add, slice_overwrite_self]

/-- What the hardware leaves in the coded buffer of a picture: the header is as before, and the
segments are in their coded buffers, which lie in the memory of the whole, each at least two bytes
shorter than its buffer. -/
structure Encoded (info : ScanEncodeInfo) (tables : QuantTables) (size : UInt32)
    (segments : List (List UInt8)) (m : ℕ → UInt8) : Prop where
  count : segments.length = info.numberOfCodedBuffers
  header : ∃ m₀, ∀ j < headerMaxSize, m j = processPictureParam info tables m₀ j
  placed : Placed (sizePerCodedBuffer info size) m 0 segments
  fits : ∀ segment ∈ segments, bufferHeaderSize + segment.length + 2 ≤ sizePerCodedBuffer info size
  inside : bufferOffset (sizePerCodedBuffer info size) info.numberOfCodedBuffers ≤ size.toNat

/-- The segments and their markers fill at most their coded buffers. -/
theorem length_withMarkers_le {sizePer k : ℕ}
    (h : ∀ segment ∈ segments, bufferHeaderSize + segment.length + 2 ≤ sizePer) :
    (withMarkers k segments).flatten.length ≤ sizePer * segments.length := by
  induction segments generalizing k with
  | nil => simp [withMarkers]
  | cons segment segments ih =>
    have hlength := h segment (mem_cons_self ..)
    cases segments with
    | nil =>
      simp [withMarkers]
      omega
    | cons next segments =>
      have hrest := ih (k := k + 1) fun d hd => h d (mem_cons_of_mem _ hd)
      simp only [withMarkers, flatten_cons, length_append, length_cons,
        length_nil, Nat.mul_succ] at hrest ⊢
      omega

/-- The first iteration, for the header. -/
theorem appendRestart_zero (sizePer : ℕ) {header : List UInt8} (h : PartAt m 0 header)
    (hlength : header.length < 2 ^ 32) :
    appendRestart sizePer ⟨setWord m 12 headerMaxSize, 0, 0⟩ 0 =
      ⟨setWord (setWord m 12 headerMaxSize) 12 headerMaxSize, bufferOffset sizePer 0,
        header.length⟩ := by
  have hused : word (setWord (setWord m 12 headerMaxSize) 12 headerMaxSize) 0 = header.length := by
    exact h.1
  simp only [appendRestart, Nat.lt_irrefl, if_false, Nat.mul_zero, Nat.add_zero, Nat.zero_add,
    hused, bufferOffset, gt_iff_lt, AppendState.mk.injEq, true_and]
  exact Nat.mod_eq_of_lt hlength

/-- A coded buffer with a header and segments. -/
theorem append_markers {sizePer : ℕ} {header segment : List UInt8} (hheader : PartAt m 0 header)
    (hlength : header.length ≤ headerMaxSize - bufferHeaderSize)
    (hplaced : Placed sizePer m 0 (segment :: segments))
    (hfits : ∀ d ∈ segment :: segments, bufferHeaderSize + d.length + 2 ≤ sizePer)
    (hend : bufferOffset sizePer (segments.length + 1) < 2 ^ 32) :
    let t := appendEndOfImage ((List.range (segments.length + 1)).foldl (appendRestart sizePer)
      ⟨setWord m 12 headerMaxSize, 0, 0⟩)
    (∀ n, segments.length + 1 < n →
        codedParts t.memory n 0 = header :: withMarkers 0 (segment :: segments)) ∧
      t.bytesWritten = (header :: withMarkers 0 (segment :: segments)).flatten.length := by
  have hsize : bufferHeaderSize = 16 := rfl
  have hmax : headerMaxSize = 1024 := rfl
  have hoffset : bufferOffset sizePer 0 = headerMaxSize := by
    rw [bufferOffset, Nat.mul_zero, Nat.add_zero]
  have htotal := length_withMarkers_le (k := 0) hfits
  have hlater : ∀ j, headerMaxSize ≤ j →
      setWord (setWord m 12 headerMaxSize) 12 headerMaxSize j = m j := by
    intro j hj
    rw [setWord_of_le _ _ (by omega), setWord_of_le _ _ (by omega)]
  obtain ⟨hparts, hwritten, hbefore⟩ := append_segments
    (s := ⟨setWord (setWord m 12 headerMaxSize) 12 headerMaxSize, bufferOffset sizePer 0,
      header.length⟩) rfl (hplaced.congr fun j hj => hlater j (by omega)) hfits
    (by rw [Nat.zero_add]; exact hend)
  have hend' : headerMaxSize + sizePer * (segments.length + 1) < 2 ^ 32 := hend
  rw [range_eq_range', List.range'_succ, foldl_cons, appendRestart_zero sizePer hheader (by omega)]
  generalize appendEndOfImage _ = t at hparts hwritten hbefore
  dsimp only at hwritten hbefore
  refine ⟨fun n hn => ?_, ?_⟩
  · have hpart : PartAt t.memory 0 header := by
      refine ⟨?_, ?_⟩
      · rw [word_congr fun j _ hj => hbefore j (by omega),
          word_congr fun j _ hj => setWord_of_lt _ _ (by omega),
          word_congr fun j _ hj => setWord_of_lt _ _ (by omega)]
        exact hheader.1
      · rw [slice_congr fun j _ hj => hbefore j (by omega),
          slice_congr fun j hj _ => setWord_of_le _ _ (by omega),
          slice_congr fun j hj _ => setWord_of_le _ _ (by omega)]
        exact hheader.2
    have hnext : word t.memory (0 + 12) = headerMaxSize := by
      rw [word_congr fun j _ hj => hbefore j (by omega), Nat.zero_add, word_setWord _ (by decide)]
    obtain ⟨n, rfl⟩ := Nat.exists_eq_add_one_of_ne_zero (Nat.ne_of_gt (Nat.zero_lt_of_lt hn))
    rw [codedParts_succ n hpart hnext, if_neg (by decide), ← hoffset, hparts n (by omega)]
  · rw [hwritten, flatten_cons, length_append]
    simp only [length_cons] at htotal
    exact Nat.mod_eq_of_lt (by omega)

/-- `tng_jpeg_AppendMarkers` on what the hardware leaves. -/
theorem parts_jpegAppendMarkers (h : Created info) {tables : QuantTables} {size : UInt32}
    (hencoded : Encoded info tables size segments m) :
    codedParts (jpegAppendMarkers info size m).memory (maxScanNum + 1) 0 =
        jpegHeader info tables :: withMarkers 0 segments ∧
      (jpegAppendMarkers info size m).bytesWritten =
        (jpegHeader info tables :: withMarkers 0 segments).flatten.length := by
  have hlength := length_jpegHeader_le info tables
  have hpart : PartAt m 0 (jpegHeader info tables) := by
    obtain ⟨m₀, hheader⟩ := hencoded.header
    have hsize : bufferHeaderSize = 16 := rfl
    have hmax : headerMaxSize = 1024 := rfl
    exact (partAt_processPictureParam info tables m₀).congr fun j _ hj => hheader j (by omega)
  have hcount := hencoded.count
  have hscans := h.scans_le
  have hscans_pos := h.scans_pos
  have hend := Nat.lt_of_le_of_lt hencoded.inside size.toNat_lt
  rw [h.buffers] at hcount hend
  generalize jpegHeader info tables = header at hlength hpart
  cases segments with
  | nil =>
    rw [length_nil] at hcount
    omega
  | cons segment segments =>
    rw [length_cons] at hcount
    rw [← hcount] at hend
    obtain ⟨hparts, hwritten⟩ := append_markers hpart hlength hencoded.placed hencoded.fits hend
    unfold jpegAppendMarkers
    rw [h.buffers, ← hcount]
    exact ⟨hparts _ (by omega), hwritten⟩

/-! ## The header read back -/

/-- The marker segments up to the start of scan, as a decoder goes through them: each marker with its
parameters. -/
def readSegments : List UInt8 → Option (List (UInt8 × List UInt8))
  | 0xFF :: marker :: high :: low :: rest =>
    let length := high.toNat * 2 ^ 8 + low.toNat
    if length < 2 ∨ rest.length < length - 2 then none
    else if marker = 0xDA then
      if rest.length = length - 2 then some [(marker, rest)] else none
    else (readSegments (rest.drop (length - 2))).map ((marker, rest.take (length - 2)) :: ·)
  | _ => none
termination_by bytes => bytes.length
decreasing_by
  simp only [List.length_drop, List.length_cons]
  omega

/-- The marker segments behind the start of an image. -/
def readHeader : List UInt8 → Option (List (UInt8 × List UInt8))
  | 0xFF :: 0xD8 :: rest => readSegments rest
  | _ => none

/-- A marker segment. -/
def markerSegment (marker : UInt8) (params : List UInt8) : List UInt8 :=
  0xFF :: marker :: (putBits 2 (params.length + 2) ++ params)

/-- Two bytes. -/
theorem putBits_two (v : ℕ) : putBits 2 v = [UInt8.ofNat (v / 2 ^ 8), UInt8.ofNat v] := by
  simp [putBits, range_succ]

/-- Two bytes read back. -/
theorem toNat_putBits {v : ℕ} (hv : v < 2 ^ 16) :
    (UInt8.ofNat (v / 2 ^ 8)).toNat * 2 ^ 8 + (UInt8.ofNat v).toNat = v := by
  rw [UInt8.toNat_ofNat', UInt8.toNat_ofNat']
  omega

section Segments

variable {marker : UInt8} {params : List UInt8} (hparams : params.length + 2 < 2 ^ 16)
include hparams

/-- A marker segment is read, and then what follows it. -/
theorem readSegments_append (hmarker : marker ≠ 0xDA) (rest : List UInt8) :
    readSegments (markerSegment marker params ++ rest) =
      (readSegments rest).map ((marker, params) :: ·) := by
  have hlength := toNat_putBits hparams
  rw [markerSegment, putBits_two]
  simp only [cons_append, nil_append]
  rw [readSegments]
  simp only [hlength]
  rw [if_neg (by rw [length_append]; omega), if_neg hmarker, Nat.add_sub_cancel,
    drop_left, take_left]

/-- The start of scan ends the header. -/
theorem readSegments_startOfScan : readSegments (markerSegment 0xDA params) =
    some [(0xDA, params)] := by
  have hlength := toNat_putBits hparams
  rw [markerSegment, putBits_two]
  simp only [cons_append, nil_append]
  rw [readSegments]
  simp only [hlength]
  rw [if_neg (by omega), if_pos trivial, if_pos (by omega)]

end Segments

/-- The entries of a quantization table. -/
theorem length_zigZag (table : ℕ → UInt8) : (zigZag.map table).length = 64 := rfl

/-- A quantization table is a marker segment, whose first parameter is its destination. -/
theorem dqtSegment_eq {lqpq : ℕ} {id : UInt8} (hid : putBits 3 lqpq = [0, 0x43, id])
    (table : ℕ → UInt8) : dqtSegment lqpq table = markerSegment 0xDB (id :: zigZag.map table) := by
  have hmarker : putBits 2 0xFFDB = [0xFF, 0xDB] := rfl
  have hlength : putBits 2 67 = [0, 0x43] := rfl
  rw [dqtSegment, markerSegment, length_cons, length_zigZag, hid, hmarker, hlength]
  rfl

/-- A Huffman table is a marker segment. -/
theorem dhtSegment_eq {length : ℕ} {table : List UInt8} (hlength : table.length + 2 = length) :
    dhtSegment length table = markerSegment 0xC4 table := by
  rw [dhtSegment, markerSegment, hlength]
  rfl

/-- The lengths of the Huffman tables. -/
theorem length_markerData :
    markerDataLumaDc.length = 29 ∧ markerDataLumaAc.length = 179 ∧
      markerDataChromaDc.length = 29 ∧ markerDataChromaAc.length = 179 :=
  ⟨rfl, rfl, rfl, rfl⟩

/-- The parameters of the frame header. -/
def frameParams (info : ScanEncodeInfo) : List UInt8 := (encodeFrameHeader info).drop 4

/-- The frame header is a marker segment. -/
theorem encodeFrameHeader_eq (info : ScanEncodeInfo) :
    encodeFrameHeader info = markerSegment 0xC0 (frameParams info) := rfl

/-- The scan header is one. -/
theorem encodeSOSHeader_eq :
    encodeSOSHeader = markerSegment 0xDA [3, 1, 0, 2, 0x11, 3, 0x11, 0, 63, 0] := by decide

/-- The restart intervals among marker segments. -/
def restartIntervals (segments : List (UInt8 × List UInt8)) : List (List UInt8) :=
  (segments.filter fun segment => segment.1 = 0xDD).map Prod.snd

/-- The header read back has the restart interval of the marker segment, and no other. -/
theorem restartIntervals_jpegHeader (info : ScanEncodeInfo) (tables : QuantTables) :
    (readHeader (jpegHeader info tables)).map restartIntervals =
      some (if info.cScan > 1 then [putBits 2 info.numberMCUsToEncodePerScan] else []) := by
  have hdri : driSegment info = if info.cScan > 1 then
      markerSegment 0xDD (putBits 2 info.numberMCUsToEncodePerScan) else [] := rfl
  obtain ⟨hlumaDc, hlumaAc, hchromaDc, hchromaAc⟩ := length_markerData
  have hrest : ∀ rest, readHeader (encodeMarkerSegment info tables ++ rest) =
      (readSegments (driSegment info ++ rest)).map fun segments =>
        (0xDB, 0 :: zigZag.map tables.luma) :: (0xDB, 1 :: zigZag.map tables.chroma) ::
          (0xC4, markerDataLumaDc) :: (0xC4, markerDataLumaAc) :: (0xC4, markerDataChromaDc) ::
          (0xC4, markerDataChromaAc) :: segments := by
    intro rest
    have hstart : putBits 2 0xFFD8 = [0xFF, 0xD8] := rfl
    have hluma : putBits 3 (0x00430 <<< 4) = [0, 0x43, 0] := by decide
    have hchroma : putBits 3 ((0x00430 <<< 4) ||| 1) = [0, 0x43, 1] := by decide
    rw [encodeMarkerSegment, hstart, dqtSegment_eq hluma, dqtSegment_eq hchroma,
      dhtSegment_eq (by omega), dhtSegment_eq (by omega), dhtSegment_eq (by omega),
      dhtSegment_eq (by omega)]
    simp only [append_assoc, cons_append, nil_append]
    rw [readHeader, readSegments_append (by rw [length_cons, length_zigZag]; decide) (by decide),
      readSegments_append (by rw [length_cons, length_zigZag]; decide) (by decide),
      readSegments_append (by omega) (by decide), readSegments_append (by omega) (by decide),
      readSegments_append (by omega) (by decide), readSegments_append (by omega) (by decide)]
    simp only [Option.map_map]
    rfl
  have hend : readSegments (encodeFrameHeader info ++ encodeSOSHeader) =
      some [(0xC0, frameParams info), (0xDA, [3, 1, 0, 2, 0x11, 3, 0x11, 0, 63, 0])] := by
    have hframe : (frameParams info).length + 2 < 2 ^ 16 := by
      have hlength : (frameParams info).length = 15 := rfl
      omega
    rw [encodeFrameHeader_eq, encodeSOSHeader_eq, readSegments_append hframe (by decide),
      readSegments_startOfScan (by decide)]
    rfl
  rw [jpegHeader, append_assoc, hrest, hdri]
  split
  · have hlength : (putBits 2 info.numberMCUsToEncodePerScan).length = 2 := rfl
    rw [readSegments_append (by omega) (by decide), hend]
    rfl
  · rw [nil_append, hend]
    rfl

/-- For every size that is accepted, and every number of cores: the scans partition the image, one
for each coded buffer; the header, read by its marker segments, announces a restart interval iff
there is more than one scan, and then once and their length; and the parts of the finished coded
buffer are the header and the segments of the hardware with their markers. -/
theorem jpeg_image_assembled {numCores : ℕ} {width height : UInt16} {info : ScanEncodeInfo}
    (hcreate : jpegCreateContext numCores width height = some info) :
    let picture := initializeScanCounter info
    let perScan := picture.numberMCUsToEncodePerScan
    let scans := jpegEndPicture picture
    Scans picture 0 0 (picture.numberMCUsX * picture.numberMCUsY) scans ∧
      scans.length = picture.numberOfCodedBuffers ∧
      (∀ tables, (readHeader (jpegHeader picture tables)).map restartIntervals =
        some (if 1 < scans.length then [[UInt8.ofNat (perScan / 2 ^ 8), UInt8.ofNat perScan]]
          else [])) ∧
      perScan < 2 ^ 16 ∧
      ∀ tables size segments m, Encoded picture tables size segments m →
        codedParts (jpegAppendMarkers picture size m).memory (maxScanNum + 1) 0 =
            jpegHeader picture tables :: withMarkers 0 segments ∧
          (jpegAppendMarkers picture size m).bytesWritten =
            (jpegHeader picture tables :: withMarkers 0 segments).flatten.length := by
  have hcreated := created_of_createContext hcreate
  have hpicture : Created (initializeScanCounter info) := { hcreated with }
  obtain ⟨hscans, hlength⟩ := scans_jpegEndPicture hcreated
  have hper := hcreated.perScan_le
  rw [hcreated.total] at hscans
  refine ⟨{ hscans with }, hlength, ?_, Nat.lt_of_le_of_lt hper (by decide),
    fun tables size segments m hencoded => parts_jpegAppendMarkers hpicture hencoded⟩
  intro tables
  rw [restartIntervals_jpegHeader, hlength, hcreated.buffers, putBits_two]
  rfl

/-- The bytes of a part. -/
def partBytes (data : List UInt8) : List UInt8 :=
  [UInt8.ofNat data.length, UInt8.ofNat (data.length / 2 ^ 8), UInt8.ofNat (data.length / 2 ^ 16),
    UInt8.ofNat (data.length / 2 ^ 24)] ++ List.replicate 12 0 ++ data

/-- An image of 32 × 32 pixels, on two cores. -/
theorem jpeg_image_assembled_two_scans :
    ∃ info, jpegCreateContext 2 32 32 = some info ∧
      ∃ m, codedParts (jpegAppendMarkers (initializeScanCounter info) 2048 m).memory 8 0 =
        [jpegHeader (initializeScanCounter info) ⟨fun _ => 1, fun _ => 1⟩, [1, 2, 0xFF, 0xD0],
          [3, 0xFF, 0xD9]] := by
  have hcreate : jpegCreateContext 2 32 32 = some ⟨2, 32, 32, 2, 2, 4, 2, 2, 2, 0, 0⟩ := by decide
  have hassembled := (jpeg_image_assembled hcreate).2.2.2.2
  refine ⟨_, hcreate, _, (hassembled ⟨fun _ => 1, fun _ => 1⟩ 2048 [[1, 2], [3]]
    (overwrite (overwrite (processPictureParam (initializeScanCounter
      ⟨2, 32, 32, 2, 2, 4, 2, 2, 2, 0, 0⟩) ⟨fun _ => 1, fun _ => 1⟩ fun _ => 0)
        1024 (partBytes [1, 2])) 1536 (partBytes [3])) ?_).1⟩
  refine ⟨rfl, ⟨fun _ => 0, fun j hj => ?_⟩, ⟨⟨?_, ?_⟩, ⟨?_, ?_⟩, trivial⟩, by decide, by decide⟩
  · have hmax : headerMaxSize = 1024 := rfl
    rw [overwrite_of_lt _ _ (by omega), overwrite_of_lt _ _ (by omega)]
  all_goals decide

end HardwareIntel.Topaz
