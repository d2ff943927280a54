import HardwareIntel.Library.Planes
import HardwareIntel.Library.Writes

/-!
# Conversions of preview frames

The conversions of `ColorConverter.cpp` from NV12, YV12 and YUYV to YV12 and NV21. Each is a
sequence of accesses that read a piece of the source and write as many bytes to the destination;
offsets are relative to the two images. The `int` values that may exceed their type are kept aside.
-/

namespace HardwareIntel.Camera.ColorConverter

/-! ## Accesses -/

inductive Access
  | memcpy (dst src n : ℕ)
  /-- The sixteen bytes of a register; `movdqa` instead of `lddqu` and `movdqu` needs aligned ones. -/
  | sseSwap (aligned : Bool) (dst src : ℕ)
  /-- The four bytes of a `uint32_t`. -/
  | wordSwap (dst src : ℕ)

namespace Access

def dst : Access → ℕ
  | memcpy dst _ _ => dst
  | sseSwap _ dst _ => dst
  | wordSwap dst _ => dst

def src : Access → ℕ
  | memcpy _ src _ => src
  | sseSwap _ _ src => src
  | wordSwap _ src => src

def size : Access → ℕ
  | memcpy _ _ n => n
  | sseSwap .. => 16
  | wordSwap .. => 4

/-- The multiple at which the processor demands the addresses. -/
def alignment : Access → ℕ
  | sseSwap true _ _ => 16
  | _ => 1

end Access

/-- `psllw $8`, `psrlw $8` and `por` on a word of two bytes, the lower first. -/
def swappedWord (low high : BitVec 8) : BitVec 16 :=
  let word := high ++ low
  word <<< 8 ||| word >>> 8

/-- The shifts and masks of a `uint32_t` of four bytes, the lowest first. -/
def swappedPairs (byte0 byte1 byte2 byte3 : BitVec 8) : BitVec 32 :=
  let data0 := byte3 ++ byte2 ++ byte1 ++ byte0
  let data1 := (data0 >>> 8) &&& 0x00ff00ff#32
  let data2 := (data0 <<< 8) &&& 0xff00ff00#32
  data1 ||| data2

/-- The bytes that an access writes, from those that it reads. -/
def Access.value (piece : ℕ → BitVec 8) : Access → ℕ → BitVec 8
  | memcpy .., p => piece p
  | sseSwap .., p =>
    (swappedWord (piece (p / 2 * 2)) (piece (p / 2 * 2 + 1))).extractLsb' (p % 2 * 8) 8
  | wordSwap .., p =>
    (swappedPairs (piece 0) (piece 1) (piece 2) (piece 3)).extractLsb' (p * 8) 8

def Access.write (source : ℕ → BitVec 8) (c : Access) : Write ℕ (BitVec 8) := fun a =>
  if c.dst ≤ a ∧ a < c.dst + c.size then
    some (c.value (fun p => source (c.src + p)) (a - c.dst))
  else none

/-! ## The conversions -/

/-- A conversion with the values of `int` that it computes on the way, except those that an argument
or another value bounds. -/
structure Conversion where
  ints : List ℕ
  accesses : List Access

/-- `ALIGN16`. -/
def align16 (x : ℕ) : ℕ := (x + 15) / 16 * 16

def storeByte (dst src : ℕ) : Access := .memcpy dst src 1

/-- The loop that copies the lines of a plane. -/
def copyLines (dst src dstBpl srcBpl width lines : ℕ) : List Access :=
  (List.range lines).map fun i => .memcpy (dst + i * dstBpl) (src + i * srcBpl) width

def convertYV12ToNV21 (width height srcBpl dstBpl : ℕ) : Conversion :=
  let cBpl := srcBpl / 2
  let vuBpl := dstBpl
  let hhalf := height / 2
  let whalf := width / 2
  let luma := if srcBpl = dstBpl then [.memcpy 0 0 (dstBpl * height)]
    else copyLines 0 0 dstBpl srcBpl width height
  let srcV := height * srcBpl
  let srcU := srcV + cBpl * hhalf
  let chroma := (List.range hhalf).flatMap fun i => (List.range whalf).flatMap fun j =>
    [storeByte (dstBpl * height + i * vuBpl + 2 * j) (srcV + i * cBpl + j),
      storeByte (dstBpl * height + i * vuBpl + 2 * j + 1) (srcU + i * cBpl + j)]
  ⟨[height * srcBpl, cBpl * hhalf, dstBpl * height], luma ++ chroma⟩

def copyYV12ToYV12 (width height srcBpl dstBpl : ℕ) : Conversion :=
  let luma := if srcBpl = dstBpl then [.memcpy 0 0 (dstBpl * height)]
    else copyLines 0 0 dstBpl srcBpl width height
  let scBpl := srcBpl / 2
  let dcBpl := align16 (dstBpl / 2)
  let wHalf := width / 2
  let hHalf := height / 2
  let srcV := height * srcBpl
  let srcU := srcV + scBpl * hHalf
  let dstV := height * dstBpl
  let dstU := dstV + dcBpl * hHalf
  if dcBpl = scBpl then
    ⟨[height * srcBpl, height * dstBpl, height * dcBpl],
      luma ++ [.memcpy dstV srcV (height * dcBpl)]⟩
  else
    ⟨[height * srcBpl, height * dstBpl, scBpl * hHalf, dcBpl * hHalf],
      luma ++ (List.range hHalf).flatMap fun i =>
        [.memcpy (dstU + i * dcBpl) (srcU + i * scBpl) wHalf,
          .memcpy (dstV + i * dcBpl) (srcV + i * scBpl) wHalf]⟩

/-- The remaining pairs of a row, byte by byte. -/
def swapBytes (dst src first width : ℕ) : List Access :=
  (List.range ((width + 1 - first) / 2)).flatMap fun k =>
    let i := first + 2 * k
    [storeByte (dst + i) (src + i + 1), storeByte (dst + i + 1) (src + i)]

/-- A row of chroma of `trimConvertNV12ToNV21`, from the addresses of the two rows. -/
def trimRow (width : ℕ) (notLastLine : Bool) (pSrc pDst dst src : ℕ) : List Access :=
  if 16 ≤ width then
    let width16 := (width + (if notLastLine then 15 else 0)) / 16 * 16
    let aligned : Bool := pSrc % 16 = 0 ∧ pDst % 16 = 0
    (List.range (width16 / 16)).map (fun k => .sseSwap aligned (dst + 16 * k) (src + 16 * k)) ++
      swapBytes dst src width16 width
  else if pSrc % 4 = 0 ∧ pDst % 4 = 0 then
    let width4 := width / 4 * 4
    (List.range (width4 / 4)).map (fun k => .wordSwap (dst + 4 * k) (src + 4 * k)) ++
      swapBytes dst src width4 width
  else swapBytes dst src 0 width

/-- `trimConvertNV12ToNV21`, from the addresses of the two images. -/
def trimConvertNV12ToNV21 (pSrc pDst width height srcBpl : ℕ) : Conversion :=
  let chroma := (List.range (height / 2)).flatMap fun j =>
    let src := srcBpl * height + j * srcBpl
    let dst := width * height + j * width
    trimRow width (j + 1 ≠ height / 2) (pSrc + src) (pDst + dst) dst src
  if srcBpl = width then
    ⟨[width * height, srcBpl * height], .memcpy 0 0 (width * height) :: chroma⟩
  else if width < srcBpl then
    ⟨[width * height, srcBpl * height], copyLines 0 0 width srcBpl width height ++ chroma⟩
  else ⟨[width * height], []⟩

def align16ConvertNV12ToYV12 (width height srcBpl : ℕ) : Conversion :=
  let yBpl := align16 width
  let ySize := yBpl * height
  let cBpl := align16 (yBpl / 2)
  let cSize := cBpl * height / 2
  let ints := [width + 15, ySize, cBpl * height]
  let chroma := (List.range (height / 2)).flatMap fun i => (List.range (width / 2)).flatMap fun j =>
    [storeByte (ySize + i * cBpl + j) (height * srcBpl + i * srcBpl + (j * 2 + 1)),
      storeByte (ySize + cSize + i * cBpl + j) (height * srcBpl + i * srcBpl + j * 2)]
  if srcBpl = yBpl then ⟨ints, .memcpy 0 0 ySize :: chroma⟩
  else if width < srcBpl then ⟨ints, copyLines 0 0 yBpl srcBpl width height ++ chroma⟩
  else ⟨ints, []⟩

def convertYUYVToYV12 (width height srcBpl dstBpl : ℕ) : Conversion :=
  let ySize := width * height
  let cBpl := align16 (dstBpl / 2)
  let cSize := cBpl * height / 2
  let wHalf := width / 2
  ⟨[ySize, cBpl * height], (List.range height).flatMap fun i =>
    (List.range width).map (fun j => storeByte (i * width + j) (i * srcBpl + j * 2)) ++
      if i % 2 = 1 then
        (List.range wHalf).map fun k =>
          storeByte (ySize + i / 2 * cBpl + k) (i * srcBpl + (k * 4 + 3))
      else
        (List.range wHalf).map fun k =>
          storeByte (ySize + cSize + i / 2 * cBpl + k) (i * srcBpl + (k * 4 + 1))⟩

/-- The counters of `convertYUYVToNV21` have met the V and U samples of the odd lines before, and of
the columns before `j`. -/
def vCounter (width i j : ℕ) : ℕ := 2 * (i / 2 * (width * 2 / 4) + j / 4)

def uCounter (width i j : ℕ) : ℕ := 1 + 2 * (i / 2 * ((width * 2 + 2) / 4) + (j + 2) / 4)

def convertYUYVToNV21 (width height srcBpl : ℕ) : Conversion :=
  let ySize := width * height
  ⟨[ySize], (List.range height).flatMap fun i => (List.range (width * 2)).flatMap fun j =>
    (if j % 2 = 0 then [storeByte (i * width + j / 2) (i * srcBpl + j)] else []) ++
      if i % 2 = 1 then
        if j % 4 = 3 then [storeByte (ySize + vCounter width i j) (i * srcBpl + j)]
        else if j % 4 = 1 then [storeByte (ySize + uCounter width i j) (i * srcBpl + j)]
        else []
      else []⟩

/-- The formats that `convertBuftoYV12` and `convertBuftoNV21` know. -/
inductive Format
  | NV12
  | YVU420
  | YUYV

/-- `convertBuftoYV12`; `none` stands for the other formats. -/
def convertBuftoYV12 (format : Option Format) (width height srcBpl dstBpl : ℕ) : Conversion :=
  match format with
  | some .NV12 => align16ConvertNV12ToYV12 width height srcBpl
  | some .YVU420 => copyYV12ToYV12 width height srcBpl dstBpl
  | some .YUYV => convertYUYVToYV12 width height srcBpl dstBpl
  | none => ⟨[], []⟩

/-- `convertBuftoNV21`, from the addresses of the two images. -/
def convertBuftoNV21 (pSrc pDst : ℕ) (format : Option Format) (width height srcBpl dstBpl : ℕ) :
    Conversion :=
  match format with
  | some .NV12 => trimConvertNV12ToNV21 pSrc pDst width height srcBpl
  | some .YVU420 => convertYV12ToNV21 width height srcBpl dstBpl
  | some .YUYV => convertYUYVToNV21 width height srcBpl
  | none => ⟨[], []⟩

end HardwareIntel.Camera.ColorConverter
