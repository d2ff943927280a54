import HardwareIntel.Library.Runs
import HardwareIntel.Library.Wire

/-!
# The bytes of a metadata buffer

An `IntelMetadataBuffer` has a type and a value, and may have more about the value (`mInfo`) and
extra values. `Serialize` puts them into bytes and `UnSerialize` takes them from bytes again. The parts
that may be missing are told by the number of bytes alone.

`Serialize` keeps the bytes that it has made, and gives them again whatever has become of the object
in the meantime; a copy has them as well. `serialize_restores` says when they still are what
`UnSerialize` should get.

Values are of 64 bits. The types that are constants have `mType` of 32 bits.
-/

namespace HardwareIntel.MetadataBuffer

open Option

/-- `IMB_Result` -/
inductive ImbResult
  | success
  | invalParam
  | invalBuffer
  | noService
  | serviceFail
  deriving DecidableEq

/-- `IntelMetadataBufferTypeCameraSource` -/
def typeCameraSource : BitVec 32 := 0#32

/-- `IntelMetadataBufferTypeGrallocSource` -/
def typeGrallocSource : BitVec 32 := 1#32

/-- `IntelMetadataBufferTypeEncoder` -/
def typeEncoder : BitVec 32 := 0xFF#32

/-- `IntelMetadataBufferTypeUser` -/
def typeUser : BitVec 32 := 0x100#32

/-- `IntelMetadataBufferTypeLast` -/
def typeLast : BitVec 32 := 0x101#32

/-- The value information, with what is between its first two members in memory. -/
structure ValueInfo where
  mode : BitVec 32
  padding : BitVec 32
  handle : BitVec 64
  size : BitVec 32
  width : BitVec 32
  height : BitVec 32
  lumaStride : BitVec 32
  chromStride : BitVec 32
  format : BitVec 32
  s3dformat : BitVec 32
  sessionFlag : BitVec 32
  deriving DecidableEq

/-- `sizeof(ValueInfo)` -/
def infoSize : ℕ := 48

/-! ### Bytes -/

/-- A word in memory. -/
def wordBytes (bytes : ℕ) (w : BitVec (8 * bytes)) : List UInt8 := littleEndian bytes w.toNat

/-- Copy a word from the front of what is left, if there is so much. -/
def copyWord (bytes : ℕ) (l : List UInt8) : Option (BitVec (8 * bytes) × List UInt8) :=
  (readBytes bytes l).map fun (front, rest) =>
    (BitVec.ofNat (8 * bytes) (ofLittleEndian front), rest)

/-- A word has its number of bytes. -/
@[simp] theorem length_wordBytes (bytes : ℕ) (w : BitVec (8 * bytes)) :
    (wordBytes bytes w).length = bytes := length_littleEndian _ _

/-- The bytes of a word read back. -/
@[simp] theorem copyWord_append {bytes : ℕ} (w : BitVec (8 * bytes)) (rest : List UInt8) :
    copyWord bytes (wordBytes bytes w ++ rest) = some (w, rest) := by
  have hread := readBytes_append (wordBytes bytes w) rest
  rw [length_wordBytes] at hread
  have hvalue : ofLittleEndian (wordBytes bytes w) = w.toNat := by
    rw [wordBytes, ofLittleEndian_littleEndian, show 256 = 2 ^ 8 from rfl, ← Nat.pow_mul]
    exact Nat.mod_eq_of_lt w.isLt
  rw [copyWord, hread, map_some]
  dsimp only
  rw [hvalue, BitVec.ofNat_toNat, BitVec.setWidth_eq]

/-- The bytes in front are those of a word. -/
theorem exists_wordBytes {bytes : ℕ} {l : List UInt8} (h : bytes ≤ l.length) :
    ∃ (w : BitVec (8 * bytes)) (rest : List UInt8), l = wordBytes bytes w ++ rest := by
  have hlength : (l.take bytes).length = bytes := List.length_take_of_le h
  have hvalue : ofLittleEndian (l.take bytes) < 2 ^ (8 * bytes) := by
    have hlt := ofLittleEndian_lt (l.take bytes)
    rwa [hlength, show 256 = 2 ^ 8 from rfl, ← Nat.pow_mul] at hlt
  refine ⟨BitVec.ofNat _ (ofLittleEndian (l.take bytes)), l.drop bytes, ?_⟩
  have hword : littleEndian bytes (ofLittleEndian (l.take bytes)) = l.take bytes := by
    have hinverse := littleEndian_ofLittleEndian (l.take bytes)
    rwa [hlength] at hinverse
  rw [wordBytes, BitVec.toNat_ofNat, Nat.mod_eq_of_lt hvalue, hword, List.take_append_drop]

/-- A word needs its bytes. -/
theorem copyWord_of_lt {bytes : ℕ} {l : List UInt8} (h : l.length < bytes) :
    copyWord bytes l = none := by
  rw [copyWord, readBytes, if_neg (Nat.not_le.mpr h)]
  rfl

/-- A copy takes `n` bytes if they are there. -/
def Copies {α : Type} (n : ℕ) (copy : List UInt8 → Option (α × List UInt8)) : Prop :=
  ∀ l, n ≤ l.length → ∃ a rest, copy l = some (a, rest) ∧ rest.length = l.length - n

/-- Reading a word takes its bytes. -/
theorem Copies.word (bytes : ℕ) : Copies bytes (copyWord bytes) := by
  intro l h
  obtain ⟨w, rest, rfl⟩ := exists_wordBytes h
  refine ⟨w, rest, copyWord_append w rest, ?_⟩
  rw [List.length_append, length_wordBytes, Nat.add_sub_cancel_left]

/-- Reading nothing takes none. -/
theorem Copies.pure {α : Type} (a : α) : Copies 0 fun l => some (a, l) :=
  fun l _ => ⟨a, l, rfl, rfl⟩

/-- One copy after another. -/
theorem Copies.bind {α β : Type} {n m : ℕ} {copy : List UInt8 → Option (α × List UInt8)}
    {next : α → List UInt8 → Option (β × List UInt8)} (hcopy : Copies n copy)
    (hnext : ∀ a, Copies m (next a)) :
    Copies (n + m) fun l => (copy l).bind fun (a, l) => next a l := by
  intro l h
  obtain ⟨a, rest, ha, hrest⟩ := hcopy l (by omega)
  obtain ⟨b, rest', hb, hrest'⟩ := hnext a rest (by omega)
  refine ⟨b, rest', ?_, by omega⟩
  simp [ha, hb]

/-- The bytes of a `ValueInfo`. -/
def ValueInfo.bytes (info : ValueInfo) : List UInt8 :=
  wordBytes 4 info.mode ++ (wordBytes 4 info.padding ++ (wordBytes 8 info.handle ++
    (wordBytes 4 info.size ++ (wordBytes 4 info.width ++ (wordBytes 4 info.height ++
      (wordBytes 4 info.lumaStride ++ (wordBytes 4 info.chromStride ++
        (wordBytes 4 info.format ++ (wordBytes 4 info.s3dformat ++
          wordBytes 4 info.sessionFlag)))))))))

/-- Copy a `ValueInfo`. -/
def copyInfo (l : List UInt8) : Option (ValueInfo × List UInt8) := do
  let (mode, l) ← copyWord 4 l
  let (padding, l) ← copyWord 4 l
  let (handle, l) ← copyWord 8 l
  let (size, l) ← copyWord 4 l
  let (width, l) ← copyWord 4 l
  let (height, l) ← copyWord 4 l
  let (lumaStride, l) ← copyWord 4 l
  let (chromStride, l) ← copyWord 4 l
  let (format, l) ← copyWord 4 l
  let (s3dformat, l) ← copyWord 4 l
  let (sessionFlag, l) ← copyWord 4 l
  return (⟨mode, padding, handle, size, width, height, lumaStride, chromStride, format, s3dformat,
    sessionFlag⟩, l)

/-- The value information has a fixed size. -/
@[simp] theorem ValueInfo.length_bytes (info : ValueInfo) : info.bytes.length = infoSize := by
  rfl

/-- Its bytes read back. -/
theorem copyInfo_append (info : ValueInfo) (rest : List UInt8) :
    copyInfo (info.bytes ++ rest) = some (info, rest) := by
  simp only [ValueInfo.bytes, List.append_assoc, copyInfo, copyWord_append, bind_eq_bind, bind_some]
  rfl

/-- Reading it takes its size. -/
theorem Copies.info : Copies infoSize copyInfo :=
  (word 4).bind fun _ => (word 4).bind fun _ => (word 8).bind fun _ => (word 4).bind fun _ =>
    (word 4).bind fun _ => (word 4).bind fun _ => (word 4).bind fun _ => (word 4).bind fun _ =>
      (word 4).bind fun _ => (word 4).bind fun _ => (word 4).bind fun _ => pure _

/-- Copy words. -/
def copyWords (bytes : ℕ) : ℕ → List UInt8 → Option (List (BitVec (8 * bytes)))
  | 0, _ => some []
  | n + 1, l => do
    let (w, l) ← copyWord bytes l
    let words ← copyWords bytes n l
    return w :: words

/-- Words that were written one after the other read back. -/
theorem copyWords_flatMap {bytes : ℕ} (words : List (BitVec (8 * bytes))) :
    copyWords bytes words.length (words.flatMap (wordBytes bytes)) = some words := by
  induction words with
  | nil => rfl
  | cons w words ih =>
    rw [List.flatMap_cons, List.length_cons, copyWords, copyWord_append]
    simp only [bind_eq_bind, bind_some, ih]
    rfl

/-- There are words where there are bytes. -/
theorem copyWords_of_le {bytes n : ℕ} :
    ∀ {l : List UInt8}, bytes * n ≤ l.length → ∃ words, copyWords bytes n l = some words := by
  induction n with
  | zero => exact fun _ => ⟨[], rfl⟩
  | succ n ih =>
    intro l h
    rw [Nat.mul_succ] at h
    obtain ⟨w, rest, hw, hrest⟩ := Copies.word bytes l (by omega)
    obtain ⟨words, hwords⟩ := @ih rest (by omega)
    refine ⟨w :: words, ?_⟩
    rw [copyWords, hw]
    simp only [bind_eq_bind, bind_some, hwords]
    rfl

/-- The size of several words. -/
theorem length_flatMap_wordBytes {bytes : ℕ} (words : List (BitVec (8 * bytes))) :
    (words.flatMap (wordBytes bytes)).length = bytes * words.length := by
  induction words with
  | nil => rfl
  | cons w words ih =>
    rw [List.flatMap_cons, List.length_append, length_wordBytes, ih, List.length_cons,
      Nat.mul_succ, Nat.add_comm]

/-! ### The object -/

/-- No extra values are an empty list. `mSize` is the number of bytes in `mBytes`. -/
structure IntelMetadataBuffer where
  mType : BitVec 32
  mValue : BitVec 64
  mInfo : Option ValueInfo
  mExtraValues : List (BitVec 64)
  mBytes : Option (List UInt8)
  mSessionFlag : BitVec 32
  deriving DecidableEq

namespace IntelMetadataBuffer

/-- The constructor for a type and a value. -/
def create (type : BitVec 32) (value : BitVec 64) : IntelMetadataBuffer :=
  ⟨type, value, none, [], none, 0#32⟩

/-- The default constructor. -/
def fresh : IntelMetadataBuffer := create typeCameraSource 0#64

/-- The copy constructor. The parts are copied one by one. -/
def copy (imb : IntelMetadataBuffer) : IntelMetadataBuffer :=
  ⟨imb.mType, imb.mValue, imb.mInfo, imb.mExtraValues, imb.mBytes, imb.mSessionFlag⟩

/-- `operator=`. The pointers of the target are set to `NULL` first, also if it is the source. -/
def assign (imb : IntelMetadataBuffer) (same : Bool) : IntelMetadataBuffer :=
  if same then ⟨imb.mType, imb.mValue, none, [], none, imb.mSessionFlag⟩
  else ⟨imb.mType, imb.mValue, imb.mInfo, imb.mExtraValues, imb.mBytes, imb.mSessionFlag⟩

variable (o : IntelMetadataBuffer)

def setType (type : BitVec 32) : ImbResult × IntelMetadataBuffer :=
  if type < typeLast then (.success, { o with mType := type }) else (.invalParam, o)

def setValue (value : BitVec 64) : ImbResult × IntelMetadataBuffer :=
  (.success, { o with mValue := value })

/-- `SetValueInfo`, with `none` for `NULL`. -/
def setValueInfo : Option ValueInfo → ImbResult × IntelMetadataBuffer
  | some info => (.success, { o with mInfo := some info })
  | none => (.invalParam, o)

/-- `SetExtraValues`; without any values it fails. -/
def setExtraValues (values : List (BitVec 64)) : ImbResult × IntelMetadataBuffer :=
  if values = [] then (.invalParam, o) else (.success, { o with mExtraValues := values })

def setSessionFlag (sessionflag : BitVec 32) : ImbResult × IntelMetadataBuffer :=
  (.success, { o with mSessionFlag := sessionflag })

/-- What `UnSerialize` stores at its end. -/
def store (type : BitVec 32) (value : BitVec 64) (info : Option ValueInfo)
    (extraValues : List (BitVec 64)) : IntelMetadataBuffer :=
  { o with
    mType := type
    mValue := value
    mInfo := info
    mExtraValues := extraValues
    mSessionFlag := (info.map ValueInfo.sessionFlag).getD o.mSessionFlag }

/-- The size of a type and a value. -/
def headSize : ℕ := 12

/-- `UnSerialize`; there is no result if it reads behind the data. `extrasize` has 32 bits. -/
def unSerialize (data : List UInt8) : Option (ImbResult × IntelMetadataBuffer) :=
  if data = [] then some (.invalParam, o)
  else do
    let extrasize := (data.length + 2 ^ 32 - headSize) % 2 ^ 32
    let (type, rest) ← copyWord 4 data
    let (value, rest) ← copyWord 8 rest
    if type = typeCameraSource ∨ type = typeEncoder ∨ type = typeUser then
      if 0 < extrasize ∧ extrasize < infoSize then return (.invalBuffer, o)
      else if infoSize < extrasize ∧ (extrasize - infoSize) % 8 ≠ 0 then return (.invalBuffer, o)
      else if 0 < extrasize then
        let (info, rest) ← copyInfo rest
        let extraValues ← copyWords 8 ((extrasize - infoSize) / 8) rest
        return (.success, o.store type value (some info) extraValues)
      else return (.success, o.store type value none [])
    else if type = typeGrallocSource then
      if 0 < extrasize then return (.invalBuffer, o)
      else return (.success, o.store type value none [])
    else return (.invalBuffer, o)

/-- The information with the current session flag. -/
def currentInfo : Option ValueInfo :=
  o.mInfo.map fun info => { info with sessionFlag := o.mSessionFlag }

/-- The bytes that `Serialize` assembles. -/
def assemble : List UInt8 :=
  wordBytes 4 o.mType ++ (wordBytes 8 o.mValue ++ match o.currentInfo with
    | none => []
    | some info => info.bytes ++ o.mExtraValues.flatMap (wordBytes 8))

/-- `Serialize`: the result, the bytes it gives, and the object. There is no result if the bytes do
not fit into what was allocated for them, the size of which has 32 bits. -/
def serialize : Option (ImbResult × List UInt8 × IntelMetadataBuffer) :=
  match o.mBytes with
  | some bytes => some (.success, bytes, o)
  | none =>
    if o.mType = typeGrallocSource ∧ o.mInfo.isSome then some (.invalParam, [], o)
    else if 2 ^ 32 ≤ o.assemble.length then none
    else some (.success, o.assemble, { o with mInfo := o.currentInfo, mBytes := some o.assemble })

/-- Another object has all there is. -/
def GetsAll (o o' : IntelMetadataBuffer) : Prop :=
  o'.mType = o.mType ∧ o'.mValue = o.mValue ∧ o'.mInfo = o.currentInfo ∧
    o'.mExtraValues = o.mExtraValues

/-- What `Serialize` is for: it fails with `IMB_INVAL_PARAM`, or a fresh object gets all there is. -/
def Restores : Prop :=
  match o.serialize with
  | none => False
  | some (.success, bytes, _) =>
    ∃ o', fresh.unSerialize bytes = some (.success, o') ∧ o.GetsAll o'
  | some (r, _, _) => r = .invalParam

/-- A type that may have more than a value. -/
def SharedType (type : BitVec 32) : Prop :=
  type = typeCameraSource ∨ type = typeEncoder ∨ type = typeUser

instance (type : BitVec 32) : Decidable (SharedType type) := instDecidableOr

/-- A type that `UnSerialize` knows. -/
def KnownType (type : BitVec 32) : Prop := SharedType type ∨ type = typeGrallocSource

instance (type : BitVec 32) : Decidable (KnownType type) := instDecidableOr

/-- The contents can be told from bytes: a type that is known, extra values only together with the
information, and not too many; or they are refused. -/
def Complete : Prop :=
  o.mType = typeGrallocSource ∧ o.mInfo.isSome ∨
    KnownType o.mType ∧ (o.mInfo = none → o.mExtraValues = []) ∧
      headSize + infoSize + 8 * o.mExtraValues.length < 2 ^ 32

instance : Decidable o.Complete := instDecidableOr

/-- Data that `UnSerialize` accepts, by the type in front and the number of bytes. -/
def accepted (data : List UInt8) : Bool :=
  match copyWord 4 data with
  | none => false
  | some (type, _) =>
    decide (data.length = headSize ∧ KnownType type ∨
      SharedType type ∧ headSize + infoSize ≤ data.length ∧
        (data.length - headSize - infoSize) % 8 = 0)

/-! ### What is read -/

/-- `UnSerialize` of a type, a value and more. -/
theorem unSerialize_append (type : BitVec 32) (value : BitVec 64) {rest : List UInt8}
    (hrest : headSize + rest.length < 2 ^ 32) :
    o.unSerialize (wordBytes 4 type ++ (wordBytes 8 value ++ rest)) =
      if SharedType type then
        if 0 < rest.length ∧ rest.length < infoSize then some (.invalBuffer, o)
        else if infoSize < rest.length ∧ (rest.length - infoSize) % 8 ≠ 0 then
          some (.invalBuffer, o)
        else if 0 < rest.length then
          (copyInfo rest).bind fun (info, rest') =>
            (copyWords 8 ((rest.length - infoSize) / 8) rest').bind fun extraValues =>
              some (.success, o.store type value (some info) extraValues)
        else some (.success, o.store type value none [])
      else if type = typeGrallocSource then
        if 0 < rest.length then some (.invalBuffer, o)
        else some (.success, o.store type value none [])
      else some (.invalBuffer, o) := by
  have hsize : ((wordBytes 4 type ++ (wordBytes 8 value ++ rest)).length + 2 ^ 32 - headSize) %
      2 ^ 32 = rest.length := by
    simp only [List.length_append, length_wordBytes, headSize] at hrest ⊢
    omega
  have hne : wordBytes 4 type ++ (wordBytes 8 value ++ rest) ≠ [] := by
    intro hnil
    have hlength := congrArg List.length hnil
    exact absurd hlength (by simp)
  rw [unSerialize, if_neg hne]
  simp only [hsize, copyWord_append, bind_eq_bind, bind_some]
  rfl

variable {o' : IntelMetadataBuffer} {data : List UInt8} {info : ValueInfo} {r : ImbResult}

/-- Less than a head cannot be read. -/
theorem unSerialize_of_lt (hne : data ≠ []) (h : data.length < headSize) :
    o.unSerialize data = none := by
  rw [unSerialize, if_neg hne]
  by_cases htype : 4 ≤ data.length
  · obtain ⟨type, rest, rfl⟩ := exists_wordBytes htype
    have hrest : rest.length < 8 := by
      rw [List.length_append, length_wordBytes, headSize] at h
      omega
    simp [copyWord_of_lt hrest]
  · simp [copyWord_of_lt (Nat.not_le.mp htype)]

/-- The parts of data that holds a head. -/
theorem exists_head (h : headSize ≤ data.length) :
    ∃ (type : BitVec 32) (value : BitVec 64) (rest : List UInt8),
      data = wordBytes 4 type ++ (wordBytes 8 value ++ rest) ∧
        data.length = headSize + rest.length := by
  obtain ⟨type, more, rfl⟩ := @exists_wordBytes 4 data (le_trans (by decide) h)
  rw [List.length_append, length_wordBytes, headSize] at h
  obtain ⟨value, rest, rfl⟩ := @exists_wordBytes 8 more (by omega)
  refine ⟨type, value, rest, rfl, ?_⟩
  rw [List.length_append, List.length_append, length_wordBytes, length_wordBytes, headSize]
  omega

/-- What `UnSerialize` does with enough data: it stores a content, or leaves the object. -/
theorem unSerialize_cases (h : headSize ≤ data.length) (hsize : data.length < 2 ^ 32) :
    (accepted data = true ∧ ∃ type value info extraValues,
      o.unSerialize data = some (.success, o.store type value info extraValues)) ∨
    accepted data = false ∧ o.unSerialize data = some (.invalBuffer, o) := by
  obtain ⟨type, value, rest, hdata, hlength⟩ := exists_head h
  have haccepted : accepted data = decide (data.length = headSize ∧ KnownType type ∨
      SharedType type ∧ headSize + infoSize ≤ data.length ∧
        (data.length - headSize - infoSize) % 8 = 0) := by
    rw [accepted, hdata, copyWord_append]
  rw [haccepted, decide_eq_true_eq, decide_eq_false_iff_not, hlength, hdata,
    o.unSerialize_append type value (hlength ▸ hsize)]
  by_cases hshared : SharedType type
  · rw [if_pos hshared]
    by_cases hgap : 0 < rest.length ∧ rest.length < infoSize
    · rw [if_pos hgap]
      exact Or.inr ⟨by omega, rfl⟩
    by_cases hrest : infoSize < rest.length ∧ (rest.length - infoSize) % 8 ≠ 0
    · rw [if_neg hgap, if_pos hrest]
      exact Or.inr ⟨by omega, rfl⟩
    by_cases hpos : 0 < rest.length
    · have hinfo : infoSize ≤ rest.length := by omega
      obtain ⟨info, rest', hcopy, hrest'⟩ := Copies.info rest hinfo
      obtain ⟨extraValues, hwords⟩ :=
        @copyWords_of_le 8 ((rest.length - infoSize) / 8) rest' (by omega)
      rw [if_neg hgap, if_neg hrest, if_pos hpos, hcopy]
      simp only [bind_some, hwords]
      exact Or.inl ⟨Or.inr ⟨hshared, by omega, by omega⟩, type, value, some info, extraValues, rfl⟩
    · rw [if_neg hgap, if_neg hrest, if_neg hpos]
      exact Or.inl ⟨Or.inl ⟨by omega, Or.inl hshared⟩, type, value, none, [], rfl⟩
  · rw [if_neg hshared]
    have hshort : ¬ (headSize + rest.length = headSize ∧ KnownType type) →
        ¬ (headSize + rest.length = headSize ∧ KnownType type ∨
          SharedType type ∧ headSize + infoSize ≤ headSize + rest.length ∧
            (headSize + rest.length - headSize - infoSize) % 8 = 0) :=
      fun hhead => not_or.mpr ⟨hhead, fun h => hshared h.1⟩
    by_cases hgralloc : type = typeGrallocSource
    · rw [if_pos hgralloc]
      by_cases hpos : 0 < rest.length
      · rw [if_pos hpos]
        exact Or.inr ⟨hshort fun hhead => by omega, rfl⟩
      · rw [if_neg hpos]
        exact Or.inl ⟨Or.inl ⟨by omega, Or.inr hgralloc⟩, type, value, none, [], rfl⟩
    · rw [if_neg hgralloc]
      exact Or.inr ⟨hshort fun hhead => hhead.2.elim hshared hgralloc, rfl⟩

/-- `UnSerialize` keeps the bytes there are, and only changes the object if it accepts the data. -/
theorem unSerialize_eq_some (hsize : data.length < 2 ^ 32) (h : o.unSerialize data = some (r, o')) :
    o'.mBytes = o.mBytes ∧ (r ≠ .success ∨ accepted data = false → o' = o) := by
  by_cases hnil : data = []
  · rw [unSerialize, if_pos hnil] at h
    cases h
    exact ⟨rfl, fun _ => rfl⟩
  by_cases hhead : headSize ≤ data.length
  · obtain ⟨haccepted, type, value, info, extraValues, heq⟩ | ⟨haccepted, heq⟩ :=
      o.unSerialize_cases hhead hsize
    · rw [heq] at h
      cases h
      refine ⟨rfl, ?_⟩
      rintro (hr | hrefused)
      · exact absurd rfl hr
      · rw [haccepted] at hrefused
        cases hrefused
    · rw [heq] at h
      cases h
      exact ⟨rfl, fun _ => rfl⟩
  · rw [o.unSerialize_of_lt hnil (Nat.not_le.mp hhead)] at h
    cases h

/-- `UnSerialize` reads what it is given, and leaves the object if it fails, just if there is a type
and a value. -/
theorem unSerialize_bounded_iff (hne : data ≠ []) (hsize : data.length < 2 ^ 32) :
    (o.unSerialize data ≠ none ∧
      ∀ r o', o.unSerialize data = some (r, o') → r ≠ .success → o' = o) ↔
    headSize ≤ data.length := by
  constructor
  · rintro ⟨hread, -⟩
    by_contra hlt
    exact hread (o.unSerialize_of_lt hne (Nat.not_le.mp hlt))
  · intro hhead
    refine ⟨?_, fun r o' h hr => (o.unSerialize_eq_some hsize h).2 (Or.inl hr)⟩
    obtain ⟨-, type, value, info, extraValues, heq⟩ | ⟨-, heq⟩ := o.unSerialize_cases hhead hsize
    · rw [heq]
      exact some_ne_none _
    · rw [heq]
      exact some_ne_none _

/-! ### What is read back -/

variable {o}

/-- The size without value information. -/
theorem length_assemble_none (h : o.mInfo = none) : o.assemble.length = headSize := by
  rw [assemble, currentInfo, h, map_none, List.append_nil, List.length_append,
    length_wordBytes, length_wordBytes]
  rfl

/-- The size with it. -/
theorem length_assemble_some (h : o.mInfo = some info) :
    o.assemble.length = headSize + infoSize + 8 * o.mExtraValues.length := by
  rw [assemble, currentInfo, h, map_some]
  simp only [List.length_append, length_wordBytes, ValueInfo.length_bytes,
    length_flatMap_wordBytes, headSize, infoSize]
  omega

/-- What is written of the value information. -/
theorem currentInfo_of_some (h : o.mInfo = some info) :
    o.currentInfo = some { info with sessionFlag := o.mSessionFlag } := by
  rw [currentInfo, h]
  rfl

/-- Without information there are only the type and the value. -/
theorem unSerialize_assemble_none (q : IntelMetadataBuffer) (hinfo : o.mInfo = none) :
    q.unSerialize o.assemble =
      if KnownType o.mType then some (.success, q.store o.mType o.mValue none [])
      else some (.invalBuffer, q) := by
  rw [assemble, currentInfo, hinfo, map_none]
  dsimp only
  rw [q.unSerialize_append _ _ (by decide)]
  simp only [List.length_nil, lt_irrefl, false_and, if_false, Nat.not_lt_zero]
  by_cases hshared : SharedType o.mType
  · have hknown : KnownType o.mType := Or.inl hshared
    rw [if_pos hshared, if_pos hknown]
  · rw [if_neg hshared]
    by_cases hgralloc : o.mType = typeGrallocSource
    · have hknown : KnownType o.mType := Or.inr hgralloc
      rw [if_pos hgralloc, if_pos hknown]
    · have hknown : ¬ KnownType o.mType := not_or.mpr ⟨hshared, hgralloc⟩
      rw [if_neg hgralloc, if_neg hknown]

/-- With information, everything is there. -/
theorem unSerialize_assemble_some (q : IntelMetadataBuffer) (hinfo : o.mInfo = some info)
    (hgralloc : o.mType ≠ typeGrallocSource) (hsize : o.assemble.length < 2 ^ 32) :
    q.unSerialize o.assemble =
      if KnownType o.mType then
        some (.success, q.store o.mType o.mValue o.currentInfo o.mExtraValues)
      else some (.invalBuffer, q) := by
  rw [length_assemble_some hinfo] at hsize
  rw [assemble, currentInfo_of_some hinfo]
  generalize { info with sessionFlag := o.mSessionFlag } = info'
  have hlength : (info'.bytes ++ o.mExtraValues.flatMap (wordBytes 8)).length =
      infoSize + 8 * o.mExtraValues.length := by
    rw [List.length_append, ValueInfo.length_bytes, length_flatMap_wordBytes]
  have hcount : (infoSize + 8 * o.mExtraValues.length - infoSize) / 8 = o.mExtraValues.length := by
    omega
  have hgap : ¬ (0 < infoSize + 8 * o.mExtraValues.length ∧
      infoSize + 8 * o.mExtraValues.length < infoSize) := by omega
  have hrest : ¬ (infoSize < infoSize + 8 * o.mExtraValues.length ∧
      (infoSize + 8 * o.mExtraValues.length - infoSize) % 8 ≠ 0) := by omega
  have hpos : 0 < infoSize + 8 * o.mExtraValues.length := by
    simp only [infoSize]
    omega
  have hwords : copyWords 8 o.mExtraValues.length (o.mExtraValues.flatMap (wordBytes 8)) =
      some o.mExtraValues := @copyWords_flatMap 8 o.mExtraValues
  have hknown : KnownType o.mType ↔ SharedType o.mType := or_iff_left hgralloc
  rw [q.unSerialize_append _ _ (by rw [hlength]; omega), hlength, if_neg hgap, if_neg hrest,
    if_pos hpos, if_neg hgralloc, hcount, copyInfo_append]
  simp [hwords, hknown]

/-- The bytes of an object that is not refused. -/
theorem getsAll_iff_complete (hsize : o.assemble.length < 2 ^ 32)
    (hrefused : ¬ (o.mType = typeGrallocSource ∧ o.mInfo.isSome)) :
    (∃ o', fresh.unSerialize o.assemble = some (.success, o') ∧ o.GetsAll o') ↔ o.Complete := by
  rw [Complete, or_iff_right hrefused]
  cases hinfo : o.mInfo with
  | none =>
    rw [unSerialize_assemble_none fresh hinfo]
    constructor
    · rintro ⟨o', ho', -, -, -, hextra⟩
      obtain ⟨hknown, ho'⟩ | ⟨-, ho'⟩ := ite_eq_iff.mp ho'
      · cases ho'
        refine ⟨hknown, fun _ => hextra.symm, ?_⟩
        rw [← hextra]
        exact (by decide : headSize + infoSize + 8 * 0 < 2 ^ 32)
      · cases ho'
    · rintro ⟨hknown, hextra, -⟩
      rw [if_pos hknown]
      refine ⟨_, rfl, rfl, rfl, ?_, (hextra rfl).symm⟩
      rw [currentInfo, hinfo]
      rfl
  | some info =>
    have hgralloc : o.mType ≠ typeGrallocSource :=
      fun htype => hrefused ⟨htype, by rw [hinfo]; rfl⟩
    rw [unSerialize_assemble_some fresh hinfo hgralloc hsize]
    rw [length_assemble_some hinfo] at hsize
    constructor
    · rintro ⟨o', ho', -⟩
      obtain ⟨hknown, -⟩ | ⟨-, ho'⟩ := ite_eq_iff.mp ho'
      · exact ⟨hknown, fun hnone => absurd hnone (some_ne_none info), hsize⟩
      · cases ho'
    · rintro ⟨hknown, -⟩
      rw [if_pos hknown]
      exact ⟨_, rfl, rfl, rfl, rfl, rfl⟩

/-! ### The bytes that are kept -/

/-- The kept bytes are those of the contents, which are not refused. -/
def Coherent (o : IntelMetadataBuffer) : Prop :=
  ∀ bytes, o.mBytes = some bytes → bytes = o.assemble ∧ o.assemble.length < 2 ^ 32 ∧
    ¬ (o.mType = typeGrallocSource ∧ o.mInfo.isSome)

/-- Without a copy of the bytes there is nothing to agree with. -/
theorem Coherent.of_none (h : o.mBytes = none) : o.Coherent := by
  intro bytes hbytes
  rw [h] at hbytes
  cases hbytes

/-- The kept bytes depend on the type, and on what is assembled. -/
theorem Coherent.of_eq (h : o.Coherent) (hbytes : o'.mBytes = o.mBytes) (htype : o'.mType = o.mType)
    (hinfo : o'.mInfo.isSome = o.mInfo.isSome) (hassemble : o'.assemble = o.assemble) :
    o'.Coherent := by
  rw [Coherent, hbytes, htype, hinfo, hassemble]
  exact h

/-- The value information is there or not. -/
theorem isSome_currentInfo (o : IntelMetadataBuffer) : o.currentInfo.isSome = o.mInfo.isSome :=
  isSome_map

/-- The extra values only matter with information. -/
theorem assemble_congr (htype : o'.mType = o.mType) (hvalue : o'.mValue = o.mValue)
    (hinfo : o'.currentInfo = o.currentInfo)
    (hextra : o.mInfo ≠ none → o'.mExtraValues = o.mExtraValues) : o'.assemble = o.assemble := by
  rw [assemble, assemble, htype, hvalue, hinfo]
  cases h : o.mInfo with
  | none => rw [currentInfo, h, map_none]
  | some info => rw [hextra (by rw [h]; exact some_ne_none info)]

/-- An object that keeps its bytes is restored if its contents are complete. -/
theorem restores_iff_complete (h : o.Coherent) : o.Restores ↔ o.Complete := by
  rw [Restores, serialize]
  cases hbytes : o.mBytes with
  | some bytes =>
    obtain ⟨rfl, hsize, hrefused⟩ := h bytes hbytes
    exact getsAll_iff_complete hsize hrefused
  | none =>
    by_cases hrefused : o.mType = typeGrallocSource ∧ o.mInfo.isSome
    · rw [if_pos hrefused]
      exact iff_of_true rfl (Or.inl hrefused)
    · rw [if_neg hrefused]
      by_cases hsize : 2 ^ 32 ≤ o.assemble.length
      · rw [if_pos hsize]
        refine iff_of_false id ?_
        rintro (hgralloc | ⟨-, -, hfits⟩)
        · exact hrefused hgralloc
        · cases hinfo : o.mInfo with
          | none =>
            rw [length_assemble_none hinfo] at hsize
            exact absurd hsize (by decide)
          | some info =>
            rw [length_assemble_some hinfo] at hsize
            omega
      · rw [if_neg hsize]
        exact getsAll_iff_complete (Nat.not_le.mp hsize) hrefused

/-! ### The setters -/

inductive Setter
  | setType (type : BitVec 32)
  | setValue (value : BitVec 64)
  | setValueInfo (info : Option ValueInfo)
  | setExtraValues (values : List (BitVec 64))
  | setSessionFlag (sessionflag : BitVec 32)

def Setter.run (o : IntelMetadataBuffer) : Setter → ImbResult × IntelMetadataBuffer
  | setType type => o.setType type
  | setValue value => o.setValue value
  | setValueInfo info => o.setValueInfo info
  | setExtraValues values => o.setExtraValues values
  | setSessionFlag sessionflag => o.setSessionFlag sessionflag

/-- The setter has no effect on what would be assembled. -/
def Setter.Idle (o : IntelMetadataBuffer) : Setter → Prop
  | setType type => type = o.mType ∨ typeLast ≤ type
  | setValue value => value = o.mValue
  | setValueInfo info =>
    info = none ∨ info.map (fun info => { info with sessionFlag := o.mSessionFlag }) = o.currentInfo
  | setExtraValues values => values = [] ∨ values = o.mExtraValues ∨ o.mInfo = none
  | setSessionFlag sessionflag => sessionflag = o.mSessionFlag ∨ o.mInfo = none

instance (o : IntelMetadataBuffer) : ∀ s : Setter, Decidable (s.Idle o)
  | .setType _ => instDecidableOr
  | .setValue value => inferInstanceAs (Decidable (value = o.mValue))
  | .setValueInfo _ => instDecidableOr
  | .setExtraValues _ => instDecidableOr
  | .setSessionFlag _ => instDecidableOr

/-- No setter changes the copy of the bytes. -/
theorem Setter.run_mBytes (o : IntelMetadataBuffer) (s : Setter) :
    (s.run o).2.mBytes = o.mBytes := by
  cases s with
  | setType type =>
    rw [run, IntelMetadataBuffer.setType]
    split_ifs <;> rfl
  | setValue value => rfl
  | setValueInfo info => cases info <;> rfl
  | setExtraValues values =>
    rw [run, IntelMetadataBuffer.setExtraValues]
    split_ifs <;> rfl
  | setSessionFlag sessionflag => rfl

/-- A setter that changes nothing keeps the agreement. -/
theorem Coherent.run (h : o.Coherent) {s : Setter} (hs : s.Idle o) : (s.run o).2.Coherent := by
  cases s with
  | setType type =>
    rw [Setter.run, IntelMetadataBuffer.setType]
    split_ifs with hlast
    · obtain rfl | hle := hs
      · exact h
      · exact absurd hlast (BitVec.not_lt.mpr hle)
    · exact h
  | setValue value =>
    obtain rfl : value = o.mValue := hs
    exact h
  | setValueInfo info =>
    cases info with
    | none => exact h
    | some info =>
      obtain hnone | hinfo := hs
      · cases hnone
      · refine h.of_eq rfl rfl ?_ (assemble_congr rfl rfl hinfo fun _ => rfl)
        rw [← isSome_currentInfo o, ← hinfo]
        rfl
  | setExtraValues values =>
    rw [Setter.run, IntelMetadataBuffer.setExtraValues]
    split_ifs with hnil
    · exact h
    · refine h.of_eq rfl rfl rfl (assemble_congr rfl rfl rfl fun hinfo => ?_)
      obtain hnil' | hsame | hnone := hs
      · exact absurd hnil' hnil
      · exact hsame
      · exact absurd hnone hinfo
  | setSessionFlag sessionflag =>
    obtain rfl | hnone := hs
    · exact h
    · refine h.of_eq rfl rfl rfl (assemble_congr rfl rfl ?_ fun _ => rfl)
      rw [Setter.run, IntelMetadataBuffer.setSessionFlag, currentInfo, currentInfo, hnone]
      rfl

/-! ### The other calls -/

/-- So does a copy. -/
theorem Coherent.copy (h : o.Coherent) : o.copy.Coherent := h

/-- So does an assignment. -/
theorem Coherent.assign (h : o.Coherent) (same : Bool) : (o.assign same).Coherent := by
  cases same with
  | true => exact of_none rfl
  | false => exact h

/-- So does serializing. -/
theorem Coherent.serialize (h : o.Coherent) {bytes : List UInt8}
    (ho' : o.serialize = some (r, bytes, o')) : o'.Coherent := by
  rw [IntelMetadataBuffer.serialize] at ho'
  cases hbytes : o.mBytes with
  | some kept =>
    rw [hbytes] at ho'
    cases ho'
    exact h
  | none =>
    rw [hbytes] at ho'
    split_ifs at ho' with hrefused hsize
    · cases ho'
      exact h
    · cases ho'
      have hcurrent : currentInfo { o with
          mInfo := o.currentInfo, mBytes := some o.assemble } = o.currentInfo := by
        rw [currentInfo, currentInfo, map_map]
        rfl
      have hassemble : assemble { o with
          mInfo := o.currentInfo, mBytes := some o.assemble } = o.assemble :=
        assemble_congr rfl rfl hcurrent fun _ => rfl
      intro bytes hsome
      cases hsome
      rw [hassemble, isSome_currentInfo]
      exact ⟨rfl, Nat.not_le.mp hsize, hrefused⟩

/-- `UnSerialize` of data that are refused, or of the bytes that the object keeps. -/
theorem Coherent.unSerialize (h : o.Coherent) (hsize : data.length < 2 ^ 32)
    (hidle : o.mBytes = none ∨ o.mBytes = some data ∨ accepted data = false)
    (ho' : o.unSerialize data = some (r, o')) : o'.Coherent := by
  obtain ⟨hbytes, hsame⟩ := o.unSerialize_eq_some hsize ho'
  obtain hnone | hkept | hrefused := hidle
  · exact of_none (hbytes.trans hnone)
  · obtain ⟨rfl, -, hgralloc⟩ := h data hkept
    cases hinfo : o.mInfo with
    | none =>
      rw [unSerialize_assemble_none o hinfo] at ho'
      obtain ⟨-, ho'⟩ | ⟨-, ho'⟩ := ite_eq_iff.mp ho'
      · cases ho'
        refine h.of_eq rfl rfl (by rw [hinfo]; rfl) (assemble_congr rfl rfl ?_ ?_)
        · rw [currentInfo, currentInfo, hinfo]
          rfl
        · exact fun hsome => absurd hinfo hsome
      · cases ho'
        exact h
    | some info =>
      have htype : o.mType ≠ typeGrallocSource :=
        fun htype => hgralloc ⟨htype, by rw [hinfo]; rfl⟩
      rw [unSerialize_assemble_some o hinfo htype hsize] at ho'
      obtain ⟨-, ho'⟩ | ⟨-, ho'⟩ := ite_eq_iff.mp ho'
      · cases ho'
        refine h.of_eq rfl rfl (isSome_currentInfo o) (assemble_congr rfl rfl ?_ fun _ => rfl)
        rw [currentInfo, store, currentInfo_of_some hinfo]
        rfl
      · cases ho'
        exact h
  · rw [hsame (Or.inr hrefused)]
    exact h

end IntelMetadataBuffer

/-! ### Many objects -/

/-- The objects of a program. -/
def Pool : Type := ℕ → IntelMetadataBuffer

namespace Pool

open IntelMetadataBuffer

/-- The calls on the `k`-th object. `size` has 32 bits. -/
inductive Op
  | construct (k : ℕ) (type : BitVec 32) (value : BitVec 64)
  | copy (k j : ℕ)
  | assign (k j : ℕ)
  | set (k : ℕ) (s : Setter)
  | unSerialize (k : ℕ) (data : List UInt8)
  | serialize (k : ℕ)

/-- The default constructor was called for all objects. -/
def start : Pool := fun _ => fresh

def put (p : Pool) (k : ℕ) (o : IntelMetadataBuffer) : Pool := fun j => if j = k then o else p j

def step (p : Pool) : Op → Option Pool
  | .construct k type value => some (p.put k (create type value))
  | .copy k j => some (p.put k (p j).copy)
  | .assign k j => some (p.put k ((p j).assign (decide (k = j))))
  | .set k s => some (p.put k (s.run (p k)).2)
  | .unSerialize k data =>
    if data.length < 2 ^ 32 then ((p k).unSerialize data).map fun (_, o) => p.put k o else none
  | .serialize k => (p k).serialize.map fun (_, _, o) => p.put k o

/-- An object that keeps its bytes is not changed any more. -/
def Settled (p : Pool) : Op → Prop
  | .set k s => (p k).mBytes = none ∨ s.Idle (p k)
  | .unSerialize k data =>
    (p k).mBytes = none ∨ (p k).mBytes = some data ∨ accepted data = false
  | _ => True

instance (p : Pool) : ∀ op : Op, Decidable (p.Settled op)
  | .construct .. | .copy .. | .assign .. | .serialize _ => isTrue trivial
  | .set _ _ => instDecidableOr
  | .unSerialize _ _ => instDecidableOr

/-- The bytes of all objects are those of their contents. -/
def Coherent (p : Pool) : Prop := ∀ k, (p k).Coherent

/-- At the beginning the buffers agree with their bytes. -/
theorem coherent_start : start.Coherent := fun _ => .of_none rfl

variable {p : Pool}

/-- Storing a buffer keeps the others. -/
theorem Coherent.put (h : p.Coherent) {o : IntelMetadataBuffer} (ho : o.Coherent) (k : ℕ) :
    (p.put k o).Coherent := by
  intro j
  rw [Pool.put]
  split_ifs
  · exact ho
  · exact h j

/-- Every operation keeps the agreement. -/
theorem Coherent.step (h : p.Coherent) {op : Op} (hop : p.Settled op) {q : Pool}
    (hq : p.step op = some q) : q.Coherent := by
  cases op with
  | construct k type value =>
    cases hq
    exact h.put (.of_none rfl) k
  | copy k j =>
    cases hq
    exact h.put (h j).copy k
  | assign k j =>
    cases hq
    exact h.put ((h j).assign _) k
  | set k s =>
    cases hq
    obtain hnone | hidle := hop
    · exact h.put (.of_none (by rw [s.run_mBytes, hnone])) k
    · exact h.put ((h k).run hidle) k
  | unSerialize k data =>
    obtain ⟨hsize, hq⟩ := ite_none_right_eq_some.mp hq
    obtain ⟨⟨r, o⟩, ho, rfl⟩ := map_eq_some_iff.mp hq
    exact h.put ((h k).unSerialize hsize hop ho) k
  | serialize k =>
    obtain ⟨⟨r, bytes, o⟩, ho, rfl⟩ := map_eq_some_iff.mp hq
    exact h.put ((h k).serialize ho) k

end Pool

open IntelMetadataBuffer Pool

/-- In every run in which no object that keeps its bytes is changed, what is serialised is restored
just if the contents are complete. What `UnSerialize` reads is there just if there are a type and a
value. -/
theorem serialize_restores (o : IntelMetadataBuffer) (data : List UInt8) :
    (∀ p, Reach Pool.step Settled start p → ∀ k, (p k).Restores ↔ (p k).Complete) ∧
    (data ≠ [] → data.length < 2 ^ 32 → ((o.unSerialize data ≠ none ∧
        ∀ r o', o.unSerialize data = some (r, o') → r ≠ .success → o' = o) ↔
      headSize ≤ data.length)) := by
  refine ⟨fun p hrun k => ?_, fun hne hsize => o.unSerialize_bounded_iff hne hsize⟩
  have hcoherent : p.Coherent :=
    hrun.invariant coherent_start fun _ _ _ h hop hq => h.step hop hq
  exact restores_iff_complete (hcoherent k)

/-- A buffer with information and an extra value is serialised and copied, and another object gets its
bytes; and an unknown type of twelve bytes. -/
theorem serialize_restores_copy :
    (∃ p, Reach Pool.step Settled start p ∧ (p 1).mBytes ≠ none ∧ (p 1).Restores) ∧
    ∀ r o', fresh.unSerialize (List.replicate 12 7) = some (r, o') → r ≠ .success →
      o' = fresh := by
  obtain ⟨hrestores, hbounded⟩ := serialize_restores fresh (List.replicate 12 7)
  exact ⟨Reach.exists_of_decide (fun p hrun (h : (p 1).mBytes ≠ none ∧ (p 1).Complete) =>
      ⟨h.1, (hrestores p hrun 1).mpr h.2⟩)
    [.set 0 (.setType typeEncoder), .set 0 (.setValue 5#64), .set 0 (.setSessionFlag 9#32),
      .set 0 (.setValueInfo (some ⟨1, 0, 2, 3, 4, 5, 6, 7, 8, 9, 0⟩)),
      .set 0 (.setExtraValues [6#64]), .serialize 0, .copy 1 0] (by decide),
    ((hbounded (by decide) (by decide)).mpr (by decide)).2⟩

/-- A value that is set after the bytes were made is not serialised, and a single byte is not enough for
`UnSerialize`. -/
theorem serialize_stale :
    (¬ ∀ p, Reach Pool.step (fun _ _ => True) start p → ∀ k, (p k).Restores) ∧
    fresh.unSerialize [0] = none := by
  refine ⟨fun h => ?_, by decide⟩
  obtain ⟨p, hrun, hbytes, hvalue⟩ : ∃ p, Reach Pool.step (fun _ _ => True) start p ∧
      (p 0).mBytes = some (List.replicate 12 0) ∧ (p 0).mValue = 7#64 :=
    Reach.exists_of_decide (fun _ _ h => h) [.serialize 0, .set 0 (.setValue 7#64)] (by decide)
  have hrestores := h p hrun 0
  rw [Restores, serialize, hbytes] at hrestores
  obtain ⟨o', ho', -, hvalue', -⟩ := hrestores
  cases ho'
  rw [hvalue] at hvalue'
  exact absurd hvalue' (by decide)

end HardwareIntel.MetadataBuffer
