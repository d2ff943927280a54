import HardwareIntel.Topaz.HeaderMemory

/-!
# The elements of a header in memory

`Laid host h es` says that the memory of `h` holds the elements `es`, the newest first: each is a type
and the bits written into it, and they stand one behind the other. Writing to the last element does
not touch the others, so a call of a writing function appends its bits, and `run_laid` follows from
the calls one by one.
-/

namespace HardwareIntel.Topaz

open List Function

/-- The element of raw data at an address. -/
def elementAt (m : ℕ → UInt8) (p : ℕ) : Element :=
  ⟨.rawdata, (m (p + 4)).toNat, fun k => (m (p + 5 + k)).toNat⟩

/-- A byte of an element changes in memory. -/
theorem elementAt_update_byte (m : ℕ → UInt8) (p k : ℕ) (b : UInt8) :
    elementAt (Function.update m (p + 5 + k) b) p =
      { elementAt m p with bytes := Function.update (elementAt m p).bytes k b.toNat } := by
  rw [elementAt, elementAt]
  congr 1
  · rw [update_of_ne (by omega)]
  · funext j
    rcases eq_or_ne j k with rfl | hne
    · rw [update_self, update_self]
    · rw [update_of_ne (by omega), update_of_ne hne]

/-- The size of an element changes in memory. -/
theorem elementAt_update_size (m : ℕ → UInt8) (p : ℕ) (s : UInt8) :
    elementAt (Function.update m (p + 4) s) p = { elementAt m p with size := s.toNat } := by
  rw [elementAt, elementAt]
  congr 1
  · rw [update_self]
  · funext j
    rw [update_of_ne (by omega)]

/-- Only the bytes that are filled count. -/
theorem raw_congr {m m' : ℕ → UInt8} {p n : ℕ} (hn : (m (p + 4)).toNat = n)
    (h : ∀ j, p + 4 ≤ j → j < p + 5 + (n + 7) / 8 → m' j = m j) :
    (elementAt m' p).raw = (elementAt m p).raw := by
  have hsize : (elementAt m' p).size = (elementAt m p).size :=
    congrArg UInt8.toNat (h (p + 4) le_rfl (by omega))
  rw [Element.raw, Element.raw, hsize]
  refine map_congr_left fun i hi => ?_
  have hlt : i < (m (p + 4)).toNat := mem_range.mp hi
  exact congrArg (fun b : UInt8 => b.toNat.testBit (7 - i % 8))
    (h (p + 5 + i / 8) (by omega) (by omega))

/-! ### Elements one behind the other -/

section Stored

variable {τ : Type} (host : Host τ)

/-- The bytes from one element to the next. -/
def Host.bytesOf (code n : ℕ) : ℕ := if host.isRawCode code then ((n + 39) / 32 + 1) * 4 else 4

/-- The address behind some elements. -/
def Host.endOf : List (ℕ × List Bool) → ℕ
  | [] => 0
  | (code, l) :: es => Host.endOf es + host.bytesOf code l.length

/-- An element in memory: its type and, if it can hold bits, these bits. -/
structure StoredAt (m : ℕ → UInt8) (p code : ℕ) (l : List Bool) : Prop where
  type : word m p = code
  raw : host.isRawCode code = true → (elementAt m p).raw = l ∧ l.length ≤ 120
  other : host.isRawCode code = false → l = []

/-- The elements are where the pointers point to. -/
def Stored (h : HeaderParams) : List (ℕ × List Bool) → Prop
  | [] => True
  | (code, l) :: es => h.elementPointers es.length = host.endOf es ∧
      StoredAt host h.elementStream (host.endOf es) code l ∧ Stored h es

variable {host}

/-- The length is stored with the element. -/
theorem StoredAt.length {m : ℕ → UInt8} {p code : ℕ} {l : List Bool} (h : StoredAt host m p code l)
    (hraw : host.isRawCode code = true) : (m (p + 4)).toNat = l.length := by
  rw [← (h.raw hraw).1, length_raw]
  rfl

/-- An element is stored where the memory is the same. -/
theorem StoredAt.congr {m m' : ℕ → UInt8} {p code : ℕ} {l : List Bool} (h : StoredAt host m p code l)
    (heq : ∀ j, p ≤ j → j < p + host.bytesOf code l.length → m' j = m j) :
    StoredAt host m' p code l := by
  have hfour : 4 ≤ host.bytesOf code l.length := by
    rw [Host.bytesOf]
    split <;> omega
  refine ⟨?_, fun hraw => ?_, h.other⟩
  · rw [word_congr fun j hj hj' => heq j hj (by omega)]
    exact h.type
  · refine ⟨?_, (h.raw hraw).2⟩
    rw [Host.bytesOf, if_pos hraw] at heq
    rw [raw_congr (h.length hraw) fun j hj hj' => heq j (by omega) (by omega)]
    exact (h.raw hraw).1

/-- What is written behind the elements does not matter. -/
theorem Stored.congr {h h' : HeaderParams} {es : List (ℕ × List Bool)} (hs : Stored host h es)
    (hpointers : ∀ i < es.length, h'.elementPointers i = h.elementPointers i)
    (hstream : ∀ j < host.endOf es, h'.elementStream j = h.elementStream j) : Stored host h' es := by
  induction es with
  | nil => trivial
  | cons e es ih =>
    obtain ⟨code, l⟩ := e
    obtain ⟨hpointer, hat, hrest⟩ := hs
    rw [length_cons] at hpointers
    rw [Host.endOf] at hstream
    exact ⟨(hpointers _ (Nat.lt_succ_self _)).trans hpointer, hat.congr fun j _ hj => hstream j hj,
      ih hrest (fun i hi => hpointers i (Nat.lt_succ_of_lt hi)) fun j hj => hstream j (by omega)⟩

end Stored

/-- The header holds these elements, and the last one takes more bits if it is of raw data. -/
structure Laid {τ : Type} (host : Host τ) (h : HeaderParams) (es : List (ℕ × List Bool)) : Prop where
  elements : h.elements + 1 = es.length
  stored : Stored host h es
  opened : ∀ e ∈ es.head?, host.isRawCode e.1 = true → (elementAt h.elementStream h.current).Open

section Laid

variable {τ : Type} {host : Host τ} {h : HeaderParams} {es : List (ℕ × List Bool)} {code : ℕ}
  {l : List Bool}

section

variable (hl : Laid host h ((code, l) :: es))
include hl

/-- The last element is at the end of the others. -/
theorem Laid.current : h.current = host.endOf es := by
  have hcount : h.elements = es.length := Nat.succ.inj hl.elements
  rw [HeaderParams.current, hcount]
  exact hl.stored.1

/-- The last element is stored. -/
theorem Laid.storedAt :
    StoredAt host h.elementStream h.current code l := hl.current ▸ hl.stored.2.1

/-- Its size is that of its bits. -/
theorem Laid.size (hraw : host.isRawCode code = true) :
    h.size = l.length := hl.storedAt.length hraw

/-- A new element behind the others. -/
theorem Laid.begin {new : ℕ} (hnew : new < 2 ^ 32) :
    Laid host ((h.nextElement (host.bytesOf code l.length)).beginElement new)
      ((new, []) :: (code, l) :: es) := by
  have hcurrent : (h.nextElement (host.bytesOf code l.length)).current =
      host.endOf ((code, l) :: es) := by
    rw [HeaderParams.current, HeaderParams.nextElement, Host.endOf, ← hl.current]
    exact update_self ..
  have hstream : ∀ j, j < host.endOf ((code, l) :: es) →
      ((h.nextElement (host.bytesOf code l.length)).beginElement new).elementStream j =
        h.elementStream j := by
    intro j hj
    rw [HeaderParams.beginElement, hcurrent]
    exact (update_of_ne (by omega) _ _).trans (setWord_of_lt _ _ hj)
  have hsize : ((h.nextElement (host.bytesOf code l.length)).beginElement new).elementStream
      (host.endOf ((code, l) :: es) + 4) = 0 := by
    rw [HeaderParams.beginElement, hcurrent]
    exact update_self ..
  have hpointers : ∀ i < ((code, l) :: es).length,
      ((h.nextElement (host.bytesOf code l.length)).beginElement new).elementPointers i =
        h.elementPointers i := by
    intro i hi
    exact update_of_ne (by rw [hl.elements]; omega) _ _
  have hempty : (elementAt ((h.nextElement (host.bytesOf code l.length)).beginElement
      new).elementStream (host.endOf ((code, l) :: es))).size = 0 := by
    rw [elementAt, hsize]
    rfl
  refine ⟨congrArg (· + 1) hl.elements, ⟨?_, ⟨?_, fun _ => ⟨?_, Nat.zero_le _⟩, fun _ => rfl⟩,
    hl.stored.congr hpointers hstream⟩, fun e he hraw => ?_⟩
  · rw [← hl.elements, ← hcurrent]
    rfl
  · rw [HeaderParams.beginElement, hcurrent]
    refine (word_congr fun j _ hj => update_of_ne (by omega) _ _).trans ?_
    exact word_setWord _ hnew
  · exact eq_nil_of_length_eq_zero ((length_raw _).trans hempty)
  · have hcurrent' : ((h.nextElement (host.bytesOf code l.length)).beginElement new).current =
        host.endOf ((code, l) :: es) := hcurrent
    rw [hcurrent']
    exact ⟨rfl, hempty.trans_le (Nat.zero_le _), fun hne => absurd (by rw [hempty]) hne⟩

end

/-- The first element of a header. -/
theorem laid_first (hpointer : h.elementPointers 0 = 0) {new : ℕ} (hnew : new < 2 ^ 32) :
    Laid host ({ h with elements := 0 }.beginElement new) [(new, [])] := by
  have hcurrent : ({ h with elements := 0 } : HeaderParams).current = 0 := hpointer
  have hstream : ({ h with elements := 0 }.beginElement new).elementStream =
      Function.update (setWord h.elementStream 0 new) (0 + 4) 0 := by
    rw [HeaderParams.beginElement, hcurrent]
  have hempty : (elementAt ({ h with elements := 0 }.beginElement new).elementStream 0).size = 0 := by
    rw [elementAt, hstream, update_self]
    rfl
  have hword : word ({ h with elements := 0 }.beginElement new).elementStream 0 = new := by
    rw [hstream, word_congr fun j _ hj => update_of_ne (by omega) _ _]
    exact word_setWord _ hnew
  have hraw : (elementAt ({ h with elements := 0 }.beginElement new).elementStream 0).raw = [] :=
    eq_nil_of_length_eq_zero ((length_raw _).trans hempty)
  refine ⟨rfl, ⟨hpointer, ⟨hword, fun _ => ⟨hraw, Nat.zero_le _⟩, fun _ => rfl⟩, trivial⟩,
    fun e he hraw => ?_⟩
  have hcurrent' : ({ h with elements := 0 }.beginElement new).current = 0 := hpointer
  rw [hcurrent']
  exact ⟨rfl, hempty.trans_le (Nat.zero_le _), fun hne => absurd (by rw [hempty]) hne⟩

/-- The codes of a driver: they fit into a word, and tell the types apart. -/
structure Host.Coded {τ : Type} (host : Host τ) : Prop where
  lt : ∀ t, host.code t < 2 ^ 32
  rawdata : host.isRawCode (host.code host.rawdata) = true

/-- A token is laid behind the others. -/
theorem Laid.insertElementToken (hl : Laid host h es) (hne : es ≠ []) (hcoded : host.Coded) (token : τ)
    (hfew : h.elements < maxNumberElements)
    (hroom : host.checksTokens = true →
      (host.insertElementToken h token).elements < maxNumberElements) :
    Laid host (host.insertElementToken h token) ((host.code token, []) :: es) := by
  obtain ⟨⟨code, l⟩, es, rfl⟩ := exists_cons_of_ne_nil hne
  have hsome : h.elements ≠ elementsEmpty := by
    rw [maxNumberElements] at hfew
    rw [elementsEmpty]
    omega
  have hoffset : host.nextOffset (word h.elementStream h.current) h.size =
      host.bytesOf code l.length := by
    rw [hl.storedAt.type, Host.nextOffset, Host.bytesOf]
    cases hraw : host.isRawCode code with
    | false => rfl
    | true =>
      have hle := (hl.storedAt.raw hraw).2
      rw [if_pos rfl, if_pos rfl, hl.size hraw, Nat.mod_eq_of_lt (by omega)]
  rw [Host.insertElementToken, if_neg (fun hboth => Nat.not_le.mpr hfew hboth.2), if_neg hsome]
    at hroom ⊢
  split at hroom
  · rename_i hboth
    exact absurd hboth.2 (Nat.not_le.mpr (hroom hboth.1))
  · rename_i hboth
    rw [if_neg hboth, hoffset]
    exact hl.begin (hcoded.lt token)

/-! ### Writing bits -/

/-- Clearing a byte stays at the element. -/
@[simp] theorem current_clearByte : h.clearByte.current = h.current := by
  rw [HeaderParams.clearByte]
  split <;> rfl

/-- It keeps the number of elements. -/
theorem clearByte_elements : h.clearByte.elements = h.elements := by
  rw [HeaderParams.clearByte]
  split <;> rfl

/-- It keeps the pointers. -/
theorem clearByte_elementPointers : h.clearByte.elementPointers = h.elementPointers := by
  rw [HeaderParams.clearByte]
  split <;> rfl

/-- It clears the byte of the element. -/
theorem elementAt_clearByte : elementAt h.clearByte.elementStream h.current =
    (elementAt h.elementStream h.current).clearByte := by
  have hsize : (elementAt h.elementStream h.current).size = h.size := rfl
  rw [HeaderParams.clearByte, Element.clearByte, hsize]
  by_cases hzero : h.size % 8 = 0
  · rw [if_pos hzero, if_pos hzero]
    exact elementAt_update_byte _ _ _ _
  · rw [if_neg hzero, if_neg hzero]

/-- It keeps the size. -/
theorem size_clearByte : h.clearByte.size = h.size := by
  rw [HeaderParams.size, current_clearByte, HeaderParams.clearByte]
  split
  · exact congrArg UInt8.toNat (update_of_ne (by omega) _ _)
  · rfl

/-- Bits are put into the current byte as they are into that of an element. -/
theorem elementAt_put {v n : ℕ} (hv : v < 256) (hn : h.size + n < 256) :
    elementAt ((h.setBits v).countBits n).elementStream h.current =
      (elementAt h.elementStream h.current).put v n := by
  have hsize : (h.setBits v).size = h.size := by
    change (Function.update h.elementStream (h.current + 5 + h.size / 8) _ (h.current + 4)).toNat = _
    rw [update_of_ne (by omega)]
    rfl
  have hset := elementAt_update_byte h.elementStream h.current (h.size / 8)
    (h.elementStream (h.current + 5 + h.size / 8) ||| UInt8.ofNat v)
  have hcount := elementAt_update_size (h.setBits v).elementStream h.current
    (UInt8.ofNat ((h.setBits v).size + n))
  refine hcount.trans ?_
  rw [hsize, UInt8.toNat_ofNat', Nat.mod_eq_of_lt hn, HeaderParams.setBits, hset, Element.put,
    UInt8.toNat_or, UInt8.toNat_ofNat', Nat.mod_eq_of_lt hv]
  rfl

/-- Only the current byte and the size of the current element are written. -/
theorem elementStream_put {v n j : ℕ} (hbyte : j ≠ h.current + 5 + h.size / 8)
    (hsize : j ≠ h.current + 4) :
    ((h.clearByte.setBits v).countBits n).elementStream j = h.elementStream j := by
  have hclear : h.clearByte.elementStream j = h.elementStream j := by
    rw [HeaderParams.clearByte]
    split
    · exact update_of_ne hbyte _ _
    · rfl
  have hset : (h.clearByte.setBits v).elementStream j = h.clearByte.elementStream j :=
    update_of_ne (by rwa [current_clearByte, size_clearByte]) _ _
  have hcount : ((h.clearByte.setBits v).countBits n).elementStream j =
      (h.clearByte.setBits v).elementStream j :=
    update_of_ne (current_clearByte (h := h) ▸ hsize) _ _
  rw [hcount, hset, hclear]

/-- Bits that fit into the current byte are appended to the last element. -/
theorem Laid.put (hl : Laid host h ((code, l) :: es)) (hraw : host.isRawCode code = true) {v k : ℕ}
    (hfull : ¬(h.size % 8 = 0 ∧ 120 ≤ h.size)) (hv : v < 2 ^ k) (hfits : k + h.size % 8 ≤ 8) :
    Laid host ((h.clearByte.setBits (v * 2 ^ (8 - k - h.size % 8))).countBits k)
      ((code, l ++ bits k v) :: es) := by
  have hopen := hl.opened _ rfl hraw
  have hfits' := hopen.put hfull hv hfits
  have hlt : h.size < 120 := (hopen.clearByte hfull).2.2.2.1
  have hbyte : v * 2 ^ (8 - k - h.size % 8) < 256 := by
    calc v * 2 ^ (8 - k - h.size % 8) < 2 ^ k * 2 ^ (8 - k - h.size % 8) :=
          Nat.mul_lt_mul_of_pos_right hv (Nat.two_pow_pos _)
      _ = 2 ^ (k + (8 - k - h.size % 8)) := (Nat.pow_add 2 _ _).symm
      _ ≤ 2 ^ 8 := Nat.pow_le_pow_right (by decide) (by omega)
  have helement : elementAt
      ((h.clearByte.setBits (v * 2 ^ (8 - k - h.size % 8))).countBits k).elementStream h.current =
      (elementAt h.elementStream h.current).clearByte.put (v * 2 ^ (8 - k - h.size % 8)) k := by
    have hput := elementAt_put (h := h.clearByte) (n := k) hbyte
      (by rw [size_clearByte]; omega)
    rw [current_clearByte, elementAt_clearByte] at hput
    exact hput
  have hcurrent : ((h.clearByte.setBits (v * 2 ^ (8 - k - h.size % 8))).countBits k).current =
      h.current := current_clearByte
  have hrest : Stored host ((h.clearByte.setBits (v * 2 ^ (8 - k - h.size % 8))).countBits k) es :=
    hl.stored.2.2.congr (fun i _ => congrFun clearByte_elementPointers i) fun j hj =>
      have hlt : j < h.current + 4 := by rw [hl.current]; omega
      elementStream_put (by omega) (by omega)
  have hrawl := (hl.storedAt.raw hraw).1
  rw [hrawl] at hfits'
  refine ⟨?_, ⟨?_, ⟨?_, fun _ => ⟨?_, ?_⟩, fun hother => ?_⟩, hrest⟩, fun e he _ => ?_⟩
  · exact (congrArg (· + 1) clearByte_elements).trans hl.elements
  · exact (congrFun clearByte_elementPointers _).trans hl.stored.1
  · rw [word_congr fun j _ hj => elementStream_put (by rw [hl.current]; omega)
      (by rw [hl.current]; omega)]
    exact hl.stored.2.1.type
  · rw [← hl.current, helement]
    exact hfits'.1
  · have hle := hfits'.2.1.size_le
    rw [← length_raw, hfits'.1] at hle
    exact hle
  · exact absurd (hraw.symm.trans hother) (by decide)
  · rw [hcurrent, helement]
    exact hfits'.2.1

/-! ### How the elements grow -/

variable (host) in
/-- A bit goes to the last element, and into a new one of raw data when that is full. -/
def Host.pushBit : List (ℕ × List Bool) → Bool → List (ℕ × List Bool)
  | [], _ => []
  | (code, l) :: es, b =>
    if l.length < 120 then (code, l ++ [b]) :: es
    else (host.code host.rawdata, [b]) :: (code, l) :: es

variable (host) in
/-- Bits go to the last element one by one. -/
def Host.fill (es : List (ℕ × List Bool)) (b : List Bool) : List (ℕ × List Bool) :=
  b.foldl host.pushBit es

/-- Bits and then bits. -/
theorem fill_append (es : List (ℕ × List Bool)) (a b : List Bool) :
    host.fill es (a ++ b) = host.fill (host.fill es a) b := foldl_append

variable {b : List Bool}

/-- Bits for which the last element has room. -/
theorem fill_of_room (hroom : l.length + b.length ≤ 120) :
    host.fill ((code, l) :: es) b = (code, l ++ b) :: es := by
  induction b generalizing l with
  | nil => rw [append_nil, Host.fill, foldl_nil]
  | cons x b ih =>
    rw [length_cons] at hroom
    rw [Host.fill, foldl_cons, Host.pushBit, if_pos (by omega)]
    refine (ih ?_).trans (by rw [append_assoc, singleton_append])
    rw [length_append, length_singleton]
    omega

/-- Bits behind a full element begin a new one. -/
theorem fill_of_full (hfull : 120 ≤ l.length) (hb : b ≠ []) (hroom : b.length ≤ 120) :
    host.fill ((code, l) :: es) b = (host.code host.rawdata, b) :: (code, l) :: es := by
  obtain ⟨x, b, rfl⟩ := exists_cons_of_ne_nil hb
  rw [length_cons] at hroom
  rw [Host.fill, foldl_cons, Host.pushBit, if_neg (by omega)]
  refine fill_of_room ?_
  rw [length_singleton]
  omega

/-- The last element gets bits, and when it is full, a new one of raw data begins. -/
inductive Grows (host : Host τ) :
    List (ℕ × List Bool) → List Bool → List (ℕ × List Bool) → Prop
  | refl (es : List (ℕ × List Bool)) : Grows host es [] es
  | put {es es' : List (ℕ × List Bool)} {b l : List Bool} {code : ℕ}
      (hg : Grows host es b ((code, l) :: es')) (x : List Bool) :
      Grows host es (b ++ x) ((code, l ++ x) :: es')
  | next {es es' : List (ℕ × List Bool)} {b : List Bool} {e : ℕ × List Bool}
      (hg : Grows host es b (e :: es')) :
      Grows host es b ((host.code host.rawdata, []) :: e :: es')

/-- A header grows by the bits. -/
theorem grows_fill (es : List (ℕ × List Bool)) (b : List Bool) (hne : es ≠ []) :
    Grows host es b (host.fill es b) := by
  induction b using List.reverseRecOn with
  | nil => exact .refl es
  | append_singleton b x ih =>
    rw [fill_append]
    cases hfill : host.fill es b with
    | nil =>
      rw [hfill] at ih
      cases ih
      exact absurd rfl hne
    | cons e es' =>
      obtain ⟨code, l⟩ := e
      rw [hfill] at ih
      rw [Host.fill, foldl_cons, foldl_nil, Host.pushBit]
      split
      · exact ih.put [x]
      · exact ih.next.put [x]

/-- The elements that a token and the bits behind it take: the first has the type of the token. -/
theorem Grows.group {es es' : List (ℕ × List Bool)} (hg : Grows host ((code, []) :: es) b es') :
    ∃ l rest, es' = ((code, l) :: rest).reverse ++ es ∧
      (∀ e ∈ rest, e.1 = host.code host.rawdata) ∧ ((code, l) :: rest).flatMap Prod.snd = b := by
  induction hg with
  | refl => exact ⟨[], [], rfl, fun e he => absurd he not_mem_nil, rfl⟩
  | @put es' b l' code' hg x ih =>
    obtain ⟨l, rest, heq, hraw, hb⟩ := ih
    rcases eq_nil_or_concat' rest with rfl | ⟨rest, e, rfl⟩
    · obtain ⟨hcode, rfl⟩ := List.cons.inj heq
      obtain ⟨rfl, rfl⟩ := Prod.mk.inj hcode
      refine ⟨l' ++ x, [], rfl, hraw, ?_⟩
      rw [← hb]
      simp
    · rw [reverse_cons, reverse_append, reverse_singleton, singleton_append,
        cons_append, cons_append] at heq
      obtain ⟨rfl, rfl⟩ := List.cons.inj heq
      refine ⟨l, rest ++ [(code', l' ++ x)], ?_, ?_, ?_⟩
      · simp
      · intro e he
        rcases mem_append.mp he with he | he
        · exact hraw e (mem_append_left _ he)
        · rw [mem_singleton.mp he]
          exact hraw (code', l') (mem_append_right _ (mem_singleton_self _))
      · rw [← hb]
        simp
  | next hg ih =>
    obtain ⟨l, rest, heq, hraw, hb⟩ := ih
    refine ⟨l, rest ++ [(host.code host.rawdata, [])], ?_, ?_, ?_⟩
    · rw [heq]
      simp
    · intro e he
      rcases mem_append.mp he with he | he
      · exact hraw e he
      · rw [mem_singleton.mp he]
    · rw [← hb]
      simp

/-- The last element is of raw data. -/
def Writable (host : Host τ) (es : List (ℕ × List Bool)) : Prop :=
  ∃ e es', es = e :: es' ∧ host.isRawCode e.1 = true

/-- A header that has grown can be written to. -/
theorem Grows.writable {es es' : List (ℕ × List Bool)} (hcoded : host.Coded)
    (hg : Grows host es b es') (hw : Writable host es) : Writable host es' := by
  induction hg with
  | refl => exact hw
  | put hg x ih =>
    obtain ⟨e, es', heq, hraw⟩ := ih
    obtain ⟨rfl, rfl⟩ := List.cons.inj heq
    exact ⟨_, _, rfl, hraw⟩
  | next hg ih => exact ⟨_, _, rfl, hcoded.rawdata⟩

/-- A header that can be written to has an element. -/
theorem Writable.ne_nil {es : List (ℕ × List Bool)} (hw : Writable host es) : es ≠ [] := by
  obtain ⟨e, es', rfl, -⟩ := hw
  exact cons_ne_nil e es'

/-- It can be written to again. -/
theorem Writable.fill {es : List (ℕ × List Bool)} (hcoded : host.Coded) (hw : Writable host es)
    (b : List Bool) : Writable host (host.fill es b) :=
  (grows_fill es b hw.ne_nil).writable hcoded hw

/-- Writing takes no elements away. -/
theorem le_elements_calls (calls : ℕ) : ∀ (h : HeaderParams) (v k : ℕ),
    h.elements ≤ (host.writeUpto8bitsCalls calls h v k).elements := by
  induction calls with
  | zero => exact fun _ _ _ => le_rfl
  | succ calls ih =>
    intro h v k
    rw [Host.writeUpto8bitsCalls]
    split
    · exact le_rfl
    · dsimp only
      split
      · refine (Nat.le_succ h.elements).trans ?_
        exact ih ((h.nextElement (5 + 15)).beginElement (host.code host.rawdata)) _ _
      · split
        · exact le_of_eq clearByte_elements.symm
        · refine (le_of_eq clearByte_elements.symm).trans ?_
          exact ih ((h.clearByte.setBits _).countBits _) _ _

variable (host) in
/-- Writing to the last element in memory. -/
def Host.sink : BitSink HeaderParams where
  size h := h.size
  put h v n := (h.clearByte.setBits v).countBits n
  next h := (h.nextElement (5 + 15)).beginElement (host.code host.rawdata)
  blocked h := host.checksWrites && decide (maxNumberElements ≤ h.elements)

/-- The loop is the one of the sink. -/
theorem Host.writeUpto8bitsCalls_eq (calls : ℕ) : ∀ (h : HeaderParams) (v k : ℕ),
    host.writeUpto8bitsCalls calls h v k = host.sink.calls calls h v k := by
  induction calls with
  | zero => exact fun _ _ _ => rfl
  | succ calls ih =>
    intro h v k
    simp only [BitSink.calls, ← ih]
    simp only [Host.writeUpto8bitsCalls, Host.sink, Bool.and_eq_true, decide_eq_true_eq]
    rfl

/-- A full element is left for a new one. -/
theorem Laid.next (hl : Laid host h ((code, l) :: es)) (hcoded : host.Coded)
    (hraw : host.isRawCode code = true) (hfull : host.sink.Full h) :
    120 ≤ l.length ∧
      Laid host (host.sink.next h) ((host.code host.rawdata, []) :: (code, l) :: es) := by
  have hlength : 120 ≤ l.length := hl.size hraw ▸ hfull.2
  have hoffset : host.bytesOf code l.length = 5 + 15 := by
    rw [Host.bytesOf, if_pos hraw, le_antisymm (hl.storedAt.raw hraw).2 hlength]
  have hnext := hl.begin (hcoded.lt host.rawdata)
  rw [hoffset] at hnext
  exact ⟨hlength, hnext⟩

variable (es) in
/-- Bits that are written fill the elements. -/
theorem Host.Coded.keeps (hcoded : host.Coded) : host.sink.Keeps fun b h =>
    Laid host h (host.fill es b) ∧ Writable host (host.fill es b) where
  put := by
    rintro b h v k ⟨hl, hw⟩ hfull hv hfits
    have hw' := hw.fill hcoded (bits k v)
    rw [fill_append]
    obtain ⟨⟨code, l⟩, es', hfill, hraw⟩ := hw
    rw [hfill] at hl hw' ⊢
    have hput := hl.put hraw hfull hv hfits
    have hsize : h.size = l.length := hl.size hraw
    have hle := (hl.storedAt.raw hraw).2
    have hroom : l.length + (bits k v).length ≤ 120 := by
      rw [length_bits]
      change ¬ (h.size % 8 = 0 ∧ 120 ≤ h.size) at hfull
      change k + h.size % 8 ≤ 8 at hfits
      omega
    rw [fill_of_room hroom] at hw' ⊢
    refine ⟨⟨hput, hw'⟩, (hput.size hraw).trans ?_⟩
    rw [length_append, length_bits, ← hsize]
    rfl
  next := by
    rintro b h v k ⟨hl, hw⟩ hfull hk hk8 hv
    have hw' := hw.fill hcoded (bits k v)
    rw [fill_append]
    obtain ⟨⟨code, l⟩, es', hfill, hraw⟩ := hw
    rw [hfill] at hl hw' ⊢
    obtain ⟨hlength, hnext⟩ := hl.next hcoded hraw hfull
    have hzero : (host.sink.next h).size = 0 := hnext.size hcoded.rawdata
    have hput := hnext.put hcoded.rawdata (by omega) hv (by omega)
    have hbits := length_bits k v
    rw [fill_of_full hlength (ne_nil_of_length_pos (by omega)) (by omega)] at hw' ⊢
    rw [hzero] at hput
    exact ⟨hput, hw'⟩
  size_next := by
    rintro b h ⟨hl, ⟨code, l⟩, es', hfill, hraw⟩ hfull
    rw [hfill] at hl
    exact (hl.next hcoded hraw hfull).2.size hcoded.rawdata

/-- A piece of at most eight bits. -/
theorem Laid.piece {v k : ℕ} (hl : Laid host h es) (hcoded : host.Coded) (hw : Writable host es)
    (hk : k ≤ 8) (hroom : host.checksWrites = true →
      (host.writeUpto8bitsElements h v k).elements < maxNumberElements) :
    Laid host (host.writeUpto8bitsElements h v k) (host.fill es (bits k v)) := by
  rw [Host.writeUpto8bitsElements, Host.writeUpto8bitsCalls_eq] at hroom ⊢
  refine ((hcoded.keeps es).write (l := []) ⟨hl, hw⟩ hk ?_).1
  simpa [Host.sink] using hroom

/-! ### Whole headers -/

/-- Pieces take no elements away. -/
theorem le_elements_pieces (pieces : List (ℕ × ℕ)) (h : HeaderParams) :
    h.elements ≤ (host.writePieces h pieces).elements := by
  induction pieces generalizing h with
  | nil => exact le_rfl
  | cons p pieces ih => exact (le_elements_calls 4 h p.1 p.2).trans (ih _)

/-- Pieces are laid into the header. -/
theorem Laid.pieces {pieces : List (ℕ × ℕ)} (hl : Laid host h es) (hcoded : host.Coded)
    (hw : Writable host es) (hpieces : ∀ p ∈ pieces, p.2 ≤ 8)
    (hroom : host.checksWrites = true → (host.writePieces h pieces).elements < maxNumberElements) :
    Laid host (host.writePieces h pieces) (host.fill es (piecesBits pieces)) := by
  induction pieces generalizing h es with
  | nil => exact hl
  | cons p pieces ih =>
    rw [forall_mem_cons] at hpieces
    have hl' := hl.piece hcoded hw hpieces.1 fun hchecks =>
      (le_elements_pieces pieces _).trans_lt (hroom hchecks)
    rw [piecesBits_cons, fill_append]
    exact ih hl' (hw.fill hcoded _) hpieces.2 hroom

/-- After each of the calls there is room in the array of pointers. -/
def Host.Stays (host : Host τ) : HeaderParams → List (HeaderCall τ) → Prop
  | _, [] => True
  | h, c :: calls => (host.call h c).elements < maxNumberElements ∧ host.Stays (host.call h c) calls

instance decidableStays (host : Host τ) :
    (h : HeaderParams) → (calls : List (HeaderCall τ)) → Decidable (host.Stays h calls)
  | _, [] => instDecidableTrue
  | h, c :: calls => @instDecidableAnd _ _ _ (decidableStays host (host.call h c) calls)

/-- Writes are laid into the header. -/
theorem Laid.writes {ws : List HeaderWrite} (hl : Laid host h es) (hcoded : host.Coded)
    (hw : Writable host es) (hvalid : ∀ w ∈ ws, w.Valid) (hstays : host.Stays h (ws.map .write)) :
    Laid host (host.run h (ws.map .write)) (host.fill es (ws.flatMap HeaderWrite.bits)) := by
  induction ws generalizing h es with
  | nil => exact hl
  | cons w ws ih =>
    rw [forall_mem_cons] at hvalid
    have hl' := hl.pieces hcoded hw hvalid.1.short.pieces_le fun _ => hstays.1
    rw [hvalid.1.piecesBits] at hl'
    rw [flatMap_cons, fill_append]
    exact ih hl' (hw.fill hcoded _) hvalid.2 hstays.2

/-- A token and the bits that are written before the next one. -/
abbrev Segment (τ : Type) := τ × List HeaderWrite

def Segment.calls (s : Segment τ) : List (HeaderCall τ) := .token s.1 :: s.2.map .write

def Segment.bits (s : Segment τ) : List Bool := s.2.flatMap HeaderWrite.bits

/-- The elements of a segment: one of its type, and if that is not enough, more of raw data. -/
structure IsGroup (host : Host τ) (g : List (ℕ × List Bool)) (s : Segment τ) : Prop where
  first : ∃ l rest, g = (host.code s.1, l) :: rest ∧ ∀ e ∈ rest, e.1 = host.code host.rawdata
  bits : g.flatMap Prod.snd = s.bits

/-- Calls stay in the array if each part does. -/
theorem Stays.append {a b : List (HeaderCall τ)} (hs : host.Stays h (a ++ b)) :
    host.Stays h a ∧ host.Stays (host.run h a) b := by
  induction a generalizing h with
  | nil => exact ⟨trivial, hs⟩
  | cons c a ih =>
    obtain ⟨ha, hb⟩ := ih hs.2
    exact ⟨⟨hs.1, ha⟩, hb⟩

/-- At the end the array still has room. -/
theorem Stays.run {calls : List (HeaderCall τ)} (hs : host.Stays h calls)
    (hfew : h.elements < maxNumberElements) : (host.run h calls).elements < maxNumberElements := by
  induction calls generalizing h with
  | nil => exact hfew
  | cons c calls ih => exact ih hs.2 hs.1

/-- The raw types hold bits. -/
theorem isRawCode_of_mem {t : τ} (ht : t ∈ host.raw) : host.isRawCode (host.code t) = true :=
  any_eq_true.mpr ⟨t, ht, beq_self_eq_true _⟩

/-- The bits of a segment behind its token. -/
theorem Laid.segment {s : Segment τ} (hl : Laid host h ((host.code s.1, []) :: es))
    (hcoded : host.Coded) (hs : s.1 ∈ host.raw ∧ ∀ w ∈ s.2, w.Valid)
    (hstays : host.Stays h (s.2.map .write)) :
    ∃ g, IsGroup host g s ∧ Laid host (host.run h (s.2.map .write)) (g.reverse ++ es) := by
  have hw : Writable host ((host.code s.1, []) :: es) := ⟨_, _, rfl, isRawCode_of_mem hs.1⟩
  have hl' := hl.writes hcoded hw hs.2 hstays
  obtain ⟨l, rest, heq, hrest, hbits⟩ := (grows_fill _ s.bits hw.ne_nil).group
  exact ⟨_, ⟨⟨l, rest, rfl, hrest⟩, hbits⟩, heq ▸ hl'⟩

/-- Segments are laid one behind the other. -/
theorem Laid.segments {segments : List (Segment τ)} (hl : Laid host h es) (hne : es ≠ [])
    (hcoded : host.Coded) (hfew : h.elements < maxNumberElements)
    (hvalid : ∀ s ∈ segments, s.1 ∈ host.raw ∧ ∀ w ∈ s.2, w.Valid)
    (hstays : host.Stays h (segments.flatMap Segment.calls)) :
    ∃ gs, List.Forall₂ (IsGroup host) gs segments ∧
      Laid host (host.run h (segments.flatMap Segment.calls)) (gs.flatten.reverse ++ es) := by
  induction segments generalizing h es with
  | nil => exact ⟨[], .nil, hl⟩
  | cons s segments ih =>
    rw [forall_mem_cons] at hvalid
    rw [flatMap_cons] at hstays ⊢
    obtain ⟨hfirst, hrest⟩ := Stays.append hstays
    have hinsert := hl.insertElementToken hne hcoded s.1 hfew fun _ => hfirst.1
    obtain ⟨g, hg, hl'⟩ := hinsert.segment hcoded hvalid.1 hfirst.2
    obtain ⟨gs, hgs, hl''⟩ := ih hl' (by simp [hne]) (Stays.run hfirst.2 hfirst.1) hvalid.2 hrest
    refine ⟨g :: gs, .cons hg hgs, ?_⟩
    rw [Host.run, foldl_append, flatten_cons, reverse_append, append_assoc]
    exact hl''

/-- Segments are laid from the beginning on. -/
theorem laid_start {segments : List (Segment τ)} {s : Segment τ} (hcoded : host.Coded)
    (hvalid : ∀ s' ∈ s :: segments, s'.1 ∈ host.raw ∧ ∀ w ∈ s'.2, w.Valid)
    (memory : ℕ → UInt8) (pointers : ℕ → ℕ)
    (hstays : host.Stays (Host.start memory pointers) ((s :: segments).flatMap Segment.calls)) :
    ∃ gs, List.Forall₂ (IsGroup host) gs (s :: segments) ∧
      Laid host (host.run (Host.start memory pointers) ((s :: segments).flatMap Segment.calls))
        gs.flatten.reverse := by
  rw [forall_mem_cons] at hvalid
  rw [flatMap_cons] at hstays ⊢
  obtain ⟨hfirst, hrest⟩ := Stays.append hstays
  have hinsert : Laid host (host.insertElementToken (Host.start memory pointers) s.1)
      [(host.code s.1, [])] := by
    have hempty : (Host.start memory pointers).elements = elementsEmpty := rfl
    rw [Host.insertElementToken, if_neg (fun hboth => hboth.1 hempty), if_pos hempty]
    have hpointer : (Host.start memory pointers).elementPointers 0 = 0 :=
      update_self 0 0 pointers
    exact laid_first hpointer (hcoded.lt _)
  obtain ⟨g, hg, hl⟩ := hinsert.segment hcoded hvalid.1 hfirst.2
  have hne : g.reverse ++ [] ≠ [] := by
    obtain ⟨l, rest, rfl, -⟩ := hg.first
    simp
  obtain ⟨gs, hgs, hl'⟩ := hl.segments hne hcoded (Stays.run hfirst.2 hfirst.1) hvalid.2 hrest
  refine ⟨g :: gs, .cons hg hgs, ?_⟩
  rw [append_nil] at hl'
  rw [Host.run, foldl_append, flatten_cons, reverse_append]
  exact hl'

/-- An element of raw data as the firmware finds it. -/
structure ElementIn (h : HeaderParams) (i code : ℕ) (l : List Bool) : Prop where
  aligned : 4 ∣ h.elementPointers i
  type : word h.elementStream (h.elementPointers i) = code
  size : (h.elementStream (h.elementPointers i + 4)).toNat = l.length
  raw : (elementAt h.elementStream (h.elementPointers i)).raw = l
  size_le : l.length ≤ 120

/-- Elements begin on words. -/
theorem four_dvd_endOf (es : List (ℕ × List Bool)) : 4 ∣ host.endOf es := by
  induction es with
  | nil => exact Nat.dvd_zero 4
  | cons e es ih =>
    rw [Host.endOf, Host.bytesOf]
    refine Nat.dvd_add ih ?_
    split
    · exact Nat.dvd_mul_left 4 _
    · exact Nat.dvd_refl 4

/-- Each element is stored where its pointer leads. -/
theorem Stored.at {es₁ es₂ : List (ℕ × List Bool)} (hs : Stored host h (es₁ ++ (code, l) :: es₂)) :
    h.elementPointers es₂.length = host.endOf es₂ ∧
      StoredAt host h.elementStream (host.endOf es₂) code l := by
  induction es₁ with
  | nil => exact ⟨hs.1, hs.2.1⟩
  | cons e es₁ ih => exact ih hs.2.2

/-- The elements one by one: each is where its pointer says, and ends before the next one. -/
theorem Stored.elementIn {es₁ es₂ : List (ℕ × List Bool)}
    (hs : Stored host h (es₁ ++ (code, l) :: es₂)) (hraw : host.isRawCode code = true) :
    ElementIn h es₂.length code l ∧ (es₁ ≠ [] →
      h.elementPointers es₂.length + 5 + (l.length + 7) / 8 ≤ h.elementPointers (es₂.length + 1)) := by
  obtain ⟨hpointer, hat⟩ := hs.at
  refine ⟨⟨?_, ?_, ?_, ?_, (hat.raw hraw).2⟩, fun hne => ?_⟩
  · rw [hpointer]
    exact four_dvd_endOf es₂
  · rw [hpointer]
    exact hat.type
  · rw [hpointer]
    exact hat.length hraw
  · rw [hpointer]
    exact (hat.raw hraw).1
  · obtain ⟨es₁, ⟨code', l'⟩, rfl⟩ := (eq_nil_or_concat' es₁).resolve_left hne
    rw [append_assoc] at hs
    have hnext : h.elementPointers (es₂.length + 1) = host.endOf es₂ + host.bytesOf code l.length :=
      hs.at.1
    rw [hpointer, hnext, Host.bytesOf, if_pos hraw]
    omega

end Laid

/-! ### What the firmware reads -/

/-- All sequences of segments that stay in the array of pointers: the elements of a segment hold its
bits, and they stand in memory as the firmware expects them. -/
def Host.WritesBits {τ : Type} (host : Host τ) : Prop :=
  ∀ (memory : ℕ → UInt8) (pointers : ℕ → ℕ) (segments : List (Segment τ)), segments ≠ [] →
    (∀ s ∈ segments, s.1 ∈ host.raw ∧ ∀ w ∈ s.2, w.Valid) →
    host.Stays (Host.start memory pointers) (segments.flatMap Segment.calls) →
    ∃ gs : List (List (ℕ × List Bool)), List.Forall₂ (IsGroup host) gs segments ∧
      (host.run (Host.start memory pointers) (segments.flatMap Segment.calls)).elements + 1 =
        gs.flatten.length ∧
      ∀ before code l after, gs.flatten = before ++ (code, l) :: after →
        ElementIn (host.run (Host.start memory pointers) (segments.flatMap Segment.calls))
          before.length code l ∧
        (after ≠ [] → (host.run (Host.start memory pointers)
            (segments.flatMap Segment.calls)).elementPointers before.length + 5 + (l.length + 7) / 8 ≤
          (host.run (Host.start memory pointers)
            (segments.flatMap Segment.calls)).elementPointers (before.length + 1))

/-- The elements of raw segments hold bits. -/
theorem isRawCode_of_group {τ : Type} {host : Host τ} {gs : List (List (ℕ × List Bool))}
    {segments : List (Segment τ)} (hcoded : host.Coded) (hgs : List.Forall₂ (IsGroup host) gs segments)
    (hraw : ∀ s ∈ segments, s.1 ∈ host.raw) : ∀ e ∈ gs.flatten, host.isRawCode e.1 = true := by
  induction hgs with
  | nil => exact fun e he => absurd he not_mem_nil
  | cons hg _ ih =>
    rw [forall_mem_cons] at hraw
    obtain ⟨l, rest, rfl, hrest⟩ := hg.first
    intro e he
    rcases mem_append.mp he with he | he
    · rcases mem_cons.mp he with rfl | he
      · exact isRawCode_of_mem hraw.1
      · rw [hrest e he]
        exact hcoded.rawdata
    · exact ih hraw.2 e he

/-- A host whose types are told apart writes bits. -/
theorem writesBits_of_coded {τ : Type} {host : Host τ} (hcoded : host.Coded) : host.WritesBits := by
  intro memory pointers segments hne hvalid hstays
  obtain ⟨s, segments, rfl⟩ := exists_cons_of_ne_nil hne
  obtain ⟨gs, hgs, hl⟩ := laid_start hcoded hvalid memory pointers hstays
  refine ⟨gs, hgs, ?_, fun before code l after heq => ?_⟩
  · rw [hl.elements, length_reverse]
  · have hraw := isRawCode_of_group hcoded hgs (fun s hs => (hvalid s hs).1) (code, l)
      (heq ▸ mem_append_right _ (mem_cons_self ..))
    have hs := hl.stored
    rw [heq, reverse_append, reverse_cons, append_assoc, singleton_append] at hs
    simpa using hs.elementIn hraw

/-- The TopazHP driver tells the types apart. -/
theorem coded_tng : tng.Coded := ⟨fun t => by cases t <;> decide, by decide⟩

/-- So does the older driver. -/
theorem coded_pnw : pnw.Coded := ⟨fun t => by cases t <;> decide, by decide⟩

/-- The writing functions of both drivers write the bits they are to write. -/
theorem hosts_write_bits : tng.WritesBits ∧ pnw.WritesBits :=
  ⟨writesBits_of_coded coded_tng, writesBits_of_coded coded_pnw⟩

/-- A short header of each driver stays in the array, so its bits are found in memory. -/
theorem short_header_bits :
    (∃ gs, List.Forall₂ (IsGroup tng) gs
      [(.startcodeRawdata, [.upto32bits 1 32, .ue 5]), (.startcodeMidhdr, [.se (-3)])]) ∧
    ∃ gs, List.Forall₂ (IsGroup pnw) gs [(.rawdata, [.upto8bits 6 8, .upto32bits 0 32])] := by
  obtain ⟨gs, hgs, -⟩ := hosts_write_bits.1 (fun _ => 0) (fun _ => 0)
    [(.startcodeRawdata, [.upto32bits 1 32, .ue 5]), (.startcodeMidhdr, [.se (-3)])]
    (cons_ne_nil _ _) (by simp [tng, HeaderWrite.Valid]) (by decide +kernel)
  obtain ⟨gs', hgs', -⟩ := hosts_write_bits.2 (fun _ => 0) (fun _ => 0)
    [(.rawdata, [.upto8bits 6 8, .upto32bits 0 32])]
    (cons_ne_nil _ _) (by simp [pnw, HeaderWrite.Valid]) (by decide +kernel)
  exact ⟨⟨gs, hgs⟩, gs', hgs'⟩

end HardwareIntel.Topaz
