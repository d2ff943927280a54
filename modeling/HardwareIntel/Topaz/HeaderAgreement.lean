import HardwareIntel.Topaz.HeaderCapacity

/-!
# Both models of a header agree

`MtxHeader` is a list of elements and `HeaderParams` the memory of the TopazHP driver. Each writing
function leads from headers that agree to headers that agree as long as there is room for another
pointer, and so does every sequence of calls.
-/

namespace HardwareIntel.Topaz

open List

/-- The type as the driver numbers it. -/
def ElementType.host : ElementType → HeaderElementType
  | startcodeRawdata => .startcodeRawdata
  | startcodeMidhdr => .startcodeMidhdr
  | rawdata => .rawdata
  | qp => .qp
  | insertByteAlignH264 => .insertbytealignH264
  | customQuant => .customQuant

/-- The same types hold bits in both models. -/
theorem ElementType.isRawCode_host (t : ElementType) : tng.isRawCode (tng.code t.host) = t.isRaw := by
  cases t <;> decide

/-- What an element is in memory: its code and, if it holds bits, these bits. -/
def Element.view (e : Element) : ℕ × List Bool :=
  (tng.code e.type.host, if e.type.isRaw then e.raw else [])

/-- A call as the driver makes it. -/
def HeaderCall.host : HeaderCall ElementType → HeaderCall HeaderElementType
  | token type => .token type.host
  | write w => .write w

namespace MtxHeader

def call (m : MtxHeader) : HeaderCall ElementType → MtxHeader
  | .token type => m.insertElementToken type
  | .write w => m.writePieces w.pieces

def run (m : MtxHeader) (calls : List (HeaderCall ElementType)) : MtxHeader := calls.foldl call m

/-- The elements as they are in memory, the newest first. -/
def view (m : MtxHeader) : List (ℕ × List Bool) := m.elements.map Element.view

/-- The last element takes more bits if it is of raw data. -/
def Opened (m : MtxHeader) : Prop := ∀ e ∈ m.elements.head?, e.type.isRaw = true → e.Open

/-- The memory holds the elements of the list. -/
structure Agrees (m : MtxHeader) (h : HeaderParams) : Prop where
  at' : tng.At h m.view
  opened : m.Opened

/-- A new element behind the others. -/
theorem opened_newElement (m : MtxHeader) (type : ElementType) : (m.newElement type).Opened := by
  rintro e ⟨⟩ hraw
  exact ⟨hraw, Nat.zero_le _, fun hne => absurd rfl hne⟩

/-- A new element in view. -/
theorem view_newElement (m : MtxHeader) (type : ElementType) :
    (m.newElement type).view = (tng.code type.host, []) :: m.view := by
  rw [view, newElement, map_cons, Element.view]
  exact congrArg (fun l => (_, l) :: _) (ite_self _)

/-- An open element in view. -/
theorem view_of_raw {e : Element} (es : List Element) (stale : ℕ → ℕ → ℕ) (h : e.Open) :
    view ⟨e :: es, stale⟩ = (tng.code e.type.host, e.raw) :: es.map Element.view := by
  rw [view, map_cons, Element.view, if_pos h.raw]

/-- Bits fill the elements of the list as they fill those in memory. -/
theorem keeps_view (es : List (ℕ × List Bool)) : sink.Keeps fun b m => m.view = tng.fill es b ∧
    ∃ e es', m.elements = e :: es' ∧ e.Open where
  put := by
    rintro l ⟨elements, stale⟩ v k ⟨hview, e, es', helements, hopen⟩ hfull hv hfits
    obtain rfl : elements = e :: es' := helements
    obtain ⟨hraw, hopen', hsize, htype⟩ := hopen.put hfull hv hfits
    have hroom : e.raw.length + (bits k v).length ≤ 120 := by
      have hle := hopen'.size_le
      rwa [length_raw, length_bits, ← hsize]
    refine ⟨⟨?_, _, _, rfl, hopen'⟩, hsize⟩
    rw [fill_append, ← hview, view_of_raw es' stale hopen, fill_of_room hroom, ← hraw, ← htype]
    exact view_of_raw es' stale hopen'
  next := by
    rintro l ⟨elements, stale⟩ v k ⟨hview, e, es', helements, hopen⟩ hfull hk hk8 hv
    obtain rfl : elements = e :: es' := helements
    have hnew := opened_newElement ⟨e :: es', stale⟩ .rawdata _ rfl rfl
    obtain ⟨hraw, hopen', -, htype⟩ := hnew.put (fun hnot => by cases hnot.2) hv hk8
    refine ⟨?_, _, _, rfl, hopen'⟩
    rw [fill_append, ← hview, view_of_raw es' stale hopen,
      fill_of_full (hfull.2.trans_eq (length_raw e).symm)
        (ne_nil_of_length_pos (by rwa [length_bits])) (by rw [length_bits]; omega),
      ← view_of_raw es' stale hopen]
    refine (view_of_raw (e :: es') stale hopen').trans ?_
    rw [hraw, htype]
    rfl
  size_next _ _ := rfl

/-- The pieces of a value fill the last element of the list. -/
theorem view_writePieces {m : MtxHeader} {pieces : List (ℕ × ℕ)} (hm : m.Opened)
    (hw : Writable tng m.view) (hle : ∀ p ∈ pieces, p.2 ≤ 8) :
    (m.writePieces pieces).Opened ∧
      (m.writePieces pieces).view = tng.fill m.view (piecesBits pieces) := by
  induction pieces generalizing m with
  | nil => exact ⟨hm, rfl⟩
  | cons p pieces ih =>
    obtain ⟨hp, hrest⟩ := forall_mem_cons.mp hle
    obtain ⟨_ | ⟨e, es⟩, stale⟩ := m
    · exact absurd rfl hw.ne_nil
    obtain ⟨_, _, ⟨⟩, hraw⟩ := hw
    have hcall := (keeps_view (view ⟨e :: es, stale⟩)).write (l := []) (v := p.1)
      ⟨rfl, e, es, rfl, hm e rfl (e.type.isRawCode_host ▸ hraw)⟩ hp rfl
    rw [nil_append, ← writeUpto8bitsCalls_eq] at hcall
    obtain ⟨hview, e', es', helements, hopen⟩ := hcall
    have hopened : (writeUpto8bitsElements ⟨e :: es, stale⟩ p.1 p.2).Opened := by
      intro e'' he'' _
      rw [writeUpto8bitsElements, helements] at he''
      exact Option.some.inj he'' ▸ hopen
    rw [piecesBits_cons, fill_append, ← hview]
    exact ih hopened (hview ▸ Writable.fill coded_tng ⟨_, _, rfl, hraw⟩ _) hrest

section

variable {m : MtxHeader} {h : HeaderParams} (hm : m.Agrees h)
include hm

/-- A call that stays in the array of pointers leads to headers that agree. -/
theorem Agrees.call {c : HeaderCall ElementType} {calls : List (HeaderCall HeaderElementType)}
    (hfew : h.elements < maxNumberElements)
    (hproper : tng.Proper (shapeOf tng m.view).raw (c.host :: calls)) :
    (m.call c).Agrees (tng.call h c.host) ∧ tng.Proper (shapeOf tng (m.call c).view).raw calls := by
  obtain ⟨hleads, -, hproper'⟩ := hm.at'.call ⟨coded_tng, rfl, rfl⟩ hfew hproper
  obtain ⟨hopened, hview⟩ : (m.call c).Opened ∧ (m.call c).view = tng.layoutCall m.view c.host := by
    cases c with
    | token type =>
      have hlength : m.elements.length = h.elements + 1 := by
        rw [hm.at'.laid.elements, view, length_map]
      rw [MtxHeader.call, insertElementToken, if_neg (by omega)]
      exact ⟨m.opened_newElement type, m.view_newElement type⟩
    | write w => exact view_writePieces hm.opened (hm.at'.writable hproper.1) hproper.2.1.pieces_le
  rw [hview]
  exact ⟨⟨hview ▸ hleads.at', hopened⟩, hproper'⟩

/-- Calls that stay in the array of pointers lead to headers that agree. -/
theorem Agrees.run {calls : List (HeaderCall ElementType)} (hfew : h.elements < maxNumberElements)
    (hproper : tng.Proper (shapeOf tng m.view).raw (calls.map .host))
    (hstays : tng.Stays h (calls.map .host)) :
    (m.run calls).Agrees (tng.run h (calls.map .host)) := by
  induction calls generalizing m h with
  | nil => exact hm
  | cons c calls ih =>
    obtain ⟨hc, hproper'⟩ := hm.call hfew hproper
    exact ih hc hstays.1 hproper' hstays.2

end

/-- From the beginning of a header on, the memory holds the elements of the list. -/
theorem agrees_run (stale : ℕ → ℕ → ℕ) (memory : ℕ → UInt8) (pointers : ℕ → ℕ) {type : ElementType}
    {calls : List (HeaderCall ElementType)} (hproper : tng.Proper type.isRaw (calls.map .host))
    (hstays : tng.Stays (Host.start memory pointers) (.token type.host :: calls.map .host)) :
    (run ⟨[], stale⟩ (.token type :: calls)).Agrees
      (tng.run (Host.start memory pointers) (.token type.host :: calls.map .host)) := by
  have hfirst : (call ⟨[], stale⟩ (.token type)).Agrees
      (tng.call (Host.start memory pointers) (.token type.host)) :=
    ⟨(view_newElement ⟨[], stale⟩ type).symm ▸ at_start coded_tng type.host memory pointers,
      opened_newElement ⟨[], stale⟩ type⟩
  refine hfirst.run hstays.1 ?_ hstays.2
  rw [← type.isRawCode_host] at hproper
  exact hproper

end MtxHeader

end HardwareIntel.Topaz
