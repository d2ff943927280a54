import HardwareIntel.Library.ByteFile
import HardwareIntel.Library.Tokens
import Mathlib

/-!
# The key value pairs of the audio parameters

`KeyValuePairs` of `audio-hal/utilities/parameter`: `add`, which reads `key=value;key=value`,
`addLiteral` and `toString`. A `std::string` is a list of bytes, which may contain zeros, and
`std::map<string, string>` is an `ExtTreeMap` with the lexicographic order of the bytes. A failed
assertion gives no result.

`add` copies the C string of its argument and takes it apart with `strtok_r` and `strtok`.
`Reference` is what it should read: the pieces between `;` that are not empty; of each of them the
piece before the first `=` and the next piece that is not empty; up to a piece without a key.
-/

namespace HardwareIntel.Parameter

open List Option

/-- `std::string`. -/
abbrev Text := List UInt8

/-- `mMap`. -/
abbrev Pairs := Std.ExtTreeMap Text Text

/-- `mPairDelimiter`, a semicolon. -/
def pairDelimiter : UInt8 := 59

/-- `mPairAssociator`, an equals sign. -/
def pairAssociator : UInt8 := 61

/-- The results of `add`: `OK`, `BAD_VALUE` and `ALREADY_EXISTS`. -/
inductive Status
  | ok | badValue | alreadyExists
  deriving DecidableEq

/-! ## `KeyValuePairs` -/

/-- `addLiteral`. -/
def addLiteral (m : Pairs) (key value : Text) : Status × Pairs :=
  (if key ∈ m then .alreadyExists else .ok, m.insert key value)

/-- The key and the value of a pair; the assertion is that there is a key. -/
def keyValue (pair : Text) : Option (Text × Text) :=
  if pairAssociator ∈ pair then
    match strtok pairAssociator pair with
    | none => none
    | some (key, context) =>
      match strtok pairAssociator context with
      | none => some (key, [])
      | some (value, _) => some (key, value)
  else some (pair, [])

/-- The number of bytes before the first `=`. -/
def strcspn (pair : Text) : ℕ := (pair.takeWhile (· ≠ pairAssociator)).length

/-- The loop of `add`: the pairs in what `strtok_r` has left. -/
def addPairs (m : Pairs) (status : Status) (context : Text) : Option (Status × Pairs) :=
  match _h : strtok pairDelimiter context with
  | none => some (status, m)
  | some (pair, context') =>
    if pair.length = 0 then addPairs m status context'
    else if pairAssociator ∈ pair ∧ strcspn pair = 0 then some (.badValue, m)
    else
      match keyValue pair with
      | none => none
      | some (key, value) =>
        let (res, m) := addLiteral m key value
        addPairs m (if res ≠ .ok then res else status) context'
termination_by context.length
decreasing_by all_goals exact (tokens_of_strtok _h).2

/-- `KeyValuePairs::add`. -/
def add (m : Pairs) (keyValuePairs : Text) : Option (Status × Pairs) :=
  addPairs m .ok (cString keyValuePairs)

/-- The constructor from a string, with the status of `add`. -/
def parse (keyValuePairs : Text) : Option (Status × Pairs) := add ∅ keyValuePairs

/-- `KeyValuePairs::toString`; the delimiter follows each key but the last one. -/
def toText (m : Pairs) : Text :=
  m.toList.flatMap fun p =>
    p.1 ++ pairAssociator :: p.2 ++
      if m.toList.getLast?.map (·.1) = some p.1 then [] else [pairDelimiter]

/-! ## What is read -/

namespace Reference

/-- The text before the first `=`. -/
def key (pair : Text) : Text := (pair.splitOn pairAssociator).headD []

/-- The next piece that is not empty, if there is one. -/
def value (pair : Text) : Text :=
  ((pair.splitOn pairAssociator).tail.filter (· ≠ [])).headD []

/-- The pairs of a text. -/
def pairs (s : Text) : List (Text × Text) :=
  (tokens pairDelimiter s).map fun pair => (key pair, value pair)

/-- The pairs before the first one without a key. -/
def valid (s : Text) : List (Text × Text) := (pairs s).takeWhile (·.1 ≠ [])

/-- A later pair overrides an earlier one. -/
def map (s : Text) : Pairs := Std.ExtTreeMap.ofList (valid s)

/-- There is a pair without a key. -/
def fails (s : Text) : Prop := ∃ p ∈ pairs s, p.1 = []

end Reference

/-- A map that can be printed: the keys are not empty, and neither keys nor values contain a
delimiter or a zero. -/
def Printable (m : Pairs) : Prop :=
  ∀ k v, m[k]? = some v → k ≠ [] ∧ ∀ c, c ∈ k ∨ c ∈ v →
    c ≠ pairDelimiter ∧ c ≠ pairAssociator ∧ c ≠ 0

/-! ## One pair -/

variable {pair : Text}

/-- The parts of a pair with an equals sign. -/
theorem exists_parts (h : pairAssociator ∈ pair) :
    ∃ k y, pair = k ++ pairAssociator :: y ∧ pairAssociator ∉ k ∧ strcspn pair = k.length ∧
      Reference.key pair = k ∧ Reference.value pair = (tokens pairAssociator y).headD [] := by
  obtain ⟨k, y, rfl, hk⟩ := eq_append_cons_of_mem h
  have hsplit := splitOn_append_cons_self_of_not_mem hk y
  refine ⟨k, y, rfl, hk, ?_, ?_, ?_⟩
  · rw [strcspn, takeWhile_append_cons hk]
  · rw [Reference.key, hsplit]
    rfl
  · rw [Reference.value, hsplit]
    rfl

/-- A pair that begins with an equals sign has no key. -/
theorem key_eq_nil (h : pairAssociator ∈ pair) (hzero : strcspn pair = 0) :
    Reference.key pair = [] := by
  obtain ⟨k, y, -, -, hlength, hkey, -⟩ := exists_parts h
  rw [hkey]
  exact eq_nil_of_length_eq_zero (hlength.symm.trans hzero)

/-- Another pair is read as it should be. -/
theorem keyValue_eq (hne : pair ≠ []) (h : ¬ (pairAssociator ∈ pair ∧ strcspn pair = 0)) :
    keyValue pair = some (Reference.key pair, Reference.value pair) ∧
      Reference.key pair ≠ [] := by
  by_cases hmem : pairAssociator ∈ pair
  · obtain ⟨k, y, rfl, hk, hlength, hkey, hvalue⟩ := exists_parts hmem
    have hk' : k ≠ [] := by
      rintro rfl
      exact h ⟨hmem, hlength⟩
    refine ⟨?_, by rw [hkey]; exact hk'⟩
    rw [keyValue, if_pos hmem, strtok_append_cons hk' hk, hkey, hvalue]
    have hfirst := map_fst_strtok pairAssociator y
    cases htok : strtok pairAssociator y with
    | none =>
      rw [headD_eq_head?_getD, ← hfirst]
      simp only [htok]
      rfl
    | some p =>
      rw [headD_eq_head?_getD, ← hfirst]
      simp only [htok]
      rfl
  · have hsplit := splitOn_eq_singleton hmem
    have hkey : Reference.key pair = pair := by
      rw [Reference.key, hsplit]
      rfl
    have hvalue : Reference.value pair = [] := by
      rw [Reference.value, hsplit]
      rfl
    rw [keyValue, if_neg hmem, hkey, hvalue]
    exact ⟨rfl, hne⟩

/-! ## All pairs -/

/-- The first pair of a text. -/
theorem pairs_of_strtok {context context' : Text}
    (h : strtok pairDelimiter context = some (pair, context')) :
    pair ≠ [] ∧ Reference.pairs context =
      (Reference.key pair, Reference.value pair) :: Reference.pairs context' := by
  have htokens := (tokens_of_strtok h).1
  refine ⟨(of_mem_tokens (htokens ▸ mem_cons_self)).1, ?_⟩
  rw [Reference.pairs, htokens]
  rfl

/-- What the loop makes of a map: the pairs before the first one without a key are inserted, and the
status tells of such a pair. -/
theorem addPairs_eq (m : Pairs) (status : Status) (hstatus : status ≠ .badValue) (context : Text) :
    ∃ status', addPairs m status context = some (status',
        (Reference.valid context).foldl (fun m p => m.insert p.1 p.2) m) ∧
      (status' = .badValue ↔ Reference.fails context) := by
  fun_induction addPairs m status context with
  | case1 m status context h =>
    have hpairs : Reference.pairs context = [] := by
      rw [Reference.pairs, tokens_of_strtok_eq_none h]
      rfl
    refine ⟨status, by rw [Reference.valid, hpairs]; rfl, ?_⟩
    simp [Reference.fails, hpairs, hstatus]
  | case2 m status context pair context' h hlength ih =>
    exact absurd (eq_nil_of_length_eq_zero hlength) (pairs_of_strtok h).1
  | case3 m status context pair context' h hlength hbad =>
    have hkey := key_eq_nil hbad.1 hbad.2
    have hpairs := (pairs_of_strtok h).2
    refine ⟨.badValue, by rw [Reference.valid, hpairs]; simp [hkey], ?_⟩
    simp [Reference.fails, hpairs, hkey]
  | case4 m status context pair context' h hlength hgood hnone =>
    rw [(keyValue_eq (pairs_of_strtok h).1 hgood).1] at hnone
    exact absurd hnone (some_ne_none _)
  | case5 m status context pair context' h hlength hgood key value hsome res m' hres ih =>
    obtain ⟨hne, hpairs⟩ := pairs_of_strtok h
    obtain ⟨hread, hkey⟩ := keyValue_eq hne hgood
    rw [hsome, some.injEq, Prod.mk.injEq] at hread
    obtain ⟨rfl, rfl⟩ := hread
    have hm : m' = m.insert (Reference.key pair) (Reference.value pair) :=
      congrArg Prod.snd hres.symm
    have hnext : (if res ≠ .ok then res else status) ≠ .badValue := by
      have hres' : res ≠ .badValue := by
        have hfst : (if Reference.key pair ∈ m then Status.alreadyExists else .ok) = res :=
          congrArg Prod.fst hres
        rw [← hfst]
        split_ifs <;> decide
      split_ifs
      · exact hres'
      · exact hstatus
    obtain ⟨status', heq, hfails⟩ := ih hnext
    have hvalid : Reference.valid context =
        (Reference.key pair, Reference.value pair) :: Reference.valid context' := by
      rw [Reference.valid, hpairs, takeWhile_cons_of_pos (by simpa using hkey)]
      rfl
    refine ⟨status', ?_, hfails.trans ?_⟩
    · rw [hvalid, foldl_cons, ← hm]
      exact heq
    · simp [Reference.fails, hpairs, hkey]

/-- `parse` reads the text before the first zero as it should. -/
theorem parse_eq (s : Text) : ∃ status, parse s = some (status, Reference.map (cString s)) ∧
    (status = .badValue ↔ Reference.fails (cString s)) := by
  obtain ⟨status, h, hfails⟩ := addPairs_eq ∅ .ok (by decide) (cString s)
  refine ⟨status, ?_, hfails⟩
  rw [parse, add, h, Reference.map, Std.ExtTreeMap.ofList_eq_foldl]

/-! ## What is in a map -/

/-- An entry of a map that is filled comes from the list or from before. -/
theorem getElem?_foldl_insert (l : List (Text × Text)) (m : Pairs) {k v : Text}
    (h : (l.foldl (fun m p => m.insert p.1 p.2) m)[k]? = some v) :
    (k, v) ∈ l ∨ m[k]? = some v := by
  induction l generalizing m with
  | nil => exact .inr h
  | cons p l ih =>
    rcases ih _ h with hmem | hm
    · exact .inl (mem_cons_of_mem _ hmem)
    · rw [Std.ExtTreeMap.getElem?_insert] at hm
      by_cases hp : compare p.1 k = .eq
      · rw [if_pos hp, some.injEq] at hm
        have hpair : p = (k, v) := Prod.ext (Std.LawfulEqCmp.eq_of_compare hp) hm
        exact .inl (hpair ▸ mem_cons_self)
      · rw [if_neg hp] at hm
        exact .inr hm

theorem mem_of_getElem?_ofList {l : List (Text × Text)} {k v : Text}
    (h : (Std.ExtTreeMap.ofList l : Pairs)[k]? = some v) : (k, v) ∈ l := by
  rw [Std.ExtTreeMap.ofList_eq_foldl] at h
  rcases getElem?_foldl_insert l ∅ h with h | h
  · exact h
  · rw [Std.ExtTreeMap.getElem?_empty] at h
    exact absurd h.symm (some_ne_none v)

/-- A map is what its entries make. -/
theorem ofList_toList (m : Pairs) : Std.ExtTreeMap.ofList m.toList = m := by
  refine Std.ExtTreeMap.ext_getElem? fun k => ?_
  cases h : m[k]? with
  | none =>
    refine eq_none_iff_forall_ne_some.mpr fun v hv => ?_
    have := Std.ExtTreeMap.mem_toList_iff_getElem?_eq_some.mp (mem_of_getElem?_ofList hv)
    rw [h] at this
    exact some_ne_none v this.symm
  | some v =>
    exact Std.ExtTreeMap.getElem?_ofList_of_mem Std.ReflCmp.compare_self
      Std.ExtTreeMap.distinct_keys_toList
      (Std.ExtTreeMap.mem_toList_iff_getElem?_eq_some.mpr h)

/-- The bytes of a key are bytes of its pair and no equals signs. -/
theorem of_mem_key {c : UInt8} (hc : c ∈ Reference.key pair) : c ∈ pair ∧ c ≠ pairAssociator := by
  obtain ⟨k, ks, hk⟩ := exists_cons_of_ne_nil (splitOn_ne_nil pairAssociator pair)
  have hmem : k ∈ pair.splitOn pairAssociator := by
    rw [hk]
    exact mem_cons_self
  rw [Reference.key, hk] at hc
  exact of_mem_splitOn hmem c hc

/-- The bytes of a value likewise. -/
theorem of_mem_value {c : UInt8} (hc : c ∈ Reference.value pair) :
    c ∈ pair ∧ c ≠ pairAssociator := by
  rw [Reference.value] at hc
  cases hvalue : (pair.splitOn pairAssociator).tail.filter (· ≠ []) with
  | nil =>
    rw [hvalue] at hc
    exact absurd hc not_mem_nil
  | cons v vs =>
    rw [hvalue] at hc
    have hv := mem_of_mem_filter (hvalue ▸ mem_cons_self : v ∈ _)
    exact of_mem_splitOn (mem_of_mem_tail hv) c hc

/-- What is read from a text without zeros can be printed. -/
theorem printable_map {s : Text} (hs : (0 : UInt8) ∉ s) : Printable (Reference.map s) := by
  intro k v h
  have hmem := mem_of_getElem?_ofList h
  have hk : k ≠ [] := by simpa using mem_takeWhile_imp hmem
  obtain ⟨pair, hpair, heq⟩ :=
    mem_map.mp ((takeWhile_sublist _).subset hmem)
  obtain ⟨rfl, rfl⟩ := Prod.mk.inj heq
  refine ⟨hk, fun c hc => ?_⟩
  have hc' : c ∈ pair ∧ c ≠ pairAssociator := hc.elim of_mem_key of_mem_value
  obtain ⟨hmem', hdelimiter⟩ := (of_mem_tokens hpair).2 c hc'.1
  exact ⟨hdelimiter, hc'.2, fun h => hs (h ▸ hmem')⟩

/-! ## What is printed -/

/-- A printed pair. -/
def pairText (p : Text × Text) : Text := p.1 ++ pairAssociator :: p.2

/-- The delimiters stand between the pairs. -/
theorem toText_eq (m : Pairs) : toText m = [pairDelimiter].intercalate (m.toList.map pairText) := by
  have hdistinct : (m.toList).Pairwise fun a b => a.1 ≠ b.1 :=
    Std.ExtTreeMap.distinct_keys_toList.imp fun hne heq =>
      hne (by rw [heq]; exact Std.ReflCmp.compare_self)
  rw [toText]
  generalize m.toList = l at hdistinct ⊢
  induction l with
  | nil => rfl
  | cons p l ih =>
    obtain ⟨hp, hl⟩ := pairwise_cons.mp hdistinct
    cases l with
    | nil => simp [pairText]
    | cons q l =>
      have hlast : (q :: l).getLast?.map (·.1) ≠ some p.1 := by
        intro h
        obtain ⟨r, hr, heq⟩ := map_eq_some_iff.mp h
        exact hp r (mem_of_getLast? hr) heq.symm
      rw [map_cons, map_cons, intercalate_cons_cons, ← map_cons, ← ih hl,
        flatMap_cons, List.getLast?_cons_cons, if_neg hlast]
      rfl

/-- A printed pair is read back. -/
theorem read_pairText {p : Text × Text} (hk : pairAssociator ∉ p.1) (hv : pairAssociator ∉ p.2) :
    (Reference.key (pairText p), Reference.value (pairText p)) = p := by
  have hsplit : (pairText p).splitOn pairAssociator = [p.1, p.2] := by
    rw [pairText, splitOn_append_cons_self_of_not_mem hk, splitOn_eq_singleton hv]
  rw [Reference.key, Reference.value, hsplit]
  by_cases hempty : p.2 = []
  · simp [hempty, Prod.ext_iff]
  · simp [hempty]

theorem pairs_toText {m : Pairs} (hm : Printable m) : Reference.pairs (toText m) = m.toList := by
  have hentry : ∀ p ∈ m.toList, p.1 ≠ [] ∧ ∀ c, c ∈ p.1 ∨ c ∈ p.2 →
      c ≠ pairDelimiter ∧ c ≠ pairAssociator ∧ c ≠ 0 := fun p hp =>
    hm p.1 p.2 (Std.ExtTreeMap.mem_toList_iff_getElem?_eq_some.mp hp)
  have htokens : tokens pairDelimiter (toText m) = m.toList.map pairText := by
    have hpieces : ∀ t ∈ m.toList.map pairText, t ≠ [] ∧ pairDelimiter ∉ t := by
      intro t ht
      obtain ⟨p, hp, rfl⟩ := List.mem_map.mp ht
      have hbytes := (hentry p hp).2
      refine ⟨List.append_ne_nil_of_right_ne_nil _ (List.cons_ne_nil _ _), fun hmem => ?_⟩
      rw [pairText, List.mem_append, List.mem_cons] at hmem
      rcases hmem with h | h | h
      · exact (hbytes _ (.inl h)).1 rfl
      · exact absurd h (by decide)
      · exact (hbytes _ (.inr h)).1 rfl
    rw [toText_eq]
    by_cases hnil : m.toList.map pairText = []
    · rw [hnil]
      exact tokens_nil _
    · rw [tokens, List.splitOn_intercalate _ (fun t ht => (hpieces t ht).2) hnil]
      exact List.filter_eq_self.mpr fun t ht => decide_eq_true (hpieces t ht).1
  rw [Reference.pairs, htokens, List.map_map]
  refine (List.map_congr_left fun p hp => ?_).trans (List.map_id _)
  have hbytes := (hentry p hp).2
  exact read_pairText (fun h => (hbytes _ (.inl h)).2.1 rfl) fun h => (hbytes _ (.inr h)).2.1 rfl

theorem zero_notMem_toText {m : Pairs} (hm : Printable m) : (0 : UInt8) ∉ toText m := by
  intro h
  obtain ⟨p, hp, hmem⟩ := mem_flatMap.mp h
  have hbytes := (hm p.1 p.2 (Std.ExtTreeMap.mem_toList_iff_getElem?_eq_some.mp hp)).2 0
  rw [mem_append, mem_append, mem_cons] at hmem
  rcases hmem with (h | h | h) | h
  · exact (hbytes (.inl h)).2.2 rfl
  · exact absurd h (by decide)
  · exact (hbytes (.inr h)).2.2 rfl
  · split_ifs at h
    · exact absurd h not_mem_nil
    · exact absurd h (by decide)

/-- What is printed is read back. -/
theorem parse_toText {m : Pairs} (hm : Printable m) :
    ∃ status, parse (toText m) = some (status, m) := by
  obtain ⟨status, h, -⟩ := parse_eq (toText m)
  have hzero : cString (toText m) = toText m :=
    takeWhile_eq_self_iff.mpr fun c hc =>
      decide_eq_true fun h => zero_notMem_toText hm (h ▸ hc)
  have hvalid : Reference.valid (toText m) = m.toList := by
    rw [Reference.valid, pairs_toText hm]
    refine takeWhile_eq_self_iff.mpr fun p hp => decide_eq_true ?_
    exact (hm p.1 p.2 (Std.ExtTreeMap.mem_toList_iff_getElem?_eq_some.mp hp)).1
  refine ⟨status, ?_⟩
  rw [h, hzero, Reference.map, hvalid, ofList_toList]

/-- The parser reads what comes before the first zero of its text, what it has read is printed so
that it is read again, and so is every map whose keys and values contain no delimiters and no
zeros. -/
theorem keyValuePairs_stable :
    (∀ s, ∃ status, parse s = some (status, Reference.map (cString s)) ∧
      (status = .badValue ↔ Reference.fails (cString s))) ∧
    (∀ s status m, parse s = some (status, m) → ∃ status', parse (toText m) = some (status', m)) ∧
    ∀ m, Printable m → ∃ status, parse (toText m) = some (status, m) := by
  refine ⟨parse_eq, fun s status m h => ?_, fun m => parse_toText⟩
  obtain ⟨status', h', -⟩ := parse_eq s
  rw [h', some.injEq, Prod.mk.injEq] at h
  obtain ⟨-, rfl⟩ := h
  exact parse_toText (printable_map (zero_notMem_cString s))

/-- The map of `";a=1;;b==2;a=3"` is printed and read again. -/
theorem keyValuePairs_stable_two :
    ∃ status,
      parse (toText (Reference.map [59, 97, 61, 49, 59, 59, 98, 61, 61, 50, 59, 97, 61, 51])) =
        some (status, Reference.map [59, 97, 61, 49, 59, 59, 98, 61, 61, 50, 59, 97, 61, 51]) :=
  have ⟨hparse, hprint, _⟩ := keyValuePairs_stable
  have ⟨status, h, _⟩ := hparse [59, 97, 61, 49, 59, 59, 98, 61, 61, 50, 59, 97, 61, 51]
  hprint _ status _ h

/-- Of `"a=1"`, a zero and `";b=2"`, the second pair is not read. -/
theorem not_read_after_zero : ¬ ∀ s, ∃ status, parse s = some (status, Reference.map s) := by
  intro hall
  obtain ⟨status, h⟩ := hall [97, 61, 49, 0, 59, 98, 61, 50]
  obtain ⟨status', h', -⟩ := parse_eq [97, 61, 49, 0, 59, 98, 61, 50]
  rw [h', some.injEq, Prod.mk.injEq] at h
  have hread : (Reference.map [97, 61, 49, 0, 59, 98, 61, 50])[([98] : Text)]? = some [50] :=
    Std.ExtTreeMap.getElem?_ofList_of_mem Std.ReflCmp.compare_self (by decide) (by decide)
  rw [← h.2] at hread
  exact absurd (mem_of_getElem?_ofList hread) (by decide)

end HardwareIntel.Parameter
