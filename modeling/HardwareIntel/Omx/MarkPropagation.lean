import HardwareIntel.Omx.Marks

/-!
# The marks and flags of a round

What a successful iteration of `ComponentBase::Work` does with the marks and EOS flags of its
buffers (`wrs_omxil_core/base/src/componentbase.cpp`). In a filter the mark of an input buffer comes
to the first output port, and the EOS flag to every output buffer, unless the input buffer is got
again; in a source each buffer without a mark gets the oldest one of its port. `marks_propagate`
says this for every state that is reached, and that no mark is lost or doubled in a run.

A mark that an input buffer already has stays in it while older marks wait in the queue of the port,
so the marks of a port need not leave in the order in which they came in.
-/

namespace HardwareIntel.Omx

open List Option Function

variable {n : ℕ} {H C D : Type} [DecidableEq H] [DecidableEq C] [DecidableEq D]
  {setup : Setup n H} {handle : C} {s t : MarkedBuffers n H C D}

/-! ## Marks in a filter -/

/-- The first output port. -/
def Setup.firstOutput (setup : Setup n H) : Option (Fin n) :=
  (List.finRange n).find? fun j => setup.direction j = .output

namespace MarkedBuffers

variable {b c d : H} {m : Mark C D} {r : Processed n H} {i j₀ : Fin n}

omit [DecidableEq H] [DecidableEq D] in
/-- The mark of a header, if its target is another component. -/
def foreignMark (handle : C) (s : MarkedBuffers n H C D) (b : H) : Option (Mark C D) :=
  (s.mark b).filter fun m => decide (m.hMarkTargetComponent ≠ handle)

omit [DecidableEq H] [DecidableEq D] in
theorem foreignMark_eq_some :
    s.foreignMark handle b = some m ↔
      s.mark b = some m ∧ m.hMarkTargetComponent ≠ handle := by
  rw [foreignMark, filter_eq_some_iff, decide_eq_true_iff]

omit [DecidableEq H] [DecidableEq D] in
theorem foreignMark_congr (h : t.mark b = s.mark b) :
    t.foreignMark handle b = s.foreignMark handle b := by
  rw [foreignMark, foreignMark, h]

omit [DecidableEq C] [DecidableEq D] in
@[simp] theorem entered_popMark (s : MarkedBuffers n H C D) (p : Fin n) (b : H) :
    (s.popMark p b).entered = s.entered := by
  unfold popMark
  split <;> rfl

omit [DecidableEq C] [DecidableEq D] in
theorem mark_popMark_of_ne (h : d ≠ b) (p : Fin n) : (s.popMark p b).mark d = s.mark d := by
  unfold popMark
  split
  · rfl
  · exact update_of_ne h ..

section

omit [DecidableEq D]

theorem propagateMark_of_none (h : s.foreignMark handle b = none) (j : Fin n) (c : Option H) :
    s.propagateMark handle b j c = some s := by
  unfold propagateMark
  split
  · rfl
  · rename_i m hm
    rw [if_pos]
    by_contra hother
    rw [foreignMark_eq_some.mpr ⟨hm, hother⟩] at h
    cases h

theorem exists_of_propagateMark (hm : s.foreignMark handle b = some m) {j : Fin n} {x : Option H}
    (hstep : s.propagateMark handle b j x = some t) : ∃ c, x = some c := by
  obtain ⟨hmark, hother⟩ := foreignMark_eq_some.mp hm
  cases x with
  | none => simp [propagateMark, hmark, hother] at hstep
  | some c => exact ⟨c, rfl⟩

/-- A mark for another component comes to the queue of the output port. -/
theorem of_propagateMark (hbc : b ≠ c) (hm : s.foreignMark handle b = some m) {j : Fin n}
    (hstep : s.propagateMark handle b j (some c) = some t) :
    t.entered = Function.update s.entered j (s.entered j ++ [m]) ∧
      t.mark b = none ∧ ∀ d, d ≠ b → d ≠ c → t.mark d = s.mark d := by
  obtain ⟨hmark, hother⟩ := foreignMark_eq_some.mp hm
  rw [propagateMark_eq hbc hmark hother, some.injEq] at hstep
  have hqueued : ∀ d, d ≠ b → ((s.pushMark j m).clearMark b).mark d = s.mark d :=
    fun d hd => update_of_ne hd ..
  split at hstep
  · subst hstep
    exact ⟨rfl, update_self .., fun d hd _ => hqueued d hd⟩
  · subst hstep
    refine ⟨entered_popMark .., ?_, fun d hd hdc => ?_⟩
    · rw [mark_popMark_of_ne hbc]
      exact update_self ..
    · rw [mark_popMark_of_ne hdc, hqueued d hd]

theorem foldlM_propagateTo_of_none (hb : r.hdr i = some b) (h : s.foreignMark handle b = none)
    (l : List (Fin n)) : l.foldlM (propagateTo setup handle r i) s = some s := by
  induction l with
  | nil => rfl
  | cons j l ih =>
    have hj : s.propagateTo setup handle r i j = some s := by
      unfold propagateTo
      split
      · rfl
      · rw [hb, bind_some, propagateMark_of_none h]
    rw [foldlM_cons, hj]
    exact ih

theorem foldlM_propagateTo_of_input {l : List (Fin n)}
    (hl : ∀ j ∈ l, setup.direction j = .input) (s : MarkedBuffers n H C D) :
    l.foldlM (propagateTo setup handle r i) s = some s := by
  induction l with
  | nil => rfl
  | cons j l ih =>
    have hj : s.propagateTo setup handle r i j = some s := by
      rw [propagateTo, hl j (mem_cons_self ..)]
    rw [foldlM_cons, hj]
    exact ih fun k hk => hl k (mem_cons_of_mem _ hk)

end

omit [DecidableEq D] in
section

variable (hj₀ : setup.firstOutput = some j₀)
include hj₀

/-- The inner loop is at work for the first output port only. -/
theorem exists_propagateMark (hi : setup.direction i = .input) (hdistinct : Distinct r)
    (hrun : s.propagateFrom setup handle r i = some t) :
    ∃ b, r.hdr i = some b ∧ s.propagateMark handle b j₀ (r.hdr j₀) = some t := by
  obtain ⟨houtput, as, bs, hsplit, has⟩ := List.find?_eq_some_iff_append.mp hj₀
  have houtput : setup.direction j₀ = .output := of_decide_eq_true houtput
  have hinputs : ∀ j ∈ as, setup.direction j = .input := by
    intro j hj
    have hne := has j hj
    cases hdir : setup.direction j with
    | input => rfl
    | output => simp [hdir] at hne
  rw [propagateFrom, hi, hsplit] at hrun
  rw [foldlM_append, foldlM_propagateTo_of_input hinputs, bind_eq_bind,
    bind_some, foldlM_cons] at hrun
  obtain ⟨u, hu, hrest⟩ := bind_eq_some_iff.mp hrun
  rw [propagateTo, houtput] at hu
  obtain ⟨b, hb, hu⟩ := bind_eq_some_iff.mp hu
  refine ⟨b, hb, ?_⟩
  have hnone : u.foreignMark handle b = none := by
    cases hm : s.foreignMark handle b with
    | none =>
      rw [propagateMark_of_none hm] at hu
      exact some.inj hu ▸ hm
    | some m =>
      obtain ⟨c, hc⟩ := exists_of_propagateMark hm hu
      rw [hc] at hu
      have hbc := hdistinct.ne_of_direction hi houtput hb hc
      rw [foreignMark, (of_propagateMark hbc hm hu).2.1, filter_none]
  rw [foldlM_propagateTo_of_none hb hnone] at hrest
  exact some.inj hrest ▸ hu

omit [DecidableEq D] in
/-- An input port passes on the mark of its buffer, if the target is another component. -/
theorem of_propagateFrom (hi : setup.direction i = .input) (hdistinct : Distinct r)
    (hrun : s.propagateFrom setup handle r i = some t) :
    ∃ b, r.hdr i = some b ∧
      (∀ p, t.entered p =
        s.entered p ++ if p = j₀ then (s.foreignMark handle b).toList else []) ∧
      t.foreignMark handle b = none ∧
      ∀ d, d ≠ b → r.hdr j₀ ≠ some d → t.mark d = s.mark d := by
  have houtput : setup.direction j₀ = .output :=
    of_decide_eq_true (List.find?_eq_some_iff_append.mp hj₀).1
  obtain ⟨b, hb, hpropagate⟩ := exists_propagateMark hj₀ hi hdistinct hrun
  refine ⟨b, hb, ?_⟩
  cases hm : s.foreignMark handle b with
  | none =>
    rw [propagateMark_of_none hm] at hpropagate
    obtain rfl := some.inj hpropagate
    exact ⟨fun p => by simp, hm, fun _ _ _ => rfl⟩
  | some m =>
    obtain ⟨c, hc⟩ := exists_of_propagateMark hm hpropagate
    rw [hc] at hpropagate
    have hbc := hdistinct.ne_of_direction hi houtput hb hc
    obtain ⟨hentered, hcleared, hother⟩ := of_propagateMark hbc hm hpropagate
    refine ⟨fun p => ?_, by rw [foreignMark, hcleared, filter_none], fun d hd hdc => ?_⟩
    · rw [hentered]
      by_cases hp : p = j₀
      · subst hp
        simp
      · simp [hp]
    · refine hother d hd ?_
      rintro rfl
      exact hdc hc

omit [DecidableEq H] [DecidableEq D] in
/-- The mark that an input port has for another component. -/
def inputMark (setup : Setup n H) (handle : C) (r : Processed n H) (s : MarkedBuffers n H C D)
    (i : Fin n) : Option (Mark C D) :=
  match setup.direction i with
  | .output => none
  | .input => (r.hdr i).bind (s.foreignMark handle)

omit [DecidableEq D] in
/-- The loop over the ports: the marks of the input buffers come to the first output port in the
order of the ports, and none of them stays. -/
theorem of_foldlM_propagateFrom (hdistinct : Distinct r) {l : List (Fin n)} (hl : l.Nodup)
    (hrun : l.foldlM (propagateFrom setup handle r) s = some t) :
    (∀ p, t.entered p =
      s.entered p ++ if p = j₀ then l.filterMap (s.inputMark setup handle r) else []) ∧
    (∀ i ∈ l, setup.direction i = .input → ∀ b, r.hdr i = some b →
      t.foreignMark handle b = none) ∧
    ∀ d, (∀ i ∈ l, setup.direction i = .input → r.hdr i ≠ some d) → r.hdr j₀ ≠ some d →
      t.mark d = s.mark d := by
  have houtput : setup.direction j₀ = .output :=
    of_decide_eq_true (List.find?_eq_some_iff_append.mp hj₀).1
  induction l generalizing s with
  | nil =>
    obtain rfl := some.inj hrun
    simp
  | cons i l ih =>
    obtain ⟨hnotMem, hl⟩ := nodup_cons.mp hl
    obtain ⟨u, hu, hrest⟩ := bind_eq_some_iff.mp hrun
    obtain ⟨hentered, hnone, hmark⟩ := ih hl hrest
    cases hi : setup.direction i with
    | output =>
      rw [propagateFrom, hi] at hu
      obtain rfl := some.inj hu
      have hskip : s.inputMark setup handle r i = none := by rw [inputMark, hi]
      refine ⟨fun p => ?_, fun k hk hinput => ?_, fun d hd => ?_⟩
      · rw [hentered p, filterMap_cons_none hskip]
      · rcases mem_cons.mp hk with rfl | hk
        · rw [hi] at hinput
          cases hinput
        · exact hnone k hk hinput
      · exact hmark d fun k hk => hd k (mem_cons_of_mem _ hk)
    | input =>
      obtain ⟨b, hb, huentered, hunone, humark⟩ := of_propagateFrom hj₀ hi hdistinct hu
      have hbnot : ∀ k ∈ l, setup.direction k = .input → r.hdr k ≠ some b := by
        intro k hk _ hkb
        exact hnotMem (hdistinct i k b hb hkb ▸ hk)
      have hbj₀ : r.hdr j₀ ≠ some b := fun hc =>
        hdistinct.ne_of_direction hi houtput hb hc rfl
      have hsame : ∀ k ∈ l, u.inputMark setup handle r k = s.inputMark setup handle r k := by
        intro k hk
        unfold inputMark
        split
        · rfl
        · rename_i hinput
          cases hc : r.hdr k with
          | none => rfl
          | some c =>
            refine foreignMark_congr (humark c ?_ fun hj => ?_)
            · rintro rfl
              exact hbnot k hk hinput hc
            · exact hdistinct.ne_of_direction hinput houtput hc hj rfl
      have hfirst : s.inputMark setup handle r i = s.foreignMark handle b := by
        rw [inputMark, hi]
        exact congrArg (·.bind (s.foreignMark handle)) hb
      refine ⟨fun p => ?_, fun k hk hinput c hc => ?_, fun d hd hdj₀ => ?_⟩
      · rw [hentered p, huentered p, filterMap_congr hsame]
        by_cases hp : p = j₀
        · simp only [if_pos hp, append_assoc, filterMap_cons, hfirst]
          cases s.foreignMark handle b <;> rfl
        · simp [hp]
      · rcases mem_cons.mp hk with rfl | hk
        · rw [hb, some.injEq] at hc
          rw [← hc, foreignMark_congr (hmark b hbnot hbj₀), hunone]
        · exact hnone k hk hinput c hc
      · rw [hmark d (fun k hk => hd k (mem_cons_of_mem _ hk)) hdj₀]
        refine humark d ?_ hdj₀
        rintro rfl
        exact hd i (mem_cons_self ..) hi hb

end

/-! ## Marks in a source -/

section

omit [DecidableEq C] [DecidableEq D]

theorem attached_popMark (s : MarkedBuffers n H C D) (p i : Fin n) (b : H) :
    (s.popMark p b).attached i =
      s.attached i ++ if i = p then (s.markq p).head?.toList else [] := by
  unfold popMark
  split
  · rename_i hq
    simp [hq]
  · rename_i m q hq
    by_cases hi : i = p
    · subst hi
      simp [hq]
    · simp [hi]

theorem markq_popMark_of_ne {p i : Fin n} (h : i ≠ p) (s : MarkedBuffers n H C D) (b : H) :
    (s.popMark p b).markq i = s.markq i := by
  unfold popMark
  split
  · rfl
  · exact update_of_ne h ..

theorem mark_popMark (s : MarkedBuffers n H C D) (p : Fin n) (h : s.mark b = none) :
    (s.popMark p b).mark b = (s.markq p).head? := by
  unfold popMark
  split
  · rename_i hq
    rw [hq, h, List.head?_nil]
  · rename_i hq
    rw [hq, List.head?_cons]
    exact update_self ..

/-- The other ports and headers stay as they are. -/
theorem of_markFrom (hrun : s.markFrom r i = some t) :
    ∃ b, r.hdr i = some b ∧
      (∀ k, t.attached k = s.attached k ++
        if k = i ∧ s.mark b = none then (s.markq i).head?.toList else []) ∧
      (∀ k, k ≠ i → t.markq k = s.markq k) ∧ ∀ d, d ≠ b → t.mark d = s.mark d := by
  obtain ⟨b, hb, rfl⟩ := map_eq_some_iff.mp hrun
  refine ⟨b, hb, ?_⟩
  split
  · rename_i hm
    exact ⟨fun k => by simp [hm], fun _ _ => rfl, fun _ _ => rfl⟩
  · rename_i hm
    exact ⟨fun k => by simp [attached_popMark, hm], fun k hk => markq_popMark_of_ne hk s b,
      fun d hd => mark_popMark_of_ne hd i⟩

/-- The loop over the ports: each buffer without a mark gets the oldest one of its port. -/
theorem of_foldlM_markFrom (hdistinct : Distinct r) {l : List (Fin n)} (hl : l.Nodup)
    (hrun : l.foldlM (markFrom r) s = some t) :
    (∀ i ∈ l, ∀ b, r.hdr i = some b → t.attached i =
      s.attached i ++ if s.mark b = none then (s.markq i).head?.toList else []) ∧
    ∀ i ∉ l, t.attached i = s.attached i := by
  induction l generalizing s with
  | nil =>
    obtain rfl := some.inj hrun
    simp
  | cons i l ih =>
    obtain ⟨hnotMem, hl⟩ := nodup_cons.mp hl
    obtain ⟨u, hu, hrest⟩ := bind_eq_some_iff.mp hrun
    obtain ⟨hin, hout⟩ := ih hl hrest
    obtain ⟨b, hb, hattached, hmarkq, hmark⟩ := of_markFrom hu
    constructor
    · intro k hk c hc
      rcases mem_cons.mp hk with rfl | hkl
      · obtain rfl : b = c := some.inj (hb.symm.trans hc)
        rw [hout k hnotMem, hattached k]
        simp
      · have hki : k ≠ i := by
          rintro rfl
          exact hnotMem hkl
        have hcb : c ≠ b := by
          rintro rfl
          exact hki (hdistinct k i c hc hb)
        rw [hin k hkl c hc, hattached k, hmarkq k hki, hmark c hcb]
        simp [hki]
    · intro k hk
      rw [mem_cons, not_or] at hk
      rw [hout k hk.2, hattached k]
      simp [hk.1]

end

end MarkedBuffers

/-! ## The EOS flag in a filter -/

section Eos

variable {r : Processed n H} {i : Fin n} {b c : H} {eos eos' : H → Bool}

/-- The body of the inner loop of `filterPostProcessBuffers`, for the input buffer `b`. -/
def propagateEosTo (setup : Setup n H) (r : Processed n H) (b : H) (eos : H → Bool) (j : Fin n) :
    Option (H → Bool) :=
  if setup.direction j = .output ∧ eos b = true then
    (r.hdr j).map fun c => Function.update eos c true
  else some eos

/-- The body of its outer loop. -/
def propagateEos (setup : Setup n H) (r : Processed n H) (eos : H → Bool) (i : Fin n) :
    Option (H → Bool) :=
  match setup.direction i with
  | .output => some eos
  | .input => (r.hdr i).bind fun b =>
    if r.retain i = .getAgain then some eos
    else ((List.finRange n).foldlM (propagateEosTo setup r b) eos).map
      fun eos => Function.update eos b false

omit [DecidableEq C] [DecidableEq D] in
theorem filterPostProcessBuffers_eq (setup : Setup n H) (r : Processed n H) :
    filterPostProcessBuffers setup r =
      (List.finRange n).foldlM (propagateEos setup r) r.eos :=
  rfl

/-- The buffers of all output ports have the flag. -/
def Flagged (setup : Setup n H) (r : Processed n H) (eos : H → Bool) : Prop :=
  ∀ j, setup.direction j = .output → ∃ c, r.hdr j = some c ∧ eos c = true

/-- The inner loop clears no flag. -/
theorem eos_of_propagateEosTo {j : Fin n} (hrun : propagateEosTo setup r b eos j = some eos')
    (hc : eos c = true) : eos' c = true := by
  unfold propagateEosTo at hrun
  split at hrun
  · obtain ⟨d, _, rfl⟩ := map_eq_some_iff.mp hrun
    by_cases hcd : c = d
    · subst hcd
      exact update_self ..
    · rw [update_of_ne hcd, hc]
  · exact some.inj hrun ▸ hc

theorem eos_of_foldlM_propagateEosTo {l : List (Fin n)}
    (hrun : l.foldlM (propagateEosTo setup r b) eos = some eos') (hc : eos c = true) :
    eos' c = true :=
  foldlM_keeps (I := fun e : H → Bool => e c = true)
    (fun _ _ _ he hstep => eos_of_propagateEosTo hstep he) hc hrun

/-- The inner loop passes the flag of the input buffer to all output buffers. -/
theorem flagged_of_foldlM_propagateEosTo
    (hrun : (List.finRange n).foldlM (propagateEosTo setup r b) eos = some eos')
    (hb : eos b = true) : Flagged setup r eos' := by
  intro j hj
  obtain ⟨as, bs, hsplit⟩ := append_of_mem (mem_finRange j)
  rw [hsplit, foldlM_append] at hrun
  obtain ⟨e, he, hrest⟩ := bind_eq_some_iff.mp hrun
  obtain ⟨e', he', hrest⟩ := bind_eq_some_iff.mp hrest
  rw [propagateEosTo, if_pos ⟨hj, eos_of_foldlM_propagateEosTo he hb⟩] at he'
  obtain ⟨c, hc, rfl⟩ := map_eq_some_iff.mp he'
  exact ⟨c, hc, eos_of_foldlM_propagateEosTo hrest (update_self ..)⟩

/-- The outer loop clears no flag of an output buffer. -/
theorem Flagged.propagateEos (h : Flagged setup r eos) (hdistinct : MarkedBuffers.Distinct r)
    (hrun : propagateEos setup r eos i = some eos') : Flagged setup r eos' := by
  unfold Omx.propagateEos at hrun
  split at hrun
  · exact some.inj hrun ▸ h
  · rename_i hi
    obtain ⟨b, hb, hrun⟩ := bind_eq_some_iff.mp hrun
    split at hrun
    · exact some.inj hrun ▸ h
    · obtain ⟨e, he, rfl⟩ := map_eq_some_iff.mp hrun
      intro j hj
      obtain ⟨c, hc, hflag⟩ := h j hj
      refine ⟨c, hc, ?_⟩
      rw [update_of_ne (hdistinct.ne_of_direction hi hj hb hc).symm]
      exact eos_of_foldlM_propagateEosTo he hflag

/-- The iteration of an input port, whose buffer is not got again, passes on the flag. -/
theorem flagged_of_propagateEos (hdistinct : MarkedBuffers.Distinct r)
    (hi : setup.direction i = .input) (hb : r.hdr i = some b) (hretain : r.retain i ≠ .getAgain)
    (hflag : eos b = true) (hrun : propagateEos setup r eos i = some eos') :
    Flagged setup r eos' := by
  rw [Omx.propagateEos, hi] at hrun
  simp only [hb, bind_some, if_neg hretain] at hrun
  obtain ⟨e, he, rfl⟩ := map_eq_some_iff.mp hrun
  intro j hj
  obtain ⟨c, hc, hflag⟩ := flagged_of_foldlM_propagateEosTo he hflag j hj
  refine ⟨c, hc, ?_⟩
  rw [update_of_ne (hdistinct.ne_of_direction hi hj hb hc).symm, hflag]

/-- The other iterations leave the flag of an input buffer. -/
theorem eos_of_propagateEos {k : Fin n} (hki : k ≠ i) (hdistinct : MarkedBuffers.Distinct r)
    (hb : r.hdr i = some b) (hflag : eos b = true)
    (hrun : propagateEos setup r eos k = some eos') : eos' b = true := by
  unfold Omx.propagateEos at hrun
  split at hrun
  · exact some.inj hrun ▸ hflag
  · obtain ⟨d, hd, hrun⟩ := bind_eq_some_iff.mp hrun
    split at hrun
    · exact some.inj hrun ▸ hflag
    · obtain ⟨e, he, rfl⟩ := map_eq_some_iff.mp hrun
      have hbd : b ≠ d := by
        rintro rfl
        exact hki (hdistinct k i b hd hb)
      rw [update_of_ne hbd]
      exact eos_of_foldlM_propagateEosTo he hflag

/-- An input buffer with the EOS flag that is not got again gives it to every output buffer. -/
theorem flagged_of_filterPostProcessBuffers (hdistinct : MarkedBuffers.Distinct r)
    (hi : setup.direction i = .input) (hb : r.hdr i = some b) (hretain : r.retain i ≠ .getAgain)
    (hflag : r.eos b = true) (hrun : filterPostProcessBuffers setup r = some eos') :
    Flagged setup r eos' := by
  rw [filterPostProcessBuffers_eq] at hrun
  -- the flag waits in the input buffer until its port has passed it on
  have hkeep : ∀ e k e', (e b = true ∨ Flagged setup r e) → propagateEos setup r e k = some e' →
      (e' b = true ∨ Flagged setup r e') ∧ (k = i → Flagged setup r e') := by
    intro e k e' he hstep
    by_cases hki : k = i
    · subst hki
      have hflagged : Flagged setup r e' := he.elim
        (fun he => flagged_of_propagateEos hdistinct hi hb hretain he hstep)
        (fun he => he.propagateEos hdistinct hstep)
      exact ⟨.inr hflagged, fun _ => hflagged⟩
    · refine ⟨he.imp (fun he => ?_) (fun he => he.propagateEos hdistinct hstep),
        fun h => absurd h hki⟩
      exact eos_of_propagateEos hki hdistinct hb he hstep
  obtain ⟨as, bs, hsplit⟩ := append_of_mem (mem_finRange i)
  rw [hsplit, foldlM_append] at hrun
  obtain ⟨e, he, hrest⟩ := bind_eq_some_iff.mp hrun
  obtain ⟨e', he', hrest⟩ := bind_eq_some_iff.mp hrest
  have hwaits : e b = true ∨ Flagged setup r e :=
    foldlM_keeps (I := fun e => e b = true ∨ Flagged setup r e)
      (fun e k e' h hstep => (hkeep e k e' h hstep).1) (.inl hflag) he
  exact foldlM_keeps (fun _ _ _ h hstep => Flagged.propagateEos h hdistinct hstep)
    ((hkeep e i e' hwaits he').2 rfl) hrest

end Eos

/-! ## Propagation -/

/-- What a successful round of a component that is no encoder does. In a filter the flag of an input
buffer that is not got again comes to every output buffer, the marks of the input buffers for
another component come to the first output port, and none of them stays. In a source each buffer
without a mark gets the oldest one of its port. -/
structure Propagated (setup : Setup n H) (handle : C) (r : Processed n H)
    (s t : MarkedBuffers n H C D) : Prop where
  eos : ∀ i j b, setup.direction i = .input → setup.direction j = .output → r.hdr i = some b →
    r.retain i ≠ .getAgain → r.eos b = true → ∃ c, r.hdr j = some c ∧ t.buffers.eos c = true
  entered : ∀ i j₀, setup.direction i = .input → setup.firstOutput = some j₀ → ∀ p,
    t.entered p =
      s.entered p ++ if p = j₀ then (List.finRange n).filterMap (s.inputMark setup handle r) else []
  passed : ∀ i j b, setup.direction i = .input → setup.direction j = .output →
    r.hdr i = some b → t.foreignMark handle b = none
  attached : (∀ i, setup.direction i = .output) → ∀ i b, r.hdr i = some b → t.attached i =
    s.attached i ++ if s.mark b = none then (s.markq i).head?.toList else []

omit [DecidableEq H] [DecidableEq C] [DecidableEq D] in
theorem exists_firstOutput {j : Fin n} (hj : setup.direction j = .output) :
    ∃ j₀, setup.firstOutput = some j₀ := by
  refine isSome_iff_exists.mp (List.find?_isSome.mpr ⟨j, mem_finRange j, ?_⟩)
  exact decide_eq_true hj

omit [DecidableEq D] in
/-- The marks of a round. -/
theorem Propagated.of_round {r : Processed n H} (hok : r.ok = true)
    (hencoder : setup.videoEncoder = false) (hdistinct : MarkedBuffers.Distinct r)
    {u : MarkedBuffers n H C D} {x : Buffers n H}
    (hmarks : s.postProcessMarks setup handle r = some u)
    (heos : postProcessBuffers setup r = some x.eos) :
    Propagated setup handle r s { u.returnMarks handle s.buffers x with buffers := x } := by
  have hmixed : ∀ {i j}, setup.direction i = .input → setup.direction j = .output →
      (¬∀ i, setup.direction i = .output) ∧ ¬∀ i, setup.direction i = .input := by
    intro i j hi hj
    refine ⟨fun h => ?_, fun h => ?_⟩
    · rw [h i] at hi
      cases hi
    · rw [h j] at hj
      cases hj
  have hwork : ¬(r.ok = false ∨ setup.videoEncoder = true) := by simp [hok, hencoder]
  have hfilter : ∀ {i j}, setup.direction i = .input → setup.direction j = .output →
      s.filterPostProcessMarks setup handle r = some u := by
    intro i j hi hj
    rwa [MarkedBuffers.postProcessMarks, if_neg hwork, if_neg (hmixed hi hj).1,
      if_neg (hmixed hi hj).2] at hmarks
  constructor
  · intro i j b hi hj hb hretain hflag
    rw [postProcessBuffers, hencoder, if_neg (hmixed hi hj).1, if_neg (hmixed hi hj).2] at heos
    exact flagged_of_filterPostProcessBuffers hdistinct hi hb hretain hflag heos j hj
  · intro i j₀ hi hj₀ p
    have hj : setup.direction j₀ = .output :=
      of_decide_eq_true (List.find?_eq_some_iff_append.mp hj₀).1
    obtain ⟨hentered, _⟩ := MarkedBuffers.of_foldlM_propagateFrom hj₀ hdistinct
      (nodup_finRange n) (hfilter hi hj)
    rw [← hentered p]
    exact congrFun (MarkedBuffers.entered_foldl_returnMark _ u) p
  · intro i j b hi hj hb
    obtain ⟨j₀, hj₀⟩ := exists_firstOutput hj
    obtain ⟨_, hnone, _⟩ := MarkedBuffers.of_foldlM_propagateFrom hj₀ hdistinct
      (nodup_finRange n) (hfilter hi hj)
    have hu := hnone i (mem_finRange i) hi b hb
    rw [eq_none_iff_forall_ne_some] at hu ⊢
    intro m hm
    obtain ⟨hmark, hother⟩ := MarkedBuffers.foreignMark_eq_some.mp hm
    refine hu m (MarkedBuffers.foreignMark_eq_some.mpr ⟨?_, hother⟩)
    exact MarkedBuffers.mark_of_foldl_returnMark hmark
  · intro houtput i b hb
    rw [MarkedBuffers.postProcessMarks, if_neg hwork, if_pos houtput] at hmarks
    obtain ⟨hattached, _⟩ :=
      MarkedBuffers.of_foldlM_markFrom hdistinct (nodup_finRange n) hmarks
    rw [← hattached i (mem_finRange i) b hb]
    exact congrFun (MarkedBuffers.attached_foldl_returnMark _ u) i

/-- For every component, in every state reached by steps that lose no buffer: each mark that came in
is in the queue of a port, in a header that the component has, in a header that was returned and has
another component as target, or was reported and has the component as target; the marks of a port
leave its queue in the order in which they came to it; an input buffer without a mark gets the
oldest one of its port when it is handed in; and a successful round of a component that is no
encoder propagates the marks and the EOS flags. -/
theorem marks_propagate {enabled : Fin n → Bool} {count : Fin n → ℕ} {eos : H → Bool}
    {state : OmxState} {mark : H → Option (Mark C D)}
    (hrun : Reach (markStep setup handle) (fun s x => keepsMarks setup s x = true)
      (.new (.new enabled count eos state) mark) s) :
    s.Tallied handle ∧ (∀ b, s.inside.count b = ∑ p, (s.buffers.ports p).held b) ∧
    (∀ b eos p carried t, accepts s.buffers (setup.nInputPortIndex b) = some p →
      markStep setup handle s (.step (.emptyThisBuffer b eos) carried) = some t →
      t.mark b = carried.or (s.markq p).head? ∧ t.attached p =
        s.attached p ++ if carried = none then (s.markq p).head?.toList else []) ∧
    ∀ r carried t, r.ok = true → setup.videoEncoder = false →
      keepsMarks setup s (.step (.distributeBuffers r) carried) = true →
      markStep setup handle s (.step (.distributeBuffers r) carried) = some t →
      Propagated setup handle r s t := by
  have hconserved : MarksConserved setup handle s :=
    hrun.invariant (marksConserved_new enabled count eos state mark)
      fun _ _ _ ha hx hb => ha.markStep hx hb
  refine ⟨hconserved.tallied, hconserved.inside, ?_, ?_⟩
  · intro b eos p carried t haccepts hstep
    obtain rfl := some.inj hstep
    rw [haccepts]
    cases carried with
    | none =>
      refine ⟨MarkedBuffers.mark_popMark _ p (update_self ..), ?_⟩
      simp [MarkedBuffers.emptyThisBuffer, MarkedBuffers.attached_popMark, MarkedBuffers.takeHeader]
    | some m => simp [MarkedBuffers.emptyThisBuffer, MarkedBuffers.takeHeader]
  · intro r carried t hok hencoder hkeeps hstep
    obtain ⟨_, hheaders⟩ := Bool.and_eq_true_iff.mp hkeeps
    have hdistinct := (hconserved.ownHeaders (of_decide_eq_true hheaders)).distinct
    obtain ⟨x, hx, hmove⟩ := bind_eq_some_iff.mp hstep
    obtain ⟨v, hv, rfl⟩ := map_eq_some_iff.mp hmove
    obtain ⟨u, hu, rfl⟩ := map_eq_some_iff.mp hv
    refine Propagated.of_round hok hencoder hdistinct hu ?_
    obtain ⟨-, hx⟩ := ite_none_right_eq_some.mp hx
    rw [distributeBuffers, if_pos hok] at hx
    obtain ⟨e, he, rfl⟩ := map_eq_some_iff.mp hx
    exact he

/-- The decoder of the component 0, without marks. -/
def markedStart : MarkedBuffers 2 ℕ ℕ ℕ := .new decoderStart fun _ => none

/-- An input buffer with a flag and a mark comes in, and an output buffer; they are processed, with
the retain code `retain` for the input buffer. -/
def markedRound (eos : Bool) (carried : Option (Mark ℕ ℕ)) (retain : Retain) :
    List (MarkStep 2 ℕ ℕ ℕ) :=
  [.step (.emptyThisBuffer 0 eos) carried, .step (.fillThisBuffer 1 false) none,
    .step .popBuffers none, .step (.distributeBuffers
      { ok := true
        hdr := fun p => some p.val
        retain := fun p => if p.val = 0 then retain else .notRetain
        eos := fun b => b == 0 && eos }) none]

/-- A mark of the client for another component goes out with the output buffer of the first round,
and one for the component itself, in the input buffer of the second round, is reported. -/
theorem marks_propagate_decoder :
    ∃ s, Reach (markStep decoder 0) (fun s x => keepsMarks decoder s x = true) markedStart s ∧
      s.left = [⟨1, 5⟩] ∧ s.events = [⟨0, 9⟩] ∧ s.Tallied 0 :=
  Reach.exists_of_decide (fun s hrun (h : s.left = [⟨1, 5⟩] ∧ s.events = [⟨0, 9⟩]) =>
      ⟨h.1, h.2, (marks_propagate hrun).1⟩)
    (.markBuffer 0 ⟨1, 5⟩ :: markedRound false none .notRetain ++
      markedRound true (some ⟨0, 9⟩) .notRetain) (by decide)

/-- An input buffer that is got again keeps its EOS flag for itself, and so does one of an encoder;
and a mark that comes in with a buffer leaves before an older one that was put on the port. -/
theorem marks_not_propagated :
    (∃ s, Reach (markStep decoder 0) (fun s x => keepsMarks decoder s x = true) markedStart s ∧
      s.buffers.eos 0 = true ∧ (s.buffers.ports 1).returned = [1] ∧ s.buffers.eos 1 = false) ∧
    (∃ s, Reach (markStep { decoder with videoEncoder := true } 0)
        (fun s x => keepsMarks { decoder with videoEncoder := true } s x = true) markedStart s ∧
      s.buffers.eos 0 = true ∧ (s.buffers.ports 1).returned = [1] ∧ s.buffers.eos 1 = false) ∧
    ∃ s, Reach (markStep decoder 0) (fun s x => keepsMarks decoder s x = true) markedStart s ∧
      s.arrived = [⟨1, 6⟩, ⟨1, 5⟩] ∧ s.left = [⟨1, 5⟩, ⟨1, 6⟩] :=
  ⟨Reach.exists_of_decide (fun _ _ h => h) (markedRound true none .getAgain) (by decide),
    Reach.exists_of_decide (fun _ _ h => h) (markedRound true none .notRetain) (by decide),
    Reach.exists_of_decide (fun _ _ h => h)
      (.markBuffer 0 ⟨1, 5⟩ :: markedRound false (some ⟨1, 6⟩) .notRetain ++
        markedRound false none .notRetain) (by decide)⟩

end HardwareIntel.Omx
