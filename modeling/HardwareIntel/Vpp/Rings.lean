import HardwareIntel.Vpp.Slots

/-!
# The two rings of slots

What the indices mean for the statuses of the slots: the slots that the worker has, the slots that
wait in front of an index, and the numbers of the buffers in them. `InputRing` and `OutputRing` are
kept by everything that is done to a slot, one lemma each; they do not know who does it.
-/

namespace HardwareIntel.Vpp

open List

/-! ### The input ring -/

/-- The worker has the `held` slots from the fill index on, and `waiting` frames are loaded behind
them, from the process index on. -/
structure InputRing (n : ℕ) (ins : Slots) (fill proc held waiting : ℕ) (handed : List ℕ)
    (count : ℕ) : Prop where
  fill_lt : fill < n
  proc_eq : proc = (fill + held) % n
  processing : ins.Has n .processing (ring n fill held)
  loaded : ins.Has n .loaded (ring n proc waiting)
  kinds : ∀ i < n, ins.status i ≠ .rendering ∧ ins.status i ≠ .endFlag
  sorted : (handed ++ (ring n proc waiting).map ins.number).Pairwise (· < ·)
  below : ∀ x ∈ handed ++ (ring n proc waiting).map ins.number, x < count
  follows : ins.Follows inputChange

namespace InputRing

variable {n : ℕ} {ins : Slots} {fill proc held waiting count : ℕ} {handed : List ℕ} {b : VPPBuffer}

section

variable (h : InputRing n ins fill proc held waiting handed count)
include h

theorem pos : 0 < n :=
  Nat.zero_lt_of_lt h.fill_lt

theorem proc_lt : proc < n :=
  h.proc_eq ▸ Nat.mod_lt _ h.pos

/-- The status of a slot is set to one of an input slot. -/
theorem kinds_set {i : ℕ} (hb : b.mStatus ≠ .rendering ∧ b.mStatus ≠ .endFlag) :
    ∀ j < n, (ins.set i b).status j ≠ .rendering ∧ (ins.set i b).status j ≠ .endFlag := by
  intro j hj
  by_cases hji : j = i
  · subst hji
    rw [Slots.status, Slots.buf_set_self]
    exact hb
  · rw [Slots.status, Slots.buf_set_of_ne hji]
    exact h.kinds j hj

/-- A frame is put behind the ones that wait. -/
theorem load (hfree : ins.status ((proc + waiting) % n) = .free) (hstatus : b.mStatus = .loaded)
    (hnumber : b.number = count) :
    InputRing n (ins.set ((proc + waiting) % n) b) fill proc held (waiting + 1) handed
      (count + 1) := by
  have hmoved : Slots.Moved [(proc + waiting) % n] .loaded ins
      (ins.set ((proc + waiting) % n) b) := Slots.moved_set hstatus
  have hnew : (proc + waiting) % n ∉ ring n proc waiting := h.loaded.notMem (by simp [hfree])
  have hmap : (ring n proc (waiting + 1)).map (ins.set ((proc + waiting) % n) b).number =
      (ring n proc waiting).map ins.number ++ [count] := by
    rw [ring_concat h.pos, map_append, map_singleton, Slots.number, Slots.buf_set_self, hnumber]
    congr 1
    refine map_congr_left fun i hi => ?_
    have hne : i ≠ (proc + waiting) % n := fun heq => hnew (heq ▸ hi)
    rw [Slots.number, Slots.buf_set_of_ne hne, Slots.number]
  have hloaded := h.loaded.push hmoved (nodup_singleton _)
    (fun i hi => mem_singleton.mp hi ▸ Nat.mod_lt _ h.pos)
    (fun i hi => mem_singleton.mp hi ▸ by simp [hfree])
  exact { h with
    processing := h.processing.frame hmoved (by decide) (by simp [hfree])
    loaded := by rwa [ring_concat h.pos]
    kinds := h.kinds_set (by simp [hstatus])
    sorted := by
      rw [hmap, ← append_assoc, pairwise_append]
      exact ⟨h.sorted, pairwise_singleton .., fun x hx y hy =>
        mem_singleton.mp hy ▸ h.below x hx⟩
    below := by
      intro x hx
      rw [hmap, ← append_assoc] at hx
      rcases mem_append.mp hx with hx | hx
      · exact (h.below x hx).trans (Nat.lt_succ_self _)
      · exact mem_singleton.mp hx ▸ Nat.lt_succ_self _
    follows := h.follows.set (.inr (by rw [hfree, hstatus]; rfl)) }

end

/-- The first of the frames that wait is handed to the worker. -/
theorem hand (h : InputRing n ins fill proc held (waiting + 1) handed count)
    (hstatus : b.mStatus = .processing) (hnumber : b.number = ins.number proc) :
    InputRing n (ins.set proc b) fill ((proc + 1) % n) (held + 1) waiting
      (handed ++ [ins.number proc]) count := by
  have hmoved : Slots.Moved [proc] _ ins (ins.set proc b) := Slots.moved_set hstatus
  have hring : ring n proc (waiting + 1) = [proc] ++ ring n ((proc + 1) % n) waiting :=
    ring_succ h.proc_lt
  have hproc : ins.status proc = .loaded :=
    h.loaded.status_of_mem (hring ▸ mem_cons_self ..)
  have hlist : handed ++ [ins.number proc] ++ (ring n ((proc + 1) % n) waiting).map ins.number =
      handed ++ (ring n proc (waiting + 1)).map ins.number := by
    rw [hring, map_append, map_singleton, append_assoc]
  have hprocessing := h.processing.push hmoved (nodup_singleton _)
    (fun i hi => mem_singleton.mp hi ▸ h.proc_lt)
    (fun i hi => mem_singleton.mp hi ▸ by simp [hproc])
  have hloaded : ins.Has n .loaded ([proc] ++ ring n ((proc + 1) % n) waiting) := hring ▸ h.loaded
  refine { fill_lt := h.fill_lt, proc_eq := ?_, processing := ?_, loaded := ?_, kinds := ?_,
           sorted := ?_, below := ?_, follows := ?_ }
  · rw [h.proc_eq, Nat.mod_add_mod, Nat.add_assoc]
  · rwa [ring_concat h.pos, ← h.proc_eq]
  · exact hloaded.pop hmoved (by decide)
  · exact h.kinds_set (by simp [hstatus])
  · rw [Slots.number_set hnumber, hlist]
    exact h.sorted
  · rw [Slots.number_set hnumber, hlist]
    exact h.below
  · exact h.follows.set (.inr (by rw [hproc, hstatus]; rfl))

/-- The worker does not need the oldest of its frames any more. -/
theorem giveBack (h : InputRing n ins fill proc (held + 1) waiting handed count)
    (hstatus : b.mStatus = .ready) (hnumber : b.number = ins.number fill) :
    InputRing n (ins.set fill b) ((fill + 1) % n) proc held waiting handed count := by
  have hmoved : Slots.Moved [fill] _ ins (ins.set fill b) := Slots.moved_set hstatus
  have hring : ring n fill (held + 1) = [fill] ++ ring n ((fill + 1) % n) held :=
    ring_succ h.fill_lt
  have hfill : ins.status fill = .processing :=
    h.processing.status_of_mem (hring ▸ mem_cons_self ..)
  have hprocessing : ins.Has n .processing ([fill] ++ ring n ((fill + 1) % n) held) :=
    hring ▸ h.processing
  refine { fill_lt := Nat.mod_lt _ h.pos, proc_eq := ?_, processing := ?_, loaded := ?_,
           kinds := ?_, sorted := ?_, below := ?_, follows := ?_ }
  · rw [h.proc_eq, Nat.mod_add_mod, Nat.add_right_comm, Nat.add_assoc]
  · exact hprocessing.pop hmoved (by decide)
  · exact h.loaded.frame hmoved (by decide) (by simp [hfill])
  · exact h.kinds_set (by simp [hstatus])
  · rw [Slots.number_set hnumber]
    exact h.sorted
  · rw [Slots.number_set hnumber]
    exact h.below
  · exact h.follows.set (.inr (by rw [hfill, hstatus]; rfl))

/-- Slots are reset that are neither with the worker nor loaded. -/
theorem sweep (h : InputRing n ins fill proc held waiting handed count)
    (release : VPPBuffer → Bool) {rest : ℕ} (hle : rest ≤ waiting)
    (hprocessing : ∀ i < n, ins.status i = .processing → release (ins.buf i) = false)
    (hloaded : (ins.sweep n release).Has n .loaded (ring n proc rest))
    (hfree : ∀ i < n, release (ins.buf i) = true → ins.status i ≠ .free) :
    InputRing n (ins.sweep n release) fill proc held rest handed count := by
  have hsub : ((ring n proc rest).map ins.number).Sublist
      ((ring n proc waiting).map ins.number) := by
    obtain ⟨l, rfl⟩ := Nat.exists_eq_add_of_le hle
    rw [ring_append, map_append]
    exact sublist_append_left ..
  refine { fill_lt := h.fill_lt, proc_eq := h.proc_eq, loaded := hloaded,
           processing := h.processing.sweep hprocessing (by decide), kinds := fun i hi => ?_,
           sorted := ?_, below := ?_, follows := h.follows.sweep fun i hi hrel => ?_ }
  · rw [Slots.status, Slots.buf_sweep]
    split
    · exact ⟨by simp [VPPBuffer.resetBuffer], by simp [VPPBuffer.resetBuffer]⟩
    · exact h.kinds i hi
  · rw [Slots.number_sweep]
    exact h.sorted.sublist (hsub.append_left _)
  · rw [Slots.number_sweep]
    exact fun x hx => h.below x ((hsub.append_left _).subset hx)
  · have hkinds := h.kinds i hi
    cases hst : ins.status i <;> simp_all [inputChange, documentedInput]

/-- With nothing in the ring the indices may start anywhere. -/
theorem restart (h : InputRing n ins fill proc 0 0 handed count) :
    InputRing n ins 0 0 0 0 handed count :=
  { h with
    fill_lt := h.pos
    proc_eq := (Nat.zero_mod _).symm }

/-- The process index is at the frame that was loaded first. -/
theorem oldest (h : InputRing n ins fill proc held waiting handed count) {i : ℕ} (hi : i < n)
    (hloaded : ins.status i = .loaded) :
    ins.status proc = .loaded ∧ ins.number proc ≤ ins.number i := by
  have hmem := h.loaded.mem hi hloaded
  obtain ⟨k, rfl⟩ : ∃ k, waiting = k + 1 := Nat.exists_eq_succ_of_ne_zero (by rintro rfl; simp at hmem)
  have hring := ring_succ (k := k) h.proc_lt
  refine ⟨h.loaded.status_of_mem (hring ▸ mem_cons_self ..), ?_⟩
  have hsorted := (pairwise_append.mp h.sorted).2.1
  rw [hring, map_cons, pairwise_cons] at hsorted
  rw [hring] at hmem
  rcases mem_cons.mp hmem with rfl | hmem
  · exact le_rfl
  · exact (hsorted.1 _ (mem_map_of_mem hmem)).le

end InputRing

/-! ### The output ring -/

/-- The worker has the `busy` slots from the fill index on, and the `shown` slots from `start` on are
`READY`. While the pipeline is flushed, the slot at the process index carries the end flag. -/
structure OutputRing (m : ℕ) (out : Slots) (fill proc busy start shown : ℕ) (flush : Bool)
    (given : ℕ) (readied : List ℕ) : Prop where
  fill_lt : fill < m
  start_lt : start < m
  proc_eq : proc = (fill + busy) % m
  processing : out.Has m .processing (ring m fill busy)
  ready : out.Has m .ready (ring m start shown)
  endFlag : ∀ i < m, out.status i = .endFlag ↔ flush = true ∧ i = proc
  kinds : ∀ i < m, out.status i ≠ .loaded
  owned : ∀ i < m, out.owner i ≠ .vpp → out.status i = .rendering
  sorted : (readied ++ (ring m fill busy).map out.number).Pairwise (· < ·)
  below : ∀ x ∈ readied ++ (ring m fill busy).map out.number, x < given
  suffix : (ring m start shown).map out.number <:+ readied
  follows : out.Follows outputChange

namespace OutputRing

variable {m : ℕ} {out t : Slots} {fill proc busy start shown given i : ℕ} {flush : Bool}
  {readied cells : List ℕ} {b : VPPBuffer} {new : VPPBufferStatus}

section

variable (h : OutputRing m out fill proc busy start shown flush given readied)
include h

theorem pos : 0 < m :=
  Nat.zero_lt_of_lt h.fill_lt

theorem proc_lt : proc < m :=
  h.proc_eq ▸ Nat.mod_lt _ h.pos

section

variable (hmoved : Slots.Moved cells new out t)
include hmoved

/-- Slots that get a status with which they cannot be owned by somebody else. -/
theorem owned_of_moved (howner : t.owner = out.owner)
    (hcells : ∀ i ∈ cells, i < m → out.status i ≠ .rendering) :
    ∀ i < m, t.owner i ≠ .vpp → t.status i = .rendering := by
  intro i hi hne
  rw [howner] at hne
  have hrendering := h.owned i hi hne
  by_cases hmem : i ∈ cells
  · exact absurd hrendering (hcells i hmem hi)
  · rw [hmoved.of_notMem i hmem, hrendering]

/-- A status other than the one of an input slot. -/
theorem kinds_of_moved (hnew : new ≠ .loaded) :
    ∀ i < m, t.status i ≠ .loaded := by
  intro i hi
  by_cases hmem : i ∈ cells
  · rwa [hmoved.of_mem i hmem]
  · rw [hmoved.of_notMem i hmem]
    exact h.kinds i hi

/-- Slots without the end flag get another status. -/
theorem endFlag_of_moved (hnew : new ≠ .endFlag) (hcells : ∀ i ∈ cells, out.status i ≠ .endFlag) :
    ∀ i < m, t.status i = .endFlag ↔ flush = true ∧ i = proc := by
  intro i hi
  by_cases hmem : i ∈ cells
  · rw [hmoved.of_mem i hmem, ← h.endFlag i hi]
    exact ⟨fun heq => absurd heq hnew, fun heq => absurd heq (hcells i hmem)⟩
  · rw [hmoved.of_notMem i hmem]
    exact h.endFlag i hi

end

end

/-- Free slots are handed to the worker. -/
theorem give (h : OutputRing m out fill proc busy start shown false given readied) {need : ℕ}
    (hneed : need ≤ m) (hfree : ∀ i ∈ ring m proc need, out.status i = .free) (timeUs : ℤ) :
    OutputRing m (State.giveSlots timeUs (ring m proc need) given out) fill ((proc + need) % m)
      (busy + need) start shown false (given + need) readied := by
  set t := State.giveSlots timeUs (ring m proc need) given out with ht
  have hmoved : Slots.Moved (ring m proc need) .processing out t := Slots.moved_giveSlots timeUs
  have hnodup : (ring m proc need).Nodup := ring_nodup hneed
  have hring : ring m fill (busy + need) = ring m fill busy ++ ring m proc need := by
    rw [ring_append, ← h.proc_eq]
  have hkept : ∀ {a k : ℕ}, (∀ i ∈ ring m a k, out.status i ≠ .free) →
      (ring m a k).map t.number = (ring m a k).map out.number := fun hstatus =>
    map_congr_left fun i hi =>
      Slots.number_giveSlots_of_notMem timeUs fun hmem => hstatus i hi (hfree i hmem)
  have hlist : readied ++ (ring m fill (busy + need)).map t.number =
      (readied ++ (ring m fill busy).map out.number) ++ List.range' given need := by
    rw [hring, map_append, hkept fun i hi => by simp [h.processing.status_of_mem hi], ht,
      Slots.map_number_giveSlots timeUs hnodup, length_ring, append_assoc]
  have hpush := h.processing.push hmoved hnodup (fun i => lt_of_mem_ring h.pos)
    fun i hi => by simp [hfree i hi]
  refine { fill_lt := h.fill_lt, start_lt := h.start_lt, proc_eq := ?_, processing := hring ▸ hpush,
           ready := h.ready.frame hmoved (by decide) fun i hi => by simp [hfree i hi],
           endFlag := ?_, kinds := h.kinds_of_moved hmoved (by decide),
           owned := h.owned_of_moved hmoved (Slots.owner_giveSlots timeUs)
             fun i hi _ => by simp [hfree i hi],
           sorted := ?_, below := ?_, suffix := ?_,
           follows := h.follows.giveSlots timeUs hnodup hfree }
  · rw [h.proc_eq, Nat.mod_add_mod, Nat.add_assoc]
  · intro i hi
    rw [h.endFlag_of_moved hmoved (by decide) (fun i hi => by simp [hfree i hi]) i hi]
    simp
  · rw [hlist, pairwise_append]
    refine ⟨h.sorted, pairwise_lt_range', fun x hx y hy => ?_⟩
    exact (h.below x hx).trans_le (mem_range'_1.mp hy).1
  · intro x hx
    rw [hlist] at hx
    rcases mem_append.mp hx with hx | hx
    · exact (h.below x hx).trans_le (Nat.le_add_right ..)
    · exact (mem_range'_1.mp hx).2
  · rw [hkept fun i hi => by simp [h.ready.status_of_mem hi]]
    exact h.suffix

/-- The slots of the oldest task become `READY`. -/
theorem showFilled {need rest : ℕ}
    (h : OutputRing m out fill proc (need + rest) start shown flush given readied)
    (hfill : fill = (start + shown) % m) (k : ℕ) :
    OutputRing m (State.showFilled k (ring m fill need) out) ((fill + need) % m) proc rest start
      (shown + need) flush given (readied ++ (ring m fill need).map out.number) := by
  have hmoved : Slots.Moved (ring m fill need) .ready out
    (State.showFilled k (ring m fill need) out) := Slots.moved_showFilled k
  have hring : ring m fill (need + rest) = ring m fill need ++ ring m ((fill + need) % m) rest :=
    ring_append
  have hprocessing : out.Has m .processing (ring m fill need ++ ring m ((fill + need) % m) rest) :=
    hring ▸ h.processing
  have hnodup : (ring m fill need).Nodup := (nodup_append'.mp hprocessing.nodup).1
  have hstatus : ∀ i ∈ ring m fill need, out.status i = .processing := fun i hi =>
    hprocessing.status_of_mem (mem_append_left _ hi)
  have hlist : readied ++ (ring m fill need).map out.number ++
      (ring m ((fill + need) % m) rest).map out.number =
        readied ++ (ring m fill (need + rest)).map out.number := by
    rw [hring, map_append, append_assoc]
  have hpush := h.ready.push hmoved hnodup (fun i => lt_of_mem_ring h.pos)
    fun i hi => by simp [hstatus i hi]
  refine { fill_lt := Nat.mod_lt _ h.pos, start_lt := h.start_lt, proc_eq := ?_,
           processing := hprocessing.pop hmoved (by decide), ready := ?_,
           endFlag := h.endFlag_of_moved hmoved (by decide) fun i hi => by simp [hstatus i hi],
           kinds := h.kinds_of_moved hmoved (by decide),
           owned := h.owned_of_moved hmoved (Slots.owner_showFilled k)
             fun i hi _ => by simp [hstatus i hi],
           sorted := ?_, below := ?_, suffix := ?_,
           follows := h.follows.showFilled k hnodup hstatus }
  · rw [h.proc_eq, Nat.mod_add_mod, Nat.add_assoc]
  · rwa [ring_append, ← hfill]
  · rw [Slots.number_showFilled, hlist]
    exact h.sorted
  · rw [Slots.number_showFilled, hlist]
    exact h.below
  · rw [Slots.number_showFilled, ring_append, ← hfill, map_append]
    obtain ⟨before, hbefore⟩ := h.suffix
    exact ⟨before, by rw [← append_assoc, hbefore]⟩

/-- A free slot is given to the worker to flush the pipeline. -/
theorem putEnd (h : OutputRing m out fill proc busy start shown false given readied)
    (hfree : out.status proc = .free) (hstatus : b.mStatus = .endFlag)
    (hnumber : b.number = out.number proc) (howner : b.owner = out.owner proc) :
    OutputRing m (out.set proc b) fill proc busy start shown true given readied := by
  have hmoved : Slots.Moved [proc] .endFlag out (out.set proc b) := Slots.moved_set hstatus
  have hnum : (out.set proc b).number = out.number := Slots.number_set hnumber
  exact { h with
    processing := h.processing.frame hmoved (by decide) (by simp [hfree])
    ready := h.ready.frame hmoved (by decide) (by simp [hfree])
    endFlag := by
      intro i hi
      by_cases hmem : i = proc
      · simp [hmem, hmoved.of_mem proc (mem_singleton_self _)]
      · rw [hmoved.of_notMem i (by simpa using hmem), h.endFlag i hi]
        simp [hmem]
    kinds := h.kinds_of_moved hmoved (by decide)
    owned := h.owned_of_moved hmoved (Slots.owner_set howner) (by simp [hfree])
    sorted := hnum ▸ h.sorted
    below := hnum ▸ h.below
    suffix := hnum ▸ h.suffix
    follows := h.follows.set (.inr (by rw [hfree, hstatus]; rfl)) }

/-- The end flag comes back when the worker has nothing else. -/
theorem takeEnd (h : OutputRing m out fill proc 0 start shown true given readied)
    (hstatus : b.mStatus = .free) (hnumber : b.number = out.number fill)
    (howner : b.owner = out.owner fill) :
    OutputRing m (out.set fill b) fill proc 0 start shown false given readied := by
  have hmoved : Slots.Moved [fill] .free out (out.set fill b) := Slots.moved_set hstatus
  have hnum : (out.set fill b).number = out.number := Slots.number_set hnumber
  have hproc : fill = proc := by rw [h.proc_eq, Nat.add_zero, Nat.mod_eq_of_lt h.fill_lt]
  have hold : out.status fill = .endFlag := (h.endFlag fill h.fill_lt).mpr ⟨rfl, hproc⟩
  exact { h with
    processing := h.processing.frame hmoved (by decide) (by simp [hold])
    ready := h.ready.frame hmoved (by decide) (by simp [hold])
    endFlag := by
      intro i hi
      by_cases hmem : i = fill
      · simp [hmem, hmoved.of_mem fill (mem_singleton_self _)]
      · rw [hmoved.of_notMem i (by simpa using hmem), h.endFlag i hi, ← hproc]
        simp [hmem]
    kinds := h.kinds_of_moved hmoved (by decide)
    owned := h.owned_of_moved hmoved (Slots.owner_set howner) (by simp [hold])
    sorted := hnum ▸ h.sorted
    below := hnum ▸ h.below
    suffix := hnum ▸ h.suffix
    follows := h.follows.set (.inr (by rw [hold, hstatus]; rfl)) }

/-- The oldest `READY` slot is rendered or dropped. -/
theorem take (h : OutputRing m out fill proc busy start (shown + 1) flush given readied)
    (hstatus : b.mStatus = new) (hnew : new = .rendering ∨ new = .free)
    (hnumber : b.number = out.number start) (howner : b.owner = .vpp) :
    OutputRing m (out.set start b) fill proc busy ((start + 1) % m) shown flush given readied := by
  have hmoved : Slots.Moved [start] new out (out.set start b) := Slots.moved_set hstatus
  have hnum : (out.set start b).number = out.number := Slots.number_set hnumber
  have hring : ring m start (shown + 1) = [start] ++ ring m ((start + 1) % m) shown :=
    ring_succ h.start_lt
  have hready : out.Has m .ready ([start] ++ ring m ((start + 1) % m) shown) := hring ▸ h.ready
  have hold : out.status start = .ready := hready.status_of_mem (mem_cons_self ..)
  have hvpp : b.owner = out.owner start := by
    by_contra hne
    have hrendering := h.owned start h.start_lt fun heq => hne (howner.trans heq.symm)
    simp [hold] at hrendering
  exact { h with
    start_lt := Nat.mod_lt _ h.pos
    processing := h.processing.frame hmoved (by rcases hnew with rfl | rfl <;> decide) (by simp [hold])
    ready := hready.pop hmoved (by rcases hnew with rfl | rfl <;> decide)
    endFlag := h.endFlag_of_moved hmoved (by rcases hnew with rfl | rfl <;> decide) (by simp [hold])
    kinds := h.kinds_of_moved hmoved (by rcases hnew with rfl | rfl <;> decide)
    owned := h.owned_of_moved hmoved (Slots.owner_set hvpp) (by simp [hold])
    sorted := hnum ▸ h.sorted
    below := hnum ▸ h.below
    suffix := by
      rw [hnum]
      refine List.IsSuffix.trans ?_ h.suffix
      rw [hring, map_append]
      exact suffix_append ..
    follows := h.follows.set (.inr (by
      rw [hold, hstatus]
      rcases hnew with rfl | rfl <;> rfl)) }

/-- A slot that is rendered changes its owner or becomes free. -/
theorem retire (h : OutputRing m out fill proc busy start shown flush given readied)
    (hold : out.status i = .rendering ∨ out.status i = .free)
    (hnew : b.mStatus = .rendering ∧ out.status i = .rendering ∨ b.mStatus = .free ∧ b.owner = .vpp)
    (hnumber : b.number = out.number i) :
    OutputRing m (out.set i b) fill proc busy start shown flush given readied := by
  have hmoved : Slots.Moved [i] b.mStatus out (out.set i b) := Slots.moved_set rfl
  have hnum : (out.set i b).number = out.number := Slots.number_set hnumber
  have hstatus : b.mStatus = .rendering ∨ b.mStatus = .free := hnew.imp And.left And.left
  have hcells : ∀ X, X ≠ .rendering → X ≠ .free → ∀ j ∈ [i], out.status j ≠ X := by
    rintro X hX hX' j hj rfl
    rw [mem_singleton.mp hj] at hX hX'
    exact hold.elim hX hX'
  have hne : ∀ X, X ≠ .rendering → X ≠ .free → b.mStatus ≠ X := by
    rintro X hX hX' rfl
    exact hstatus.elim hX hX'
  exact { h with
    processing := h.processing.frame hmoved (hne _ (by decide) (by decide))
      (hcells _ (by decide) (by decide))
    ready := h.ready.frame hmoved (hne _ (by decide) (by decide)) (hcells _ (by decide) (by decide))
    endFlag := h.endFlag_of_moved hmoved (hne _ (by decide) (by decide))
      (hcells _ (by decide) (by decide))
    kinds := h.kinds_of_moved hmoved (hne _ (by decide) (by decide))
    owned := by
      intro j hj howner
      by_cases hji : j = i
      · subst hji
        rw [Slots.owner, Slots.buf_set_self] at howner
        rw [Slots.status, Slots.buf_set_self]
        exact (hnew.resolve_right fun hfree => howner hfree.2).1
      · rw [Slots.owner, Slots.buf_set_of_ne hji] at howner
        rw [Slots.status, Slots.buf_set_of_ne hji]
        exact h.owned j hj howner
    sorted := hnum ▸ h.sorted
    below := hnum ▸ h.below
    suffix := hnum ▸ h.suffix
    follows := h.follows.set (by
      rcases hnew with ⟨hb, hi⟩ | ⟨hb, -⟩
      · exact .inl (hi.trans hb.symm)
      · rcases hold with hi | hi
        · exact .inr (by rw [hi, hb]; rfl)
        · exact .inl (hi.trans hb.symm)) }

/-- All `READY` slots are reset, and nothing that is with the worker. -/
theorem sweep (h : OutputRing m out fill proc busy start shown flush given readied)
    (release : VPPBuffer → Bool) {start' : ℕ} (hstart : start' < m)
    (hkeep : ∀ i < m, release (out.buf i) = true →
      out.status i = .ready ∨ out.status i = .rendering)
    (hready : ∀ i < m, out.status i = .ready → release (out.buf i) = true) :
    OutputRing m (out.sweep m release) fill proc busy start' 0 flush given readied := by
  have hnot : ∀ {X}, X ≠ .ready → X ≠ .rendering → ∀ i < m, out.status i = X →
      release (out.buf i) = false := by
    rintro X hX hX' i hi rfl
    by_contra hrel
    exact (hkeep i hi (by simpa using hrel)).elim hX hX'
  exact { h with
    start_lt := hstart
    processing := h.processing.sweep (hnot (by decide) (by decide)) (by decide)
    ready := Slots.has_sweep_nil hready (by decide)
    endFlag := by
      intro i hi
      rw [← h.endFlag i hi, Slots.status, Slots.buf_sweep]
      split
      · rename_i hrel
        have hold := hkeep i hi hrel.2
        refine ⟨fun heq => absurd heq (by simp [VPPBuffer.resetBuffer]), fun heq => ?_⟩
        simp [heq] at hold
      · rfl
    kinds := by
      intro i hi
      rw [Slots.status, Slots.buf_sweep]
      split
      · simp [VPPBuffer.resetBuffer]
      · exact h.kinds i hi
    owned := by
      intro i hi
      rw [Slots.owner, Slots.status, Slots.buf_sweep]
      split
      · simp [VPPBuffer.resetBuffer]
      · exact h.owned i hi
    sorted := by
      rw [Slots.number_sweep]
      exact h.sorted
    below := by
      rw [Slots.number_sweep]
      exact h.below
    suffix := nil_suffix
    follows := h.follows.sweep fun i hi hrel => by
      rcases hkeep i hi hrel with hi | hi <;> rw [hi] <;> rfl }

/-- With nothing at the worker the indices may start anywhere. -/
theorem restart (h : OutputRing m out fill proc 0 start shown false given readied) :
    OutputRing m out 0 0 0 start shown false given readied :=
  { h with
    fill_lt := h.pos
    proc_eq := (Nat.zero_mod _).symm
    endFlag := by simpa using h.endFlag }

/-- `start` is at the `READY` slot that was handed out first. -/
theorem oldest (h : OutputRing m out fill proc busy start shown flush given readied) (hi : i < m)
    (hready : out.status i = .ready) :
    out.status start = .ready ∧ out.number start ≤ out.number i := by
  have hmem := h.ready.mem hi hready
  obtain ⟨k, rfl⟩ : ∃ k, shown = k + 1 := Nat.exists_eq_succ_of_ne_zero (by rintro rfl; simp at hmem)
  have hring := ring_succ (k := k) h.start_lt
  refine ⟨h.ready.status_of_mem (hring ▸ mem_cons_self ..), ?_⟩
  have hsorted := (pairwise_append.mp h.sorted).1.sublist h.suffix.sublist
  rw [hring, map_cons, pairwise_cons] at hsorted
  rw [hring] at hmem
  rcases mem_cons.mp hmem with rfl | hmem
  · exact le_rfl
  · exact (hsorted.1 _ (mem_map_of_mem hmem)).le

end OutputRing

end HardwareIntel.Vpp
