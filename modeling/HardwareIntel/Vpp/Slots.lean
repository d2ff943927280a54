import HardwareIntel.Vpp.Processor

/-!
# Slots and their statuses

The transitions that `VPPBuffer.h` documents and the ones that the code makes, and what the loops of
the processor do to the slots: which slots get another status, which keep their numbers and owners,
and that every change is one of the transitions. `Moved` is all that the order of the slots depends
on.
-/

namespace HardwareIntel.Vpp

open List VPPBufferStatus

/-! ### Documented and actual changes of a status -/

/-- The transitions that `VPPBuffer.h` lists for an input buffer. -/
def documentedInput : VPPBufferStatus → VPPBufferStatus → Bool
  | .free, .loaded | .loaded, .processing | .processing, .ready | .ready, .free => true
  | _, _ => false

/-- The transitions that `VPPBuffer.h` lists for an output buffer. -/
def documentedOutput : VPPBufferStatus → VPPBufferStatus → Bool
  | .free, .processing | .processing, .ready | .ready, .rendering | .rendering, .free
  | .ready, .free => true
  | _, _ => false

/-- A seek drops frames that are loaded. -/
def inputChange (old new : VPPBufferStatus) : Bool :=
  documentedInput old new || (old == .loaded && new == .free)

/-- A slot carries the end flag while the pipeline is flushed. -/
def outputChange (old new : VPPBufferStatus) : Bool :=
  documentedOutput old new || (old == .free && new == .endFlag) || (old == .endFlag && new == .free)

namespace Slots

/-- All statuses that were written over different ones. -/
def Follows (allowed : VPPBufferStatus → VPPBufferStatus → Bool) (s : Slots) : Prop :=
  ∀ c ∈ s.changes, c.1 = c.2 ∨ allowed c.1 c.2 = true

instance (allowed : VPPBufferStatus → VPPBufferStatus → Bool) (s : Slots) :
    Decidable (s.Follows allowed) := inferInstanceAs (Decidable (∀ c ∈ s.changes, _))

def owner (s : Slots) (i : ℕ) : Owner := (s.buf i).owner

variable {s t : Slots} {b : VPPBuffer} {i j n : ℕ} {cells rest l : List ℕ} {X Y : VPPBufferStatus}
  {allowed : VPPBufferStatus → VPPBufferStatus → Bool}

@[simp] theorem buf_set_self : (s.set i b).buf i = b := Function.update_self ..

theorem buf_set_of_ne (h : j ≠ i) : (s.set i b).buf j = s.buf j := Function.update_of_ne h ..

theorem number_set (h : b.number = s.number i) : (s.set i b).number = s.number := by
  funext j
  by_cases hj : j = i
  · subst hj
    simpa [number] using h
  · rw [number, buf_set_of_ne hj, number]

theorem owner_set (h : b.owner = s.owner i) : (s.set i b).owner = s.owner := by
  funext j
  by_cases hj : j = i
  · subst hj
    simpa [owner] using h
  · rw [owner, buf_set_of_ne hj, owner]

theorem Follows.set (h : s.Follows allowed)
    (hi : s.status i = b.mStatus ∨ allowed (s.status i) b.mStatus = true) :
    (s.set i b).Follows allowed := by
  intro c hc
  rcases mem_append.mp hc with hc | hc
  · exact h c hc
  · rw [mem_singleton.mp hc]
    exact hi

/-! ### Moving slots from one status to another -/

/-- The slots of the list have got a new status, the others have not. -/
structure Moved (cells : List ℕ) (new : VPPBufferStatus) (s t : Slots) : Prop where
  of_mem : ∀ i ∈ cells, t.status i = new
  of_notMem : ∀ i ∉ cells, t.status i = s.status i

theorem moved_set (hb : b.mStatus = Y) : Moved [i] Y s (s.set i b) where
  of_mem j hj := by
    rw [mem_singleton.mp hj, status, buf_set_self, hb]
  of_notMem j hj := by
    rw [status, buf_set_of_ne (fun h => hj (mem_singleton.mpr h)), status]

theorem Moved.refl : Moved [] Y s s := ⟨by simp, fun _ _ => rfl⟩

/-- Slots moved one after another. -/
theorem Moved.cons {u : Slots} (hfirst : Moved [i] Y s t) (hrest : Moved cells Y t u) :
    Moved (i :: cells) Y s u where
  of_mem j hj := by
    by_cases hmem : j ∈ cells
    · exact hrest.of_mem j hmem
    · rw [hrest.of_notMem j hmem]
      exact hfirst.of_mem j ((mem_cons.mp hj).elim (· ▸ mem_singleton_self _)
        fun h => absurd h hmem)
  of_notMem j hj := by
    rw [hrest.of_notMem j fun h => hj (mem_cons_of_mem _ h), hfirst.of_notMem j fun h =>
      hj (mem_singleton.mp h ▸ mem_cons_self ..)]

/-- The slots with a status are in the order of the list. -/
abbrev Has (s : Slots) (n : ℕ) (X : VPPBufferStatus) (l : List ℕ) : Prop :=
  Occupies n (fun i => s.status i = X) l

theorem Has.status_of_mem (h : s.Has n X l) (hi : i ∈ l) : s.status i = X := h.of_mem hi

theorem Has.notMem (h : s.Has n X l) (hi : s.status i ≠ X) : i ∉ l := fun hmem => hi (h.of_mem hmem)

/-- Another status. -/
theorem Has.frame (h : s.Has n X l) (hmoved : Moved cells Y s t) (hXY : Y ≠ X)
    (hcells : ∀ i ∈ cells, s.status i ≠ X) : t.Has n X l := by
  refine h.congr fun i _ => ?_
  by_cases hi : i ∈ cells
  · rw [hmoved.of_mem i hi]
    exact ⟨fun heq => absurd heq hXY, fun heq => absurd heq (hcells i hi)⟩
  · rw [hmoved.of_notMem i hi]

/-- The status that the slots get. -/
theorem Has.push (h : s.Has n Y l) (hmoved : Moved cells Y s t) (hnodup : cells.Nodup)
    (hlt : ∀ i ∈ cells, i < n) (hcells : ∀ i ∈ cells, s.status i ≠ Y) : t.Has n Y (l ++ cells) := by
  refine h.append hnodup hlt hcells fun i _ => ?_
  by_cases hi : i ∈ cells
  · exact ⟨fun _ => .inr hi, fun _ => hmoved.of_mem i hi⟩
  · rw [hmoved.of_notMem i hi]
    exact ⟨.inl, fun hor => hor.resolve_right hi⟩

/-- The status that the slots had. -/
theorem Has.pop (h : s.Has n X (cells ++ rest)) (hmoved : Moved cells Y s t) (hXY : Y ≠ X) :
    t.Has n X rest := by
  refine h.drop fun i _ => ?_
  by_cases hi : i ∈ cells
  · rw [hmoved.of_mem i hi]
    exact ⟨fun heq => absurd heq hXY, fun hand => absurd hi hand.2⟩
  · rw [hmoved.of_notMem i hi]
    exact ⟨fun heq => ⟨heq, hi⟩, fun hand => hand.1⟩

/-! ### The loops over slots -/

section Loops

variable {release : VPPBuffer → Bool}

theorem sweep_succ (n : ℕ) (release : VPPBuffer → Bool) (s : Slots) :
    s.sweep (n + 1) release =
      if release ((s.sweep n release).buf n) then
        (s.sweep n release).set n ((s.sweep n release).buf n).resetBuffer
      else s.sweep n release := by
  rw [sweep, range_succ, foldl_append]
  rfl

/-- What a sweep does to a slot. -/
theorem buf_sweep (n : ℕ) (release : VPPBuffer → Bool) (s : Slots) (i : ℕ) :
    (s.sweep n release).buf i =
      if i < n ∧ release (s.buf i) = true then (s.buf i).resetBuffer else s.buf i := by
  induction n generalizing i with
  | zero => simp [sweep]
  | succ n ih =>
    have hn : (s.sweep n release).buf n = s.buf n := by rw [ih n, if_neg (by simp)]
    rw [sweep_succ, hn]
    by_cases hi : i = n
    · subst hi
      split <;> simp_all
    · have hlt : i < n + 1 ↔ i < n := by omega
      simp only [hlt, ← ih]
      split
      · exact buf_set_of_ne hi
      · rfl

theorem number_sweep : (s.sweep n release).number = s.number := by
  funext i
  rw [number, buf_sweep]
  split <;> rfl

/-- A status that is not released is kept. -/
theorem Has.sweep (h : s.Has n X l) (hkeep : ∀ i < n, s.status i = X → release (s.buf i) = false)
    (hX : X ≠ free) : (s.sweep n release).Has n X l := by
  refine h.congr fun i hi => ?_
  rw [status, buf_sweep]
  split
  · rename_i hrel
    exact ⟨fun heq => absurd heq.symm hX, fun heq => absurd (hkeep i hi heq) (by simp [hrel.2])⟩
  · rfl

/-- No slot has a status all of whose slots are released. -/
theorem has_sweep_nil (hrel : ∀ i < n, s.status i = X → release (s.buf i) = true) (hX : X ≠ free) :
    (s.sweep n release).Has n X [] := by
  refine .nil fun i hi heq => ?_
  rw [status, buf_sweep] at heq
  split at heq
  · exact hX heq.symm
  · rename_i hnot
    exact hnot ⟨hi, hrel i hi heq⟩

theorem Follows.sweep (h : s.Follows allowed)
    (hrel : ∀ i < n, release (s.buf i) = true → allowed (s.status i) free = true) :
    (s.sweep n release).Follows allowed := by
  suffices hle : ∀ k ≤ n, (s.sweep k release).Follows allowed from hle n le_rfl
  intro k hk
  induction k with
  | zero => exact h
  | succ k ih =>
    have hbuf : (s.sweep k release).buf k = s.buf k := by rw [buf_sweep, if_neg (by simp)]
    rw [sweep_succ, hbuf]
    split
    · rename_i hk'
      refine (ih (by omega)).set (.inr ?_)
      rw [status, hbuf]
      exact hrel k hk hk'
    · exact ih (by omega)

/-- One iteration of the loop, whatever the time stamp is. -/
theorem showFilled_cons (k pos : ℕ) (rest : List ℕ) (s : Slots) :
    ∃ timeUs, State.showFilled k (pos :: rest) s =
      State.showFilled k rest
        (s.set pos { s.buf pos with mStatus := .ready, mTimeUs := timeUs }) := ⟨_, rfl⟩

/-- The loop of a task that is finished. -/
theorem moved_showFilled (k : ℕ) : ∀ {s : Slots},
    Moved cells .ready s (State.showFilled k cells s) := by
  induction cells with
  | nil => exact .refl
  | cons pos rest ih =>
    intro s
    obtain ⟨timeUs, htime⟩ := showFilled_cons k pos rest s
    exact Moved.cons (moved_set (by rfl)) ih

theorem number_showFilled (k : ℕ) : ∀ {s : Slots},
    (State.showFilled k cells s).number = s.number := by
  induction cells with
  | nil => exact rfl
  | cons pos rest ih =>
    intro s
    obtain ⟨timeUs, htime⟩ := showFilled_cons k pos rest s
    rw [htime, ih]
    exact number_set rfl

theorem owner_showFilled (k : ℕ) : ∀ {s : Slots}, (State.showFilled k cells s).owner = s.owner := by
  induction cells with
  | nil => exact rfl
  | cons pos rest ih =>
    intro s
    obtain ⟨timeUs, htime⟩ := showFilled_cons k pos rest s
    rw [htime, ih]
    exact owner_set rfl

/-- The slots that a loop has still to come to. -/
theorem status_set_of_mem {pos : ℕ} (hnodup : (pos :: rest).Nodup)
    (hcells : ∀ i ∈ pos :: rest, s.status i = X) (b : VPPBuffer) :
    ∀ i ∈ rest, (s.set pos b).status i = X := by
  intro i hi
  have hne : i ≠ pos := fun heq => (nodup_cons.mp hnodup).1 (heq ▸ hi)
  rw [status, buf_set_of_ne hne]
  exact hcells i (mem_cons_of_mem _ hi)

theorem Follows.showFilled (k : ℕ) : ∀ {s : Slots}, s.Follows outputChange → cells.Nodup →
    (∀ i ∈ cells, s.status i = .processing) →
    (State.showFilled k cells s).Follows outputChange := by
  induction cells with
  | nil => exact fun h _ _ => h
  | cons pos rest ih =>
    intro s h hnodup hcells
    have hpos := hcells pos (mem_cons_self ..)
    refine ih (h.set (.inr (by rw [hpos]; rfl))) (nodup_cons.mp hnodup).2 ?_
    exact status_set_of_mem hnodup hcells _

/-- The loop of a task that is started. -/
theorem moved_giveSlots (timeUs : ℤ) : ∀ {k : ℕ} {s : Slots},
    Moved cells .processing s (State.giveSlots timeUs cells k s) := by
  induction cells with
  | nil => exact .refl
  | cons pos rest ih =>
    intro k s
    exact Moved.cons (moved_set (by rfl)) ih

theorem owner_giveSlots (timeUs : ℤ) : ∀ {k : ℕ} {s : Slots},
    (State.giveSlots timeUs cells k s).owner = s.owner := by
  induction cells with
  | nil => exact rfl
  | cons pos rest ih =>
    intro k s
    rw [State.giveSlots, ih]
    exact owner_set rfl

theorem number_giveSlots_of_notMem (timeUs : ℤ) : ∀ {k : ℕ} {s : Slots}, i ∉ cells →
    (State.giveSlots timeUs cells k s).number i = s.number i := by
  induction cells with
  | nil => exact fun _ => rfl
  | cons pos rest ih =>
    intro k s hi
    have hne : i ≠ pos := fun heq => hi (heq ▸ mem_cons_self ..)
    rw [State.giveSlots, ih fun h => hi (mem_cons_of_mem _ h), number, buf_set_of_ne hne, number]

/-- The slots are numbered as they are handed out. -/
theorem map_number_giveSlots (timeUs : ℤ) : ∀ {k : ℕ} {s : Slots}, cells.Nodup →
    cells.map (State.giveSlots timeUs cells k s).number = List.range' k cells.length := by
  induction cells with
  | nil => exact fun _ => rfl
  | cons pos rest ih =>
    intro k s hnodup
    have hpos := (nodup_cons.mp hnodup).1
    rw [State.giveSlots, map_cons, ih (nodup_cons.mp hnodup).2,
      number_giveSlots_of_notMem timeUs hpos, length_cons, List.range'_succ, number, buf_set_self]

theorem Follows.giveSlots (timeUs : ℤ) : ∀ {k : ℕ} {s : Slots}, s.Follows outputChange →
    cells.Nodup → (∀ i ∈ cells, s.status i = .free) →
    (State.giveSlots timeUs cells k s).Follows outputChange := by
  induction cells with
  | nil => exact fun h _ _ => h
  | cons pos rest ih =>
    intro k s h hnodup hcells
    have hpos := hcells pos (mem_cons_self ..)
    refine ih (h.set (.inr (by rw [hpos]; rfl))) (nodup_cons.mp hnodup).2 ?_
    exact status_set_of_mem hnodup hcells _

end Loops

end Slots

end HardwareIntel.Vpp
