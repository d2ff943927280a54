import Mathlib.Data.List.Basic
import Mathlib.Data.List.Induction
import Mathlib.Data.Int.Notation

/-!
# The table of listeners

`registerListener` gives a listener the id that was prepared at the registration before: the next one,
or the first one that was free then, if the next one is out of range. The id is not looked for again when
it is needed. If it is taken by then, or if none was free, no listener is registered, although there may
be room.

Ids are never given twice, and a listener is removed by the id that it was given. `register_succeeds_iff`
says in which runs a registration fails only when the table is full.
-/

namespace HardwareIntel.MultiDisplay

universe u

variable {β : Type u}

/-- What is kept of a listener of the type `β`. -/
structure MultiDisplayListener (β : Type u) where
  msg : UInt32
  id : ℕ
  name : String
  listener : β

/-- `mListenerId`, and `mListeners` without the order of its keys -/
structure ListenerTable (β : Type u) where
  listenerId : ℕ
  listeners : List (MultiDisplayListener β)

/-- The arguments of `registerListener`, where a pointer may be null. -/
structure ListenerArguments (β : Type u) where
  listener : Option β
  name : Option String
  msg : UInt32

namespace ListenerTable

def used (listeners : List (MultiDisplayListener β)) (id : ℕ) : Bool := listeners.any fun l => l.id == id

/-- The loop that looks for a valid id. -/
def validId (max : ℕ) (listeners : List (MultiDisplayListener β)) : ℕ :=
  ((List.range max).find? fun id => !used listeners id).getD max

/-- `registerListener`, and the id that it returns. -/
def registerListener (max : ℕ) (t : ListenerTable β) (a : ListenerArguments β) :
    ListenerTable β × Option ℕ :=
  match a.name, a.listener with
  | some name, some listener =>
    if a.msg = 0 then (t, none)
    else if max ≤ t.listeners.length ∨ max ≤ t.listenerId then (t, none)
    else if used t.listeners t.listenerId then (t, none)
    else
      let listeners := ⟨a.msg, t.listenerId, name, listener⟩ :: t.listeners
      let next := t.listenerId + 1
      (⟨if max ≤ next then validId max listeners else next, listeners⟩, some t.listenerId)
  | _, _ => (t, none)

def unregisterListener (t : ListenerTable β) (listenerId : ℤ) : ListenerTable β :=
  if listenerId < 0 then t
  else { t with listeners := t.listeners.eraseP fun l => l.id == listenerId.toNat }

end ListenerTable

/-- A call. -/
inductive ListenerCall (β : Type u)
  | register (a : ListenerArguments β)
  | unregister (listenerId : ℤ)

/-- What a caller has seen: the listeners that were given ids, and the ids that were removed. -/
inductive ListenerEvent (β : Type u)
  | given (l : MultiDisplayListener β)
  | removed (listenerId : ℤ)

/-- The arguments are valid. -/
def ListenerArguments.Valid (a : ListenerArguments β) : Prop :=
  a.name.isSome ∧ a.listener.isSome ∧ a.msg ≠ 0

namespace ListenerTable

/-- A state of the table, and what has been seen, newest first. -/
abbrev Run (β : Type u) := ListenerTable β × List (ListenerEvent β)

def step (max : ℕ) (r : Run β) : ListenerCall β → Run β
  | .register a =>
    let (t, id) := r.1.registerListener max a
    (t, if id.isSome then (t.listeners.head?.map ListenerEvent.given).toList ++ r.2 else r.2)
  | .unregister id => (r.1.unregisterListener id, .removed id :: r.2)

/-- The state after some calls. -/
def run (max : ℕ) (calls : List (ListenerCall β)) : Run β := calls.foldl (step max) (⟨0, []⟩, [])

/-! ### What should be -/

/-- The listener to which an id was given last, if it was not removed. -/
def holder : List (ListenerEvent β) → ℕ → Option (MultiDisplayListener β)
  | [], _ => none
  | .given l :: events, id => if l.id = id then some l else holder events id
  | .removed i :: events, id => if i = id then none else holder events id

/-- The id behind the one that was given last. The last id is followed by the first one that was free
when it was given, and by the maximum if none was. -/
def follower (max : ℕ) : List (ListenerEvent β) → ℕ
  | [] => 0
  | .given l :: events =>
    if l.id + 1 < max then l.id + 1
    else ((List.range max).find? fun id => (holder (.given l :: events) id).isNone).getD max
  | .removed _ :: events => follower max events

/-- The state of the table is right: the ids are different and in range, and the listeners are those
that hold an id. -/
structure Agrees (max : ℕ) (r : Run β) : Prop where
  distinct : (r.1.listeners.map MultiDisplayListener.id).Nodup
  inRange : ∀ l ∈ r.1.listeners, l.id < max
  held : ∀ l, l ∈ r.1.listeners ↔ holder r.2 l.id = some l

/-- A registration succeeds if the table is not full. -/
def Succeeds (max : ℕ) (t : ListenerTable β) (a : ListenerArguments β) : Prop :=
  (t.registerListener max a).2.isSome ↔ t.listeners.length < max

/-- There is no id that follows the last one and is free, unless the table is full. -/
def FollowerFree (max : ℕ) (r : Run β) : Prop :=
  r.1.listeners.length < max → follower max r.2 < max ∧ holder r.2 (follower max r.2) = none

/-! ### Lookups -/

variable {max : ℕ} {r : Run β} {l : MultiDisplayListener β}
  {listeners : List (MultiDisplayListener β)}

/-- An id is free if no listener has it. -/
theorem used_eq_false_iff {id : ℕ} : used listeners id = false ↔ ∀ l ∈ listeners, l.id ≠ id := by
  simp [used]

/-- Who holds an id is a listener with this id. -/
theorem id_of_holder {events : List (ListenerEvent β)} {id : ℕ} (h : holder events id = some l) :
    l.id = id := by
  induction events with
  | nil => cases h
  | cons event events ih =>
    cases event with
    | given l' =>
      rw [holder] at h
      split_ifs at h with hid
      · exact Option.some.inj h ▸ hid
      · exact ih h
    | removed i =>
      rw [holder] at h
      split_ifs at h
      exact ih h

/-- Ids in use are those that are held. -/
theorem Agrees.used_eq (h : Agrees max r) (id : ℕ) :
    used r.1.listeners id = (holder r.2 id).isSome := by
  cases hholder : holder r.2 id with
  | none =>
    rw [Option.isSome_none, used_eq_false_iff]
    rintro l hl rfl
    rw [(h.held l).mp hl] at hholder
    cases hholder
  | some l =>
    have hid := id_of_holder hholder
    have hl : l ∈ r.1.listeners := (h.held l).mpr (hid ▸ hholder)
    rw [Option.isSome_some, used, List.any_eq_true]
    exact ⟨l, hl, beq_iff_eq.mpr hid⟩

/-- Free ids are those nobody holds. -/
theorem Agrees.used_eq_false (h : Agrees max r) (id : ℕ) :
    used r.1.listeners id = false ↔ holder r.2 id = none := by
  rw [h.used_eq, Option.isSome_eq_false_iff, Option.isNone_iff_eq_none]

/-! ### One call -/

/-- What a registration does. -/
theorem registerListener_cases {t : ListenerTable β} {a : ListenerArguments β} (ha : a.Valid) :
    (t.registerListener max a = (t, none) ∧ ¬ (t.listeners.length < max ∧ t.listenerId < max ∧
      used t.listeners t.listenerId = false)) ∨
    ∃ l : MultiDisplayListener β, l.id = t.listenerId ∧
      (t.listeners.length < max ∧ t.listenerId < max ∧ used t.listeners t.listenerId = false) ∧
      t.registerListener max a = (⟨if max ≤ t.listenerId + 1 then validId max (l :: t.listeners)
        else t.listenerId + 1, l :: t.listeners⟩, some t.listenerId) := by
  obtain ⟨hname, hlistener, hmsg⟩ := ha
  obtain ⟨name, hname⟩ := Option.isSome_iff_exists.mp hname
  obtain ⟨listener, hlistener⟩ := Option.isSome_iff_exists.mp hlistener
  rw [registerListener, hname, hlistener]
  dsimp only
  rw [if_neg hmsg]
  by_cases hfull : max ≤ t.listeners.length ∨ max ≤ t.listenerId
  · rw [if_pos hfull]
    refine Or.inl ⟨rfl, ?_⟩
    omega
  · rw [if_neg hfull]
    by_cases hused : used t.listeners t.listenerId = true
    · rw [if_pos hused]
      exact Or.inl ⟨rfl, fun h => by rw [hused] at h; exact Bool.noConfusion h.2.2⟩
    · rw [if_neg hused]
      exact Or.inr ⟨_, rfl, ⟨by omega, by omega, Bool.eq_false_iff.mpr hused⟩, rfl⟩

/-- A listener is removed by its id. -/
theorem mem_eraseP_id (h : (listeners.map MultiDisplayListener.id).Nodup) {n : ℕ} :
    l ∈ listeners.eraseP (fun l => l.id == n) ↔ l ∈ listeners ∧ l.id ≠ n := by
  induction listeners with
  | nil => simp
  | cons first listeners ih =>
    rw [List.map_cons, List.nodup_cons, List.mem_map] at h
    obtain ⟨hfirst, h⟩ := h
    by_cases hid : first.id = n
    · have heq : (first.id == n) = true := beq_iff_eq.mpr hid
      rw [List.eraseP_cons, heq, cond_true, List.mem_cons]
      constructor
      · exact fun hl => ⟨Or.inr hl, fun hl' => hfirst ⟨l, hl, hl'.trans hid.symm⟩⟩
      · rintro ⟨rfl | hl, hl'⟩
        · exact absurd hid hl'
        · exact hl
    · have hne : (first.id == n) = false := beq_eq_false_iff_ne.mpr hid
      rw [List.eraseP_cons, hne, cond_false, List.mem_cons, List.mem_cons, ih h]
      constructor
      · rintro (rfl | ⟨hl, hl'⟩)
        · exact ⟨Or.inl rfl, hid⟩
        · exact ⟨Or.inr hl, hl'⟩
      · rintro ⟨rfl | hl, hl'⟩
        · exact Or.inl rfl
        · exact Or.inr ⟨hl, hl'⟩

/-- Removing keeps the agreement. -/
theorem Agrees.removed (h : Agrees max r) (id : ℤ) :
    Agrees max (r.1.unregisterListener id, .removed id :: r.2) := by
  rw [unregisterListener]
  split_ifs with hid
  · refine ⟨h.distinct, h.inRange, fun l => ?_⟩
    have hne : id ≠ l.id := by omega
    rw [holder, if_neg hne, h.held]
  · obtain ⟨n, rfl⟩ := Int.eq_ofNat_of_zero_le (Int.not_lt.mp hid)
    have hsublist := List.eraseP_sublist (p := fun l : MultiDisplayListener β => l.id == n)
      (l := r.1.listeners)
    refine ⟨h.distinct.sublist (hsublist.map _), fun l hl => h.inRange l (hsublist.subset hl),
      fun l => ?_⟩
    rw [holder, Int.toNat_natCast, mem_eraseP_id h.distinct, h.held]
    by_cases hn : (n : ℤ) = l.id
    · rw [if_pos hn]
      exact ⟨fun hl => absurd (Int.natCast_inj.mp hn).symm hl.2, fun hl => nomatch hl⟩
    · rw [if_neg hn]
      exact and_iff_left fun heq => hn (congrArg _ heq.symm)

/-- Giving a free id keeps it. -/
theorem Agrees.given (h : Agrees max r) (hid : l.id < max) (hfree : used r.1.listeners l.id = false)
    (next : ℕ) : Agrees max (⟨next, l :: r.1.listeners⟩, .given l :: r.2) := by
  have hne := used_eq_false_iff.mp hfree
  refine ⟨?_, ?_, fun l' => ?_⟩
  · rw [List.map_cons, List.nodup_cons, List.mem_map]
    exact ⟨fun ⟨l', hl', heq⟩ => hne l' hl' heq, h.distinct⟩
  · exact List.forall_mem_cons.mpr ⟨hid, h.inRange⟩
  · rw [List.mem_cons, h.held, holder]
    by_cases heq : l.id = l'.id
    · rw [if_pos heq]
      have hnone : holder r.2 l'.id = none := heq ▸ (h.used_eq_false l.id).mp hfree
      rw [hnone]
      constructor
      · rintro (rfl | hl)
        · rfl
        · cases hl
      · exact fun hl => Or.inl (Option.some.inj hl).symm
    · rw [if_neg heq]
      exact or_iff_right fun hl => heq (congrArg MultiDisplayListener.id hl.symm)

/-- What holds in every run: the state is right, and the id that is prepared follows the last one. -/
structure Sound (max : ℕ) (r : Run β) : Prop extends Agrees max r where
  prepared : r.1.listenerId = follower max r.2

/-- The id given is the first that is free. -/
theorem Agrees.validId_eq (h : Agrees max r) :
    validId max r.1.listeners =
      ((List.range max).find? fun id => (holder r.2 id).isNone).getD max := by
  have hused : ∀ id, (!used r.1.listeners id) = (holder r.2 id).isNone := by
    intro id
    rw [h.used_eq, Option.not_isSome]
  simp only [validId, hused]

/-- Every call keeps the table sound. -/
theorem Sound.step (h : Sound max r) {call : ListenerCall β}
    (hcall : ∀ a, call = .register a → a.Valid) : Sound max (step max r call) := by
  cases call with
  | unregister id =>
    have hid : (r.1.unregisterListener id).listenerId = r.1.listenerId := by
      rw [unregisterListener]
      split_ifs <;> rfl
    exact ⟨h.toAgrees.removed id, hid.trans h.prepared⟩
  | register a =>
    rw [ListenerTable.step]
    obtain ⟨hstep, -⟩ | ⟨l, hid, ⟨-, hlt, hfree⟩, hstep⟩ :=
      @registerListener_cases _ max r.1 a (hcall a rfl)
    · rw [hstep]
      exact h
    · rw [hstep]
      have hagrees := h.toAgrees.given (hid ▸ hlt) (hid ▸ hfree)
      refine ⟨hagrees _, ?_⟩
      change (if max ≤ r.1.listenerId + 1 then _ else _) = follower max (.given l :: r.2)
      rw [follower, hid, (hagrees 0).validId_eq]
      split_ifs with hwrap hlast hlast
      · omega
      · rfl
      · rfl
      · omega

/-- So does every history. -/
theorem sound_run {calls : List (ListenerCall β)} (hcalls : ∀ a, .register a ∈ calls → a.Valid) :
    Sound max (run max calls) := by
  induction calls using List.reverseRecOn with
  | nil =>
    refine ⟨⟨List.nodup_nil, List.forall_mem_nil _, fun l => ?_⟩, rfl⟩
    exact iff_of_false List.not_mem_nil fun hl => nomatch hl
  | append_singleton calls call ih =>
    rw [run, List.foldl_append]
    refine (ih fun a ha => hcalls a (List.mem_append_left _ ha)).step fun a ha => ?_
    exact hcalls a (ha ▸ List.mem_append_right _ (List.mem_singleton.mpr rfl))

/-- When a registration fails only because the table is full. -/
theorem Sound.succeeds_iff (h : Sound max r) {a : ListenerArguments β} (ha : a.Valid) :
    Succeeds max r.1 a ↔ FollowerFree max r := by
  rw [Succeeds, FollowerFree, ← h.prepared, ← h.used_eq_false]
  obtain ⟨hstep, hnot⟩ | ⟨l, -, hall, hstep⟩ := @registerListener_cases _ max r.1 a ha
  · rw [hstep]
    constructor
    · exact fun hiff hlt => absurd (hiff.mpr hlt) Bool.false_ne_true
    · exact fun hfree => iff_of_false Bool.false_ne_true fun hlt => hnot ⟨hlt, hfree hlt⟩
  · rw [hstep]
    exact iff_of_true (iff_of_true rfl hall.1) fun _ => hall.2

/-! ### All runs -/

/-- The table in all states of a run, and its registrations, are as they should be. -/
def Lawful (max : ℕ) (calls : List (ListenerCall β)) : Prop :=
  ∀ before after, calls = before ++ after → Agrees max (run max before) ∧
    ∀ a, after.head? = some (.register a) → Succeeds max (run max before).1 a

/-- Ids are different, in range, and removed as they were given. A registration fails for a full table
only, just if in every run the id that follows the last one is free whenever the table is not full. -/
theorem register_succeeds_iff (max : ℕ) (calls : List (ListenerCall β))
    (hcalls : ∀ a, .register a ∈ calls → a.Valid) :
    (∀ before after, calls = before ++ after → Agrees max (run max before)) ∧
    (Lawful max calls ↔ ∀ before a after, calls = before ++ .register a :: after →
      FollowerFree max (run max before)) := by
  have hsound : ∀ {before after}, calls = before ++ after → Sound max (run max before) := by
    rintro before after rfl
    exact sound_run fun a ha => hcalls a (List.mem_append_left _ ha)
  refine ⟨fun before after heq => (hsound heq).toAgrees, fun h before a after heq => ?_,
    fun h before after heq => ⟨(hsound heq).toAgrees, fun a ha => ?_⟩⟩
  · have ha : a.Valid := hcalls a (heq ▸ List.mem_append_right _ (List.mem_cons_self ..))
    exact ((hsound heq).succeeds_iff ha).mp ((h before _ heq).2 a rfl)
  · obtain ⟨after, rfl⟩ := List.head?_eq_some_iff.mp ha
    have hvalid : a.Valid := hcalls a (heq ▸ List.mem_append_right _ (List.mem_cons_self ..))
    exact ((hsound heq).succeeds_iff hvalid).mpr (h before a after heq)

/-- Arguments of a registration. -/
def videoDriver : ListenerArguments Unit := ⟨some (), some "VideoDriver", 1⟩

/-- These listeners are valid. -/
theorem valid_calls : ∀ a, ListenerCall.register a ∈
    [.register videoDriver, .unregister 0, .register videoDriver] → a.Valid := by
  intro a ha
  simp only [List.mem_cons, ListenerCall.register.injEq, reduceCtorEq, List.not_mem_nil, or_false,
    false_or, or_self] at ha
  exact ha ▸ ⟨rfl, rfl, by decide⟩

/-- A listener that leaves before the ids have been used up makes room. -/
theorem register_succeeds_twice :
    Lawful 2 [.register videoDriver, .unregister 0, .register videoDriver] := by
  refine (register_succeeds_iff 2 _ valid_calls).2.mpr fun before a after heq => ?_
  match before with
  | [] => exact fun _ => ⟨by decide, rfl⟩
  | [_] => cases heq
  | [_, _] =>
    cases heq
    exact fun _ => ⟨by decide, rfl⟩
  | _ :: _ :: _ :: before =>
    have hlength := congrArg List.length heq
    simp only [List.length_append, List.length_cons, List.length_nil] at hlength
    omega

/-- If all ids have been given and no listener had left by then, none is registered any more. -/
theorem table_stays_full :
    ¬ ∀ (max : ℕ), 1 ≤ max → ∀ calls : List (ListenerCall Unit),
      (∀ a, .register a ∈ calls → a.Valid) → Lawful max calls := by
  intro h
  have hlawful := h 1 (Nat.le_refl 1) [.register videoDriver, .unregister 0, .register videoDriver]
    valid_calls
  have hsucceeds := (hlawful [.register videoDriver, .unregister 0] [.register videoDriver] rfl).2
    videoDriver rfl
  exact absurd (hsucceeds.mpr (by decide)) (by decide)

end ListenerTable

end HardwareIntel.MultiDisplay
