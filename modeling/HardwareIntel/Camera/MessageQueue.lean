import HardwareIntel.Library.Runs
import Mathlib.Data.List.Perm.Basic
import Mathlib.Data.List.Perm.Subperm
import Mathlib.Data.List.Nodup
import Mathlib.Data.Int.Notation

/-!
# The message queue of the camera threads

Every camera thread owns a `MessageQueue` (`libcamera2/MessageQueue.h`). Other threads send
messages, some of them and wait for the reply, or remove those with a given id; the thread itself
receives the messages and replies. `send`, `remove` and `receive` are made of critical sections
under two kinds of mutexes, one for the list and one for each reply id, and a step of the system is
one critical section.

The list of what was sent, received, removed and replied to, and the record of who has completed a
send, are read by nothing in the code. `messages_accounted` says that a send is completed by its own
message, as long as `remove` replies to nobody whose message it has not removed.
-/

namespace HardwareIntel.Camera

open List Option Function

/-- `status_t` -/
abbrev Status := ℤ

def wouldBlock : Status := -11
def invalidOperation : Status := -38

/-- A message, with the number of its `send`. It is sent with its id as reply id (`sync`), or
without one. -/
structure Message where
  number : ℕ
  id : ℕ
  sync : Bool
  deriving DecidableEq

/-! ### The critical sections -/

structure MessageQueue where
  numReply : ℕ
  list : List Message
  replyStatus : ℕ → Status

namespace MessageQueue

/-- The first section of `send`. -/
def push (q : MessageQueue) (msg : Message) : MessageQueue :=
  { q with
    list := msg :: q.list
    replyStatus :=
      if msg.sync then Function.update q.replyStatus msg.id wouldBlock else q.replyStatus }

/-- The section of `remove` that walks through the list. -/
def erase (q : MessageQueue) (id : ℕ) : MessageQueue :=
  { q with list := q.list.filter fun msg => msg.id != id }

/-- The section of `receive` when the list is not empty. -/
def pop (q : MessageQueue) : MessageQueue := { q with list := q.list.dropLast }

def reply (q : MessageQueue) (replyId : ℕ) (status : Status) : MessageQueue :=
  { q with replyStatus := Function.update q.replyStatus replyId status }

end MessageQueue

/-- Who has set a reply status: the receiver, for a message, or `remove`. -/
inductive Completion
  | reply (msg : Message)
  | removal
  deriving DecidableEq

/-- A synchronous `send` that has returned. -/
structure Return where
  msg : Message
  status : Status
  completedBy : Option Completion
  deriving DecidableEq

/-- The section that a call of `remove` comes to next. -/
inductive RemovePhase
  | erase
  | reply
  deriving DecidableEq

/-- The queue with the calls under way, and what has happened to the messages, oldest first. -/
structure System where
  queue : MessageQueue
  /-- the synchronous sends that have not returned -/
  waiting : List Message
  removers : List (ℕ × RemovePhase)
  /-- the synchronous messages that the receiver has still to reply to -/
  toReply : List Message
  sent : List Message
  received : List Message
  removed : List Message
  replies : List (Message × Status)
  /-- who has set each status since a `send` has set it to `WOULD_BLOCK` -/
  completion : ℕ → Option Completion
  returned : List Return

/-- A new queue. -/
def System.new (numReply : ℕ) (replyStatus : ℕ → Status) : System where
  queue := ⟨numReply, [], replyStatus⟩
  waiting := []
  removers := []
  toReply := []
  sent := []
  received := []
  removed := []
  replies := []
  completion := fun _ => none
  returned := []

inductive QueueStep
  | send (id : ℕ) (sync : Bool)
  /-- a blocked sender wakes up -/
  | wake (msg : Message)
  | receive
  | reply (msg : Message) (status : Status)
  /-- `remove` looks whether the queue is empty -/
  | remove (id : ℕ)
  | removeErase (id : ℕ)
  | removeReply (id : ℕ)

namespace System

/-- The first section of `send`, for a call that may be synchronous. -/
def send (s : System) (id : ℕ) (sync : Bool) : System :=
  let msg : Message := ⟨s.sent.length, id, sync⟩
  { s with
    queue := s.queue.push msg
    waiting := if sync then msg :: s.waiting else s.waiting
    sent := s.sent ++ [msg]
    completion := if sync then Function.update s.completion id none else s.completion }

/-- The last section of a synchronous `send`. -/
def sendReturn (s : System) (msg : Message) : System :=
  { s with
    waiting := s.waiting.erase msg
    returned := s.returned ++
      [⟨msg, s.queue.replyStatus msg.id, s.completion msg.id⟩] }

def receive (s : System) (msg : Message) : System :=
  { s with
    queue := s.queue.pop
    toReply := if msg.sync then msg :: s.toReply else s.toReply
    received := s.received ++ [msg] }

def reply (s : System) (msg : Message) (status : Status) : System :=
  { s with
    queue := s.queue.reply msg.id status
    toReply := s.toReply.erase msg
    replies := s.replies ++ [(msg, status)]
    completion := Function.update s.completion msg.id (some (.reply msg)) }

def removeErase (s : System) (id : ℕ) : System :=
  { s with
    queue := s.queue.erase id
    removers := s.removers.erase (id, .erase) ++ if 0 < s.queue.numReply then [(id, .reply)] else []
    removed := s.removed ++ s.queue.list.filter fun msg => msg.id == id }

def removeReply (s : System) (id : ℕ) : System :=
  { s with
    queue := s.queue.reply id invalidOperation
    removers := s.removers.erase (id, .reply)
    completion := Function.update s.completion id (some .removal) }

/-- One critical section. A synchronous message uses a reply id that exists and that nobody waits
for, and the receiver replies once to each one it has received. A synchronous `send` to a queue
without replies returns `BAD_VALUE`. -/
def step (s : System) : QueueStep → Option System
  | .send id sync =>
    if sync && s.queue.numReply == 0 then some s
    else if sync && (s.queue.numReply ≤ id || s.waiting.any fun msg => msg.id == id) then none
    else some (s.send id sync)
  | .wake msg =>
    if msg ∈ s.waiting ∧ s.queue.replyStatus msg.id ≠ wouldBlock then some (s.sendReturn msg)
    else none
  | .receive => s.queue.list.getLast?.map s.receive
  | .reply msg status => if msg ∈ s.toReply then some (s.reply msg status) else none
  | .remove id =>
    if s.queue.list = [] then some s
    else some { s with removers := s.removers ++ [(id, .erase)] }
  | .removeErase id => if (id, .erase) ∈ s.removers then some (s.removeErase id) else none
  | .removeReply id =>
    if (id, .reply) ∈ s.removers ∧ id < s.queue.numReply then some (s.removeReply id) else none

end System

/-! ### What is promised -/

/-- The send was completed by the reply to its own message, or because its message was removed. -/
def Return.Honest (s : System) (r : Return) : Prop :=
  (r.completedBy = some (.reply r.msg) ∧ (r.msg, r.status) ∈ s.replies ∧ r.msg ∉ s.removed ∧
      r.status ≠ invalidOperation) ∨
    (r.completedBy = some .removal ∧ r.msg ∈ s.removed ∧ r.status = invalidOperation)

/-- The messages are accounted for, and synchronous sends are completed by their own messages. -/
structure System.Sound (s : System) : Prop where
  /-- a message that was sent is in the queue, or was received, or was removed -/
  accounted : (s.queue.list ++ (s.received ++ s.removed)).Perm s.sent
  /-- no message is there twice -/
  distinct : s.sent.Nodup
  /-- messages are received in the order in which they were sent -/
  ordered : s.received.Sublist s.sent
  returned : ∀ r ∈ s.returned, r.Honest s

/-- The receiver does not reply with the status of a removal, and `remove` replies to no sender
whose message was not removed. -/
def System.keeps (s : System) : QueueStep → Bool
  | .reply _ status => status ≠ invalidOperation
  | .removeReply id => s.waiting.all fun msg => msg.id != id || s.removed.contains msg
  | _ => true

/-! ### The invariant -/

namespace System

/-- Where every message is, and what the status of each synchronous send stands for. -/
structure Tracked (s : System) : Prop where
  accounted : (s.queue.list ++ (s.received ++ s.removed)).Perm s.sent
  numbers : ∀ m ∈ s.sent, m.number < s.sent.length
  distinct : s.sent.Nodup
  ordered : (s.received ++ s.queue.list.reverse).Sublist s.sent
  unique : ∀ a ∈ s.waiting, ∀ b ∈ s.waiting, a.id = b.id → a = b
  queued : ∀ m ∈ s.queue.list, m.sync = true → m ∈ s.waiting ∧ s.completion m.id = none
  pending : ∀ m ∈ s.toReply, m ∈ s.received ∧ m ∈ s.waiting ∧ s.completion m.id = none
  pendingOnce : s.toReply.Nodup
  blocked : ∀ m ∈ s.waiting, s.completion m.id = none → s.queue.replyStatus m.id = wouldBlock
  replied : ∀ m ∈ s.waiting, ∀ c, s.completion m.id = some (.reply c) →
    c = m ∧ (m, s.queue.replyStatus m.id) ∈ s.replies
  dropped : ∀ m ∈ s.waiting, s.completion m.id = some .removal →
    m ∈ s.removed ∧ s.queue.replyStatus m.id = invalidOperation
  replies : ∀ r ∈ s.replies, r.1 ∈ s.received ∧ r.2 ≠ invalidOperation
  returned : ∀ r ∈ s.returned,
    (r.completedBy = some (.reply r.msg) ∧ (r.msg, r.status) ∈ s.replies) ∨
      (r.completedBy = some .removal ∧ r.msg ∈ s.removed ∧ r.status = invalidOperation)

variable {s : System} {m : Message}

theorem tracked_new (numReply : ℕ) (replyStatus : ℕ → Status) :
    (System.new numReply replyStatus).Tracked := by
  constructor <;> simp [System.new]

namespace Tracked

theorem nodup (h : s.Tracked) : (s.queue.list ++ (s.received ++ s.removed)).Nodup :=
  h.accounted.nodup_iff.mpr h.distinct

theorem notMem_received (h : s.Tracked) (hm : m ∈ s.queue.list) : m ∉ s.received := by
  intro hreceived
  exact disjoint_of_nodup_append h.nodup hm (mem_append_left _ hreceived)

theorem notMem_removed (h : s.Tracked) (hm : m ∈ s.queue.list) : m ∉ s.removed := by
  intro hremoved
  exact disjoint_of_nodup_append h.nodup hm (mem_append_right _ hremoved)

theorem received_notMem_removed (h : s.Tracked) (hm : m ∈ s.received) : m ∉ s.removed :=
  disjoint_of_nodup_append (nodup_append.mp h.nodup).2.1 hm

theorem sound (h : s.Tracked) : s.Sound where
  accounted := h.accounted
  distinct := h.distinct
  ordered := (sublist_append_left _ _).trans h.ordered
  returned := by
    intro r hr
    rcases h.returned r hr with ⟨hby, hreply⟩ | hremoval
    · obtain ⟨hreceived, hstatus⟩ := h.replies _ hreply
      exact Or.inl ⟨hby, hreply, h.received_notMem_removed hreceived, hstatus⟩
    · exact Or.inr hremoval

/-! ### The steps -/

theorem accounted_send (h : s.Tracked) (id : ℕ) (sync : Bool) :
    ((s.send id sync).queue.list ++ ((s.send id sync).received ++ (s.send id sync).removed)).Perm
      (s.send id sync).sent :=
  (h.accounted.cons _).trans (perm_append_singleton _ _).symm

theorem numbers_send (h : s.Tracked) (id : ℕ) (sync : Bool) :
    ∀ m ∈ (s.send id sync).sent, m.number < (s.send id sync).sent.length := by
  intro m hm
  simp only [System.send, mem_append, mem_singleton, length_append, length_singleton] at hm ⊢
  rcases hm with hm | rfl
  · exact Nat.lt_succ_of_lt (h.numbers m hm)
  · exact Nat.lt_succ_self _

theorem distinct_send (h : s.Tracked) (id : ℕ) (sync : Bool) : (s.send id sync).sent.Nodup := by
  have hnew : (⟨s.sent.length, id, sync⟩ : Message) ∉ s.sent :=
    fun hmem => absurd (h.numbers _ hmem) (by simp)
  exact List.Nodup.append h.distinct (nodup_singleton _) (by simpa using hnew)

theorem ordered_send (h : s.Tracked) (id : ℕ) (sync : Bool) :
    ((s.send id sync).received ++ (s.send id sync).queue.list.reverse).Sublist
      (s.send id sync).sent := by
  have hlist : (s.send id sync).queue.list.reverse =
      s.queue.list.reverse ++ [⟨s.sent.length, id, sync⟩] := reverse_cons
  rw [hlist, ← append_assoc]
  exact h.ordered.append_right _

theorem send (h : s.Tracked) (id : ℕ) (sync : Bool)
    (hfree : sync = true → ∀ m ∈ s.waiting, m.id ≠ id) : (s.send id sync).Tracked := by
  cases sync with
  | false =>
    refine { h with
      accounted := h.accounted_send id false, numbers := h.numbers_send id false
      distinct := h.distinct_send id false, ordered := h.ordered_send id false
      queued := ?_ }
    intro m hm hsync
    rcases mem_cons.mp hm with rfl | hm
    · cases hsync
    · exact h.queued m hm hsync
  | true =>
    have hother : ∀ m ∈ s.waiting, (s.send id true).completion m.id = s.completion m.id ∧
        (s.send id true).queue.replyStatus m.id = s.queue.replyStatus m.id := fun m hm =>
      ⟨update_of_ne (hfree rfl m hm) .., update_of_ne (hfree rfl m hm) ..⟩
    have hnew : (s.send id true).completion id = none ∧
        (s.send id true).queue.replyStatus id = wouldBlock :=
      ⟨update_self .., update_self ..⟩
    refine {
      accounted := h.accounted_send id true, numbers := h.numbers_send id true
      distinct := h.distinct_send id true, ordered := h.ordered_send id true
      unique := ?_, queued := ?_, pending := ?_, pendingOnce := h.pendingOnce
      blocked := ?_, replied := ?_, dropped := ?_, replies := h.replies, returned := h.returned }
    · intro a ha b hb hid
      rcases mem_cons.mp ha with rfl | ha <;> rcases mem_cons.mp hb with rfl | hb
      · rfl
      · exact absurd hid.symm (hfree rfl b hb)
      · exact absurd hid (hfree rfl a ha)
      · exact h.unique a ha b hb hid
    · intro m hm hsync
      rcases mem_cons.mp hm with rfl | hm
      · exact ⟨mem_cons_self .., hnew.1⟩
      · obtain ⟨hwaiting, hopen⟩ := h.queued m hm hsync
        exact ⟨mem_cons_of_mem _ hwaiting, (hother m hwaiting).1.trans hopen⟩
    · intro m hm
      obtain ⟨hreceived, hwaiting, hopen⟩ := h.pending m hm
      exact ⟨hreceived, mem_cons_of_mem _ hwaiting, (hother m hwaiting).1.trans hopen⟩
    · intro m hm hopen
      rcases mem_cons.mp hm with rfl | hm
      · exact hnew.2
      · rw [(hother m hm).1] at hopen
        rw [(hother m hm).2]
        exact h.blocked m hm hopen
    · intro m hm c hc
      rcases mem_cons.mp hm with rfl | hm
      · rw [hnew.1] at hc
        cases hc
      · rw [(hother m hm).1] at hc
        rw [(hother m hm).2]
        exact h.replied m hm c hc
    · intro m hm hc
      rcases mem_cons.mp hm with rfl | hm
      · rw [hnew.1] at hc
        cases hc
      · rw [(hother m hm).1] at hc
        rw [(hother m hm).2]
        exact h.dropped m hm hc

/-- A send returns whose status has been set. -/
theorem sendReturn (h : s.Tracked) (hm : m ∈ s.waiting)
    (hstatus : s.queue.replyStatus m.id ≠ wouldBlock) : (s.sendReturn m).Tracked := by
  have hset : s.completion m.id ≠ none := fun hopen => hstatus (h.blocked m hm hopen)
  have hstays : ∀ x ∈ s.waiting, s.completion x.id = none → x ∈ s.waiting.erase m := by
    intro x hx hopen
    refine (mem_erase_of_ne ?_).mpr hx
    rintro rfl
    exact hset hopen
  refine { h with
    unique := fun a ha b hb =>
      h.unique a (mem_of_mem_erase ha) b (mem_of_mem_erase hb)
    queued := fun x hx hsync => ⟨hstays x (h.queued x hx hsync).1 (h.queued x hx hsync).2,
      (h.queued x hx hsync).2⟩
    pending := fun x hx => ⟨(h.pending x hx).1, hstays x (h.pending x hx).2.1 (h.pending x hx).2.2,
      (h.pending x hx).2.2⟩
    blocked := fun x hx => h.blocked x (mem_of_mem_erase hx)
    replied := fun x hx => h.replied x (mem_of_mem_erase hx)
    dropped := fun x hx => h.dropped x (mem_of_mem_erase hx)
    returned := ?_ }
  intro r hr
  rcases mem_append.mp hr with hr | hr
  · exact h.returned r hr
  · obtain rfl := mem_singleton.mp hr
    cases hc : s.completion m.id with
    | none => exact absurd hc hset
    | some c =>
      cases c with
      | reply c =>
        obtain ⟨rfl, hreply⟩ := h.replied m hm c hc
        exact Or.inl ⟨rfl, hreply⟩
      | removal => exact Or.inr ⟨rfl, h.dropped m hm hc⟩

theorem receive (h : s.Tracked) (hm : s.queue.list.getLast? = some m) : (s.receive m).Tracked := by
  have hlist : s.queue.list = s.queue.list.dropLast ++ [m] :=
    (dropLast_append_getLast? m hm).symm
  have hlast : m ∈ s.queue.list := mem_of_getLast? hm
  have hmem : ∀ x ∈ s.queue.list.dropLast, x ∈ s.queue.list :=
    fun x hx => dropLast_subset _ hx
  refine { h with
    accounted := ?_, ordered := ?_
    queued := fun x hx => h.queued x (hmem x hx)
    pending := ?_, pendingOnce := ?_
    replies := fun r hr =>
      ⟨mem_append_left _ (h.replies r hr).1, (h.replies r hr).2⟩ }
  · have hsplit : (s.queue.list.dropLast ++ (s.received ++ [m] ++ s.removed)).Perm
        (s.queue.list.dropLast ++ [m] ++ (s.received ++ s.removed)) := by
      simp only [append_assoc, singleton_append]
      exact List.Perm.append_left _ perm_middle
    rw [← hlist] at hsplit
    exact hsplit.trans h.accounted
  · have hreverse : s.queue.list.reverse = m :: s.queue.list.dropLast.reverse := by
      nth_rewrite 1 [hlist]
      rw [reverse_append, reverse_singleton, singleton_append]
    have hordered := h.ordered
    rw [hreverse] at hordered
    simpa [System.receive, MessageQueue.pop] using hordered
  · intro x hx
    have hold : x ∈ s.toReply ∨ (m.sync = true ∧ x = m) := by
      by_cases hsync : m.sync = true
      · simp only [System.receive, hsync, if_true, mem_cons] at hx
        exact hx.symm.imp id fun hx => ⟨hsync, hx⟩
      · simp only [System.receive, hsync] at hx
        exact Or.inl hx
    rcases hold with hx | ⟨hsync, rfl⟩
    · obtain ⟨hreceived, hrest⟩ := h.pending x hx
      exact ⟨mem_append_left _ hreceived, hrest⟩
    · exact ⟨mem_append_right _ (mem_singleton_self _), h.queued x hlast hsync⟩
  · have hnot : m ∉ s.toReply := fun hx => h.notMem_received hlast (h.pending m hx).1
    by_cases hsync : m.sync = true
    · simp only [System.receive, hsync, if_true]
      exact h.pendingOnce.cons hnot
    · simp only [System.receive, hsync]
      exact h.pendingOnce

/-- The receiver replies to a message that it has received. -/
theorem reply (h : s.Tracked) (hm : m ∈ s.toReply) {status : Status}
    (hstatus : status ≠ invalidOperation) : (s.reply m status).Tracked := by
  obtain ⟨hreceived, hwaiting, hopen⟩ := h.pending m hm
  have hother : ∀ x ∈ s.waiting, x ≠ m → x.id ≠ m.id :=
    fun x hx hne hid => hne (h.unique x hx m hwaiting hid)
  have hcompletion : ∀ x ∈ s.waiting, x ≠ m →
      (s.reply m status).completion x.id = s.completion x.id :=
    fun x hx hne => update_of_ne (hother x hx hne) ..
  have hreply : ∀ x ∈ s.waiting, x ≠ m →
      (s.reply m status).queue.replyStatus x.id = s.queue.replyStatus x.id :=
    fun x hx hne => update_of_ne (hother x hx hne) ..
  have hnew : (s.reply m status).completion m.id = some (.reply m) ∧
      (s.reply m status).queue.replyStatus m.id = status :=
    ⟨update_self .., update_self ..⟩
  refine { h with
    queued := ?_, pending := ?_, pendingOnce := h.pendingOnce.erase m
    blocked := ?_, replied := ?_, dropped := ?_, replies := ?_, returned := ?_ }
  · intro x hx hsync
    have hne : x ≠ m := by
      rintro rfl
      exact h.notMem_received hx hreceived
    obtain ⟨hxwaiting, hxopen⟩ := h.queued x hx hsync
    exact ⟨hxwaiting, (hcompletion x hxwaiting hne).trans hxopen⟩
  · intro x hx
    obtain ⟨hne, hx⟩ := (h.pendingOnce.mem_erase_iff).mp hx
    obtain ⟨hxreceived, hxwaiting, hxopen⟩ := h.pending x hx
    exact ⟨hxreceived, hxwaiting, (hcompletion x hxwaiting hne).trans hxopen⟩
  · intro x hx hxopen
    by_cases hne : x = m
    · rw [hne, hnew.1] at hxopen
      cases hxopen
    · rw [hcompletion x hx hne] at hxopen
      rw [hreply x hx hne]
      exact h.blocked x hx hxopen
  · intro x hx c hc
    by_cases hne : x = m
    · rw [hne, hnew.1] at hc
      rw [hne, hnew.2]
      refine ⟨?_, mem_append_right _ (mem_singleton_self _)⟩
      exact (Completion.reply.inj (some.inj hc)).symm
    · rw [hcompletion x hx hne] at hc
      rw [hreply x hx hne]
      exact ⟨(h.replied x hx c hc).1, mem_append_left _ (h.replied x hx c hc).2⟩
  · intro x hx hc
    by_cases hne : x = m
    · rw [hne, hnew.1] at hc
      cases hc
    · rw [hcompletion x hx hne] at hc
      rw [hreply x hx hne]
      exact h.dropped x hx hc
  · intro r hr
    rcases mem_append.mp hr with hr | hr
    · exact h.replies r hr
    · obtain rfl := mem_singleton.mp hr
      exact ⟨hreceived, hstatus⟩
  · intro r hr
    exact (h.returned r hr).imp (And.imp_right (mem_append_left _)) fun hr => hr

theorem removeErase (h : s.Tracked) (id : ℕ) : (s.removeErase id).Tracked := by
  have hmem : ∀ x ∈ (s.queue.erase id).list, x ∈ s.queue.list :=
    fun x hx => mem_of_mem_filter hx
  refine { h with
    accounted := ?_, ordered := ?_
    queued := fun x hx => h.queued x (hmem x hx)
    dropped := fun x hx hc =>
      ⟨mem_append_left _ (h.dropped x hx hc).1, (h.dropped x hx hc).2⟩
    returned := fun r hr => (h.returned r hr).imp (fun hr => hr)
      (And.imp_right (And.imp_left (mem_append_left _))) }
  · refine List.Perm.trans ?_ h.accounted
    have hsplit : ((s.queue.list.filter fun msg => msg.id == id) ++
        s.queue.list.filter fun msg => msg.id != id).Perm s.queue.list :=
      filter_append_perm _ _
    rw [perm_iff_count]
    intro x
    have hcount := hsplit.count_eq x
    simp only [System.removeErase, MessageQueue.erase, count_append] at hcount ⊢
    omega
  · refine List.Sublist.trans ?_ h.ordered
    exact List.Sublist.append_left (reverse_sublist.mpr filter_sublist) _

/-- `remove` replies, and whoever waits for that reply has lost its message. -/
theorem removeReply (h : s.Tracked) {id : ℕ}
    (hremoved : ∀ m ∈ s.waiting, m.id = id → m ∈ s.removed) : (s.removeReply id).Tracked := by
  have hcompletion : ∀ x : Message, x.id ≠ id →
      (s.removeReply id).completion x.id = s.completion x.id :=
    fun x hne => update_of_ne hne ..
  have hreply : ∀ x : Message, x.id ≠ id →
      (s.removeReply id).queue.replyStatus x.id = s.queue.replyStatus x.id :=
    fun x hne => update_of_ne hne ..
  have hnew : (s.removeReply id).completion id = some .removal ∧
      (s.removeReply id).queue.replyStatus id = invalidOperation :=
    ⟨update_self .., update_self ..⟩
  refine { h with queued := ?_, pending := ?_, blocked := ?_, replied := ?_, dropped := ?_ }
  · intro x hx hsync
    obtain ⟨hwaiting, hopen⟩ := h.queued x hx hsync
    have hne : x.id ≠ id := fun hid => h.notMem_removed hx (hremoved x hwaiting hid)
    exact ⟨hwaiting, (hcompletion x hne).trans hopen⟩
  · intro x hx
    obtain ⟨hreceived, hwaiting, hopen⟩ := h.pending x hx
    have hne : x.id ≠ id := fun hid =>
      h.received_notMem_removed hreceived (hremoved x hwaiting hid)
    exact ⟨hreceived, hwaiting, (hcompletion x hne).trans hopen⟩
  · intro x hx hopen
    by_cases hid : x.id = id
    · rw [hid, hnew.1] at hopen
      cases hopen
    · rw [hcompletion x hid] at hopen
      rw [hreply x hid]
      exact h.blocked x hx hopen
  · intro x hx c hc
    by_cases hid : x.id = id
    · rw [hid, hnew.1] at hc
      cases hc
    · rw [hcompletion x hid] at hc
      rw [hreply x hid]
      exact h.replied x hx c hc
  · intro x hx hc
    by_cases hid : x.id = id
    · rw [hid]
      exact ⟨hremoved x hx hid, hnew.2⟩
    · rw [hcompletion x hid] at hc
      rw [hreply x hid]
      exact h.dropped x hx hc

/-- One critical section. -/
theorem step {x : QueueStep} {t : System} (h : s.Tracked) (hkeeps : s.keeps x = true)
    (hstep : s.step x = some t) : t.Tracked := by
  cases x with
  | send id sync =>
    simp only [System.step] at hstep
    split at hstep
    · rw [← Option.some.inj hstep]
      exact h
    · split at hstep
      · cases hstep
      · rename_i hguard
        rw [← Option.some.inj hstep]
        refine h.send id sync fun hsync m hm hid => hguard ?_
        simp only [hsync, Bool.true_and, Bool.or_eq_true, List.any_eq_true, beq_iff_eq]
        exact Or.inr ⟨m, hm, hid⟩
  | wake m =>
    obtain ⟨hready, hstep⟩ := Option.ite_none_right_eq_some.mp hstep
    rw [← Option.some.inj hstep]
    exact h.sendReturn hready.1 hready.2
  | receive =>
    obtain ⟨m, hm, rfl⟩ := Option.map_eq_some_iff.mp hstep
    exact h.receive hm
  | reply m status =>
    obtain ⟨hm, hstep⟩ := Option.ite_none_right_eq_some.mp hstep
    rw [← Option.some.inj hstep]
    exact h.reply hm (by simpa [keeps] using hkeeps)
  | remove id =>
    simp only [System.step] at hstep
    split at hstep <;> rw [← Option.some.inj hstep]
    · exact h
    · exact { h with }
  | removeErase id =>
    obtain ⟨-, hstep⟩ := Option.ite_none_right_eq_some.mp hstep
    rw [← Option.some.inj hstep]
    exact h.removeErase id
  | removeReply id =>
    obtain ⟨-, hstep⟩ := Option.ite_none_right_eq_some.mp hstep
    rw [← Option.some.inj hstep]
    refine h.removeReply fun m hm hid => ?_
    have hmsg := List.all_eq_true.mp hkeeps m hm
    simpa [hid] using hmsg

end Tracked

end System

/-- In every run in which the receiver does not reply `INVALID_OPERATION`, and `remove` replies to no
sender whose message it has not removed, all messages are accounted for, and each synchronous send
is completed by its own message. -/
theorem messages_accounted {numReply : ℕ} {replyStatus : ℕ → Status} {s : System}
    (hrun : Reach System.step (fun s x => s.keeps x = true) (System.new numReply replyStatus) s) :
    s.Sound :=
  (hrun.invariant (System.tracked_new numReply replyStatus) fun _ _ _ => System.Tracked.step).sound

/-- A message is sent, removed and its sender completed, and another one with the same id is
received and replied to. -/
theorem messages_accounted_same_id : ∃ s : System, s.Sound ∧
    s.returned.map (·.status) = [invalidOperation, 0] ∧ s.removed.length = 1 := by
  obtain ⟨s, -, hs⟩ : ∃ s, Reach System.step (fun s x => s.keeps x = true)
      (System.new 1 fun _ => 0) s ∧ s.Sound ∧ s.returned.map (·.status) = [invalidOperation, 0] ∧
        s.removed.length = 1 :=
    Reach.exists_of_decide (fun _ hrun h => ⟨messages_accounted hrun, h⟩)
      [.send 0 true, .remove 0, .removeErase 0, .removeReply 0, .wake ⟨0, 0, true⟩, .send 0 true,
        .receive, .reply ⟨1, 0, true⟩ 0, .wake ⟨1, 0, true⟩] (by decide)
  exact ⟨s, hs⟩

/-- `remove` finds another message in the queue, removes nothing, and completes a send whose message
has been received and not yet replied to. -/
theorem received_send_completed_by_removal : ¬ ∀ (numReply : ℕ) (replyStatus : ℕ → Status)
    (s : System), Reach System.step (fun _ x => ∀ msg, x ≠ .reply msg invalidOperation)
      (System.new numReply replyStatus) s → s.Sound := by
  intro h
  obtain ⟨s, hrun, hs⟩ := @Reach.exists_of_exec _ _ System.step
    (fun _ x => ∀ msg, x ≠ .reply msg invalidOperation)
    (fun _ x => match x with
      | .reply _ status => status != invalidOperation
      | _ => true)
    (fun s => s.returned == [⟨⟨0, 0, true⟩, invalidOperation, some .removal⟩] && s.removed == [])
    (System.new 1 fun _ => 0)
    (by rintro _ _ hx msg rfl; simp at hx)
    [.send 0 true, .send 1 false, .receive, .remove 0, .removeErase 0, .removeReply 0,
      .wake ⟨0, 0, true⟩] (by decide)
  rw [Bool.and_eq_true, beq_iff_eq, beq_iff_eq] at hs
  have hreturn := (h 1 (fun _ => 0) s hrun).returned ⟨⟨0, 0, true⟩, invalidOperation, some .removal⟩
    (by rw [hs.1]; exact mem_singleton_self _)
  rcases hreturn with ⟨-, -, -, hstatus⟩ | ⟨-, hremoved, -⟩
  · exact hstatus rfl
  · rw [hs.2] at hremoved
    cases hremoved

end HardwareIntel.Camera
