import HardwareIntel.Library.Runs
import HardwareIntel.Mmgr.Client
import Mathlib.Data.List.Nodup

/-!
# Histories of the client table

Clients come and go, and give names, filters and acknowledgements, in any order. The number of
clients in use is what the table counts, their descriptors are distinct, and the entry that a new
client gets has nothing left of the client before (`client_table_invariant`).

`accept` returns no descriptor that is open; a handle may be that of an entry that is free again.
-/

namespace HardwareIntel.Mmgr

open List Option

/-! ## Calls -/

/-- The calls that change the table. -/
inductive TableCall
  | clientAdd (fd : Int)
  | clientRemove (fd : Int)
  | clientSetName (client : ℕ) (name : Bytes)
  | clientSetFilter (client : ℕ) (subscription : ℕ)
  | clientSetRequest (client : ℕ) (req : CnxRequest)
  | clientUnsetRequest (client : ℕ) (req : CnxRequest)

/-- The descriptors of the clients (the entries in use). -/
def ClientList.openFds (cl : ClientList) : List Int :=
  (cl.list.filter Client.isConnected).map Client.fd

/-- A call. A client that is not added leaves the table as it is. -/
def tableStep (cl : ClientList) : TableCall → Option ClientList
  | .clientAdd fd => some ((cl.add fd).getD cl)
  | .clientRemove fd => some (cl.remove fd)
  | .clientSetName client name => some (cl.update client (Client.setName name))
  | .clientSetFilter client subscription => some (cl.update client (Client.setFilter subscription))
  | .clientSetRequest client req => some (cl.update client (Client.setRequest req))
  | .clientUnsetRequest client req => some (cl.update client (Client.unsetRequest req))

/-- A new descriptor is open, and no other client has it. -/
def Accepted (cl : ClientList) : TableCall → Prop
  | .clientAdd fd => fd ≠ closedFd ∧ fd ∉ cl.openFds
  | _ => True

instance (cl : ClientList) : (call : TableCall) → Decidable (Accepted cl call)
  | .clientAdd fd => inferInstanceAs (Decidable (fd ≠ closedFd ∧ fd ∉ cl.openFds))
  | .clientRemove _ | .clientSetName _ _ | .clientSetFilter _ _ | .clientSetRequest _ _
  | .clientUnsetRequest _ _ => isTrue trivial

/-- The table counts its clients, and their descriptors are distinct. -/
structure Table (n : ℕ) (cl : ClientList) : Prop where
  size : cl.list.length = n
  connected : cl.connected = cl.list.countP Client.isConnected
  distinct : cl.openFds.Nodup

/-! ## Entries -/

section Entries

variable {cl cl' : ClientList} {fd : Int} {n : ℕ} {a b : List Client} {c : Client}

theorem isConnected_initClient (hfd : fd ≠ closedFd) : (initClient fd).isConnected = true :=
  bne_iff_ne.mpr hfd

/-- A client that has said nothing is told what its requests come to, and nothing else. -/
theorem isSubscribed_initClient (fd : Int) (ev : Event) :
    (initClient fd).isSubscribed ev = true ↔ ev = .ack ∨ ev = .nack := by
  have hmask : ∀ ev : Event,
      (initClient closedFd).isSubscribed ev = true ↔ ev = .ack ∨ ev = .nack := by
    intro ev
    cases ev <;> decide
  exact hmask ev

/-- The first free entry is filled. -/
theorem ClientList.fillFirst_eq {e : Client} {k l : List Client}
    (h : ClientList.fillFirst e k = some l) :
    ∃ a c b, k = a ++ c :: b ∧ l = a ++ e :: b ∧ c.isConnected = false ∧
      ∀ d ∈ a, d.isConnected = true := by
  induction k generalizing l with
  | nil => exact absurd h (by simp [ClientList.fillFirst])
  | cons d k ih =>
    rw [ClientList.fillFirst] at h
    split at h
    · rename_i hfree
      obtain rfl := some.inj h
      exact ⟨[], d, k, rfl, rfl, by simp [Client.isConnected, hfree], by simp⟩
    · rename_i hused
      obtain ⟨l', hl', rfl⟩ := map_eq_some_iff.mp h
      obtain ⟨a, c, b, rfl, rfl, hfree, hbefore⟩ := ih hl'
      refine ⟨d :: a, c, b, rfl, rfl, hfree, fun x hx => ?_⟩
      rcases mem_cons.mp hx with rfl | hx
      · exact bne_iff_ne.mpr hused
      · exact hbefore x hx

/-- No entry is filled iff all are in use. -/
theorem ClientList.fillFirst_eq_none_iff {e : Client} {k : List Client} :
    ClientList.fillFirst e k = none ↔ ∀ c ∈ k, c.isConnected = true := by
  induction k with
  | nil => simp [ClientList.fillFirst]
  | cons d k ih =>
    rw [ClientList.fillFirst]
    split
    · rename_i hfree
      simp [Client.isConnected, hfree]
    · rename_i hused
      simp [Client.isConnected, hused, ih]

/-- A descriptor that is closed is taken out of its entry; another changes nothing. -/
theorem ClientList.remove_eq (cl : ClientList) (fd : Int) :
    cl.remove fd = cl ∨ ∃ a c b, cl.list = a ++ c :: b ∧ c.isConnected = true ∧
      cl.remove fd = ⟨a ++ { c with fd := closedFd } :: b, cl.connected - 1⟩ := by
  unfold ClientList.remove
  split
  · exact .inl rfl
  · rename_i i hfind
    refine .inr ?_
    unfold ClientList.find at hfind
    split at hfind
    · exact absurd hfind (by simp)
    rename_i hfd
    obtain ⟨hlt, heq, -⟩ := List.findIdx?_eq_some_iff_getElem.mp hfind
    refine ⟨cl.list.take i, cl.list[i], cl.list.drop (i + 1), ?_, ?_, ?_⟩
    · rw [← drop_eq_getElem_cons hlt, take_append_drop]
    · rw [Client.isConnected, beq_iff_eq.mp heq]
      exact bne_iff_ne.mpr hfd
    · rw [modify_eq_take_cons_drop hlt]

/-- The descriptors, where one entry is looked at. -/
theorem ClientList.openFds_eq (h : cl.list = a ++ c :: b) :
    cl.openFds = (a.filter Client.isConnected).map Client.fd ++
      (if c.isConnected then [c.fd] else []) ++ (b.filter Client.isConnected).map Client.fd := by
  rw [ClientList.openFds, h, filter_append, filter_cons]
  split <;> simp

theorem Table.update {f : Client → Client} (h : Table n cl) (hf : ∀ c, (f c).fd = c.fd) (i : ℕ) :
    Table n (cl.update i f) := by
  have hmodify : ∀ l : List Client, (l.modify i f).map Client.fd = l.map Client.fd := by
    intro l
    induction l generalizing i with
    | nil => cases i <;> simp
    | cons c l ih =>
      cases i with
      | zero => simp [hf]
      | succ i => simpa using ih i
  have hopen : ∀ l : List Client, (l.filter Client.isConnected).map Client.fd =
      (l.map Client.fd).filter (· != closedFd) := by
    intro l
    rw [List.filter_map]
    rfl
  have hcount : ∀ l : List Client, l.countP Client.isConnected =
      (l.map Client.fd).countP (· != closedFd) := by
    intro l
    rw [List.countP_map]
    rfl
  constructor
  · rw [ClientList.update, List.length_modify, h.size]
  · rw [ClientList.update, hcount, hmodify, ← hcount]
    exact h.connected
  · rw [ClientList.openFds, ClientList.update, hopen, hmodify, ← hopen]
    exact h.distinct

theorem Table.add (h : Table n cl) (hfd : fd ≠ closedFd) (hnew : fd ∉ cl.openFds)
    (hadd : cl.add fd = some cl') : Table n cl' := by
  obtain ⟨l, hl, rfl⟩ := map_eq_some_iff.mp hadd
  obtain ⟨a, c, b, hlist, rfl, hfree, -⟩ := ClientList.fillFirst_eq hl
  have hused := isConnected_initClient hfd
  have hopen := ClientList.openFds_eq hlist
  rw [if_neg (by simp [hfree]), append_nil] at hopen
  constructor
  · rw [← h.size, hlist]
    simp
  · have hconnected := h.connected
    rw [hlist, countP_append, countP_cons_of_neg (by simp [hfree])] at hconnected
    dsimp only
    rw [hconnected, countP_append, countP_cons_of_pos hused]
    omega
  · rw [@ClientList.openFds_eq ⟨a ++ initClient fd :: b, cl.connected + 1⟩ a b _ rfl, if_pos hused,
      append_assoc, singleton_append, nodup_middle, nodup_cons, ← hopen]
    exact ⟨hnew, h.distinct⟩

theorem Table.remove (h : Table n cl) (fd : Int) : Table n (cl.remove fd) := by
  rcases cl.remove_eq fd with heq | ⟨a, c, b, hlist, hused, heq⟩
  · rw [heq]
    exact h
  · rw [heq]
    have hfree : ({ c with fd := closedFd } : Client).isConnected = false := by
      simp [Client.isConnected]
    have hopen := ClientList.openFds_eq hlist
    rw [if_pos hused, append_assoc, singleton_append] at hopen
    constructor
    · rw [← h.size, hlist]
      simp
    · have hconnected := h.connected
      rw [hlist, countP_append, countP_cons_of_pos hused] at hconnected
      dsimp only
      rw [hconnected, countP_append, countP_cons_of_neg (by simp [hfree])]
      omega
    · rw [@ClientList.openFds_eq ⟨a ++ { c with fd := closedFd } :: b, cl.connected - 1⟩ a b _ rfl,
        if_neg (by simp [hfree]), append_nil]
      have hdistinct := h.distinct
      rw [hopen, nodup_middle] at hdistinct
      exact hdistinct.of_cons

theorem table_clientsInit (n : ℕ) : Table n (clientsInit n) := by
  have hfree : ∀ c ∈ (clientsInit n).list, c.isConnected = false := by
    intro c hc
    rw [eq_of_mem_replicate hc]
    rfl
  constructor
  · exact length_replicate
  · rw [countP_eq_zero.mpr fun c hc => by simp [hfree c hc]]
    rfl
  · rw [ClientList.openFds, filter_eq_nil_iff.mpr fun c hc => by simp [hfree c hc]]
    exact nodup_nil

/-- A call keeps the table. -/
theorem Table.step (h : Table n cl) {call : TableCall} (hcall : Accepted cl call)
    (hstep : tableStep cl call = some cl') : Table n cl' := by
  cases call with
  | clientAdd fd =>
    rw [tableStep, some.injEq] at hstep
    subst hstep
    cases hadd : cl.add fd with
    | none => exact h
    | some cl' => exact h.add hcall.1 hcall.2 hadd
  | clientRemove fd =>
    obtain rfl := some.inj hstep
    exact h.remove fd
  | clientSetName client name =>
    obtain rfl := some.inj hstep
    exact h.update (fun _ => Client.setName_fd) client
  | clientSetFilter client subscription =>
    obtain rfl := some.inj hstep
    exact h.update (fun _ => Client.setFilter_fd) client
  | clientSetRequest client req =>
    obtain rfl := some.inj hstep
    exact h.update (fun _ => Client.setRequest_fd) client
  | clientUnsetRequest client req =>
    obtain rfl := some.inj hstep
    exact h.update (fun _ => Client.unsetRequest_fd) client

end Entries

/-- In every history of the table: it counts its clients, which are from none to all; their
descriptors are distinct; a client is not added iff all entries are in use; and otherwise it gets
the first free entry, which is set to that of a client that has said nothing. -/
theorem client_table_invariant {n : ℕ} {cl : ClientList}
    (hrun : Reach tableStep Accepted (clientsInit n) cl) :
    (cl.connected = cl.list.countP Client.isConnected ∧ 0 ≤ cl.connected ∧ cl.connected ≤ n) ∧
      cl.openFds.Nodup ∧
      ∀ fd, (cl.add fd = none ↔ cl.list.countP Client.isConnected = n) ∧
        ∀ cl', cl.add fd = some cl' → ∃ i c, cl.get? i = some c ∧ c.isConnected = false ∧
          cl'.list = cl.list.set i (initClient fd) ∧ ∀ flag ev,
            ((initClient fd).cnx flag = true ↔ flag = .resourceReleased) ∧
            ((initClient fd).isSubscribed ev = true ↔ ev = .ack ∨ ev = .nack) ∧
            (initClient fd).isRegistered = false := by
  have htable : Table n cl :=
    hrun.invariant (table_clientsInit n) fun _ _ _ ha hcall hb => ha.step hcall hb
  have hle : cl.list.countP Client.isConnected ≤ n := htable.size ▸ countP_le_length
  refine ⟨⟨htable.connected, ?_, ?_⟩, htable.distinct, fun fd => ⟨?_, fun cl' hadd => ?_⟩⟩
  · rw [htable.connected]
    omega
  · rw [htable.connected]
    omega
  · rw [ClientList.add, map_eq_none_iff, ClientList.fillFirst_eq_none_iff, ← htable.size,
      countP_eq_length]
  · obtain ⟨l, hl, rfl⟩ := map_eq_some_iff.mp hadd
    obtain ⟨a, c, b, hlist, rfl, hfree, -⟩ := ClientList.fillFirst_eq hl
    refine ⟨a.length, c, ?_, hfree, ?_, fun flag ev => ⟨?_, ?_, ?_⟩⟩
    · rw [ClientList.get?, hlist]
      simp
    · rw [hlist]
      simp
    · simp
    · exact isSubscribed_initClient fd ev
    · rfl

/-- With two entries: a client that has given its name leaves, and another gets its entry. -/
theorem client_table_invariant_reused :
    ∃ cl, Reach tableStep Accepted (clientsInit 2) cl ∧ cl.openFds = [7, 6] ∧ cl.connected = 2 ∧
      cl.add 9 = none :=
  Reach.exists_of_decide (fun cl hrun (h : cl.openFds = [7, 6] ∧ cl.connected = 2 ∧
      cl.list.countP Client.isConnected = 2) =>
    ⟨h.1, h.2.1, ((client_table_invariant hrun).2.2 9).1.mpr h.2.2⟩)
    [.clientAdd 5, .clientSetName 0 [82], .clientAdd 6, .clientRemove 5, .clientAdd 7]
    (by decide)

end HardwareIntel.Mmgr
