import HardwareIntel.Mmgr.Types
import Mathlib.Algebra.Group.Nat.Defs
import Mathlib.Logic.Function.Basic

/-!
# The client table

The table of `core/client.c`: a fixed number of entries, an entry being free when its descriptor
is `CLOSED_FD`. A client handle is a pointer to an entry, here the index of the entry.
The flags of a client record its acknowledgements and whether it has released the resource.
-/

namespace HardwareIntel.Mmgr

open List Option

/-- The descriptor of a free entry (`CLOSED_FD`). -/
def closedFd : Int := -1

/-- The longest client name kept (`CLIENT_NAME_LEN`). -/
def clientNameLen : ℕ := 64

/-- One entry of the table (`client_t`). -/
structure Client where
  /-- The name given by the client. -/
  name : Bytes
  /-- The socket of the client. -/
  fd : Int
  /-- The mask of the events it wants. -/
  subscription : ℕ
  /-- Its flags. -/
  cnx : CnxRequest → Bool

namespace Client

/-- The entry is in use. -/
def isConnected (c : Client) : Bool := c.fd != closedFd

/-- The client has given its name and its filter. -/
def isRegistered (c : Client) : Bool := c.cnx .name && c.cnx .filter

/-- The client wants the event `ev`. -/
def isSubscribed (c : Client) (ev : Event) : Bool := c.subscription.testBit ev.toId

/-- The client is connected and has not released the resource. -/
def holdsResource (c : Client) : Bool := c.isConnected && !c.cnx .resourceReleased

/-- Set a flag. -/
def setRequest (req : CnxRequest) (c : Client) : Client :=
  { c with cnx := Function.update c.cnx req true }

/-- Clear a flag. -/
def unsetRequest (req : CnxRequest) (c : Client) : Client :=
  { c with cnx := Function.update c.cnx req false }

/-- Store the name of the client: at most `CLIENT_NAME_LEN` bytes, up to the first NUL. -/
def setName (name : Bytes) (c : Client) : Client :=
  { c with
    name := (name.take clientNameLen).takeWhile (· != 0)
    cnx := Function.update c.cnx .name true }

/-- Store the subscription of the client. -/
def setFilter (subscription : ℕ) (c : Client) : Client :=
  { c with subscription := subscription, cnx := Function.update c.cnx .filter true }

end Client

/-- A fresh entry for the descriptor `fd`: only ACK and NACK are subscribed to. -/
def initClient (fd : Int) : Client where
  name := bytes "unknown"
  fd := fd
  subscription := 2 ^ Event.ack.toId ||| 2 ^ Event.nack.toId
  cnx := Function.update (fun _ => false) .resourceReleased true

/-- The client table (`client_list_t`); `list_size` is the length of the list. -/
structure ClientList where
  /-- The entries. -/
  list : List Client
  /-- The number of entries in use. -/
  connected : Int

/-- A table of `listSize` free entries. -/
def clientsInit (listSize : ℕ) : ClientList where
  list := List.replicate listSize (initClient closedFd)
  connected := 0

namespace ClientList

/-- The number of clients the table can hold. -/
def getAllowed (cl : ClientList) : Int := cl.list.length

/-- Put `c` in the first free entry. -/
def fillFirst (c : Client) : List Client → Option (List Client)
  | [] => none
  | d :: l => if d.fd = closedFd then some (c :: l) else (fillFirst c l).map (d :: ·)

/-- Add a client; `none` when the table is full. -/
def add (cl : ClientList) (fd : Int) : Option ClientList :=
  (fillFirst (initClient fd) cl.list).map fun l => { list := l, connected := cl.connected + 1 }

/-- The index of the client with descriptor `fd`. -/
def find (cl : ClientList) (fd : Int) : Option ℕ :=
  if fd = closedFd then none else cl.list.findIdx? (fun c => c.fd == fd)

/-- The entry behind a handle. -/
def get? (cl : ClientList) (i : ℕ) : Option Client := cl.list[i]?

/-- Update the entry behind a handle. -/
def update (cl : ClientList) (i : ℕ) (f : Client → Client) : ClientList :=
  { cl with list := cl.list.modify i f }

/-- Free the entry of the descriptor `fd`. -/
def remove (cl : ClientList) (fd : Int) : ClientList :=
  match cl.find fd with
  | none => cl
  | some i => { list := cl.list.modify i (fun c => { c with fd := closedFd }),
                connected := cl.connected - 1 }

/-- Every connected client subscribed to `ev` has the flag `flag`. -/
def checkAllAck (cl : ClientList) (flag : CnxRequest) (ev : Event) : Bool :=
  cl.list.all fun c => !(c.isConnected && c.isSubscribed ev && !c.cnx flag)

/-- Clear the flag `flag` of every connected client. -/
def resetAck (cl : ClientList) (flag : CnxRequest) : ClientList :=
  { cl with list := cl.list.map fun c => if c.isConnected then c.unsetRequest flag else c }

/-- Some client holds the resource. -/
def hasResource (cl : ClientList) : Bool := cl.list.any Client.holdsResource

/-- The entry of the client behind `fd`. -/
def entry (cl : ClientList) (fd : Int) : Option Client := (cl.find fd).bind cl.get?

/-- The client behind `fd` is connected and has not released the resource. -/
def holds (cl : ClientList) (fd : Int) : Bool :=
  (cl.entry fd).any fun c => !c.cnx .resourceReleased

/-- The descriptors of the connected clients that want `ev`. -/
def subscribers (cl : ClientList) (ev : Event) : List Int :=
  (cl.list.filter fun c => c.isConnected && c.isSubscribed ev).map Client.fd

end ClientList

/-- All subscribed clients have acknowledged the cold reset. -/
def clientsHasAckCold (cl : ClientList) : Bool :=
  cl.checkAllAck .coldReset .notifyModemColdReset

/-- All subscribed clients have acknowledged the shutdown. -/
def clientsHasAckShtdwn (cl : ClientList) : Bool :=
  cl.checkAllAck .modemShutdown .notifyModemShutdown

/-- Forget the acknowledgements of the cold reset. -/
def clientsResetAckCold (cl : ClientList) : ClientList := cl.resetAck .coldReset

/-- Forget the acknowledgements of the shutdown. -/
def clientsResetAckShtdwn (cl : ClientList) : ClientList := cl.resetAck .modemShutdown

/-! ## The entries after an operation -/

section Entries

variable {cl cl' : ClientList} {c : Client} {i : ℕ} {fd : Int} {f : Client → Client}

/-- After an update every entry is an old one or the updated one. -/
theorem ClientList.mem_update (hc : c ∈ (cl.update i f).list) :
    c ∈ cl.list ∨ ∃ d, cl.get? i = some d ∧ c = f d := by
  obtain ⟨j, hj⟩ := mem_iff_getElem?.mp hc
  rw [ClientList.update, List.getElem?_modify] at hj
  cases hd : cl.list[j]? with
  | none => simp [hd] at hj
  | some d =>
    by_cases hij : i = j
    · subst hij
      have hcd : f d = c := by simpa [hd] using hj
      exact Or.inr ⟨d, hd, hcd.symm⟩
    · have hcd : d = c := by simpa [hd, hij] using hj
      exact Or.inl (hcd ▸ mem_of_getElem? hd)

/-- The entry behind a handle is an entry. -/
theorem ClientList.mem_of_get? (hc : cl.get? i = some c) : c ∈ cl.list :=
  mem_of_getElem? hc

/-- The entry found for a descriptor has it. -/
theorem ClientList.fd_of_find (hfind : cl.find fd = some i) (hc : cl.get? i = some c) :
    c.fd = fd := by
  obtain ⟨-, hfind⟩ := ite_none_left_eq_some.mp hfind
  obtain ⟨hlt, heq, -⟩ := List.findIdx?_eq_some_iff_getElem.mp hfind
  rw [ClientList.get?, List.getElem?_eq_getElem hlt, some.injEq] at hc
  rw [← hc]
  simpa using heq

/-- A property of all entries that `f` keeps holds after an update by `f`. -/
theorem ClientList.forall_update {P : Client → Prop} (hall : ∀ d ∈ cl.list, P d)
    (hf : ∀ d ∈ cl.list, P d → P (f d)) : ∀ d ∈ (cl.update i f).list, P d := by
  intro d hd
  rcases ClientList.mem_update hd with hold | ⟨e, he, rfl⟩
  · exact hall d hold
  · have hmem := ClientList.mem_of_get? he
    exact hf e hmem (hall e hmem)

/-- After filling the first free entry every entry is an old one or the given one. -/
theorem ClientList.mem_fillFirst {e : Client} : ∀ {k l : List Client},
    ClientList.fillFirst e k = some l → ∀ d ∈ l, d ∈ k ∨ d = e := by
  intro k
  induction k with
  | nil => intro l h; simp [ClientList.fillFirst] at h
  | cons b k ih =>
    intro l h d hd
    rw [ClientList.fillFirst] at h
    split at h
    · rw [some.injEq] at h
      subst h
      rcases mem_cons.mp hd with rfl | hd
      · exact Or.inr rfl
      · exact Or.inl (mem_cons_of_mem _ hd)
    · obtain ⟨l', hl', rfl⟩ := map_eq_some_iff.mp h
      rcases mem_cons.mp hd with rfl | hd
      · exact Or.inl (mem_cons_self ..)
      · exact (ih hl' d hd).imp_left (mem_cons_of_mem _)

/-- After an addition every entry is an old one or the fresh one. -/
theorem ClientList.mem_add (hadd : cl.add fd = some cl') (hc : c ∈ cl'.list) :
    c ∈ cl.list ∨ c = initClient fd := by
  obtain ⟨l, hl, rfl⟩ := map_eq_some_iff.mp hadd
  exact ClientList.mem_fillFirst hl c hc

/-- After a removal every entry in use is an old one. -/
theorem ClientList.mem_remove (hc : c ∈ (cl.remove fd).list) (hconn : c.isConnected = true) :
    c ∈ cl.list := by
  unfold ClientList.remove at hc
  split at hc
  · exact hc
  · rename_i i _
    have hc' : c ∈ (cl.update i fun d => { d with fd := closedFd }).list := hc
    rcases ClientList.mem_update hc' with hold | ⟨d, _, rfl⟩
    · exact hold
    · simp [Client.isConnected] at hconn

/-- After forgetting a flag, an entry in use comes from an old one without it. -/
theorem ClientList.mem_resetAck {flag : CnxRequest} (hc : c ∈ (cl.resetAck flag).list)
    (hconn : c.isConnected = true) : ∃ d ∈ cl.list, c = d.unsetRequest flag := by
  obtain ⟨d, hd, rfl⟩ := mem_map.mp hc
  by_cases h : d.isConnected = true
  · exact ⟨d, hd, if_pos h⟩
  · rw [if_neg h] at hconn
    exact absurd hconn h

end Entries

/-! ## What the tests of the table say -/

section Tests

variable {cl : ClientList} {flag : CnxRequest} {ev : Event}

/-- No client holds the resource when every connected one has released it. -/
theorem ClientList.hasResource_eq_false_iff :
    cl.hasResource = false ↔ ∀ c ∈ cl.list, c.holdsResource = false := by
  simp [ClientList.hasResource, List.any_eq_false]

/-- The clients agree when every connected and subscribed one has the flag. -/
theorem ClientList.checkAllAck_iff :
    cl.checkAllAck flag ev = true ↔
      ∀ c ∈ cl.list, c.isConnected = true → c.isSubscribed ev = true → c.cnx flag = true := by
  rw [ClientList.checkAllAck, List.all_eq_true]
  refine forall₂_congr fun c _ => ?_
  cases c.isConnected <;> cases c.isSubscribed ev <;> cases c.cnx flag <;> simp

/-- The subscribers of an event are the descriptors of the connected clients that want it. -/
theorem ClientList.mem_subscribers {fd : Int} :
    fd ∈ cl.subscribers ev ↔
      ∃ c ∈ cl.list, c.isConnected = true ∧ c.isSubscribed ev = true ∧ c.fd = fd := by
  simp [ClientList.subscribers, and_assoc]

end Tests

/-! ## Flags after an operation on one client -/

section Flags

variable {c : Client} {req flag : CnxRequest}

@[simp] theorem Client.setRequest_fd : (c.setRequest req).fd = c.fd := rfl

@[simp] theorem Client.unsetRequest_fd : (c.unsetRequest req).fd = c.fd := rfl

@[simp] theorem Client.setName_fd {name : Bytes} : (c.setName name).fd = c.fd := rfl

@[simp] theorem Client.setFilter_fd {n : ℕ} : (c.setFilter n).fd = c.fd := rfl

/-- Setting a flag leaves the others alone. -/
@[simp] theorem Client.setRequest_cnx :
    (c.setRequest req).cnx flag = (decide (flag = req) || c.cnx flag) := by
  by_cases h : flag = req <;> simp [Client.setRequest, Function.update, h]

/-- Clearing a flag leaves the others alone. -/
@[simp] theorem Client.unsetRequest_cnx :
    (c.unsetRequest req).cnx flag = (!decide (flag = req) && c.cnx flag) := by
  by_cases h : flag = req <;> simp [Client.unsetRequest, Function.update, h]

/-- Giving a name only sets the name flag. -/
@[simp] theorem Client.setName_cnx {name : Bytes} :
    (c.setName name).cnx flag = (decide (flag = .name) || c.cnx flag) := by
  by_cases h : flag = .name <;> simp [Client.setName, Function.update, h]

/-- Giving a filter only sets the filter flag. -/
@[simp] theorem Client.setFilter_cnx {n : ℕ} :
    (c.setFilter n).cnx flag = (decide (flag = .filter) || c.cnx flag) := by
  by_cases h : flag = .filter <;> simp [Client.setFilter, Function.update, h]

/-- A fresh client has released the resource and acknowledged nothing. -/
@[simp] theorem initClient_cnx {fd : Int} :
    (initClient fd).cnx flag = decide (flag = .resourceReleased) := by
  by_cases h : flag = .resourceReleased <;> simp [initClient, Function.update, h]

end Flags

/-! ## The entry of one client -/

section Entry

variable {cl cl' : ClientList} {c : Client} {i : ℕ} {fd fd' : Int} {f : Client → Client}

/-- Where a descriptor is found depends only on which entries have it. -/
theorem ClientList.find_congr
    (h : cl'.list.map (fun c => c.fd == fd) = cl.list.map (fun c => c.fd == fd)) :
    cl'.find fd = cl.find fd := by
  have hmap : ∀ l : List Client,
      l.findIdx? (fun c => c.fd == fd) = (l.map fun c => c.fd == fd).findIdx? id := fun l => by
    rw [List.findIdx?_map, Function.id_comp]
  unfold ClientList.find
  rw [hmap, hmap, h]

/-- An update of entries without the descriptor, or one that keeps it, does not move it. -/
theorem ClientList.find_update (hf : ∀ c, cl.get? i = some c → ((f c).fd == fd) = (c.fd == fd)) :
    (cl.update i f).find fd = cl.find fd := by
  apply ClientList.find_congr
  apply ext_getElem?
  intro j
  rw [List.getElem?_map, List.getElem?_map, ClientList.update, List.getElem?_modify]
  by_cases hij : i = j
  · subst hij
    cases hc : cl.list[i]? with
    | none => simp
    | some c => simp [hf c hc]
  · simp [hij]

/-- The entry of a client after an update that does not move its descriptor. -/
theorem ClientList.entry_update
    (hf : ∀ c, cl.get? i = some c → ((f c).fd == fd) = (c.fd == fd)) :
    (cl.update i f).entry fd = if cl.find fd = some i then (cl.entry fd).map f else cl.entry fd := by
  unfold ClientList.entry
  rw [ClientList.find_update hf]
  cases hfind : cl.find fd with
  | none => simp
  | some j =>
    simp only [bind_some, ClientList.get?, ClientList.update, List.getElem?_modify, some.injEq]
    by_cases hij : i = j
    · simp [hij]
    · simp [hij, Ne.symm hij]

/-- A client holds the resource when its entry does not have the flag. -/
theorem ClientList.holds_iff :
    cl.holds fd = true ↔ ∃ c, cl.entry fd = some c ∧ c.cnx .resourceReleased = false := by
  simp [ClientList.holds, Option.any_eq_true]

/-- The entry found for a descriptor is its entry. -/
theorem ClientList.entry_of_find (hfind : cl.find fd = some i) : cl.entry fd = cl.get? i := by
  rw [ClientList.entry, hfind, bind_some]

/-- The entry of a client has its descriptor, which is not that of a free entry. -/
theorem ClientList.fd_of_entry (hc : cl.entry fd = some c) : c.fd = fd ∧ fd ≠ closedFd := by
  obtain ⟨i, hfind, hget⟩ := bind_eq_some_iff.mp hc
  refine ⟨ClientList.fd_of_find hfind hget, ?_⟩
  rintro rfl
  simp [ClientList.find] at hfind

/-- An update that does not release the resource for the client that holds it. -/
theorem ClientList.holds_update (hf : ∀ c, (f c).fd = c.fd)
    (hflag : cl.find fd = some i → ∀ c, c.cnx .resourceReleased = false →
      (f c).cnx .resourceReleased = false)
    (h : cl.holds fd = true) : (cl.update i f).holds fd = true := by
  obtain ⟨c, hc, hheld⟩ := ClientList.holds_iff.mp h
  rw [ClientList.holds_iff, ClientList.entry_update fun c _ => by rw [hf c]]
  split
  · rename_i hfind
    exact ⟨f c, by rw [hc, map_some], hflag hfind c hheld⟩
  · exact ⟨c, hc, hheld⟩

/-- An update of the client itself that gives it the resource. -/
theorem ClientList.holds_update_self (hf : ∀ c, (f c).fd = c.fd)
    (hflag : ∀ c, (f c).cnx .resourceReleased = false) (hfind : cl.find fd = some i)
    (hget : cl.get? i = some c) : (cl.update i f).holds fd = true := by
  rw [ClientList.holds_iff, ClientList.entry_update fun c _ => by rw [hf c], if_pos hfind,
    ClientList.entry_of_find hfind, hget]
  exact ⟨f c, rfl, hflag c⟩

/-- Forgetting a flag releases nothing. -/
theorem ClientList.holds_resetAck {flag : CnxRequest} (h : cl.holds fd = true) :
    (cl.resetAck flag).holds fd = true := by
  obtain ⟨c, hc, hheld⟩ := ClientList.holds_iff.mp h
  have hfd : ∀ d : Client, (if d.isConnected then d.unsetRequest flag else d).fd = d.fd := by
    intro d
    split <;> rfl
  have hfind : (cl.resetAck flag).find fd = cl.find fd := by
    apply ClientList.find_congr
    simp [ClientList.resetAck, Function.comp_def, hfd]
  obtain ⟨i, hi, hget⟩ := bind_eq_some_iff.mp hc
  refine ClientList.holds_iff.mpr
    ⟨if c.isConnected then c.unsetRequest flag else c, ?_, ?_⟩
  · rw [ClientList.entry_of_find (hfind.trans hi)]
    have hlist : cl.list[i]? = some c := hget
    simp [ClientList.get?, ClientList.resetAck, hlist]
  · split
    · simp [hheld]
    · exact hheld

/-- The free entry that is filled belongs to no client. -/
theorem ClientList.fillFirst_findIdx? {e : Client} (hfd : fd ≠ closedFd) (he : e.fd ≠ fd) :
    ∀ {k l : List Client}, ClientList.fillFirst e k = some l →
      (l.map fun c => c.fd == fd) = (k.map fun c => c.fd == fd) ∧
        ∀ (i : ℕ) (c : Client), c.fd = fd → k[i]? = some c → l[i]? = some c := by
  intro k
  induction k with
  | nil => intro l h; simp [ClientList.fillFirst] at h
  | cons b k ih =>
    intro l h
    rw [ClientList.fillFirst] at h
    split at h
    · rename_i hb
      rw [some.injEq] at h
      subst h
      refine ⟨by simp [hb, hfd.symm, he], fun i c hc hi => ?_⟩
      cases i with
      | zero =>
        simp only [List.getElem?_cons_zero, some.injEq] at hi
        rw [← hi, hb] at hc
        exact absurd hc.symm hfd
      | succ i => exact hi
    · obtain ⟨l', hl', rfl⟩ := map_eq_some_iff.mp h
      obtain ⟨hmap, hget⟩ := ih hl'
      refine ⟨by simp [hmap], fun i c hc hi => ?_⟩
      cases i with
      | zero => exact hi
      | succ i => exact hget i c hc hi

/-- A new client releases nothing for the others. -/
theorem ClientList.holds_add (hne : fd' ≠ fd) (hadd : cl.add fd' = some cl')
    (h : cl.holds fd = true) : cl'.holds fd = true := by
  obtain ⟨c, hc, hheld⟩ := ClientList.holds_iff.mp h
  obtain ⟨hcfd, hfd⟩ := ClientList.fd_of_entry hc
  obtain ⟨l, hl, rfl⟩ := map_eq_some_iff.mp hadd
  obtain ⟨hmap, hget⟩ := ClientList.fillFirst_findIdx? (e := initClient fd') hfd hne hl
  obtain ⟨i, hi, hgeti⟩ := bind_eq_some_iff.mp hc
  refine ClientList.holds_iff.mpr ⟨c, ?_, hheld⟩
  rw [ClientList.entry_of_find ((ClientList.find_congr hmap).trans hi)]
  exact hget i c hcfd hgeti

/-- Forgetting a client releases nothing for the others. -/
theorem ClientList.holds_remove (hne : fd' ≠ fd) (h : cl.holds fd = true) :
    (cl.remove fd').holds fd = true := by
  obtain ⟨c, hc, hheld⟩ := ClientList.holds_iff.mp h
  obtain ⟨hcfd, hfd⟩ := ClientList.fd_of_entry hc
  unfold ClientList.remove
  split
  · exact h
  · rename_i i hi
    have hother : ∀ d, cl.get? i = some d →
        (({ d with fd := closedFd } : Client).fd == fd) = (d.fd == fd) := by
      intro d hd
      rw [ClientList.fd_of_find hi hd]
      simp [hne, hfd.symm]
    have hupdate : (cl.update i fun c => { c with fd := closedFd }).entry fd = some c := by
      rw [ClientList.entry_update hother, if_neg, hc]
      intro hfind
      have hget : cl.get? i = some c := (ClientList.entry_of_find hfind).symm.trans hc
      exact hne ((ClientList.fd_of_find hi hget).symm.trans hcfd)
    exact ClientList.holds_iff.mpr ⟨c, hupdate, hheld⟩

end Entry

end HardwareIntel.Mmgr
