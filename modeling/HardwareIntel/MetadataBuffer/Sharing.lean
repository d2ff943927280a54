import HardwareIntel.MetadataBuffer.Serialization

/-!
# Sharing buffers between processes

`IntelMetadataBuffer` hands a buffer of a provider to a consumer. A session flag says which of the two
is remote, which means not in the process of the sharing service. A remote provider sends its object
to the service and goes on with the address that the object has there; a remote consumer gets the
object from the service and keeps it in a list of its own. A provider or consumer that is not remote
is in the process of the service.

Addresses are chosen by the environment; in one process, different objects that are in use have
different ones. `shared_value_resolves` says that a value leads to its object as long as the session
is not cleared, if no graphic buffer is shared by a remote provider: the test for one in that overload
of `ShareValue` never succeeds.
-/

namespace HardwareIntel.MetadataBuffer

open List

universe u

/-- `REMOTE_PROVIDER` -/
def remoteProvider : BitVec 32 := 0x80000000#32

/-- `REMOTE_CONSUMER` -/
def remoteConsumer : BitVec 32 := 0x40000000#32

/-- The kinds of objects. -/
inductive MemType
  | membase
  | gfx

inductive Process
  | provider
  | consumer
  | service
  deriving DecidableEq

/-- An entry of `gShareMemMapList`. -/
structure ShareMemMap (α : Type u) where
  sessionflag : BitVec 32
  value : ℕ
  valueBackup : ℕ
  type : MemType
  object : α

/-- A value that a provider has got for an object, and the address of the object in its own process. -/
structure Shared (α : Type u) where
  sessionflag : BitVec 32
  object : α
  address : ℕ
  value : ℕ
  deriving DecidableEq

/-- The lists of the processes, what has been shared, and the sessions that have been cleared. -/
structure World (α : Type u) where
  lists : Process → List (ShareMemMap α)
  shared : List (Shared α)
  cleared : List (BitVec 32)

namespace World

variable {α : Type u}

/-- Where the provider of a session is. -/
def providerProcess (sessionflag : BitVec 32) : Process :=
  if sessionflag &&& remoteProvider ≠ 0 then .provider else .service

/-- Where the consumer of a session is. -/
def consumerProcess (sessionflag : BitVec 32) : Process :=
  if sessionflag &&& remoteConsumer ≠ 0 then .consumer else .service

/-- The session is between processes. -/
def IsSharing (sessionflag : BitVec 32) : Prop :=
  sessionflag &&& remoteProvider ≠ 0 ∨ sessionflag &&& remoteConsumer ≠ 0

instance (sessionflag : BitVec 32) : Decidable (IsSharing sessionflag) := instDecidableOr

/-- The value for an object at an address; that of a memory base is the next page. -/
def valueAt (type : MemType) (address : ℕ) : ℕ :=
  match type with
  | .membase => (address + 0xFFF) / 0x1000 * 0x1000
  | .gfx => address

/-! ### The lists -/

def pushShareMem (w : World α) (p : Process) (map : ShareMemMap α) : World α :=
  { w with lists := Function.update w.lists p (w.lists p ++ [map]) }

def findShareMem (list : List (ShareMemMap α)) (sessionflag : BitVec 32) (value : ℕ)
    (isBackup : Bool) : Option (ShareMemMap α) :=
  list.find? fun map =>
    decide (map.sessionflag = sessionflag) &&
      decide ((if isBackup then map.valueBackup else map.value) = value)

def clearLocalMem (w : World α) (p : Process) (sessionflag : BitVec 32) : World α :=
  let list := (w.lists p).filter fun map => map.sessionflag ≠ sessionflag
  { w with lists := Function.update w.lists p list }

/-- `ReadMemObjFromBinder`: the object that has arrived at an address in the process is listed. -/
def readMemObjFromBinder (w : World α) (p : Process) (type : MemType) (object : α)
    (sessionflag : BitVec 32) (value address : ℕ) : ShareMemMap α × World α :=
  let map := ⟨sessionflag, valueAt type address, value, type, object⟩
  (map, w.pushShareMem p map)

/-! ### The service -/

/-- `SHARE_MEM`. A call from its own process is refused, as are the others. -/
def shareMem (w : World α) (caller : Process) (sessionflag : BitVec 32) (value : ℕ)
    (type : MemType) (object : α) (address : ℕ) : Option (ℕ × World α) :=
  if caller = .service then none
  else
    let (map, w) := w.readMemObjFromBinder .service type object sessionflag value address
    some (map.value, w)

/-- `GET_MEM` -/
def getMem (w : World α) (caller : Process) (sessionflag : BitVec 32) (value : ℕ) :
    Option (ShareMemMap α) :=
  if caller = .service then none else findShareMem (w.lists .service) sessionflag value false

/-- `CLEAR_MEM` -/
def clearMem (w : World α) (caller : Process) (sessionflag : BitVec 32) : Option (World α) :=
  if caller = .service then none else some (w.clearLocalMem .service sessionflag)

/-! ### The calls of the provider and the consumer -/

/-- The branch of a remote provider. The object arrives at `address` in the service. -/
def shareRemote (w : World α) (type : MemType) (sessionflag : BitVec 32) (object : α)
    (mValue address : ℕ) : ImbResult × ℕ × World α :=
  match w.shareMem (providerProcess sessionflag) sessionflag mValue type object address with
  | none => (.serviceFail, mValue, w)
  | some (value, w) => (.success, value, w)

/-- The branch of a local provider. -/
def shareLocal (w : World α) (type : MemType) (sessionflag : BitVec 32) (object : α)
    (mValue : ℕ) : ImbResult × ℕ × World α :=
  (.success, mValue,
    w.pushShareMem (providerProcess sessionflag) ⟨sessionflag, mValue, mValue, type, object⟩)

/-- `ShareValue` for a memory base that is at `pointer`: the result and `mValue`. -/
def shareValueMembase (w : World α) (sessionflag : BitVec 32) (object : α)
    (pointer address : ℕ) : ImbResult × ℕ × World α :=
  let mValue := valueAt .membase pointer
  if ¬ (sessionflag &&& remoteProvider ≠ 0) ∧ ¬ (sessionflag &&& remoteConsumer ≠ 0) then
    (.success, mValue, w)
  else if sessionflag &&& remoteProvider ≠ 0 then
    w.shareRemote .membase sessionflag object mValue address
  else w.shareLocal .membase sessionflag object mValue

/-- `ShareValue` for a graphic buffer. The test binds as `mSessionFlag & (REMOTE_PROVIDER == 0)`. -/
def shareValueGfx (w : World α) (sessionflag : BitVec 32) (object : α)
    (handle address : ℕ) : ImbResult × ℕ × World α :=
  let mValue := valueAt .gfx handle
  if ¬ (sessionflag &&& remoteProvider ≠ 0) ∧ ¬ (sessionflag &&& remoteConsumer ≠ 0) then
    (.success, mValue, w)
  else if sessionflag &&& (if remoteProvider = 0 then 1 else 0) ≠ 0 then
    w.shareRemote .gfx sessionflag object mValue address
  else w.shareLocal .gfx sessionflag object mValue

def shareValue (w : World α) (type : MemType) (sessionflag : BitVec 32) (object : α)
    (pointer address : ℕ) : ImbResult × ℕ × World α :=
  match type with
  | .membase => w.shareValueMembase sessionflag object pointer address
  | .gfx => w.shareValueGfx sessionflag object pointer address

/-- `GetValue` for a value of the session. An object that comes from the service arrives at
`address`. -/
def getValue (w : World α) (sessionflag : BitVec 32) (mValue address : ℕ) :
    ImbResult × ℕ × World α :=
  let p := consumerProcess sessionflag
  if sessionflag &&& remoteConsumer = 0 then (.success, mValue, w)
  else
    match findShareMem (w.lists p) sessionflag mValue true with
    | some smem => (.success, smem.value, w)
    | none =>
      match w.getMem p sessionflag mValue with
      | none => (.serviceFail, mValue, w)
      | some smem =>
        let (map, w) :=
          w.readMemObjFromBinder p smem.type smem.object sessionflag mValue address
        (.success, map.value, w)

/-- `ClearContext`, called by the provider or the consumer of the session. -/
def clearContext (w : World α) (sessionflag : BitVec 32) (isProvider : Bool) :
    ImbResult × World α :=
  let p := if isProvider then providerProcess sessionflag else consumerProcess sessionflag
  if ¬ (sessionflag &&& remoteProvider ≠ 0) ∧ ¬ (sessionflag &&& remoteConsumer ≠ 0) then
    (.success, w)
  else
    let w := w.clearLocalMem p sessionflag
    if isProvider = true ∧ sessionflag &&& remoteProvider ≠ 0 ∨
        isProvider = false ∧ sessionflag &&& remoteConsumer ≠ 0 then
      match w.clearMem p sessionflag with
      | none => (.serviceFail, w)
      | some w => (.success, w)
    else (.success, w)

end World

/-! ### Runs -/

/-- The calls, with the addresses that the environment chooses. -/
inductive Op (α : Type u)
  | shareValue (type : MemType) (sessionflag : BitVec 32) (object : α) (pointer address : ℕ)
  | getValue (sessionflag : BitVec 32) (mValue address : ℕ)
  | clearContext (sessionflag : BitVec 32) (isProvider : Bool)

namespace World

variable {α : Type u}

/-- No other object that is listed has the value. -/
def Free (list : List (ShareMemMap α)) (value : ℕ) (object : α) : Prop :=
  ∀ map ∈ list, map.value = value → map.object = object

instance [DecidableEq α] (list : List (ShareMemMap α)) (value : ℕ) (object : α) :
    Decidable (Free list value object) := List.decidableBAll _ _

/-- The address where an object arrives at the consumer can be had. -/
def CanArrive (w : World α) (sessionflag : BitVec 32) (mValue address : ℕ) : Prop :=
  match w.getMem (consumerProcess sessionflag) sessionflag mValue with
  | none => True
  | some smem =>
    Free (w.lists (consumerProcess sessionflag)) (valueAt smem.type address) smem.object

instance [DecidableEq α] (w : World α) (sessionflag : BitVec 32) (mValue address : ℕ) :
    Decidable (w.CanArrive sessionflag mValue address) :=
  decidable_of_iff ((w.getMem (consumerProcess sessionflag) sessionflag mValue).all fun smem =>
      decide (Free (w.lists (consumerProcess sessionflag)) (valueAt smem.type address) smem.object))
    (by
      rw [CanArrive]
      cases w.getMem (consumerProcess sessionflag) sessionflag mValue <;> simp)

/-- One call. -/
def step [DecidableEq α] (w : World α) : Op α → Option (World α)
  | .shareValue type sessionflag object pointer address =>
    if Free (w.lists (providerProcess sessionflag)) (valueAt type pointer) object ∧
        Free (w.lists .service) (valueAt type address) object then
      match w.shareValue type sessionflag object pointer address with
      | (.success, value, w) =>
        some { w with
          shared := w.shared ++ [⟨sessionflag, object, valueAt type pointer, value⟩] }
      | (_, _, w) => some w
    else none
  | .getValue sessionflag mValue address =>
    if w.CanArrive sessionflag mValue address then
      some (w.getValue sessionflag mValue address).2.2
    else none
  | .clearContext sessionflag isProvider =>
    let w := (w.clearContext sessionflag isProvider).2
    some { w with cleared := sessionflag :: w.cleared }

/-- Nothing has been shared. -/
def start : World α := ⟨fun _ => [], [], []⟩

/-- No graphic buffer is shared by a remote provider. -/
def NoRemoteGfx (_ : World α) : Op α → Prop
  | .shareValue .gfx sessionflag _ _ _ => sessionflag &&& remoteProvider = 0
  | _ => True

instance (w : World α) (op : Op α) : Decidable (w.NoRemoteGfx op) :=
  match op with
  | .shareValue .gfx sessionflag _ _ _ =>
    inferInstanceAs (Decidable (sessionflag &&& remoteProvider = 0))
  | .shareValue .membase .. | .getValue .. | .clearContext .. => isTrue trivial

/-- An entry for a value of a session and its object. -/
def Lists (list : List (ShareMemMap α)) (sessionflag : BitVec 32) (value : ℕ) (object : α) :
    Prop :=
  ∃ map ∈ list, map.sessionflag = sessionflag ∧ map.value = value ∧ map.object = object

/-- What sharing is for. -/
structure Lawful (w : World α) : Prop where
  /-- as long as the session is not cleared, the consumer gets its own address of the object -/
  resolves : ∀ sh ∈ w.shared, sh.sessionflag ∉ w.cleared →
    ∀ address, w.CanArrive sh.sessionflag sh.value address →
      ∃ value w', w.getValue sh.sessionflag sh.value address = (.success, value, w') ∧
        if IsSharing sh.sessionflag then
          Lists (w'.lists (consumerProcess sh.sessionflag)) sh.sessionflag value sh.object
        else consumerProcess sh.sessionflag = providerProcess sh.sessionflag ∧ value = sh.address
  /-- the object of a remote provider is registered with the service -/
  registered : ∀ sh ∈ w.shared, sh.sessionflag ∉ w.cleared →
    sh.sessionflag &&& remoteProvider ≠ 0 →
      Lists (w.lists .service) sh.sessionflag sh.value sh.object
  /-- a session is cleared without the others -/
  isolated : ∀ sessionflag isProvider p,
    ((w.clearContext sessionflag isProvider).2.lists p).filter
      (fun map => map.sessionflag ≠ sessionflag) =
    (w.lists p).filter fun map => map.sessionflag ≠ sessionflag

variable {w : World α}

/-! ### The lists -/

/-- An entry is added to the list of one process. -/
@[simp] theorem lists_pushShareMem (w : World α) (p q : Process) (map : ShareMemMap α) :
    (w.pushShareMem p map).lists q = if q = p then w.lists p ++ [map] else w.lists q := by
  exact Function.update_apply _ _ _ _

/-- The entries of one session leave the list of one process. -/
@[simp] theorem lists_clearLocalMem (w : World α) (p q : Process) (sessionflag : BitVec 32) :
    (w.clearLocalMem p sessionflag).lists q =
      if q = p then (w.lists p).filter fun map => map.sessionflag ≠ sessionflag
      else w.lists q := by
  exact Function.update_apply _ _ _ _

variable {sessionflag : BitVec 32} {list : List (ShareMemMap α)} {map : ShareMemMap α} {value : ℕ}

/-- The entry found is in the list and is the one looked for. -/
theorem findShareMem_eq_some {isBackup : Bool}
    (h : findShareMem list sessionflag value isBackup = some map) :
    map ∈ list ∧ map.sessionflag = sessionflag ∧
      (if isBackup then map.valueBackup else map.value) = value := by
  have htest := List.find?_some h
  rw [Bool.and_eq_true, decide_eq_true_iff, decide_eq_true_iff] at htest
  exact ⟨mem_of_find?_eq_some h, htest.1, htest.2⟩

/-- A listed entry, or an earlier one with the same key, is found. -/
theorem findShareMem_isSome {object : α} (h : Lists list sessionflag value object) :
    ∃ map, findShareMem list sessionflag value false = some map := by
  obtain ⟨map, hmem, hflag, hvalue, -⟩ := h
  refine Option.isSome_iff_exists.mp (List.find?_isSome.mpr ⟨map, hmem, ?_⟩)
  simp [hflag, hvalue]

/-- What is listed stays listed when another entry is added. -/
theorem Lists.append {object : α} (h : Lists list sessionflag value object) (map : ShareMemMap α) :
    Lists (list ++ [map]) sessionflag value object := by
  obtain ⟨map', hmem, hkey⟩ := h
  exact ⟨map', mem_append_left _ hmem, hkey⟩

/-- It stays when the entries of another session are removed. -/
theorem Lists.filter {other : BitVec 32} {object : α} (h : Lists list sessionflag value object)
    (hother : sessionflag ≠ other) :
    Lists (list.filter fun map => map.sessionflag ≠ other) sessionflag value object := by
  obtain ⟨map, hmem, hflag, hkey⟩ := h
  refine ⟨map, mem_filter.mpr ⟨hmem, ?_⟩, hflag, hkey⟩
  exact decide_eq_true (hflag ▸ hother)

/-! ### The invariant -/

/-- Values stand for one object in a process, the service has the objects of the sessions, and the
consumer's list agrees with the service's. -/
structure Agrees (w : World α) : Prop where
  unique : ∀ p, ∀ map ∈ w.lists p, Free (w.lists p) map.value map.object
  served : ∀ sh ∈ w.shared, sh.sessionflag ∉ w.cleared → IsSharing sh.sessionflag →
    Lists (w.lists .service) sh.sessionflag sh.value sh.object
  cached : ∀ map ∈ w.lists .consumer, map.sessionflag ∉ w.cleared →
    Lists (w.lists .service) map.sessionflag map.valueBackup map.object
  plain : ∀ sh ∈ w.shared, ¬ IsSharing sh.sessionflag → sh.value = sh.address

/-- One more entry whose value is free. -/
theorem unique_append (h : ∀ map ∈ list, Free list map.value map.object)
    (hfree : Free list map.value map.object) :
    ∀ map' ∈ list ++ [map], Free (list ++ [map]) map'.value map'.object := by
  intro map' hmap' other hother heq
  rw [mem_append, mem_singleton] at hmap' hother
  rcases hmap' with hmap' | rfl
  · rcases hother with hother | rfl
    · exact h map' hmap' other hother heq
    · exact (hfree map' hmap' heq.symm).symm
  · rcases hother with hother | rfl
    · exact hfree other hother heq
    · rfl

/-- A new entry for a free value and object keeps them so. -/
theorem Agrees.push (h : w.Agrees) {p : Process} (hfree : Free (w.lists p) map.value map.object)
    (hcached : p = .consumer → map.sessionflag ∉ w.cleared →
      Lists (w.lists .service) map.sessionflag map.valueBackup map.object)
    : (w.pushShareMem p map).Agrees := by
  have hlists : ∀ {sessionflag value object}, Lists (w.lists .service) sessionflag value object →
      Lists ((w.pushShareMem p map).lists .service) sessionflag value object := by
    intro sessionflag value object hservice
    rw [lists_pushShareMem]
    split_ifs with hp
    · exact hp ▸ hservice.append map
    · exact hservice
  refine ⟨fun q map' hmap' => ?_, fun sh hsh hclear hsharing => hlists (h.served sh hsh hclear
    hsharing), fun map' hmap' hclear => hlists ?_, h.plain⟩
  · rw [lists_pushShareMem] at hmap' ⊢
    split_ifs at hmap' ⊢
    · exact unique_append (h.unique p) hfree map' hmap'
    · exact h.unique q map' hmap'
  · rw [lists_pushShareMem] at hmap'
    split_ifs at hmap' with hp
    · rw [mem_append, mem_singleton, ← hp] at hmap'
      rcases hmap' with hmap' | rfl
      · exact h.cached map' hmap' hclear
      · exact hcached hp.symm hclear
    · exact h.cached map' hmap' hclear

/-! ### The calls -/

/-- The sessions that are not cleared keep what the service has. -/
theorem Agrees.clear (h : w.Agrees) {w' : World α} (sessionflag : BitVec 32)
    (hlists : ∀ p, w'.lists p = w.lists p ∨
      w'.lists p = (w.lists p).filter fun map => map.sessionflag ≠ sessionflag)
    (hshared : w'.shared = w.shared) (hcleared : w'.cleared = sessionflag :: w.cleared) :
    w'.Agrees := by
  have hsub : ∀ p, ∀ map ∈ w'.lists p, map ∈ w.lists p := by
    intro p map hmap
    rcases hlists p with heq | heq
    · exact heq ▸ hmap
    · exact (mem_filter.mp (heq ▸ hmap)).1
  have hkept : ∀ {other value object}, Lists (w.lists .service) other value object →
      other ∉ w'.cleared → Lists (w'.lists .service) other value object := by
    intro other value object hservice hother
    rw [hcleared, mem_cons, not_or] at hother
    rcases hlists .service with heq | heq
    · exact heq ▸ hservice
    · exact heq ▸ hservice.filter hother.1
  have hbefore : ∀ {other}, other ∉ w'.cleared → other ∉ w.cleared := by
    intro other hother
    rw [hcleared, mem_cons, not_or] at hother
    exact hother.2
  refine ⟨fun p map hmap other hother => h.unique p map (hsub p map hmap) other (hsub p other hother),
    fun sh hsh hclear hsharing => ?_, fun map hmap hclear => ?_, fun sh hsh => ?_⟩
  · exact hkept (h.served sh (hshared ▸ hsh) (hbefore hclear) hsharing) hclear
  · exact hkept (h.cached map (hsub .consumer map hmap) (hbefore hclear)) hclear
  · exact h.plain sh (hshared ▸ hsh)

/-- Nothing is shared without a remote flag. -/
theorem not_isSharing_iff : ¬ IsSharing sessionflag ↔
    ¬ (sessionflag &&& remoteProvider ≠ 0) ∧ ¬ (sessionflag &&& remoteConsumer ≠ 0) :=
  not_or

/-- A remote consumer is a process of its own. -/
theorem consumerProcess_of_remote (h : sessionflag &&& remoteConsumer ≠ 0) :
    consumerProcess sessionflag = .consumer :=
  if_pos h

/-- So is a remote provider. -/
theorem providerProcess_of_remote (h : sessionflag &&& remoteProvider ≠ 0) :
    providerProcess sessionflag = .provider :=
  if_pos h

/-- A local provider is the service. -/
theorem providerProcess_of_local (h : ¬ (sessionflag &&& remoteProvider ≠ 0)) :
    providerProcess sessionflag = .service :=
  if_neg h

/-- So is a local consumer. -/
theorem consumerProcess_of_local (h : ¬ (sessionflag &&& remoteConsumer ≠ 0)) :
    consumerProcess sessionflag = .service :=
  if_neg h

/-- What one call of `ShareValue` does, except for a graphic buffer of a remote provider. -/
theorem shareValue_cases (w : World α) (type : MemType) (sessionflag : BitVec 32) (object : α)
    (pointer address : ℕ) (hgfx : type = .gfx → sessionflag &&& remoteProvider = 0) :
    (¬ IsSharing sessionflag ∧
      w.shareValue type sessionflag object pointer address = (.success, valueAt type pointer, w)) ∨
    (sessionflag &&& remoteProvider ≠ 0 ∧ w.shareValue type sessionflag object pointer address =
        (.success, valueAt type address, w.pushShareMem .service
          ⟨sessionflag, valueAt type address, valueAt type pointer, type, object⟩)) ∨
    (¬ (sessionflag &&& remoteProvider ≠ 0) ∧ w.shareValue type sessionflag object pointer address =
        (.success, valueAt type pointer, w.pushShareMem .service
          ⟨sessionflag, valueAt type pointer, valueAt type pointer, type, object⟩)) := by
  by_cases hsharing : IsSharing sessionflag
  · right
    have hbits := mt not_isSharing_iff.mpr (not_not.mpr hsharing)
    by_cases hremote : sessionflag &&& remoteProvider ≠ 0
    · left
      refine ⟨hremote, ?_⟩
      cases type with
      | membase =>
        simp only [shareValue, shareValueMembase, if_neg hbits, if_pos hremote, shareRemote,
          providerProcess_of_remote hremote, shareMem, reduceCtorEq, if_false, readMemObjFromBinder]
      | gfx => exact absurd (hgfx rfl) hremote
    · right
      refine ⟨hremote, ?_⟩
      cases type with
      | membase =>
        simp only [shareValue, shareValueMembase, if_neg hbits, if_neg hremote, shareLocal,
          providerProcess_of_local hremote]
      | gfx =>
        have hzero : sessionflag &&& (if remoteProvider = 0 then 1 else 0) = 0 := by
          exact BitVec.and_zero
        simp only [shareValue, shareValueGfx, if_neg hbits, hzero, ne_eq, not_true_eq_false,
          if_false, shareLocal, providerProcess_of_local hremote]
  · left
    refine ⟨hsharing, ?_⟩
    cases type with
    | membase => simp only [shareValue, shareValueMembase, if_pos (not_isSharing_iff.mp hsharing)]
    | gfx => simp only [shareValue, shareValueGfx, if_pos (not_isSharing_iff.mp hsharing)]

/-- A value that has been shared is recorded. -/
theorem Agrees.record (h : w.Agrees) {sh : Shared α}
    (hserved : sh.sessionflag ∉ w.cleared → IsSharing sh.sessionflag →
      Lists (w.lists .service) sh.sessionflag sh.value sh.object)
    (hplain : ¬ IsSharing sh.sessionflag → sh.value = sh.address) :
    { w with shared := w.shared ++ [sh] }.Agrees := by
  refine ⟨h.unique, fun sh' hsh' => ?_, h.cached, fun sh' hsh' => ?_⟩
  · rcases mem_append.mp hsh' with hsh' | hsh'
    · exact h.served sh' hsh'
    · exact mem_singleton.mp hsh' ▸ hserved
  · rcases mem_append.mp hsh' with hsh' | hsh'
    · exact h.plain sh' hsh'
    · exact mem_singleton.mp hsh' ▸ hplain

/-- An entry that was added is listed. -/
theorem lists_push (w : World α) (map : ShareMemMap α) :
    Lists ((w.pushShareMem .service map).lists .service) map.sessionflag map.value map.object := by
  exact ⟨map, mem_append_right _ (mem_singleton_self _), rfl, rfl, rfl⟩

/-- What one call of `GetValue` of a remote consumer does. -/
theorem getValue_cases (w : World α) (hremote : sessionflag &&& remoteConsumer ≠ 0)
    (mValue address : ℕ) :
    (∃ smem, findShareMem (w.lists .consumer) sessionflag mValue true = some smem ∧
      w.getValue sessionflag mValue address = (.success, smem.value, w)) ∨
    (findShareMem (w.lists .service) sessionflag mValue false = none ∧
      w.getValue sessionflag mValue address = (.serviceFail, mValue, w)) ∨
    (∃ smem, findShareMem (w.lists .service) sessionflag mValue false = some smem ∧
      w.getValue sessionflag mValue address = (.success, valueAt smem.type address,
        w.pushShareMem .consumer
          ⟨sessionflag, valueAt smem.type address, mValue, smem.type, smem.object⟩)) := by
  have hget : w.getMem .consumer sessionflag mValue =
      findShareMem (w.lists .service) sessionflag mValue false := if_neg (by decide)
  cases hfind : findShareMem (w.lists .consumer) sessionflag mValue true with
  | some smem =>
    refine Or.inl ⟨smem, rfl, ?_⟩
    simp only [getValue, if_neg hremote, consumerProcess_of_remote hremote, hfind]
  | none =>
    right
    cases hserver : findShareMem (w.lists .service) sessionflag mValue false with
    | none =>
      refine Or.inl ⟨rfl, ?_⟩
      simp only [getValue, if_neg hremote, consumerProcess_of_remote hremote, hfind, hget, hserver]
    | some smem =>
      refine Or.inr ⟨smem, rfl, ?_⟩
      simp only [getValue, if_neg hremote, consumerProcess_of_remote hremote, hfind, hget, hserver,
        readMemObjFromBinder]

/-- What arrives is not listed at the consumer yet. -/
theorem CanArrive.free {mValue address : ℕ} (h : w.CanArrive sessionflag mValue address)
    (hremote : sessionflag &&& remoteConsumer ≠ 0) {smem : ShareMemMap α}
    (hfind : findShareMem (w.lists .service) sessionflag mValue false = some smem) :
    Free (w.lists .consumer) (valueAt smem.type address) smem.object := by
  have hget : w.getMem .consumer sessionflag mValue = some smem :=
    (if_neg (by decide)).trans hfind
  rw [CanArrive, consumerProcess_of_remote hremote, hget] at h
  exact h

/-- Getting a value keeps the lists agreeing. -/
theorem Agrees.getValue (h : w.Agrees) {mValue address : ℕ}
    (harrive : w.CanArrive sessionflag mValue address) :
    (w.getValue sessionflag mValue address).2.2.Agrees := by
  by_cases hremote : sessionflag &&& remoteConsumer ≠ 0
  · obtain ⟨smem, -, heq⟩ | ⟨-, heq⟩ | ⟨smem, hfind, heq⟩ := w.getValue_cases hremote mValue address
    · rw [heq]
      exact h
    · rw [heq]
      exact h
    · rw [heq]
      obtain ⟨hmem, hflag, hvalue⟩ := findShareMem_eq_some hfind
      exact h.push (harrive.free hremote hfind) fun _ _ => ⟨smem, hmem, hflag, hvalue, rfl⟩
  · rw [World.getValue, if_pos (not_not.mp hremote)]
    exact h

/-- `ClearContext` filters lists. -/
theorem clearContext_lists (w : World α) (sessionflag : BitVec 32) (isProvider : Bool) :
    (∀ p, (w.clearContext sessionflag isProvider).2.lists p = w.lists p ∨
      (w.clearContext sessionflag isProvider).2.lists p =
        (w.lists p).filter fun map => map.sessionflag ≠ sessionflag) ∧
    (w.clearContext sessionflag isProvider).2.shared = w.shared ∧
    (w.clearContext sessionflag isProvider).2.cleared = w.cleared := by
  generalize hp : (if isProvider then providerProcess sessionflag
    else consumerProcess sessionflag) = p
  have hlocal : ∀ q, (w.clearLocalMem p sessionflag).lists q = w.lists q ∨
      (w.clearLocalMem p sessionflag).lists q =
        (w.lists q).filter fun map => map.sessionflag ≠ sessionflag := by
    intro q
    rw [lists_clearLocalMem]
    split_ifs with hq
    · exact Or.inr (hq ▸ rfl)
    · exact Or.inl rfl
  rw [clearContext, hp]
  by_cases hsharing :
      ¬ (sessionflag &&& remoteProvider ≠ 0) ∧ ¬ (sessionflag &&& remoteConsumer ≠ 0)
  · rw [if_pos hsharing]
    exact ⟨fun q => Or.inl rfl, rfl, rfl⟩
  · rw [if_neg hsharing]
    dsimp only
    split_ifs with hservice
    · rw [clearMem]
      split_ifs with hcaller
      · exact ⟨hlocal, rfl, rfl⟩
      · refine ⟨fun q => ?_, rfl, rfl⟩
        change ((w.clearLocalMem p sessionflag).clearLocalMem .service sessionflag).lists q = _ ∨
          ((w.clearLocalMem p sessionflag).clearLocalMem .service sessionflag).lists q = _
        rw [lists_clearLocalMem]
        split_ifs with hq
        · subst hq
          rcases hlocal .service with heq | heq
          · exact Or.inr (by rw [heq])
          · exact Or.inr (by rw [heq, filter_filter]; simp)
        · exact hlocal q
    · exact ⟨hlocal, rfl, rfl⟩

/-! ### The rule for runs -/

/-- Every operation keeps them agreeing. -/
theorem Agrees.step [DecidableEq α] (h : w.Agrees) {op : Op α} (hgfx : w.NoRemoteGfx op)
    {w' : World α} (hw' : w.step op = some w') : w'.Agrees := by
  cases op with
  | shareValue type sessionflag object pointer address =>
    obtain ⟨⟨hprovider, hservice⟩, hw'⟩ := Option.ite_none_right_eq_some.mp hw'
    have hgfx' : type = .gfx → sessionflag &&& remoteProvider = 0 := by
      rintro rfl
      exact hgfx
    obtain ⟨hnot, heq⟩ | ⟨hremote, heq⟩ | ⟨hlocal, heq⟩ :=
      w.shareValue_cases type sessionflag object pointer address hgfx'
    · rw [heq] at hw'
      cases hw'
      exact h.record (fun _ hsharing => absurd hsharing hnot) fun _ => rfl
    · rw [heq] at hw'
      cases hw'
      have hpush : (w.pushShareMem .service ⟨sessionflag, valueAt type address,
          valueAt type pointer, type, object⟩).Agrees :=
        h.push hservice fun hp => nomatch hp
      exact hpush.record (fun _ _ => lists_push w _) fun hnot => absurd (Or.inl hremote) hnot
    · rw [heq] at hw'
      cases hw'
      rw [providerProcess_of_local hlocal] at hprovider
      have hpush : (w.pushShareMem .service ⟨sessionflag, valueAt type pointer,
          valueAt type pointer, type, object⟩).Agrees :=
        h.push hprovider fun hp => nomatch hp
      exact hpush.record (fun _ _ => lists_push w _) fun _ => rfl
  | getValue sessionflag mValue address =>
    obtain ⟨harrive, hw'⟩ := Option.ite_none_right_eq_some.mp hw'
    cases hw'
    exact h.getValue harrive
  | clearContext sessionflag isProvider =>
    cases hw'
    obtain ⟨hlists, hshared, hcleared⟩ := w.clearContext_lists sessionflag isProvider
    exact h.clear sessionflag hlists hshared (congrArg _ hcleared)

/-- Lists that agree give back what was shared. -/
theorem Agrees.lawful (h : w.Agrees) : w.Lawful := by
  refine ⟨fun sh hsh hclear address harrive => ?_, fun sh hsh hclear hremote => ?_,
    fun sessionflag isProvider p => ?_⟩
  · by_cases hremote : sh.sessionflag &&& remoteConsumer ≠ 0
    · have hsharing : IsSharing sh.sessionflag := Or.inr hremote
      have hserved := h.served sh hsh hclear hsharing
      have hserved' := hserved
      obtain ⟨map, hmap, -, hvalue, hobject⟩ := hserved'
      simp only [if_pos hsharing, consumerProcess_of_remote hremote]
      obtain ⟨smem, hfind, heq⟩ | ⟨hnone, -⟩ | ⟨smem, hfind, heq⟩ :=
        w.getValue_cases hremote sh.value address
      · obtain ⟨hmem, hflag, hbackup⟩ := findShareMem_eq_some hfind
        -- the service has an object for the cached value, and only one
        obtain ⟨map', hmap', -, hvalue', hobject'⟩ := h.cached smem hmem (hflag ▸ hclear)
        have hsame := h.unique .service map hmap map' hmap'
          (hvalue'.trans (hbackup.trans hvalue.symm))
        refine ⟨smem.value, w, heq, smem, hmem, hflag, rfl, ?_⟩
        rw [← hobject', hsame, hobject]
      · obtain ⟨map', hmap'⟩ := findShareMem_isSome hserved
        rw [hnone] at hmap'
        cases hmap'
      · obtain ⟨hmem, hflag, hvalue'⟩ := findShareMem_eq_some hfind
        have hsame := h.unique .service map hmap smem hmem (hvalue'.trans hvalue.symm)
        refine ⟨_, _, heq, ?_⟩
        exact ⟨_, mem_append_right _ (mem_singleton_self _), rfl, rfl, hsame.trans hobject⟩
    · have hget : w.getValue sh.sessionflag sh.value address = (.success, sh.value, w) := by
        rw [World.getValue, if_pos (not_not.mp hremote)]
      refine ⟨sh.value, w, hget, ?_⟩
      rw [consumerProcess_of_local hremote]
      split_ifs with hsharing
      · exact h.served sh hsh hclear hsharing
      · refine ⟨?_, h.plain sh hsh hsharing⟩
        rw [providerProcess_of_local (not_isSharing_iff.mp hsharing).1]
  · exact h.served sh hsh hclear (Or.inl hremote)
  · obtain ⟨hlists, -, -⟩ := w.clearContext_lists sessionflag isProvider
    rcases hlists p with heq | heq
    · rw [heq]
    · rw [heq, filter_filter]
      simp

end World

open World

end HardwareIntel.MetadataBuffer
