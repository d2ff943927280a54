import HardwareIntel.Omx.Buffers
import HardwareIntel.Omx.Population

/-!
# Registering the buffers of an OMX port

`PortBase::UseBuffer`, `AllocateBuffer` and `FreeBuffer` of `wrs_omxil_core/base/src/portbase.cpp`
keep a list of buffer headers, its length `nr_buffer_hdrs` and the flag `bPopulated` under the mutex
`hdrs_lock`. Addresses are numbers, zero is `NULL`. What the allocations return is part of a call,
and so is what `FreeBuffer` reads from the header, since the client can write there. A call on a
port whose mutex is held does not return: `none`.

`AllocateBuffer` returns without releasing the mutex if the custom allocator fails; `allocatorFails`
says when that is. Between the calls, `PortHeaders` counts what these functions do (`counts_call`).
-/

namespace HardwareIntel.Omx

open List Option

/-! ## The port -/

/-- `OMX_BUFFERHEADERTYPE` as the port fills it in, with the address of the header itself. -/
structure BufferHeader where
  address : ℕ
  pBuffer : ℕ
  nAllocLen : UInt32
  pAppPrivate : ℕ
  pInputPortPrivate : ℕ
  pOutputPortPrivate : ℕ
  nInputPortIndex : UInt32
  nOutputPortIndex : UInt32

/-- The parts of a `PortBase` that the registration of buffers uses. -/
structure PortBase where
  bufferHdrs : List BufferHeader
  nrBufferHdrs : UInt32
  bufferHdrsCompletion : Bool
  hdrsLock : Bool
  customMemAlloc : Bool
  customMemFree : Bool
  memAlignment : UInt32
  eDir : Direction
  nBufferCountActual : UInt32
  bPopulated : Bool

/-- The error codes of the three functions. -/
inductive RegistrationError
  | none | insufficientResources | badParameter | versionMismatch
  deriving DecidableEq

/-- What a call returns, with the header written to `ppBufferHdr` or the buffer given to
`custom_mem_free`, and the port after it. -/
structure Registered where
  error : RegistrationError
  ppBufferHdr : Option ℕ
  memFreed : Option ℕ
  port : PortBase

/-- What `calloc`, `list_alloc` and `custom_mem_alloc` return in a call. -/
structure Allocation where
  calloc : ℕ
  listAlloc : Bool
  customMem : ℕ

/-- The size of a buffer header in the memory of the platform, and `OMX_SPEC_VERSION`. -/
structure HeaderType where
  size : UInt32
  version : UInt32

/-- `ComponentBase::CheckTypeHeader`, for a header with these first fields. -/
def HeaderType.checkTypeHeader (type : HeaderType) (nSize nVersion : UInt32) : RegistrationError :=
  if nSize ≠ type.size then .badParameter
  else if nVersion ≠ type.version then .versionMismatch
  else .none

namespace PortBase

/-- `pthread_mutex_lock(&hdrs_lock)`. -/
def lock (port : PortBase) : Option PortBase :=
  if port.hdrsLock then none else some { port with hdrsLock := true }

/-- `pthread_mutex_unlock(&hdrs_lock)`. -/
def unlock (port : PortBase) : PortBase := { port with hdrsLock := false }

/-- A return with an error and nothing else, after the mutex is released. -/
def reject (port : PortBase) (error : RegistrationError) : Registered :=
  ⟨error, none, none, port.unlock⟩

/-- `__list_add_tail` with the counter, and the flags if `full` says so. -/
def addHeader (port : PortBase) (hdr : BufferHeader) (full : UInt32 → UInt32 → Bool) : PortBase :=
  let nr := port.nrBufferHdrs + 1
  let isFull := full nr port.nBufferCountActual
  { port with
    bufferHdrs := port.bufferHdrs ++ [hdr]
    nrBufferHdrs := nr
    bPopulated := port.bPopulated || isFull
    bufferHdrsCompletion := port.bufferHdrsCompletion || isFull }

/-- `__list_delete` with the counter and the flags. -/
def removeHeader (port : PortBase) (address : ℕ) : PortBase :=
  let nr := port.nrBufferHdrs - 1
  { port with
    bufferHdrs := port.bufferHdrs.eraseP (·.address = address)
    nrBufferHdrs := nr
    bPopulated := false
    bufferHdrsCompletion := port.bufferHdrsCompletion || nr = 0 }

/-- The fields of a header, where the index of the port on the other side is `other`. -/
def header (port : PortBase) (address pBuffer : ℕ) (nPortIndex : UInt32) (pAppPrivate : ℕ)
    (nSizeBytes other : UInt32) : BufferHeader where
  address := address
  pBuffer := pBuffer
  nAllocLen := nSizeBytes
  pAppPrivate := pAppPrivate
  pInputPortPrivate := 0
  pOutputPortPrivate := 0
  nInputPortIndex := if port.eDir = .input then nPortIndex else other
  nOutputPortIndex := if port.eDir = .input then other else nPortIndex

/-- `PortBase::UseBuffer`. -/
def useBuffer (port : PortBase) (nPortIndex : UInt32) (pAppPrivate : ℕ) (nSizeBytes : UInt32)
    (pBuffer : ℕ) (mem : Allocation) : Option Registered :=
  port.lock.map fun port =>
    if port.bPopulated then port.reject .none
    else if mem.calloc = 0 then port.reject .insufficientResources
    else if !mem.listAlloc then port.reject .insufficientResources
    else
      let hdr := port.header mem.calloc pBuffer nPortIndex pAppPrivate nSizeBytes 0x7fffffff
      let port := port.addHeader hdr fun nr count => count ≤ nr
      ⟨.none, some mem.calloc, none, port.unlock⟩

/-- The address of the buffer behind a header that `AllocateBuffer` got from `calloc`. -/
def dataAddress (type : HeaderType) (port : PortBase) (hdr : ℕ) : ℕ :=
  let behind := hdr + type.size.toNat
  if 0 < port.memAlignment then
    (behind / port.memAlignment.toNat + 1) * port.memAlignment.toNat
  else behind

/-- `PortBase::AllocateBuffer`. If there is no buffer, it returns with the mutex held. -/
def allocateBuffer (type : HeaderType) (port : PortBase) (nPortIndex : UInt32) (pAppPrivate : ℕ)
    (nSizeBytes : UInt32) (mem : Allocation) : Option Registered :=
  port.lock.map fun port =>
    if port.bPopulated then port.reject .none
    else if mem.calloc = 0 then port.reject .insufficientResources
    else if !mem.listAlloc then port.reject .insufficientResources
    else
      let pBuffer := if port.customMemAlloc then mem.customMem else port.dataAddress type mem.calloc
      if pBuffer = 0 then ⟨.insufficientResources, none, none, port⟩
      else
        let hdr := port.header mem.calloc pBuffer nPortIndex pAppPrivate nSizeBytes 0xFFFFFFFF
        let port := port.addHeader hdr fun nr count => nr = count
        ⟨.none, some mem.calloc, none, port.unlock⟩

/-- `PortBase::FreeBuffer`; `nSize`, `nVersion` and `data` are read from the header. -/
def freeBuffer (type : HeaderType) (port : PortBase) (pBuffer : ℕ) (nSize nVersion : UInt32)
    (data : ℕ) : Option Registered :=
  port.lock.map fun port =>
    match port.bufferHdrs.find? (·.address = pBuffer) with
    | none => port.reject .badParameter
    | some _ =>
      if type.checkTypeHeader nSize nVersion ≠ .none then
        port.reject (type.checkTypeHeader nSize nVersion)
      else
        let port := port.removeHeader pBuffer
        ⟨.none, none, if port.customMemFree then some data else none, port.unlock⟩

/-- A port as the constructor and `SetPortDefinition` leave it: without buffers. -/
def Fresh (port : PortBase) : Prop :=
  port.bufferHdrs = [] ∧ port.nrBufferHdrs = 0 ∧ port.bPopulated = false ∧ port.hdrsLock = false

end PortBase

/-! ## Calls -/

/-- A call of the client, with what it finds in memory. -/
inductive RegistrationCall
  | useBuffer (nPortIndex : UInt32) (pAppPrivate : ℕ) (nSizeBytes : UInt32) (pBuffer : ℕ)
      (mem : Allocation)
  | allocateBuffer (nPortIndex : UInt32) (pAppPrivate : ℕ) (nSizeBytes : UInt32) (mem : Allocation)
  | freeBuffer (pBuffer : ℕ) (nSize nVersion : UInt32) (data : ℕ)

namespace PortBase

/-- The effect of a call. -/
def call (type : HeaderType) (port : PortBase) : RegistrationCall → Option Registered
  | .useBuffer nPortIndex pAppPrivate nSizeBytes pBuffer mem =>
    port.useBuffer nPortIndex pAppPrivate nSizeBytes pBuffer mem
  | .allocateBuffer nPortIndex pAppPrivate nSizeBytes mem =>
    port.allocateBuffer type nPortIndex pAppPrivate nSizeBytes mem
  | .freeBuffer pBuffer nSize nVersion data => port.freeBuffer type pBuffer nSize nVersion data

/-- The custom allocator is asked for a buffer, and it has none. -/
def allocatorFails (port : PortBase) : RegistrationCall → Bool
  | .allocateBuffer _ _ _ mem =>
    !port.bPopulated && mem.calloc ≠ 0 && mem.listAlloc && port.customMemAlloc && mem.customMem = 0
  | _ => false

/-- The headers, their number and the flag are the same, and the mutex is released. -/
def Untouched (port after : PortBase) : Prop :=
  after.bufferHdrs = port.bufferHdrs ∧ after.nrBufferHdrs = port.nrBufferHdrs ∧
    after.bPopulated = port.bPopulated ∧ after.hdrsLock = false

/-- The call returns, and if it returns an error, it changes nothing. -/
def Atomic (type : HeaderType) (port : PortBase) (c : RegistrationCall) : Prop :=
  ∃ r, port.call type c = some r ∧ (r.error ≠ .none → port.Untouched r.port)

/-- The counter is the length of the list, which is within the number of buffers, and the flag says
whether it has reached it. -/
structure Consistent (port : PortBase) : Prop where
  count : port.nrBufferHdrs.toNat = port.bufferHdrs.length
  within : port.bufferHdrs.length ≤ port.nBufferCountActual.toNat
  populated : port.bPopulated = true ↔ port.bufferHdrs.length = port.nBufferCountActual.toNat

/-- Through all the calls, the port is consistent, and an error changes nothing. -/
def Kept (type : HeaderType) : PortBase → List RegistrationCall → Prop
  | port, [] => port.Consistent
  | port, c :: calls =>
    port.Consistent ∧
      ∃ r, port.call type c = some r ∧ (r.error ≠ .none → port.Untouched r.port) ∧
        Kept type r.port calls

/-- The custom allocator fails in none of the calls. -/
def neverFails (type : HeaderType) : PortBase → List RegistrationCall → Bool
  | _, [] => true
  | port, c :: calls =>
    !port.allocatorFails c && (port.call type c).all fun r => neverFails type r.port calls

/-! ## One call -/

variable {type : HeaderType} {port : PortBase}

theorem lock_eq (hlock : port.hdrsLock = false) :
    port.lock = some { port with hdrsLock := true } := by
  simp [lock, hlock]

/-- A released port is the same with the mutex taken and released. -/
theorem unlock_lock (hlock : port.hdrsLock = false) :
    ({ port with hdrsLock := true } : PortBase).unlock = port := by
  cases port
  cases hlock
  rfl

theorem unlock_addHeader_lock (hdr : BufferHeader) (full : UInt32 → UInt32 → Bool) :
    (({ port with hdrsLock := true } : PortBase).addHeader hdr full).unlock =
      (port.addHeader hdr full).unlock := rfl

/-- The memory behind a header has an address. -/
theorem dataAddress_ne_zero (type : HeaderType) (port : PortBase) {hdr : ℕ} (hhdr : hdr ≠ 0) :
    port.dataAddress type hdr ≠ 0 := by
  unfold dataAddress
  dsimp only
  split_ifs with halignment
  · have halignment : 0 < port.memAlignment.toNat := UInt32.lt_iff_toNat_lt.mp halignment
    exact (Nat.mul_pos (Nat.succ_pos _) halignment).ne'
  · omega

/-- What a call that returns can have done to a released port. -/
inductive Effect (port : PortBase) (fails : Bool) (r : Registered) : Prop
  /-- Nothing, with or without an error. -/
  | nothing (hfails : fails = false) (hport : r.port = port)
  /-- A header is added. Up to the number of buffers, both comparisons mean equality. -/
  | added (hfails : fails = false) (herror : r.error = .none) (hpopulated : port.bPopulated = false)
      (hdr : BufferHeader) (full : UInt32 → UInt32 → Bool)
      (hfull : ∀ nr count, nr ≤ count → (full nr count = true ↔ nr = count))
      (hport : r.port = (port.addHeader hdr full).unlock)
  /-- A header of the list is removed. -/
  | removed (hfails : fails = false) (herror : r.error = .none) (hdr : BufferHeader)
      (hmem : hdr ∈ port.bufferHdrs) (hport : r.port = (port.removeHeader hdr.address).unlock)
  /-- The custom allocator had no buffer, and the mutex is held. -/
  | leaked (hfails : fails = true) (herror : r.error ≠ .none) (hport : r.port.hdrsLock = true)

/-- Every call on a released port returns. -/
theorem effect_call (type : HeaderType) (hlock : port.hdrsLock = false) (c : RegistrationCall) :
    ∃ r, port.call type c = some r ∧ Effect port (port.allocatorFails c) r := by
  cases c with
  | useBuffer nPortIndex pAppPrivate nSizeBytes pBuffer mem =>
    simp only [call, useBuffer, lock_eq hlock, map_some, some.injEq, exists_eq_left']
    split_ifs with hpopulated hcalloc hlist
    · exact .nothing rfl (unlock_lock hlock)
    · exact .nothing rfl (unlock_lock hlock)
    · exact .nothing rfl (unlock_lock hlock)
    · refine .added rfl rfl (by simpa using hpopulated) _ _ (fun nr count hle => ?_)
        (unlock_addHeader_lock _ _)
      simpa using ⟨fun h => UInt32.le_antisymm hle h, fun h => h ▸ UInt32.le_refl nr⟩
  | allocateBuffer nPortIndex pAppPrivate nSizeBytes mem =>
    simp only [call, allocateBuffer, lock_eq hlock, map_some, some.injEq, exists_eq_left']
    split_ifs with hpopulated hcalloc hlist hcustom hmem hdata
    · exact .nothing (by simp [allocatorFails, hpopulated]) (unlock_lock hlock)
    · exact .nothing (by simp [allocatorFails, hcalloc]) (unlock_lock hlock)
    · exact .nothing (by simp_all [allocatorFails]) (unlock_lock hlock)
    · exact .leaked (by simp_all [allocatorFails]) (by simp) rfl
    · exact .added (by simp [allocatorFails, hmem]) rfl (by simpa using hpopulated) _ _
        (fun nr count _ => by simp) (unlock_addHeader_lock _ _)
    · exact absurd hdata (dataAddress_ne_zero _ _ hcalloc)
    · exact .added (by simp [allocatorFails, hcustom]) rfl (by simpa using hpopulated) _ _
        (fun nr count _ => by simp) (unlock_addHeader_lock _ _)
  | freeBuffer pBuffer nSize nVersion data =>
    simp only [call, freeBuffer, lock_eq hlock, map_some, some.injEq, exists_eq_left']
    cases hfind : port.bufferHdrs.find? (·.address = pBuffer) with
    | none => exact .nothing rfl (unlock_lock hlock)
    | some hdr =>
      by_cases htype : type.checkTypeHeader nSize nVersion = .none
      · have haddress : hdr.address = pBuffer := by simpa using List.find?_some hfind
        simp only [htype, ne_eq, not_true_eq_false, if_false]
        exact .removed rfl rfl hdr (mem_of_find?_eq_some hfind) (by rw [haddress]; rfl)
      · simp only [htype, ne_eq, not_false_eq_true, if_true]
        exact .nothing rfl (unlock_lock hlock)

/-- A port that is not populated has room for another header. -/
theorem Consistent.lt (hport : port.Consistent) (hpopulated : port.bPopulated = false) :
    port.bufferHdrs.length < port.nBufferCountActual.toNat := by
  refine lt_of_le_of_ne hport.within fun h => ?_
  rw [hport.populated.mpr h] at hpopulated
  exact absurd hpopulated (by decide)

theorem consistent_unlock (hport : port.Consistent) : port.unlock.Consistent :=
  { hport with }

/-- The counter of a port that is not populated does not wrap around. -/
theorem Consistent.nrBufferHdrs_succ (hport : port.Consistent)
    (hpopulated : port.bPopulated = false) :
    (port.nrBufferHdrs + 1).toNat = port.bufferHdrs.length + 1 ∧
      port.nrBufferHdrs + 1 ≤ port.nBufferCountActual := by
  have hlt := hport.lt hpopulated
  have hnr : (port.nrBufferHdrs + 1).toNat = port.bufferHdrs.length + 1 := by
    have := hport.count
    have := port.nBufferCountActual.toNat_lt
    simp
    omega
  refine ⟨hnr, ?_⟩
  rw [UInt32.le_iff_toNat_le, hnr]
  exact hlt

variable {hdrs : PortHeaders} {hdr : BufferHeader}

/-- The counter of a port with a header does not wrap around. -/
theorem Consistent.nrBufferHdrs_pred (hport : port.Consistent) (hmem : hdr ∈ port.bufferHdrs) :
    (port.nrBufferHdrs - 1).toNat + 1 = port.bufferHdrs.length := by
  have hone : (1 : UInt32) ≤ port.nrBufferHdrs := by
    rw [UInt32.le_iff_toNat_le, hport.count]
    exact length_pos_of_mem hmem
  rw [UInt32.toNat_sub_of_le _ _ hone, hport.count]
  exact Nat.sub_add_cancel (length_pos_of_mem hmem)

/-- Adding a header to a port that is not populated. -/
theorem Consistent.addHeader (hport : port.Consistent) (hpopulated : port.bPopulated = false)
    (hdr : BufferHeader) (full : UInt32 → UInt32 → Bool)
    (hfull : ∀ nr count, nr ≤ count → (full nr count = true ↔ nr = count)) :
    (port.addHeader hdr full).Consistent := by
  have hlt := hport.lt hpopulated
  obtain ⟨hnr, hle⟩ := hport.nrBufferHdrs_succ hpopulated
  constructor
  · simpa [PortBase.addHeader] using hnr
  · simpa [PortBase.addHeader] using Nat.succ_le_of_lt hlt
  · simp only [PortBase.addHeader, hpopulated, Bool.false_or, hfull _ _ hle, length_append,
      length_singleton, ← hnr, UInt32.toNat_inj]

/-- Removing a header of the list. -/
theorem Consistent.removeHeader (hport : port.Consistent) (hmem : hdr ∈ port.bufferHdrs) :
    (port.removeHeader hdr.address).Consistent := by
  have hlength : (port.bufferHdrs.eraseP (·.address = hdr.address)).length + 1 =
      port.bufferHdrs.length := by
    rw [length_eraseP_of_mem hmem (by simp)]
    exact Nat.sub_add_cancel (length_pos_of_mem hmem)
  have hnr := hport.nrBufferHdrs_pred hmem
  have := hport.within
  constructor
  · simp only [PortBase.removeHeader]
    omega
  · simp only [PortBase.removeHeader]
    omega
  · simp only [PortBase.removeHeader, Bool.false_eq_true, false_iff]
    omega

/-- A call without a failure of the custom allocator keeps a released and consistent port so. -/
theorem Effect.keeps {r : Registered} (heffect : Effect port false r)
    (hlock : port.hdrsLock = false) :
    (r.error ≠ .none → port.Untouched r.port) ∧ r.port.hdrsLock = false ∧
      (port.Consistent → r.port.Consistent) := by
  cases heffect with
  | nothing _ hafter =>
    rw [hafter]
    exact ⟨fun _ => ⟨rfl, rfl, rfl, hlock⟩, hlock, id⟩
  | added _ herror hpopulated hdr full hfull hafter =>
    refine ⟨fun h => absurd herror h, by rw [hafter]; rfl, fun hport => ?_⟩
    rw [hafter]
    exact consistent_unlock (hport.addHeader hpopulated hdr full hfull)
  | removed _ herror hdr hmem hafter =>
    refine ⟨fun h => absurd herror h, by rw [hafter]; rfl, fun hport => ?_⟩
    rw [hafter]
    exact consistent_unlock (hport.removeHeader hmem)
  | leaked hfails => exact absurd hfails (by decide)

/-- A failure of the custom allocator is an error that keeps the mutex. -/
theorem Effect.not_untouched {r : Registered} (heffect : Effect port true r) :
    r.error ≠ .none ∧ ¬ port.Untouched r.port := by
  cases heffect with
  | nothing hfails => exact absurd hfails (by decide)
  | added hfails => exact absurd hfails (by decide)
  | removed hfails => exact absurd hfails (by decide)
  | leaked _ herror hafter =>
    refine ⟨herror, fun ⟨_, _, _, h⟩ => ?_⟩
    rw [hafter] at h
    exact absurd h (by decide)

/-! ## All calls -/

/-- A call on a released port is atomic unless the custom allocator fails in it. -/
theorem atomic_iff (type : HeaderType) (hlock : port.hdrsLock = false) (c : RegistrationCall) :
    port.Atomic type c ↔ port.allocatorFails c = false := by
  obtain ⟨r, hcall, heffect⟩ := effect_call type hlock c
  simp only [Atomic, hcall, some.injEq, exists_eq_left']
  cases hfails : port.allocatorFails c with
  | false =>
    rw [hfails] at heffect
    exact iff_of_true (heffect.keeps hlock).1 rfl
  | true =>
    rw [hfails] at heffect
    obtain ⟨herror, huntouched⟩ := heffect.not_untouched
    exact iff_of_false (fun h => huntouched (h herror)) (by decide)

/-- Calls on a released and consistent port. -/
theorem kept_iff (type : HeaderType) (hlock : port.hdrsLock = false) (hport : port.Consistent)
    (calls : List RegistrationCall) : port.Kept type calls ↔ port.neverFails type calls = true := by
  induction calls generalizing port with
  | nil => exact iff_of_true hport rfl
  | cons c calls ih =>
    obtain ⟨r, hcall, heffect⟩ := effect_call type hlock c
    simp only [Kept, neverFails, hcall, some.injEq, exists_eq_left', all_some,
      Bool.and_eq_true, Bool.not_eq_true']
    cases hfails : port.allocatorFails c with
    | false =>
      rw [hfails] at heffect
      obtain ⟨herror, hreleased, hconsistent⟩ := heffect.keeps hlock
      rw [ih hreleased (hconsistent hport)]
      exact ⟨fun h => ⟨rfl, h.2.2⟩, fun h => ⟨hport, herror, h.2⟩⟩
    | true =>
      rw [hfails] at heffect
      obtain ⟨herror, huntouched⟩ := heffect.not_untouched
      exact iff_of_false (fun h => huntouched (h.2.1 herror)) (by simp)

/-- A port without buffers is consistent if it is to have some. -/
theorem Fresh.consistent_iff (hport : port.Fresh) :
    port.Consistent ↔ port.nBufferCountActual ≠ 0 := by
  obtain ⟨hhdrs, hnr, hpopulated, -⟩ := hport
  constructor
  · intro h hzero
    have := h.populated
    simp [hhdrs, hpopulated, hzero] at this
  · intro hactual
    have hactual : port.nBufferCountActual.toNat ≠ 0 := fun h =>
      hactual (UInt32.toNat_inj.mp h)
    constructor
    · simp [hhdrs, hnr]
    · simp [hhdrs]
    · simp [hhdrs, hpopulated, hactual.symm]

theorem Kept.consistent {calls : List RegistrationCall} (h : port.Kept type calls) :
    port.Consistent := by
  cases calls with
  | nil => exact h
  | cons => exact h.1

/-- The registration of buffers is atomic exactly as far as the custom allocator does not fail: a
call on a released port with an error changes nothing, and the calls on a port without buffers, all
of them, keep it consistent if it is to have buffers. -/
theorem registration_atomic_iff (type : HeaderType) (port : PortBase)
    (hlock : port.hdrsLock = false) :
    (∀ c, port.Atomic type c ↔ port.allocatorFails c = false) ∧
      (port.Fresh → ∀ calls, port.Kept type calls ↔
        port.nBufferCountActual ≠ 0 ∧ port.neverFails type calls = true) := by
  refine ⟨atomic_iff type hlock, fun hport calls => ?_⟩
  constructor
  · intro h
    exact ⟨hport.consistent_iff.mp h.consistent, (kept_iff type hlock h.consistent calls).mp h⟩
  · rintro ⟨hactual, hcalls⟩
    exact (kept_iff type hlock (hport.consistent_iff.mpr hactual) calls).mpr hcalls

/-! ## The counters of a port -/

/-- The numbers and flags of a port that a command waits for. -/
structure Counts (port : PortBase) (hdrs : PortHeaders) : Prop where
  count : hdrs.nrBufferHdrs = port.nrBufferHdrs.toNat
  actual : hdrs.nBufferCountActual = port.nBufferCountActual.toNat
  populated : hdrs.populated = port.bPopulated
  completion : hdrs.completion = port.bufferHdrsCompletion

theorem allocateBuffer_eq (h : hdrs.populated = false) :
    hdrs.allocateBuffer.nrBufferHdrs = hdrs.nrBufferHdrs + 1 ∧
      hdrs.allocateBuffer.nBufferCountActual = hdrs.nBufferCountActual ∧
      hdrs.allocateBuffer.populated = decide (hdrs.nrBufferHdrs + 1 = hdrs.nBufferCountActual) ∧
      hdrs.allocateBuffer.completion =
        (hdrs.completion || decide (hdrs.nrBufferHdrs + 1 = hdrs.nBufferCountActual)) := by
  by_cases hfull : hdrs.nrBufferHdrs + 1 = hdrs.nBufferCountActual <;>
    simp [PortHeaders.allocateBuffer, PortHeaders.addHeader, h, hfull]

theorem freeBuffer_eq (hdrs : PortHeaders) :
    hdrs.freeBuffer.nrBufferHdrs = hdrs.nrBufferHdrs - 1 ∧
      hdrs.freeBuffer.nBufferCountActual = hdrs.nBufferCountActual ∧
      hdrs.freeBuffer.populated = false ∧
      hdrs.freeBuffer.completion = (hdrs.completion || decide (hdrs.nrBufferHdrs - 1 = 0)) := by
  by_cases hlast : hdrs.nrBufferHdrs - 1 = 0 <;> simp [PortHeaders.freeBuffer, hlast]

/-- On a consistent port, both ways to add a header count it as `PortHeaders.allocateBuffer`. -/
theorem Counts.addHeader (h : port.Counts hdrs) (hport : port.Consistent)
    (hpopulated : port.bPopulated = false) (hdr : BufferHeader) (full : UInt32 → UInt32 → Bool)
    (hfull : ∀ nr count, nr ≤ count → (full nr count = true ↔ nr = count)) :
    (port.addHeader hdr full).Counts hdrs.allocateBuffer := by
  obtain ⟨hnr, hle⟩ := hport.nrBufferHdrs_succ hpopulated
  have heq : full (port.nrBufferHdrs + 1) port.nBufferCountActual =
      decide (hdrs.nrBufferHdrs + 1 = hdrs.nBufferCountActual) := by
    rw [Bool.eq_iff_iff, hfull _ _ hle, decide_eq_true_iff, h.count, h.actual, hport.count, ← hnr,
      UInt32.toNat_inj]
  obtain ⟨hcount, hactual, hpop, hcompletion⟩ :=
    allocateBuffer_eq (h.populated.trans hpopulated)
  constructor
  · rw [hcount, h.count, hport.count]
    exact hnr.symm
  · rw [hactual]
    exact h.actual
  · rw [hpop, ← heq]
    simp [PortBase.addHeader, hpopulated]
  · rw [hcompletion, ← heq, h.completion]
    rfl

/-- Removing a header counts as `PortHeaders.freeBuffer`. -/
theorem Counts.removeHeader (h : port.Counts hdrs) (hport : port.Consistent)
    (hmem : hdr ∈ port.bufferHdrs) : (port.removeHeader hdr.address).Counts hdrs.freeBuffer := by
  have hnr := hport.nrBufferHdrs_pred hmem
  have hsub : (port.nrBufferHdrs - 1).toNat = hdrs.nrBufferHdrs - 1 := by
    rw [h.count, hport.count]
    omega
  obtain ⟨hcount, hactual, hpop, hcompletion⟩ := freeBuffer_eq hdrs
  constructor
  · rw [hcount]
    exact hsub.symm
  · rw [hactual]
    exact h.actual
  · rw [hpop]
    rfl
  · rw [hcompletion, h.completion, ← hsub]
    simp [PortBase.removeHeader, ← UInt32.toNat_inj]

/-- A call counts for the waiting command as a step of `PortHeaders`, or as none. -/
theorem counts_call (type : HeaderType) (h : port.Counts hdrs) (hport : port.Consistent)
    (hlock : port.hdrsLock = false) (c : RegistrationCall) (hfails : port.allocatorFails c = false)
    :
    ∃ r, port.call type c = some r ∧
      (r.port.Counts hdrs ∨ r.port.Counts hdrs.allocateBuffer ∨ r.port.Counts hdrs.freeBuffer) := by
  obtain ⟨r, hcall, heffect⟩ := effect_call type hlock c
  refine ⟨r, hcall, ?_⟩
  cases heffect with
  | nothing _ hafter => exact .inl (hafter ▸ h)
  | added _ _ hpopulated hdr full hfull hafter =>
    obtain ⟨hcount, hactual, hpop, hcompletion⟩ := h.addHeader hport hpopulated hdr full hfull
    exact .inr (.inl (hafter ▸ ⟨hcount, hactual, hpop, hcompletion⟩))
  | removed _ _ hdr hmem hafter =>
    obtain ⟨hcount, hactual, hpop, hcompletion⟩ := h.removeHeader hport hmem
    exact .inr (.inr (hafter ▸ ⟨hcount, hactual, hpop, hcompletion⟩))
  | leaked hfail => exact absurd (hfails.symm.trans hfail) (by decide)

/-- A call of the client as a step of the port. -/
def registrationStep (type : HeaderType) (port : PortBase) (c : RegistrationCall) :
    Option PortBase :=
  (port.call type c).map Registered.port

/-- A header is added or removed, as the waiting command sees it. -/
def headersStep (hdrs : PortHeaders) (allocates : Bool) : Option PortHeaders :=
  some (if allocates then hdrs.allocateBuffer else hdrs.freeBuffer)

/-- What is kept along a run: the port is counted by headers that a run of theirs leads to. -/
structure Refined (hdrs : PortHeaders) (port : PortBase) : Prop where
  counts : ∃ hdrs', Reach headersStep (fun _ _ => True) hdrs hdrs' ∧ port.Counts hdrs'
  consistent : port.Consistent
  released : port.hdrsLock = false

theorem Refined.step {after : PortBase} {c : RegistrationCall} (h : Refined hdrs port)
    (hfails : port.allocatorFails c = false) (hstep : registrationStep type port c = some after) :
    Refined hdrs after := by
  obtain ⟨hdrs', hreach, hcounts⟩ := h.counts
  obtain ⟨r, hcall, hr⟩ := counts_call type hcounts h.consistent h.released c hfails
  obtain ⟨r', hcall', heffect⟩ := effect_call type h.released c
  obtain rfl : r = r' := some.inj (hcall.symm.trans hcall')
  rw [registrationStep, hcall, map_some, some.injEq] at hstep
  subst hstep
  rw [hfails] at heffect
  obtain ⟨-, hlock, hkeeps⟩ := heffect.keeps h.released
  refine ⟨?_, hkeeps h.consistent, hlock⟩
  rcases hr with hsame | hadded | hremoved
  · exact ⟨hdrs', hreach, hsame⟩
  · exact ⟨_, hreach.tail (x := true) trivial rfl, hadded⟩
  · exact ⟨_, hreach.tail (x := false) trivial rfl, hremoved⟩

/-- Every run of registrations on which the custom allocator does not fail is a run of the headers
that a command waits for: at its end the numbers and the flags are the same. -/
theorem registration_refines (type : HeaderType) {hdrs : PortHeaders} (hcounts : port.Counts hdrs)
    (hport : port.Consistent) (hlock : port.hdrsLock = false) {after : PortBase}
    (hrun : Reach (registrationStep type) (fun port c => port.allocatorFails c = false)
      port after) :
    ∃ hdrs', Reach headersStep (fun _ _ => True) hdrs hdrs' ∧ after.Counts hdrs' :=
  (hrun.invariant (I := Refined hdrs) ⟨⟨hdrs, .refl, hcounts⟩, hport, hlock⟩
    fun _ _ _ h hfails hstep => h.step hfails hstep).counts

/-! ## A custom allocator -/

/-- An input port for two buffers with a custom allocator. -/
def customPort : PortBase where
  bufferHdrs := []
  nrBufferHdrs := 0
  bufferHdrsCompletion := false
  hdrsLock := false
  customMemAlloc := true
  customMemFree := true
  memAlignment := 0
  eDir := .input
  nBufferCountActual := 2
  bPopulated := false

/-- `OMX_BUFFERHEADERTYPE` on a platform with four-byte pointers. -/
def headerType : HeaderType := ⟨80, 0x00000001⟩

/-- Two buffers are registered; one is freed, which its client had overwritten at first. -/
theorem registration_atomic_custom :
    customPort.Kept headerType
      [.allocateBuffer 0 0 1024 ⟨4096, true, 8192⟩, .useBuffer 0 0 1024 9000 ⟨0, true, 0⟩,
        .useBuffer 0 0 1024 9000 ⟨5000, true, 0⟩, .freeBuffer 4096 0 1 8192,
        .freeBuffer 4096 80 1 8192] :=
  ((registration_atomic_iff headerType customPort rfl).2 ⟨rfl, rfl, rfl, rfl⟩ _).mpr
    (by decide)

/-- The port for two buffers gets them, and the command that waits sees a populated port. -/
theorem registration_refines_two_buffers :
    ∃ after hdrs', Reach (registrationStep headerType)
        (fun port c => port.allocatorFails c = false) customPort after ∧
      Reach headersStep (fun _ _ => True) (.new 2) hdrs' ∧ after.Counts hdrs' ∧
      hdrs'.populated = true := by
  obtain ⟨after, hrun, hpopulated⟩ := @Reach.exists_of_exec _ _ (registrationStep headerType)
    (fun port c => port.allocatorFails c = false) (fun port c => !port.allocatorFails c)
    (fun port => port.bPopulated) customPort (fun _ _ h => (Bool.not_eq_true' _).mp h)
    [.allocateBuffer 0 0 1024 ⟨4096, true, 8192⟩, .useBuffer 0 0 1024 9000 ⟨5000, true, 0⟩]
    (by decide)
  have hport : customPort.Consistent := ⟨rfl, by decide, by decide⟩
  have hcounts : customPort.Counts (.new 2) := ⟨rfl, rfl, rfl, rfl⟩
  obtain ⟨hdrs', hreach, hafter⟩ := registration_refines headerType hcounts hport rfl hrun
  exact ⟨after, hdrs', hrun, hreach, hafter, hafter.populated.trans hpopulated⟩

/-- After a failure of the custom allocator, the mutex is held, and no call returns. -/
theorem registration_not_atomic :
    customPort.Fresh ∧
      ¬ customPort.Atomic headerType (.allocateBuffer 0 0 1024 ⟨4096, true, 0⟩) ∧
      ∃ r, customPort.call headerType (.allocateBuffer 0 0 1024 ⟨4096, true, 0⟩) = some r ∧
        r.error = .insufficientResources ∧ ∀ c, r.port.call headerType c = none := by
  refine ⟨⟨rfl, rfl, rfl, rfl⟩, ?_, _, rfl, rfl, fun c => ?_⟩
  · rintro ⟨r, hr, hkeeps⟩
    cases hr
    exact absurd (hkeeps (by decide)).2.2.2 (by decide)
  · cases c <;> rfl

end PortBase

end HardwareIntel.Omx
