import HardwareIntel.Omx.Component
import Mathlib.Data.List.Count
import Mathlib.Data.Option.Basic

/-!
# The buffers of an OMX component

The buffer queues of `PortBase` (`wrs_omxil_core/base/src/portbase.cpp`) and
`ComponentBase::Work` (`componentbase.cpp`). The client hands buffer headers to the ports; the
worker takes one header of every port, gives them to the processor, and distributes them by the
retain codes that the processor sets.

A port counts what it got and what it gave back, in `handed` and `returned`; `cached` are the
headers that the processor keeps with `BUFFER_RETAIN_CACHE`, and `popped` is the header that an
iteration of `Work` holds. The two halves of an iteration are two steps, since the client may hand
in buffers, and the processor may return retained ones, between them. Queue entries are always
allocated; the marks are in `HardwareIntel.Omx.Marks`.
-/

namespace HardwareIntel.Omx

open List Option

variable {n : ℕ} {H : Type} [DecidableEq H]

/-! ## A port -/

/-- `buffer_retain_t`. -/
inductive Retain
  | notRetain | getAgain | accumulate | overridden | cache
  deriving DecidableEq

/-- The parts of a `PortBase` that hold buffers, over the buffer headers `H`. An entry `none` of the
queue is a NULL pointer. -/
structure Port (H : Type) where
  enabled : Bool
  nBufferCountActual : ℕ
  bufferq : List (Option H)
  retainedbufferq : List H
  cached : List H
  popped : Option H
  handed : List H
  returned : List H

namespace Port

/-- A port without buffers. -/
def new (enabled : Bool) (nBufferCountActual : ℕ) : Port H :=
  ⟨enabled, nBufferCountActual, [], [], [], none, [], []⟩

/-- `PushThisBuffer`. -/
def pushThisBuffer (port : Port H) (b : H) : Port H :=
  { port with bufferq := port.bufferq ++ [some b], handed := b :: port.handed }

/-- `PopBuffer`, for an iteration of `Work`. -/
def popBuffer (port : Port H) : Port H :=
  match port.bufferq with
  | [] => { port with popped := none }
  | b :: q => { port with bufferq := q, popped := b }

/-- `ReturnThisBuffer`; `own` says that the port index of the header is the one of the port. -/
def returnThisBuffer (own : H → Bool) (port : Port H) (b : H) : Port H :=
  if own b then { port with returned := b :: port.returned } else port

/-- `RetainThisBuffer` to get the buffer again: at the head of the queue. -/
def retainGetAgain (port : Port H) (b : Option H) : Port H :=
  { port with bufferq := b :: port.bufferq }

/-- `RetainThisBuffer` to accumulate the buffer, if it has the room; `refused` says that the buffer
has the EOS flag and the component is no encoder. -/
def retainAccumulate (refused : Bool) (port : Port H) (b : H) : Port H :=
  if refused then port
  else if port.retainedbufferq.length < port.nBufferCountActual then
    { port with retainedbufferq := port.retainedbufferq ++ [b] }
  else port

/-- The loop of `RetainAndReturnBuffer`: up to `k` times, take the head of the queue and put it at
the tail, until it is `b`, which is left out. -/
def removeBuffer (b : H) : ℕ → List (Option H) → List (Option H) × Bool
  | 0, q => (q, false)
  | _ + 1, [] => ([], false)
  | k + 1, p :: q => if p = some b then (q, true) else removeBuffer b k (q ++ [p])

/-- `RetainAndReturnBuffer`. -/
def retainAndReturnBuffer (own : H → Bool) (port : Port H) (pRetain : Option H) (pReturn : H) :
    Port H :=
  if pRetain = some pReturn then port.returnThisBuffer own pReturn
  else
    let port := port.retainGetAgain pRetain
    match removeBuffer pReturn port.bufferq.length port.bufferq with
    | (q, true) => { port with bufferq := q }.returnThisBuffer own pReturn
    | (q, false) => { port with bufferq := q }

/-- `ReturnAllRetainedBuffers`. -/
def returnAllRetainedBuffers (own : H → Bool) (port : Port H) : Port H :=
  port.retainedbufferq.foldl (returnThisBuffer own) { port with retainedbufferq := [] }

/-- `ReturnOneRetainedBuffer`. -/
def returnOneRetainedBuffer (own : H → Bool) (port : Port H) : Port H :=
  match port.retainedbufferq with
  | [] => port
  | b :: q => { port with retainedbufferq := q }.returnThisBuffer own b

/-- The loop of `FlushPort` over the buffer queue; it ends at a NULL pointer. -/
def returnQueue (own : H → Bool) : List (Option H) → Port H → Port H
  | [], port => { port with bufferq := [] }
  | none :: q, port => { port with bufferq := q }
  | some b :: q, port => returnQueue own q (port.returnThisBuffer own b)

/-- `FlushPort`. -/
def flushPort (own : H → Bool) (port : Port H) : Port H :=
  let port := port.returnAllRetainedBuffers own
  returnQueue own port.bufferq port

/-- The processor returns a header that it kept. -/
def returnCached (own : H → Bool) (port : Port H) (b : H) : Port H :=
  { port with cached := port.cached.erase b }.returnThisBuffer own b

/-- What `Work` does with the buffer of a port when the processor succeeded: `hdr` is the buffer
the processor left for the port. -/
def distribute (own : H → Bool) (refused : Bool) (hdr : Option H) (retain : Retain)
    (port : Port H) : Port H :=
  match hdr with
  | none => port
  | some b =>
    match retain with
    | .getAgain => port.retainGetAgain (some b)
    | .accumulate => port.retainAccumulate refused b
    | .overridden => port.retainAndReturnBuffer own port.popped b
    | .cache => port
    | .notRetain => port.returnThisBuffer own b

/-- A port at the end of an iteration in which the processor succeeded. The processor keeps the
buffer that was popped if it said so. -/
def finish (own : H → Bool) (refused : Bool) (hdr : Option H) (retain : Retain) (port : Port H) :
    Port H :=
  let port' := port.distribute own refused hdr retain
  { port' with
    popped := none
    cached := if retain = .cache then port.popped.toList ++ port'.cached else port'.cached }

/-- A port at the end of an iteration in which the processor failed. -/
def fail (own : H → Bool) (hdr : Option H) (port : Port H) : Port H :=
  let port := { port with popped := none }
  match hdr with
  | none => port
  | some b => (port.returnThisBuffer own b).flushPort own

end Port

/-! ## The component -/

/-- The direction of a port (`OMX_DIRTYPE`). -/
inductive Direction
  | input | output
  deriving DecidableEq

/-- What does not change: the directions of the ports, whether the role is one of a video encoder,
and the port indices in the buffer headers. -/
structure Setup (n : ℕ) (H : Type) where
  direction : Fin n → Direction
  videoEncoder : Bool
  nInputPortIndex : H → ℕ
  nOutputPortIndex : H → ℕ

/-- The buffers of a component. `eos` is the EOS flag of the headers, and `working` says that the
worker is in an iteration of `Work`. -/
structure Buffers (n : ℕ) (H : Type) where
  ports : Fin n → Port H
  eos : H → Bool
  state : OmxState
  working : Bool

/-- What the processor does with the buffers of the ports: the result of `ProcessorProcess`, the
buffers and the retain codes it leaves, and the EOS flags. -/
structure Processed (n : ℕ) (H : Type) where
  ok : Bool
  hdr : Fin n → Option H
  retain : Fin n → Retain
  eos : H → Bool

/-- The port index in the header, for the direction of the port, is the one of the port. -/
def Setup.owns (setup : Setup n H) (p : Fin n) (b : H) : Bool :=
  match setup.direction p with
  | .input => setup.nInputPortIndex b == p.val
  | .output => setup.nOutputPortIndex b == p.val

/-- `FilterPostProcessBuffers`, for the EOS flags: each input buffer that is not got again passes
its flag to the output buffers. `none` is the use of a NULL pointer. -/
def filterPostProcessBuffers (setup : Setup n H) (r : Processed n H) : Option (H → Bool) :=
  (List.finRange n).foldlM (fun eos i =>
    match setup.direction i with
    | .output => some eos
    | .input => (r.hdr i).bind fun b =>
      if r.retain i = .getAgain then some eos
      else
        ((List.finRange n).foldlM (fun eos j =>
          if setup.direction j = .output ∧ eos b = true then
            (r.hdr j).map fun c => Function.update eos c true
          else some eos) eos).map fun eos => Function.update eos b false) r.eos

/-- `SourcePostProcessBuffers` reads every buffer. -/
def sourcePostProcessBuffers (r : Processed n H) : Option (H → Bool) :=
  if ∀ i, (r.hdr i).isSome then some r.eos else none

/-- `PostProcessBuffers`, which `Work` leaves out for an encoder: the EOS flags afterwards. -/
def postProcessBuffers (setup : Setup n H) (r : Processed n H) : Option (H → Bool) :=
  if setup.videoEncoder then some r.eos
  else if ∀ i, setup.direction i = .output then sourcePostProcessBuffers r
  else if ∀ i, setup.direction i = .input then some r.eos
  else filterPostProcessBuffers setup r

/-- `RetainThisBuffer` refuses to accumulate the buffer. -/
def refused (setup : Setup n H) (eos : H → Bool) (hdr : Option H) : Bool :=
  !setup.videoEncoder && hdr.any eos

/-- `IsAllBufferAvailable`. -/
def isAllBufferAvailable (s : Buffers n H) : Bool :=
  decide (∀ p, (s.ports p).enabled = true ∧
    0 < (s.ports p).bufferq.length + (s.ports p).retainedbufferq.length)

/-- `CBaseEmptyThisBuffer` and `CBaseFillThisBuffer`, for the port index they take from the header
and the flag the client set. -/
def handThisBuffer (s : Buffers n H) (portIndex : ℕ) (b : H) (eos : Bool) : Buffers n H :=
  let s := { s with eos := Function.update s.eos b eos }
  if h : portIndex < n then
    let p : Fin n := ⟨portIndex, h⟩
    if (s.ports p).enabled = true ∧ s.state ≠ .idle ∧ s.state ≠ .executing ∧ s.state ≠ .pause then s
    else { s with ports := Function.update s.ports p ((s.ports p).pushThisBuffer b) }
  else s

/-- The second half of an iteration of `Work`. -/
def distributeBuffers (setup : Setup n H) (s : Buffers n H) (r : Processed n H) :
    Option (Buffers n H) :=
  if r.ok then
    (postProcessBuffers setup r).map fun eos =>
      { s with
        ports := fun p => (s.ports p).finish (setup.owns p) (refused setup eos (r.hdr p))
          (r.hdr p) (r.retain p)
        eos := eos
        working := false }
  else
    some { s with
      ports := fun p => (s.ports p).fail (setup.owns p) (r.hdr p)
      eos := r.eos
      working := false }

/-- The steps of a component with its client. The state commands, and the commands and parameters of
a port, may change the state, and whether a port is enabled and its number of buffers, at any
time. -/
inductive BufferStep (n : ℕ) (H : Type)
  | emptyThisBuffer (b : H) (eos : Bool)
  | fillThisBuffer (b : H) (eos : Bool)
  | popBuffers
  | distributeBuffers (r : Processed n H)
  | flushPort (p : Fin n)
  | flushAllPorts
  | returnOneRetainedBuffer (p : Fin n)
  | returnAllRetainedBuffers (p : Fin n)
  | returnCached (p : Fin n) (b : H)
  | setState (state : OmxState)
  | setPort (p : Fin n) (enabled : Bool) (nBufferCountActual : ℕ)

/-- Change one port. -/
def Buffers.onPort (s : Buffers n H) (p : Fin n) (f : Port H → Port H) : Buffers n H :=
  { s with ports := Function.update s.ports p (f (s.ports p)) }

/-- One step. The worker and a flush exclude each other (`ports_block`). -/
def bufferStep (setup : Setup n H) (s : Buffers n H) : BufferStep n H → Option (Buffers n H)
  | .emptyThisBuffer b eos => some (handThisBuffer s (setup.nInputPortIndex b) b eos)
  | .fillThisBuffer b eos => some (handThisBuffer s (setup.nOutputPortIndex b) b eos)
  | .popBuffers =>
    if s.working = false ∧ n ≠ 0 ∧ isAllBufferAvailable s = true then
      some { s with ports := fun p => (s.ports p).popBuffer, working := true }
    else none
  | .distributeBuffers r => if s.working then distributeBuffers setup s r else none
  | .flushPort p => if s.working then none else some (s.onPort p (·.flushPort (setup.owns p)))
  | .flushAllPorts =>
    if s.working then none
    else some { s with ports := fun p => (s.ports p).flushPort (setup.owns p) }
  | .returnOneRetainedBuffer p => some (s.onPort p (·.returnOneRetainedBuffer (setup.owns p)))
  | .returnAllRetainedBuffers p => some (s.onPort p (·.returnAllRetainedBuffers (setup.owns p)))
  | .returnCached p b =>
    if b ∈ (s.ports p).cached then some (s.onPort p (·.returnCached (setup.owns p) b)) else none
  | .setState state => some { s with state := state }
  | .setPort p enabled count =>
    some (s.onPort p fun port => { port with enabled := enabled, nBufferCountActual := count })

/-- A component before any buffer was handed in. -/
def Buffers.new (enabled : Fin n → Bool) (count : Fin n → ℕ) (eos : H → Bool) (state : OmxState) :
    Buffers n H :=
  ⟨fun p => .new (enabled p) (count p), eos, state, false⟩

/-! ## Conservation at a port -/

namespace Port

section Popped

variable (own : H → Bool) (port : Port H)

section

omit [DecidableEq H]

@[simp] theorem popped_returnThisBuffer (b : H) :
    (port.returnThisBuffer own b).popped = port.popped := by
  unfold returnThisBuffer
  split <;> rfl

theorem popped_foldl_returnThisBuffer (l : List H) :
    (l.foldl (returnThisBuffer own) port).popped = port.popped := by
  induction l generalizing port with
  | nil => rfl
  | cons b l ih => rw [foldl_cons, ih, popped_returnThisBuffer]

@[simp] theorem popped_returnAllRetainedBuffers :
    (port.returnAllRetainedBuffers own).popped = port.popped :=
  popped_foldl_returnThisBuffer own _ _

@[simp] theorem popped_returnOneRetainedBuffer :
    (port.returnOneRetainedBuffer own).popped = port.popped := by
  unfold returnOneRetainedBuffer
  split
  · rfl
  · rw [popped_returnThisBuffer]

theorem popped_returnQueue (q : List (Option H)) :
    (returnQueue own q port).popped = port.popped := by
  induction q generalizing port with
  | nil => rfl
  | cons x q ih =>
    cases x with
    | none => rfl
    | some b => rw [returnQueue, ih, popped_returnThisBuffer]

@[simp] theorem popped_flushPort : (port.flushPort own).popped = port.popped := by
  unfold flushPort
  rw [popped_returnQueue, popped_returnAllRetainedBuffers]

end

@[simp] theorem popped_returnCached (b : H) : (port.returnCached own b).popped = port.popped :=
  popped_returnThisBuffer own _ b

omit [DecidableEq H] in
@[simp] theorem popped_fail (hdr : Option H) : (port.fail own hdr).popped = none := by
  unfold fail
  cases hdr <;> simp

end Popped

/-- How often the port and the processor have the header. -/
def held (port : Port H) (b : H) : ℕ :=
  port.bufferq.count (some b) + port.retainedbufferq.count b + port.cached.count b +
    port.popped.toList.count b

/-- Each header that was handed in is held or was returned, once for each time it was handed in;
and what is held belongs to the port. -/
structure Balanced (own : H → Bool) (port : Port H) : Prop where
  noNull : port.bufferq.count none = 0
  owned : ∀ b, 0 < port.held b → own b = true
  balance : ∀ b, port.handed.count b = port.held b + port.returned.count b

variable {own : H → Bool} {port port' : Port H}

theorem balanced_new (own : H → Bool) (enabled : Bool) (count : ℕ) :
    (new enabled count : Port H).Balanced own := by
  constructor <;> simp [new, held]

/-- Headers that move, or are returned, stay balanced. -/
theorem Balanced.of_moved (h : port.Balanced own) (hnull : port'.bufferq.count none = 0)
    (hhanded : port'.handed = port.handed) (hheld : ∀ b, port'.held b ≤ port.held b)
    (hsum : ∀ b, port'.held b + port'.returned.count b = port.held b + port.returned.count b) :
    port'.Balanced own where
  noNull := hnull
  owned b hb := h.owned b (Nat.lt_of_lt_of_le hb (hheld b))
  balance b := by rw [hhanded, h.balance b, hsum b]

variable {b : H}

theorem Balanced.pushThisBuffer (h : port.Balanced own) (hb : own b = true) :
    (port.pushThisBuffer b).Balanced own where
  noNull := by simpa [Port.pushThisBuffer] using h.noNull
  owned c hc := by
    by_cases hbc : b = c
    · exact hbc ▸ hb
    · exact h.owned c (by simpa [Port.pushThisBuffer, held, count_singleton, hbc] using hc)
  balance c := by
    have hc := h.balance c
    simp only [Port.pushThisBuffer, held, count_append, count_cons, count_nil,
      beq_iff_eq, some.injEq] at hc ⊢
    omega

theorem Balanced.popBuffer (h : port.Balanced own) (hpopped : port.popped = none) :
    port.popBuffer.Balanced own := by
  unfold Port.popBuffer
  cases hq : port.bufferq with
  | nil =>
    refine h.of_moved ?_ rfl (fun b => ?_) fun b => ?_ <;> simp [held, hq, hpopped]
  | cons x q =>
    have hnull := h.noNull
    rw [hq, count_cons] at hnull
    have hx : x ≠ none := by
      rintro rfl
      simp at hnull
    obtain ⟨a, rfl⟩ := ne_none_iff_exists'.mp hx
    have hheld : ∀ b, held { port with bufferq := q, popped := some a } b = port.held b := by
      intro b
      simp only [held, hq, hpopped, count_cons, toList_some, toList_none,
        count_nil, beq_iff_eq, some.injEq]
      omega
    refine h.of_moved ?_ rfl (fun b => Nat.le_of_eq (hheld b)) fun b => by rw [hheld b]
    simpa using hnull

omit [DecidableEq H] in
theorem returnThisBuffer_eq (hb : own b = true) :
    port.returnThisBuffer own b = { port with returned := b :: port.returned } := by
  simp [returnThisBuffer, hb]

omit [DecidableEq H] in
/-- Returning the headers of a list one after the other. -/
theorem foldl_returnThisBuffer {l : List H} (hl : ∀ b ∈ l, own b = true) (port : Port H) :
    l.foldl (returnThisBuffer own) port =
      { port with returned := l.reverse ++ port.returned } := by
  induction l generalizing port with
  | nil => simp
  | cons b l ih =>
    rw [foldl_cons, returnThisBuffer_eq (hl b (mem_cons_self ..)),
      ih fun c hc => hl c (mem_cons_of_mem _ hc)]
    simp

omit [DecidableEq H] in
theorem returnQueue_map_some {l : List H} (hl : ∀ b ∈ l, own b = true) (port : Port H) :
    returnQueue own (l.map some) port =
      { port with bufferq := [], returned := l.reverse ++ port.returned } := by
  induction l generalizing port with
  | nil => simp [returnQueue]
  | cons b l ih =>
    rw [map_cons, returnQueue, returnThisBuffer_eq (hl b (mem_cons_self ..)),
      ih fun c hc => hl c (mem_cons_of_mem _ hc)]
    simp

theorem Balanced.owned_of_mem_retained (h : port.Balanced own) (hb : b ∈ port.retainedbufferq) :
    own b = true := by
  have hcount := count_pos_iff.mpr hb
  exact h.owned b (by unfold held; omega)

theorem Balanced.owned_of_mem_bufferq (h : port.Balanced own) (hb : some b ∈ port.bufferq) :
    own b = true := by
  have hcount := count_pos_iff.mpr hb
  exact h.owned b (by unfold held; omega)

theorem Balanced.owned_of_popped (h : port.Balanced own) (hb : port.popped = some b) :
    own b = true :=
  h.owned b (by simp [held, hb])

/-- A queue without NULL pointers holds headers only. -/
theorem exists_map_some {q : List (Option H)} (hq : q.count none = 0) :
    ∃ l : List H, q = l.map some := by
  induction q with
  | nil => exact ⟨[], rfl⟩
  | cons x q ih =>
    cases x with
    | none => simp at hq
    | some b =>
      obtain ⟨l, rfl⟩ := ih (by simpa using hq)
      exact ⟨b :: l, rfl⟩

section

variable (h : port.Balanced own)
include h

theorem Balanced.returnAllRetainedBuffers :
    (port.returnAllRetainedBuffers own).Balanced own := by
  unfold Port.returnAllRetainedBuffers
  rw [foldl_returnThisBuffer fun b hb => h.owned_of_mem_retained hb]
  refine h.of_moved h.noNull rfl (fun b => ?_) fun b => ?_
  · simp only [held, count_nil]
    omega
  · simp only [held, count_nil, count_append, count_reverse]
    omega

theorem Balanced.returnOneRetainedBuffer :
    (port.returnOneRetainedBuffer own).Balanced own := by
  unfold Port.returnOneRetainedBuffer
  cases hq : port.retainedbufferq with
  | nil => exact h
  | cons b q =>
    have hb : own b = true := h.owned_of_mem_retained (hq ▸ mem_cons_self ..)
    dsimp only
    rw [returnThisBuffer_eq hb]
    refine h.of_moved h.noNull rfl (fun c => ?_) fun c => ?_
    · simp only [held, hq, count_cons]
      omega
    · simp only [held, hq, count_cons]
      omega

theorem Balanced.flushPort : (port.flushPort own).Balanced own := by
  have hret := h.returnAllRetainedBuffers
  unfold Port.flushPort
  dsimp only
  generalize port.returnAllRetainedBuffers own = port' at hret
  obtain ⟨l, hl⟩ := exists_map_some hret.noNull
  have hown : ∀ b ∈ l, own b = true := fun b hb =>
    hret.owned_of_mem_bufferq (hl ▸ mem_map_of_mem hb)
  rw [hl, returnQueue_map_some hown]
  have hcount : ∀ b, port'.bufferq.count (some b) = l.count b := by
    intro b
    rw [hl, count_map_of_injective _ _ (some_injective H)]
  refine hret.of_moved (by simp) rfl (fun b => ?_) fun b => ?_
  · simp only [held, count_nil]
    omega
  · simp only [held, hcount, count_nil, count_append, count_reverse]
    omega

theorem Balanced.returnCached (hb : b ∈ port.cached) :
    (port.returnCached own b).Balanced own := by
  have hcount := count_pos_iff.mpr hb
  have hown : own b = true := h.owned b (by unfold held; omega)
  unfold Port.returnCached
  rw [returnThisBuffer_eq hown]
  refine h.of_moved h.noNull rfl (fun c => ?_) fun c => ?_
  · simp only [held, count_erase]
    omega
  · simp only [held, count_erase, count_cons]
    by_cases hbc : b = c
    · subst hbc
      simp
      omega
    · simp [hbc]

end

/-- The loop of `RetainAndReturnBuffer` takes the header out, if it finds it, and keeps the rest. -/
theorem count_removeBuffer (b : H) (x : Option H) (k : ℕ) (q : List (Option H)) :
    (removeBuffer b k q).1.count x +
      (if (removeBuffer b k q).2 = true ∧ x = some b then 1 else 0) = q.count x := by
  induction k generalizing q with
  | zero => simp [removeBuffer]
  | succ k ih =>
    cases q with
    | nil => simp [removeBuffer]
    | cons p q =>
      rw [removeBuffer]
      split
      · rename_i hp
        rw [hp, count_cons]
        simp [@eq_comm _ x]
      · rw [ih, count_append, count_cons, count_cons, count_nil]
        omega

theorem mem_of_removeBuffer {k : ℕ} {q : List (Option H)} (hfound : (removeBuffer b k q).2 = true) :
    some b ∈ q := by
  have hcount := count_removeBuffer b (some b) k q
  simp only [hfound, and_self, if_true] at hcount
  exact count_pos_iff.mp (by omega)

/-- The retain codes and buffers with which no header is lost or made up: the processor leaves the
buffer it got, and a buffer that it wants to accumulate is not refused and finds room. With
`BUFFER_RETAIN_OVERRIDDEN` it may leave another buffer in place of the one it got, and with
`BUFFER_RETAIN_CACHE` anything. -/
def keepsBuffer (refused : Bool) (hdr : Option H) (retain : Retain) (port : Port H) : Bool :=
  match retain with
  | .cache => true
  | .overridden => hdr.isSome == port.popped.isSome
  | .accumulate => hdr == port.popped &&
    (hdr.isNone || (!refused && decide (port.retainedbufferq.length < port.nBufferCountActual)))
  | .getAgain => hdr == port.popped
  | .notRetain => hdr == port.popped

/-- The buffers of a port without the one that was popped. -/
theorem Balanced.finish_none (h : port.Balanced own) (hpopped : port.popped = none) (refused : Bool)
    {retain : Retain} : (port.finish own refused none retain).Balanced own := by
  refine h.of_moved h.noNull rfl (fun b => ?_) fun b => ?_ <;>
    simp [Port.finish, Port.distribute, held, hpopped]

/-- `RetainAndReturnBuffer` for two buffers: the first one goes into the queue, and the second one
leaves it and is returned, if it is there. -/
theorem retainAndReturnBuffer_of_ne {a : H} (hab : a ≠ b)
    (hown : some b ∈ port.bufferq → own b = true) :
    ∃ q returned, port.retainAndReturnBuffer own (some a) b =
        { port with bufferq := q, returned := returned } ∧
      q.count none = port.bufferq.count none ∧
      (∀ c, q.count (some c) ≤ port.bufferq.count (some c) + if a = c then 1 else 0) ∧
      ∀ c, q.count (some c) + returned.count c =
        port.bufferq.count (some c) + (if a = c then 1 else 0) + port.returned.count c := by
  have hnull := count_removeBuffer b none (some a :: port.bufferq).length (some a :: port.bufferq)
  have hcount := fun c =>
    count_removeBuffer b (some c) (some a :: port.bufferq).length (some a :: port.bufferq)
  have hmem := @mem_of_removeBuffer _ _ b (some a :: port.bufferq).length (some a :: port.bufferq)
  have hne : some a ≠ some b := by simpa using hab
  simp only [Port.retainAndReturnBuffer, hne, if_false, Port.retainGetAgain]
  generalize removeBuffer b (some a :: port.bufferq).length (some a :: port.bufferq) = r at *
  obtain ⟨q, found⟩ := r
  cases found with
  | true =>
    simp only [count_cons, beq_iff_eq, reduceCtorEq, and_false, true_and, if_false,
      some.injEq, Nat.add_zero] at hnull hcount
    have hb : some b ∈ port.bufferq := by
      rcases mem_cons.mp (hmem rfl) with heq | hb
      · exact absurd heq.symm hne
      · exact hb
    simp only [returnThisBuffer_eq (hown hb)]
    refine ⟨_, _, rfl, hnull, fun c => ?_, fun c => ?_⟩ <;> have hc := hcount c
    · omega
    · simp only [count_cons, beq_iff_eq, @eq_comm _ b c]
      omega
  | false =>
    simp only [count_cons, beq_iff_eq, reduceCtorEq, and_false, false_and, if_false,
      some.injEq, Nat.add_zero, Bool.false_eq_true] at hnull hcount
    refine ⟨_, _, rfl, hnull, fun c => Nat.le_of_eq (hcount c), fun c => ?_⟩
    rw [hcount c]

theorem Balanced.finish_overridden (h : port.Balanced own) {a : H} (hpopped : port.popped = some a)
    (refused : Bool) (b : H) : (port.finish own refused (some b) .overridden).Balanced own := by
  by_cases hab : a = b
  · -- the buffer that was popped is returned
    subst hab
    have hport : port.distribute own refused (some a) .overridden =
        { port with returned := a :: port.returned } := by
      simp only [Port.distribute, Port.retainAndReturnBuffer, hpopped, if_true]
      rw [returnThisBuffer_eq (h.owned_of_popped hpopped), hpopped]
    refine h.of_moved ?_ ?_ (fun c => ?_) fun c => ?_ <;>
      simp only [Port.finish, hport, held, hpopped, if_false, reduceCtorEq, toList_none,
        toList_some, count_nil, count_cons]
    · exact h.noNull
    · omega
    · omega
  · -- it goes back into the queue, from which the other one is taken
    obtain ⟨q, returned, hport, hnull, hle, hsum⟩ :=
      retainAndReturnBuffer_of_ne hab fun hb => h.owned_of_mem_bufferq hb
    refine h.of_moved ?_ ?_ (fun c => ?_) fun c => ?_ <;>
      simp only [Port.finish, Port.distribute, hpopped, hport, held, if_false, reduceCtorEq,
        toList_none, toList_some, count_nil, count_cons, beq_iff_eq]
    · rw [hnull, h.noNull]
    · have hc := hle c
      omega
    · have hc := hsum c
      omega

theorem Balanced.finish {refused : Bool} {hdr : Option H} {retain : Retain} (h : port.Balanced own)
    (hkeeps : port.keepsBuffer refused hdr retain = true) :
    (port.finish own refused hdr retain).Balanced own := by
  cases retain with
  | cache =>
    have hport : port.distribute own refused hdr .cache = port := by
      cases hdr <;> rfl
    refine h.of_moved ?_ ?_ (fun b => ?_) fun b => ?_ <;>
      simp only [Port.finish, hport, held, if_true, count_append, toList_none,
        count_nil]
    · exact h.noNull
    · omega
    · omega
  | overridden =>
    cases hpopped : port.popped with
    | none =>
      obtain rfl : hdr = none := by simpa [keepsBuffer, hpopped] using hkeeps
      exact h.finish_none hpopped refused
    | some a =>
      obtain ⟨b, rfl⟩ : ∃ b, hdr = some b := by
        simpa [keepsBuffer, hpopped, isSome_iff_exists] using hkeeps
      exact h.finish_overridden hpopped refused b
  | accumulate =>
    simp only [keepsBuffer, Bool.and_eq_true, beq_iff_eq] at hkeeps
    obtain ⟨rfl, hroom⟩ := hkeeps
    cases hpopped : port.popped with
    | none => exact h.finish_none hpopped refused
    | some b =>
      simp [hpopped] at hroom
      refine h.of_moved ?_ ?_ (fun c => ?_) fun c => ?_ <;>
        simp only [Port.finish, Port.distribute, Port.retainAccumulate, hroom, held, hpopped,
          Bool.false_eq_true, if_false, if_true, reduceCtorEq, count_append, count_cons,
          toList_none, toList_some, count_nil]
      · exact h.noNull
      · omega
      · omega
  | getAgain =>
    obtain rfl : hdr = port.popped := by simpa [keepsBuffer] using hkeeps
    cases hpopped : port.popped with
    | none => exact h.finish_none hpopped refused
    | some b =>
      refine h.of_moved ?_ rfl (fun c => ?_) fun c => ?_ <;>
        simp only [Port.finish, Port.distribute, Port.retainGetAgain, held, hpopped, if_false,
          reduceCtorEq, count_cons, beq_iff_eq, some.injEq,
          toList_none, toList_some, count_nil]
      · simpa using h.noNull
      · omega
      · omega
  | notRetain =>
    obtain rfl : hdr = port.popped := by simpa [keepsBuffer] using hkeeps
    cases hpopped : port.popped with
    | none => exact h.finish_none hpopped refused
    | some b =>
      have hport : port.distribute own refused (some b) .notRetain =
          { port with returned := b :: port.returned } :=
        returnThisBuffer_eq (h.owned_of_popped hpopped)
      refine h.of_moved ?_ ?_ (fun c => ?_) fun c => ?_ <;>
        simp only [Port.finish, hport, held, hpopped, if_false, reduceCtorEq, count_cons,
          toList_none, toList_some, count_nil]
      · exact h.noNull
      · omega
      · omega

theorem Balanced.fail {hdr : Option H} (h : port.Balanced own) (hhdr : hdr = port.popped) :
    (port.fail own hdr).Balanced own := by
  subst hhdr
  unfold Port.fail
  cases hpopped : port.popped with
  | none => refine h.of_moved h.noNull rfl (fun b => ?_) fun b => ?_ <;> simp [held, hpopped]
  | some b =>
    dsimp only
    rw [returnThisBuffer_eq (h.owned_of_popped hpopped)]
    apply Balanced.flushPort
    refine h.of_moved h.noNull rfl (fun c => ?_) fun c => ?_ <;>
      simp only [held, hpopped, toList_none, toList_some, count_nil,
        count_cons]
    · omega
    · omega

end Port

/-! ## Conservation in a component -/

/-- The steps that lose no buffer: a buffer is handed in through the call for the direction of its
port, and each port keeps its buffer when the processor is done. -/
def keepsBuffers (setup : Setup n H) (s : Buffers n H) : BufferStep n H → Bool
  | .emptyThisBuffer b _ =>
    decide (∀ h : setup.nInputPortIndex b < n, setup.owns ⟨setup.nInputPortIndex b, h⟩ b = true)
  | .fillThisBuffer b _ =>
    decide (∀ h : setup.nOutputPortIndex b < n, setup.owns ⟨setup.nOutputPortIndex b, h⟩ b = true)
  | .distributeBuffers r =>
    if r.ok then
      (postProcessBuffers setup r).all fun eos => decide (∀ p,
        (s.ports p).keepsBuffer (refused setup eos (r.hdr p)) (r.hdr p) (r.retain p) = true)
    else decide (∀ p, r.hdr p = (s.ports p).popped)
  | _ => true

/-- Every port is balanced, and between two iterations of `Work` no buffer is popped. -/
structure Conserved (setup : Setup n H) (s : Buffers n H) : Prop where
  balanced : ∀ p, (s.ports p).Balanced (setup.owns p)
  popped : s.working = false → ∀ p, (s.ports p).popped = none

variable {setup : Setup n H} {s s' : Buffers n H}

theorem conserved_new (setup : Setup n H) (enabled : Fin n → Bool) (count : Fin n → ℕ)
    (eos : H → Bool) (state : OmxState) : Conserved setup (.new enabled count eos state) :=
  ⟨fun _ => Port.balanced_new _ _ _, fun _ _ => rfl⟩

section

variable (h : Conserved setup s)
include h

/-- A change of one port. -/
theorem Conserved.onPort {p : Fin n} {f : Port H → Port H}
    (hf : (f (s.ports p)).Balanced (setup.owns p))
    (hpopped : (f (s.ports p)).popped = (s.ports p).popped) : Conserved setup (s.onPort p f) where
  balanced i := by
    unfold Buffers.onPort
    by_cases hi : i = p
    · subst hi
      simpa using hf
    · simpa [hi] using h.balanced i
  popped hw i := by
    unfold Buffers.onPort
    by_cases hi : i = p
    · subst hi
      simpa [hpopped] using h.popped hw i
    · simpa [hi] using h.popped hw i

theorem Conserved.handThisBuffer {portIndex : ℕ} {b : H}
    (howns : ∀ hp : portIndex < n, setup.owns ⟨portIndex, hp⟩ b = true) (eos : Bool) :
    Conserved setup (handThisBuffer s portIndex b eos) := by
  unfold Omx.handThisBuffer
  dsimp only
  split
  · rename_i hp
    split
    · exact ⟨h.balanced, h.popped⟩
    · have hpush := (h.balanced ⟨portIndex, hp⟩).pushThisBuffer (howns hp)
      have hport := h.onPort (f := (·.pushThisBuffer b)) hpush rfl
      exact ⟨hport.balanced, hport.popped⟩
  · exact ⟨h.balanced, h.popped⟩

theorem Conserved.distributeBuffers {r : Processed n H}
    (hkeeps : keepsBuffers setup s (.distributeBuffers r) = true)
    (hstep : distributeBuffers setup s r = some s') : Conserved setup s' := by
  unfold Omx.distributeBuffers at hstep
  simp only [keepsBuffers] at hkeeps
  split at hstep
  · rename_i hok
    rw [if_pos hok] at hkeeps
    obtain ⟨eos, heos, rfl⟩ := map_eq_some_iff.mp hstep
    rw [heos, all_some, decide_eq_true_iff] at hkeeps
    exact ⟨fun p => (h.balanced p).finish (hkeeps p), fun _ _ => rfl⟩
  · rename_i hok
    rw [if_neg hok, decide_eq_true_iff] at hkeeps
    obtain rfl := some.inj hstep
    exact ⟨fun p => (h.balanced p).fail (hkeeps p), fun _ p => Port.popped_fail _ _ _⟩

/-- Every step that loses no buffer keeps the balance of the ports. -/
theorem Conserved.bufferStep {x : BufferStep n H} (hkeeps : keepsBuffers setup s x = true)
    (hstep : bufferStep setup s x = some s') :
    Conserved setup s' := by
  cases x with
  | emptyThisBuffer b eos =>
    obtain rfl := some.inj hstep
    exact h.handThisBuffer (of_decide_eq_true hkeeps) eos
  | fillThisBuffer b eos =>
    obtain rfl := some.inj hstep
    exact h.handThisBuffer (of_decide_eq_true hkeeps) eos
  | popBuffers =>
    obtain ⟨hidle, hstep⟩ := ite_none_right_eq_some.mp hstep
    obtain rfl := some.inj hstep
    exact ⟨fun p => (h.balanced p).popBuffer (h.popped hidle.1 p), fun hw => by simp at hw⟩
  | distributeBuffers r =>
    obtain ⟨-, hstep⟩ := ite_none_right_eq_some.mp hstep
    exact h.distributeBuffers hkeeps hstep
  | flushPort p =>
    obtain ⟨-, hstep⟩ := ite_none_left_eq_some.mp hstep
    obtain rfl := some.inj hstep
    exact h.onPort (h.balanced p).flushPort (by simp)
  | flushAllPorts =>
    obtain ⟨-, hstep⟩ := ite_none_left_eq_some.mp hstep
    obtain rfl := some.inj hstep
    exact ⟨fun p => (h.balanced p).flushPort, fun hw p => by simpa using h.popped hw p⟩
  | returnOneRetainedBuffer p =>
    obtain rfl := some.inj hstep
    exact h.onPort (h.balanced p).returnOneRetainedBuffer (by simp)
  | returnAllRetainedBuffers p =>
    obtain rfl := some.inj hstep
    exact h.onPort (h.balanced p).returnAllRetainedBuffers (by simp)
  | returnCached p b =>
    obtain ⟨hb, hstep⟩ := ite_none_right_eq_some.mp hstep
    obtain rfl := some.inj hstep
    exact h.onPort ((h.balanced p).returnCached hb) (by simp)
  | setState state =>
    obtain rfl := some.inj hstep
    exact ⟨h.balanced, h.popped⟩
  | setPort p enabled count =>
    obtain rfl := some.inj hstep
    have hp := h.balanced p
    exact h.onPort { hp with } rfl

end

/-- In every run whose steps lose no buffer, each header was handed to a port as often as it was
returned and is in the queue, the retained queue, the cache of the processor or the running
iteration of `Work`. So a header that the client hands in only when it has it back is in exactly one
of these places until it is returned, and it is returned once. -/
theorem buffers_conserved {enabled : Fin n → Bool} {count : Fin n → ℕ} {eos : H → Bool}
    {state : OmxState} (hrun : Reach (Omx.bufferStep setup) (fun s x => keepsBuffers setup s x = true)
      (.new enabled count eos state) s) (p : Fin n) (b : H) :
    (s.ports p).handed.count b =
      (s.ports p).bufferq.count (some b) + (s.ports p).retainedbufferq.count b +
        (s.ports p).cached.count b + (s.ports p).popped.toList.count b +
        (s.ports p).returned.count b ∧
      (s.working = false → (s.ports p).popped = none) := by
  have hconserved : Conserved setup s :=
    hrun.invariant (conserved_new setup enabled count eos state)
      fun _ _ _ ha hx hb => ha.bufferStep hx hb
  exact ⟨(hconserved.balanced p).balance b, fun hw => hconserved.popped hw p⟩

/-- A decoder: an input port with the header 0, and an output port with the header 1. -/
def decoder : Setup 2 ℕ where
  direction p := if p = 0 then .input else .output
  videoEncoder := false
  nInputPortIndex b := if b = 0 then 0 else 7
  nOutputPortIndex b := if b = 1 then 1 else 7

/-- The decoder in the state Executing, with two buffers for each port. -/
def decoderStart : Buffers 2 ℕ := .new (fun _ => true) (fun _ => 2) (fun _ => false) .executing

/-- The last input buffer and an output buffer come in and are processed, with retain code
`retain` for the output buffer. -/
def lastBuffer (retain : Retain) : List (BufferStep 2 ℕ) :=
  [.emptyThisBuffer 0 true, .fillThisBuffer 1 false, .popBuffers, .distributeBuffers
    { ok := true
      hdr := fun p => some p.val
      retain := fun p => if p = 0 then .accumulate else retain
      eos := fun b => b == 0 }]

/-- The input buffer is retained and the output buffer is returned, with the EOS flag. -/
theorem buffers_conserved_decoder :
    ∃ s, Reach (Omx.bufferStep decoder) (fun s x => keepsBuffers decoder s x = true)
        decoderStart s ∧
      (s.ports 0).retainedbufferq = [0] ∧ (s.ports 1).returned = [1] ∧ (s.ports 1).handed.count 1 =
        (s.ports 1).bufferq.count (some 1) + (s.ports 1).retainedbufferq.count 1 +
        (s.ports 1).cached.count 1 + (s.ports 1).popped.toList.count 1 +
        (s.ports 1).returned.count 1 :=
  Reach.exists_of_decide (fun s hrun (h : (s.ports 0).retainedbufferq = [0] ∧
      (s.ports 1).returned = [1]) => ⟨h.1, h.2, (buffers_conserved hrun 1 1).1⟩)
    (lastBuffer .notRetain) (by decide)

/-- The processor accumulates the output buffer to which the EOS flag was passed: the buffer was
handed in once, and it is nowhere. -/
theorem accumulated_eos_buffer_lost :
    ∃ s, Reach (Omx.bufferStep decoder) (fun _ _ => True) decoderStart s ∧
      (s.ports 1).handed.count 1 = 1 ∧ (s.ports 1).held 1 + (s.ports 1).returned.count 1 = 0 :=
  Reach.exists_of_decide (fun _ _ h => h) (lastBuffer .accumulate) (by decide)

end HardwareIntel.Omx
