import HardwareIntel.Library.Runs
import HardwareIntel.Library.Wire

/-!
# Media objects from the payloads of data packets

`AsfExtractor::readPacket` copies the payloads of a data packet to the buffers of their tracks, and
`read_l` reads packets until a track has a buffer. Memory suffices for all buffers. A step is `none` if
a copy leaves its buffer, if a range does, or if an `int` overflows.
-/

namespace HardwareIntel.Asf

/-- A payload as the parser returns it; its data are the `payloadSize` bytes that are valid. -/
structure Payload where
  streamNumber : ℕ
  keyframe : Bool
  mediaObjectLength : ℕ
  offsetIntoMediaObject : ℕ
  presentationTime : ℕ
  payloadData : List UInt8
  sampleID : Option (List UInt8)

def Payload.payloadSize (payload : Payload) : ℕ := payload.payloadData.length

/-! ## Buffers -/

/-- A buffer with its meta data; bytes that were never written are `none`. -/
structure MediaBuffer where
  size : ℕ
  data : ℕ → Option UInt8
  rangeOffset : ℕ
  rangeLength : ℕ
  keyTime : Option ℕ
  keyIsSyncFrame : Bool
  keyCryptoIV : Option (List UInt8)
  keyEncryptedSizes : Option ℕ
  hasObserver : Bool

namespace MediaBuffer

/-- A new buffer: its range is all of it, and it has no observer. -/
def new (size : ℕ) : MediaBuffer := ⟨size, fun _ => none, 0, size, none, false, none, none, false⟩

/-- Clears the meta data and resets the range. -/
def reset (b : MediaBuffer) : MediaBuffer :=
  ⟨b.size, b.data, 0, b.size, none, false, none, none, b.hasObserver⟩

/-- The call of `memcpy` that writes to the data of the buffer from an offset on. -/
def memcpy (b : MediaBuffer) (offset : ℕ) (payloadData : List UInt8) : Option MediaBuffer :=
  if offset + payloadData.length ≤ b.size then
    some { b with data := fun i =>
      if offset ≤ i ∧ i < offset + payloadData.length then payloadData[i - offset]? else b.data i }
  else none

def setRange (b : MediaBuffer) (offset length : ℕ) : Option MediaBuffer :=
  if offset + length ≤ b.size then some { b with rangeOffset := offset, rangeLength := length }
  else none

/-- The bytes that a client reads. -/
def range (b : MediaBuffer) : List (Option UInt8) :=
  (List.range b.rangeLength).map fun i => b.data (b.rangeOffset + i)

end MediaBuffer

structure MediaBufferPool where
  mMaxBufferSize : ℤ
  /-- The list from `mFirstBuffer` to `mLastBuffer`. -/
  buffers : List MediaBuffer

/-- A `uint32_t` as an `int`. -/
def toInt (n : ℕ) : ℤ := if n < 2 ^ 31 then n else n - 2 ^ 32

namespace MediaBufferPool

/-- `acquire_buffer`. Buffers at the head of the list that are too small are deleted. -/
def acquireBuffer (pool : MediaBufferPool) (size : ℤ) : Option (MediaBuffer × MediaBufferPool) :=
  match pool.buffers.dropWhile fun b => (b.size : ℤ) < size with
  | first :: next => some (first.reset, { pool with buffers := next })
  | [] =>
    if size + 4096 - 1 < 2 ^ 31 then
      let size := Int.tdiv (size + 4096 - 1) 4096 * 4096
      if size < pool.mMaxBufferSize then some (.new pool.mMaxBufferSize.toNat, ⟨pool.mMaxBufferSize, []⟩)
      else some (.new size.toNat, ⟨size, []⟩)
    else none

/-- `signalBufferReturned` -/
def signalBufferReturned (pool : MediaBufferPool) (buffer : MediaBuffer) : MediaBufferPool :=
  { pool with buffers := pool.buffers ++ [{ buffer with hasObserver := true }] }

/-- A client releases a buffer: it goes to its observer, and is deleted if it has none. -/
def release (pool : MediaBufferPool) (buffer : MediaBuffer) : MediaBufferPool :=
  if buffer.hasObserver then pool.signalBufferReturned buffer else pool

end MediaBufferPool

/-! ## Tracks -/

structure Track where
  streamNumber : ℕ
  skipTrack : Bool
  encrypted : Bool
  /-- The MIME type starts with `video/`. -/
  video : Bool
  bufferQueue : List MediaBuffer
  bufferActive : Option MediaBuffer
  bufferPool : MediaBufferPool

namespace Track

/-- The copy of a payload of an encrypted track that is queued in place of the object. -/
def pushCopy (t : Track) (keyTime : Option ℕ) (payload : Payload) : Option Track :=
  (t.bufferPool.acquireBuffer (toInt payload.payloadSize)).bind fun (copy, pool) =>
    ({ copy with keyTime }.memcpy 0 payload.payloadData).bind fun copy =>
      (copy.setRange 0 payload.payloadSize).map fun copy =>
        { t with bufferPool := pool, bufferQueue := t.bufferQueue ++ [copy] }

/-- The meta data of a buffer, from the first payload of its object. -/
def describe (mProtected : Bool) (payload : Payload) (buffer : MediaBuffer) : MediaBuffer :=
  let iv := payload.sampleID.map fun sampleID =>
    sampleID ++ littleEndian 4 0 ++ littleEndian 4 payload.offsetIntoMediaObject
  { buffer with
    keyTime := some (payload.presentationTime * 1000)
    keyCryptoIV := if mProtected then iv else none
    keyEncryptedSizes := if mProtected then iv.map fun _ => payload.mediaObjectLength else none
    keyIsSyncFrame := payload.keyframe }

/-- A complete object, or the first payload of a fragmented object. -/
def firstPayload (mProtected : Bool) (payload : Payload) (t : Track) : Option Track :=
  (t.bufferPool.acquireBuffer (toInt payload.mediaObjectLength)).bind fun (buffer, pool) =>
    (buffer.memcpy 0 payload.payloadData).bind fun buffer =>
      (buffer.setRange 0 payload.mediaObjectLength).bind fun buffer =>
        let buffer := describe mProtected payload buffer
        if payload.mediaObjectLength = payload.payloadSize then
          some { t with bufferPool := pool, bufferQueue := t.bufferQueue ++ [buffer] }
        else
          let t := { t with bufferPool := pool, bufferActive := some buffer }
          if t.encrypted then t.pushCopy (some (payload.presentationTime * 1000)) payload else some t

/-- The last payload, or a middle payload of a fragmented object. -/
def laterPayload (payload : Payload) (t : Track) : Option Track :=
  match t.bufferActive with
  | none => some t
  | some active =>
    (active.memcpy payload.offsetIntoMediaObject payload.payloadData).bind fun active =>
      if (payload.offsetIntoMediaObject + payload.payloadSize) % 2 ^ 32 =
          payload.mediaObjectLength then
        if t.encrypted then
          (active.setRange payload.offsetIntoMediaObject payload.payloadSize).map fun active =>
            { t with bufferQueue := t.bufferQueue ++ [active], bufferActive := none }
        else some { t with bufferQueue := t.bufferQueue ++ [active], bufferActive := none }
      else
        let t := { t with bufferActive := some active }
        if t.encrypted then t.pushCopy active.keyTime payload else some t

end Track

/-- The payload is taken for a complete object or the first payload of one. -/
def Payload.IsFirst (payload : Payload) : Prop :=
  payload.mediaObjectLength = payload.payloadSize ∨ payload.offsetIntoMediaObject = 0

instance (payload : Payload) : Decidable payload.IsFirst := inferInstanceAs (Decidable (_ ∨ _))

/-! ## The extractor -/

structure AsfExtractor where
  tracks : List Track
  mProtected : Bool
  mNeedKeyFrame : Bool

namespace AsfExtractor

/-- `getTrackByStreamNumber`, as an index. -/
def trackOf (s : AsfExtractor) (streamNumber : ℕ) : Option ℕ :=
  s.tracks.findIdx? fun t => t.streamNumber = streamNumber

/-- One round of the loop of `readPacket`. -/
def readPayload (s : AsfExtractor) (payload : Payload) : Option AsfExtractor :=
  match s.trackOf payload.streamNumber with
  | none => some s
  | some i =>
    match s.tracks[i]? with
    | none => some s
    | some t =>
      if t.skipTrack then some s
      else if payload.IsFirst then
        if s.mNeedKeyFrame ∧ t.video ∧ ¬ payload.keyframe then some s
        else (t.firstPayload s.mProtected payload).map fun t' =>
          { s with tracks := s.tracks.set i t', mNeedKeyFrame := s.mNeedKeyFrame && !t.video }
      else (t.laterPayload payload).map fun t' => { s with tracks := s.tracks.set i t' }

/-- The payloads of a packet. -/
def readPayloads (s : AsfExtractor) (payloads : List Payload) : Option AsfExtractor :=
  payloads.foldlM readPayload s

/-- `read_l` for a track, over what the parser makes of the data packets that are left, all of which can
be read from the file: no payloads stand also for one that cannot be parsed, which is passed over. The
result is the buffer, or `none` for the end of the stream, and what is left. -/
def read (i : ℕ) : List (List Payload) → AsfExtractor →
    Option (Option MediaBuffer × List (List Payload) × AsfExtractor)
  | packets, s =>
    match s.tracks[i]? with
    | none => some (none, packets, s)
    | some t =>
      match t.bufferQueue with
      | buffer :: rest =>
        some (some buffer, packets, { s with tracks := s.tracks.set i { t with bufferQueue := rest } })
      | [] =>
        match packets with
        | [] => some (none, [], s)
        | [] :: rest => some (none, rest, s)
        | (payload :: payloads) :: rest => (s.readPayloads (payload :: payloads)).bind (read i rest)

/-- A client releases a buffer of a track. -/
def release (s : AsfExtractor) (i : ℕ) (buffer : MediaBuffer) : AsfExtractor :=
  match s.tracks[i]? with
  | none => s
  | some t =>
    { s with tracks := s.tracks.set i { t with bufferPool := t.bufferPool.release buffer } }

end AsfExtractor

/-! ## Clients -/

/-- The extractor, the data packets from `mDataPacketCurrentOffset` on, and what the clients have read:
the track, and the buffer or the end of the stream. -/
structure Session where
  extractor : AsfExtractor
  packets : List (List Payload)
  results : List (ℕ × Option MediaBuffer)

inductive Call
  | read (i : ℕ)
  /-- The buffer that a call has returned is released. -/
  | release (k : ℕ)

namespace Session

def step (c : Session) : Call → Option Session
  | .read i => (AsfExtractor.read i c.packets c.extractor).map fun r =>
    ⟨r.2.2, r.2.1, c.results ++ [(i, r.1)]⟩
  | .release k =>
    match c.results[k]? with
    | some (i, some buffer) => some { c with extractor := c.extractor.release i buffer }
    | _ => some c

def run (c : Session) (calls : List Call) : Option Session := calls.foldlM step c

/-- What the calls for a track have returned. -/
def resultsOf (c : Session) (i : ℕ) : List (Option MediaBuffer) :=
  (c.results.filter fun r => r.1 = i).map Prod.snd

end Session

end HardwareIntel.Asf
