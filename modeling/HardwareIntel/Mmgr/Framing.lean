import HardwareIntel.Library.Wire
import HardwareIntel.Mmgr.Types

/-!
# Framing of the messages read by the client library

`libcnx/msg_format.c`, `cnx_read` of `libcnx/client_cnx.c` and the reading half of
`libclients/c/utils.c`: how the reader thread of a client cuts the byte stream of its socket into
messages. The header and the payload of a message are each read with a single `recv`, which may
return fewer bytes than asked for; `Recvs` holds what the two calls of one round return.

A short payload stops the reader, so it does no harm to what was delivered before. A short or
failed header read is not noticed by `read_msg`: the zeroed header is taken for a message without
payload, and the modem is reported down. `framing_kept_iff` says that this is the only way in
which the delivered events leave the sequence that was sent.
-/

namespace HardwareIntel.Mmgr

open List

/-! ## Messages -/

/-- `SIZE_HEADER`. -/
def sizeHeader : ℕ := 12

/-- A message that `msg_prepare` can build: its fields and its whole length fit in 32 bits. -/
structure Msg where
  id : ℕ
  ts : ℕ
  data : Bytes
  id_lt : id < 2 ^ 32
  ts_lt : ts < 2 ^ 32
  size_lt : sizeHeader + data.length < 2 ^ 32

/-- The bytes of a message, as `msg_set_header` and the `set_msg_*` functions lay them out. -/
def Msg.encode (m : Msg) : Bytes :=
  encodeWord m.id ++ encodeWord m.ts ++ encodeWord m.data.length ++ m.data

/-- What `call_cli_callback` is to receive for a message. -/
def Msg.content (m : Msg) : ℕ × Bytes := (m.id, m.data)

/-- The header of a message (`msg_hdr_t`), zeroed by `read_msg` before it is read. -/
structure MsgHdr where
  id : ℕ := 0
  ts : ℕ := 0
  len : ℕ := 0

/-- The header of a message that was sent. -/
def Msg.hdr (m : Msg) : MsgHdr := ⟨m.id, m.ts, m.data.length⟩

/-! ## Reading from the socket -/

/-- What a `recv` does: it fails, or it returns at most `n + 1` of the bytes that were asked for.
It returns no byte only at the end of the stream. -/
inductive Recv
  | error
  | bytes (n : ℕ)

/-- The call returns all of `len` bytes when they are there. -/
def Recv.Gives (r : Recv) (len : ℕ) : Prop :=
  match r with
  | .error => False
  | .bytes n => len ≤ n + 1

/-- What the two calls of one round return; the second is made for a payload only. -/
structure Recvs where
  header : Recv
  payload : Recv

/-- `cnx_read`: the bytes read and the rest of the stream. -/
def cnxRead (r : Recv) (len : ℕ) (stream : Bytes) : Option (Bytes × Bytes) :=
  match r with
  | .error => none
  | .bytes n => some (stream.take (min len (n + 1)), stream.drop (min len (n + 1)))

/-- `deserialize_uint32`. -/
def deserializeUint32 (buffer : Bytes) : ℕ × Bytes := (readWord buffer).getD (0, buffer)

/-- The outcomes of `msg_get_header`. -/
inductive HeaderResult
  | success | disconnected | failed

/-- `msg_get_header`: the outcome, the header and the rest of the stream. -/
def msgGetHeader (r : Recv) (stream : Bytes) : HeaderResult × MsgHdr × Bytes :=
  match cnxRead r sizeHeader stream with
  | none => (.failed, {}, stream)
  | some (buffer, rest) =>
    if buffer.length = 0 then (.disconnected, {}, rest)
    else if buffer.length < sizeHeader then (.failed, {}, rest)
    else
      let (id, p) := deserializeUint32 buffer
      let (ts, p) := deserializeUint32 p
      let (len, _) := deserializeUint32 p
      if len < buffer.length - sizeHeader then (.failed, ⟨id, ts, len⟩, rest)
      else (.success, ⟨id, ts, len⟩, rest)

/-- The outcomes of the functions of the library that matter to the reader thread. -/
inductive CliResult
  | succeed | badCnxState | failed
  deriving DecidableEq

/-- One round of the reader thread: how the header was read, what was handed to
`call_cli_callback`, the outcome of the round and the rest of the stream. -/
structure Round where
  header : HeaderResult
  handed : Option (ℕ × Bytes)
  ret : CliResult
  rest : Bytes

/-- `call_cli_callback` succeeds for an answer, and for an event whose callback is registered. -/
def callCliCallback (registered : Event → Bool) (id : ℕ) : CliResult :=
  match Event.ofId id with
  | none => .failed
  | some ev => if ev = .ack ∨ ev = .nack ∨ registered ev then .succeed else .failed

/-- `read_msg`: the outcome of the header, the message if one was read, the outcome and the rest of
the stream. Only a closed connection is told apart among the outcomes of the header. -/
def readMsg (r : Recvs) (stream : Bytes) :
    HeaderResult × Option (ℕ × Bytes) × CliResult × Bytes :=
  match msgGetHeader r.header stream with
  | (.disconnected, _, rest) => (.disconnected, none, .badCnxState, rest)
  | (result, hdr, rest) =>
    if hdr.len ≠ 0 then
      match cnxRead r.payload hdr.len rest with
      | none => (result, none, .failed, rest)
      | some (data, rest') =>
        if data.length ≠ hdr.len then (result, none, .failed, rest')
        else (result, some (hdr.id, data), .succeed, rest')
    else (result, some (hdr.id, []), .succeed, rest)

/-- `handle_cnx_event`. -/
def handleCnxEvent (registered : Event → Bool) (r : Recvs) (stream : Bytes) : Round :=
  match readMsg r stream with
  | (header, some (id, data), _, rest) =>
    ⟨header, some (id, data), callCliCallback registered id, rest⟩
  | (header, none, ret, rest) => ⟨header, none, ret, rest⟩

/-- `read_events` on one connection: the rounds go on until one does not succeed. -/
def readEvents (registered : Event → Bool) : List Recvs → Bytes → List Round
  | [], _ => []
  | r :: rs, stream =>
    let round := handleCnxEvent registered r stream
    round :: if round.ret = .succeed then readEvents registered rs round.rest else []

/-! ## What is promised, and when -/

/-- What is handed to `call_cli_callback` is a prefix of what was sent, and no header read that
failed yields an event. -/
def FramingKept (registered : Event → Bool) (rs : List Recvs) (msgs : List Msg) : Prop :=
  let rounds := readEvents registered rs (msgs.flatMap Msg.encode)
  rounds.filterMap Round.handed <+: msgs.map Msg.content ∧
    ∀ round ∈ rounds, round.header = .failed → round.handed = none

/-- While the reader is running, no `recv` for a header fails or returns less than the header.
The reader stops at a payload that is cut short, and at a message that has no callback. -/
def HeadersWhole (registered : Event → Bool) : List Recvs → List Msg → Prop
  | [], _ => True
  | r :: _, [] => r.header ≠ .error
  | r :: rs, m :: ms =>
    r.header.Gives sizeHeader ∧
      ((m.data = [] ∨ r.payload.Gives m.data.length) →
        callCliCallback registered m.id = .succeed → HeadersWhole registered rs ms)

/-! ## One read -/

section Reading

variable {r : Recv}

theorem Msg.len_lt (m : Msg) : m.data.length < 2 ^ 32 := by
  have h := m.size_lt
  omega

@[simp] theorem Msg.length_encode (m : Msg) : m.encode.length = sizeHeader + m.data.length := by
  simp [Msg.encode, sizeHeader]
  omega

/-- A call that gives what is asked for splits the stream after it. -/
theorem cnxRead_of_gives {b : Bytes} (h : r.Gives b.length) (rest : Bytes) :
    cnxRead r b.length (b ++ rest) = some (b, rest) := by
  cases r with
  | error => exact h.elim
  | bytes n =>
    have hmin : min b.length (n + 1) = b.length := Nat.min_eq_left h
    simp [cnxRead, hmin]

/-- A call that does not give what is asked for fails, or returns fewer bytes. -/
theorem cnxRead_of_not_gives {len : ℕ} (h : ¬ r.Gives len) (stream : Bytes) :
    cnxRead r len stream = none ∨
      ∃ buffer rest, cnxRead r len stream = some (buffer, rest) ∧ buffer.length < len ∧
        (stream ≠ [] → buffer ≠ []) := by
  cases r with
  | error => exact .inl rfl
  | bytes n =>
    have hlt : n + 1 < len := by simpa [Recv.Gives] using h
    refine .inr ⟨_, _, rfl, ?_, ?_⟩
    · rw [length_take]
      omega
    · intro hne
      have hmin : min len (n + 1) ≠ 0 := by omega
      simp [take_eq_nil_iff, hmin, hne]

theorem deserializeUint32_append {n : ℕ} (hn : n < 2 ^ 32) (rest : Bytes) :
    deserializeUint32 (encodeWord n ++ rest) = (n, rest) := by
  simp [deserializeUint32, readWord_encodeWord_append hn]

/-- A whole header is read back. -/
theorem msgGetHeader_of_gives (h : r.Gives sizeHeader) (m : Msg) (rest : Bytes) :
    msgGetHeader r (m.encode ++ rest) = (.success, m.hdr, m.data ++ rest) := by
  let buffer := encodeWord m.id ++ (encodeWord m.ts ++ encodeWord m.data.length)
  have hlen : buffer.length = sizeHeader := by simp [buffer, sizeHeader]
  have hstream : m.encode ++ rest = buffer ++ (m.data ++ rest) := by
    simp [Msg.encode, buffer, append_assoc]
  have hread : cnxRead r sizeHeader (m.encode ++ rest) = some (buffer, m.data ++ rest) := by
    exact cnxRead_of_gives (hlen ▸ h) _
  have hid : deserializeUint32 buffer = (m.id, encodeWord m.ts ++ encodeWord m.data.length) :=
    deserializeUint32_append m.id_lt _
  have hts : deserializeUint32 (encodeWord m.ts ++ encodeWord m.data.length) =
      (m.ts, encodeWord m.data.length) := deserializeUint32_append m.ts_lt _
  have hdata : deserializeUint32 (encodeWord m.data.length) = (m.data.length, []) := by
    simpa using deserializeUint32_append m.len_lt []
  simp only [msgGetHeader, hread, hid, hts, hdata, hlen, Nat.lt_irrefl, Nat.sub_self,
    Nat.not_lt_zero, if_false]
  rfl

/-- A header read that is cut short before the end of the stream fails, with the header zeroed. -/
theorem msgGetHeader_of_not_gives (h : ¬ r.Gives sizeHeader) {stream : Bytes}
    (hne : stream ≠ []) : ∃ rest, msgGetHeader r stream = (.failed, {}, rest) := by
  rcases cnxRead_of_not_gives h stream with hread | ⟨buffer, rest, hread, hlt, hbuffer⟩
  · exact ⟨stream, by simp [msgGetHeader, hread]⟩
  · have hpos : buffer ≠ [] := hbuffer hne
    exact ⟨rest, by simp [msgGetHeader, hread, hpos, hlt]⟩

/-- A failed header read is taken for a message: the modem is reported down. -/
theorem handleCnxEvent_of_header_failed (registered : Event → Bool) {rs : Recvs} {stream rest : Bytes}
    (h : msgGetHeader rs.header stream = (.failed, {}, rest)) :
    handleCnxEvent registered rs stream =
      ⟨.failed, some (0, []), callCliCallback registered 0, rest⟩ := by
  simp [handleCnxEvent, readMsg, h]

/-- At the end of the stream a read that does not fail finds the connection closed. -/
theorem handleCnxEvent_nil (registered : Event → Bool) (rs : Recvs) (h : rs.header ≠ .error) :
    handleCnxEvent registered rs [] = ⟨.disconnected, none, .badCnxState, []⟩ := by
  rcases rs with ⟨_ | n, payload⟩
  · exact absurd rfl h
  · simp [handleCnxEvent, readMsg, msgGetHeader, cnxRead]

end Reading

/-! ## One round -/

section Rounds

variable (registered : Event → Bool) {r : Recvs} {m : Msg}

/-- A message of which both parts are read whole is handed over. -/
theorem handleCnxEvent_of_whole (h : r.header.Gives sizeHeader)
    (hp : m.data = [] ∨ r.payload.Gives m.data.length) (rest : Bytes) :
    handleCnxEvent registered r (m.encode ++ rest) =
      ⟨.success, some m.content, callCliCallback registered m.id, rest⟩ := by
  have hhdr := msgGetHeader_of_gives h m rest
  by_cases hnil : m.data = []
  · simp [handleCnxEvent, readMsg, hhdr, hnil, Msg.content, Msg.hdr]
  · have hgives : r.payload.Gives m.data.length := hp.resolve_left hnil
    have hread : cnxRead r.payload m.hdr.len (m.data ++ rest) = some (m.data, rest) :=
      cnxRead_of_gives hgives rest
    have hlen : m.hdr.len ≠ 0 := by simpa [Msg.hdr] using hnil
    have heq : ¬ m.data.length ≠ m.hdr.len := fun hne => hne rfl
    simp only [handleCnxEvent, readMsg, hhdr, hread, if_pos hlen, if_neg heq]
    rfl

/-- A payload that is cut short stops the reader, and nothing is handed over. -/
theorem handleCnxEvent_of_payload_cut (h : r.header.Gives sizeHeader)
    (hp : ¬ (m.data = [] ∨ r.payload.Gives m.data.length)) (rest : Bytes) :
    ∃ rest', handleCnxEvent registered r (m.encode ++ rest) =
      ⟨.success, none, .failed, rest'⟩ := by
  push Not at hp
  obtain ⟨hnil, hgives⟩ := hp
  have hhdr := msgGetHeader_of_gives h m rest
  have hlen : m.hdr.len ≠ 0 := by simpa [Msg.hdr] using hnil
  rcases cnxRead_of_not_gives hgives (m.data ++ rest) with hread | ⟨buffer, rest', hread, hlt, -⟩
  · have hread' : cnxRead r.payload m.hdr.len (m.data ++ rest) = none := hread
    exact ⟨m.data ++ rest, by simp [handleCnxEvent, readMsg, hhdr, hlen, hread']⟩
  · have hread' : cnxRead r.payload m.hdr.len (m.data ++ rest) = some (buffer, rest') := hread
    have hshort : buffer.length ≠ m.hdr.len := Nat.ne_of_lt hlt
    exact ⟨rest', by simp [handleCnxEvent, readMsg, hhdr, hlen, hread', hshort]⟩

end Rounds

/-! ## A whole connection -/

section Connection

variable {registered : Event → Bool}

variable {rs : List Recvs} {r : Recvs}

theorem readEvents_cons_of_succeed {stream : Bytes}
    (h : (handleCnxEvent registered r stream).ret = .succeed) :
    readEvents registered (r :: rs) stream =
      handleCnxEvent registered r stream ::
        readEvents registered rs (handleCnxEvent registered r stream).rest := by
  simp [readEvents, h]

theorem readEvents_cons_of_not_succeed {stream : Bytes}
    (h : (handleCnxEvent registered r stream).ret ≠ .succeed) :
    readEvents registered (r :: rs) stream = [handleCnxEvent registered r stream] := by
  simp [readEvents, h]

/-- A round with a failed header is among the rounds of a connection that begins with it. -/
theorem not_framingKept_of_header_failed {msgs : List Msg} {rest : Bytes}
    (h : msgGetHeader r.header (msgs.flatMap Msg.encode) = (.failed, {}, rest)) :
    ¬ FramingKept registered (r :: rs) msgs := by
  intro hkept
  have hround := handleCnxEvent_of_header_failed registered h
  have hnone := hkept.2 (handleCnxEvent registered r (msgs.flatMap Msg.encode))
    (by simp [readEvents]) (by rw [hround])
  rw [hround] at hnone
  simp at hnone

/-- After a message that is handed over with success, the promise is the one for the rest. -/
theorem framingKept_cons_iff {m : Msg} {ms : List Msg} (h : r.header.Gives sizeHeader)
    (hp : m.data = [] ∨ r.payload.Gives m.data.length)
    (hcall : callCliCallback registered m.id = .succeed) :
    FramingKept registered (r :: rs) (m :: ms) ↔ FramingKept registered rs ms := by
  have hround := handleCnxEvent_of_whole registered h hp (ms.flatMap Msg.encode)
  have hrounds : readEvents registered (r :: rs) ((m :: ms).flatMap Msg.encode) =
      ⟨.success, some m.content, .succeed, ms.flatMap Msg.encode⟩ ::
        readEvents registered rs (ms.flatMap Msg.encode) := by
    rw [flatMap_cons, readEvents_cons_of_succeed (by rw [hround]; exact hcall), hround, hcall]
  rw [FramingKept, FramingKept, hrounds]
  simp

/-- A round that stops the reader and keeps to the sequence keeps the promise. -/
theorem framingKept_of_last {msgs : List Msg}
    (hret : (handleCnxEvent registered r (msgs.flatMap Msg.encode)).ret ≠ .succeed)
    (hhdr : (handleCnxEvent registered r (msgs.flatMap Msg.encode)).header ≠ .failed)
    (hhanded : (handleCnxEvent registered r (msgs.flatMap Msg.encode)).handed = none ∨
      ∃ m ms, msgs = m :: ms ∧ (handleCnxEvent registered r (msgs.flatMap Msg.encode)).handed =
      some m.content)
    : FramingKept registered (r :: rs) msgs := by
  rw [FramingKept, readEvents_cons_of_not_succeed hret]
  refine ⟨?_, ?_⟩
  · rcases hhanded with hnone | ⟨m, ms, rfl, hsome⟩
    · simp [hnone]
    · rw [filterMap_cons, hsome]
      simp
  · intro round hmem hfailed
    rw [mem_singleton] at hmem
    exact absurd (hmem ▸ hfailed) hhdr

/-- The delivered events are a prefix of what was sent, and no failed header read yields an event,
exactly when every header is read whole while the reader runs. -/
theorem framing_kept_iff (registered : Event → Bool) (rs : List Recvs) (msgs : List Msg) :
    FramingKept registered rs msgs ↔ HeadersWhole registered rs msgs := by
  induction rs generalizing msgs with
  | nil => simp [FramingKept, readEvents, HeadersWhole]
  | cons r rs ih =>
    match msgs with
    | [] =>
      refine ⟨?_, ?_⟩
      · -- a `recv` that fails at the end of the stream is a failed header read as well
        intro hkept herror
        have hheader : msgGetHeader r.header [] = (.failed, {}, []) := by
          simp [msgGetHeader, cnxRead, herror]
        exact not_framingKept_of_header_failed hheader hkept
      · intro hne
        have hround := handleCnxEvent_nil registered r hne
        refine framingKept_of_last ?_ ?_ (.inl ?_)
        all_goals simp [hround]
    | m :: ms =>
      have hne : (m :: ms).flatMap Msg.encode ≠ [] := by
        intro hnil
        have hlen := congrArg List.length hnil
        simp [sizeHeader] at hlen
      by_cases hgives : r.header.Gives sizeHeader
      · by_cases hp : m.data = [] ∨ r.payload.Gives m.data.length
        · have hround :=
            handleCnxEvent_of_whole registered hgives hp (ms.flatMap Msg.encode)
          by_cases hcall : callCliCallback registered m.id = .succeed
          · rw [framingKept_cons_iff hgives hp hcall, ih]
            simp [HeadersWhole, hgives, hp, hcall]
          · -- the callback is missing: the message is the last one handed over
            have hkept : FramingKept registered (r :: rs) (m :: ms) := by
              refine framingKept_of_last ?_ ?_ (.inr ⟨m, ms, rfl, ?_⟩)
              all_goals simp [hround, hcall]
            simp [HeadersWhole, hgives, hcall, hkept]
        · obtain ⟨rest, hround⟩ := handleCnxEvent_of_payload_cut registered
            hgives hp (ms.flatMap Msg.encode)
          have hkept : FramingKept registered (r :: rs) (m :: ms) := by
            refine framingKept_of_last ?_ ?_ (.inl ?_)
            all_goals simp [hround]
          simp [HeadersWhole, hgives, hp, hkept]
      · obtain ⟨rest, hheader⟩ := msgGetHeader_of_not_gives hgives hne
        have hkept : ¬ FramingKept registered (r :: rs) (m :: ms) :=
          not_framingKept_of_header_failed hheader
        simp [HeadersWhole, hgives, hkept]

end Connection

/-- The message that reports the modem up. -/
def modemUpMsg : Msg :=
  ⟨Event.toId .eventModemUp, 0, [], by decide, by decide, by decide⟩

/-- The header of a single modem up message arrives in two pieces: the modem is reported down. -/
theorem modem_up_read_as_down :
    (readEvents (fun _ => true) [⟨.bytes 3, .bytes 0⟩] modemUpMsg.encode).filterMap Round.handed =
        [(Event.toId .eventModemDown, [])] ∧
      ¬ FramingKept (fun _ => true) [⟨.bytes 3, .bytes 0⟩] [modemUpMsg] := by
  refine ⟨by decide, ?_⟩
  intro hkept
  have hprefix := hkept.1
  revert hprefix
  decide

end HardwareIntel.Mmgr
