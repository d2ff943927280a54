import HardwareIntel.Library.Wire

/-!
# Remote parameters

A `RemoteParameterProxy` sets or gets a parameter of another process over a stream socket; every
exchange has a connection of its own, which the server handles in `handleNewConnection`. The first
word is the size of the value to set, or zero for a get.

The proxy sends and receives its sizes as `size_t`, the server as `uint32_t`. `exchanges_agree` says
what follows: with 32 bits the two ends agree on every exchange, however the stream is cut. With 64
bits the high half of the size is taken for the first bytes of the value, and an exchange only agrees
when this does no harm.

The words are little-endian. A call of the socket returns when it can, and no timeout expires.
-/

namespace HardwareIntel.RemoteParameter

open List

universe u

/-- The width of `size_t` in the process of the proxy. -/
inductive SizeWidth
  | bits32
  | bits64

def SizeWidth.bytes : SizeWidth → ℕ
  | .bits32 => 4
  | .bits64 => 8

def transactionSuccessful : ℕ := 0

def transactionFailed : ℕ := 2 ^ 32 - 1

/-- A `RemoteParameterBase`: `set` answers `none` when an assertion stops the server, and `get`
likewise; otherwise `get` gives the bytes that it writes, as many as it says. -/
structure Parameter (σ : Type u) where
  size : ℕ
  set : σ → List UInt8 → Option (Bool × σ)
  get : σ → Option (List UInt8)
  size_lt : size < 2 ^ 32
  length_get : ∀ {value data}, get value = some data → data.length ≤ size

/-- How the socket cuts an exchange. -/
structure Cuts where
  /-- the pieces of every buffer that is sent or received -/
  piece : ℕ → ℕ → ℕ
  /-- how much the proxy has sent when the server comes to the end, if it does before the rest -/
  sent : ℕ

/-- `RemoteParameterConnector::send`, as what it adds to the stream. -/
def send (cuts : ℕ → ℕ) (data : List UInt8) : List UInt8 :=
  (sendPieces cuts data.length data).flatten

/-- `RemoteParameterConnector::receive`, with what is left of the stream. -/
def receive (cuts : ℕ → ℕ) (size : ℕ) (stream : List UInt8) : Option (List UInt8 × List UInt8) :=
  receivePieces cuts size size stream

/-! ### The server -/

/-- The server after a connection: the value, the call of `set` that returned, with its answer, what
was sent, and whether the server came to the end or was left waiting for more. -/
structure Served (σ : Type u) where
  value : σ
  setCall : Option (List UInt8 × Bool)
  sent : List UInt8
  finished : Bool

variable {σ : Type u}

/-- `handleNewConnection`, with the outcome of `checkCredential` and what the proxy has sent. -/
def handleNewConnection (p : Parameter σ) (trusted : Bool) (c : Cuts) (value : σ)
    (stream : List UInt8) : Served σ :=
  if !trusted then ⟨value, none, [], true⟩
  else
    match receive (c.piece 0) 4 stream with
    | none => ⟨value, none, [], false⟩
    | some (word, rest) =>
      let size := ofLittleEndian word
      if size = 0 then
        match p.get value with
        | none => ⟨value, none, [], true⟩
        | some data =>
          ⟨value, none, send (c.piece 1) (littleEndian 4 data.length) ++ send (c.piece 2) data, true⟩
      else
        match receive (c.piece 3) size rest with
        | none => ⟨value, none, [], false⟩
        | some (data, _) =>
          match p.set value data with
          | none => ⟨value, none, [], true⟩
          | some (ok, value) =>
            let status := if ok then transactionSuccessful else transactionFailed
            ⟨value, some (data, ok), send (c.piece 4) (littleEndian 4 status), true⟩

/-! ### The proxy -/

/-- What the server gets of a stream, and whether all of it could be sent: the server closes the
connection when it comes to the end, and to send on a closed connection fails. -/
def serve (p : Parameter σ) (trusted : Bool) (c : Cuts) (value : σ) (stream : List UInt8) :
    Bool × Served σ :=
  let early := handleNewConnection p trusted c value (stream.take c.sent)
  if c.sent < stream.length ∧ early.finished then (false, early)
  else (true, handleNewConnection p trusted c value stream)

/-- `RemoteParameterProxyImpl::write`. The size is a `size_t` in the first buffer and a `uint32_t`
argument in the second. -/
def write (w : SizeWidth) (p : Parameter σ) (trusted : Bool) (c : Cuts) (value : σ)
    (data : List UInt8) : Bool × Served σ :=
  let stream := send (c.piece 5) (littleEndian w.bytes data.length) ++
    send (c.piece 6) (data.take (data.length % 2 ^ 32))
  let (sent, served) := serve p trusted c value stream
  if !sent then (false, served)
  else
    match receive (c.piece 7) 4 served.sent with
    | none => (false, served)
    | some (status, _) => (ofLittleEndian status = transactionSuccessful, served)

/-- `RemoteParameterProxyImpl::read` with the size of the buffer: the bytes and their number. -/
def read (w : SizeWidth) (p : Parameter σ) (trusted : Bool) (c : Cuts) (value : σ) (size : ℕ) :
    Option (List UInt8 × ℕ) :=
  let (sent, served) := serve p trusted c value (send (c.piece 5) (littleEndian 4 0))
  if !sent then none
  else
    match receive (c.piece 6) w.bytes served.sent with
    | none => none
    | some (word, rest) =>
      let answerSize := ofLittleEndian word
      if size < answerSize then none
      else
        match receive (c.piece 7) (answerSize % 2 ^ 32) rest with
        | none => none
        | some (data, _) => some (data, answerSize)

/-! ### Strings -/

/-- `MAX_LENGTH` and `MAX_SIZE` -/
def maxLength : ℕ := 256

def maxSize : ℕ := maxLength + 1

/-- What a null-terminated buffer holds. -/
def cString (data : List UInt8) : List UInt8 := data.takeWhile fun b => b != 0

/-- A `RemoteParameter<std::string>`: a successful set stores the string. -/
structure StringParameter (σ : Type u) where
  set : σ → List UInt8 → Bool × σ
  get : σ → List UInt8
  get_of_set : ∀ {value s value'}, set value s = (true, value') → get value' = s

/-- The buffers of a string parameter; both sizes are asserted. -/
def StringParameter.toParameter (q : StringParameter σ) : Parameter σ where
  size := maxSize
  set value data := if maxSize < data.length then none else some (q.set value (cString data))
  get value := if maxSize < (q.get value).length + 1 then none else some (q.get value ++ [0])
  size_lt := by decide
  length_get := by
    intro value data h
    split at h
    · cases h
    · cases h
      rw [List.length_append, List.length_singleton]
      omega

/-- `RemoteParameterProxy<std::string>::set` -/
def setString (w : SizeWidth) (q : StringParameter σ) (trusted : Bool) (c : Cuts) (value : σ)
    (s : List UInt8) : Bool × σ :=
  if maxLength < s.length then (false, value)
  else
    let (ok, served) := write w q.toParameter trusted c value (s ++ [0])
    (ok, served.value)

/-- `RemoteParameterProxy<std::string>::get` -/
def getString (w : SizeWidth) (q : StringParameter σ) (trusted : Bool) (c : Cuts) (value : σ) :
    Option (List UInt8) :=
  (read w q.toParameter trusted c value maxSize).map fun (data, _) => cString data

/-! ### Agreement -/

/-- A write returns true if and only if `set` was called with these bytes and returned true. -/
def WriteAgrees (w : SizeWidth) (p : Parameter σ) (trusted : Bool) (value : σ)
    (data : List UInt8) : Prop :=
  ∀ c, (write w p trusted c value data).1 = true ↔
    (write w p trusted c value data).2.setCall = some (data, true)

/-- A read returns true only with the bytes of `get` and their number. -/
def ReadAgrees (w : SizeWidth) (p : Parameter σ) (trusted : Bool) (value : σ) (size : ℕ) : Prop :=
  ∀ c data n, read w p trusted c value size = some (data, n) →
    p.get value = some data ∧ n = data.length

/-- After a successful set a get gives the string. -/
def StringAgrees (w : SizeWidth) (q : StringParameter σ) (trusted : Bool) (value : σ)
    (s : List UInt8) : Prop :=
  ∀ c c', (setString w q trusted c value s).1 = true →
    getString w q trusted c' (setString w q trusted c value s).2 = some s

/-- The bytes that the server takes for the value when the size has 64 bits: those of the high half
of the size come first. -/
def shifted (data : List UInt8) : List UInt8 :=
  (littleEndian 4 (data.length / 2 ^ 32) ++ data).take (data.length % 2 ^ 32)

/-- With 64 bits: the server refuses the peer or the bytes that it takes for the value; or it takes
the write for a get, and the size that it answers is not zero. -/
def WriteFits (w : SizeWidth) (p : Parameter σ) (trusted : Bool) (value : σ)
    (data : List UInt8) : Prop :=
  w = .bits32 ∨ trusted = false ∨
    if data.length % 2 ^ 32 = 0 then p.get value ≠ some []
    else ∀ value', p.set value (shifted data) ≠ some (true, value')

/-- With 64 bits every string is taken for the empty one, which must be refused. -/
def StringFits (w : SizeWidth) (q : StringParameter σ) (trusted : Bool) (value : σ) : Prop :=
  w = .bits32 ∨ trusted = false ∨ (q.set value []).1 = false

/-! ### What the server answers -/

/-- All bytes are sent. -/
@[simp] theorem send_eq (cuts : ℕ → ℕ) (data : List UInt8) : send cuts data = data :=
  flatten_sendPieces cuts (Nat.le_refl _)

/-- All bytes are received. -/
@[simp] theorem receive_eq (cuts : ℕ → ℕ) (size : ℕ) (stream : List UInt8) :
    receive cuts size stream = readBytes size stream :=
  receivePieces_eq cuts (Nat.le_refl _) stream

/-- A number is read back. -/
theorem readBytes_littleEndian (w n : ℕ) (rest : List UInt8) :
    readBytes w (littleEndian w n ++ rest) = some (littleEndian w n, rest) := by
  have h := readBytes_append (littleEndian w n) rest
  rwa [length_littleEndian] at h

/-- Too few bytes are not read. -/
theorem readBytes_eq_none {n : ℕ} {l : List UInt8} (h : l.length < n) : readBytes n l = none :=
  if_neg (Nat.not_le.mpr h)

variable {p : Parameter σ} {trusted : Bool} {c : Cuts} {value : σ} {n : ℕ} {rest : List UInt8}

/-- A request to read. -/
theorem handleNewConnection_get (h : n % 2 ^ 32 = 0) :
    handleNewConnection p true c value (littleEndian 4 n ++ rest) =
      match p.get value with
      | none => ⟨value, none, [], true⟩
      | some data => ⟨value, none, littleEndian 4 data.length ++ data, true⟩ := by
  have hsize : ofLittleEndian (littleEndian 4 n) = 0 := by rw [ofLittleEndian_littleEndian, ← h]; rfl
  simp [handleNewConnection, readBytes_littleEndian, hsize]

/-- A request to write. -/
theorem handleNewConnection_set (h : n % 2 ^ 32 ≠ 0) (hle : n % 2 ^ 32 ≤ rest.length) :
    handleNewConnection p true c value (littleEndian 4 n ++ rest) =
      match p.set value (rest.take (n % 2 ^ 32)) with
      | none => ⟨value, none, [], true⟩
      | some (ok, value) => ⟨value, some (rest.take (n % 2 ^ 32), ok),
          littleEndian 4 (if ok then transactionSuccessful else transactionFailed), true⟩ := by
  have hsize : ofLittleEndian (littleEndian 4 n) = n % 2 ^ 32 := ofLittleEndian_littleEndian 4 n
  have hread : readBytes (n % 2 ^ 32) rest =
      some (rest.take (n % 2 ^ 32), rest.drop (n % 2 ^ 32)) := if_pos hle
  simp only [handleNewConnection, Bool.not_true, Bool.false_eq_true, if_false, send_eq, receive_eq,
    readBytes_littleEndian, hsize, if_neg h, hread]

/-- The server waits for the rest of the value. -/
theorem handleNewConnection_waiting (h : n % 2 ^ 32 ≠ 0) (hlt : rest.length < n % 2 ^ 32) :
    (handleNewConnection p true c value (littleEndian 4 n ++ rest)).finished = false := by
  have hsize : ofLittleEndian (littleEndian 4 n) = n % 2 ^ 32 := ofLittleEndian_littleEndian 4 n
  simp only [handleNewConnection, Bool.not_true, Bool.false_eq_true, if_false, receive_eq,
    readBytes_littleEndian, hsize, if_neg h, readBytes_eq_none hlt]

variable {data stream : List UInt8}

/-- The server waits for the size. -/
theorem handleNewConnection_short (h : stream.length < 4) :
    (handleNewConnection p true c value stream).finished = false := by
  simp [handleNewConnection, readBytes_eq_none h]

/-- What the server has set is the value that it has after the connection. -/
theorem set_of_setCall {ok : Bool}
    (h : (handleNewConnection p trusted c value stream).setCall = some (data, ok)) :
    p.set value data = some (ok, (handleNewConnection p trusted c value stream).value) := by
  cases trusted with
  | false => cases h
  | true =>
    cases hword : readBytes 4 stream with
    | none => simp [handleNewConnection, hword] at h
    | some read =>
      obtain ⟨word, rest⟩ := read
      by_cases hzero : ofLittleEndian word = 0
      · cases hget : p.get value <;> simp [handleNewConnection, hword, hzero, hget] at h
      · cases hdata : readBytes (ofLittleEndian word) rest with
        | none => simp [handleNewConnection, hword, hzero, hdata] at h
        | some read =>
          obtain ⟨received, rest'⟩ := read
          cases hset : p.set value received with
          | none => simp [handleNewConnection, hword, hzero, hdata, hset] at h
          | some result =>
            simp [handleNewConnection, hword, hzero, hdata, hset] at h ⊢
            obtain ⟨rfl, rfl⟩ := h
            exact hset

/-- What the server has set. -/
theorem set_of_serve {ok : Bool} (h : (serve p trusted c value stream).2.setCall = some (data, ok))
    : p.set value data = some (ok, (serve p trusted c value stream).2.value) := by
  unfold serve at h ⊢
  dsimp only at h ⊢
  split at h
  · rename_i hearly
    rw [if_pos hearly]
    exact set_of_setCall h
  · rename_i hearly
    rw [if_neg hearly]
    exact set_of_setCall h

/-- A server that waits on every proper part of a stream gets all of it. -/
theorem serve_of_waiting
    (h : ∀ k < stream.length, (handleNewConnection p trusted c value (stream.take k)).finished =
      false)
    : serve p trusted c value stream = (true, handleNewConnection p trusted c value stream) := by
  unfold serve
  rw [if_neg]
  rintro ⟨hlt, hfinished⟩
  rw [h c.sent hlt] at hfinished
  cases hfinished

/-! ### Writes -/

/-- The stream of a write. -/
def writeStream (w : SizeWidth) (data : List UInt8) : List UInt8 :=
  littleEndian w.bytes data.length ++ data.take (data.length % 2 ^ 32)

/-- What the proxy makes of the status. -/
def accepted (sent : List UInt8) : Bool :=
  match readBytes 4 sent with
  | none => false
  | some (status, _) => ofLittleEndian status = transactionSuccessful

/-- A write in terms of the server. -/
theorem write_eq (w : SizeWidth) (data : List UInt8) :
    write w p trusted c value data =
      ((serve p trusted c value (writeStream w data)).1 &&
        accepted (serve p trusted c value (writeStream w data)).2.sent,
        (serve p trusted c value (writeStream w data)).2) := by
  unfold write writeStream accepted
  simp only [send_eq, receive_eq]
  generalize serve p trusted c value _ = result
  obtain ⟨sent, served⟩ := result
  cases sent with
  | false => rfl
  | true =>
    cases readBytes 4 served.sent <;> simp

/-- Only zero is an acceptance. -/
theorem accepted_littleEndian (n : ℕ) (rest : List UInt8) :
    accepted (littleEndian 4 n ++ rest) = true ↔ n % 2 ^ 32 = 0 := by
  rw [accepted, readBytes_littleEndian]
  dsimp only
  rw [ofLittleEndian_littleEndian, decide_eq_true_eq]
  rfl

/-- The status is the answer. -/
theorem accepted_status (ok : Bool) :
    accepted (littleEndian 4 (if ok then transactionSuccessful else transactionFailed)) = ok := by
  cases ok <;> decide

/-- An untrusted peer gets nothing, and the proxy takes it for a failure. -/
theorem write_untrusted (w : SizeWidth) (data : List UInt8) :
    write w p false c value data = (false, ⟨value, none, [], true⟩) := by
  have hserve : (serve p false c value (writeStream w data)).2 = ⟨value, none, [], true⟩ := by
    unfold serve
    dsimp only
    split <;> rfl
  rw [write_eq, hserve]
  have haccepted : accepted [] = false := rfl
  rw [haccepted, Bool.and_false]

/-- An untrusted client is refused. -/
theorem writeAgrees_untrusted (w : SizeWidth) (data : List UInt8) :
    WriteAgrees w p false value data := by
  intro c
  rw [write_untrusted]
  exact ⟨fun h => (by cases h), fun h => (by cases h)⟩

/-- With 32 bits the stream is the size and the value. -/
theorem writeStream_bits32 (hlt : data.length < 2 ^ 32) :
    writeStream .bits32 data = littleEndian 4 data.length ++ data := by
  rw [writeStream, Nat.mod_eq_of_lt hlt, take_length]
  rfl

/-- A request is served whole. -/
theorem serve_bits32 (hpos : 1 ≤ data.length) (hlt : data.length < 2 ^ 32) :
    serve p true c value (writeStream .bits32 data) =
      (true, handleNewConnection p true c value (writeStream .bits32 data)) := by
  refine serve_of_waiting fun k hk => ?_
  rw [writeStream_bits32 hlt] at hk ⊢
  rw [length_append, length_littleEndian] at hk
  by_cases hshort : k < 4
  · exact handleNewConnection_short (by rw [length_take]; omega)
  · have htake : (littleEndian 4 data.length ++ data).take k =
        littleEndian 4 data.length ++ data.take (k - 4) := by
      rw [take_append, length_littleEndian, take_of_length_le]
      rw [length_littleEndian]
      omega
    rw [htake]
    apply handleNewConnection_waiting
    · rw [Nat.mod_eq_of_lt hlt]
      omega
    · rw [Nat.mod_eq_of_lt hlt, length_take]
      omega

/-- With 32-bit sizes a write agrees. -/
theorem writeAgrees_bits32 (hpos : 1 ≤ data.length) (hlt : data.length < 2 ^ 32) :
    WriteAgrees .bits32 p true value data := by
  intro c
  have hmod : data.length % 2 ^ 32 = data.length := Nat.mod_eq_of_lt hlt
  have hset : handleNewConnection p true c value (littleEndian 4 data.length ++ data) = _ :=
    handleNewConnection_set (by omega) (Nat.le_of_eq hmod)
  rw [hmod, take_length] at hset
  rw [write_eq, serve_bits32 hpos hlt, writeStream_bits32 hlt, hset, Bool.true_and]
  cases p.set value data with
  | none => exact ⟨fun h => (by cases h), fun h => (by cases h)⟩
  | some result =>
    rw [accepted_status, Option.some.injEq, Prod.mk.injEq]
    exact ⟨fun h => ⟨rfl, h⟩, fun h => h.2⟩

/-- With 64 bits the high half of the size stands before the value. -/
theorem writeStream_bits64 (data : List UInt8) :
    writeStream .bits64 data = littleEndian 4 data.length ++
      (littleEndian 4 (data.length / 2 ^ 32) ++ data.take (data.length % 2 ^ 32)) := by
  have hsize : littleEndian 8 data.length =
      littleEndian 4 data.length ++ littleEndian 4 (data.length / 2 ^ 32) :=
    littleEndian_add 4 4 data.length
  rw [writeStream, SizeWidth.bytes, hsize, append_assoc]

/-- A request with 64-bit sizes. -/
theorem length_writeStream_bits64 (data : List UInt8) :
    (writeStream .bits64 data).length = 8 + data.length % 2 ^ 32 := by
  have hle : data.length % 2 ^ 32 ≤ data.length := Nat.mod_le _ _
  rw [writeStream, length_append, length_littleEndian, length_take, Nat.min_eq_left hle]
  rfl

/-- The server gets the shifted bytes from the first half of the size and as many bytes more. -/
theorem handleNewConnection_shifted {k : ℕ} (hlow : data.length % 2 ^ 32 ≠ 0)
    (hk : 4 + data.length % 2 ^ 32 ≤ k) :
    handleNewConnection p true c value ((writeStream .bits64 data).take k) =
      match p.set value (shifted data) with
      | none => ⟨value, none, [], true⟩
      | some (ok, value) => ⟨value, some (shifted data, ok),
          littleEndian 4 (if ok then transactionSuccessful else transactionFailed), true⟩ := by
  obtain ⟨rest, hstream, hlen, hrest⟩ : ∃ rest,
      (writeStream .bits64 data).take k = littleEndian 4 data.length ++ rest ∧
        data.length % 2 ^ 32 ≤ rest.length ∧ rest.take (data.length % 2 ^ 32) = shifted data := by
    refine ⟨(littleEndian 4 (data.length / 2 ^ 32) ++
      data.take (data.length % 2 ^ 32)).take (k - 4), ?_, ?_, ?_⟩
    · rw [writeStream_bits64, take_append, length_littleEndian, take_of_length_le]
      rw [length_littleEndian]
      omega
    · have hle : data.length % 2 ^ 32 ≤ data.length := Nat.mod_le _ _
      rw [length_take, length_append, length_littleEndian, length_take]
      omega
    · rw [take_take, Nat.min_eq_left (by omega), shifted, take_append, take_append,
        length_littleEndian, take_take, Nat.min_eq_left (by omega)]
  rw [hstream, handleNewConnection_set hlow hlen, hrest]

/-- The server takes the high half of the size for data. -/
theorem handleNewConnection_bits64 (hlow : data.length % 2 ^ 32 ≠ 0) :
    handleNewConnection p true c value (writeStream .bits64 data) =
      match p.set value (shifted data) with
      | none => ⟨value, none, [], true⟩
      | some (ok, value) => ⟨value, some (shifted data, ok),
          littleEndian 4 (if ok then transactionSuccessful else transactionFailed), true⟩ := by
  have h : handleNewConnection p true c value
      ((writeStream .bits64 data).take (writeStream .bits64 data).length) = _ :=
    handleNewConnection_shifted hlow (by rw [length_writeStream_bits64]; omega)
  rwa [take_length] at h

/-- Before that it waits. -/
theorem handleNewConnection_bits64_waiting {k : ℕ}
    (hk : k < 4 ∨ (k < 4 + data.length % 2 ^ 32 ∧ data.length % 2 ^ 32 ≠ 0)) :
    (handleNewConnection p true c value ((writeStream .bits64 data).take k)).finished = false := by
  by_cases hshort : k < 4
  · exact handleNewConnection_short (by rw [length_take]; omega)
  · obtain ⟨hlt, hlow⟩ := hk.resolve_left hshort
    have htake : (writeStream .bits64 data).take k = littleEndian 4 data.length ++
        (littleEndian 4 (data.length / 2 ^ 32) ++
          data.take (data.length % 2 ^ 32)).take (k - 4) := by
      rw [writeStream_bits64, take_append, length_littleEndian, take_of_length_le]
      rw [length_littleEndian]
      omega
    rw [htake]
    apply handleNewConnection_waiting hlow
    rw [length_take]
    omega

/-- However much the proxy can send, the server sets the shifted bytes. -/
theorem serve_bits64 (hlow : data.length % 2 ^ 32 ≠ 0) :
    (serve p true c value (writeStream .bits64 data)).2 =
      match p.set value (shifted data) with
      | none => ⟨value, none, [], true⟩
      | some (ok, value) => ⟨value, some (shifted data, ok),
          littleEndian 4 (if ok then transactionSuccessful else transactionFailed), true⟩ := by
  unfold serve
  dsimp only
  split
  · rename_i hearly
    refine handleNewConnection_shifted hlow ?_
    by_contra hlt
    rw [handleNewConnection_bits64_waiting (Or.inr ⟨Nat.lt_of_not_le hlt, hlow⟩)] at hearly
    cases hearly.2
  · exact handleNewConnection_bits64 hlow

/-- A size whose low half is zero is taken for a get. -/
theorem serve_bits64_get (hlow : data.length % 2 ^ 32 = 0) :
    (serve p true c value (writeStream .bits64 data)).2 =
      match p.get value with
      | none => ⟨value, none, [], true⟩
      | some data => ⟨value, none, littleEndian 4 data.length ++ data, true⟩ := by
  unfold serve
  dsimp only
  split
  · rename_i hearly
    by_cases hshort : c.sent < 4
    · rw [handleNewConnection_bits64_waiting (Or.inl hshort)] at hearly
      cases hearly.2
    · have htake : (writeStream .bits64 data).take c.sent = littleEndian 4 data.length ++
          (littleEndian 4 (data.length / 2 ^ 32) ++
            data.take (data.length % 2 ^ 32)).take (c.sent - 4) := by
        rw [writeStream_bits64, take_append, length_littleEndian, take_of_length_le]
        rw [length_littleEndian]
        omega
      rw [htake, handleNewConnection_get hlow]
  · rw [writeStream_bits64, handleNewConnection_get hlow]

/-- The proxy can send everything, or the server is done before. -/
theorem serve_fst (h : stream.length ≤ c.sent) : (serve p trusted c value stream).1 = true := by
  unfold serve
  rw [if_neg]
  rintro ⟨hlt, -⟩
  omega

/-- A server that is done early breaks the request off. -/
theorem serve_fst_of_early (h : c.sent < stream.length)
    (hfinished : (handleNewConnection p trusted c value (stream.take c.sent)).finished = true) :
    (serve p trusted c value stream).1 = false := by
  unfold serve
  rw [if_pos ⟨h, hfinished⟩]

/-- A write that returns true has set the shifted bytes. -/
theorem set_of_write_bits64 (hlow : data.length % 2 ^ 32 ≠ 0)
    (h : (write .bits64 p true c value data).1 = true) :
    ∃ value', p.set value (shifted data) = some (true, value') := by
  rw [write_eq, Bool.and_eq_true, serve_bits64 hlow] at h
  cases hset : p.set value (shifted data) with
  | none =>
    rw [hset] at h
    cases h.2
  | some result =>
    rw [hset] at h
    rw [accepted_status] at h
    exact ⟨result.2, by rw [← h.2]⟩

/-- When the shifted bytes are set, the answer depends on whether the proxy could send the rest. -/
theorem not_writeAgrees_bits64 {value' : σ} (hlow : data.length % 2 ^ 32 ≠ 0)
    (hset : p.set value (shifted data) = some (true, value')) :
    ¬ WriteAgrees .bits64 p true value data := by
  intro hagrees
  have hcall : ∀ c, (write .bits64 p true c value data).2.setCall = some (shifted data, true) := by
    intro c
    rw [write_eq, serve_bits64 hlow, hset]
  let all : Cuts := ⟨fun _ _ => 0, 8 + data.length % 2 ^ 32⟩
  let part : Cuts := ⟨fun _ _ => 0, 4 + data.length % 2 ^ 32⟩
  have hall : (write .bits64 p true all value data).1 = true := by
    rw [write_eq, serve_bits64 hlow, hset, serve_fst (by rw [length_writeStream_bits64])]
    exact accepted_status true
  have hpart : (write .bits64 p true part value data).1 = false := by
    rw [write_eq, serve_fst_of_early]
    · rfl
    · rw [length_writeStream_bits64]
      exact Nat.add_lt_add_right (by decide) _
    · rw [handleNewConnection_shifted hlow (Nat.le_refl _), hset]
  have hsame := (hagrees all).mp hall
  rw [hcall] at hsame
  have htrue := (hagrees part).mpr (by rw [hcall, hsame])
  rw [hpart] at htrue
  cases htrue

/-- When a write with 64-bit sizes agrees. -/
theorem writeAgrees_bits64_iff (hlow : data.length % 2 ^ 32 ≠ 0) :
    WriteAgrees .bits64 p true value data ↔
      ∀ value', p.set value (shifted data) ≠ some (true, value') := by
  constructor
  · exact fun hagrees value' hset => not_writeAgrees_bits64 hlow hset hagrees
  · intro hrefused c
    constructor
    · intro hwrite
      obtain ⟨value', hset⟩ := set_of_write_bits64 hlow hwrite
      exact absurd hset (hrefused value')
    · intro hcall
      rw [write_eq, serve_bits64 hlow] at hcall
      cases hset : p.set value (shifted data) with
      | none =>
        rw [hset] at hcall
        cases hcall
      | some result =>
        obtain ⟨ok, value'⟩ := result
        rw [hset, Option.some.injEq, Prod.mk.injEq] at hcall
        rw [hcall.2] at hset
        exact absurd hset (hrefused value')

/-- When one agrees that looks like a read. -/
theorem writeAgrees_bits64_get_iff (hlow : data.length % 2 ^ 32 = 0) :
    WriteAgrees .bits64 p true value data ↔ p.get value ≠ some [] := by
  constructor
  · intro hagrees hget
    have hwrite : (write .bits64 p true ⟨fun _ _ => 0, 8⟩ value data).1 = true := by
      rw [write_eq, serve_bits64_get hlow, hget,
        serve_fst (by rw [length_writeStream_bits64, hlow])]
      rfl
    have hcall := (hagrees ⟨fun _ _ => 0, 8⟩).mp hwrite
    rw [write_eq, serve_bits64_get hlow, hget] at hcall
    cases hcall
  · intro hget c
    rw [write_eq, serve_bits64_get hlow]
    cases hdata : p.get value with
    | none => exact ⟨fun h => by simp [accepted, readBytes] at h, fun h => (by cases h)⟩
    | some answer =>
      refine ⟨fun h => ?_, fun h => (by cases h)⟩
      have hlt : answer.length < 2 ^ 32 := Nat.lt_of_le_of_lt (p.length_get hdata) p.size_lt
      rw [Bool.and_eq_true, accepted_littleEndian, Nat.mod_eq_of_lt hlt, length_eq_zero_iff] at h
      rw [hdata, h.2] at hget
      exact absurd rfl hget

/-- A write agrees exactly when it fits. -/
theorem writeAgrees_iff (w : SizeWidth) (hpos : 1 ≤ data.length)
    (hlt : data.length < 2 ^ (8 * w.bytes)) :
    WriteAgrees w p trusted value data ↔ WriteFits w p trusted value data := by
  cases trusted with
  | false => exact ⟨fun _ => Or.inr (Or.inl rfl), fun _ => writeAgrees_untrusted w data⟩
  | true =>
    cases w with
    | bits32 => exact ⟨fun _ => Or.inl rfl, fun _ => writeAgrees_bits32 hpos hlt⟩
    | bits64 =>
      have hfits : WriteFits .bits64 p true value data ↔
          if data.length % 2 ^ 32 = 0 then p.get value ≠ some []
          else ∀ value', p.set value (shifted data) ≠ some (true, value') := by
        simp [WriteFits]
      rw [hfits]
      by_cases hlow : data.length % 2 ^ 32 = 0
      · rw [if_pos hlow]
        exact writeAgrees_bits64_get_iff hlow
      · rw [if_neg hlow]
        exact writeAgrees_bits64_iff hlow

/-! ### Reads -/

/-- The server's answer to a get. -/
theorem serve_get : serve p true c value (littleEndian 4 0) =
    (true, match p.get value with
      | none => ⟨value, none, [], true⟩
      | some data => ⟨value, none, littleEndian 4 data.length ++ data, true⟩) := by
  rw [serve_of_waiting]
  · have hget : handleNewConnection p true c value (littleEndian 4 0 ++ []) = _ :=
      handleNewConnection_get rfl
    rw [append_nil] at hget
    rw [hget]
  · intro k hk
    rw [length_littleEndian] at hk
    exact handleNewConnection_short (by rw [length_take]; omega)

/-- An untrusted client reads nothing. -/
theorem read_untrusted (w : SizeWidth) (size : ℕ) : read w p false c value size = none := by
  unfold read
  simp only [send_eq, receive_eq]
  have hserve : (serve p false c value (littleEndian 4 0)).2 = ⟨value, none, [], true⟩ := by
    unfold serve
    dsimp only
    split <;> rfl
  generalize serve p false c value (littleEndian 4 0) = result at hserve ⊢
  obtain ⟨sent, served⟩ := result
  rw [hserve]
  cases sent <;> cases w <;> rfl

/-- A read with 32-bit sizes. -/
theorem read_bits32 (size : ℕ) : read .bits32 p true c value size =
    match p.get value with
    | none => none
    | some data => if size < data.length then none else some (data, data.length) := by
  unfold read
  simp only [send_eq, receive_eq, serve_get]
  cases hget : p.get value with
  | none => rfl
  | some data =>
    have hlt : data.length < 2 ^ 32 := Nat.lt_of_le_of_lt (p.length_get hget) p.size_lt
    have hsize : ofLittleEndian (littleEndian 4 data.length) = data.length :=
      (ofLittleEndian_littleEndian 4 data.length).trans (Nat.mod_eq_of_lt hlt)
    have hdata : readBytes data.length data = some (data, []) := by
      have h := readBytes_append data []
      rwa [append_nil] at h
    simp only [SizeWidth.bytes, readBytes_littleEndian, hsize, Nat.mod_eq_of_lt hlt, hdata]
    rfl

/-- With 64 bits four bytes of the value are taken for a part of the size, and are missed at the
end. -/
theorem read_bits64 (size : ℕ) : read .bits64 p true c value size = none := by
  unfold read
  simp only [send_eq, receive_eq, serve_get]
  cases hget : p.get value with
  | none => rfl
  | some data =>
    have hlt : data.length < 2 ^ 32 := Nat.lt_of_le_of_lt (p.length_get hget) p.size_lt
    by_cases hshort : data.length < 4
    · have hnone : readBytes 8 (littleEndian 4 data.length ++ data) = none := by
        refine readBytes_eq_none ?_
        rw [List.length_append, length_littleEndian]
        omega
      simp only [SizeWidth.bytes, hnone]
      rfl
    · have htake : readBytes 8 (littleEndian 4 data.length ++ data) =
          some (littleEndian 4 data.length ++ data.take 4, data.drop 4) := by
        rw [readBytes, if_pos (by rw [List.length_append, length_littleEndian]; omega),
          List.take_append, List.drop_append, length_littleEndian, List.take_of_length_le,
          List.drop_eq_nil_of_le]
        · rfl
        · rw [length_littleEndian]; decide
        · rw [length_littleEndian]; decide
      have hlow : ofLittleEndian (littleEndian 4 data.length ++ data.take 4) % 2 ^ 32 =
          data.length := by
        rw [ofLittleEndian_append, length_littleEndian, ofLittleEndian_littleEndian,
          Nat.mod_eq_of_lt (show data.length < 256 ^ 4 from hlt)]
        omega
      have hmissing : readBytes data.length (data.drop 4) = none :=
        readBytes_eq_none (by rw [List.length_drop]; omega)
      simp only [SizeWidth.bytes, htake, hlow, hmissing]
      simp

/-- A read agrees. -/
theorem readAgrees (w : SizeWidth) (size : ℕ) : ReadAgrees w p trusted value size := by
  intro c data n hread
  cases trusted with
  | false =>
    rw [read_untrusted] at hread
    cases hread
  | true =>
    cases w with
    | bits64 =>
      rw [read_bits64] at hread
      cases hread
    | bits32 =>
      rw [read_bits32] at hread
      cases hget : p.get value with
      | none =>
        rw [hget] at hread
        cases hread
      | some data' =>
        rw [hget] at hread
        obtain ⟨-, hread⟩ := Option.ite_none_left_eq_some.mp hread
        cases hread
        exact ⟨rfl, rfl⟩

/-! ### Strings -/

variable {q : StringParameter σ} {s : List UInt8}

/-- A string ends at its zero. -/
theorem cString_append_zero (h : 0 ∉ s) : cString (s ++ [0]) = s := by
  induction s with
  | nil => rfl
  | cons b s ih =>
    rw [List.mem_cons, not_or] at h
    have hb : (b != 0) = true := bne_iff_ne.mpr (Ne.symm h.1)
    rw [List.cons_append, cString, List.takeWhile_cons_of_pos (p := fun b => b != 0) hb]
    exact congrArg (b :: ·) (ih h.2)

/-- Setting a string writes it with its zero. -/
theorem setString_eq (w : SizeWidth) (hs : s.length ≤ maxLength) :
    setString w q trusted c value s = ((write w q.toParameter trusted c value (s ++ [0])).1,
      (write w q.toParameter trusted c value (s ++ [0])).2.value) := by
  rw [setString, if_neg (Nat.not_lt.mpr hs)]

section

variable (hs : s.length ≤ maxLength)
include hs

/-- A string with its zero is short. -/
theorem length_terminated :
    (s ++ [0]).length = s.length + 1 ∧ s.length + 1 ≤ 257 := by
  unfold maxLength at hs
  rw [List.length_append, List.length_singleton]
  omega

/-- A get gives the string that is stored, if it is not too long. -/
theorem getString_bits32 (hnul : 0 ∉ s) (hget : q.get value = s) :
    getString .bits32 q true c value = some s := by
  have hlen := length_terminated hs
  have hserver : q.toParameter.get value = some (s ++ [0]) := by
    simp only [StringParameter.toParameter, hget]
    rw [if_neg]
    unfold maxSize maxLength
    omega
  rw [getString, read_bits32, hserver]
  dsimp only
  rw [if_neg, Option.map_some, cString_append_zero hnul]
  unfold maxSize maxLength
  omega

/-- With 32-bit sizes a string agrees. -/
theorem stringAgrees_bits32 (hnul : 0 ∉ s) :
    StringAgrees .bits32 q true value s := by
  intro c c' hset
  have hlen := length_terminated hs
  rw [setString_eq _ hs] at hset ⊢
  have hcall := (writeAgrees_bits32 (by omega) (by omega) c).mp hset
  rw [write_eq] at hcall ⊢
  have hstored := set_of_serve hcall
  obtain ⟨-, hstored⟩ := Option.ite_none_left_eq_some.mp hstored
  rw [cString_append_zero hnul, Option.some.injEq] at hstored
  exact getString_bits32 hs hnul (q.get_of_set hstored)

/-- The server takes every string for the empty one: the first byte of the size's high half is
zero. -/
theorem set_shifted_string :
    q.toParameter.set value (shifted (s ++ [0])) = some (q.set value []) := by
  obtain ⟨hlen, hle⟩ := length_terminated hs
  have hmod : (s ++ [0]).length % 2 ^ 32 = s.length + 1 := by
    rw [hlen, Nat.mod_eq_of_lt (by omega)]
  have hdiv : (s ++ [0]).length / 2 ^ 32 = 0 := by
    rw [hlen, Nat.div_eq_of_lt (by omega)]
  have hshifted : shifted (s ++ [0]) = 0 :: ([0, 0, 0] ++ (s ++ [0])).take s.length := by
    rw [shifted, hmod, hdiv]
    rfl
  have hcString : cString (shifted (s ++ [0])) = [] := by
    rw [hshifted]
    rfl
  simp only [StringParameter.toParameter]
  rw [if_neg, hcString]
  rw [hshifted, List.length_cons, List.length_take]
  unfold maxSize maxLength
  omega

/-- When a string with 64-bit sizes agrees. -/
theorem stringAgrees_bits64_iff :
    StringAgrees .bits64 q true value s ↔ (q.set value []).1 = false := by
  obtain ⟨hlen, hle⟩ := length_terminated hs
  have hlow : (s ++ [0]).length % 2 ^ 32 ≠ 0 := by
    omega
  constructor
  · intro hagrees
    by_contra hset
    rw [Bool.not_eq_false] at hset
    let all : Cuts := ⟨fun _ _ => 0, 8 + (s ++ [0]).length % 2 ^ 32⟩
    have hwrite : (setString .bits64 q true all value s).1 = true := by
      have hserver : q.toParameter.set value (shifted (s ++ [0])) =
          some (true, (q.set value []).2) := by
        rw [set_shifted_string hs, ← hset]
      rw [setString_eq _ hs, write_eq, serve_bits64 hlow, hserver,
        serve_fst (by rw [length_writeStream_bits64])]
      exact accepted_status true
    have hget := hagrees all all hwrite
    rw [getString, read_bits64] at hget
    cases hget
  · intro hrefused c c' hset
    rw [setString_eq _ hs] at hset
    obtain ⟨value', hserver⟩ := set_of_write_bits64 hlow hset
    rw [set_shifted_string hs, Option.some.injEq] at hserver
    rw [hserver] at hrefused
    cases hrefused

end

/-- When a string agrees. -/
theorem stringAgrees_iff (w : SizeWidth) (hs : s.length ≤ maxLength) (hnul : 0 ∉ s) :
    StringAgrees w q trusted value s ↔ StringFits w q trusted value := by
  cases trusted with
  | false =>
    refine ⟨fun _ => Or.inr (Or.inl rfl), fun _ c c' hset => ?_⟩
    rw [setString_eq w hs, write_untrusted] at hset
    cases hset
  | true =>
    cases w with
    | bits32 => exact ⟨fun _ => Or.inl rfl, fun _ => stringAgrees_bits32 hs hnul⟩
    | bits64 =>
      rw [stringAgrees_bits64_iff hs]
      simp [StringFits]

/-- However the stream is cut: a write agrees exactly when `size_t` has 32 bits or the write fits, a
read always agrees, and a string that is set is got back exactly when `size_t` has 32 bits or the
empty string is refused. -/
theorem exchanges_agree {σ : Type u} (w : SizeWidth) (trusted : Bool) (value : σ) :
    (∀ (p : Parameter σ) (data : List UInt8), 1 ≤ data.length → data.length < 2 ^ (8 * w.bytes) →
      (WriteAgrees w p trusted value data ↔ WriteFits w p trusted value data)) ∧
    (∀ (p : Parameter σ) (size : ℕ), ReadAgrees w p trusted value size) ∧
    ∀ (q : StringParameter σ) (s : List UInt8), s.length ≤ maxLength → 0 ∉ s →
      (StringAgrees w q trusted value s ↔ StringFits w q trusted value) :=
  ⟨fun _ _ hpos hlt => writeAgrees_iff w hpos hlt, fun _ size => readAgrees w size,
    fun _ _ hs hnul => stringAgrees_iff w hs hnul⟩

/-- A parameter of four bytes that accepts every value. -/
def fourBytes : Parameter (List UInt8) where
  size := 4
  set value data := if data.length = 4 then some (true, data) else none
  get value := if value.length = 4 then some value else none
  size_lt := by decide
  length_get := by
    intro value data h
    split at h
    · rename_i hlen
      cases h
      exact Nat.le_of_eq hlen
    · cases h

/-- A string that is kept as it is. -/
def keptString : StringParameter (List UInt8) where
  set _ s := (true, s)
  get value := value
  get_of_set := by
    intro value s value' h
    cases h
    rfl

/-- The two ends agree on a word and on a string, with 32 bits. -/
theorem exchanges_agree_bits32 :
    WriteAgrees .bits32 fourBytes true [0, 0, 0, 0] [1, 2, 3, 4] ∧
      StringAgrees .bits32 keptString true [] [104, 105] := by
  obtain ⟨hwrite, -, -⟩ := exchanges_agree .bits32 true ([0, 0, 0, 0] : List UInt8)
  obtain ⟨-, -, hstring⟩ := exchanges_agree .bits32 true ([] : List UInt8)
  exact ⟨(hwrite fourBytes [1, 2, 3, 4] (by decide) (by decide)).mpr (Or.inl rfl),
    (hstring keptString [104, 105] (by decide) (by decide)).mpr (Or.inl rfl)⟩

/-- With 64 bits the server sets a word to zero, and the proxy returns true. -/
theorem word_set_to_zero : ¬ ∀ (w : SizeWidth) (p : Parameter (List UInt8)) (value data : List UInt8),
    1 ≤ data.length → data.length < 2 ^ (8 * w.bytes) → WriteAgrees w p true value data := by
  intro h
  have hagrees := h .bits64 fourBytes [0, 0, 0, 0] [1, 2, 3, 4] (by decide) (by decide)
  have hset : fourBytes.set [0, 0, 0, 0] (shifted [1, 2, 3, 4]) = some (true, [0, 0, 0, 0]) := by
    decide
  exact not_writeAgrees_bits64 (by decide) hset hagrees

end HardwareIntel.RemoteParameter
