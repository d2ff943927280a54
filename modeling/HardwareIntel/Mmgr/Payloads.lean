import HardwareIntel.Mmgr.Framing

/-!
# Payloads of the messages

The functions that lay out the payloads, `core/data_to_msg.c` in the daemon and
`libclients/c/data_to_msg.c` in the library, and the functions of `libclients/c/msg_to_data.c`
that read them back. A `size_t` has 32 bits. A reader that would leave the buffer, which the C
code does not check, fails here.

`payload_round_trip` puts each pair together. The causes of a recovery are written by the
requesting client, copied by the daemon into the reset notification and read by another client,
which finds out from the length of the message whether there are any.
-/

namespace HardwareIntel.Mmgr

open List Option

/-! ## Numbers of the enumerations -/

def CoreDumpState.all : List CoreDumpState :=
  [.succeed, .timeout, .linkError, .protocolError, .selfReset, .other]

def ModemFwError.all : List ModemFwError :=
  [.succeed, .outdated, .readyTimeout, .securityCorrupted, .swCorrupted, .badFamily,
    .errorUnspecified]

def ModemNvmError.all : List ModemNvmError :=
  [.succeed, .noNvmPatch, .errorUnspecified, .fail]

def EventType.all : List EventType := [.error, .stats, .info]

section Enumerations

variable {α : Type} [DecidableEq α]

/-- The number of an enumerator, its place in the list of them all. -/
def toNumber (all : List α) (a : α) : ℕ := all.idxOf a

/-- The enumerator with a number. -/
def ofNumber (all : List α) (n : ℕ) : Option α := all[n]?

theorem ofNumber_toNumber {all : List α} {a : α} (h : a ∈ all) :
    ofNumber all (toNumber all a) = some a :=
  List.getElem?_idxOf h

theorem toNumber_lt {all : List α} {a : α} (h : a ∈ all) (hall : all.length < 2 ^ 32) :
    toNumber all a < 2 ^ 32 :=
  (idxOf_lt_length_of_mem h).trans hall

end Enumerations

theorem CoreDumpState.mem_all (a : CoreDumpState) : a ∈ CoreDumpState.all := by
  cases a <;> decide

theorem ModemFwError.mem_all (a : ModemFwError) : a ∈ ModemFwError.all := by
  cases a <;> decide

theorem ModemNvmError.mem_all (a : ModemNvmError) : a ∈ ModemNvmError.all := by
  cases a <;> decide

theorem EventType.mem_all (a : EventType) : a ∈ EventType.all := by
  cases a <;> decide

/-! ## Values -/

/-- `FUSE_LEN`. -/
def fuseLen : ℕ := 9

/-- The hardware identity of the modem (`mmgr_cli_hw_id_t`). -/
structure HwId where
  id : Bytes

/-- The fuses of the modem (`mmgr_cli_fuse_info_t`). -/
structure FuseInfo where
  id : Bytes
  length_id : id.length = fuseLen

/-- A reset notification as a client gets it (`mmgr_cli_ap_reset_t`). -/
structure ApReset where
  name : Bytes
  recoveryCauses : List Bytes

/-- `MMGR_CLI_MAX_RECOVERY_CAUSES`. -/
def maxRecoveryCauses : ℕ := 5

/-- `MMGR_CLI_MAX_RECOVERY_CAUSE_LEN`. -/
def maxRecoveryCauseLen : ℕ := 512

/-- `MMGR_CLI_MAX_TFT_EVENT_DATA`. -/
def maxTftEventData : ℕ := 6

/-- `sizeof (mmgr_cli_recovery_cause_t)`. -/
def sizeofRecoveryCause : ℕ := 8

/-- The data of a recovery request: its length in bytes, and the array of causes unless the pointer
is null or misaligned. A cause may be a null pointer. -/
structure RecoveryData where
  len : ℕ
  causes : Option (List (Option Bytes))

/-- The data of a request made with a list of causes. -/
def RecoveryData.ofCauses (causes : List Bytes) : RecoveryData :=
  ⟨causes.length * sizeofRecoveryCause, some (causes.map some)⟩

/-! ## Writers -/

/-- `msg_prepare`, followed by the copy of the payload. It needs a message that fits in the address
space. -/
def msgPrepare (id ts : ℕ) (data : Bytes) : Option Msg :=
  if h : sizeHeader + data.length < 2 ^ 32 then
    some ⟨id % 2 ^ 32, ts % 2 ^ 32, data, Nat.mod_lt _ (by decide), Nat.mod_lt _ (by decide), h⟩
  else none

/-- `set_msg_modem_hw_id`. -/
def setMsgModemHwId (ts : ℕ) (hw : HwId) : Option Msg :=
  msgPrepare (Event.toId .responseModemHwId) ts hw.id

/-- `set_msg_fuse_info`. -/
def setMsgFuseInfo (ts : ℕ) (fuse : FuseInfo) : Option Msg :=
  msgPrepare (Event.toId .responseFuseInfo) ts fuse.id

/-- `set_msg_ap_reset`. The extra data is already serialized. -/
def setMsgApReset (ts : ℕ) (ap : InternalApReset) : Option Msg :=
  msgPrepare (Event.toId .notifyApReset) ts (encodeBuffer ap.name ++ ap.extraData)

/-- `set_msg_modem_fw_result`. -/
def setMsgModemFwResult (ts : ℕ) (result : FwUpdateResult) : Option Msg :=
  msgPrepare (Event.toId .responseModemFwResult) ts
    (encodeWord (toNumber ModemFwError.all result.id))

/-- `serialize_int`. -/
def serializeInt (value : Int32) : Bytes := encodeWord (wordOfInt value.toInt)

/-- `set_msg_modem_nvm_result`. -/
def setMsgModemNvmResult (ts : ℕ) (result : NvmUpdateResult) : Option Msg :=
  msgPrepare (Event.toId .responseModemNvmResult) ts
    (encodeWord (toNumber ModemNvmError.all result.id) ++ serializeInt result.subErrorCode)

/-- `set_msg_core_dump`. -/
def setMsgCoreDump (ts : ℕ) (cd : CoreDump) : Option Msg :=
  msgPrepare (Event.toId .notifyCoreDumpComplete) ts
    (encodeWord (toNumber CoreDumpState.all cd.state) ++ (encodeWord cd.path.length ++
      (encodeWord cd.reason.length ++ (cd.path ++ cd.reason))))

/-- The payload of a telephony event. -/
def tftEventPayload (ev : TftEvent) : Bytes :=
  encodeWord (toNumber EventType.all ev.type) ++ (encodeBuffer ev.name ++
    (serializeInt ev.log ++ (encodeWord ev.data.length ++ encodeBuffers ev.data)))

/-- `set_msg_tft_event`. The daemon stops at an event with too many or too long data strings. -/
def setMsgTftEvent (ts : ℕ) (ev : TftEvent) : Option Msg :=
  if ev.data.length ≤ maxTftEventData ∧ ∀ d ∈ ev.data, d.length < maxRecoveryCauseLen then
    msgPrepare (Event.toId .notifyTftEvent) ts (tftEventPayload ev)
  else none

/-- The causes that `set_msg_recovery` sends: all of them, or none when a check fails. -/
def recoveryCauses (data : RecoveryData) : List Bytes :=
  let reqSize :=
    if data.len > maxRecoveryCauses * sizeofRecoveryCause ∨ data.len % sizeofRecoveryCause ≠ 0 then
      0
    else data.len
  let reqSize := if reqSize ≠ 0 ∧ data.causes = none then 0 else reqSize
  let causes := (data.causes.getD []).take (reqSize / sizeofRecoveryCause)
  if causes.all (·.any (·.length ≤ maxRecoveryCauseLen)) then causes.filterMap id else []

/-- `set_msg_recovery`. Nothing is sent for an empty list. -/
def setMsgRecovery (ts : ℕ) (data : RecoveryData) : Option Msg :=
  let causes := recoveryCauses data
  msgPrepare (toNumber Request.all .requestModemRecovery) ts
    (if causes = [] then [] else encodeWord causes.length ++ encodeBuffers causes)

/-! ## Readers -/

/-- `set_data_hw_id`. -/
def setDataHwId (msg : Msg) : Option HwId := some ⟨msg.data⟩

/-- `set_data_fuse_info`: the payload is copied into an array of `FUSE_LEN` characters. -/
def setDataFuseInfo (msg : Msg) : Option FuseInfo :=
  if h : msg.data.length = fuseLen then some ⟨msg.data, h⟩ else none

/-- The number of causes, zero when no extra information is present. -/
def numCauseEntries (extra : Bool) (p : Bytes) : Option (ℕ × Bytes) :=
  if extra then readWord p else some (0, p)

/-- `set_data_ap_reset`. -/
def setDataApReset (msg : Msg) : Option ApReset := do
  let (lenName, p) ← readWord msg.data
  let (name, p) ← readBytes lenName p
  let (num, p) ← numCauseEntries (msg.data.length > lenName + 4) p
  let (causes, _) ← readBuffers num p
  some ⟨name, causes⟩

/-- `set_data_core_dump`. -/
def setDataCoreDump (msg : Msg) : Option CoreDump :=
  if msg.data.length < 12 then none
  else do
    let (state, p) ← readWord msg.data
    let (pathLen, p) ← readWord p
    let (reasonLen, p) ← readWord p
    if (pathLen + reasonLen) % 2 ^ 32 ≠ msg.data.length - 12 then none
    else do
      let (path, p) ← readBytes pathLen p
      let (reason, _) ← readBytes reasonLen p
      let state ← ofNumber CoreDumpState.all state
      some ⟨state, path, reason⟩

/-- `deserialize_int`. -/
def deserializeInt (p : Bytes) : Option (Int32 × Bytes) :=
  (readWord p).map fun (n, p) => (Int32.ofInt (intOfWord n), p)

/-- `set_data_tft_event`. -/
def setDataTftEvent (msg : Msg) : Option TftEvent :=
  if msg.data.length < 16 then none
  else do
    let (type, p) ← readWord msg.data
    let (name, p) ← readBuffer p
    let (log, p) ← deserializeInt p
    let (num, p) ← readWord p
    let (data, _) ← readBuffers num p
    let type ← ofNumber EventType.all type
    some ⟨type, name, log, data⟩

/-- `set_data_fw_result`. -/
def setDataFwResult (msg : Msg) : Option FwUpdateResult :=
  if msg.data.length ≠ 4 then none
  else do
    let (id, _) ← readWord msg.data
    let id ← ofNumber ModemFwError.all id
    some ⟨id⟩

/-- `set_data_nvm_result`. -/
def setDataNvmResult (msg : Msg) : Option NvmUpdateResult :=
  if msg.data.length ≠ 8 then none
  else do
    let (id, p) ← readWord msg.data
    let (subErrorCode, _) ← deserializeInt p
    let id ← ofNumber ModemNvmError.all id
    some ⟨id, subErrorCode⟩

/-! ## Round trips -/

/-- A message that is prepared carries the payload, and its length fits in a word. -/
theorem msgPrepare_eq_some {id ts : ℕ} {data : Bytes} {msg : Msg}
    (h : msgPrepare id ts data = some msg) : msg.data = data ∧ data.length < 2 ^ 32 := by
  unfold msgPrepare at h
  split at h
  · rename_i hsize
    rw [some.injEq] at h
    subst h
    exact ⟨rfl, by omega⟩
  · exact absurd h (by simp)

theorem deserializeInt_serializeInt_append (value : Int32) (rest : Bytes) :
    deserializeInt (serializeInt value ++ rest) = some (value, rest) := by
  have hvalue : intOfWord (wordOfInt value.toInt) = value.toInt :=
    intOfWord_wordOfInt value.le_toInt value.toInt_lt
  rw [deserializeInt, serializeInt, readWord_encodeWord_append (wordOfInt_lt _), map_some]
  simp [hvalue]

theorem length_serializeInt (value : Int32) : (serializeInt value).length = 4 := by
  simp [serializeInt]

section RoundTrips

variable {ts : ℕ} {msg : Msg}

theorem setDataHwId_of_setMsg {hw : HwId} (h : setMsgModemHwId ts hw = some msg) :
    setDataHwId msg = some hw := by
  rw [setDataHwId, (msgPrepare_eq_some h).1]

theorem setDataFuseInfo_of_setMsg {fuse : FuseInfo} (h : setMsgFuseInfo ts fuse = some msg) :
    setDataFuseInfo msg = some fuse := by
  simp [setDataFuseInfo, (msgPrepare_eq_some h).1, fuse.length_id]

theorem setDataFwResult_of_setMsg {result : FwUpdateResult}
    (h : setMsgModemFwResult ts result = some msg) : setDataFwResult msg = some result := by
  have hread := readWord_encodeWord_append
    (toNumber_lt (ModemFwError.mem_all result.id) (by decide)) []
  rw [append_nil] at hread
  simp [setDataFwResult, (msgPrepare_eq_some h).1, hread,
    ofNumber_toNumber (ModemFwError.mem_all result.id)]

theorem setDataNvmResult_of_setMsg {result : NvmUpdateResult}
    (h : setMsgModemNvmResult ts result = some msg) : setDataNvmResult msg = some result := by
  have hread := readWord_encodeWord_append
    (toNumber_lt (ModemNvmError.mem_all result.id) (by decide)) (serializeInt result.subErrorCode)
  have hint := deserializeInt_serializeInt_append result.subErrorCode []
  rw [append_nil] at hint
  simp [setDataNvmResult, (msgPrepare_eq_some h).1, hread, hint, length_serializeInt,
    ofNumber_toNumber (ModemNvmError.mem_all result.id)]

theorem setDataCoreDump_of_setMsg {cd : CoreDump} (h : setMsgCoreDump ts cd = some msg) :
    setDataCoreDump msg = some cd := by
  obtain ⟨hdata, hlen⟩ := msgPrepare_eq_some h
  simp only [length_append, length_encodeWord] at hlen
  have hstate := toNumber_lt (CoreDumpState.mem_all cd.state) (by decide)
  have hpath : cd.path.length < 2 ^ 32 := by omega
  have hreason : cd.reason.length < 2 ^ 32 := by omega
  have hsum : (cd.path.length + cd.reason.length) % 2 ^ 32 = cd.path.length + cd.reason.length :=
    Nat.mod_eq_of_lt (by omega)
  have hrest := readBytes_append cd.reason []
  rw [append_nil] at hrest
  have hsize : msg.data.length = 12 + (cd.path.length + cd.reason.length) := by
    rw [hdata]
    simp only [length_append, length_encodeWord]
    omega
  have hmin : ¬ msg.data.length < 12 := by omega
  have hfit : ¬ (cd.path.length + cd.reason.length) % 2 ^ 32 ≠ msg.data.length - 12 := by omega
  have hfirst := readWord_encodeWord_append hstate (encodeWord cd.path.length ++
    (encodeWord cd.reason.length ++ (cd.path ++ cd.reason)))
  rw [← hdata] at hfirst
  rw [setDataCoreDump, if_neg hmin]
  refine bind_eq_some_iff.mpr ⟨_, hfirst, ?_⟩
  refine bind_eq_some_iff.mpr ⟨_, readWord_encodeWord_append hpath _, ?_⟩
  refine bind_eq_some_iff.mpr ⟨_, readWord_encodeWord_append hreason _, ?_⟩
  refine (if_neg hfit).trans ?_
  refine bind_eq_some_iff.mpr ⟨_, readBytes_append cd.path _, ?_⟩
  refine bind_eq_some_iff.mpr ⟨_, hrest, ?_⟩
  exact bind_eq_some_iff.mpr ⟨_, ofNumber_toNumber (CoreDumpState.mem_all cd.state), rfl⟩

theorem setDataTftEvent_of_setMsg {ev : TftEvent} (h : setMsgTftEvent ts ev = some msg) :
    setDataTftEvent msg = some ev := by
  unfold setMsgTftEvent at h
  split at h
  case isFalse => exact absurd h (by simp)
  case isTrue hdatas =>
    obtain ⟨hdata, hlen⟩ := msgPrepare_eq_some h
    simp only [tftEventPayload, length_append, length_encodeWord, length_encodeBuffer,
      length_serializeInt] at hlen
    have htype := toNumber_lt (EventType.mem_all ev.type) (by decide)
    have hname : ev.name.length < 2 ^ 32 := by omega
    have hnum : ev.data.length < 2 ^ 32 := by
      have hmax := hdatas.1
      simp only [maxTftEventData] at hmax
      omega
    have heach : ∀ d ∈ ev.data, d.length < 2 ^ 32 := by
      intro d hd
      have hmax := hdatas.2 d hd
      simp only [maxRecoveryCauseLen] at hmax
      omega
    have hrest := readBuffers_encodeBuffers_append heach []
    rw [append_nil] at hrest
    have hmin : ¬ msg.data.length < 16 := by
      rw [hdata]
      simp only [tftEventPayload, length_append, length_encodeWord, length_encodeBuffer,
        length_serializeInt]
      omega
    have hfirst := readWord_encodeWord_append htype (encodeBuffer ev.name ++
      (serializeInt ev.log ++ (encodeWord ev.data.length ++ encodeBuffers ev.data)))
    rw [← tftEventPayload, ← hdata] at hfirst
    rw [setDataTftEvent, if_neg hmin]
    refine bind_eq_some_iff.mpr ⟨_, hfirst, ?_⟩
    refine bind_eq_some_iff.mpr ⟨_, readBuffer_encodeBuffer_append hname _, ?_⟩
    refine bind_eq_some_iff.mpr ⟨_, deserializeInt_serializeInt_append ev.log _, ?_⟩
    refine bind_eq_some_iff.mpr ⟨_, readWord_encodeWord_append hnum _, ?_⟩
    refine bind_eq_some_iff.mpr ⟨_, hrest, ?_⟩
    exact bind_eq_some_iff.mpr ⟨_, ofNumber_toNumber (EventType.mem_all ev.type), rfl⟩

/-- A list of causes within the limits is sent as it is. -/
theorem recoveryCauses_ofCauses {causes : List Bytes} (hnum : causes.length ≤ maxRecoveryCauses)
    (hlen : ∀ c ∈ causes, c.length ≤ maxRecoveryCauseLen) :
    recoveryCauses (.ofCauses causes) = causes := by
  have hmod : causes.length * sizeofRecoveryCause % sizeofRecoveryCause = 0 := Nat.mul_mod_left ..
  have hdiv : causes.length * sizeofRecoveryCause / sizeofRecoveryCause = causes.length :=
    Nat.mul_div_cancel _ (by decide)
  have hmax : ¬ causes.length * sizeofRecoveryCause > maxRecoveryCauses * sizeofRecoveryCause :=
    Nat.not_lt.mpr (Nat.mul_le_mul_right _ hnum)
  have htake : (causes.map some).take causes.length = causes.map some :=
    take_of_length_le (by simp)
  have hall : (causes.map some).all (·.any (·.length ≤ maxRecoveryCauseLen)) = true := by
    simpa using hlen
  simp [recoveryCauses, RecoveryData.ofCauses, hmod, hmax, hdiv, htake, hall]

/-- The causes of a recovery come out of the reset notification that relays them. -/
theorem setDataApReset_of_setMsg {name : Bytes} {causes : List Bytes} {tsReq : ℕ} {req : Msg}
    (hnum : causes.length ≤ maxRecoveryCauses)
    (hlen : ∀ c ∈ causes, c.length ≤ maxRecoveryCauseLen)
    (hreq : setMsgRecovery tsReq (.ofCauses causes) = some req)
    (h : setMsgApReset ts ⟨name, req.data⟩ = some msg) :
    setDataApReset msg = some ⟨name, causes⟩ := by
  obtain ⟨hextra, -⟩ := msgPrepare_eq_some hreq
  obtain ⟨hdata, hsize⟩ := msgPrepare_eq_some h
  simp only [length_append, length_encodeBuffer] at hsize
  have hname : name.length < 2 ^ 32 := by omega
  rw [recoveryCauses_ofCauses hnum hlen] at hextra
  have hlength : msg.data.length = name.length + 4 + req.data.length := by
    simp [hdata]
  rw [encodeBuffer, append_assoc] at hdata
  have hfirst := readWord_encodeWord_append hname (name ++ req.data)
  rw [← hdata] at hfirst
  refine bind_eq_some_iff.mpr ⟨_, hfirst, ?_⟩
  refine bind_eq_some_iff.mpr ⟨_, readBytes_append name _, ?_⟩
  by_cases hnil : causes = []
  · -- the length of the message says that no cause follows
    rw [if_pos hnil] at hextra
    have hnone : decide (msg.data.length > name.length + 4) = false := by simp [hlength, hextra]
    refine bind_eq_some_iff.mpr ⟨(0, req.data), by simp [numCauseEntries, hnone], ?_⟩
    simp [readBuffers, hnil]
  · rw [if_neg hnil] at hextra
    have hsome : decide (msg.data.length > name.length + 4) = true := by simp [hlength, hextra]
    have hcount : causes.length < 2 ^ 32 := by
      simp only [maxRecoveryCauses] at hnum
      omega
    have heach : ∀ c ∈ causes, c.length < 2 ^ 32 := by
      intro c hc
      have hmax := hlen c hc
      simp only [maxRecoveryCauseLen] at hmax
      omega
    have hrest := readBuffers_encodeBuffers_append heach []
    rw [append_nil] at hrest
    have hread := readWord_encodeWord_append hcount (encodeBuffers causes)
    rw [← hextra] at hread
    refine bind_eq_some_iff.mpr ⟨_, (if_pos hsome).trans hread, ?_⟩
    exact bind_eq_some_iff.mpr ⟨_, hrest, rfl⟩

end RoundTrips

/-- Every value that a writer of the daemon accepts is read back by the library; the causes of a
recovery are read back from the reset notification, with the name of the client that asked for
it. -/
theorem payload_round_trip (ts : ℕ) (msg : Msg) :
    (∀ hw, setMsgModemHwId ts hw = some msg → setDataHwId msg = some hw) ∧
    (∀ fuse, setMsgFuseInfo ts fuse = some msg → setDataFuseInfo msg = some fuse) ∧
    (∀ cd, setMsgCoreDump ts cd = some msg → setDataCoreDump msg = some cd) ∧
    (∀ ev, setMsgTftEvent ts ev = some msg → setDataTftEvent msg = some ev) ∧
    (∀ result, setMsgModemFwResult ts result = some msg → setDataFwResult msg = some result) ∧
    (∀ result, setMsgModemNvmResult ts result = some msg → setDataNvmResult msg = some result) ∧
    ∀ name causes tsReq req, causes.length ≤ maxRecoveryCauses →
      (∀ c ∈ causes, c.length ≤ maxRecoveryCauseLen) →
      setMsgRecovery tsReq (.ofCauses causes) = some req →
      setMsgApReset ts ⟨name, req.data⟩ = some msg → setDataApReset msg = some ⟨name, causes⟩ :=
  ⟨fun _ => setDataHwId_of_setMsg, fun _ => setDataFuseInfo_of_setMsg,
    fun _ => setDataCoreDump_of_setMsg, fun _ => setDataTftEvent_of_setMsg,
    fun _ => setDataFwResult_of_setMsg, fun _ => setDataNvmResult_of_setMsg,
    fun _ _ _ _ => setDataApReset_of_setMsg⟩

/-- A message that can be prepared is read as its readers say. -/
theorem bind_eq_some_of_isSome {α : Type} {x : Option Msg} {f : Msg → Option α} {a : α}
    (hx : x.isSome = true) (h : ∀ msg, x = some msg → f msg = some a) : x.bind f = some a := by
  obtain ⟨msg, hmsg⟩ := isSome_iff_exists.mp hx
  exact bind_eq_some_iff.mpr ⟨msg, hmsg, h msg hmsg⟩

/-- One value of each kind; the recovery has two causes, one of them empty. -/
theorem payload_round_trip_values :
    (setMsgModemHwId 1 ⟨bytes "XMM6360"⟩).bind setDataHwId = some ⟨bytes "XMM6360"⟩ ∧
    (setMsgFuseInfo 1 ⟨bytes "0x1234567", by decide +kernel⟩).bind setDataFuseInfo =
      some ⟨bytes "0x1234567", by decide +kernel⟩ ∧
    (setMsgCoreDump 1 ⟨.succeed, bytes "/logs/cd.tar.gz", []⟩).bind setDataCoreDump =
      some ⟨.succeed, bytes "/logs/cd.tar.gz", []⟩ ∧
    (setMsgTftEvent 1 ⟨.error, bytes "TFT_ERROR_IPC", -1, [bytes "AP", []]⟩).bind
      setDataTftEvent = some ⟨.error, bytes "TFT_ERROR_IPC", -1, [bytes "AP", []]⟩ ∧
    (setMsgModemFwResult 1 ⟨.badFamily⟩).bind setDataFwResult = some ⟨.badFamily⟩ ∧
    (setMsgModemNvmResult 1 ⟨.fail, -7⟩).bind setDataNvmResult = some ⟨.fail, -7⟩ ∧
    (setMsgRecovery 1 (.ofCauses [bytes "AT timeout", []])).bind (fun req =>
      (setMsgApReset 2 ⟨bytes "RIL", req.data⟩).bind setDataApReset) =
        some ⟨bytes "RIL", [bytes "AT timeout", []]⟩ := by
  refine ⟨?_, ?_, ?_, ?_, ?_, ?_, ?_⟩
  · exact bind_eq_some_of_isSome (by decide +kernel)
      fun msg => (payload_round_trip 1 msg).1 _
  · exact bind_eq_some_of_isSome (by decide +kernel)
      fun msg => (payload_round_trip 1 msg).2.1 _
  · exact bind_eq_some_of_isSome (by decide +kernel)
      fun msg => (payload_round_trip 1 msg).2.2.1 _
  · exact bind_eq_some_of_isSome (by decide +kernel)
      fun msg => (payload_round_trip 1 msg).2.2.2.1 _
  · exact bind_eq_some_of_isSome (by decide)
      fun msg => (payload_round_trip 1 msg).2.2.2.2.1 _
  · exact bind_eq_some_of_isSome (by decide)
      fun msg => (payload_round_trip 1 msg).2.2.2.2.2.1 _
  · have hmsg : ((setMsgRecovery 1 (.ofCauses [bytes "AT timeout", []])).bind fun req =>
        setMsgApReset 2 ⟨bytes "RIL", req.data⟩).isSome = true := by decide +kernel
    obtain ⟨msg, hmsg⟩ := isSome_iff_exists.mp hmsg
    obtain ⟨req, hreq, hap⟩ := bind_eq_some_iff.mp hmsg
    have hdata := (payload_round_trip 2 msg).2.2.2.2.2.2 _ _ 1 req (by decide)
      (by decide +kernel) hreq hap
    exact bind_eq_some_iff.mpr ⟨req, hreq, bind_eq_some_iff.mpr ⟨msg, hap, hdata⟩⟩

end HardwareIntel.Mmgr
