import HardwareIntel.Library.Space
import HardwareIntel.Library.Wire

/-!
# Messages to the keymaster firmware

Each function writes a command into a buffer of 4000 bytes, sends it, and takes the response apart. All
lengths are added in 32 bits. `safe_iff` says for which lengths and which responses the buffers are
respected and what is returned is what the response announces.
-/

namespace HardwareIntel.Keymaster

/-- Addresses relative to the beginning of a buffer. -/
abbrev Offset := BitVec 32

/-- `INTEL_KEYMASTER_MAX_MESSAGE_SIZE`. -/
def maxMessageSize : ℕ := 4000

/-- A word as it lies in memory. -/
def wordBytes (v : BitVec 32) : List UInt8 := littleEndian 4 v.toNat

/-- What the functions find: no argument is `NULL`, the message buffers are allocated (with the first
contents of the command buffer), `malloc` of a size succeeds, and the steps of OpenSSL succeed. -/
structure Env where
  arguments : Bool
  buffers : Bool
  commandBuffer : Offset → UInt8
  malloc : BitVec 32 → Bool
  rsaNew : Bool
  binToBn : List UInt8 → Bool
  assignRsa : Bool

/-- What `sep_keymaster_send_cmd` leaves: its result, the length of the response, and the response buffer. -/
structure Reply where
  success : Bool
  rspLen : BitVec 32
  rspBuf : Offset → UInt8

/-- A word of the response. -/
def Reply.word (r : Reply) (pos : Offset) : BitVec 32 :=
  BitVec.ofNat 32 (ofLittleEndian (contents r.rspBuf pos 4))

def Reply.dataLength (r : Reply) : BitVec 32 := r.word 4
def Reply.result (r : Reply) : BitVec 32 := r.word 8

/-- The ranges that are read from the response, and what is returned on success. -/
structure Received where
  reads : List (Offset × ℕ)
  returned : Option (List (List UInt8))

/-- Failure. -/
def refused : Received := ⟨[], none⟩

/-- A read before the rest. -/
def Received.after (r : Received) (pos : Offset) (n : ℕ) : Received :=
  { r with reads := (pos, n) :: r.reads }

/-- The checks of the length of the response, of the length in it and of the result. -/
def checkResult (r : Reply) (lengthBad : BitVec 32 → Bool) (rest : Received) : Received :=
  if ¬ r.success then refused
  else if r.rspLen < 12 then refused
  else if lengthBad r.dataLength then refused.after 4 4
  else if r.result ≠ 0 then (refused.after 8 4).after 4 4
  else (rest.after 8 4).after 4 4

/-- `rsp_result_and_data_length` is at least the size of the result. -/
def tooSmall (n : BitVec 32) : Bool := n < 4

/-- A blob or a signature with its length. -/
def readBlob (env : Env) (r : Reply) : Received :=
  let length := r.word 12
  let rest :=
    if length = 0 then refused
    else if length + 4 + 4 ≠ r.dataLength then refused
    else if r.dataLength + 8 ≠ r.rspLen then refused
    else if ¬ env.malloc length then refused
    else ⟨[(16, length.toNat)], some [contents r.rspBuf 16 length.toNat]⟩
  rest.after 12 4

/-- The public key of `intel_keymaster_unwrap_key`. -/
def readPublicKey (env : Env) (r : Reply) : Received :=
  let modulusLength := r.word 16
  let exponentLength := r.word 20
  let modulus := contents r.rspBuf 24 modulusLength.toNat
  let exponent := contents r.rspBuf (24 + modulusLength) exponentLength.toNat
  let rest :=
    if modulusLength + exponentLength + 8 + 4 + 4 ≠ r.dataLength then refused
    else if r.dataLength + 8 ≠ r.rspLen then refused
    else if ¬ env.rsaNew then refused
    else if ¬ env.binToBn modulus then refused.after 24 modulusLength.toNat
    else if ¬ env.binToBn exponent ∨ ¬ env.assignRsa then
      (refused.after (24 + modulusLength) exponentLength.toNat).after 24 modulusLength.toNat
    else ⟨[(24, modulusLength.toNat), (24 + modulusLength, exponentLength.toNat)],
      some [modulus, exponent]⟩
  let lengths := if r.word 12 ≠ 1 then refused else (rest.after 20 4).after 16 4
  lengths.after 12 4

/-- Success without data. -/
def noData : Received := ⟨[], some []⟩

/-- What a function did: its writes to the command buffer, the command it sent, and what it took from the
response. -/
structure Outcome where
  writes : List (Store UInt8 32)
  sent : Option (List UInt8)
  received : Received

def Outcome.nothing : Outcome := ⟨[], none, refused⟩

/-- The command of a function: the words before the lengths, and the parts with their lengths. -/
def command (env : Env) (id : BitVec 32) (fixed : List (BitVec 32)) (parts : List (List UInt8))
    (received : Received) : Outcome :=
  let lengths := parts.map fun part => BitVec.ofNat 32 part.length
  let offset := BitVec.ofNat 32 (4 * fixed.length + 4 * lengths.length)
  let cmdDataLength := lengths.sum + offset
  let cmdLen := cmdDataLength + 8
  let header := [wordBytes id, wordBytes cmdDataLength]
  if ¬ env.buffers then .nothing
  else if cmdLen > BitVec.ofNat 32 maxMessageSize then ⟨placed 0 header, none, refused⟩
  else
    let writes := placed 0 (header ++ (fixed ++ lengths).map wordBytes ++ parts)
    ⟨writes, some (contents (stored env.commandBuffer writes) 0 cmdLen.toNat), received⟩

def intelKeymasterGenerateRsaKeypair (env : Env) (modulusSize : BitVec 32)
    (publicExponent : BitVec 64) (r : Reply) : Outcome :=
  let writes : List (Store UInt8 32) :=
    [⟨8, wordBytes 1⟩, ⟨12, wordBytes modulusSize⟩, ⟨16, wordBytes 0⟩,
      ⟨20, littleEndian 8 publicExponent.toNat⟩, ⟨0, wordBytes 1⟩, ⟨4, wordBytes (16 + 4)⟩]
  if ¬ env.arguments ∨ ¬ env.buffers then .nothing
  else
    ⟨writes, some (contents (stored env.commandBuffer writes) 0 (16 + 4 + 8)),
      checkResult r tooSmall (readBlob env r)⟩

/-- The modulus and the exponents as `BN_bn2bin` gives them. -/
def intelKeymasterImportRsaKeypair (env : Env) (n e d : List UInt8) (r : Reply) : Outcome :=
  if ¬ env.arguments then .nothing
  else command env 2 [1] [n, e, d] (checkResult r tooSmall (readBlob env r))

def intelKeymasterUnwrapKey (env : Env) (keyBlob : List UInt8) (r : Reply) : Outcome :=
  if ¬ env.arguments ∨ keyBlob.length = 0 then .nothing
  else command env 3 [] [keyBlob] (checkResult r tooSmall (readPublicKey env r))

def intelKeymasterSignRsa (env : Env) (keyBlob data : List UInt8) (r : Reply) : Outcome :=
  if ¬ env.arguments ∨ keyBlob.length = 0 ∨ data.length = 0 then .nothing
  else command env 6 [] [keyBlob, data] (checkResult r tooSmall (readBlob env r))

def intelKeymasterVerifyRsa (env : Env) (keyBlob signedData signature : List UInt8) (r : Reply) :
    Outcome :=
  if ¬ env.arguments ∨ keyBlob.length = 0 ∨ signedData.length = 0 ∨ signature.length = 0 then .nothing
  else command env 7 [] [keyBlob, signedData, signature] (checkResult r (· ≠ 4) noData)

def intelKeymasterDeleteKeypair (env : Env) (keyBlob : List UInt8) (r : Reply) : Outcome :=
  if ¬ env.arguments ∨ keyBlob.length = 0 then .nothing
  else command env 4 [] [keyBlob] (checkResult r tooSmall noData)

/-- The calls of the six functions. -/
inductive Request
  | generate (modulusSize : BitVec 32) (publicExponent : BitVec 64)
  | importKey (n e d : List UInt8)
  | unwrapKey (keyBlob : List UInt8)
  | sign (keyBlob data : List UInt8)
  | verify (keyBlob signedData signature : List UInt8)
  | delete (keyBlob : List UInt8)

def run (env : Env) (r : Reply) : Request → Outcome
  | .generate modulusSize publicExponent =>
    intelKeymasterGenerateRsaKeypair env modulusSize publicExponent r
  | .importKey n e d => intelKeymasterImportRsaKeypair env n e d r
  | .unwrapKey keyBlob => intelKeymasterUnwrapKey env keyBlob r
  | .sign keyBlob data => intelKeymasterSignRsa env keyBlob data r
  | .verify keyBlob signedData signature => intelKeymasterVerifyRsa env keyBlob signedData signature r
  | .delete keyBlob => intelKeymasterDeleteKeypair env keyBlob r

/-- A command with the parts and their true lengths. -/
def message (id : BitVec 32) (fixed : List (BitVec 32)) (parts : List (List UInt8)) : List UInt8 :=
  wordBytes id ++ littleEndian 4 (4 * fixed.length + 4 * parts.length + parts.flatten.length) ++
    (fixed.map wordBytes).flatten ++ (parts.map fun part => littleEndian 4 part.length).flatten ++
    parts.flatten

namespace Request

/-- The command that a call is to send. -/
def message : Request → List UInt8
  | .generate modulusSize publicExponent =>
    Keymaster.message 1 [1, modulusSize, 0, publicExponent.extractLsb' 0 32,
      publicExponent.extractLsb' 32 32] []
  | .importKey n e d => Keymaster.message 2 [1] [n, e, d]
  | .unwrapKey keyBlob => Keymaster.message 3 [] [keyBlob]
  | .sign keyBlob data => Keymaster.message 6 [] [keyBlob, data]
  | .verify keyBlob signedData signature => Keymaster.message 7 [] [keyBlob, signedData, signature]
  | .delete keyBlob => Keymaster.message 4 [] [keyBlob]

/-- What the response announces, with lengths that agree as numbers. -/
def Announced (r : Reply) (out : List (List UInt8)) : Request → Prop
  | .generate .. | .importKey .. | .sign .. =>
    (r.word 12).toNat + 8 = r.dataLength.toNat ∧
      out = [contents r.rspBuf 16 (r.word 12).toNat]
  | .unwrapKey _ =>
    r.word 12 = 1 ∧ (r.word 16).toNat + (r.word 20).toNat + 16 = r.dataLength.toNat ∧
      out = [contents r.rspBuf 24 (r.word 16).toNat,
        contents r.rspBuf (24 + r.word 16) (r.word 20).toNat]
  | .verify .. | .delete _ => out = []

end Request

/-- Only received bytes are read, and what is returned is announced by a consistent response. -/
structure Received.Safe (r : Reply) (announced : List (List UInt8) → Prop) (x : Received) : Prop where
  reads : ∀ range ∈ x.reads, Within range.1 range.2 r.rspLen.toNat
  returned : ∀ out ∈ x.returned,
    r.result = 0 ∧ r.dataLength.toNat + 8 = r.rspLen.toNat ∧ announced out

/-- The buffers are respected, the command is complete, and the response is used as it was meant. -/
structure Outcome.Safe (req : Request) (r : Reply) (o : Outcome) : Prop where
  writes : ∀ s ∈ o.writes, s.Within maxMessageSize
  sent : ∀ cmd ∈ o.sent, cmd = req.message
  received : o.received.Safe r fun out => req.Announced r out

/-- The response passes the checks of the header. -/
def Reply.Accepted (r : Reply) (lengthBad : BitVec 32 → Bool) : Prop :=
  r.success = true ∧ 12 ≤ r.rspLen.toNat ∧ lengthBad r.dataLength = false ∧ r.result = 0

namespace Request

/-- The function gets as far as writing its command. -/
def Started (env : Env) : Request → Prop
  | .generate .. | .importKey .. => env.arguments = true ∧ env.buffers = true
  | .unwrapKey keyBlob | .delete keyBlob =>
    env.arguments = true ∧ env.buffers = true ∧ keyBlob.length ≠ 0
  | .sign keyBlob data =>
    env.arguments = true ∧ env.buffers = true ∧ keyBlob.length ≠ 0 ∧ data.length ≠ 0
  | .verify keyBlob signedData signature =>
    env.arguments = true ∧ env.buffers = true ∧ keyBlob.length ≠ 0 ∧ signedData.length ≠ 0 ∧
      signature.length ≠ 0

/-- The condition on the response. -/
def ReplyFits (env : Env) (r : Reply) : Request → Prop
  | .generate .. | .importKey .. | .sign .. => r.Accepted tooSmall → 16 ≤ r.rspLen.toNat
  | .unwrapKey _ =>
    r.Accepted tooSmall → 16 ≤ r.rspLen.toNat ∧ (r.word 12 = 1 → 24 ≤ r.rspLen.toNat ∧
      ((r.word 16).toNat + (r.word 20).toNat + 16 < 2 ^ 32 ∨
        ((r.word 16).toNat + (r.word 20).toNat + 16) % 2 ^ 32 ≠ r.dataLength.toNat ∨
        r.dataLength.toNat + 8 ≠ r.rspLen.toNat ∨ env.rsaNew = false))
  | .verify .. => r.Accepted (· ≠ 4) → r.rspLen.toNat = 12
  | .delete _ => r.Accepted tooSmall → r.dataLength.toNat + 8 = r.rspLen.toNat

/-- The condition on a call: nothing is sent, or the command fits without wrapping and the response is as
the function takes it to be. -/
def Fits (env : Env) (r : Reply) (req : Request) : Prop :=
  req.Started env → maxMessageSize < req.message.length % 2 ^ 32 ∨
    (req.message.length ≤ maxMessageSize ∧ req.ReplyFits env r)

end Request

end HardwareIntel.Keymaster
