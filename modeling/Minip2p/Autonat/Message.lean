import Minip2p.Core.Multiaddr
import Minip2p.Core.Wire

/-!
# AutoNAT messages

The protobuf codec and the frames of `crates/autonat/src/lib.rs`. A message carries a DIAL, which
carries a peer, or a DIAL_RESPONSE. The four decoders share their loop and what they do with fields
they do not know.
-/

namespace Minip2p.Autonat

/-- Maximum size for one AutoNAT frame. -/
def maxMessageSize : Nat := 8192

/-- Top-level AutoNAT message type. -/
inductive MessageType
  | dial
  | dialResponse
deriving DecidableEq, Repr

namespace MessageType

/-- The number of a message type. -/
def toU64 : MessageType → UInt64
  | dial => 0
  | dialResponse => 1

/-- The message type with a number. -/
def fromU64 (value : UInt64) : Option MessageType :=
  if value = 0 then some dial
  else if value = 1 then some dialResponse
  else none

end MessageType

/-- AutoNAT response status. -/
inductive ResponseStatus
  | ok
  | dialError
  | dialRefused
  | badRequest
  | internalError
deriving DecidableEq, Repr

namespace ResponseStatus

/-- The number of a status. -/
def toU64 : ResponseStatus → UInt64
  | ok => 0
  | dialError => 100
  | dialRefused => 101
  | badRequest => 200
  | internalError => 300

/-- A status that is not known is an internal error. -/
def fromU64 (value : UInt64) : ResponseStatus :=
  if value = 0 then ok
  else if value = 100 then dialError
  else if value = 101 then dialRefused
  else if value = 200 then badRequest
  else internalError

end ResponseStatus

/-- The peer that asks, and its addresses. -/
structure PeerInfo where
  id : Bytes
  addrs : List Bytes
deriving DecidableEq, Repr

/-- A request to be dialed back. -/
structure Dial where
  peer : Option PeerInfo
deriving DecidableEq, Repr

/-- What the server has found out. -/
structure DialResponse where
  status : ResponseStatus
  statusText : Option String
  addrs : List Bytes
deriving DecidableEq, Repr

/-- A message: a request or a response. -/
structure Message where
  kind : MessageType
  dial : Option Dial
  dialResponse : Option DialResponse
deriving DecidableEq, Repr

/-- AutoNAT state-machine and message errors. -/
inductive AutoNatError
  | messageTooLarge (len : Nat)
  | frameTooLarge (len : Nat)
  | varint (error : VarintError)
  | fieldOverflow (offset length remaining : Nat)
  | unsupportedWireType (wireType : UInt8) (offset : Nat)
  | missingType
  | invalidMessageType (value : UInt64)
  | missingField (field : String)
  | unexpectedMessage (reason : String)
  | invalidPeerId (reason : String)
deriving DecidableEq, Repr

/-- The `Display` text. -/
def AutoNatError.display : AutoNatError → String
  | messageTooLarge len => s!"AutoNAT message exceeds maximum size ({len} > {maxMessageSize})"
  | frameTooLarge len => s!"AutoNAT frame length exceeds maximum size ({len} > {maxMessageSize})"
  | varint error => "varint error: " ++ error.display
  | fieldOverflow offset length remaining =>
    s!"field at offset {offset} claims length {length} but only {remaining} bytes remain"
  | unsupportedWireType wireType offset => s!"unsupported wire type {wireType} at offset {offset}"
  | missingType => "required `type` field missing"
  | invalidMessageType value => s!"invalid message type value: {value}"
  | missingField field => s!"required field missing: {field}"
  | unexpectedMessage reason => s!"unexpected message: {reason}"
  | invalidPeerId reason => s!"invalid peer id in AutoNAT message: {reason}"

instance : WireError AutoNatError where
  varint := .varint
  fieldOverflow := .fieldOverflow
  unsupportedWireType := .unsupportedWireType

/-! ## Encoding -/

def tagType : UInt8 := ((1 : UInt8) <<< 3) ||| wireVarint
def tagDial : UInt8 := ((2 : UInt8) <<< 3) ||| wireLen
def tagDialResponse : UInt8 := ((3 : UInt8) <<< 3) ||| wireLen
def tagPeer : UInt8 := ((1 : UInt8) <<< 3) ||| wireLen
def tagPeerId : UInt8 := ((1 : UInt8) <<< 3) ||| wireLen
def tagPeerAddrs : UInt8 := ((2 : UInt8) <<< 3) ||| wireLen
def tagStatus : UInt8 := ((1 : UInt8) <<< 3) ||| wireVarint
def tagStatusText : UInt8 := ((2 : UInt8) <<< 3) ||| wireLen
def tagResponseAddrs : UInt8 := ((3 : UInt8) <<< 3) ||| wireLen

/-- A varint field behind its tag. -/
def encodeVarintField (tag : UInt8) (value : UInt64) : Bytes := tag :: writeUvarint value

/-- A length-delimited field behind its tag. -/
def encodeBytesField (tag : UInt8) (data : Bytes) : Bytes :=
  tag :: (writeUvarint (UInt64.ofNat data.length) ++ data)

/-- A field that is written only when it is set. -/
def encodeOptionalField (tag : UInt8) : Option Bytes → Bytes
  | some data => encodeBytesField tag data
  | none => []

/-- The protobuf of a peer. -/
def PeerInfo.encode (peer : PeerInfo) : Bytes :=
  encodeBytesField tagPeerId peer.id ++ peer.addrs.flatMap (encodeBytesField tagPeerAddrs)

/-- The protobuf of a request. -/
def Dial.encode (dial : Dial) : Bytes :=
  encodeOptionalField tagPeer (dial.peer.map PeerInfo.encode)

/-- The protobuf of a response. -/
def DialResponse.encode (response : DialResponse) : Bytes :=
  encodeVarintField tagStatus response.status.toU64 ++
    encodeOptionalField tagStatusText (response.statusText.map asBytes) ++
    response.addrs.flatMap (encodeBytesField tagResponseAddrs)

/-- The protobuf of a message. -/
def Message.encode (msg : Message) : Bytes :=
  encodeVarintField tagType msg.kind.toU64 ++
    encodeOptionalField tagDial (msg.dial.map Dial.encode) ++
    encodeOptionalField tagDialResponse (msg.dialResponse.map DialResponse.encode)

/-! ## Decoding -/

/-- The loop of `String::from_utf8_lossy`: each invalid sequence becomes U+FFFD, and at least one
byte is behind it. -/
def fromUtf8LossyGo : Nat → Bytes → String
  | 0, _ => ""
  | fuel + 1, bytes =>
    match fromUtf8 bytes with
    | .ok text => text
    | .error e =>
      let valid := (fromUtf8 (bytes.take e.validUpTo)).toOption.getD ""
      match e.errorLen with
      | none => valid ++ "\uFFFD"
      | some n => valid ++ "\uFFFD" ++ fromUtf8LossyGo fuel (bytes.drop (e.validUpTo + n))

/-- `String::from_utf8_lossy`. -/
def fromUtf8Lossy (bytes : Bytes) : String := fromUtf8LossyGo (bytes.length + 1) bytes

/-- Reads the next tag; there is no field with the number 0. -/
def readTag (input : Bytes) (idx : Nat) :
    Fallible AutoNatError (Option ((UInt64 × UInt8) × Nat)) := do
  match ← Wire.readTag input idx with
  | none => return none
  | some ((fieldNumber, wireType), next) =>
    if fieldNumber = 0 then throw (.unsupportedWireType wireType idx)
    else return some ((fieldNumber, wireType), next)

/-- A field that is not known. -/
def skipField {σ : Type} (input : Bytes) (wireType : UInt8) (msg : σ) (idx : Nat) :
    Fallible AutoNatError (σ × Nat) := do
  if wireType = wireLen then
    let (_, idx) ← Wire.readLenDelimited input idx
    return (msg, idx)
  else if wireType = wireVarint then
    let (_, idx) ← Wire.readVarintValue input idx
    return (msg, idx)
  else throw (.unsupportedWireType wireType idx)

/-- The loop over the fields of a message. Every turn reads at least the byte of a tag, so
`input.length + 1` turns are enough. -/
def decodeFieldsGo {σ : Type} (field : Wire.FieldReader AutoNatError σ) (input : Bytes) :
    Nat → σ → Nat → Fallible AutoNatError σ
  | 0, _, _ => liftM (Except.error Panic.diverged : Exec σ)
  | fuel + 1, msg, idx => do
    match ← readTag input idx with
    | none => return msg
    | some ((fieldNumber, wireType), idx) =>
      let (msg, idx) ← field input fieldNumber wireType msg idx
      decodeFieldsGo field input fuel msg idx

/-- Decodes the fields of `input` into `msg`. -/
def decodeFields {σ : Type} (field : Wire.FieldReader AutoNatError σ) (input : Bytes) (msg : σ) :
    Fallible AutoNatError σ :=
  decodeFieldsGo field input (input.length + 1) msg 0

namespace PeerInfo

/-- Reads one field of a peer. -/
def readField : Wire.FieldReader AutoNatError PeerInfo :=
  fun input fieldNumber wireType peer idx => do
    if fieldNumber = 1 ∧ wireType = wireLen then
      let (id, idx) ← Wire.readLenDelimited input idx
      return ({ peer with id }, idx)
    else if fieldNumber = 2 ∧ wireType = wireLen then
      let (addr, idx) ← Wire.readLenDelimited input idx
      return ({ peer with addrs := peer.addrs ++ [addr] }, idx)
    else skipField input wireType peer idx

/-- Reads a peer. -/
def decode (input : Bytes) : Fallible AutoNatError PeerInfo := decodeFields readField input ⟨[], []⟩

end PeerInfo

namespace Dial

/-- Reads one field of a request. -/
def readField : Wire.FieldReader AutoNatError Dial :=
  fun input fieldNumber wireType dial idx => do
    if fieldNumber = 1 ∧ wireType = wireLen then
      let (body, idx) ← Wire.readLenDelimited input idx
      let peer ← PeerInfo.decode body
      return (⟨some peer⟩, idx)
    else skipField input wireType dial idx

/-- Reads a request. -/
def decode (input : Bytes) : Fallible AutoNatError Dial := decodeFields readField input ⟨none⟩

end Dial

namespace DialResponse

/-- Reads one field of a response. -/
def readField : Wire.FieldReader AutoNatError DialResponse :=
  fun input fieldNumber wireType response idx => do
    if fieldNumber = 1 ∧ wireType = wireVarint then
      let (value, idx) ← Wire.readVarintValue input idx
      return ({ response with status := .fromU64 value }, idx)
    else if fieldNumber = 2 ∧ wireType = wireLen then
      let (text, idx) ← Wire.readLenDelimited input idx
      return ({ response with statusText := some (fromUtf8Lossy text) }, idx)
    else if fieldNumber = 3 ∧ wireType = wireLen then
      let (addr, idx) ← Wire.readLenDelimited input idx
      return ({ response with addrs := response.addrs ++ [addr] }, idx)
    else skipField input wireType response idx

/-- A response without a status is an internal error. -/
def decode (input : Bytes) : Fallible AutoNatError DialResponse :=
  decodeFields readField input ⟨.internalError, none, []⟩

end DialResponse

/-- The fields of a message read so far. -/
structure MessageFields where
  kind : Option MessageType
  dial : Option Dial
  dialResponse : Option DialResponse

namespace Message

/-- Reads one field of a message. -/
def readField : Wire.FieldReader AutoNatError MessageFields :=
  fun input fieldNumber wireType msg idx => do
    if fieldNumber = 1 ∧ wireType = wireVarint then
      let (value, idx) ← Wire.readVarintValue input idx
      match MessageType.fromU64 value with
      | none => throw (.invalidMessageType value)
      | some kind => return ({ msg with kind := some kind }, idx)
    else if fieldNumber = 2 ∧ wireType = wireLen then
      let (body, idx) ← Wire.readLenDelimited input idx
      let dial ← Dial.decode body
      return ({ msg with dial := some dial }, idx)
    else if fieldNumber = 3 ∧ wireType = wireLen then
      let (body, idx) ← Wire.readLenDelimited input idx
      let dialResponse ← DialResponse.decode body
      return ({ msg with dialResponse := some dialResponse }, idx)
    else skipField input wireType msg idx

/-- Reads a message; only its type has to be there. -/
def decode (input : Bytes) : Fallible AutoNatError Message := do
  let fields ← decodeFields readField input ⟨none, none, none⟩
  match fields.kind with
  | none => throw .missingType
  | some kind => return ⟨kind, fields.dial, fields.dialResponse⟩

end Message

/-! ## Frames -/

/-- Frame decode result for varint-length-prefixed AutoNAT messages. -/
inductive FrameDecode
  | complete (payload : Bytes) (consumed : Nat)
  | incomplete
  | tooLarge (len : Nat)
  | error (error : VarintError)
deriving DecidableEq, Repr

/-- Encodes a protobuf message body with a varint length prefix. -/
def encodeFrame (payload : Bytes) : Bytes :=
  writeUvarint (UInt64.ofNat payload.length) ++ payload

/-- Decodes a varint-length-prefixed frame from `input`. -/
def decodeFrame (input : Bytes) : Exec FrameDecode :=
  match readUvarint input with
  | .error .bufferTooShort => .ok .incomplete
  | .error e => .ok (.error e)
  | .ok (len, used) => do
    let len := len.toNat
    if len > maxMessageSize then return .tooLarge len
    else
      -- `saturating_add`
      let stop := min (used + len) (2 ^ 64 - 1)
      if input.length < stop then return .incomplete
      else
        let payload ← Exec.slice input used stop
        return .complete payload stop

end Minip2p.Autonat
