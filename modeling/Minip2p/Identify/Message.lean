import Minip2p.Core.Multiaddr
import Minip2p.Core.Wire

/-!
# Identify messages

The protobuf codec of `crates/identify/src/message.rs`. An index into the message never passes
its end here, so a slice is a `drop` and a `take`; `usize` is 64 bits wide and the cast of a
declared length keeps its value.
-/

namespace Minip2p.Identify

def fieldPublicKey : UInt64 := 1
def fieldListenAddrs : UInt64 := 2
def fieldProtocols : UInt64 := 3
def fieldObservedAddr : UInt64 := 4
def fieldProtocolVersion : UInt64 := 5
def fieldAgentVersion : UInt64 := 6

/-- The one-byte tag of a length-delimited field. -/
def tagOf (fieldNumber : UInt64) : UInt8 := (fieldNumber.toUInt8 <<< 3) ||| wireLen

/-- The decoded identify message exchanged between peers. -/
structure IdentifyMessage where
  publicKey : Option Bytes := none
  listenAddrs : List Bytes := []
  protocols : List String := []
  observedAddr : Option Bytes := none
  protocolVersion : Option String := none
  agentVersion : Option String := none
deriving DecidableEq, Repr, Inhabited

/-- Errors that can occur during identify message decoding. -/
inductive IdentifyMessageError
  | varint (error : VarintError)
  | fieldOverflow (offset length remaining : Nat)
  | invalidUtf8 (fieldNumber : UInt64)
  | unsupportedWireType (wireType : UInt8) (offset : Nat)
deriving DecidableEq, Repr

/-- The `Display` text. -/
def IdentifyMessageError.display : IdentifyMessageError → String
  | varint error => "varint error: " ++ error.display
  | fieldOverflow offset length remaining =>
    s!"field at offset {offset} has length {length} but only {remaining} bytes remain"
  | invalidUtf8 fieldNumber => s!"invalid UTF-8 in field {fieldNumber}"
  | unsupportedWireType wireType offset => s!"unsupported wire type {wireType} at offset {offset}"

/-! ## Encoding -/

/-- A length-delimited protobuf field: tag, varint length and bytes. -/
def encodeBytesField (tag : UInt8) (data : Bytes) : Bytes :=
  tag :: writeUvarint (UInt64.ofNat data.length) ++ data

/-- A field that is written only when it is set. -/
def encodeOptionalField (tag : UInt8) : Option Bytes → Bytes
  | some data => encodeBytesField tag data
  | none => []

/-- Encodes the message, its fields in field-number order. -/
def IdentifyMessage.encode (msg : IdentifyMessage) : Bytes :=
  encodeOptionalField (tagOf fieldPublicKey) msg.publicKey ++
  msg.listenAddrs.flatMap (encodeBytesField (tagOf fieldListenAddrs)) ++
  msg.protocols.flatMap (fun p => encodeBytesField (tagOf fieldProtocols) (asBytes p)) ++
  encodeOptionalField (tagOf fieldObservedAddr) msg.observedAddr ++
  encodeOptionalField (tagOf fieldProtocolVersion) (msg.protocolVersion.map asBytes) ++
  encodeOptionalField (tagOf fieldAgentVersion) (msg.agentVersion.map asBytes)

/-! ## Decoding -/

/-- `read_uvarint(&input[*idx..])?`, then `*idx += used`. -/
def readVarint (input : Bytes) (idx : Nat) : Except IdentifyMessageError (UInt64 × Nat) :=
  match readUvarint (input.drop idx) with
  | .error e => .error (.varint e)
  | .ok (value, used) => .ok (value, idx + used)

/-- Reads a length-delimited value at `idx`; returns it with the index after it. -/
def readLenDelimited (input : Bytes) (idx : Nat) : Except IdentifyMessageError (Bytes × Nat) := do
  let (length, idx) ← readVarint input idx
  let length := length.toNat
  let remaining := input.length - idx
  if length > remaining then throw (.fieldOverflow idx length remaining)
  else return ((input.drop idx).take length, idx + length)

/-- Skips `size` bytes. -/
def skipFixed (size : Nat) (input : Bytes) (idx : Nat) : Except IdentifyMessageError Nat :=
  if idx + size > input.length then .error (.fieldOverflow idx size (input.length - idx))
  else .ok (idx + size)

/-- `core::str::from_utf8` on the value of a string field. -/
def readString (fieldNumber : UInt64) (value : Bytes) : Except IdentifyMessageError String :=
  match fromUtf8 value with
  | .ok s => .ok s
  | .error _ => .error (.invalidUtf8 fieldNumber)

/-- Stores the value of a length-delimited field; unknown fields are skipped. -/
def setField (msg : IdentifyMessage) (fieldNumber : UInt64) (value : Bytes) :
    Except IdentifyMessageError IdentifyMessage :=
  if fieldNumber = fieldPublicKey then .ok { msg with publicKey := some value }
  else if fieldNumber = fieldListenAddrs then
    .ok { msg with listenAddrs := msg.listenAddrs ++ [value] }
  else if fieldNumber = fieldProtocols then do
    let s ← readString fieldNumber value
    return { msg with protocols := msg.protocols ++ [s] }
  else if fieldNumber = fieldObservedAddr then .ok { msg with observedAddr := some value }
  else if fieldNumber = fieldProtocolVersion then do
    let s ← readString fieldNumber value
    return { msg with protocolVersion := some s }
  else if fieldNumber = fieldAgentVersion then do
    let s ← readString fieldNumber value
    return { msg with agentVersion := some s }
  else .ok msg

/-- Reads one field into the message, given its number, its wire type and the index after its
tag; returns the index after the field. -/
def decodeField (input : Bytes) (fieldNumber : UInt64) (wireType : UInt8) (msg : IdentifyMessage)
    (idx : Nat) : Except IdentifyMessageError (IdentifyMessage × Nat) :=
  if wireType = wireLen then do
    let (value, idx) ← readLenDelimited input idx
    let msg ← setField msg fieldNumber value
    return (msg, idx)
  else if wireType = wireVarint then do
    let (_, idx) ← readVarint input idx
    return (msg, idx)
  else if wireType = wireI32 then do
    let idx ← skipFixed 4 input idx
    return (msg, idx)
  else if wireType = wireI64 then do
    let idx ← skipFixed 8 input idx
    return (msg, idx)
  else throw (.unsupportedWireType wireType idx)

/-- The loop of `decode`. Every turn reads at least the byte of a tag, so `input.length` turns
are enough. -/
def decodeGo (input : Bytes) :
    Nat → IdentifyMessage → Nat → Except IdentifyMessageError IdentifyMessage
  | 0, msg, _ => .ok msg
  | fuel + 1, msg, idx =>
    if idx ≥ input.length then .ok msg
    else do
      let (tagValue, idx) ← readVarint input idx
      let (msg, idx) ←
        decodeField input (tagValue >>> 3) (tagValue &&& 0x07).toUInt8 msg idx
      decodeGo input fuel msg idx

/-- Decodes a message from protobuf binary format. -/
def IdentifyMessage.decode (input : Bytes) : Except IdentifyMessageError IdentifyMessage :=
  decodeGo input input.length default 0

/-! ## Framing -/

/-- Prepends a varint length prefix to an encoded payload. -/
def encodeLengthPrefixed (payload : Bytes) : Bytes :=
  writeUvarint (UInt64.ofNat payload.length) ++ payload

/-- Strips the varint length prefix from a framed buffer and returns the body. -/
def decodeLengthPrefixed (buf : Bytes) : Except IdentifyMessageError Bytes :=
  match readUvarint buf with
  | .error e => .error (.varint e)
  | .ok (len, consumed) =>
    let len := len.toNat
    let remaining := buf.length - consumed
    if len > remaining then .error (.fieldOverflow consumed len remaining)
    else .ok ((buf.drop consumed).take len)

end Minip2p.Identify
