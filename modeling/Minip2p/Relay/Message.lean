import Minip2p.Core.WireTheorems

/-!
# Circuit Relay v2 messages

The protobuf codec of `crates/relay/src/message.rs`: the HOP and STOP messages with their nested
`Peer`, `Reservation` and `Limit`, and the frame around them. The decoders run in `Fallible`, so
an index or a sum that leaves its range is a panic of the model; `_safe` lemmas show that none
does.
-/

namespace Minip2p.Relay

/-! ## Enums -/

/-- HopMessage type. -/
inductive HopMessageType
  | reserve
  | connect
  | status
deriving DecidableEq, Repr

namespace HopMessageType

/-- The number of a HOP message type. -/
def toU64 : HopMessageType → UInt64
  | reserve => 0
  | connect => 1
  | status => 2

/-- The HOP message type with a number. -/
def fromU64 (value : UInt64) : Option HopMessageType :=
  if value = 0 then some reserve
  else if value = 1 then some connect
  else if value = 2 then some status
  else none

/-- The `Debug` text. -/
def debug : HopMessageType → String
  | reserve => "Reserve"
  | connect => "Connect"
  | status => "Status"

end HopMessageType

/-- StopMessage type. -/
inductive StopMessageType
  | connect
  | status
deriving DecidableEq, Repr

namespace StopMessageType

/-- The number of a STOP message type. -/
def toU64 : StopMessageType → UInt64
  | connect => 0
  | status => 1

/-- The STOP message type with a number. -/
def fromU64 (value : UInt64) : Option StopMessageType :=
  if value = 0 then some connect
  else if value = 1 then some status
  else none

/-- The `Debug` text. -/
def debug : StopMessageType → String
  | connect => "Connect"
  | status => "Status"

end StopMessageType

/-- Status codes shared by HopMessage and StopMessage. -/
inductive Status
  | unused
  | ok
  | reservationRefused
  | resourceLimitExceeded
  | permissionDenied
  | connectionFailed
  | noReservation
  | malformedMessage
  | unexpectedMessage
deriving DecidableEq, Repr

namespace Status

/-- The number of a status. -/
def toU64 : Status → UInt64
  | unused => 0
  | ok => 100
  | reservationRefused => 200
  | resourceLimitExceeded => 201
  | permissionDenied => 202
  | connectionFailed => 203
  | noReservation => 204
  | malformedMessage => 400
  | unexpectedMessage => 401

/-- Unknown codes map to `unused`. -/
def fromU64 (value : UInt64) : Status :=
  if value = 100 then ok
  else if value = 200 then reservationRefused
  else if value = 201 then resourceLimitExceeded
  else if value = 202 then permissionDenied
  else if value = 203 then connectionFailed
  else if value = 204 then noReservation
  else if value = 400 then malformedMessage
  else if value = 401 then unexpectedMessage
  else unused

/-- A human-readable name. -/
def asName : Status → String
  | unused => "UNUSED"
  | ok => "OK"
  | reservationRefused => "RESERVATION_REFUSED"
  | resourceLimitExceeded => "RESOURCE_LIMIT_EXCEEDED"
  | permissionDenied => "PERMISSION_DENIED"
  | connectionFailed => "CONNECTION_FAILED"
  | noReservation => "NO_RESERVATION"
  | malformedMessage => "MALFORMED_MESSAGE"
  | unexpectedMessage => "UNEXPECTED_MESSAGE"

end Status

/-- A human-readable description of a status response. -/
def describeStatus : Status → String
  | .ok => "OK"
  | other => s!"{other.asName} ({other.toU64})"

/-! ## Messages -/

/-- `Peer` message: a remote peer by id and addresses. -/
structure Peer where
  id : Bytes
  addrs : List Bytes
deriving DecidableEq, Repr

/-- `Reservation` message: returned by the relay after a successful RESERVE. -/
structure Reservation where
  expire : Option UInt64
  addrs : List Bytes
  voucher : Option Bytes
deriving DecidableEq, Repr

/-- `Limit` message: constraints on a relayed connection. -/
structure Limit where
  duration : Option UInt32
  data : Option UInt64
deriving DecidableEq, Repr

/-- `HopMessage`: client <-> relay protocol messages. -/
structure HopMessage where
  kind : HopMessageType
  peer : Option Peer
  reservation : Option Reservation
  limit : Option Limit
  status : Option Status
deriving DecidableEq, Repr

/-- `StopMessage`: relay <-> destination protocol messages. -/
structure StopMessage where
  kind : StopMessageType
  peer : Option Peer
  limit : Option Limit
  status : Option Status
deriving DecidableEq, Repr

/-- Errors that can occur while decoding relay messages. -/
inductive RelayMessageError
  | varint (error : VarintError)
  | fieldOverflow (offset length remaining : Nat)
  | unsupportedWireType (wireType : UInt8) (offset : Nat)
  | missingType
  | invalidMessageType (value : UInt64)
deriving DecidableEq, Repr

instance : WireError RelayMessageError where
  varint := .varint
  fieldOverflow := .fieldOverflow
  unsupportedWireType := .unsupportedWireType

/-! ## Encoders -/

/-- The tag byte of a field number below 16. -/
def tagByte (field wireType : UInt8) : UInt8 := (field <<< 3) ||| wireType

/-- A varint field behind its tag. -/
def encodeVarintField (tag : UInt8) (value : UInt64) : Bytes :=
  tag :: writeUvarint value

/-- A length-delimited field behind its tag. -/
def encodeBytesField (tag : UInt8) (data : Bytes) : Bytes :=
  tag :: (writeUvarint (UInt64.ofNat data.length) ++ data)

/-- The encoding of an optional field; nothing when it is absent. -/
def encodeOption {α : Type} (encode : α → Bytes) : Option α → Bytes
  | none => []
  | some value => encode value

namespace Peer

/-- The protobuf of a peer. -/
def encode (peer : Peer) : Bytes :=
  (if peer.id.isEmpty then [] else encodeBytesField (tagByte 1 wireLen) peer.id) ++
    peer.addrs.flatMap (encodeBytesField (tagByte 2 wireLen))

end Peer

namespace Reservation

/-- The protobuf of a reservation. -/
def encode (reservation : Reservation) : Bytes :=
  encodeOption (encodeVarintField (tagByte 1 wireVarint)) reservation.expire ++
    reservation.addrs.flatMap (encodeBytesField (tagByte 2 wireLen)) ++
    encodeOption (encodeBytesField (tagByte 3 wireLen)) reservation.voucher

end Reservation

namespace Limit

/-- The protobuf of a limit. -/
def encode (limit : Limit) : Bytes :=
  encodeOption (fun duration => encodeVarintField (tagByte 1 wireVarint) duration.toUInt64)
      limit.duration ++
    encodeOption (encodeVarintField (tagByte 2 wireVarint)) limit.data

end Limit

namespace HopMessage

/-- The protobuf of a HOP message. -/
def encode (msg : HopMessage) : Bytes :=
  encodeVarintField (tagByte 1 wireVarint) msg.kind.toU64 ++
    encodeOption (fun peer => encodeBytesField (tagByte 2 wireLen) peer.encode) msg.peer ++
    encodeOption (fun reservation => encodeBytesField (tagByte 3 wireLen) reservation.encode)
      msg.reservation ++
    encodeOption (fun limit => encodeBytesField (tagByte 4 wireLen) limit.encode) msg.limit ++
    encodeOption (fun status => encodeVarintField (tagByte 5 wireVarint) status.toU64) msg.status

end HopMessage

namespace StopMessage

/-- The protobuf of a STOP message. -/
def encode (msg : StopMessage) : Bytes :=
  encodeVarintField (tagByte 1 wireVarint) msg.kind.toU64 ++
    encodeOption (fun peer => encodeBytesField (tagByte 2 wireLen) peer.encode) msg.peer ++
    encodeOption (fun limit => encodeBytesField (tagByte 3 wireLen) limit.encode) msg.limit ++
    encodeOption (fun status => encodeVarintField (tagByte 4 wireVarint) status.toU64) msg.status

end StopMessage

/-! ## Decoders -/

/-- The relay's `Result` type, with panics. -/
abbrev Decode := Fallible RelayMessageError

/-- Reads a varint at `idx`; returns it with the index after it. -/
def readVarintValue (input : Bytes) (idx : Nat) : Decode (UInt64 × Nat) :=
  Wire.readVarintValue input idx

/-- Reads a length-delimited value at `idx`; returns it with the index after it. -/
def readLenDelimited (input : Bytes) (idx : Nat) : Decode (Bytes × Nat) :=
  Wire.readLenDelimited input idx

/-- Skips over an unknown field based on its wire type. -/
def skipUnknownField (input : Bytes) (idx : Nat) (wireType : UInt8) : Decode Nat := do
  if wireType = wireVarint then
    let (_, idx) ← readVarintValue input idx
    return idx
  else if wireType = wireLen then Wire.skipLen input idx
  else if wireType = wireI32 then Wire.skipFixed 4 input idx
  else if wireType = wireI64 then Wire.skipFixed 8 input idx
  else throw (.unsupportedWireType wireType idx)

namespace Peer

/-- Reads one field of a peer. -/
def readField : Wire.FieldReader RelayMessageError Peer := fun input field wireType msg idx => do
  if field = 1 ∧ wireType = wireLen then
    let (id, idx) ← readLenDelimited input idx
    return ({ msg with id }, idx)
  else if field = 2 ∧ wireType = wireLen then
    let (addr, idx) ← readLenDelimited input idx
    return ({ msg with addrs := msg.addrs ++ [addr] }, idx)
  else
    let idx ← skipUnknownField input idx wireType
    return (msg, idx)

/-- Reads a peer. -/
def decode (input : Bytes) : Decode Peer := Wire.decodeFields readField input ⟨[], []⟩

end Peer

namespace Reservation

/-- Reads one field of a reservation. -/
def readField : Wire.FieldReader RelayMessageError Reservation :=
  fun input field wireType msg idx => do
    if field = 1 ∧ wireType = wireVarint then
      let (expire, idx) ← readVarintValue input idx
      return ({ msg with expire := some expire }, idx)
    else if field = 2 ∧ wireType = wireLen then
      let (addr, idx) ← readLenDelimited input idx
      return ({ msg with addrs := msg.addrs ++ [addr] }, idx)
    else if field = 3 ∧ wireType = wireLen then
      let (voucher, idx) ← readLenDelimited input idx
      return ({ msg with voucher := some voucher }, idx)
    else
      let idx ← skipUnknownField input idx wireType
      return (msg, idx)

/-- Reads a reservation. -/
def decode (input : Bytes) : Decode Reservation :=
  Wire.decodeFields readField input ⟨none, [], none⟩

end Reservation

namespace Limit

/-- Reads one field of a limit. -/
def readField : Wire.FieldReader RelayMessageError Limit := fun input field wireType msg idx => do
  if field = 1 ∧ wireType = wireVarint then
    let (duration, idx) ← readVarintValue input idx
    -- `as u32` keeps the low half
    return ({ msg with duration := some duration.toUInt32 }, idx)
  else if field = 2 ∧ wireType = wireVarint then
    let (data, idx) ← readVarintValue input idx
    return ({ msg with data := some data }, idx)
  else
    let idx ← skipUnknownField input idx wireType
    return (msg, idx)

/-- Reads a limit. -/
def decode (input : Bytes) : Decode Limit := Wire.decodeFields readField input ⟨none, none⟩

end Limit

/-- The fields of a HOP message read so far. -/
structure HopFields where
  kind : Option HopMessageType
  peer : Option Peer
  reservation : Option Reservation
  limit : Option Limit
  status : Option Status

namespace HopMessage

/-- Reads one field of a HOP message. -/
def readField : Wire.FieldReader RelayMessageError HopFields :=
  fun input field wireType msg idx => do
    if field = 1 ∧ wireType = wireVarint then
      let (value, idx) ← readVarintValue input idx
      match HopMessageType.fromU64 value with
      | none => throw (.invalidMessageType value)
      | some kind => return ({ msg with kind := some kind }, idx)
    else if field = 2 ∧ wireType = wireLen then
      let (body, idx) ← readLenDelimited input idx
      let peer ← Peer.decode body
      return ({ msg with peer := some peer }, idx)
    else if field = 3 ∧ wireType = wireLen then
      let (body, idx) ← readLenDelimited input idx
      let reservation ← Reservation.decode body
      return ({ msg with reservation := some reservation }, idx)
    else if field = 4 ∧ wireType = wireLen then
      let (body, idx) ← readLenDelimited input idx
      let limit ← Limit.decode body
      return ({ msg with limit := some limit }, idx)
    else if field = 5 ∧ wireType = wireVarint then
      let (value, idx) ← readVarintValue input idx
      return ({ msg with status := some (Status.fromU64 value) }, idx)
    else
      let idx ← skipUnknownField input idx wireType
      return (msg, idx)

/-- Reads a HOP message; only its type has to be there. -/
def decode (input : Bytes) : Decode HopMessage := do
  let fields ← Wire.decodeFields readField input ⟨none, none, none, none, none⟩
  match fields.kind with
  -- the type is the one field without a default
  | none => throw .missingType
  | some kind => return ⟨kind, fields.peer, fields.reservation, fields.limit, fields.status⟩

end HopMessage

/-- The fields of a STOP message read so far. -/
structure StopFields where
  kind : Option StopMessageType
  peer : Option Peer
  limit : Option Limit
  status : Option Status

namespace StopMessage

/-- Reads one field of a STOP message. -/
def readField : Wire.FieldReader RelayMessageError StopFields :=
  fun input field wireType msg idx => do
    if field = 1 ∧ wireType = wireVarint then
      let (value, idx) ← readVarintValue input idx
      match StopMessageType.fromU64 value with
      | none => throw (.invalidMessageType value)
      | some kind => return ({ msg with kind := some kind }, idx)
    else if field = 2 ∧ wireType = wireLen then
      let (body, idx) ← readLenDelimited input idx
      let peer ← Peer.decode body
      return ({ msg with peer := some peer }, idx)
    else if field = 3 ∧ wireType = wireLen then
      let (body, idx) ← readLenDelimited input idx
      let limit ← Limit.decode body
      return ({ msg with limit := some limit }, idx)
    else if field = 4 ∧ wireType = wireVarint then
      let (value, idx) ← readVarintValue input idx
      return ({ msg with status := some (Status.fromU64 value) }, idx)
    else
      let idx ← skipUnknownField input idx wireType
      return (msg, idx)

/-- Reads a STOP message; only its type has to be there. -/
def decode (input : Bytes) : Decode StopMessage := do
  let fields ← Wire.decodeFields readField input ⟨none, none, none, none⟩
  match fields.kind with
  | none => throw .missingType
  | some kind => return ⟨kind, fields.peer, fields.limit, fields.status⟩

end StopMessage

/-! ## Frames -/

/-- Attempts to decode one varint-length-prefixed frame from `input`. -/
def decodeFrame (input : Bytes) : Exec Wire.FrameDecode := Wire.decodeFrame input

/-- Encodes `payload` with a varint length prefix. -/
def encodeFrame (payload : Bytes) : Bytes := Wire.encodeFrame payload

/-! ## The decoders are safe -/

section Safety

variable {input : Bytes} {idx : Nat}

/-- A varint is read inside the input. -/
theorem readVarintValue_safe (hlen : input.length < 2 ^ 63) (hidx : idx ≤ input.length) :
    Safe (readVarintValue input idx) fun r => idx ≤ r.2 ∧ r.2 ≤ input.length :=
  (Wire.readVarintValue_safe hlen hidx).mono fun _ hr => ⟨Nat.le_of_lt hr.1, hr.2⟩

/-- A length-delimited value is read inside the input. -/
theorem readLenDelimited_safe (hlen : input.length < 2 ^ 63) (hidx : idx ≤ input.length) :
    Safe (readLenDelimited input idx)
      fun r => r.1.length < 2 ^ 63 ∧ idx ≤ r.2 ∧ r.2 ≤ input.length :=
  (Wire.readLenDelimited_safe hlen hidx).mono fun _ hr =>
    ⟨Nat.lt_of_le_of_lt hr.2.2 hlen, Nat.le_of_lt hr.1, hr.2.1⟩

/-- A field is skipped inside the input. -/
theorem skipUnknownField_safe (hlen : input.length < 2 ^ 63) (hidx : idx ≤ input.length)
    (wireType : UInt8) :
    Safe (skipUnknownField input idx wireType) fun r => idx ≤ r ∧ r ≤ input.length := by
  unfold skipUnknownField
  split
  · exact Safe.bind (readVarintValue_safe hlen hidx) fun r hr => Safe.pure hr
  split
  · exact (Wire.skipLen_safe hlen hidx).mono fun r hr => ⟨Nat.le_of_lt hr.1, hr.2⟩
  split
  · exact Wire.skipFixed_safe (by decide) hlen hidx
  split
  · exact Wire.skipFixed_safe (by decide) hlen hidx
  · exact Safe.throw _

/-- Skipping a field and keeping the message is safe. -/
theorem skip_then_safe {σ : Type} (hlen : input.length < 2 ^ 63) (hidx : idx ≤ input.length)
    (wireType : UInt8) (msg : σ) :
    Safe (do let idx ← skipUnknownField input idx wireType; return (msg, idx))
      fun r => idx ≤ r.2 ∧ r.2 ≤ input.length :=
  Safe.bind (skipUnknownField_safe hlen hidx wireType) fun _ hr => Safe.pure hr

end Safety

/-- A field reader that stays inside the message. -/
abbrev FieldInBounds {σ : Type} (field : Wire.FieldReader RelayMessageError σ) : Prop :=
  ∀ (input : Bytes), input.length < 2 ^ 63 → ∀ fieldNumber wireType msg idx, idx ≤ input.length →
    Safe (field input fieldNumber wireType msg idx) fun r => idx ≤ r.2 ∧ r.2 ≤ input.length

/-- With such a reader the whole message decodes safely. -/
theorem FieldInBounds.decodeFields_safe {σ : Type} {field : Wire.FieldReader RelayMessageError σ}
    (h : FieldInBounds field) {input : Bytes} (hlen : input.length < 2 ^ 63) (msg : σ) :
    Safe (Wire.decodeFields field input msg) fun _ => True :=
  Wire.decodeFields_safe hlen
    (fun fieldNumber wireType msg idx _ hidx =>
      (h input hlen fieldNumber wireType msg idx hidx).mono fun _ hr => ⟨trivial, hr⟩) trivial

theorem Peer.readField_inBounds : FieldInBounds Peer.readField := by
  intro input hlen field wireType msg idx hidx
  unfold Peer.readField
  split
  · exact Safe.bind (readLenDelimited_safe hlen hidx) fun r hr => Safe.pure hr.2
  split
  · exact Safe.bind (readLenDelimited_safe hlen hidx) fun r hr => Safe.pure hr.2
  · exact skip_then_safe hlen hidx wireType msg

/-- A peer is read without a panic. -/
theorem Peer.decode_safe {input : Bytes} (hlen : input.length < 2 ^ 63) :
    Safe (Peer.decode input) fun _ => True :=
  Peer.readField_inBounds.decodeFields_safe hlen _

theorem Reservation.readField_inBounds : FieldInBounds Reservation.readField := by
  intro input hlen field wireType msg idx hidx
  unfold Reservation.readField
  split
  · exact Safe.bind (readVarintValue_safe hlen hidx) fun r hr => Safe.pure hr
  split
  · exact Safe.bind (readLenDelimited_safe hlen hidx) fun r hr => Safe.pure hr.2
  split
  · exact Safe.bind (readLenDelimited_safe hlen hidx) fun r hr => Safe.pure hr.2
  · exact skip_then_safe hlen hidx wireType msg

/-- A reservation is read without a panic. -/
theorem Reservation.decode_safe {input : Bytes} (hlen : input.length < 2 ^ 63) :
    Safe (Reservation.decode input) fun _ => True :=
  Reservation.readField_inBounds.decodeFields_safe hlen _

theorem Limit.readField_inBounds : FieldInBounds Limit.readField := by
  intro input hlen field wireType msg idx hidx
  unfold Limit.readField
  split
  · exact Safe.bind (readVarintValue_safe hlen hidx) fun r hr => Safe.pure hr
  split
  · exact Safe.bind (readVarintValue_safe hlen hidx) fun r hr => Safe.pure hr
  · exact skip_then_safe hlen hidx wireType msg

/-- A limit is read without a panic. -/
theorem Limit.decode_safe {input : Bytes} (hlen : input.length < 2 ^ 63) :
    Safe (Limit.decode input) fun _ => True :=
  Limit.readField_inBounds.decodeFields_safe hlen _

theorem HopMessage.readField_inBounds : FieldInBounds HopMessage.readField := by
  intro input hlen field wireType msg idx hidx
  -- one case for each field of the schema, then unknown fields
  unfold HopMessage.readField
  split
  · refine Safe.bind (readVarintValue_safe hlen hidx) ?_
    rintro ⟨value, idx'⟩ hr
    dsimp only
    split
    · exact Safe.throw _
    · exact Safe.pure hr
  split
  · exact Safe.bind (readLenDelimited_safe hlen hidx) fun r hr =>
      Safe.bind (Peer.decode_safe hr.1) fun _ _ => Safe.pure hr.2
  split
  · exact Safe.bind (readLenDelimited_safe hlen hidx) fun r hr =>
      Safe.bind (Reservation.decode_safe hr.1) fun _ _ => Safe.pure hr.2
  split
  · exact Safe.bind (readLenDelimited_safe hlen hidx) fun r hr =>
      Safe.bind (Limit.decode_safe hr.1) fun _ _ => Safe.pure hr.2
  split
  · exact Safe.bind (readVarintValue_safe hlen hidx) fun r hr => Safe.pure hr
  · exact skip_then_safe hlen hidx wireType msg

/-- Decoding a HOP message neither panics nor runs on. -/
theorem HopMessage.decode_safe {input : Bytes} (hlen : input.length < 2 ^ 63) :
    Safe (HopMessage.decode input) fun _ => True := by
  refine Safe.bind (HopMessage.readField_inBounds.decodeFields_safe hlen _) fun fields _ => ?_
  split
  · exact Safe.throw _
  · exact Safe.pure trivial

theorem StopMessage.readField_inBounds : FieldInBounds StopMessage.readField := by
  intro input hlen field wireType msg idx hidx
  unfold StopMessage.readField
  split
  · refine Safe.bind (readVarintValue_safe hlen hidx) ?_
    rintro ⟨value, idx'⟩ hr
    dsimp only
    split
    · exact Safe.throw _
    · exact Safe.pure hr
  split
  · exact Safe.bind (readLenDelimited_safe hlen hidx) fun r hr =>
      Safe.bind (Peer.decode_safe hr.1) fun _ _ => Safe.pure hr.2
  split
  · exact Safe.bind (readLenDelimited_safe hlen hidx) fun r hr =>
      Safe.bind (Limit.decode_safe hr.1) fun _ _ => Safe.pure hr.2
  split
  · exact Safe.bind (readVarintValue_safe hlen hidx) fun r hr => Safe.pure hr
  · exact skip_then_safe hlen hidx wireType msg

/-- Decoding a STOP message neither panics nor runs on. -/
theorem StopMessage.decode_safe {input : Bytes} (hlen : input.length < 2 ^ 63) :
    Safe (StopMessage.decode input) fun _ => True := by
  refine Safe.bind (StopMessage.readField_inBounds.decodeFields_safe hlen _) fun fields _ => ?_
  split
  · exact Safe.throw _
  · exact Safe.pure trivial

end Minip2p.Relay
