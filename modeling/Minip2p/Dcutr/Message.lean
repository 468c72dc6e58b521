import Minip2p.Core.WireTheorems

/-!
# The DCUtR `HolePunch` message

The protobuf codec of `crates/dcutr/src/message.rs`. The decoder matches on the field number and
the wire type of a tag together and skips what it does not know by wire type.
-/

namespace Minip2p.Dcutr

/-- Type discriminator for the HolePunch message. -/
inductive HolePunchType
  | connect
  | sync
deriving DecidableEq, Repr

namespace HolePunchType

/-- The number of a message type. -/
def toU64 : HolePunchType → UInt64
  | connect => 100
  | sync => 300

/-- The message type with a number. -/
def fromU64 (value : UInt64) : Option HolePunchType :=
  if value = 100 then some connect
  else if value = 300 then some sync
  else none

/-- The `Debug` text. -/
def debug : HolePunchType → String
  | connect => "Connect"
  | sync => "Sync"

end HolePunchType

/-- The DCUtR `HolePunch` message. -/
structure HolePunch where
  kind : HolePunchType
  obsAddrs : List Bytes
deriving DecidableEq, Repr

/-- Errors that can occur while decoding a HolePunch message. -/
inductive DcutrMessageError
  | varint (error : VarintError)
  | fieldOverflow (offset length remaining : Nat)
  | unsupportedWireType (wireType : UInt8) (offset : Nat)
  | missingType
  | invalidType (value : UInt64)
deriving DecidableEq, Repr

instance : WireError DcutrMessageError where
  varint := .varint
  fieldOverflow := .fieldOverflow
  unsupportedWireType := .unsupportedWireType

def fieldType : UInt64 := 1
def fieldObsAddrs : UInt64 := 2

def tagType : UInt8 := (fieldType.toUInt8 <<< 3) ||| wireVarint
def tagObsAddrs : UInt8 := (fieldObsAddrs.toUInt8 <<< 3) ||| wireLen

/-- The fields of a HolePunch message read so far. -/
structure HolePunchFields where
  kind : Option HolePunchType
  obsAddrs : List Bytes

namespace HolePunch

/-- Encodes the message body (without length prefix). -/
def encode (msg : HolePunch) : Bytes :=
  tagType :: writeUvarint msg.kind.toU64 ++
    msg.obsAddrs.flatMap fun addr =>
      tagObsAddrs :: (writeUvarint (UInt64.ofNat addr.length) ++ addr)

/-- Reads one field of a message. -/
def readField : Wire.FieldReader DcutrMessageError HolePunchFields :=
  fun input fieldNumber wireType msg idx => do
    if fieldNumber = fieldType ∧ wireType = wireVarint then
      let (value, idx) ← Wire.readVarintValue input idx
      match HolePunchType.fromU64 value with
      | none => throw (.invalidType value)
      | some kind => return ({ msg with kind := some kind }, idx)
    else if fieldNumber = fieldObsAddrs ∧ wireType = wireLen then
      let (value, idx) ← Wire.readLenDelimited input idx
      return ({ msg with obsAddrs := msg.obsAddrs ++ [value] }, idx)
    else if wireType = wireVarint then
      let (_, idx) ← Wire.readVarintValue input idx
      return (msg, idx)
    else if wireType = wireLen then
      let (_, idx) ← Wire.readLenDelimited input idx
      return (msg, idx)
    else if wireType = wireI64 then
      let idx ← Wire.skipFixed 8 input idx
      return (msg, idx)
    else if wireType = wireI32 then
      let idx ← Wire.skipFixed 4 input idx
      return (msg, idx)
    else throw (.unsupportedWireType wireType idx)

/-- Decodes a HolePunch message body (without length prefix). -/
def decode (input : Bytes) : Fallible DcutrMessageError HolePunch := do
  let fields ← Wire.decodeFields readField input ⟨none, []⟩
  match fields.kind with
  | none => throw .missingType
  | some kind => return ⟨kind, fields.obsAddrs⟩

end HolePunch

/-- Attempts to decode one varint-length-prefixed frame from `input`. -/
def decodeFrame (input : Bytes) : Exec Wire.FrameDecode := Wire.decodeFrame input

/-- Encodes `payload` with a varint length prefix. -/
def encodeFrame (payload : Bytes) : Bytes := Wire.encodeFrame payload

/-! ## The decoder is safe -/

/-- All observed addresses are at most `n` bytes long. -/
def AddrsWithin (n : Nat) (addrs : List Bytes) : Prop := ∀ addr ∈ addrs, addr.length ≤ n

/-- A field is read inside the input, and so are the addresses. -/
theorem HolePunch.readField_safe {input : Bytes} (hlen : input.length < 2 ^ 63) :
    Wire.FieldSafe HolePunch.readField input fun msg =>
      AddrsWithin input.length msg.obsAddrs := by
  intro fieldNumber wireType msg idx hmsg hidx
  have hread : Safe (Wire.readVarintValue input idx : Fallible DcutrMessageError (UInt64 × Nat))
      fun r => idx < r.2 ∧ r.2 ≤ input.length := Wire.readVarintValue_safe hlen hidx
  have hvalue : Safe (Wire.readLenDelimited input idx : Fallible DcutrMessageError (Bytes × Nat))
      fun r => idx < r.2 ∧ r.2 ≤ input.length ∧ r.1.length ≤ input.length :=
    Wire.readLenDelimited_safe hlen hidx
  unfold HolePunch.readField
  split
  · refine Safe.bind hread ?_
    rintro ⟨value, idx'⟩ ⟨hlt, hle⟩
    dsimp only
    split
    · exact Safe.throw _
    · exact Safe.pure ⟨hmsg, Nat.le_of_lt hlt, hle⟩
  split
  · refine Safe.bind hvalue ?_
    rintro ⟨value, idx'⟩ ⟨hlt, hle, hshort⟩
    refine Safe.pure ⟨?_, Nat.le_of_lt hlt, hle⟩
    intro addr haddr
    rcases List.mem_append.mp haddr with hold | hnew
    · exact hmsg addr hold
    · rw [List.mem_singleton.mp hnew]
      exact hshort
  split
  · exact Safe.bind hread fun r hr => Safe.pure ⟨hmsg, Nat.le_of_lt hr.1, hr.2⟩
  split
  · exact Safe.bind hvalue fun r hr => Safe.pure ⟨hmsg, Nat.le_of_lt hr.1, hr.2.1⟩
  split
  · exact Safe.bind (Wire.skipFixed_safe (by decide) hlen hidx) fun r hr => Safe.pure ⟨hmsg, hr⟩
  split
  · exact Safe.bind (Wire.skipFixed_safe (by decide) hlen hidx) fun r hr => Safe.pure ⟨hmsg, hr⟩
  · exact Safe.throw _

/-- Decoding neither panics nor runs on, and the addresses are pieces of the input. -/
theorem HolePunch.decode_safe {input : Bytes} (hlen : input.length < 2 ^ 63) :
    Safe (HolePunch.decode input) fun msg => AddrsWithin input.length msg.obsAddrs := by
  have hstart : AddrsWithin input.length [] := by rintro _ ⟨⟩
  refine Safe.bind (Wire.decodeFields_safe hlen (HolePunch.readField_safe hlen) hstart) ?_
  intro fields hfields
  split
  · exact Safe.throw _
  · exact Safe.pure hfields

end Minip2p.Dcutr
