import Minip2p.Identity.Varint
import Minip2p.Lib.Panic

/-!
# Length-prefixed frames and protobuf fields

The relay and DCUtR codecs each carry their own copy of the same readers: a varint, a
length-delimited value or a fixed-size value at an index into the message, the loop over the
fields of a message, and the frame around it. The copies differ in their error type only, so
they are stated once here, over `WireError`. `usize` is 64 bits wide: the casts of a declared
length from `u64` keep its value.

`receive` is the front of the five relay and DCUtR state machines: the size guard, the frame
decoder and the message decoder over the receive buffer.
-/

namespace Minip2p

/-- The errors a message codec has for the shared readers. -/
class WireError (ε : Type) where
  varint (error : VarintError) : ε
  fieldOverflow (offset length remaining : Nat) : ε
  unsupportedWireType (wireType : UInt8) (offset : Nat) : ε

def wireVarint : UInt8 := 0
def wireI64 : UInt8 := 1
def wireLen : UInt8 := 2
def wireI32 : UInt8 := 5

namespace Wire

variable {ε : Type} [WireError ε]

/-! ## Readers at an index

Each returns its value with the index after it. -/

/-- `read_uvarint(&input[*idx..])?`, then `*idx += used`. -/
def readVarintValue (input : Bytes) (idx : Nat) : Fallible ε (UInt64 × Nat) := do
  let rest ← Exec.sliceFrom input idx
  match readUvarint rest with
  | .error e => throw (WireError.varint e)
  | .ok (value, used) =>
    let idx ← Exec.add idx used
    return (value, idx)

/-- Reads a declared length and checks it against the rest of the message. -/
def readLength (input : Bytes) (idx : Nat) : Fallible ε (Nat × Nat) := do
  let (length, idx) ← readVarintValue input idx
  let length := length.toNat
  let remaining := input.length - idx
  if length > remaining then throw (WireError.fieldOverflow idx length remaining)
  else return (length, idx)

/-- Reads a length-delimited value. -/
def readLenDelimited (input : Bytes) (idx : Nat) : Fallible ε (Bytes × Nat) := do
  let (length, idx) ← readLength input idx
  let stop ← Exec.add idx length
  let value ← Exec.slice input idx stop
  let idx ← Exec.add idx length
  return (value, idx)

/-- Skips a length-delimited value without slicing it. -/
def skipLen (input : Bytes) (idx : Nat) : Fallible ε Nat := do
  let (length, idx) ← readLength input idx
  Exec.add idx length

/-- Skips `size` bytes. -/
def skipFixed (size : Nat) (input : Bytes) (idx : Nat) : Fallible ε Nat := do
  let stop ← Exec.add idx size
  if stop > input.length then throw (WireError.fieldOverflow idx size (input.length - idx))
  else Exec.add idx size

/-- Reads the next tag as its field number and wire type; `none` at the end of the input. -/
def readTag (input : Bytes) (idx : Nat) : Fallible ε (Option ((UInt64 × UInt8) × Nat)) := do
  if idx ≥ input.length then return none
  else
    let (tagValue, idx) ← readVarintValue input idx
    -- a field number keeps all 61 bits of the tag
    return some ((tagValue >>> 3, (tagValue &&& 0x07).toUInt8), idx)

/-- Reads one field into the message, given its number, its wire type and the index after its
tag; returns the index after the field. -/
abbrev FieldReader (ε σ : Type) := Bytes → UInt64 → UInt8 → σ → Nat → Fallible ε (σ × Nat)

/-- The loop over the fields of a message. Every turn reads at least the byte of a tag, so
`input.length + 1` turns are enough. -/
def decodeFieldsGo {σ : Type} (field : FieldReader ε σ) (input : Bytes) :
    Nat → σ → Nat → Fallible ε σ
  | 0, _, _ => liftM (Except.error Panic.diverged : Exec σ)
  | fuel + 1, msg, idx => do
    match ← readTag input idx with
    | none => return msg
    | some ((fieldNumber, wireType), idx) =>
      let (msg, idx) ← field input fieldNumber wireType msg idx
      decodeFieldsGo field input fuel msg idx

/-- Decodes the fields of `input` into `msg`. -/
def decodeFields {σ : Type} (field : FieldReader ε σ) (input : Bytes) (msg : σ) : Fallible ε σ :=
  decodeFieldsGo field input (input.length + 1) msg 0

/-! ## Frames -/

/-- Result of attempting to decode a single length-prefixed frame. -/
inductive FrameDecode
  | complete (payload : Bytes) (consumed : Nat)
  | incomplete
  | error (error : VarintError)
deriving DecidableEq, Repr

/-- Attempts to decode one varint-length-prefixed frame from `input`. -/
def decodeFrame (input : Bytes) : Exec FrameDecode :=
  if input.isEmpty then .ok .incomplete
  else
    match readUvarint input with
    | .error .bufferTooShort => .ok .incomplete
    | .error e => .ok (.error e)
    | .ok (length, used) => do
      -- the declared length is not bounded yet, so this sum can overflow
      let total ← Exec.add used length.toNat
      if input.length < total then return .incomplete
      else
        let payload ← Exec.slice input used total
        return .complete payload total

/-- Encodes `payload` with a varint length prefix. -/
def encodeFrame (payload : Bytes) : Bytes :=
  writeUvarint (UInt64.ofNat payload.length) ++ payload

/-- What a state machine finds at the front of its receive buffer. -/
inductive Received (ε α : Type)
  | incomplete
  | failed (error : ε)
  | message (msg : α) (recvBuf : Bytes)

/-- The size guard, `decode_frame`, the message decoder and the `drain` of the frame. -/
def receive {ε μ α : Type} [WireError μ] (maxSize : Nat) (tooLarge : Nat → ε) (malformed : μ → ε)
    (decode : Bytes → Fallible μ α) (recvBuf : Bytes) : Exec (Received ε α) := do
  if recvBuf.length > maxSize then return .failed (tooLarge recvBuf.length)
  else
    match ← decodeFrame recvBuf with
    | .incomplete => return .incomplete
    | .error e => return .failed (malformed (WireError.varint e))
    | .complete payload consumed =>
      match ← (decode payload).run with
      | .error e => return .failed (malformed e)
      | .ok msg =>
        -- a frame whose message is malformed stays in the buffer
        let recvBuf ← Exec.drain recvBuf consumed
        return .message msg recvBuf

end Wire

end Minip2p
