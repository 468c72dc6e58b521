import Minip2p.Identity.PeerId

/-!
# Peer ids as text

The text forms of `crates/identity/src/peer_id.rs`: legacy base58btc, and CIDv1 in base32
multibase. `fromStr` picks one of the two parsers by the first characters.
-/

namespace Minip2p

/-- CIDv1 multicodec value for `libp2p-key`. -/
def libp2pKeyMulticodec : UInt64 := 0x72

/-! ## base58btc -/

/-- Maps a base58btc character to its value. The cast to `u8` keeps the low byte of a character. -/
def base58Value (c : Char) : Option UInt8 :=
  (base58Alphabet.findIdx? fun v => v.val.toUInt8 == c.val.toUInt8).map UInt8.ofNat

/-- One pass of the decoder over the little-endian bytes: `bytes * 58 + carry`, with the carry out
of the last byte. -/
def base58Accumulate : Bytes → UInt32 → Bytes × UInt32
  | [], carry => ([], carry)
  | byte :: bytes, carry =>
    let acc := byte.toUInt32 * 58 + carry
    let (bytes, carry) := base58Accumulate bytes (acc >>> 8)
    ((acc &&& 0xff).toUInt8 :: bytes, carry)

/-- The bytes of what is carried out, least significant first. A `u32` has at most four. -/
def base58Flush : Nat → UInt32 → Bytes
  | 0, _ => []
  | fuel + 1, carry =>
    if carry > 0 then (carry &&& 0xff).toUInt8 :: base58Flush fuel (carry >>> 8) else []

/-- The decoder's loop body for one character. -/
def base58Character (bytes : Bytes) (value : UInt8) : Bytes :=
  let bytes := if bytes.isEmpty then [0] else bytes
  let (bytes, carry) := base58Accumulate bytes value.toUInt32
  bytes ++ base58Flush 4 carry

/-- The decoder's loop from the character at `index` on. -/
def decodeBase58Go : Nat → Bytes → List Char → Except PeerIdError Bytes
  | _, bytes, [] => .ok bytes
  | index, bytes, c :: cs =>
    match base58Value c with
    | none => .error (.invalidBase58Character c index)
    | some value => decodeBase58Go (index + 1) (base58Character bytes value) cs

/-- Decodes base58btc text; each leading `'1'` is a zero byte. -/
def decodeBase58 (input : String) : Except PeerIdError Bytes :=
  if input.isEmpty then .error .emptyInput
  else do
    let leadingZeros := (input.toList.takeWhile (· == '1')).length
    let bytes ← decodeBase58Go leadingZeros [] (input.toList.drop leadingZeros)
    return List.replicate leadingZeros 0 ++ bytes.reverse

/-! ## base32 -/

/-- The RFC 4648 alphabet in lower case. -/
def base32AlphabetLower : List Char := "abcdefghijklmnopqrstuvwxyz234567".toList

/-- The characters pushed so far, the bit buffer and how many of its low bits are not yet
emitted. -/
structure Base32Encoder where
  out : List Char
  buffer : UInt16
  bits : Nat
deriving DecidableEq, Repr

namespace Base32Encoder

/-- `while bits >= 5`. There are at most 12 bits, so two turns are enough. -/
def emit : Nat → Base32Encoder → Base32Encoder
  | 0, state => state
  | fuel + 1, ⟨out, buffer, bits⟩ =>
    if bits ≥ 5 then
      let bits := bits - 5
      let idx := ((buffer >>> UInt16.ofNat bits) &&& 0x1f).toNat
      emit fuel ⟨out ++ [base32AlphabetLower.getD idx 'a'], buffer, bits⟩
    else ⟨out, buffer, bits⟩

/-- The encoder's loop body for one input byte; the high bits of the buffer are shifted out. -/
def push (state : Base32Encoder) (byte : UInt8) : Base32Encoder :=
  emit 2 { state with buffer := (state.buffer <<< 8) ||| byte.toUInt16, bits := state.bits + 8 }

/-- The last character, from fewer than five bits. -/
def finish (state : Base32Encoder) : List Char :=
  if state.bits > 0 then
    let idx := ((state.buffer <<< UInt16.ofNat (5 - state.bits)) &&& 0x1f).toNat
    state.out ++ [base32AlphabetLower.getD idx 'a']
  else state.out

end Base32Encoder

/-- Base32 in lower case without padding. -/
def encodeBase32NopadLower (input : Bytes) : String :=
  if input.isEmpty then ""
  else String.ofList (input.foldl Base32Encoder.push ⟨[], 0, 0⟩).finish

/-- Maps a base32 character to its value, in either case. -/
def base32Value (c : Char) : Option UInt8 :=
  let lower := c.toLower
  if 'a' ≤ lower ∧ lower ≤ 'z' then some (lower.val.toUInt8 - 'a'.val.toUInt8)
  else if '2' ≤ lower ∧ lower ≤ '7' then some (26 + (lower.val.toUInt8 - '2'.val.toUInt8))
  else none

/-- The bytes pushed so far, the bit buffer and how many of its low bits are not yet emitted. -/
structure Base32Decoder where
  out : Bytes
  buffer : UInt32
  bits : Nat
deriving DecidableEq, Repr

namespace Base32Decoder

/-- `while bits >= 8`. There are at most 12 bits, so one turn is enough. -/
def emit : Nat → Base32Decoder → Base32Decoder
  | 0, state => state
  | fuel + 1, ⟨out, buffer, bits⟩ =>
    if bits ≥ 8 then
      let bits := bits - 8
      emit fuel ⟨out ++ [((buffer >>> UInt32.ofNat bits) &&& 0xff).toUInt8], buffer, bits⟩
    else ⟨out, buffer, bits⟩

/-- The decoder's loop body for one value; the high bits of the buffer are shifted out. -/
def push (state : Base32Decoder) (value : UInt8) : Base32Decoder :=
  emit 1 { state with buffer := (state.buffer <<< 5) ||| value.toUInt32, bits := state.bits + 5 }

end Base32Decoder

/-- The decoder's loop from the character at `index` on. -/
def decodeBase32Go : Nat → Base32Decoder → List Char → Except PeerIdError Bytes
  | _, state, [] => .ok state.out
  | index, state, c :: cs =>
    match base32Value c with
    | none => .error (.invalidBase32Character c index)
    | some value => decodeBase32Go (index + 1) (state.push value) cs

/-- Decodes base32 without padding, in either case. -/
def decodeBase32Nopad (input : String) : Except PeerIdError Bytes :=
  if input.isEmpty then .ok []
  else decodeBase32Go 0 ⟨[], 0, 0⟩ input.toList

/-! ## The text forms -/

namespace PeerId

variable [MultihashCodec]

/-- CIDv1 (`libp2p-key`) in base32 multibase. -/
def toCidBase32 (peerId : PeerId) : String :=
  "b" ++ encodeBase32NopadLower
    (writeUvarint 1 ++ writeUvarint libp2pKeyMulticodec ++ peerId.toBytes)

/-- Parses legacy base58btc text. -/
def fromBase58 (input : String) : Except PeerIdError PeerId := do
  let multihash ← decodeBase58 input
  fromBytes multihash

/-- What `from_cid` does with the decoded bytes. A varint never takes more bytes than there are, so
the slices stay inside. -/
def fromCidBytes (cidBytes : Bytes) : Except PeerIdError PeerId :=
  match readUvarint cidBytes with
  | .error e => .error (.invalidCidVersionVarint e)
  | .ok (version, versionLen) =>
    if version ≠ 1 then .error (.unsupportedCidVersion version)
    else
      match readUvarint (cidBytes.drop versionLen) with
      | .error e => .error (.invalidCidMulticodecVarint e)
      | .ok (codec, codecLen) =>
        if codec ≠ libp2pKeyMulticodec then .error (.unsupportedMulticodec codec)
        else fromBytes (cidBytes.drop (versionLen + codecLen))

/-- Parses CID text and extracts the multihash. -/
def fromCid (input : String) : Except PeerIdError PeerId :=
  match input.toList with
  | [] => .error .emptyInput
  | prefixChar :: payload => do
    let cidBytes ←
      if prefixChar = 'b' ∨ prefixChar = 'B' then decodeBase32Nopad (String.ofList payload)
      else if prefixChar = 'z' then decodeBase58 (String.ofList payload)
      else .error (.unsupportedMultibase prefixChar)
    fromCidBytes cidBytes

/-- The `Display` text. -/
def display (peerId : PeerId) : String := peerId.toBase58

/-- Text that `fromStr` takes for legacy base58btc. -/
def isLegacyText (s : String) : Bool :=
  ['1'].isPrefixOf s.toList || ['Q', 'm'].isPrefixOf s.toList

/-- `PeerId::from_str`. -/
def fromStr (s : String) : Except PeerIdError PeerId :=
  if isLegacyText s then fromBase58 s else fromCid s

end PeerId

end Minip2p
