import Minip2p.Identity.Varint

/-!
# Peer ids

`PeerId` of `crates/identity/src/peer_id.rs`: a multihash, built from the protobuf bytes of a
public key (inline up to 42 bytes, hashed above) or parsed from its wire form.

Two crates the source calls are parameters of the model: `sha2` (`Sha256`) and the codec of
`multihash` (`MultihashCodec`). `Multihash<64>` itself is the code with a digest of at most 64
bytes; the bound is a field, so the capacity check of `Multihash::wrap` cannot fail here.
-/

namespace Minip2p

/-- The `sha2` crate: a digest of 32 bytes. -/
class Sha256 where
  digest : Bytes → Vector UInt8 32

/-- A `Multihash<64>` value. -/
structure Multihash where
  code : UInt64
  digest : Bytes
  size_le : digest.length ≤ 64
deriving DecidableEq, Repr

/-- The wire codec of the `multihash` crate; `fromBytes` fails with the crate's error text. -/
class MultihashCodec where
  toBytes : Multihash → Bytes
  fromBytes : Bytes → Except String Multihash

/-- The multihash wire format: the code, the size and the digest. -/
@[reducible] def multihashCodec : MultihashCodec where
  toBytes multihash :=
    writeUvarint multihash.code ++ writeUvarint (UInt64.ofNat multihash.digest.length) ++
      multihash.digest
  fromBytes bytes :=
    match readUvarint bytes with
    | .error e => .error e.display
    | .ok (code, used) =>
      match readUvarint (bytes.drop used) with
      | .error e => .error e.display
      | .ok (size, sizeUsed) =>
        let digest := bytes.drop (used + sizeUsed)
        if h : digest.length ≤ 64 then
          if digest.length = size.toNat then .ok ⟨code, digest, h⟩
          else .error "Invalid multihash size"
        else .error "Invalid multihash size"

/-- Multihash code for identity (inline) hashing. -/
def identityMultihashCode : UInt64 := 0x00

/-- Multihash code for SHA-256 hashing. -/
def sha256MultihashCode : UInt64 := 0x12

/-- Public keys up to this size are inlined in the peer id. -/
def maxInlineKeyLength : Nat := 42

/-- A libp2p peer id. -/
structure PeerId where
  multihash : Multihash
deriving DecidableEq, Repr

/-! ## Order

The derived order compares the code, then the size, then the digest. -/

namespace Multihash

/-- The derived order. -/
def cmp : Multihash → Multihash → Ordering :=
  compareLex (compareOn (·.code)) (compareLex (compareOn (·.digest.length)) (compareOn (·.digest)))

instance : Ord Multihash := ⟨cmp⟩

instance : Std.TransOrd Multihash := by
  show Std.TransCmp cmp
  unfold cmp
  infer_instance

/-- Multihashes that compare as equal are equal. -/
theorem eq_of_cmp_eq {a b : Multihash} (h : cmp a b = .eq) : a = b := by
  simp only [cmp, compareLex_eq_eq, compareOn] at h
  obtain ⟨hcode, -, hdigest⟩ := h
  cases a
  cases b
  simp only [Multihash.mk.injEq]
  exact ⟨Std.LawfulEqOrd.eq_of_compare hcode, Std.LawfulEqOrd.eq_of_compare hdigest⟩

instance : Std.LawfulEqOrd Multihash where
  eq_of_compare := eq_of_cmp_eq
  compare_self {a} := by
    have htrans : Std.TransCmp cmp := inferInstanceAs (Std.TransOrd Multihash)
    have hrefl : Std.ReflCmp cmp := inferInstance
    exact hrefl.compare_self

end Multihash

instance : Ord PeerId := ⟨compareOn PeerId.multihash⟩

instance : Std.TransOrd PeerId :=
  inferInstanceAs (Std.TransCmp (compareOn PeerId.multihash))

instance : Std.LawfulEqOrd PeerId where
  eq_of_compare {a b} h := by
    cases a
    cases b
    exact congrArg PeerId.mk (Std.LawfulEqOrd.eq_of_compare h)
  compare_self {a} := by
    show compare a.multihash a.multihash = .eq
    exact Std.ReflCmp.compare_self

/-! ## base58btc text -/

/-- The Bitcoin alphabet. -/
def base58Alphabet : List Char :=
  "123456789ABCDEFGHJKLMNPQRSTUVWXYZabcdefghijkmnopqrstuvwxyz".toList

/-- One pass of the encoder over the little-endian digits: `digits * 256 + carry`, with the
carry out of the last digit. -/
def base58Carry : List Nat → Nat → List Nat × Nat
  | [], carry => ([], carry)
  | digit :: digits, carry =>
    let value := digit * 256 + carry
    let (digits, carry) := base58Carry digits (value / 58)
    (value % 58 :: digits, carry)

/-- The digits of what is carried out, least significant first. A `u32` has at most six. -/
def base58Push : Nat → Nat → List Nat
  | 0, _ => []
  | fuel + 1, carry => if carry > 0 then carry % 58 :: base58Push fuel (carry / 58) else []

/-- The encoder's loop body for one input byte. -/
def base58Byte (digits : List Nat) (byte : UInt8) : List Nat :=
  let (digits, carry) := base58Carry digits byte.toNat
  let digits := digits ++ base58Push 6 carry
  if digits.isEmpty then digits ++ [0] else digits

/-- Encodes bytes as base58btc; each leading zero byte is a `'1'`. -/
def encodeBase58 (input : Bytes) : String :=
  if input.isEmpty then ""
  else
    let leadingZeros := (input.takeWhile (· == 0)).length
    let digits := (input.drop leadingZeros).foldl base58Byte []
    let out := List.replicate leadingZeros '1'
    if digits.isEmpty then String.ofList out
    else String.ofList (out ++ digits.reverse.map fun digit => base58Alphabet.getD digit '1')

/-! ## Construction and parsing -/

/-- Errors of the peer id parsers. -/
inductive PeerIdError
  | emptyInput
  | unsupportedMultibase (prefixChar : Char)
  | unsupportedCidVersion (version : UInt64)
  | unsupportedMulticodec (codec : UInt64)
  | invalidSha256DigestLength (actual : Nat)
  | invalidBase58Character (character : Char) (index : Nat)
  | invalidBase32Character (character : Char) (index : Nat)
  | invalidCidVersionVarint (error : VarintError)
  | invalidCidMulticodecVarint (error : VarintError)
  | invalidMultihash (reason : String)
deriving DecidableEq, Repr

namespace PeerIdError

/-- The `Display` text. -/
def display : PeerIdError → String
  | emptyInput => "peer id input is empty"
  | unsupportedMultibase c =>
    s!"unsupported multibase prefix '{c}' (supported: b/B for base32, z for base58btc)"
  | unsupportedCidVersion version => s!"unsupported cid version {version}; expected v1"
  | unsupportedMulticodec codec =>
    "unsupported multicodec 0x" ++ String.ofList (Nat.toDigits 16 codec.toNat) ++
      "; expected libp2p-key (0x72)"
  | invalidSha256DigestLength actual =>
    s!"invalid sha2-256 digest length: expected 32, got {actual}"
  | invalidBase58Character c index => s!"invalid base58btc character '{c}' at index {index}"
  | invalidBase32Character c index => s!"invalid base32 character '{c}' at index {index}"
  | invalidCidVersionVarint error => "invalid cid version varint: " ++ error.display
  | invalidCidMulticodecVarint error => "invalid cid multicodec varint: " ++ error.display
  | invalidMultihash reason => s!"invalid multihash: {reason}"

end PeerIdError

/-- Rejects SHA-256 multihashes whose digest is not 32 bytes; everything else passes. -/
def validateMultihash (multihash : Multihash) : Except PeerIdError Unit :=
  if multihash.code = sha256MultihashCode ∧ multihash.digest.length ≠ 32 then
    .error (.invalidSha256DigestLength multihash.digest.length)
  else .ok ()

namespace PeerId

/-- Builds a peer id from the protobuf bytes of a public key: the bytes themselves up to
`maxInlineKeyLength`, their SHA-256 digest above. -/
def fromPublicKeyProtobuf [Sha256] (encodedPublicKey : Bytes) : PeerId :=
  if h : encodedPublicKey.length ≤ maxInlineKeyLength then
    ⟨identityMultihashCode, encodedPublicKey, Nat.le_trans h (by decide)⟩
  else
    ⟨sha256MultihashCode, (Sha256.digest encodedPublicKey).toList, by simp⟩

/-- Validates and stores a multihash. -/
def fromMultihash (multihash : Multihash) : Except PeerIdError PeerId := do
  validateMultihash multihash
  return ⟨multihash⟩

/-- Parses the wire form of a peer id. -/
def fromBytes [MultihashCodec] (multihash : Bytes) : Except PeerIdError PeerId :=
  match MultihashCodec.fromBytes multihash with
  | .error e => .error (.invalidMultihash e)
  | .ok parsed => fromMultihash parsed

/-- The wire form: the encoded multihash. -/
def toBytes [MultihashCodec] (peerId : PeerId) : Bytes :=
  MultihashCodec.toBytes peerId.multihash

/-- The legacy base58btc text, which is also the `Display` form. -/
def toBase58 [MultihashCodec] (peerId : PeerId) : String :=
  encodeBase58 peerId.toBytes

/-- The identity multihash keeps the key bytes apart. -/
theorem fromPublicKeyProtobuf_inj_of_short [Sha256] {a b : Bytes}
    (ha : a.length ≤ maxInlineKeyLength) (hb : b.length ≤ maxInlineKeyLength)
    (h : fromPublicKeyProtobuf a = fromPublicKeyProtobuf b) : a = b := by
  rw [fromPublicKeyProtobuf, fromPublicKeyProtobuf, dif_pos ha, dif_pos hb] at h
  exact congrArg (fun p : PeerId => p.multihash.digest) h

/-- An inlined key and a hashed key never give the same id: the codes differ. -/
theorem fromPublicKeyProtobuf_ne_of_short_of_long [Sha256] {a b : Bytes}
    (ha : a.length ≤ maxInlineKeyLength) (hb : ¬ b.length ≤ maxInlineKeyLength) :
    fromPublicKeyProtobuf a ≠ fromPublicKeyProtobuf b := by
  intro h
  rw [fromPublicKeyProtobuf, fromPublicKeyProtobuf, dif_pos ha, dif_neg hb] at h
  have hcode : identityMultihashCode = sha256MultihashCode :=
    congrArg (fun p : PeerId => p.multihash.code) h
  exact absurd hcode (by decide)

/-- Two hashed keys with one id have one digest. -/
theorem digest_eq_of_fromPublicKeyProtobuf_eq [Sha256] {a b : Bytes}
    (ha : ¬ a.length ≤ maxInlineKeyLength) (hb : ¬ b.length ≤ maxInlineKeyLength)
    (h : fromPublicKeyProtobuf a = fromPublicKeyProtobuf b) :
    Sha256.digest a = Sha256.digest b := by
  rw [fromPublicKeyProtobuf, fromPublicKeyProtobuf, dif_neg ha, dif_neg hb] at h
  have hlist := congrArg (fun p : PeerId => p.multihash.digest) h
  exact Vector.toList_inj.mp hlist

end PeerId

end Minip2p
