import Minip2p.Identity.Varint
import Minip2p.Lib.Der
import Minip2p.Lib.Panic

/-!
# The signed key of a certificate

`SignedKey` is the value of the libp2p extension: a SEQUENCE of the public key and the signature,
both OCTET STRINGs. `encode_signed_key` of `crates/tls/src/generate.rs` writes the header of the
SEQUENCE by hand, `decode_signed_key` of `crates/tls/src/verify.rs` reads it with the crate `der`.

`DerCrate` is what the crate computes, a reader being the bytes it has left, and `DerCrate.Lawful`
that it follows the distinguished encoding.
-/

namespace Minip2p

/-- The `der` crate. -/
class DerCrate where
  /-- `Length::MAX` -/
  lengthMax : Nat
  /-- `SliceReader::new` -/
  sliceReader : Bytes → Except String Bytes
  /-- `Header::decode`: the length, and what is behind the header. -/
  header : Bytes → Except String (Nat × Bytes)
  /-- `Reader::sequence`: the contents, and what is behind them. -/
  sequence : Bytes → Except String (Bytes × Bytes)
  /-- `OctetString::decode` -/
  octetString : Bytes → Except String (Bytes × Bytes)
  /-- `Reader::finish` -/
  finish : Bytes → Except String Unit
  /-- `OctetStringRef::new` -/
  octetStringRef : Bytes → Except String Unit
  /-- `encoded_len` of an OCTET STRING. -/
  encodedLen : Bytes → Except String Nat
  /-- The sum of two lengths. -/
  addLength : Nat → Nat → Except String Nat
  /-- What an OCTET STRING writes into a slice that has `room` bytes left. -/
  encodeInto : (room : Nat) → Bytes → Except String Bytes

namespace DerCrate

/-- The crate follows the distinguished encoding. -/
structure Lawful [DerCrate] : Prop where
  lengthMax_lt : lengthMax < 2 ^ 32
  le_lengthMax : 2 ^ 20 ≤ lengthMax
  sliceReader_iff : ∀ bytes reader, sliceReader bytes = .ok reader ↔
    reader = bytes ∧ bytes.length ≤ lengthMax
  /-- A tag takes at least one byte. -/
  of_header : ∀ bytes len rest, header bytes = .ok (len, rest) →
    len ≤ lengthMax ∧ ∃ tag ≠ [], bytes = tag ++ (Der.lengthOctets len ++ rest)
  header_sequence : ∀ len rest, len ≤ lengthMax →
    header (0x30 :: (Der.lengthOctets len ++ rest)) = .ok (len, rest)
  sequence_iff : ∀ bytes contents rest, sequence bytes = .ok (contents, rest) ↔
    contents.length ≤ lengthMax ∧ bytes = Der.encode 0x30 contents ++ rest
  octetString_iff : ∀ bytes contents rest, octetString bytes = .ok (contents, rest) ↔
    contents.length ≤ lengthMax ∧ bytes = Der.encode 0x04 contents ++ rest
  finish_iff : ∀ bytes, finish bytes = .ok () ↔ bytes = []
  octetStringRef_iff : ∀ bytes, octetStringRef bytes = .ok () ↔ bytes.length ≤ lengthMax
  encodedLen_iff : ∀ bytes n, encodedLen bytes = .ok n ↔
    n = (Der.encode 0x04 bytes).length ∧ n ≤ lengthMax
  addLength_iff : ∀ a b n, addLength a b = .ok n ↔ n = a + b ∧ n ≤ lengthMax
  encodeInto_iff : ∀ room bytes out, encodeInto room bytes = .ok out ↔
    out = Der.encode 0x04 bytes ∧ out.length ≤ room

end DerCrate

open DerCrate

variable [DerCrate]

/-! ## The codec -/

/-- The tag and the length of the SEQUENCE, as written by hand. -/
def signedKeyHeader (lenVal : Nat) : Bytes :=
  0x30 ::
    if lenVal < 128 then [UInt8.ofNat lenVal]
    else if lenVal < 256 then [0x81, UInt8.ofNat lenVal]
    -- `as u8` drops what is above the low byte
    else [0x82, UInt8.ofNat (lenVal >>> 8), UInt8.ofNat (lenVal &&& 0xff)]

/-- DER-encodes the `SignedKey` ASN.1 structure. -/
def encodeSignedKey (publicKey signature : Bytes) : Except String Bytes := do
  octetStringRef publicKey
  octetStringRef signature
  let pkEncodedLen ← encodedLen publicKey
  let sigEncodedLen ← encodedLen signature
  let contentLen ← addLength pkEncodedLen sigEncodedLen
  -- the two strings go into a slice of `contentLen` zeros behind the header
  let pk ← encodeInto contentLen publicKey
  let sig ← encodeInto (contentLen - pk.length) signature
  let unwritten := List.replicate (contentLen - pk.length - sig.length) 0
  return signedKeyHeader contentLen ++ (pk ++ sig ++ unwritten)

/-- Decodes the `SignedKey` ASN.1 structure from DER bytes: the public key and the signature. -/
def decodeSignedKey (derBytes : Bytes) : Except String (Bytes × Bytes) := do
  let reader ← sliceReader derBytes
  let (seq, reader) ← sequence reader
  let (publicKey, seq) ← octetString seq
  let (signature, seq) ← octetString seq
  finish seq
  -- trailing data after the SEQUENCE is rejected
  finish reader
  return (publicKey, signature)

/-! ## What is written and what is read -/

/-- The contents of the SEQUENCE. -/
def signedKeyContents (publicKey signature : Bytes) : Bytes :=
  Der.encode 0x04 publicKey ++ Der.encode 0x04 signature

variable {publicKey signature derBytes : Bytes}

/-- `encode_signed_key` fails only on contents that the crate cannot put a length on. -/
theorem encodeSignedKey_eq_ok_iff (hlaw : Lawful) :
    encodeSignedKey publicKey signature = .ok derBytes ↔
      (signedKeyContents publicKey signature).length ≤ lengthMax ∧
        derBytes = signedKeyHeader (signedKeyContents publicKey signature).length ++
          signedKeyContents publicKey signature := by
  have hpk := Der.length_encode 0x04 publicKey
  have hsig := Der.length_encode 0x04 signature
  simp only [encodeSignedKey, Except.bind_eq_ok_iff, hlaw.octetStringRef_iff, hlaw.encodedLen_iff,
    hlaw.addLength_iff, hlaw.encodeInto_iff, signedKeyContents, List.length_append]
  constructor
  · rintro ⟨-, -, -, -, _, ⟨rfl, -⟩, _, ⟨rfl, -⟩, _, ⟨rfl, hmax⟩, _, ⟨rfl, -⟩, _, ⟨rfl, -⟩, h⟩
    rw [Nat.add_sub_cancel_left, Nat.sub_self, List.replicate_zero, List.append_nil] at h
    exact ⟨hmax, (Except.ok.inj h).symm⟩
  · rintro ⟨hmax, rfl⟩
    refine ⟨⟨⟩, by omega, ⟨⟩, by omega, _, ⟨rfl, by omega⟩, _, ⟨rfl, by omega⟩, _, ⟨rfl, hmax⟩,
      _, ⟨rfl, by omega⟩, _, ⟨rfl, by omega⟩, ?_⟩
    rw [Nat.add_sub_cancel_left, Nat.sub_self, List.replicate_zero, List.append_nil]
    rfl

/-- What is read is the distinguished encoding of the SEQUENCE, and nothing else. -/
theorem decodeSignedKey_eq_ok_iff (hlaw : Lawful) :
    decodeSignedKey derBytes = .ok (publicKey, signature) ↔
      derBytes.length ≤ lengthMax ∧
        derBytes = Der.encode 0x30 (signedKeyContents publicKey signature) := by
  have hpk := Der.length_encode 0x04 publicKey
  have hsig := Der.length_encode 0x04 signature
  have hseq := Der.length_encode 0x30 (signedKeyContents publicKey signature)
  have hcontents : (signedKeyContents publicKey signature).length =
      (Der.encode 0x04 publicKey).length + (Der.encode 0x04 signature).length :=
    List.length_append
  simp only [decodeSignedKey, Except.bind_eq_ok_iff, hlaw.sliceReader_iff, Prod.exists,
    hlaw.sequence_iff, hlaw.octetString_iff, hlaw.finish_iff]
  constructor
  · rintro ⟨_, ⟨rfl, hmax⟩, _, _, ⟨-, rfl⟩, _, _, ⟨-, rfl⟩, _, _, ⟨-, rfl⟩, _, rfl, _, rfl, h⟩
    obtain ⟨rfl, rfl⟩ := Prod.mk.inj (Except.ok.inj h)
    rw [List.append_nil, List.append_nil] at hmax ⊢
    exact ⟨hmax, rfl⟩
  · rintro ⟨hmax, rfl⟩
    refine ⟨_, ⟨rfl, hmax⟩, signedKeyContents publicKey signature, [],
      ⟨by omega, (List.append_nil _).symm⟩, publicKey, Der.encode 0x04 signature,
      ⟨by omega, rfl⟩, signature, [], ⟨by omega, (List.append_nil _).symm⟩, ⟨⟩, rfl, ⟨⟩, rfl, rfl⟩

omit [DerCrate] in
/-- The header written by hand is that of the distinguished encoding as long as the length fits in
two bytes. -/
theorem signedKeyHeader_eq {lenVal : ℕ} (h : lenVal < 2 ^ 16) :
    signedKeyHeader lenVal = 0x30 :: Der.lengthOctets lenVal := by
  have hhigh : lenVal >>> 8 = lenVal / 256 := Nat.shiftRight_eq_div_pow lenVal 8
  have hlow : lenVal &&& 0xff = lenVal % 256 := Nat.and_two_pow_sub_one_eq_mod lenVal 8
  rw [signedKeyHeader, Der.lengthOctets, Der.width, hhigh, hlow]
  by_cases hshort : lenVal < 128
  · rw [if_pos hshort, if_pos hshort]
  by_cases hbyte : lenVal < 256
  · rw [if_neg hshort, if_neg hshort, if_pos hbyte, if_pos (by omega)]
    simp [Der.octets, Radix.fixed, Nat.mod_eq_of_lt hbyte]
  · rw [if_neg hshort, if_neg hshort, if_neg hbyte, if_neg (by omega), if_pos h]
    simp [Der.octets, Radix.fixed, Nat.mod_eq_of_lt (show lenVal / 256 < 256 by omega)]

omit [DerCrate] in
/-- Beyond two bytes it is the header of no SEQUENCE of that length. -/
theorem signedKeyHeader_append_ne {contents contents' : Bytes} (h : 2 ^ 16 ≤ contents.length)
    (h' : contents'.length < 2 ^ 32) :
    signedKeyHeader contents.length ++ contents ≠ Der.encode 0x30 contents' := by
  intro heq
  have hlength := congrArg List.length heq
  rw [Der.encode, signedKeyHeader, if_neg (by omega), if_neg (by omega)] at heq
  have hwidth := congrArg (fun bytes => bytes[1]?) heq
  rw [signedKeyHeader, if_neg (by omega), if_neg (by omega), Der.length_encode,
    Der.length_lengthOctets] at hlength
  simp only [List.length_append, List.length_cons, List.length_nil] at hlength
  by_cases hshort : contents'.length < 128
  · rw [if_pos hshort] at hlength
    omega
  rw [if_neg hshort] at hlength
  -- the second byte announces two bytes, which cannot hold the length of `contents'`
  have htwo : Der.width contents'.length = 2 := by
    have hle := Der.width_le contents'.length
    have hpos := Der.width_pos contents'.length
    rw [Der.lengthOctets, if_neg hshort] at hwidth
    have hbyte : (0x82 : UInt8) = UInt8.ofNat (128 + Der.width contents'.length) :=
      Option.some.inj hwidth
    have hnat := congrArg UInt8.toNat hbyte
    rw [Der.toNat_ofNat (by omega)] at hnat
    have h82 : (0x82 : UInt8).toNat = 130 := rfl
    omega
  have hlt := Der.lt_pow_width h'
  rw [htwo] at hlength hlt
  omega

/-- The codec of the signed key: what is written is read back exactly when the contents of the
SEQUENCE take less than `2 ^ 16` bytes, where the header written by hand is right; and no two byte
strings are read as the same signed key, so that up to this size what is read is what the encoder
writes. -/
theorem signedKey_codec (hlaw : Lawful) :
    (∀ publicKey signature, (signedKeyContents publicKey signature).length + 6 ≤ lengthMax →
      ((∃ derBytes, encodeSignedKey publicKey signature = .ok derBytes ∧
        decodeSignedKey derBytes = .ok (publicKey, signature)) ↔
          (signedKeyContents publicKey signature).length < 2 ^ 16)) ∧
    (∀ derBytes publicKey signature, decodeSignedKey derBytes = .ok (publicKey, signature) →
      (signedKeyContents publicKey signature).length < 2 ^ 16 →
        encodeSignedKey publicKey signature = .ok derBytes) ∧
    ∀ derBytes other signedKey, decodeSignedKey derBytes = .ok signedKey →
      decodeSignedKey other = .ok signedKey → derBytes = other := by
  have hmax := hlaw.lengthMax_lt
  refine ⟨fun publicKey signature hroom => ?_, fun derBytes publicKey signature hread hlen => ?_,
    fun derBytes other signedKey hread hother => ?_⟩
  · simp only [encodeSignedKey_eq_ok_iff hlaw, decodeSignedKey_eq_ok_iff hlaw]
    constructor
    · rintro ⟨_, ⟨-, rfl⟩, -, heq⟩
      by_contra hlong
      exact signedKeyHeader_append_ne (by omega) (by omega) heq
    · intro hlen
      refine ⟨_, ⟨by omega, rfl⟩, ?_, ?_⟩
      · rw [signedKeyHeader_eq hlen, List.cons_append, List.length_cons, List.length_append,
          Der.length_lengthOctets]
        have hwidth := Der.width_le (signedKeyContents publicKey signature).length
        split <;> omega
      · rw [signedKeyHeader_eq hlen, List.cons_append, Der.encode]
  · obtain ⟨hder, rfl⟩ := (decodeSignedKey_eq_ok_iff hlaw).mp hread
    rw [Der.length_encode] at hder
    refine (encodeSignedKey_eq_ok_iff hlaw).mpr ⟨by omega, ?_⟩
    rw [signedKeyHeader_eq hlen, List.cons_append, Der.encode]
  · obtain ⟨publicKey, signature⟩ := signedKey
    rw [((decodeSignedKey_eq_ok_iff hlaw).mp hread).2,
      ((decodeSignedKey_eq_ok_iff hlaw).mp hother).2]

/-! ## A lawful crate -/

omit [DerCrate]

/-- `ErrorKind` texts do not matter to the code. -/
def derResult {α : Type} : Option α → Except String α
  | none => .error "ASN.1 DER error"
  | some a => .ok a

theorem derResult_eq_ok_iff {α : Type} {result : Option α} {a : α} :
    derResult result = .ok a ↔ result = some a := by
  cases result with
  | none => exact iff_of_false nofun nofun
  | some b => rw [derResult, Except.ok.injEq, Option.some.injEq]

/-- A crate with lengths of 32 bits, for tags of one byte. -/
@[reducible] def derCrate : DerCrate where
  lengthMax := 2 ^ 32 - 1
  sliceReader bytes := derResult (if bytes.length < 2 ^ 32 then some bytes else none)
  header bytes := derResult (bytes.head?.bind fun _ => Der.readLength bytes.tail)
  sequence bytes := derResult (Der.readValue 0x30 bytes)
  octetString bytes := derResult (Der.readValue 0x04 bytes)
  finish bytes := derResult (if bytes = [] then some () else none)
  octetStringRef bytes := derResult (if bytes.length < 2 ^ 32 then some () else none)
  encodedLen bytes :=
    let n := (Der.encode 0x04 bytes).length
    derResult (if n < 2 ^ 32 then some n else none)
  addLength a b := derResult (if a + b < 2 ^ 32 then some (a + b) else none)
  encodeInto room bytes :=
    let out := Der.encode 0x04 bytes
    derResult (if out.length ≤ room then some out else none)

theorem derResult_ite {α : Type} {p : Prop} [Decidable p] {a b : α} :
    derResult (if p then some a else none) = .ok b ↔ b = a ∧ p := by
  rw [derResult_eq_ok_iff]
  split
  · next hp => rw [Option.some.injEq, eq_comm, and_iff_left hp]
  · next hp => exact iff_of_false nofun fun h => hp h.2

theorem lt_lengthMax_iff {n : ℕ} : n < 2 ^ 32 ↔ n ≤ derCrate.lengthMax :=
  Nat.lt_iff_le_pred (by decide)

/-- A parser with the lengths of DER keeps the laws asked of the crate. -/
theorem derCrate_lawful : @Lawful derCrate := by
  refine @Lawful.mk derCrate (by decide) (by decide) ?_ ?_ ?_ ?_ ?_ ?_ ?_ ?_ ?_ ?_
  · exact fun bytes reader => derResult_ite.trans (and_congr_right fun _ => lt_lengthMax_iff)
  · intro bytes len rest h
    obtain ⟨tag, htag, hread⟩ := Option.bind_eq_some_iff.mp (derResult_eq_ok_iff.mp h)
    obtain ⟨tail, rfl⟩ := List.head?_eq_some_iff.mp htag
    obtain ⟨hlen, htail⟩ := Der.readLength_eq_some_iff.mp hread
    exact ⟨lt_lengthMax_iff.mp hlen, [tag], List.cons_ne_nil _ _, congrArg (tag :: ·) htail⟩
  · intro len rest hlen
    exact derResult_eq_ok_iff.mpr (Der.readLength_lengthOctets (lt_lengthMax_iff.mpr hlen) rest)
  · intro bytes contents rest
    exact (derResult_eq_ok_iff.trans Der.readValue_eq_some_iff).trans
      (and_congr_left fun _ => lt_lengthMax_iff)
  · intro bytes contents rest
    exact (derResult_eq_ok_iff.trans Der.readValue_eq_some_iff).trans
      (and_congr_left fun _ => lt_lengthMax_iff)
  · exact fun bytes => derResult_ite.trans (and_iff_right rfl)
  · exact fun bytes => derResult_ite.trans ((and_iff_right rfl).trans lt_lengthMax_iff)
  · intro bytes n
    exact derResult_ite.trans (and_congr_right fun hn => by rw [hn]; exact lt_lengthMax_iff)
  · intro a b n
    exact derResult_ite.trans (and_congr_right fun hn => by rw [hn]; exact lt_lengthMax_iff)
  · intro room bytes out
    exact derResult_ite.trans (and_congr_right fun hout => by rw [hout])

/-- A key and a signature of one byte each. -/
theorem signedKey_codec_bytes :
    @decodeSignedKey derCrate [0x30, 6, 4, 1, 7, 4, 1, 8] = .ok ([7], [8]) ∧
    @encodeSignedKey derCrate [7] [8] = .ok [0x30, 6, 4, 1, 7, 4, 1, 8] := by
  have hread : @decodeSignedKey derCrate [0x30, 6, 4, 1, 7, 4, 1, 8] = .ok ([7], [8]) := by decide
  exact ⟨hread, (@signedKey_codec derCrate derCrate_lawful).2.1 _ _ _ hread (by decide)⟩

end Minip2p
