import Minip2p.Identity.PublicKey

/-!
# Ed25519 identities

`Ed25519Keypair` of `crates/identity/src/ed25519.rs` and `PublicKey::verify` of
`crates/identity/src/key.rs`. The curve is the crate `ed25519-dalek`, a parameter: `Ed25519Dalek` is
what it computes, `Ed25519Dalek.Correct` what a signature scheme promises of it.
-/

namespace Minip2p

/-- `try_into` of a slice into an array. -/
def toArray? {α : Type} (n : Nat) (xs : List α) : Option (Vector α n) :=
  if h : xs.length = n then some ⟨xs.toArray, h⟩ else none

@[simp] theorem toArray?_toList {α : Type} {n : Nat} (xs : Vector α n) :
    toArray? n xs.toList = some xs := by
  rw [toArray?, dif_pos xs.length_toList]
  rfl

/-- A slice of the right length is an array. -/
theorem toArray?_eq_some_iff {α : Type} {n : Nat} {xs : List α} {array : Vector α n} :
    toArray? n xs = some array ↔ xs = array.toList := by
  constructor
  · intro h
    unfold toArray? at h
    split at h
    · cases h
      rfl
    · cases h
  · rintro rfl
    exact toArray?_toList array

/-- The `ed25519-dalek` crate. -/
class Ed25519Dalek where
  /-- The public key of a secret key. -/
  verifyingKey : Vector UInt8 32 → Vector UInt8 32
  sign : Vector UInt8 32 → Bytes → Vector UInt8 64
  /-- `VerifyingKey::from_bytes` takes the bytes. -/
  isVerifyingKey : Vector UInt8 32 → Bool
  verifyStrict : Vector UInt8 32 → Bytes → Vector UInt8 64 → Bool

/-- What is signed with a key passes the check of that key. -/
structure Ed25519Dalek.Correct [Ed25519Dalek] : Prop where
  isVerifyingKey_verifyingKey : ∀ secretKey, isVerifyingKey (verifyingKey secretKey)
  verifyStrict_sign : ∀ secretKey message,
    verifyStrict (verifyingKey secretKey) message (sign secretKey message)

/-- The `Debug` text. -/
def KeyType.debug : KeyType → String
  | rsa => "Rsa"
  | ed25519 => "Ed25519"
  | secp256k1 => "Secp256k1"
  | ecdsa => "Ecdsa"

/-- Errors from signature verification. -/
inductive VerifyError
  | unsupportedKeyType (keyType : KeyType)
  | invalidEd25519PublicKeyLength (actual : Nat)
  | invalidEd25519PublicKey
  | invalidSignature
deriving DecidableEq, Repr

/-- The `Display` text. -/
def VerifyError.display : VerifyError → String
  | unsupportedKeyType keyType =>
    s!"signature verification is unsupported for key type {keyType.debug}"
  | invalidEd25519PublicKeyLength actual =>
    s!"invalid ed25519 public key length: expected 32, got {actual}"
  | invalidEd25519PublicKey => "invalid ed25519 public key bytes"
  | invalidSignature => "signature verification failed"

section

variable [Ed25519Dalek]

/-- Verifies an Ed25519 signature against a public key. -/
def PublicKey.verify (key : PublicKey) (message : Bytes) (signature : Vector UInt8 64) :
    Except VerifyError Unit :=
  match key.keyType with
  | .ed25519 =>
    match toArray? 32 key.data with
    | none => .error (.invalidEd25519PublicKeyLength key.data.length)
    | some publicKeyBytes =>
      if !Ed25519Dalek.isVerifyingKey publicKeyBytes then .error .invalidEd25519PublicKey
      else if !Ed25519Dalek.verifyStrict publicKeyBytes message signature then
        .error .invalidSignature
      else .ok ()
  | other => .error (.unsupportedKeyType other)

/-- An Ed25519 keypair; every constructor derives the public key from the secret key. -/
structure Ed25519Keypair where
  secretKey : Vector UInt8 32
  publicKeyBytes : Vector UInt8 32
  derived : publicKeyBytes = Ed25519Dalek.verifyingKey secretKey

namespace Ed25519Keypair

/-- The keypair of a secret key. -/
def fromSecretKeyBytes (secretKey : Vector UInt8 32) : Ed25519Keypair :=
  ⟨secretKey, Ed25519Dalek.verifyingKey secretKey, rfl⟩

/-- The public key of a keypair. -/
def publicKey (keypair : Ed25519Keypair) : PublicKey :=
  ⟨.ed25519, keypair.publicKeyBytes.toList⟩

/-- The peer id of a keypair. -/
def peerId [Sha256] (keypair : Ed25519Keypair) : PeerId := .fromPublicKey keypair.publicKey

/-- Signs a message. -/
def sign (keypair : Ed25519Keypair) (message : Bytes) : Vector UInt8 64 :=
  Ed25519Dalek.sign keypair.secretKey message

end Ed25519Keypair

/-! ## Signatures -/

/-- A public key takes a signature if it is an Ed25519 key of 32 bytes that does. -/
theorem PublicKey.verify_eq_ok_iff {key : PublicKey} {message : Bytes}
    {signature : Vector UInt8 64} : key.verify message signature = .ok () ↔
      ∃ publicKeyBytes : Vector UInt8 32, key = ⟨.ed25519, publicKeyBytes.toList⟩ ∧
        Ed25519Dalek.isVerifyingKey publicKeyBytes ∧
        Ed25519Dalek.verifyStrict publicKeyBytes message signature := by
  obtain ⟨keyType, data⟩ := key
  constructor
  · intro h
    unfold verify at h
    split at h
    · next htype =>
      split at h
      · cases h
      next publicKeyBytes harray =>
      split_ifs at h with hkey hsignature
      obtain rfl : keyType = .ed25519 := htype
      obtain rfl := toArray?_eq_some_iff.mp harray
      simp only [Bool.not_eq_true', Bool.not_eq_false] at hkey hsignature
      exact ⟨publicKeyBytes, rfl, hkey, hsignature⟩
    · cases h
  · rintro ⟨publicKeyBytes, heq, hkey, hsignature⟩
    rw [heq, verify]
    simp [hkey, hsignature]

/-- The public key of a keypair is one, and takes what the keypair signs. -/
theorem Ed25519Keypair.verifyStrict_sign (hcorrect : Ed25519Dalek.Correct)
    (keypair : Ed25519Keypair) (message : Bytes) :
    Ed25519Dalek.isVerifyingKey keypair.publicKeyBytes ∧
      Ed25519Dalek.verifyStrict keypair.publicKeyBytes message (keypair.sign message) := by
  rw [sign, keypair.derived]
  exact ⟨hcorrect.isVerifyingKey_verifyingKey _, hcorrect.verifyStrict_sign _ _⟩

end

/-! ## The peer id of an Ed25519 key -/

/-- The protobuf of an Ed25519 key takes 36 bytes. -/
theorem PublicKey.encodeProtobuf_ed25519 (publicKeyBytes : Vector UInt8 32) :
    encodeProtobuf ⟨.ed25519, publicKeyBytes.toList⟩ =
      [0x08, 0x01, 0x12, 0x20] ++ publicKeyBytes.toList := by
  have htype : writeUvarint KeyType.ed25519.toU64 = [0x01] := by decide
  have hlength : writeUvarint (UInt64.ofNat publicKeyBytes.toList.length) = [0x20] := by
    rw [publicKeyBytes.length_toList]
    decide
  rw [encodeProtobuf, htype, hlength]
  rfl

/-- The encoding of an Ed25519 key takes 36 bytes. -/
theorem PublicKey.length_encodeProtobuf_ed25519 (publicKeyBytes : Vector UInt8 32) :
    (encodeProtobuf ⟨.ed25519, publicKeyBytes.toList⟩).length = 36 := by
  rw [encodeProtobuf_ed25519, List.length_append, publicKeyBytes.length_toList]
  rfl

/-- It is inlined in the peer id. -/
theorem PeerId.fromPublicKey_ed25519 [Sha256] (publicKeyBytes : Vector UInt8 32) :
    ∃ hsize, fromPublicKey ⟨.ed25519, publicKeyBytes.toList⟩ =
      ⟨identityMultihashCode, [0x08, 0x01, 0x12, 0x20] ++ publicKeyBytes.toList, hsize⟩ := by
  have hlength := PublicKey.length_encodeProtobuf_ed25519 publicKeyBytes
  refine ⟨?_, ?_⟩
  · rw [List.length_append, publicKeyBytes.length_toList]
    decide
  · rw [fromPublicKey, fromPublicKeyProtobuf, dif_pos (by rw [hlength]; decide)]
    simp only [PublicKey.encodeProtobuf_ed25519]

/-- The peer id of an Ed25519 key is that of no other key, of whatever type. -/
theorem PeerId.eq_of_fromPublicKey_ed25519 [Sha256] {publicKeyBytes : Vector UInt8 32}
    {key : PublicKey} (hlen : key.encodeProtobuf.length < 2 ^ 63)
    (h : fromPublicKey key = fromPublicKey ⟨.ed25519, publicKeyBytes.toList⟩) :
    key = ⟨.ed25519, publicKeyBytes.toList⟩ := by
  have hshort := PublicKey.length_encodeProtobuf_ed25519 publicKeyBytes
  have hinline : (PublicKey.encodeProtobuf ⟨.ed25519, publicKeyBytes.toList⟩).length ≤
      maxInlineKeyLength := by
    rw [hshort]
    decide
  have hencode : key.encodeProtobuf =
      PublicKey.encodeProtobuf ⟨.ed25519, publicKeyBytes.toList⟩ := by
    by_cases hkey : key.encodeProtobuf.length ≤ maxInlineKeyLength
    · exact fromPublicKeyProtobuf_inj_of_short hkey hinline h
    · exact absurd h.symm (fromPublicKeyProtobuf_ne_of_short_of_long hinline hkey)
  have hdecode := (PublicKey.yields_decodeProtobuf_iff hlen).mpr hencode.symm
  have hself := (PublicKey.yields_decodeProtobuf_iff hlen).mpr rfl
  exact Except.ok.inj (Except.ok.inj (hself.symm.trans hdecode))

end Minip2p
