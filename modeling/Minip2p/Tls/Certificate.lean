import Minip2p.Core.Multiaddr
import Minip2p.Identity.Ed25519
import Minip2p.Tls.SignedKey

/-!
# Certificates

`verify_libp2p_certificate` of `crates/tls/src/verify.rs`: the self-signature of an X.509
certificate, the libp2p extension, the signature of the host key over the key of the certificate,
and the peer id. X.509 (`x509-cert`, `spki`) and ECDSA P-256 (`p256`, `ecdsa`) are crates and
parameters of the model. A certificate is what its accessors return.

A verification runs in `Fallible`: it computes positions in the certificate and slices it, and it
decodes a public key, which can panic.
-/

namespace Minip2p

/-- An object identifier. -/
structure ObjectIdentifier where
  arcs : List Nat
deriving DecidableEq, Repr

/-- The `Display` text. -/
def ObjectIdentifier.display (oid : ObjectIdentifier) : String :=
  ".".intercalate (oid.arcs.map toString)

/-- OID for the libp2p Public Key Extension. -/
def libp2pExtensionOid : ObjectIdentifier := ⟨[1, 3, 6, 1, 4, 1, 53594, 1, 1]⟩

/-- ecdsa-with-SHA256 -/
def ecdsaSha256Oid : ObjectIdentifier := ⟨[1, 2, 840, 10045, 4, 3, 2]⟩

/-- Prefix prepended to the SubjectPublicKeyInfo before signing with the host key. -/
def signaturePrefix : Bytes := asBytes "libp2p-tls-handshake:"

/-- An extension of a certificate. -/
structure Extension where
  extnId : ObjectIdentifier
  critical : Bool
  extnValue : Bytes
deriving DecidableEq, Repr

/-- The public key of a certificate, with its algorithm. -/
structure SubjectPublicKeyInfo where
  algorithm : ObjectIdentifier
  subjectPublicKey : Bytes
deriving DecidableEq, Repr

/-- The validity period, in seconds of Unix time. -/
structure Validity where
  notBefore : Nat
  notAfter : Nat
deriving DecidableEq, Repr

/-- The signed part of a certificate. -/
structure TbsCertificate where
  serialNumber : Bytes
  signature : ObjectIdentifier
  issuer : String
  validity : Validity
  subject : String
  subjectPublicKeyInfo : SubjectPublicKeyInfo
  extensions : Option (List Extension)
deriving DecidableEq, Repr

/-- A certificate: the signed part, the algorithm of the signature and the signature. -/
structure Certificate where
  tbsCertificate : TbsCertificate
  signatureAlgorithm : ObjectIdentifier
  signature : Bytes
deriving DecidableEq, Repr

/-- What the `x509-cert` and `spki` crates read. -/
class X509Crate where
  /-- `Certificate::from_der` -/
  fromDer : Bytes → Except String Certificate
  /-- `to_der` of a SubjectPublicKeyInfo. -/
  spkiToDer : SubjectPublicKeyInfo → Except String Bytes

/-- The `p256` and `ecdsa` crates: verifying keys in their SEC1 form, signatures in DER. -/
class P256Crate where
  /-- `VerifyingKey::from_sec1_bytes` takes the bytes. -/
  isVerifyingKey : Bytes → Bool
  /-- `DerSignature::from_der` takes the bytes. -/
  isDerSignature : Bytes → Bool
  verify : (verifyingKey message signature : Bytes) → Bool

/-- Errors from libp2p TLS certificate generation and verification. -/
inductive TlsError
  | missingExtension
  | invalidExtension (reason : String)
  | signatureVerification (reason : String)
  | invalidPublicKey (reason : String)
  | invalidSelfSignature
  | unsupportedSignatureAlgorithm (algorithm : String)
  | der (reason : String)
  | peerIdMismatch (expected actual : String)
  | certificateGeneration (reason : String)
deriving DecidableEq, Repr

/-- The `Display` text. -/
def TlsError.display : TlsError → String
  | missingExtension => "missing libp2p TLS extension (OID 1.3.6.1.4.1.53594.1.1)"
  | invalidExtension reason => s!"invalid libp2p TLS extension: {reason}"
  | signatureVerification reason => s!"extension signature verification failed: {reason}"
  | invalidPublicKey reason => s!"invalid public key in certificate extension: {reason}"
  | invalidSelfSignature => "certificate self-signature verification failed"
  | unsupportedSignatureAlgorithm algorithm =>
    s!"unsupported certificate signature algorithm: {algorithm}"
  | der reason => s!"DER encoding/decoding error: {reason}"
  | peerIdMismatch expected actual => s!"peer id mismatch: expected {expected}, got {actual}"
  | certificateGeneration reason => s!"certificate generation failed: {reason}"

/-- A `Result` under `map_err`. -/
def mapErr {ε α : Type} (wrap : ε → TlsError) : Except ε α → Fallible TlsError α
  | .ok a => pure a
  | .error e => throw (wrap e)

section

variable [DerCrate]

/-- Extracts the raw TBSCertificate DER bytes from the certificate's outer SEQUENCE. -/
def extractTbsDer (certDer : Bytes) : Fallible TlsError Bytes := do
  let reader ← mapErr .der (DerCrate.sliceReader certDer)
  let (_, reader) ← mapErr .der (DerCrate.header reader)
  let remainingBefore := reader.length
  let tbsStart ← Exec.sub certDer.length remainingBefore
  let (tbsValueLen, reader) ← mapErr .der (DerCrate.header reader)
  let remainingAfter := reader.length
  let tbsHeaderLen ← Exec.sub remainingBefore remainingAfter
  let tbsValueStart ← Exec.add tbsStart tbsHeaderLen
  let tbsEnd ← Exec.add tbsValueStart tbsValueLen
  if tbsEnd > certDer.length then throw (.der "TBS extends beyond certificate")
  else Exec.slice certDer tbsStart tbsEnd

variable [P256Crate]

/-- Verifies the certificate's ECDSA P-256 self-signature over the TBSCertificate. -/
def verifySelfSignature (certDer : Bytes) (cert : Certificate) : Fallible TlsError Unit :=
  if cert.signatureAlgorithm ≠ ecdsaSha256Oid then
    throw (.unsupportedSignatureAlgorithm cert.signatureAlgorithm.display)
  else if cert.tbsCertificate.signature ≠ cert.signatureAlgorithm then throw .invalidSelfSignature
  else do
    let tbsDer ← extractTbsDer certDer
    let pkBytes := cert.tbsCertificate.subjectPublicKeyInfo.subjectPublicKey
    if !P256Crate.isVerifyingKey pkBytes then throw .invalidSelfSignature
    else if !P256Crate.isDerSignature cert.signature then throw .invalidSelfSignature
    else if !P256Crate.verify pkBytes tbsDer cert.signature then throw .invalidSelfSignature
    else return ()

end

/-- Verifies the host-key signature from the libp2p extension. -/
def verifyHostSignature [Ed25519Dalek] (publicKey : PublicKey) (message signature : Bytes) :
    Except TlsError Unit :=
  match publicKey.keyType with
  | .ed25519 =>
    match toArray? 64 signature with
    | none => .error (.signatureVerification
        s!"invalid Ed25519 signature length: expected 64, got {signature.length}")
    | some sigArray =>
      (publicKey.verify message sigArray).mapError fun e => .signatureVerification e.display
  | other => .error (.signatureVerification
      s!"unsupported host key type for verification: {other.debug}")

/-- The first libp2p extension of a certificate. -/
def Certificate.libp2pExtension? (cert : Certificate) : Option Extension :=
  cert.tbsCertificate.extensions.bind (·.find? fun ext => ext.extnId = libp2pExtensionOid)

/-- The value of the extension: the bytes of the host's public key, and its signature. -/
def readExtension [DerCrate] (cert : Certificate) : Fallible TlsError (Bytes × Bytes) :=
  match cert.libp2pExtension? with
  | none => throw .missingExtension
  | some libp2pExt => mapErr .invalidExtension (decodeSignedKey libp2pExt.extnValue)

/-- The checks on the host key, and the peer id. -/
def verifyHost [X509Crate] [Ed25519Dalek] [Sha256] (cert : Certificate)
    (publicKeyBytes signatureBytes : Bytes) : Fallible TlsError PeerId := do
  let publicKey ← ExceptT.adapt (fun e => TlsError.invalidPublicKey e.display)
    (PublicKey.decodeProtobuf publicKeyBytes)
  let spkiDer ← mapErr .der (X509Crate.spkiToDer cert.tbsCertificate.subjectPublicKeyInfo)
  mapErr id (verifyHostSignature publicKey (signaturePrefix ++ spkiDer) signatureBytes)
  return .fromPublicKey publicKey

/-- Verifies a DER-encoded X.509 certificate per the libp2p TLS spec and returns the remote peer's
`PeerId`. -/
def verifyLibp2pCertificate [DerCrate] [X509Crate] [P256Crate] [Ed25519Dalek] [Sha256]
    (certDer : Bytes) : Fallible TlsError PeerId := do
  let cert ← mapErr .der (X509Crate.fromDer certDer)
  verifySelfSignature certDer cert
  let (publicKeyBytes, signatureBytes) ← readExtension cert
  verifyHost cert publicKeyBytes signatureBytes

end Minip2p
