import Minip2p.Tls.Verify

/-!
# Certificates of the host

`generate_certificate_with_rng` of `crates/tls/src/generate.rs`. The random source is the ephemeral
key it gives; signing keys are their bytes. `CertificateLaws` is what the crates promise: a scheme
verifies what it signs, a certificate is read back from its encoding, and the builder signs the
encoding of the part it has built.
-/

namespace Minip2p

/-- The signing side of the `p256` crate. -/
class P256Signer where
  /-- The SEC1 form of the public key. -/
  verifyingKey : Bytes → Bytes
  sign : (signingKey message : Bytes) → Bytes
  toPublicKeyDer : Bytes → Except String Bytes
  /-- `SubjectPublicKeyInfoOwned::from_key` -/
  spkiFromKey : Bytes → Except String SubjectPublicKeyInfo
  toPkcs8Der : Bytes → Except String Bytes

/-- The building side of the `x509-cert` crate. -/
class X509Builder where
  /-- `SerialNumber::new` -/
  serialNumber : Bytes → Except String Bytes
  /-- `CertificateBuilder::new` with the names of a profile. -/
  builderNew : (issuer subject : String) → (serialNumber : Bytes) → Validity →
    SubjectPublicKeyInfo → Except String TbsCertificate
  addExtension : TbsCertificate → Extension → Except String TbsCertificate
  /-- `build` with the extensions of a profile and a signing key. -/
  build : TbsCertificate → List Extension → Bytes → Except String Certificate
  tbsToDer : TbsCertificate → Except String Bytes
  toDer : Certificate → Except String Bytes

/-! ## The profile -/

/-- `Libp2pProfile::get_subject` -/
def libp2pSubject : String := "O=libp2p.io,serialNumber=1"

/-- `Libp2pProfile::get_issuer` -/
def libp2pIssuer (subject : String) : String := subject

/-- `Libp2pProfile::build_extensions` -/
def libp2pExtensions : List Extension := []

/-- The extension that `Libp2pExtension` encodes to. -/
def libp2pExtension (signedKeyDer : Bytes) : Extension := ⟨libp2pExtensionOid, false, signedKeyDer⟩

section

variable [DerCrate] [X509Builder] [P256Signer] [Ed25519Dalek]

/-- Generates a libp2p TLS certificate from an Ed25519 host keypair: the certificate and the
ephemeral private key. -/
def generateCertificateWithRng (keypair : Ed25519Keypair) (validity : Validity)
    (ephemeralSigningKey : Bytes) : Except TlsError (Bytes × Bytes) :=
  Except.mapError TlsError.certificateGeneration do
    let ephemeralVerifyingKey := P256Signer.verifyingKey ephemeralSigningKey
    let spkiDer ← P256Signer.toPublicKeyDer ephemeralVerifyingKey
    let hostSignature := keypair.sign (signaturePrefix ++ spkiDer)
    let publicKeyProtobuf := keypair.publicKey.encodeProtobuf
    let signedKeyDer ← encodeSignedKey publicKeyProtobuf hostSignature.toList
    let serialNumber ← X509Builder.serialNumber [0x49, 0x96, 0x02, 0xd2]
    let spkiOwned ← P256Signer.spkiFromKey ephemeralVerifyingKey
    let builder ← X509Builder.builderNew (libp2pIssuer libp2pSubject) libp2pSubject serialNumber
      validity spkiOwned
    let builder ← X509Builder.addExtension builder (libp2pExtension signedKeyDer)
    let cert ← X509Builder.build builder libp2pExtensions ephemeralSigningKey
    let certDer ← X509Builder.toDer cert
    let keyDoc ← P256Signer.toPkcs8Der ephemeralSigningKey
    return (certDer, keyDoc)

end

/-! ## Generated certificates are accepted -/

/-- What the crates promise of the certificates they build. -/
structure CertificateLaws [DerCrate] [X509Crate] [X509Builder] [P256Crate] [P256Signer] : Prop where
  isVerifyingKey : ∀ signingKey, P256Crate.isVerifyingKey (P256Signer.verifyingKey signingKey)
  isDerSignature : ∀ signingKey message,
    P256Crate.isDerSignature (P256Signer.sign signingKey message)
  verify_sign : ∀ signingKey message, P256Crate.verify (P256Signer.verifyingKey signingKey) message
    (P256Signer.sign signingKey message)
  spki : ∀ verifyingKey spki der, P256Signer.toPublicKeyDer verifyingKey = .ok der →
    P256Signer.spkiFromKey verifyingKey = .ok spki →
      X509Crate.spkiToDer spki = .ok der ∧ spki.subjectPublicKey = verifyingKey
  builderNew : ∀ issuer subject serialNumber validity spki tbs,
    X509Builder.builderNew issuer subject serialNumber validity spki = .ok tbs →
      tbs.subjectPublicKeyInfo = spki ∧ tbs.extensions = none
  addExtension : ∀ tbs ext tbs', X509Builder.addExtension tbs ext = .ok tbs' →
    tbs'.subjectPublicKeyInfo = tbs.subjectPublicKeyInfo ∧
      tbs'.extensions = some (tbs.extensions.getD [] ++ [ext])
  /-- For a profile without extensions the builder keeps those it was given, names ECDSA as the
  algorithm of the key and signs the encoding of the result. -/
  build : ∀ tbs signingKey cert, X509Builder.build tbs [] signingKey = .ok cert →
    cert.signatureAlgorithm = ecdsaSha256Oid ∧
    cert.tbsCertificate = { tbs with signature := ecdsaSha256Oid } ∧
    ∃ der, X509Builder.tbsToDer cert.tbsCertificate = .ok der ∧
      cert.signature = P256Signer.sign signingKey der
  fromDer_toDer : ∀ cert der, X509Builder.toDer cert = .ok der → X509Crate.fromDer der = .ok cert
  /-- A certificate is a SEQUENCE that starts with its signed part, which is a SEQUENCE. -/
  toDer : ∀ cert der, X509Builder.toDer cert = .ok der → der.length ≤ DerCrate.lengthMax ∧
    ∃ contents behind,
      X509Builder.tbsToDer cert.tbsCertificate = .ok (Der.encode 0x30 contents) ∧
      der = Der.encode 0x30 (Der.encode 0x30 contents ++ behind)

section

variable [DerCrate]

/-- The signed part is cut out of an encoded certificate. -/
theorem yields_extractTbsDer (hlaw : DerCrate.Lawful) {contents behind : Bytes}
    (hlen : (Der.encode 0x30 (Der.encode 0x30 contents ++ behind)).length ≤ DerCrate.lengthMax) :
    Yields (extractTbsDer (Der.encode 0x30 (Der.encode 0x30 contents ++ behind)))
      (Der.encode 0x30 contents) := by
  have hmax := hlaw.lengthMax_lt
  have hinner := Der.length_encode 0x30 contents
  have houter := Der.length_encode 0x30 (Der.encode 0x30 contents ++ behind)
  have hvalue : (Der.encode 0x30 contents ++ behind).length =
      (Der.encode 0x30 contents).length + behind.length := List.length_append
  have hcontents : (contents ++ behind).length = contents.length + behind.length :=
    List.length_append
  have hhead : DerCrate.header (Der.encode 0x30 contents ++ behind) =
      .ok (contents.length, contents ++ behind) := by
    rw [Der.encode, List.cons_append, List.append_assoc]
    exact hlaw.header_sequence _ _ (by omega)
  have hslice := (hlaw.sliceReader_iff _ _).mpr ⟨rfl, hlen⟩
  have hfirst : DerCrate.header (Der.encode 0x30 (Der.encode 0x30 contents ++ behind)) =
      .ok ((Der.encode 0x30 contents ++ behind).length, Der.encode 0x30 contents ++ behind) :=
    hlaw.header_sequence _ _ (by omega)
  rw [extractTbsDer]
  simp only [Yields.bind_iff, yields_mapErr_iff, Prod.exists]
  refine ⟨_, hslice, _, _, hfirst, _, Yields.lift_iff.mpr (Exec.sub_eq_ok (by omega)), _, _, hhead,
    _, Yields.lift_iff.mpr (Exec.sub_eq_ok (by omega)),
    _, Yields.lift_iff.mpr (Exec.add_eq_ok (by omega)),
    _, Yields.lift_iff.mpr (Exec.add_eq_ok (by omega)), ?_⟩
  rw [if_neg (by omega), Yields.lift_iff, Exec.slice_eq_ok (by omega) (by omega), Except.ok.injEq]
  have hparts : Der.encode 0x30 (Der.encode 0x30 contents ++ behind) =
      (0x30 :: Der.lengthOctets (Der.encode 0x30 contents ++ behind).length) ++
        ((0x30 :: Der.lengthOctets contents.length) ++ (contents ++ behind)) := by
    simp [Der.encode]
  have hfirstLen : (0x30 :: Der.lengthOctets (Der.encode 0x30 contents ++ behind).length).length =
      1 + (Der.lengthOctets (Der.encode 0x30 contents ++ behind).length).length := by
    rw [List.length_cons, add_comm]
  have hsecondLen : (0x30 :: Der.lengthOctets contents.length).length =
      1 + (Der.lengthOctets contents.length).length := by
    rw [List.length_cons, add_comm]
  have hcut := drop_take_append
    (0x30 :: Der.lengthOctets (Der.encode 0x30 contents ++ behind).length)
    (0x30 :: Der.lengthOctets contents.length) (contents ++ behind) (n := contents.length) rfl rfl
  rw [← hparts, List.take_left, hfirstLen, hsecondLen] at hcut
  refine Eq.trans ?_ hcut
  congr 2
  · omega
  · omega

variable [X509Crate] [X509Builder] [P256Crate] [P256Signer] [Ed25519Dalek]

omit [DerCrate] [X509Crate] [X509Builder] [P256Crate] [P256Signer] [Ed25519Dalek] in
theorem mapError_eq_ok_iff {ε ε' α : Type} {f : ε → ε'} {r : Except ε α} {a : α} :
    r.mapError f = .ok a ↔ r = .ok a := by
  cases r with
  | error e => exact iff_of_false nofun nofun
  | ok b => rw [Except.mapError, Except.ok.injEq, Except.ok.injEq]

omit [X509Crate] [X509Builder] [P256Crate] [P256Signer] in
/-- The signed key of a host is far below the size at which its header would be wrong. -/
theorem decodeSignedKey_of_keypair (hlaw : DerCrate.Lawful) {keypair : Ed25519Keypair}
    {signature : Vector UInt8 64} {signedKeyDer : Bytes}
    (h : encodeSignedKey keypair.publicKey.encodeProtobuf signature.toList = .ok signedKeyDer) :
    decodeSignedKey signedKeyDer = .ok (keypair.publicKey.encodeProtobuf, signature.toList) := by
  have hmax := hlaw.le_lengthMax
  obtain ⟨-, rfl⟩ := (encodeSignedKey_eq_ok_iff hlaw).mp h
  have hlen : (signedKeyContents keypair.publicKey.encodeProtobuf signature.toList).length =
      104 := by
    have hpk := PublicKey.length_encodeProtobuf_ed25519 keypair.publicKeyBytes
    rw [signedKeyContents, List.length_append, Der.length_encode, Der.length_encode,
      Ed25519Keypair.publicKey, hpk, signature.length_toList, Der.length_lengthOctets,
      Der.length_lengthOctets]
    rfl
  rw [signedKeyHeader_eq (by omega), decodeSignedKey_eq_ok_iff hlaw, List.cons_append]
  refine ⟨?_, rfl⟩
  rw [List.length_cons, List.length_append, Der.length_lengthOctets, hlen]
  exact Nat.le_trans (by decide) hmax

/-- A generated certificate attests the host key of the keypair it was generated for. -/
theorem attestation_of_generate (hlaw : DerCrate.Lawful) (hlaws : CertificateLaws)
    (hcorrect : Ed25519Dalek.Correct) {keypair : Ed25519Keypair} {validity : Validity}
    {ephemeral certDer keyDer : Bytes}
    (h : generateCertificateWithRng keypair validity ephemeral = .ok (certDer, keyDer)) :
    Nonempty (Attestation certDer keypair.publicKeyBytes) := by
  rw [generateCertificateWithRng, mapError_eq_ok_iff] at h
  simp only [Except.bind_eq_ok_iff] at h
  obtain ⟨spkiDer, hspkiDer, signedKeyDer, hsignedKey, serial, -, spki, hspki, tbs, htbs, tbs',
    htbs', cert, hcert, certDer', hcertDer, keyDoc, -, heq⟩ := h
  obtain ⟨rfl, rfl⟩ := Prod.mk.inj (Except.ok.inj heq)
  obtain ⟨hkey, hsigned⟩ := keypair.verifyStrict_sign hcorrect (signaturePrefix ++ spkiDer)
  obtain ⟨hencoded, hsec1⟩ := hlaws.spki _ _ _ hspkiDer hspki
  obtain ⟨hspkiTbs, hnone⟩ := hlaws.builderNew _ _ _ _ _ _ htbs
  obtain ⟨hspkiTbs', hexts⟩ := hlaws.addExtension _ _ _ htbs'
  obtain ⟨halgorithm, htbsCert, tbsDer, htbsDer, hsignature⟩ := hlaws.build _ _ _ hcert
  obtain ⟨hlen, contents, behind, hcontents, rfl⟩ := hlaws.toDer _ _ hcertDer
  obtain rfl := Except.ok.inj (htbsDer.symm.trans hcontents)
  have hspkiCert : cert.tbsCertificate.subjectPublicKeyInfo = spki := by
    rw [htbsCert, hspkiTbs', hspkiTbs]
  have hextsCert : cert.tbsCertificate.extensions = some [libp2pExtension signedKeyDer] := by
    rw [htbsCert, hexts, hnone]
    rfl
  have htbsSignature : cert.tbsCertificate.signature = ecdsaSha256Oid := by rw [htbsCert]
  have hfound : cert.libp2pExtension? = some (libp2pExtension signedKeyDer) := by
    rw [Certificate.libp2pExtension?, hextsCert, Option.bind_some, List.find?_cons]
    simp [libp2pExtension]
  exact ⟨{
    cert, spkiDer
    tbsDer := Der.encode 0x30 contents
    libp2pExt := libp2pExtension signedKeyDer
    signature := keypair.sign (signaturePrefix ++ spkiDer)
    parsed := hlaws.fromDer_toDer _ _ hcertDer
    signatureAlgorithm := halgorithm
    tbsSignature := htbsSignature
    extracted := yields_extractTbsDer hlaw hlen
    isVerifyingKey := by
      rw [hspkiCert, hsec1]
      exact hlaws.isVerifyingKey _
    isDerSignature := by
      rw [hsignature]
      exact hlaws.isDerSignature _ _
    selfSigned := by
      rw [hspkiCert, hsec1, hsignature]
      exact hlaws.verify_sign _ _
    encoded := by rw [hspkiCert, hencoded]
    found := hfound
    signedKey := decodeSignedKey_of_keypair hlaw hsignedKey
    isHostKey := hkey
    hostSigned := hsigned }⟩

/-- A certificate is generated for one host: whatever the validity period and the ephemeral key,
it is accepted, and the peer id it proves is that of the keypair. -/
theorem verify_generate [Sha256] (hlaw : DerCrate.Lawful) (hlaws : CertificateLaws)
    (hcorrect : Ed25519Dalek.Correct) {keypair : Ed25519Keypair} {validity : Validity}
    {ephemeral certDer keyDer : Bytes}
    (h : generateCertificateWithRng keypair validity ephemeral = .ok (certDer, keyDer)) :
    Yields (verifyLibp2pCertificate certDer) keypair.peerId :=
  (yields_verifyLibp2pCertificate_iff hlaw).mpr
    ⟨keypair.publicKeyBytes, rfl, attestation_of_generate hlaw hlaws hcorrect h⟩

end

/-! ## A certificate

The certificate of the host with the secret key of 32 sevens and an ephemeral key of 32 nines. The
crates are tables of what they compute for it. -/

namespace Sample

/-- The first `n` of some bytes. -/
def vectorOf (n : Nat) (bytes : Bytes) : Vector UInt8 n := .ofFn fun i => bytes.getD i 0

/-- The secret key of the host. -/
def hostSecret : Vector UInt8 32 := .replicate 32 7

/-- Its public key. -/
def hostKey : Vector UInt8 32 := vectorOf 32
  [234, 74, 108, 99, 226, 156, 82, 10, 190, 245, 80, 123, 19, 46, 197, 249, 149, 71, 118, 174,
   190, 190, 123, 146, 66, 30, 234, 105, 20, 70, 210, 44]

/-- Its signature on the ephemeral key. -/
def hostSignature : Vector UInt8 64 := vectorOf 64
  [206, 82, 15, 1, 183, 124, 48, 110, 233, 13, 80, 130, 92, 127, 31, 151, 109, 111, 240, 17, 233,
   231, 144, 14, 106, 136, 133, 39, 166, 103, 91, 213, 84, 94, 156, 3, 156, 42, 41, 116, 211, 225,
   181, 238, 180, 100, 54, 232, 24, 18, 168, 140, 199, 7, 13, 185, 62, 136, 245, 62, 16, 248, 214,
   13]

/-- The ephemeral secret key. -/
def ephemeral : Bytes := List.replicate 32 9

/-- The point of the ephemeral key, in SEC1 form. -/
def point : Bytes :=
  [4, 113, 53, 250, 79, 217, 58, 9, 220, 233, 139, 191, 104, 27, 75, 252, 245, 14, 124, 13, 99,
   84, 230, 42, 251, 11, 255, 42, 52, 41, 97, 120, 101, 237, 76, 31, 2, 221, 185, 2, 62, 229, 106,
   85, 126, 81, 93, 106, 157, 198, 108, 17, 242, 32, 150, 13, 229, 148, 51, 77, 245, 136, 119,
   103, 36]

/-- The encoding of the ephemeral public key. -/
def spkiDer : Bytes :=
  [48, 89, 48, 19, 6, 7, 42, 134, 72, 206, 61, 2, 1, 6, 8, 42, 134, 72, 206, 61, 3, 1, 7, 3, 66,
   0] ++ point

/-- The ephemeral public key. -/
def spki : SubjectPublicKeyInfo := ⟨⟨[1, 2, 840, 10045, 2, 1]⟩, point⟩

/-- The contents of the libp2p extension. -/
def signedKeyDer : Bytes :=
  Der.encode 0x30 (signedKeyContents ([8, 1, 18, 32] ++ hostKey.toList) hostSignature.toList)

/-- A period of validity. -/
def validity : Validity := ⟨1600000000, 4700000000⟩

/-- The signed part of the certificate. -/
def tbsCertificate : TbsCertificate where
  serialNumber := [0x49, 0x96, 0x02, 0xd2]
  signature := ecdsaSha256Oid
  issuer := libp2pSubject
  validity := validity
  subject := libp2pSubject
  subjectPublicKeyInfo := spki
  extensions := some [libp2pExtension signedKeyDer]

/-- The algorithm identifier of ECDSA. -/
def algorithmDer : Bytes := [48, 10, 6, 8, 42, 134, 72, 206, 61, 4, 3, 2]

/-- The encoding of the names. -/
def nameDer : Bytes :=
  [48, 32, 49, 10, 48, 8, 6, 3, 85, 4, 5, 19, 1, 49, 49, 18, 48, 16, 6, 3, 85, 4, 10, 12, 9, 108,
   105, 98, 112, 50, 112, 46, 105, 111]

/-- The encoding of the period of validity. -/
def validityDer : Bytes :=
  [48, 32, 23, 13, 50, 48, 48, 57, 49, 51, 49, 50, 50, 54, 52, 48, 90, 24, 15, 50, 49, 49, 56, 49,
   50, 48, 57, 48, 48, 50, 48, 48, 48, 90]

/-- The extensions, with their tags around the signed key. -/
def extensionsDer : Bytes :=
  Der.encode 0xa3 (Der.encode 0x30 (Der.encode 0x30
    ([6, 10, 43, 6, 1, 4, 1, 131, 162, 90, 1, 1] ++ Der.encode 0x04 signedKeyDer)))

/-- The contents of the signed part. -/
def tbsContents : Bytes :=
  [160, 3, 2, 1, 2, 2, 4, 73, 150, 2, 210] ++ algorithmDer ++ nameDer ++ validityDer ++ nameDer ++
    spkiDer ++ extensionsDer

/-- The encoding of the signed part. -/
def tbsDer : Bytes := Der.encode 0x30 tbsContents

/-- The signature of the ephemeral key on the signed part. -/
def certSignature : Bytes :=
  [48, 70, 2, 33, 0, 206, 56, 84, 219, 195, 2, 169, 146, 169, 67, 243, 192, 155, 100, 186, 77, 49,
   88, 136, 48, 215, 114, 190, 126, 171, 198, 166, 24, 86, 253, 97, 180, 2, 33, 0, 241, 164, 224,
   98, 74, 190, 47, 200, 48, 137, 247, 109, 11, 86, 86, 202, 3, 1, 174, 141, 225, 206, 198, 232,
   71, 142, 133, 93, 11, 1, 181, 208]

/-- The certificate. -/
def certificate : Certificate := ⟨tbsCertificate, ecdsaSha256Oid, certSignature⟩

/-- Its encoding. -/
def certDer : Bytes :=
  Der.encode 0x30 (tbsDer ++ (algorithmDer ++ Der.encode 0x03 (0 :: certSignature)))

/-- The encoding of the ephemeral secret key. -/
def keyDer : Bytes :=
  [48, 129, 135, 2, 1, 0, 48, 19, 6, 7, 42, 134, 72, 206, 61, 2, 1, 6, 8, 42, 134, 72, 206, 61, 3,
   1, 7, 4, 109, 48, 107, 2, 1, 1, 4, 32, 9, 9, 9, 9, 9, 9, 9, 9, 9, 9, 9, 9, 9, 9, 9, 9, 9, 9, 9,
   9, 9, 9, 9, 9, 9, 9, 9, 9, 9, 9, 9, 9, 161, 68, 3, 66, 0]
    ++ point

/-- The `ed25519-dalek` crate, as far as the host key goes. -/
@[reducible] def ed25519 : Ed25519Dalek where
  verifyingKey secretKey :=
    if secretKey = hostSecret then hostKey
    else if secretKey = hostKey then .replicate 32 0 else secretKey
  sign secretKey message :=
    if secretKey = hostSecret ∧ message = signaturePrefix ++ spkiDer then hostSignature
    else .replicate 64 0
  isVerifyingKey _ := true
  verifyStrict key message signature :=
    signature = if key = hostKey ∧ message = signaturePrefix ++ spkiDer then hostSignature
      else .replicate 64 0

/-- The `p256` crate, as far as the ephemeral key goes. -/
@[reducible] def p256 : P256Crate where
  isVerifyingKey _ := true
  isDerSignature _ := true
  verify key message signature :=
    signature = if key = point ∧ message = tbsDer then certSignature else []

/-- The signing side of the `p256` crate for the ephemeral key. -/
@[reducible] def p256Signer : P256Signer where
  verifyingKey signingKey := if signingKey = ephemeral then point else []
  sign signingKey message :=
    if signingKey = ephemeral ∧ message = tbsDer then certSignature else []
  toPublicKeyDer key := derResult (if key = point then some spkiDer else none)
  spkiFromKey key := derResult (if key = point then some spki else none)
  toPkcs8Der signingKey := derResult (if signingKey = ephemeral then some keyDer else none)

/-- The parser, which knows this certificate. -/
@[reducible] def x509 : X509Crate where
  fromDer der := derResult (if der = certDer then some certificate else none)
  spkiToDer info := derResult (if info = spki then some spkiDer else none)

/-- The builder, which makes this certificate. -/
@[reducible] def x509Builder : X509Builder where
  serialNumber bytes := .ok bytes
  builderNew issuer subject serialNumber validity subjectPublicKeyInfo :=
    .ok { issuer, subject, serialNumber, validity, subjectPublicKeyInfo
          signature := ecdsaSha256Oid, extensions := none }
  addExtension tbs ext := .ok { tbs with extensions := some (tbs.extensions.getD [] ++ [ext]) }
  build tbs exts signingKey :=
    let extensions := if exts = [] then tbs.extensions else some (tbs.extensions.getD [] ++ exts)
    let tbs := { tbs with signature := ecdsaSha256Oid, extensions }
    if tbs = tbsCertificate then
      .ok ⟨tbs, ecdsaSha256Oid, @P256Signer.sign p256Signer signingKey tbsDer⟩
    else .error "invalid certificate"
  tbsToDer tbs := derResult (if tbs = tbsCertificate then some tbsDer else none)
  toDer cert := derResult (if cert = certificate then some certDer else none)

theorem ed25519_correct : @Ed25519Dalek.Correct ed25519 := by
  refine @Ed25519Dalek.Correct.mk ed25519 (fun _ => rfl) fun secretKey message => ?_
  have hkey : @Ed25519Dalek.verifyingKey ed25519 secretKey = hostKey ↔ secretKey = hostSecret := by
    show (if secretKey = hostSecret then hostKey
      else if secretKey = hostKey then .replicate 32 0 else secretKey) = hostKey ↔ _
    have hzero : (Vector.replicate 32 0 : Vector UInt8 32) ≠ hostKey := by decide
    split_ifs with hsecret hhost
    · exact iff_of_true rfl hsecret
    · exact iff_of_false hzero hsecret
    · exact iff_of_false hhost hsecret
  refine decide_eq_true ?_
  simp only [hkey]
  rfl

theorem point_eq_verifyingKey_iff {signingKey : Bytes} :
    @P256Signer.verifyingKey p256Signer signingKey = point ↔ signingKey = ephemeral := by
  show (if signingKey = ephemeral then point else []) = point ↔ _
  split_ifs with hsigning
  · exact iff_of_true rfl hsigning
  · exact iff_of_false (by decide) hsigning

/-- The toy crates keep the laws that `CertificateLaws` asks of the real ones. -/
theorem laws : @CertificateLaws derCrate x509 x509Builder p256 p256Signer := by
  refine @CertificateLaws.mk derCrate x509 x509Builder p256 p256Signer (fun _ => rfl)
    (fun _ _ => rfl) ?_ ?_ ?_ ?_ ?_ ?_ ?_
  · intro signingKey message
    refine decide_eq_true ?_
    simp only [point_eq_verifyingKey_iff]
    rfl
  · intro key info der hder hinfo
    obtain ⟨rfl, hkey⟩ := derResult_ite.mp hder
    obtain ⟨rfl, -⟩ := derResult_ite.mp hinfo
    exact ⟨derResult_ite.mpr ⟨rfl, rfl⟩, hkey.symm⟩
  · intro issuer subject serialNumber validity info tbs h
    obtain rfl := Except.ok.inj h
    exact ⟨rfl, rfl⟩
  · intro tbs ext tbs' h
    obtain rfl := Except.ok.inj h
    exact ⟨rfl, rfl⟩
  · intro tbs signingKey cert h
    simp only [X509Builder.build, if_pos] at h
    split at h
    · next htbs =>
      obtain rfl := Except.ok.inj h
      exact ⟨rfl, rfl, tbsDer, derResult_ite.mpr ⟨rfl, htbs⟩, rfl⟩
    · cases h
  · intro cert der h
    obtain ⟨rfl, rfl⟩ := derResult_ite.mp h
    exact derResult_ite.mpr ⟨rfl, rfl⟩
  · intro cert der h
    obtain ⟨rfl, rfl⟩ := derResult_ite.mp h
    exact ⟨by decide +kernel, tbsContents, _, derResult_ite.mpr ⟨rfl, rfl⟩, rfl⟩

/-- A digest that does not look at the bytes. -/
@[reducible] def sha256 : Sha256 := ⟨fun _ => Vector.replicate 32 0⟩

/-- The certificate and the key that the toy crates make for the sample identity. -/
theorem generated : @generateCertificateWithRng derCrate x509Builder p256Signer ed25519
    (@Ed25519Keypair.fromSecretKeyBytes ed25519 hostSecret) validity ephemeral =
      .ok (certDer, keyDer) := by
  decide +kernel

/-- The sample certificate carries an attestation of the host key. -/
theorem attested : Nonempty (@Attestation derCrate x509 p256 ed25519 certDer hostKey) :=
  @attestation_of_generate derCrate x509 x509Builder p256 p256Signer ed25519 derCrate_lawful laws
    ed25519_correct _ _ _ _ _ generated

end Sample

open Sample in
/-- The sample certificate is accepted as that of its host. -/
theorem verify_generate_sample :
    @Yields TlsError PeerId (@verifyLibp2pCertificate derCrate x509 p256 ed25519 sha256 certDer)
      (@Ed25519Keypair.peerId ed25519 sha256
        (@Ed25519Keypair.fromSecretKeyBytes ed25519 hostSecret)) :=
  @verify_generate derCrate x509 x509Builder p256 p256Signer ed25519 sha256 derCrate_lawful laws
    ed25519_correct _ _ _ _ _ generated

open Sample in
/-- The sample certificate proves the peer id of its host key. -/
theorem verifyLibp2pCertificate_authentic_sample :
    @Yields TlsError PeerId (@verifyLibp2pCertificate derCrate x509 p256 ed25519 sha256 certDer)
      (@PeerId.fromPublicKey sha256 ⟨.ed25519, hostKey.toList⟩) :=
  (@verifyLibp2pCertificate_authentic derCrate x509 p256 ed25519 sha256 derCrate_lawful certDer
    _).1.mpr ⟨hostKey, rfl, attested⟩

open Sample in
/-- Nothing in the sample certificate makes the verification panic. -/
theorem returns_verifyLibp2pCertificate_iff_sample :
    Exec.Returns (@verifyLibp2pCertificate derCrate x509 p256 ed25519 sha256 certDer).run := by
  refine (@returns_verifyLibp2pCertificate_iff derCrate x509 p256 ed25519 sha256 derCrate_lawful
    certDer).mpr ?_
  rintro publicKeyBytes ⟨cert, signatureBytes, hparsed, -, hext⟩
  obtain ⟨rfl, -⟩ := derResult_ite.mp hparsed
  have hfound : (@readExtension derCrate certificate).run =
      .ok (.ok ([8, 1, 18, 32] ++ hostKey.toList, hostSignature.toList)) := by decide +kernel
  obtain ⟨rfl, -⟩ := Prod.mk.inj (Except.ok.inj (Except.ok.inj (hfound.symm.trans hext)))
  have hdecode : (PublicKey.decodeProtobuf ([8, 1, 18, 32] ++ hostKey.toList)).run =
      .ok (.ok ⟨.ed25519, hostKey.toList⟩) := by decide +kernel
  exact (PublicKey.returns_decodeProtobuf_iff (by decide)).mp ⟨_, hdecode⟩

end Minip2p
