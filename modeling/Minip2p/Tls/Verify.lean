import Minip2p.Tls.Certificate

/-!
# What a verified certificate proves

A certificate is accepted when it carries an attestation (`Attestation`): its key has signed the
very bytes of its signed part, and a host key has signed its key. The peer id is that of the host
key, and of no other one. The verification stops early in one case only, a host key whose declared
length leaves the range of `usize`.
-/

namespace Minip2p

open Exec (Returns)

variable {ε α : Type}

/-- Renaming the errors leaves the results alone. -/
@[simp] theorem yields_mapErr_iff {wrap : ε → TlsError} {r : Except ε α} {a : α} :
    Yields (mapErr wrap r) a ↔ r = .ok a := by
  cases r with
  | error e => exact iff_of_false Yields.not_throw nofun
  | ok b => rw [mapErr, Yields.pure_iff, Except.ok.injEq]

theorem returns_mapErr (wrap : ε → TlsError) (r : Except ε α) : Returns (mapErr wrap r).run := by
  cases r with
  | error e => exact Exec.returns_ok _
  | ok a => exact Exec.returns_ok _

theorem safe_mapErr (wrap : ε → TlsError) (r : Except ε α) :
    Safe (mapErr wrap r) (fun a => r = .ok a) := by
  cases r with
  | error e => exact Safe.throw _
  | ok a => exact Safe.pure rfl

/-! ## The signed bytes -/

/-- `tbsDer` is a value with its header, right behind the header of the certificate: the two
headers are those that the decoder reads there. -/
def IsTbs [DerCrate] (certDer tbsDer : Bytes) : Prop :=
  ∃ (outerTag tag contents behind : Bytes) (outerLen : ℕ),
    (outerTag ≠ [] ∧ tag ≠ []) ∧
    tbsDer = tag ++ (Der.lengthOctets contents.length ++ contents) ∧
    certDer = outerTag ++ (Der.lengthOctets outerLen ++ (tbsDer ++ behind)) ∧
    DerCrate.header certDer = .ok (outerLen, tbsDer ++ behind) ∧
    DerCrate.header (tbsDer ++ behind) = .ok (contents.length, contents ++ behind)

/-- What stands between two positions that are counted over two parts in front. -/
theorem drop_take_append (first second rest : Bytes) {i j n : ℕ} (hi : i = first.length)
    (hj : j = first.length + second.length + n) :
    ((first ++ (second ++ rest)).take j).drop i = second ++ rest.take n := by
  subst hi hj
  rw [List.drop_take, List.drop_left, Nat.add_assoc, Nat.add_sub_cancel_left,
    List.take_length_add_append]

section

variable [DerCrate] (hlaw : DerCrate.Lawful)
include hlaw

/-- The header of a value in a buffer, as `extractTbsDer` computes with it. -/
theorem length_of_header {buffer rest : Bytes} {len : ℕ}
    (h : DerCrate.header buffer = .ok (len, rest)) : rest.length < buffer.length := by
  obtain ⟨-, tag, -, rfl⟩ := hlaw.of_header _ _ _ h
  have hone := Der.length_lengthOctets len
  rw [List.length_append, List.length_append, hone]
  split <;> omega

/-- The positions in the certificate stay in range, and what is cut out is its signed part. -/
theorem extractTbsDer_safe (certDer : Bytes) : Safe (extractTbsDer certDer) (IsTbs certDer) := by
  have hmax := hlaw.lengthMax_lt
  rw [extractTbsDer]
  refine Safe.bind (safe_mapErr _ _) fun reader hreader => ?_
  obtain ⟨rfl, hlen⟩ := (hlaw.sliceReader_iff _ _).mp hreader
  refine Safe.bind (safe_mapErr _ _) ?_
  rintro ⟨outerLen, value⟩ houter
  have hvalue := length_of_header hlaw houter
  refine Safe.bind_lift (Exec.sub_eq_ok hvalue.le) (Safe.bind (safe_mapErr _ _) ?_)
  rintro ⟨tbsValueLen, behind⟩ hinner
  have hbehind := length_of_header hlaw hinner
  obtain ⟨-, outerTag, houterTag, hcert⟩ := hlaw.of_header _ _ _ houter
  obtain ⟨htbsLen, tag, htag, htbs⟩ := hlaw.of_header _ _ _ hinner
  refine Safe.bind_lift (Exec.sub_eq_ok hbehind.le) ?_
  refine Safe.bind_lift (Exec.add_eq_ok (by omega)) ?_
  refine Safe.bind_lift (Exec.add_eq_ok (by omega)) ?_
  split
  · exact Safe.throw _
  next hend =>
  refine Safe.lift (Exec.slice_eq_ok (by omega) (by omega)) ?_
  have hcertLen := congrArg List.length hcert
  have htbsLength := congrArg List.length htbs
  simp only [List.length_append] at hcertLen htbsLength
  -- the header of the certificate, the header of the signed part and what is behind it
  have hparts : reader = (outerTag ++ Der.lengthOctets outerLen) ++
      ((tag ++ Der.lengthOctets tbsValueLen) ++ behind) := by
    rw [hcert, htbs, List.append_assoc, List.append_assoc]
  have htake : (behind.take tbsValueLen).length = tbsValueLen := by
    rw [List.length_take]
    omega
  have hcut := drop_take_append (outerTag ++ Der.lengthOctets outerLen)
    (tag ++ Der.lengthOctets tbsValueLen) behind (n := tbsValueLen)
    (i := reader.length - value.length)
    (j := reader.length - value.length + (value.length - behind.length) + tbsValueLen)
    (by rw [List.length_append]; omega) (by rw [List.length_append, List.length_append]; omega)
  rw [← hparts] at hcut
  have hvalueParts : tag ++ Der.lengthOctets tbsValueLen ++ behind.take tbsValueLen ++
      behind.drop tbsValueLen = value := by
    rw [List.append_assoc, List.take_append_drop, List.append_assoc tag, ← htbs]
  refine ⟨outerTag, tag, behind.take tbsValueLen, behind.drop tbsValueLen, outerLen,
    ⟨houterTag, htag⟩, ?_, ?_, ?_, ?_⟩
  · rw [hcut, htake, List.append_assoc]
  · rw [hcut, hvalueParts, ← hcert]
  · rw [hcut, hvalueParts, houter]
  · rw [hcut, hvalueParts, hinner, htake, List.take_append_drop]

end

/-! ## The checks, one by one -/

section

variable [DerCrate] {certDer : Bytes} {cert : Certificate}

/-- What is read is the content of the extension under the libp2p OID. -/
theorem yields_readExtension_iff {signedKey : Bytes × Bytes} :
    Yields (readExtension cert) signedKey ↔ ∃ libp2pExt, cert.libp2pExtension? = some libp2pExt ∧
      decodeSignedKey libp2pExt.extnValue = .ok signedKey := by
  rw [readExtension]
  split
  · next hnone => exact iff_of_false Yields.not_throw fun ⟨_, hsome, _⟩ => by simp [hnone] at hsome
  · next libp2pExt hsome => simp [hsome]

theorem returns_readExtension : Returns (readExtension cert).run := by
  rw [readExtension]
  split
  · exact Exec.returns_ok _
  · exact returns_mapErr _ _

/-- The bytes of a signed key are too short to be a problem. -/
theorem length_lt_of_decodeSignedKey (hlaw : DerCrate.Lawful) {der publicKey signature : Bytes}
    (h : decodeSignedKey der = .ok (publicKey, signature)) : publicKey.length < 2 ^ 63 := by
  have hmax := hlaw.lengthMax_lt
  obtain ⟨hlen, rfl⟩ := (decodeSignedKey_eq_ok_iff hlaw).mp h
  have hpk := Der.length_encode 0x04 publicKey
  rw [Der.length_encode, signedKeyContents, List.length_append] at hlen
  omega

variable [P256Crate]

/-- The checks that a self-signed certificate passes. -/
theorem yields_verifySelfSignature_iff : Yields (verifySelfSignature certDer cert) () ↔
    cert.signatureAlgorithm = ecdsaSha256Oid ∧ cert.tbsCertificate.signature = ecdsaSha256Oid ∧
    ∃ tbsDer, Yields (extractTbsDer certDer) tbsDer ∧
      P256Crate.isVerifyingKey cert.tbsCertificate.subjectPublicKeyInfo.subjectPublicKey ∧
      P256Crate.isDerSignature cert.signature ∧
      P256Crate.verify cert.tbsCertificate.subjectPublicKeyInfo.subjectPublicKey tbsDer
        cert.signature := by
  rw [verifySelfSignature]
  split
  · next hne => exact iff_of_false Yields.not_throw fun h => hne h.1
  next halgorithm =>
  have halgorithm := of_not_not halgorithm
  rw [halgorithm, and_iff_right rfl]
  split
  · next hne => exact iff_of_false Yields.not_throw fun h => hne h.1
  next htbs =>
  rw [of_not_not htbs, and_iff_right rfl, Yields.bind_iff]
  refine exists_congr fun tbsDer => and_congr_right fun _ => ?_
  dsimp only
  split_ifs with hkey hsignature hverify
  · exact iff_of_false Yields.not_throw fun h => by simp [h.1] at hkey
  · exact iff_of_false Yields.not_throw fun h => by simp [h.2.1] at hsignature
  · exact iff_of_false Yields.not_throw fun h => by simp [h.2.2] at hverify
  · simp only [Bool.not_eq_true', Bool.not_eq_false] at hkey hsignature hverify
    exact iff_of_true (Yields.pure_iff.mpr rfl) ⟨hkey, hsignature, hverify⟩

theorem returns_verifySelfSignature (hlaw : DerCrate.Lawful) :
    Returns (verifySelfSignature certDer cert).run := by
  rw [verifySelfSignature]
  split
  · exact Exec.returns_ok _
  split
  · exact Exec.returns_ok _
  refine (Fallible.returns_bind_iff (extractTbsDer_safe hlaw certDer).returns).mpr fun tbsDer _ => ?_
  dsimp only
  split_ifs <;> exact Exec.returns_ok _

end

section

variable [Ed25519Dalek]

/-- Only a signature of an Ed25519 key is accepted. -/
theorem verifyHostSignature_eq_ok_iff {publicKey : PublicKey} {message signature : Bytes} :
    verifyHostSignature publicKey message signature = .ok () ↔
      ∃ (hostKey : Vector UInt8 32) (sigArray : Vector UInt8 64),
        publicKey = ⟨.ed25519, hostKey.toList⟩ ∧ signature = sigArray.toList ∧
        Ed25519Dalek.isVerifyingKey hostKey ∧
        Ed25519Dalek.verifyStrict hostKey message sigArray := by
  constructor
  · intro h
    unfold verifyHostSignature at h
    split at h
    · split at h
      · cases h
      next sigArray harray =>
      cases hverify : publicKey.verify message sigArray with
      | error e =>
        rw [hverify] at h
        cases h
      | ok _ =>
        obtain ⟨hostKey, hkey, hvalid, hsignature⟩ := PublicKey.verify_eq_ok_iff.mp hverify
        exact ⟨hostKey, sigArray, hkey, toArray?_eq_some_iff.mp harray, hvalid, hsignature⟩
    · cases h
  · rintro ⟨hostKey, sigArray, rfl, rfl, hvalid, hsignature⟩
    have hverify := PublicKey.verify_eq_ok_iff.mpr ⟨hostKey, rfl, hvalid, hsignature⟩
    simp only [verifyHostSignature, toArray?_toList, hverify]
    rfl

variable [X509Crate] [Sha256] {cert : Certificate}

/-- The host key is accepted when it signed the subject key of the certificate. -/
theorem yields_verifyHost_iff {publicKeyBytes signatureBytes : Bytes} {peerId : PeerId}
    (hlen : publicKeyBytes.length < 2 ^ 63) :
    Yields (verifyHost cert publicKeyBytes signatureBytes) peerId ↔
      ∃ (hostKey : Vector UInt8 32) (spkiDer : Bytes) (signature : Vector UInt8 64),
        publicKeyBytes = PublicKey.encodeProtobuf ⟨.ed25519, hostKey.toList⟩ ∧
        signatureBytes = signature.toList ∧
        X509Crate.spkiToDer cert.tbsCertificate.subjectPublicKeyInfo = .ok spkiDer ∧
        Ed25519Dalek.isVerifyingKey hostKey ∧
        Ed25519Dalek.verifyStrict hostKey (signaturePrefix ++ spkiDer) signature ∧
        peerId = .fromPublicKey ⟨.ed25519, hostKey.toList⟩ := by
  simp only [verifyHost, Yields.bind_iff, Yields.adapt_iff, yields_mapErr_iff, Yields.pure_iff,
    PublicKey.yields_decodeProtobuf_iff hlen]
  constructor
  · rintro ⟨publicKey, hencode, spkiDer, hspki, ⟨⟩, hverify, rfl⟩
    obtain ⟨hostKey, signature, rfl, rfl, hvalid, hsignature⟩ :=
      verifyHostSignature_eq_ok_iff.mp hverify
    exact ⟨hostKey, spkiDer, signature, hencode.symm, rfl, hspki, hvalid, hsignature, rfl⟩
  · rintro ⟨hostKey, spkiDer, signature, rfl, rfl, hspki, hvalid, hsignature, rfl⟩
    exact ⟨_, rfl, spkiDer, hspki, ⟨⟩,
      verifyHostSignature_eq_ok_iff.mpr ⟨hostKey, signature, rfl, rfl, hvalid, hsignature⟩, rfl⟩

/-- Verifying the host key panics on a huge length in the key only. -/
theorem returns_verifyHost_iff {publicKeyBytes signatureBytes : Bytes}
    (hlen : publicKeyBytes.length < 2 ^ 63) :
    Returns (verifyHost cert publicKeyBytes signatureBytes).run ↔
      ¬ PublicKey.HugeLength publicKeyBytes := by
  refine (Fallible.returns_bind_iff_of_forall fun publicKey => ?_).trans
    (Fallible.returns_adapt_iff.trans (PublicKey.returns_decodeProtobuf_iff hlen))
  refine (Fallible.returns_bind_iff (returns_mapErr _ _)).mpr fun spkiDer _ => ?_
  exact (Fallible.returns_bind_iff (returns_mapErr _ _)).mpr fun _ _ => Exec.returns_ok _

end

/-! ## Attestations -/

section

variable [DerCrate] [X509Crate] [P256Crate] [Ed25519Dalek]

/-- What a certificate has to carry for a host key to be its owner. -/
structure Attestation (certDer : Bytes) (hostKey : Vector UInt8 32) where
  cert : Certificate
  tbsDer : Bytes
  spkiDer : Bytes
  libp2pExt : Extension
  signature : Vector UInt8 64
  parsed : X509Crate.fromDer certDer = .ok cert
  signatureAlgorithm : cert.signatureAlgorithm = ecdsaSha256Oid
  tbsSignature : cert.tbsCertificate.signature = ecdsaSha256Oid
  extracted : Yields (extractTbsDer certDer) tbsDer
  isVerifyingKey :
    P256Crate.isVerifyingKey cert.tbsCertificate.subjectPublicKeyInfo.subjectPublicKey
  isDerSignature : P256Crate.isDerSignature cert.signature
  /-- The certificate is signed with its own key. -/
  selfSigned : P256Crate.verify cert.tbsCertificate.subjectPublicKeyInfo.subjectPublicKey tbsDer
    cert.signature
  encoded : X509Crate.spkiToDer cert.tbsCertificate.subjectPublicKeyInfo = .ok spkiDer
  found : cert.libp2pExtension? = some libp2pExt
  signedKey : decodeSignedKey libp2pExt.extnValue =
    .ok (PublicKey.encodeProtobuf ⟨.ed25519, hostKey.toList⟩, signature.toList)
  isHostKey : Ed25519Dalek.isVerifyingKey hostKey
  /-- The host key has signed the key of the certificate. -/
  hostSigned : Ed25519Dalek.verifyStrict hostKey (signaturePrefix ++ spkiDer) signature

variable [Sha256] {certDer : Bytes}

/-- A certificate is accepted as that of a peer when it attests a host key of that peer. -/
theorem yields_verifyLibp2pCertificate_iff (hlaw : DerCrate.Lawful) {peerId : PeerId} :
    Yields (verifyLibp2pCertificate certDer) peerId ↔ ∃ hostKey : Vector UInt8 32,
      peerId = .fromPublicKey ⟨.ed25519, hostKey.toList⟩ ∧
      Nonempty (Attestation certDer hostKey) := by
  simp only [verifyLibp2pCertificate, Yields.bind_iff, yields_mapErr_iff, Prod.exists]
  constructor
  · rintro ⟨cert, hparsed, ⟨⟩, hself, publicKeyBytes, signatureBytes, hext, hhost⟩
    obtain ⟨halgorithm, htbs, tbsDer, hextracted, hkey, hsignature, hverify⟩ :=
      yields_verifySelfSignature_iff.mp hself
    obtain ⟨libp2pExt, hfound, hsignedKey⟩ := yields_readExtension_iff.mp hext
    obtain ⟨hostKey, spkiDer, signature, rfl, rfl, hspki, hvalid, hhostSigned, rfl⟩ :=
      (yields_verifyHost_iff (length_lt_of_decodeSignedKey hlaw hsignedKey)).mp hhost
    exact ⟨hostKey, rfl, ⟨⟨cert, tbsDer, spkiDer, libp2pExt, signature, hparsed, halgorithm, htbs,
      hextracted, hkey, hsignature, hverify, hspki, hfound, hsignedKey, hvalid, hhostSigned⟩⟩⟩
  · rintro ⟨hostKey, rfl, ⟨attestation⟩⟩
    refine ⟨attestation.cert, attestation.parsed, ⟨⟩, yields_verifySelfSignature_iff.mpr
      ⟨attestation.signatureAlgorithm, attestation.tbsSignature, attestation.tbsDer,
        attestation.extracted, attestation.isVerifyingKey, attestation.isDerSignature,
        attestation.selfSigned⟩, _, _,
      yields_readExtension_iff.mpr ⟨_, attestation.found, attestation.signedKey⟩, ?_⟩
    exact (yields_verifyHost_iff (length_lt_of_decodeSignedKey hlaw attestation.signedKey)).mpr
      ⟨hostKey, attestation.spkiDer, attestation.signature, rfl, rfl, attestation.encoded,
        attestation.isHostKey, attestation.hostSigned, rfl⟩

/-- The certificate of a peer: it is accepted exactly when it attests an Ed25519 host key, the bytes
its self-signature covers are its own signed part, and the peer id is that of the host key and of
no other public key of whatever type. -/
theorem verifyLibp2pCertificate_authentic (hlaw : DerCrate.Lawful) (certDer : Bytes)
    (peerId : PeerId) :
    (Yields (verifyLibp2pCertificate certDer) peerId ↔ ∃ hostKey : Vector UInt8 32,
      peerId = .fromPublicKey ⟨.ed25519, hostKey.toList⟩ ∧
      Nonempty (Attestation certDer hostKey)) ∧
    ∀ hostKey : Vector UInt8 32, ∀ attestation : Attestation certDer hostKey,
      IsTbs certDer attestation.tbsDer ∧
      ∀ publicKey : PublicKey, publicKey.encodeProtobuf.length < 2 ^ 63 →
        PeerId.fromPublicKey publicKey = PeerId.fromPublicKey ⟨.ed25519, hostKey.toList⟩ →
          publicKey = ⟨.ed25519, hostKey.toList⟩ := by
  refine ⟨yields_verifyLibp2pCertificate_iff hlaw, fun hostKey attestation => ⟨?_, ?_⟩⟩
  · obtain ⟨r, hr, htbs⟩ := extractTbsDer_safe hlaw certDer
    have hextracted : r = .ok attestation.tbsDer :=
      Except.ok.inj (hr.symm.trans attestation.extracted)
    exact htbs _ hextracted
  · exact fun publicKey hlen heq => PeerId.eq_of_fromPublicKey_ed25519 hlen heq

/-- The certificate reaches the decoder of the host key with these bytes. -/
structure ReachesHostKey (certDer publicKeyBytes : Bytes) : Prop where
  exists_cert : ∃ cert signatureBytes, X509Crate.fromDer certDer = .ok cert ∧
    Yields (verifySelfSignature certDer cert) () ∧
    Yields (readExtension cert) (publicKeyBytes, signatureBytes)

/-- The verification returns, with a peer id or an error, on every certificate but those that are
signed with their own key and whose libp2p extension announces a host key of a huge length. -/
theorem returns_verifyLibp2pCertificate_iff (hlaw : DerCrate.Lawful) (certDer : Bytes) :
    Returns (verifyLibp2pCertificate certDer).run ↔
      ∀ publicKeyBytes, ReachesHostKey certDer publicKeyBytes →
        ¬ PublicKey.HugeLength publicKeyBytes := by
  rw [verifyLibp2pCertificate, Fallible.returns_bind_iff (returns_mapErr _ _)]
  constructor
  · rintro h publicKeyBytes ⟨cert, signatureBytes, hparsed, hself, hext⟩
    obtain ⟨libp2pExt, -, hsignedKey⟩ := yields_readExtension_iff.mp hext
    have h := h cert (yields_mapErr_iff.mpr hparsed)
    have h := (Fallible.returns_bind_iff (returns_verifySelfSignature hlaw)).mp h () hself
    have h := (Fallible.returns_bind_iff returns_readExtension).mp h _ hext
    exact (returns_verifyHost_iff (length_lt_of_decodeSignedKey hlaw hsignedKey)).mp h
  · intro h cert hcert
    refine (Fallible.returns_bind_iff (returns_verifySelfSignature hlaw)).mpr fun _ hself => ?_
    refine (Fallible.returns_bind_iff returns_readExtension).mpr ?_
    rintro ⟨publicKeyBytes, signatureBytes⟩ hext
    obtain ⟨libp2pExt, -, hsignedKey⟩ := yields_readExtension_iff.mp hext
    refine (returns_verifyHost_iff (length_lt_of_decodeSignedKey hlaw hsignedKey)).mpr ?_
    exact h _ ⟨cert, signatureBytes, yields_mapErr_iff.mp hcert, hself, hext⟩

end

end Minip2p
