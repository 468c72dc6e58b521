import Minip2p.Stack.Contract
import Minip2p.Swarm.Attribution
import Minip2p.Swarm.Delivery
import Minip2p.Tls.Generate

/-!
# Whom a swarm over QUIC talks to

From the certificates to the events of the application: in an orderly run every peer that the
application hears of, and every connection it may talk over, belongs to a host key that has signed
a certificate. Only connections that lost their peer to a newer one go by a placeholder.
-/

namespace Minip2p.Stack

open Swarm (Call HandshakeRun NoCollision SwarmCore SwarmEvent Driver DriverCall Reported
  Superseded)
open Swarm.SwarmCore (syntheticPeerId)

section Authenticity

variable [Sha256]

/-- The key of an Ed25519 host does not begin as the text of a placeholder does. -/
theorem fromPublicKey_ne_syntheticPeerId (hostKey : Vector UInt8 32) (c : ConnectionId) :
    PeerId.fromPublicKey ⟨.ed25519, hostKey.toList⟩ ≠ syntheticPeerId c := by
  have hshort : (PublicKey.encodeProtobuf ⟨.ed25519, hostKey.toList⟩).length ≤
      maxInlineKeyLength := by
    rw [PublicKey.length_encodeProtobuf_ed25519]
    decide
  have hfirst : (Swarm.syntheticKey c).head? = some 109 := by
    rw [Swarm.syntheticKey_eq, List.head?_append]
    have hstart : (asBytes "minip2p-synthetic-conn-").head? = some 109 := by decide +kernel
    rw [hstart]
    rfl
  intro heq
  by_cases hc : (Swarm.syntheticKey c).length ≤ maxInlineKeyLength
  · rw [← PeerId.fromPublicKeyProtobuf_inj_of_short hshort hc heq,
      PublicKey.encodeProtobuf_ed25519] at hfirst
    exact absurd hfirst (by simp)
  · exact PeerId.fromPublicKeyProtobuf_ne_of_short_of_long hshort hc heq

omit [Sha256] in
/-- In a verified run a connection is reported with a peer that was verified. -/
theorem VerifiedRun.of_connectsAs {verified : PeerId → Prop} {calls : List Call}
    (h : VerifiedRun verified calls) {call : Call} (hmem : call ∈ calls) {c : ConnectionId}
    {p : PeerId} (hcall : call.ConnectsAs c p) : verified p := by
  obtain ⟨before, after, rfl⟩ := List.append_of_mem hmem
  obtain ⟨endpoint, nowMs, rfl, hendpoint⟩ := hcall
  obtain ⟨q, hq, hverified⟩ := (h.split rfl).2.2
  rwa [← Option.some.inj (hq.symm.trans hendpoint)]

omit [Sha256] in
/-- A peer that was reported was verified. -/
theorem VerifiedRun.of_reported {verified : PeerId → Prop} {calls : List Call}
    (h : VerifiedRun verified calls) {p : PeerId} (hp : Reported calls p) : verified p := by
  obtain ⟨call, hmem, c, hconnects | hverifies⟩ := hp
  · exact h.of_connectsAs hmem hconnects
  · -- the identity repeats what the event before it has reported
    obtain ⟨before, after, rfl⟩ := List.append_of_mem hmem
    obtain ⟨endpoint, previous, nowMs, rfl, hendpoint⟩ := hverifies
    obtain ⟨q, connected, hq, hlast, hconnected⟩ := (h.split rfl).2.2
    obtain rfl := Option.some.inj (hq.symm.trans hendpoint)
    obtain ⟨then_, hbefore⟩ := mem_of_lastEvent? hlast
    exact h.of_connectsAs (List.mem_append_left _ hbefore) ⟨connected, then_, rfl, hconnected⟩

/-! ## Certified peers -/

variable [DerCrate] [X509Crate] [P256Crate] [Ed25519Dalek]

/-- There is a certificate that the host key of the peer has signed. -/
def Certified (p : PeerId) : Prop :=
  ∃ (certDer : Bytes) (hostKey : Vector UInt8 32),
    p = .fromPublicKey ⟨.ed25519, hostKey.toList⟩ ∧ Nonempty (Attestation certDer hostKey)

/-- A certified peer id is no placeholder. -/
theorem Certified.ne_syntheticPeerId {p : PeerId} (h : Certified p) (c : ConnectionId) :
    p ≠ syntheticPeerId c := by
  obtain ⟨certDer, hostKey, rfl, -⟩ := h
  exact fromPublicKey_ne_syntheticPeerId hostKey c

/-- Whatever the application calls, in an orderly run whose transport checks certificates as the TLS
crate does, the peers it hears of as established are certified. So are the peers it may exchange
data with, and the peers its connections are filed under, unless they are placeholders of
connections that were superseded. -/
theorem driver_authenticates [MultihashCodec] (hsha : NoCollision) (hder : DerCrate.Lawful)
    {W : Type} (machine : Machine W) (laws : MachineLaws machine) (fuel turns : Nat)
    (verify : Bytes → Except String PeerId)
    (hverify : ∀ der p, verify der = .ok p → Yields (verifyLibp2pCertificate der) p)
    (identifyConfig : Identify.IdentifyConfig) (pingConfig : Ping.PingConfig)
    (localPeerId : PeerId) (world : W) (calls : List (DriverCall (Adapter W)))
    (hcalls : ∀ call ∈ calls, call.LeavesWorld) (handed : List SwarmEvent)
    (driver : Driver (Adapter W))
    (hrun : (Driver.new identifyConfig pingConfig localPeerId (.new world)).drive
      (platform machine fuel verify) turns calls = some (handed, driver))
    (horderly : driver.world.orderly = true) :
    (∀ p, .connectionEstablished p ∈ handed ++ driver.eventBuffer → Certified p) ∧
      (∀ e ∈ handed ++ driver.eventBuffer, ∀ p t, e.userStream? = some (p, t) →
        (∃ c, p = syntheticPeerId c ∧
          Superseded (SwarmCore.new identifyConfig pingConfig) driver.calls c) ∨ Certified p) ∧
      ∀ (c : ConnectionId) (p : PeerId), driver.core.connToPeer[c]? = some p →
        (p = syntheticPeerId c ∧
          Superseded (SwarmCore.new identifyConfig pingConfig) driver.calls c) ∨ Certified p := by
  have hcertified : ∀ p, (∃ der, verify der = .ok p) → Certified p := fun p ⟨der, hp⟩ => by
    obtain ⟨hostKey, hkey, hattested⟩ :=
      (yields_verifyLibp2pCertificate_iff hder).mp (hverify der p hp)
    exact ⟨der, hostKey, hkey, hattested⟩
  have hkept := kept_of_orderly hsha laws
    (fun der p hp => (hcertified p ⟨der, hp⟩).ne_syntheticPeerId) hcalls hrun horderly
  have hreported : ∀ p, Reported driver.calls p → Certified p := fun p hp =>
    hcertified p (hkept.verifiedRun.of_reported hp)
  have hattributed := Swarm.attributed_of_handshake identifyConfig pingConfig
    (hkept.verifiedRun.handshake fun p hp => (hcertified p hp).ne_syntheticPeerId)
  have hsettled :=
    (Driver.Settled.new identifyConfig pingConfig localPeerId (Adapter.new world)).drive hrun
  rw [hsettled.records.polled, List.nil_append, ← hkept.core] at hattributed
  refine ⟨fun p hp => ?_, fun e he p t ht => ?_, fun c p hp => ?_⟩
  · exact hreported p (hattributed.established p (List.mem_append_left _ hp))
  · exact (hattributed.userStreams e (List.mem_append_left _ he) p t ht).imp_right (hreported p)
  · exact (hattributed.tracked c p hp).imp_right (hreported p)

end Authenticity

namespace Sample

/-- The host of the sample certificate. -/
def host : PeerId :=
  @PeerId.fromPublicKey Swarm.Sample.sha256 ⟨.ed25519, Minip2p.Sample.hostKey.toList⟩

/-- Knows the sample certificate. -/
def verify (der : Bytes) : Except String PeerId :=
  if der = Minip2p.Sample.certDer then .ok host else .error "unknown certificate"

/-- The host is dialed and presents its certificate. -/
def hostDialed : Option (List SwarmEvent × Driver (Adapter World)) :=
  dialed Minip2p.Sample.certDer verify host

end Sample

theorem driver_authenticates_dialed :
    ∃ handed driver, Sample.hostDialed = some (handed, driver) ∧
      .connectionEstablished Sample.host ∈ handed ∧
      @Certified Swarm.Sample.sha256 derCrate Minip2p.Sample.x509 Minip2p.Sample.p256
        Minip2p.Sample.ed25519 Sample.host := by
  obtain ⟨⟨handed, driver⟩, hrun⟩ :=
    Option.isSome_iff_exists.mp (show Sample.hostDialed.isSome = true by decide +kernel)
  have hhanded : Sample.hostDialed.map (·.1) = some [.connectionEstablished Sample.host] := by
    decide +kernel
  have horderly : Sample.hostDialed.map (·.2.world.orderly) = some true := by decide +kernel
  rw [hrun] at hhanded horderly
  have hmem : .connectionEstablished Sample.host ∈ handed := by
    rw [show handed = [_] from Option.some.inj hhanded]
    exact List.mem_cons_self
  refine ⟨handed, driver, hrun, hmem, ?_⟩
  have hauthenticates := @driver_authenticates Swarm.Sample.sha256 derCrate Minip2p.Sample.x509
    Minip2p.Sample.p256 Minip2p.Sample.ed25519 multihashCodec Swarm.Sample.noCollision
    derCrate_lawful _ (Sample.machine Minip2p.Sample.certDer) (Sample.laws Minip2p.Sample.certDer)
    9 1 Sample.verify ?_ _ _ _ _ _ (by simp [DriverCall.LeavesWorld]) handed driver hrun
    (Option.some.inj horderly)
  · exact hauthenticates.1 _ (List.mem_append_left _ hmem)
  · intro der p hp
    rw [Sample.verify] at hp
    split_ifs at hp with hder
    obtain rfl := Except.ok.inj hp
    rw [hder]
    exact (@yields_verifyLibp2pCertificate_iff derCrate Minip2p.Sample.x509 Minip2p.Sample.p256
      Minip2p.Sample.ed25519 Swarm.Sample.sha256 _ derCrate_lawful _).mpr
      ⟨Minip2p.Sample.hostKey, rfl, Minip2p.Sample.attested⟩

end Minip2p.Stack
