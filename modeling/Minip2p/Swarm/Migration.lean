import Minip2p.Swarm.Idle

/-!
# Identity migration

When the identity of a connection is verified, everything that was filed under its placeholder
moves to the verified peer: nothing stays behind, and nothing is lost.
-/

namespace Minip2p.Swarm

open Identify (IdentifyConfig IdentifyProtocol)
open Ping (PingConfig PingProtocol)
open SwarmCore

/-- The peer an event names. -/
def SwarmEvent.peerId? : SwarmEvent → Option PeerId
  | connectionEstablished peerId => some peerId
  | connectionClosed peerId => some peerId
  | identifyReceived peerId _ => some peerId
  | peerReady peerId _ => some peerId
  | pingRttMeasured peerId _ => some peerId
  | pingTimeout peerId => some peerId
  | userStreamReady peerId _ _ _ => some peerId
  | userStreamData peerId _ _ => some peerId
  | userStreamRemoteWriteClosed peerId _ => some peerId
  | userStreamClosed peerId _ => some peerId
  | error e => e.peerId

/-- No migrated event names the old peer. -/
theorem SwarmEvent.migrate_peerId? {old new : PeerId} (h : new ≠ old) (e : SwarmEvent) :
    (e.migrate old new).peerId? ≠ some old := by
  have hpeer : ∀ p : PeerId, some (if p = old then new else p) ≠ some old := by
    intro p
    split
    · exact fun heq => h (Option.some.inj heq)
    · next hne => exact fun heq => hne (Option.some.inj heq)
  cases e with
  | error e =>
    show (if e.peerId = some old then some new else e.peerId) ≠ some old
    split
    · exact fun heq => h (Option.some.inj heq)
    · assumption
  | _ => exact hpeer _

/-- The peer occurs nowhere in the core. -/
structure Absent (s : SwarmCore) (p : PeerId) : Prop where
  connToPeer : ∀ c : ConnectionId, s.connToPeer[c]? ≠ some p
  peerToConn : p ∉ s.peerToConn
  ping : p ∉ s.ping.peers
  identify : p ∉ s.identify.peers
  pendingPings : p ∉ s.pendingPings
  peerInfo : p ∉ s.peerInfo
  readyPeers : p ∉ s.readyPeers
  establishedPeers : p ∉ s.establishedPeers
  events : ∀ e ∈ s.events, e.peerId? ≠ some p

/-- What was filed under `old` in `s` is filed under `new` in `s'`. -/
structure Inherits (s s' : SwarmCore) (old new : PeerId) : Prop where
  ping : ∀ state, s.ping.peers[old]? = some state → s'.ping.peers[new]? = some state
  identify : ∀ state, s.identify.peers[old]? = some state → s'.identify.peers[new]? = some state
  pendingPings : ∀ payload, s.pendingPings[old]? = some payload →
    s'.pendingPings[new]? = some payload
  peerInfo : ∀ info, s.peerInfo[old]? = some info → s'.peerInfo[new]? = some info
  readyPeers : old ∈ s.readyPeers → new ∈ s'.readyPeers
  establishedPeers : old ∈ s.establishedPeers → new ∈ s'.establishedPeers

variable {s s' : SwarmCore} {old new p : PeerId} {c : ConnectionId}

namespace SwarmCore

/-! The tables of `migrated`, one entry moved in each. -/

theorem migrated_ping_peers (hne : new ≠ old) :
    (s.migrated old new).ping.peers = s.ping.peers.rekey old new := by
  simp only [migrated, PingProtocol.migratePeer, if_neg hne.symm, BTreeMap.rekey]
  cases s.ping.peers[old]? <;> rfl

theorem migrated_identify_peers (hne : new ≠ old) :
    (s.migrated old new).identify.peers = s.identify.peers.rekey old new := by
  simp only [migrated, IdentifyProtocol.migratePeer, if_neg hne.symm, BTreeMap.rekey]
  cases s.identify.peers[old]? <;> rfl

theorem migrated_pendingPings :
    (s.migrated old new).pendingPings = s.pendingPings.rekey old new := by
  simp only [migrated, BTreeMap.rekey]
  cases s.pendingPings[old]? <;> rfl

theorem migrated_peerInfo : (s.migrated old new).peerInfo = s.peerInfo.rekey old new := by
  simp only [migrated, BTreeMap.rekey]
  cases s.peerInfo[old]? <;> rfl

/-- What was filed under the old peer is filed under the new one. -/
theorem migrated_inherits (hne : new ≠ old) : Inherits s (s.migrated old new) old new where
  ping state h := by
    rw [migrated_ping_peers hne]
    exact BTreeMap.getElem?_rekey h
  identify state h := by
    rw [migrated_identify_peers hne]
    exact BTreeMap.getElem?_rekey h
  pendingPings payload h := by
    rw [migrated_pendingPings]
    exact BTreeMap.getElem?_rekey h
  peerInfo info h := by
    rw [migrated_peerInfo]
    exact BTreeMap.getElem?_rekey h
  readyPeers h := BTreeSet.mem_rekey h
  establishedPeers h := BTreeSet.mem_rekey h

theorem attach_absent (hne : new ≠ old) (honly : ∀ d, s.connToPeer[d]? = some old → d = c) :
    Absent ((s.migrated old new).attach c new) old where
  connToPeer d := by
    intro h
    rcases BTreeMap.getElem?_insert_eq_some_iff.mp h with ⟨-, heq⟩ | ⟨hd, h⟩
    · exact hne heq
    · exact hd (honly d h)
  peerToConn := by
    intro h
    rcases BTreeMap.mem_insert_iff.mp h with heq | h
    · exact hne heq.symm
    · exact BTreeMap.not_mem_erase_self h
  ping := by
    show old ∉ (s.migrated old new).ping.peers
    rw [migrated_ping_peers hne]
    exact BTreeMap.not_mem_rekey hne
  identify := by
    show old ∉ (s.migrated old new).identify.peers
    rw [migrated_identify_peers hne]
    exact BTreeMap.not_mem_rekey hne
  pendingPings := by
    show old ∉ (s.migrated old new).pendingPings
    rw [migrated_pendingPings]
    exact BTreeMap.not_mem_rekey hne
  peerInfo := by
    show old ∉ (s.migrated old new).peerInfo
    rw [migrated_peerInfo]
    exact BTreeMap.not_mem_rekey hne
  readyPeers := BTreeSet.not_mem_rekey hne
  establishedPeers := by
    intro h
    rcases BTreeSet.mem_insert_iff.mp h with heq | h
    · exact hne heq.symm
    · exact BTreeSet.not_mem_rekey hne h
  events e he := by
    rcases List.mem_append.mp he with he | he
    · obtain ⟨e', -, rfl⟩ := List.mem_map.mp he
      exact SwarmEvent.migrate_peerId? hne e'
    · rw [List.mem_singleton.mp he]
      exact fun heq => hne (Option.some.inj heq)

/-- Reporting `p` as ready brings in no other peer. -/
theorem tryEmitPeerReady_absent (h : Absent s old) (hne : p ≠ old) :
    Absent (s.tryEmitPeerReady p) old := by
  rcases tryEmitPeerReady_cases s p with hsame | ⟨info, -, -, hready⟩
  · rw [hsame]
    exact h
  · rw [hready]
    refine { h with readyPeers := ?_, events := ?_ }
    · intro hmem
      rcases BTreeSet.mem_insert_iff.mp hmem with heq | hmem
      · exact hne heq.symm
      · exact h.readyPeers hmem
    · intro e he
      rcases List.mem_append.mp he with he | he
      · exact h.events e he
      · rw [List.mem_singleton.mp he]
        exact fun heq => hne (Option.some.inj heq)

theorem tryEmitPeerReady_inherits (h : Inherits s s' old new) :
    Inherits s (s'.tryEmitPeerReady p) old new := by
  rcases tryEmitPeerReady_cases s' p with hsame | ⟨info, -, -, hready⟩
  · rw [hsame]
    exact h
  · rw [hready]
    refine { h with readyPeers := ?_ }
    exact fun hold => BTreeSet.mem_insert_iff.mpr (.inr (h.readyPeers hold))

/-- Asking for a stream names no peer. -/
theorem queueOpenProtocolStream_absent (h : Absent s old) (protocolId : String)
    (target : ProtocolKind) : Absent (s.queueOpenProtocolStream p protocolId target).1 old := by
  simp only [queueOpenProtocolStream]
  split
  · exact h
  · exact { h with }

theorem queueOpenProtocolStream_inherits (h : Inherits s s' old new) (protocolId : String)
    (target : ProtocolKind) :
    Inherits s (s'.queueOpenProtocolStream p protocolId target).1 old new := by
  simp only [queueOpenProtocolStream]
  split
  · exact h
  · exact { h with }

variable [MultihashCodec]

/-- The whole of `upgrade_connection_identity` for a connection with another peer. -/
theorem upgradeConnectionIdentity_migrates (hidle : s.Idle)
    (honly : ∀ d, s.connToPeer[d]? = some old ↔ d = c) (hne : new ≠ old) :
    Absent (s.upgradeConnectionIdentity c new) old ∧
      Inherits s (s.upgradeConnectionIdentity c new) old new := by
  have hold : s.connToPeer[c]? = some old := (honly c).mpr rfl
  have hconn : (((s.migrated old new).attach c new).tryEmitPeerReady new).peerToConn[new]? =
      some c := by
    rw [(tables_oblivious.tryEmitPeerReady _ new).peerToConn]
    exact BTreeMap.getElem?_insert_eq_some_iff.mpr (.inl ⟨rfl, rfl⟩)
  have hform : s.upgradeConnectionIdentity c new =
      ((((s.migrated old new).attach c new).tryEmitPeerReady new).queueOpenProtocolStream new
        Identify.identifyProtocolId .identifyInitiator).1 := by
    simp only [upgradeConnectionIdentity, hold, if_neg hne.symm]
    rw [migrateIdentity_eq hidle, bindIdentity]
    exact openOrReport_eq hconn _ _ _ _ _
  rw [hform]
  constructor
  · apply queueOpenProtocolStream_absent
    apply tryEmitPeerReady_absent _ hne
    exact attach_absent hne fun d => (honly d).mp
  · apply queueOpenProtocolStream_inherits
    apply tryEmitPeerReady_inherits
    have hmoved : Inherits s (s.migrated old new) old new := migrated_inherits hne
    exact { hmoved with
      establishedPeers := fun _ => BTreeSet.mem_insert_iff.mpr (.inl rfl) }

end SwarmCore

/-- Verifying the identity of the only connection of `stale` moves all that is filed under `stale`
to the verified peer and leaves `stale` nowhere, in every state that any calls lead to. -/
theorem migration_complete [Sha256] [MultihashCodec] (identifyConfig : IdentifyConfig)
    (pingConfig : PingConfig) (calls : List Call) {stale : PeerId} {endpoint : ConnectionEndpoint}
    {previous : Option PeerId} {nowMs : UInt64}
    (honly : ∀ d, (run (.new identifyConfig pingConfig) calls).connToPeer[d]? = some stale ↔ d = c)
    (hne : new ≠ stale) (hnew : endpoint.peerId = some new) :
    let s := run (.new identifyConfig pingConfig) calls
    let s' := step s (.input (.transport (.peerIdentityVerified c endpoint previous) nowMs))
    Absent s' stale ∧ Inherits s s' stale new := by
  intro s s'
  have hidle := idle_run identifyConfig pingConfig calls
  have hstep : s' = ({ s with
      connToRemoteAddr := s.connToRemoteAddr.insert c
        endpoint.transport }.upgradeConnectionIdentity c new) := by
    simp only [s', step, handleInput, handleTransportEvent, hnew]
  rw [hstep]
  obtain ⟨habsent, hinherits⟩ := upgradeConnectionIdentity_migrates
    (s := { s with connToRemoteAddr := s.connToRemoteAddr.insert c endpoint.transport })
    ⟨hidle.ping, hidle.identify⟩ honly hne
  exact ⟨habsent, { hinherits with }⟩

/-- The placeholder of the first connection. -/
def placeholder : PeerId := @syntheticPeerId Sample.sha256 ⟨1⟩

/-- A connection without a peer, with a user stream and a ping that waits for its stream. -/
def anonymousRun : List Call :=
  [.addUserProtocol "/u", .event (.connected ⟨1⟩ (Sample.endpoint none)),
    .event (.incomingStream ⟨1⟩ ⟨0⟩),
    .event (.streamData ⟨1⟩ ⟨0⟩ (Multistream.encodeMessage Multistream.multistreamProtocolId ++
      Multistream.encodeMessage "/u")),
    .ping placeholder (Vector.replicate Ping.pingPayloadLen 7) 0]

/-- The placeholder gives way to Alice, with its ping and the event of its stream. -/
theorem anonymousRun_migrates :
    (Sample.run anonymousRun).pendingPings[placeholder]? =
        some (Vector.replicate Ping.pingPayloadLen 7) ∧
      Absent (@step Sample.sha256 multihashCodec (Sample.run anonymousRun)
        (.event (.peerIdentityVerified ⟨1⟩ (Sample.endpoint (some Sample.alice)) none)))
          placeholder ∧
      Inherits (Sample.run anonymousRun) (@step Sample.sha256 multihashCodec
        (Sample.run anonymousRun)
        (.event (.peerIdentityVerified ⟨1⟩ (Sample.endpoint (some Sample.alice)) none)))
          placeholder Sample.alice := by
  have hmap : (Sample.run anonymousRun).connToPeer =
      (∅ : BTreeMap ConnectionId PeerId).insert ⟨1⟩ placeholder := by
    decide +kernel
  have honly : ∀ d : ConnectionId,
      (Sample.run anonymousRun).connToPeer[d]? = some placeholder ↔ d = ⟨1⟩ := by
    intro d
    rw [hmap, BTreeMap.getElem?_insert_eq_some_iff]
    simp
  refine ⟨by decide +kernel, ?_⟩
  exact @migration_complete Sample.alice ⟨1⟩ Sample.sha256 multihashCodec _ _ anonymousRun _ _ _ _
    honly (by decide +kernel) rfl

end Minip2p.Swarm
