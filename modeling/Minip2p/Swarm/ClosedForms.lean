import Minip2p.Identify.Theorems
import Minip2p.Ping.Theorems
import Minip2p.Swarm.Session

/-!
# Closed forms

While the protocol handlers are idle, removing or migrating a peer makes them say nothing, so
what `register_connection`, `upgrade_connection_identity` and `handle_connection_closed` do to
the tables can be written down as one update each: `attach` after `yieldTo` or `migrateFrom`, and
`detach`.
-/

namespace Minip2p.Swarm

open Identify (identifyProtocolId)
open Ping (pingProtocolId)

namespace SwarmCore

/-! ## Updates -/

/-- Files a connection under a peer and reports it. -/
def attach (s : SwarmCore) (c : ConnectionId) (p : PeerId) : SwarmCore :=
  { s with
    connToPeer := s.connToPeer.insert c p
    peerToConn := s.peerToConn.insert p c
    establishedPeers := s.establishedPeers.insert p
    events := s.events ++ [.connectionEstablished p] }

/-- Forgets a connection and its streams. -/
def withoutConn (s : SwarmCore) (c : ConnectionId) : SwarmCore :=
  { s with
    connToPeer := s.connToPeer.erase c
    activeConnections := s.activeConnections.erase c
    connToRemoteAddr := s.connToRemoteAddr.erase c }.retainOtherStreams c

/-- Forgets what a peer said; its pending ping stays. -/
def withoutPeer (s : SwarmCore) (p : PeerId) : SwarmCore :=
  { s with
    ping := s.ping.removePeer p
    identify := s.identify.removePeer p
    peerInfo := s.peerInfo.erase p
    readyPeers := s.readyPeers.erase p
    establishedPeers := s.establishedPeers.erase p }

/-- The connection `old` of `p` makes room for a new one. -/
def superseded (s : SwarmCore) (old : ConnectionId) (p : PeerId) : SwarmCore :=
  ((s.withoutPeer p).withoutConn old).pushAction (.closeConnection old)

/-- Any other connection of `p` makes room for `c`. -/
def yieldTo (s : SwarmCore) (c : ConnectionId) (p : PeerId) : SwarmCore :=
  match s.peerToConn[p]? with
  | some old => if old ≠ c then s.superseded old p else s
  | none => s

/-- Everything filed under `stale` moves to `new`. -/
def migrated (s : SwarmCore) (stale new : PeerId) : SwarmCore :=
  { s with
    peerToConn := s.peerToConn.erase stale
    ping := s.ping.migratePeer stale new
    identify := s.identify.migratePeer stale new
    pendingPings :=
      match s.pendingPings[stale]? with
      | some payload => (s.pendingPings.erase stale).insert new payload
      | none => s.pendingPings
    peerInfo :=
      match s.peerInfo[stale]? with
      | some info => (s.peerInfo.erase stale).insert new info
      | none => s.peerInfo
    readyPeers :=
      if s.readyPeers.contains stale then (s.readyPeers.erase stale).insert new
      else s.readyPeers
    establishedPeers :=
      if s.establishedPeers.contains stale then (s.establishedPeers.erase stale).insert new
      else s.establishedPeers
    events := s.events.map (SwarmEvent.migrate stale new) }

/-- Everything filed under the peer of `c` moves to `p`. -/
def migrateFrom (s : SwarmCore) (c : ConnectionId) (p : PeerId) : SwarmCore :=
  match s.connToPeer[c]? with
  | some stale => s.migrated stale p
  | none => s

/-- The last connection of a peer is gone. -/
def dropPeer (s : SwarmCore) (p : PeerId) : SwarmCore :=
  { s.withoutPeer p with
    peerToConn := s.peerToConn.erase p
    pendingPings := s.pendingPings.erase p }.pushEvent (.connectionClosed p)

/-- A connection is gone, and its peer with it if it was the primary one. -/
def detach (s : SwarmCore) (c : ConnectionId) : SwarmCore :=
  match s.connToPeer[c]? with
  | some p => if s.peerToConn[p]? = some c then (s.withoutConn c).dropPeer p else s.withoutConn c
  | none => s.withoutConn c

/-- Room is made only if the peer has another connection. -/
theorem yieldTo_cases (s : SwarmCore) (c : ConnectionId) (p : PeerId) :
    (s.yieldTo c p = s ∧ ∀ old, s.peerToConn[p]? = some old → old = c) ∨
      ∃ old, s.peerToConn[p]? = some old ∧ old ≠ c ∧ s.yieldTo c p = s.superseded old p := by
  unfold yieldTo
  cases hp : s.peerToConn[p]? with
  | none => exact .inl ⟨rfl, by rintro old ⟨⟩⟩
  | some old =>
    by_cases hne : old ≠ c
    · exact .inr ⟨old, rfl, hne, if_pos hne⟩
    · refine .inl ⟨if_neg hne, ?_⟩
      intro d hd
      rw [← Option.some.inj hd]
      exact not_not.mp hne

/-- A peer goes with its primary connection only. -/
theorem detach_cases (s : SwarmCore) (c : ConnectionId) :
    (∃ p, s.connToPeer[c]? = some p ∧ s.peerToConn[p]? = some c ∧
        s.detach c = (s.withoutConn c).dropPeer p) ∨
      (∀ p, s.connToPeer[c]? = some p → s.peerToConn[p]? ≠ some c) ∧
        s.detach c = s.withoutConn c := by
  unfold detach
  cases hc : s.connToPeer[c]? with
  | none => exact .inr ⟨by rintro p ⟨⟩, rfl⟩
  | some p =>
    by_cases hprimary : s.peerToConn[p]? = some c
    · exact .inl ⟨p, rfl, hprimary, if_pos hprimary⟩
    · refine .inr ⟨?_, if_neg hprimary⟩
      intro q hq
      rw [← Option.some.inj hq]
      exact hprimary

/-- A peer becomes ready once, when identify has answered for it and it is connected. -/
theorem tryEmitPeerReady_cases (s : SwarmCore) (p : PeerId) :
    s.tryEmitPeerReady p = s ∨
      ∃ info, s.peerInfo[p]? = some info ∧ s.peerToConn.contains p = true ∧
        s.tryEmitPeerReady p = { s with readyPeers := s.readyPeers.insert p }.pushEvent
          (.peerReady p info.protocols) := by
  unfold tryEmitPeerReady
  split
  · exact .inl rfl
  · split
    · exact .inl rfl
    · next info hinfo =>
      split
      · next hp => exact .inr ⟨info, hinfo, hp, rfl⟩
      · exact .inl rfl

theorem appends_of_events_eq {s s' : SwarmCore} (h : s'.events = s.events) :
    s.events <+: s'.events := h ▸ List.prefix_rfl

theorem tryEmitPeerReady_appends (s : SwarmCore) (p : PeerId) :
    s.events <+: (s.tryEmitPeerReady p).events := by
  rcases tryEmitPeerReady_cases s p with heq | ⟨info, -, -, heq⟩
  · exact appends_of_events_eq (congrArg events heq)
  · rw [heq]
    exact List.prefix_append _ _

theorem ensurePeerIdForConn_events [Sha256] (s : SwarmCore) (c : ConnectionId) :
    (s.ensurePeerIdForConn c).1.events = s.events := by
  simp only [ensurePeerIdForConn]
  split
  · rfl
  · rfl

/-- Making room changes neither what is queued nor the connections of the peers. -/
theorem yieldTo_events (s : SwarmCore) (c : ConnectionId) (p : PeerId) :
    (s.yieldTo c p).events = s.events := by
  rcases yieldTo_cases s c p with ⟨heq, -⟩ | ⟨old, -, -, heq⟩
  · rw [heq]
  · rw [heq]
    rfl

theorem yieldTo_peerToConn (s : SwarmCore) (c : ConnectionId) (p : PeerId) :
    (s.yieldTo c p).peerToConn = s.peerToConn := by
  rcases yieldTo_cases s c p with ⟨heq, -⟩ | ⟨old, -, -, heq⟩
  · rw [heq]
  · rw [heq]
    rfl

/-- Making room for a connection of `p` surfaces no other peer, and hides none. -/
theorem mem_yieldTo_establishedPeers {s : SwarmCore} {p q : PeerId} (c : ConnectionId)
    (hq : q ≠ p) : q ∈ (s.yieldTo c p).establishedPeers ↔ q ∈ s.establishedPeers := by
  rcases yieldTo_cases s c p with ⟨heq, -⟩ | ⟨old, -, -, heq⟩
  · rw [heq]
  · rw [heq]
    show q ∈ s.establishedPeers.erase p ↔ q ∈ s.establishedPeers
    rw [BTreeSet.mem_erase_iff, and_iff_right hq]

/-- The streams that are left without a connection are streams of others. -/
theorem of_mem_retained {β : Type} {m : BTreeMap StreamKey β} {k : StreamKey}
    {c : ConnectionId} (hk : k ∈ m.filter (fun k _ => k.conn ≠ c)) : k ∈ m ∧ k.conn ≠ c := by
  have hkey : k ∈ m ∧ decide (k.conn ≠ c) = true := BTreeMap.mem_filter_key_iff.mp hk
  exact ⟨hkey.1, of_decide_eq_true hkey.2⟩

/-! ## Idle handlers -/

/-- Both protocol handlers have been drained. -/
structure Idle (s : SwarmCore) : Prop where
  ping : s.ping.Idle
  identify : s.identify.Idle

/-! The closed forms below, and a request for a stream, keep the handlers idle. -/

namespace Idle

variable {s : SwarmCore}

theorem yieldTo (h : s.Idle) (c : ConnectionId) (p : PeerId) : (s.yieldTo c p).Idle := by
  rcases yieldTo_cases s c p with ⟨heq, -⟩ | ⟨old, -, -, heq⟩
  · rw [heq]
    exact h
  · rw [heq]
    exact ⟨h.ping, h.identify⟩

theorem migrateFrom (h : s.Idle) (c : ConnectionId) (p : PeerId) : (s.migrateFrom c p).Idle := by
  rw [SwarmCore.migrateFrom]
  split
  · next stale _ =>
    exact ⟨Ping.PingProtocol.migratePeer_idle h.ping stale p,
      Identify.IdentifyProtocol.migratePeer_idle h.identify stale p⟩
  · exact h

theorem detach (h : s.Idle) (c : ConnectionId) : (s.detach c).Idle := by
  rcases detach_cases s c with ⟨p, -, -, heq⟩ | ⟨-, heq⟩
  · rw [heq]
    exact ⟨h.ping, h.identify⟩
  · rw [heq]
    exact ⟨h.ping, h.identify⟩

theorem queueOpen (h : s.Idle) (p : PeerId) (protocolId : String) (target : ProtocolKind) :
    (s.queueOpenProtocolStream p protocolId target).1.Idle := by
  rw [queueOpenProtocolStream]
  split
  · exact h
  · exact ⟨h.ping, h.identify⟩

end Idle

variable [MultihashCodec]

theorem drainPingOutputs_of_idle {s : SwarmCore} (h : s.ping.Idle) : s.drainPingOutputs = s := by
  obtain ⟨ping, _⟩ := s
  obtain ⟨peers, pendingEvents, pendingActions, config⟩ := ping
  obtain ⟨rfl, rfl⟩ : pendingActions = [] ∧ pendingEvents = [] := h
  rfl

omit [MultihashCodec] in
theorem drainIdentifyOutputs_of_idle {s : SwarmCore} (h : s.identify.Idle) :
    s.drainIdentifyOutputs = s := by
  obtain ⟨ping, identify, _⟩ := s
  obtain ⟨peers, events, actions, config⟩ := identify
  obtain ⟨rfl, rfl⟩ : actions = [] ∧ events = [] := h
  rfl

theorem removeFromHandlers_of_idle {s : SwarmCore} (h : s.Idle) (p : PeerId) :
    s.removeFromHandlers p =
      { s with ping := s.ping.removePeer p, identify := s.identify.removePeer p } := by
  simp only [removeFromHandlers]
  rw [drainPingOutputs_of_idle, drainIdentifyOutputs_of_idle]
  · rfl
  · exact h.identify
  · exact h.ping

/-! ## The closed forms -/

theorem supersedePeer_eq {s : SwarmCore} (h : s.Idle) (p : PeerId) :
    s.supersedePeer p = s.withoutPeer p := by
  have hidle : Idle { s with pendingPings := s.pendingPings.erase p } := ⟨h.ping, h.identify⟩
  -- the pending ping is taken out and put back
  have hpending : (match s.pendingPings[p]? with
      | some payload => (s.pendingPings.erase p).insert p payload
      | none => s.pendingPings.erase p) = s.pendingPings := by
    split
    · next heq => exact BTreeMap.insert_erase_self heq
    · next heq => exact BTreeMap.erase_eq_self heq
  have hform : s.supersedePeer p =
      { s.withoutPeer p with
        pendingPings :=
          match s.pendingPings[p]? with
          | some payload => (s.pendingPings.erase p).insert p payload
          | none => s.pendingPings.erase p } := by
    simp only [supersedePeer]
    rw [removeFromHandlers_of_idle hidle]
    rfl
  rw [hform, hpending]
  rfl

theorem supersedeConnection_eq {s : SwarmCore} (h : s.Idle) {old : ConnectionId} {p : PeerId}
    (hold : s.connToPeer[old]? = some p) : s.supersedeConnection old = s.superseded old p := by
  have hidle : Idle { s with connToPeer := s.connToPeer.erase old } := ⟨h.ping, h.identify⟩
  simp only [supersedeConnection, hold]
  rw [supersedePeer_eq hidle]
  rfl

theorem supersedeOther_eq {s : SwarmCore} (h : s.Idle) {c : ConnectionId} {p : PeerId}
    (hp : ∀ old, s.peerToConn[p]? = some old → s.connToPeer[old]? = some p) :
    s.supersedeOther c p = s.yieldTo c p := by
  rw [supersedeOther, yieldTo]
  cases hold : s.peerToConn[p]? with
  | none => rfl
  | some old =>
    by_cases hne : old ≠ c
    · simp only [if_pos hne]
      exact supersedeConnection_eq h (hp old hold)
    · simp only [if_neg hne]

theorem migrateIdentity_eq {s : SwarmCore} (h : s.Idle) (stale new : PeerId) :
    s.migrateIdentity stale new = s.migrated stale new := by
  simp only [migrateIdentity]
  rw [drainPingOutputs_of_idle, drainIdentifyOutputs_of_idle]
  · rfl
  · exact Identify.IdentifyProtocol.migratePeer_idle h.identify stale new
  · exact Ping.PingProtocol.migratePeer_idle h.ping stale new

theorem closePeer_eq {s : SwarmCore} (h : s.Idle) (p : PeerId) : s.closePeer p = s.dropPeer p := by
  have hidle : Idle { s with peerToConn := s.peerToConn.erase p } := ⟨h.ping, h.identify⟩
  simp only [closePeer]
  rw [removeFromHandlers_of_idle hidle]
  rfl

theorem handleConnectionClosed_eq {s : SwarmCore} (h : s.Idle) (c : ConnectionId) :
    s.handleConnectionClosed c = s.detach c := by
  simp only [handleConnectionClosed, detach]
  cases hp : s.connToPeer[c]? with
  | none =>
    simp only
    rw [withoutConn, BTreeMap.erase_eq_self hp]
  | some p =>
    by_cases hprimary : s.peerToConn[p]? = some c
    · simp only [if_pos hprimary]
      rw [closePeer_eq]
      · rfl
      · exact ⟨h.ping, h.identify⟩
    · simp only [if_neg hprimary]
      rfl

omit [MultihashCodec] in
/-- A stream can be asked for on the connection of a peer. -/
theorem openOrReport_eq {s : SwarmCore} {p : PeerId} {c : ConnectionId}
    (hp : s.peerToConn[p]? = some c) (connId : ConnectionId) (protocolId : String)
    (target : ProtocolKind) (kind : SwarmErrorKind) (detail : SwarmError → String) :
    s.openOrReport p connId protocolId target kind detail =
      (s.queueOpenProtocolStream p protocolId target).1 := by
  simp only [openOrReport, queueOpenProtocolStream, requireConn, hp]

end SwarmCore

end Minip2p.Swarm
