import Minip2p.Swarm.Moves

/-!
# Turns

A `Turn` is one update on the way of a call, like a `Move`, but in the terms of the open requests,
the negotiators and the protocol handlers: an open request becomes a negotiator, a negotiator
becomes an owner, and the event that reports a hand-over belongs to it. What holds between the
tables, or between the tables and the events, holds after every turn; single moves would pass
through states in which a stream is in none of the tables.
-/

namespace Minip2p.Swarm

open Identify (IdentifyMessage IdentifyProtocol)
open Multistream (MultistreamSelect)
open Ping (Payload PingProtocol)
open SwarmCore

/-- Events that report a ping or a failure. -/
def SwarmEvent.isReport : SwarmEvent → Bool
  | pingRttMeasured _ _ => true
  | pingTimeout _ => true
  | error _ => true
  | _ => false

/-- The tokens that a call may put on its requests for streams: two if a connection is reported
and a ping waits for its peer, else at most one. -/
def SwarmCore.requestTokens (s : SwarmCore) : Call → List OpenStreamToken
  | .input (.transport (.connected _ endpoint) _) =>
    let (first, nextOpenToken) := takeOpenToken s.nextOpenToken
    if endpoint.peerId.any s.pendingPings.contains then [first, (takeOpenToken nextOpenToken).1]
    else [first]
  | .input (.transport (.peerIdentityVerified _ _ _) _) => [(takeOpenToken s.nextOpenToken).1]
  | .ping _ _ _ => [(takeOpenToken s.nextOpenToken).1]
  | .openUserStream _ _ => [(takeOpenToken s.nextOpenToken).1]
  | _ => []

/-- What has been queued since `s₀` includes an event of kind `P`. -/
def SwarmCore.Emits (s₀ s : SwarmCore) (P : SwarmEvent → Prop) : Prop :=
  ∃ e ∈ s.events.drop s₀.events.length, P e

theorem emits_pushEvent {s₀ s : SwarmCore} {P : SwarmEvent → Prop} {e : SwarmEvent}
    (hlength : s₀.events.length ≤ s.events.length) (he : P e) : s₀.Emits (s.pushEvent e) P := by
  refine ⟨e, ?_, he⟩
  rw [pushEvent, List.drop_append_of_le_length hlength]
  exact List.mem_append_right _ List.mem_cons_self

/-- One update on the way of a call. -/
inductive Turn [Sha256] (s₀ : SwarmCore) (call : Call) : SwarmCore → SwarmCore → Prop
  -- queues and settings
  | act {s} (a : SwarmAction) : Turn s₀ call s (s.pushAction a)
  | report {s} (e : SwarmEvent) (he : e.isReport) : Turn s₀ call s (s.pushEvent e)
  | locate {s} (activeConnections : BTreeMap ConnectionId Bool)
      (connToRemoteAddr : BTreeMap ConnectionId Multiaddr) :
    Turn s₀ call s { s with activeConnections, connToRemoteAddr }
  | configure {s} (localAddresses : List Multiaddr)
      (userProtocols supportedProtocols : List String) :
    Turn s₀ call s { s with localAddresses, userProtocols, supportedProtocols }
  | setPings {s} (pendingPings : BTreeMap PeerId Payload) :
    Turn s₀ call s { s with pendingPings }
  -- connections
  | placeholder {s} (c : ConnectionId) (hneeds : call.NeedsPlaceholder s₀ c)
      (hnew : s.connToPeer[c]? = none) (hconn : s.connToPeer = s₀.connToPeer)
      (hpeer : s.peerToConn = s₀.peerToConn) :
    Turn s₀ call s
      { s with
        connToPeer := s.connToPeer.insert c (syntheticPeerId c)
        peerToConn := s.peerToConn.insert (syntheticPeerId c) c }
  | register {s} (c : ConnectionId) (p : PeerId) (hcall : call.ConnectsAs c p)
      (hnew : s.connToPeer[c]? = none) (hs : s₀.Agrees s) :
    Turn s₀ call s ((s.yieldTo c p).attach c p)
  | rebind {s} (c : ConnectionId) (p : PeerId) (hcall : call.VerifiesAs c p)
      (hne : s.connToPeer[c]? ≠ some p) (hs : s₀.Agrees s) :
    Turn s₀ call s (((s.migrateFrom c p).attach c p).tryEmitPeerReady p)
  | close {s} (c : ConnectionId) (hcall : call.closes? = some c) (hs : s₀.Agrees s) :
    Turn s₀ call s (s.detach c)
  -- open requests
  | ask {s} (p : PeerId) (c : ConnectionId) (protocolId : String) (target : ProtocolKind)
      (htoken : (takeOpenToken s.nextOpenToken).1 ∈ s₀.requestTokens call)
      (hp : s.peerToConn[p]? = some c)
      (hping : target = .ping →
        s.ping.outboundStream p = none ∧ s.hasPendingPingStream p = false)
      (hidentify : target = .identifyInitiator → p ∈ s.establishedPeers) :
    Turn s₀ call s (s.queueOpenProtocolStream p protocolId target).1
  | refuse {s} (token : OpenStreamToken) (e : SwarmEvent) (he : e.isError) :
    Turn s₀ call s ({ s with pendingOpens := s.pendingOpens.erase token }.pushEvent e)
  | opened {s} (k : StreamKey) (token : OpenStreamToken) (pending : PendingOpen)
      (negotiator : MultistreamSelect)
      (hcall : ∃ nowMs, call = .input (.streamOpened k.conn k.stream token nowMs))
      (hpending : s.pendingOpens[token]? = some pending) (hconn : pending.connId = k.conn)
      (hnew : k ∉ s.outboundNegotiators) :
    Turn s₀ call s
      { s with
        pendingOpens := s.pendingOpens.erase token
        outboundNegotiators :=
          s.outboundNegotiators.insert k { negotiator, target := pending.target } }
  -- negotiators
  | inbound {s} (inboundNegotiators : BTreeMap StreamKey MultistreamSelect) :
    Turn s₀ call s { s with inboundNegotiators }
  | outbound {s} (k : StreamKey) (pending : PendingOutbound) (negotiator : MultistreamSelect)
      (hpending : s.outboundNegotiators[k]? = some pending) :
    Turn s₀ call s
      { s with
        outboundNegotiators := s.outboundNegotiators.insert k { pending with negotiator } }
  | failOutbound {s} (k : StreamKey) (herror : s₀.Emits s (SwarmEvent.isError ·)) :
    Turn s₀ call s { s with outboundNegotiators := s.outboundNegotiators.erase k }
  | dropOutbound {s} (k : StreamKey) (hcall : call.endsStream? = some k)
      (hs : s.outboundNegotiators = s₀.outboundNegotiators) :
    Turn s₀ call s { s with outboundNegotiators := s.outboundNegotiators.erase k }
  -- owners
  | own {s} (k : StreamKey) (owner : ProtocolKind)
      (howner : owner = .ping ∨ owner = .identifyResponder) :
    Turn s₀ call s { s with streamOwner := s.streamOwner.insert k owner }
  | disown {s} (k : StreamKey) :
    Turn s₀ call s { s with streamOwner := s.streamOwner.erase k }
  | promote {s} (k : StreamKey) (pending : PendingOutbound)
      (hpending : s.outboundNegotiators[k]? = some pending)
      (htarget : pending.target = .identifyInitiator ∨ pending.target = .identifyResponder) :
    Turn s₀ call s
      { s with
        outboundNegotiators := s.outboundNegotiators.erase k
        streamOwner := s.streamOwner.insert k pending.target }
  | promotePing {s} (k : StreamKey) (pending : PendingOutbound) (p : PeerId)
      (hpending : s.outboundNegotiators[k]? = some pending) (htarget : pending.target = .ping)
      (hp : s.connToPeer[k.conn]? = some p) :
    Turn s₀ call s
      { s with
        outboundNegotiators := s.outboundNegotiators.erase k
        streamOwner := s.streamOwner.insert k .ping
        ping := (s.ping.handleInput (.registerOutboundStream p k.stream)).1 }
  -- streams of the application
  | promoteUser {s} (k : StreamKey) (pending : PendingOutbound) (protocolId : String) (p : PeerId)
      (hpending : s.outboundNegotiators[k]? = some pending)
      (htarget : pending.target = .user protocolId) (hp : s.connToPeer[k.conn]? = some p) :
    Turn s₀ call s
      ({ s with
        outboundNegotiators := s.outboundNegotiators.erase k
        streamOwner := s.streamOwner.insert k (.user protocolId) }.pushEvent
          (.userStreamReady p k.stream protocolId true))
  | acceptUser {s} (k : StreamKey) (protocolId : String) (p : PeerId)
      (hp : s.connToPeer[k.conn]? = some p) :
    Turn s₀ call s
      ({ s with streamOwner := s.streamOwner.insert k (.user protocolId) }.pushEvent
        (.userStreamReady p k.stream protocolId false))
  | deliver {s} (k : StreamKey) (protocolId : String) (p : PeerId) (e : SwarmEvent)
      (hown : s.streamOwner[k]? = some (.user protocolId)) (hp : s.connToPeer[k.conn]? = some p)
      (he : (∃ data, e = .userStreamData p k.stream data) ∨
        e = .userStreamRemoteWriteClosed p k.stream) :
    Turn s₀ call s (s.pushEvent e)
  | closeUser {s} (k : StreamKey) (protocolId : String) (p : PeerId)
      (hown : s.streamOwner[k]? = some (.user protocolId)) (hp : s.connToPeer[k.conn]? = some p) :
    Turn s₀ call s
      ({ s with streamOwner := s.streamOwner.erase k }.pushEvent (.userStreamClosed p k.stream))
  -- protocol handlers
  | ping {s} (ping : PingProtocol) (hping : s.ping.OutboundLe ping) :
    Turn s₀ call s { s with ping := ping }
  | identify {s} (identify : IdentifyProtocol) : Turn s₀ call s { s with identify := identify }
  | received {s} (k : StreamKey) (p : PeerId) (info : IdentifyMessage)
      (hown : s.streamOwner[k]? = some .identifyInitiator) (hp : s.connToPeer[k.conn]? = some p) :
    Turn s₀ call s (s.handleIdentifyEvent (.received p info))

/-- A chain of turns. -/
abbrev Turns [Sha256] (s₀ : SwarmCore) (call : Call) : SwarmCore → SwarmCore → Prop :=
  Relation.ReflTransGen (Turn s₀ call)

/-- What identify says about a peer is reported, and makes it ready unless it is already. -/
theorem received_cases (s : SwarmCore) (p : PeerId) (info : IdentifyMessage) :
    s.handleIdentifyEvent (.received p info) =
        { s with peerInfo := s.peerInfo.insert p info }.pushEvent (.identifyReceived p info) ∧
        (p ∈ s.readyPeers ∨ s.peerToConn[p]? = none) ∨
      s.handleIdentifyEvent (.received p info) =
        ({ s with
          peerInfo := s.peerInfo.insert p info
          readyPeers := s.readyPeers.insert p }.pushEvent (.identifyReceived p info)).pushEvent
            (.peerReady p info.protocols) ∧
        p ∉ s.readyPeers ∧ p ∈ s.peerToConn := by
  have hinfo : (s.peerInfo.insert p info)[p]? = some info := Std.ExtTreeMap.getElem?_insert_self
  simp only [handleIdentifyEvent, tryEmitPeerReady, pushEvent, hinfo]
  by_cases hready : p ∈ s.readyPeers
  · exact .inl ⟨if_pos (Std.ExtTreeSet.mem_iff_contains.mp hready), .inl hready⟩
  · have hnot : ¬ s.readyPeers.contains p = true :=
      fun h => hready (Std.ExtTreeSet.mem_iff_contains.mpr h)
    rw [if_neg hnot]
    by_cases hp : p ∈ s.peerToConn
    · exact .inr ⟨if_pos (Std.ExtTreeMap.mem_iff_contains.mp hp), hready, hp⟩
    · refine .inl ⟨?_, .inr (Std.ExtTreeMap.getElem?_eq_none hp)⟩
      exact if_neg fun h => hp (Std.ExtTreeMap.mem_iff_contains.mpr h)

end Minip2p.Swarm
