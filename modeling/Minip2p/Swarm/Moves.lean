import Minip2p.Swarm.ClosedForms

/-!
# Moves

`Move s₀ call` is the list of everything a call, made in state `s₀`, may do to the core on its
way: each constructor is one update with the facts under which the source makes it. An invariant
is proved once for the moves; that every call is a chain of moves is proved once for all
invariants, in `Swarm.StepMoves`.
-/

namespace Minip2p.Swarm

open Identify (IdentifyMessage IdentifyProtocol)
open Multistream (MultistreamSelect)
open Ping (Payload PingProtocol)

/-- The peer of a lifecycle event, with whether it was established. -/
def SwarmEvent.lifecycle? : SwarmEvent → Option (PeerId × Bool)
  | connectionEstablished peerId => some (peerId, true)
  | connectionClosed peerId => some (peerId, false)
  | _ => none

/-- The event reports an error. -/
def SwarmEvent.isError : SwarmEvent → Bool
  | error _ => true
  | _ => false

/-- The stream of an event about a user stream, with the peer it is reported for. -/
def SwarmEvent.userStream? : SwarmEvent → Option (PeerId × StreamId)
  | userStreamReady peerId streamId _ _ => some (peerId, streamId)
  | userStreamData peerId streamId _ => some (peerId, streamId)
  | userStreamRemoteWriteClosed peerId streamId => some (peerId, streamId)
  | userStreamClosed peerId streamId => some (peerId, streamId)
  | _ => none

/-- The event carries data of the application. -/
def SwarmEvent.isUserData : SwarmEvent → Bool
  | userStreamData _ _ _ => true
  | _ => false

/-- The stream an action is about. -/
def SwarmAction.key? : SwarmAction → Option StreamKey
  | sendStream connId streamId _ => some ⟨connId, streamId⟩
  | closeStreamWrite connId streamId => some ⟨connId, streamId⟩
  | resetStream connId streamId => some ⟨connId, streamId⟩
  | openStream _ _ => none
  | closeConnection _ => none

/-- The connection an action is about. -/
def SwarmAction.conn : SwarmAction → ConnectionId
  | openStream connId _ => connId
  | sendStream connId _ _ => connId
  | closeStreamWrite connId _ => connId
  | resetStream connId _ => connId
  | closeConnection connId => connId

namespace SwarmCore

/-- A stream is filed in one of the three stream tables. -/
def Files (s : SwarmCore) (k : StreamKey) : Prop :=
  k ∈ s.inboundNegotiators ∨ k ∈ s.outboundNegotiators ∨ k ∈ s.streamOwner

/-- The data completes the negotiation of an inbound stream. -/
def CompletesInbound (s : SwarmCore) (k : StreamKey) (data : Bytes) : Prop :=
  ∃ negotiator protocol, s.inboundNegotiators[k]? = some negotiator ∧
    .negotiated protocol ∈ (negotiator.receive data).pendingOutputs

/-- The connection tables, the established peers and the events are those of `s₀`. -/
structure Agrees (s₀ s : SwarmCore) : Prop where
  connToPeer : s.connToPeer = s₀.connToPeer
  peerToConn : s.peerToConn = s₀.peerToConn
  establishedPeers : s.establishedPeers = s₀.establishedPeers
  events : s.events = s₀.events

end SwarmCore

namespace Call

/-- `c` connected, as `p`. -/
def ConnectsAs (call : Call) (c : ConnectionId) (p : PeerId) : Prop :=
  ∃ endpoint nowMs, call = .input (.transport (.connected c endpoint) nowMs) ∧
    endpoint.peerId = some p

/-- `c` turned out to be a connection to `p`. -/
def VerifiesAs (call : Call) (c : ConnectionId) (p : PeerId) : Prop :=
  ∃ endpoint previous nowMs,
    call = .input (.transport (.peerIdentityVerified c endpoint previous) nowMs) ∧
      endpoint.peerId = some p

/-- A connection without an identity needs a placeholder: it just connected, or the negotiation
of one of its inbound streams is complete. -/
def NeedsPlaceholder (s : SwarmCore) (call : Call) (c : ConnectionId) : Prop :=
  (∃ endpoint nowMs, call = .input (.transport (.connected c endpoint) nowMs) ∧
    endpoint.peerId = none) ∨
  ∃ streamId data nowMs, call = .input (.transport (.streamData c streamId data) nowMs) ∧
    s.CompletesInbound ⟨c, streamId⟩ data

theorem NeedsPlaceholder.eventConn {s : SwarmCore} {call : Call} {c : ConnectionId}
    (h : call.NeedsPlaceholder s c) : call.eventConn? = some c := by
  rcases h with ⟨endpoint, nowMs, rfl, -⟩ | ⟨t, data, nowMs, rfl, -⟩
  · rfl
  · rfl

theorem ConnectsAs.eventConn {call : Call} {c : ConnectionId} {p : PeerId}
    (h : call.ConnectsAs c p) : call.eventConn? = some c := by
  obtain ⟨endpoint, nowMs, rfl, -⟩ := h
  rfl

theorem VerifiesAs.eventConn {call : Call} {c : ConnectionId} {p : PeerId}
    (h : call.VerifiesAs c p) : call.eventConn? = some c := by
  obtain ⟨endpoint, previous, nowMs, rfl, -⟩ := h
  rfl

/-- The call that closes a connection. -/
theorem exists_of_closes? {call : Call} {c : ConnectionId} (h : call.closes? = some c) :
    ∃ nowMs, call = .input (.transport (.closed c) nowMs) := by
  rcases call with (⟨event, nowMs⟩ | _ | _ | _ | _) | _
  case input.transport =>
    cases event with
    | closed d =>
      obtain rfl : d = c := Option.some.inj h
      exact ⟨nowMs, rfl⟩
    | _ => cases h
  all_goals cases h

theorem eventConn?_of_closes? {call : Call} {c : ConnectionId} (h : call.closes? = some c) :
    call.eventConn? = some c := by
  obtain ⟨nowMs, rfl⟩ := exists_of_closes? h
  rfl

/-- The calls about a stream. -/
inductive AboutStream (k : StreamKey) : Call → Prop
  | reported (nowMs : UInt64) :
    AboutStream k (.input (.transport (.streamOpened k.conn k.stream) nowMs))
  | incoming (nowMs : UInt64) :
    AboutStream k (.input (.transport (.incomingStream k.conn k.stream) nowMs))
  | data (data : Bytes) (nowMs : UInt64) :
    AboutStream k (.input (.transport (.streamData k.conn k.stream data) nowMs))
  | remoteWriteClosed (nowMs : UInt64) :
    AboutStream k (.input (.transport (.streamRemoteWriteClosed k.conn k.stream) nowMs))
  | closed (nowMs : UInt64) :
    AboutStream k (.input (.transport (.streamClosed k.conn k.stream) nowMs))
  | opened (token : OpenStreamToken) (nowMs : UInt64) :
    AboutStream k (.input (.streamOpened k.conn k.stream token nowMs))

theorem aboutStream_of_key? {call : Call} {k : StreamKey} (h : call.key? = some k) :
    AboutStream k call := by
  rcases call with (⟨event, nowMs⟩ | _ | ⟨c, t, token, nowMs⟩ | _ | _) | _
  case input.transport =>
    cases event with
    | streamOpened c t =>
      cases h
      exact .reported nowMs
    | incomingStream c t =>
      cases h
      exact .incoming nowMs
    | streamData c t data =>
      cases h
      exact .data data nowMs
    | streamRemoteWriteClosed c t =>
      cases h
      exact .remoteWriteClosed nowMs
    | streamClosed c t =>
      cases h
      exact .closed nowMs
    | _ => cases h
  case input.streamOpened =>
    cases h
    exact .opened token nowMs
  all_goals cases h

theorem conn?_of_key? {call : Call} {k : StreamKey} (h : call.key? = some k) :
    call.conn? = some k.conn := by
  cases aboutStream_of_key? h <;> rfl

end Call

/-- One update on the way of a call. -/
inductive Move [Sha256] (s₀ : SwarmCore) (call : Call) : SwarmCore → SwarmCore → Prop
  -- connections
  | activate {s} (c : ConnectionId) (connected : Bool) (hc : call.eventConn? = some c) :
    Move s₀ call s { s with activeConnections := s.activeConnections.insert c connected }
  | locate {s} (c : ConnectionId) (addr : Multiaddr) (hc : call.eventConn? = some c) :
    Move s₀ call s { s with connToRemoteAddr := s.connToRemoteAddr.insert c addr }
  | placeholder {s} (c : ConnectionId) (hneeds : call.NeedsPlaceholder s₀ c)
      (hnew : s.connToPeer[c]? = none) (hconn : s.connToPeer = s₀.connToPeer)
      (hpeer : s.peerToConn = s₀.peerToConn) :
    Move s₀ call s
      { s with
        connToPeer := s.connToPeer.insert c (SwarmCore.syntheticPeerId c)
        peerToConn := s.peerToConn.insert (SwarmCore.syntheticPeerId c) c }
  | register {s} (c : ConnectionId) (p : PeerId) (hcall : call.ConnectsAs c p)
      (hnew : s.connToPeer[c]? = none) (hs : s₀.Agrees s) :
    Move s₀ call s ((s.yieldTo c p).attach c p)
  | rebind {s} (c : ConnectionId) (p : PeerId) (hcall : call.VerifiesAs c p)
      (hne : s.connToPeer[c]? ≠ some p) (hs : s₀.Agrees s) :
    Move s₀ call s ((s.migrateFrom c p).attach c p)
  | close {s} (c : ConnectionId) (hcall : call.closes? = some c) (hs : s₀.Agrees s) :
    Move s₀ call s (s.detach c)
  -- opening streams
  | openStream {s} (p : PeerId) (c : ConnectionId) (protocolId : String) (target : ProtocolKind)
      (hp : s.peerToConn[p]? = some c) :
    Move s₀ call s (s.queueOpenProtocolStream p protocolId target).1
  | answer {s} (token : OpenStreamToken) :
    Move s₀ call s { s with pendingOpens := s.pendingOpens.erase token }
  -- the stream tables
  | inbound {s} (k : StreamKey) (negotiator : MultistreamSelect) (hk : call.key? = some k)
      (hc : call.eventConn? = some k.conn) (hknown : s₀.Files k ∨ call.announces? = some k)
      (hout : k ∉ s.outboundNegotiators) (hown : k ∉ s.streamOwner) :
    Move s₀ call s { s with inboundNegotiators := s.inboundNegotiators.insert k negotiator }
  | outbound {s} (k : StreamKey) (pending : PendingOutbound) (hk : call.key? = some k)
      (hc : k.conn ∈ s.connToPeer) (hknown : s₀.Files k ∨ call.announces? = some k)
      (hin : k ∉ s.inboundNegotiators) (hown : k ∉ s.streamOwner) :
    Move s₀ call s { s with outboundNegotiators := s.outboundNegotiators.insert k pending }
  | own {s} (k : StreamKey) (owner : ProtocolKind) (hk : call.key? = some k)
      (hc : k.conn ∈ s.connToPeer) (hknown : s₀.Files k ∨ call.announces? = some k)
      (hin : k ∉ s.inboundNegotiators) (hout : k ∉ s.outboundNegotiators) :
    Move s₀ call s { s with streamOwner := s.streamOwner.insert k owner }
  | dropInbound {s} (k : StreamKey) (hk : call.key? = some k) :
    Move s₀ call s { s with inboundNegotiators := s.inboundNegotiators.erase k }
  | dropOutbound {s} (k : StreamKey) (hk : call.key? = some k) :
    Move s₀ call s { s with outboundNegotiators := s.outboundNegotiators.erase k }
  | disown {s} (k : StreamKey) (hk : call.key? = some k) :
    Move s₀ call s { s with streamOwner := s.streamOwner.erase k }
  -- actions
  | negotiate {s} (a : SwarmAction) (k : StreamKey) (ha : a.key? = some k)
      (hk : call.key? = some k) (hknown : s₀.Files k ∨ call.announces? = some k)
      (hc : call.eventConn? = some k.conn ∨ k.conn ∈ s.connToPeer) :
    Move s₀ call s (s.pushAction a)
  | pingAction {s} (a : SwarmAction) (k : StreamKey) (p : PeerId) (ha : a.key? = some k)
      (hown : s.streamOwner[k]? = some .ping) (hp : s.connToPeer[k.conn]? = some p)
      (hcause : ∀ c, call.conn? = some c → s.connToPeer[c]? = some p) :
    Move s₀ call s (s.pushAction a)
  | identifyAction {s} (a : SwarmAction) (c : ConnectionId) (k : StreamKey) (p : PeerId)
      (ha : a.key? = some ⟨c, k.stream⟩) (hk : call.key? = some k)
      (hknown : s₀.Files k ∨ call.announces? = some k) (hp : s.connToPeer[k.conn]? = some p)
      (hc : s.peerToConn[p]? = some c) :
    Move s₀ call s (s.pushAction a)
  | userAction {s} (a : SwarmAction) (k : StreamKey) (p : PeerId) (ha : a.key? = some k)
      (hown : k ∈ s.streamOwner) (hp : s.connToPeer[k.conn]? = some p)
      (happ : call.conn? = none) :
    Move s₀ call s (s.pushAction a)
  | disconnect {s} (p : PeerId) (c : ConnectionId) (hp : s.peerToConn[p]? = some c)
      (happ : call.conn? = none) :
    Move s₀ call s (s.pushAction (.closeConnection c))
  -- events
  | event {s} (e : SwarmEvent) (hplain : e.lifecycle? = none)
      (hcause : e.isError ∨ ∀ c, call.eventConn? = some c → c ∈ s.connToPeer)
      (huser : ∀ p t, e.userStream? = some (p, t) →
        ∃ c, call.key? = some ⟨c, t⟩ ∧ s.connToPeer[c]? = some p)
      (hdata : e.isUserData → call.isData) :
    Move s₀ call s (s.pushEvent e)
  -- peers
  | ping {s} (ping : PingProtocol) (hidle : ping.Idle)
      (hpeers : ∀ q, q ∈ ping.peers →
        q ∈ s.ping.peers ∨ ∃ c, call.eventConn? = some c ∧ s.connToPeer[c]? = some q) :
    Move s₀ call s { s with ping := ping }
  | identify {s} (identify : IdentifyProtocol) (hidle : identify.Idle)
      (hpeers : ∀ q, q ∈ identify.peers →
        q ∈ s.identify.peers ∨ ∃ c, call.eventConn? = some c ∧ s.connToPeer[c]? = some q) :
    Move s₀ call s { s with identify := identify }
  | info {s} (p : PeerId) (info : IdentifyMessage) (c : ConnectionId)
      (hc : call.eventConn? = some c) (hp : s.connToPeer[c]? = some p) :
    Move s₀ call s { s with peerInfo := s.peerInfo.insert p info }
  | ready {s} (p : PeerId) (hinfo : p ∈ s.peerInfo) (hp : p ∈ s.peerToConn) :
    Move s₀ call s { s with readyPeers := s.readyPeers.insert p }
  | deferPing {s} (p : PeerId) (payload : Payload) (hp : p ∈ s.peerToConn) :
    Move s₀ call s { s with pendingPings := s.pendingPings.insert p payload }
  | takePing {s} (p : PeerId) :
    Move s₀ call s { s with pendingPings := s.pendingPings.erase p }
  | configure {s} (localAddresses : List Multiaddr)
      (userProtocols supportedProtocols : List String) :
    Move s₀ call s { s with localAddresses, userProtocols, supportedProtocols }

/-- An event that is about no connection and no user stream. -/
theorem Move.plainEvent [Sha256] {s₀ s : SwarmCore} {call : Call} (e : SwarmEvent)
    (hplain : e.lifecycle? = none) (huser : e.userStream? = none)
    (hcause : e.isError ∨ ∀ c, call.eventConn? = some c → c ∈ s.connToPeer) :
    Move s₀ call s (s.pushEvent e) := by
  refine .event e hplain hcause ?_ ?_
  · intro p t h
    rw [huser] at h
    cases h
  · intro h
    cases e with
    | userStreamData peerId streamId data => cases huser
    | _ => cases h

/-- A chain of moves. -/
abbrev Moves [Sha256] (s₀ : SwarmCore) (call : Call) : SwarmCore → SwarmCore → Prop :=
  Relation.ReflTransGen (Move s₀ call)

end Minip2p.Swarm
