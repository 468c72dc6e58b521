import Minip2p.Ping.Moves
import Minip2p.Swarm.DeferredPing
import Minip2p.Swarm.PingRelease

/-!
# The ping on the new connection

A connection that supersedes another one asks for a ping stream if a payload waits for its peer.
The payload goes out as soon as the protocol of that stream is negotiated.
-/

namespace Minip2p.Swarm

open Identify (identifyProtocolId)
open Multistream (MultistreamOutput)
open Ping (Payload PeerPingState PingOutput PingProtocol pingProtocolId)
open SwarmCore

/-! ## The superseding connection -/

namespace SwarmCore

/-- Two requests in a row have different tokens. -/
theorem takeOpenToken_ne (next : UInt64) :
    (takeOpenToken (takeOpenToken next).2).1 ≠ (takeOpenToken next).1 := by
  unfold takeOpenToken
  intro h
  split at h
  · next hne =>
    dsimp only at h
    split at h
    · have heq := OpenStreamToken.mk.inj h
      exact absurd heq (by simp)
    · have heq := OpenStreamToken.mk.inj h
      grind
  · next hzero =>
    rw [not_not.mp hzero] at h
    exact absurd h (by decide)

/-- A stream for identify and one for ping are asked for. -/
def asksBoth (s : SwarmCore) (p : PeerId) : SwarmCore :=
  ((s.queueOpenProtocolStream p identifyProtocolId .identifyInitiator).1.queueOpenProtocolStream p
    pingProtocolId .ping).1

variable [MultihashCodec] {s : SwarmCore} {c old : ConnectionId} {p : PeerId} {payload : Payload}

omit [MultihashCodec] in
/-- A connection without requests for ping has no ping stream under way. -/
theorem hasPendingPingStream_eq_false (hp : s.peerToConn[p]? = some c)
    (h : s.pingOpens c + s.pingNegotiators c = 0) : s.hasPendingPingStream p = false := by
  obtain ⟨hopens, hnegotiators⟩ := Nat.add_eq_zero_iff.mp h
  simp only [hasPendingPingStream, hp, Bool.or_eq_false_iff]
  exact ⟨BTreeMap.anyEntry_eq_false_of_countEntries hnegotiators,
    BTreeMap.anyEntry_eq_false_of_countEntries hopens⟩

/-- A payload that waits makes a connection that is announced ask for a ping stream, too. -/
theorem announceConnection_requeues (hp : s.peerToConn[p]? = some c)
    (hpayload : s.pendingPings[p]? = some payload) (hstream : s.ping.outboundStream p = none)
    (hrequests : s.pingOpens c + s.pingNegotiators c = 0) :
    s.announceConnection c p =
      ({ s with establishedPeers := s.establishedPeers.insert p }.pushEvent
        (.connectionEstablished p)).asksBoth p := by
  unfold announceConnection
  dsimp only
  generalize ht : { s with establishedPeers := s.establishedPeers.insert p }.pushEvent
    (.connectionEstablished p) = t
  have hpt : t.peerToConn[p]? = some c := by
    rw [← ht]
    exact hp
  -- identify has its request by then
  generalize hasked : (t.queueOpenProtocolStream p identifyProtocolId .identifyInitiator).1 = asked
  have hpasked : asked.peerToConn[p]? = some c := by
    rw [← hasked]
    simp only [queueOpenProtocolStream, requireConn, hpt]
  have hwaits : asked.pendingPings.contains p = true := by
    rw [← hasked, ← ht]
    simp only [queueOpenProtocolStream, requireConn, pushEvent, hp]
    exact Std.ExtTreeMap.mem_iff_contains.mp (BTreeMap.mem_of_getElem? hpayload)
  have hnone : asked.findNegotiatedPingStream p = none := by
    rw [← hasked, ← ht]
    simp only [queueOpenProtocolStream, requireConn, pushEvent, hp, findNegotiatedPingStream]
    exact hstream
  have hzero : asked.pingOpens c + asked.pingNegotiators c = 0 := by
    have hkept : PingKept c (fun _ => True) t asked := by
      rw [← hasked]
      exact queueOpenProtocolStream_pings t identifyProtocolId fun h => by cases h
    have hle := hkept.requests
    rw [← ht] at hle
    exact Nat.le_zero.mp (Nat.le_trans hle (Nat.le_of_eq hrequests))
  rw [openOrReport_eq hpt, hasked, if_pos, openOrReport_eq hpasked, ← hasked]
  · rfl
  · refine ⟨hwaits, Option.isNone_iff_eq_none.mpr hnone, ?_⟩
    rw [hasPendingPingStream_eq_false hpasked hzero]
    exact Bool.false_ne_true

/-- The connection that supersedes another one asks for a ping stream if a payload waits. -/
theorem registerConnection_requeues (hidle : s.Idle) (hprimary : Primary s)
    (hold : s.peerToConn[p]? = some old) (hne : old ≠ c) (hnew : s.connToPeer[c]? = none)
    (hrequests : s.pingOpens c + s.pingNegotiators c = 0)
    (hpayload : s.pendingPings[p]? = some payload) :
    s.registerConnection c p = ((s.superseded old p).attach c p).asksBoth p := by
  have hfresh : s.connToPeer.contains c = false := by
    rw [Std.ExtTreeMap.contains_eq_isSome_getElem?, hnew]
    rfl
  have hyield : s.supersedeOther c p = s.superseded old p := by
    rw [supersedeOther_eq hidle (hprimary p), yieldTo, hold]
    exact if_pos hne
  unfold registerConnection
  rw [hyield, hfresh]
  apply announceConnection_requeues
  · exact Std.ExtTreeMap.getElem?_insert_self
  · exact hpayload
  · exact SinglePing.outboundStream_removePeer s.ping p
  · have hle := SinglePing.pingOpens_retain_le s c old
    exact Nat.le_zero.mp (Nat.le_trans hle (Nat.le_of_eq hrequests))

omit [MultihashCodec] in
theorem asksBoth_eq (hp : s.peerToConn[p]? = some c) :
    (s.asksBoth p).pendingPings = s.pendingPings ∧
      (s.asksBoth p).actions = s.actions ++
        [.openStream c (takeOpenToken s.nextOpenToken).1,
          .openStream c (takeOpenToken (takeOpenToken s.nextOpenToken).2).1] ∧
      (s.asksBoth p).pendingOpens =
        (s.pendingOpens.insert (takeOpenToken s.nextOpenToken).1
          ⟨c, identifyProtocolId, .identifyInitiator⟩).insert
            (takeOpenToken (takeOpenToken s.nextOpenToken).2).1 ⟨c, pingProtocolId, .ping⟩ := by
  simp only [asksBoth, queueOpenProtocolStream, requireConn, hp, List.append_assoc,
    List.cons_append, List.nil_append, and_self]

end SwarmCore

/-- The payload is still queued, one ping stream is asked for on `c`, and nothing of `old` is
left. -/
structure Requeued (s s' : SwarmCore) (old c : ConnectionId) (p : PeerId) (payload : Payload) :
    Prop where
  payload : s'.pendingPings[p]? = some payload
  forgotten : Forgotten s' old
  requests : ∃ identifyToken pingToken : OpenStreamToken,
    s'.actions = s.actions ++ [.closeConnection old, .openStream c identifyToken,
      .openStream c pingToken] ∧
    s'.pendingOpens[identifyToken]? = some ⟨c, identifyProtocolId, .identifyInitiator⟩ ∧
    s'.pendingOpens[pingToken]? = some ⟨c, pingProtocolId, .ping⟩ ∧
    ∀ (token : OpenStreamToken) (pending : PendingOpen), s'.pendingOpens[token]? = some pending →
      pending.connId = c → pending.target = .ping → token = pingToken

section Superseding

variable [MultihashCodec] {s : SwarmCore} {c old : ConnectionId} {p : PeerId} {payload : Payload}

theorem registerConnection_requeued (hidle : s.Idle) (hprimary : Primary s)
    (hold : s.peerToConn[p]? = some old) (hne : old ≠ c) (hnew : s.connToPeer[c]? = none)
    (hrequests : s.pingOpens c + s.pingNegotiators c = 0)
    (hopens : ∀ (token : OpenStreamToken) (pending : PendingOpen),
      s.pendingOpens[token]? = some pending → pending.connId ≠ c)
    (hpayload : s.pendingPings[p]? = some payload) :
    Requeued s (s.registerConnection c p) old c p payload := by
  rw [registerConnection_requeues hidle hprimary hold hne hnew hrequests hpayload]
  have hforgotten : Forgotten ((s.superseded old p).attach c p) old :=
    .of_superseded hprimary hold hne.symm
  have hp : ((s.superseded old p).attach c p).peerToConn[p]? = some c :=
    Std.ExtTreeMap.getElem?_insert_self
  obtain ⟨hpings, hactions, hasked⟩ := asksBoth_eq hp
  constructor
  · rw [hpings]
    exact hpayload
  · exact (hforgotten.queueOpen p _ _).queueOpen p _ _
  · refine ⟨_, _, hactions.trans (List.append_assoc _ _ _), ?_, ?_, ?_⟩
    · rw [hasked, BTreeMap.getElem?_insert_of_ne (takeOpenToken_ne _).symm]
      exact Std.ExtTreeMap.getElem?_insert_self
    · rw [hasked]
      exact Std.ExtTreeMap.getElem?_insert_self
    · intro token pending hpending hconn htarget
      rw [hasked] at hpending
      rcases BTreeMap.getElem?_insert_eq_some_iff.mp hpending with ⟨heq, -⟩ | ⟨-, hpending⟩
      · exact heq
      · rcases BTreeMap.getElem?_insert_eq_some_iff.mp hpending with ⟨-, rfl⟩ | ⟨-, hpending⟩
        · cases htarget
        · -- the connection is new
          have hkept := BTreeMap.getElem?_filter_eq_some_iff.mp hpending
          exact absurd hconn (hopens token pending hkept.1)

/-- The call that reports the connection of a peer for which a payload waits. -/
theorem step_requeued [Sha256] {calls : List Call} {endpoint : ConnectionEndpoint} {nowMs : UInt64}
    (hcoherent : Coherent calls s) (hsingle : SinglePing s) (hwithin : Within (· ∈ s.peerToConn) s)
    (hcontract : TransportContract calls (.input (.transport (.connected c endpoint) nowMs)))
    (hp : endpoint.peerId = some p) (hpayload : s.pendingPings[p]? = some payload) :
    ∃ old, s.peerToConn[p]? = some old ∧
      Requeued s (step s (.input (.transport (.connected c endpoint) nowMs))) old c p payload := by
  obtain ⟨old, hold⟩ :=
    BTreeMap.exists_getElem?_of_mem (hwithin.pendingPings p (BTreeMap.mem_of_getElem? hpayload))
  have hfresh : c ∉ s.connToPeer := fun hc => hcontract.1 (hcoherent.connected c hc)
  have hne : old ≠ c := by
    rintro rfl
    exact hfresh (BTreeMap.mem_of_getElem? (hcoherent.primary p old hold))
  have hnew := Std.ExtTreeMap.getElem?_eq_none hfresh
  refine ⟨old, hold, ?_⟩
  have hopens : ∀ (token : OpenStreamToken) (pending : PendingOpen),
      s.pendingOpens[token]? = some pending → pending.connId ≠ c := by
    rintro token pending hpending rfl
    exact hfresh (hcoherent.openTracked token pending hpending)
  generalize ht : { s with
    activeConnections := s.activeConnections.insert c true
    connToRemoteAddr := s.connToRemoteAddr.insert c endpoint.transport } = t
  have hrequeued : Requeued t (t.registerConnection c p) old c p payload := by
    subst ht
    exact registerConnection_requeued ⟨hcoherent.idle.ping, hcoherent.idle.identify⟩
      hcoherent.primary hold hne hnew (hsingle.untracked c hnew) hopens hpayload
  have hstep : step s (.input (.transport (.connected c endpoint) nowMs)) =
      t.registerConnection c p := by
    simp only [step, handleInput, handleTransportEvent, hp, ht]
  have hactions : t.actions = s.actions := by rw [← ht]
  rw [hstep]
  refine ⟨hrequeued.payload, hrequeued.forgotten, ?_⟩
  rw [← hactions]
  exact hrequeued.requests

end Superseding

/-! ## The stream that becomes ready -/

/-- What a negotiator sends on its stream. -/
def handshakeSends (k : StreamKey) (outputs : List MultistreamOutput) : List SwarmAction :=
  outputs.filterMap fun
    | .outboundData bytes => some (.sendStream k.conn k.stream bytes)
    | _ => none

/-- A protocol is negotiated, and nothing fails. -/
structure Succeeds (outputs : List MultistreamOutput) : Prop where
  negotiated : ∃ protocol, .negotiated protocol ∈ outputs
  available : .notAvailable ∉ outputs
  noError : ∀ reason, .protocolError reason ∉ outputs

namespace SwarmCore

/-- What the negotiator of the stream `k` says to the data. -/
def handshakeOutputs (s : SwarmCore) (k : StreamKey) (data : Bytes) : List MultistreamOutput :=
  match s.outboundNegotiators[k]? with
  | some pending => (pending.negotiator.receive data).pendingOutputs
  | none => []

/-- The data completes the negotiation of the ping stream `k` that was asked for. -/
def CompletesPing (s : SwarmCore) (k : StreamKey) (data : Bytes) : Prop :=
  (∃ pending ∈ s.outboundNegotiators[k]?, pending.target = .ping) ∧
    Succeeds (s.handshakeOutputs k data)

/-- Polling a negotiator that has nothing to complain about. -/
theorem pollOutbound_eq (k : StreamKey) {outputs : List MultistreamOutput}
    (havailable : .notAvailable ∉ outputs) (hnoError : ∀ reason, .protocolError reason ∉ outputs)
    (s : SwarmCore) (negotiated : Bool) :
    ∃ negotiated', pollOutbound k outputs s negotiated =
        ({ s with actions := s.actions ++ handshakeSends k outputs }, negotiated', false) ∧
      ((negotiated = true ∨ ∃ protocol, .negotiated protocol ∈ outputs) → negotiated' = true) := by
  induction outputs generalizing s negotiated with
  | nil =>
    refine ⟨negotiated, ?_, ?_⟩
    · simp only [pollOutbound, handshakeSends, List.filterMap_nil, List.append_nil]
    · rintro (h | ⟨protocol, ho⟩)
      · exact h
      · cases ho
  | cons o outputs ih =>
    have hrest := ih (fun h => havailable (List.mem_cons_of_mem _ h))
      fun reason h => hnoError reason (List.mem_cons_of_mem _ h)
    cases o with
    | outboundData bytes =>
      obtain ⟨negotiated', heq, hnegotiated⟩ :=
        hrest (s.pushAction (.sendStream k.conn k.stream bytes)) negotiated
      refine ⟨negotiated', ?_, ?_⟩
      · simp only [pollOutbound, handleMultistreamOutput]
        rw [heq]
        simp [handshakeSends, pushAction]
      · rintro (h | ⟨protocol, ho⟩)
        · exact hnegotiated (.inl h)
        · exact hnegotiated (.inr ⟨protocol, List.mem_of_ne_of_mem (by rintro ⟨⟩) ho⟩)
    | negotiated protocol =>
      obtain ⟨negotiated', heq, hnegotiated⟩ := hrest s true
      refine ⟨negotiated', ?_, fun _ => hnegotiated (.inl rfl)⟩
      simp only [pollOutbound]
      rw [heq]
      simp [handshakeSends]
    | notAvailable => exact absurd List.mem_cons_self havailable
    | protocolError reason => exact absurd List.mem_cons_self (hnoError reason)

/-- The owner of a stream of a peer is found. -/
theorem connForOwnedStream_eq {s : SwarmCore} {k : StreamKey} {p : PeerId} {owner : ProtocolKind}
    (hunique : Unique s) (hown : s.streamOwner[k]? = some owner)
    (hp : s.connToPeer[k.conn]? = some p) :
    s.connForOwnedStream p k.stream owner = some k.conn := by
  apply BTreeMap.findMap_eq_some hown
  · exact if_pos ⟨rfl, rfl, hp⟩
  · intro k' owner' c hk' hfound
    split at hfound
    · next h =>
      -- a peer has one connection
      have hsame := (hunique k'.conn p h.2.2).symm.trans (hunique k.conn p hp)
      exact (Option.some.inj hfound).symm.trans (Option.some.inj hsame)
    · cases hfound

section Sending

variable [MultihashCodec] {s : SwarmCore} {k : StreamKey} {p : PeerId} {payload : Payload}
  {nowMs : UInt64}

/-- The payload goes out on the stream of its peer. -/
theorem sendDeferredPing_eq (hidle : s.ping.Idle) {state : PeerPingState}
    (hpeer : s.ping.peers[p]? = some state) (hstream : state.outboundStream = some k.stream)
    (hfree : state.pendingPing = none) (hpayload : s.pendingPings[p]? = some payload)
    (howned : s.connForOwnedStream p k.stream .ping = some k.conn) :
    s.sendDeferredPing k p nowMs =
      { s with
        pendingPings := s.pendingPings.erase p
        ping := s.ping.setPeer p { state with pendingPing := some ⟨payload, nowMs⟩ }
        actions := s.actions ++ [.sendStream k.conn k.stream payload.toList] } := by
  have hsend : s.ping.handleInput (.sendPing p payload nowMs) =
      ((s.ping.setPeer p { state with pendingPing := some ⟨payload, nowMs⟩ }).pushActions
        [.send p k.stream payload], .ok ()) := by
    rw [PingProtocol.handleInput, PingProtocol.sendPing, dif_pos (Vector.length_toList ..)]
    simp only [hpeer, hstream, hfree, Option.isSome_none, Bool.false_eq_true, if_false]
    rfl
  have howned' : ∀ (ping : PingProtocol) (pendingPings : BTreeMap PeerId Payload),
      connForOwnedStream { s with ping := ping, pendingPings := pendingPings } p k.stream .ping =
        some k.conn := fun _ _ => howned
  unfold sendDeferredPing
  simp only [hpayload, hsend, drainPingOutputs, PingProtocol.drainOutputs,
    PingProtocol.pushActions, PingProtocol.setPeer, hidle.1, hidle.2, List.nil_append,
    List.map_cons, List.map_nil, List.append_nil, List.foldl_cons, List.foldl_nil,
    handlePingOutput, executePingAction, howned', pushAction]

/-- Ping takes the stream, of which the core hears nothing, and then the payload. -/
theorem startPing_eq (hidle : s.ping.Idle) (hwellFormed : s.ping.WellFormed)
    (hstream : s.ping.outboundStream p = none) (hpayload : s.pendingPings[p]? = some payload)
    (howned : s.connForOwnedStream p k.stream .ping = some k.conn) :
    ∃ ping, s.startPing k p nowMs =
        { s with
          pendingPings := s.pendingPings.erase p
          ping := ping
          actions := s.actions ++ [.sendStream k.conn k.stream payload.toList] } ∧
      ping.Idle ∧ (ping.peerState p).outboundStream = some k.stream := by
  have hstate := PingProtocol.peerState_outboundStream_eq_none hstream
  -- no ping is in flight without a stream
  have hfree : (s.ping.peerState p).pendingPing = none := by
    by_contra hbusy
    have hsome := (PingProtocol.wellFormed_iff.mp hwellFormed p).pending
      (Option.isSome_iff_ne_none.mpr hbusy)
    rw [hstate] at hsome
    cases hsome
  generalize hping : s.ping.setPeer p
    { s.ping.peerState p with outboundStream := some k.stream } = registered
  have hregistered : s.startPing k p nowMs =
      { s with ping := registered }.sendDeferredPing k p nowMs := by
    subst hping
    unfold startPing
    simp only [PingProtocol.handleInput, PingProtocol.registerOutboundStream, hstate]
    congr 1
    obtain ⟨ping, _⟩ := s
    obtain ⟨peers, pendingEvents, pendingActions, config⟩ := ping
    obtain ⟨rfl, rfl⟩ : pendingActions = [] ∧ pendingEvents = [] := hidle
    rfl
  have hidle' : registered.Idle := by
    rw [← hping]
    exact hidle
  have hpeer : registered.peers[p]? =
      some { s.ping.peerState p with outboundStream := some k.stream } := by
    rw [← hping]
    exact Std.ExtTreeMap.getElem?_insert_self
  refine ⟨_, hregistered.trans (sendDeferredPing_eq hidle' hpeer rfl hfree hpayload howned),
    hidle', ?_⟩
  rw [PingProtocol.peerState_setPeer_self]

/-- What the core makes of the payload when the ping stream `k` is ready. -/
theorem onOutboundNegotiated_eq [Sha256] (hidle : s.ping.Idle) (hunique : Unique s)
    (hwellFormed : s.ping.WellFormed) (hp : s.connToPeer[k.conn]? = some p)
    (hstream : s.ping.outboundStream p = none) (hpayload : s.pendingPings[p]? = some payload) :
    ∃ ping, s.onOutboundNegotiated k .ping nowMs =
        { s with
          streamOwner := s.streamOwner.insert k .ping
          pendingPings := s.pendingPings.erase p
          ping := ping
          actions := s.actions ++ [.sendStream k.conn k.stream payload.toList] } ∧
      ping.Idle ∧ (ping.peerState p).outboundStream = some k.stream := by
  have howned := @connForOwnedStream_eq
    { s with streamOwner := s.streamOwner.insert k .ping } k p .ping hunique
      Std.ExtTreeMap.getElem?_insert_self hp
  unfold onOutboundNegotiated
  rw [ensurePeerIdForConn_of_some hp]
  exact startPing_eq (s := { s with streamOwner := s.streamOwner.insert k .ping }) hidle hwellFormed
    hstream hpayload howned

/-- What follows the handshake on our own ping stream is an answer that may be wrong. -/
theorem dispatchRemaining_resets [Sha256] (hidle : s.ping.Idle) (hunique : Unique s)
    (hown : s.streamOwner[k]? = some .ping) (hp : s.connToPeer[k.conn]? = some p)
    (hstream : (s.ping.peerState p).outboundStream = some k.stream) (remaining : Bytes) :
    ∃ rest, (s.dispatchRemaining k remaining nowMs).actions = s.actions ++ rest ∧
      ∀ a ∈ rest, a = .resetStream k.conn k.stream := by
  unfold dispatchRemaining
  split
  · exact ⟨[], (List.append_nil _).symm, fun a ha => absurd ha List.not_mem_nil⟩
  have hdispatch : s.dispatchProtocolData k remaining nowMs =
      s.feedPing (.streamData p k.stream remaining nowMs) := by
    simp only [dispatchProtocolData, hown, ensurePeerIdForConn_of_some hp]
  obtain ⟨state, events, actions, hturn, hmove⟩ :=
    PingProtocol.moves_streamData s.ping p k.stream remaining nowMs
  have hqueued : actions = [] ∨ actions = [.resetStream p k.stream] := by
    cases hmove with
    | other hpeer hne => exact .inl rfl
    | echo hother => exact absurd hstream hother
    | keep => exact .inl rfl
    | rtt => exact .inl rfl
    | unknownStream => exact .inr rfl
    | oversize => exact .inr rfl
    | mismatch => exact .inr rfl
  rw [hdispatch, feedPing, drainPingOutputs_actions]
  dsimp only
  rw [hturn.actions, hidle.1, List.nil_append]
  rcases hqueued with rfl | rfl
  · exact ⟨[], (List.append_nil _).symm, fun a ha => absurd ha List.not_mem_nil⟩
  · refine ⟨[.resetStream k.conn k.stream], ?_, fun a ha => List.mem_singleton.mp ha⟩
    simp only [List.map_cons, List.map_nil, List.foldl_cons, List.foldl_nil]
    rw [handlePingOutput_reset, resetFor, connForOwnedStream_eq]
    · exact hunique
    · exact hown
    · exact hp

end Sending

end SwarmCore

/-- The payload has been sent on the stream `k`, behind the rest of the handshake, and waits no
longer. All that may follow is the reset of the stream. -/
structure PingSent (s s' : SwarmCore) (k : StreamKey) (data : Bytes) (p : PeerId)
    (payload : Payload) : Prop where
  taken : s'.pendingPings[p]? = none
  sent : ∃ rest, s'.actions = s.actions ++ handshakeSends k (s.handshakeOutputs k data) ++
      .sendStream k.conn k.stream payload.toList :: rest ∧
    ∀ a ∈ rest, a = .resetStream k.conn k.stream

section Completion

variable [Sha256] [MultihashCodec] {s : SwarmCore} {k : StreamKey} {p : PeerId}
  {payload : Payload} {data : Bytes} {nowMs : UInt64}

theorem feedOutboundNegotiator_sends (hidle : s.Idle) (hunique : Unique s)
    (hwellFormed : s.ping.WellFormed) (hp : s.connToPeer[k.conn]? = some p)
    (hstream : s.ping.outboundStream p = none) (hpayload : s.pendingPings[p]? = some payload)
    (hcompletes : s.CompletesPing k data) :
    PingSent s (s.feedOutboundNegotiator k data nowMs) k data p payload := by
  obtain ⟨⟨pending, hpending, htarget⟩, hsucceeds⟩ := hcompletes
  have houtputs : s.handshakeOutputs k data =
      (pending.negotiator.receive data).pendingOutputs := by
    simp only [handshakeOutputs, Option.mem_def.mp hpending]
  rw [houtputs] at hsucceeds
  unfold feedOutboundNegotiator
  rw [Option.mem_def.mp hpending]
  dsimp only [Multistream.MultistreamSelect.handleInput, Multistream.MultistreamSelect.drainOutputs]
  generalize hstart : { s with
    outboundNegotiators := s.outboundNegotiators.insert k
      { pending with
        negotiator := { pending.negotiator.receive data with pendingOutputs := [] } } } = start
  obtain ⟨negotiated, hpoll, hnegotiated⟩ :=
    pollOutbound_eq k hsucceeds.available hsucceeds.noError start false
  obtain rfl : negotiated = true := hnegotiated (.inr hsucceeds.negotiated)
  rw [hpoll]
  dsimp only
  rw [htarget, ← houtputs]
  -- the negotiator has made way
  generalize hready : { start with
    outboundNegotiators := start.outboundNegotiators.erase k
    actions := start.actions ++ handshakeSends k (s.handshakeOutputs k data) } = ready
  have hactions : ready.actions = s.actions ++ handshakeSends k (s.handshakeOutputs k data) := by
    rw [← hready, ← hstart]
  obtain ⟨ping, heq, hidle', hstream'⟩ : ∃ ping, ready.onOutboundNegotiated k .ping nowMs =
      { ready with
        streamOwner := ready.streamOwner.insert k .ping
        pendingPings := ready.pendingPings.erase p
        ping := ping
        actions := ready.actions ++ [.sendStream k.conn k.stream payload.toList] } ∧
      ping.Idle ∧ (ping.peerState p).outboundStream = some k.stream := by
    subst hready hstart
    exact onOutboundNegotiated_eq hidle.ping hunique hwellFormed hp hstream hpayload
  rw [heq]
  generalize hsent : { ready with
    streamOwner := ready.streamOwner.insert k .ping
    pendingPings := ready.pendingPings.erase p
    ping := ping
    actions := ready.actions ++
      [SwarmAction.sendStream k.conn k.stream payload.toList] } = sent
  have hwaiting : sent.pendingPings[p]? = none := by
    rw [← hsent]
    exact Std.ExtTreeMap.getElem?_erase_self
  have hadded : sent.actions = s.actions ++ handshakeSends k (s.handshakeOutputs k data) ++
      [SwarmAction.sendStream k.conn k.stream payload.toList] := by
    rw [← hsent, ← hactions]
  have hresets : ∀ remaining, ∃ rest, (sent.dispatchRemaining k remaining nowMs).actions =
      sent.actions ++ rest ∧ ∀ a ∈ rest, a = .resetStream k.conn k.stream := by
    subst hsent hready hstart
    exact dispatchRemaining_resets hidle' hunique Std.ExtTreeMap.getElem?_insert_self hp hstream'
  obtain ⟨rest, hrest, hreset⟩ := hresets (pending.negotiator.receive data).recvBuf
  constructor
  · have hkept := dispatchRemaining_pings (c := k.conn) (P := fun _ => True) sent k
      (pending.negotiator.receive data).recvBuf nowMs
    exact (hkept.payload p trivial).trans hwaiting
  · refine ⟨rest, hrest.trans ?_, hreset⟩
    rw [hadded, List.append_assoc _ [_], List.singleton_append]

/-- The call that completes the negotiation of the ping stream sends what waits for its peer. -/
theorem step_sends {calls : List Call} (hcoherent : Coherent calls s) (hunique : Unique s)
    (hsingle : SinglePing s) (hwellFormed : s.ping.WellFormed)
    (hp : s.connToPeer[k.conn]? = some p) (hpayload : s.pendingPings[p]? = some payload)
    (hcompletes : s.CompletesPing k data) :
    PingSent s (step s (.input (.transport (.streamData k.conn k.stream data) nowMs))) k data p
      payload := by
  obtain ⟨pending, hpending, htarget⟩ := hcompletes.1
  have hmem : k ∈ s.outboundNegotiators := BTreeMap.mem_of_getElem? hpending
  have hinbound : s.inboundNegotiators.contains k = false := by
    rw [← Bool.not_eq_true]
    intro h
    exact (hcoherent.inboundDisjoint k (Std.ExtTreeMap.mem_iff_contains.mpr h)).1 hmem
  show PingSent s (s.handleStreamData k data nowMs) k data p payload
  unfold handleStreamData
  rw [hinbound, if_neg Bool.false_ne_true, if_pos (Std.ExtTreeMap.mem_iff_contains.mp hmem)]
  exact feedOutboundNegotiator_sends hcoherent.idle hunique hwellFormed hp
    (hsingle.outboundStream_eq_none hp hpending htarget) hpayload hcompletes

end Completion

/-! ## Runs -/

/-- The payload waits for the stream that was asked for on the new connection. -/
theorem Requeued.deferred {s s' : SwarmCore} {old c : ConnectionId} {p : PeerId}
    {payload : Payload} (h : Requeued s s' old c p payload) (hp : s'.connToPeer[c]? = some p) :
    Deferred c p payload s' :=
  fun _ => ⟨hp, h.payload⟩

/-- In a handshake run a connection that supersedes another one of its peer leaves the payload that
waits for the peer in the queue, asks for one ping stream on the new connection, and leaves nothing
of the old one. If no other ping is made, what is sent on the new stream once its protocol is
negotiated is this payload. -/
theorem superseding_keeps_ping [Sha256] [MultihashCodec] (hsha : NoCollision)
    (identifyConfig : Identify.IdentifyConfig) (pingConfig : Ping.PingConfig) (calls : List Call)
    (call : Call) (c : ConnectionId) (p : PeerId) (payload : Payload)
    (hrun : HandshakeRun (calls ++ [call])) (hcall : call.ConnectsAs c p)
    (hpayload : (run (SwarmCore.new identifyConfig pingConfig) calls).pendingPings[p]? =
      some payload) :
    (∃ old, (run (SwarmCore.new identifyConfig pingConfig) calls).peerToConn[p]? = some old ∧
      Requeued (run (SwarmCore.new identifyConfig pingConfig) calls)
        (run (SwarmCore.new identifyConfig pingConfig) (calls ++ [call])) old c p payload) ∧
    ∀ (later : List Call) (t : StreamId) (data : Bytes) (nowMs : UInt64),
      HandshakeRun (calls ++ [call] ++ later) →
      AwaitingRun (SwarmCore.new identifyConfig pingConfig) c p (calls ++ [call]) later →
      (run (SwarmCore.new identifyConfig pingConfig)
        (calls ++ [call] ++ later)).CompletesPing ⟨c, t⟩ data →
      PingSent (run (SwarmCore.new identifyConfig pingConfig) (calls ++ [call] ++ later))
        (run (SwarmCore.new identifyConfig pingConfig)
          (calls ++ [call] ++ later ++ [.input (.transport (.streamData c t data) nowMs)]))
        ⟨c, t⟩ data p payload := by
  obtain ⟨hbefore, hstep, -⟩ := Runs.eachStep_append.mp hrun
  have horderly := orderly_run identifyConfig pingConfig hsha hbefore
  have hrequeued : ∃ old,
      (run (SwarmCore.new identifyConfig pingConfig) calls).peerToConn[p]? = some old ∧
      Requeued (run (SwarmCore.new identifyConfig pingConfig) calls)
        (run (SwarmCore.new identifyConfig pingConfig) (calls ++ [call])) old c p payload := by
    obtain ⟨endpoint, nowMs, rfl, hp⟩ := hcall
    rw [run_concat]
    exact step_requeued horderly.coherent horderly.single horderly.represented.within hstep.1 hp
      hpayload
  refine ⟨hrequeued, ?_⟩
  obtain ⟨old, -, hrequeued⟩ := hrequeued
  intro later t data nowMs hlater hawaiting hcompletes
  have hfiled : (run (SwarmCore.new identifyConfig pingConfig) (calls ++ [call])).connToPeer[c]? =
      some p := by
    rw [run_concat, step_connToPeer_of_connectsAs horderly.coherent hstep.1 hcall]
    exact Std.ExtTreeMap.getElem?_insert_self
  have hconnected : Connected (calls ++ [call]) c := by
    obtain ⟨endpoint, nowMs, rfl, -⟩ := hcall
    exact connected_of_connects rfl
  have hdeferred := deferred_run identifyConfig pingConfig hsha hlater hawaiting hconnected
    (hrequeued.deferred hfiled)
  -- the stream in negotiation is the one that is under way
  obtain ⟨pending, hpending, htarget⟩ := hcompletes.1
  have hunder : (run (SwarmCore.new identifyConfig pingConfig)
      (calls ++ [call] ++ later)).pingUnderWay c := by
    have htake := BTreeMap.countEntries_erase_of_pos
      (f := fun key pending => decide (key.conn = c ∧ pending.target = .ping)) hpending
      (by simp [htarget])
    unfold pingUnderWay pingNegotiators
    omega
  obtain ⟨hp, hwaits⟩ := hdeferred hunder
  have horderly' := orderly_run identifyConfig pingConfig hsha hlater
  rw [run_concat]
  exact step_sends horderly'.coherent horderly'.represented.unique horderly'.single
    (ping_wellFormed_run identifyConfig pingConfig hsha hlater) hp hwaits hcompletes

/-! ## A concrete run -/

/-- A ping to Alice waits for its stream. -/
def waitingPing : List Call :=
  [.event (.connected ⟨1⟩ (Sample.endpoint (some Sample.alice))),
    .ping Sample.alice (Vector.replicate Ping.pingPayloadLen 7) 0]

/-- She connects a second time. -/
def reconnection : Call := .event (.connected ⟨2⟩ (Sample.endpoint (some Sample.alice)))

/-- The driver opens the ping stream that her second connection asks for. -/
def pingReopened : List Call := [.input (.streamOpened ⟨2⟩ ⟨4⟩ ⟨4⟩ 0)]

/-- What a remote says that takes the ping protocol. -/
def pingAccepted : Bytes :=
  Multistream.encodeMessage Multistream.multistreamProtocolId ++
    Multistream.encodeMessage pingProtocolId

theorem waitingPing_sent :
    PingSent (Sample.run (waitingPing ++ [reconnection] ++ pingReopened))
      (Sample.run (waitingPing ++ [reconnection] ++ pingReopened ++
        [.event (.streamData ⟨2⟩ ⟨4⟩ pingAccepted)]))
      ⟨⟨2⟩, ⟨4⟩⟩ pingAccepted Sample.alice (Vector.replicate Ping.pingPayloadLen 7) := by
  have hfirst : @HandshakeIdentity Sample.sha256 [] (.event
      (.connected ⟨1⟩ (Sample.endpoint (some Sample.alice)))) :=
    ⟨Sample.alice, rfl, Sample.alice_ne_syntheticPeerId⟩
  have hsecond : @HandshakeIdentity Sample.sha256 waitingPing reconnection :=
    ⟨Sample.alice, rfl, Sample.alice_ne_syntheticPeerId⟩
  have houtputs : (Sample.run (waitingPing ++ [reconnection] ++ pingReopened)).handshakeOutputs
      ⟨⟨2⟩, ⟨4⟩⟩ pingAccepted =
        [.outboundData (Multistream.encodeMessage pingProtocolId), .negotiated pingProtocolId] := by
    decide +kernel
  have hcompletes : (Sample.run (waitingPing ++ [reconnection] ++ pingReopened)).CompletesPing
      ⟨⟨2⟩, ⟨4⟩⟩ pingAccepted := by
    refine ⟨by decide +kernel, ⟨pingProtocolId, ?_⟩, ?_, ?_⟩
    · rw [houtputs]
      exact List.mem_cons_of_mem _ List.mem_cons_self
    · rw [houtputs]
      decide
    · intro reason
      rw [houtputs]
      simp
  refine (@superseding_keeps_ping Sample.sha256 multihashCodec Sample.noCollision _ _ waitingPing
    reconnection ⟨2⟩ Sample.alice (Vector.replicate Ping.pingPayloadLen 7)
    ⟨⟨by decide, hfirst⟩, ⟨by decide, trivial⟩, ⟨by decide, hsecond⟩, trivial⟩
    ⟨Sample.endpoint (some Sample.alice), 0, rfl, rfl⟩ (by decide +kernel)).2 pingReopened ⟨4⟩
    pingAccepted 0 ?_ ?_ hcompletes
  · exact ⟨⟨by decide, hfirst⟩, ⟨by decide, trivial⟩, ⟨by decide, hsecond⟩, ⟨by decide, trivial⟩,
      trivial⟩
  · exact ⟨⟨by decide +kernel, by rintro payload nowMs ⟨⟩⟩, trivial⟩

end Minip2p.Swarm
