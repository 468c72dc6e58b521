import Minip2p.Swarm.HandlerMoves

/-!
# Every call is a chain of moves

The handlers of the core, one by one from the inside out: what each does is a chain of moves. The
guards of the moves come from `Coherent`, the facts about the tables that hold in every state of
a contract run.
-/

namespace Minip2p.Swarm

open Identify (IdentifyInput IdentifyProtocol identifyProtocolId)
open Multistream (MultistreamSelect)
open Ping (PingInput PingProtocol pingProtocolId)
open SwarmCore

/-- Streams and open requests belong to tracked connections, and a stream is filed once, under a
key the transport reported. -/
structure Filed (calls : List Call) (s : SwarmCore) : Prop where
  connected : ∀ c, c ∈ s.connToPeer → Connected calls c
  ownerTracked : ∀ k, k ∈ s.streamOwner → k.conn ∈ s.connToPeer
  outboundTracked : ∀ k, k ∈ s.outboundNegotiators → k.conn ∈ s.connToPeer
  openTracked : ∀ (t : OpenStreamToken) (pending : PendingOpen),
    s.pendingOpens[t]? = some pending → pending.connId ∈ s.connToPeer
  inboundDisjoint : ∀ k, k ∈ s.inboundNegotiators → k ∉ s.outboundNegotiators ∧ k ∉ s.streamOwner
  outboundDisjoint : ∀ k, k ∈ s.outboundNegotiators → k ∉ s.streamOwner
  announced : ∀ k, s.Files k → Announced calls k

/-- The connection of a peer is tracked as a connection of that peer. -/
def Primary (s : SwarmCore) : Prop :=
  ∀ (p : PeerId) (c : ConnectionId), s.peerToConn[p]? = some c → s.connToPeer[c]? = some p

/-- What holds of the core in every state of a contract run. -/
structure Coherent (calls : List Call) (s : SwarmCore) : Prop extends Filed calls s where
  idle : s.Idle
  primary : Primary s

section Chains

variable [Sha256] [MultihashCodec] {s₀ s : SwarmCore} {call : Call} {k : StreamKey} {p : PeerId}

/-! ## Streams -/

omit [MultihashCodec] in
theorem ensurePeerIdForConn_of_some {c : ConnectionId} (h : s.connToPeer[c]? = some p) :
    s.ensurePeerIdForConn c = (s, p) := by
  simp only [ensurePeerIdForConn, h]

/-- A call about a stream the core knows. -/
structure About (s₀ : SwarmCore) (call : Call) (k : StreamKey) : Prop where
  key : call.key? = some k
  eventConn : call.eventConn? = some k.conn
  known : s₀.Files k ∨ call.announces? = some k

omit [Sha256] [MultihashCodec] in
theorem At.about (h : At s₀ call k p s) : About s₀ call k := ⟨h.key, h.eventConn, h.known⟩

omit [Sha256] [MultihashCodec] in
theorem About.at (h : About s₀ call k) (hp : s.connToPeer[k.conn]? = some p) :
    At s₀ call k p s :=
  ⟨h.key, h.eventConn, h.known, hp⟩

omit [MultihashCodec] in
theorem Moves.emitError {s' : SwarmCore} (h : Moves s₀ call s s') (kind : SwarmErrorKind)
    (peerId : Option PeerId) (connId : Option ConnectionId) (detail : String) :
    Moves s₀ call s (s'.emitError kind peerId connId detail) :=
  h.tail (.plainEvent _ rfl rfl (.inl rfl))

omit [MultihashCodec] in
theorem Moves.resetStream {s' : SwarmCore} (h : Moves s₀ call s s') (hk : About s₀ call k) :
    Moves s₀ call s (s'.resetStream k) :=
  h.tail (.negotiate _ k rfl hk.key hk.known (.inl hk.eventConn))

theorem moves_dispatchProtocolData (h : About s₀ call k) (hidle : s.Idle)
    (hdata : call.isData) (htracked : k ∈ s.streamOwner → k.conn ∈ s.connToPeer) (data : Bytes)
    (nowMs : UInt64) : Moves s₀ call s (s.dispatchProtocolData k data nowMs) := by
  simp only [dispatchProtocolData]
  split
  · exact .refl
  · next protocol howner =>
    have hmem : k ∈ s.streamOwner := BTreeMap.mem_of_getElem? howner
    obtain ⟨p, hp⟩ := BTreeMap.exists_getElem?_of_mem (htracked hmem)
    have hat : At s₀ call k p s := h.at hp
    -- the connection has a peer, so no placeholder is made
    rw [ensurePeerIdForConn_of_some hp]
    cases protocol with
    | ping => exact moves_feedPing_at hat hidle.ping rfl
    | identifyInitiator => exact moves_feedIdentify_at hat hidle.identify rfl
    | identifyResponder => exact .refl
    | user protocolId => exact .single (hat.userEvent _ rfl rfl fun _ => hdata)

theorem moves_handleStreamRemoteWriteClosed (h : About s₀ call k) (hidle : s.Idle)
    (htracked : k ∈ s.streamOwner → k.conn ∈ s.connToPeer) :
    Moves s₀ call s (s.handleStreamRemoteWriteClosed k) := by
  simp only [handleStreamRemoteWriteClosed]
  split
  · exact .refl
  · next protocol howner =>
    have hmem : k ∈ s.streamOwner := BTreeMap.mem_of_getElem? howner
    obtain ⟨p, hp⟩ := BTreeMap.exists_getElem?_of_mem (htracked hmem)
    have hat : At s₀ call k p s := h.at hp
    rw [ensurePeerIdForConn_of_some hp]
    cases protocol with
    | ping => exact moves_feedPing_at hat hidle.ping rfl
    | identifyInitiator => exact moves_feedIdentify_at hat hidle.identify rfl
    | identifyResponder => exact .refl
    | user protocolId => exact .single (hat.userEvent _ rfl rfl (by rintro ⟨⟩))

theorem moves_notifyStreamClosed (h : At s₀ call k p s) (hidle : s.Idle)
    (protocol : ProtocolKind) : Moves s₀ call s (s.notifyStreamClosed protocol p k.stream) := by
  cases protocol with
  | ping => exact moves_feedPing_at h hidle.ping rfl
  | identifyInitiator => exact moves_feedIdentify_at h hidle.identify rfl
  | identifyResponder => exact moves_feedIdentify_at h hidle.identify rfl
  | user protocolId => exact .single (h.userEvent _ rfl rfl (by rintro ⟨⟩))

theorem moves_handleStreamClosed (hk : call.key? = some k) (hc : call.eventConn? = some k.conn)
    (hidle : s₀.Idle) : Moves s₀ call s₀ (s₀.handleStreamClosed k) := by
  have hdisown : Moves s₀ call s₀ { s₀ with streamOwner := s₀.streamOwner.erase k } :=
    .single (.disown k hk)
  have hdrop : ∀ t : SwarmCore, Moves s₀ call t
      { t with
        inboundNegotiators := t.inboundNegotiators.erase k
        outboundNegotiators := t.outboundNegotiators.erase k } := by
    intro t
    exact (Relation.ReflTransGen.single (.dropInbound k hk)).tail (.dropOutbound k hk)
  -- the two negotiator tables are cleared last, whoever owned the stream
  simp only [handleStreamClosed]
  refine Relation.ReflTransGen.trans ?_ (hdrop _)
  split
  · next protocol p howner hp =>
    have hmem : k ∈ s₀.streamOwner := BTreeMap.mem_of_getElem? howner
    have hat : At s₀ call k p { s₀ with streamOwner := s₀.streamOwner.erase k } :=
      ⟨hk, hc, .inl (.inr (.inr hmem)), hp⟩
    exact hdisown.trans (moves_notifyStreamClosed hat ⟨hidle.ping, hidle.identify⟩ protocol)
  · exact hdisown

/-! ## The end of a negotiation -/

theorem moves_respondIdentify (h : At s₀ call k p s) (hidle : s.Idle)
    (hin : k ∉ s.inboundNegotiators) (hout : k ∉ s.outboundNegotiators) :
    Moves s₀ call s (s.respondIdentify k p) := by
  have hfor : IdentifyProtocol.For p k.stream s.identify (s.identify.handleInput
      (.registerOutboundStream p k.stream s.connToRemoteAddr[k.conn]? s.localAddresses)).1 :=
    IdentifyProtocol.handleInput_for s.identify rfl
  simp only [respondIdentify]
  split
  · next identify hres =>
    rw [hres] at hfor
    have hown : Moves s₀ call s
        { s with streamOwner := s.streamOwner.insert k .identifyResponder } :=
      .single (.own k _ h.key h.conn_tracked h.known hin hout)
    have hat : At s₀ call k p
        { s with streamOwner := s.streamOwner.insert k .identifyResponder } := h.of_connToPeer rfl
    exact hown.trans (moves_drainIdentify_at hat hfor hidle.identify)
  · next identify e hres =>
    have hidle' : identify.Idle := by
      have herr := IdentifyProtocol.idle_of_error hidle.identify (congrArg Prod.snd hres)
      rwa [hres] at herr
    rw [hres] at hfor
    have hidentify : Moves s₀ call s { s with identify := identify } := by
      refine .single (.identify identify hidle' ?_)
      intro q hq
      exact h.old_or_peer (hfor.peers q hq)
    exact (hidentify.emitError _ _ _ _).resetStream h.about

theorem moves_sendDeferredPing (h : At s₀ call k p s) (hidle : s.Idle) (nowMs : UInt64) :
    Moves s₀ call s (s.sendDeferredPing k p nowMs) := by
  simp only [sendDeferredPing]
  split
  · exact .refl
  · next payload hpayload =>
    have htake : Moves s₀ call s { s with pendingPings := s.pendingPings.erase p } :=
      .single (.takePing p)
    have hat : At s₀ call k p { s with pendingPings := s.pendingPings.erase p } :=
      h.of_connToPeer rfl
    split
    · next ping hres =>
      have hfor : PingProtocol.For p s.ping
          (s.ping.handleInput (.sendPing p payload nowMs)).1 :=
        PingProtocol.handleInput_for s.ping rfl
      rw [hres] at hfor
      exact htake.trans (moves_drainPing_at hat hfor hidle.ping)
    · next ping e hres =>
      exact Moves.emitError (htake.trans (moves_rejectedPing_at hat hidle.ping rfl hres)) _ _ _ _

theorem moves_startPing (h : At s₀ call k p s) (hidle : s.Idle) (nowMs : UInt64) :
    Moves s₀ call s (s.startPing k p nowMs) := by
  simp only [startPing]
  split
  · next ping e hres =>
    have hping : Moves s₀ call s { s with ping := ping } :=
      moves_rejectedPing_at h hidle.ping rfl hres
    exact Moves.resetStream ((hping.emitError _ _ _ _).tail (.disown k h.key)) h.about
  · next ping hres =>
    have hfor : PingProtocol.For p s.ping
        (s.ping.handleInput (.registerOutboundStream p k.stream)).1 :=
      PingProtocol.handleInput_for s.ping rfl
    rw [hres] at hfor
    have hdrain : Moves s₀ call s { s with ping := ping }.drainPingOutputs :=
      moves_drainPing_at h hfor hidle.ping
    have hat : At s₀ call k p { s with ping := ping }.drainPingOutputs :=
      h.of_connToPeer (tables_oblivious.drainPingOutputs _).connToPeer
    exact hdrain.trans (moves_sendDeferredPing hat (hdrain.idle hidle) nowMs)

theorem moves_onOutboundNegotiated (h : At s₀ call k p s) (hidle : s.Idle)
    (hin : k ∉ s.inboundNegotiators) (hout : k ∉ s.outboundNegotiators) (target : ProtocolKind)
    (nowMs : UInt64) : Moves s₀ call s (s.onOutboundNegotiated k target nowMs) := by
  have hown : Moves s₀ call s { s with streamOwner := s.streamOwner.insert k target } :=
    .single (.own k target h.key h.conn_tracked h.known hin hout)
  have hat : At s₀ call k p { s with streamOwner := s.streamOwner.insert k target } :=
    h.of_connToPeer rfl
  simp only [onOutboundNegotiated, ensurePeerIdForConn_of_some h.peer]
  refine hown.trans ?_
  cases target with
  | ping => exact moves_startPing hat ⟨hidle.ping, hidle.identify⟩ nowMs
  | identifyInitiator => exact moves_feedIdentify_at hat hidle.identify rfl
  | identifyResponder => exact .refl
  | user protocolId => exact .single (hat.userEvent _ rfl rfl (by rintro ⟨⟩))

/-- What follows the placeholder in `on_inbound_negotiated`. -/
theorem moves_inbound_at (h : At s₀ call k p s) (hidle : s.Idle)
    (hin : k ∉ s.inboundNegotiators) (hout : k ∉ s.outboundNegotiators) (protocol : String) :
    Moves s₀ call s (s.onInboundNegotiated k protocol) := by
  have hown : ∀ owner, Moves s₀ call s { s with streamOwner := s.streamOwner.insert k owner } :=
    fun owner => .single (.own k owner h.key h.conn_tracked h.known hin hout)
  simp only [onInboundNegotiated, ensurePeerIdForConn_of_some h.peer]
  split
  · have hat : At s₀ call k p { s with streamOwner := s.streamOwner.insert k .ping } :=
      h.of_connToPeer rfl
    exact (hown _).trans (moves_feedPing_at hat hidle.ping rfl)
  · split
    · exact moves_respondIdentify h hidle hin hout
    · split
      · have hat : At s₀ call k p
            { s with streamOwner := s.streamOwner.insert k (.user protocol) } := h.of_connToPeer rfl
        exact (hown (.user protocol)).tail (hat.userEvent _ rfl rfl (by rintro ⟨⟩))
      · exact .refl

omit [MultihashCodec] in
/-- A placeholder is made for the negotiation that just finished. -/
theorem moves_ensurePeerIdForConn {c : ConnectionId}
    (hneeds : s.connToPeer[c]? = none → call.NeedsPlaceholder s₀ c)
    (hconn : s.connToPeer = s₀.connToPeer) (hpeer : s.peerToConn = s₀.peerToConn) :
    Moves s₀ call s (s.ensurePeerIdForConn c).1 := by
  simp only [ensurePeerIdForConn]
  split
  · exact .refl
  · next hnew => exact .single (.placeholder c (hneeds hnew) hnew hconn hpeer)

omit [MultihashCodec] in
theorem ensurePeerIdForConn_peer (s : SwarmCore) (c : ConnectionId) :
    (s.ensurePeerIdForConn c).1.connToPeer[c]? = some (s.ensurePeerIdForConn c).2 := by
  simp only [ensurePeerIdForConn]
  split
  · next p hp => exact hp
  · exact Std.ExtTreeMap.getElem?_insert_self

omit [MultihashCodec] in
theorem ensurePeerIdForConn_streams (s : SwarmCore) (c : ConnectionId) :
    (s.ensurePeerIdForConn c).1.inboundNegotiators = s.inboundNegotiators ∧
      (s.ensurePeerIdForConn c).1.outboundNegotiators = s.outboundNegotiators := by
  simp only [ensurePeerIdForConn]
  split
  · exact ⟨rfl, rfl⟩
  · exact ⟨rfl, rfl⟩

/-- `on_inbound_negotiated` first makes sure that the connection has a peer id. -/
theorem onInboundNegotiated_eq (s : SwarmCore) (k : StreamKey) (protocol : String) :
    s.onInboundNegotiated k protocol =
      (s.ensurePeerIdForConn k.conn).1.onInboundNegotiated k protocol := by
  have hpeer := ensurePeerIdForConn_peer s k.conn
  rw [onInboundNegotiated, onInboundNegotiated, ensurePeerIdForConn_of_some hpeer]

theorem onInboundNegotiated_connToPeer (s : SwarmCore) (k : StreamKey) (protocol : String) :
    (s.onInboundNegotiated k protocol).connToPeer =
      (s.ensurePeerIdForConn k.conn).1.connToPeer := by
  simp only [onInboundNegotiated]
  split
  · exact (tables_oblivious.feedPing _ _).connToPeer
  · split
    · simp only [respondIdentify]
      split
      · exact (tables_oblivious.drainIdentifyOutputs _).connToPeer
      · rfl
    · split
      · rfl
      · rfl

theorem moves_onInboundNegotiated (h : About s₀ call k) (hidle : s.Idle)
    (hneeds : s.connToPeer[k.conn]? = none → call.NeedsPlaceholder s₀ k.conn)
    (hconn : s.connToPeer = s₀.connToPeer) (hpeer : s.peerToConn = s₀.peerToConn)
    (hin : k ∉ s.inboundNegotiators) (hout : k ∉ s.outboundNegotiators) (protocol : String) :
    Moves s₀ call s (s.onInboundNegotiated k protocol) := by
  have hensure : Moves s₀ call s (s.ensurePeerIdForConn k.conn).1 :=
    moves_ensurePeerIdForConn hneeds hconn hpeer
  obtain ⟨hinEq, houtEq⟩ := ensurePeerIdForConn_streams s k.conn
  rw [onInboundNegotiated_eq]
  refine hensure.trans (moves_inbound_at (h.at (ensurePeerIdForConn_peer s k.conn))
    (hensure.idle hidle) ?_ ?_ protocol)
  · rw [hinEq]
    exact hin
  · rw [houtEq]
    exact hout

theorem moves_dispatchRemaining (h : About s₀ call k) (hidle : s.Idle) (hdata : call.isData)
    (htracked : k.conn ∈ s.connToPeer) (remaining : Bytes) (nowMs : UInt64) :
    Moves s₀ call s (s.dispatchRemaining k remaining nowMs) := by
  rw [dispatchRemaining]
  split
  · exact .refl
  · exact moves_dispatchProtocolData h hidle hdata (fun _ => htracked) remaining nowMs

/-! ## Feeding a negotiator -/

omit [Sha256] [MultihashCodec] in
/-- An event about a stream that is filed. -/
theorem About.of_files {event : TransportEvent} {nowMs : UInt64}
    (hk : event.key? = some k) (hc : event.conn? = some k.conn) (hfiles : s₀.Files k) :
    About s₀ (.input (.transport event nowMs)) k :=
  ⟨hk, hc, .inl hfiles⟩

theorem moves_feedInboundNegotiator {calls : List Call} (hcoh : Coherent calls s₀)
    (data : Bytes) (nowMs : UInt64) :
    Moves s₀ (.input (.transport (.streamData k.conn k.stream data) nowMs)) s₀
      (s₀.feedInboundNegotiator k data nowMs) := by
  simp only [feedInboundNegotiator]
  split
  · exact .refl
  · next negotiator hn =>
    have hmem : k ∈ s₀.inboundNegotiators := BTreeMap.mem_of_getElem? hn
    obtain ⟨hout, hown⟩ := hcoh.inboundDisjoint k hmem
    have habout : About s₀ (.input (.transport (.streamData k.conn k.stream data) nowMs)) k :=
      .of_files rfl rfl (.inl hmem)
    simp only [MultistreamSelect.handleInput, MultistreamSelect.drainOutputs]
    -- the drained negotiator is stored, then its outputs are handled
    have hstore : Moves s₀ (.input (.transport (.streamData k.conn k.stream data) nowMs)) s₀
        { s₀ with
          inboundNegotiators := s₀.inboundNegotiators.insert k
            { negotiator.receive data with pendingOutputs := [] } } :=
      .single (.inbound k _ habout.key habout.eventConn habout.known hout hown)
    have htables := tables_oblivious.pollInbound k (negotiator.receive data).pendingOutputs
      { s₀ with
        inboundNegotiators := s₀.inboundNegotiators.insert k
          { negotiator.receive data with pendingOutputs := [] } } none
    have hpoll := hstore.trans (moves_pollInbound habout.key habout.known habout.eventConn
      (negotiator.receive data).pendingOutputs none)
    split
    · next s' _ hres =>
      rw [hres] at hpoll
      exact Moves.resetStream (hpoll.tail (.dropInbound k habout.key)) habout
    · next s' hres =>
      rw [hres] at hpoll
      exact hpoll
    · next s' protocol hres =>
      -- only a finished negotiation can ask for a placeholder
      have hcompletes : s₀.CompletesInbound k data := by
        refine ⟨negotiator, protocol, hn, ?_⟩
        exact (negotiated_of_pollInbound hres).resolve_left (by simp)
      rw [hres] at hpoll htables
      have hdrop := hpoll.tail (.dropInbound k habout.key)
      have hnegotiated := hdrop.trans (moves_onInboundNegotiated habout (Moves.idle hdrop hcoh.idle)
        (fun _ => .inr ⟨k.stream, data, nowMs, rfl, hcompletes⟩) htables.connToPeer
        htables.peerToConn BTreeMap.not_mem_erase_self
        (by rw [htables.outboundNegotiators]; exact hout) protocol)
      refine hnegotiated.trans (moves_dispatchRemaining habout
        (Moves.idle hnegotiated hcoh.idle) rfl ?_ _ nowMs)
      rw [onInboundNegotiated_connToPeer]
      exact BTreeMap.mem_of_getElem? (ensurePeerIdForConn_peer _ k.conn)

omit [Sha256] in
theorem sendDeferredPing_connToPeer (s : SwarmCore) (k : StreamKey) (p : PeerId)
    (nowMs : UInt64) : (s.sendDeferredPing k p nowMs).connToPeer = s.connToPeer := by
  simp only [sendDeferredPing]
  split
  · rfl
  · split
    · exact (tables_oblivious.drainPingOutputs _).connToPeer
    · rfl

theorem onOutboundNegotiated_connToPeer (h : s.connToPeer[k.conn]? = some p)
    (target : ProtocolKind) (nowMs : UInt64) :
    (s.onOutboundNegotiated k target nowMs).connToPeer = s.connToPeer := by
  simp only [onOutboundNegotiated, ensurePeerIdForConn_of_some h]
  cases target with
  | ping =>
    simp only [startPing]
    split
    · rfl
    · exact (sendDeferredPing_connToPeer _ _ _ _).trans
        (tables_oblivious.drainPingOutputs _).connToPeer
  | identifyInitiator => exact (tables_oblivious.feedIdentify _ _).connToPeer
  | identifyResponder => rfl
  | user protocolId => rfl

theorem moves_feedOutboundNegotiator {calls : List Call} (hcoh : Coherent calls s₀)
    (data : Bytes) (nowMs : UInt64) :
    Moves s₀ (.input (.transport (.streamData k.conn k.stream data) nowMs)) s₀
      (s₀.feedOutboundNegotiator k data nowMs) := by
  simp only [feedOutboundNegotiator]
  split
  · exact .refl
  · next pending hpending =>
    have hmem : k ∈ s₀.outboundNegotiators := BTreeMap.mem_of_getElem? hpending
    have htracked : k.conn ∈ s₀.connToPeer := hcoh.outboundTracked k hmem
    have hown : k ∉ s₀.streamOwner := hcoh.outboundDisjoint k hmem
    have hin : k ∉ s₀.inboundNegotiators := fun hin => (hcoh.inboundDisjoint k hin).1 hmem
    have habout : About s₀ (.input (.transport (.streamData k.conn k.stream data) nowMs)) k :=
      .of_files rfl rfl (.inr (.inl hmem))
    simp only [MultistreamSelect.handleInput, MultistreamSelect.drainOutputs]
    have hstore : Moves s₀ (.input (.transport (.streamData k.conn k.stream data) nowMs)) s₀
        { s₀ with
          outboundNegotiators := s₀.outboundNegotiators.insert k
            { pending with
              negotiator := { pending.negotiator.receive data with pendingOutputs := [] } } } :=
      .single (.outbound k _ habout.key htracked habout.known hin hown)
    have htables := tables_oblivious.pollOutbound k (pending.negotiator.receive data).pendingOutputs
      { s₀ with
        outboundNegotiators := s₀.outboundNegotiators.insert k
          { pending with
            negotiator := { pending.negotiator.receive data with pendingOutputs := [] } } } false
    have hpoll := hstore.trans (moves_pollOutbound habout.key habout.known habout.eventConn
      (pending.negotiator.receive data).pendingOutputs _ false)
    split
    · next s' _ hres =>
      rw [hres] at hpoll
      exact Moves.resetStream (hpoll.tail (.dropOutbound k habout.key)) habout
    · next s' hres =>
      rw [hres] at hpoll
      exact hpoll
    · next s' hres =>
      rw [hres] at hpoll htables
      obtain ⟨p, hp⟩ := BTreeMap.exists_getElem?_of_mem htracked
      have hp' : s'.connToPeer[k.conn]? = some p := by
        rw [htables.connToPeer]
        exact hp
      have hdrop := hpoll.tail (.dropOutbound k habout.key)
      have hat : At s₀ (.input (.transport (.streamData k.conn k.stream data) nowMs)) k p
          { s' with outboundNegotiators := s'.outboundNegotiators.erase k } := habout.at hp'
      -- an outbound stream belongs to a tracked connection: its peer is known
      have hnegotiated := hdrop.trans (moves_onOutboundNegotiated hat (Moves.idle hdrop hcoh.idle)
        (by rw [htables.inboundNegotiators]; exact hin) BTreeMap.not_mem_erase_self pending.target
        nowMs)
      refine hnegotiated.trans (moves_dispatchRemaining habout
        (Moves.idle hnegotiated hcoh.idle) rfl ?_ _ nowMs)
      rw [onOutboundNegotiated_connToPeer hat.peer]
      exact hat.conn_tracked

theorem moves_handleStreamData {calls : List Call} (hcoh : Coherent calls s₀) (data : Bytes)
    (nowMs : UInt64) :
    Moves s₀ (.input (.transport (.streamData k.conn k.stream data) nowMs)) s₀
      (s₀.handleStreamData k data nowMs) := by
  rw [handleStreamData]
  split
  · exact moves_feedInboundNegotiator hcoh data nowMs
  · split
    · exact moves_feedOutboundNegotiator hcoh data nowMs
    · by_cases hmem : k ∈ s₀.streamOwner
      · have habout : About s₀ (.input (.transport (.streamData k.conn k.stream data) nowMs)) k :=
          .of_files rfl rfl (.inr (.inr hmem))
        exact moves_dispatchProtocolData habout hcoh.idle rfl (hcoh.ownerTracked k) data nowMs
      · have hnone : s₀.streamOwner[k]? = none := Std.ExtTreeMap.getElem?_eq_none hmem
        simp only [dispatchProtocolData, hnone]
        exact .refl

/-! ## New streams -/

omit [MultihashCodec] in
theorem moves_handleIncomingStream {calls : List Call} (hcoh : Coherent calls s₀)
    {nowMs : UInt64} (hnew : ¬ Announced calls k) :
    Moves s₀ (.input (.transport (.incomingStream k.conn k.stream) nowMs)) s₀
      (s₀.handleIncomingStream k) := by
  have hout : k ∉ s₀.outboundNegotiators := fun h => hnew (hcoh.announced k (.inr (.inl h)))
  have hown : k ∉ s₀.streamOwner := fun h => hnew (hcoh.announced k (.inr (.inr h)))
  simp only [handleIncomingStream, MultistreamSelect.handleInput]
  have hstore : Moves s₀ (.input (.transport (.incomingStream k.conn k.stream) nowMs)) s₀
      { s₀ with
        inboundNegotiators := s₀.inboundNegotiators.insert k
          (MultistreamSelect.listener s₀.supportedProtocols).start.drainOutputs.2 } :=
    .single (.inbound k _ rfl rfl (.inr rfl) hout hown)
  exact hstore.trans (moves_pollStart rfl (.inr rfl) (.inl rfl) _)

omit [MultihashCodec] in
theorem moves_handleStreamOpened {calls : List Call} (hcoh : Coherent calls s₀)
    {token : OpenStreamToken} {nowMs : UInt64} (hnew : ¬ Announced calls k) :
    Moves s₀ (.input (.streamOpened k.conn k.stream token nowMs)) s₀
      (s₀.handleStreamOpened k token) := by
  simp only [handleStreamOpened]
  split
  · exact Moves.emitError .refl _ _ _ _
  · next pending hpending =>
    have hanswer : Moves s₀ (.input (.streamOpened k.conn k.stream token nowMs)) s₀
        { s₀ with pendingOpens := s₀.pendingOpens.erase token } := .single (.answer token)
    split
    · exact hanswer.emitError _ _ _ _
    · next hconn =>
      have htracked : k.conn ∈ s₀.connToPeer := by
        have hopen := hcoh.openTracked token pending hpending
        rwa [Classical.not_not.mp hconn] at hopen
      have hin : k ∉ s₀.inboundNegotiators := fun h => hnew (hcoh.announced k (.inl h))
      have hown : k ∉ s₀.streamOwner := fun h => hnew (hcoh.announced k (.inr (.inr h)))
      simp only [startOutbound, MultistreamSelect.handleInput]
      have htables := tables_oblivious.pollStart k
        (MultistreamSelect.dialer pending.protocol).start.drainOutputs.1
        { s₀ with pendingOpens := s₀.pendingOpens.erase token }
      have hpoll : Moves s₀ (.input (.streamOpened k.conn k.stream token nowMs)) s₀
          (pollStart k (MultistreamSelect.dialer pending.protocol).start.drainOutputs.1
            { s₀ with pendingOpens := s₀.pendingOpens.erase token }) := by
        refine hanswer.trans (moves_pollStart rfl (.inr rfl) (.inr ?_) _)
        exact htracked
      refine hpoll.tail (.outbound k _ rfl ?_ (.inr rfl) ?_ ?_)
      · rw [htables.connToPeer]
        exact htracked
      · rw [htables.inboundNegotiators]
        exact hin
      · rw [htables.streamOwner]
        exact hown

omit [MultihashCodec] in
theorem moves_handleOpenStreamFailed (token : OpenStreamToken) (reason : String) :
    Moves s₀ call s (s.handleOpenStreamFailed token reason) := by
  simp only [handleOpenStreamFailed]
  split
  · exact Moves.emitError (.single (.answer token)) _ _ _ _
  · exact Moves.emitError .refl _ _ _ _

/-! ## Connections -/

omit [MultihashCodec] in
theorem moves_queueOpenProtocolStream (p : PeerId) (protocolId : String) (target : ProtocolKind) :
    Moves s₀ call s (s.queueOpenProtocolStream p protocolId target).1 := by
  cases hp : s.peerToConn[p]? with
  | none =>
    simp only [queueOpenProtocolStream, requireConn, hp]
    exact .refl
  | some c => exact .single (.openStream p c protocolId target hp)

omit [MultihashCodec] in
theorem moves_openOrReport (p : PeerId) (c : ConnectionId) (protocolId : String)
    (target : ProtocolKind) (kind : SwarmErrorKind) (detail : SwarmError → String) :
    Moves s₀ call s (s.openOrReport p c protocolId target kind detail) := by
  have hopen : Moves s₀ call s (s.queueOpenProtocolStream p protocolId target).1 :=
    moves_queueOpenProtocolStream p protocolId target
  simp only [openOrReport]
  split
  · next heq =>
    rw [heq] at hopen
    exact hopen
  · next heq =>
    rw [heq] at hopen
    exact hopen.emitError _ _ _ _

/-- A connection that was not tracked is attached to its peer; then streams are asked for. -/
theorem moves_registerConnection {c : ConnectionId} (hcall : call.ConnectsAs c p)
    (hs : s₀.Agrees s) (hidle : s.Idle) (hnew : s.connToPeer[c]? = none)
    (hprimary : ∀ old, s.peerToConn[p]? = some old → s.connToPeer[old]? = some p) :
    Moves s₀ call s (s.registerConnection c p) := by
  -- so the source takes the branch of a new connection
  have hfresh : s.connToPeer.contains c = false := by
    rw [Std.ExtTreeMap.contains_eq_isSome_getElem?, hnew]
    rfl
  have hattach : Moves s₀ call s ((s.yieldTo c p).attach c p) :=
    .single (.register c p hcall hnew hs)
  simp only [registerConnection, hfresh, Bool.not_false, ↓reduceIte,
    supersedeOther_eq hidle hprimary, announceConnection]
  refine hattach.trans ?_
  split
  · exact (moves_openOrReport _ _ _ _ _ _).trans (moves_openOrReport _ _ _ _ _ _)
  · exact moves_openOrReport _ _ _ _ _ _

theorem moves_upgradeConnectionIdentity {c : ConnectionId} (hcall : call.VerifiesAs c p)
    (hs : s₀.Agrees s) (hidle : s.Idle) :
    Moves s₀ call s (s.upgradeConnectionIdentity c p) := by
  have hevent : call.eventConn? = some c := by
    obtain ⟨endpoint, previous, nowMs, rfl, -⟩ := hcall
    rfl
  -- what follows once the connection is filed under its peer
  have hbind : ∀ t : SwarmCore, Moves s₀ call s (t.attach c p) →
      Moves s₀ call s (t.bindIdentity c p) := by
    intro t ht
    have htracked : ∀ d, call.eventConn? = some d → d ∈ (t.attach c p).connToPeer := by
      intro d hd
      obtain rfl : c = d := Option.some.inj (hevent.symm.trans hd)
      exact Std.ExtTreeMap.mem_insert_self
    exact (ht.trans (moves_tryEmitPeerReady p htracked)).trans (moves_openOrReport _ _ _ _ _ _)
  rw [upgradeConnectionIdentity]
  cases hc : s.connToPeer[c]? with
  | none =>
    have hrebind : Moves s₀ call s ((s.migrateFrom c p).attach c p) :=
      .single (.rebind c p hcall (by rw [hc]; rintro ⟨⟩) hs)
    rw [migrateFrom, hc] at hrebind
    exact hbind s hrebind
  | some current =>
    by_cases heq : current = p
    · simp only [if_pos heq]
      exact .refl
    · have hrebind : Moves s₀ call s ((s.migrateFrom c p).attach c p) :=
        .single (.rebind c p hcall (by rw [hc]; exact fun h => heq (Option.some.inj h)) hs)
      rw [migrateFrom, hc] at hrebind
      simp only [if_neg heq, migrateIdentity_eq hidle]
      exact hbind _ hrebind

/-! ## Ticks and calls of the application -/

theorem moves_handleTick (hidle : s.Idle) (nowMs : UInt64) (happ : call.conn? = none) :
    Moves s₀ call s (s.handleTick nowMs) := by
  have hevent : call.eventConn? = none := by
    cases h : call.eventConn? with
    | none => rfl
    | some c => rw [Call.conn?_of_eventConn? h] at happ; cases happ
  have hping : Moves s₀ call s (s.feedPing (.tick nowMs)) := by
    refine moves_drainPing ?_ ?_ ?_
    · intro a _ c hc
      rw [happ] at hc
      cases hc
    · intro c hc
      rw [hevent] at hc
      cases hc
    · intro q hq
      exact .inl (PingProtocol.onTick_peers s.ping nowMs q hq)
  -- ping does not talk to identify, which had nothing to say
  have hquiet : (s.feedPing (.tick nowMs)).drainIdentifyOutputs = s.feedPing (.tick nowMs) :=
    drainIdentifyOutputs_of_idle (hping.idle hidle).identify
  rw [handleTick, hquiet]
  exact hping

theorem moves_pingPeer (hidle : s.Idle) (p : PeerId) (payload : Ping.Payload) (nowMs : UInt64)
    (happ : call.conn? = none) : Moves s₀ call s (s.pingPeer p payload nowMs).1 := by
  have hevent : ∀ c, call.eventConn? ≠ some c := by
    intro c hc
    rw [Call.conn?_of_eventConn? hc] at happ
    cases happ
  have hpeers := PingProtocol.sendPing_peers s.ping p payload nowMs
  rw [pingPeer]
  split
  · exact .refl
  · next hconn =>
    split
    · split
      · next ping hres =>
        rw [hres] at hpeers
        refine moves_drainPing ?_ (fun c hc => absurd hc (hevent c))
          (fun q hq => .inl (hpeers q hq))
        intro a _ c hc
        rw [happ] at hc
        cases hc
      · next ping e hres =>
        have hidle' : ping.Idle := by
          have herr := PingProtocol.idle_of_error hidle.ping (congrArg Prod.snd hres)
          rwa [hres] at herr
        rw [hres] at hpeers
        exact .single (.ping ping hidle' fun q hq => .inl (hpeers q hq))
    · have hmem : p ∈ s.peerToConn := Classical.not_not.mp hconn
      have hdefer : Moves s₀ call s { s with pendingPings := s.pendingPings.insert p payload } :=
        .single (.deferPing p payload hmem)
      simp only
      split
      · exact hdefer
      · exact hdefer.trans (moves_queueOpenProtocolStream _ _ _)

omit [MultihashCodec] in
theorem moves_openUserStream (p : PeerId) (protocolId : String) :
    Moves s₀ call s (s.openUserStream p protocolId).1 := by
  rw [openUserStream]
  split
  · exact .refl
  · split
    · exact .refl
    · split
      · exact .refl
      · exact moves_queueOpenProtocolStream _ _ _

omit [MultihashCodec] in
theorem moves_userStreamAction (p : PeerId) (streamId : StreamId)
    (action : ConnectionId → SwarmAction)
    (hkey : ∀ c, (action c).key? = some ⟨c, streamId⟩) (happ : call.conn? = none) :
    Moves s₀ call s (s.userStreamAction p streamId action).1 := by
  simp only [userStreamAction]
  split
  · next c hfound =>
    simp only [requireUserStreamConn] at hfound
    split at hfound
    · next c' hmap =>
      obtain rfl : c' = c := Except.ok.inj hfound
      -- the stream that was found is owned, on a connection of the peer
      obtain ⟨k, owner, hk, hif⟩ := BTreeMap.exists_of_findMap_eq_some hmap
      split at hif
      · next hcond =>
        obtain ⟨rfl, -, hp⟩ := hcond
        obtain rfl : k.conn = c' := Option.some.inj hif
        exact .single (.userAction _ k p (hkey k.conn) (BTreeMap.mem_of_getElem? hk) hp happ)
      · cases hif
    · cases hfound
  · exact .refl

omit [MultihashCodec] in
theorem moves_disconnect (p : PeerId) (happ : call.conn? = none) :
    Moves s₀ call s (s.disconnect p).1 := by
  simp only [disconnect, requireConn]
  cases hp : s.peerToConn[p]? with
  | none => exact .refl
  | some c => exact .single (.disconnect p c hp happ)

/-! ## The calls -/

theorem moves_handleTransportEvent {calls : List Call} (hcoh : Coherent calls s₀)
    (event : TransportEvent) (nowMs : UInt64) (hcontract : EventContract calls event) :
    Moves s₀ (.input (.transport event nowMs)) s₀ (s₀.handleTransportEvent event nowMs) := by
  cases event with
  | connected c endpoint =>
    -- a connection is reported once, so this one is not tracked
    have hnew : s₀.connToPeer[c]? = none := by
      have hnot : c ∉ s₀.connToPeer := fun h => hcontract.1 (hcoh.connected c h)
      exact Std.ExtTreeMap.getElem?_eq_none hnot
    have hstart : Moves s₀ (.input (.transport (.connected c endpoint) nowMs)) s₀
        { s₀ with
          activeConnections := s₀.activeConnections.insert c true
          connToRemoteAddr := s₀.connToRemoteAddr.insert c endpoint.transport } :=
      (Relation.ReflTransGen.single (.activate c true rfl)).tail (.locate c _ rfl)
    simp only [handleTransportEvent]
    refine hstart.trans ?_
    split
    · next p hp =>
      exact moves_registerConnection ⟨endpoint, nowMs, rfl, hp⟩ ⟨rfl, rfl, rfl, rfl⟩
        ⟨hcoh.idle.ping, hcoh.idle.identify⟩ hnew (hcoh.primary p)
    · next hp =>
      exact moves_ensurePeerIdForConn (fun _ => .inl ⟨endpoint, nowMs, rfl, hp⟩) rfl rfl
  | peerIdentityVerified c endpoint previous =>
    have hstart : Moves s₀
        (.input (.transport (.peerIdentityVerified c endpoint previous) nowMs)) s₀
        { s₀ with connToRemoteAddr := s₀.connToRemoteAddr.insert c endpoint.transport } :=
      .single (.locate c _ rfl)
    simp only [handleTransportEvent]
    refine hstart.trans ?_
    split
    · next p hp =>
      exact moves_upgradeConnectionIdentity ⟨endpoint, previous, nowMs, rfl, hp⟩
        ⟨rfl, rfl, rfl, rfl⟩ ⟨hcoh.idle.ping, hcoh.idle.identify⟩
    · exact .refl
  | incomingConnection c endpoint =>
    exact (Relation.ReflTransGen.single (.activate c false rfl)).tail (.locate c _ rfl)
  | incomingStream c t => exact moves_handleIncomingStream hcoh hcontract.2.2
  | streamOpened c t => exact .refl
  | streamData c t data => exact moves_handleStreamData (k := ⟨c, t⟩) hcoh data nowMs
  | streamRemoteWriteClosed c t =>
    by_cases hmem : (⟨c, t⟩ : StreamKey) ∈ s₀.streamOwner
    · exact moves_handleStreamRemoteWriteClosed (.of_files rfl rfl (.inr (.inr hmem))) hcoh.idle
        (hcoh.ownerTracked _)
    · have hnone : s₀.streamOwner[(⟨c, t⟩ : StreamKey)]? = none :=
        Std.ExtTreeMap.getElem?_eq_none hmem
      simp only [handleTransportEvent, handleStreamRemoteWriteClosed, hnone]
      exact .refl
  | streamClosed c t => exact moves_handleStreamClosed rfl rfl hcoh.idle
  | closed c =>
    simp only [handleTransportEvent, handleConnectionClosed_eq hcoh.idle]
    exact .single (.close c rfl ⟨rfl, rfl, rfl, rfl⟩)
  | listening addr => exact .refl
  | error c message => exact Moves.emitError .refl _ _ _ _

/-- Every call but a poll is a chain of moves. -/
theorem step_moves {calls : List Call} (hcoh : Coherent calls s₀)
    (hcontract : TransportContract calls call) (hpoll : call ≠ .pollOutput) :
    Moves s₀ call s₀ (step s₀ call) := by
  cases call with
  | input input =>
    cases input with
    | transport event nowMs => exact moves_handleTransportEvent hcoh event nowMs hcontract
    | tick nowMs => exact moves_handleTick hcoh.idle nowMs rfl
    | streamOpened c t token nowMs => exact moves_handleStreamOpened hcoh hcontract
    | openStreamFailed token reason nowMs => exact moves_handleOpenStreamFailed token reason
    | runtimeError error => exact .single (.plainEvent _ rfl rfl (.inl rfl))
  | pollOutput => exact absurd rfl hpoll
  | setLocalAddresses addrs => exact .single (.configure addrs _ _)
  | addUserProtocol id =>
    have hconfigure : Moves s₀ (.addUserProtocol id) s₀
        { s₀ with
          userProtocols :=
            if s₀.userProtocols.contains id then s₀.userProtocols else s₀.userProtocols ++ [id]
          supportedProtocols :=
            if s₀.supportedProtocols.contains id then s₀.supportedProtocols
            else s₀.supportedProtocols ++ [id] } := .single (.configure _ _ _)
    refine hconfigure.tail (.identify (s₀.identify.addProtocol id) ?_ ?_)
    · rw [IdentifyProtocol.addProtocol]
      split
      · exact hcoh.idle.identify
      · exact hcoh.idle.identify
    · intro q hq
      rw [IdentifyProtocol.addProtocol] at hq
      split at hq
      · exact .inl hq
      · exact .inl hq
  | ping p payload nowMs => exact moves_pingPeer hcoh.idle p payload nowMs rfl
  | openUserStream p protocolId => exact moves_openUserStream p protocolId
  | sendUserStream p t data => exact moves_userStreamAction p t _ (fun _ => rfl) rfl
  | closeUserStreamWrite p t => exact moves_userStreamAction p t _ (fun _ => rfl) rfl
  | resetUserStream p t => exact moves_userStreamAction p t _ (fun _ => rfl) rfl
  | disconnect p => exact moves_disconnect p rfl

end Chains

end Minip2p.Swarm
