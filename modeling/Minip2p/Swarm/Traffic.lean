import Minip2p.Lib.Tickets
import Minip2p.Swarm.ClosedForms
import Minip2p.Swarm.Tables

/-!
# What a call does to the queues

Whatever the transport does, a call other than a poll only appends to the queues of the core. Two
things happen to what is there: an identity upgrade renames the peer of the events that wait, and
the requests for streams are kept in a ledger, where each is filed when its action is queued and
dropped when the driver answers or its connection is given up. `Traffic` is the account of one
step, with the names it exchanges and the entries it makes in the ledger. Nearly every step of the
source is `Quiet`: it exchanges no names and makes no entry.
-/

namespace Minip2p.Swarm

open Identify (IdentifyInput IdentifyOutput identifyProtocolId)
open Multistream (MultistreamOutput MultistreamSelect)
open Ping (Payload PingInput PingOutput)
open Tickets (issues)

/-- What happens to the requests for streams. -/
abbrev OpenEntry := Tickets.Entry OpenStreamToken ConnectionId

/-- The part of the core that the outside hears of, and its pending requests. -/
structure Outbox where
  events : List SwarmEvent
  actions : List SwarmAction
  nextOpenToken : UInt64
  pendingOpens : BTreeMap OpenStreamToken PendingOpen

/-- The queues and the pending requests of a core. -/
def SwarmCore.outbox (s : SwarmCore) : Outbox :=
  ⟨s.events, s.actions, s.nextOpenToken, s.pendingOpens⟩

/-- The connection of each pending request. -/
def Outbox.ledger (o : Outbox) : Tickets.Ledger OpenStreamToken ConnectionId := fun token =>
  o.pendingOpens[token]?.map (·.connId)

/-- The request that the driver answers with a call. -/
def Call.answers? : Call → Option OpenStreamToken
  | .input (.streamOpened _ _ token _) => some token
  | .input (.openStreamFailed token _ _) => some token
  | _ => none

/-- The connection that is given up with a call: it closed, or its peer has a new one. -/
def SwarmCore.givesUp? (s : SwarmCore) : Call → Option ConnectionId
  | .input (.transport (.closed c) _) => some c
  | .input (.transport (.connected c endpoint) _) =>
    (endpoint.peerId.bind fun p => s.peerToConn[p]?).filter (· ≠ c)
  | _ => none

/-- The names that the identity upgrade of a call exchanges. -/
def SwarmCore.upgrade? (s : SwarmCore) : Call → Option (PeerId × PeerId)
  | .input (.transport (.peerIdentityVerified c endpoint _) _) =>
    match s.connToPeer[c]?, endpoint.peerId with
    | some stale, some new => if stale = new then none else some (stale, new)
    | _, _ => none
  | _ => none

/-- What a call does to the requests that are pending. -/
def SwarmCore.settledBy (s : SwarmCore) (call : Call) : List OpenEntry :=
  (call.answers?.map .settled).toList ++ ((s.givesUp? call).map .revoked).toList

/-- The requests for streams among some actions. -/
def openRequests (actions : List SwarmAction) : List (OpenStreamToken × ConnectionId) :=
  actions.filterMap SwarmAction.openRequest?

/-- An event after some identity upgrades, the oldest first. -/
def SwarmEvent.migrateAll (names : List (PeerId × PeerId)) (e : SwarmEvent) : SwarmEvent :=
  names.foldl (fun e name => e.migrate name.1 name.2) e

/-- The tokens are taken one after the other, and leave the counter at `next'`. -/
def Takes (next : UInt64) : List OpenStreamToken → UInt64 → Prop
  | [], next' => next' = next
  | token :: tokens, next' =>
    token = (SwarmCore.takeOpenToken next).1 ∧ Takes (SwarmCore.takeOpenToken next).2 tokens next'

/-- From `o` to `o'` names were exchanged and entries were made in the ledger; apart from that, the
queues only grew. -/
structure Traffic (names : List (PeerId × PeerId)) (entries : List OpenEntry) (o o' : Outbox) :
    Prop where
  events : o.events.map (SwarmEvent.migrateAll names) <+: o'.events
  actions : ∃ added, o'.actions = o.actions ++ added ∧ openRequests added = issues entries
  counter : Takes o.nextOpenToken ((issues entries).map Prod.fst) o'.nextOpenToken
  ledger : o'.ledger = entries.foldl Tickets.Ledger.post o.ledger

/-- The queues only grew, and no stream was asked for. -/
abbrev Quiet (o o' : Outbox) : Prop := Traffic [] [] o o'

/-- The queues only grew, perhaps with requests for streams. -/
def Asking (o o' : Outbox) : Prop :=
  ∃ asks : List (OpenStreamToken × ConnectionId),
    Traffic [] (asks.map fun ask => .issued ask.1 ask.2) o o'

theorem takes_append {tokens more : List OpenStreamToken} {a b c : UInt64} (h : Takes a tokens b)
    (h' : Takes b more c) : Takes a (tokens ++ more) c := by
  induction tokens generalizing a with
  | nil =>
    have heq : b = a := h
    rw [← heq]
    exact h'
  | cons token tokens ih => exact ⟨h.1, ih h.2⟩

section Steps

variable {names more : List (PeerId × PeerId)} {entries later : List OpenEntry}
  {o o' o'' : Outbox}

theorem Traffic.trans (h : Traffic names entries o o') (h' : Traffic more later o' o'') :
    Traffic (names ++ more) (entries ++ later) o o'' where
  events := by
    have hmap : o.events.map (SwarmEvent.migrateAll (names ++ more)) =
        (o.events.map (SwarmEvent.migrateAll names)).map (SwarmEvent.migrateAll more) := by
      rw [List.map_map]
      congr 1
      funext e
      exact List.foldl_append
    rw [hmap]
    exact (h.events.map _).trans h'.events
  actions := by
    obtain ⟨added, heq, hadded⟩ := h.actions
    obtain ⟨added', heq', hadded'⟩ := h'.actions
    refine ⟨added ++ added', by rw [heq', heq, List.append_assoc], ?_⟩
    unfold openRequests at *
    rw [List.filterMap_append, hadded, hadded', Tickets.issues_append]
  counter := by
    rw [Tickets.issues_append, List.map_append]
    exact takes_append h.counter h'.counter
  ledger := by rw [h'.ledger, h.ledger, List.foldl_append]

theorem Quiet.rfl : Quiet o o where
  events := by
    have hid : o.events.map (SwarmEvent.migrateAll []) = o.events := List.map_id _
    exact hid.symm ▸ List.prefix_rfl
  actions := ⟨[], (List.append_nil _).symm, Eq.refl _⟩
  counter := Eq.refl _
  ledger := Eq.refl _

theorem Quiet.asking (h : Quiet o o') : Asking o o' := ⟨[], h⟩

theorem Asking.trans (h : Asking o o') (h' : Asking o' o'') : Asking o o'' := by
  obtain ⟨asks, hasks⟩ := h
  obtain ⟨asks', hasks'⟩ := h'
  refine ⟨asks ++ asks', ?_⟩
  rw [List.map_append]
  exact hasks.trans hasks'

end Steps

namespace SwarmCore

theorem pushEvent_quiet (s : SwarmCore) (e : SwarmEvent) : Quiet s.outbox (s.pushEvent e).outbox where
  events := Quiet.rfl.events.trans (List.prefix_append _ _)
  actions := ⟨[], (List.append_nil _).symm, rfl⟩
  counter := rfl
  ledger := rfl

theorem emitError_quiet (s : SwarmCore) (kind : SwarmErrorKind) (p : Option PeerId)
    (c : Option ConnectionId) (detail : String) :
    Quiet s.outbox (s.emitError kind p c detail).outbox := pushEvent_quiet s _

theorem pushAction_quiet (s : SwarmCore) {a : SwarmAction} (ha : a.openRequest? = none) :
    Quiet s.outbox (s.pushAction a).outbox where
  events := Quiet.rfl.events
  actions := ⟨[a], rfl, by rw [openRequests, List.filterMap_cons_none ha]; rfl⟩
  counter := rfl
  ledger := rfl

/-- What comes out of the handlers and the negotiators is quiet. -/
theorem quiet_oblivious : Oblivious fun s s' => Quiet s.outbox s'.outbox where
  refl _ := Quiet.rfl
  trans h h' := Traffic.trans h h'
  pushEvent := pushEvent_quiet
  pushAction := pushAction_quiet
  peerInfo _ _ := Quiet.rfl
  readyPeers _ _ := Quiet.rfl
  ping _ _ := Quiet.rfl
  identify _ _ := Quiet.rfl

/-! ## Requests for streams -/

/-- A request takes the next token and is filed under it. -/
theorem queueOpenProtocolStream_asking (s : SwarmCore) (p : PeerId) (protocolId : String)
    (target : ProtocolKind) :
    Asking s.outbox (s.queueOpenProtocolStream p protocolId target).1.outbox := by
  unfold queueOpenProtocolStream
  split
  · exact Quiet.rfl.asking
  · next c _ =>
    refine ⟨[((takeOpenToken s.nextOpenToken).1, c)], Quiet.rfl.events, ⟨_, rfl, rfl⟩, ⟨rfl, rfl⟩, ?_⟩
    funext token
    show ((s.pendingOpens.insert (takeOpenToken s.nextOpenToken).1 ⟨c, protocolId, target⟩)[token]?).map
      (·.connId) = Function.update s.outbox.ledger (takeOpenToken s.nextOpenToken).1 (some c) token
    by_cases htoken : token = (takeOpenToken s.nextOpenToken).1
    · rw [htoken, Function.update_self, Std.ExtTreeMap.getElem?_insert_self]
      rfl
    · rw [Function.update_of_ne htoken, BTreeMap.getElem?_insert_of_ne htoken]
      rfl

/-- The driver has answered. -/
theorem settle_traffic (s : SwarmCore) (token : OpenStreamToken) :
    Traffic [] [.settled token] s.outbox
      { s with pendingOpens := s.pendingOpens.erase token }.outbox := by
  refine ⟨Quiet.rfl.events, ⟨[], (List.append_nil _).symm, rfl⟩, rfl, ?_⟩
  funext token'
  show (s.pendingOpens.erase token)[token']?.map (·.connId) =
    Function.update s.outbox.ledger token none token'
  by_cases htoken : token' = token
  · rw [htoken, Function.update_self, Std.ExtTreeMap.getElem?_erase_self]
    rfl
  · rw [Function.update_of_ne htoken, BTreeMap.getElem?_erase_of_ne htoken]
    rfl

/-- The connection is given up. -/
theorem retainOtherStreams_traffic (s : SwarmCore) (c : ConnectionId) :
    Traffic [] [.revoked c] s.outbox (s.retainOtherStreams c).outbox := by
  refine ⟨Quiet.rfl.events, ⟨[], (List.append_nil _).symm, rfl⟩, rfl, ?_⟩
  funext token
  show ((s.pendingOpens.filter fun _ pending => pending.connId ≠ c)[token]?).map (·.connId) =
    if s.outbox.ledger token = some c then none else s.outbox.ledger token
  rw [Std.ExtTreeMap.getElem?_filter']
  unfold Outbox.ledger outbox
  cases s.pendingOpens[token]? with
  | none => rfl
  | some pending => by_cases hc : pending.connId = c <;> simp [hc]

theorem openOrReport_asking (s : SwarmCore) (p : PeerId) (c : ConnectionId) (protocolId : String)
    (target : ProtocolKind) (kind : SwarmErrorKind) (detail : SwarmError → String) :
    Asking s.outbox (s.openOrReport p c protocolId target kind detail).outbox := by
  have hqueue := queueOpenProtocolStream_asking s p protocolId target
  unfold openOrReport
  split
  · next heq =>
    rw [heq] at hqueue
    exact hqueue
  · next heq =>
    rw [heq] at hqueue
    exact hqueue.trans (emitError_quiet _ _ _ _ _).asking

/-! ## Negotiators -/

theorem handleIncomingStream_quiet (s : SwarmCore) (k : StreamKey) :
    Quiet s.outbox (s.handleIncomingStream k).outbox := by
  simp only [handleIncomingStream, MultistreamSelect.handleInput]
  exact quiet_oblivious.pollStart k
    (MultistreamSelect.listener s.supportedProtocols).start.drainOutputs.1
    { s with
      inboundNegotiators := s.inboundNegotiators.insert k
        (MultistreamSelect.listener s.supportedProtocols).start.drainOutputs.2 }

theorem startOutbound_quiet (s : SwarmCore) (k : StreamKey) (pending : PendingOpen) :
    Quiet s.outbox (s.startOutbound k pending).outbox := by
  simp only [startOutbound, MultistreamSelect.handleInput]
  exact quiet_oblivious.pollStart k
    (MultistreamSelect.dialer pending.protocol).start.drainOutputs.1 s

/-! ## Answers of the driver -/

/-- A token that is not pending is not in the ledger either. -/
theorem unknown_traffic {s : SwarmCore} {token : OpenStreamToken} (e : SwarmEvent)
    (htoken : s.pendingOpens[token]? = none) :
    Traffic [] [.settled token] s.outbox (s.pushEvent e).outbox := by
  have hsettle := settle_traffic s token
  rw [BTreeMap.erase_eq_self htoken] at hsettle
  exact hsettle.trans (pushEvent_quiet s e)

theorem handleStreamOpened_traffic (s : SwarmCore) (k : StreamKey) (token : OpenStreamToken) :
    Traffic [] [.settled token] s.outbox (s.handleStreamOpened k token).outbox := by
  unfold handleStreamOpened
  split
  · next htoken => exact unknown_traffic _ htoken
  · next pending _ =>
    refine (settle_traffic s token).trans (?_ : Quiet _ _)
    split
    · exact emitError_quiet _ _ _ _ _
    · exact startOutbound_quiet _ k pending

theorem handleOpenStreamFailed_traffic (s : SwarmCore) (token : OpenStreamToken)
    (reason : String) :
    Traffic [] [.settled token] s.outbox (s.handleOpenStreamFailed token reason).outbox := by
  unfold handleOpenStreamFailed
  split
  · exact (settle_traffic s token).trans (emitError_quiet _ _ _ _ _)
  · next htoken => exact unknown_traffic _ htoken

/-! ## Protocol handlers -/

/-! ## Calls of the application -/

theorem openUserStream_asking (s : SwarmCore) (p : PeerId) (protocolId : String) :
    Asking s.outbox (s.openUserStream p protocolId).1.outbox := by
  unfold openUserStream
  split
  · exact Quiet.rfl.asking
  · split
    · exact Quiet.rfl.asking
    · split
      · exact Quiet.rfl.asking
      · exact queueOpenProtocolStream_asking s p protocolId _

theorem userStreamAction_quiet (s : SwarmCore) (p : PeerId) (t : StreamId)
    {action : ConnectionId → SwarmAction} (haction : ∀ c, (action c).openRequest? = none) :
    Quiet s.outbox (s.userStreamAction p t action).1.outbox := by
  unfold userStreamAction
  split
  · exact pushAction_quiet s (haction _)
  · exact Quiet.rfl

theorem disconnect_quiet (s : SwarmCore) (p : PeerId) :
    Quiet s.outbox (s.disconnect p).1.outbox := by
  unfold disconnect
  split
  · exact pushAction_quiet s rfl
  · exact Quiet.rfl

/-! ## Feeding the handlers -/

variable [MultihashCodec]

theorem respondIdentify_quiet (s : SwarmCore) (k : StreamKey) (p : PeerId) :
    Quiet s.outbox (s.respondIdentify k p).outbox := by
  simp only [respondIdentify]
  split
  · next identify _ =>
    exact quiet_oblivious.drainIdentifyOutputs
      { s with identify := identify, streamOwner := s.streamOwner.insert k .identifyResponder }
  · next identify e _ =>
    exact (emitError_quiet { s with identify := identify } _ _ _ _).trans (pushAction_quiet _ rfl)

theorem sendDeferredPing_quiet (s : SwarmCore) (k : StreamKey) (p : PeerId) (nowMs : UInt64) :
    Quiet s.outbox (s.sendDeferredPing k p nowMs).outbox := by
  unfold sendDeferredPing
  split
  · exact Quiet.rfl
  · split
    · next ping _ =>
      exact quiet_oblivious.drainPingOutputs
        { s with pendingPings := s.pendingPings.erase p, ping := ping }
    · exact emitError_quiet _ _ _ _ _

theorem startPing_quiet (s : SwarmCore) (k : StreamKey) (p : PeerId) (nowMs : UInt64) :
    Quiet s.outbox (s.startPing k p nowMs).outbox := by
  unfold startPing
  split
  · next ping e _ =>
    exact (emitError_quiet { s with ping := ping } _ _ _ _).trans (pushAction_quiet _ rfl)
  · next ping _ =>
    exact (quiet_oblivious.drainPingOutputs { s with ping := ping }).trans
      (sendDeferredPing_quiet _ k p nowMs)

theorem pingPeer_asking (s : SwarmCore) (p : PeerId) (payload : Payload) (nowMs : UInt64) :
    Asking s.outbox (s.pingPeer p payload nowMs).1.outbox := by
  unfold pingPeer
  split
  · exact Quiet.rfl.asking
  · split
    · split
      · next ping _ => exact (quiet_oblivious.drainPingOutputs { s with ping := ping }).asking
      · exact Quiet.rfl.asking
    · dsimp only
      split
      · exact Quiet.rfl.asking
      · exact queueOpenProtocolStream_asking
          { s with pendingPings := s.pendingPings.insert p payload } p _ _

theorem handleTick_quiet (s : SwarmCore) (nowMs : UInt64) :
    Quiet s.outbox (s.handleTick nowMs).outbox :=
  (quiet_oblivious.feedPing s _).trans (quiet_oblivious.drainIdentifyOutputs _)

/-! ## Connections -/

theorem removeFromHandlers_quiet (s : SwarmCore) (p : PeerId) :
    Quiet s.outbox (s.removeFromHandlers p).outbox :=
  (quiet_oblivious.drainPingOutputs { s with
    ping := (s.ping.handleInput (.removePeer p)).1
    identify := (s.identify.handleInput (.removePeer p)).1 }).trans
    (quiet_oblivious.drainIdentifyOutputs _)

theorem supersedePeer_quiet (s : SwarmCore) (p : PeerId) :
    Quiet s.outbox (s.supersedePeer p).outbox := by
  have hremove := removeFromHandlers_quiet { s with pendingPings := s.pendingPings.erase p } p
  unfold supersedePeer
  exact hremove

theorem supersedeConnection_traffic (s : SwarmCore) (old : ConnectionId) :
    Traffic [] [.revoked old] s.outbox (s.supersedeConnection old).outbox := by
  have hpeer : ∀ {t : SwarmCore}, Quiet s.outbox t.outbox → Traffic [] [.revoked old] s.outbox
      (({ t with
        activeConnections := t.activeConnections.erase old
        connToRemoteAddr := t.connToRemoteAddr.erase old }.retainOtherStreams old).pushAction
          (.closeConnection old)).outbox := by
    intro t ht
    exact (ht.trans (retainOtherStreams_traffic { t with
      activeConnections := t.activeConnections.erase old
      connToRemoteAddr := t.connToRemoteAddr.erase old } old)).trans (pushAction_quiet _ rfl)
  simp only [supersedeConnection]
  split
  · next p _ => exact hpeer (supersedePeer_quiet { s with connToPeer := s.connToPeer.erase old } p)
  · exact hpeer Quiet.rfl

theorem announceConnection_asking (s : SwarmCore) (c : ConnectionId) (p : PeerId) :
    Asking s.outbox (s.announceConnection c p).outbox := by
  have hopen : Asking s.outbox
      (({ s with establishedPeers := s.establishedPeers.insert p }.pushEvent
        (.connectionEstablished p)).openOrReport p c identifyProtocolId .identifyInitiator
          .identify fun e =>
            s!"failed to queue identify stream to {p.toBase58}: {e.display}").outbox :=
    (pushEvent_quiet { s with establishedPeers := s.establishedPeers.insert p } _).asking.trans
      (openOrReport_asking _ _ _ _ _ _ _)
  simp only [announceConnection]
  split
  · exact hopen.trans (openOrReport_asking _ _ _ _ _ _ _)
  · exact hopen

theorem bindIdentity_asking (s : SwarmCore) (c : ConnectionId) (p : PeerId) :
    Asking s.outbox (s.bindIdentity c p).outbox := by
  have hready := (pushEvent_quiet
    { s with
      connToPeer := s.connToPeer.insert c p
      peerToConn := s.peerToConn.insert p c
      establishedPeers := s.establishedPeers.insert p } (.connectionEstablished p)).trans
        (quiet_oblivious.tryEmitPeerReady _ p)
  simp only [bindIdentity]
  exact (Quiet.asking hready).trans (openOrReport_asking _ _ _ _ _ _ _)

/-- The events that the handlers leave on the way are renamed with those that waited. -/
theorem migrateIdentity_traffic (s : SwarmCore) (stale new : PeerId) :
    Traffic [(stale, new)] [] s.outbox (s.migrateIdentity stale new).outbox := by
  have hdrained := (quiet_oblivious.drainPingOutputs { s with
    peerToConn := s.peerToConn.erase stale
    ping := (s.ping.handleInput (.migratePeer stale new)).1
    identify := (s.identify.handleInput (.migratePeer stale new)).1 }).trans
      (quiet_oblivious.drainIdentifyOutputs _)
  unfold migrateIdentity
  dsimp only
  generalize drainIdentifyOutputs _ = drained at hdrained ⊢
  apply hdrained.trans
  exact ⟨List.prefix_rfl, Quiet.rfl.actions, rfl, rfl⟩

theorem closePeer_quiet (s : SwarmCore) (p : PeerId) : Quiet s.outbox (s.closePeer p).outbox := by
  have hremoved := removeFromHandlers_quiet { s with peerToConn := s.peerToConn.erase p } p
  unfold closePeer
  dsimp only
  generalize removeFromHandlers _ p = removed at hremoved ⊢
  apply hremoved.trans
  exact pushEvent_quiet removed _

theorem handleConnectionClosed_traffic (s : SwarmCore) (c : ConnectionId) :
    Traffic [] [.revoked c] s.outbox (s.handleConnectionClosed c).outbox := by
  have hclose : ∀ {t : SwarmCore}, Quiet s.outbox t.outbox →
      Traffic [] [.revoked c] s.outbox (t.retainOtherStreams c).outbox := by
    intro t ht
    exact ht.trans (retainOtherStreams_traffic t c)
  simp only [handleConnectionClosed]
  split
  · next p _ =>
    split
    · exact hclose (closePeer_quiet
        { s with
          activeConnections := s.activeConnections.erase c
          connToRemoteAddr := s.connToRemoteAddr.erase c
          connToPeer := s.connToPeer.erase c } p)
    · exact hclose Quiet.rfl
  · exact hclose Quiet.rfl

/-! ## Streams -/

theorem handleStreamClosed_quiet (s : SwarmCore) (k : StreamKey) :
    Quiet s.outbox (s.handleStreamClosed k).outbox := by
  simp only [handleStreamClosed]
  split
  · next protocol p _ _ =>
    exact quiet_oblivious.notifyStreamClosed
      { s with streamOwner := s.streamOwner.erase k } protocol p _
  · exact Quiet.rfl

variable [Sha256]

omit [MultihashCodec] in
theorem ensurePeerIdForConn_outbox (s : SwarmCore) (c : ConnectionId) :
    (s.ensurePeerIdForConn c).1.outbox = s.outbox := by
  unfold ensurePeerIdForConn
  split
  · rfl
  · rfl

theorem dispatchProtocolData_quiet (s : SwarmCore) (k : StreamKey) (data : Bytes)
    (nowMs : UInt64) : Quiet s.outbox (s.dispatchProtocolData k data nowMs).outbox := by
  have hensure := ensurePeerIdForConn_outbox s k.conn
  simp only [dispatchProtocolData]
  split
  · exact Quiet.rfl
  · next protocol _ =>
    rw [← hensure]
    cases protocol with
    | ping => exact quiet_oblivious.feedPing _ _
    | identifyInitiator => exact quiet_oblivious.feedIdentify _ _
    | identifyResponder => exact Quiet.rfl
    | user protocolId => exact pushEvent_quiet _ _

theorem handleStreamRemoteWriteClosed_quiet (s : SwarmCore) (k : StreamKey) :
    Quiet s.outbox (s.handleStreamRemoteWriteClosed k).outbox := by
  have hensure := ensurePeerIdForConn_outbox s k.conn
  simp only [handleStreamRemoteWriteClosed]
  split
  · exact Quiet.rfl
  · next protocol _ =>
    rw [← hensure]
    cases protocol with
    | ping => exact quiet_oblivious.feedPing _ _
    | identifyInitiator => exact quiet_oblivious.feedIdentify _ _
    | identifyResponder => exact Quiet.rfl
    | user protocolId => exact pushEvent_quiet _ _

theorem onInboundNegotiated_quiet (s : SwarmCore) (k : StreamKey) (protocol : String) :
    Quiet s.outbox (s.onInboundNegotiated k protocol).outbox := by
  have hensure := ensurePeerIdForConn_outbox s k.conn
  simp only [onInboundNegotiated]
  rw [← hensure]
  split
  · exact quiet_oblivious.feedPing
      { (s.ensurePeerIdForConn k.conn).1 with
        streamOwner := (s.ensurePeerIdForConn k.conn).1.streamOwner.insert k .ping } _
  · split
    · exact respondIdentify_quiet _ k _
    · split
      · exact pushEvent_quiet
          { (s.ensurePeerIdForConn k.conn).1 with
            streamOwner :=
              (s.ensurePeerIdForConn k.conn).1.streamOwner.insert k (.user protocol) } _
      · exact Quiet.rfl

theorem onOutboundNegotiated_quiet (s : SwarmCore) (k : StreamKey) (target : ProtocolKind)
    (nowMs : UInt64) : Quiet s.outbox (s.onOutboundNegotiated k target nowMs).outbox := by
  have hensure := ensurePeerIdForConn_outbox s k.conn
  simp only [onOutboundNegotiated]
  rw [← hensure]
  cases target with
  | ping =>
    exact startPing_quiet
      { (s.ensurePeerIdForConn k.conn).1 with
        streamOwner := (s.ensurePeerIdForConn k.conn).1.streamOwner.insert k .ping } k _ nowMs
  | identifyInitiator =>
    exact quiet_oblivious.feedIdentify
      { (s.ensurePeerIdForConn k.conn).1 with
        streamOwner := (s.ensurePeerIdForConn k.conn).1.streamOwner.insert k .identifyInitiator } _
  | identifyResponder => exact Quiet.rfl
  | user protocolId =>
    exact pushEvent_quiet
      { (s.ensurePeerIdForConn k.conn).1 with
        streamOwner :=
          (s.ensurePeerIdForConn k.conn).1.streamOwner.insert k (.user protocolId) } _

theorem dispatchRemaining_quiet (s : SwarmCore) (k : StreamKey) (remaining : Bytes)
    (nowMs : UInt64) : Quiet s.outbox (s.dispatchRemaining k remaining nowMs).outbox := by
  unfold dispatchRemaining
  split
  · exact Quiet.rfl
  · exact dispatchProtocolData_quiet s k remaining nowMs

theorem feedInboundNegotiator_quiet (s : SwarmCore) (k : StreamKey) (data : Bytes)
    (nowMs : UInt64) : Quiet s.outbox (s.feedInboundNegotiator k data nowMs).outbox := by
  simp only [feedInboundNegotiator, MultistreamSelect.handleInput]
  split
  · exact Quiet.rfl
  · next negotiator _ =>
    have hpoll := quiet_oblivious.pollInbound k (negotiator.receive data).drainOutputs.1
      { s with
        inboundNegotiators :=
          s.inboundNegotiators.insert k (negotiator.receive data).drainOutputs.2 } none
    split
    · next heq =>
      rw [heq] at hpoll
      exact hpoll.trans (pushAction_quiet _ rfl)
    · next heq =>
      rw [heq] at hpoll
      exact hpoll
    · next core protocol heq =>
      rw [heq] at hpoll
      exact (hpoll.trans (onInboundNegotiated_quiet
        { core with inboundNegotiators := core.inboundNegotiators.erase k } k protocol)).trans
          (dispatchRemaining_quiet _ k _ nowMs)

theorem feedOutboundNegotiator_quiet (s : SwarmCore) (k : StreamKey) (data : Bytes)
    (nowMs : UInt64) : Quiet s.outbox (s.feedOutboundNegotiator k data nowMs).outbox := by
  simp only [feedOutboundNegotiator, MultistreamSelect.handleInput]
  split
  · exact Quiet.rfl
  · next pending _ =>
    have hpoll := quiet_oblivious.pollOutbound k (pending.negotiator.receive data).drainOutputs.1
      { s with
        outboundNegotiators := s.outboundNegotiators.insert k
          { pending with negotiator := (pending.negotiator.receive data).drainOutputs.2 } } false
    split
    · next heq =>
      rw [heq] at hpoll
      exact hpoll.trans (pushAction_quiet _ rfl)
    · next heq =>
      rw [heq] at hpoll
      exact hpoll
    · next core heq =>
      rw [heq] at hpoll
      exact (hpoll.trans (onOutboundNegotiated_quiet
        { core with outboundNegotiators := core.outboundNegotiators.erase k } k pending.target
          nowMs)).trans (dispatchRemaining_quiet _ k _ nowMs)

theorem handleStreamData_quiet (s : SwarmCore) (k : StreamKey) (data : Bytes) (nowMs : UInt64) :
    Quiet s.outbox (s.handleStreamData k data nowMs).outbox := by
  unfold handleStreamData
  split
  · exact feedInboundNegotiator_quiet s k data nowMs
  · split
    · exact feedOutboundNegotiator_quiet s k data nowMs
    · exact dispatchProtocolData_quiet s k data nowMs

/-! ## Calls -/

omit [Sha256] in
theorem registerConnection_traffic (s : SwarmCore) (c : ConnectionId) (p : PeerId) :
    ∃ asks : List (OpenStreamToken × ConnectionId),
      Traffic [] (((s.peerToConn[p]?.filter (· ≠ c)).map .revoked).toList ++
        asks.map fun ask => .issued ask.1 ask.2) s.outbox (s.registerConnection c p).outbox := by
  have hother : Traffic [] ((s.peerToConn[p]?.filter (· ≠ c)).map .revoked).toList s.outbox
      (s.supersedeOther c p).outbox := by
    unfold supersedeOther
    cases s.peerToConn[p]? with
    | none => exact Quiet.rfl
    | some old =>
      by_cases hne : old ≠ c
      · simp only [hne, ↓reduceIte, ne_eq, not_false_eq_true, decide_true, Option.filter_some]
        exact supersedeConnection_traffic s old
      · simp only [hne, ↓reduceIte, decide_false, Option.filter_some, Bool.false_eq_true]
        exact Quiet.rfl
  simp only [registerConnection]
  split
  · obtain ⟨asks, hasks⟩ := announceConnection_asking
      { s.supersedeOther c p with
        connToPeer := (s.supersedeOther c p).connToPeer.insert c p
        peerToConn := (s.supersedeOther c p).peerToConn.insert p c } c p
    exact ⟨asks, hother.trans hasks⟩
  · exact ⟨[], hother.trans Quiet.rfl⟩

omit [Sha256] in
theorem upgradeConnectionIdentity_traffic (s : SwarmCore) (c : ConnectionId)
    (endpoint : ConnectionEndpoint) (previous : Option PeerId) (nowMs : UInt64) {p : PeerId}
    (hp : endpoint.peerId = some p) :
    ∃ asks : List (OpenStreamToken × ConnectionId),
      Traffic
        (s.upgrade? (.input (.transport (.peerIdentityVerified c endpoint previous) nowMs))).toList
        (asks.map fun ask => .issued ask.1 ask.2) s.outbox
        (s.upgradeConnectionIdentity c p).outbox := by
  simp only [upgrade?, upgradeConnectionIdentity, hp]
  cases hc : s.connToPeer[c]? with
  | none => exact bindIdentity_asking s c p
  | some stale =>
    by_cases heq : stale = p
    · simp only [heq, ↓reduceIte, Option.toList_none]
      exact Quiet.rfl.asking
    · simp only [heq, ↓reduceIte, Option.toList_some]
      obtain ⟨asks, hasks⟩ := bindIdentity_asking (s.migrateIdentity stale p) c p
      exact ⟨asks, (migrateIdentity_traffic s stale p).trans hasks⟩

theorem handleTransportEvent_traffic (s : SwarmCore) (event : TransportEvent) (nowMs : UInt64) :
    ∃ asks : List (OpenStreamToken × ConnectionId),
      Traffic (s.upgrade? (.input (.transport event nowMs))).toList
        (s.settledBy (.input (.transport event nowMs)) ++ asks.map fun ask => .issued ask.1 ask.2)
        s.outbox (s.handleTransportEvent event nowMs).outbox := by
  cases event with
  | connected c endpoint =>
    simp only [handleTransportEvent, settledBy, givesUp?]
    cases endpoint.peerId with
    | none =>
      refine ⟨[], ?_⟩
      rw [ensurePeerIdForConn_outbox]
      exact Quiet.rfl
    | some p =>
      exact registerConnection_traffic
        { s with
          activeConnections := s.activeConnections.insert c true
          connToRemoteAddr := s.connToRemoteAddr.insert c endpoint.transport } c p
  | peerIdentityVerified c endpoint previous =>
    simp only [handleTransportEvent]
    split
    · next p hp =>
      exact upgradeConnectionIdentity_traffic
        { s with connToRemoteAddr := s.connToRemoteAddr.insert c endpoint.transport } c endpoint
          previous nowMs hp
    · next hp =>
      have hnone : s.upgrade?
          (.input (.transport (.peerIdentityVerified c endpoint previous) nowMs)) = none := by
        simp only [upgrade?, hp]
        cases s.connToPeer[c]? <;> rfl
      rw [hnone]
      exact Quiet.rfl.asking
  | closed c => exact ⟨[], handleConnectionClosed_traffic s c⟩
  | incomingStream c t => exact (handleIncomingStream_quiet s ⟨c, t⟩).asking
  | streamData c t data => exact (handleStreamData_quiet s ⟨c, t⟩ data nowMs).asking
  | streamRemoteWriteClosed c t => exact (handleStreamRemoteWriteClosed_quiet s ⟨c, t⟩).asking
  | streamClosed c t => exact (handleStreamClosed_quiet s ⟨c, t⟩).asking
  | error c message => exact (emitError_quiet s _ _ _ _).asking
  | incomingConnection c endpoint => exact Quiet.rfl.asking
  | streamOpened c t => exact Quiet.rfl.asking
  | listening addr => exact Quiet.rfl.asking

end SwarmCore

/-- The account of a call that is not a poll. -/
theorem step_traffic [Sha256] [MultihashCodec] (s : SwarmCore) {call : Call}
    (hcall : call ≠ .pollOutput) :
    ∃ asks : List (OpenStreamToken × ConnectionId),
      Traffic (s.upgrade? call).toList
        (s.settledBy call ++ asks.map fun ask => .issued ask.1 ask.2)
        s.outbox (step s call).outbox := by
  cases call with
  | input input =>
    cases input with
    | transport event nowMs => exact s.handleTransportEvent_traffic event nowMs
    | tick nowMs => exact (s.handleTick_quiet nowMs).asking
    | streamOpened c t token nowMs => exact ⟨[], s.handleStreamOpened_traffic ⟨c, t⟩ token⟩
    | openStreamFailed token reason nowMs =>
      exact ⟨[], s.handleOpenStreamFailed_traffic token reason⟩
    | runtimeError error => exact (s.pushEvent_quiet _).asking
  | pollOutput => exact absurd rfl hcall
  | setLocalAddresses addrs => exact Quiet.rfl.asking
  | addUserProtocol id => exact Quiet.rfl.asking
  | ping p payload nowMs => exact s.pingPeer_asking p payload nowMs
  | openUserStream p protocolId => exact s.openUserStream_asking p protocolId
  | sendUserStream p t data => exact (s.userStreamAction_quiet p t fun c => rfl).asking
  | closeUserStreamWrite p t => exact (s.userStreamAction_quiet p t fun c => rfl).asking
  | resetUserStream p t => exact (s.userStreamAction_quiet p t fun c => rfl).asking
  | disconnect p => exact (s.disconnect_quiet p).asking

end Minip2p.Swarm
