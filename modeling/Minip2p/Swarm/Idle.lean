import Minip2p.Swarm.Tables

/-!
# The handlers are drained after every call

Whatever the calls, ping and identify have nothing left to poll between two of them: every path
that feeds a handler drains it, and a rejected input queues nothing.
-/

namespace Minip2p.Swarm

open Identify (IdentifyInput IdentifyOutput IdentifyProtocol identifyProtocolId)
open Multistream (MultistreamOutput MultistreamSelect)
open Ping (Payload PingInput PingOutput PingProtocol pingProtocolId)

/-- Neither protocol handler was touched. -/
structure SameHandlers (s s' : SwarmCore) : Prop where
  ping : s'.ping = s.ping
  identify : s'.identify = s.identify

namespace SameHandlers

variable {s s' s'' : SwarmCore}

theorem rfl : SameHandlers s s := ⟨Eq.refl _, Eq.refl _⟩

theorem trans (h : SameHandlers s s') (h' : SameHandlers s' s'') : SameHandlers s s'' :=
  ⟨h'.ping.trans h.ping, h'.identify.trans h.identify⟩

theorem idle (h : SameHandlers s s') (hs : s.Idle) : s'.Idle := by
  refine ⟨?_, ?_⟩
  · rw [h.ping]
    exact hs.ping
  · rw [h.identify]
    exact hs.identify

end SameHandlers

theorem handlers_permissive : Permissive SameHandlers where
  refl _ := .rfl
  trans := .trans
  pushEvent _ _ := ⟨rfl, rfl⟩
  pushAction _ _ _ := ⟨rfl, rfl⟩
  peerInfo _ _ := ⟨rfl, rfl⟩
  readyPeers _ _ := ⟨rfl, rfl⟩

namespace SwarmCore

variable [Sha256] [MultihashCodec] {s : SwarmCore}

/-! ## Outputs -/

omit [Sha256] in
/-- Draining ping empties its queues and leaves identify alone. -/
theorem drainPingOutputs_idle (h : s.identify.Idle) : s.drainPingOutputs.Idle := by
  have hsame : SameHandlers { s with ping := s.ping.drainOutputs.2 } s.drainPingOutputs :=
    handlers_permissive.foldl handlers_permissive.handlePingOutput _ _
  exact hsame.idle ⟨⟨rfl, rfl⟩, h⟩

omit [Sha256] [MultihashCodec] in
theorem drainIdentifyOutputs_idle (h : s.ping.Idle) : s.drainIdentifyOutputs.Idle := by
  have hsame : SameHandlers { s with identify := s.identify.drainOutputs.2 }
      s.drainIdentifyOutputs :=
    handlers_permissive.foldl handlers_permissive.handleIdentifyOutput _ _
  exact hsame.idle ⟨h, ⟨rfl, rfl⟩⟩

omit [Sha256] in
theorem feedPing_idle {input : PingInput} (h : s.identify.Idle) : (s.feedPing input).Idle :=
  drainPingOutputs_idle h

omit [Sha256] in
theorem feedIdentify_idle {input : IdentifyInput} (h : s.ping.Idle) :
    (s.feedIdentify input).Idle :=
  drainIdentifyOutputs_idle h

/-! ## Connections -/

omit [MultihashCodec] in
theorem ensurePeerIdForConn_handlers (s : SwarmCore) (c : ConnectionId) :
    SameHandlers s (s.ensurePeerIdForConn c).1 := by
  simp only [ensurePeerIdForConn]
  split
  · exact SameHandlers.rfl
  · exact ⟨rfl, rfl⟩

omit [Sha256] [MultihashCodec] in
theorem queueOpenProtocolStream_handlers (s : SwarmCore) (p : PeerId) (protocolId : String)
    (target : ProtocolKind) : SameHandlers s (s.queueOpenProtocolStream p protocolId target).1 := by
  simp only [queueOpenProtocolStream]
  split
  · exact SameHandlers.rfl
  · exact ⟨rfl, rfl⟩

omit [Sha256] [MultihashCodec] in
theorem openOrReport_handlers (s : SwarmCore) (p : PeerId) (c : ConnectionId) (protocolId : String)
    (target : ProtocolKind) (kind : SwarmErrorKind) (detail : SwarmError → String) :
    SameHandlers s (s.openOrReport p c protocolId target kind detail) := by
  have hqueue := queueOpenProtocolStream_handlers s p protocolId target
  simp only [openOrReport]
  split
  · next heq => simpa only [heq] using hqueue
  · next heq =>
    rw [heq] at hqueue
    exact ⟨hqueue.ping, hqueue.identify⟩

omit [Sha256] in
theorem announceConnection_handlers (s : SwarmCore) (c : ConnectionId) (p : PeerId) :
    SameHandlers s (s.announceConnection c p) := by
  have hopen : SameHandlers s
      (({ s with establishedPeers := s.establishedPeers.insert p }.pushEvent
        (.connectionEstablished p)).openOrReport p c identifyProtocolId .identifyInitiator
          .identify fun e =>
            s!"failed to queue identify stream to {p.toBase58}: {e.display}") := by
    refine SameHandlers.trans ?_ (openOrReport_handlers _ _ _ _ _ _ _)
    exact ⟨rfl, rfl⟩
  simp only [announceConnection]
  split
  · exact hopen.trans (openOrReport_handlers _ _ _ _ _ _ _)
  · exact hopen

omit [Sha256] in
theorem Idle.supersedeConnection (h : s.Idle) (old : ConnectionId) :
    (s.supersedeConnection old).Idle := by
  simp only [SwarmCore.supersedeConnection]
  split
  · next p _ =>
    have hidle : Idle { s with connToPeer := s.connToPeer.erase old } := ⟨h.ping, h.identify⟩
    rw [supersedePeer_eq hidle]
    exact ⟨h.ping, h.identify⟩
  · exact ⟨h.ping, h.identify⟩

omit [Sha256] in
theorem Idle.registerConnection (h : s.Idle) (c : ConnectionId) (p : PeerId) :
    (s.registerConnection c p).Idle := by
  have hother : (s.supersedeOther c p).Idle := by
    simp only [supersedeOther]
    split
    · split
      · exact h.supersedeConnection _
      · exact h
    · exact h
  simp only [SwarmCore.registerConnection]
  split
  · exact (announceConnection_handlers _ c p).idle ⟨hother.ping, hother.identify⟩
  · exact ⟨hother.ping, hother.identify⟩

omit [Sha256] in
theorem bindIdentity_handlers (s : SwarmCore) (c : ConnectionId) (p : PeerId) :
    SameHandlers s (s.bindIdentity c p) := by
  simp only [bindIdentity]
  refine SameHandlers.trans ?_ (openOrReport_handlers _ _ _ _ _ _ _)
  refine SameHandlers.trans ?_ (handlers_permissive.tryEmitPeerReady _ p)
  exact ⟨rfl, rfl⟩

omit [Sha256] in
theorem Idle.upgradeConnectionIdentity (h : s.Idle) (c : ConnectionId) (p : PeerId) :
    (s.upgradeConnectionIdentity c p).Idle := by
  simp only [SwarmCore.upgradeConnectionIdentity]
  split
  · next stale _ =>
    split
    · exact h
    · rw [migrateIdentity_eq h]
      exact (bindIdentity_handlers _ c p).idle
        ⟨PingProtocol.migratePeer_idle h.ping stale p,
          IdentifyProtocol.migratePeer_idle h.identify stale p⟩
  · exact (bindIdentity_handlers _ c p).idle h

omit [Sha256] in
theorem Idle.handleConnectionClosed (h : s.Idle) (c : ConnectionId) :
    (s.handleConnectionClosed c).Idle := by
  rw [handleConnectionClosed_eq h]
  exact h.detach c

/-! ## Streams -/

theorem Idle.dispatchProtocolData (h : s.Idle) (k : StreamKey) (data : Bytes) (nowMs : UInt64) :
    (s.dispatchProtocolData k data nowMs).Idle := by
  have hensure := (ensurePeerIdForConn_handlers s k.conn).idle h
  simp only [SwarmCore.dispatchProtocolData]
  split
  · exact h
  · next protocol _ =>
    cases protocol with
    | ping => exact feedPing_idle hensure.identify
    | identifyInitiator => exact feedIdentify_idle hensure.ping
    | identifyResponder => exact hensure
    | user protocolId => exact ⟨hensure.ping, hensure.identify⟩

theorem Idle.handleStreamRemoteWriteClosed (h : s.Idle) (k : StreamKey) :
    (s.handleStreamRemoteWriteClosed k).Idle := by
  have hensure := (ensurePeerIdForConn_handlers s k.conn).idle h
  simp only [SwarmCore.handleStreamRemoteWriteClosed]
  split
  · exact h
  · next protocol _ =>
    cases protocol with
    | ping => exact feedPing_idle hensure.identify
    | identifyInitiator => exact feedIdentify_idle hensure.ping
    | identifyResponder => exact hensure
    | user protocolId => exact ⟨hensure.ping, hensure.identify⟩

omit [Sha256] in
theorem Idle.notifyStreamClosed (h : s.Idle) (protocol : ProtocolKind) (p : PeerId)
    (t : StreamId) : (s.notifyStreamClosed protocol p t).Idle := by
  cases protocol with
  | ping => exact feedPing_idle h.identify
  | identifyInitiator => exact feedIdentify_idle h.ping
  | identifyResponder => exact feedIdentify_idle h.ping
  | user protocolId => exact ⟨h.ping, h.identify⟩

omit [Sha256] in
theorem Idle.handleStreamClosed (h : s.Idle) (k : StreamKey) : (s.handleStreamClosed k).Idle := by
  have hdisown : Idle { s with streamOwner := s.streamOwner.erase k } := ⟨h.ping, h.identify⟩
  simp only [SwarmCore.handleStreamClosed]
  split
  · next protocol p _ _ =>
    have hnotify := hdisown.notifyStreamClosed protocol p k.stream
    exact ⟨hnotify.ping, hnotify.identify⟩
  · exact ⟨h.ping, h.identify⟩

omit [Sha256] in
theorem Idle.respondIdentify (h : s.Idle) (k : StreamKey) (p : PeerId) :
    (s.respondIdentify k p).Idle := by
  simp only [SwarmCore.respondIdentify]
  split
  · next identify heq => exact drainIdentifyOutputs_idle h.ping
  · next identify e heq =>
    have hidle := IdentifyProtocol.idle_of_error h.identify (congrArg Prod.snd heq)
    rw [heq] at hidle
    exact ⟨h.ping, hidle⟩

theorem Idle.onInboundNegotiated (h : s.Idle) (k : StreamKey) (protocol : String) :
    (s.onInboundNegotiated k protocol).Idle := by
  have hensure := (ensurePeerIdForConn_handlers s k.conn).idle h
  simp only [SwarmCore.onInboundNegotiated]
  split
  · exact feedPing_idle hensure.identify
  · split
    · exact hensure.respondIdentify k _
    · split
      · exact ⟨hensure.ping, hensure.identify⟩
      · exact hensure

omit [Sha256] in
theorem Idle.sendDeferredPing (h : s.Idle) (k : StreamKey) (p : PeerId) (nowMs : UInt64) :
    (s.sendDeferredPing k p nowMs).Idle := by
  simp only [SwarmCore.sendDeferredPing]
  split
  · exact h
  · split
    · exact drainPingOutputs_idle h.identify
    · next ping e heq =>
      have hidle := PingProtocol.idle_of_error h.ping (congrArg Prod.snd heq)
      rw [heq] at hidle
      exact ⟨hidle, h.identify⟩

omit [Sha256] in
theorem Idle.startPing (h : s.Idle) (k : StreamKey) (p : PeerId) (nowMs : UInt64) :
    (s.startPing k p nowMs).Idle := by
  simp only [SwarmCore.startPing]
  split
  · next ping e heq =>
    have hidle := PingProtocol.idle_of_error h.ping (congrArg Prod.snd heq)
    rw [heq] at hidle
    exact ⟨hidle, h.identify⟩
  · apply Idle.sendDeferredPing
    exact drainPingOutputs_idle h.identify

theorem Idle.onOutboundNegotiated (h : s.Idle) (k : StreamKey) (target : ProtocolKind)
    (nowMs : UInt64) : (s.onOutboundNegotiated k target nowMs).Idle := by
  have hensure := (ensurePeerIdForConn_handlers s k.conn).idle h
  simp only [SwarmCore.onOutboundNegotiated]
  cases target with
  | ping =>
    apply Idle.startPing
    exact ⟨hensure.ping, hensure.identify⟩
  | identifyInitiator => exact feedIdentify_idle hensure.ping
  | identifyResponder => exact ⟨hensure.ping, hensure.identify⟩
  | user protocolId => exact ⟨hensure.ping, hensure.identify⟩

theorem Idle.dispatchRemaining (h : s.Idle) (k : StreamKey) (remaining : Bytes) (nowMs : UInt64) :
    (s.dispatchRemaining k remaining nowMs).Idle := by
  simp only [SwarmCore.dispatchRemaining]
  split
  · exact h
  · exact h.dispatchProtocolData k remaining nowMs

theorem Idle.feedInboundNegotiator (h : s.Idle) (k : StreamKey) (data : Bytes) (nowMs : UInt64) :
    (s.feedInboundNegotiator k data nowMs).Idle := by
  simp only [SwarmCore.feedInboundNegotiator, MultistreamSelect.handleInput]
  split
  · exact h
  · next negotiator _ =>
    have hpoll := (handlers_permissive.pollInbound k (negotiator.receive data).drainOutputs.1
      { s with
        inboundNegotiators :=
          s.inboundNegotiators.insert k (negotiator.receive data).drainOutputs.2 } none).idle
      ⟨h.ping, h.identify⟩
    split
    · next heq =>
      rw [heq] at hpoll
      exact ⟨hpoll.ping, hpoll.identify⟩
    · next heq =>
      rw [heq] at hpoll
      exact hpoll
    · next heq =>
      rw [heq] at hpoll
      apply Idle.dispatchRemaining
      apply Idle.onInboundNegotiated
      exact ⟨hpoll.ping, hpoll.identify⟩

theorem Idle.feedOutboundNegotiator (h : s.Idle) (k : StreamKey) (data : Bytes) (nowMs : UInt64) :
    (s.feedOutboundNegotiator k data nowMs).Idle := by
  simp only [SwarmCore.feedOutboundNegotiator, MultistreamSelect.handleInput]
  split
  · exact h
  · next pending _ =>
    have hpoll := (handlers_permissive.pollOutbound k
      (pending.negotiator.receive data).drainOutputs.1
      { s with
        outboundNegotiators := s.outboundNegotiators.insert k
          { pending with negotiator := (pending.negotiator.receive data).drainOutputs.2 } }
      false).idle ⟨h.ping, h.identify⟩
    split
    · next heq =>
      rw [heq] at hpoll
      exact ⟨hpoll.ping, hpoll.identify⟩
    · next heq =>
      rw [heq] at hpoll
      exact hpoll
    · next heq =>
      rw [heq] at hpoll
      apply Idle.dispatchRemaining
      apply Idle.onOutboundNegotiated
      exact ⟨hpoll.ping, hpoll.identify⟩

theorem Idle.handleStreamData (h : s.Idle) (k : StreamKey) (data : Bytes) (nowMs : UInt64) :
    (s.handleStreamData k data nowMs).Idle := by
  simp only [SwarmCore.handleStreamData]
  split
  · exact h.feedInboundNegotiator k data nowMs
  · split
    · exact h.feedOutboundNegotiator k data nowMs
    · exact h.dispatchProtocolData k data nowMs

omit [Sha256] [MultihashCodec] in
theorem Idle.handleStreamOpened (h : s.Idle) (k : StreamKey) (token : OpenStreamToken) :
    (s.handleStreamOpened k token).Idle := by
  simp only [SwarmCore.handleStreamOpened]
  split
  · exact ⟨h.ping, h.identify⟩
  · split
    · exact ⟨h.ping, h.identify⟩
    · next pending _ _ =>
      have hstart := handlers_permissive.pollStart k
        (MultistreamSelect.dialer pending.protocol).start.drainOutputs.1
        { s with pendingOpens := s.pendingOpens.erase token }
      refine ⟨?_, ?_⟩
      · exact (hstart.idle ⟨h.ping, h.identify⟩).ping
      · exact (hstart.idle ⟨h.ping, h.identify⟩).identify

/-! ## Calls -/

theorem Idle.handleTransportEvent (h : s.Idle) (event : TransportEvent) (nowMs : UInt64) :
    (s.handleTransportEvent event nowMs).Idle := by
  cases event with
  | connected c endpoint =>
    simp only [SwarmCore.handleTransportEvent]
    split
    · apply Idle.registerConnection
      exact ⟨h.ping, h.identify⟩
    · refine (ensurePeerIdForConn_handlers _ c).idle ?_
      exact ⟨h.ping, h.identify⟩
  | peerIdentityVerified c endpoint previous =>
    simp only [SwarmCore.handleTransportEvent]
    split
    · apply Idle.upgradeConnectionIdentity
      exact ⟨h.ping, h.identify⟩
    · exact ⟨h.ping, h.identify⟩
  | incomingConnection c endpoint => exact ⟨h.ping, h.identify⟩
  | incomingStream c t =>
    simp only [SwarmCore.handleTransportEvent, handleIncomingStream, MultistreamSelect.handleInput]
    refine (handlers_permissive.pollStart _ _ _).idle ?_
    exact ⟨h.ping, h.identify⟩
  | streamOpened c t => exact h
  | streamData c t data => exact h.handleStreamData _ data nowMs
  | streamRemoteWriteClosed c t => exact h.handleStreamRemoteWriteClosed _
  | streamClosed c t => exact h.handleStreamClosed _
  | closed c => exact h.handleConnectionClosed c
  | listening addr => exact h
  | error c message => exact ⟨h.ping, h.identify⟩

omit [Sha256] in
theorem Idle.pingPeer (h : s.Idle) (p : PeerId) (payload : Payload) (nowMs : UInt64) :
    (s.pingPeer p payload nowMs).1.Idle := by
  simp only [SwarmCore.pingPeer]
  split
  · exact h
  · split
    · split
      · exact drainPingOutputs_idle h.identify
      · next ping e heq =>
        have hidle := PingProtocol.idle_of_error h.ping (congrArg Prod.snd heq)
        rw [heq] at hidle
        exact ⟨hidle, h.identify⟩
    · split
      · exact ⟨h.ping, h.identify⟩
      · exact (queueOpenProtocolStream_handlers _ _ _ _).idle ⟨h.ping, h.identify⟩

omit [Sha256] [MultihashCodec] in
theorem Idle.userStreamAction (h : s.Idle) (p : PeerId) (t : StreamId)
    (action : ConnectionId → SwarmAction) : (s.userStreamAction p t action).1.Idle := by
  simp only [SwarmCore.userStreamAction]
  split
  · exact ⟨h.ping, h.identify⟩
  · exact h

end SwarmCore

open SwarmCore

variable [Sha256] [MultihashCodec]

/-- Every call leaves the handlers drained. -/
theorem SwarmCore.Idle.step {s : SwarmCore} (h : s.Idle) (call : Call) : (step s call).Idle := by
  cases call with
  | input input =>
    cases input with
    | transport event nowMs => exact h.handleTransportEvent event nowMs
    | tick nowMs => exact drainIdentifyOutputs_idle (feedPing_idle h.identify).ping
    | streamOpened c t token nowMs => exact h.handleStreamOpened _ token
    | openStreamFailed token reason nowMs =>
      simp only [Swarm.step, handleInput, handleOpenStreamFailed]
      split
      · exact ⟨h.ping, h.identify⟩
      · exact ⟨h.ping, h.identify⟩
    | runtimeError error => exact ⟨h.ping, h.identify⟩
  | pollOutput =>
    simp only [Swarm.step, pollOutput]
    split
    · exact ⟨h.ping, h.identify⟩
    · split
      · exact ⟨h.ping, h.identify⟩
      · exact h
  | setLocalAddresses addrs => exact ⟨h.ping, h.identify⟩
  | addUserProtocol id =>
    refine ⟨h.ping, ?_⟩
    simp only [Swarm.step, addUserProtocol, IdentifyProtocol.addProtocol]
    split
    · exact h.identify
    · exact h.identify
  | ping p payload nowMs => exact h.pingPeer p payload nowMs
  | openUserStream p protocolId =>
    simp only [Swarm.step, openUserStream]
    split
    · exact h
    · split
      · exact h
      · split
        · exact h
        · exact (queueOpenProtocolStream_handlers _ _ _ _).idle h
  | sendUserStream p t data => exact h.userStreamAction p t _
  | closeUserStreamWrite p t => exact h.userStreamAction p t _
  | resetUserStream p t => exact h.userStreamAction p t _
  | disconnect p =>
    simp only [Swarm.step, disconnect]
    split
    · exact ⟨h.ping, h.identify⟩
    · exact h

/-- In every reachable state the handlers are drained. -/
theorem idle_run (identifyConfig : Identify.IdentifyConfig) (pingConfig : Ping.PingConfig)
    (calls : List Call) : (run (.new identifyConfig pingConfig) calls).Idle := by
  apply run_keeps _ (fun s call h => h.step call)
  exact ⟨PingProtocol.idle_new pingConfig, IdentifyProtocol.idle_new identifyConfig⟩

end Minip2p.Swarm
