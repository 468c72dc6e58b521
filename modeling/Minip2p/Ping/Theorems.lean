import Minip2p.Ping.Protocol

/-!
# What an input does to the ping machine

An input is about one peer: the actions it queues are for that peer and no other peer gets a
state. A rejected input queues nothing. These are the facts the swarm relies on when it routes
the actions of the machine.
-/

namespace Minip2p.Ping

/-- The peer an input is about. -/
def PingInput.peer? : PingInput → Option PeerId
  | registerOutboundStream peerId _ => some peerId
  | registerInboundStream peerId _ => some peerId
  | sendPing peerId _ _ => some peerId
  | closeOutboundStreamWrite peerId => some peerId
  | streamData peerId _ _ _ => some peerId
  | streamRemoteWriteClosed peerId _ => some peerId
  | streamClosed peerId _ => some peerId
  | removePeer peerId => some peerId
  | migratePeer _ _ => none
  | tick _ => none

/-- The peer an action is for. -/
def PingAction.peerId : PingAction → PeerId
  | send peerId _ _ => peerId
  | closeStreamWrite peerId _ => peerId
  | resetStream peerId _ => peerId

namespace PingProtocol

/-- Nothing is left to poll. -/
def Idle (ping : PingProtocol) : Prop := ping.pendingActions = [] ∧ ping.pendingEvents = []

/-- A new machine has nothing to poll. -/
theorem idle_new (config : PingConfig) : (new config).Idle := ⟨rfl, rfl⟩

/-- A call returns only actions for `p`, queues none by itself, and no other peer gets a
state. -/
structure Only (p : PeerId) (ping : PingProtocol) (result : PingProtocol × List PingAction) :
    Prop where
  queued : result.1.pendingActions = ping.pendingActions
  returned : ∀ a ∈ result.2, a.peerId = p
  peers : ∀ q, q ∈ result.1.peers → q ∈ ping.peers ∨ q = p

namespace Only

variable {p : PeerId} {ping ping' : PingProtocol} {actions : List PingAction}

theorem rfl : Only p ping (ping, []) := by
  refine ⟨Eq.refl _, ?_, fun _ hq => .inl hq⟩
  intro a ha
  cases ha

/-- Setting the state of the peer is about it only. -/
theorem setPeer {state : PeerPingState} (h : Only p ping (ping', actions)) :
    Only p ping (ping'.setPeer p state, actions) := by
  refine ⟨h.queued, h.returned, ?_⟩
  intro q hq
  have hcases : p = q ∨ q ∈ ping'.peers := by
    simpa only [PingProtocol.setPeer, Std.ExtTreeMap.mem_insert, Std.compare_eq_iff_eq] using hq
  rcases hcases with heq | hmem
  · exact .inr heq.symm
  · exact h.peers q hmem

/-- An event is not about another peer. -/
theorem pushEvent {event : PingEvent} (h : Only p ping (ping', actions)) :
    Only p ping (ping'.pushEvent event, actions) :=
  ⟨h.queued, h.returned, h.peers⟩

theorem action {a : PingAction} (h : Only p ping (ping', [])) (ha : a.peerId = p) :
    Only p ping (ping', [a]) := by
  refine ⟨h.queued, ?_, h.peers⟩
  intro b hb
  rw [List.mem_singleton.mp hb]
  exact ha

theorem protocolViolation {streamId : StreamId} {reason : String} (h : Only p ping (ping', [])) :
    Only p ping (ping'.protocolViolation p streamId reason) :=
  h.pushEvent.action (Eq.refl _)

end Only

section Calls

variable (ping : PingProtocol) (p : PeerId) (streamId : StreamId)

/-- Registering an inbound stream is about the peer only. -/
theorem registerInboundStream_only : Only p ping (ping.registerInboundStream p streamId) := by
  simp only [registerInboundStream]
  split
  · exact Only.rfl.setPeer
  · split
    · exact Only.rfl.setPeer.pushEvent.action rfl
    · exact Only.rfl.setPeer.pushEvent

/-- A complete ping is about the peer only. -/
theorem processCompletePayload_only {ping' : PingProtocol} (h : Only p ping (ping', []))
    (peer : PeerPingState) (payload : Payload) (nowMs : UInt64) :
    Only p ping (ping'.processCompletePayload p peer streamId payload nowMs) := by
  simp only [processCompletePayload]
  split
  · split
    · exact h.setPeer.protocolViolation
    · split
      · exact h.setPeer.protocolViolation
      · exact h.setPeer.pushEvent
  · split
    · exact h.action rfl
    · exact h

/-- Data on a stream is about the peer only. -/
theorem onStreamData_only (data : Bytes) (nowMs : UInt64) :
    Only p ping (ping.onStreamData p streamId data nowMs) := by
  simp only [onStreamData]
  split
  · exact Only.rfl.protocolViolation
  · split
    · exact Only.rfl.protocolViolation
    · split
      · exact Only.rfl.setPeer.protocolViolation
      · split
        · exact Only.rfl.setPeer
        · exact processCompletePayload_only ping p streamId Only.rfl.setPeer _ _ nowMs

/-- A half-close is about the peer only. -/
theorem onStreamRemoteWriteClosed_only :
    Only p ping (ping.onStreamRemoteWriteClosed p streamId) := by
  simp only [onStreamRemoteWriteClosed]
  split
  · exact Only.rfl
  · split
    · exact Only.rfl.setPeer
    · split
      · split
        · exact Only.rfl.setPeer.protocolViolation
        · exact Only.rfl.setPeer.pushEvent
      · exact Only.rfl

/-- The end of a stream is about the peer only. -/
theorem onStreamClosed_only : Only p ping (ping.onStreamClosed p streamId, []) := by
  simp only [onStreamClosed]
  split
  · exact Only.rfl
  · split
    · exact Only.rfl.setPeer
    · exact Only.rfl.setPeer

/-- Registering an outbound stream is about the peer only. -/
theorem registerOutboundStream_only :
    Only p ping ((ping.registerOutboundStream p streamId).1, []) := by
  simp only [registerOutboundStream]
  split
  · split
    · exact Only.rfl.setPeer
    · exact Only.rfl.setPeer
  · exact Only.rfl.setPeer.pushEvent

/-- `send_ping` either rejects the payload and changes nothing, or returns a `Send` for a peer it
knows. -/
theorem sendPing_cases (payload : Bytes) (nowMs : UInt64) :
    (∃ e, ping.sendPing p payload nowMs = (ping, .error e)) ∨
      p ∈ ping.peers ∧ ∃ state streamId frame,
        ping.sendPing p payload nowMs = (ping.setPeer p state, .ok (.send p streamId frame)) := by
  simp only [sendPing]
  split
  · split
    · exact .inl ⟨_, rfl⟩
    · next hpeer =>
      have hmem : p ∈ ping.peers := Std.ExtTreeMap.mem_iff_isSome_getElem?.mpr (by rw [hpeer]; rfl)
      split
      · exact .inl ⟨_, rfl⟩
      · split
        · exact .inl ⟨_, rfl⟩
        · exact .inr ⟨hmem, _, _, _, rfl⟩
  · exact .inl ⟨_, rfl⟩

/-- Closing the outbound stream fails, or is an action on it. -/
theorem closeOutboundStreamWrite_cases :
    (∃ e, ping.closeOutboundStreamWrite p = .error e) ∨
      ∃ streamId, ping.closeOutboundStreamWrite p = .ok (.closeStreamWrite p streamId) := by
  simp only [closeOutboundStreamWrite]
  split
  · exact .inl ⟨_, rfl⟩
  · split
    · exact .inl ⟨_, rfl⟩
    · split
      · exact .inl ⟨_, rfl⟩
      · exact .inr ⟨_, rfl⟩

end Calls

/-- A tick gives no peer a state. -/
theorem onTick_peers (ping : PingProtocol) (nowMs : UInt64) (q : PeerId)
    (hq : q ∈ (ping.onTick nowMs).1.peers) : q ∈ ping.peers := by
  have hfold : ∀ (entries : List (PeerId × PeerPingState)) (state : PingProtocol × List PingAction),
      (∀ entry ∈ entries, entry.1 ∈ ping.peers) → (∀ r, r ∈ state.1.peers → r ∈ ping.peers) →
      ∀ r, r ∈ (entries.foldl (tickPeer nowMs) state).1.peers → r ∈ ping.peers := by
    intro entries
    induction entries with
    | nil => exact fun _ _ hstate => hstate
    | cons entry entries ih =>
      intro state hentries hstate
      apply ih _ (fun e he => hentries e (List.mem_cons_of_mem _ he))
      intro r hr
      -- a turn only stores a new state for a peer that has one
      have hturn : r = entry.1 ∨ r ∈ state.1.peers := by
        simp only [tickPeer] at hr
        split at hr
        · split at hr
          · have hcases : entry.1 = r ∨ r ∈ state.1.peers := by
              simpa only [PingProtocol.setPeer, PingProtocol.pushEvent,
                Std.ExtTreeMap.mem_insert, Std.compare_eq_iff_eq] using hr
            exact hcases.imp Eq.symm id
          · exact .inr hr
        · exact .inr hr
      rcases hturn with heq | hmem
      · rw [heq]
        exact hentries entry List.mem_cons_self
      · exact hstate r hmem
  refine hfold ping.peers.toList (ping, []) ?_ (fun _ hr => hr) q hq
  rintro ⟨r, state⟩ hmem
  have hr : ping.peers[r]? = some state := Std.ExtTreeMap.mem_toList_iff_getElem?_eq_some.mp hmem
  exact Std.ExtTreeMap.mem_iff_isSome_getElem?.mpr (by rw [hr]; rfl)

/-- The actions queued by a step are for `p`, and no other peer gets a state. -/
structure For (p : PeerId) (ping ping' : PingProtocol) : Prop where
  actions : ∀ a ∈ ping'.pendingActions, a ∈ ping.pendingActions ∨ a.peerId = p
  peers : ∀ q, q ∈ ping'.peers → q ∈ ping.peers ∨ q = p

theorem Only.for {p : PeerId} {ping ping' : PingProtocol} {actions : List PingAction}
    (h : Only p ping (ping', actions)) : For p ping (ping'.pushActions actions) := by
  refine ⟨?_, h.peers⟩
  intro a ha
  rcases List.mem_append.mp ha with hold | hnew
  · exact .inl (h.queued ▸ hold)
  · exact .inr (h.returned a hnew)

/-- An input only concerns its own peer. -/
theorem handleInput_for {input : PingInput} {p : PeerId} (ping : PingProtocol)
    (hp : input.peer? = some p) : For p ping (ping.handleInput input).1 := by
  -- inputs that return no action
  have hquiet : ∀ {ping' : PingProtocol}, Only p ping (ping', []) → For p ping ping' := by
    intro ping' h
    exact ⟨fun a ha => .inl (h.queued ▸ ha), h.peers⟩
  cases input with
  | registerOutboundStream peerId streamId =>
    obtain rfl : peerId = p := Option.some.inj hp
    exact hquiet (registerOutboundStream_only ping peerId streamId)
  | registerInboundStream peerId streamId =>
    obtain rfl : peerId = p := Option.some.inj hp
    exact (registerInboundStream_only ping peerId streamId).for
  | sendPing peerId payload nowMs =>
    obtain rfl : peerId = p := Option.some.inj hp
    rcases sendPing_cases ping peerId payload.toList nowMs with
      ⟨e, heq⟩ | ⟨-, state, s, frame, heq⟩
    · simp only [handleInput, heq]
      exact hquiet Only.rfl
    · simp only [handleInput, heq]
      have honly : Only peerId ping (ping.setPeer peerId state, [.send peerId s frame]) :=
        Only.rfl.setPeer.action rfl
      exact honly.for
  | closeOutboundStreamWrite peerId =>
    obtain rfl : peerId = p := Option.some.inj hp
    rcases closeOutboundStreamWrite_cases ping peerId with ⟨e, heq⟩ | ⟨s, heq⟩
    · simp only [handleInput, heq]
      exact hquiet Only.rfl
    · simp only [handleInput, heq]
      have honly : Only peerId ping (ping, [.closeStreamWrite peerId s]) := Only.rfl.action rfl
      exact honly.for
  | streamData peerId streamId data nowMs =>
    obtain rfl : peerId = p := Option.some.inj hp
    exact (onStreamData_only ping peerId streamId data nowMs).for
  | streamRemoteWriteClosed peerId streamId =>
    obtain rfl : peerId = p := Option.some.inj hp
    exact (onStreamRemoteWriteClosed_only ping peerId streamId).for
  | streamClosed peerId streamId =>
    obtain rfl : peerId = p := Option.some.inj hp
    exact hquiet (onStreamClosed_only ping peerId streamId)
  | removePeer peerId =>
    refine ⟨fun a ha => .inl ha, fun q hq => .inl ?_⟩
    exact (Std.ExtTreeMap.mem_erase.mp hq).2
  | migratePeer old new => cases hp
  | tick nowMs => cases hp

/-- A peer whose state names an outbound stream has a state. -/
theorem peers_of_outboundStream {ping : PingProtocol} {p : PeerId} {t : StreamId}
    (h : (ping.peerState p).outboundStream = some t) : ping.peers[p]? = some (ping.peerState p) := by
  unfold peerState at h ⊢
  cases hpeer : ping.peers[p]? with
  | none =>
    rw [hpeer] at h
    cases h
  | some peer => rfl

/-- A rejected input changes nothing. -/
theorem handleInput_refused {ping : PingProtocol} {input : PingInput} {e : PingError}
    (h : (ping.handleInput input).2 = .error e) : (ping.handleInput input).1 = ping := by
  cases input with
  | registerOutboundStream peerId streamId =>
    simp only [handleInput, registerOutboundStream] at h ⊢
    split at h
    · next hexisting =>
      split at h
      · next hother =>
        -- the entry that `or_default` stores is the one that was there
        rw [if_pos hother]
        simp only [setPeer, BTreeMap.insert_eq_self (peers_of_outboundStream hexisting)]
      · cases h
    · cases h
  | sendPing peerId payload nowMs =>
    rcases sendPing_cases ping peerId payload.toList nowMs with
      ⟨e', heq⟩ | ⟨-, state, s, frame, heq⟩
    · simp only [handleInput, heq]
    · simp only [handleInput, heq] at h
      cases h
  | closeOutboundStreamWrite peerId =>
    rcases closeOutboundStreamWrite_cases ping peerId with ⟨e', heq⟩ | ⟨s, heq⟩
    · simp only [handleInput, heq]
    · simp only [handleInput, heq] at h
      cases h
  | registerInboundStream peerId streamId => cases h
  | streamData peerId streamId data => cases h
  | streamRemoteWriteClosed peerId streamId => cases h
  | streamClosed peerId streamId => cases h
  | removePeer peerId => cases h
  | migratePeer old new => cases h
  | tick nowMs => cases h

/-- A rejected input queues nothing. -/
theorem idle_of_error {ping : PingProtocol} {input : PingInput} {e : PingError}
    (hidle : ping.Idle) (h : (ping.handleInput input).2 = .error e) :
    (ping.handleInput input).1.Idle := by
  rw [handleInput_refused h]
  exact hidle

/-- Sending a ping gives no peer a state. -/
theorem sendPing_peers (ping : PingProtocol) (p : PeerId) (payload : Payload) (nowMs : UInt64)
    (q : PeerId) (hq : q ∈ (ping.handleInput (.sendPing p payload nowMs)).1.peers) :
    q ∈ ping.peers := by
  rcases sendPing_cases ping p payload.toList nowMs with
    ⟨e, heq⟩ | ⟨hp, state, s, frame, heq⟩
  · simpa only [handleInput, heq] using hq
  · have hfor : For p ping (ping.handleInput (.sendPing p payload nowMs)).1 :=
      handleInput_for ping rfl
    rcases hfor.peers q hq with hold | rfl
    · exact hold
    · exact hp

/-- Moving a peer keeps the machine idle. -/
theorem migratePeer_idle {ping : PingProtocol} (hidle : ping.Idle) (old new : PeerId) :
    (ping.migratePeer old new).Idle := by
  simp only [migratePeer]
  split
  · exact hidle
  · exact ⟨hidle.1, by rw [hidle.2]; rfl⟩

/-- The stream is the outbound one of the peer and none of its inbound ones, and a ping is in flight
on it. -/
def interrupted (ping : PingProtocol) (p : PeerId) (t : StreamId) : Bool :=
  ping.peers[p]?.any fun peer =>
    !peer.inboundStreams.contains t && peer.outboundStream == some t && peer.pendingPing.isSome

/-- Ping answers the half-close of an outbound stream with a ping in flight, and no other. -/
theorem onStreamRemoteWriteClosed_actions (ping : PingProtocol) (p : PeerId) (t : StreamId) :
    (ping.onStreamRemoteWriteClosed p t).2 =
        (if ping.interrupted p t then [.resetStream p t] else []) ∧
      (ping.onStreamRemoteWriteClosed p t).1.pendingActions = ping.pendingActions := by
  unfold onStreamRemoteWriteClosed
  split
  case h_1 hpeer =>
    have hquiet : ping.interrupted p t = false := by simp [interrupted, hpeer]
    simp [hquiet]
  case h_2 peer hpeer =>
    by_cases hin : peer.inboundStreams.contains t = true
    · have hquiet : ping.interrupted p t = false := by simp [interrupted, hpeer, hin]
      simp [hin, hquiet, setPeer]
    · by_cases hout : peer.outboundStream = some t
      · by_cases hpending : peer.pendingPing.isSome = true
        · have hcut : ping.interrupted p t = true := by
            simp [interrupted, hpeer, hin, hout, hpending]
          simp [hin, hout, hpending, hcut, protocolViolation, pushEvent, setPeer]
        · have hquiet : ping.interrupted p t = false := by simp [interrupted, hpeer, hpending]
          simp [hin, hout, hpending, hquiet, pushEvent, setPeer]
      · have hquiet : ping.interrupted p t = false := by simp [interrupted, hpeer, hout]
        simp [hin, hout, hquiet]

/-! ## Outbound streams -/

/-- Every outbound stream of `ping'` is one of `ping`. -/
def OutboundLe (ping ping' : PingProtocol) : Prop :=
  ∀ q t, ping'.outboundStream q = some t → ping.outboundStream q = some t

/-- The outbound stream of a peer is the one in its state. -/
theorem outboundStream_eq_some_iff {ping : PingProtocol} {q : PeerId} {t : StreamId} :
    ping.outboundStream q = some t ↔
      ∃ peer, ping.peers[q]? = some peer ∧ peer.outboundStream = some t :=
  Option.bind_eq_some_iff

namespace OutboundLe

variable {ping ping' : PingProtocol} {p : PeerId}

theorem refl : OutboundLe ping ping := fun _ _ h => h

/-- A state without a new outbound stream adds none. -/
theorem setPeer {state : PeerPingState} (h : OutboundLe ping ping')
    (hstate : ∀ t, state.outboundStream = some t → ping.outboundStream p = some t) :
    OutboundLe ping (ping'.setPeer p state) := by
  intro q t hq
  obtain ⟨peer, hpeer, ht⟩ := outboundStream_eq_some_iff.mp hq
  rcases BTreeMap.getElem?_insert_eq_some_iff.mp hpeer with ⟨hqp, hsame⟩ | ⟨-, hpeer⟩
  · rw [hqp]
    exact hstate t (hsame ▸ ht)
  · exact h q t (outboundStream_eq_some_iff.mpr ⟨peer, hpeer, ht⟩)

/-- A state with the outbound stream that the peer had. -/
theorem setPeer_same {state peer : PeerPingState} (h : OutboundLe ping ping')
    (hpeer : ping.peers[p]? = some peer) (hstate : state.outboundStream = peer.outboundStream) :
    OutboundLe ping (ping'.setPeer p state) := by
  refine h.setPeer ?_
  intro t ht
  exact outboundStream_eq_some_iff.mpr ⟨peer, hpeer, hstate ▸ ht⟩

/-- A state without outbound stream. -/
theorem setPeer_none {state : PeerPingState} (h : OutboundLe ping ping')
    (hstate : state.outboundStream = none) : OutboundLe ping (ping'.setPeer p state) := by
  refine h.setPeer ?_
  intro t ht
  rw [hstate] at ht
  cases ht

/-- Registering an inbound stream adds no outbound one. -/
theorem registerInboundStream (ping : PingProtocol) (p : PeerId) (t : StreamId) :
    OutboundLe ping (ping.registerInboundStream p t).1 := by
  -- a peer without state gets the default one, which has no stream
  have hstate : ∀ t, (ping.peerState p).outboundStream = some t →
      ping.outboundStream p = some t := by
    intro t ht
    rw [peerState] at ht
    cases hpeer : ping.peers[p]? with
    | none =>
      rw [hpeer] at ht
      cases ht
    | some peer =>
      rw [hpeer] at ht
      exact outboundStream_eq_some_iff.mpr ⟨peer, hpeer, ht⟩
  simp only [PingProtocol.registerInboundStream]
  split
  · exact refl.setPeer hstate
  · split
    · exact refl.setPeer hstate
    · exact refl.setPeer hstate

/-- Data on a stream adds no outbound one. -/
theorem onStreamData (ping : PingProtocol) (p : PeerId) (t : StreamId) (data : Bytes)
    (nowMs : UInt64) : OutboundLe ping (ping.onStreamData p t data nowMs).1 := by
  simp only [PingProtocol.onStreamData]
  split
  · exact refl
  · next peer hpeer =>
    split
    · exact refl
    · split
      · exact refl.setPeer_same hpeer rfl
      · split
        · exact refl.setPeer_same hpeer rfl
        · -- a whole payload may take the request out, never the stream
          have hdropped : OutboundLe ping (ping.setPeer p
              { peer with recvBufs := peer.recvBufs.erase t }) := refl.setPeer_same hpeer rfl
          simp only [processCompletePayload]
          split
          · split
            · exact hdropped.setPeer_same hpeer rfl
            · split
              · exact hdropped.setPeer_same hpeer rfl
              · exact hdropped.setPeer_same hpeer rfl
          · split
            · exact hdropped
            · exact hdropped

/-- A half-close adds no outbound stream. -/
theorem onStreamRemoteWriteClosed (ping : PingProtocol) (p : PeerId) (t : StreamId) :
    OutboundLe ping (ping.onStreamRemoteWriteClosed p t).1 := by
  simp only [PingProtocol.onStreamRemoteWriteClosed]
  split
  · exact refl
  · next peer hpeer =>
    split
    · exact refl.setPeer_same hpeer rfl
    · split
      · split
        · exact refl.setPeer_none rfl
        · exact refl.setPeer_none rfl
      · exact refl

/-- The end of a stream adds no outbound one. -/
theorem onStreamClosed (ping : PingProtocol) (p : PeerId) (t : StreamId) :
    OutboundLe ping (ping.onStreamClosed p t) := by
  simp only [PingProtocol.onStreamClosed]
  split
  · exact refl
  · next peer hpeer =>
    split
    · exact refl.setPeer_none rfl
    · exact refl.setPeer_same hpeer rfl

/-- Forgetting a peer adds no outbound stream. -/
theorem removePeer (ping : PingProtocol) (p : PeerId) : OutboundLe ping (ping.removePeer p) := by
  intro q t hq
  obtain ⟨peer, hpeer, ht⟩ := outboundStream_eq_some_iff.mp hq
  exact outboundStream_eq_some_iff.mpr ⟨peer, (BTreeMap.getElem?_erase_eq_some_iff.mp hpeer).2, ht⟩

/-- A tick gives streams up and makes none. -/
theorem onTick (ping : PingProtocol) (nowMs : UInt64) : OutboundLe ping (ping.onTick nowMs).1 := by
  have hfold : ∀ (entries : List (PeerId × PeerPingState)) (state : PingProtocol × List PingAction),
      OutboundLe ping state.1 → OutboundLe ping (entries.foldl (tickPeer nowMs) state).1 := by
    intro entries
    induction entries with
    | nil => exact fun state h => h
    | cons entry entries ih =>
      intro state h
      refine ih _ ?_
      simp only [tickPeer]
      split
      · split
        · exact h.setPeer_none rfl
        · exact h
      · exact h
  exact hfold _ _ refl

/-- Sending a ping adds no outbound stream. -/
theorem sendPing (ping : PingProtocol) (p : PeerId) (payload : Payload) (nowMs : UInt64) :
    OutboundLe ping (ping.handleInput (.sendPing p payload nowMs)).1 := by
  simp only [handleInput, PingProtocol.sendPing]
  split
  · next ping' action heq =>
    split at heq
    · split at heq
      · cases heq
      · next peer hpeer =>
        split at heq
        · cases heq
        · split at heq
          · cases heq
          · cases heq
            exact refl.setPeer_same hpeer rfl
    · cases heq
  · next ping' e heq =>
    split at heq
    · split at heq
      · cases heq
        exact refl
      · split at heq
        · cases heq
          exact refl
        · split at heq
          · cases heq
            exact refl
          · cases heq
    · cases heq
      exact refl

end OutboundLe

/-- Registering a stream changes the outbound stream of its peer only. -/
theorem registerOutboundStream_other {ping : PingProtocol} {p q : PeerId} {t : StreamId}
    (hq : q ≠ p) :
    (ping.registerOutboundStream p t).1.outboundStream q = ping.outboundStream q := by
  have hset : ∀ state, (ping.setPeer p state).outboundStream q = ping.outboundStream q := by
    intro state
    have hpeers : (ping.peers.insert p state)[q]? = ping.peers[q]? :=
      BTreeMap.getElem?_insert_of_ne hq
    simp only [outboundStream, setPeer, hpeers]
  simp only [registerOutboundStream]
  split
  · split
    · exact hset _
    · exact hset _
  · exact hset _

theorem peerState_outboundStream_eq_none {ping : PingProtocol} {p : PeerId}
    (h : ping.outboundStream p = none) : (ping.peerState p).outboundStream = none := by
  rw [outboundStream] at h
  rw [peerState]
  cases hpeer : ping.peers[p]? with
  | none => rfl
  | some peer =>
    rw [hpeer] at h
    exact h

/-- A peer without outbound stream can register one. -/
theorem registerOutboundStream_ok {ping : PingProtocol} {p : PeerId}
    (h : ping.outboundStream p = none) (t : StreamId) :
    (ping.registerOutboundStream p t).2 = .ok () := by
  simp only [registerOutboundStream, peerState_outboundStream_eq_none h]

end PingProtocol

end Minip2p.Ping
