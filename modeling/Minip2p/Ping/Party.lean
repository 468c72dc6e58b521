import Minip2p.Lib.Fifo
import Minip2p.Ping.Theorems

/-!
# A party of a ping session

A machine with the channels of its outbound ping stream, and what it was seen to do. `View` is what
the machine holds of its two ping streams with the other party, and each input has a lemma that says
what it does to that.
-/

namespace Minip2p.Ping

open Fifo (Channel)

/-- A machine, what it calls the other party and the two streams, what is on its outbound stream,
and what it was seen to do. -/
structure Party where
  ping : PingProtocol
  peer : PeerId
  outbound : StreamId
  inbound : StreamId
  /-- From this side, on its outbound stream. -/
  pings : Channel UInt8
  /-- Back to this side, on its outbound stream. -/
  echoes : Channel UInt8
  /-- The outputs the machine has handed out. -/
  outputs : List PingOutput
  /-- The times of the SendPing inputs that were accepted. -/
  sentAt : List UInt64
  /-- The time at which each byte of the echoes was delivered. -/
  echoedAt : List UInt64

namespace Party

/-- The application asks for a ping. -/
def sendPing (party : Party) (payload : Payload) (nowMs : UInt64) : Party :=
  match party.ping.handleInput (.sendPing party.peer payload nowMs) with
  | (ping, .ok ()) => { party with ping, sentAt := party.sentAt ++ [nowMs] }
  | (ping, .error _) => { party with ping }

/-- The machine is given bytes of a stream. -/
def read (party : Party) (streamId : StreamId) (data : Bytes) (nowMs : UInt64) : Party :=
  { party with ping := (party.ping.handleInput (.streamData party.peer streamId data nowMs)).1 }

/-- The next `n` bytes of the echoes are delivered. -/
def deliverEchoes (party : Party) (n : ℕ) (nowMs : UInt64) : Party :=
  { party.read party.outbound (party.echoes.next n) nowMs with
    echoes := party.echoes.deliver n
    echoedAt := party.echoedAt ++ List.replicate (party.echoes.next n).length nowMs }

/-- The machine after a poll, and what it handed out. -/
def handOut (party : Party) (ping : PingProtocol) (output : PingOutput) : Party :=
  { party with ping, outputs := party.outputs ++ [output] }

/-- The events of the machine, whether they were handed out or are queued. -/
def events (party : Party) : List PingEvent :=
  party.outputs.filterMap (fun output =>
    match output with
    | .event event => some event
    | .action _ => none) ++ party.ping.pendingEvents

/-- The round trips of an event with a peer. -/
def rttOf (peer : PeerId) : PingEvent → Option UInt64
  | .rttMeasured peerId _ rttMs => if peerId = peer then some rttMs else none
  | _ => none

/-- The round trips that were measured to the other side. -/
def rtts (party : Party) : List UInt64 := party.events.filterMap (rttOf party.peer)

end Party

/-! ## Bytes of a known stream -/

namespace PeerPingState

/-- The stream is registered, in either direction. -/
def Knows (state : PeerPingState) (streamId : StreamId) : Prop :=
  state.outboundStream = some streamId ∨ state.inboundStreams.contains streamId

/-- What was received of a stream. -/
def received (state : PeerPingState) (streamId : StreamId) : Bytes :=
  state.recvBufs[streamId]?.getD []

/-- The state of a peer with these bytes of a ping held back. -/
def keep (state : PeerPingState) (streamId : StreamId) (buf : Bytes) : PeerPingState :=
  { state with recvBufs := state.recvBufs.insert streamId buf }

/-- The state of a peer without one of its inbound streams. -/
def drop (state : PeerPingState) (streamId : StreamId) : PeerPingState :=
  { state with recvBufs := state.recvBufs.erase streamId }

/-- The state of a peer with this ping under way. -/
def await (state : PeerPingState) (pending : Option PendingPing) : PeerPingState :=
  { state with pendingPing := pending }

variable {state : PeerPingState} {streamId other : StreamId} {buf : Bytes}

@[simp] theorem received_await (pending : Option PendingPing) :
    (state.await pending).received streamId = state.received streamId := rfl

/-- The bytes that were held back. -/
@[simp] theorem received_keep : (state.keep streamId buf).received streamId = buf := by
  simp [received, keep]

/-- Nothing is held back of a stream that is gone. -/
@[simp] theorem received_drop : (state.drop streamId).received streamId = [] := by
  simp [received, drop]

/-- What is held back of other streams is kept. -/
theorem received_keep_of_ne (h : other ≠ streamId) :
    (state.keep streamId buf).received other = state.received other := by
  simp [received, keep, Std.ExtTreeMap.getElem?_insert, Ne.symm h]

/-- What is held back of other streams is kept. -/
theorem received_drop_of_ne (h : other ≠ streamId) :
    (state.drop streamId).received other = state.received other := by
  simp [received, drop, Std.ExtTreeMap.getElem?_erase, Ne.symm h]

end PeerPingState

namespace PingProtocol

variable {ping : PingProtocol} {peerId : PeerId} {state : PeerPingState} {streamId : StreamId}
  {data : Bytes}

/-- Less than a payload is kept. -/
theorem onStreamData_short (hstate : ping.peers[peerId]? = some state)
    (hknown : state.Knows streamId)
    (hlen : (state.received streamId ++ data).length < pingPayloadLen)
    (nowMs : UInt64) : ping.onStreamData peerId streamId data nowMs =
      (ping.setPeer peerId (state.keep streamId (state.received streamId ++ data)), []) := by
  have hstream : ¬ (state.outboundStream ≠ some streamId ∧
      ¬ state.inboundStreams.contains streamId) := by
    rintro ⟨houtbound, hinbound⟩
    exact hknown.elim houtbound hinbound
  rw [PeerPingState.received] at hlen
  simp only [onStreamData, hstate]
  rw [if_neg hstream, dif_neg (by omega), dif_pos hlen]
  rfl

/-- A whole payload is processed, and the buffer is dropped. -/
theorem onStreamData_full (hstate : ping.peers[peerId]? = some state)
    (hknown : state.Knows streamId) {payload : Payload}
    (hbuf : state.received streamId ++ data = payload.toList) (nowMs : UInt64) :
    ping.onStreamData peerId streamId data nowMs =
      (ping.setPeer peerId (state.drop streamId)).processCompletePayload peerId
        (state.drop streamId) streamId payload nowMs := by
  have hstream : ¬ (state.outboundStream ≠ some streamId ∧
      ¬ state.inboundStreams.contains streamId) := by
    rintro ⟨houtbound, hinbound⟩
    exact hknown.elim houtbound hinbound
  rw [PeerPingState.received] at hbuf
  have hlen : (state.recvBufs[streamId]?.getD [] ++ data).length = pingPayloadLen := by
    rw [hbuf, Vector.length_toList]
  simp only [onStreamData, hstate]
  rw [if_neg hstream, dif_neg (by omega), dif_neg (by omega)]
  simp only [hbuf]
  rfl

end PingProtocol

/-! ## What a machine holds -/

/-- The payload of an action that sends on a stream. -/
def PingAction.sendsOn (streamId : StreamId) : PingAction → Option Payload
  | send _ streamId' data => if streamId' = streamId then some data else none
  | closeStreamWrite _ _ | resetStream _ _ => none

/-- An event of two honest peers. -/
def PingEvent.Honest : PingEvent → Prop
  | protocolViolation _ _ _ => False
  | _ => True

/-- An event of a stream that was registered. -/
def PingEvent.Registers : PingEvent → Prop
  | outboundStreamRegistered _ _ | inboundStreamAccepted _ _ => True
  | _ => False

/-- The machine has a ping stream in either direction with a peer, on which nothing happened yet. -/
structure PingProtocol.Joined (ping : PingProtocol) (peer : PeerId)
    (outbound inbound : StreamId) : Prop where
  known : ping.peers[peer]? = some (ping.peerState peer)
  registered : (ping.peerState peer).outboundStream = some outbound
  accepted : (ping.peerState peer).inboundStreams.contains inbound = true
  distinct : outbound ≠ inbound
  free : (ping.peerState peer).pendingPing = none
  unread : (ping.peerState peer).received outbound = [] ∧
    (ping.peerState peer).received inbound = []
  actions : ping.pendingActions = []
  events : ∀ event ∈ ping.pendingEvents, event.Registers

/-- What the machine of a side holds of both streams. -/
structure View where
  pending : Option PendingPing
  /-- Received on the outbound stream. -/
  back : Bytes
  /-- Received on the inbound stream. -/
  got : Bytes
  /-- Pings that were not handed out yet. -/
  toPing : List Payload
  /-- Echoes that were not handed out yet. -/
  toEcho : List Payload
  rtts : List UInt64

namespace Party

/-- What the machine knows of the other party. -/
def state (party : Party) : PeerPingState := party.ping.peerState party.peer

/-- What the fairness of a party depends on. -/
def view (party : Party) : View where
  pending := party.state.pendingPing
  back := party.state.received party.outbound
  got := party.state.received party.inbound
  toPing := party.ping.pendingActions.filterMap (PingAction.sendsOn party.outbound)
  toEcho := party.ping.pendingActions.filterMap (PingAction.sendsOn party.inbound)
  rtts := party.rtts

/-- Both streams are registered, and all that is done is to send on them. -/
structure Wired (party : Party) : Prop where
  known : party.ping.peers[party.peer]? = some party.state
  outbound : party.state.outboundStream = some party.outbound
  inbound : party.state.inboundStreams.contains party.inbound = true
  distinct : party.outbound ≠ party.inbound
  actions : ∀ action ∈ party.ping.pendingActions, ∃ streamId data,
    action = .send party.peer streamId data ∧
      (streamId = party.outbound ∨ streamId = party.inbound)
  events : ∀ event ∈ party.events, event.Honest

/-- With another machine. -/
def turn (party : Party) (ping : PingProtocol) : Party := { party with ping }

variable {party : Party}

/-- A machine that keeps the streams, and sends on them only. -/
theorem Wired.turn (h : party.Wired) (ping : PingProtocol) (state : PeerPingState)
    (actions : List PingAction) (events : List PingEvent)
    (hstate : ping.peers[party.peer]? = some state)
    (houtbound : state.outboundStream = party.state.outboundStream)
    (hinbound : state.inboundStreams = party.state.inboundStreams)
    (hactions : ping.pendingActions = party.ping.pendingActions ++ actions)
    (hsends : ∀ action ∈ actions, ∃ streamId data, action = .send party.peer streamId data ∧
      (streamId = party.outbound ∨ streamId = party.inbound))
    (hevents : ping.pendingEvents = party.ping.pendingEvents ++ events)
    (hhonest : ∀ event ∈ events, event.Honest) :
    (party.turn ping).Wired ∧ (party.turn ping).view = {
      pending := state.pendingPing
      back := state.received party.outbound
      got := state.received party.inbound
      toPing := party.view.toPing ++ actions.filterMap (PingAction.sendsOn party.outbound)
      toEcho := party.view.toEcho ++ actions.filterMap (PingAction.sendsOn party.inbound)
      rtts := party.rtts ++ events.filterMap (rttOf party.peer) } := by
  have hpeer : (party.turn ping).state = state := by
    rw [Party.state, PingProtocol.peerState]
    exact congrArg (·.getD default) hstate
  have hall : (party.turn ping).events = party.events ++ events := by
    rw [Party.events, Party.events, List.append_assoc]
    exact congrArg (_ ++ ·) hevents
  constructor
  · constructor
    · rw [hpeer]
      exact hstate
    · rw [hpeer, houtbound]
      exact h.outbound
    · rw [hpeer, hinbound]
      exact h.inbound
    · exact h.distinct
    · intro action haction
      obtain haction | haction := List.mem_append.mp (hactions ▸ haction)
      · exact h.actions action haction
      · exact hsends action haction
    · rw [hall]
      intro event hevent
      obtain hevent | hevent := List.mem_append.mp hevent
      · exact h.events event hevent
      · exact hhonest event hevent
  · have hrtts : (party.turn ping).rtts = party.rtts ++ events.filterMap (rttOf party.peer) := by
      rw [rtts, hall, List.filterMap_append]
      rfl
    rw [view, hpeer, hrtts]
    simp only [Party.turn, hactions, List.filterMap_append]
    rfl

/-! ## What a side does -/

/-- A ping is accepted when none is pending. -/
theorem sendPing_of_free (h : party.Wired) (hfree : party.view.pending = none) (payload : Payload)
    (nowMs : UInt64) : ∃ ping,
      party.sendPing payload nowMs =
        { party.turn ping with sentAt := party.sentAt ++ [nowMs] } ∧
      (party.turn ping).Wired ∧ (party.turn ping).view = { party.view with
        pending := some ⟨payload, nowMs⟩
        toPing := party.view.toPing ++ [payload] } := by
  have hpending : party.state.pendingPing = none := hfree
  have hsend : party.ping.sendPing party.peer payload.toList nowMs =
      (party.ping.setPeer party.peer (party.state.await (some ⟨payload, nowMs⟩)),
        .ok (.send party.peer party.outbound payload)) := by
    rw [PingProtocol.sendPing, dif_pos (Vector.length_toList ..), h.known]
    dsimp only
    split
    · next hnone => exact absurd (h.outbound.symm.trans hnone) (by simp)
    · next streamId hsome =>
      obtain rfl : streamId = party.outbound := Option.some.inj (hsome.symm.trans h.outbound)
      rw [if_neg (by rw [hpending]; simp)]
      rfl
  obtain ⟨hwired, hview⟩ := h.turn
    ((party.ping.setPeer party.peer (party.state.await (some ⟨payload, nowMs⟩))).pushActions
      [.send party.peer party.outbound payload])
    (party.state.await (some ⟨payload, nowMs⟩)) [.send party.peer party.outbound payload] []
    Std.ExtTreeMap.getElem?_insert_self rfl rfl rfl (by simp) (List.append_nil _).symm (by simp)
  refine ⟨_, ?_, hwired, ?_⟩
  · rw [sendPing, PingProtocol.handleInput, hsend]
    rfl
  · rw [hview]
    simp [PingAction.sendsOn, h.distinct, view, PeerPingState.await]
    exact ⟨rfl, rfl⟩

/-- A ping is refused while one is pending. -/
theorem sendPing_of_busy (h : party.Wired) (hbusy : party.view.pending.isSome) (payload : Payload)
    (nowMs : UInt64) : party.sendPing payload nowMs = party := by
  have hpending : party.state.pendingPing.isSome := hbusy
  have hsend : party.ping.sendPing party.peer payload.toList nowMs =
      (party.ping, .error (.pingAlreadyInFlight party.peer party.outbound)) := by
    rw [PingProtocol.sendPing, dif_pos (Vector.length_toList ..), h.known]
    simp only [h.outbound, hpending]
    rfl
  rw [sendPing, PingProtocol.handleInput, hsend]

/-- Less than a payload of the own stream waits for more. -/
theorem read_outbound_short (h : party.Wired) {data : Bytes}
    (hlen : (party.view.back ++ data).length < pingPayloadLen) (nowMs : UInt64) : ∃ ping,
      party.read party.outbound data nowMs = party.turn ping ∧ (party.turn ping).Wired ∧
        (party.turn ping).view = { party.view with back := party.view.back ++ data } := by
  have hdata := PingProtocol.onStreamData_short h.known (.inl h.outbound) hlen nowMs
  obtain ⟨hwired, hview⟩ := h.turn ((party.ping.setPeer party.peer
      (party.state.keep party.outbound (party.view.back ++ data))).pushActions [])
    (party.state.keep party.outbound (party.view.back ++ data)) [] []
    Std.ExtTreeMap.getElem?_insert_self rfl rfl rfl (by simp) (List.append_nil _).symm (by simp)
  refine ⟨_, ?_, hwired, ?_⟩
  · rw [read, PingProtocol.handleInput, hdata]
    rfl
  · rw [hview, PeerPingState.received_keep, PeerPingState.received_keep_of_ne h.distinct.symm]
    simp [view, PeerPingState.keep]

/-- The last byte of an echo ends the round trip. -/
theorem read_outbound_full (h : party.Wired) {data : Bytes} {pending : PendingPing}
    (hpending : party.view.pending = some pending)
    (hbuf : party.view.back ++ data = pending.payload.toList) (nowMs : UInt64) : ∃ ping,
      party.read party.outbound data nowMs = party.turn ping ∧ (party.turn ping).Wired ∧
        (party.turn ping).view = { party.view with
          pending := none
          back := []
          rtts := party.view.rtts ++ [saturatingSub nowMs pending.sentAtMs] } := by
  have hdata := PingProtocol.onStreamData_full h.known (.inl h.outbound) hbuf nowMs
  have hprocess : (party.ping.setPeer party.peer (party.state.drop party.outbound)
      ).processCompletePayload party.peer (party.state.drop party.outbound) party.outbound
        pending.payload nowMs =
      (((party.ping.setPeer party.peer (party.state.drop party.outbound)).setPeer party.peer
        ((party.state.drop party.outbound).await none)).pushEvent
          (.rttMeasured party.peer party.outbound (saturatingSub nowMs pending.sentAtMs)), []) := by
    have hstate : (party.state.drop party.outbound).pendingPing = some pending := hpending
    have houtbound : (party.state.drop party.outbound).outboundStream = some party.outbound :=
      h.outbound
    rw [PingProtocol.processCompletePayload, if_pos houtbound]
    simp only [hstate, ne_eq, not_true_eq_false, if_false]
    rfl
  obtain ⟨hwired, hview⟩ := h.turn
    ((((party.ping.setPeer party.peer (party.state.drop party.outbound)).setPeer party.peer
      ((party.state.drop party.outbound).await none)).pushEvent
        (.rttMeasured party.peer party.outbound (saturatingSub nowMs pending.sentAtMs))
      ).pushActions [])
    ((party.state.drop party.outbound).await none) []
    [.rttMeasured party.peer party.outbound (saturatingSub nowMs pending.sentAtMs)]
    Std.ExtTreeMap.getElem?_insert_self rfl rfl rfl (by simp) rfl (by simp [PingEvent.Honest])
  refine ⟨_, ?_, hwired, ?_⟩
  · rw [read, PingProtocol.handleInput, hdata, hprocess]
    rfl
  · rw [hview, PeerPingState.received_await, PeerPingState.received_await,
      PeerPingState.received_drop, PeerPingState.received_drop_of_ne h.distinct.symm]
    simp [view, rttOf, PeerPingState.await]

/-- Less than a payload of the other side's stream waits for more. -/
theorem read_inbound_short (h : party.Wired) {data : Bytes}
    (hlen : (party.view.got ++ data).length < pingPayloadLen) (nowMs : UInt64) : ∃ ping,
      party.read party.inbound data nowMs = party.turn ping ∧ (party.turn ping).Wired ∧
        (party.turn ping).view = { party.view with got := party.view.got ++ data } := by
  have hdata := PingProtocol.onStreamData_short h.known (.inr h.inbound) hlen nowMs
  obtain ⟨hwired, hview⟩ := h.turn ((party.ping.setPeer party.peer
      (party.state.keep party.inbound (party.view.got ++ data))).pushActions [])
    (party.state.keep party.inbound (party.view.got ++ data)) [] []
    Std.ExtTreeMap.getElem?_insert_self rfl rfl rfl (by simp) (List.append_nil _).symm (by simp)
  refine ⟨_, ?_, hwired, ?_⟩
  · rw [read, PingProtocol.handleInput, hdata]
    rfl
  · rw [hview, PeerPingState.received_keep, PeerPingState.received_keep_of_ne h.distinct]
    simp [view, PeerPingState.keep]

/-- A whole ping is echoed. -/
theorem read_inbound_full (h : party.Wired) {data : Bytes} {payload : Payload}
    (hbuf : party.view.got ++ data = payload.toList) (nowMs : UInt64) : ∃ ping,
      party.read party.inbound data nowMs = party.turn ping ∧ (party.turn ping).Wired ∧
        (party.turn ping).view = { party.view with
          got := []
          toEcho := party.view.toEcho ++ [payload] } := by
  have hdata := PingProtocol.onStreamData_full h.known (.inr h.inbound) hbuf nowMs
  have hprocess : (party.ping.setPeer party.peer (party.state.drop party.inbound)
      ).processCompletePayload party.peer (party.state.drop party.inbound) party.inbound payload
        nowMs = (party.ping.setPeer party.peer (party.state.drop party.inbound),
          [.send party.peer party.inbound payload]) := by
    have hne : (party.state.drop party.inbound).outboundStream ≠ some party.inbound := by
      intro heq
      exact h.distinct (Option.some.inj (h.outbound.symm.trans heq))
    rw [PingProtocol.processCompletePayload, if_neg hne]
    exact if_pos h.inbound
  obtain ⟨hwired, hview⟩ := h.turn
    ((party.ping.setPeer party.peer (party.state.drop party.inbound)).pushActions
      [.send party.peer party.inbound payload])
    (party.state.drop party.inbound) [.send party.peer party.inbound payload] []
    Std.ExtTreeMap.getElem?_insert_self rfl rfl rfl (by simp) (List.append_nil _).symm (by simp)
  refine ⟨_, ?_, hwired, ?_⟩
  · rw [read, PingProtocol.handleInput, hdata, hprocess]
    rfl
  · rw [hview, PeerPingState.received_drop, PeerPingState.received_drop_of_ne h.distinct]
    simp [view, PingAction.sendsOn, h.distinct.symm, PeerPingState.drop]

/-- What a poll hands out. -/
inductive Polls (party : Party) : PingProtocol × Option PingOutput → Prop
  | nothing : Polls party (party.ping, none)
  | event {ping : PingProtocol} {event : PingEvent}
    (hwired : (party.handOut ping (.event event)).Wired)
    (hview : (party.handOut ping (.event event)).view = party.view) :
    Polls party (ping, some (.event event))
  | ping {ping : PingProtocol} {data : Payload} {rest : List Payload}
    (hwired : (party.handOut ping (.action (.send party.peer party.outbound data))).Wired)
    (hqueue : party.view.toPing = data :: rest)
    (hview : (party.handOut ping (.action (.send party.peer party.outbound data))).view =
      { party.view with toPing := rest }) :
    Polls party (ping, some (.action (.send party.peer party.outbound data)))
  | echo {ping : PingProtocol} {data : Payload} {rest : List Payload}
    (hwired : (party.handOut ping (.action (.send party.peer party.inbound data))).Wired)
    (hqueue : party.view.toEcho = data :: rest)
    (hview : (party.handOut ping (.action (.send party.peer party.inbound data))).view =
      { party.view with toEcho := rest }) :
    Polls party (ping, some (.action (.send party.peer party.inbound data)))

/-- Handing out an output that was queued changes no more than the queue. -/
theorem Wired.handOut (h : party.Wired) (ping : PingProtocol) (output : PingOutput)
    (hpeers : ping.peers = party.ping.peers)
    (hactions : ping.pendingActions <:+ party.ping.pendingActions)
    (hevents : (party.handOut ping output).events = party.events) :
    (party.handOut ping output).Wired ∧ (party.handOut ping output).view = { party.view with
      toPing := ping.pendingActions.filterMap (PingAction.sendsOn party.outbound)
      toEcho := ping.pendingActions.filterMap (PingAction.sendsOn party.inbound) } := by
  have hstate : (party.handOut ping output).state = party.state := by
    show (ping.peers[party.peer]?).getD default = _
    rw [hpeers]
    rfl
  constructor
  · constructor
    · rw [hstate, ← h.known]
      exact congrArg (·[party.peer]?) hpeers
    · rw [hstate]
      exact h.outbound
    · rw [hstate]
      exact h.inbound
    · exact h.distinct
    · intro action haction
      exact h.actions action (hactions.subset haction)
    · rw [hevents]
      exact h.events
  · have hrtts : (party.handOut ping output).rtts = party.rtts :=
      congrArg (List.filterMap (rttOf party.peer)) hevents
    rw [view, hstate, hrtts]
    rfl

/-- A party polls its own machine. -/
theorem Wired.polls (h : party.Wired) : party.Polls party.ping.pollOutput := by
  rw [PingProtocol.pollOutput]
  cases hactions : party.ping.pendingActions with
  | cons action actions =>
    obtain ⟨hwired, hview⟩ := h.handOut { party.ping with pendingActions := actions }
      (.action action) rfl (by rw [hactions]; exact List.suffix_cons _ _)
      (by simp [Party.events, Party.handOut])
    obtain ⟨streamId, data, rfl, rfl | rfl⟩ :=
      h.actions action (by rw [hactions]; exact List.mem_cons_self)
    · have hqueue : party.view.toPing =
          data :: actions.filterMap (PingAction.sendsOn party.outbound) := by
        simp [view, hactions, PingAction.sendsOn]
      refine .ping hwired hqueue ?_
      rw [hview]
      simp [view, hactions, PingAction.sendsOn, h.distinct]
    · have hqueue : party.view.toEcho =
          data :: actions.filterMap (PingAction.sendsOn party.inbound) := by
        simp [view, hactions, PingAction.sendsOn]
      refine .echo hwired hqueue ?_
      rw [hview]
      simp [view, hactions, PingAction.sendsOn, h.distinct.symm]
  | nil =>
    cases hevents : party.ping.pendingEvents with
    | nil => exact .nothing
    | cons event events =>
      obtain ⟨hwired, hview⟩ := h.handOut
        { party.ping with pendingEvents := events, pendingActions := [] } (.event event) rfl
        (List.nil_suffix) (by simp [Party.events, Party.handOut, hevents])
      refine .event hwired ?_
      rw [hview]
      simp [view, hactions]

end Party

end Minip2p.Ping
