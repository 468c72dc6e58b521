import Mathlib.Data.List.Induction
import Minip2p.Core.SansIo
import Minip2p.Ping.Party

/-!
# One peer of the ping machine

A call that does not migrate a peer treats every peer on its own. `Move` says what an input does to
the state of one peer, with the events and the actions it adds for that peer, and `move` that this
is all that happens to any peer.
-/

namespace Minip2p.Ping

open SansIoProtocol (Call)

/-- The peer an event is about. -/
def PingEvent.peerId : PingEvent → PeerId
  | outboundStreamRegistered peerId _ | inboundStreamAccepted peerId _ | rttMeasured peerId _ _
  | timeout peerId _ _ | outboundStreamClosed peerId _ | streamLimitExceeded peerId _ _
  | protocolViolation peerId _ _ => peerId

/-- The input renames a peer. -/
def PingInput.IsMigration : PingInput → Prop
  | migratePeer _ _ => True
  | _ => False

/-- What an input does to the state of the peer `p`: the state after it, and the events and the
actions it adds for `p`. -/
inductive Move (timeoutMs : UInt64) (p : PeerId) (state : PeerPingState) :
    PingInput → PeerPingState → List PingEvent → List PingAction → Prop
  | other {input : PingInput} {q : PeerId} (hpeer : input.peer? = some q) (hne : q ≠ p) :
    Move timeoutMs p state input state [] []
  | outboundExists {s t : StreamId} (h : state.outboundStream = some t) :
    Move timeoutMs p state (.registerOutboundStream p s) state [] []
  | registerOutbound {s : StreamId} (h : state.outboundStream = none) :
    Move timeoutMs p state (.registerOutboundStream p s)
      { state with outboundStream := some s } [.outboundStreamRegistered p s] []
  | inboundExists {s : StreamId} (h : state.inboundStreams.contains s) :
    Move timeoutMs p state (.registerInboundStream p s) state [] []
  | limitExceeded {s : StreamId} (h : ¬ state.inboundStreams.contains s)
      (hsize : state.inboundStreams.size ≥ 2) :
    Move timeoutMs p state (.registerInboundStream p s) state
      [.streamLimitExceeded p s 2] [.resetStream p s]
  | registerInbound {s : StreamId} (h : ¬ state.inboundStreams.contains s)
      (hsize : ¬ state.inboundStreams.size ≥ 2) :
    Move timeoutMs p state (.registerInboundStream p s)
      { state with inboundStreams := state.inboundStreams.insert s }
      [.inboundStreamAccepted p s] []
  | refusePing {payload : Payload} {nowMs : UInt64}
      (h : state.outboundStream = none ∨ state.pendingPing.isSome) :
    Move timeoutMs p state (.sendPing p payload nowMs) state [] []
  | sendPing {s : StreamId} {payload : Payload} {nowMs : UInt64}
      (h : state.outboundStream = some s) (hfree : state.pendingPing = none) :
    Move timeoutMs p state (.sendPing p payload nowMs) (state.await (some ⟨payload, nowMs⟩))
      [] [.send p s payload]
  | refuseClose (h : state.outboundStream = none ∨ state.pendingPing.isSome) :
    Move timeoutMs p state (.closeOutboundStreamWrite p) state [] []
  | closeOutbound {s : StreamId} (h : state.outboundStream = some s)
      (hfree : state.pendingPing = none) :
    Move timeoutMs p state (.closeOutboundStreamWrite p) state [] [.closeStreamWrite p s]
  | unknownStream {s : StreamId} {data : Bytes} {nowMs : UInt64} (reason : String)
      (h : ¬ state.Knows s) :
    Move timeoutMs p state (.streamData p s data nowMs) state
      [.protocolViolation p s reason] [.resetStream p s]
  | oversize {s : StreamId} {data : Bytes} {nowMs : UInt64} (reason : String) (h : state.Knows s)
      (hlen : (state.received s ++ data).length > pingPayloadLen) :
    Move timeoutMs p state (.streamData p s data nowMs) (state.drop s)
      [.protocolViolation p s reason] [.resetStream p s]
  | keep {s : StreamId} {data : Bytes} {nowMs : UInt64} (h : state.Knows s)
      (hlen : (state.received s ++ data).length < pingPayloadLen) :
    Move timeoutMs p state (.streamData p s data nowMs)
      (state.keep s (state.received s ++ data)) [] []
  | mismatch {s : StreamId} {data : Bytes} {nowMs : UInt64} {payload : Payload} (reason : String)
      (h : state.outboundStream = some s) (hbuf : state.received s ++ data = payload.toList)
      (hpending : ∀ pending ∈ state.pendingPing, pending.payload ≠ payload) :
    Move timeoutMs p state (.streamData p s data nowMs) ((state.drop s).await none)
      [.protocolViolation p s reason] [.resetStream p s]
  | rtt {s : StreamId} {data : Bytes} {nowMs : UInt64} {pending : PendingPing}
      (h : state.outboundStream = some s)
      (hbuf : state.received s ++ data = pending.payload.toList)
      (hpending : state.pendingPing = some pending) :
    Move timeoutMs p state (.streamData p s data nowMs) ((state.drop s).await none)
      [.rttMeasured p s (saturatingSub nowMs pending.sentAtMs)] []
  | echo {s : StreamId} {data : Bytes} {nowMs : UInt64} {payload : Payload}
      (h : state.outboundStream ≠ some s) (hin : state.inboundStreams.contains s)
      (hbuf : state.received s ++ data = payload.toList) :
    Move timeoutMs p state (.streamData p s data nowMs) (state.drop s) [] [.send p s payload]
  | inboundEnded {s : StreamId} (h : state.inboundStreams.contains s) :
    Move timeoutMs p state (.streamRemoteWriteClosed p s)
      { state with
        inboundStreams := state.inboundStreams.erase s
        recvBufs := state.recvBufs.erase s } [] []
  | outboundInterrupted {s : StreamId} (reason : String) (hin : ¬ state.inboundStreams.contains s)
      (h : state.outboundStream = some s) (hpending : state.pendingPing.isSome) :
    Move timeoutMs p state (.streamRemoteWriteClosed p s)
      { state with
        outboundStream := none
        pendingPing := none
        recvBufs := state.recvBufs.erase s }
      [.protocolViolation p s reason] [.resetStream p s]
  | outboundEnded {s : StreamId} (hin : ¬ state.inboundStreams.contains s)
      (h : state.outboundStream = some s) (hfree : state.pendingPing = none) :
    Move timeoutMs p state (.streamRemoteWriteClosed p s)
      { state with
        outboundStream := none
        pendingPing := none
        recvBufs := state.recvBufs.erase s }
      [.outboundStreamClosed p s] []
  | unknownEnded {s : StreamId} (h : ¬ state.Knows s) :
    Move timeoutMs p state (.streamRemoteWriteClosed p s) state [] []
  | outboundClosed {s : StreamId} (h : state.outboundStream = some s) :
    Move timeoutMs p state (.streamClosed p s)
      { outboundStream := none
        inboundStreams := state.inboundStreams.erase s
        pendingPing := none
        recvBufs := state.recvBufs.erase s } [] []
  | otherClosed {s : StreamId} (h : state.outboundStream ≠ some s) :
    Move timeoutMs p state (.streamClosed p s)
      { state with
        inboundStreams := state.inboundStreams.erase s
        recvBufs := state.recvBufs.erase s } [] []
  | removed : Move timeoutMs p state (.removePeer p) default [] []
  | timedOut {s : StreamId} {nowMs : UInt64} {pending : PendingPing}
      (h : state.outboundStream = some s) (hpending : state.pendingPing = some pending)
      (helapsed : saturatingSub nowMs pending.sentAtMs > timeoutMs) :
    Move timeoutMs p state (.tick nowMs)
      { state with
        outboundStream := none
        pendingPing := none
        recvBufs := state.recvBufs.erase s }
      [.timeout p s timeoutMs, .outboundStreamClosed p s] [.resetStream p s]
  | inTime {nowMs : UInt64}
      (h : state.outboundStream = none ∨ ∀ pending ∈ state.pendingPing,
        ¬ saturatingSub nowMs pending.sentAtMs > timeoutMs) :
    Move timeoutMs p state (.tick nowMs) state [] []

namespace Move

variable {timeoutMs : UInt64} {p : PeerId} {state state' : PeerPingState} {input : PingInput}
  {events : List PingEvent} {actions : List PingAction}

/-- The events of a move are about its peer. -/
theorem events_peerId (h : Move timeoutMs p state input state' events actions) :
    ∀ event ∈ events, event.peerId = p := by
  cases h <;> simp [PingEvent.peerId]

/-- The actions of a move are for its peer. -/
theorem actions_peerId (h : Move timeoutMs p state input state' events actions) :
    ∀ action ∈ actions, action.peerId = p := by
  cases h <;> simp [PingAction.peerId]

end Move

namespace PingProtocol

/-! ## Runs -/

/-- The machine after a call. -/
def after (ping : PingProtocol) : Call PingInput → PingProtocol
  | .handleInput input => (ping.handleInput input).1
  | .pollOutput => ping.pollOutput.1

/-- A new machine after a sequence of calls. -/
def run (config : PingConfig) (calls : List (Call PingInput)) : PingProtocol :=
  calls.foldl after (new config)

/-- The events a call adds. -/
def newEvents (ping : PingProtocol) (call : Call PingInput) : List PingEvent :=
  (ping.after call).pendingEvents.drop ping.pendingEvents.length

/-- The actions a call adds. -/
def newActions (ping : PingProtocol) (call : Call PingInput) : List PingAction :=
  (ping.after call).pendingActions.drop ping.pendingActions.length

@[simp] theorem run_nil (config : PingConfig) : run config [] = new config := rfl

/-- A run, and one call more. -/
@[simp] theorem run_concat (config : PingConfig) (calls : List (Call PingInput))
    (call : Call PingInput) : run config (calls ++ [call]) = (run config calls).after call := by
  rw [run, List.foldl_append]
  rfl

/-! ## One peer -/

variable {ping ping' : PingProtocol} {p q : PeerId} {state : PeerPingState}

/-- The state of a peer that is known. -/
theorem peerState_of_some (h : ping.peers[p]? = some state) : ping.peerState p = state := by
  rw [peerState, h]
  rfl

/-- The state of a peer that is not known. -/
theorem peerState_of_none (h : ping.peers[p]? = none) : ping.peerState p = default := by
  rw [peerState, h]
  rfl

/-- The state that was set. -/
@[simp] theorem peerState_setPeer_self : (ping.setPeer p state).peerState p = state :=
  peerState_of_some Std.ExtTreeMap.getElem?_insert_self

/-- The states of other peers are kept. -/
theorem peerState_setPeer_of_ne (h : q ≠ p) :
    (ping.setPeer p state).peerState q = ping.peerState q := by
  rw [peerState, setPeer, BTreeMap.getElem?_insert_of_ne h]
  rfl

/-- A step that only concerns `p`, with the state it leaves and what it adds. -/
structure Turn (ping ping' : PingProtocol) (p : PeerId) (state : PeerPingState)
    (events : List PingEvent) (actions : List PingAction) : Prop where
  state : ping'.peerState p = state
  others : ∀ q, q ≠ p → ping'.peerState q = ping.peerState q
  events : ping'.pendingEvents = ping.pendingEvents ++ events
  actions : ping'.pendingActions = ping.pendingActions ++ actions
  config : ping'.config = ping.config

namespace Turn

variable {events : List PingEvent} {actions : List PingAction}

/-- Nothing has happened. -/
theorem refl : Turn ping ping p (ping.peerState p) [] [] :=
  ⟨rfl, fun _ _ => rfl, (List.append_nil _).symm, (List.append_nil _).symm, rfl⟩

/-- The state of the peer is set last. -/
theorem setPeer (h : Turn ping ping' p state events actions) (state' : PeerPingState) :
    Turn ping (ping'.setPeer p state') p state' events actions where
  state := peerState_setPeer_self
  others q hq := (peerState_setPeer_of_ne hq).trans (h.others q hq)
  events := h.events
  actions := h.actions
  config := h.config

/-- An event is queued last. -/
theorem pushEvent (h : Turn ping ping' p state events actions) (event : PingEvent) :
    Turn ping (ping'.pushEvent event) p state (events ++ [event]) actions where
  state := h.state
  others := h.others
  events := by rw [PingProtocol.pushEvent, h.events, List.append_assoc]
  actions := h.actions
  config := h.config

/-- Actions are queued last. -/
theorem pushActions (h : Turn ping ping' p state events actions) (more : List PingAction) :
    Turn ping (ping'.pushActions more) p state events (actions ++ more) where
  state := h.state
  others := h.others
  events := h.events
  actions := by rw [PingProtocol.pushActions, h.actions, List.append_assoc]
  config := h.config

/-- The end of a call that only returned actions. -/
theorem extend {result : PingProtocol × List PingAction}
    (h : Turn ping result.1 p state events []) :
    Turn ping (PingProtocol.extend result).1 p state events result.2 := h.pushActions result.2

end Turn

/-- What an input about `p` does. -/
def Moves (ping ping' : PingProtocol) (p : PeerId) (input : PingInput) : Prop :=
  ∃ state events actions, Turn ping ping' p state events actions ∧
    Move ping.config.requestTimeoutMs p (ping.peerState p) input state events actions

/-- Registering an outbound stream is a move. -/
theorem moves_registerOutboundStream (ping : PingProtocol) (p : PeerId) (s : StreamId) :
    Moves ping (ping.handleInput (.registerOutboundStream p s)).1 p
      (.registerOutboundStream p s) := by
  rw [handleInput, registerOutboundStream]
  split
  · next t ht =>
    split
    · exact ⟨_, _, _, Turn.refl.setPeer _, .outboundExists ht⟩
    · exact ⟨_, _, _, Turn.refl.setPeer _, .outboundExists ht⟩
  · next ht => exact ⟨_, _, _, (Turn.refl.setPeer _).pushEvent _, .registerOutbound ht⟩

/-- Registering an inbound stream is a move. -/
theorem moves_registerInboundStream (ping : PingProtocol) (p : PeerId) (s : StreamId) :
    Moves ping (ping.handleInput (.registerInboundStream p s)).1 p
      (.registerInboundStream p s) := by
  rw [handleInput, registerInboundStream]
  split
  · next hin => exact ⟨_, _, _, (Turn.refl.setPeer _).pushActions _, .inboundExists hin⟩
  · next hin =>
    split
    · next hsize =>
      exact ⟨_, _, _, ((Turn.refl.setPeer _).pushEvent _).pushActions _, .limitExceeded hin hsize⟩
    · next hsize =>
      exact ⟨_, _, _, ((Turn.refl.setPeer _).pushEvent _).pushActions _,
        .registerInbound hin hsize⟩

/-- Sending a ping is a move. -/
theorem moves_sendPing (ping : PingProtocol) (p : PeerId) (payload : Payload) (nowMs : UInt64) :
    Moves ping (ping.handleInput (.sendPing p payload nowMs)).1 p (.sendPing p payload nowMs) := by
  rw [handleInput, sendPing, dif_pos (Vector.length_toList ..)]
  cases hpeer : ping.peers[p]? with
  | none => exact ⟨_, _, _, Turn.refl, .refusePing (.inl (by rw [peerState_of_none hpeer]; rfl))⟩
  | some peer =>
    have hstate := peerState_of_some hpeer
    dsimp only
    cases hs : peer.outboundStream with
    | none => exact ⟨_, _, _, Turn.refl, .refusePing (.inl (by rw [hstate, hs]))⟩
    | some s =>
      dsimp only
      by_cases hbusy : peer.pendingPing.isSome = true
      · rw [if_pos hbusy]
        exact ⟨_, _, _, Turn.refl, .refusePing (.inr (by rw [hstate, hbusy]))⟩
      · rw [if_neg hbusy]
        refine ⟨_, _, _, (Turn.refl.setPeer _).pushActions _, ?_⟩
        rw [hstate, ← hs]
        exact .sendPing hs (Option.not_isSome_iff_eq_none.mp hbusy)

/-- Closing the outbound stream is a move. -/
theorem moves_closeOutboundStreamWrite (ping : PingProtocol) (p : PeerId) :
    Moves ping (ping.handleInput (.closeOutboundStreamWrite p)).1 p
      (.closeOutboundStreamWrite p) := by
  rw [handleInput, closeOutboundStreamWrite]
  cases hpeer : ping.peers[p]? with
  | none => exact ⟨_, _, _, Turn.refl, .refuseClose (.inl (by rw [peerState_of_none hpeer]; rfl))⟩
  | some peer =>
    have hstate := peerState_of_some hpeer
    dsimp only
    cases hs : peer.outboundStream with
    | none => exact ⟨_, _, _, Turn.refl, .refuseClose (.inl (by rw [hstate, hs]))⟩
    | some s =>
      dsimp only
      by_cases hbusy : peer.pendingPing.isSome = true
      · rw [if_pos hbusy]
        exact ⟨_, _, _, Turn.refl, .refuseClose (.inr (by rw [hstate, hbusy]))⟩
      · rw [if_neg hbusy]
        exact ⟨_, _, _, Turn.refl.pushActions _, .closeOutbound (by rw [hstate, hs])
          (by rw [hstate, Option.not_isSome_iff_eq_none.mp hbusy])⟩

/-- A new peer has no streams. -/
theorem not_knows_default (s : StreamId) : ¬ (default : PeerPingState).Knows s := by
  rintro (h | h)
  · cases h
  · rw [show (default : PeerPingState).inboundStreams = ∅ from rfl] at h
    simp at h

theorem knows_iff {s : StreamId} : state.Knows s ↔
    ¬ (state.outboundStream ≠ some s ∧ ¬ state.inboundStreams.contains s) := by
  rw [PeerPingState.Knows]
  tauto

/-- More than a payload is dropped. -/
theorem onStreamData_long {s : StreamId} {data : Bytes} (hstate : ping.peers[p]? = some state)
    (hknown : state.Knows s) (hlen : (state.received s ++ data).length > pingPayloadLen)
    (nowMs : UInt64) : ∃ reason, ping.onStreamData p s data nowMs =
      (ping.setPeer p (state.drop s)).protocolViolation p s reason := by
  rw [PeerPingState.received] at hlen
  simp only [onStreamData, hstate]
  rw [if_neg (knows_iff.mp hknown), dif_pos hlen]
  exact ⟨_, rfl⟩

/-- Data on a stream is a move. -/
theorem moves_streamData (ping : PingProtocol) (p : PeerId) (s : StreamId) (data : Bytes)
    (nowMs : UInt64) : Moves ping (ping.handleInput (.streamData p s data nowMs)).1 p
      (.streamData p s data nowMs) := by
  rw [handleInput]
  cases hpeer : ping.peers[p]? with
  | none =>
    refine ⟨_, _, _, ?_, .unknownStream "ping data on unknown stream" ?_⟩
    · simp only [onStreamData, hpeer]
      exact (Turn.refl.pushEvent _).extend
    · rw [peerState_of_none hpeer]
      exact not_knows_default s
  | some peer =>
    have hstate := peerState_of_some hpeer
    by_cases hknown : peer.Knows s
    · rcases Nat.lt_trichotomy (peer.received s ++ data).length pingPayloadLen with
        hlen | hlen | hlen
      · rw [onStreamData_short hpeer hknown hlen]
        refine ⟨_, _, _, (Turn.refl.setPeer _).extend, ?_⟩
        rw [hstate]
        exact .keep hknown hlen
      · have hbuf : peer.received s ++ data =
            (⟨(peer.received s ++ data).toArray, hlen⟩ : Payload).toList := rfl
        rw [onStreamData_full hpeer hknown hbuf, processCompletePayload]
        split
        · next hout =>
          split
          · next hnone =>
            refine ⟨_, _, _, (((Turn.refl.setPeer _).setPeer _).pushEvent _).extend, ?_⟩
            rw [hstate]
            refine .mismatch _ hout hbuf ?_
            intro pending hsome
            rw [show peer.pendingPing = none from hnone] at hsome
            cases hsome
          · next pending hsome =>
            split
            · next hne =>
              refine ⟨_, _, _, (((Turn.refl.setPeer _).setPeer _).pushEvent _).extend, ?_⟩
              rw [hstate]
              refine .mismatch _ hout hbuf ?_
              intro pending' hsome'
              obtain rfl := Option.some.inj (hsome.symm.trans hsome')
              exact hne
            · next heq =>
              refine ⟨_, _, _, (((Turn.refl.setPeer _).setPeer _).pushEvent _).extend, ?_⟩
              rw [hstate]
              refine .rtt hout ?_ hsome
              rw [hbuf, not_not.mp heq]
        · next hout =>
          have hin : (peer.drop s).inboundStreams.contains s := hknown.resolve_left hout
          rw [if_pos hin]
          refine ⟨_, _, _, (Turn.refl.setPeer _).extend, ?_⟩
          rw [hstate]
          exact .echo hout hin hbuf
      · obtain ⟨reason, hlong⟩ := onStreamData_long hpeer hknown hlen nowMs
        rw [hlong]
        refine ⟨_, _, _, ((Turn.refl.setPeer _).pushEvent _).extend, ?_⟩
        rw [hstate]
        exact .oversize reason hknown hlen
    · refine ⟨_, _, _, ?_, .unknownStream "ping data on unknown stream" ?_⟩
      · simp only [onStreamData, hpeer]
        rw [if_pos (not_not.mp (mt knows_iff.mpr hknown))]
        exact (Turn.refl.pushEvent _).extend
      · rwa [hstate]

/-- A half-close is a move. -/
theorem moves_streamRemoteWriteClosed (ping : PingProtocol) (p : PeerId) (s : StreamId) :
    Moves ping (ping.handleInput (.streamRemoteWriteClosed p s)).1 p
      (.streamRemoteWriteClosed p s) := by
  rw [handleInput, onStreamRemoteWriteClosed]
  cases hpeer : ping.peers[p]? with
  | none =>
    refine ⟨_, _, _, Turn.refl.pushActions _, .unknownEnded ?_⟩
    rw [peerState_of_none hpeer]
    exact not_knows_default s
  | some peer =>
    have hstate := peerState_of_some hpeer
    dsimp only
    split
    · next hin =>
      refine ⟨_, _, _, (Turn.refl.setPeer _).extend, ?_⟩
      rw [hstate]
      exact .inboundEnded hin
    · next hin =>
      split
      · next hout =>
        split
        · next hbusy =>
          refine ⟨_, _, _, ((Turn.refl.setPeer _).pushEvent _).extend, ?_⟩
          rw [hstate]
          exact .outboundInterrupted _ hin hout hbusy
        · next hfree =>
          refine ⟨_, _, _, ((Turn.refl.setPeer _).pushEvent _).extend, ?_⟩
          rw [hstate]
          exact .outboundEnded hin hout (Option.not_isSome_iff_eq_none.mp hfree)
      · next hout =>
        refine ⟨_, _, _, Turn.refl.pushActions _, .unknownEnded ?_⟩
        rw [hstate]
        rintro (h | h)
        · exact hout h
        · exact hin h

/-- The end of a stream is a move. -/
theorem moves_streamClosed (ping : PingProtocol) (p : PeerId) (s : StreamId) :
    Moves ping (ping.handleInput (.streamClosed p s)).1 p (.streamClosed p s) := by
  rw [handleInput, onStreamClosed]
  cases hpeer : ping.peers[p]? with
  | none =>
    have hstate := peerState_of_none hpeer
    refine ⟨_, _, _, Turn.refl, ?_⟩
    rw [hstate]
    exact .otherClosed (by rw [show (default : PeerPingState).outboundStream = none from rfl]; simp)
  | some peer =>
    have hstate := peerState_of_some hpeer
    dsimp only
    split
    · next hout =>
      refine ⟨_, _, _, Turn.refl.setPeer _, ?_⟩
      rw [hstate]
      exact .outboundClosed hout
    · next hout =>
      refine ⟨_, _, _, Turn.refl.setPeer _, ?_⟩
      rw [hstate]
      exact .otherClosed hout

/-- Forgetting a peer is a move. -/
theorem moves_removePeer (ping : PingProtocol) (p : PeerId) :
    Moves ping (ping.handleInput (.removePeer p)).1 p (.removePeer p) := by
  refine ⟨default, [], [], ⟨?_, ?_, (List.append_nil _).symm, (List.append_nil _).symm, rfl⟩,
    .removed⟩
  · refine peerState_of_none ?_
    exact BTreeMap.getElem?_erase_eq_none_iff.mpr (.inl rfl)
  · intro q hq
    rw [peerState, peerState, handleInput, removePeer, BTreeMap.getElem?_erase_of_ne hq]

/-- An input moves the peer it is about. -/
theorem moves_of_peer (ping : PingProtocol) {input : PingInput} (hp : input.peer? = some p) :
    Moves ping (ping.handleInput input).1 p input := by
  cases input with
  | registerOutboundStream peerId streamId =>
    obtain rfl := Option.some.inj hp
    exact moves_registerOutboundStream ping peerId streamId
  | registerInboundStream peerId streamId =>
    obtain rfl := Option.some.inj hp
    exact moves_registerInboundStream ping peerId streamId
  | sendPing peerId payload nowMs =>
    obtain rfl := Option.some.inj hp
    exact moves_sendPing ping peerId payload nowMs
  | closeOutboundStreamWrite peerId =>
    obtain rfl := Option.some.inj hp
    exact moves_closeOutboundStreamWrite ping peerId
  | streamData peerId streamId data nowMs =>
    obtain rfl := Option.some.inj hp
    exact moves_streamData ping peerId streamId data nowMs
  | streamRemoteWriteClosed peerId streamId =>
    obtain rfl := Option.some.inj hp
    exact moves_streamRemoteWriteClosed ping peerId streamId
  | streamClosed peerId streamId =>
    obtain rfl := Option.some.inj hp
    exact moves_streamClosed ping peerId streamId
  | removePeer peerId =>
    obtain rfl := Option.some.inj hp
    exact moves_removePeer ping peerId
  | migratePeer old new => cases hp
  | tick nowMs => cases hp

/-! ## Ticks -/

section Tick

variable {nowMs : UInt64} {actions : List PingAction} {peer : PeerPingState}

/-- A turn of the loop leaves a peer in time alone, and gives up the stream of any other. -/
theorem tickPeer_cases (nowMs : UInt64) (ping : PingProtocol) (actions : List PingAction)
    (q : PeerId) (peer : PeerPingState) :
    (tickPeer nowMs (ping, actions) (q, peer) = (ping, actions) ∧
      (peer.outboundStream = none ∨ ∀ pending ∈ peer.pendingPing,
        ¬ saturatingSub nowMs pending.sentAtMs > ping.config.requestTimeoutMs)) ∨
    ∃ s pending, peer.outboundStream = some s ∧ peer.pendingPing = some pending ∧
      saturatingSub nowMs pending.sentAtMs > ping.config.requestTimeoutMs ∧
      tickPeer nowMs (ping, actions) (q, peer) =
        (((ping.setPeer q { peer with
            outboundStream := none
            pendingPing := none
            recvBufs := peer.recvBufs.erase s }).pushEvent
              (.timeout q s ping.config.requestTimeoutMs)).pushEvent (.outboundStreamClosed q s),
          actions ++ [.resetStream q s]) := by
  rw [tickPeer]
  dsimp only
  split
  · next s pending hout hpending =>
    split
    · next helapsed => exact .inr ⟨s, pending, hout, hpending, helapsed, rfl⟩
    · next hin =>
      refine .inl ⟨rfl, .inr ?_⟩
      intro pending' hpending'
      obtain rfl := Option.some.inj (hpending.symm.trans hpending')
      exact hin
  · next hnone =>
    refine .inl ⟨rfl, ?_⟩
    cases hout : peer.outboundStream with
    | none => exact .inl rfl
    | some s => exact .inr fun pending hpending => (hnone s pending hout hpending).elim

/-- Time does not change the configuration. -/
theorem config_onTick (ping : PingProtocol) (nowMs : UInt64) :
    (ping.onTick nowMs).1.config = ping.config := by
  have hfold : ∀ (entries : List (PeerId × PeerPingState))
      (result : PingProtocol × List PingAction),
      (entries.foldl (tickPeer nowMs) result).1.config = result.1.config := by
    intro entries
    induction entries with
    | nil => exact fun _ => rfl
    | cons entry entries ih =>
      rintro ⟨ping', acts⟩
      rw [List.foldl_cons, ih]
      rcases tickPeer_cases nowMs ping' acts entry.1 entry.2 with ⟨heq, -⟩ | ⟨s, _, -, -, -, heq⟩
      · exact congrArg (·.1.config) heq
      · exact congrArg (·.1.config) heq
  exact hfold _ _

/-- What the loop of a tick of `ping` did to the peer `p` so far. -/
structure Ticked (ping : PingProtocol) (p : PeerId) (result : PingProtocol × List PingAction)
    (state : PeerPingState) (events : List PingEvent) (actions : List PingAction) : Prop where
  state : result.1.peerState p = state
  events : ∃ all, result.1.pendingEvents = ping.pendingEvents ++ all ∧
    all.filter (·.peerId = p) = events
  actions : result.2.filter (·.peerId = p) = actions
  queued : result.1.pendingActions = ping.pendingActions
  config : result.1.config = ping.config

variable {result : PingProtocol × List PingAction} {events : List PingEvent}

/-- The turns of other peers do nothing to this one. -/
theorem Ticked.foldl (h : Ticked ping p result state events actions)
    (entries : List (PeerId × PeerPingState)) (hp : ∀ entry ∈ entries, entry.1 ≠ p) :
    Ticked ping p (entries.foldl (tickPeer nowMs) result) state events actions := by
  induction entries generalizing result with
  | nil => exact h
  | cons entry entries ih =>
    obtain ⟨q, peer⟩ := entry
    refine ih ?_ fun entry hentry => hp entry (List.mem_cons_of_mem _ hentry)
    have hq : q ≠ p := hp _ List.mem_cons_self
    obtain ⟨ping', acts⟩ := result
    rcases tickPeer_cases nowMs ping' acts q peer with ⟨heq, -⟩ | ⟨s, pending, -, -, -, heq⟩
    · rwa [heq]
    · obtain ⟨all, hall, hfilter⟩ := h.events
      rw [heq]
      constructor
      · exact (peerState_setPeer_of_ne hq.symm).trans h.state
      · refine ⟨all ++ [.timeout q s ping'.config.requestTimeoutMs] ++ [.outboundStreamClosed q s],
          ?_, ?_⟩
        · rw [List.append_assoc all, ← List.append_assoc, ← hall, ← List.append_assoc]
          rfl
        · rw [List.filter_append, List.filter_append, hfilter]
          simp [PingEvent.peerId, hq]
      · rw [List.filter_append, h.actions]
        simp [PingAction.peerId, hq]
      · exact h.queued
      · exact h.config

/-- A tick treats every peer on its own. -/
theorem ticked_onTick (ping : PingProtocol) (p : PeerId) (nowMs : UInt64) :
    ∃ state events actions, Ticked ping p (ping.onTick nowMs) state events actions ∧
      Move ping.config.requestTimeoutMs p (ping.peerState p) (.tick nowMs) state events
        actions := by
  have hstart : Ticked ping p (ping, []) (ping.peerState p) [] [] :=
    ⟨rfl, ⟨[], (List.append_nil _).symm, rfl⟩, rfl, rfl, rfl⟩
  cases hpeer : ping.peers[p]? with
  | none =>
    refine ⟨_, _, _, hstart.foldl _ ?_, .inTime (.inl (by rw [peerState_of_none hpeer]; rfl))⟩
    rintro ⟨q, peer⟩ hentry rfl
    rw [Std.ExtTreeMap.mem_toList_iff_getElem?_eq_some] at hentry
    cases hpeer.symm.trans hentry
  | some peer =>
    obtain ⟨first, rest, hsplit⟩ := List.append_of_mem
      (Std.ExtTreeMap.mem_toList_iff_getElem?_eq_some.mpr hpeer)
    have hdistinct := Std.ExtTreeMap.distinct_keys_toList (t := ping.peers)
    rw [hsplit, List.pairwise_append, List.pairwise_cons] at hdistinct
    obtain ⟨-, ⟨hrest, -⟩, hfirst⟩ := hdistinct
    have hbefore : Ticked ping p (first.foldl (tickPeer nowMs) (ping, [])) (ping.peerState p)
        [] [] := by
      refine hstart.foldl _ ?_
      intro entry hentry heq
      exact hfirst entry hentry _ List.mem_cons_self (Std.compare_eq_iff_eq.mpr heq)
    have hafter : ∀ entry ∈ rest, entry.1 ≠ p := by
      intro entry hentry heq
      exact hrest entry hentry (Std.compare_eq_iff_eq.mpr heq.symm)
    rw [onTick, hsplit, List.foldl_append, List.foldl_cons]
    generalize first.foldl (tickPeer nowMs) (ping, []) = result at hbefore
    obtain ⟨ping', acts⟩ := result
    rw [peerState_of_some hpeer] at hbefore ⊢
    have hconfig : ping'.config = ping.config := hbefore.config
    rcases tickPeer_cases nowMs ping' acts p peer with
      ⟨heq, hin⟩ | ⟨s, pending, hout, hpending, helapsed, heq⟩
    · rw [heq]
      exact ⟨_, _, _, hbefore.foldl _ hafter, .inTime (hconfig ▸ hin)⟩
    · rw [heq]
      refine ⟨_, _, _, Ticked.foldl ?_ _ hafter, .timedOut hout hpending (hconfig ▸ helapsed)⟩
      obtain ⟨all, hall, hfilter⟩ := hbefore.events
      constructor
      · exact peerState_setPeer_self
      · refine ⟨all ++ [.timeout p s ping'.config.requestTimeoutMs] ++ [.outboundStreamClosed p s],
          ?_, ?_⟩
        · rw [List.append_assoc all, ← List.append_assoc, ← hall, ← List.append_assoc]
          rfl
        · rw [List.filter_append, List.filter_append, hfilter]
          simp [PingEvent.peerId, hconfig]
      · rw [List.filter_append, hbefore.actions]
        simp [PingAction.peerId]
      · exact hbefore.queued
      · exact hbefore.config

end Tick

/-! ## Every peer -/

/-- The events a call adds for a peer. -/
def newEventsFor (ping : PingProtocol) (p : PeerId) (call : Call PingInput) : List PingEvent :=
  (ping.newEvents call).filter (·.peerId = p)

/-- The actions a call adds for a peer. -/
def newActionsFor (ping : PingProtocol) (p : PeerId) (call : Call PingInput) : List PingAction :=
  (ping.newActions call).filter (·.peerId = p)

/-- An input that migrates no peer moves every peer. -/
theorem move (ping : PingProtocol) {input : PingInput} (hinput : ¬ input.IsMigration) (p : PeerId) :
    Move ping.config.requestTimeoutMs p (ping.peerState p) input
      ((ping.after (.handleInput input)).peerState p) (ping.newEventsFor p (.handleInput input))
      (ping.newActionsFor p (.handleInput input)) := by
  rw [newEventsFor, newActionsFor, newEvents, newActions, after]
  cases hpeer : input.peer? with
  | some q =>
    obtain ⟨state, events, actions, hturn, hmove⟩ := moves_of_peer ping hpeer
    rw [hturn.events, hturn.actions, List.drop_left, List.drop_left]
    by_cases hq : q = p
    · subst hq
      rw [hturn.state, List.filter_eq_self.mpr, List.filter_eq_self.mpr]
      · exact hmove
      · exact fun action haction => decide_eq_true (hmove.actions_peerId action haction)
      · exact fun event hevent => decide_eq_true (hmove.events_peerId event hevent)
    · rw [hturn.others p (Ne.symm hq), List.filter_eq_nil_iff.mpr, List.filter_eq_nil_iff.mpr]
      · exact .other hpeer hq
      · intro action haction
        rw [hmove.actions_peerId action haction]
        simpa using hq
      · intro event hevent
        rw [hmove.events_peerId event hevent]
        simpa using hq
  | none =>
    cases input with
    | tick nowMs =>
      obtain ⟨state, events, actions, hticked, hmove⟩ := ticked_onTick ping p nowMs
      obtain ⟨all, hall, hfilter⟩ := hticked.events
      have hactions : (ping.handleInput (.tick nowMs)).1.pendingActions =
          ping.pendingActions ++ (ping.onTick nowMs).2 := congrArg (· ++ _) hticked.queued
      have hevents : (ping.handleInput (.tick nowMs)).1.pendingEvents =
          ping.pendingEvents ++ all := hall
      have hstate : (ping.handleInput (.tick nowMs)).1.peerState p = state := hticked.state
      rw [hevents, hactions, hstate, List.drop_left, List.drop_left, hfilter, hticked.actions]
      exact hmove
    | migratePeer old new => exact absurd trivial hinput
    | registerOutboundStream | registerInboundStream | sendPing | closeOutboundStreamWrite
    | streamData | streamRemoteWriteClosed | streamClosed | removePeer => cases hpeer

/-- The new actions for a peer are those with its id. -/
theorem mem_newActionsFor {call : Call PingInput} {action : PingAction} :
    action ∈ ping.newActionsFor p call ↔ action ∈ ping.newActions call ∧ action.peerId = p := by
  rw [newActionsFor, List.mem_filter, decide_eq_true_iff]

/-- An input adds events and actions for its own peer only. -/
theorem newFor_of_peer (ping : PingProtocol) {input : PingInput} (hp : input.peer? = some p) :
    ping.newEventsFor p (.handleInput input) = ping.newEvents (.handleInput input) ∧
      ping.newActionsFor p (.handleInput input) = ping.newActions (.handleInput input) := by
  obtain ⟨state, events, actions, hturn, hmove⟩ := moves_of_peer ping hp
  rw [newEventsFor, newActionsFor, newEvents, newActions, after, hturn.events, hturn.actions,
    List.drop_left, List.drop_left]
  constructor
  · exact List.filter_eq_self.mpr fun event hmem => decide_eq_true (hmove.events_peerId event hmem)
  · exact List.filter_eq_self.mpr fun action hmem =>
      decide_eq_true (hmove.actions_peerId action hmem)

/-! ## Polls and migrations -/

/-- Polling changes no peer. -/
@[simp] theorem peers_pollOutput (ping : PingProtocol) : ping.pollOutput.1.peers = ping.peers := by
  rw [pollOutput]
  split
  · rfl
  · split <;> rfl

/-- Polling changes the state of no peer. -/
@[simp] theorem peerState_pollOutput (ping : PingProtocol) (p : PeerId) :
    (ping.after .pollOutput).peerState p = ping.peerState p := by
  rw [after, peerState, peers_pollOutput]
  rfl

/-- Polling queues no event. -/
@[simp] theorem newEvents_pollOutput (ping : PingProtocol) : ping.newEvents .pollOutput = [] := by
  obtain ⟨peers, events, actions, config⟩ := ping
  cases actions <;> cases events <;> simp [newEvents, after, pollOutput]

/-- Polling queues no action. -/
@[simp] theorem newActions_pollOutput (ping : PingProtocol) : ping.newActions .pollOutput = [] := by
  obtain ⟨peers, events, actions, config⟩ := ping
  cases actions <;> cases events <;> simp [newActions, after, pollOutput]

/-- A migration gives the state of a peer to another one, and changes no other peer. -/
theorem peerState_migratePeer (ping : PingProtocol) (old new p : PeerId) :
    (ping.migratePeer old new).peerState p = default ∨
      (ping.migratePeer old new).peerState p = ping.peerState p ∨
      p = new ∧ (ping.migratePeer old new).peerState p = ping.peerState old := by
  rw [migratePeer]
  split
  · exact .inr (.inl rfl)
  · cases hold : ping.peers[old]? with
    | none => exact .inr (.inl rfl)
    | some state =>
      rw [peerState]
      dsimp only
      rw [Std.ExtTreeMap.getElem?_insert]
      split
      · next heq =>
        exact .inr (.inr ⟨(Std.compare_eq_iff_eq.mp heq).symm, (peerState_of_some hold).symm⟩)
      · rw [Std.ExtTreeMap.getElem?_erase]
        split
        · exact .inl rfl
        · exact .inr (.inl rfl)

/-- Renaming a peer queues no action. -/
theorem newActions_migratePeer (ping : PingProtocol) {input : PingInput}
    (hinput : input.IsMigration) : ping.newActions (.handleInput input) = [] := by
  cases input with
  | migratePeer old new =>
    rw [newActions, List.drop_eq_nil_iff, after, handleInput, migratePeer]
    split <;> exact Nat.le_refl _
  | _ => exact hinput.elim

/-- A call does not change the configuration. -/
@[simp] theorem config_after (ping : PingProtocol) (call : Call PingInput) :
    (ping.after call).config = ping.config := by
  cases call with
  | pollOutput =>
    rw [after, pollOutput]
    split
    · rfl
    · split <;> rfl
  | handleInput input =>
    cases hpeer : input.peer? with
    | some q =>
      obtain ⟨state, events, actions, hturn, -⟩ := moves_of_peer ping hpeer
      exact hturn.config
    | none =>
      cases input with
      | tick nowMs => exact config_onTick ping nowMs
      | migratePeer old new =>
        rw [after, handleInput, migratePeer]
        split <;> rfl
      | registerOutboundStream | registerInboundStream | sendPing | closeOutboundStreamWrite
      | streamData | streamRemoteWriteClosed | streamClosed | removePeer => cases hpeer

/-- A run does not change the configuration. -/
@[simp] theorem config_run (config : PingConfig) (calls : List (Call PingInput)) :
    (run config calls).config = config := by
  induction calls using List.reverseRecOn with
  | nil => rfl
  | append_singleton calls call ih => rw [run_concat, config_after, ih]

end PingProtocol

/-- A peer to run the machine with. -/
def onePeer : PeerId := ⟨⟨identityMultihashCode, [0x08, 0x02, 0x03], by decide⟩⟩

end Minip2p.Ping
