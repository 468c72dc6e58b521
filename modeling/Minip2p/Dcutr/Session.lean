import Minip2p.Dcutr.RoundTrip
import Minip2p.Lib.Fifo

/-!
# A hole-punch session

An initiator and a responder joined by two FIFO byte channels. Either party is polled and given any
number of the bytes in flight to it, in any order; a party that still has outputs is polled before
it is given an input, and the initiator is told to send SYNC only after it handed out its outcome.

The session goes through eight stages (`Stage`). In each of them it is known which message is on
its way, how much of it has arrived, and what either party holds.
-/

namespace Minip2p.Dcutr

open Fifo (Channel)

variable [MultihashCodec]

/-! ## Sessions -/

/-- Both parties, the channels between them, and what they were seen to do. -/
structure Session where
  initiator : DcutrInitiator
  responder : DcutrResponder
  toResponder : Channel UInt8
  toInitiator : Channel UInt8
  /-- The outcomes the initiator has handed out. -/
  outcomes : List InitiatorOutcome
  /-- The events the responder has queued. -/
  queued : List ResponderEvent
  /-- The events the responder has handed out. -/
  events : List ResponderEvent
  /-- How often the initiator was given SendSync. -/
  syncsGiven : ℕ
  /-- The errors inputs were answered with. -/
  errors : List DcutrError
deriving DecidableEq

/-- What happens next between an initiator and a responder. -/
inductive SessionAction
  | pollInitiator
  | pollResponder
  | deliverToInitiator (n : ℕ) (rttMs : UInt64)
  | deliverToResponder (n : ℕ)
  | sendSync
deriving DecidableEq, Repr

namespace Session

/-- The session before anything was done. -/
def start (initiatorAddrs responderAddrs : List Multiaddr) : Session where
  initiator := .new initiatorAddrs
  responder := .new responderAddrs
  toResponder := .empty
  toInitiator := .empty
  outcomes := []
  queued := []
  events := []
  syncsGiven := 0
  errors := []

/-- What an input was answered with, after what others were. -/
def answered (session : Session) : Except DcutrError Unit → List DcutrError
  | .ok () => session.errors
  | .error e => session.errors ++ [e]

/-- The initiator's output is sent or kept. -/
def initiatorPolled (session : Session) : Option DcutrInitiatorOutput → Session
  | none => session
  | some (.outbound bytes) => { session with toResponder := session.toResponder.send bytes }
  | some (.outcome outcome) => { session with outcomes := session.outcomes ++ [outcome] }

/-- The responder's output is sent or kept. -/
def responderPolled (session : Session) : Option DcutrResponderOutput → Session
  | none => session
  | some (.outbound bytes) => { session with toInitiator := session.toInitiator.send bytes }
  | some (.event event) => { session with events := session.events ++ [event] }

/-- One action. An input whose party has outputs left is not given, nor is SendSync before the
outcome. -/
def step (session : Session) : SessionAction → Exec Session
  | .pollInitiator =>
    let (initiator, output) := session.initiator.pollOutput
    return { session with initiator }.initiatorPolled output
  | .pollResponder =>
    let (responder, output) := session.responder.pollOutput
    return { session with responder }.responderPolled output
  | .deliverToInitiator n rttMs => do
    if !session.initiator.isIdle then return session
    else
      let (initiator, result) ← session.initiator.handleInput
        (.data (session.toInitiator.next n) rttMs)
      return { session with
        initiator
        toInitiator := session.toInitiator.deliver n
        errors := session.answered result }
  | .deliverToResponder n => do
    if !session.responder.isIdle then return session
    else
      let (responder, result) ← session.responder.handleInput
        (.data (session.toResponder.next n))
      -- an idle responder had no event queued: those it has now are new
      return { session with
        responder
        toResponder := session.toResponder.deliver n
        queued := session.queued ++ responder.events
        errors := session.answered result }
  | .sendSync => do
    if !session.initiator.isIdle ∨ session.outcomes = [] then return session
    else
      let (initiator, result) ← session.initiator.handleInput .sendSync
      return { session with
        initiator
        syncsGiven := session.syncsGiven + 1
        errors := session.answered result }

/-- Some actions, the first one first. -/
def run (session : Session) (actions : List SessionAction) : Exec Session :=
  actions.foldlM step session

/-- The addresses of the `ConnectReceived` events the responder has queued. -/
def connects (session : Session) : List (List Multiaddr) :=
  session.queued.filterMap fun event =>
    match event with
    | .connectReceived remoteAddrs _ => some remoteAddrs
    | .syncReceived => none

/-- The addresses of the `DialNow` outcomes the initiator has emitted. -/
def dials (session : Session) : List (List Multiaddr) :=
  session.outcomes.map fun (.dialNow remoteAddrs _ _) => remoteAddrs

/-- All that was sent is delivered and neither party has outputs left. -/
def Drained (session : Session) : Prop :=
  session.initiator.isIdle ∧ session.responder.isIdle ∧
    session.toResponder.inFlight = [] ∧ session.toInitiator.inFlight = []

end Session

/-! ## What the parties do -/

/-- The CONNECT frame with some addresses. -/
def connectFrame (addrs : List Multiaddr) : Bytes :=
  encodeFrame (HolePunch.encode ⟨.connect, addrs.map encodeMultiaddr⟩)

/-- The SYNC frame. -/
def syncFrame : Bytes := encodeFrame (HolePunch.encode ⟨.sync, []⟩)

omit [MultihashCodec] in
theorem length_syncFrame : syncFrame.length = 4 := by decide

/-- Addresses that can be built and that fit into one CONNECT frame. -/
structure Offerable (addrs : List Multiaddr) : Prop where
  valid : ∀ addr ∈ addrs, addr.Valid
  fits : (connectFrame addrs).length ≤ maxMessageSize

theorem connectFrame_ne_nil (addrs : List Multiaddr) : connectFrame addrs ≠ [] :=
  Wire.encodeFrame_ne_nil _

/-- The addresses of a CONNECT frame are read back. -/
theorem Offerable.decode (hcodec : MultihashCodec.Exact) {addrs : List Multiaddr}
    (h : Offerable addrs) : decodeRemoteAddrs (addrs.map encodeMultiaddr) = .ok addrs := by
  refine decodeRemoteAddrs_map hcodec fun addr haddr => ⟨h.valid addr haddr, ?_⟩
  have hle : (encodeMultiaddr addr).length ≤
      (HolePunch.encode ⟨.connect, addrs.map encodeMultiaddr⟩).length :=
    length_le_encode (List.mem_map_of_mem haddr)
  have hfits := h.fits
  have hmax := maxMessageSize_lt
  rw [connectFrame, encodeFrame, Wire.length_encodeFrame] at hfits
  omega

/-- The message a CONNECT frame carries. -/
theorem Offerable.receive {addrs : List Multiaddr} (h : Offerable addrs) :
    receiveHolePunch (connectFrame addrs) =
      .ok (.message ⟨.connect, addrs.map encodeMultiaddr⟩ []) := by
  have hframe := @receiveHolePunch_frame ⟨.connect, addrs.map encodeMultiaddr⟩ []
  rw [List.append_nil] at hframe
  exact hframe h.fits

/-- What is dialed after the addresses were read. -/
def dialOutcome (addrs : List Multiaddr) (rttMs : UInt64) : InitiatorOutcome :=
  .dialNow addrs (addrs.map encodeMultiaddr) rttMs

/-- What is reported after the addresses were read. -/
def connectEvent (addrs : List Multiaddr) : ResponderEvent :=
  .connectReceived addrs (addrs.map encodeMultiaddr)

namespace DcutrInitiator

/-- CONNECT is sent, and a part of the reply was read. -/
def awaiting (got : Bytes) : DcutrInitiator := ⟨[], got, .awaitingConnectReply, none, false⟩

/-- The reply was read. -/
def replied (outbound : Bytes) (state : InitiatorState) (outcome : InitiatorOutcome)
    (emitted : Bool) : DcutrInitiator := ⟨outbound, [], state, some outcome, emitted⟩

theorem pollOutput_new (addrs : List Multiaddr) :
    (new addrs).pollOutput = (awaiting [], some (.outbound (connectFrame addrs))) := by
  have hne : (connectFrame addrs).isEmpty = false :=
    List.isEmpty_eq_false_iff.mpr (connectFrame_ne_nil addrs)
  show (if !(connectFrame addrs).isEmpty then _ else _) = _
  rw [hne]
  rfl

omit [MultihashCodec] in
theorem pollOutput_sync (outcome : InitiatorOutcome) :
    (replied syncFrame .syncPending outcome true).pollOutput =
      (replied [] .done outcome true, some (.outbound syncFrame)) := by
  rfl

/-- Bytes that do not complete the reply are kept. -/
theorem handleInput_part {addrs : List Multiaddr} (h : Offerable addrs) {got bytes rest : Bytes}
    (hframe : (got ++ bytes) ++ rest = connectFrame addrs) (hrest : rest ≠ []) (rttMs : UInt64) :
    (awaiting got).handleInput (.data bytes rttMs) = .ok (awaiting (got ++ bytes), .ok ()) := by
  have hreceive := receiveHolePunch_part hframe hrest h.fits
  show (receiveHolePunch (got ++ bytes) >>= _) = _
  rw [hreceive]
  rfl

/-- The last byte of the reply makes the initiator dial. -/
theorem handleInput_reply (hcodec : MultihashCodec.Exact) {addrs : List Multiaddr}
    (h : Offerable addrs) {got bytes : Bytes} (hframe : got ++ bytes = connectFrame addrs)
    (rttMs : UInt64) : (awaiting got).handleInput (.data bytes rttMs) =
      .ok (replied [] .readyToSync (dialOutcome addrs rttMs) false, .ok ()) := by
  show (receiveHolePunch (got ++ bytes) >>= _) = _
  rw [hframe, h.receive]
  show (decodeRemoteAddrs (addrs.map encodeMultiaddr) >>= _) = _
  rw [h.decode hcodec]
  rfl

end DcutrInitiator

namespace DcutrResponder

/-- A part of the CONNECT was read. -/
def listening (addrs : List Multiaddr) (got : Bytes) : DcutrResponder :=
  ⟨addrs.map encodeMultiaddr, [], got, .awaitingConnect, []⟩

/-- The CONNECT was read. -/
def answering (addrs : List Multiaddr) (outbound got : Bytes) (state : ResponderState)
    (events : List ResponderEvent) : DcutrResponder :=
  ⟨addrs.map encodeMultiaddr, outbound, got, state, events⟩

variable {own addrs : List Multiaddr}

/-- A poll hands out the first event, if there is one. -/
theorem pollOutput_answering (own : List Multiaddr) (got : Bytes) (state : ResponderState)
    (events : List ResponderEvent) : (answering own [] got state events).pollOutput =
      (answering own [] got state events.tail, events.head?.map .event) := by
  cases events with
  | nil => rfl
  | cons event events => rfl

theorem pollOutput_reply (own : List Multiaddr) (got : Bytes) (state : ResponderState)
    (events : List ResponderEvent) :
    (answering own (connectFrame own) got state events).pollOutput =
      (answering own [] got state events, some (.outbound (connectFrame own))) := by
  rw [pollOutput, if_pos (by simpa [answering] using connectFrame_ne_nil own)]
  rfl

theorem handleInput_part (h : Offerable addrs) {got bytes rest : Bytes}
    (hframe : (got ++ bytes) ++ rest = connectFrame addrs) (hrest : rest ≠ []) :
    (listening own got).handleInput (.data bytes) = .ok (listening own (got ++ bytes), .ok ()) := by
  have hreceive := receiveHolePunch_part hframe hrest h.fits
  show (receiveHolePunch (got ++ bytes) >>= _) = _
  rw [hreceive]
  rfl

/-- The last byte of the CONNECT queues the reply and the event. -/
theorem handleInput_connect (hcodec : MultihashCodec.Exact) (h : Offerable addrs)
    {got bytes : Bytes} (hframe : got ++ bytes = connectFrame addrs) :
    (listening own got).handleInput (.data bytes) =
      .ok (answering own (connectFrame own) [] .awaitingSync [connectEvent addrs], .ok ()) := by
  show (receiveHolePunch (got ++ bytes) >>= _) = _
  rw [hframe, h.receive]
  show (decodeRemoteAddrs (addrs.map encodeMultiaddr) >>= _) = _
  rw [h.decode hcodec]
  rfl

theorem handleInput_syncPart {got bytes rest : Bytes} (hframe : (got ++ bytes) ++ rest = syncFrame)
    (hrest : rest ≠ []) : (answering own [] got .awaitingSync []).handleInput (.data bytes) =
      .ok (answering own [] (got ++ bytes) .awaitingSync [], .ok ()) := by
  have hreceive := receiveHolePunch_part hframe hrest
    (by rw [← syncFrame, length_syncFrame]; decide)
  show (receiveHolePunch (got ++ bytes) >>= _) = _
  rw [hreceive]
  rfl

/-- The last byte of SYNC ends the flow. -/
theorem handleInput_sync {got bytes : Bytes} (hframe : got ++ bytes = syncFrame) :
    (answering own [] got .awaitingSync []).handleInput (.data bytes) =
      .ok (answering own [] [] .done [.syncReceived], .ok ()) := by
  have hreceive := @receiveHolePunch_frame ⟨.sync, []⟩ []
  rw [List.append_nil, ← syncFrame] at hreceive
  show (receiveHolePunch (got ++ bytes) >>= _) = _
  rw [hframe, hreceive (by rw [length_syncFrame]; decide)]
  rfl

end DcutrResponder

/-! ## Stages -/

/-- Where a session stands. `got` is the part of a message that has arrived and `rest` the part in
flight; `pending` are the events the responder has not handed out yet. -/
inductive Stage (A B : List Multiaddr) : Session → Prop
  /-- CONNECT is not sent yet. -/
  | created : Stage A B (Session.start A B)
  /-- CONNECT is on its way. -/
  | offering {got rest : Bytes} (hframe : got ++ rest = connectFrame A) (hrest : rest ≠ []) :
    Stage A B ⟨.awaiting [], .listening B got, ⟨got, rest⟩, .empty, [], [], [], 0, []⟩
  /-- CONNECT has arrived, and the reply is not sent yet. -/
  | offered : Stage A B ⟨.awaiting [],
      .answering B (connectFrame B) [] .awaitingSync [connectEvent A], ⟨connectFrame A, []⟩,
      .empty, [], [connectEvent A], [], 0, []⟩
  /-- The reply is on its way. -/
  | replying {got rest : Bytes} {events pending : List ResponderEvent}
    (hframe : got ++ rest = connectFrame B) (hrest : rest ≠ [])
    (hevents : events ++ pending = [connectEvent A]) :
    Stage A B ⟨.awaiting got, .answering B [] [] .awaitingSync pending, ⟨connectFrame A, []⟩,
      ⟨got, rest⟩, [], [connectEvent A], events, 0, []⟩
  /-- The reply has arrived, and the outcome is handed out or not. -/
  | dialing {rttMs : UInt64} (emitted : Bool) {events pending : List ResponderEvent}
    (hevents : events ++ pending = [connectEvent A]) :
    Stage A B ⟨.replied [] .readyToSync (dialOutcome B rttMs) emitted,
      .answering B [] [] .awaitingSync pending, ⟨connectFrame A, []⟩, ⟨connectFrame B, []⟩,
      bif emitted then [dialOutcome B rttMs] else [], [connectEvent A], events, 0, []⟩
  /-- SendSync was given, and SYNC is not sent yet. -/
  | syncing {rttMs : UInt64} {events pending : List ResponderEvent}
    (hevents : events ++ pending = [connectEvent A]) :
    Stage A B ⟨.replied syncFrame .syncPending (dialOutcome B rttMs) true,
      .answering B [] [] .awaitingSync pending, ⟨connectFrame A, []⟩, ⟨connectFrame B, []⟩,
      [dialOutcome B rttMs], [connectEvent A], events, 1, []⟩
  /-- SYNC is on its way. A responder that reads bytes of it has handed out its event. -/
  | punching {rttMs : UInt64} {got rest : Bytes} {events pending : List ResponderEvent}
    {errors : List DcutrError} (hframe : got ++ rest = syncFrame) (hrest : rest ≠ [])
    (hevents : events ++ pending = [connectEvent A]) :
    Stage A B ⟨.replied [] .done (dialOutcome B rttMs) true,
      .answering B [] got .awaitingSync pending, ⟨connectFrame A ++ got, rest⟩,
      ⟨connectFrame B, []⟩, [dialOutcome B rttMs], [connectEvent A], events, errors.length + 1,
      errors⟩
  /-- SYNC has arrived. -/
  | punched {rttMs : UInt64} {events pending : List ResponderEvent} {errors : List DcutrError}
    (hevents : events ++ pending = [connectEvent A, .syncReceived]) :
    Stage A B ⟨.replied [] .done (dialOutcome B rttMs) true, .answering B [] [] .done pending,
      ⟨connectFrame A ++ syncFrame, []⟩, ⟨connectFrame B, []⟩, [dialOutcome B rttMs],
      [connectEvent A, .syncReceived], events, errors.length + 1, errors⟩

variable {A B : List Multiaddr} {session : Session}

namespace Session

/-- What polling the initiator does to the session. -/
theorem step_pollInitiator {initiator : DcutrInitiator} {output : Option DcutrInitiatorOutput}
    (h : session.initiator.pollOutput = (initiator, output)) :
    session.step .pollInitiator =
      .ok (Session.initiatorPolled { session with initiator } output) := by
  rw [step, h]
  rfl

/-- What polling the responder does to the session. -/
theorem step_pollResponder {responder : DcutrResponder} {output : Option DcutrResponderOutput}
    (h : session.responder.pollOutput = (responder, output)) :
    session.step .pollResponder =
      .ok (Session.responderPolled { session with responder } output) := by
  rw [step, h]
  rfl

/-- A responder that answered hands out its events one by one. -/
theorem step_pollResponder_answering {own : List Multiaddr} {got : Bytes} {state : ResponderState}
    {pending : List ResponderEvent} (h : session.responder = .answering own [] got state pending) :
    session.step .pollResponder = .ok { session with
      responder := .answering own [] got state pending.tail
      events := session.events ++ pending.head?.toList } := by
  rw [step_pollResponder (by rw [h, DcutrResponder.pollOutput_answering])]
  cases pending with
  | nil => simp [responderPolled]
  | cons event pending => rfl

/-- What a delivery does to an initiator that was polled. -/
theorem step_deliverToInitiator {initiator : DcutrInitiator} {got rest : Bytes} {n : ℕ}
    {rttMs : UInt64} (hidle : session.initiator.isIdle = true)
    (hchannel : session.toInitiator = ⟨got, rest⟩)
    (h : session.initiator.handleInput (.data (rest.take n) rttMs) = .ok (initiator, .ok ())) :
    session.step (.deliverToInitiator n rttMs) =
      .ok { session with initiator, toInitiator := ⟨got ++ rest.take n, rest.drop n⟩ } := by
  rw [step, hidle, hchannel, Channel.next, h]
  rfl

/-- An initiator that was not polled gets nothing. -/
theorem step_deliverToInitiator_busy {n : ℕ} {rttMs : UInt64}
    (hbusy : session.initiator.isIdle = false) :
    session.step (.deliverToInitiator n rttMs) = .ok session := by
  rw [step, hbusy]
  rfl

/-- Nothing is in flight to an initiator that does not react to nothing. -/
theorem step_deliverToInitiator_nil {got : Bytes} {n : ℕ} {rttMs : UInt64}
    (hidle : session.initiator.isIdle = true) (hchannel : session.toInitiator = ⟨got, []⟩)
    (h : session.initiator.handleInput (.data [] rttMs) = .ok (session.initiator, .ok ())) :
    session.step (.deliverToInitiator n rttMs) = .ok session := by
  rw [step_deliverToInitiator hidle hchannel (by rw [List.take_nil]; exact h), List.take_nil,
    List.drop_nil, List.append_nil, ← hchannel]

/-- What a delivery does to a responder that was polled. -/
theorem step_deliverToResponder {responder : DcutrResponder} {got rest : Bytes} {n : ℕ}
    (hidle : session.responder.isIdle = true) (hchannel : session.toResponder = ⟨got, rest⟩)
    (h : session.responder.handleInput (.data (rest.take n)) = .ok (responder, .ok ())) :
    session.step (.deliverToResponder n) = .ok { session with
      responder
      toResponder := ⟨got ++ rest.take n, rest.drop n⟩
      queued := session.queued ++ responder.events } := by
  rw [step, hidle, hchannel, Channel.next, h]
  rfl

/-- A responder that was not polled gets nothing. -/
theorem step_deliverToResponder_busy {n : ℕ} (hbusy : session.responder.isIdle = false) :
    session.step (.deliverToResponder n) = .ok session := by
  rw [step, hbusy]
  rfl

theorem step_deliverToResponder_nil {got : Bytes} {n : ℕ}
    (hidle : session.responder.isIdle = true) (hchannel : session.toResponder = ⟨got, []⟩)
    (h : session.responder.handleInput (.data []) = .ok (session.responder, .ok ())) :
    session.step (.deliverToResponder n) = .ok session := by
  have hevents : session.responder.events = [] := by
    rw [DcutrResponder.isIdle, Bool.and_eq_true] at hidle
    exact List.isEmpty_iff.mp hidle.2
  rw [step_deliverToResponder hidle hchannel (by rw [List.take_nil]; exact h), List.take_nil,
    List.drop_nil, List.append_nil, ← hchannel, hevents, List.append_nil]

/-- A responder that answered and to which nothing is in flight stays as it is. -/
theorem step_deliverToResponder_answered {own : List Multiaddr} {got : Bytes}
    {pending : List ResponderEvent} {n : ℕ}
    (hresponder : session.responder = .answering own [] [] .awaitingSync pending)
    (hchannel : session.toResponder = ⟨got, []⟩) :
    session.step (.deliverToResponder n) = .ok session := by
  cases pending with
  | nil =>
    refine step_deliverToResponder_nil (by rw [hresponder]; rfl) hchannel ?_
    rw [hresponder]
    exact DcutrResponder.handleInput_syncPart (List.nil_append syncFrame) (by decide)
  | cons event pending => exact step_deliverToResponder_busy (by rw [hresponder]; rfl)

/-- What asking for the SYNC does to the session. -/
theorem step_sendSync {initiator : DcutrInitiator} {result : Except DcutrError Unit}
    (hidle : session.initiator.isIdle = true) (houtcomes : session.outcomes ≠ [])
    (h : session.initiator.handleInput .sendSync = .ok (initiator, result)) :
    session.step .sendSync = .ok { session with
      initiator
      syncsGiven := session.syncsGiven + 1
      errors := session.answered result } := by
  rw [step, hidle, if_neg (by simpa using houtcomes), h]
  rfl

end Session

namespace Stage

/-- Polling the initiator moves the session on. -/
theorem pollInitiator (h : Stage A B session) :
    ∃ session', session.step .pollInitiator = .ok session' ∧ Stage A B session' := by
  cases h with
  | created =>
    refine ⟨_, Session.step_pollInitiator (DcutrInitiator.pollOutput_new A), ?_⟩
    exact .offering (List.nil_append _) (connectFrame_ne_nil A)
  | offering hframe hrest => exact ⟨_, rfl, .offering hframe hrest⟩
  | offered => exact ⟨_, rfl, .offered⟩
  | replying hframe hrest hevents => exact ⟨_, rfl, .replying hframe hrest hevents⟩
  | dialing emitted hevents =>
    cases emitted with
    | false => exact ⟨_, rfl, .dialing true hevents⟩
    | true => exact ⟨_, rfl, .dialing true hevents⟩
  | @syncing rttMs events pending hevents =>
    refine ⟨_, Session.step_pollInitiator (DcutrInitiator.pollOutput_sync _), ?_⟩
    have hpunching := @punching _ A B rttMs [] syncFrame events pending [] (List.nil_append _)
      (by decide) hevents
    rw [List.append_nil] at hpunching
    exact hpunching
  | punching hframe hrest hevents => exact ⟨_, rfl, .punching hframe hrest hevents⟩
  | punched hevents => exact ⟨_, rfl, .punched hevents⟩

omit [MultihashCodec] in
/-- Handing out an event leaves all events as they are. -/
theorem handOut {events pending all : List ResponderEvent} (h : events ++ pending = all) :
    events ++ pending.head?.toList ++ pending.tail = all := by
  rw [← h, List.append_assoc]
  cases pending with
  | nil => rfl
  | cons event pending => rfl

/-- Polling the responder moves the session on. -/
theorem pollResponder (h : Stage A B session) :
    ∃ session', session.step .pollResponder = .ok session' ∧ Stage A B session' := by
  cases h with
  | created => exact ⟨_, rfl, .created⟩
  | offering hframe hrest => exact ⟨_, rfl, .offering hframe hrest⟩
  | offered =>
    refine ⟨_, Session.step_pollResponder (DcutrResponder.pollOutput_reply B _ _ _), ?_⟩
    exact .replying (List.nil_append _) (connectFrame_ne_nil B) (List.nil_append _)
  | replying hframe hrest hevents =>
    exact ⟨_, Session.step_pollResponder_answering rfl, .replying hframe hrest (handOut hevents)⟩
  | dialing emitted hevents =>
    exact ⟨_, Session.step_pollResponder_answering rfl, .dialing emitted (handOut hevents)⟩
  | syncing hevents =>
    exact ⟨_, Session.step_pollResponder_answering rfl, .syncing (handOut hevents)⟩
  | punching hframe hrest hevents =>
    exact ⟨_, Session.step_pollResponder_answering rfl, .punching hframe hrest (handOut hevents)⟩
  | punched hevents =>
    exact ⟨_, Session.step_pollResponder_answering rfl, .punched (handOut hevents)⟩

omit [MultihashCodec] in
/-- The part of a message that is still in flight after `n` bytes, or none. -/
theorem take_cases {got rest frame : Bytes} (hframe : got ++ rest = frame) (n : ℕ) :
    (rest.drop n ≠ [] ∧ (got ++ rest.take n) ++ rest.drop n = frame) ∨
      (rest.drop n = [] ∧ got ++ rest.take n = frame) := by
  have hboth : (got ++ rest.take n) ++ rest.drop n = frame := by
    rw [List.append_assoc, List.take_append_drop, hframe]
  by_cases hdrop : rest.drop n = []
  · rw [hdrop, List.append_nil] at hboth
    exact .inr ⟨hdrop, hboth⟩
  · exact .inl ⟨hdrop, hboth⟩

/-- A delivery to the initiator moves the session on. -/
theorem deliverToInitiator (hcodec : MultihashCodec.Exact) (hB : Offerable B)
    (h : Stage A B session) (n : ℕ) (rttMs : UInt64) :
    ∃ session', session.step (.deliverToInitiator n rttMs) = .ok session' ∧
      Stage A B session' := by
  have hawaiting : (DcutrInitiator.awaiting []).handleInput (.data [] rttMs) =
      .ok (.awaiting [], .ok ()) :=
    DcutrInitiator.handleInput_part hB (List.nil_append _) (connectFrame_ne_nil B) rttMs
  cases h with
  | created =>
    have hbusy : (Session.start A B).initiator.isIdle = false := by
      show ((connectFrame A).isEmpty && _) = false
      rw [List.isEmpty_eq_false_iff.mpr (connectFrame_ne_nil A), Bool.false_and]
    exact ⟨_, Session.step_deliverToInitiator_busy hbusy, .created⟩
  | offering hframe hrest =>
    exact ⟨_, Session.step_deliverToInitiator_nil rfl rfl hawaiting, .offering hframe hrest⟩
  | offered => exact ⟨_, Session.step_deliverToInitiator_nil rfl rfl hawaiting, .offered⟩
  | replying hframe hrest hevents =>
    rcases take_cases hframe n with ⟨hmore, hpart⟩ | ⟨hnone, hwhole⟩
    · refine ⟨_, Session.step_deliverToInitiator rfl rfl
        (DcutrInitiator.handleInput_part hB hpart hmore rttMs), ?_⟩
      exact .replying hpart hmore hevents
    · refine ⟨_, Session.step_deliverToInitiator rfl rfl
        (DcutrInitiator.handleInput_reply hcodec hB hwhole rttMs), ?_⟩
      rw [hwhole, hnone]
      exact .dialing false hevents
  | dialing emitted hevents =>
    cases emitted with
    | false => exact ⟨_, Session.step_deliverToInitiator_busy rfl, .dialing false hevents⟩
    | true => exact ⟨_, Session.step_deliverToInitiator_nil rfl rfl rfl, .dialing true hevents⟩
  | syncing hevents => exact ⟨_, Session.step_deliverToInitiator_busy rfl, .syncing hevents⟩
  | punching hframe hrest hevents =>
    exact ⟨_, Session.step_deliverToInitiator_nil rfl rfl rfl, .punching hframe hrest hevents⟩
  | punched hevents =>
    exact ⟨_, Session.step_deliverToInitiator_nil rfl rfl rfl, .punched hevents⟩

/-- A delivery to the responder moves the session on. -/
theorem deliverToResponder (hcodec : MultihashCodec.Exact) (hA : Offerable A)
    (h : Stage A B session) (n : ℕ) :
    ∃ session', session.step (.deliverToResponder n) = .ok session' ∧ Stage A B session' := by
  have hlistening : (DcutrResponder.listening B []).handleInput (.data []) =
      .ok (.listening B [], .ok ()) :=
    DcutrResponder.handleInput_part hA (List.nil_append _) (connectFrame_ne_nil A)
  cases h with
  | created => exact ⟨_, Session.step_deliverToResponder_nil rfl rfl hlistening, .created⟩
  | offering hframe hrest =>
    rcases take_cases hframe n with ⟨hmore, hpart⟩ | ⟨hnone, hwhole⟩
    · refine ⟨_, Session.step_deliverToResponder rfl rfl
        (DcutrResponder.handleInput_part hA hpart hmore), ?_⟩
      exact .offering hpart hmore
    · refine ⟨_, Session.step_deliverToResponder rfl rfl
        (DcutrResponder.handleInput_connect hcodec hA hwhole), ?_⟩
      rw [hwhole, hnone]
      exact .offered
  | offered =>
    have hbusy : (DcutrResponder.answering B (connectFrame B) [] .awaitingSync
        [connectEvent A]).isIdle = false := by
      simp [DcutrResponder.isIdle, DcutrResponder.answering]
    exact ⟨_, Session.step_deliverToResponder_busy hbusy, .offered⟩
  | replying hframe hrest hevents =>
    exact ⟨_, Session.step_deliverToResponder_answered rfl rfl, .replying hframe hrest hevents⟩
  | dialing emitted hevents =>
    exact ⟨_, Session.step_deliverToResponder_answered rfl rfl, .dialing emitted hevents⟩
  | syncing hevents =>
    exact ⟨_, Session.step_deliverToResponder_answered rfl rfl, .syncing hevents⟩
  | @punching rttMs got rest events pending errors hframe hrest hevents =>
    cases pending with
    | nil =>
      rcases take_cases hframe n with ⟨hmore, hpart⟩ | ⟨hnone, hwhole⟩
      · refine ⟨_, Session.step_deliverToResponder rfl rfl
          (DcutrResponder.handleInput_syncPart hpart hmore), ?_⟩
        rw [List.append_assoc]
        exact .punching hpart hmore hevents
      · refine ⟨_, Session.step_deliverToResponder rfl rfl
          (DcutrResponder.handleInput_sync hwhole), ?_⟩
        rw [List.append_assoc, hwhole, hnone]
        rw [List.append_nil] at hevents
        exact .punched (by rw [hevents]; rfl)
    | cons event pending =>
      exact ⟨_, Session.step_deliverToResponder_busy rfl, .punching hframe hrest hevents⟩
  | @punched rttMs events pending errors hevents =>
    cases pending with
    | nil => exact ⟨_, Session.step_deliverToResponder_nil rfl rfl rfl, .punched hevents⟩
    | cons event pending =>
      exact ⟨_, Session.step_deliverToResponder_busy rfl, .punched hevents⟩

/-- Asking for the SYNC moves the session on. -/
theorem sendSync (h : Stage A B session) :
    ∃ session', session.step .sendSync = .ok session' ∧ Stage A B session' := by
  cases h with
  | created =>
    refine ⟨_, ?_, .created⟩
    rw [Session.step, if_pos (.inr rfl)]
    rfl
  | offering hframe hrest => exact ⟨_, rfl, .offering hframe hrest⟩
  | offered => exact ⟨_, rfl, .offered⟩
  | replying hframe hrest hevents => exact ⟨_, rfl, .replying hframe hrest hevents⟩
  | dialing emitted hevents =>
    cases emitted with
    | false => exact ⟨_, rfl, .dialing false hevents⟩
    | true => exact ⟨_, rfl, .syncing hevents⟩
  | syncing hevents => exact ⟨_, rfl, .syncing hevents⟩
  | @punching rttMs got rest events pending errors hframe hrest hevents =>
    -- SYNC was sent already
    refine ⟨_, Session.step_sendSync rfl (List.cons_ne_nil _ _) rfl, ?_⟩
    have hpunching := @punching _ A B rttMs got rest events pending
      (errors ++ [.unexpectedMessage "cannot send SYNC from state Done"]) hframe hrest hevents
    rw [List.length_append] at hpunching
    exact hpunching
  | @punched rttMs events pending errors hevents =>
    refine ⟨_, Session.step_sendSync rfl (List.cons_ne_nil _ _) rfl, ?_⟩
    have hpunched := @punched _ A B rttMs events pending
      (errors ++ [.unexpectedMessage "cannot send SYNC from state Done"]) hevents
    rw [List.length_append] at hpunched
    exact hpunched

/-- Every action moves the session on. -/
theorem step (hcodec : MultihashCodec.Exact) (hA : Offerable A) (hB : Offerable B)
    (h : Stage A B session) (action : SessionAction) :
    ∃ session', session.step action = .ok session' ∧ Stage A B session' := by
  cases action with
  | pollInitiator => exact h.pollInitiator
  | pollResponder => exact h.pollResponder
  | deliverToInitiator n rttMs => exact h.deliverToInitiator hcodec hB n rttMs
  | deliverToResponder n => exact h.deliverToResponder hcodec hA n
  | sendSync => exact h.sendSync

/-- Every run of a session is at some stage. -/
theorem run (hcodec : MultihashCodec.Exact) (hA : Offerable A) (hB : Offerable B)
    (h : Stage A B session) (actions : List SessionAction) :
    ∃ session', session.run actions = .ok session' ∧ Stage A B session' := by
  induction actions generalizing session with
  | nil => exact ⟨session, rfl, h⟩
  | cons action actions ih =>
    obtain ⟨session₁, hstep, h₁⟩ := h.step hcodec hA hB action
    obtain ⟨session', hrun, h'⟩ := ih h₁
    refine ⟨session', ?_, h'⟩
    rw [Session.run, List.foldlM_cons, hstep]
    exact hrun

/-! ## What a stage shows -/

/-- The CONNECT is queued once, and at the latest when all of its bytes are delivered. -/
theorem connects (h : Stage A B session) : (session.connects = [] ∨ session.connects = [A]) ∧
    ((connectFrame A).length ≤ session.toResponder.delivered.length →
      session.connects = [A]) := by
  cases h with
  | created =>
    refine ⟨.inl rfl, fun hlen => ?_⟩
    exact absurd (List.length_eq_zero_iff.mp (Nat.le_zero.mp hlen)) (connectFrame_ne_nil A)
  | offering hframe hrest =>
    refine ⟨.inl rfl, fun hlen => ?_⟩
    have hpos := List.length_pos_iff.mpr hrest
    rw [← hframe, List.length_append] at hlen
    dsimp only at hlen
    omega
  | offered | replying | dialing | syncing | punching | punched => exact ⟨.inr rfl, fun _ => rfl⟩

/-- The initiator dials once, after the CONNECT was queued. -/
theorem dials (h : Stage A B session) :
    session.dials = [] ∨ session.dials = [B] ∧ session.connects = [A] := by
  cases h with
  | created | offering | offered | replying => exact .inl rfl
  | dialing emitted =>
    cases emitted with
    | false => exact .inl rfl
    | true => exact .inr ⟨rfl, rfl⟩
  | syncing | punching | punched => exact .inr ⟨rfl, rfl⟩

/-- The responder hands out what it queued, in order. -/
theorem events_prefix (h : Stage A B session) : session.events <+: session.queued := by
  cases h with
  | created | offering => exact List.prefix_rfl
  | offered => exact List.nil_prefix
  | replying hframe hrest hevents => exact ⟨_, hevents⟩
  | dialing emitted hevents => exact ⟨_, hevents⟩
  | syncing hevents => exact ⟨_, hevents⟩
  | punching hframe hrest hevents => exact ⟨_, hevents⟩
  | punched hevents => exact ⟨_, hevents⟩

/-- SYNC is reported once, after SendSync. -/
theorem syncs (h : Stage A B session) : session.events.count .syncReceived ≤ 1 ∧
    (.syncReceived ∈ session.events → 0 < session.syncsGiven) := by
  have hqueued : session.queued.count .syncReceived ≤ 1 ∧
      (.syncReceived ∈ session.queued → 0 < session.syncsGiven) := by
    cases h with
    | created | offering => exact ⟨Nat.zero_le _, by rintro ⟨⟩⟩
    | offered | replying | dialing =>
      refine ⟨Nat.zero_le _, fun hmem => ?_⟩
      cases List.mem_singleton.mp hmem
    | syncing | punching => exact ⟨Nat.zero_le _, fun _ => Nat.succ_pos _⟩
    | punched => exact ⟨Nat.le_refl _, fun _ => Nat.succ_pos _⟩
  have hsublist := h.events_prefix.sublist
  exact ⟨(hsublist.count_le _).trans hqueued.1, fun hmem => hqueued.2 (hsublist.subset hmem)⟩

/-- The only input that fails is SendSync, and only when it was given before. -/
theorem errors (h : Stage A B session) : session.errors.length = session.syncsGiven - 1 := by
  cases h with
  | created | offering | offered | replying | dialing | syncing | punching | punched => rfl

/-- Once SendSync was given and all is delivered, both flows are over. -/
theorem done (h : Stage A B session) (hgiven : 0 < session.syncsGiven)
    (hdrained : session.Drained) :
    session.initiator.state = .done ∧ session.responder.state = .done := by
  obtain ⟨hinitiator, -, hresponder, -⟩ := hdrained
  cases h with
  | created | offering | offered | replying | dialing => cases hgiven
  | syncing => cases hinitiator
  | punching hframe hrest => exact absurd hresponder hrest
  | punched => exact ⟨rfl, rfl⟩

end Stage

/-- However the deliveries are cut and interleaved, a hole-punch session comes to its end: the
responder queues the addresses of the initiator once, as soon as the whole CONNECT is there; the
initiator dials those of the responder once, after that; SYNC is reported once, after SendSync. No
input fails, unless SendSync is given a second time. -/
theorem hole_punch_session (hcodec : MultihashCodec.Exact) (hA : Offerable A) (hB : Offerable B)
    (actions : List SessionAction) :
    ∃ session, (Session.start A B).run actions = .ok session ∧
      (session.connects = [] ∨ session.connects = [A]) ∧
      ((connectFrame A).length ≤ session.toResponder.delivered.length →
        session.connects = [A]) ∧
      (session.dials = [] ∨ session.dials = [B] ∧ session.connects = [A]) ∧
      session.events.count .syncReceived ≤ 1 ∧
      (.syncReceived ∈ session.events → 0 < session.syncsGiven) ∧
      session.errors.length = session.syncsGiven - 1 ∧
      (0 < session.syncsGiven → session.Drained →
        session.initiator.state = .done ∧ session.responder.state = .done) := by
  obtain ⟨session, hrun, h⟩ := Stage.created.run hcodec hA hB actions
  exact ⟨session, hrun, h.connects.1, h.connects.2, h.dials, h.syncs.1, h.syncs.2, h.errors,
    h.done⟩

/-- A session that is cut into pieces and goes through to its end. -/
def loopbackActions : List SessionAction :=
  [.pollInitiator, .deliverToResponder 3, .deliverToResponder 99, .pollResponder, .pollResponder,
    .deliverToInitiator 1 5, .deliverToInitiator 99 9, .pollInitiator, .sendSync, .pollInitiator,
    .deliverToResponder 2, .deliverToResponder 2, .pollResponder]

omit [MultihashCodec] in
theorem hole_punch_session_loopback :
    letI := multihashCodec
    ∃ session, (Session.start [loopbackAddr] []).run loopbackActions = .ok session ∧
      session.connects = [[loopbackAddr]] ∧ session.dials = [[]] ∧
      session.events = [connectEvent [loopbackAddr], .syncReceived] ∧ session.errors = [] ∧
      session.initiator.state = .done ∧ session.responder.state = .done := by
  let codec := multihashCodec
  have hA : Offerable [loopbackAddr] := ⟨by decide, by decide⟩
  have hB : Offerable [] := ⟨by decide, by decide⟩
  obtain ⟨session, hrun, -, hconnects, hdials, -, -, herrors, hdone⟩ :=
    hole_punch_session multihashCodec_exact hA hB loopbackActions
  have hseen : ∀ s ∈ ((Session.start [loopbackAddr] []).run loopbackActions).toOption,
      (connectFrame [loopbackAddr]).length ≤ s.toResponder.delivered.length ∧ s.dials ≠ [] ∧
        s.events = [connectEvent [loopbackAddr], .syncReceived] ∧ s.syncsGiven = 1 ∧
        s.Drained := by
    unfold Session.Drained
    decide +kernel
  obtain ⟨hdelivered, hdialed, hevents, hgiven, hdrained⟩ := hseen session (by rw [hrun]; rfl)
  rw [hgiven] at herrors hdone
  exact ⟨session, hrun, hconnects hdelivered, (hdials.resolve_left hdialed).1, hevents,
    List.length_eq_zero_iff.mp herrors, hdone Nat.one_pos hdrained⟩

omit [MultihashCodec] in
/-- SendSync is answered with an error when it was given before. -/
theorem hole_punch_session_second_sync :
    letI := multihashCodec
    ∃ session, (Session.start [loopbackAddr] []).run (loopbackActions ++ [.sendSync]) =
        .ok session ∧
      session.dials = [[]] ∧
      session.errors = [.unexpectedMessage "cannot send SYNC from state Done"] := by
  let codec := multihashCodec
  have hA : Offerable [loopbackAddr] := ⟨by decide, by decide⟩
  have hB : Offerable [] := ⟨by decide, by decide⟩
  obtain ⟨session, hrun, -⟩ := Stage.created.run multihashCodec_exact hA hB
    (loopbackActions ++ [.sendSync])
  have hseen : ∀ s ∈ ((Session.start [loopbackAddr] []).run
      (loopbackActions ++ [.sendSync])).toOption, s.dials = [[]] ∧
        s.errors = [.unexpectedMessage "cannot send SYNC from state Done"] := by
    decide +kernel
  exact ⟨session, hrun, hseen session (by rw [hrun]; rfl)⟩

end Minip2p.Dcutr
