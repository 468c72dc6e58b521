import Minip2p.Core.Reader
import Minip2p.Relay.Flows

/-!
# What the callers of the HOP flows see

`HopReservation` and `HopConnect` read a STATUS message from the front of their stream. What their
caller has seen is a function of what they have come to, however they were fed and polled.
-/

namespace Minip2p.Relay

open SansIoProtocol (Driven)
open Wire (Front Seen)

/-- A HOP message is read from at most `maxMessageSize` bytes. -/
theorem receiveHop_bounded : Wire.Bounded maxMessageSize receiveHop :=
  Wire.receive_bounded _ _ _ _

/-- What is done with a flow while its stream arrives. -/
abbrev Op := Chunking.Op UInt8

/-! ## HopReservation -/

namespace HopReservation

/-- The outcome of a STATUS message. -/
def accept (msg : HopMessage) : Option ReservationOutcome :=
  if msg.kind ≠ .status then none
  else
    let status := msg.status.getD .unused
    some (if status = .ok then .accepted msg.reservation msg.limit
      else .refused status (describeStatus status))

/-- A reservation passes nothing on. -/
def reader : Reader HopReservation HopReservationOutput ReservationOutcome where
  valid _ := True
  pending flow :=
    (if flow.outbound.isEmpty then [] else [.outbound flow.outbound]) ++
      if flow.emittedOutcome then [] else flow.outcome.toList.map .outcome
  found
    | .outcome outcome => some outcome
    | .outbound _ => none
  passed _ := []
  buffer flow := if flow.state = .done then none else some flow.recvBuf
  result flow := flow.outcome
  held _ := []

/-- What is seen of a new flow that is fed and polled. -/
def seen (ops : List Op) : Seen ReservationOutcome :=
  reader.seenBy (Chunking.run (fun driven piece => driven.give (.data piece)) Driven.poll
    (Driven.start new) ops)

/-- Polling hands the queue of a reservation out in order. -/
theorem queues : Driven.Queues reader.pending where
  first flow := by
    obtain ⟨outbound, recvBuf, state, outcome, emitted⟩ := flow
    cases outbound <;> cases outcome <;> cases emitted <;> rfl
  rest flow := by
    obtain ⟨outbound, recvBuf, state, outcome, emitted⟩ := flow
    cases outbound <;> cases outcome <;> cases emitted <;> rfl

/-- The outcome is in the queue until it was handed out. -/
theorem finds_pending (flow : HopReservation) : reader.finds (reader.pending flow) =
    if flow.emittedOutcome then [] else flow.outcome.toList := by
  obtain ⟨outbound, recvBuf, state, outcome, emitted⟩ := flow
  cases outbound <;> cases outcome <;> cases emitted <;> rfl

/-- A reservation has no bridge. -/
theorem passes_eq_nil (outputs : List HopReservationOutput) : reader.passes outputs = [] := by
  simp [Reader.passes, reader]

/-- Only the buffer and the outcome of a flow that waits show in its view. -/
theorem takes {flow : HopReservation} (hstate : flow.state ≠ .done)
    (houtcome : flow.outcome = none) (piece : Bytes) :
    reader.Takes (fun _ _ => []) flow (flow.handleInput (.data piece))
      (Front.read receiveHop accept (flow.recvBuf ++ piece)) := by
  have hinput : flow.handleInput (.data piece) =
      tryDecodeResponse { flow with recvBuf := flow.recvBuf ++ piece } := if_neg hstate
  rw [tryDecodeResponse, if_neg hstate] at hinput
  dsimp only at hinput
  rw [hinput, Front.read]
  cases receiveHop (flow.recvBuf ++ piece) with
  | error p => exact ⟨p, rfl⟩
  | ok received =>
    cases received with
    | incomplete => exact ⟨_, rfl, if_neg hstate, houtcome, rfl, trivial⟩
    | failed e => exact ⟨_, e, rfl, rfl, houtcome, rfl, trivial⟩
    | message msg rest =>
      dsimp only
      rw [accept]
      by_cases hkind : msg.kind ≠ .status
      · rw [if_pos hkind]
        exact ⟨_, _, if_pos hkind, rfl, houtcome, rfl, trivial⟩
      · rw [if_neg hkind]
        refine ⟨_, if_neg hkind, rfl, rfl, ?_, ?_, trivial⟩
        · rw [finds_pending, finds_pending, houtcome]
          simp
        · rw [passes_eq_nil, passes_eq_nil]
          rfl

/-- A reservation that is not done holds its buffer. -/
theorem buffer_eq_some_iff {flow : HopReservation} {buf : Bytes} :
    reader.buffer flow = some buf ↔ flow.state ≠ .done ∧ flow.recvBuf = buf := by
  simp only [reader]
  split <;> simp_all

theorem buffer_eq_none_iff {flow : HopReservation} :
    reader.buffer flow = none ↔ flow.state = .done := by
  simp only [reader]
  split <;> simp_all

/-- Polling leaves the buffer alone. -/
theorem buffer_pollOutput (flow : HopReservation) :
    reader.buffer flow.pollOutput.1 = reader.buffer flow := by
  obtain ⟨outbound, recvBuf, state, outcome, emitted⟩ := flow
  cases outbound <;> cases state <;> cases outcome <;> cases emitted <;> rfl

/-- A reservation reads one STATUS message, and nothing behind it. -/
theorem lawful : reader.Lawful .data receiveHop accept fun _ _ => [] where
  queues := queues
  poll flow := by
    refine ⟨buffer_pollOutput flow, ?_, rfl, id⟩
    obtain ⟨outbound, recvBuf, state, outcome, emitted⟩ := flow
    cases outbound <;> cases outcome <;> cases emitted <;> rfl
  waiting {flow buf} _ hbuffer hresult piece := by
    obtain ⟨hstate, rfl⟩ := buffer_eq_some_iff.mp hbuffer
    exact takes hstate hresult piece
  failed _ hbuffer _ _ := if_pos (buffer_eq_none_iff.mp hbuffer)
  accepted {flow value} _ hbuffer hresult piece := by
    refine ⟨flow, if_pos (buffer_eq_none_iff.mp hbuffer), hbuffer, hresult, rfl, ?_, trivial⟩
    rw [passes_eq_nil]
    rfl
  bridge_append _ _ _ := rfl

/-- What a driver sees of a reservation depends on the pieces alone. -/
theorem seen_eq (ops : List Op) : seen ops =
    (Front.run receiveHop accept (.waiting []) (Chunking.pieces ops)).seen fun _ _ => [] := by
  refine lawful.seenBy_run ?_ (fun _ => rfl) (.start trivial rfl rfl rfl rfl) ops
  rintro ⟨outbound, recvBuf, state, outcome, emitted⟩
  cases outbound <;> cases outcome <;> cases emitted <;> simp [reader]

end HopReservation

/-! ## HopConnect -/

namespace HopConnect

/-- The outcome of a STATUS message. -/
def accept (msg : HopMessage) : Option ConnectOutcome :=
  if msg.kind ≠ .status then none
  else
    let status := msg.status.getD .unused
    some (if status = .ok then .bridged msg.limit else .refused status (describeStatus status))

/-- The bytes behind the STATUS message that are passed on. -/
def bridge : ConnectOutcome → Bytes → Bytes
  | .bridged _, rest => rest
  | .refused _ _, _ => []

/-- How a connection attempt reads its answer. -/
def reader : Reader HopConnect HopConnectOutput ConnectOutcome where
  valid _ := True
  pending flow :=
    (if flow.outbound.isEmpty then [] else [.outbound flow.outbound]) ++
      (if flow.emittedOutcome then [] else flow.outcome.toList.map .outcome) ++
      if flow.bridgeBytes.isEmpty then [] else [.bridgeData flow.bridgeBytes]
  found
    | .outcome outcome => some outcome
    | .outbound _ | .bridgeData _ => none
  passed
    | .bridgeData bytes => bytes
    | .outbound _ | .outcome _ => []
  buffer flow := if flow.state = .done then none else some flow.recvBuf
  result flow := flow.outcome
  held _ := []

/-- What is seen of a new flow to a peer that is fed and polled. -/
def seen (targetPeerId : Bytes) (ops : List Op) : Seen ConnectOutcome :=
  reader.seenBy (Chunking.run (fun driven piece => driven.give (.data piece)) Driven.poll
    (Driven.start (new targetPeerId)) ops)

/-- Polling hands the queue of an attempt out in order. -/
theorem queues : Driven.Queues reader.pending where
  first flow := by
    obtain ⟨outbound, recvBuf, state, outcome, emitted, bridgeBytes⟩ := flow
    cases outbound <;> cases outcome <;> cases emitted <;> cases bridgeBytes <;> rfl
  rest flow := by
    obtain ⟨outbound, recvBuf, state, outcome, emitted, bridgeBytes⟩ := flow
    cases outbound <;> cases outcome <;> cases emitted <;> cases bridgeBytes <;> rfl

/-- The outcome is in the queue until it was handed out. -/
theorem finds_pending (flow : HopConnect) : reader.finds (reader.pending flow) =
    if flow.emittedOutcome then [] else flow.outcome.toList := by
  obtain ⟨outbound, recvBuf, state, outcome, emitted, bridgeBytes⟩ := flow
  cases outbound <;> cases outcome <;> cases emitted <;> cases bridgeBytes <;> rfl

/-- The bytes of the bridge are in the queue. -/
theorem passes_pending (flow : HopConnect) :
    reader.passes (reader.pending flow) = flow.bridgeBytes := by
  obtain ⟨outbound, recvBuf, state, outcome, emitted, bridgeBytes⟩ := flow
  cases outbound <;> cases outcome <;> cases emitted <;> cases bridgeBytes <;>
    simp [Reader.passes, reader]

/-- An attempt that waits takes a piece as the front does. -/
theorem takes {flow : HopConnect} (hstate : flow.state ≠ .done) (houtcome : flow.outcome = none)
    (piece : Bytes) : reader.Takes bridge flow (flow.handleInput (.data piece))
      (Front.read receiveHop accept (flow.recvBuf ++ piece)) := by
  have hinput : flow.handleInput (.data piece) =
      tryDecodeResponse { flow with recvBuf := flow.recvBuf ++ piece } := if_neg hstate
  rw [tryDecodeResponse, if_neg hstate] at hinput
  dsimp only at hinput
  rw [hinput, Front.read]
  cases receiveHop (flow.recvBuf ++ piece) with
  | error p => exact ⟨p, rfl⟩
  | ok received =>
    cases received with
    | incomplete => exact ⟨_, rfl, if_neg hstate, houtcome, rfl, trivial⟩
    | failed e => exact ⟨_, e, rfl, rfl, houtcome, rfl, trivial⟩
    | message msg rest =>
      dsimp only
      rw [accept]
      by_cases hkind : msg.kind ≠ .status
      · rw [if_pos hkind]
        exact ⟨_, _, if_pos hkind, rfl, houtcome, rfl, trivial⟩
      by_cases hok : msg.status.getD .unused = .ok
      · -- what came behind the STATUS is on the bridge
        simp only [if_neg hkind, if_pos hok]
        refine ⟨_, (if_neg hkind).trans (if_pos hok), rfl, rfl, ?_, ?_, trivial⟩
        · rw [finds_pending, finds_pending, houtcome]
          simp
        · rw [passes_pending, passes_pending]
          exact List.append_nil _
      · simp only [if_neg hkind, if_neg hok]
        refine ⟨_, (if_neg hkind).trans (if_neg hok), rfl, rfl, ?_, ?_, trivial⟩
        · rw [finds_pending, finds_pending, houtcome]
          simp
        · rw [passes_pending, passes_pending]
          rfl

/-- An attempt that is not done holds its buffer. -/
theorem buffer_eq_some_iff {flow : HopConnect} {buf : Bytes} :
    reader.buffer flow = some buf ↔ flow.state ≠ .done ∧ flow.recvBuf = buf := by
  simp only [reader]
  split <;> simp_all

theorem buffer_eq_none_iff {flow : HopConnect} :
    reader.buffer flow = none ↔ flow.state = .done := by
  simp only [reader]
  split <;> simp_all

/-- Polling leaves the buffer alone. -/
theorem buffer_pollOutput (flow : HopConnect) :
    reader.buffer flow.pollOutput.1 = reader.buffer flow := by
  obtain ⟨outbound, recvBuf, state, outcome, emitted, bridgeBytes⟩ := flow
  cases outbound <;> cases state <;> cases outcome <;> cases emitted <;> cases bridgeBytes <;> rfl

/-- An attempt reads one STATUS message, and passes on what is behind it. -/
theorem lawful : reader.Lawful .data receiveHop accept bridge where
  queues := queues
  poll flow := by
    refine ⟨buffer_pollOutput flow, ?_, rfl, id⟩
    obtain ⟨outbound, recvBuf, state, outcome, emitted, bridgeBytes⟩ := flow
    cases outbound <;> cases outcome <;> cases emitted <;> cases bridgeBytes <;> rfl
  waiting {flow buf} _ hbuffer hresult piece := by
    obtain ⟨hstate, rfl⟩ := buffer_eq_some_iff.mp hbuffer
    exact takes hstate hresult piece
  failed {flow} _ hbuffer hresult piece := by
    have houtcome : flow.outcome = none := hresult
    show flow.onData piece = _
    rw [onData, if_pos (buffer_eq_none_iff.mp hbuffer), houtcome]
    rfl
  accepted {flow outcome} _ hbuffer hresult piece := by
    have houtcome : flow.outcome = some outcome := hresult
    have hdone := buffer_eq_none_iff.mp hbuffer
    cases outcome with
    | bridged limit =>
      have hinput : flow.onData piece =
          .ok ({ flow with bridgeBytes := flow.bridgeBytes ++ piece }, .ok ()) := by
        rw [onData, if_pos hdone, houtcome]
        rfl
      refine ⟨_, hinput, hbuffer, hresult, ?_, ?_, trivial⟩
      · rw [finds_pending, finds_pending]
      · rw [passes_pending, passes_pending]
        simp [reader, bridge]
    | refused status reason =>
      have hinput : flow.onData piece = .ok (flow, .ok ()) := by
        rw [onData, if_pos hdone, houtcome]
        rfl
      refine ⟨flow, hinput, hbuffer, hresult, rfl, ?_, trivial⟩
      exact (List.append_nil _).symm
  bridge_append outcome first second := by cases outcome <;> rfl

/-- What a driver sees of an attempt depends on the pieces alone. -/
theorem seen_eq (targetPeerId : Bytes) (ops : List Op) : seen targetPeerId ops =
    (Front.run receiveHop accept (.waiting []) (Chunking.pieces ops)).seen bridge := by
  refine lawful.seenBy_run ?_ (fun _ => rfl) (.start trivial rfl rfl ?_ ?_) ops
  · rintro ⟨outbound, recvBuf, state, outcome, emitted, bridgeBytes⟩
    cases outbound <;> cases outcome <;> cases emitted <;> cases bridgeBytes <;> simp [reader]
  · exact finds_pending _
  · exact passes_pending _

end HopConnect

end Minip2p.Relay
