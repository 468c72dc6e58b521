import Minip2p.Core.Reader
import Minip2p.Relay.Flows

/-!
# What the host of the STOP flow sees

`StopResponder` reads a CONNECT message from the front of its stream and holds the bytes behind it
back until the host decides. The host decides once, whenever it likes after it has seen the
request; what it sees does not depend on when.
-/

namespace Minip2p.Relay

open SansIoProtocol (Driven)
open Wire (Front Seen)

/-- A STOP message is read from at most `maxMessageSize` bytes. -/
theorem receiveStop_bounded : Wire.Bounded maxMessageSize receiveStop :=
  Wire.receive_bounded _ _ _ _

/-- What a host does about a request. -/
inductive Decision
  | accept
  | reject (status : Status)
deriving DecidableEq, Repr

/-- The input by which the host says what it has decided. -/
def Decision.input : Decision → StopResponderInput
  | .accept => .accept
  | .reject status => .reject status

namespace StopResponder

/-- The request of a CONNECT message. -/
def acceptConnect (msg : StopMessage) : Option StopConnectRequest :=
  if msg.kind ≠ .connect then none else msg.peer.map fun peer => ⟨peer.id, msg.limit⟩

section

variable (host : StopConnectRequest → Decision)

/-- The bytes behind the CONNECT message that are passed on. -/
def bridge (request : StopConnectRequest) (rest : Bytes) : Bytes :=
  match host request with
  | .accept => rest
  | .reject _ => []

/-- The state of a flow is the one its request and the host's decision lead to. -/
def Valid (flow : StopResponder) : Prop :=
  match flow.state with
  | .awaitingConnect => flow.request = none
  | .awaitingDecision => flow.request.isSome
  | .bridged => ∃ request, flow.request = some request ∧ host request = .accept
  | .done => ∀ request ∈ flow.request, ∃ status, host request = .reject status

/-- The bytes that wait for the decision are held back. -/
def held (flow : StopResponder) : Bytes :=
  match flow.state, flow.request with
  | .awaitingDecision, some request => bridge host request flow.recvBuf
  | _, _ => []

/-- How a responder reads the request. -/
def reader : Reader StopResponder StopResponderOutput StopConnectRequest where
  valid := Valid host
  pending flow :=
    (if flow.emittedRequest then [] else flow.request.toList.map .request) ++
      (if flow.outbound.isEmpty then [] else [.outbound flow.outbound]) ++
      if flow.bridgeBytes.isEmpty then [] else [.bridgeData flow.bridgeBytes]
  found
    | .request request => some request
    | .outbound _ | .bridgeData _ => none
  passed
    | .bridgeData bytes => bytes
    | .outbound _ | .request _ => []
  buffer flow := if flow.state = .awaitingConnect then some flow.recvBuf else none
  result flow := flow.request
  held := held host

end

/-- What is done with a flow whose host decides about the request. -/
inductive StopOp
  | feed (piece : Bytes)
  | poll
  | decide
deriving DecidableEq, Repr

/-- The pieces in which the stream was fed. -/
def pieces : List StopOp → List Bytes
  | [] => []
  | .feed piece :: ops => piece :: pieces ops
  | .poll :: ops | .decide :: ops => pieces ops

/-- A flow and whether its host has decided. -/
structure Hosted where
  driven : Driven StopResponder StopResponderOutput RelayError
  decided : Bool

namespace Hosted

variable (host : StopConnectRequest → Decision)

/-- One step. The host decides once, after it has seen the request. -/
def apply (hosted : Hosted) : StopOp → Hosted
  | .feed piece => { hosted with driven := hosted.driven.give (.data piece) }
  | .poll => { hosted with driven := hosted.driven.poll }
  | .decide =>
    match hosted.decided, (reader host).finds hosted.driven.outputs with
    | false, request :: _ => ⟨hosted.driven.give (host request).input, true⟩
    | _, _ => hosted

/-- Some operations of the host, the oldest first. -/
def run (hosted : Hosted) (ops : List StopOp) : Hosted := ops.foldl (apply host) hosted

end Hosted

/-- What is seen of a new flow whose host, at the latest in the end, decides about the request. -/
def seen (host : StopConnectRequest → Decision) (ops : List StopOp) : Seen StopConnectRequest :=
  (reader host).seenBy (Hosted.run host ⟨Driven.start new, false⟩ (ops ++ [.poll, .decide])).driven

section

variable {host : StopConnectRequest → Decision}

/-- Polling hands the queue of a responder out in order. -/
theorem queues : Driven.Queues (reader host).pending where
  first flow := by
    obtain ⟨outbound, recvBuf, state, request, emitted, bridgeBytes⟩ := flow
    cases outbound <;> cases request <;> cases emitted <;> cases bridgeBytes <;> rfl
  rest flow := by
    obtain ⟨outbound, recvBuf, state, request, emitted, bridgeBytes⟩ := flow
    cases outbound <;> cases request <;> cases emitted <;> cases bridgeBytes <;> rfl

/-- The request is in the queue until it was handed out. -/
theorem finds_pending (flow : StopResponder) : (reader host).finds ((reader host).pending flow) =
    if flow.emittedRequest then [] else flow.request.toList := by
  obtain ⟨outbound, recvBuf, state, request, emitted, bridgeBytes⟩ := flow
  cases outbound <;> cases request <;> cases emitted <;> cases bridgeBytes <;> rfl

/-- The bytes of the bridge are in the queue. -/
theorem passes_pending (flow : StopResponder) :
    (reader host).passes ((reader host).pending flow) = flow.bridgeBytes := by
  obtain ⟨outbound, recvBuf, state, request, emitted, bridgeBytes⟩ := flow
  cases outbound <;> cases request <;> cases emitted <;> cases bridgeBytes <;>
    simp [Reader.passes, reader]

theorem bridge_append (request : StopConnectRequest) (first second : Bytes) :
    bridge host request (first ++ second) =
      bridge host request first ++ bridge host request second := by
  rw [bridge, bridge, bridge]
  cases host request with
  | accept => rfl
  | reject status => rfl

/-- A responder that waits takes a piece as the front does. -/
theorem takes {flow : StopResponder} (hstate : flow.state = .awaitingConnect)
    (hrequest : flow.request = none) (piece : Bytes) :
    (reader host).Takes (bridge host) flow (flow.handleInput (.data piece))
      (Front.read receiveStop acceptConnect (flow.recvBuf ++ piece)) := by
  have hinput : flow.handleInput (.data piece) =
      tryDecodeConnect { flow with recvBuf := flow.recvBuf ++ piece } := by
    show flow.onData piece = _
    rw [onData, if_neg (by rw [hstate]; decide), if_neg (by rw [hstate]; decide)]
  rw [tryDecodeConnect, if_neg (not_not.mpr hstate)] at hinput
  dsimp only at hinput
  have hdone : ∀ flow' : StopResponder, flow'.state = .done → flow'.request = none →
      (reader host).valid flow' := by
    intro flow' hstate' hrequest'
    show Valid host flow'
    rw [Valid, hstate', hrequest']
    rintro _ ⟨⟩
  rw [hinput, Front.read]
  cases receiveStop (flow.recvBuf ++ piece) with
  | error p => exact ⟨p, rfl⟩
  | ok received =>
    cases received with
    | incomplete =>
      refine ⟨_, rfl, if_pos hstate, hrequest, rfl, ?_⟩
      show Valid host _
      simp only [Valid, hstate]
      exact hrequest
    | failed e => exact ⟨_, e, rfl, rfl, hrequest, rfl, hdone _ rfl hrequest⟩
    | message msg rest =>
      dsimp only
      rw [acceptConnect]
      by_cases hkind : msg.kind ≠ .connect
      · rw [if_pos hkind]
        exact ⟨_, _, if_pos hkind, rfl, hrequest, rfl, hdone _ rfl hrequest⟩
      cases hpeer : msg.peer with
      | none =>
        simp only [if_neg hkind, Option.map_none]
        refine ⟨{ flow with recvBuf := rest, state := .done },
          .unexpectedMessage "STOP CONNECT missing peer field", (if_neg hkind).trans ?_, rfl,
          hrequest, rfl, hdone _ rfl hrequest⟩
        rw [hpeer]
        rfl
      | some peer =>
        simp only [if_neg hkind, Option.map_some]
        refine ⟨{ flow with
          recvBuf := rest, request := some ⟨peer.id, msg.limit⟩, emittedRequest := false,
          state := .awaitingDecision }, (if_neg hkind).trans ?_, rfl, rfl, ?_, ?_, rfl⟩
        · rw [hpeer]
          rfl
        · rw [finds_pending, finds_pending, hrequest]
          simp
        · rw [passes_pending, passes_pending]
          rfl

/-- A flow that has found its request. -/
theorem buffer_eq_none_iff {flow : StopResponder} :
    (reader host).buffer flow = none ↔ flow.state ≠ .awaitingConnect := by
  simp only [reader]
  split <;> simp_all

/-- A responder that waits for the request holds its buffer. -/
theorem buffer_eq_some_iff {flow : StopResponder} {buf : Bytes} :
    (reader host).buffer flow = some buf ↔
      flow.state = .awaitingConnect ∧ flow.recvBuf = buf := by
  simp only [reader]
  split <;> simp_all

/-- A responder reads one CONNECT, and what is behind it as the host decides. -/
theorem lawful : (reader host).Lawful .data receiveStop acceptConnect (bridge host) where
  queues := queues
  poll flow := by
    obtain ⟨outbound, recvBuf, state, request, emitted, bridgeBytes⟩ := flow
    refine ⟨?_, ?_, ?_, ?_⟩
    · cases outbound <;> cases request <;> cases emitted <;> cases bridgeBytes <;> rfl
    · cases outbound <;> cases request <;> cases emitted <;> cases bridgeBytes <;> rfl
    · cases outbound <;> cases request <;> cases emitted <;> cases bridgeBytes <;> rfl
    · intro hvalid
      cases outbound <;> cases request <;> cases emitted <;> cases bridgeBytes <;> exact hvalid
  waiting {flow buf} _ hbuffer hresult piece := by
    obtain ⟨hstate, rfl⟩ := buffer_eq_some_iff.mp hbuffer
    exact takes hstate hresult piece
  failed {flow} hvalid hbuffer hresult piece := by
    have hrequest : flow.request = none := hresult
    have hstate := buffer_eq_none_iff.mp hbuffer
    change Valid host flow at hvalid
    show flow.onData piece = _
    cases hflow : flow.state with
    | awaitingConnect => exact absurd hflow hstate
    | awaitingDecision =>
      rw [Valid, hflow, hrequest] at hvalid
      cases hvalid
    | done => rw [onData, if_neg (by rw [hflow]; decide), if_pos hflow]; rfl
    | bridged =>
      rw [Valid, hflow, hrequest] at hvalid
      obtain ⟨_, ⟨⟩, _⟩ := hvalid
  accepted {flow request} hvalid hbuffer hresult piece := by
    have hrequest : flow.request = some request := hresult
    have hstate := buffer_eq_none_iff.mp hbuffer
    change Valid host flow at hvalid
    cases hflow : flow.state with
    | awaitingConnect => exact absurd hflow hstate
    | awaitingDecision =>
      have hinput : flow.onData piece =
          .ok ({ flow with recvBuf := flow.recvBuf ++ piece }, .ok ()) := by
        rw [onData, if_neg (by rw [hflow]; decide), if_neg (by rw [hflow]; decide),
          tryDecodeConnect, if_pos (by rw [hflow]; decide)]
        rfl
      refine ⟨_, hinput, buffer_eq_none_iff.mpr hstate, hresult, rfl, ?_, hvalid⟩
      rw [passes_pending, passes_pending, List.append_assoc]
      show flow.bridgeBytes ++ held host _ = flow.bridgeBytes ++ (held host flow ++ _)
      simp only [held, hflow, hrequest, ← bridge_append]
    | done =>
      rw [Valid, hflow] at hvalid
      obtain ⟨status, hhost⟩ := hvalid request hrequest
      have hinput : flow.onData piece = .ok (flow, .ok ()) := by
        rw [onData, if_neg (by rw [hflow]; decide), if_pos hflow]
        rfl
      refine ⟨flow, hinput, hbuffer, hresult, rfl, ?_, ?_⟩
      · rw [bridge, hhost, List.append_nil]
      · show Valid host flow
        rw [Valid, hflow]
        exact fun r hr => by rw [hrequest] at hr; cases hr; exact ⟨status, hhost⟩
    | bridged =>
      rw [Valid, hflow] at hvalid
      obtain ⟨request', hrequest', hhost⟩ := hvalid
      obtain rfl : request = request' := Option.some.inj (hrequest.symm.trans hrequest')
      have hinput : flow.onData piece =
          .ok ({ flow with bridgeBytes := flow.bridgeBytes ++ piece }, .ok ()) := by
        rw [onData, if_pos hflow]
        rfl
      refine ⟨_, hinput, hbuffer, hresult, ?_, ?_, ?_⟩
      · rw [finds_pending, finds_pending]
      · rw [passes_pending, passes_pending]
        show _ ++ held host _ = _ ++ held host flow ++ _
        simp only [held, hflow, bridge, hhost, List.append_nil]
      · show Valid host _
        simp only [Valid, hflow]
        exact ⟨request, hrequest, hhost⟩
  bridge_append := bridge_append

/-! ## The decision -/

theorem held_eq_nil {flow : StopResponder} (h : flow.state ≠ .awaitingDecision) :
    (reader host).held flow = [] := by
  show held host flow = []
  rw [held]
  split
  · next hstate _ => exact absurd hstate h
  · rfl

/-- The host of the flow has decided. -/
def decided (flow : StopResponder) : Bool :=
  flow.request.isSome && flow.state != .awaitingDecision

theorem decided_of_none {flow : StopResponder} (h : flow.request = none) :
    flow.decided = false := by
  rw [decided, h]
  rfl

/-- Decoding does not decide. -/
theorem decided_of_tryDecodeConnect {flow after : StopResponder} {result : Except RelayError Unit}
    (hrequest : flow.request = none) (h : flow.tryDecodeConnect = .ok (after, result)) :
    after.decided = false := by
  rw [tryDecodeConnect] at h
  split at h
  · cases h
    exact decided_of_none hrequest
  obtain ⟨received, -, h⟩ := Except.bind_eq_ok_iff.mp h
  cases received with
  | incomplete | failed =>
    cases h
    exact decided_of_none hrequest
  | message msg rest =>
    dsimp only at h
    split at h
    · cases h
      exact decided_of_none hrequest
    split at h
    · cases h
      exact decided_of_none hrequest
    · cases h
      rfl

/-- Bytes of the relay decide nothing. -/
theorem decided_of_data {flow after : StopResponder} {piece : Bytes}
    {result : Except RelayError Unit} (hvalid : Valid host flow)
    (h : flow.handleInput (.data piece) = .ok (after, result)) :
    after.decided = flow.decided := by
  change flow.onData piece = _ at h
  cases hflow : flow.state with
  | bridged =>
    rw [onData, if_pos hflow] at h
    cases h
    rfl
  | done =>
    rw [onData, if_neg (by rw [hflow]; decide), if_pos hflow] at h
    cases h
    rfl
  | awaitingDecision =>
    rw [onData, if_neg (by rw [hflow]; decide), if_neg (by rw [hflow]; decide),
      tryDecodeConnect, if_pos (by rw [hflow]; decide)] at h
    cases h
    rfl
  | awaitingConnect =>
    rw [Valid, hflow] at hvalid
    rw [onData, if_neg (by rw [hflow]; decide), if_neg (by rw [hflow]; decide)] at h
    have hextended : StopResponder.request { flow with recvBuf := flow.recvBuf ++ piece } = none :=
      hvalid
    rw [decided_of_none hvalid]
    exact decided_of_tryDecodeConnect hextended h

/-- The host has decided exactly if the flow is past its decision. -/
def Hosted.Shows (host : StopConnectRequest → Decision) (hosted : Hosted)
    (front : Front StopConnectRequest) : Prop :=
  (reader host).Shows (bridge host) hosted.driven front ∧
    ∀ flow ∈ hosted.driven.machine, hosted.decided = flow.decided

namespace Hosted

variable {hosted : Hosted} {front : Front StopConnectRequest}

/-- A piece moves the hosted responder as it moves the front. -/
theorem Shows.feed (h : hosted.Shows host front) (piece : Bytes) :
    (hosted.apply host (.feed piece)).Shows host
      (Front.feed receiveStop acceptConnect front piece) := by
  refine ⟨h.1.give lawful piece, ?_⟩
  obtain ⟨⟨machine, outputs, errors⟩, isDecided⟩ := hosted
  intro after hafter
  cases machine with
  | none => cases hafter
  | some flow =>
    obtain ⟨result, hinput⟩ := Driven.handleInput_of_give hafter
    have hvalid : Valid host flow := by
      cases h.1 with
      | waiting hvalid | failed hvalid | accepted hvalid => exact hvalid
    exact (h.2 flow rfl).trans (decided_of_data hvalid hinput).symm

/-- A poll, with the answer of the host if the request came out, leaves the front alone. -/
theorem Shows.poll (h : hosted.Shows host front) : (hosted.apply host .poll).Shows host front := by
  refine ⟨h.1.poll lawful, ?_⟩
  obtain ⟨⟨machine, outputs, errors⟩, isDecided⟩ := hosted
  intro after hafter
  cases machine with
  | none => cases hafter
  | some flow =>
    obtain rfl : flow.pollOutput.1 = after := Option.some.inj hafter
    refine (h.2 flow rfl).trans ?_
    obtain ⟨outbound, recvBuf, state, request, emitted, bridgeBytes⟩ := flow
    cases outbound <;> cases request <;> cases emitted <;> cases bridgeBytes <;> rfl

/-- A caller that has seen the request: it is what the flow has come to. -/
theorem accepted_of_finds {flow : StopResponder} {outputs : List StopResponderOutput}
    {errors : List RelayError} {request : StopConnectRequest} {more : List StopConnectRequest}
    (h : (reader host).Shows (bridge host) ⟨some flow, outputs, errors⟩ front)
    (hfinds : (reader host).finds outputs = request :: more) :
    ∃ rest, front = .accepted request rest ∧ flow.request = some request ∧ errors = [] ∧
      Valid host flow ∧
      (reader host).finds (outputs ++ (reader host).pending flow) = [request] ∧
      (reader host).passes (outputs ++ (reader host).pending flow) ++ held host flow =
        bridge host request rest := by
  cases h with
  | waiting hvalid hbuffer hresult hnone hpasses | failed hvalid hbuffer hresult hnone hpasses =>
    rw [Reader.finds_append, hfinds] at hnone
    cases hnone
  | @accepted flow outputs value rest hvalid hbuffer hresult hone hpasses =>
    have hrequest : value = request := by
      rw [Reader.finds_append, hfinds] at hone
      exact (List.cons.inj hone).1.symm
    subst hrequest
    exact ⟨rest, rfl, hresult, rfl, hvalid, hone, hpasses⟩

/-- A decision ends the wait: the bytes held back are passed on or dropped. -/
theorem Shows.decide (h : hosted.Shows host front) :
    (hosted.apply host .decide).Shows host front := by
  obtain ⟨⟨machine, outputs, errors⟩, isDecided⟩ := hosted
  cases isDecided with
  | true => exact h
  | false =>
    cases hfinds : (reader host).finds outputs with
    | nil =>
      simp only [apply, hfinds]
      exact h
    | cons request more =>
      simp only [apply, hfinds]
      cases machine with
      | none => exact ⟨h.1, by rintro _ ⟨⟩⟩
      | some flow =>
        obtain ⟨rest, rfl, hrequest, rfl, hvalid, hone, hpasses⟩ := accepted_of_finds h.1 hfinds
        have hstate : flow.state = .awaitingDecision := by
          have hundecided : false = flow.decided := h.2 flow rfl
          rw [StopResponder.decided, hrequest] at hundecided
          simpa using hundecided
        rw [Reader.finds_append, finds_pending] at hone
        rw [Reader.passes_append, passes_pending, held, hstate, hrequest] at hpasses
        cases hhost : host request with
        | accept =>
          have hinput : flow.handleInput .accept = .ok ({ flow with
              outbound := flow.outbound ++ encodeFrame (StopMessage.encode ⟨.status, none, none,
                some .ok⟩)
              state := .bridged, bridgeBytes := flow.bridgeBytes ++ flow.recvBuf
              recvBuf := [] }, .ok ()) := by
            show Except.ok flow.accept = _
            rw [StopResponder.accept, sendStatus, if_neg (not_not.mpr hstate)]
          have hgive : Driven.give ⟨some flow, outputs, []⟩ Decision.accept.input = _ :=
            Driven.give_ok hinput
          rw [hgive]
          refine ⟨.accepted ⟨request, hrequest, hhost⟩ rfl hrequest ?_ ?_, ?_⟩
          · rw [Reader.finds_append, finds_pending]
            exact hone
          · rw [held_eq_nil (by simp), ← hpasses, Reader.passes_append, passes_pending]
            simp only [bridge, hhost, List.append_assoc, List.append_nil]
          · rintro _ ⟨⟩
            rw [StopResponder.decided, hrequest]
            rfl
        | reject status =>
          have hinput : flow.handleInput (.reject status) = .ok ({ flow with
              outbound := flow.outbound ++ encodeFrame (StopMessage.encode ⟨.status, none, none,
                some status⟩)
              state := .done }, .ok ()) := by
            show Except.ok (flow.reject status) = _
            rw [StopResponder.reject, sendStatus, if_neg (not_not.mpr hstate)]
          have hgive : Driven.give ⟨some flow, outputs, []⟩ (Decision.reject status).input = _ :=
            Driven.give_ok hinput
          rw [hgive]
          have hrejected : ∀ request' ∈ flow.request, ∃ status, host request' = .reject status := by
            intro request' hrequest'
            obtain rfl := Option.some.inj (hrequest.symm.trans hrequest')
            exact ⟨status, hhost⟩
          refine ⟨.accepted hrejected rfl hrequest ?_ ?_, ?_⟩
          · rw [Reader.finds_append, finds_pending]
            exact hone
          · rw [held_eq_nil (by simp), ← hpasses, Reader.passes_append, passes_pending]
            simp only [bridge, hhost]
          · rintro _ ⟨⟩
            rw [StopResponder.decided, hrequest]
            rfl

/-- Any operations move the hosted responder as their pieces move the front. -/
theorem Shows.run (h : hosted.Shows host front) (ops : List StopOp) :
    (hosted.run host ops).Shows host (Front.run receiveStop acceptConnect front (pieces ops)) := by
  induction ops generalizing hosted front with
  | nil => exact h
  | cons op ops ih =>
    cases op with
    | feed piece => exact ih (h.feed piece)
    | poll => exact ih h.poll
    | decide => exact ih h.decide

/-- A request that was found is handed out or will be. -/
theorem finds_of_request {flow : StopResponder} {outputs : List StopResponderOutput}
    {errors : List RelayError} {request : StopConnectRequest}
    (h : (reader host).Shows (bridge host) ⟨some flow, outputs, errors⟩ front)
    (hrequest : flow.request = some request) :
    (reader host).finds (outputs ++ (reader host).pending flow) = [request] := by
  cases h with
  | waiting hvalid hbuffer hresult | failed hvalid hbuffer hresult =>
    cases hresult.symm.trans hrequest
  | accepted hvalid hbuffer hresult hfinds =>
    obtain rfl := Option.some.inj (hresult.symm.trans hrequest)
    exact hfinds

theorem emitted_pollOutput {flow : StopResponder} {request : StopConnectRequest}
    (h : flow.pollOutput.1.request = some request) :
    flow.pollOutput.1.emittedRequest = true := by
  obtain ⟨outbound, recvBuf, state, request', emitted, bridgeBytes⟩ := flow
  cases outbound <;> cases request' <;> cases emitted <;> cases bridgeBytes <;>
    first | rfl | cases h

/-- A host that has not decided has seen no request. -/
theorem decide_undecided (h : (hosted.apply host .decide).decided = false) :
    hosted.apply host .decide = hosted ∧ (reader host).finds hosted.driven.outputs = [] := by
  obtain ⟨driven, isDecided⟩ := hosted
  cases isDecided with
  | true => cases h
  | false =>
    cases hfinds : (reader host).finds driven.outputs with
    | nil => exact ⟨by simp only [apply, hfinds], rfl⟩
    | cons request more =>
      simp only [apply, hfinds] at h
      cases h

/-- A poll shows the request, and then the host decides: nothing is held back any more. -/
theorem held_after_decide (h : hosted.Shows host front) :
    ∀ flow ∈ ((hosted.apply host .poll).apply host .decide).driven.machine,
      (reader host).held flow = [] := by
  intro flow hflow
  by_cases hstate : flow.state = .awaitingDecision
  · cases hrequest : flow.request with
    | none =>
      show held host flow = []
      rw [held, hstate, hrequest]
    | some request =>
      exfalso
      have hdecided := h.poll.decide.2 flow hflow
      rw [StopResponder.decided, hrequest, hstate] at hdecided
      obtain ⟨hsame, hfinds⟩ := decide_undecided hdecided
      rw [hsame] at hflow
      have hpolled := h.poll.1
      obtain ⟨⟨machine, outputs, errors⟩, isDecided⟩ := hosted
      cases machine with
      | none => cases hflow
      | some before =>
        obtain rfl : before.pollOutput.1 = flow := Option.some.inj hflow
        have hone := finds_of_request hpolled hrequest
        have hemitted : (SansIoProtocol.pollOutput before).1.emittedRequest = true :=
          emitted_pollOutput hrequest
        rw [Reader.finds_append, finds_pending, hemitted, if_pos rfl, List.append_nil] at hone
        cases hfinds.symm.trans hone
  · exact held_eq_nil hstate

end Hosted

/-- What a host sees of a responder depends on the pieces alone. -/
theorem seen_eq (host : StopConnectRequest → Decision) (ops : List StopOp) : seen host ops =
    (Front.run receiveStop acceptConnect (.waiting []) (pieces ops)).seen (bridge host) := by
  have hstart : Hosted.Shows host ⟨Driven.start new, false⟩ (.waiting []) := by
    refine ⟨.start rfl rfl rfl rfl rfl, ?_⟩
    rintro _ ⟨⟩
    rfl
  have hops := hstart.run ops
  have hend := hops.poll.decide
  have hpending : ∀ flow, ((reader host).pending flow).length ≤ 3 := by
    rintro ⟨outbound, recvBuf, state, request, emitted, bridgeBytes⟩
    cases outbound <;> cases request <;> cases emitted <;> cases bridgeBytes <;> simp [reader]
  have hrun : Hosted.run host ⟨Driven.start new, false⟩ (ops ++ [.poll, .decide]) =
      ((Hosted.run host ⟨Driven.start new, false⟩ ops).apply host .poll).apply host .decide := by
    rw [Hosted.run, List.foldl_append]
    rfl
  rw [seen, hrun]
  exact hend.1.seenBy lawful hpending (Hosted.held_after_decide hops)

end

end StopResponder

end Minip2p.Relay
