import Minip2p.Core.WireRoundTrip
import Minip2p.Relay.HopFront
import Minip2p.Relay.StopFront

/-!
# Nothing of the bridge is lost

Whatever comes behind the frame that opens a bridge belongs to the bridge: it waits in the frame
buffer, in the bridge buffer, or has been handed out. `HopConnect.Stands` and `StopResponder.Stands`
say of a flow where the bytes are that it has received; every input that is not answered with an
error and every poll keeps them.
-/

namespace Minip2p.Relay

open SansIoProtocol (Call Reply inputs outputs errors)
open Wire (firstMessage)

/-- The stream bytes of an input. -/
def HopInput.bytes : HopInput → Bytes
  | .data bytes => bytes
  | .flush | .remoteWriteClosed => []

/-- The stream bytes of an input. -/
def StopResponderInput.bytes : StopResponderInput → Bytes
  | .data bytes => bytes
  | .flush | .remoteWriteClosed | .accept | .reject _ => []

/-! ## HopConnect -/

namespace HopConnect

/-- The stream that was fed. -/
def received (calls : List (Call HopInput)) : Bytes := (inputs calls).flatMap HopInput.bytes

/-- The bytes behind the STATUS frame, if it says OK. -/
def afterStatusOk (stream : Bytes) : Bytes :=
  match firstMessage HopMessage.decode stream with
  | some (msg, rest) => if msg.kind = .status ∧ msg.status = some .ok then rest else []
  | none => []

/-- What has been handed out of the bridge. -/
def bridged (outputs : List HopConnectOutput) : Bytes :=
  outputs.flatMap fun
    | .bridgeData bytes => bytes
    | .outbound _ | .outcome _ => []

/-- The outcomes among some outputs. -/
def outcomes (outputs : List HopConnectOutput) : List ConnectOutcome :=
  outputs.filterMap fun
    | .outcome outcome => some outcome
    | .outbound _ | .bridgeData _ => none

/-- What has come out of a flow, with the bytes it still holds for the bridge, is what it should be
made of the stream. -/
structure Lossless (stream : Bytes) (outputs : List HopConnectOutput) (flow : HopConnect) :
    Prop where
  bridged_eq : bridged outputs ++ flow.bridgeBytes = afterStatusOk stream
  once : (outcomes outputs).length ≤ 1
  outcome_first : ∀ before bytes after, outputs = before ++ .bridgeData bytes :: after →
    outcomes before ≠ []
  refused : ∀ status reason, .refused status reason ∈ outcomes outputs →
    (∀ bytes, .bridgeData bytes ∉ outputs) ∧ flow.bridgeBytes = []

/-- Nothing but requests has come out. -/
def Quiet (outputs : List HopConnectOutput) : Prop :=
  ∀ output ∈ outputs, ∃ bytes, output = .outbound bytes

/-- Where the bytes of the stream are, if no input was answered with an error. -/
inductive Stands (stream : Bytes) (outputs : List HopConnectOutput) (flow : HopConnect) : Prop
  /-- The STATUS frame is not complete. -/
  | waiting (hstate : flow.state ≠ .done) (hbuf : flow.recvBuf = stream)
    (hfirst : firstMessage HopMessage.decode stream = none) (houtcome : flow.outcome = none)
    (hbridge : flow.bridgeBytes = []) (hquiet : Quiet outputs)
  /-- The outcome is known. -/
  | held {msg rest outcome} (hstate : flow.state = .done)
    (hfirst : firstMessage HopMessage.decode stream = some (msg, rest))
    (haccept : accept msg = some outcome) (houtcome : flow.outcome = some outcome)
    (hemitted : flow.emittedOutcome = false) (hbridge : flow.bridgeBytes = bridge outcome rest)
    (hquiet : Quiet outputs)
  /-- The outcome was handed out, and some of the bridge. -/
  | shown {msg rest outcome request} {pieces : List Bytes} (hstate : flow.state = .done)
    (hfirst : firstMessage HopMessage.decode stream = some (msg, rest))
    (haccept : accept msg = some outcome) (houtcome : flow.outcome = some outcome)
    (hemitted : flow.emittedOutcome = true) (houtbound : flow.outbound = [])
    (hbridge : pieces.flatten ++ flow.bridgeBytes = bridge outcome rest)
    (hpieces : ∀ piece ∈ pieces, piece ≠ []) (hquiet : Quiet request)
    (houtputs : outputs = request ++ .outcome outcome :: pieces.map .bridgeData)

variable {stream piece : Bytes} {outputs : List HopConnectOutput} {flow flow' : HopConnect}

/-- A new attempt waits. -/
theorem stands_new (targetPeerId : Bytes) : Stands [] [] (new targetPeerId) :=
  .waiting (by rintro ⟨⟩) rfl rfl rfl rfl fun _ h => absurd h List.not_mem_nil

/-- A flow that waits goes on waiting, or comes to its outcome. -/
theorem of_tryDecodeResponse (flow : HopConnect) (hstate : flow.state ≠ .done)
    (h : flow.tryDecodeResponse = .ok (flow', .ok ())) :
    (firstMessage HopMessage.decode flow.recvBuf = none ∧ flow' = flow) ∨
      ∃ msg rest outcome recvBuf,
        firstMessage HopMessage.decode flow.recvBuf = some (msg, rest) ∧
          accept msg = some outcome ∧
          flow' = { flow with
            recvBuf, state := .done, outcome := some outcome, emittedOutcome := false
            bridgeBytes := flow.bridgeBytes ++ bridge outcome rest } := by
  rw [tryDecodeResponse, if_neg hstate] at h
  obtain ⟨received, hreceive, h⟩ := Except.bind_eq_ok_iff.mp h
  cases received with
  | incomplete =>
    cases h
    exact .inl ⟨Wire.firstMessage_of_incomplete hreceive, rfl⟩
  | failed e => cases h
  | message msg rest =>
    have hfirst := Wire.firstMessage_of_message hreceive
    dsimp only at h
    by_cases hkind : msg.kind ≠ .status
    · rw [if_pos hkind] at h
      cases h
    rw [if_neg hkind] at h
    by_cases hok : msg.status.getD .unused = .ok
    · rw [if_pos hok] at h
      cases h
      refine .inr ⟨msg, rest, .bridged msg.limit, [], hfirst, ?_, rfl⟩
      rw [accept, if_neg hkind, hok]
      rfl
    · rw [if_neg hok] at h
      cases h
      refine .inr ⟨msg, rest, .refused (msg.status.getD .unused)
        (describeStatus (msg.status.getD .unused)), rest, hfirst, ?_, ?_⟩
      · rw [accept, if_neg hkind]
        simp only [if_neg hok]
      · rw [bridge, List.append_nil]

theorem bridge_append (outcome : ConnectOutcome) (first second : Bytes) :
    bridge outcome (first ++ second) = bridge outcome first ++ bridge outcome second := by
  cases outcome <;> rfl

/-- A flow that has its outcome passes on what comes if there is a bridge. -/
theorem onData_done {outcome : ConnectOutcome} (hstate : flow.state = .done)
    (houtcome : flow.outcome = some outcome) : flow.onData piece =
      .ok ({ flow with bridgeBytes := flow.bridgeBytes ++ bridge outcome piece }, .ok ()) := by
  rw [onData, if_pos hstate]
  split
  · next limit hlimit =>
    obtain rfl := Option.some.inj (houtcome.symm.trans hlimit)
    rfl
  · next hother =>
    cases outcome with
    | bridged limit => exact absurd houtcome (hother limit)
    | refused status reason =>
      rw [bridge, List.append_nil]
      rfl

/-- More bytes of the stream are kept: in the buffer, or for the bridge. -/
theorem Stands.data (h : Stands stream outputs flow)
    (hdata : flow.onData piece = .ok (flow', .ok ())) : Stands (stream ++ piece) outputs flow' := by
  cases h with
  | waiting hstate hbuf hfirst houtcome hbridge hquiet =>
    rw [onData, if_neg hstate, hbuf] at hdata
    obtain ⟨hfirst, rfl⟩ | ⟨msg, rest, outcome, recvBuf, hfirst, haccept, rfl⟩ :=
      of_tryDecodeResponse { flow with recvBuf := stream ++ piece } hstate hdata
    · exact .waiting hstate rfl hfirst houtcome hbridge hquiet
    · exact .held rfl hfirst haccept rfl rfl (by rw [hbridge, List.nil_append]) hquiet
  | held hstate hfirst haccept houtcome hemitted hbridge hquiet =>
    rw [onData_done hstate houtcome] at hdata
    cases hdata
    exact .held hstate (Wire.firstMessage_append hfirst piece) haccept houtcome hemitted
      (by rw [hbridge, bridge_append]) hquiet
  | shown hstate hfirst haccept houtcome hemitted houtbound hbridge hpieces hquiet houtputs =>
    rw [onData_done hstate houtcome] at hdata
    cases hdata
    exact .shown hstate (Wire.firstMessage_append hfirst piece) haccept houtcome hemitted houtbound
      (by rw [← List.append_assoc, hbridge, bridge_append]) hpieces hquiet houtputs

/-- The end of the stream is looked at as an empty piece of it. -/
theorem remoteWriteClosed_eq (flow : HopConnect) :
    flow.tryDecodeResponse = flow.onData [] := by
  rw [onData]
  simp only [List.append_nil]
  split
  · next hdone =>
    rw [tryDecodeResponse, if_pos hdone]
    split <;> rfl
  · rfl

/-- An input that was not answered with an error loses nothing. -/
theorem Stands.handleInput {input : HopInput} (h : Stands stream outputs flow)
    (hinput : flow.handleInput input = .ok (flow', .ok ())) :
    Stands (stream ++ input.bytes) outputs flow' := by
  cases input with
  | flush =>
    cases hinput
    rwa [HopInput.bytes, List.append_nil]
  | data bytes => exact h.data hinput
  | remoteWriteClosed => exact h.data ((remoteWriteClosed_eq flow).symm.trans hinput)

theorem Quiet.outbound (h : Quiet outputs) (bytes : Bytes) :
    Quiet (outputs ++ [.outbound bytes]) := by
  intro output hmem
  rcases List.mem_append.mp hmem with hmem | hmem
  · exact h output hmem
  · exact ⟨bytes, List.mem_singleton.mp hmem⟩

/-- What is polled moves from the flow to the outputs. -/
theorem Stands.poll (h : Stands stream outputs flow) :
    Stands stream (outputs ++ flow.pollOutput.2.toList) flow.pollOutput.1 := by
  obtain ⟨outbound, recvBuf, state, outcome, emitted, bridgeBytes⟩ := flow
  cases h with
  | waiting hstate hbuf hfirst houtcome hbridge hquiet =>
    dsimp only at hstate hbuf houtcome hbridge
    subst houtcome hbridge hbuf
    have hstate' : (if state = .pending then FlowState.awaitingResponse else state) ≠ .done := by
      split
      · rintro ⟨⟩
      · exact hstate
    cases outbound with
    | nil =>
      rw [show (pollOutput ⟨[], recvBuf, state, none, emitted, []⟩).2 = none by
        cases emitted <;> rfl]
      rw [Option.toList_none, List.append_nil]
      cases emitted <;> exact .waiting hstate' rfl hfirst rfl rfl hquiet
    | cons byte rest => exact .waiting hstate' rfl hfirst rfl rfl (hquiet.outbound _)
  | @held msg rest answer hstate hfirst haccept houtcome hemitted hbridge hquiet =>
    dsimp only at hstate houtcome hemitted hbridge
    subst hstate houtcome hemitted hbridge
    cases outbound with
    | nil =>
      have houtputs : outputs ++ [.outcome answer] =
          outputs ++ .outcome answer :: ([] : List Bytes).map .bridgeData := rfl
      exact .shown rfl hfirst haccept rfl rfl rfl rfl (fun _ h => absurd h List.not_mem_nil) hquiet
        houtputs
    | cons byte rest => exact .held rfl hfirst haccept rfl rfl rfl (hquiet.outbound _)
  | @shown msg rest answer request pieces hstate hfirst haccept houtcome hemitted houtbound hbridge
      hpieces hquiet houtputs =>
    dsimp only at hstate houtcome hemitted houtbound hbridge
    subst hstate houtcome hemitted houtbound houtputs
    cases bridgeBytes with
    | nil =>
      refine .shown rfl hfirst haccept rfl rfl rfl hbridge hpieces hquiet ?_
      exact List.append_nil _
    | cons byte more =>
      have hlast : (request ++ .outcome answer :: pieces.map .bridgeData) ++
          [.bridgeData (byte :: more)] =
          request ++ .outcome answer :: (pieces ++ [byte :: more]).map .bridgeData := by
        rw [List.append_assoc, List.map_append]
        rfl
      refine .shown rfl hfirst haccept rfl rfl rfl ?_ ?_ hquiet hlast
      · rw [List.flatten_append, List.flatten_singleton]
        exact (List.append_nil _).trans hbridge
      · intro piece hmem
        rcases List.mem_append.mp hmem with hmem | hmem
        · exact hpieces piece hmem
        · rw [List.mem_singleton.mp hmem]
          rintro ⟨⟩

/-- The bridge of a STATUS message that is accepted. -/
theorem afterStatusOk_eq {msg : HopMessage} {rest : Bytes} {outcome : ConnectOutcome}
    (hfirst : firstMessage HopMessage.decode stream = some (msg, rest))
    (haccept : accept msg = some outcome) : afterStatusOk stream = bridge outcome rest := by
  simp only [afterStatusOk, hfirst]
  rw [accept] at haccept
  split at haccept
  · cases haccept
  next hkind =>
  obtain rfl := Option.some.inj haccept
  cases hstatus : msg.status with
  | none => rw [if_neg (fun h => by cases h.2)]; rfl
  | some status =>
    rw [Option.getD_some]
    by_cases hok : status = .ok
    · subst hok
      rw [if_pos ⟨not_not.mp hkind, rfl⟩]
      rfl
    · rw [if_neg (fun h => hok (Option.some.inj h.2)), if_neg hok]
      rfl

theorem Quiet.bridged_eq_nil (h : Quiet outputs) : bridged outputs = [] := by
  rw [bridged, List.flatMap_eq_nil_iff]
  intro output hmem
  obtain ⟨bytes, rfl⟩ := h output hmem
  rfl

theorem Quiet.outcomes_eq_nil (h : Quiet outputs) : outcomes outputs = [] := by
  rw [outcomes, List.filterMap_eq_nil_iff]
  intro output hmem
  obtain ⟨bytes, rfl⟩ := h output hmem
  rfl

/-- Nothing of the bridge has come out before the outcome. -/
theorem Quiet.not_mem (h : Quiet outputs) (bytes : Bytes) : .bridgeData bytes ∉ outputs := by
  intro hmem
  obtain ⟨_, ⟨⟩⟩ := h _ hmem

/-- A flow from which nothing but the request has come. -/
theorem Lossless.of_quiet (hquiet : Quiet outputs)
    (hbridge : flow.bridgeBytes = afterStatusOk stream) :
    Lossless stream outputs flow where
  bridged_eq := by rw [hquiet.bridged_eq_nil, List.nil_append, hbridge]
  once := by rw [hquiet.outcomes_eq_nil]; exact Nat.zero_le 1
  outcome_first before bytes _ h :=
    absurd (h ▸ List.mem_append_right before List.mem_cons_self) (hquiet.not_mem bytes)
  refused status reason h := by
    rw [hquiet.outcomes_eq_nil] at h
    exact absurd h List.not_mem_nil

/-- Wherever the bytes are, none is lost. -/
theorem Stands.lossless (h : Stands stream outputs flow) : Lossless stream outputs flow := by
  cases h with
  | waiting hstate hbuf hfirst houtcome hbridge hquiet =>
    refine .of_quiet hquiet ?_
    rw [afterStatusOk, hfirst, hbridge]
  | held hstate hfirst haccept houtcome hemitted hbridge hquiet =>
    refine .of_quiet hquiet ?_
    rw [hbridge, afterStatusOk_eq hfirst haccept]
  | @shown msg rest outcome request pieces hstate hfirst haccept houtcome hemitted houtbound hbridge
      hpieces hquiet houtputs =>
    have hbridged : bridged outputs = pieces.flatten := by
      rw [houtputs, bridged, List.flatMap_append, List.flatMap_cons, List.flatMap_map]
      exact (congrArg (· ++ _) hquiet.bridged_eq_nil).trans List.flatMap_id'
    have houtcomes : outcomes outputs = [outcome] := by
      rw [houtputs, outcomes, List.filterMap_append, List.filterMap_cons, List.filterMap_map]
      refine (congrArg (· ++ _) hquiet.outcomes_eq_nil).trans (congrArg (outcome :: ·) ?_)
      exact List.filterMap_eq_nil_iff.mpr fun _ _ => rfl
    refine ⟨?_, ?_, ?_, ?_⟩
    · rw [hbridged, hbridge, afterStatusOk_eq hfirst haccept]
    · rw [houtcomes]
      exact Nat.le_refl 1
    · intro before bytes after h
      rw [houtputs] at h
      obtain ⟨more, rfl, hmore⟩ | ⟨more, hrequest, hmore⟩ := List.append_eq_append_iff.mp h
      · cases more with
        | nil => cases hmore
        | cons first more =>
          obtain ⟨rfl, -⟩ := List.cons.inj hmore
          rw [outcomes, List.filterMap_append]
          exact List.append_ne_nil_of_right_ne_nil _ (List.cons_ne_nil _ _)
      · -- a piece of the bridge is not a request
        cases more with
        | nil => cases hmore
        | cons first more =>
          obtain ⟨rfl, -⟩ := List.cons.inj hmore
          refine absurd ?_ (hquiet.not_mem bytes)
          rw [hrequest]
          exact List.mem_append_right before List.mem_cons_self
    · intro status reason hmem
      rw [houtcomes] at hmem
      obtain rfl := List.mem_singleton.mp hmem
      obtain ⟨hflatten, hnone⟩ := List.append_eq_nil_iff.mp hbridge
      have hnil : pieces = [] := by
        refine List.eq_nil_iff_forall_not_mem.mpr fun piece hpiece => ?_
        exact hpieces piece hpiece (List.flatten_eq_nil_iff.mp hflatten piece hpiece)
      refine ⟨fun bytes hdata => ?_, hnone⟩
      rw [houtputs, hnil] at hdata
      rcases List.mem_append.mp hdata with hdata | hdata
      · exact hquiet.not_mem bytes hdata
      · cases List.mem_singleton.mp hdata

/-- A run without errors loses nothing. -/
theorem lossless_run {targetPeerId : Bytes} {calls : List (Call HopInput)}
    {replies : List (Reply HopConnectOutput RelayError)}
    (hrun : SansIoProtocol.run (new targetPeerId) calls = .ok (flow, replies))
    (herrors : errors replies = []) :
    Lossless (received calls) (SansIoProtocol.outputs replies) flow := by
  have hreplies : ∀ exchange ∈ calls.zip replies, ∀ e, exchange.2 ≠ .handled (.error e) :=
    fun exchange hmem => SansIoProtocol.ne_error_of_errors herrors (List.of_mem_zip hmem).2
  have hstands := SansIoProtocol.run_invariant
    (P := fun exchange => ∀ e, exchange.2 ≠ .handled (.error e))
    (I := fun history flow => Stands (received (history.map Prod.fst))
      (SansIoProtocol.outputs (history.map Prod.snd)) flow)
    ?_ ?_ (stands_new targetPeerId) hrun hreplies
  · rw [SansIoProtocol.zip_fst_run hrun, SansIoProtocol.zip_snd_run hrun] at hstands
    exact hstands.lossless
  · intro history flow input flow' result hstands hinput hresult
    cases result with
    | error e => exact absurd rfl (hresult e)
    | ok =>
      have hstands' := hstands.handleInput hinput
      simpa [received] using hstands'
  · intro history flow hstands
    simp only [received, List.map_append, List.map_cons, List.map_nil, SansIoProtocol.inputs_append,
      SansIoProtocol.inputs_pollOutput, List.append_nil, SansIoProtocol.outputs_append,
      SansIoProtocol.outputs_polled]
    exact hstands.poll

end HopConnect

/-! ## StopResponder -/

/-- The status with which a host answers. -/
def Decision.status : Decision → Status
  | .accept => .ok
  | .reject status => status

/-- The state its answer leads to. -/
def Decision.state : Decision → StopState
  | .accept => .bridged
  | .reject _ => .done

/-- What is bridged of the bytes behind the CONNECT frame. -/
def Decision.bridge : Decision → Bytes → Bytes
  | .accept, rest => rest
  | .reject _, _ => []

theorem Decision.bridge_append (decision : Decision) (first second : Bytes) :
    decision.bridge (first ++ second) = decision.bridge first ++ decision.bridge second := by
  cases decision <;> rfl

namespace StopResponder

/-- An operation on a STOP responder, and what it returned. -/
abbrev Exchange := Call StopResponderInput × Reply StopResponderOutput RelayError

/-- The stream that was fed. -/
def received (calls : List (Call StopResponderInput)) : Bytes :=
  (inputs calls).flatMap StopResponderInput.bytes

/-- The host's Accept was taken. -/
def Accepted (history : List Exchange) : Prop :=
  (.handleInput .accept, .handled (.ok ())) ∈ history

/-- A Reject of the host was taken. -/
def Rejected (history : List Exchange) : Prop :=
  ∃ status, (.handleInput (.reject status), .handled (.ok ())) ∈ history

/-- The stream was answered with an error. -/
def Failed : Exchange → Prop
  | (.handleInput (.data _), .handled (.error _)) => True
  | (.handleInput .remoteWriteClosed, .handled (.error _)) => True
  | _ => False

/-- The bytes behind the CONNECT frame, if it names a peer. -/
def afterConnect (stream : Bytes) : Bytes :=
  match firstMessage StopMessage.decode stream with
  | some (msg, rest) => if msg.kind = .connect ∧ msg.peer.isSome then rest else []
  | none => []

/-- What has been handed out of the bridge. -/
def bridged (outputs : List StopResponderOutput) : Bytes :=
  outputs.flatMap fun
    | .bridgeData bytes => bytes
    | .outbound _ | .request _ => []

/-- The requests among some outputs. -/
def requests (outputs : List StopResponderOutput) : List StopConnectRequest :=
  outputs.filterMap fun
    | .request request => some request
    | .outbound _ | .bridgeData _ => none

/-- The STATUS answer. -/
def answer (status : Status) : Bytes :=
  encodeFrame (StopMessage.encode ⟨.status, none, none, some status⟩)

/-- What has come out of a flow, with the bytes it still holds for the bridge, is what it should be
made of the stream and of the host's decision. -/
structure Lossless (history : List Exchange) (stream : Bytes) (outputs : List StopResponderOutput)
    (flow : StopResponder) : Prop where
  accepted : Accepted history → bridged outputs ++ flow.bridgeBytes = afterConnect stream
  unaccepted : ¬ Accepted history → (∀ bytes, .bridgeData bytes ∉ outputs) ∧ flow.bridgeBytes = []
  rejected : Rejected history → (∀ bytes, .bridgeData bytes ∉ outputs) ∧ flow.bridgeBytes = []
  once : (requests outputs).length ≤ 1
  request_first : ∀ before bytes after, outputs = before ++ .bridgeData bytes :: after →
    requests before ≠ [] ∧ .outbound (answer .ok) ∈ before

/-- What the host has seen of a flow that it has answered with `status`. -/
inductive Said (request : StopConnectRequest) (status : Status) (flow : StopResponder) :
    List Bytes → List StopResponderOutput → Prop
  | nothing (hemitted : flow.emittedRequest = false) (houtbound : flow.outbound = answer status) :
    Said request status flow [] []
  | request (hemitted : flow.emittedRequest = true) (houtbound : flow.outbound = answer status) :
    Said request status flow [] [.request request]
  | answered {pieces : List Bytes} (hemitted : flow.emittedRequest = true)
    (houtbound : flow.outbound = []) (hpieces : ∀ piece ∈ pieces, piece ≠ []) :
    Said request status flow pieces
      (.request request :: .outbound (answer status) :: pieces.map .bridgeData)

/-- Where the bytes of the stream are, if it was not answered with an error. -/
inductive Stands (stream : Bytes) (outputs : List StopResponderOutput) (flow : StopResponder) :
    Option Decision → Prop
  /-- The CONNECT frame is not complete. -/
  | connecting (hstate : flow.state = .awaitingConnect) (hbuf : flow.recvBuf = stream)
    (hfirst : firstMessage StopMessage.decode stream = none) (hrequest : flow.request = none)
    (houtbound : flow.outbound = []) (hbridge : flow.bridgeBytes = []) (houtputs : outputs = []) :
    Stands stream outputs flow none
  /-- The host has not decided. -/
  | deciding {msg request} (hstate : flow.state = .awaitingDecision)
    (hfirst : firstMessage StopMessage.decode stream = some (msg, flow.recvBuf))
    (haccept : acceptConnect msg = some request) (hrequest : flow.request = some request)
    (houtbound : flow.outbound = []) (hbridge : flow.bridgeBytes = [])
    (houtputs : outputs = if flow.emittedRequest then [.request request] else []) :
    Stands stream outputs flow none
  | decided {msg request rest pieces decision} (hstate : flow.state = decision.state)
    (hfirst : firstMessage StopMessage.decode stream = some (msg, rest))
    (haccept : acceptConnect msg = some request) (hrequest : flow.request = some request)
    (hsaid : Said request decision.status flow pieces outputs)
    (hbridge : pieces.flatten ++ flow.bridgeBytes = decision.bridge rest) :
    Stands stream outputs flow (some decision)

variable {stream piece : Bytes} {outputs : List StopResponderOutput} {flow flow' : StopResponder}
  {decision : Option Decision}

/-- A new responder waits. -/
theorem stands_new : Stands [] [] new none :=
  .connecting rfl rfl rfl rfl rfl rfl rfl

/-- A flow that waits goes on waiting, or finds its request. -/
theorem of_tryDecodeConnect (flow : StopResponder) (hstate : flow.state = .awaitingConnect)
    (h : flow.tryDecodeConnect = .ok (flow', .ok ())) :
    (firstMessage StopMessage.decode flow.recvBuf = none ∧ flow' = flow) ∨
      ∃ msg rest request, firstMessage StopMessage.decode flow.recvBuf = some (msg, rest) ∧
        acceptConnect msg = some request ∧
          flow' = { flow with
            recvBuf := rest, request := some request, emittedRequest := false
            state := .awaitingDecision } := by
  rw [tryDecodeConnect, if_neg (not_not.mpr hstate)] at h
  obtain ⟨received, hreceive, h⟩ := Except.bind_eq_ok_iff.mp h
  cases received with
  | incomplete =>
    cases h
    exact .inl ⟨Wire.firstMessage_of_incomplete hreceive, rfl⟩
  | failed e => cases h
  | message msg rest =>
    have hfirst := Wire.firstMessage_of_message hreceive
    dsimp only at h
    by_cases hkind : msg.kind ≠ .connect
    · rw [if_pos hkind] at h
      cases h
    rw [if_neg hkind] at h
    cases hpeer : msg.peer with
    | none =>
      rw [hpeer] at h
      cases h
    | some peer =>
      rw [hpeer] at h
      cases h
      refine .inr ⟨msg, rest, ⟨peer.id, msg.limit⟩, hfirst, ?_, rfl⟩
      rw [acceptConnect, if_neg hkind, hpeer]
      rfl

/-- What was said does not depend on the buffer and the state. -/
theorem Said.congr {request : StopConnectRequest} {status : Status} {pieces : List Bytes}
    (h : Said request status flow pieces outputs)
    (hemitted : flow'.emittedRequest = flow.emittedRequest)
    (houtbound : flow'.outbound = flow.outbound) : Said request status flow' pieces outputs := by
  cases h with
  | nothing h h' => exact .nothing (hemitted.trans h) (houtbound.trans h')
  | request h h' => exact .request (hemitted.trans h) (houtbound.trans h')
  | answered h h' hpieces => exact .answered (hemitted.trans h) (houtbound.trans h') hpieces

/-- More bytes of the stream are kept, whatever the host has decided. -/
theorem Stands.data (h : Stands stream outputs flow decision)
    (hdata : flow.onData piece = .ok (flow', .ok ())) :
    Stands (stream ++ piece) outputs flow' decision := by
  cases h with
  | connecting hstate hbuf hfirst hrequest houtbound hbridge houtputs =>
    rw [onData, if_neg (by rw [hstate]; rintro ⟨⟩), if_neg (by rw [hstate]; rintro ⟨⟩),
      hbuf] at hdata
    obtain ⟨hfirst, rfl⟩ | ⟨msg, rest, request, hfirst, haccept, rfl⟩ :=
      of_tryDecodeConnect { flow with recvBuf := stream ++ piece } hstate hdata
    · exact .connecting hstate rfl hfirst hrequest houtbound hbridge houtputs
    · exact .deciding rfl hfirst haccept rfl houtbound hbridge houtputs
  | deciding hstate hfirst haccept hrequest houtbound hbridge houtputs =>
    rw [onData, if_neg (by rw [hstate]; rintro ⟨⟩), if_neg (by rw [hstate]; rintro ⟨⟩),
      tryDecodeConnect, if_pos (by rw [hstate]; rintro ⟨⟩)] at hdata
    cases hdata
    exact .deciding hstate (Wire.firstMessage_append hfirst piece) haccept hrequest houtbound
      hbridge houtputs
  | @decided msg request rest pieces decision hstate hfirst haccept hrequest hsaid hbridge =>
    have hfirst' := Wire.firstMessage_append hfirst piece
    cases decision with
    | accept =>
      have hbridged : flow.state = .bridged := hstate
      rw [onData, if_pos hbridged] at hdata
      cases hdata
      refine .decided hstate hfirst' haccept hrequest (hsaid.congr rfl rfl) ?_
      rw [← List.append_assoc, hbridge, Decision.bridge_append]
      rfl
    | reject status =>
      have hdone : flow.state = .done := hstate
      rw [onData, if_neg (by rw [hdone]; rintro ⟨⟩), if_pos hdone] at hdata
      cases hdata
      exact .decided hstate hfirst' haccept hrequest hsaid hbridge

/-- The end of the stream is looked at as an empty piece of it. -/
theorem remoteWriteClosed_eq (flow : StopResponder) :
    flow.tryDecodeConnect = flow.onData [] := by
  rw [onData]
  simp only [List.append_nil]
  split
  · next hbridged => rw [tryDecodeConnect, if_pos (by rw [hbridged]; rintro ⟨⟩)]
  split
  · next hdone => rw [tryDecodeConnect, if_pos (by rw [hdone]; rintro ⟨⟩)]
  · rfl

/-- A host can answer only while its decision is awaited. -/
theorem sendStatus_cases (flow : StopResponder) (status : Status) (nextState : StopState) :
    (flow.state = .awaitingDecision ∧ flow.sendStatus status nextState =
      ({ flow with outbound := flow.outbound ++ answer status, state := nextState }, .ok ())) ∨
      ∃ e, flow.sendStatus status nextState = (flow, .error e) := by
  rw [sendStatus]
  split
  · exact .inr ⟨_, rfl⟩
  · next hstate => exact .inl ⟨not_not.mp hstate, rfl⟩

/-- Whatever the host decides is taken once. -/
theorem Stands.decide {choice : Decision} (h : Stands stream outputs flow decision)
    (hinput : flow.handleInput choice.input = .ok (flow', .ok ())) :
    decision = none ∧ Stands stream outputs flow' (some choice) := by
  have hawaiting : flow.state = .awaitingDecision ∧ flow' = { flow with
      outbound := flow.outbound ++ answer choice.status, state := choice.state
      recvBuf := flow'.recvBuf
      bridgeBytes := flow.bridgeBytes ++ choice.bridge flow.recvBuf } := by
    cases choice with
    | accept =>
      change Except.ok flow.accept = _ at hinput
      obtain ⟨hstate, hsend⟩ | ⟨e, hsend⟩ := flow.sendStatus_cases .ok .bridged
      · rw [accept, hsend] at hinput
        cases hinput
        exact ⟨hstate, rfl⟩
      · rw [accept, hsend] at hinput
        cases hinput
    | reject status =>
      change Except.ok (flow.sendStatus status .done) = _ at hinput
      obtain ⟨hstate, hsend⟩ | ⟨e, hsend⟩ := flow.sendStatus_cases status .done
      · rw [hsend] at hinput
        cases hinput
        refine ⟨hstate, ?_⟩
        simp only [Decision.bridge, List.append_nil, Decision.status, Decision.state]
      · rw [hsend] at hinput
        cases hinput
  obtain ⟨hstate, hflow'⟩ := hawaiting
  cases h with
  | connecting hother => cases hother.symm.trans hstate
  | @deciding msg request _ hfirst haccept hrequest houtbound hbridge houtputs =>
    refine ⟨rfl, ?_⟩
    rw [hflow']
    have hpieces : ([] : List Bytes).flatten ++ (flow.bridgeBytes ++ choice.bridge flow.recvBuf) =
        choice.bridge flow.recvBuf := by
      rw [hbridge]
      rfl
    refine .decided rfl hfirst haccept hrequest ?_ hpieces
    rw [houtputs]
    cases flow.emittedRequest with
    | false => exact .nothing rfl (by rw [houtbound]; rfl)
    | true => exact .request rfl (by rw [houtbound]; rfl)
  | @decided msg request rest pieces decision hother =>
    cases decision <;> cases hother.symm.trans hstate

/-- A host that may not decide changes nothing. -/
theorem decide_error {choice : Decision} {e : RelayError}
    (hinput : flow.handleInput choice.input = .ok (flow', .error e)) : flow' = flow := by
  cases choice with
  | accept =>
    change Except.ok flow.accept = _ at hinput
    obtain ⟨-, hsend⟩ | ⟨e, hsend⟩ := flow.sendStatus_cases .ok .bridged
    · rw [accept, hsend] at hinput
      cases hinput
    · rw [accept, hsend] at hinput
      cases hinput
      rfl
  | reject status =>
    change Except.ok (flow.sendStatus status .done) = _ at hinput
    obtain ⟨-, hsend⟩ | ⟨e, hsend⟩ := flow.sendStatus_cases status .done
    · rw [hsend] at hinput
      cases hinput
    · rw [hsend] at hinput
      cases hinput
      rfl

theorem answer_ne_nil (status : Status) : answer status ≠ [] := Wire.encodeFrame_ne_nil _

/-- What is polled moves from the flow to the outputs. -/
theorem Stands.poll (h : Stands stream outputs flow decision) :
    Stands stream (outputs ++ flow.pollOutput.2.toList) flow.pollOutput.1 decision := by
  obtain ⟨outbound, recvBuf, state, request, emitted, bridgeBytes⟩ := flow
  cases h with
  | connecting hstate hbuf hfirst hrequest houtbound hbridge houtputs =>
    dsimp only at hstate hbuf hrequest houtbound hbridge
    subst hrequest houtbound hbridge houtputs
    cases emitted <;> exact .connecting hstate hbuf hfirst rfl rfl rfl rfl
  | deciding hstate hfirst haccept hrequest houtbound hbridge houtputs =>
    dsimp only at hstate hfirst hrequest houtbound hbridge houtputs
    subst hrequest houtbound hbridge houtputs
    cases emitted <;> exact .deciding hstate hfirst haccept rfl rfl rfl rfl
  | @decided msg asked rest pieces choice hstate hfirst haccept hrequest hsaid hbridge =>
    dsimp only at hstate hrequest hbridge
    subst hrequest
    cases hsaid with
    | nothing hemitted houtbound =>
      dsimp only at hemitted houtbound
      subst hemitted houtbound
      exact .decided hstate hfirst haccept rfl (.request rfl rfl) hbridge
    | request hemitted houtbound =>
      dsimp only at hemitted houtbound
      subst hemitted
      cases outbound with
      | nil => exact absurd houtbound.symm (answer_ne_nil _)
      | cons byte more =>
        have hsaid : Said asked choice.status ⟨[], recvBuf, state, some asked, true, bridgeBytes⟩ []
            [.request asked, .outbound (byte :: more)] := by
          rw [houtbound]
          exact .answered rfl rfl fun _ h => absurd h List.not_mem_nil
        exact .decided hstate hfirst haccept rfl hsaid hbridge
    | answered hemitted houtbound hpieces =>
      dsimp only at hemitted houtbound
      subst hemitted houtbound
      cases bridgeBytes with
      | nil =>
        rw [show pollOutput ⟨[], recvBuf, state, some asked, true, []⟩ =
          (⟨[], recvBuf, state, some asked, true, []⟩, none) from rfl, Option.toList_none,
          List.append_nil]
        exact .decided hstate hfirst haccept rfl (.answered rfl rfl hpieces) hbridge
      | cons byte more =>
        have hpieces' : ∀ piece ∈ pieces ++ [byte :: more], piece ≠ [] := by
          intro piece hmem
          rcases List.mem_append.mp hmem with hmem | hmem
          · exact hpieces piece hmem
          · rw [List.mem_singleton.mp hmem]
            rintro ⟨⟩
        have hsaid : Said asked choice.status ⟨[], recvBuf, state, some asked, true, []⟩ _ _ :=
          .answered rfl rfl hpieces'
        rw [List.map_append] at hsaid
        refine .decided hstate hfirst haccept rfl hsaid ?_
        rw [List.flatten_append, List.flatten_singleton]
        exact (List.append_nil _).trans hbridge

/-- What a history says of the host's decision. -/
def Decides (history : List Exchange) : Option Decision → Prop
  | none => ¬ Accepted history ∧ ¬ Rejected history
  | some .accept => Accepted history ∧ ¬ Rejected history
  | some (.reject _) => ¬ Accepted history ∧ Rejected history

variable {history : List Exchange} {exchange : Exchange}

/-- An exchange that is no decision. -/
theorem Decides.other (h : Decides history decision)
    (hother : ∀ choice : Decision, exchange ≠ (.handleInput choice.input, .handled (.ok ()))) :
    Decides (history ++ [exchange]) decision := by
  have haccepted : Accepted (history ++ [exchange]) ↔ Accepted history := by
    rw [Accepted, Accepted, List.mem_append, List.mem_singleton]
    exact or_iff_left fun h => hother .accept h.symm
  have hrejected : Rejected (history ++ [exchange]) ↔ Rejected history := by
    refine exists_congr fun status => ?_
    rw [List.mem_append, List.mem_singleton]
    exact or_iff_left fun h => hother (.reject status) h.symm
  rcases decision with _ | _ | status
  all_goals
    rw [Decides, haccepted, hrejected]
    exact h

/-- The decision is the first answer of the host that is taken. -/
theorem Decides.decide (h : Decides history none) (choice : Decision) :
    Decides (history ++ [(.handleInput choice.input, .handled (.ok ()))]) (some choice) := by
  have hlast : (.handleInput choice.input, .handled (.ok ())) ∈
      history ++ [((.handleInput choice.input, .handled (.ok ())) : Exchange)] :=
    List.mem_append_right history (List.mem_singleton_self _)
  cases choice with
  | accept =>
    refine ⟨hlast, ?_⟩
    rintro ⟨status, hmem⟩
    rcases List.mem_append.mp hmem with hmem | hmem
    · exact h.2 ⟨status, hmem⟩
    · cases List.mem_singleton.mp hmem
  | reject status =>
    refine ⟨fun hmem => ?_, status, hlast⟩
    rcases List.mem_append.mp hmem with hmem | hmem
    · exact h.1 hmem
    · cases List.mem_singleton.mp hmem

/-- The bytes behind a CONNECT frame whose request is found. -/
theorem afterConnect_eq {msg : StopMessage} {rest : Bytes} {request : StopConnectRequest}
    (hfirst : firstMessage StopMessage.decode stream = some (msg, rest))
    (haccept : acceptConnect msg = some request) : afterConnect stream = rest := by
  simp only [afterConnect, hfirst]
  rw [acceptConnect] at haccept
  split at haccept
  · cases haccept
  next hkind =>
  obtain ⟨peer, hpeer, -⟩ := Option.map_eq_some_iff.mp haccept
  rw [if_pos ⟨not_not.mp hkind, by rw [hpeer]; rfl⟩]

/-- A flow that has not opened a bridge. -/
theorem Lossless.of_unopened (haccepted : ¬ Accepted history) (hbridge : flow.bridgeBytes = [])
    (hdata : ∀ bytes, .bridgeData bytes ∉ outputs) (honce : (requests outputs).length ≤ 1) :
    Lossless history stream outputs flow where
  accepted h := absurd h haccepted
  unaccepted _ := ⟨hdata, hbridge⟩
  rejected _ := ⟨hdata, hbridge⟩
  once := honce
  request_first before bytes _ h :=
    absurd (h ▸ List.mem_append_right before List.mem_cons_self) (hdata bytes)

/-- What was handed out of the bridge. -/
theorem Said.bridged_eq {request : StopConnectRequest} {status : Status} {pieces : List Bytes}
    (h : Said request status flow pieces outputs) : bridged outputs = pieces.flatten := by
  cases h with
  | nothing | request => rfl
  | answered =>
    rw [bridged, List.flatMap_cons, List.flatMap_cons, List.flatMap_map]
    exact List.flatMap_id'

/-- The request is handed out once. -/
theorem Said.once {request : StopConnectRequest} {status : Status} {pieces : List Bytes}
    (h : Said request status flow pieces outputs) : (requests outputs).length ≤ 1 := by
  cases h with
  | nothing => exact Nat.zero_le 1
  | request => exact Nat.le_refl 1
  | answered =>
    have hnone : requests (pieces.map .bridgeData) = [] := by
      rw [requests, List.filterMap_map]
      exact List.filterMap_eq_nil_iff.mpr fun _ _ => rfl
    show (request :: requests (pieces.map .bridgeData)).length ≤ 1
    rw [hnone]
    exact Nat.le_refl 1

/-- The bridge comes behind the request and the answer. -/
theorem Said.split {request : StopConnectRequest} {status : Status} {pieces : List Bytes}
    {before after : List StopResponderOutput} {bytes : Bytes}
    (h : Said request status flow pieces outputs)
    (hsplit : outputs = before ++ .bridgeData bytes :: after) :
    pieces.flatten ≠ [] ∧ requests before ≠ [] ∧ .outbound (answer status) ∈ before := by
  cases h with
  | nothing =>
    cases before <;> cases hsplit
  | request =>
    cases before with
    | nil => cases hsplit
    | cons first before =>
      obtain ⟨-, hrest⟩ := List.cons.inj hsplit
      cases before <;> cases hrest
  | answered _ _ hpieces =>
    cases before with
    | nil => cases hsplit
    | cons first before =>
    obtain ⟨rfl, hrest⟩ := List.cons.inj hsplit
    cases before with
    | nil => cases hrest
    | cons second before =>
    obtain ⟨rfl, hrest⟩ := List.cons.inj hrest
    have hpieces' := (List.cons.inj hrest).2
    have hmem : .bridgeData bytes ∈ pieces.map StopResponderOutput.bridgeData := by
      rw [hpieces']
      exact List.mem_append_right before List.mem_cons_self
    obtain ⟨piece, hpiece, -⟩ := List.mem_map.mp hmem
    refine ⟨?_, ?_, List.mem_cons_of_mem _ List.mem_cons_self⟩
    · intro hflatten
      exact hpieces piece hpiece (List.flatten_eq_nil_iff.mp hflatten piece hpiece)
    · exact List.cons_ne_nil _ _

/-- Wherever the bytes are, none is lost. -/
theorem Stands.lossless (h : Stands stream outputs flow decision)
    (hdecides : Decides history decision) : Lossless history stream outputs flow := by
  cases h with
  | connecting _ _ _ _ _ hbridge houtputs =>
    subst houtputs
    exact .of_unopened hdecides.1 hbridge (fun _ => List.not_mem_nil) (Nat.zero_le 1)
  | deciding _ _ _ _ _ hbridge houtputs =>
    subst houtputs
    refine .of_unopened hdecides.1 hbridge ?_ ?_
    · intro bytes hmem
      split at hmem
      · cases List.mem_singleton.mp hmem
      · exact absurd hmem List.not_mem_nil
    · split
      · exact Nat.le_refl 1
      · exact Nat.zero_le 1
  | @decided msg request rest pieces choice hstate hfirst haccept hrequest hsaid hbridge =>
    cases choice with
    | accept =>
      refine ⟨fun _ => ?_, fun h => absurd hdecides.1 h, fun h => absurd h hdecides.2, hsaid.once,
        fun _ _ _ hsplit => (hsaid.split hsplit).2⟩
      rw [hsaid.bridged_eq, hbridge, afterConnect_eq hfirst haccept]
      rfl
    | reject status =>
      obtain ⟨hflatten, hnone⟩ := List.append_eq_nil_iff.mp hbridge
      refine .of_unopened hdecides.1 hnone (fun bytes hmem => ?_) hsaid.once
      obtain ⟨before, after, hsplit⟩ := List.append_of_mem hmem
      exact (hsaid.split hsplit).1 hflatten

/-- Every input keeps where the bytes are, and what the history says of the decision. -/
theorem Stands.handleInput {input : StopResponderInput} {result : Except RelayError Unit}
    (h : Stands stream outputs flow decision) (hdecides : Decides history decision)
    (hinput : flow.handleInput input = .ok (flow', result))
    (hfailed : ¬ Failed (.handleInput input, .handled result)) :
    ∃ decision', Decides (history ++ [(.handleInput input, .handled result)]) decision' ∧
      Stands (stream ++ input.bytes) outputs flow' decision' := by
  have hdecided : ∀ choice : Decision, input = choice.input →
      ∃ decision', Decides (history ++ [(.handleInput input, .handled result)]) decision' ∧
        Stands stream outputs flow' decision' := by
    rintro choice rfl
    cases result with
    | ok =>
      obtain ⟨rfl, hafter⟩ := h.decide hinput
      exact ⟨some choice, hdecides.decide choice, hafter⟩
    | error e =>
      rw [decide_error hinput]
      refine ⟨decision, hdecides.other fun _ heq => ?_, h⟩
      cases (Prod.mk.inj heq).2
  have hother : (∀ choice : Decision, input ≠ choice.input) →
      Decides (history ++ [(.handleInput input, .handled result)]) decision := by
    intro hinput
    refine hdecides.other fun choice heq => hinput choice ?_
    exact Call.handleInput.inj (Prod.mk.inj heq).1
  cases input with
  | flush =>
    obtain ⟨rfl, -⟩ := Prod.mk.inj (Except.ok.inj hinput)
    refine ⟨decision, hother (by rintro (_ | status) <;> rintro ⟨⟩), ?_⟩
    rwa [StopResponderInput.bytes, List.append_nil]
  | data bytes =>
    cases result with
    | ok => exact ⟨decision, hother (by rintro (_ | status) <;> rintro ⟨⟩), h.data hinput⟩
    | error e => exact absurd trivial hfailed
  | remoteWriteClosed =>
    cases result with
    | ok =>
      have hdata := (remoteWriteClosed_eq flow).symm.trans hinput
      exact ⟨decision, hother (by rintro (_ | status) <;> rintro ⟨⟩), h.data hdata⟩
    | error e => exact absurd trivial hfailed
  | accept =>
    rw [StopResponderInput.bytes, List.append_nil]
    exact hdecided .accept rfl
  | reject status =>
    rw [StopResponderInput.bytes, List.append_nil]
    exact hdecided (.reject status) rfl

/-- A run in which no operation failed loses nothing. -/
theorem lossless_run {calls : List (Call StopResponderInput)}
    {replies : List (Reply StopResponderOutput RelayError)}
    (hrun : SansIoProtocol.run new calls = .ok (flow, replies))
    (hfailed : ∀ exchange ∈ calls.zip replies, ¬ Failed exchange) :
    Lossless (calls.zip replies) (received calls) (SansIoProtocol.outputs replies) flow := by
  have hstands := SansIoProtocol.run_invariant (P := fun exchange => ¬ Failed exchange)
    (I := fun history flow => ∃ decision, Decides history decision ∧
      Stands (received (history.map Prod.fst)) (SansIoProtocol.outputs (history.map Prod.snd)) flow
        decision)
    ?_ ?_ ⟨none, ⟨List.not_mem_nil, fun ⟨_, h⟩ => absurd h List.not_mem_nil⟩, stands_new⟩ hrun
    hfailed
  · obtain ⟨decision, hdecides, hstands⟩ := hstands
    rw [SansIoProtocol.zip_fst_run hrun, SansIoProtocol.zip_snd_run hrun] at hstands
    exact hstands.lossless hdecides
  · rintro history flow input flow' result ⟨decision, hdecides, hstands⟩ hinput hfailed
    obtain ⟨decision', hdecides', hstands'⟩ := hstands.handleInput hdecides hinput hfailed
    refine ⟨decision', hdecides', ?_⟩
    simpa [received] using hstands'
  · rintro history flow ⟨decision, hdecides, hstands⟩
    refine ⟨decision, hdecides.other fun _ => by rintro ⟨⟩, ?_⟩
    simp only [received, List.map_append, List.map_cons, List.map_nil, SansIoProtocol.inputs_append,
      SansIoProtocol.inputs_pollOutput, List.append_nil, SansIoProtocol.outputs_append,
      SansIoProtocol.outputs_polled]
    exact hstands.poll

end StopResponder

/-- No byte behind the frame that opens a bridge is lost, whatever the order of inputs and polls. -/
theorem bridge_lossless :
    (∀ targetPeerId calls flow replies,
      SansIoProtocol.run (HopConnect.new targetPeerId) calls = .ok (flow, replies) →
      errors replies = [] →
      HopConnect.Lossless (HopConnect.received calls) (outputs replies) flow) ∧
    (∀ calls flow replies, SansIoProtocol.run StopResponder.new calls = .ok (flow, replies) →
      (∀ exchange ∈ calls.zip replies, ¬ StopResponder.Failed exchange) →
      StopResponder.Lossless (calls.zip replies) (StopResponder.received calls) (outputs replies)
        flow) :=
  ⟨fun _ _ _ _ => HopConnect.lossless_run, fun _ _ _ => StopResponder.lossless_run⟩

/-- A relay that sends bytes of the bridge with its answer, or before the host has accepted. -/
theorem bridge_lossless_pipelined :
    (∃ flow replies, SansIoProtocol.run (HopConnect.new [1])
        [.pollOutput, .handleInput (.data [4, 8, 2, 40, 100, 7, 8]), .pollOutput, .pollOutput,
          .handleInput (.data [9])] = .ok (flow, replies) ∧
      HopConnect.bridged (outputs replies) = [7, 8] ∧ flow.bridgeBytes = [9] ∧
      HopConnect.bridged (outputs replies) ++ flow.bridgeBytes = [7, 8, 9]) ∧
    (∃ flow replies, SansIoProtocol.run StopResponder.new
        [.handleInput (.data [7, 8, 0, 18, 3, 10, 1, 1, 7]), .pollOutput, .handleInput (.data [8]),
          .handleInput .accept, .pollOutput, .pollOutput, .handleInput (.data [9])] =
        .ok (flow, replies) ∧
      StopResponder.bridged (outputs replies) = [7, 8] ∧ flow.bridgeBytes = [9] ∧
      StopResponder.bridged (outputs replies) ++ flow.bridgeBytes = [7, 8, 9]) := by
  constructor
  · have hrun : SansIoProtocol.run (HopConnect.new [1])
        [.pollOutput, .handleInput (.data [4, 8, 2, 40, 100, 7, 8]), .pollOutput, .pollOutput,
          .handleInput (.data [9])] =
        .ok (⟨[], [], .done, some (.bridged none), true, [9]⟩,
          [.polled (some (.outbound [7, 8, 1, 18, 3, 10, 1, 1])), .handled (.ok ()),
            .polled (some (.outcome (.bridged none))), .polled (some (.bridgeData [7, 8])),
            .handled (.ok ())]) := by
      decide
    refine ⟨_, _, hrun, rfl, rfl, (bridge_lossless.1 _ _ _ _ hrun rfl).bridged_eq.trans ?_⟩
    decide
  · have hrun : SansIoProtocol.run StopResponder.new
        [.handleInput (.data [7, 8, 0, 18, 3, 10, 1, 1, 7]), .pollOutput, .handleInput (.data [8]),
          .handleInput .accept, .pollOutput, .pollOutput, .handleInput (.data [9])] =
        .ok (⟨[], [], .bridged, some ⟨[1], none⟩, true, [9]⟩,
          [.handled (.ok ()), .polled (some (.request ⟨[1], none⟩)), .handled (.ok ()),
            .handled (.ok ()), .polled (some (.outbound [4, 8, 1, 32, 100])),
            .polled (some (.bridgeData [7, 8])), .handled (.ok ())]) := by
      decide
    have hlossless := bridge_lossless.2 _ _ _ hrun (by simp [StopResponder.Failed])
    refine ⟨_, _, hrun, rfl, rfl,
      (hlossless.accepted (by simp [StopResponder.Accepted])).trans ?_⟩
    decide

end Minip2p.Relay
