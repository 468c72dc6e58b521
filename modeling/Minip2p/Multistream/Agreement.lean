import Minip2p.Multistream.Session

/-!
# Dialer and listener agree

Both sides read the header and one line more. What a side has put out is a function of the frames
it has read whole (`script`), and what it was given is a beginning of what the other side sends
(`dialogue`), so the two never disagree, and at the end of the dialogue both report its verdict.
-/

namespace Minip2p.Multistream

open Fifo (Channel Side)

/-! ## The script of a negotiation -/

namespace MultistreamSelect

variable {select : MultistreamSelect} {line : String}

/-- A machine that holds nothing waits for the rest of a frame. -/
theorem absorb_part (hbuf : select.recvBuf = []) (hline : Sendable line) {n : Nat}
    (hn : n < (encodeMessage line).length) :
    select.absorb ((encodeMessage line).take n) = select.extend ((encodeMessage line).take n) := by
  apply settle_incomplete
  show decodeMessage (select.recvBuf ++ _) = _
  rw [hbuf, List.nil_append]
  exact decodeMessage_take_encodeMessage hline hn

/-- A machine that holds nothing handles a frame and goes on with what follows. -/
theorem absorb_frame (hdone : select.state ≠ .done) (hbuf : select.recvBuf = [])
    (hline : Sendable line) (rest : Bytes) :
    select.absorb (encodeMessage line ++ rest) = (select.advance line 0).absorb rest := by
  have hframe : decodeMessage (select.extend (encodeMessage line ++ rest)).recvBuf =
      .complete line (encodeMessage line).length := by
    show decodeMessage (select.recvBuf ++ _) = _
    rw [hbuf, List.nil_append]
    exact decodeMessage_encodeMessage hline rest
  have hadvance : (select.extend (encodeMessage line ++ rest)).advance line
      (encodeMessage line).length = (select.advance line 0).extend rest := by
    simp only [advance, extend, hbuf, List.nil_append, List.drop_nil]
    rw [List.drop_left]
  rw [absorb, settle_complete (by exact hdone) hframe, hadvance]
  rfl

end MultistreamSelect

theorem notAvailable_sendable : Sendable notAvailable := by decide +kernel

section Script

variable (desired : String) (supported : BTreeSet String)

/-- What the listener answers. -/
def answer : String := if supported.contains desired then desired else notAvailable

/-- What both sides report at the end. -/
def verdict : MultistreamOutput :=
  if supported.contains desired then .negotiated desired else .notAvailable

/-- The line a side reads after the header. -/
def secondLine : Side → String
  | dialer => answer desired supported
  | listener => desired

/-- All that a side puts out once it has read a number of frames. -/
def script : Side → Nat → List MultistreamOutput
  | _, 0 => [.outboundData (encodeMessage multistreamProtocolId)]
  | dialer, 1 =>
    [.outboundData (encodeMessage multistreamProtocolId), .outboundData (encodeMessage desired)]
  | dialer, _ =>
    [.outboundData (encodeMessage multistreamProtocolId), .outboundData (encodeMessage desired),
      verdict desired supported]
  | listener, 1 => [.outboundData (encodeMessage multistreamProtocolId)]
  | listener, _ =>
    [.outboundData (encodeMessage multistreamProtocolId),
      .outboundData (encodeMessage (answer desired supported)), verdict desired supported]

/-- All that is ever sent to a side. -/
def dialogue (side : Side) : Bytes :=
  encodeMessage multistreamProtocolId ++ encodeMessage (secondLine desired supported side)

/-- Where a side stands after `delivered`: the frames it has read whole decide. -/
inductive Stage (side : Side) (delivered : Bytes) (select : MultistreamSelect) : Prop
  | header (n : Nat) (hn : n < (encodeMessage multistreamProtocolId).length)
      (hdelivered : delivered = (encodeMessage multistreamProtocolId).take n)
      (houtputs : select.pendingOutputs = script desired supported side 0)
  | protocol (n : Nat) (hn : n < (encodeMessage (secondLine desired supported side)).length)
      (hdelivered : delivered = encodeMessage multistreamProtocolId ++
        (encodeMessage (secondLine desired supported side)).take n)
      (houtputs : select.pendingOutputs = script desired supported side 1)
  | done (hdelivered : delivered = dialogue desired supported side) (hstate : select.state = .done)
      (houtputs : select.pendingOutputs = script desired supported side 2)

end Script

variable {desired : String} {supported : BTreeSet String}

/-- The second line of either side fits a frame. -/
theorem secondLine_sendable (h : Sendable desired) (side : Side) :
    Sendable (secondLine desired supported side) := by
  cases side with
  | left =>
    rw [secondLine, answer]
    split
    · exact h
    · exact notAvailable_sendable
  | right => exact h

open MultistreamSelect (opening) in
/-- The machine of a side once it has read the header. -/
theorem advance_header (desired : String) (supported : BTreeSet String) (side : Side) :
    ∃ select : MultistreamSelect,
      (opening (Session.roles desired supported side) true).advance multistreamProtocolId 0 =
        select ∧
      select.role = Session.roles desired supported side ∧
      select.state = (Session.roles desired supported side).second ∧ select.recvBuf = [] ∧
      select.pendingOutputs = script desired supported side 1 := by
  cases side with
  | left => exact ⟨_, rfl, rfl, rfl, rfl, rfl⟩
  | right => exact ⟨_, rfl, rfl, rfl, rfl, rfl⟩

/-- The answer to the second line ends the negotiation. -/
theorem handleMessage_second (supported : BTreeSet String) (hna : desired ≠ notAvailable)
    (side : Side) :
    (handleMessage (Session.roles desired supported side)
      (Session.roles desired supported side).second (secondLine desired supported side)).1 = .done ∧
    script desired supported side 1 ++ (handleMessage (Session.roles desired supported side)
      (Session.roles desired supported side).second (secondLine desired supported side)).2 =
        script desired supported side 2 := by
  cases side with
  | left =>
    by_cases hmem : supported.contains desired = true
    · simp [handleMessage, Session.roles, Role.second, secondLine, answer, script, verdict, hmem]
    · simp [handleMessage, Session.roles, Role.second, secondLine, answer, script, verdict, hmem,
        hna.symm]
  | right =>
    by_cases hmem : supported.contains desired = true
    · simp [handleMessage, Session.roles, Role.second, secondLine, answer, script, verdict, hmem]
    · simp [handleMessage, Session.roles, Role.second, secondLine, answer, script, verdict, hmem]

open MultistreamSelect (opening) in
/-- A side that is given a beginning of the dialogue follows the script. -/
theorem absorb_stage (hdesired : Sendable desired) (hna : desired ≠ notAvailable) (side : Side)
    {delivered : Bytes} (hpart : delivered <+: dialogue desired supported side) :
    Stage desired supported side delivered
      ((opening (Session.roles desired supported side) true).absorb delivered) := by
  have hsecond : Sendable (secondLine desired supported side) := secondLine_sendable hdesired side
  have hbuf : (opening (Session.roles desired supported side) true).recvBuf = [] := rfl
  have hstate : (opening (Session.roles desired supported side) true).state ≠ .done :=
    (by rintro ⟨⟩)
  rcases Fifo.prefix_append_cases hpart with ⟨n, hn, rfl⟩ | ⟨more, rfl, hmore⟩
  · refine .header n hn rfl ?_
    rw [MultistreamSelect.absorb_part hbuf header_sendable hn]
    cases side <;> rfl
  obtain ⟨select, hselect, hrole, hstate', hbuf', houtputs⟩ :=
    advance_header desired supported side
  rw [MultistreamSelect.absorb_frame hstate hbuf header_sendable, hselect]
  rw [← List.append_nil (encodeMessage (secondLine desired supported side))] at hmore
  rcases Fifo.prefix_append_cases hmore with ⟨n, hn, rfl⟩ | ⟨rest, rfl, hrest⟩
  · refine .protocol n hn rfl ?_
    rw [MultistreamSelect.absorb_part hbuf' hsecond hn]
    exact houtputs
  · obtain rfl := List.prefix_nil.mp hrest
    have hactive : select.state ≠ .done := by
      rw [hstate']
      cases side <;> rintro ⟨⟩
    obtain ⟨hdone, hsays⟩ := handleMessage_second supported hna side
    rw [MultistreamSelect.absorb_frame hactive hbuf' hsecond]
    have hadvance : (select.advance (secondLine desired supported side) 0).state = .done := by
      show (handleMessage select.role select.state _).1 = _
      rw [hrole, hstate', hdone]
    have hsettle : (select.advance (secondLine desired supported side) 0).absorb [] =
        select.advance (secondLine desired supported side) 0 := by
      rw [MultistreamSelect.absorb, MultistreamSelect.extend_nil,
        MultistreamSelect.settle_done hadvance]
    rw [hsettle, List.append_nil]
    refine .done rfl hadvance ?_
    show select.pendingOutputs ++ (handleMessage select.role select.state _).2 = _
    rw [houtputs, hrole, hstate', hsays]

/-! ## Agreement -/

/-- A frame is not empty. -/
theorem encodeMessage_length_pos (line : String) : 0 < (encodeMessage line).length := by
  rw [encodeMessage, List.length_append, List.length_singleton]
  omega

/-- A side sends no more than its part of the dialogue. -/
theorem outbound_script (side : Side) :
    outbound (script desired supported side 0) = encodeMessage multistreamProtocolId ∧
    outbound (script desired supported side 1) <+: dialogue desired supported side.other ∧
    outbound (script desired supported side 2) = dialogue desired supported side.other := by
  have hverdict : outbound [verdict desired supported] = [] := by
    rw [verdict]
    split <;> rfl
  have hsnoc : ∀ outputs, outbound (outputs ++ [verdict desired supported]) = outbound outputs := by
    intro outputs
    rw [outbound_append, hverdict, List.append_nil]
  have hsingle : ∀ bytes : Bytes, outbound [.outboundData bytes] = bytes := by
    intro bytes
    exact List.append_nil bytes
  have hpair : ∀ first second : Bytes,
      outbound [.outboundData first, .outboundData second] = first ++ second := by
    intro first second
    show first ++ (second ++ []) = _
    rw [List.append_nil]
  refine ⟨by cases side <;> exact hsingle _, ?_, ?_⟩
  · cases side with
    | left =>
      rw [script, hpair]
      exact List.prefix_rfl
    | right =>
      rw [script, hsingle]
      exact List.prefix_append _ _
  · cases side with
    | left => exact (hsnoc [_, _]).trans (hpair _ _)
    | right => exact (hsnoc [_, _]).trans (hpair _ _)

/-- A side that was given the whole dialogue is at its end. -/
theorem Stage.of_whole {side : Side} {select : MultistreamSelect}
    (h : Stage desired supported side (dialogue desired supported side) select) :
    select.state = .done ∧ select.pendingOutputs = script desired supported side 2 := by
  cases h with
  | header n hn hdelivered houtputs =>
    have hlength := congrArg List.length hdelivered
    rw [dialogue, List.length_append, List.length_take] at hlength
    omega
  | protocol n hn hdelivered houtputs =>
    have hlength := congrArg List.length hdelivered
    rw [dialogue, List.length_append, List.length_append, List.length_take] at hlength
    omega
  | done hdelivered hstate houtputs => exact ⟨hstate, houtputs⟩

namespace Session

/-- Both sides follow their machines, and have been given a beginning of the dialogue. -/
structure Scripted (desired : String) (supported : BTreeSet String) (session : Session) :
    Prop where
  follows : session.Follows (roles desired supported)
  part : ∀ side, (session side).incoming.delivered <+: dialogue desired supported side

variable {session : Session}

theorem view_outputs (session : Session) (side : Side) :
    (session side).driven.view.pendingOutputs = session.outputs side := rfl

/-- What was polled was put out. -/
theorem outbound_polled (session : Session) (side : Side) :
    outbound (session side).driven.polled <+: outbound (session.outputs side) := by
  rw [outputs, Driven.outputs, outbound_append]
  exact List.prefix_append _ _

namespace Scripted

/-- A side that was started is at some stage. -/
theorem stage (h : session.Scripted desired supported) (hdesired : Sendable desired)
    (hna : desired ≠ notAvailable) {side : Side}
    (hstarted : (session side).driven.select.started = true) :
    Stage desired supported side (session side).incoming.delivered (session side).driven.view := by
  rw [(h.follows side).reads, hstarted]
  exact absorb_stage hdesired hna side (h.part side)

/-- A side that was not started has put out nothing. -/
theorem outputs_of_not_started (h : session.Scripted desired supported) {side : Side}
    (hstarted : (session side).driven.select.started = false) : session.outputs side = [] := by
  rw [← view_outputs, (h.follows side).reads, hstarted, (h.follows side).quiet hstarted]
  rfl

/-- What a side sends is a beginning of the dialogue. -/
theorem outbound_outputs (h : session.Scripted desired supported) (hdesired : Sendable desired)
    (hna : desired ≠ notAvailable) (side : Side) :
    outbound (session.outputs side) <+: dialogue desired supported side.other := by
  obtain ⟨hzero, hone, htwo⟩ := @outbound_script desired supported side
  cases hstarted : (session side).driven.select.started with
  | false =>
    rw [h.outputs_of_not_started hstarted]
    exact List.nil_prefix
  | true =>
    cases h.stage hdesired hna hstarted with
    | header n hn hdelivered houtputs =>
      rw [← view_outputs, houtputs, hzero]
      exact List.prefix_append _ _
    | protocol n hn hdelivered houtputs =>
      rw [← view_outputs, houtputs]
      exact hone
    | done hdelivered hstate houtputs =>
      rw [← view_outputs, houtputs]
      exact ⟨[], by rw [List.append_nil, htwo]⟩

/-- Every allowed action keeps the script. -/
theorem step (h : session.Scripted desired supported) (hdesired : Sendable desired)
    (hna : desired ≠ notAvailable) {action : SessionAction} (hallowed : session.Allowed action) :
    (session.step action).Scripted desired supported := by
  refine ⟨h.follows.step hallowed, ?_⟩
  intro side'
  cases action with
  | start side =>
    rcases side.eq_or_eq_other side' with rfl | rfl
    · simp only [Session.step, Function.update_self]
      exact h.part _
    · simp only [Session.step, Function.update_of_ne side.other_ne]
      exact h.part _
  | poll side =>
    rcases side.eq_or_eq_other side' with rfl | rfl
    · simp only [Session.step, Function.update_of_ne (Side.other_ne _).symm, Function.update_self]
      exact h.part _
    · simp only [Session.step, Function.update_of_ne side.other_ne, Function.update_self,
        Channel.delivered_send]
      exact h.part _
  | deliver side n =>
    rcases side.eq_or_eq_other side' with hside | rfl
    · rw [hside]
      simp only [Session.step, Function.update_self]
      -- more of what the other side has sent, which is a beginning of the dialogue
      have hsent : ((session side).incoming.deliver n).delivered <+:
          outbound (session side.other).driven.polled := by
        rw [← (h.follows side).sent, ← Channel.sent_deliver _ n]
        exact Channel.delivered_prefix _
      have hother := h.outbound_outputs hdesired hna side.other
      rw [Side.other_other] at hother
      exact (hsent.trans (session.outbound_polled side.other)).trans hother
    · simp only [Session.step, Function.update_of_ne side.other_ne]
      exact h.part _

end Scripted

/-- In every session both sides keep to the script. -/
theorem Reachable.scripted (h : Reachable desired supported session) (hdesired : Sendable desired)
    (hna : desired ≠ notAvailable) : session.Scripted desired supported := by
  refine Runs.keeps_of_chain h ?_ ⟨create_follows _, fun side => List.nil_prefix⟩
  rintro session _ ⟨action, hallowed, rfl⟩ hscripted
  exact hscripted.step hdesired hna hallowed

namespace Scripted

/-- A side puts out bytes and, at its end, the verdict. -/
theorem mem_outputs (h : session.Scripted desired supported) (hdesired : Sendable desired)
    (hna : desired ≠ notAvailable) {side : Side} {output : MultistreamOutput}
    (hmem : output ∈ session.outputs side) :
    (∃ bytes, output = .outboundData bytes) ∨
      output = verdict desired supported ∧
        (session side).incoming.delivered = dialogue desired supported side := by
  cases hstarted : (session side).driven.select.started with
  | false =>
    rw [h.outputs_of_not_started hstarted] at hmem
    exact absurd hmem List.not_mem_nil
  | true =>
    rw [← view_outputs] at hmem
    cases h.stage hdesired hna hstarted with
    | header n hn hdelivered houtputs =>
      rw [houtputs] at hmem
      cases side <;> exact .inl ⟨_, List.mem_singleton.mp hmem⟩
    | protocol n hn hdelivered houtputs =>
      rw [houtputs] at hmem
      cases side with
      | left =>
        rcases List.mem_pair.mp hmem with heq | heq
        · exact .inl ⟨_, heq⟩
        · exact .inl ⟨_, heq⟩
      | right => exact .inl ⟨_, List.mem_singleton.mp hmem⟩
    | done hdelivered hstate houtputs =>
      rw [houtputs] at hmem
      cases side with
      | left =>
        rcases List.mem_cons.mp hmem with heq | hmem
        · exact .inl ⟨_, heq⟩
        rcases List.mem_pair.mp hmem with heq | heq
        · exact .inl ⟨_, heq⟩
        · exact .inr ⟨heq, hdelivered⟩
      | right =>
        rcases List.mem_cons.mp hmem with heq | hmem
        · exact .inl ⟨_, heq⟩
        rcases List.mem_pair.mp hmem with heq | heq
        · exact .inl ⟨_, heq⟩
        · exact .inr ⟨heq, hdelivered⟩

/-- The whole dialogue is sent to the dialer only by a listener at its end. -/
theorem listener_done (h : session.Scripted desired supported) (hdesired : Sendable desired)
    (hna : desired ≠ notAvailable)
    (hdelivered : (session dialer).incoming.delivered = dialogue desired supported dialer) :
    session.state listener = .done ∧
      session.outputs listener = script desired supported listener 2 := by
  have hsent : dialogue desired supported dialer <+: outbound (session.outputs listener) := by
    rw [← hdelivered]
    refine List.IsPrefix.trans ?_ (session.outbound_polled listener)
    have hfifo := (h.follows dialer).sent
    rw [← show dialer.other = listener from rfl, ← hfifo]
    exact Channel.delivered_prefix _
  have hlength := hsent.length_le
  have hpos := encodeMessage_length_pos (secondLine desired supported dialer)
  rw [dialogue, List.length_append] at hlength
  have hone : outbound (script desired supported listener 1) =
      encodeMessage multistreamProtocolId := List.append_nil _
  obtain ⟨hzero, -, -⟩ := @outbound_script desired supported listener
  cases hstarted : (session listener).driven.select.started with
  | false =>
    rw [h.outputs_of_not_started hstarted, outbound, List.length_nil] at hlength
    omega
  | true =>
    cases h.stage hdesired hna hstarted with
    | header n hn hdelivered houtputs =>
      rw [← view_outputs, houtputs, hzero] at hlength
      omega
    | protocol n hn hdelivered houtputs =>
      rw [← view_outputs, houtputs, hone] at hlength
      omega
    | done hdelivered hstate houtputs => exact ⟨hstate, houtputs⟩

/-- A side that was started has put out its header. -/
theorem header_sent (h : session.Scripted desired supported) (hdesired : Sendable desired)
    (hna : desired ≠ notAvailable) {side : Side}
    (hstarted : (session side).driven.select.started = true) :
    encodeMessage multistreamProtocolId <+: outbound (session.outputs side) := by
  rw [← view_outputs]
  cases h.stage hdesired hna hstarted with
  | header n hn hdelivered houtputs =>
    rw [houtputs]
    cases side <;> exact List.prefix_append _ _
  | protocol n hn hdelivered houtputs =>
    rw [houtputs]
    cases side <;> exact List.prefix_append _ _
  | done hdelivered hstate houtputs =>
    rw [houtputs]
    cases side <;> exact List.prefix_append _ _

/-- Once everything sent is delivered, both sides have read the whole dialogue. -/
theorem done_of_drained (h : session.Scripted desired supported) (hdesired : Sendable desired)
    (hna : desired ≠ notAvailable) (hdrained : session.Drained) (side : Side) :
    session.state side = .done ∧ session.outputs side = script desired supported side 2 := by
  have hall : ∀ side,
      (session side).incoming.delivered = outbound (session.outputs side.other) := by
    intro side
    rw [Channel.delivered_eq_sent (hdrained side).2.1, (h.follows side).sent, outputs,
      Driven.outputs, outbound_append, (hdrained side.other).2.2, List.append_nil]
  have hlistener := h.stage hdesired hna (hdrained listener).1
  have hdialer := h.stage hdesired hna (hdrained dialer).1
  -- the listener has sent its header, so the dialer has read it and proposes
  have hproposed : outbound (session.outputs dialer) = dialogue desired supported listener := by
    obtain ⟨hzero, -, htwo⟩ := @outbound_script desired supported dialer
    cases hdialer with
    | header n hn hdelivered houtputs =>
      have hheader := h.header_sent hdesired hna (hdrained listener).1
      have hlength := hheader.length_le
      rw [← show dialer.other = listener from rfl, ← hall, hdelivered,
        List.length_take] at hlength
      omega
    | protocol n hn hdelivered houtputs =>
      rw [← view_outputs, houtputs]
      show _ ++ (_ ++ []) = _
      rw [List.append_nil]
      rfl
    | done hdelivered hstate houtputs =>
      rw [← view_outputs, houtputs]
      exact htwo
  -- the listener has read the proposal, so its answer is delivered too
  have hread : (session listener).incoming.delivered = dialogue desired supported listener :=
    (hall listener).trans hproposed
  rw [hread] at hlistener
  obtain ⟨hstate, houtputs⟩ := hlistener.of_whole
  have hanswered : (session dialer).incoming.delivered = dialogue desired supported dialer := by
    obtain ⟨-, -, htwo⟩ := @outbound_script desired supported listener
    rw [hall dialer]
    show outbound (session listener).driven.view.pendingOutputs = _
    rw [houtputs]
    exact htwo
  rw [hanswered] at hdialer
  cases side with
  | left => exact hdialer.of_whole
  | right => exact ⟨hstate, houtputs⟩

/-- What a side reports is the verdict. -/
theorem reported (h : session.Scripted desired supported) (hdesired : Sendable desired)
    (hna : desired ≠ notAvailable) {side : Side} {output : MultistreamOutput}
    (hmem : output ∈ session.outputs side) (hreport : ∀ bytes, output ≠ .outboundData bytes) :
    output = verdict desired supported := by
  rcases h.mem_outputs hdesired hna hmem with ⟨bytes, heq⟩ | ⟨heq, -⟩
  · exact absurd heq (hreport bytes)
  · exact heq

/-- A dialer that reports success is right, and the listener reports it too. -/
theorem negotiated_dialer (h : session.Scripted desired supported) (hdesired : Sendable desired)
    (hna : desired ≠ notAvailable) {protocol : String}
    (hmem : .negotiated protocol ∈ session.outputs dialer) :
    protocol = desired ∧ supported.contains desired = true ∧
      .negotiated desired ∈ session.outputs listener := by
  rcases h.mem_outputs hdesired hna hmem with ⟨bytes, heq⟩ | ⟨heq, hdelivered⟩
  · cases heq
  obtain ⟨-, houtputs⟩ := h.listener_done hdesired hna hdelivered
  have hlistener : verdict desired supported ∈ session.outputs listener := by
    rw [houtputs]
    simp [script]
  rw [← heq] at hlistener
  rw [verdict] at heq
  split at heq
  · next hcontains =>
    obtain rfl := MultistreamOutput.negotiated.inj heq
    exact ⟨rfl, hcontains, hlistener⟩
  · cases heq

/-- When all is delivered, both sides report the verdict. -/
theorem verdict_of_drained (h : session.Scripted desired supported) (hdesired : Sendable desired)
    (hna : desired ≠ notAvailable) (hdrained : session.Drained) (side : Side) :
    session.state side = .done ∧ verdict desired supported ∈ session.outputs side := by
  obtain ⟨hstate, houtputs⟩ := h.done_of_drained hdesired hna hdrained side
  refine ⟨hstate, ?_⟩
  rw [houtputs]
  cases side <;> simp [script]

end Scripted

/-- In every state that a dialer and a listener can reach together, what they report agrees; when
everything sent is delivered both have finished and report the same. -/
theorem negotiation_agreement (hdesired : Sendable desired) (hna : desired ≠ notAvailable)
    (h : Reachable desired supported session) :
    (∀ protocol, .negotiated protocol ∈ session.outputs dialer →
      protocol = desired ∧ supported.contains desired = true ∧
        .negotiated desired ∈ session.outputs listener) ∧
    (∀ side protocol, .negotiated protocol ∈ session.outputs side →
      .notAvailable ∉ session.outputs side.other ∧
        ∀ reason, .protocolError reason ∉ session.outputs side.other) ∧
    (session.Drained → ∀ side, session.state side = .done ∧
      (if supported.contains desired then .negotiated desired else .notAvailable) ∈
        session.outputs side) := by
  have hscript := h.scripted hdesired hna
  refine ⟨?_, ?_, ?_⟩
  · intro protocol hmem
    exact hscript.negotiated_dialer hdesired hna hmem
  · intro side protocol hmem
    have hverdict := hscript.reported hdesired hna hmem (by rintro _ ⟨⟩)
    constructor
    · intro hother
      cases hverdict.trans (hscript.reported hdesired hna hother (by rintro _ ⟨⟩)).symm
    · intro reason hother
      cases hverdict.trans (hscript.reported hdesired hna hother (by rintro _ ⟨⟩)).symm
  · intro hdrained side
    exact hscript.verdict_of_drained hdesired hna hdrained side

/-- Everything a side can be made to do: each is started and polled until nothing is left, and
given all that is in flight to it. -/
def exchange : List SessionAction :=
  [.start dialer, .start listener, .poll dialer, .poll listener, .deliver listener 2048,
    .deliver dialer 2048, .poll dialer, .deliver listener 2048, .poll listener,
    .deliver dialer 2048]

/-- A ping negotiation, up to the point where all is delivered. -/
theorem negotiation_agreement_ping :
    let session := (create (roles "/ipfs/ping/1.0.0" {"/ipfs/ping/1.0.0"})).run exchange
    session.Drained ∧ ∀ side, session.state side = .done ∧
      .negotiated "/ipfs/ping/1.0.0" ∈ session.outputs side := by
  intro session
  have hreachable : Reachable "/ipfs/ping/1.0.0" {"/ipfs/ping/1.0.0"} session :=
    continues_run (by decide +kernel)
  have hdrained : session.Drained := by
    intro side
    cases side <;> decide +kernel
  obtain ⟨-, -, hend⟩ :=
    negotiation_agreement (by decide +kernel) (by decide +kernel) hreachable
  exact ⟨hdrained, hend hdrained⟩

end Session

end Minip2p.Multistream
