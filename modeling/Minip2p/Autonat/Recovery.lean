import Minip2p.Autonat.Session
import Minip2p.Lib.Frames

/-!
# Recovery from bad frames

A frame that does not decode is consumed, and the flow waits on. It looks at one frame for each
piece of its stream, so the good frame behind a bad one is found if it comes in a piece of its own
and not if it comes along with the bad one and nothing after it.
-/

namespace Minip2p.Autonat

open SansIoProtocol (Driven)
open Framing (Verdict State Late)

/-- The frame at the front of a buffer within the limit. -/
def nextFrame (buf : Bytes) : Option (Bytes × Bytes) :=
  if buf.length > maxMessageSize then none
  else
    match decodeFrame buf with
    | .ok (.complete payload consumed) => some (payload, buf.drop consumed)
    | _ => none

/-- How AutoNAT frames a message. -/
def framing : Framing UInt8 Bytes := ⟨encodeFrame, nextFrame⟩

/-- A frame is read back, and a strict part of it waits. -/
theorem framing_exact : framing.Exact maxMessageSize where
  nil := by decide
  part payload n hlen hn := by
    show nextFrame ((encodeFrame payload).take n) = none
    rw [nextFrame, decodeFrame_take_encodeFrame (Nat.le_trans (length_payload payload) hlen) hn]
    split <;> rfl
  whole payload rest hlen := by
    change (encodeFrame payload ++ rest).length ≤ maxMessageSize at hlen
    have hpayload : payload.length ≤ maxMessageSize := by
      have hle := length_payload payload
      rw [List.length_append] at hlen
      omega
    show nextFrame (encodeFrame payload ++ rest) = some (payload, rest)
    rw [nextFrame, if_neg (Nat.not_lt.mpr hlen), decodeFrame_encodeFrame hpayload]
    exact congrArg (fun rest => some (payload, rest)) List.drop_left

/-- The frame decoder does not panic, and takes what it takes from the input. -/
theorem returns_decodeFrame (input : Bytes) : ∃ frame, decodeFrame input = .ok frame ∧
    ∀ payload consumed, frame = .complete payload consumed → consumed ≤ input.length := by
  rw [decodeFrame]
  split
  · exact ⟨_, rfl, by rintro _ _ ⟨⟩⟩
  · exact ⟨_, rfl, by rintro _ _ ⟨⟩⟩
  · next len used hread =>
    have hused := (readUvarint_used hread).2.2
    dsimp only
    split
    · exact ⟨_, rfl, by rintro _ _ ⟨⟩⟩
    split
    · exact ⟨_, rfl, by rintro _ _ ⟨⟩⟩
    · rw [Exec.slice_eq_ok (by omega) (by omega)]
      refine ⟨_, rfl, ?_⟩
      rintro _ _ ⟨⟩
      omega

variable {buf : Bytes}

/-- A buffer that does not start with a frame waits, or is refused. -/
theorem receive_of_none (h : nextFrame buf = none) :
    receive buf = .ok .incomplete ∨ ∃ e, receive buf = .ok (.failed e) := by
  rw [nextFrame] at h
  rw [receive]
  split at h
  · next hlen =>
    rw [if_pos hlen]
    exact .inr ⟨_, rfl⟩
  next hlen =>
  rw [if_neg hlen]
  obtain ⟨frame, hframe, -⟩ := returns_decodeFrame buf
  rw [hframe] at h ⊢
  cases frame with
  | incomplete => exact .inl rfl
  | tooLarge | error => exact .inr ⟨_, rfl⟩
  | complete payload consumed => cases h

/-- A frame at the front is taken off the buffer, whatever its payload. -/
theorem receive_of_some {payload rest : Bytes} (h : nextFrame buf = some (payload, rest)) :
    receive buf = (Message.decode payload).run >>= fun decoded => .ok (.framed decoded rest) := by
  rw [nextFrame] at h
  rw [receive]
  split at h
  · cases h
  next hlen =>
  rw [if_neg hlen]
  split at h
  · next payload' consumed hframe =>
    obtain ⟨rfl, rfl⟩ := Prod.mk.inj (Option.some.inj h)
    have hconsumed : consumed ≤ buf.length := by
      obtain ⟨frame, hframe', hle⟩ := returns_decodeFrame buf
      exact hle payload' consumed (Except.ok.inj (hframe'.symm.trans hframe))
    rw [hframe]
    show ((Message.decode payload').run >>= fun decoded => Exec.drain buf consumed >>= _) = _
    rw [Exec.drain_eq_ok hconsumed]
    rfl
  · cases h

variable [MultihashCodec]

/-! ## AutoNatClient -/

namespace AutoNatClient

/-- What the payload of a frame does to a client that waits. -/
def verdict (payload : Bytes) : Verdict Reachability :=
  match (Message.decode payload).run with
  | .error _ => .ended
  | .ok (.error _) => .skipped
  | .ok (.ok msg) =>
    if msg.kind ≠ .dialResponse then .ended
    else
      match msg.dialResponse with
      | none => .skipped
      | some response =>
        match outcomeOf response with
        | .error _ => .ended
        | .ok outcome => .found outcome

/-- The outcome that a new client has after it was fed and polled. -/
def outcomeAfter (peerId : PeerId) (addrs : List Multiaddr) (ops : List (Chunking.Op UInt8)) :
    Option Reachability :=
  (drive (.start (new peerId addrs)) ops).machine.bind fun flow => flow.outcome

/-- Where a client stands. A panic ends it. -/
inductive Shows : Caller → State UInt8 Reachability → Prop
  | waiting {flow : AutoNatClient} {outputs : List AutoNatClientOutput}
    {errors : List AutoNatError} (hstate : flow.state ≠ .done) (houtcome : flow.outcome = none) :
    Shows ⟨some flow, outputs, errors⟩ (.waiting flow.recvBuf)
  | settled {flow : AutoNatClient} {outputs : List AutoNatClientOutput} {errors : List AutoNatError}
    (hstate : flow.state = .done) : Shows ⟨some flow, outputs, errors⟩ (.settled flow.outcome)
  | panicked {outputs : List AutoNatClientOutput} {errors : List AutoNatError} :
    Shows ⟨none, outputs, errors⟩ (.settled none)

variable {caller : Caller} {state : State UInt8 Reachability}

omit [MultihashCodec] in
/-- The client has the outcome that the framing gives. -/
theorem Shows.answer_eq (h : Shows caller state) :
    caller.machine.bind (fun flow => flow.outcome) = state.answer := by
  cases h with
  | waiting hstate houtcome => exact houtcome
  | settled hstate => rfl
  | panicked => rfl

omit [MultihashCodec] in
/-- Polling a client does not change what it has read. -/
theorem pollOutput_keeps (flow : AutoNatClient) :
    (flow.pollOutput.1.state = .done ↔ flow.state = .done) ∧
      flow.pollOutput.1.recvBuf = flow.recvBuf ∧ flow.pollOutput.1.outcome = flow.outcome := by
  obtain ⟨outbound, recvBuf, state, outcome, emitted⟩ := flow
  cases outbound <;> cases state <;> cases outcome <;> cases emitted <;>
    simp [pollOutput, takeOutbound]

/-- A poll leaves the framing alone. -/
theorem Shows.poll (h : Shows caller state) : Shows caller.poll state := by
  cases h with
  | panicked => exact .panicked
  | @settled flow outputs errors hstate =>
    obtain ⟨hdone, -, houtcome⟩ := pollOutput_keeps flow
    rw [Driven.poll_some, ← houtcome]
    exact .settled (hdone.mpr hstate)
  | @waiting flow outputs errors hstate hnone =>
    obtain ⟨hdone, hbuf, houtcome⟩ := pollOutput_keeps flow
    rw [Driven.poll_some, ← hbuf]
    exact .waiting (mt hdone.mp hstate) (houtcome.trans hnone)

/-- A piece moves the client as it moves the framing. -/
theorem Shows.give (h : Shows caller state) (piece : Bytes) :
    Shows (caller.give (.data piece)) (framing.feed verdict state piece) := by
  cases h with
  | panicked => exact .panicked
  | @settled flow outputs errors hstate =>
    have hinput : flow.handleInput (.data piece) = .ok (flow, .ok ()) := if_pos hstate
    rw [Driven.give_ok hinput]
    exact .settled hstate
  | @waiting flow outputs errors hstate houtcome =>
    have hinput : flow.handleInput (.data piece) =
        tryDecodeResponse { flow with recvBuf := flow.recvBuf ++ piece } := if_neg hstate
    rw [tryDecodeResponse] at hinput
    dsimp only at hinput
    show Shows _ (framing.look verdict (flow.recvBuf ++ piece))
    cases hnext : nextFrame (flow.recvBuf ++ piece) with
    | none =>
      rw [Framing.look, show framing.next _ = none from hnext]
      obtain hreceive | ⟨e, hreceive⟩ := receive_of_none hnext
      · rw [hreceive] at hinput
        rw [Driven.give_ok hinput]
        exact .waiting hstate houtcome
      · rw [hreceive] at hinput
        rw [Driven.give_error hinput]
        exact .waiting hstate houtcome
    | some found =>
      obtain ⟨payload, rest⟩ := found
      rw [Framing.look, show framing.next _ = some (payload, rest) from hnext]
      dsimp only
      rw [receive_of_some hnext] at hinput
      rw [verdict]
      cases hdecode : (Message.decode payload).run with
      | error p =>
        rw [hdecode] at hinput
        rw [Driven.give_panic hinput]
        exact .panicked
      | ok decoded =>
        rw [hdecode] at hinput
        cases decoded with
        | error e =>
          rw [Driven.give_error hinput]
          exact .waiting hstate houtcome
        | ok msg =>
          change _ = ite _ _ _ at hinput
          dsimp only
          by_cases hkind : msg.kind ≠ .dialResponse
          · rw [if_pos hkind] at hinput ⊢
            rw [Driven.give_error hinput]
            exact houtcome ▸ .settled rfl
          rw [if_neg hkind] at hinput ⊢
          cases hresponse : msg.dialResponse with
          | none =>
            rw [hresponse] at hinput
            rw [Driven.give_error hinput]
            exact .waiting hstate houtcome
          | some response =>
            rw [hresponse] at hinput
            change _ = (outcomeOf response >>= _) at hinput
            dsimp only
            cases houtcome : outcomeOf response with
            | error p =>
              rw [houtcome] at hinput
              rw [Driven.give_panic hinput]
              exact .panicked
            | ok outcome =>
              rw [houtcome] at hinput
              rw [Driven.give_ok hinput]
              exact .settled rfl

/-- The outcome is the answer of the reader that takes one frame for each piece. -/
theorem outcomeAfter_eq (peerId : PeerId) (addrs : List Multiaddr)
    (ops : List (Chunking.Op UInt8)) :
    outcomeAfter peerId addrs ops = (framing.run verdict (Chunking.pieces ops)).answer := by
  have hstart : Shows (.start (new peerId addrs)) (.waiting []) := .waiting (by rintro ⟨⟩) rfl
  exact (Chunking.run_simulates (R := Shows) (fun _ _ piece h => h.give piece) (fun _ _ h => h.poll)
    hstart ops).answer_eq

end AutoNatClient

/-! ## AutoNatServer -/

namespace AutoNatServer

/-- What the payload of a frame does to a server that waits. -/
def verdict (payload : Bytes) : Verdict AutoNatRequest :=
  match (Message.decode payload).run with
  | .error _ => .ended
  | .ok (.error _) => .skipped
  | .ok (.ok msg) =>
    if msg.kind ≠ .dial then .ended
    else
      match dialPeer msg with
      | .error _ => .skipped
      | .ok peer =>
        match PeerId.fromBytes peer.id with
        | .error _ => .skipped
        | .ok peerId =>
          match decodeAddrs peer.addrs with
          | .error _ => .ended
          | .ok addrs => .found ⟨peerId, addrs, peer.addrs⟩

/-- The request that a new server has after it was fed and polled. -/
def requestAfter (ops : List (Chunking.Op UInt8)) : Option AutoNatRequest :=
  (drive (.start new) ops).machine.bind fun flow => flow.request

/-- Where a server stands. A panic ends it. -/
inductive Shows : Caller → State UInt8 AutoNatRequest → Prop
  | waiting {flow : AutoNatServer} {outputs : List AutoNatServerOutput}
    {errors : List AutoNatError} (hstate : flow.state = .awaitingRequest)
    (hrequest : flow.request = none) :
    Shows ⟨some flow, outputs, errors⟩ (.waiting flow.recvBuf)
  | settled {flow : AutoNatServer} {outputs : List AutoNatServerOutput} {errors : List AutoNatError}
    (hstate : flow.state ≠ .awaitingRequest) :
    Shows ⟨some flow, outputs, errors⟩ (.settled flow.request)
  | panicked {outputs : List AutoNatServerOutput} {errors : List AutoNatError} :
    Shows ⟨none, outputs, errors⟩ (.settled none)

variable {caller : Caller} {state : State UInt8 AutoNatRequest}

omit [MultihashCodec] in
/-- The server has the request that the framing gives. -/
theorem Shows.answer_eq (h : Shows caller state) :
    caller.machine.bind (fun flow => flow.request) = state.answer := by
  cases h with
  | waiting hstate hrequest => exact hrequest
  | settled hstate => rfl
  | panicked => rfl

omit [MultihashCodec] in
/-- Polling a server does not change what it has read. -/
theorem pollOutput_keeps (flow : AutoNatServer) :
    flow.pollOutput.1.state = flow.state ∧ flow.pollOutput.1.recvBuf = flow.recvBuf ∧
      flow.pollOutput.1.request = flow.request := by
  obtain ⟨outbound, recvBuf, request, emitted, state⟩ := flow
  cases outbound <;> cases request <;> cases emitted <;> exact ⟨rfl, rfl, rfl⟩

/-- A poll leaves the framing alone. -/
theorem Shows.poll (h : Shows caller state) : Shows caller.poll state := by
  cases h with
  | panicked => exact .panicked
  | @settled flow outputs errors hstate =>
    obtain ⟨hkept, -, hrequest⟩ := pollOutput_keeps flow
    rw [Driven.poll_some, ← hrequest]
    exact .settled (hkept ▸ hstate)
  | @waiting flow outputs errors hstate hnone =>
    obtain ⟨hkept, hbuf, hrequest⟩ := pollOutput_keeps flow
    rw [Driven.poll_some, ← hbuf]
    exact .waiting (hkept.trans hstate) (hrequest.trans hnone)

/-- A piece moves the server as it moves the framing. -/
theorem Shows.give (h : Shows caller state) (piece : Bytes) :
    Shows (caller.give (.data piece)) (framing.feed verdict state piece) := by
  cases h with
  | panicked => exact .panicked
  | @settled flow outputs errors hstate =>
    have hinput : flow.handleInput (.data piece) = .ok (flow, .ok ()) := if_pos hstate
    rw [Driven.give_ok hinput]
    exact .settled hstate
  | @waiting flow outputs errors hstate hrequest =>
    have hinput : flow.handleInput (.data piece) =
        tryDecodeRequest { flow with recvBuf := flow.recvBuf ++ piece } :=
      if_neg (not_not.mpr hstate)
    rw [tryDecodeRequest] at hinput
    dsimp only at hinput
    show Shows _ (framing.look verdict (flow.recvBuf ++ piece))
    cases hnext : nextFrame (flow.recvBuf ++ piece) with
    | none =>
      rw [Framing.look, show framing.next _ = none from hnext]
      obtain hreceive | ⟨e, hreceive⟩ := receive_of_none hnext
      · rw [hreceive] at hinput
        rw [Driven.give_ok hinput]
        exact .waiting hstate hrequest
      · rw [hreceive] at hinput
        rw [Driven.give_error hinput]
        exact .waiting hstate hrequest
    | some found =>
      obtain ⟨payload, rest⟩ := found
      rw [Framing.look, show framing.next _ = some (payload, rest) from hnext]
      dsimp only
      rw [receive_of_some hnext] at hinput
      rw [verdict]
      cases hdecode : (Message.decode payload).run with
      | error p =>
        rw [hdecode] at hinput
        rw [Driven.give_panic hinput]
        exact .panicked
      | ok decoded =>
        rw [hdecode] at hinput
        cases decoded with
        | error e =>
          rw [Driven.give_error hinput]
          exact .waiting hstate hrequest
        | ok msg =>
          change _ = ite _ _ _ at hinput
          dsimp only
          by_cases hkind : msg.kind ≠ .dial
          · rw [if_pos hkind] at hinput ⊢
            rw [Driven.give_error hinput]
            exact hrequest ▸ .settled (by rintro ⟨⟩)
          rw [if_neg hkind] at hinput ⊢
          cases hpeer : dialPeer msg with
          | error e =>
            rw [hpeer] at hinput
            rw [Driven.give_error hinput]
            exact .waiting hstate hrequest
          | ok peer =>
            rw [hpeer] at hinput
            change _ = requestFrom _ peer at hinput
            rw [requestFrom] at hinput
            dsimp only
            cases hid : PeerId.fromBytes peer.id with
            | error e =>
              rw [hid] at hinput
              rw [Driven.give_error hinput]
              exact .waiting hstate hrequest
            | ok peerId =>
              rw [hid] at hinput
              change _ = (decodeAddrs peer.addrs >>= _) at hinput
              dsimp only
              cases haddrs : decodeAddrs peer.addrs with
              | error p =>
                rw [haddrs] at hinput
                rw [Driven.give_panic hinput]
                exact .panicked
              | ok addrs =>
                rw [haddrs] at hinput
                rw [Driven.give_ok hinput]
                exact .settled (by rintro ⟨⟩)

/-- The request is the answer of the reader that takes one frame for each piece. -/
theorem requestAfter_eq (ops : List (Chunking.Op UInt8)) :
    requestAfter ops = (framing.run verdict (Chunking.pieces ops)).answer := by
  have hstart : Shows (.start new) (.waiting []) := .waiting rfl rfl
  exact (Chunking.run_simulates (R := Shows) (fun _ _ piece h => h.give piece) (fun _ _ h => h.poll)
    hstart ops).answer_eq

end AutoNatServer

/-! ## Ways to cut a stream -/

omit [MultihashCodec] in
/-- When the pieces of a stream make no difference. -/
theorem same_iff {α : Type} {verdict : Bytes → Verdict α}
    {after : List (Chunking.Op UInt8) → Option α}
    (hafter : ∀ ops, after ops = (framing.run verdict (Chunking.pieces ops)).answer)
    {payloads : List Bytes} (hlen : (framing.stream payloads).length ≤ maxMessageSize) :
    (∀ ops₁ ops₂, Chunking.fed ops₁ = framing.stream payloads →
      Chunking.fed ops₂ = framing.stream payloads → after ops₁ = after ops₂) ↔
      ¬ Late verdict payloads := by
  rw [← Framing.same_iff framing_exact hlen]
  constructor
  · intro h pieces₁ pieces₂ h₁ h₂
    have hfed : ∀ pieces : List Bytes, Chunking.fed (pieces.map .feed) = pieces.flatten := by
      intro pieces
      rw [← Chunking.flatten_pieces, Chunking.pieces_map_feed]
    have heq := h (pieces₁.map .feed) (pieces₂.map .feed) ((hfed _).trans h₁) ((hfed _).trans h₂)
    rwa [hafter, hafter, Chunking.pieces_map_feed, Chunking.pieces_map_feed] at heq
  · intro h ops₁ ops₂ h₁ h₂
    rw [hafter, hafter]
    exact h _ _ ((Chunking.flatten_pieces ops₁).trans h₁) ((Chunking.flatten_pieces ops₂).trans h₂)

/-- However frames within the limit are cut into pieces, a client comes to the same outcome and a
server to the same request, if and only if the first frame that is not skipped is the first of all
or is not one that answers. -/
theorem recovery_independent_iff :
    (∀ peerId addrs payloads, (framing.stream payloads).length ≤ maxMessageSize →
      ((∀ ops₁ ops₂, Chunking.fed ops₁ = framing.stream payloads →
        Chunking.fed ops₂ = framing.stream payloads →
          AutoNatClient.outcomeAfter peerId addrs ops₁ =
            AutoNatClient.outcomeAfter peerId addrs ops₂) ↔
        ¬ Late AutoNatClient.verdict payloads)) ∧
    (∀ payloads, (framing.stream payloads).length ≤ maxMessageSize →
      ((∀ ops₁ ops₂, Chunking.fed ops₁ = framing.stream payloads →
        Chunking.fed ops₂ = framing.stream payloads →
          AutoNatServer.requestAfter ops₁ = AutoNatServer.requestAfter ops₂) ↔
        ¬ Late AutoNatServer.verdict payloads)) :=
  ⟨fun peerId addrs _ hlen => same_iff (AutoNatClient.outcomeAfter_eq peerId addrs) hlen,
    fun _ hlen => same_iff AutoNatServer.requestAfter_eq hlen⟩

/-- A payload with a message type that does not exist. -/
def badPayload : Bytes := [8, 99]

/-- A response that reports a failed dial. -/
def dialErrorPayload : Bytes :=
  Message.encode ⟨.dialResponse, none, some ⟨.dialError, none, []⟩⟩

omit [MultihashCodec] in
theorem recovery_independent_iff_badPayload :
    letI := multihashCodec
    ((∀ ops₁ ops₂, Chunking.fed ops₁ = framing.stream [badPayload, dialErrorPayload] →
      Chunking.fed ops₂ = framing.stream [badPayload, dialErrorPayload] →
        AutoNatClient.outcomeAfter dialPeerId [] ops₁ =
          AutoNatClient.outcomeAfter dialPeerId [] ops₂) ↔
      ¬ Late AutoNatClient.verdict [badPayload, dialErrorPayload]) ∧
    ((∀ ops₁ ops₂, Chunking.fed ops₁ = framing.stream [badPayload] →
      Chunking.fed ops₂ = framing.stream [badPayload] →
        AutoNatServer.requestAfter ops₁ = AutoNatServer.requestAfter ops₂) ↔
      ¬ Late AutoNatServer.verdict [badPayload]) := by
  let codec := multihashCodec
  exact ⟨recovery_independent_iff.1 dialPeerId [] _ (by decide),
    recovery_independent_iff.2 _ (by decide)⟩

omit [MultihashCodec] in
/-- A good frame behind a bad one is lost if they come in one piece. -/
theorem recovery_dependent :
    letI := multihashCodec
    let bad := encodeFrame badPayload
    let response := encodeFrame dialErrorPayload
    let request := dialFrame dialPeerId [loopbackAddr]
    AutoNatClient.outcomeAfter dialPeerId [] [.feed (bad ++ response)] ≠
        AutoNatClient.outcomeAfter dialPeerId [] [.feed bad, .feed response] ∧
      AutoNatServer.requestAfter [.feed (bad ++ request)] ≠
        AutoNatServer.requestAfter [.feed bad, .feed request] := by
  decide

end Minip2p.Autonat
