import Minip2p.Autonat.Flows
import Minip2p.Core.Buffering

/-!
# Receive buffers of the AutoNAT flows

A buffer over the limit is answered with an error, and neither cleared nor closed: the flow goes on
buffering, and answering with the same error, for as long as the remote sends.
-/

namespace Minip2p.Autonat

open SansIoProtocol (GuardedRun)

/-- A frame is taken out of the buffer. -/
theorem length_recvBuf_le {buf rest : Bytes} {decoded : Except AutoNatError Message}
    (h : receive buf = .ok (.framed decoded rest)) : rest.length ≤ buf.length := by
  rw [receive] at h
  split at h
  · cases h
  obtain ⟨frame, -, h⟩ := Except.bind_eq_ok_iff.mp h
  cases frame with
  | incomplete | tooLarge | error => cases h
  | complete payload consumed =>
    obtain ⟨decoded', -, h⟩ := Except.bind_eq_ok_iff.mp h
    obtain ⟨rest', hdrain, h⟩ := Except.bind_eq_ok_iff.mp h
    obtain ⟨-, rfl⟩ := Received.framed.inj (Except.ok.inj h)
    rw [Exec.drain] at hdrain
    split at hdrain
    · cases hdrain
      rw [List.length_drop]
      exact Nat.sub_le _ _
    · cases hdrain

/-- A buffer over the limit is refused, whatever is in it. -/
theorem receive_tooLarge {buf : Bytes} (h : maxMessageSize < buf.length) :
    receive buf = .ok (.failed (.messageTooLarge buf.length)) :=
  if_pos h

variable [MultihashCodec]

/-! ## AutoNatClient -/

namespace AutoNatClient

/-- A client buffers what comes until it has its outcome. -/
def buffering : Buffering AutoNatClient AutoNatClientInput where
  recvBuf flow := flow.recvBuf
  appended flow
    | .data bytes => if flow.state = .done then [] else bytes
    | .flush => []

variable {flow flow' : AutoNatClient} {result : Except AutoNatError Unit}

/-- Decoding never makes the buffer longer. -/
theorem length_tryDecodeResponse (h : flow.tryDecodeResponse = .ok (flow', result)) :
    flow'.recvBuf.length ≤ flow.recvBuf.length := by
  rw [tryDecodeResponse] at h
  obtain ⟨received, hreceive, h⟩ := Except.bind_eq_ok_iff.mp h
  cases received with
  | incomplete | failed =>
    cases h
    exact Nat.le_refl _
  | framed decoded rest =>
    have hrest := length_recvBuf_le hreceive
    cases decoded with
    | error e =>
      cases h
      exact hrest
    | ok msg =>
      dsimp only at h
      split at h
      · cases h
        exact hrest
      split at h
      · cases h
        exact hrest
      · obtain ⟨outcome, -, h⟩ := Except.bind_eq_ok_iff.mp h
        cases h
        exact hrest

/-- A buffer over the limit is kept. -/
theorem tryDecodeResponse_tooLarge (flow : AutoNatClient)
    (hover : maxMessageSize < flow.recvBuf.length) : flow.tryDecodeResponse =
      .ok (flow, .error (.messageTooLarge flow.recvBuf.length)) := by
  rw [tryDecodeResponse, receive_tooLarge hover]
  rfl

/-- A client buffers as the general account says. -/
theorem lawful_buffering : buffering.Lawful maxMessageSize where
  length {flow flow' input result} h := by
    cases input with
    | flush =>
      cases h
      exact Nat.le_of_eq (congrArg List.length (List.append_nil _).symm)
    | data bytes =>
      change flow.onData bytes = _ at h
      by_cases hstate : flow.state = .done
      · rw [onData, if_pos hstate] at h
        cases h
        rw [show buffering.appended flow (.data bytes) = [] from if_pos hstate, List.append_nil]
      · rw [onData, if_neg hstate] at h
        rw [show buffering.appended flow (.data bytes) = bytes from if_neg hstate]
        exact length_tryDecodeResponse h
  exceeds {flow input} happended hover := by
    cases input with
    | flush => exact absurd rfl happended
    | data bytes =>
      have hstate : flow.state ≠ .done := fun hstate => happended (if_pos hstate)
      rw [show buffering.appended flow (.data bytes) = bytes from if_neg hstate] at hover ⊢
      have htooLarge := tryDecodeResponse_tooLarge { flow with recvBuf := flow.recvBuf ++ bytes }
        hover
      exact ⟨_, _, (if_neg hstate).trans htooLarge, rfl⟩
  poll flow := by
    obtain ⟨outbound, recvBuf, state, outcome, emitted⟩ := flow
    cases outbound <;> cases outcome <;> cases emitted <;> rfl

end AutoNatClient

/-! ## AutoNatServer -/

namespace AutoNatServer

/-- A server buffers what comes until it has its request. -/
def buffering : Buffering AutoNatServer AutoNatServerInput where
  recvBuf flow := flow.recvBuf
  appended flow
    | .data bytes => if flow.state = .awaitingRequest then bytes else []
    | .respondPublic _ | .respondError _ _ | .flush => []

variable {flow flow' : AutoNatServer} {result : Except AutoNatError Unit}

/-- What the request says does not touch the buffer. -/
theorem recvBuf_requestFrom {peer : PeerInfo} (h : flow.requestFrom peer = .ok (flow', result)) :
    flow'.recvBuf = flow.recvBuf := by
  rw [requestFrom] at h
  split at h
  · cases h
    rfl
  · obtain ⟨addrs, -, h⟩ := Except.bind_eq_ok_iff.mp h
    cases h
    rfl

/-- Decoding never makes the buffer longer. -/
theorem length_tryDecodeRequest (h : flow.tryDecodeRequest = .ok (flow', result)) :
    flow'.recvBuf.length ≤ flow.recvBuf.length := by
  rw [tryDecodeRequest] at h
  obtain ⟨received, hreceive, h⟩ := Except.bind_eq_ok_iff.mp h
  cases received with
  | incomplete | failed =>
    cases h
    exact Nat.le_refl _
  | framed decoded rest =>
    have hrest := length_recvBuf_le hreceive
    cases decoded with
    | error e =>
      cases h
      exact hrest
    | ok msg =>
      dsimp only at h
      split at h
      · cases h
        exact hrest
      split at h
      · cases h
        exact hrest
      · exact Nat.le_trans (Nat.le_of_eq (congrArg List.length (recvBuf_requestFrom h))) hrest

/-- A buffer over the limit is kept. -/
theorem tryDecodeRequest_tooLarge (flow : AutoNatServer)
    (hover : maxMessageSize < flow.recvBuf.length) : flow.tryDecodeRequest =
      .ok (flow, .error (.messageTooLarge flow.recvBuf.length)) := by
  rw [tryDecodeRequest, receive_tooLarge hover]
  rfl

/-- A server buffers as the general account says. -/
theorem lawful_buffering : buffering.Lawful maxMessageSize where
  length {flow flow' input result} h := by
    cases input with
    | flush | respondPublic | respondError =>
      cases h
      exact Nat.le_of_eq (congrArg List.length (List.append_nil _).symm)
    | data bytes =>
      change flow.onData bytes = _ at h
      by_cases hstate : flow.state = .awaitingRequest
      · rw [onData, if_neg (not_not.mpr hstate)] at h
        rw [show buffering.appended flow (.data bytes) = bytes from if_pos hstate]
        exact length_tryDecodeRequest h
      · rw [onData, if_pos hstate] at h
        cases h
        rw [show buffering.appended flow (.data bytes) = [] from if_neg hstate, List.append_nil]
  exceeds {flow input} happended hover := by
    cases input with
    | flush | respondPublic | respondError => exact absurd rfl happended
    | data bytes =>
      have hstate : flow.state = .awaitingRequest := by
        by_contra hstate
        exact happended (if_neg hstate)
      rw [show buffering.appended flow (.data bytes) = bytes from if_pos hstate] at hover ⊢
      have htooLarge := tryDecodeRequest_tooLarge { flow with recvBuf := flow.recvBuf ++ bytes }
        hover
      exact ⟨_, _, (if_neg (not_not.mpr hstate)).trans htooLarge, rfl⟩
  poll flow := by
    obtain ⟨outbound, recvBuf, request, emitted, state⟩ := flow
    cases outbound <;> cases request <;> cases emitted <;> rfl

end AutoNatServer

/-- An AutoNAT flow holds no more than a message may be long after every call if and only if every
piece of the stream that it buffers fits. -/
theorem recvBuf_within_iff :
    (∀ peerId addrs calls,
      AutoNatClient.buffering.Within maxMessageSize (AutoNatClient.new peerId addrs) calls ↔
        GuardedRun (AutoNatClient.buffering.Fits maxMessageSize) (AutoNatClient.new peerId addrs)
          calls) ∧
    (∀ calls, AutoNatServer.buffering.Within maxMessageSize AutoNatServer.new calls ↔
      GuardedRun (AutoNatServer.buffering.Fits maxMessageSize) AutoNatServer.new calls) := by
  refine ⟨fun peerId addrs calls => ?_, fun calls => ?_⟩
  · exact Buffering.within_iff AutoNatClient.lawful_buffering _ calls (Nat.zero_le _)
  · exact Buffering.within_iff AutoNatServer.lawful_buffering _ calls (Nat.zero_le _)

omit [MultihashCodec] in
/-- A remote that goes on sending after its first piece, with too large a message, was refused. -/
theorem recvBuf_grows :
    letI := multihashCodec
    ¬ AutoNatClient.buffering.Within maxMessageSize
      (AutoNatClient.new ⟨0x00, [8, 1], Nat.le_of_ble_eq_true rfl⟩ [])
      [.handleInput (.data (List.replicate 8193 0)), .handleInput (.data [0])] ∧
    ¬ AutoNatServer.buffering.Within maxMessageSize AutoNatServer.new
      [.handleInput (.data (List.replicate 8193 0)), .handleInput (.data [0])] := by
  let codec := multihashCodec
  have hlen : ¬ (List.replicate 8193 (0 : UInt8)).length ≤ maxMessageSize := by
    rw [List.length_replicate]
    decide
  refine ⟨fun h => ?_, fun h => ?_⟩
  · rw [Buffering.within_iff AutoNatClient.lawful_buffering _ _ (Nat.zero_le _)] at h
    exact hlen h.1
  · rw [Buffering.within_iff AutoNatServer.lawful_buffering _ _ (Nat.zero_le _)] at h
    exact hlen h.1

end Minip2p.Autonat
