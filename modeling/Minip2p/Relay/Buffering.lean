import Minip2p.Core.Buffering
import Minip2p.Relay.Flows

/-!
# Receive buffers of the relay flows

The size of a buffer is checked where it is decoded. `StopResponder` goes on buffering while the
host decides and decodes nothing then, and a buffer that was found too large is kept.
-/

namespace Minip2p.Relay

/-! ## HopReservation -/

namespace HopReservation

/-- A flow that waits for its response buffers what comes. -/
def buffering : Buffering HopReservation HopInput where
  recvBuf flow := flow.recvBuf
  appended flow
    | .data bytes => if flow.state = .done then [] else bytes
    | .flush | .remoteWriteClosed => []

variable {flow flow' : HopReservation} {result : Except RelayError Unit}

/-- Decoding never makes the buffer longer. -/
theorem length_tryDecodeResponse (h : flow.tryDecodeResponse = .ok (flow', result)) :
    flow'.recvBuf.length ≤ flow.recvBuf.length := by
  rw [tryDecodeResponse] at h
  split at h
  · cases h
    exact Nat.le_refl _
  obtain ⟨received, hreceive, h⟩ := Except.bind_eq_ok_iff.mp h
  cases received with
  | incomplete | failed =>
    cases h
    exact Nat.le_refl _
  | message msg rest =>
    dsimp only at h
    split at h <;> cases h <;> exact Wire.length_rest_le hreceive

/-- A buffer over the limit ends the reservation and is kept. -/
theorem tryDecodeResponse_tooLarge (flow : HopReservation) (hstate : flow.state ≠ .done)
    (hover : maxMessageSize < flow.recvBuf.length) : flow.tryDecodeResponse =
      .ok ({ flow with state := .done }, .error (.messageTooLarge flow.recvBuf.length)) := by
  rw [tryDecodeResponse, if_neg hstate, receiveHop, Wire.receive_tooLarge hover]
  rfl

/-- A reservation buffers as the general account says. -/
theorem lawful_buffering : buffering.Lawful maxMessageSize where
  length {flow flow' input result} h := by
    cases input with
    | flush =>
      cases h
      exact Nat.le_of_eq (congrArg List.length (List.append_nil _).symm)
    | remoteWriteClosed =>
      exact Nat.le_trans (length_tryDecodeResponse h)
        (Nat.le_of_eq (congrArg List.length (List.append_nil _).symm))
    | data bytes =>
      change flow.onData bytes = _ at h
      by_cases hstate : flow.state = .done
      · rw [onData, if_pos hstate] at h
        cases h
        rw [show buffering.appended flow (.data bytes) = [] from if_pos hstate, List.append_nil]
      · rw [onData, if_neg hstate] at h
        rw [show buffering.appended flow (.data bytes) = bytes from if_neg hstate]
        exact length_tryDecodeResponse h
  exceeds {flow input} happended hover := by
    cases input with
    | flush | remoteWriteClosed => exact absurd rfl happended
    | data bytes =>
      have hstate : flow.state ≠ .done := fun hstate => happended (if_pos hstate)
      rw [show buffering.appended flow (.data bytes) = bytes from if_neg hstate] at hover ⊢
      have htooLarge := tryDecodeResponse_tooLarge { flow with recvBuf := flow.recvBuf ++ bytes }
        hstate hover
      exact ⟨_, _, (if_neg hstate).trans htooLarge, rfl⟩
  poll flow := by
    obtain ⟨outbound, recvBuf, state, outcome, emitted⟩ := flow
    cases outbound <;> cases outcome <;> cases emitted <;> rfl

end HopReservation

/-! ## HopConnect -/

namespace HopConnect

/-- A flow that waits for its response buffers what comes. -/
def buffering : Buffering HopConnect HopInput where
  recvBuf flow := flow.recvBuf
  appended flow
    | .data bytes => if flow.state = .done then [] else bytes
    | .flush | .remoteWriteClosed => []

variable {flow flow' : HopConnect} {result : Except RelayError Unit}

/-- Decoding never makes the buffer longer. -/
theorem length_tryDecodeResponse (h : flow.tryDecodeResponse = .ok (flow', result)) :
    flow'.recvBuf.length ≤ flow.recvBuf.length := by
  rw [tryDecodeResponse] at h
  split at h
  · cases h
    exact Nat.le_refl _
  obtain ⟨received, hreceive, h⟩ := Except.bind_eq_ok_iff.mp h
  cases received with
  | incomplete | failed =>
    cases h
    exact Nat.le_refl _
  | message msg rest =>
    dsimp only at h
    split at h
    · cases h
      exact Wire.length_rest_le hreceive
    split at h
    · -- what is left of the buffer goes to the bridge
      cases h
      exact Nat.zero_le _
    · cases h
      exact Wire.length_rest_le hreceive

/-- A buffer over the limit ends the attempt and is kept. -/
theorem tryDecodeResponse_tooLarge (flow : HopConnect) (hstate : flow.state ≠ .done)
    (hover : maxMessageSize < flow.recvBuf.length) : flow.tryDecodeResponse =
      .ok ({ flow with state := .done }, .error (.messageTooLarge flow.recvBuf.length)) := by
  rw [tryDecodeResponse, if_neg hstate, receiveHop, Wire.receive_tooLarge hover]
  rfl

/-- After the answer the buffer is left alone. -/
theorem recvBuf_onData_done {bytes : Bytes} (hstate : flow.state = .done)
    (h : flow.onData bytes = .ok (flow', result)) : flow'.recvBuf = flow.recvBuf := by
  rw [onData, if_pos hstate] at h
  split at h <;> cases h <;> rfl

/-- A connection attempt buffers as the general account says. -/
theorem lawful_buffering : buffering.Lawful maxMessageSize where
  length {flow flow' input result} h := by
    cases input with
    | flush =>
      cases h
      exact Nat.le_of_eq (congrArg List.length (List.append_nil _).symm)
    | remoteWriteClosed =>
      exact Nat.le_trans (length_tryDecodeResponse h)
        (Nat.le_of_eq (congrArg List.length (List.append_nil _).symm))
    | data bytes =>
      change flow.onData bytes = _ at h
      by_cases hstate : flow.state = .done
      · rw [show buffering.appended flow (.data bytes) = [] from if_pos hstate, List.append_nil]
        exact Nat.le_of_eq (congrArg List.length (recvBuf_onData_done hstate h))
      · rw [onData, if_neg hstate] at h
        rw [show buffering.appended flow (.data bytes) = bytes from if_neg hstate]
        exact length_tryDecodeResponse h
  exceeds {flow input} happended hover := by
    cases input with
    | flush | remoteWriteClosed => exact absurd rfl happended
    | data bytes =>
      have hstate : flow.state ≠ .done := fun hstate => happended (if_pos hstate)
      rw [show buffering.appended flow (.data bytes) = bytes from if_neg hstate] at hover ⊢
      have htooLarge := tryDecodeResponse_tooLarge { flow with recvBuf := flow.recvBuf ++ bytes }
        hstate hover
      exact ⟨_, _, (if_neg hstate).trans htooLarge, rfl⟩
  poll flow := by
    obtain ⟨outbound, recvBuf, state, outcome, emitted, bridgeBytes⟩ := flow
    cases outbound <;> cases outcome <;> cases emitted <;> cases bridgeBytes <;> rfl

end HopConnect

/-! ## StopResponder -/

namespace StopResponder

/-- A flow buffers what comes until its host has decided. -/
def buffering : Buffering StopResponder StopResponderInput where
  recvBuf flow := flow.recvBuf
  appended flow
    | .data bytes => if flow.state = .bridged ∨ flow.state = .done then [] else bytes
    | .flush | .remoteWriteClosed | .accept | .reject _ => []

variable {flow flow' : StopResponder} {result : Except RelayError Unit} {bytes : Bytes}

/-- Decoding never makes the buffer longer. -/
theorem length_tryDecodeConnect (h : flow.tryDecodeConnect = .ok (flow', result)) :
    flow'.recvBuf.length ≤ flow.recvBuf.length := by
  rw [tryDecodeConnect] at h
  split at h
  · cases h
    exact Nat.le_refl _
  obtain ⟨received, hreceive, h⟩ := Except.bind_eq_ok_iff.mp h
  cases received with
  | incomplete | failed =>
    cases h
    exact Nat.le_refl _
  | message msg rest =>
    dsimp only at h
    split at h
    · cases h
      exact Wire.length_rest_le hreceive
    split at h <;> cases h <;> exact Wire.length_rest_le hreceive

/-- A buffer over the limit is kept, and not even looked at once the CONNECT was found. -/
theorem tryDecodeConnect_tooLarge (flow : StopResponder)
    (hover : maxMessageSize < flow.recvBuf.length) : ∃ flow' result,
    flow.tryDecodeConnect = .ok (flow', result) ∧ flow'.recvBuf = flow.recvBuf := by
  rw [tryDecodeConnect]
  split
  · exact ⟨flow, .ok (), rfl, rfl⟩
  · rw [receiveStop, Wire.receive_tooLarge hover]
    exact ⟨_, _, rfl, rfl⟩

/-- Before the decision bytes go to the buffer and are decoded. -/
theorem onData_buffering (hstate : ¬ (flow.state = .bridged ∨ flow.state = .done)) :
    flow.onData bytes = tryDecodeConnect { flow with recvBuf := flow.recvBuf ++ bytes } := by
  rw [not_or] at hstate
  rw [onData, if_neg hstate.1, if_neg hstate.2]

/-- On a bridge and at the end the buffer is left alone. -/
theorem recvBuf_onData_quiet (hstate : flow.state = .bridged ∨ flow.state = .done)
    (h : flow.onData bytes = .ok (flow', result)) : flow'.recvBuf = flow.recvBuf := by
  rw [onData] at h
  split at h
  · cases h
    rfl
  · next hbridged =>
    rw [if_pos (hstate.resolve_left hbridged)] at h
    cases h
    rfl

theorem recvBuf_sendStatus (flow : StopResponder) (status : Status) (nextState : StopState) :
    (flow.sendStatus status nextState).1.recvBuf = flow.recvBuf := by
  rw [sendStatus]
  split <;> rfl

/-- Accepting takes what is behind the request out of the buffer. -/
theorem length_accept (flow : StopResponder) :
    flow.accept.1.recvBuf.length ≤ flow.recvBuf.length := by
  have hkept := flow.recvBuf_sendStatus .ok .bridged
  rw [accept]
  split
  · next hsend =>
    rw [hsend] at hkept
    exact Nat.le_of_eq (congrArg List.length hkept)
  · -- what is left of the buffer goes to the bridge
    exact Nat.zero_le _

/-- A responder buffers as the general account says. -/
theorem lawful_buffering : buffering.Lawful maxMessageSize where
  length {flow flow' input result} h := by
    have hnil : ∀ {flow' : StopResponder}, flow'.recvBuf.length ≤ flow.recvBuf.length →
        flow'.recvBuf.length ≤ (flow.recvBuf ++ []).length := by
      intro flow' hle
      rwa [List.append_nil]
    cases input with
    | flush =>
      cases h
      exact hnil (Nat.le_refl _)
    | remoteWriteClosed => exact hnil (length_tryDecodeConnect h)
    | accept =>
      have haccept : flow.accept.1 = flow' := congrArg Prod.fst (Except.ok.inj h)
      exact hnil (haccept ▸ flow.length_accept)
    | reject status =>
      have hreject : (flow.sendStatus status .done).1 = flow' :=
        congrArg Prod.fst (Except.ok.inj h)
      refine hnil (Nat.le_of_eq (congrArg List.length ?_))
      rw [← hreject, recvBuf_sendStatus]
    | data bytes =>
      change flow.onData bytes = _ at h
      by_cases hstate : flow.state = .bridged ∨ flow.state = .done
      · rw [show buffering.appended flow (.data bytes) = [] from if_pos hstate]
        exact hnil (Nat.le_of_eq (congrArg List.length (recvBuf_onData_quiet hstate h)))
      · rw [onData_buffering hstate] at h
        rw [show buffering.appended flow (.data bytes) = bytes from if_neg hstate]
        exact length_tryDecodeConnect h
  exceeds {flow input} happended hover := by
    cases input with
    | flush | remoteWriteClosed | accept | reject => exact absurd rfl happended
    | data bytes =>
      have hstate : ¬ (flow.state = .bridged ∨ flow.state = .done) :=
        fun hstate => happended (if_pos hstate)
      rw [show buffering.appended flow (.data bytes) = bytes from if_neg hstate] at hover ⊢
      obtain ⟨flow', result, hdecode, hkept⟩ :=
        tryDecodeConnect_tooLarge { flow with recvBuf := flow.recvBuf ++ bytes } hover
      exact ⟨flow', result, (onData_buffering hstate).trans hdecode, hkept⟩
  poll flow := by
    obtain ⟨outbound, recvBuf, state, request, emitted, bridgeBytes⟩ := flow
    cases outbound <;> cases request <;> cases emitted <;> cases bridgeBytes <;> rfl

end StopResponder

end Minip2p.Relay
