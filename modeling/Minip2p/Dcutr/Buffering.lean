import Minip2p.Dcutr.Flows
import Minip2p.Relay.Buffering

/-!
# Receive buffers of the DCUtR flows

The initiator buffers what comes before its CONNECT is out and after the reply, when it decodes
nothing. The five flows that buffer a relayed or a hole-punching exchange stay within their limits
if and only if every piece of a stream they buffer fits.
-/

namespace Minip2p.Dcutr

open Relay (HopReservation HopConnect StopResponder)
open SansIoProtocol (GuardedRun)

variable [MultihashCodec]

/-! ## DcutrInitiator -/

namespace DcutrInitiator

/-- A flow buffers what comes until its SYNC is queued. -/
def buffering : Buffering DcutrInitiator DcutrInitiatorInput where
  recvBuf flow := flow.recvBuf
  appended flow
    | .data bytes _ => if flow.state = .done ∨ flow.state = .syncPending then [] else bytes
    | .flush | .remoteWriteClosed | .sendSync => []

variable {flow flow' : DcutrInitiator} {result : Except DcutrError Unit} {rttMs : UInt64}

/-- Decoding never makes the buffer longer. -/
theorem length_tryDecodeReply (h : flow.tryDecodeReply rttMs = .ok (flow', result)) :
    flow'.recvBuf.length ≤ flow.recvBuf.length := by
  rw [tryDecodeReply] at h
  split at h
  · cases h
    exact Nat.le_refl _
  obtain ⟨received, hreceive, h⟩ := Except.bind_eq_ok_iff.mp h
  cases received with
  | incomplete | failed =>
    cases h
    exact Nat.le_refl _
  | message msg rest =>
    dsimp only at h
    split at h
    · cases h
      exact Wire.length_rest_le hreceive
    · obtain ⟨remoteAddrs, -, h⟩ := Except.bind_eq_ok_iff.mp h
      cases h
      exact Wire.length_rest_le hreceive

/-- A buffer over the limit is kept, and not even looked at unless the reply is awaited. -/
theorem tryDecodeReply_tooLarge (flow : DcutrInitiator) (rttMs : UInt64)
    (hover : maxMessageSize < flow.recvBuf.length) : ∃ flow' result,
    flow.tryDecodeReply rttMs = .ok (flow', result) ∧ flow'.recvBuf = flow.recvBuf := by
  rw [tryDecodeReply]
  split
  · exact ⟨flow, .ok (), rfl, rfl⟩
  · rw [receiveHolePunch, Wire.receive_tooLarge hover]
    exact ⟨_, _, rfl, rfl⟩

omit [MultihashCodec] in
/-- Asking for the SYNC leaves the buffer alone. -/
theorem recvBuf_sendSync (flow : DcutrInitiator) : flow.sendSync.1.recvBuf = flow.recvBuf := by
  rw [sendSync]
  split <;> rfl

/-- An initiator buffers as the general account says. -/
theorem lawful_buffering : buffering.Lawful maxMessageSize where
  length {flow flow' input result} h := by
    have hnil : ∀ {flow' : DcutrInitiator}, flow'.recvBuf.length ≤ flow.recvBuf.length →
        flow'.recvBuf.length ≤ (flow.recvBuf ++ []).length := by
      intro flow' hle
      rwa [List.append_nil]
    cases input with
    | flush | remoteWriteClosed =>
      cases h
      exact hnil (Nat.le_refl _)
    | sendSync =>
      have hsend : flow.sendSync.1 = flow' := congrArg Prod.fst (Except.ok.inj h)
      refine hnil (Nat.le_of_eq (congrArg List.length ?_))
      rw [← hsend, recvBuf_sendSync]
    | data bytes rttMs =>
      change flow.onData bytes rttMs = _ at h
      by_cases hstate : flow.state = .done ∨ flow.state = .syncPending
      · rw [onData, if_pos hstate] at h
        cases h
        rw [show buffering.appended flow (.data bytes rttMs) = [] from if_pos hstate]
        exact hnil (Nat.le_refl _)
      · rw [onData, if_neg hstate] at h
        rw [show buffering.appended flow (.data bytes rttMs) = bytes from if_neg hstate]
        exact length_tryDecodeReply h
  exceeds {flow input} happended hover := by
    cases input with
    | flush | remoteWriteClosed | sendSync => exact absurd rfl happended
    | data bytes rttMs =>
      have hstate : ¬ (flow.state = .done ∨ flow.state = .syncPending) :=
        fun hstate => happended (if_pos hstate)
      rw [show buffering.appended flow (.data bytes rttMs) = bytes from if_neg hstate] at hover ⊢
      obtain ⟨flow', result, hdecode, hkept⟩ :=
        tryDecodeReply_tooLarge { flow with recvBuf := flow.recvBuf ++ bytes } rttMs hover
      exact ⟨flow', result, (if_neg hstate).trans hdecode, hkept⟩
  poll flow := by
    obtain ⟨outbound, recvBuf, state, outcome, emitted⟩ := flow
    cases outbound <;> cases outcome <;> cases emitted <;> rfl

end DcutrInitiator

/-! ## DcutrResponder -/

namespace DcutrResponder

/-- A flow buffers what comes until it has its SYNC. -/
def buffering : Buffering DcutrResponder DcutrResponderInput where
  recvBuf flow := flow.recvBuf
  appended flow
    | .data bytes => if flow.state = .done then [] else bytes
    | .flush | .remoteWriteClosed => []

variable {flow flow' : DcutrResponder} {result : Except DcutrError Unit}

/-- Every turn of the loop takes a message out of the buffer or ends it. -/
theorem length_tryDecodeGo {fuel : ℕ} (h : tryDecodeGo fuel flow = .ok (flow', result)) :
    flow'.recvBuf.length ≤ flow.recvBuf.length := by
  induction fuel generalizing flow with
  | zero => cases h
  | succ fuel ih =>
    rw [tryDecodeGo] at h
    split at h
    · cases h
      exact Nat.le_refl _
    obtain ⟨received, hreceive, h⟩ := Except.bind_eq_ok_iff.mp h
    cases received with
    | incomplete | failed =>
      cases h
      exact Nat.le_refl _
    | message msg rest =>
      have hrest : rest.length ≤ flow.recvBuf.length := Wire.length_rest_le hreceive
      dsimp only at h
      split at h
      · obtain ⟨remoteAddrs, -, h⟩ := Except.bind_eq_ok_iff.mp h
        exact Nat.le_trans (ih h) hrest
      · exact Nat.le_trans (ih h) hrest
      · cases h
        exact hrest

/-- A buffer over the limit ends the responder and is kept. -/
theorem tryDecode_tooLarge (flow : DcutrResponder) (hstate : flow.state ≠ .done)
    (hover : maxMessageSize < flow.recvBuf.length) : flow.tryDecode =
      .ok ({ flow with state := .done }, .error (.messageTooLarge flow.recvBuf.length)) := by
  rw [tryDecode, tryDecodeGo, if_neg hstate, receiveHolePunch, Wire.receive_tooLarge hover]
  rfl

/-- A responder buffers as the general account says. -/
theorem lawful_buffering : buffering.Lawful maxMessageSize where
  length {flow flow' input result} h := by
    have hnil : ∀ {flow' : DcutrResponder}, flow'.recvBuf.length ≤ flow.recvBuf.length →
        flow'.recvBuf.length ≤ (flow.recvBuf ++ []).length := by
      intro flow' hle
      rwa [List.append_nil]
    cases input with
    | flush =>
      cases h
      exact hnil (Nat.le_refl _)
    | remoteWriteClosed => exact hnil (length_tryDecodeGo h)
    | data bytes =>
      change flow.onData bytes = _ at h
      by_cases hstate : flow.state = .done
      · rw [onData, if_pos hstate] at h
        cases h
        rw [show buffering.appended flow (.data bytes) = [] from if_pos hstate]
        exact hnil (Nat.le_refl _)
      · rw [onData, if_neg hstate] at h
        rw [show buffering.appended flow (.data bytes) = bytes from if_neg hstate]
        exact length_tryDecodeGo h
  exceeds {flow input} happended hover := by
    cases input with
    | flush | remoteWriteClosed => exact absurd rfl happended
    | data bytes =>
      have hstate : flow.state ≠ .done := fun hstate => happended (if_pos hstate)
      rw [show buffering.appended flow (.data bytes) = bytes from if_neg hstate] at hover ⊢
      have htooLarge := tryDecode_tooLarge { flow with recvBuf := flow.recvBuf ++ bytes }
        hstate hover
      exact ⟨_, _, (if_neg hstate).trans htooLarge, rfl⟩
  poll flow := by
    obtain ⟨ownAddrs, outbound, recvBuf, state, events⟩ := flow
    cases outbound <;> cases events <;> rfl

end DcutrResponder

/-- After every input that is taken, also of a Flush after any call, a relay or DCUtR flow holds no
more than a message may be long, if and only if every piece of the stream that it buffers fits. -/
theorem recvBuf_bounded_iff :
    (∀ calls, (∀ first, first <+: calls → HopReservation.buffering.OkWithin Relay.maxMessageSize
        HopReservation.new (first ++ [.handleInput .flush])) ↔
      GuardedRun (HopReservation.buffering.Fits Relay.maxMessageSize) HopReservation.new calls) ∧
    (∀ targetPeerId calls, (∀ first, first <+: calls →
        HopConnect.buffering.OkWithin Relay.maxMessageSize (HopConnect.new targetPeerId)
          (first ++ [.handleInput .flush])) ↔
      GuardedRun (HopConnect.buffering.Fits Relay.maxMessageSize) (HopConnect.new targetPeerId)
        calls) ∧
    (∀ calls, (∀ first, first <+: calls → StopResponder.buffering.OkWithin Relay.maxMessageSize
        StopResponder.new (first ++ [.handleInput .flush])) ↔
      GuardedRun (StopResponder.buffering.Fits Relay.maxMessageSize) StopResponder.new calls) ∧
    (∀ ownAddrs calls, (∀ first, first <+: calls →
        DcutrInitiator.buffering.OkWithin maxMessageSize (DcutrInitiator.new ownAddrs)
          (first ++ [.handleInput .flush])) ↔
      GuardedRun (DcutrInitiator.buffering.Fits maxMessageSize) (DcutrInitiator.new ownAddrs)
        calls) ∧
    (∀ ownAddrs calls, (∀ first, first <+: calls →
        DcutrResponder.buffering.OkWithin maxMessageSize (DcutrResponder.new ownAddrs)
          (first ++ [.handleInput .flush])) ↔
      GuardedRun (DcutrResponder.buffering.Fits maxMessageSize) (DcutrResponder.new ownAddrs)
        calls) := by
  refine ⟨fun calls => ?_, fun targetPeerId calls => ?_, fun calls => ?_, fun ownAddrs calls => ?_,
    fun ownAddrs calls => ?_⟩
  · exact Buffering.okWithin_flush_iff (fun _ => rfl) HopReservation.lawful_buffering _ calls
      (Nat.zero_le _)
  · exact Buffering.okWithin_flush_iff (fun _ => rfl) HopConnect.lawful_buffering _ calls
      (Nat.zero_le _)
  · exact Buffering.okWithin_flush_iff (fun _ => rfl) StopResponder.lawful_buffering _ calls
      (Nat.zero_le _)
  · exact Buffering.okWithin_flush_iff (fun _ => rfl) DcutrInitiator.lawful_buffering _ calls
      (Nat.zero_le _)
  · exact Buffering.okWithin_flush_iff (fun _ => rfl) DcutrResponder.lawful_buffering _ calls
      (Nat.zero_le _)

omit [MultihashCodec] in
/-- A relay that sends more than a message behind its CONNECT while the host decides, and a remote
that sends more than one to an initiator whose CONNECT is not out yet. -/
theorem recvBuf_over :
    ¬ StopResponder.buffering.OkWithin Relay.maxMessageSize StopResponder.new
      [.handleInput (.data [7, 8, 0, 18, 3, 10, 1, 1]),
        .handleInput (.data (List.replicate 8193 0))] ∧
    letI := multihashCodec
    ¬ DcutrInitiator.buffering.OkWithin maxMessageSize (DcutrInitiator.new [])
      [.handleInput (.data (List.replicate 4097 0) 0)] := by
  constructor
  · intro h
    let deciding : StopResponder := ⟨[], [], .awaitingDecision, some ⟨[1], none⟩, false, []⟩
    have hconnect : SansIoProtocol.handleInput StopResponder.new
        (.data [7, 8, 0, 18, 3, 10, 1, 1]) = .ok (deciding, .ok ()) := by
      decide
    have hdata : SansIoProtocol.handleInput deciding (.data (List.replicate 8193 0)) =
        .ok ({ deciding with recvBuf := List.replicate 8193 0 }, .ok ()) := rfl
    have hrun := SansIoProtocol.run_handleInput hconnect
      (SansIoProtocol.run_handleInput hdata
        (rfl : SansIoProtocol.run _ ([] : List (SansIoProtocol.Call _)) = .ok (_, [])))
    have hlen := h [.handleInput (.data _)] (.data _) List.prefix_rfl _ [.handled (.ok ())] hrun
    change (List.replicate 8193 (0 : UInt8)).length ≤ 8192 at hlen
    rw [List.length_replicate] at hlen
    omega
  · let codec := multihashCodec
    intro h
    have hdata : SansIoProtocol.handleInput (DcutrInitiator.new [])
        (.data (List.replicate 4097 0) 0) =
          .ok ({ DcutrInitiator.new [] with recvBuf := List.replicate 4097 0 }, .ok ()) := rfl
    have hrun := SansIoProtocol.run_handleInput hdata
      (rfl : SansIoProtocol.run _ ([] : List (SansIoProtocol.Call _)) = .ok (_, []))
    have hlen := h [] (.data _ _) List.prefix_rfl _ [] hrun
    change (List.replicate 4097 (0 : UInt8)).length ≤ 4096 at hlen
    rw [List.length_replicate] at hlen
    omega

end Minip2p.Dcutr
