import Minip2p.Dcutr.Flows
import Minip2p.Relay.Flows

/-!
# Panic freedom of the relay and DCUtR flows

Both frame decoders add the declared length to the length prefix before they compare it with the
input, so a remote that declares a length close to `2 ^ 64` makes the sum overflow. The size
guards of the five state machines bound the buffer and not the declared length: ten bytes are
enough. Everything else the machines do on received bytes is in range.
-/

namespace Minip2p

open SansIoProtocol

/-- A frame that declares `2 ^ 64 - 1` bytes. -/
def hugeFrame : Bytes := [0xff, 0xff, 0xff, 0xff, 0xff, 0xff, 0xff, 0xff, 0xff, 0x01]

/-- The prefix of the frame is a length that overflows. -/
theorem hugePrefix_hugeFrame : Wire.HugePrefix hugeFrame := by decide

/-- The two frame decoders return, with the payload between the prefix and `consumed`, exactly
when the declared length and its prefix stay below `2 ^ 64`; and a run of any of the five state
machines, over any chunks and with polls anywhere, panics exactly when one of its inputs completes
a longer declaration in a receive buffer that the machine then decodes. -/
theorem frames_and_flows_safe_iff [MultihashCodec] :
    (∀ input, Wire.FrameSafe Relay.decodeFrame input ↔ ¬ Wire.HugePrefix input) ∧
    (∀ input, Wire.FrameSafe Dcutr.decodeFrame input ↔ ¬ Wire.HugePrefix input) ∧
    (∀ calls, Exec.Returns (run Relay.HopReservation.new calls) ↔
      GuardedRun Relay.HopReservation.Guard Relay.HopReservation.new calls) ∧
    (∀ targetPeerId calls, Exec.Returns (run (Relay.HopConnect.new targetPeerId) calls) ↔
      GuardedRun Relay.HopConnect.Guard (Relay.HopConnect.new targetPeerId) calls) ∧
    (∀ calls, Exec.Returns (run Relay.StopResponder.new calls) ↔
      GuardedRun Relay.StopResponder.Guard Relay.StopResponder.new calls) ∧
    (∀ ownAddrs calls, Exec.Returns (run (Dcutr.DcutrInitiator.new ownAddrs) calls) ↔
      GuardedRun Dcutr.DcutrInitiator.Guard (Dcutr.DcutrInitiator.new ownAddrs) calls) ∧
    (∀ ownAddrs calls, Exec.Returns (run (Dcutr.DcutrResponder.new ownAddrs) calls) ↔
      GuardedRun Dcutr.DcutrResponder.Guard (Dcutr.DcutrResponder.new ownAddrs) calls) := by
  refine ⟨fun _ => Wire.frameSafe_iff, fun _ => Wire.frameSafe_iff, ?_, ?_, ?_, ?_, ?_⟩
  · exact returns_run_iff Relay.HopReservation.returns_handleInput_iff _
  · exact fun targetPeerId => returns_run_iff Relay.HopConnect.returns_handleInput_iff _
  · exact returns_run_iff Relay.StopResponder.returns_handleInput_iff _
  · exact fun ownAddrs => returns_run_iff Dcutr.DcutrInitiator.returns_handleInput_iff _
  · exact fun ownAddrs => returns_run_iff Dcutr.DcutrResponder.returns_handleInput_iff _

/-- `hugeFrame` overflows both decoders and stops a reservation that receives it. -/
theorem hugeFrame_panics :
    ¬ Wire.FrameSafe Relay.decodeFrame hugeFrame ∧ ¬ Wire.FrameSafe Dcutr.decodeFrame hugeFrame ∧
    ¬ Exec.Returns (run Relay.HopReservation.new [.handleInput (.data hugeFrame)]) := by
  refine ⟨fun h => ?_, fun h => ?_, fun h => ?_⟩
  · exact Wire.frameSafe_iff.mp h hugePrefix_hugeFrame
  · exact Wire.frameSafe_iff.mp h hugePrefix_hugeFrame
  · have hguard := (returns_run_iff Relay.HopReservation.returns_handleInput_iff _ _).mp h
    exact hguard.1 (by decide) ⟨by decide, hugePrefix_hugeFrame⟩

end Minip2p
