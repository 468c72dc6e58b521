import Minip2p.Autonat.Recovery
import Minip2p.Dcutr.RoundTrip
import Minip2p.Relay.Message

/-!
# Frames of the NAT traversal protocols

Each of the three protocols has its own frame codec. All of them find a frame at the front of their
input, whatever follows it, and ask for more as long as a byte of it is missing, also of its length.
So a reader that decodes frames one behind the other gets the payloads that were framed.
-/

namespace Minip2p.Autonat

/-- The payload of a frame that is complete, and its length with the prefix. -/
def completed : FrameDecode → Option (Bytes × ℕ)
  | .complete payload consumed => some (payload, consumed)
  | _ => none

/-- The same of the frames of the relay and of DCUtR. -/
def wireCompleted : Wire.FrameDecode → Option (Bytes × ℕ)
  | .complete payload consumed => some (payload, consumed)
  | _ => none

/-- A reader that takes the frames of a codec off the front of its buffer. -/
def reader {δ : Type} (encodeFrame : Bytes → Bytes) (decodeFrame : Bytes → Exec δ)
    (completed : δ → Option (Bytes × ℕ)) : Framing UInt8 Bytes where
  frame := encodeFrame
  next buf :=
    match decodeFrame buf with
    | .error _ => none
    | .ok decoded => (completed decoded).map fun (payload, consumed) => (payload, buf.drop consumed)

/-- A codec that frames the payloads with `fits`. -/
structure FramesExact {δ : Type} (encodeFrame : Bytes → Bytes) (decodeFrame : Bytes → Exec δ)
    (complete : Bytes → ℕ → δ) (incomplete : δ) (completed : δ → Option (Bytes × ℕ))
    (fits : Bytes → Prop) : Prop where
  /-- A frame at the front of the input is found, whatever follows it. -/
  whole (payload : Bytes) (hfits : fits payload) (rest : Bytes) :
    decodeFrame (encodeFrame payload ++ rest) =
      .ok (complete payload (encodeFrame payload).length)
  /-- A frame that is cut short is incomplete. -/
  part (payload : Bytes) (hfits : fits payload) (n : ℕ) (hn : n < (encodeFrame payload).length) :
    decodeFrame ((encodeFrame payload).take n) = .ok incomplete
  /-- The frames of a sequence of payloads are decoded one by one to these payloads, also if a part
  of another frame follows. -/
  sequence (payloads : List Bytes) (hfits : ∀ payload ∈ payloads, fits payload) (payload : Bytes)
    (hlast : fits payload) (n : ℕ) (hn : n < (encodeFrame payload).length) (fuel : ℕ)
    (hfuel : payloads.length < fuel) :
    (reader encodeFrame decodeFrame completed).takeAll fuel
      (payloads.flatMap encodeFrame ++ (encodeFrame payload).take n) =
        (payloads, (encodeFrame payload).take n)

/-- The first two laws give the third. -/
theorem FramesExact.of_single {δ : Type} {encodeFrame : Bytes → Bytes}
    {decodeFrame : Bytes → Exec δ} {complete : Bytes → ℕ → δ} {incomplete : δ}
    {completed : δ → Option (Bytes × ℕ)} {fits : Bytes → Prop}
    (hwhole : ∀ payload, fits payload → ∀ rest, decodeFrame (encodeFrame payload ++ rest) =
      .ok (complete payload (encodeFrame payload).length))
    (hpart : ∀ payload, fits payload → ∀ n < (encodeFrame payload).length,
      decodeFrame ((encodeFrame payload).take n) = .ok incomplete)
    (hcomplete : ∀ payload consumed, completed (complete payload consumed) =
      some (payload, consumed))
    (hincomplete : completed incomplete = none) :
    FramesExact encodeFrame decodeFrame complete incomplete completed fits where
  whole := hwhole
  part := hpart
  sequence := by
    intro payloads hfits payload hlast n hn fuel hfuel
    refine Framing.takeAll_stream hfuel ?_ ?_
    · intro p hp behind
      simp only [reader]
      rw [hwhole p (hfits p hp)]
      simp only [hcomplete, Option.map_some, List.drop_left]
    · simp only [reader]
      rw [hpart payload hlast n hn]
      simp only [hincomplete, Option.map_none]

/-- The frame codecs of the relay, of DCUtR and of AutoNAT. -/
theorem frames_exact :
    FramesExact Relay.encodeFrame Relay.decodeFrame .complete .incomplete wireCompleted
      (fun payload => payload.length < 2 ^ 63) ∧
    FramesExact Dcutr.encodeFrame Dcutr.decodeFrame .complete .incomplete wireCompleted
      (fun payload => payload.length < 2 ^ 63) ∧
    FramesExact encodeFrame decodeFrame .complete .incomplete completed
      (fun payload => payload.length ≤ maxMessageSize) := by
  refine ⟨.of_single ?_ ?_ (fun _ _ => rfl) rfl, .of_single ?_ ?_ (fun _ _ => rfl) rfl,
    .of_single ?_ ?_ (fun _ _ => rfl) rfl⟩
  · exact fun payload hfits rest => Wire.decodeFrame_encodeFrame hfits rest
  · exact fun payload hfits n hn => Wire.decodeFrame_take_encodeFrame hfits hn
  · exact fun payload hfits rest => Wire.decodeFrame_encodeFrame hfits rest
  · exact fun payload hfits n hn => Wire.decodeFrame_take_encodeFrame hfits hn
  · exact fun payload hfits rest => decodeFrame_encodeFrame hfits rest
  · exact fun payload hfits n hn => decodeFrame_take_encodeFrame hfits hn

end Minip2p.Autonat
