import Minip2p.Relay.HopFront
import Minip2p.Relay.StopFront

/-!
# Relay flows and the pieces of their streams

The three flows check the size of their whole buffer before they look for the message, so the bytes
a relay pipelines behind it decide whether it is accepted. The pieces of a stream do not matter if
and only if it is within the limit, or nothing within the limit is accepted.
-/

namespace Minip2p.Relay

open Wire (Front Seen)

/-- The bytes begin with a STATUS frame, or with a length that overflows. -/
def StatusFront (front : Bytes) : Prop :=
  Wire.HugePrefix front ∨ ∃ payload consumed msg,
    decodeFrame front = .ok (.complete payload consumed) ∧
      (HopMessage.decode payload).run = .ok (.ok msg) ∧ msg.kind = .status

/-- The bytes begin with a CONNECT frame that names a peer, or with a length that overflows. -/
def ConnectFront (front : Bytes) : Prop :=
  Wire.HugePrefix front ∨ ∃ payload consumed msg,
    decodeFrame front = .ok (.complete payload consumed) ∧
      (StopMessage.decode payload).run = .ok (.ok msg) ∧ msg.kind = .connect ∧ msg.peer.isSome

/-- The answer of the relay is settled by its size, or by a STATUS at the front. -/
theorem settled_hop_iff {α : Type} {accept : HopMessage → Option α}
    (haccept : ∀ msg, (accept msg).isSome ↔ msg.kind = .status) (stream : Bytes) :
    Front.Settled receiveHop accept maxMessageSize stream ↔
      stream.length ≤ maxMessageSize ∨ ¬ StatusFront (stream.take maxMessageSize) := by
  have hpassed : (Front.read receiveHop accept (stream.take maxMessageSize)).Passed ↔
      StatusFront (stream.take maxMessageSize) := by
    refine (Front.passed_read_iff (fun payload hlen => ?_) (List.length_take_le _ _)).trans ?_
    · exact (HopMessage.decode_safe (Nat.lt_of_le_of_lt hlen maxMessageSize_lt)).returns
    · simp only [haccept]
      rfl
  rw [Front.Settled, hpassed]

/-- The request is settled by the size of the stream, or by a CONNECT at the front. -/
theorem settled_stop_iff (stream : Bytes) :
    Front.Settled receiveStop StopResponder.acceptConnect maxMessageSize stream ↔
      stream.length ≤ maxMessageSize ∨ ¬ ConnectFront (stream.take maxMessageSize) := by
  have haccept : ∀ msg, (StopResponder.acceptConnect msg).isSome ↔
      msg.kind = .connect ∧ msg.peer.isSome := by
    intro msg
    rw [StopResponder.acceptConnect]
    split
    · next hkind => exact ⟨fun h => (Bool.false_ne_true h).elim, fun h => absurd h.1 hkind⟩
    · next hkind => rw [Option.isSome_map, and_iff_right (not_not.mp hkind)]
  have hpassed : (Front.read receiveStop StopResponder.acceptConnect
      (stream.take maxMessageSize)).Passed ↔ ConnectFront (stream.take maxMessageSize) := by
    refine (Front.passed_read_iff (fun payload hlen => ?_) (List.length_take_le _ _)).trans ?_
    · exact (StopMessage.decode_safe (Nat.lt_of_le_of_lt hlen maxMessageSize_lt)).returns
    · simp only [haccept]
      rfl
  rw [Front.Settled, hpassed]

theorem HopReservation.isSome_accept (msg : HopMessage) :
    (HopReservation.accept msg).isSome ↔ msg.kind = .status := by
  rw [HopReservation.accept]
  split <;> simp_all

theorem HopConnect.isSome_accept (msg : HopMessage) :
    (HopConnect.accept msg).isSome ↔ msg.kind = .status := by
  rw [HopConnect.accept]
  split <;> simp_all

/-- Every way to cut a stream is one to feed it. -/
theorem exists_pieces (cut : List Bytes) : ∃ ops : List Op, Chunking.pieces ops = cut :=
  ⟨cut.map .feed, Chunking.pieces_map_feed cut⟩

/-- Every cut of a stream is one of some operations. -/
theorem StopResponder.exists_pieces (cut : List Bytes) :
    ∃ ops, StopResponder.pieces ops = cut := by
  refine ⟨cut.map .feed, ?_⟩
  induction cut with
  | nil => rfl
  | cons piece cut ih => exact congrArg (piece :: ·) ih

/-- A relay flow shows its caller the same of all ways to cut a stream exactly if the stream is
within the size limit, or what is within it is not accepted. The host of the STOP flow decides
whenever it likes after it has seen the request. -/
theorem flows_packetisation_iff (targetPeerId : Bytes) (host : StopConnectRequest → Decision)
    (stream : Bytes) :
    ((∀ ops₁ ops₂ : List Op, Chunking.fed ops₁ = stream → Chunking.fed ops₂ = stream →
        HopReservation.seen ops₁ = HopReservation.seen ops₂) ↔
      stream.length ≤ maxMessageSize ∨ ¬ StatusFront (stream.take maxMessageSize)) ∧
    ((∀ ops₁ ops₂ : List Op, Chunking.fed ops₁ = stream → Chunking.fed ops₂ = stream →
        HopConnect.seen targetPeerId ops₁ = HopConnect.seen targetPeerId ops₂) ↔
      stream.length ≤ maxMessageSize ∨ ¬ StatusFront (stream.take maxMessageSize)) ∧
    ((∀ ops₁ ops₂ : List StopResponder.StopOp, (StopResponder.pieces ops₁).flatten = stream →
        (StopResponder.pieces ops₂).flatten = stream →
        StopResponder.seen host ops₁ = StopResponder.seen host ops₂) ↔
      stream.length ≤ maxMessageSize ∨ ¬ ConnectFront (stream.take maxMessageSize)) := by
  simp only [← Chunking.flatten_pieces]
  refine ⟨?_, ?_, ?_⟩
  · rw [← settled_hop_iff HopReservation.isSome_accept]
    exact Wire.seen_independent_iff receiveHop_bounded exists_pieces HopReservation.seen_eq stream
  · rw [← settled_hop_iff HopConnect.isSome_accept]
    exact Wire.seen_independent_iff receiveHop_bounded exists_pieces
      (HopConnect.seen_eq targetPeerId) stream
  · rw [← settled_stop_iff]
    exact Wire.seen_independent_iff receiveStop_bounded StopResponder.exists_pieces
      (StopResponder.seen_eq host) stream

/-- STATUS with the code OK. -/
def statusOk : Bytes := encodeFrame (HopMessage.encode ⟨.status, none, none, none, some .ok⟩)

/-- A STATUS that says yes is an answer. -/
theorem read_statusOk : Front.read receiveHop HopConnect.accept ([] ++ statusOk) =
    .accepted (.bridged none) [] := by
  have hreceive : receiveHop ([] ++ statusOk) =
      .ok (.message ⟨.status, none, none, none, some .ok⟩ []) := by
    rfl
  rw [Front.read, hreceive]
  rfl

/-- A circuit that is bridged when the bytes behind its STATUS arrive later, and lost when they
arrive with it. -/
theorem HopConnect.seen_pipelined (targetPeerId : Bytes) {pipelined : Bytes}
    (hlong : maxMessageSize < (statusOk ++ pipelined).length) :
    seen targetPeerId [.feed (statusOk ++ pipelined)] = ⟨[], [], true, false⟩ ∧
      seen targetPeerId [.feed statusOk, .feed pipelined] =
        ⟨[.bridged none], pipelined, false, false⟩ := by
  have hwhole : Front.run receiveHop accept (.waiting []) [statusOk ++ pipelined] = .failed :=
    Front.read_tooLarge receiveHop_bounded hlong
  have hcut : Front.run receiveHop accept (.waiting []) [statusOk, pipelined] =
      .accepted (.bridged none) pipelined := by
    show Front.feed receiveHop accept (Front.read receiveHop accept ([] ++ statusOk)) pipelined = _
    rw [read_statusOk]
    rfl
  constructor
  · rw [seen_eq, Chunking.pieces, Chunking.pieces, hwhole]
    rfl
  · rw [seen_eq, Chunking.pieces, Chunking.pieces, Chunking.pieces, hcut]
    rfl

/-- A bridge that starts with more bytes than fit the buffer depends on the pieces. -/
theorem connect_pipelined_too_large :
    ¬ ∀ ops₁ ops₂ : List Op, Chunking.fed ops₁ = statusOk ++ List.replicate 8192 0 →
      Chunking.fed ops₂ = statusOk ++ List.replicate 8192 0 →
        HopConnect.seen [] ops₁ = HopConnect.seen [] ops₂ := by
  intro hsame
  have hlong : maxMessageSize < (statusOk ++ List.replicate 8192 0).length := by
    rw [List.length_append, List.length_replicate, show statusOk.length = 5 by decide]
    decide
  have heq := hsame [.feed (statusOk ++ List.replicate 8192 0)]
    [.feed statusOk, .feed (List.replicate 8192 0)] (List.append_nil _)
    (by rw [Chunking.fed, Chunking.fed, Chunking.fed, List.append_nil])
  obtain ⟨hwhole, hcut⟩ := HopConnect.seen_pipelined [] hlong
  rw [hwhole, hcut] at heq
  cases congrArg Seen.failed heq

end Minip2p.Relay
