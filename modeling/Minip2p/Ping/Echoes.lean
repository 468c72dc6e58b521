import Minip2p.Ping.WellFormed

/-!
# Packetisation of the echoes

A whole payload is recognised only when a piece ends with it. `EchoStream` is what the machine holds
of one inbound stream, and answers a piece as the machine does; whether the pieces matter is a
question about it.
-/

namespace Minip2p.Ping

open SansIoProtocol (Call)

/-- One inbound stream: what was received of the payload, whether the stream is the outbound one as
well, and the payload that is awaited there. -/
structure EchoStream where
  buf : Bytes
  own : Bool
  awaited : Option Bytes

namespace EchoStream

/-- The stream with these bytes of a ping. -/
def hold (stream : EchoStream) (buf : Bytes) : EchoStream := { stream with buf }

/-- Nothing is awaited any more. -/
def settle (stream : EchoStream) : EchoStream := { stream with buf := [], awaited := none }

/-- What the stream is after a piece, what is echoed, and whether the piece is a violation. -/
def feed (stream : EchoStream) (piece : Bytes) : EchoStream × Bytes × Bool :=
  let buf := stream.buf ++ piece
  if buf.length < pingPayloadLen then (stream.hold buf, [], false)
  else if buf.length > pingPayloadLen then (stream.hold [], [], true)
  else if stream.own then (stream.settle, [], stream.awaited ≠ some buf)
  else (stream.hold [], buf, false)

/-- What is echoed of some pieces. -/
def echoed (stream : EchoStream) : List Bytes → Bytes
  | [] => []
  | piece :: pieces => (stream.feed piece).2.1 ++ (stream.feed piece).1.echoed pieces

/-- Some piece is a violation. -/
def violated (stream : EchoStream) : List Bytes → Bool
  | [] => false
  | piece :: pieces => (stream.feed piece).2.2 || (stream.feed piece).1.violated pieces

/-- The bytes do not go past the end of a payload, or the stream is the outbound one and they are
not the payload that is awaited there with less than a payload behind it. -/
def Independent (stream : EchoStream) (b : Bytes) : Prop :=
  (stream.buf ++ b).length ≤ pingPayloadLen ∨
    stream.own = true ∧ ¬ ((stream.buf ++ b).length < 2 * pingPayloadLen ∧
      stream.awaited = some ((stream.buf ++ b).take pingPayloadLen))

variable {stream : EchoStream} {piece : Bytes} {pieces : List Bytes}

section Feed

/-- Bytes that were held come first. -/
theorem feed_hold (rest : Bytes) :
    (stream.hold (stream.buf ++ piece)).feed rest = stream.feed (piece ++ rest) := by
  simp only [feed, hold, settle, List.append_assoc]

/-- A piece that leaves the ping incomplete is held. -/
theorem feed_short (h : (stream.buf ++ piece).length < pingPayloadLen) :
    stream.feed piece = (stream.hold (stream.buf ++ piece), [], false) := if_pos h

/-- A piece beyond the end of the ping is a violation. -/
theorem feed_long (h : pingPayloadLen < (stream.buf ++ piece).length) :
    stream.feed piece = (stream.hold [], [], true) := by
  rw [feed, if_neg (Nat.not_lt.mpr (Nat.le_of_lt h)), if_pos h]

/-- An echo on our own stream is compared with what was sent. -/
theorem feed_own (h : (stream.buf ++ piece).length = pingPayloadLen) (hown : stream.own = true) :
    stream.feed piece =
      (stream.settle, [], decide (stream.awaited ≠ some (stream.buf ++ piece))) := by
  rw [feed, if_neg (Nat.not_lt.mpr (Nat.le_of_eq h.symm)),
    if_neg (Nat.not_lt.mpr (Nat.le_of_eq h)), if_pos hown]

/-- A ping of the remote is echoed. -/
theorem feed_other (h : (stream.buf ++ piece).length = pingPayloadLen)
    (hown : stream.own = false) :
    stream.feed piece = (stream.hold [], stream.buf ++ piece, false) := by
  rw [feed, if_neg (Nat.not_lt.mpr (Nat.le_of_eq h.symm)),
    if_neg (Nat.not_lt.mpr (Nat.le_of_eq h)), if_neg (by rw [hown]; exact Bool.false_ne_true)]

/-- After a short piece the others decide. -/
theorem violated_short (h : (stream.buf ++ piece).length < pingPayloadLen) :
    stream.violated (piece :: pieces) = (stream.hold (stream.buf ++ piece)).violated pieces := by
  rw [violated, feed_short h, Bool.false_or]

/-- A long piece decides. -/
theorem violated_long (h : pingPayloadLen < (stream.buf ++ piece).length) :
    stream.violated (piece :: pieces) = true := by
  rw [violated, feed_long h, Bool.true_or]

/-- An echo that is not what was sent decides. -/
theorem violated_own (h : (stream.buf ++ piece).length = pingPayloadLen)
    (hown : stream.own = true) : stream.violated (piece :: pieces) =
      (decide (stream.awaited ≠ some (stream.buf ++ piece)) || stream.settle.violated pieces) := by
  rw [violated, feed_own h hown]

/-- After a ping of the remote the others decide. -/
theorem violated_other (h : (stream.buf ++ piece).length = pingPayloadLen)
    (hown : stream.own = false) :
    stream.violated (piece :: pieces) = (stream.hold []).violated pieces := by
  rw [violated, feed_other h hown, Bool.false_or]

end Feed

/-- Pieces without a byte do nothing. -/
theorem of_flatten_nil (hbuf : stream.buf.length < pingPayloadLen) (h : pieces.flatten = []) :
    stream.echoed pieces = [] ∧ stream.violated pieces = false := by
  induction pieces with
  | nil => exact ⟨rfl, rfl⟩
  | cons piece pieces ih =>
    rw [List.flatten_cons, List.append_eq_nil_iff] at h
    have hlen : (stream.buf ++ piece).length < pingPayloadLen := by
      rwa [h.1, List.append_nil]
    rw [echoed, violated_short hlen, feed_short hlen, h.1, List.append_nil]
    exact ih h.2

/-- What is echoed of bytes that do not go past the end of a payload, and whether they are a
violation. -/
theorem of_length_le (h : (stream.buf ++ pieces.flatten).length ≤ pingPayloadLen)
    (hbuf : stream.buf.length < pingPayloadLen) :
    stream.echoed pieces = (stream.feed pieces.flatten).2.1 ∧
      stream.violated pieces = (stream.feed pieces.flatten).2.2 := by
  induction pieces generalizing stream with
  | nil =>
    have hlen : (stream.buf ++ ([] : List Bytes).flatten).length < pingPayloadLen := by
      rwa [List.flatten_nil, List.append_nil]
    rw [feed_short hlen]
    exact ⟨rfl, rfl⟩
  | cons piece pieces ih =>
    rw [List.flatten_cons, ← List.append_assoc] at h
    rcases Nat.lt_or_ge (stream.buf ++ piece).length pingPayloadLen with hlen | hlen
    · have hrest : (stream.hold (stream.buf ++ piece)).echoed pieces = _ ∧
          (stream.hold (stream.buf ++ piece)).violated pieces = _ := ih h hlen
      rw [feed_hold] at hrest
      rw [echoed, violated_short hlen, feed_short hlen]
      exact hrest
    · -- the payload is complete, and nothing comes behind it
      have hrest : pieces.flatten = [] := by
        rw [List.length_append] at h
        exact List.length_eq_zero_iff.mp (by omega)
      have hfull : (stream.buf ++ piece).length = pingPayloadLen := by
        rw [hrest, List.append_nil] at h
        omega
      rw [List.flatten_cons, hrest, List.append_nil]
      cases hown : stream.own with
      | true =>
        have hnil : stream.settle.echoed pieces = [] ∧ stream.settle.violated pieces = false :=
          of_flatten_nil (Nat.zero_lt_succ 31) hrest
        rw [echoed, violated, feed_own hfull hown]
        simp [hnil.1, hnil.2]
      | false =>
        have hnil : (stream.hold []).echoed pieces = [] ∧
            (stream.hold []).violated pieces = false :=
          of_flatten_nil (Nat.zero_lt_succ 31) hrest
        rw [echoed, violated, feed_other hfull hown]
        simp [hnil.1, hnil.2]

/-- Nothing is echoed on the outbound stream. -/
theorem echoed_of_own (hown : stream.own = true) : stream.echoed pieces = [] := by
  induction pieces generalizing stream with
  | nil => rfl
  | cons piece pieces ih =>
    rw [echoed]
    rcases Nat.lt_trichotomy (stream.buf ++ piece).length pingPayloadLen with hlen | hlen | hlen
    · rw [feed_short hlen]
      exact ih hown
    · rw [feed_own hlen hown]
      exact ih hown
    · rw [feed_long hlen]
      exact ih hown

/-- A whole payload on the outbound stream while none is awaited. -/
theorem violated_of_none (hown : stream.own = true) (hnone : stream.awaited = none)
    (h : pingPayloadLen ≤ (stream.buf ++ pieces.flatten).length)
    (hbuf : stream.buf.length < pingPayloadLen) : stream.violated pieces = true := by
  induction pieces generalizing stream with
  | nil =>
    rw [List.flatten_nil, List.append_nil] at h
    exact absurd h (Nat.not_le.mpr hbuf)
  | cons piece pieces ih =>
    rw [List.flatten_cons, ← List.append_assoc] at h
    rcases Nat.lt_trichotomy (stream.buf ++ piece).length pingPayloadLen with hlen | hlen | hlen
    · rw [violated_short hlen]
      exact ih hown hnone h hlen
    · rw [violated_own hlen hown, hnone]
      rfl
    · exact violated_long hlen

/-- More than a payload on the outbound stream, other than the one awaited and a part of one. -/
theorem violated_of_own (hown : stream.own = true)
    (h : pingPayloadLen < (stream.buf ++ pieces.flatten).length)
    (hother : ¬ ((stream.buf ++ pieces.flatten).length < 2 * pingPayloadLen ∧
      stream.awaited = some ((stream.buf ++ pieces.flatten).take pingPayloadLen)))
    (hbuf : stream.buf.length < pingPayloadLen) : stream.violated pieces = true := by
  induction pieces generalizing stream with
  | nil =>
    rw [List.flatten_nil, List.append_nil] at h
    exact absurd hbuf (Nat.not_lt.mpr (Nat.le_of_lt h))
  | cons piece pieces ih =>
    rw [List.flatten_cons, ← List.append_assoc] at h hother
    rcases Nat.lt_trichotomy (stream.buf ++ piece).length pingPayloadLen with hlen | hlen | hlen
    · rw [violated_short hlen]
      exact ih hown h hother hlen
    · rw [violated_own hlen hown]
      by_cases hmatch : stream.awaited = some (stream.buf ++ piece)
      · -- it is the payload awaited, so a whole one comes behind it
        have hlong : pingPayloadLen ≤ pieces.flatten.length := by
          rw [List.length_append, hlen, List.take_left' hlen] at hother
          by_contra hshort
          exact hother ⟨by omega, hmatch⟩
        have hbehind : stream.settle.violated pieces = true :=
          violated_of_none hown rfl hlong (Nat.zero_lt_succ 31)
        rw [hbehind, Bool.or_true]
      · rw [decide_eq_true hmatch, Bool.true_or]
    · exact violated_long hlen

/-- Byte by byte every payload is echoed. -/
theorem violated_bytewise (hown : stream.own = false) (hbuf : stream.buf.length < pingPayloadLen)
    (b : Bytes) : stream.violated (b.map fun byte => [byte]) = false := by
  induction b generalizing stream with
  | nil => rfl
  | cons byte b ih =>
    rw [List.map_cons]
    have hle : (stream.buf ++ [byte]).length ≤ pingPayloadLen := by
      rw [List.length_append]
      exact hbuf
    rcases Nat.lt_or_eq_of_le hle with hlen | hlen
    · rw [violated_short hlen]
      exact ih hown hlen
    · rw [violated_other hlen hown]
      exact ih hown (Nat.zero_lt_succ 31)

/-- The payload awaited, and less than a payload behind it. -/
theorem violated_two {rest : Bytes} (hown : stream.own = true)
    (h : (stream.buf ++ piece).length = pingPayloadLen)
    (hmatch : stream.awaited = some (stream.buf ++ piece))
    (hrest : rest.length < pingPayloadLen) : stream.violated [piece, rest] = false := by
  have hbehind : stream.settle.violated [rest] = false := violated_short hrest
  rw [violated_own h hown, hbehind, hmatch, Bool.or_false]
  exact decide_eq_false (not_not.mpr rfl)

/-- The pieces make no difference exactly when none of them can cross the end of a ping. -/
theorem independent_iff (hbuf : stream.buf.length < pingPayloadLen) (b : Bytes) :
    (∀ pieces pieces' : List Bytes, pieces.flatten = b → pieces'.flatten = b →
      stream.echoed pieces = stream.echoed pieces' ∧
        stream.violated pieces = stream.violated pieces') ↔ stream.Independent b := by
  constructor
  · intro h
    by_contra hdep
    obtain ⟨hlong, hother⟩ := not_or.mp hdep
    have hsingle : stream.violated [b] = true := violated_long (Nat.not_le.mp hlong)
    -- a way to cut the bytes that is no violation
    suffices hcut : ∃ pieces, pieces.flatten = b ∧ stream.violated pieces = false by
      obtain ⟨pieces, hpieces, hfalse⟩ := hcut
      have hsame := (h [b] pieces (List.append_nil b) hpieces).2
      rw [hsingle, hfalse] at hsame
      cases hsame
    cases hown : stream.own with
    | false => exact ⟨b.map fun byte => [byte], by simp [← List.flatMap_def],
        violated_bytewise hown hbuf b⟩
    | true =>
      obtain ⟨hlen, hmatch⟩ := not_not.mp fun hnot => hother ⟨hown, hnot⟩
      have hneed : (stream.buf ++ b).take pingPayloadLen =
          stream.buf ++ b.take (pingPayloadLen - stream.buf.length) := by
        rw [List.take_append, List.take_of_length_le (Nat.le_of_lt hbuf)]
      rw [List.length_append] at hlong hlen
      refine ⟨[b.take (pingPayloadLen - stream.buf.length),
        b.drop (pingPayloadLen - stream.buf.length)], by simp, ?_⟩
      refine violated_two hown ?_ (hneed ▸ hmatch) ?_
      · rw [List.length_append, List.length_take]
        omega
      · rw [List.length_drop]
        omega
  · rintro h pieces pieces' rfl hpieces'
    rcases h with hshort | ⟨hown, hother⟩
    · obtain ⟨hechoed, hviolated⟩ := of_length_le hshort hbuf
      obtain ⟨hechoed', hviolated'⟩ := of_length_le (hpieces' ▸ hshort) hbuf
      rw [hechoed, hviolated, hechoed', hviolated', hpieces']
      exact ⟨rfl, rfl⟩
    · refine ⟨by rw [echoed_of_own hown, echoed_of_own hown], ?_⟩
      rcases Nat.lt_or_ge pingPayloadLen (stream.buf ++ pieces.flatten).length with hlong | hshort
      · rw [violated_of_own hown hlong hother hbuf,
          violated_of_own hown (hpieces' ▸ hlong) (hpieces' ▸ hother) hbuf]
      · rw [(of_length_le hshort hbuf).2, (of_length_le (hpieces' ▸ hshort) hbuf).2, hpieces']

end EchoStream

/-! ## Pieces given to the machine -/

/-- The bytes an action sends on a stream. -/
def PingAction.echoOn (p : PeerId) (s : StreamId) : PingAction → Bytes
  | send peerId streamId data => if peerId = p ∧ streamId = s then data.toList else []
  | closeStreamWrite _ _ | resetStream _ _ => []

/-- The event accuses the peer. -/
def PingEvent.isViolation : PingEvent → Bool
  | protocolViolation _ _ _ => true
  | _ => false

/-- What the machine holds of an inbound stream. -/
def PeerPingState.echoStream (state : PeerPingState) (s : StreamId) : EchoStream where
  buf := state.received s
  own := decide (state.outboundStream = some s)
  awaited := state.pendingPing.map (·.payload.toList)

/-- The machine answers a piece of a registered stream as the stream does. -/
theorem Move.feed {timeoutMs : UInt64} {p : PeerId} {state state' : PeerPingState} {s : StreamId}
    {data : Bytes} {nowMs : UInt64} {events : List PingEvent} {actions : List PingAction}
    (hmove : Move timeoutMs p state (.streamData p s data nowMs) state' events actions)
    (hknown : state.Knows s) : state'.Knows s ∧
      (state.echoStream s).feed data =
        (state'.echoStream s, actions.flatMap (PingAction.echoOn p s),
          events.any PingEvent.isViolation) := by
  have hlen : ∀ {payload : Payload}, state.received s ++ data = payload.toList →
      (state.received s ++ data).length = pingPayloadLen := by
    intro payload hbuf
    rw [hbuf, Vector.length_toList]
  cases hmove with
  | other hpeer hne => exact absurd (Option.some.inj hpeer).symm hne
  | unknownStream _ hunknown => exact absurd hknown hunknown
  | oversize _ _ hlen =>
    refine ⟨hknown, (EchoStream.feed_long hlen).trans ?_⟩
    rw [PeerPingState.echoStream, PeerPingState.echoStream, PeerPingState.received_drop]
    rfl
  | keep _ hlen =>
    refine ⟨hknown, (EchoStream.feed_short hlen).trans ?_⟩
    rw [PeerPingState.echoStream, PeerPingState.echoStream, PeerPingState.received_keep]
    rfl
  | mismatch _ hout hbuf hpending =>
    have hne : (state.echoStream s).awaited ≠ some ((state.echoStream s).buf ++ data) := by
      intro heq
      obtain ⟨pending, hsome, hpayload⟩ := Option.map_eq_some_iff.mp heq
      exact hpending pending hsome (Vector.toList_inj.mp (hpayload.trans hbuf))
    refine ⟨hknown, (EchoStream.feed_own (hlen hbuf) (decide_eq_true hout)).trans ?_⟩
    rw [decide_eq_true hne, PeerPingState.echoStream, PeerPingState.echoStream,
      PeerPingState.received_await, PeerPingState.received_drop]
    rfl
  | rtt hout hbuf hpending =>
    have heq : (state.echoStream s).awaited = some ((state.echoStream s).buf ++ data) := by
      rw [PeerPingState.echoStream, hpending, hbuf]
      rfl
    refine ⟨hknown, (EchoStream.feed_own (hlen hbuf) (decide_eq_true hout)).trans ?_⟩
    rw [decide_eq_false (not_not.mpr heq), PeerPingState.echoStream, PeerPingState.echoStream,
      PeerPingState.received_await, PeerPingState.received_drop]
    rfl
  | echo hne hin hbuf =>
    refine ⟨hknown, (EchoStream.feed_other (hlen hbuf) (decide_eq_false hne)).trans ?_⟩
    rw [PeerPingState.echoStream, PeerPingState.echoStream, PeerPingState.received_drop]
    simp [PingAction.echoOn, EchoStream.hold, PeerPingState.drop, hbuf]
    rfl

namespace PingProtocol

/-- A piece of a stream and the time at which it comes, as an input. -/
def pieceInput (p : PeerId) (s : StreamId) (piece : Bytes × UInt64) : PingInput :=
  .streamData p s piece.1 piece.2

/-- The bytes that are sent on a stream of `p` while it is read in pieces. -/
def echoed (ping : PingProtocol) (p : PeerId) (s : StreamId) : List (Bytes × UInt64) → Bytes
  | [] => []
  | piece :: split =>
    (ping.newActions (.handleInput (pieceInput p s piece))).flatMap (PingAction.echoOn p s) ++
      (ping.after (.handleInput (pieceInput p s piece))).echoed p s split

/-- Whether a `ProtocolViolation` is emitted while a stream of `p` is read in pieces. -/
def violated (ping : PingProtocol) (p : PeerId) (s : StreamId) : List (Bytes × UInt64) → Bool
  | [] => false
  | piece :: split =>
    (ping.newEvents (.handleInput (pieceInput p s piece))).any PingEvent.isViolation ||
      (ping.after (.handleInput (pieceInput p s piece))).violated p s split

/-- The machine answers the pieces of a registered stream as the stream does. -/
theorem echoed_eq {ping : PingProtocol} {p : PeerId} {s : StreamId}
    (hknown : (ping.peerState p).Knows s) (split : List (Bytes × UInt64)) :
    ping.echoed p s split = ((ping.peerState p).echoStream s).echoed (split.map Prod.fst) ∧
      ping.violated p s split =
        ((ping.peerState p).echoStream s).violated (split.map Prod.fst) := by
  induction split generalizing ping with
  | nil => exact ⟨rfl, rfl⟩
  | cons piece split ih =>
    have hmove : Move _ p _ (pieceInput p s piece) _ _ _ := ping.move id p
    obtain ⟨hknown', hfeed⟩ := hmove.feed hknown
    obtain ⟨hevents, hactions⟩ :=
      newFor_of_peer ping (rfl : (pieceInput p s piece).peer? = some p)
    rw [hevents, hactions] at hfeed
    rw [List.map_cons, EchoStream.echoed, EchoStream.violated, hfeed, echoed, violated,
      (ih hknown').1, (ih hknown').2]
    exact ⟨rfl, rfl⟩

/-- Whether the pieces matter that bring `b` on an inbound stream: however `b` is cut, the same is
echoed and a violation is emitted or not, if and only if `b` does not go past the end of a payload,
or the stream is the outbound one as well and `b` is not the rest of the payload that is awaited
there with less than a payload behind it. -/
theorem echo_packetisation_iff (config : PingConfig) (calls : List (Call PingInput)) (p : PeerId)
    (s : StreamId) (b : Bytes)
    (hin : ((run config calls).peerState p).inboundStreams.contains s) :
    (∀ split split' : List (Bytes × UInt64),
      (split.map Prod.fst).flatten = b → (split'.map Prod.fst).flatten = b →
        (run config calls).echoed p s split = (run config calls).echoed p s split' ∧
        (run config calls).violated p s split = (run config calls).violated p s split') ↔
      (((run config calls).peerState p).echoStream s).Independent b := by
  have hshort := (wellFormed_iff.mp (wellFormed_run config calls) p).received_lt s
  rw [← EchoStream.independent_iff hshort]
  constructor
  · intro h pieces pieces' hpieces hpieces'
    have hmap : ∀ pieces : List Bytes,
        (pieces.map fun piece => (piece, (0 : UInt64))).map Prod.fst = pieces := by
      intro pieces
      rw [List.map_map]
      exact List.map_id pieces
    have hboth := h (pieces.map (·, 0)) (pieces'.map (·, 0)) (by rw [hmap, hpieces])
      (by rw [hmap, hpieces'])
    rwa [(echoed_eq (.inr hin) _).1, (echoed_eq (.inr hin) _).1, (echoed_eq (.inr hin) _).2,
      (echoed_eq (.inr hin) _).2, hmap, hmap] at hboth
  · intro h split split' hsplit hsplit'
    rw [(echoed_eq (.inr hin) _).1, (echoed_eq (.inr hin) _).1, (echoed_eq (.inr hin) _).2,
      (echoed_eq (.inr hin) _).2]
    exact h _ _ hsplit hsplit'

/-- A peer opens a stream. -/
def oneInbound : List (Call PingInput) := [.handleInput (.registerInboundStream onePeer ⟨1⟩)]

theorem echo_packetisation_one :
    ((∀ split split' : List (Bytes × UInt64),
      (split.map Prod.fst).flatten = List.replicate 32 7 →
      (split'.map Prod.fst).flatten = List.replicate 32 7 →
        (run default oneInbound).echoed onePeer ⟨1⟩ split =
          (run default oneInbound).echoed onePeer ⟨1⟩ split' ∧
        (run default oneInbound).violated onePeer ⟨1⟩ split =
          (run default oneInbound).violated onePeer ⟨1⟩ split') ↔
      (((run default oneInbound).peerState onePeer).echoStream ⟨1⟩).Independent
        (List.replicate 32 7)) ∧
    (((run default oneInbound).peerState onePeer).echoStream ⟨1⟩).Independent
      (List.replicate 32 7) :=
  ⟨echo_packetisation_iff default oneInbound onePeer ⟨1⟩ (List.replicate 32 7)
    (by decide), .inl (by decide)⟩

/-- Two payloads in one piece are a violation, and each by itself is echoed. -/
theorem echo_coalesced :
    ((run default oneInbound).peerState onePeer).inboundStreams.contains ⟨1⟩ = true ∧
    ¬ ∀ split split' : List (Bytes × UInt64),
      (split.map Prod.fst).flatten = List.replicate 64 7 →
      (split'.map Prod.fst).flatten = List.replicate 64 7 →
        (run default oneInbound).echoed onePeer ⟨1⟩ split =
          (run default oneInbound).echoed onePeer ⟨1⟩ split' ∧
        (run default oneInbound).violated onePeer ⟨1⟩ split =
          (run default oneInbound).violated onePeer ⟨1⟩ split' := by
  refine ⟨by decide, fun h => ?_⟩
  have hboth := h [(List.replicate 64 7, 0)] [(List.replicate 32 7, 0), (List.replicate 32 7, 0)]
    (by decide) (by decide)
  have hcoalesced : (run default oneInbound).violated onePeer ⟨1⟩ [(List.replicate 64 7, 0)] =
      true := by
    decide
  have happart : (run default oneInbound).violated onePeer ⟨1⟩
      [(List.replicate 32 7, 0), (List.replicate 32 7, 0)] = false := by
    decide
  rw [hcoalesced, happart] at hboth
  cases hboth.2

end PingProtocol

end Minip2p.Ping
