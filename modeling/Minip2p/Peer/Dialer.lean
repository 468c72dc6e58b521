import Minip2p.Core.WireRoundTrip
import Minip2p.Dcutr.Session
import Minip2p.Lib.Chunking
import Minip2p.Peer.Circuit
import Minip2p.Relay.Records

/-!
# What the dialer's script does

`ends_runDial`: given any part of the stream that an honest listener and its relay make, cut into
any pieces, the script ends, and what it has sent by then and what it returns depend only on how
much of the stream has come and on which sends were refused (`Dialed`).
-/

namespace Minip2p

namespace Peer

open Chunking (prefix_cases not_prefix_of_part)
open Prog
open Relay (HopConnect HopMessage StopMessage StopResponder StopConnectRequest ConnectOutcome Limit)
open Dcutr (DcutrInitiator DcutrResponder InitiatorOutcome Offerable connectFrame syncFrame
  dialOutcome connectEvent)
open SansIoProtocol (handleInput pollOutput)

/-! ## A rendezvous -/

/-- Who meets whom, what the relay says to them, and which sends are refused. -/
structure Setup where
  target : PeerId
  dialerId : PeerId
  dialerAddrs : List Multiaddr
  listenerAddrs : List Multiaddr
  dialerStream : StreamId
  listenerStream : StreamId
  /-- What the relay answers the dialer. -/
  answer : HopMessage
  /-- What the relay tells the listener. -/
  request : StopMessage
  dialerRefusal : ℕ → Option String
  listenerRefusal : ℕ → Option String

/-- The part of a relay's message that a frame may take, so that another CONNECT fits behind it. -/
def relayFrameLimit : ℕ := 4096

namespace Setup

variable [MultihashCodec] (setup : Setup)

/-- HOP CONNECT, from the dialer to the relay. -/
def hopRequest : Bytes := (HopConnect.new setup.target.toBytes).outbound

/-- HOP STATUS, from the relay to the dialer. -/
def hopAnswer : Bytes := Relay.encodeFrame setup.answer.encode

/-- STOP CONNECT, from the relay to the listener. -/
def stopRequest : Bytes := Relay.encodeFrame setup.request.encode

/-- STOP STATUS, from the listener to the relay. -/
def stopAnswer : Bytes := Relay.encodeFrame (StopMessage.encode ⟨.status, none, none, some .ok⟩)

/-- DCUtR CONNECT of the dialer. -/
def offer : Bytes := connectFrame setup.dialerAddrs

/-- DCUtR CONNECT of the listener. -/
def reply : Bytes := connectFrame setup.listenerAddrs

/-- The relay grants the circuit to the dialer and names it to the listener, in messages that leave
room for another one behind them, and both have addresses that fit into a CONNECT. -/
structure Sound : Prop where
  answer_kind : setup.answer.kind = .status
  answer_status : setup.answer.status = some .ok
  answer_fits : setup.hopAnswer.length ≤ relayFrameLimit
  request_kind : setup.request.kind = .connect
  request_peer : ∃ addrs, setup.request.peer = some ⟨setup.dialerId.toBytes, addrs⟩
  request_fits : setup.stopRequest.length ≤ relayFrameLimit
  dialer_valid : setup.dialerId.Valid
  offerable : Offerable setup.dialerAddrs
  replies : Offerable setup.listenerAddrs

end Setup

variable {setup : Setup} {stream front behind : Bytes}

/-- What has come of a stream, and what is to come of it. -/
def Comes (stream got : Bytes) (arrivals : List Arrival) : Prop := got ++ received arrivals = stream

/-- Arrivals come in order, and the rest of the stream stays to come. -/
theorem streams_comes (stream : Bytes) : Streams (Comes stream) := by
  intro got data atMs arrivals h
  exact (List.append_assoc got data (received arrivals)).trans h

/-- What has come is a beginning of the stream. -/
theorem Comes.taken {got data : Bytes} {atMs : ℕ} {arrivals : List Arrival}
    (h : Comes stream got (.data data atMs :: arrivals)) : got ++ data <+: stream :=
  ⟨received arrivals, streams_comes stream got data atMs arrivals h⟩

/-- When nothing is left to come, all of the stream has come. -/
theorem Comes.all {got : Bytes} {arrivals : List Arrival} (h : Comes stream got arrivals)
    (hnone : received arrivals = []) : got = stream := by
  unfold Comes at h
  rwa [hnone, List.append_nil] at h

/-- A flush that is answered with `Ok`. -/
theorem exec_flushWith {F ι ο ε : Type} [SansIoProtocol F ι ο ε] {flow flow' : F} {flush : ι}
    {output : Option ο} (pick : ο → Option Bytes)
    (h : handleInput flow flush = .ok (flow, .ok ())) (hpoll : pollOutput flow = (flow', output))
    (circuit : Circuit) : exec (flushWith flush pick flow) circuit =
      some (.ok (flow', (output.bind pick).getD []), circuit) := by
  unfold flushWith pollFor
  rw [h]
  dsimp only
  rw [hpoll]
  rfl

/-! ## HOP CONNECT -/

/-- HOP CONNECT is sent, and a part of the answer was read. -/
def hopWaiting (got : Bytes) : HopConnect := ⟨[], got, .awaitingResponse, none, false, []⟩

/-- The answer was read. -/
def hopBridged (limit : Option Limit) (emitted : Bool) (bridge : Bytes) : HopConnect :=
  ⟨[], [], .done, some (.bridged limit), emitted, bridge⟩

variable [MultihashCodec]

theorem hopRequest_ne_nil (setup : Setup) : setup.hopRequest ≠ [] := Wire.encodeFrame_ne_nil _

/-- The dialer sends the request for the circuit first. -/
theorem exec_hopConnectFlush (setup : Setup) (circuit : Circuit) :
    exec (hopConnectFlush (.new setup.target.toBytes)) circuit =
      some (.ok (hopWaiting [], setup.hopRequest), circuit) := by
  have hne : setup.hopRequest.isEmpty = false :=
    List.isEmpty_eq_false_iff.mpr (hopRequest_ne_nil setup)
  have hpoll : pollOutput (HopConnect.new setup.target.toBytes) =
      (hopWaiting [], some (.outbound setup.hopRequest)) := by
    show (if !setup.hopRequest.isEmpty then _ else _) = _
    rw [hne]
    rfl
  exact exec_flushWith _ rfl hpoll circuit

omit [MultihashCodec] in
/-- What is kept for the bridge is what came behind the answer. -/
theorem hopConnectBridgeBytes_eq (limit : Option Limit) (bridge : Bytes) :
    hopConnectBridgeBytes (hopBridged limit true bridge) = bridge := by
  cases bridge with
  | nil => rfl
  | cons byte bridge => rfl

/-- The answer of the relay is read whatever the pieces. -/
theorem Setup.Sound.hop_reads (h : setup.Sound) (hstream : stream <+: setup.hopAnswer ++ behind)
    (hbehind : behind.length ≤ Dcutr.maxMessageSize) :
    Reads (Comes stream) (fun flow got => flow = hopWaiting got ∧ ¬ setup.hopAnswer <+: got)
      (fun flow outcome got => ∃ bridge, got = setup.hopAnswer ++ bridge ∧
        flow = hopBridged setup.answer.limit true bridge ∧
        outcome = .bridged setup.answer.limit)
      hopConnectFeed := by
  rintro flow got data atMs arrivals ⟨rfl, -⟩ hcomes circuit
  have hfits := h.answer_fits
  unfold relayFrameLimit at hfits
  unfold Dcutr.maxMessageSize at hbehind
  rcases prefix_cases (hcomes.taken.trans hstream) with ⟨rest, hrest, hframe⟩ | ⟨more, hmore, hle⟩
  · have hreceive : Relay.receiveHop (got ++ data) = .ok .incomplete :=
      Wire.receive_part_encodeFrame Relay.maxMessageSize_lt hframe hrest
        (by unfold Relay.maxMessageSize; exact Nat.le_trans hfits (by decide))
    have hinput : HopConnect.handleInput (hopWaiting got) (.data data) =
        .ok (hopWaiting (got ++ data), .ok ()) := by
      show (Relay.receiveHop (got ++ data) >>= _) = _
      rw [hreceive]
      rfl
    refine ⟨_, _, exec_feed _ _ hinput circuit, fun _ => ⟨rfl, not_prefix_of_part hrest hframe⟩, ?_⟩
    rintro _ ⟨⟩
  · have hreceive : Relay.receiveHop (got ++ data) = .ok (.message setup.answer more) := by
      rw [hmore]
      refine Wire.receive_encodeFrame Relay.maxMessageSize_lt
        (fun hlen => HopMessage.decode_encode hlen) ?_
      have hlen := hle.length_le
      have hboth : (setup.hopAnswer ++ more).length ≤ 8192 := by
        rw [List.length_append]
        omega
      exact hboth
    have hinput : HopConnect.handleInput (hopWaiting got) (.data data) =
        .ok (hopBridged setup.answer.limit false more, .ok ()) := by
      show (Relay.receiveHop (got ++ data) >>= _) = _
      rw [hreceive]
      show (if setup.answer.kind ≠ .status then _ else _) = _
      rw [if_neg (not_not.mpr h.answer_kind)]
      show (if setup.answer.status.getD .unused = .ok then _ else _) = _
      rw [h.answer_status]
      rfl
    refine ⟨_, _, exec_feed _ _ hinput circuit, by rintro ⟨⟩, ?_⟩
    rintro _ ⟨⟩
    exact ⟨more, hmore, rfl, rfl⟩

/-- Step 2 ends with the bytes behind the relay's answer, or before the answer has come. -/
theorem Setup.Sound.ends_connectThroughRelay (h : setup.Sound)
    (hstream : stream <+: setup.hopAnswer ++ behind)
    (hbehind : behind.length ≤ Dcutr.maxMessageSize) :
    Ends (fun c => received c.arrivals = stream ∧ c.outgoing = ⟨setup.dialerRefusal, 0, []⟩)
      (connectThroughRelay setup.target setup.dialerStream)
      (fun bridge c => setup.dialerRefusal 0 = none ∧
        setup.hopAnswer ++ (bridge ++ received c.arrivals) = stream ∧
          c.outgoing = ⟨setup.dialerRefusal, 1, setup.hopRequest⟩)
      (fun e c => Hindered setup.dialerStream setup.dialerRefusal e ∧
        ((setup.dialerRefusal 0).isSome ∧ c.outgoing.sent = [] ∨
          setup.dialerRefusal 0 = none ∧ ¬ setup.hopAnswer <+: stream ∧
            c.outgoing.sent = setup.hopRequest)) := by
  unfold connectThroughRelay
  apply Ends.bind_of_exec fun c _ => exec_hopConnectFlush setup c
  apply Ends.bind (Q := fun _ c => setup.dialerRefusal 0 = none ∧
    (received c.arrivals = stream ∧ c.outgoing = ⟨setup.dialerRefusal, 1, setup.hopRequest⟩))
  · apply (ends_send setup.dialerStream (J := fun a => received a = stream)
      (hopRequest_ne_nil setup)).mono (fun _ hc => hc)
    · rintro _ c ⟨hcomes, hnone, houtgoing⟩
      exact ⟨hnone, hcomes, houtgoing⟩
    · rintro e c ⟨-, hsome, hhindered, houtgoing⟩
      exact ⟨hhindered, .inl ⟨hsome, by rw [houtgoing]⟩⟩
  intro _
  apply Ends.of_fact
  intro hnone
  apply Ends.bind
  · apply (ends_awaitOutcome (streams_comes stream) (h.hop_reads hstream hbehind)
      (hopWaiting [])).mono
    · rintro c ⟨hcomes, houtgoing⟩
      have hnil : ¬ setup.hopAnswer <+: [] := by
        rw [List.prefix_nil]
        exact Wire.encodeFrame_ne_nil _
      exact ⟨⟨[], ⟨rfl, hnil⟩, hcomes⟩, houtgoing⟩
    · exact fun _ _ hc => hc
    · rintro e c ⟨⟨flow, got, arrivals, ⟨-, hpart⟩, hcomes, hall⟩, hhindered, houtgoing⟩
      rw [hcomes.all hall] at hpart
      exact ⟨hhindered, .inr ⟨hnone, hpart, by rw [houtgoing]⟩⟩
  · rintro ⟨flow, outcome⟩ c ⟨⟨got, ⟨bridge, rfl, rfl, rfl⟩, hcomes⟩, houtgoing⟩
    refine .inl ⟨bridge, c, ?_, hnone, ?_, houtgoing⟩
    · show some (Except.ok (hopConnectBridgeBytes _), c) = _
      rw [hopConnectBridgeBytes_eq]
    · unfold Comes at hcomes
      rwa [List.append_assoc] at hcomes

/-! ## The DCUtR initiator -/

/-- What the initiator is after the reply was read. -/
def Answered (setup : Setup) (flow : DcutrInitiator) (outcome : InitiatorOutcome) (got : Bytes) :
    Prop :=
  got = setup.reply ∧ ∃ rttMs, outcome = dialOutcome setup.listenerAddrs rttMs ∧
    flow = .replied [] .readyToSync (dialOutcome setup.listenerAddrs rttMs) true

/-- The reply is all that comes to the initiator. -/
theorem Answered.all {flow : DcutrInitiator} {outcome : InitiatorOutcome} {got : Bytes}
    {arrivals : List Arrival} (h : Answered setup flow outcome got)
    (hcomes : Comes stream got arrivals) (hstream : stream <+: setup.reply) : got = stream := by
  apply List.IsPrefix.eq_of_length_le ⟨received arrivals, hcomes⟩
  rw [h.1]
  exact hstream.length_le

/-- The initiator was fed a part of the reply, or all of it. -/
def FedReply (setup : Setup) (flow : DcutrInitiator) (outcome : Option InitiatorOutcome)
    (got : Bytes) : Prop :=
  (outcome = none → flow = .awaiting got ∧ ¬ setup.reply <+: got) ∧
    ∀ a, outcome = some a → Answered setup flow a got

/-- The initiator reads the reply, in whatever pieces it comes. -/
theorem Setup.Sound.exec_dcutrInitiatorFeed (h : setup.Sound) (hcodec : MultihashCodec.Exact)
    {got data : Bytes} (hgot : got ++ data <+: setup.reply) (rttMs : UInt64) (circuit : Circuit) :
    ∃ flow outcome, exec (dcutrInitiatorFeed (.awaiting got) data rttMs) circuit =
        some (.ok (flow, outcome), circuit) ∧ FedReply setup flow outcome (got ++ data) := by
  rcases hgot with ⟨rest, hrest⟩
  cases rest with
  | nil =>
    rw [List.append_nil] at hrest
    have hinput := DcutrInitiator.handleInput_reply hcodec h.replies hrest rttMs
    refine ⟨_, _, exec_feed _ _ hinput circuit, by rintro ⟨⟩, ?_⟩
    rintro _ ⟨⟩
    exact ⟨hrest, rttMs, rfl, rfl⟩
  | cons byte rest =>
    have hinput :=
      DcutrInitiator.handleInput_part h.replies hrest (List.cons_ne_nil byte rest) rttMs
    refine ⟨_, _, exec_feed _ _ hinput circuit,
      fun _ => ⟨rfl, not_prefix_of_part (List.cons_ne_nil byte rest) hrest⟩, ?_⟩
    rintro _ ⟨⟩

/-- The reply of the listener is read whatever the pieces. -/
theorem Setup.Sound.initiator_reads (h : setup.Sound) (hcodec : MultihashCodec.Exact)
    (hstream : stream <+: setup.reply) (sentAt : ℕ) :
    Reads (Comes stream) (fun flow got => flow = .awaiting got ∧ ¬ setup.reply <+: got)
      (Answered setup)
      (fun dcutr data => do dcutrInitiatorFeed dcutr data (← elapsedMs sentAt)) := by
  rintro flow got data atMs arrivals ⟨rfl, -⟩ hcomes circuit
  exact h.exec_dcutrInitiatorFeed hcodec (hcomes.taken.trans hstream)
    (UInt64.ofNat (circuit.nowMs - sentAt)) circuit

/-- The initiator is fed what came behind the relay's answer, if anything did. -/
theorem Setup.Sound.ends_feedPipelined (h : setup.Sound) (hcodec : MultihashCodec.Exact)
    (hstream : stream <+: setup.reply) (bridge : Bytes) (outgoing : Outgoing)
    {E : String → Circuit → Prop} :
    Ends (fun c => Comes stream bridge c.arrivals ∧ c.outgoing = outgoing)
      (feedPipelined (.awaiting []) bridge)
      (fun p c => FedReply setup p.1 p.2 bridge ∧
        (Comes stream bridge c.arrivals ∧ c.outgoing = outgoing)) E := by
  rintro c ⟨hcomes, houtgoing⟩
  left
  unfold feedPipelined
  by_cases hbridge : bridge.isEmpty
  · rw [List.isEmpty_iff] at hbridge
    subst hbridge
    refine ⟨(.awaiting [], none), c, rfl, ⟨fun _ => ⟨rfl, ?_⟩, by rintro _ ⟨⟩⟩, hcomes, houtgoing⟩
    rw [List.prefix_nil]
    exact Dcutr.connectFrame_ne_nil setup.listenerAddrs
  · rw [if_neg hbridge]
    have hgot : [] ++ bridge <+: setup.reply :=
      List.IsPrefix.trans ⟨received c.arrivals, hcomes⟩ hstream
    obtain ⟨flow, outcome, hfeed, hfed⟩ := h.exec_dcutrInitiatorFeed hcodec hgot 0 c
    exact ⟨(flow, outcome), c, hfeed, hfed, hcomes, houtgoing⟩

/-- The dialer sends its offer. -/
theorem exec_dcutrInitiatorFlush (setup : Setup) (circuit : Circuit) :
    exec (dcutrInitiatorFlush (.new setup.dialerAddrs)) circuit =
      some (.ok (.awaiting [], setup.offer), circuit) := by
  have hpoll : pollOutput (DcutrInitiator.new setup.dialerAddrs) =
      (.awaiting [], some (.outbound setup.offer)) :=
    DcutrInitiator.pollOutput_new setup.dialerAddrs
  exact exec_flushWith _ rfl hpoll circuit

/-- Step 3 ends with the listener's addresses, or before all of its reply has come. -/
theorem Setup.Sound.ends_initiateDcutr (h : setup.Sound) (hcodec : MultihashCodec.Exact)
    (hstream : stream <+: setup.reply) (bridge : Bytes) :
    Ends (fun c => bridge ++ received c.arrivals = stream ∧
        c.outgoing = ⟨setup.dialerRefusal, 1, setup.hopRequest⟩)
      (initiateDcutr setup.dialerAddrs setup.dialerStream bridge)
      (fun p c => setup.dialerRefusal 1 = none ∧ (Answered setup p.1 p.2 stream ∧
        c.outgoing = ⟨setup.dialerRefusal, 2, setup.hopRequest ++ setup.offer⟩))
      (fun e c => Hindered setup.dialerStream setup.dialerRefusal e ∧
        ((setup.dialerRefusal 1).isSome ∧ c.outgoing.sent = setup.hopRequest ∨
          setup.dialerRefusal 1 = none ∧ stream ≠ setup.reply ∧
            c.outgoing.sent = setup.hopRequest ++ setup.offer)) := by
  unfold initiateDcutr
  apply Ends.bind (Q := fun _ c => bridge ++ received c.arrivals = stream ∧
    c.outgoing = ⟨setup.dialerRefusal, 1, setup.hopRequest⟩)
  · exact fun c hc => .inl ⟨c.nowMs, c, rfl, hc⟩
  intro sentAt
  apply Ends.bind_of_exec fun c _ => exec_dcutrInitiatorFlush setup c
  apply Ends.bind (Q := fun _ c => setup.dialerRefusal 1 = none ∧
    (bridge ++ received c.arrivals = stream ∧
      c.outgoing = ⟨setup.dialerRefusal, 2, setup.hopRequest ++ setup.offer⟩))
  · apply (ends_send setup.dialerStream
      (J := fun a => bridge ++ received a = stream)
      (Dcutr.connectFrame_ne_nil setup.dialerAddrs)).mono (fun _ hc => hc)
    · rintro _ c ⟨hcomes, hnone, houtgoing⟩
      exact ⟨hnone, hcomes, houtgoing⟩
    · rintro e c ⟨-, hsome, hhindered, houtgoing⟩
      exact ⟨hhindered, .inl ⟨hsome, by rw [houtgoing]⟩⟩
  intro _
  apply Ends.of_fact
  intro hnone
  apply Ends.bind (h.ends_feedPipelined hcodec hstream bridge _)
  rintro ⟨flow, pending⟩
  apply Ends.of_fact
  rintro ⟨hwaits, hsome⟩
  cases pending with
  | some outcome =>
    apply Ends.pure
    rintro c ⟨hcomes, houtgoing⟩
    have hanswered : Answered setup flow outcome bridge := hsome outcome rfl
    exact ⟨hnone, hanswered.all hcomes hstream ▸ hanswered, houtgoing⟩
  | none =>
    apply (ends_awaitOutcome (streams_comes stream) (h.initiator_reads hcodec hstream sentAt)
      flow).mono
    · rintro c ⟨hcomes, houtgoing⟩
      exact ⟨⟨bridge, hwaits rfl, hcomes⟩, houtgoing⟩
    · rintro p c ⟨⟨got, hanswered, hcomes⟩, houtgoing⟩
      exact ⟨hnone, hanswered.all hcomes hstream ▸ hanswered, houtgoing⟩
    · rintro e c ⟨⟨flow, got, arrivals, ⟨-, hpart⟩, hcomes, hnothing⟩, hhindered, houtgoing⟩
      rw [hcomes.all hnothing] at hpart
      refine ⟨hhindered, .inr ⟨hnone, ?_, by rw [houtgoing]⟩⟩
      rintro rfl
      exact hpart List.prefix_rfl

/-! ## The dialer -/

/-- What the dialer has returned and sent when some of its stream has come. -/
inductive Dialed (setup : Setup) (stream : Bytes) :
    Except String (List Multiaddr × UInt64) → Bytes → Prop
  | unasked {e : String} (h₀ : (setup.dialerRefusal 0).isSome)
    (he : Hindered setup.dialerStream setup.dialerRefusal e) : Dialed setup stream (.error e) []
  | asked {e : String} (h₀ : setup.dialerRefusal 0 = none) (hanswer : ¬ setup.hopAnswer <+: stream)
    (he : Hindered setup.dialerStream setup.dialerRefusal e) :
    Dialed setup stream (.error e) setup.hopRequest
  | unoffered {e : String} (h₀ : setup.dialerRefusal 0 = none)
    (h₁ : (setup.dialerRefusal 1).isSome) (hanswer : setup.hopAnswer <+: stream)
    (he : Hindered setup.dialerStream setup.dialerRefusal e) :
    Dialed setup stream (.error e) setup.hopRequest
  | offered {e : String} (h₀ : setup.dialerRefusal 0 = none) (h₁ : setup.dialerRefusal 1 = none)
    (hanswer : setup.hopAnswer <+: stream)
    (hreply : stream ≠ setup.hopAnswer ++ setup.reply ∨ (setup.dialerRefusal 2).isSome)
    (he : Hindered setup.dialerStream setup.dialerRefusal e) :
    Dialed setup stream (.error e) (setup.hopRequest ++ setup.offer)
  | done (rttMs : UInt64) (h₀ : setup.dialerRefusal 0 = none) (h₁ : setup.dialerRefusal 1 = none)
    (h₂ : setup.dialerRefusal 2 = none) (hreply : stream = setup.hopAnswer ++ setup.reply) :
    Dialed setup stream (.ok (setup.listenerAddrs, rttMs))
      (setup.hopRequest ++ setup.offer ++ syncFrame)

omit [MultihashCodec] in
theorem syncFrame_ne_nil : syncFrame ≠ [] := Wire.encodeFrame_ne_nil _

/-- The dialer sends SYNC when it has the reply. -/
theorem exec_dcutrInitiatorSendSyncFlush (outcome : InitiatorOutcome) (circuit : Circuit) :
    exec (dcutrInitiatorSendSyncFlush (.replied [] .readyToSync outcome true)) circuit =
      some (.ok (.replied [] .done outcome true, syncFrame), circuit) := by
  have hinput : DcutrInitiator.handleInput (.replied [] .readyToSync outcome true) .sendSync =
      .ok (.replied syncFrame .syncPending outcome true, .ok ()) := rfl
  have hpoll : pollOutput (DcutrInitiator.replied syncFrame .syncPending outcome true) =
      (.replied [] .done outcome true, some (.outbound syncFrame)) :=
    DcutrInitiator.pollOutput_sync outcome
  unfold dcutrInitiatorSendSyncFlush
  rw [exec_bind_of_ok (exec_give _ hinput circuit)]
  exact exec_flushWith _ rfl hpoll circuit

/-- Steps 2 to 4 of the dialer end, however much of its stream has come. -/
theorem Setup.Sound.ends_runDial (h : setup.Sound) (hcodec : MultihashCodec.Exact)
    (hstream : stream <+: setup.hopAnswer ++ setup.reply) :
    Ends (fun c => received c.arrivals = stream ∧ c.outgoing = ⟨setup.dialerRefusal, 0, []⟩)
      (runDial setup.target setup.dialerAddrs setup.dialerStream)
      (fun p c => Dialed setup stream (.ok p) c.outgoing.sent)
      (fun e c => Dialed setup stream (.error e) c.outgoing.sent) := by
  unfold runDial
  apply Ends.bind
  · apply (h.ends_connectThroughRelay hstream h.replies.fits).mono (fun _ hc => hc)
      (fun _ _ hc => hc)
    rintro e c ⟨he, ⟨h₀, hsent⟩ | ⟨h₀, hanswer, hsent⟩⟩
    · rw [hsent]
      exact .unasked h₀ he
    · rw [hsent]
      exact .asked h₀ hanswer he
  rintro bridge c₁ ⟨h₀, hc, houtgoing⟩
  -- the rest of the stream is the reply, or a part of it
  obtain ⟨rest, hsplit⟩ : ∃ rest, bridge ++ received c₁.arrivals = rest := ⟨_, rfl⟩
  have hanswer : setup.hopAnswer <+: stream := ⟨_, hc⟩
  rw [hsplit] at hc
  have hrest : rest <+: setup.reply := by
    rw [← hc] at hstream
    exact (List.prefix_append_right_inj _).mp hstream
  refine Ends.bind
    (P := fun c => bridge ++ received c.arrivals = rest ∧
      c.outgoing = ⟨setup.dialerRefusal, 1, setup.hopRequest⟩)
    (Q := fun p c => setup.dialerRefusal 1 = none ∧ (Answered setup p.1 p.2 rest ∧
      c.outgoing = ⟨setup.dialerRefusal, 2, setup.hopRequest ++ setup.offer⟩))
    ?_ ?_ c₁ ⟨hsplit, houtgoing⟩
  · apply (h.ends_initiateDcutr hcodec hrest bridge).mono (fun _ hc => hc) (fun _ _ hc => hc)
    rintro e c ⟨he, ⟨h₁, hsent⟩ | ⟨h₁, hreply, hsent⟩⟩
    · rw [hsent]
      exact .unoffered h₀ h₁ hanswer he
    · rw [hsent]
      refine .offered h₀ h₁ hanswer (.inl ?_) he
      rw [← hc]
      exact fun hall => hreply (List.append_cancel_left hall)
  rintro ⟨dcutr, ⟨remoteAddrs, raw, rtt⟩⟩
  apply Ends.of_fact
  intro h₁
  rintro c ⟨⟨rfl, rttMs, houtcome, rfl⟩, hout⟩
  unfold dialOutcome at houtcome
  cases houtcome
  refine Ends.bind_of_exec (P := fun c => True ∧
    c.outgoing = ⟨setup.dialerRefusal, 2, setup.hopRequest ++ setup.offer⟩)
    (fun c _ => exec_dcutrInitiatorSendSyncFlush _ c) ?_ c ⟨trivial, hout⟩
  apply Ends.bind
  · apply (ends_send setup.dialerStream (J := fun _ => True) syncFrame_ne_nil).mono
      (fun _ hc => hc) (fun _ _ hc => hc)
    rintro e c ⟨-, h₂, he, hsent⟩
    rw [hsent]
    exact .offered h₀ h₁ hanswer (.inr h₂) he
  · intro _
    apply Ends.pure
    rintro c ⟨-, h₂, hsent⟩
    rw [hsent]
    exact .done rtt h₀ h₁ h₂ hc.symm

end Peer

end Minip2p
