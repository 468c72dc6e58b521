import Mathlib.Logic.Function.Basic
import Minip2p.Ping.Party

/-!
# Two peers that ping each other

Either side has an outbound ping stream to the other, which is a FIFO byte channel in either
direction. Pings are asked for, any number of the bytes in flight are delivered, and outputs are
polled, in any order. Each ping goes through four stages (`Stage`): it waits to be handed out, is
on its way, waits as an echo to be handed out, and is on its way back. A machine never has more than
one payload of a stream in its buffer, because the next ping is refused until the echo is complete.
-/

namespace Minip2p.Ping

open Fifo (Channel Side)

/-! ## Sessions -/

/-- Two parties that ping each other. -/
abbrev Session := Side → Party

/-- What happens next between them. -/
inductive SessionAction
  | sendPing (side : Side) (payload : Payload) (nowMs : UInt64)
  | deliverPings (side : Side) (n : ℕ) (nowMs : UInt64)
  | deliverEchoes (side : Side) (n : ℕ) (nowMs : UInt64)
  | poll (side : Side)
deriving DecidableEq

namespace Session

/-- Machines with a stream in each direction on which nothing was sent. -/
def start (ping : Side → PingProtocol) (peer : Side → PeerId) (outbound inbound : Side → StreamId) :
    Session :=
  fun side => ⟨ping side, peer side, outbound side, inbound side, .empty, .empty, [], [], []⟩

/-- The session with another party on one side. -/
def set (session : Session) (side : Side) (party : Party) : Session :=
  Function.update session side party

/-- A side sends what its machine tells it to, on its own stream or back on that of the other
side. -/
def execute (session : Session) (side : Side) : PingAction → Session
  | .send peerId streamId data =>
    let party := session side
    let other := session side.other
    if peerId ≠ party.peer then session
    else if streamId = party.outbound then
      session.set side { party with pings := party.pings.send data.toList }
    else if streamId = party.inbound then
      session.set side.other { other with echoes := other.echoes.send data.toList }
    else session
  | .closeStreamWrite _ _ | .resetStream _ _ => session

/-- The next output of a side is kept, and an action is executed. -/
def polled (session : Session) (side : Side) (ping : PingProtocol) : Option PingOutput → Session
  | none => session.set side { session side with ping }
  | some output =>
    let session := session.set side ((session side).handOut ping output)
    match output with
    | .event _ => session
    | .action action => session.execute side action

/-- One action. -/
def step (session : Session) : SessionAction → Session
  | .sendPing side payload nowMs => session.set side ((session side).sendPing payload nowMs)
  | .deliverPings side n nowMs =>
    let party := session side
    let other := session side.other
    (session.set side { party with pings := party.pings.deliver n }).set side.other
      (other.read other.inbound (party.pings.next n) nowMs)
  | .deliverEchoes side n nowMs => session.set side ((session side).deliverEchoes n nowMs)
  | .poll side =>
    let (ping, output) := (session side).ping.pollOutput
    session.polled side ping output

/-- Some actions, the first one first. -/
def run (session : Session) (actions : List SessionAction) : Session := actions.foldl step session

/-- All that was sent is delivered, and no action is left to be executed. -/
def Drained (session : Session) : Prop := ∀ side, (session side).ping.pendingActions = [] ∧
  (session side).pings.inFlight = [] ∧ (session side).echoes.inFlight = []

end Session

/-! ## One ping at a time -/

/-- Where the pings of one side are. -/
structure Flight where
  pending : Option PendingPing
  toPing : List Payload
  pings : Bytes
  got : Bytes
  toEcho : List Payload
  echoes : Bytes
  back : Bytes

/-- The pings of one side that the other echoes. -/
def flight (pinger echoer : Party) : Flight where
  pending := pinger.view.pending
  toPing := pinger.view.toPing
  pings := pinger.pings.inFlight
  got := echoer.view.got
  toEcho := echoer.view.toEcho
  echoes := pinger.echoes.inFlight
  back := pinger.view.back

/-- Where a ping can be between the two sides. -/
inductive Stage : Flight → Prop
  | free : Stage ⟨none, [], [], [], [], [], []⟩
  /-- The ping was not handed out yet. -/
  | asked (pending : PendingPing) : Stage ⟨some pending, [pending.payload], [], [], [], [], []⟩
  /-- The ping is on its way. -/
  | going {pending : PendingPing} {got rest : Bytes}
    (hpayload : got ++ rest = pending.payload.toList) (hrest : rest ≠ []) :
    Stage ⟨some pending, [], rest, got, [], [], []⟩
  /-- The echo was not handed out yet. -/
  | echoed (pending : PendingPing) : Stage ⟨some pending, [], [], [], [pending.payload], [], []⟩
  /-- The echo is on its way back. -/
  | returning {pending : PendingPing} {back rest : Bytes}
    (hpayload : back ++ rest = pending.payload.toList) (hrest : rest ≠ []) :
    Stage ⟨some pending, [], [], [], [], rest, back⟩

/-- Each round trip is that of its ping: from when it was sent to when the last byte of its echo
came back. -/
def Measured (sentAt echoedAt rtts : List UInt64) : Prop :=
  ∀ k rtt, rtts[k]? = some rtt → ∃ sent now, sentAt[k]? = some sent ∧
    echoedAt[pingPayloadLen * (k + 1) - 1]? = some now ∧ rtt = saturatingSub now sent

namespace Measured

variable {sentAt echoedAt rtts : List UInt64}

/-- More pings and echoes leave the measurements right. -/
theorem append (h : Measured sentAt echoedAt rtts) (sentAt' echoedAt' : List UInt64) :
    Measured (sentAt ++ sentAt') (echoedAt ++ echoedAt') rtts := by
  intro k rtt hk
  obtain ⟨sent, now, hsent, hnow, hrtt⟩ := h k rtt hk
  refine ⟨sent, now, ?_, ?_, hrtt⟩
  · rw [List.getElem?_append_left (List.getElem?_eq_some_iff.mp hsent).1]
    exact hsent
  · rw [List.getElem?_append_left (List.getElem?_eq_some_iff.mp hnow).1]
    exact hnow

/-- One more round trip is measured. -/
theorem concat (h : Measured sentAt echoedAt rtts) {sent now : UInt64}
    (hsent : sentAt[rtts.length]? = some sent)
    (hnow : echoedAt[pingPayloadLen * (rtts.length + 1) - 1]? = some now) :
    Measured sentAt echoedAt (rtts ++ [saturatingSub now sent]) := by
  intro k rtt hk
  by_cases hlt : k < rtts.length
  · rw [List.getElem?_append_left hlt] at hk
    exact h k rtt hk
  · have hle := (List.getElem?_eq_some_iff.mp hk).1
    rw [List.length_append, List.length_singleton] at hle
    obtain rfl : k = rtts.length := by omega
    rw [List.getElem?_concat_length] at hk
    exact ⟨sent, now, hsent, hnow, (Option.some.inj hk).symm⟩

end Measured

/-- The round trips that were measured are those of the pings, in order. -/
structure Timed (view : View) (delivered : Bytes) (sentAt echoedAt : List UInt64) : Prop where
  times : echoedAt.length = delivered.length
  whole : echoedAt.length = pingPayloadLen * view.rtts.length + view.back.length
  measured : Measured sentAt echoedAt view.rtts
  sent : sentAt.length = view.rtts.length + view.pending.toList.length
  last : ∀ pending ∈ view.pending, sentAt[view.rtts.length]? = some pending.sentAtMs

namespace Timed

variable {view : View} {delivered : Bytes} {sentAt echoedAt : List UInt64}

/-- Another ping is sent. -/
theorem ask (h : Timed view delivered sentAt echoedAt) (hfree : view.pending = none)
    (payload : Payload) (nowMs : UInt64) (toPing : List Payload) :
    Timed { view with pending := some ⟨payload, nowMs⟩, toPing } delivered (sentAt ++ [nowMs])
      echoedAt := by
  have hlen : sentAt.length = view.rtts.length := by
    rw [h.sent, hfree]
    rfl
  have hmeasured := h.measured.append [nowMs] []
  rw [List.append_nil] at hmeasured
  refine ⟨h.times, h.whole, hmeasured, ?_, ?_⟩
  · rw [List.length_append, hlen]
    rfl
  · rintro pending ⟨⟩
    rw [← hlen]
    exact List.getElem?_concat_length

/-- More bytes of an echo come back. -/
theorem hear (h : Timed view delivered sentAt echoedAt) (data : Bytes) (nowMs : UInt64) :
    Timed { view with back := view.back ++ data } (delivered ++ data) sentAt
      (echoedAt ++ List.replicate data.length nowMs) := by
  have hmeasured := h.measured.append [] (List.replicate data.length nowMs)
  rw [List.append_nil] at hmeasured
  refine ⟨?_, ?_, hmeasured, h.sent, h.last⟩
  · rw [List.length_append, List.length_append, List.length_replicate, h.times]
  · rw [List.length_append, List.length_replicate, h.whole, List.length_append, Nat.add_assoc]

/-- The last bytes of an echo come back. -/
theorem complete (h : Timed view delivered sentAt echoedAt) {pending : PendingPing}
    (hpending : view.pending = some pending) {data : Bytes}
    (hbuf : view.back ++ data = pending.payload.toList) (hdata : data ≠ []) (nowMs : UInt64) :
    Timed { view with
      pending := none
      back := []
      rtts := view.rtts ++ [saturatingSub nowMs pending.sentAtMs] } (delivered ++ data) sentAt
        (echoedAt ++ List.replicate data.length nowMs) := by
  have hheard := h.hear data nowMs
  have hpayload : (view.back ++ data).length = pingPayloadLen := by
    rw [hbuf, Vector.length_toList]
  have hpos := List.length_pos_iff.mpr hdata
  have hwhole : (echoedAt ++ List.replicate data.length nowMs).length =
      pingPayloadLen * (view.rtts.length + 1) := by
    rw [hheard.whole, hpayload, Nat.mul_succ]
  have hnow : (echoedAt ++ List.replicate data.length nowMs)[
      pingPayloadLen * (view.rtts.length + 1) - 1]? = some nowMs := by
    rw [← hwhole, List.length_append, List.length_replicate,
      List.getElem?_append_right (by omega), List.getElem?_replicate, if_pos (by omega)]
  refine ⟨hheard.times, ?_, hheard.measured.concat (h.last pending hpending) hnow, ?_, ?_⟩
  · rw [hwhole, List.length_append]
    rfl
  · rw [h.sent, hpending, List.length_append]
    rfl
  · rintro pending ⟨⟩

end Timed

/-- The pings of one side are in order. -/
structure Fair (pinger echoer : Party) : Prop where
  wired : pinger.Wired
  stage : Stage (flight pinger echoer)
  timed : Timed pinger.view pinger.echoes.delivered pinger.sentAt pinger.echoedAt

namespace Fair

variable {pinger echoer : Party}

/-- Only what the echoer holds of the inbound stream matters. -/
theorem of_echoer (h : Fair pinger echoer) {echoer' : Party}
    (hgot : echoer'.view.got = echoer.view.got)
    (htoEcho : echoer'.view.toEcho = echoer.view.toEcho) : Fair pinger echoer' := by
  refine ⟨h.wired, ?_, h.timed⟩
  rw [flight, hgot, htoEcho]
  exact h.stage

/-- Only what the pinger holds of the outbound stream matters. -/
theorem of_turn (h : Fair pinger echoer) {ping : PingProtocol} (hwired : (pinger.turn ping).Wired)
    {got : Bytes} {toEcho : List Payload}
    (hview : (pinger.turn ping).view = { pinger.view with got, toEcho }) :
    Fair (pinger.turn ping) echoer := by
  refine ⟨hwired, ?_, ?_⟩
  · rw [flight, hview]
    exact h.stage
  · rw [hview]
    exact ⟨h.timed.times, h.timed.whole, h.timed.measured, h.timed.sent, h.timed.last⟩

/-- Asking for a ping keeps the sides fair. -/
theorem sendPing (h : Fair pinger echoer) (payload : Payload) (nowMs : UInt64) :
    Fair (pinger.sendPing payload nowMs) echoer ∧
      (pinger.sendPing payload nowMs).view.got = pinger.view.got ∧
      (pinger.sendPing payload nowMs).view.toEcho = pinger.view.toEcho := by
  cases hpending : pinger.view.pending with
  | some pending =>
    rw [Party.sendPing_of_busy h.wired (by rw [hpending]; rfl)]
    exact ⟨h, rfl, rfl⟩
  | none =>
    obtain ⟨ping, hsend, hwired, hview⟩ := Party.sendPing_of_free h.wired hpending payload nowMs
    have hgot : (pinger.turn ping).view.got = pinger.view.got := by rw [hview]
    have htoEcho : (pinger.turn ping).view.toEcho = pinger.view.toEcho := by rw [hview]
    rw [hsend]
    refine ⟨⟨?_, ?_, ?_⟩, hgot, htoEcho⟩
    · exact ⟨hwired.known, hwired.outbound, hwired.inbound, hwired.distinct, hwired.actions,
        hwired.events⟩
    · have hstage := h.stage
      obtain ⟨f, hf⟩ : ∃ f, flight pinger echoer = f := ⟨_, rfl⟩
      rw [hf] at hstage
      cases hstage with
      | free =>
        simp only [flight, Flight.mk.injEq] at hf
        obtain ⟨-, htoPing, hpings, hgot, htoEcho, hechoes, hback⟩ := hf
        show Stage ⟨(pinger.turn ping).view.pending, (pinger.turn ping).view.toPing,
          pinger.pings.inFlight, echoer.view.got, echoer.view.toEcho, pinger.echoes.inFlight,
          (pinger.turn ping).view.back⟩
        rw [hview, htoPing, hpings, hgot, htoEcho, hechoes, hback]
        exact .asked ⟨payload, nowMs⟩
      | asked | going | echoed | returning =>
        rw [flight, hpending] at hf
        cases congrArg Flight.pending hf
    · show Timed (pinger.turn ping).view _ _ _
      rw [hview]
      exact h.timed.ask hpending payload nowMs _

/-- The pings arrive as far as `n` bytes of them do. -/
theorem withPings (h : Fair pinger echoer) {pings : Channel UInt8} {echoer' : Party}
    (hstage : Stage { flight pinger echoer with
      pings := pings.inFlight
      got := echoer'.view.got
      toEcho := echoer'.view.toEcho }) : Fair { pinger with pings } echoer' :=
  ⟨⟨h.wired.known, h.wired.outbound, h.wired.inbound, h.wired.distinct, h.wired.actions,
    h.wired.events⟩, hstage, h.timed⟩

/-- Some bytes of a ping arrive. -/
theorem deliverPings (h : Fair pinger echoer) (hwired : echoer.Wired) (n : ℕ) (nowMs : UInt64) :
    ∃ ping got toEcho, echoer.read echoer.inbound (pinger.pings.next n) nowMs = echoer.turn ping ∧
      (echoer.turn ping).Wired ∧ (echoer.turn ping).view = { echoer.view with got, toEcho } ∧
      Fair { pinger with pings := pinger.pings.deliver n } (echoer.turn ping) := by
  have hstage := h.stage
  obtain ⟨f, hf⟩ : ∃ f, flight pinger echoer = f := ⟨_, rfl⟩
  rw [hf] at hstage
  cases hstage with
  | free | asked | echoed | returning =>
    -- nothing is on its way
    have hpings : pinger.pings.inFlight = [] := congrArg Flight.pings hf
    have hgot : echoer.view.got = [] := congrArg Flight.got hf
    have hnext : pinger.pings.next n = [] := by rw [Channel.next, hpings, List.take_nil]
    have hlen : (echoer.view.got ++ pinger.pings.next n).length < pingPayloadLen := by
      rw [hnext, hgot]
      decide
    obtain ⟨ping, hread, hwired', hview⟩ := Party.read_inbound_short hwired hlen nowMs
    refine ⟨ping, _, _, hread, hwired', hview, h.withPings ?_⟩
    rw [hview, hnext, List.append_nil, Channel.deliver, hpings, List.drop_nil, ← hpings]
    exact h.stage
  | @going pending got rest hpayload hrest =>
    have hpings : pinger.pings.inFlight = rest := congrArg Flight.pings hf
    have hgot : echoer.view.got = got := congrArg Flight.got hf
    have hflight : (pinger.pings.deliver n).inFlight = rest.drop n := by
      rw [Channel.deliver, hpings]
    have hnext : pinger.pings.next n = rest.take n := by rw [Channel.next, hpings]
    have hsplit : (got ++ rest.take n) ++ rest.drop n = pending.payload.toList := by
      rw [List.append_assoc, List.take_append_drop, hpayload]
    by_cases hall : rest.drop n = []
    · rw [hall, List.append_nil, ← hgot, ← hnext] at hsplit
      obtain ⟨ping, hread, hwired', hview⟩ := Party.read_inbound_full hwired hsplit nowMs
      refine ⟨ping, _, _, hread, hwired', hview, h.withPings ?_⟩
      have htoEcho : echoer.view.toEcho = [] := congrArg Flight.toEcho hf
      rw [hview, hflight, hall, hf, htoEcho]
      exact .echoed pending
    · have hlen : (echoer.view.got ++ pinger.pings.next n).length < pingPayloadLen := by
        have hpos := List.length_pos_iff.mpr hall
        have htotal := congrArg List.length hsplit
        rw [List.length_append, Vector.length_toList] at htotal
        rw [hgot, hnext]
        omega
      obtain ⟨ping, hread, hwired', hview⟩ := Party.read_inbound_short hwired hlen nowMs
      refine ⟨ping, _, _, hread, hwired', hview, h.withPings ?_⟩
      have htoEcho : echoer.view.toEcho = [] := congrArg Flight.toEcho hf
      rw [hview, hflight, hf, htoEcho, hgot, hnext]
      exact .going hsplit hall

/-- Some bytes of an echo arrive. -/
theorem deliverEchoes (h : Fair pinger echoer) (n : ℕ) (nowMs : UInt64) :
    Fair (pinger.deliverEchoes n nowMs) echoer ∧
      (pinger.deliverEchoes n nowMs).view.got = pinger.view.got ∧
      (pinger.deliverEchoes n nowMs).view.toEcho = pinger.view.toEcho := by
  -- what is to be shown of the machine after the bytes
  suffices hread : ∃ ping, pinger.read pinger.outbound (pinger.echoes.next n) nowMs =
      pinger.turn ping ∧ (pinger.turn ping).Wired ∧
      (pinger.turn ping).view.got = pinger.view.got ∧
      (pinger.turn ping).view.toEcho = pinger.view.toEcho ∧
      Stage { flight pinger echoer with
        pending := (pinger.turn ping).view.pending
        toPing := (pinger.turn ping).view.toPing
        echoes := (pinger.echoes.deliver n).inFlight
        back := (pinger.turn ping).view.back } ∧
      Timed (pinger.turn ping).view (pinger.echoes.delivered ++ pinger.echoes.next n) pinger.sentAt
        (pinger.echoedAt ++ List.replicate (pinger.echoes.next n).length nowMs) by
    obtain ⟨ping, hread, hwired, hgot, htoEcho, hstage, htimed⟩ := hread
    rw [Party.deliverEchoes, hread]
    exact ⟨⟨⟨hwired.known, hwired.outbound, hwired.inbound, hwired.distinct, hwired.actions,
      hwired.events⟩, hstage, htimed⟩, hgot, htoEcho⟩
  have hstage := h.stage
  obtain ⟨f, hf⟩ : ∃ f, flight pinger echoer = f := ⟨_, rfl⟩
  rw [hf] at hstage
  cases hstage with
  | free | asked | going | echoed =>
    -- nothing is on its way back
    have hechoes : pinger.echoes.inFlight = [] := congrArg Flight.echoes hf
    have hback : pinger.view.back = [] := congrArg Flight.back hf
    have hnext : pinger.echoes.next n = [] := by rw [Channel.next, hechoes, List.take_nil]
    have hlen : (pinger.view.back ++ pinger.echoes.next n).length < pingPayloadLen := by
      rw [hnext, hback]
      decide
    obtain ⟨ping, hread, hwired, hview⟩ := Party.read_outbound_short h.wired hlen nowMs
    refine ⟨ping, hread, hwired, by rw [hview], by rw [hview], ?_, ?_⟩
    · rw [hview, hnext, List.append_nil, Channel.deliver, hechoes, List.drop_nil, ← hechoes]
      exact h.stage
    · rw [hview]
      exact h.timed.hear _ nowMs
  | @returning pending back rest hpayload hrest =>
    have hechoes : pinger.echoes.inFlight = rest := congrArg Flight.echoes hf
    have hback : pinger.view.back = back := congrArg Flight.back hf
    have hpending : pinger.view.pending = some pending := congrArg Flight.pending hf
    have htoPing : pinger.view.toPing = [] := congrArg Flight.toPing hf
    have hflight : (pinger.echoes.deliver n).inFlight = rest.drop n := by
      rw [Channel.deliver, hechoes]
    have hnext : pinger.echoes.next n = rest.take n := by rw [Channel.next, hechoes]
    have hsplit : (back ++ rest.take n) ++ rest.drop n = pending.payload.toList := by
      rw [List.append_assoc, List.take_append_drop, hpayload]
    by_cases hall : rest.drop n = []
    · have hdata : pinger.echoes.next n ≠ [] := by
        intro hnil
        rw [hnext] at hnil
        apply hrest
        rw [← List.take_append_drop n rest, hnil, hall, List.append_nil]
      rw [hall, List.append_nil, ← hback, ← hnext] at hsplit
      obtain ⟨ping, hread, hwired, hview⟩ :=
        Party.read_outbound_full h.wired hpending hsplit nowMs
      refine ⟨ping, hread, hwired, by rw [hview], by rw [hview], ?_, ?_⟩
      · rw [hview, hflight, hall, hf, htoPing]
        exact .free
      · rw [hview]
        exact h.timed.complete hpending hsplit hdata nowMs
    · have hlen : (pinger.view.back ++ pinger.echoes.next n).length < pingPayloadLen := by
        have hpos := List.length_pos_iff.mpr hall
        have htotal := congrArg List.length hsplit
        rw [List.length_append, Vector.length_toList] at htotal
        rw [hback, hnext]
        omega
      obtain ⟨ping, hread, hwired, hview⟩ := Party.read_outbound_short h.wired hlen nowMs
      refine ⟨ping, hread, hwired, by rw [hview], by rw [hview], ?_, ?_⟩
      · rw [hview, hflight, hf, htoPing, hpending, hback, hnext]
        exact .returning hsplit hall
      · rw [hview]
        exact h.timed.hear _ nowMs

/-- An output that is no action is handed out. -/
theorem handOut (h : Fair pinger echoer) {ping : PingProtocol} {output : PingOutput}
    (hwired : (pinger.handOut ping output).Wired) {toEcho : List Payload}
    (hview : (pinger.handOut ping output).view = { pinger.view with toEcho }) :
    Fair (pinger.handOut ping output) echoer := by
  refine ⟨hwired, ?_, ?_⟩
  · rw [flight, hview]
    exact h.stage
  · rw [hview]
    exact ⟨h.timed.times, h.timed.whole, h.timed.measured, h.timed.sent, h.timed.last⟩

/-- A ping that is handed out is sent. -/
theorem handOut_ping (h : Fair pinger echoer) {ping : PingProtocol} {output : PingOutput}
    (hwired : (pinger.handOut ping output).Wired) {data : Payload} {rest : List Payload}
    (hqueue : pinger.view.toPing = data :: rest)
    (hview : (pinger.handOut ping output).view = { pinger.view with toPing := rest }) :
    Fair { pinger.handOut ping output with pings := pinger.pings.send data.toList } echoer := by
  refine ⟨⟨hwired.known, hwired.outbound, hwired.inbound, hwired.distinct, hwired.actions,
    hwired.events⟩, ?_, ?_⟩
  · have hstage := h.stage
    obtain ⟨f, hf⟩ : ∃ f, flight pinger echoer = f := ⟨_, rfl⟩
    rw [hf] at hstage
    cases hstage with
    | asked pending =>
      show Stage { flight pinger echoer with
        pending := (pinger.handOut ping output).view.pending
        toPing := (pinger.handOut ping output).view.toPing
        pings := pinger.pings.inFlight ++ data.toList
        back := (pinger.handOut ping output).view.back }
      simp only [flight, Flight.mk.injEq, hqueue, List.cons.injEq] at hf
      obtain ⟨hpending, ⟨rfl, rfl⟩, hpings, hgot, htoEcho, hechoes, hback⟩ := hf
      rw [hview, flight, hpending, hpings, hgot, htoEcho, hechoes, hback]
      refine .going rfl fun hnil => ?_
      have hlen := congrArg List.length hnil
      rw [List.nil_append, Vector.length_toList] at hlen
      cases hlen
    | free | going | echoed | returning =>
      have hnone := congrArg Flight.toPing hf
      rw [flight, hqueue] at hnone
      cases hnone
  · show Timed (pinger.handOut ping output).view _ _ _
    rw [hview]
    exact ⟨h.timed.times, h.timed.whole, h.timed.measured, h.timed.sent, h.timed.last⟩

/-- An echo that is handed out is sent back. -/
theorem handOut_echo (h : Fair pinger echoer) {data : Payload} {rest : List Payload}
    (hqueue : echoer.view.toEcho = data :: rest) {echoer' : Party}
    (hview : echoer'.view = { echoer.view with toEcho := rest }) :
    Fair { pinger with echoes := pinger.echoes.send data.toList } echoer' := by
  refine ⟨⟨h.wired.known, h.wired.outbound, h.wired.inbound, h.wired.distinct, h.wired.actions,
    h.wired.events⟩, ?_, h.timed⟩
  have hstage := h.stage
  obtain ⟨f, hf⟩ : ∃ f, flight pinger echoer = f := ⟨_, rfl⟩
  rw [hf] at hstage
  cases hstage with
  | echoed pending =>
    show Stage { flight pinger echoer with
      got := echoer'.view.got
      toEcho := echoer'.view.toEcho
      echoes := pinger.echoes.inFlight ++ data.toList }
    simp only [flight, Flight.mk.injEq, hqueue, List.cons.injEq] at hf
    obtain ⟨hpending, htoPing, hpings, hgot, ⟨rfl, rfl⟩, hechoes, hback⟩ := hf
    rw [hview, flight, hpending, htoPing, hpings, hgot, hechoes, hback]
    refine .returning rfl fun hnil => ?_
    have hlen := congrArg List.length hnil
    rw [List.nil_append, Vector.length_toList] at hlen
    cases hlen
  | free | asked | going | returning =>
    have hnone := congrArg Flight.toEcho hf
    rw [flight, hqueue] at hnone
    cases hnone

end Fair

/-! ## Runs -/

namespace Session

variable {session : Session} {side : Side}

/-- The side that was set. -/
@[simp] theorem set_self (party : Party) : session.set side party side = party :=
  Function.update_self ..

/-- The other side is kept. -/
@[simp] theorem set_other (party : Party) :
    session.set side party side.other = session side.other :=
  Function.update_of_ne side.other_ne ..

@[simp] theorem set_other_side (party : Party) :
    session.set side.other party side = session side :=
  Function.update_of_ne side.other_ne.symm ..

/-- The pings of either side are in order. -/
def Inv (session : Session) : Prop := ∀ side, Fair (session side) (session side.other)

/-- The invariant, said of one side and of the other. -/
theorem Inv.of_side (side : Side) (h : Fair (session side) (session side.other))
    (hother : Fair (session side.other) (session side)) : session.Inv := by
  intro side'
  obtain rfl | rfl := side.eq_or_eq_other side'
  · exact h
  · rw [Side.other_other]
    exact hother

/-- The other side is fair as well. -/
theorem Inv.other (h : session.Inv) (side : Side) :
    Fair (session side.other) (session side) := by
  have hother := h side.other
  rwa [Side.other_other] at hother

/-- A poll keeps both sides fair. -/
theorem Inv.polled (h : session.Inv) {r : PingProtocol × Option PingOutput}
    (hpolls : (session side).Polls r) : (session.polled side r.1 r.2).Inv := by
  cases hpolls with
  | nothing =>
    refine .of_side side ?_ ?_
    · simpa [Session.polled] using h side
    · simpa [Session.polled] using h.other side
  | event hwired hview =>
    refine .of_side side ?_ ?_
    · simpa [Session.polled] using (h side).handOut hwired hview
    · simpa [Session.polled] using (h.other side).of_echoer (by rw [hview]) (by rw [hview])
  | @ping ping data rest hwired hqueue hview =>
    have hsent := (h side).handOut_ping hwired hqueue hview
    have hhanded : Fair (session side.other) ((session side).handOut ping
        (.action (.send (session side).peer (session side).outbound data))) :=
      (h.other side).of_echoer (by rw [hview]) (by rw [hview])
    have hother : Fair (session side.other) { (session side).handOut ping
        (.action (.send (session side).peer (session side).outbound data)) with
          pings := (session side).pings.send data.toList } := hhanded.of_echoer rfl rfl
    refine .of_side side ?_ ?_
    · simpa [Session.polled, execute, Party.handOut] using hsent
    · simpa [Session.polled, execute, Party.handOut] using hother
  | @echo ping data rest hwired hqueue hview =>
    have hechoed := (h.other side).handOut_echo hqueue hview
    have hside : Fair ((session side).handOut ping
        (.action (.send (session side).peer (session side).inbound data)))
        { session side.other with echoes := (session side.other).echoes.send data.toList } :=
      ((h side).handOut hwired hview).of_echoer rfl rfl
    have hne : (session side).inbound ≠ (session side).outbound := (h side).wired.distinct.symm
    refine .of_side side ?_ ?_
    · simpa [Session.polled, execute, Party.handOut, hne] using hside
    · simpa [Session.polled, execute, Party.handOut, hne] using hechoed

/-- An action keeps the pings in order. -/
theorem Inv.step (h : session.Inv) (action : SessionAction) : (session.step action).Inv := by
  cases action with
  | sendPing side payload nowMs =>
    obtain ⟨hfair, hgot, htoEcho⟩ := (h side).sendPing payload nowMs
    refine .of_side side ?_ ?_
    · simpa [Session.step] using hfair
    · simpa [Session.step] using (h.other side).of_echoer hgot htoEcho
  | deliverPings side n nowMs =>
    obtain ⟨ping, got, toEcho, hread, hwired, hview, hfair⟩ :=
      (h side).deliverPings (h.other side).wired n nowMs
    have hother : Fair ((session side.other).turn ping)
        { session side with pings := (session side).pings.deliver n } :=
      ((h.other side).of_turn hwired hview).of_echoer rfl rfl
    refine .of_side side ?_ ?_
    · simpa [Session.step, hread] using hfair
    · simpa [Session.step, hread] using hother
  | deliverEchoes side n nowMs =>
    obtain ⟨hfair, hgot, htoEcho⟩ := (h side).deliverEchoes n nowMs
    refine .of_side side ?_ ?_
    · simpa [Session.step] using hfair
    · simpa [Session.step] using (h.other side).of_echoer hgot htoEcho
  | poll side => exact h.polled (h side).wired.polls

/-- Every run keeps both sides fair. -/
theorem Inv.run (h : session.Inv) (actions : List SessionAction) : (session.run actions).Inv := by
  induction actions generalizing session with
  | nil => exact h
  | cons action actions ih => exact ih (h.step action)

variable {ping : Side → PingProtocol} {peer : Side → PeerId} {outbound inbound : Side → StreamId}

/-- Nothing was sent yet. -/
theorem inv_start (h : ∀ side, (ping side).Joined (peer side) (outbound side) (inbound side)) :
    (start ping peer outbound inbound).Inv := by
  intro side
  have hview : ∀ side, (start ping peer outbound inbound side).view =
      ⟨none, [], [], [], [], []⟩ := by
    intro side
    have hrtts : (start ping peer outbound inbound side).rtts = [] := by
      refine List.filterMap_eq_nil_iff.mpr fun event hevent => ?_
      have hregisters := (h side).events event hevent
      cases event <;> first | rfl | cases hregisters
    have hactions : (start ping peer outbound inbound side).ping.pendingActions = [] :=
      (h side).actions
    rw [Party.view, hrtts, hactions]
    simp only [View.mk.injEq]
    exact ⟨(h side).free, (h side).unread.1, (h side).unread.2, rfl, rfl, trivial⟩
  obtain ⟨hknown, hregistered, haccepted, hdistinct, -⟩ := h side
  refine ⟨⟨hknown, hregistered, haccepted, hdistinct, ?_, ?_⟩, ?_, ?_⟩
  · intro action haction
    rw [show (start ping peer outbound inbound side).ping.pendingActions = [] from
      (h side).actions] at haction
    cases haction
  · intro event hevent
    have hregisters := (h side).events event hevent
    cases event <;> trivial
  · rw [flight, hview, hview]
    exact .free
  · rw [hview]
    exact ⟨rfl, rfl, by rintro k rtt ⟨⟩, rfl, by rintro pending ⟨⟩⟩

end Session

/-- Less than a payload of an echo was received. -/
theorem Stage.back_lt {f : Flight} (h : Stage f) : f.back.length < pingPayloadLen := by
  cases h with
  | free | asked | going | echoed => exact Nat.zero_lt_succ _
  | @returning pending back rest hpayload hrest =>
    have htotal := congrArg List.length hpayload
    have hpos := List.length_pos_iff.mpr hrest
    rw [List.length_append, Vector.length_toList] at htotal
    show back.length < pingPayloadLen
    omega

/-- A ping that nobody holds any more is complete. -/
theorem Stage.free_of_drained {f : Flight} (h : Stage f) (htoPing : f.toPing = [])
    (hpings : f.pings = []) (htoEcho : f.toEcho = []) (hechoes : f.echoes = []) :
    f.pending = none := by
  cases h with
  | free => rfl
  | asked => cases htoPing
  | going _ hrest => exact absurd hpings hrest
  | echoed => cases htoEcho
  | returning _ hrest => exact absurd hechoes hrest

section

variable {pinger echoer : Party}

/-- At most one ping is on its way. -/
theorem Fair.sentAt_le (h : Fair pinger echoer) :
    pinger.rtts.length ≤ pinger.sentAt.length ∧
      pinger.sentAt.length ≤ pinger.rtts.length + 1 := by
  have hsent : pinger.sentAt.length = pinger.rtts.length + _ := h.timed.sent
  have hle : pinger.view.pending.toList.length ≤ 1 := by cases pinger.view.pending <;> simp
  omega

/-- Every payload that came back ended a round trip. -/
theorem Fair.length_rtts (h : Fair pinger echoer) :
    pinger.rtts.length = pinger.echoes.delivered.length / pingPayloadLen := by
  have hback : pinger.view.back.length < pingPayloadLen := h.stage.back_lt
  have hwhole : pinger.echoedAt.length =
    pingPayloadLen * pinger.rtts.length + pinger.view.back.length := h.timed.whole
  rw [← h.timed.times, hwhole, Nat.mul_add_div (by decide), Nat.div_eq_of_lt hback, Nat.add_zero]

/-- A ping whose echo is complete has its round trip. -/
theorem Fair.rtt_of_delivered (h : Fair pinger echoer) {k : ℕ} {sent : UInt64}
    (hsent : pinger.sentAt[k]? = some sent)
    (hdelivered : pingPayloadLen * (k + 1) ≤ pinger.echoes.delivered.length) :
    ∃ now, pinger.echoedAt[pingPayloadLen * (k + 1) - 1]? = some now ∧
      pinger.rtts[k]? = some (saturatingSub now sent) := by
  have hlt : k < pinger.rtts.length := by
    rw [h.length_rtts]
    exact (Nat.le_div_iff_mul_le (by decide)).mpr (Nat.mul_comm _ _ ▸ hdelivered)
  obtain ⟨sent', now, hsent', hnow, hrtt⟩ :=
    h.timed.measured k _ (List.getElem?_eq_getElem hlt)
  obtain rfl : sent = sent' := Option.some.inj (hsent.symm.trans hsent')
  refine ⟨now, hnow, ?_⟩
  rw [← hrtt]
  exact List.getElem?_eq_getElem hlt

end

/-- Two honest peers that ping each other, in whatever order pings are asked for, bytes arrive and
outputs are polled: nobody is accused of anything, there is one ping at a time in either direction,
and each has its round trip as soon as its echo is complete. -/
theorem ping_session {ping : Side → PingProtocol} {peer : Side → PeerId}
    {outbound inbound : Side → StreamId}
    (h : ∀ side, (ping side).Joined (peer side) (outbound side) (inbound side))
    (actions : List SessionAction) (side : Side) :
    let session := (Session.start ping peer outbound inbound).run actions
    let party := session side
    (∀ peerId streamId reason, .protocolViolation peerId streamId reason ∉ party.events) ∧
    (party.rtts.length ≤ party.sentAt.length ∧
      party.sentAt.length ≤ party.rtts.length + 1) ∧
    party.rtts.length = party.echoes.delivered.length / pingPayloadLen ∧
    (∀ k sent, party.sentAt[k]? = some sent →
      pingPayloadLen * (k + 1) ≤ party.echoes.delivered.length →
        ∃ now, party.echoedAt[pingPayloadLen * (k + 1) - 1]? = some now ∧
          party.rtts[k]? = some (saturatingSub now sent)) ∧
    (session.Drained → party.rtts.length = party.sentAt.length) := by
  intro session party
  have hinv : session.Inv := (Session.inv_start h).run actions
  have hfair : Fair party (session side.other) := hinv side
  refine ⟨?_, hfair.sentAt_le, hfair.length_rtts, fun k sent => hfair.rtt_of_delivered, ?_⟩
  · intro peerId streamId reason hevent
    exact hfair.wired.events _ hevent
  · intro hdrained
    have hfree : party.view.pending = none := by
      refine hfair.stage.free_of_drained ?_ (hdrained side).2.1 ?_ (hdrained side).2.2
      · exact List.filterMap_eq_nil_iff.mpr (by rw [(hdrained side).1]; rintro _ ⟨⟩)
      · exact List.filterMap_eq_nil_iff.mpr (by rw [(hdrained side.other).1]; rintro _ ⟨⟩)
    have hsent : party.sentAt.length = party.rtts.length + _ := hfair.timed.sent
    rw [hsent, hfree]
    rfl

/-- A new machine with both streams. -/
def PingProtocol.join (config : PingConfig) (peer : PeerId) (outbound inbound : StreamId) :
    PingProtocol :=
  (((new config).handleInput (.registerOutboundStream peer outbound)).1.handleInput
    (.registerInboundStream peer inbound)).1

theorem PingProtocol.joined_join (config : PingConfig) (peer : PeerId)
    {outbound inbound : StreamId} (hne : outbound ≠ inbound) :
    (join config peer outbound inbound).Joined peer outbound inbound := by
  let opened : PeerPingState := ⟨some outbound, ∅, none, ∅⟩
  let both : PeerPingState := ⟨some outbound, (∅ : BTreeSet StreamId).insert inbound, none, ∅⟩
  let half : PingProtocol := ⟨(∅ : BTreeMap PeerId PeerPingState).insert peer opened,
    [.outboundStreamRegistered peer outbound], [], config⟩
  have houtbound :
      ((new config).handleInput (.registerOutboundStream peer outbound)).1 = half := rfl
  have hopened : half.peerState peer = opened := by
    rw [peerState, Std.ExtTreeMap.getElem?_insert_self]
    rfl
  have hinbound : half.handleInput (.registerInboundStream peer inbound) =
      (((half.setPeer peer both).pushEvent (.inboundStreamAccepted peer inbound)).pushActions [],
        .ok ()) := by
    rw [handleInput, registerInboundStream, hopened]
    rfl
  have hjoin : join config peer outbound inbound = ((half.setPeer peer both).pushEvent
      (.inboundStreamAccepted peer inbound)).pushActions [] := by
    rw [join, houtbound, hinbound]
  have hknown : (join config peer outbound inbound).peers[peer]? = some both := by
    rw [hjoin]
    exact Std.ExtTreeMap.getElem?_insert_self
  have hstate : (join config peer outbound inbound).peerState peer = both := by
    rw [peerState, hknown]
    rfl
  have hactions : (join config peer outbound inbound).pendingActions = [] := by
    rw [hjoin]
    rfl
  refine ⟨by rw [hknown, hstate], by rw [hstate], ?_, hne, by rw [hstate], ?_, hactions, ?_⟩
  · rw [hstate]
    exact Std.ExtTreeSet.contains_insert_self
  · rw [hstate]
    exact ⟨rfl, rfl⟩
  · rw [hjoin]
    intro event hevent
    obtain rfl | hevent := List.mem_cons.mp hevent
    · trivial
    · obtain rfl := List.mem_singleton.mp hevent
      trivial

theorem rightPeer_digest_le : ([8, 2] : Bytes).length ≤ 64 := by decide

theorem leftPeer_digest_le : ([8, 1] : Bytes).length ≤ 64 := by decide

/-- What either side calls the other. -/
def twoPeers : Side → PeerId
  | .left => ⟨⟨identityMultihashCode, [0x08, 0x02], rightPeer_digest_le⟩⟩
  | .right => ⟨⟨identityMultihashCode, [0x08, 0x01], leftPeer_digest_le⟩⟩

/-- The streams the sides opened. -/
def twoStreams : Side → StreamId
  | .left => ⟨0⟩
  | .right => ⟨1⟩

/-- A ping in two pieces, its echo, and the round trip. -/
def pingActions : List SessionAction :=
  [.sendPing .left (Vector.replicate 32 42) 100, .poll .left, .deliverPings .left 20 110,
    .deliverPings .left 12 115, .poll .right, .deliverEchoes .left 32 135]

theorem ping_session_two :
    let session := (Session.start
      (fun side => .join default (twoPeers side) (twoStreams side) (twoStreams side.other))
      twoPeers twoStreams (fun side => twoStreams side.other)).run pingActions
    (∀ peerId streamId reason,
      .protocolViolation peerId streamId reason ∉ (session .left).events) ∧
    (session .left).sentAt = [100] ∧ (session .left).rtts = [35] := by
  intro session
  have hjoined : ∀ side, (PingProtocol.join default (twoPeers side) (twoStreams side)
      (twoStreams side.other)).Joined (twoPeers side) (twoStreams side)
      (twoStreams side.other) := by
    refine fun side => PingProtocol.joined_join _ _ ?_
    cases side <;> decide
  obtain ⟨hclean, -, hlength, hrtt, -⟩ := ping_session hjoined pingActions .left
  have hsent : (session .left).sentAt = [100] := by decide +kernel
  have hdelivered : (session .left).echoes.delivered.length = pingPayloadLen := by
    decide +kernel
  have hechoed : (session .left).echoedAt[31]? = some 135 := by decide +kernel
  obtain ⟨now, hnow, hfirst⟩ := hrtt 0 100 (by rw [hsent]; rfl) (Nat.le_of_eq hdelivered.symm)
  obtain rfl : 135 = now := Option.some.inj (hechoed.symm.trans hnow)
  refine ⟨hclean, hsent, List.ext_getElem? fun k => ?_⟩
  cases k with
  | zero => exact hfirst
  | succ k =>
    rw [hdelivered] at hlength
    exact List.getElem?_eq_none (hlength.symm ▸ Nat.le_add_left 1 k)

end Minip2p.Ping
