import Minip2p.Peer.Dialer

/-!
# What the listener's script does

`ends_runListen`: given any part of the stream that an honest dialer and its relay make, cut into
any pieces that keep the offer apart from SYNC, the script ends, and what it has sent by then and
what it returns depend only on how much of the stream has come and on which sends were refused
(`Listened`).
-/

namespace Minip2p.Peer

open Chunking (prefix_cases not_prefix_of_part)
open Prog
open Relay (StopMessage StopResponder StopConnectRequest)
open Dcutr (DcutrResponder connectFrame syncFrame connectEvent)
open SansIoProtocol (handleInput pollOutput)

/-! ## STOP CONNECT -/

/-- No piece that comes goes over the place that is `n` bytes ahead. -/
def Whole : ℕ → List Arrival → Prop
  | _, [] | _, .failed _ :: _ => True
  | n, .data bytes _ :: arrivals => (n = 0 ∨ bytes.length ≤ n) ∧ Whole (n - bytes.length) arrivals

/-- `Comes`, in pieces of which none goes over the place `bound`. -/
def CutComes (stream : Bytes) (bound : ℕ) (got : Bytes) (arrivals : List Arrival) : Prop :=
  Comes stream got arrivals ∧ Whole (bound - got.length) arrivals

/-- Arrivals come in order, and none crosses the cut. -/
theorem streams_cutComes (stream : Bytes) (bound : ℕ) : Streams (CutComes stream bound) := by
  rintro got data atMs arrivals ⟨hcomes, -, hwhole⟩
  refine ⟨streams_comes stream got data atMs arrivals hcomes, ?_⟩
  rwa [List.length_append, ← Nat.sub_sub]

/-- What does not begin with all of the front is shorter than that. -/
theorem Comes.short {stream front behind got : Bytes} {arrivals : List Arrival}
    (h : Comes stream got arrivals) (hstream : stream <+: front ++ behind)
    (hpart : ¬ front <+: got) : got.length < front.length := by
  by_contra hlong
  apply hpart
  have hgot : got <+: front ++ behind := List.IsPrefix.trans ⟨received arrivals, h⟩ hstream
  exact List.prefix_of_prefix_length_le (List.prefix_append _ _) hgot (by omega)

/-- A piece that begins before the bound ends there at the latest. -/
theorem CutComes.taken {stream front behind got data : Bytes} {atMs : ℕ} {arrivals : List Arrival}
    (h : CutComes stream front.length got (.data data atMs :: arrivals))
    (hstream : stream <+: front ++ behind) (hgot : got.length < front.length) :
    got ++ data <+: front := by
  obtain ⟨hcomes, hpiece, -⟩ := h
  apply List.prefix_of_prefix_length_le (hcomes.taken.trans hstream) (List.prefix_append _ _)
  rw [List.length_append]
  omega

/-- The STOP CONNECT was read in part. -/
def stopWaiting (got : Bytes) : StopResponder := ⟨[], got, .awaitingConnect, none, false, []⟩

/-- The STOP CONNECT was read. -/
def stopDecided (request : StopConnectRequest) (bridge : Bytes) : StopResponder :=
  ⟨[], bridge, .awaitingDecision, some request, true, []⟩

/-- The circuit was accepted. -/
def stopAccepted (request : StopConnectRequest) (bridge : Bytes) : StopResponder :=
  ⟨[], [], .bridged, some request, true, bridge⟩

/-- The listener answers the relay when it accepts. -/
theorem exec_stopAcceptFlush (request : StopConnectRequest) (bridge : Bytes) (circuit : Circuit) :
    exec (stopAcceptFlush (stopDecided request bridge)) circuit =
      some (.ok (stopAccepted request bridge, Setup.stopAnswer), circuit) := by
  have hinput : StopResponder.handleInput (stopDecided request bridge) .accept =
      .ok (⟨Setup.stopAnswer, [], .bridged, some request, true, bridge⟩, .ok ()) := rfl
  unfold stopAcceptFlush
  rw [exec_bind_of_ok (exec_feed _ _ hinput circuit)]
  rfl

/-- What is kept for the bridge is what came behind the request. -/
theorem stopBridgeBytes_eq (request : StopConnectRequest) (bridge : Bytes) :
    stopBridgeBytes (stopAccepted request bridge) = bridge := by
  cases bridge with
  | nil => rfl
  | cons byte bridge => rfl

variable [MultihashCodec] {setup : Setup} {stream : Bytes}

/-- The request that the flow hands out. -/
def Setup.stopConnect (setup : Setup) : StopConnectRequest :=
  ⟨setup.dialerId.toBytes, setup.request.limit⟩

/-- The request of the relay is read whatever the pieces. -/
theorem Setup.Sound.stop_reads (h : setup.Sound)
    (hstream : stream <+: (setup.stopRequest ++ setup.offer) ++ syncFrame) :
    Reads (CutComes stream (setup.stopRequest ++ setup.offer).length)
      (fun flow got => flow = stopWaiting got ∧ ¬ setup.stopRequest <+: got)
      (fun flow request got => ∃ bridge, got = setup.stopRequest ++ bridge ∧
        bridge <+: setup.offer ∧ request = setup.stopConnect ∧
          flow = stopDecided setup.stopConnect bridge)
      stopFeed := by
  rintro flow got data atMs arrivals ⟨rfl, hpart⟩ hcomes circuit
  have hfits := h.request_fits
  unfold relayFrameLimit at hfits
  have hoffer : setup.offer.length ≤ 4096 := h.offerable.fits
  have hbehind : stream <+: setup.stopRequest ++ (setup.offer ++ syncFrame) := by
    rwa [← List.append_assoc]
  have hbelow := hcomes.1.short hbehind hpart
  have hgot := hcomes.taken hstream (by rw [List.length_append]; omega)
  rcases prefix_cases hgot with ⟨rest, hrest, hframe⟩ | ⟨more, hmore, hle⟩
  · have hreceive : Relay.receiveStop (got ++ data) = .ok .incomplete :=
      Wire.receive_part_encodeFrame Relay.maxMessageSize_lt hframe hrest
        (by unfold Relay.maxMessageSize; exact Nat.le_trans hfits (by decide))
    have hinput : StopResponder.handleInput (stopWaiting got) (.data data) =
        .ok (stopWaiting (got ++ data), .ok ()) := by
      show (Relay.receiveStop (got ++ data) >>= _) = _
      rw [hreceive]
      rfl
    refine ⟨_, _, exec_feed _ _ hinput circuit, fun _ => ⟨rfl, not_prefix_of_part hrest hframe⟩, ?_⟩
    rintro _ ⟨⟩
  · have hreceive : Relay.receiveStop (got ++ data) = .ok (.message setup.request more) := by
      rw [hmore]
      refine Wire.receive_encodeFrame Relay.maxMessageSize_lt
        (fun hlen => StopMessage.decode_encode hlen) ?_
      have hlen := hle.length_le
      have hboth : (setup.stopRequest ++ more).length ≤ 8192 := by
        rw [List.length_append]
        omega
      exact hboth
    obtain ⟨addrs, hpeer⟩ := h.request_peer
    have hinput : StopResponder.handleInput (stopWaiting got) (.data data) =
        .ok (⟨[], more, .awaitingDecision, some setup.stopConnect, false, []⟩, .ok ()) := by
      show (Relay.receiveStop (got ++ data) >>= _) = _
      rw [hreceive]
      show (if setup.request.kind ≠ .connect then _ else _) = _
      rw [if_neg (not_not.mpr h.request_kind), hpeer]
      rfl
    refine ⟨_, _, exec_feed _ _ hinput circuit, by rintro ⟨⟩, ?_⟩
    rintro _ ⟨⟩
    exact ⟨more, hmore, hle, rfl, rfl⟩

/-- Step 4 ends with the dialer's peer id and the bytes behind the STOP CONNECT, or before that has
come. -/
theorem Setup.Sound.ends_acceptCircuit (h : setup.Sound) (hcodec : MultihashCodec.Exact)
    (hstream : stream <+: (setup.stopRequest ++ setup.offer) ++ syncFrame) :
    Ends (fun c => CutComes stream (setup.stopRequest ++ setup.offer).length [] c.arrivals ∧
        c.outgoing = ⟨setup.listenerRefusal, 0, []⟩)
      (acceptCircuit setup.listenerStream)
      (fun p c => setup.listenerRefusal 0 = none ∧ (p.1 = setup.dialerId ∧
        p.2 <+: setup.offer ∧ CutComes stream (setup.stopRequest ++ setup.offer).length
          (setup.stopRequest ++ p.2) c.arrivals ∧
        c.outgoing = ⟨setup.listenerRefusal, 1, Setup.stopAnswer⟩))
      (fun e c => Hindered setup.listenerStream setup.listenerRefusal e ∧
        (setup.stopRequest <+: stream → (setup.listenerRefusal 0).isSome) ∧
          c.outgoing.sent = []) := by
  unfold acceptCircuit
  apply Ends.bind
  · apply (ends_awaitOutcome (streams_cutComes stream _) (h.stop_reads hstream)
      StopResponder.new).mono
    · rintro c ⟨hcomes, houtgoing⟩
      have hnil : ¬ setup.stopRequest <+: [] := by
        rw [List.prefix_nil]
        exact Wire.encodeFrame_ne_nil _
      exact ⟨⟨[], ⟨rfl, hnil⟩, hcomes⟩, houtgoing⟩
    · exact fun _ _ hc => hc
    · rintro e c ⟨⟨flow, got, arrivals, ⟨-, hpart⟩, ⟨hcomes, -⟩, hnothing⟩, he, houtgoing⟩
      rw [hcomes.all hnothing] at hpart
      exact ⟨he, fun hall => absurd hall hpart, by rw [houtgoing]⟩
  rintro ⟨flow, request⟩ c ⟨⟨got, ⟨bridge, rfl, hbridge, rfl, rfl⟩, hcomes⟩, houtgoing⟩
  dsimp only
  have hid : PeerId.fromBytes setup.stopConnect.sourcePeerId = .ok setup.dialerId :=
    PeerId.fromBytes_toBytes hcodec h.dialer_valid
  rw [hid]
  have hstop : setup.stopRequest <+: stream := by
    obtain ⟨hall, -⟩ := hcomes
    unfold Comes at hall
    rw [List.append_assoc] at hall
    exact ⟨_, hall⟩
  refine Ends.bind_of_exec (P := fun c =>
    CutComes stream (setup.stopRequest ++ setup.offer).length (setup.stopRequest ++ bridge)
      c.arrivals ∧ c.outgoing = ⟨setup.listenerRefusal, 0, []⟩)
    (fun c _ => exec_stopAcceptFlush setup.stopConnect bridge c) ?_ c ⟨hcomes, houtgoing⟩
  apply Ends.bind
  · have hne : Setup.stopAnswer ≠ [] := Wire.encodeFrame_ne_nil _
    apply (ends_send setup.listenerStream (J := CutComes stream
      (setup.stopRequest ++ setup.offer).length (setup.stopRequest ++ bridge)) hne).mono
      (fun _ hc => hc) (fun _ _ hc => hc)
    rintro e c ⟨-, hsome, he, hsent⟩
    exact ⟨he, fun _ => hsome, by rw [hsent]⟩
  · intro _
    apply Ends.pure
    rintro c ⟨hcut, hnone, hsent⟩
    dsimp only
    rw [stopBridgeBytes_eq]
    exact ⟨hnone, rfl, hbridge, hcut, hsent⟩

/-! ## The DCUtR responder -/

section

variable {own addrs : List Multiaddr} {fuel : ℕ} {flow flow' : DcutrResponder}
  {captured : Option (List Multiaddr)} {outbound bytes : Bytes}

/-- Bytes that are polled are collected in order. -/
theorem drainGo_outbound (h : flow.pollOutput = (flow', some (.outbound bytes))) :
    drainGo (fuel + 1) flow captured outbound =
      drainGo fuel flow' captured (outbound ++ bytes) := by
  have hpoll : pollOutput flow = (flow', some (.outbound bytes)) := h
  rw [drainGo, hpoll]

/-- A responder that has nothing to hand out. -/
theorem exec_drain_listening (own : List Multiaddr) (got : Bytes)
    (captured : Option (List Multiaddr)) (circuit : Circuit) :
    exec (drainDcutrResponderOutputs (.listening own got) captured) circuit =
      some (.ok (.listening own got, captured, []), circuit) := rfl

/-- The reply is drained, and the addresses of the CONNECT are kept. -/
theorem exec_drain_reply (own addrs : List Multiaddr) (circuit : Circuit) :
    exec (drainDcutrResponderOutputs
        (.answering own (connectFrame own) [] .awaitingSync [connectEvent addrs]) none) circuit =
      some (.ok (.answering own [] [] .awaitingSync [], some addrs, connectFrame own),
        circuit) := by
  show exec (drainGo 3 _ none []) circuit = _
  rw [drainGo_outbound (DcutrResponder.pollOutput_reply own [] .awaitingSync [connectEvent addrs])]
  rfl

end

/-- Where the responder stands while it waits: the offer or SYNC has come in part. -/
def Responding (setup : Setup) (stream : Bytes)
    (standing : DcutrResponder × Option (List Multiaddr)) (c : Circuit) : Prop :=
  (∃ got, standing = (.listening setup.listenerAddrs got, none) ∧ ¬ setup.offer <+: got ∧
      CutComes stream setup.offer.length got c.arrivals ∧
      c.outgoing = ⟨setup.listenerRefusal, 1, Setup.stopAnswer⟩) ∨
    ∃ got,
      standing = (.answering setup.listenerAddrs [] got .awaitingSync [], some setup.dialerAddrs) ∧
      ¬ syncFrame <+: got ∧ Comes stream (setup.offer ++ got) c.arrivals ∧
      setup.listenerRefusal 1 = none ∧
      c.outgoing = ⟨setup.listenerRefusal, 2, Setup.stopAnswer ++ setup.reply⟩

/-- How the responder may fail. -/
def Unanswered (setup : Setup) (stream : Bytes) (e : String) (c : Circuit) : Prop :=
  Hindered setup.listenerStream setup.listenerRefusal e ∧
    ((setup.offer <+: stream → (setup.listenerRefusal 1).isSome) ∧
        c.outgoing.sent = Setup.stopAnswer ∨
      setup.offer <+: stream ∧ setup.listenerRefusal 1 = none ∧ stream ≠ setup.offer ++ syncFrame ∧
        c.outgoing.sent = Setup.stopAnswer ++ setup.reply)

/-- How the responder ends. -/
def Punched (setup : Setup) (stream : Bytes) (addrs : List Multiaddr) (c : Circuit) : Prop :=
  addrs = setup.dialerAddrs ∧ setup.listenerRefusal 1 = none ∧ stream = setup.offer ++ syncFrame ∧
    c.outgoing.sent = Setup.stopAnswer ++ setup.reply

/-- The responder that was fed a part of the offer, or all of it. -/
def FedOffer (setup : Setup) (flow : DcutrResponder) (got : Bytes) : Prop :=
  flow = .listening setup.listenerAddrs got ∧ ¬ setup.offer <+: got ∨
    flow = .answering setup.listenerAddrs setup.reply [] .awaitingSync
      [connectEvent setup.dialerAddrs] ∧ got = setup.offer

/-- A piece of the offer, up to its end. -/
theorem Setup.Sound.exec_feedOffer (h : setup.Sound) (hcodec : MultihashCodec.Exact)
    {got data : Bytes} (hgot : got ++ data <+: setup.offer) (circuit : Circuit) :
    ∃ flow, exec (dcutrResponderFeed (.listening setup.listenerAddrs got) data) circuit =
      some (.ok flow, circuit) ∧ FedOffer setup flow (got ++ data) := by
  rcases hgot with ⟨rest, hrest⟩
  cases rest with
  | nil =>
    rw [List.append_nil] at hrest
    have hinput : (DcutrResponder.listening setup.listenerAddrs got).handleInput (.data data) = _ :=
      DcutrResponder.handleInput_connect hcodec h.offerable hrest
    exact ⟨_, exec_give _ hinput circuit, .inr ⟨rfl, hrest⟩⟩
  | cons byte rest =>
    have hinput : (DcutrResponder.listening setup.listenerAddrs got).handleInput (.data data) = _ :=
      DcutrResponder.handleInput_part h.offerable hrest (List.cons_ne_nil byte rest)
    exact ⟨_, exec_give _ hinput circuit,
      .inl ⟨rfl, not_prefix_of_part (List.cons_ne_nil byte rest) hrest⟩⟩

/-- After it was fed from the offer, the responder is drained and its reply sent. -/
theorem Setup.ends_afterOffer {γ : Type} {flow : DcutrResponder} {got : Bytes}
    {J : List Arrival → Prop} {R : γ → Circuit → Prop} (hflow : FedOffer setup flow got)
    (k : DcutrResponder × Option (List Multiaddr) → Script γ)
    (hk : ∀ p, Ends (fun c => Responding setup stream p c ∧ J c.arrivals) (k p) R
      (Unanswered setup stream)) :
    Ends (fun c => (CutComes stream setup.offer.length got c.arrivals ∧ J c.arrivals) ∧
        c.outgoing = ⟨setup.listenerRefusal, 1, Setup.stopAnswer⟩)
      (drainDcutrResponderOutputs flow none >>= fun r => send r.2.2 >>= fun _ => k (r.1, r.2.1)) R
      (Unanswered setup stream) := by
  rcases hflow with ⟨rfl, hpart⟩ | ⟨rfl, rfl⟩
  · apply Ends.bind_of_exec fun c _ => exec_drain_listening setup.listenerAddrs got none c
    apply Ends.bind_of_exec fun c _ => exec_send_nil c
    apply (hk _).mono _ (fun _ _ hc => hc) (fun _ _ hc => hc)
    rintro c ⟨⟨hcomes, hJ⟩, houtgoing⟩
    exact ⟨.inl ⟨got, rfl, hpart, hcomes, houtgoing⟩, hJ⟩
  · apply Ends.bind_of_exec fun c _ => exec_drain_reply setup.listenerAddrs setup.dialerAddrs c
    apply Ends.bind
    · apply (ends_send setup.listenerStream (J := fun a =>
        CutComes stream setup.offer.length setup.offer a ∧ J a)
        (Dcutr.connectFrame_ne_nil setup.listenerAddrs)).mono (fun _ hc => hc) (fun _ _ hc => hc)
      rintro e c ⟨-, hsome, he, hsent⟩
      exact ⟨he, .inl ⟨fun _ => hsome, by rw [hsent]⟩⟩
    · intro _
      apply (hk _).mono _ (fun _ _ hc => hc) (fun _ _ hc => hc)
      rintro c ⟨⟨⟨hcomes, -⟩, hJ⟩, hnone, houtgoing⟩
      refine ⟨.inr ⟨[], rfl, ?_, ?_, hnone, houtgoing⟩, hJ⟩
      · rw [List.prefix_nil]
        exact syncFrame_ne_nil
      · rwa [List.append_nil]

/-- A responder that waits for more is not done. -/
theorem isDone_of_responding {standing : DcutrResponder × Option (List Multiaddr)} {c : Circuit}
    (h : Responding setup stream standing c) : standing.1.isDone = false := by
  rcases h with ⟨got, rfl, -⟩ | ⟨got, rfl, -⟩
  · rfl
  · rfl

/-- A responder that waits lacks something of what it waits for, if nothing more comes. -/
theorem Responding.unanswered {standing : DcutrResponder × Option (List Multiaddr)} {c : Circuit}
    (h : Responding setup stream standing c) (hnothing : received c.arrivals = []) {e : String}
    (he : Hindered setup.listenerStream setup.listenerRefusal e) (arrivals : List Arrival)
    (nowMs : ℕ) : Unanswered setup stream e ⟨arrivals, nowMs, c.outgoing⟩ := by
  rcases h with ⟨got, -, hpart, ⟨hcomes, -⟩, houtgoing⟩ | ⟨got, -, hpart, hcomes, h₁, houtgoing⟩
  · rw [hcomes.all hnothing] at hpart
    exact ⟨he, .inl ⟨fun hall => absurd hall hpart, by rw [houtgoing]⟩⟩
  · obtain rfl := hcomes.all hnothing
    refine ⟨he, .inr ⟨List.prefix_append _ _, h₁, ?_, by rw [houtgoing]⟩⟩
    intro hall
    rw [List.append_cancel_left hall] at hpart
    exact hpart List.prefix_rfl

section

variable {userStream : StreamId} {flow flow' : DcutrResponder}
  {captured : Option (List Multiaddr)}

/-- A turn that has nothing to read. -/
theorem exec_respondTurn_error {standing : DcutrResponder × Option (List Multiaddr)}
    {e : String} {c c' : Circuit} (hdone : standing.1.isDone = false)
    (hwait : exec (waitUserStreamData userStream) c = some (.error e, c')) :
    exec (respondTurn userStream standing) c = some (.error e, c') := by
  unfold respondTurn
  rw [if_neg (by rw [hdone]; decide)]
  exact exec_bind_of_error hwait _

/-- A turn that has something to read feeds it to the responder, which is drained then. -/
theorem exec_respondTurn {data : Bytes} {atMs nowMs : ℕ} {arrivals : List Arrival}
    {outgoing : Outgoing} (hdone : flow.isDone = false)
    (hfeed : exec (dcutrResponderFeed flow data) ⟨arrivals, atMs, outgoing⟩ =
      some (.ok flow', ⟨arrivals, atMs, outgoing⟩)) :
    exec (respondTurn userStream (flow, captured)) ⟨.data data atMs :: arrivals, nowMs, outgoing⟩ =
      exec (drainDcutrResponderOutputs flow' captured >>= fun r => send r.2.2 >>= fun _ =>
        if r.1.isDone then pure (.inr (r.2.1.getD [])) else pure (.inl (r.1, r.2.1)))
        ⟨arrivals, atMs, outgoing⟩ := by
  have hwait := exec_waitUserStreamData userStream ⟨.data data atMs :: arrivals, nowMs, outgoing⟩
  unfold respondTurn
  rw [if_neg (by rw [hdone]; decide), exec_bind_of_ok hwait, exec_bind_of_ok hfeed]

end

/-- While the offer is awaited, a turn reads more of it, and answers it when it is complete. -/
theorem Setup.Sound.ends_respondTurn_offer (h : setup.Sound) (hcodec : MultihashCodec.Exact)
    (hstream : stream <+: setup.offer ++ syncFrame) {got data : Bytes} {atMs : ℕ}
    {arrivals : List Arrival} (hpart : ¬ setup.offer <+: got)
    (hcomes : CutComes stream setup.offer.length got (.data data atMs :: arrivals)) (nowMs : ℕ) :
    Ends (fun c => c = ⟨.data data atMs :: arrivals, nowMs,
        ⟨setup.listenerRefusal, 1, Setup.stopAnswer⟩⟩)
      (respondTurn setup.listenerStream (.listening setup.listenerAddrs got, none))
      (fun r c => ∃ next, r = .inl next ∧
        Responding setup stream next c ∧ c.arrivals.length < arrivals.length + 1)
      (Unanswered setup stream) := by
  rintro _ rfl
  have hbelow := hcomes.1.short hstream hpart
  obtain ⟨flow, hfeed, hflow⟩ := h.exec_feedOffer hcodec (hcomes.taken hstream hbelow)
    ⟨arrivals, atMs, ⟨setup.listenerRefusal, 1, Setup.stopAnswer⟩⟩
  have hdone : (DcutrResponder.listening setup.listenerAddrs got).isDone = false := rfl
  rw [exec_respondTurn hdone hfeed]
  have hnext := streams_cutComes _ _ _ _ _ _ hcomes
  refine Setup.ends_afterOffer (J := fun a => a.length < arrivals.length + 1) hflow
    (fun p => if p.1.isDone then pure (Sum.inr (p.2.getD [])) else pure (Sum.inl p)) ?_
    ⟨arrivals, atMs, _⟩ ⟨⟨hnext, Nat.lt_succ_self _⟩, rfl⟩
  rintro p c ⟨hp, hsize⟩
  rw [if_neg (by rw [isDone_of_responding hp]; decide)]
  exact .inl ⟨_, _, rfl, p, rfl, hp, hsize⟩

/-- While SYNC is awaited, a turn reads more of it, and breaks when it is complete. -/
theorem exec_respondTurn_sync (setup : Setup) {got data : Bytes} (hgot : got ++ data <+: syncFrame)
    (atMs nowMs : ℕ) (arrivals : List Arrival) (outgoing : Outgoing) :
    ∃ r, exec (respondTurn setup.listenerStream
        (.answering setup.listenerAddrs [] got .awaitingSync [], some setup.dialerAddrs))
        ⟨.data data atMs :: arrivals, nowMs, outgoing⟩ =
          some (.ok r, ⟨arrivals, atMs, outgoing⟩) ∧
      (∀ next, r = .inl next →
        next = (.answering setup.listenerAddrs [] (got ++ data) .awaitingSync [],
          some setup.dialerAddrs) ∧ ¬ syncFrame <+: got ++ data) ∧
      ∀ addrs, r = .inr addrs → addrs = setup.dialerAddrs ∧ got ++ data = syncFrame := by
  have hdone : (DcutrResponder.answering setup.listenerAddrs [] got .awaitingSync []).isDone =
      false := rfl
  obtain ⟨rest, hframe⟩ := hgot
  cases rest with
  | nil =>
    rw [List.append_nil] at hframe
    have hinput : (DcutrResponder.answering setup.listenerAddrs [] got .awaitingSync
        []).handleInput (.data data) = _ := DcutrResponder.handleInput_sync hframe
    have hfeed : exec (dcutrResponderFeed (.answering setup.listenerAddrs [] got .awaitingSync
        []) data) ⟨arrivals, atMs, outgoing⟩ = _ := exec_give _ hinput _
    refine ⟨.inr setup.dialerAddrs, (exec_respondTurn hdone hfeed).trans rfl, by rintro _ ⟨⟩, ?_⟩
    rintro _ ⟨⟩
    exact ⟨rfl, hframe⟩
  | cons byte rest =>
    have hinput : (DcutrResponder.answering setup.listenerAddrs [] got .awaitingSync
        []).handleInput (.data data) = _ :=
      DcutrResponder.handleInput_syncPart hframe (List.cons_ne_nil byte rest)
    have hfeed : exec (dcutrResponderFeed (.answering setup.listenerAddrs [] got .awaitingSync
        []) data) ⟨arrivals, atMs, outgoing⟩ = _ := exec_give _ hinput _
    refine ⟨.inl (.answering setup.listenerAddrs [] (got ++ data) .awaitingSync [],
      some setup.dialerAddrs), (exec_respondTurn hdone hfeed).trans rfl, ?_, by rintro _ ⟨⟩⟩
    rintro _ ⟨⟩
    exact ⟨rfl, not_prefix_of_part (List.cons_ne_nil byte rest) hframe⟩

/-- A turn goes on, breaks when SYNC has come, or has nothing to read. -/
theorem Setup.Sound.ends_respondTurn (h : setup.Sound) (hcodec : MultihashCodec.Exact)
    (hstream : stream <+: setup.offer ++ syncFrame)
    (standing : DcutrResponder × Option (List Multiaddr)) (n : ℕ) :
    Ends (fun c => Responding setup stream standing c ∧ c.arrivals.length = n)
      (respondTurn setup.listenerStream standing)
      (fun r c => (∀ next, r = .inl next →
          Responding setup stream next c ∧ c.arrivals.length < n) ∧
        ∀ addrs, r = .inr addrs → Punched setup stream addrs c)
      (Unanswered setup stream) := by
  rintro ⟨arrivals, nowMs, outgoing⟩ ⟨hat, rfl⟩
  have hdone := isDone_of_responding hat
  have hwait := exec_waitUserStreamData setup.listenerStream ⟨arrivals, nowMs, outgoing⟩
  cases arrivals with
  | nil =>
    exact .inr ⟨_, _, exec_respondTurn_error hdone hwait, hat.unanswered rfl .deadline _ _⟩
  | cons arrival arrivals =>
    cases arrival with
    | failed error =>
      exact .inr ⟨_, _, exec_respondTurn_error hdone hwait, hat.unanswered rfl (.poll error) _ _⟩
    | data data atMs =>
      rcases hat with ⟨got, rfl, hpart, hcomes, houtgoing⟩ |
        ⟨got, rfl, hpart, hcomes, h₁, houtgoing⟩
      · refine (h.ends_respondTurn_offer hcodec hstream hpart hcomes nowMs).mono (fun _ hc => hc)
          ?_ (fun _ _ hc => hc) _ (by rw [show outgoing = _ from houtgoing])
        rintro _ c ⟨next, rfl, hnext⟩
        refine ⟨?_, by rintro _ ⟨⟩⟩
        rintro _ ⟨⟩
        exact hnext
      · have hnext := streams_comes _ _ _ _ _ hcomes
        unfold Comes at hnext
        rw [List.append_assoc, List.append_assoc] at hnext
        have hrest : (got ++ data) ++ received arrivals <+: syncFrame := by
          rw [← hnext] at hstream
          rw [List.append_assoc]
          exact (List.prefix_append_right_inj _).mp hstream
        obtain ⟨r, hturn, hgoes, hbreaks⟩ := exec_respondTurn_sync setup
          ((List.prefix_append _ _).trans hrest) atMs nowMs arrivals outgoing
        refine .inl ⟨r, _, hturn, ?_, ?_⟩
        · intro next hr
          obtain ⟨rfl, hpart'⟩ := hgoes next hr
          refine ⟨.inr ⟨got ++ data, rfl, hpart', ?_, h₁, houtgoing⟩, Nat.lt_succ_self _⟩
          unfold Comes
          rw [← hnext, List.append_assoc, List.append_assoc]
        · intro addrs hr
          obtain ⟨rfl, hframe⟩ := hbreaks addrs hr
          refine ⟨rfl, h₁, ?_, by rw [show outgoing = _ from houtgoing]⟩
          -- SYNC is the last of the stream
          have hnothing : received arrivals = [] := by
            rw [hframe] at hrest
            have hlen := hrest.length_le
            rw [List.length_append] at hlen
            exact List.length_eq_zero_iff.mp (by omega)
          rw [← hnext, hnothing, List.append_nil, hframe]

/-- The responder is fed what came behind the STOP CONNECT, if anything did. -/
theorem Setup.Sound.ends_respondPipelined (h : setup.Sound) (hcodec : MultihashCodec.Exact)
    {bridge : Bytes} (hbridge : bridge <+: setup.offer) {P : Circuit → Prop}
    {E : String → Circuit → Prop} :
    Ends P (respondPipelined (.new setup.listenerAddrs) bridge)
      (fun flow c => FedOffer setup flow bridge ∧ P c) E := by
  intro c hc
  left
  unfold respondPipelined
  by_cases hempty : bridge.isEmpty
  · rw [List.isEmpty_iff] at hempty
    subst hempty
    refine ⟨.listening setup.listenerAddrs [], c, rfl, .inl ⟨rfl, ?_⟩, hc⟩
    rw [List.prefix_nil]
    exact Dcutr.connectFrame_ne_nil setup.dialerAddrs
  · rw [if_neg hempty]
    have hgot : [] ++ bridge <+: setup.offer := hbridge
    obtain ⟨flow, hfeed, hflow⟩ := h.exec_feedOffer hcodec hgot c
    exact ⟨flow, c, hfeed, hflow, hc⟩

/-- Step 5 ends with the dialer's addresses, or before SYNC has come. -/
theorem Setup.Sound.ends_respondDcutr (h : setup.Sound) (hcodec : MultihashCodec.Exact)
    (hstream : stream <+: setup.offer ++ syncFrame) {bridge : Bytes}
    (hbridge : bridge <+: setup.offer) :
    Ends (fun c => CutComes stream setup.offer.length bridge c.arrivals ∧
        c.outgoing = ⟨setup.listenerRefusal, 1, Setup.stopAnswer⟩)
      (respondDcutr setup.listenerAddrs setup.listenerStream bridge)
      (fun addrs c => Punched setup stream addrs c) (Unanswered setup stream) := by
  unfold respondDcutr
  apply Ends.bind (Q := fun flow c => FedOffer setup flow bridge ∧
    ((CutComes stream setup.offer.length bridge c.arrivals ∧ True) ∧
      c.outgoing = ⟨setup.listenerRefusal, 1, Setup.stopAnswer⟩))
  · apply (h.ends_respondPipelined hcodec hbridge).mono _ (fun _ _ hc => hc) (fun _ _ hc => hc)
    rintro c ⟨hcomes, houtgoing⟩
    exact ⟨⟨hcomes, trivial⟩, houtgoing⟩
  intro flow
  apply Ends.of_fact
  intro hflow
  refine Setup.ends_afterOffer (J := fun _ => True) hflow (fun p => do
    let circuit ← get
    iterate (respondTurn setup.listenerStream) (circuit.arrivals.length + 1) p) ?_
  intro p
  apply Ends.get_bind
  rintro c ⟨hp, -⟩
  apply (Ends.iterate (h.ends_respondTurn hcodec hstream) (c.arrivals.length + 1) p).mono
  · rintro _ rfl
    exact ⟨hp, Nat.lt_succ_self _⟩
  · exact fun _ _ hc => hc
  · exact fun _ _ hc => hc

/-! ## The listener -/

/-- What the listener has returned and sent when some of its stream has come. -/
inductive Listened (setup : Setup) (stream : Bytes) :
    Except String (PeerId × List Multiaddr) → Bytes → Prop
  | waiting {e : String}
    (hrequest : setup.stopRequest <+: stream → (setup.listenerRefusal 0).isSome)
    (he : Hindered setup.listenerStream setup.listenerRefusal e) :
    Listened setup stream (.error e) []
  | accepted {e : String} (h₀ : setup.listenerRefusal 0 = none)
    (hrequest : setup.stopRequest <+: stream)
    (hoffer : setup.stopRequest ++ setup.offer <+: stream → (setup.listenerRefusal 1).isSome)
    (he : Hindered setup.listenerStream setup.listenerRefusal e) :
    Listened setup stream (.error e) Setup.stopAnswer
  | replied {e : String} (h₀ : setup.listenerRefusal 0 = none) (h₁ : setup.listenerRefusal 1 = none)
    (hoffer : setup.stopRequest ++ setup.offer <+: stream)
    (hsync : stream ≠ setup.stopRequest ++ setup.offer ++ syncFrame)
    (he : Hindered setup.listenerStream setup.listenerRefusal e) :
    Listened setup stream (.error e) (Setup.stopAnswer ++ setup.reply)
  | done (h₀ : setup.listenerRefusal 0 = none) (h₁ : setup.listenerRefusal 1 = none)
    (hsync : stream = setup.stopRequest ++ setup.offer ++ syncFrame) :
    Listened setup stream (.ok (setup.dialerId, setup.dialerAddrs))
      (Setup.stopAnswer ++ setup.reply)

/-- Steps 4 and 5 of the listener end, however much of its stream has come. -/
theorem Setup.Sound.ends_runListen (h : setup.Sound) (hcodec : MultihashCodec.Exact)
    (hstream : stream <+: (setup.stopRequest ++ setup.offer) ++ syncFrame) :
    Ends (fun c => CutComes stream (setup.stopRequest ++ setup.offer).length [] c.arrivals ∧
        c.outgoing = ⟨setup.listenerRefusal, 0, []⟩)
      (runListen setup.listenerAddrs setup.listenerStream)
      (fun p c => Listened setup stream (.ok p) c.outgoing.sent)
      (fun e c => Listened setup stream (.error e) c.outgoing.sent) := by
  unfold runListen
  apply Ends.bind
  · apply (h.ends_acceptCircuit hcodec hstream).mono (fun _ hc => hc) (fun _ _ hc => hc)
    rintro e c ⟨he, hrequest, hsent⟩
    rw [hsent]
    exact .waiting hrequest he
  rintro ⟨remotePeerId, bridge⟩ c ⟨h₀, rfl, hbridge, ⟨hcomes, hwhole⟩, houtgoing⟩
  dsimp only at hbridge hcomes hwhole
  -- behind the STOP CONNECT come the offer and SYNC, or a part of them
  obtain ⟨rest, hsplit⟩ : ∃ rest, bridge ++ received c.arrivals = rest := ⟨_, rfl⟩
  unfold Comes at hcomes
  rw [List.append_assoc, hsplit] at hcomes
  have hrest : rest <+: setup.offer ++ syncFrame := by
    rw [← hcomes, List.append_assoc] at hstream
    exact (List.prefix_append_right_inj _).mp hstream
  have hcut : CutComes rest setup.offer.length bridge c.arrivals := by
    refine ⟨hsplit, ?_⟩
    rwa [List.length_append, List.length_append, Nat.add_sub_add_left] at hwhole
  subst hcomes
  refine Ends.bind
    (P := fun c => CutComes rest setup.offer.length bridge c.arrivals ∧
      c.outgoing = ⟨setup.listenerRefusal, 1, Setup.stopAnswer⟩)
    (Q := fun addrs c => Punched setup rest addrs c) ?_ ?_ c ⟨hcut, houtgoing⟩
  · apply (h.ends_respondDcutr hcodec hrest hbridge).mono (fun _ hc => hc) (fun _ _ hc => hc)
    rintro e c ⟨he, ⟨hoffer, hsent⟩ | ⟨hoffer, h₁, hsync, hsent⟩⟩
    · rw [hsent]
      exact .accepted h₀ (List.prefix_append _ _)
        (fun hall => hoffer ((List.prefix_append_right_inj _).mp hall)) he
    · rw [hsent]
      refine .replied h₀ h₁ ((List.prefix_append_right_inj _).mpr hoffer) ?_ he
      rw [List.append_assoc]
      exact fun hall => hsync (List.append_cancel_left hall)
  · intro addrs
    apply Ends.pure
    rintro c ⟨rfl, h₁, hsync, hsent⟩
    rw [hsent]
    refine .done h₀ h₁ ?_
    rw [hsync, List.append_assoc]

end Minip2p.Peer
