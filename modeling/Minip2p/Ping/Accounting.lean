import Minip2p.Lib.Matching
import Minip2p.Ping.WellFormed

/-!
# The fate of a ping

A ping in flight ends with its echo, with a timeout, with a violation of the protocol, or is lost
with its stream or its peer. The first two are reported once for each ping that was sent. A ping
whose stream is closed is lost without a word.
-/

namespace Minip2p.Ping

open SansIoProtocol (Call)
open Runs (EachStep collect Matching)

/-- The event reports how long a ping took, or that it took too long. -/
def PingEvent.isReport : PingEvent → Bool
  | rttMeasured _ _ _ | timeout _ _ _ => true
  | _ => false

/-- What a move does to the ping in flight. -/
inductive PendingMove (timeoutMs : UInt64) (p : PeerId) (state state' : PeerPingState) :
    PingInput → List PingEvent → Prop
  | kept {input : PingInput} {events : List PingEvent}
      (hpending : state'.pendingPing = state.pendingPing)
      (hquiet : events.filter PingEvent.isReport = [])
      (hrefused : ∀ payload nowMs, input = .sendPing p payload nowMs →
        state.outboundStream = none ∨ state.pendingPing.isSome) :
    PendingMove timeoutMs p state state' input events
  | sent {s : StreamId} {payload : Payload} {nowMs : UInt64} (h : state.outboundStream = some s)
      (hfree : state.pendingPing = none) (hpending : state'.pendingPing = some ⟨payload, nowMs⟩) :
    PendingMove timeoutMs p state state' (.sendPing p payload nowMs) []
  | measured {s : StreamId} {data : Bytes} {nowMs : UInt64} {pending : PendingPing}
      (h : state.outboundStream = some s)
      (hbuf : state.received s ++ data = pending.payload.toList)
      (hpending : state.pendingPing = some pending) (hnone : state'.pendingPing = none) :
    PendingMove timeoutMs p state state' (.streamData p s data nowMs)
      [.rttMeasured p s (saturatingSub nowMs pending.sentAtMs)]
  | expired {s : StreamId} {nowMs : UInt64} {pending : PendingPing}
      (h : state.outboundStream = some s) (hpending : state.pendingPing = some pending)
      (hnone : state'.pendingPing = none)
      (helapsed : saturatingSub nowMs pending.sentAtMs > timeoutMs) :
    PendingMove timeoutMs p state state' (.tick nowMs)
      [.timeout p s timeoutMs, .outboundStreamClosed p s]
  | failed {input : PingInput} {s : StreamId} {reason : String} (hnone : state'.pendingPing = none)
      (hinput : ∀ payload nowMs, input ≠ .sendPing p payload nowMs) :
    PendingMove timeoutMs p state state' input [.protocolViolation p s reason]
  | lost {input : PingInput} (hnone : state'.pendingPing = none)
      (hinput : input = .removePeer p ∨
        ∃ s, input = .streamClosed p s ∧ state.outboundStream = some s) :
    PendingMove timeoutMs p state state' input []

/-- What a move does to the ping under way. -/
theorem Move.pendingMove {timeoutMs : UInt64} {p : PeerId} {state state' : PeerPingState}
    {input : PingInput} {events : List PingEvent} {actions : List PingAction}
    (h : Move timeoutMs p state input state' events actions) :
    PendingMove timeoutMs p state state' input events := by
  cases h with
  | other hpeer hne =>
    refine .kept rfl rfl ?_
    rintro payload nowMs rfl
    exact absurd (Option.some.inj hpeer).symm hne
  | refusePing h => exact .kept rfl rfl fun _ _ _ => h
  | sendPing h hfree => exact .sent h hfree rfl
  | mismatch => exact .failed rfl (by simp)
  | rtt h hbuf hpending => exact .measured h hbuf hpending rfl
  | outboundInterrupted => exact .failed rfl (by simp)
  | outboundEnded _ _ hfree => exact .kept hfree.symm rfl (by simp)
  | outboundClosed h => exact .lost rfl (.inr ⟨_, rfl, h⟩)
  | removed => exact .lost rfl (.inl rfl)
  | timedOut h hpending helapsed => exact .expired h hpending rfl helapsed
  | outboundExists | registerOutbound | inboundExists | limitExceeded | registerInbound
  | refuseClose | closeOutbound | unknownStream | oversize | keep | echo | inboundEnded
  | unknownEnded | otherClosed | inTime => exact .kept rfl rfl (by simp)

namespace PingProtocol

variable {ping : PingProtocol} {p : PeerId}

/-- What an input does to the ping under way with a peer. -/
theorem pendingMove (ping : PingProtocol) {input : PingInput} (hinput : ¬ input.IsMigration)
    (p : PeerId) : PendingMove ping.config.requestTimeoutMs p (ping.peerState p)
      ((ping.after (.handleInput input)).peerState p) input
      (ping.newEventsFor p (.handleInput input)) :=
  (ping.move hinput p).pendingMove

/-! ## Lost pings -/

/-- The ping in flight to a peer. -/
def inFlight (ping : PingProtocol) (p : PeerId) : Option PendingPing :=
  ping.peers[p]?.bind (·.pendingPing)

theorem outboundStream_eq (ping : PingProtocol) (p : PeerId) :
    ping.outboundStream p = (ping.peerState p).outboundStream := by
  rw [outboundStream]
  cases hpeer : ping.peers[p]? with
  | none =>
    rw [peerState_of_none hpeer]
    rfl
  | some state =>
    rw [peerState_of_some hpeer]
    rfl

/-- An accepted `SendPing`, with the calls before it. -/
structure Sent where
  before : List (Call PingInput)
  payload : Payload
  nowMs : UInt64

/-- An event that reports a ping, with the call that added it and the calls before that. -/
structure Report where
  before : List (Call PingInput)
  call : Call PingInput
  event : PingEvent

/-- What is in flight after the ping was sent. -/
def Sent.pending (sent : Sent) : PendingPing := ⟨sent.payload, sent.nowMs⟩

/-- The ping to `p` that a call sends, if it is accepted. -/
def sentBy (config : PingConfig) (p : PeerId) (before : List (Call PingInput)) :
    Call PingInput → List Sent
  | .handleInput (.sendPing peerId payload nowMs) =>
    if peerId = p ∧ ((run config before).handleInput (.sendPing peerId payload nowMs)).2 = .ok ()
    then [⟨before, payload, nowMs⟩] else []
  | _ => []

/-- The reports of pings to `p` that a call emits. -/
def reportedBy (config : PingConfig) (p : PeerId) (before : List (Call PingInput))
    (call : Call PingInput) : List Report :=
  (((run config before).newEventsFor p call).filter PingEvent.isReport).map (⟨before, call, ·⟩)

/-- The pings to `p` that a run sends. -/
def sentPings (config : PingConfig) (p : PeerId) (calls : List (Call PingInput)) : List Sent :=
  collect (sentBy config p) [] calls

/-- The reports of pings to `p` that a run emits. -/
def reports (config : PingConfig) (p : PeerId) (calls : List (Call PingInput)) : List Report :=
  collect (reportedBy config p) [] calls

/-- The bytes that a call delivers on a stream of `p`. -/
def bytesBy (p : PeerId) (s : StreamId) : Call PingInput → Bytes
  | .handleInput (.streamData peerId streamId data _) =>
    if peerId = p ∧ streamId = s then data else []
  | _ => []

/-- The bytes that were received on a stream of `p`. -/
def bytesOn (p : PeerId) (s : StreamId) (calls : List (Call PingInput)) : Bytes :=
  calls.flatMap (bytesBy p s)

/-- What the event of a report says of the ping: its payload came back last on the outbound stream,
after that time, or a tick found that it took longer than the limit. -/
def Fate (config : PingConfig) (p : PeerId) (sent : Sent) (before : List (Call PingInput))
    (call : Call PingInput) : PingEvent → Prop
  | .rttMeasured peerId s rttMs =>
    peerId = p ∧ (run config before).outboundStream p = some s ∧
      sent.payload.toList <:+ bytesOn p s (before ++ [call]) ∧
      ∃ data nowMs, call = .handleInput (.streamData p s data nowMs) ∧
        rttMs.toNat = nowMs.toNat - sent.nowMs.toNat
  | .timeout peerId s timeoutMs =>
    peerId = p ∧ (run config before).outboundStream p = some s ∧
      timeoutMs = config.requestTimeoutMs ∧
      ∃ nowMs, call = .handleInput (.tick nowMs) ∧
        sent.nowMs.toNat + config.requestTimeoutMs.toNat < nowMs.toNat
  | _ => False

/-- The report is about the ping, which was sent earlier. -/
structure Accounts (config : PingConfig) (p : PeerId) (sent : Sent) (report : Report) : Prop where
  earlier : sent.before ++ [.handleInput (.sendPing p sent.payload sent.nowMs)] <+: report.before
  fate : Fate config p sent report.before report.call report.event

theorem saturatingSub_toNat (a b : UInt64) : (saturatingSub a b).toNat = a.toNat - b.toNat := by
  rw [saturatingSub]
  split
  · next h =>
    have hlt : a.toNat < b.toNat := UInt64.lt_iff_toNat_lt.mp h
    rw [Nat.sub_eq_zero_of_le (Nat.le_of_lt hlt)]
    rfl
  · next h => exact UInt64.toNat_sub_of_le _ _ (UInt64.not_lt.mp h)

/-- The bytes on a stream, one call later. -/
theorem bytesOn_concat (p : PeerId) (s : StreamId) (calls : List (Call PingInput))
    (call : Call PingInput) :
    bytesOn p s (calls ++ [call]) = bytesOn p s calls ++ bytesBy p s call := by
  rw [bytesOn, List.flatMap_append, List.flatMap_singleton]
  rfl

/-- A ping is taken on an open stream without one under way. -/
theorem handleInput_sendPing_ok_iff (ping : PingProtocol) (p : PeerId) (payload : Payload)
    (nowMs : UInt64) : (ping.handleInput (.sendPing p payload nowMs)).2 = .ok () ↔
      (ping.peerState p).outboundStream ≠ none ∧ (ping.peerState p).pendingPing = none := by
  rw [handleInput, sendPing, dif_pos (Vector.length_toList ..)]
  cases hpeer : ping.peers[p]? with
  | none =>
    rw [peerState_of_none hpeer]
    simp [show (default : PeerPingState).outboundStream = none from rfl]
  | some state =>
    rw [peerState_of_some hpeer]
    dsimp only
    cases hout : state.outboundStream with
    | none => simp
    | some s =>
      cases hpending : state.pendingPing with
      | none => simp
      | some pending => simp

/-- A call that is no ping that was taken sends none. -/
theorem sentBy_eq_nil {config : PingConfig} {before : List (Call PingInput)} {input : PingInput}
    (h : ∀ payload nowMs, input = .sendPing p payload nowMs →
      ((run config before).peerState p).outboundStream = none ∨
        ((run config before).peerState p).pendingPing.isSome) :
    sentBy config p before (.handleInput input) = [] := by
  cases input with
  | sendPing peerId payload nowMs =>
    rw [sentBy, if_neg]
    rintro ⟨rfl, hok⟩
    obtain ⟨hout, hfree⟩ := (handleInput_sendPing_ok_iff _ _ _ _).mp hok
    rcases h payload nowMs rfl with hnone | hbusy
    · exact hout hnone
    · rw [hfree] at hbusy
      cases hbusy
  | _ => rfl

/-- Data on another stream does not count. -/
theorem bytesBy_of_ne {s t : StreamId} {data : Bytes} {nowMs : UInt64} (h : t ≠ s) :
    bytesBy p t (.handleInput (.streamData p s data nowMs)) = [] :=
  if_neg fun heq => h heq.2.symm

/-- What was received of a stream after a move: what was received before and what came now, or
nothing. -/
theorem received_of_move {timeoutMs : UInt64} {state state' : PeerPingState} {input : PingInput}
    {events : List PingEvent} {actions : List PingAction}
    (hmove : Move timeoutMs p state input state' events actions) (h : state.WellFormed)
    (t : StreamId) : state'.received t = [] ∨
      state'.received t = state.received t ++ bytesBy p t (.handleInput input) := by
  -- a buffer that is dropped, by an input that brings nothing for the other streams
  have hdrop : ∀ s, (t ≠ s → bytesBy p t (.handleInput input) = []) →
      (state.drop s).received t = [] ∨
        (state.drop s).received t = state.received t ++ bytesBy p t (.handleInput input) := by
    intro s hbytes
    by_cases ht : t = s
    · rw [ht, PeerPingState.received_drop]
      exact .inl rfl
    · rw [PeerPingState.received_drop_of_ne ht, hbytes ht, List.append_nil]
      exact .inr rfl
  cases hmove with
  | @unknownStream s data nowMs _ hunknown =>
    by_cases ht : t = s
    · rw [ht, h.received_of_unknown hunknown]
      exact .inl rfl
    · rw [bytesBy_of_ne ht, List.append_nil]
      exact .inr rfl
  | @keep s data nowMs =>
    by_cases ht : t = s
    · rw [ht, PeerPingState.received_keep, bytesBy, if_pos ⟨rfl, rfl⟩]
      exact .inr rfl
    · rw [PeerPingState.received_keep_of_ne ht, bytesBy_of_ne ht, List.append_nil]
      exact .inr rfl
  | oversize | mismatch | rtt | echo => exact hdrop _ bytesBy_of_ne
  | inboundEnded | outboundInterrupted | outboundEnded | outboundClosed | otherClosed
  | timedOut => exact hdrop _ fun _ => rfl
  | removed =>
    refine .inl ?_
    rw [PeerPingState.received, show (default : PeerPingState).recvBufs = ∅ from rfl]
    simp
  | other hpeer hne =>
    refine .inr ?_
    cases input with
    | streamData peerId s data nowMs =>
      rw [bytesBy, if_neg, List.append_nil]
      rintro ⟨rfl, -⟩
      exact hne (Option.some.inj hpeer).symm
    | _ => exact (List.append_nil _).symm
  | outboundExists | registerOutbound | inboundExists | limitExceeded | registerInbound
  | refusePing | sendPing | refuseClose | closeOutbound | unknownEnded | inTime =>
    exact .inr (List.append_nil _).symm

/-- What a buffer holds was received last. -/
theorem received_suffix {config : PingConfig} {calls : List (Call PingInput)}
    (h : ∀ input, .handleInput input ∈ calls → ¬ input.IsMigration) (p : PeerId) (s : StreamId) :
    ((run config calls).peerState p).received s <:+ bytesOn p s calls := by
  induction calls using List.reverseRecOn with
  | nil => exact List.suffix_rfl
  | append_singleton calls call ih =>
    have hbefore := ih fun input hinput => h input (List.mem_append_left _ hinput)
    rw [run_concat, bytesOn_concat]
    cases call with
    | pollOutput =>
      rw [peerState_pollOutput, show bytesBy p s .pollOutput = [] from rfl, List.append_nil]
      exact hbefore
    | handleInput input =>
      have hmove := (run config calls).move (h input (by simp)) p
      rcases received_of_move hmove (wellFormed_iff.mp (wellFormed_run config calls) p) s with
        hnil | heq
      · rw [hnil]
        exact List.nil_suffix
      · rw [heq]
        exact List.suffix_append_self_iff.mpr hbefore

/-- A ping was sent before the end of the run. -/
theorem earlier_of_mem {config : PingConfig} {calls : List (Call PingInput)} {sent : Sent}
    (h : sent ∈ sentPings config p calls) :
    sent.before ++ [.handleInput (.sendPing p sent.payload sent.nowMs)] <+: calls := by
  obtain ⟨first, call, rest, rfl, hsent⟩ := Runs.mem_collect h
  refine ⟨rest, ?_⟩
  cases call with
  | pollOutput => cases hsent
  | handleInput input =>
    cases input with
    | sendPing peerId payload nowMs =>
      rw [List.nil_append, sentBy] at hsent
      split at hsent
      · next haccepted =>
        obtain rfl := List.mem_singleton.mp hsent
        rw [haccepted.1, List.append_assoc]
        rfl
      · cases hsent
    | _ => cases hsent

/-- The pings that were reported, each with its report, and the one in flight come in the order in
which they were sent. -/
def Accounted (config : PingConfig) (p : PeerId) (calls : List (Call PingInput)) : Prop :=
  ∃ settled flying, (settled ++ flying).Sublist (sentPings config p calls) ∧
    List.Forall₂ (Accounts config p) settled (reports config p calls) ∧
    flying.map Sent.pending = ((run config calls).peerState p).pendingPing.toList

namespace Accounted

variable {config : PingConfig} {calls : List (Call PingInput)} {call : Call PingInput}

/-- A call that sends and reports nothing keeps the ping in flight, or drops it. -/
theorem quiet (h : Accounted config p calls) (hsent : sentBy config p calls call = [])
    (hreports : reportedBy config p calls call = [])
    (hpending : (((run config calls).after call).peerState p).pendingPing =
        ((run config calls).peerState p).pendingPing ∨
      (((run config calls).after call).peerState p).pendingPing = none) :
    Accounted config p (calls ++ [call]) := by
  obtain ⟨settled, flying, hsub, haccounts, hflying⟩ := h
  rw [Accounted, run_concat, sentPings, reports, Runs.collect_concat, Runs.collect_concat, hsent,
    hreports, List.append_nil, List.append_nil]
  rcases hpending with hkept | hnone
  · exact ⟨settled, flying, hsub, haccounts, by rw [hkept, hflying]⟩
  · refine ⟨settled, [], ?_, haccounts, by rw [hnone]; rfl⟩
    rw [List.append_nil]
    exact (List.sublist_append_left settled flying).trans hsub

/-- A call that reports the ping in flight. -/
theorem settle (h : Accounted config p calls) {pending : PendingPing} {event : PingEvent}
    (hpending : ((run config calls).peerState p).pendingPing = some pending)
    (hsent : sentBy config p calls call = [])
    (hreports : reportedBy config p calls call = [⟨calls, call, event⟩])
    (hnone : (((run config calls).after call).peerState p).pendingPing = none)
    (hfate : ∀ sent, sent.pending = pending → Fate config p sent calls call event) :
    Accounted config p (calls ++ [call]) := by
  obtain ⟨settled, flying, hsub, haccounts, hflying⟩ := h
  rw [hpending, Option.toList_some, List.map_eq_singleton_iff] at hflying
  obtain ⟨sent, rfl, hsent'⟩ := hflying
  rw [Accounted, run_concat, sentPings, reports, Runs.collect_concat, Runs.collect_concat, hsent,
    hreports, List.append_nil]
  refine ⟨settled ++ [sent], [], ?_, ?_, by rw [hnone]; rfl⟩
  · rwa [List.append_nil]
  · refine List.rel_append haccounts (.cons ⟨?_, hfate sent hsent'⟩ .nil)
    exact earlier_of_mem (hsub.mem (List.mem_append_right _ List.mem_cons_self))

/-- The account is kept by every input that renames no peer. -/
theorem step (h : Accounted config p calls) {input : PingInput} (hinput : ¬ input.IsMigration)
    (hsuffix : ∀ s, ((run config calls).peerState p).received s <:+ bytesOn p s calls) :
    Accounted config p (calls ++ [.handleInput input]) := by
  have hmove := (run config calls).pendingMove hinput p
  have hreports : ∀ events, (run config calls).newEventsFor p (.handleInput input) = events →
      reportedBy config p calls (.handleInput input) =
        (events.filter PingEvent.isReport).map (⟨calls, .handleInput input, ·⟩) := by
    rintro events rfl
    rfl
  generalize hevents : (run config calls).newEventsFor p (.handleInput input) = events at hmove
  have hreported := hreports events hevents
  cases hmove with
  | kept hpending hquiet hrefused =>
    rw [hquiet] at hreported
    exact h.quiet (sentBy_eq_nil hrefused) hreported (.inl hpending)
  | failed hnone hinput =>
    exact h.quiet (sentBy_eq_nil fun payload nowMs heq => absurd heq (hinput payload nowMs))
      hreported (.inr hnone)
  | lost hnone hinput =>
    refine h.quiet (sentBy_eq_nil ?_) hreported (.inr hnone)
    rintro payload nowMs rfl
    rcases hinput with heq | ⟨s, heq, -⟩
    · cases heq
    · cases heq
  | @sent s payload nowMs hout hfree hpending =>
    obtain ⟨settled, flying, hsub, haccounts, hflying⟩ := h
    have hsent : sentBy config p calls (.handleInput (.sendPing p payload nowMs)) =
        [⟨calls, payload, nowMs⟩] := by
      refine if_pos ⟨rfl, (handleInput_sendPing_ok_iff _ _ _ _).mpr ⟨?_, hfree⟩⟩
      rw [hout]
      exact Option.some_ne_none s
    rw [hfree] at hflying
    obtain rfl := List.map_eq_nil_iff.mp hflying
    rw [List.append_nil] at hsub
    rw [Accounted, run_concat, sentPings, reports, Runs.collect_concat, Runs.collect_concat, hsent,
      hreported, hpending]
    refine ⟨settled, [⟨calls, payload, nowMs⟩], hsub.append (List.Sublist.refl _), ?_, rfl⟩
    rwa [List.filter_nil, List.map_nil, List.append_nil]
  | @measured s data nowMs pending hout hbuf hpending hnone =>
    refine h.settle hpending rfl hreported hnone ?_
    rintro sent rfl
    refine ⟨rfl, (outboundStream_eq _ _).trans hout, ?_, data, nowMs, rfl, ?_⟩
    · rw [bytesOn_concat, show sent.payload.toList = sent.pending.payload.toList from rfl, ← hbuf,
        bytesBy, if_pos ⟨rfl, rfl⟩]
      exact List.suffix_append_self_iff.mpr (hsuffix s)
    · exact saturatingSub_toNat _ _
  | @expired s nowMs pending hout hpending hnone helapsed =>
    refine h.settle hpending rfl hreported hnone ?_
    rintro sent rfl
    refine ⟨rfl, (outboundStream_eq _ _).trans hout, ?_, nowMs, rfl, ?_⟩
    · rw [config_run]
    · rw [config_run] at helapsed
      have hlt := UInt64.lt_iff_toNat_lt.mp helapsed
      rw [saturatingSub_toNat, show sent.pending.sentAtMs = sent.nowMs from rfl] at hlt
      omega

end Accounted

/-- The account holds after every run that renames no peer. -/
theorem accounted_run (config : PingConfig) {calls : List (Call PingInput)}
    (h : ∀ input, .handleInput input ∈ calls → ¬ input.IsMigration) (p : PeerId) :
    Accounted config p calls := by
  induction calls using List.reverseRecOn with
  | nil => exact ⟨[], [], .slnil, .nil, rfl⟩
  | append_singleton calls call ih =>
    have hbefore : ∀ input, .handleInput input ∈ calls → ¬ input.IsMigration :=
      fun input hinput => h input (List.mem_append_left _ hinput)
    cases call with
    | pollOutput =>
      refine (ih hbefore).quiet rfl ?_ (.inl (by rw [peerState_pollOutput]))
      rw [reportedBy, newEventsFor, newEvents_pollOutput]
      rfl
    | handleInput input => exact (ih hbefore).step (h input (by simp)) (received_suffix hbefore p)

/-- In a run that migrates no peer, the reports of pings to a peer are matched with earlier pings to
it that were accepted, each with its own: a `RttMeasured` with one whose payload came back last on
the outbound stream, after that time, and a `Timeout` with one that took too long at that tick. -/
theorem reports_matched (config : PingConfig) (calls : List (Call PingInput)) (p : PeerId)
    (h : ∀ input, .handleInput input ∈ calls → ¬ input.IsMigration) :
    Matching (Accounts config p) (sentPings config p calls) (reports config p calls) := by
  obtain ⟨settled, flying, hsub, haccounts, -⟩ := accounted_run config h p
  exact Runs.matching_of_sublist ((List.sublist_append_left settled flying).trans hsub) haccounts

/-- A ping that is echoed in two pieces, and one that is not. -/
def twoPings : List (Call PingInput) :=
  [.handleInput (.registerOutboundStream onePeer ⟨0⟩),
    .handleInput (.sendPing onePeer (Vector.replicate 32 7) 100),
    .handleInput (.streamData onePeer ⟨0⟩ (List.replicate 20 7) 110), .pollOutput,
    .handleInput (.streamData onePeer ⟨0⟩ (List.replicate 12 7) 135),
    .handleInput (.sendPing onePeer (Vector.replicate 32 8) 200),
    .handleInput (.tick 10200), .handleInput (.tick 10201)]

theorem reports_matched_two :
    Matching (Accounts default onePeer) (sentPings default onePeer twoPings)
        (reports default onePeer twoPings) ∧
      (reports default onePeer twoPings).map (·.event) =
        [.rttMeasured onePeer ⟨0⟩ 35, .timeout onePeer ⟨0⟩ 10000] := by
  refine ⟨reports_matched default twoPings onePeer ?_, by decide⟩
  intro input hinput hmigration
  cases input with
  | migratePeer old new => simp [twoPings] at hinput
  | _ => exact hmigration

end PingProtocol

end Minip2p.Ping
