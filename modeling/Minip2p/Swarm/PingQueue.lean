import Minip2p.Ping.WellFormed
import Minip2p.Swarm.SinglePing

/-!
# Pings that wait for a stream

A payload waits in `pending_pings` until the ping stream that was asked for is ready. `PingKept`
says what almost everything does to it: nothing, and no further ping stream is asked for on its
connection. The exceptions are the pings of the application, the close of the connection, and the
stream that becomes ready.
-/

namespace Minip2p.Swarm

open Identify (IdentifyInput IdentifyOutput)
open Multistream (MultistreamOutput MultistreamSelect)
open Ping (Payload PingInput PingOutput PingProtocol)
open SwarmCore

/-- The payloads that wait for the peers in `P` stay, no ping stream is asked for on `c`, and the
ping handler has taken inputs only. -/
structure PingKept (c : ConnectionId) (P : PeerId → Prop) (s s' : SwarmCore) : Prop where
  ping : s.ping.Continues s'.ping
  payload : ∀ p, P p → s'.pendingPings[p]? = s.pendingPings[p]?
  requests : s'.pingOpens c + s'.pingNegotiators c ≤ s.pingOpens c + s.pingNegotiators c

namespace PingKept

variable {c : ConnectionId} {P : PeerId → Prop} {s s' s'' : SwarmCore}

theorem rfl : PingKept c P s s := ⟨.refl, fun _ _ => Eq.refl _, Nat.le_refl _⟩

theorem trans (h : PingKept c P s s') (h' : PingKept c P s' s'') : PingKept c P s s'' :=
  ⟨h.ping.trans h'.ping, fun p hp => (h'.payload p hp).trans (h.payload p hp),
    Nat.le_trans h'.requests h.requests⟩

theorem foldl {α : Type} {f : SwarmCore → α → SwarmCore} (hf : ∀ s a, PingKept c P s (f s a))
    (as : List α) (s : SwarmCore) : PingKept c P s (as.foldl f s) := by
  induction as generalizing s with
  | nil => exact rfl
  | cons a as ih => exact (hf s a).trans (ih (f s a))

/-- Neither the tables nor what waits has changed. -/
theorem of_tables (h : SameTables s s') (hping : s.ping.Continues s'.ping)
    (hpending : s'.pendingPings = s.pendingPings) : PingKept c P s s' := by
  refine ⟨hping, fun _ _ => by rw [hpending], ?_⟩
  unfold pingOpens pingNegotiators
  rw [h.pendingOpens, h.outboundNegotiators]

/-- Only other fields have changed. -/
theorem same (hping : s'.ping = s.ping) (hpending : s'.pendingPings = s.pendingPings)
    (hopens : s'.pendingOpens = s.pendingOpens)
    (hout : s'.outboundNegotiators = s.outboundNegotiators) : PingKept c P s s' := by
  refine ⟨.of_eq hping, fun _ _ => by rw [hpending], ?_⟩
  unfold pingOpens pingNegotiators
  rw [hopens, hout]

/-- Negotiators go. -/
theorem negotiators (hping : s'.ping = s.ping) (hpending : s'.pendingPings = s.pendingPings)
    (hopens : s'.pendingOpens = s.pendingOpens)
    (hout : s'.pingNegotiators c ≤ s.pingNegotiators c) : PingKept c P s s' := by
  refine ⟨.of_eq hping, fun _ _ => by rw [hpending], ?_⟩
  unfold pingOpens
  rw [hopens]
  omega

/-- Requests go. -/
theorem opens (hping : s'.ping = s.ping) (hpending : s'.pendingPings = s.pendingPings)
    (hout : s'.outboundNegotiators = s.outboundNegotiators)
    (hopens : s'.pingOpens c ≤ s.pingOpens c) : PingKept c P s s' := by
  refine ⟨.of_eq hping, fun _ _ => by rw [hpending], ?_⟩
  unfold pingNegotiators
  rw [hout]
  omega

end PingKept

namespace SwarmCore

variable [Sha256] [MultihashCodec] {c : ConnectionId} {P : PeerId → Prop} {s : SwarmCore}

/-! ## Draining the handlers -/

omit [Sha256] in
theorem handlePingOutput_pings (s : SwarmCore) (o : PingOutput) :
    PingKept c P s (s.handlePingOutput o) := by
  apply PingKept.of_tables (tables_oblivious.handlePingOutput s o)
  · exact .of_eq (handlers_permissive.handlePingOutput s o).ping
  · cases o with
    | action a =>
      cases a <;> simp only [handlePingOutput, executePingAction] <;> split <;> rfl
    | event e => cases e <;> rfl

omit [Sha256] in
theorem drainPingOutputs_pings (s : SwarmCore) : PingKept c P s s.drainPingOutputs := by
  have hdrained : PingKept c P s { s with ping := s.ping.drainOutputs.2 } :=
    ⟨.drain s.ping, fun _ _ => rfl, Nat.le_refl _⟩
  exact hdrained.trans (PingKept.foldl handlePingOutput_pings _ _)

omit [Sha256] in
theorem feedPing_pings (s : SwarmCore) (input : PingInput) :
    PingKept c P s (s.feedPing input) := by
  have hfed : PingKept c P s { s with ping := (s.ping.handleInput input).1 } :=
    ⟨.handleInput s.ping input, fun _ _ => rfl, Nat.le_refl _⟩
  exact hfed.trans (drainPingOutputs_pings _)

omit [Sha256] [MultihashCodec] in
theorem tryEmitPeerReady_pings (s : SwarmCore) (q : PeerId) :
    PingKept c P s (s.tryEmitPeerReady q) := by
  rcases tryEmitPeerReady_cases s q with heq | ⟨info, -, -, heq⟩
  · rw [heq]
    exact .rfl
  · rw [heq]
    exact .same rfl rfl rfl rfl

omit [Sha256] [MultihashCodec] in
theorem handleIdentifyOutput_pings (s : SwarmCore) (o : IdentifyOutput) :
    PingKept c P s (s.handleIdentifyOutput o) := by
  cases o with
  | action a =>
    cases a <;> simp only [handleIdentifyOutput, executeIdentifyAction] <;> split <;>
      first | exact .rfl | exact .same rfl rfl rfl rfl
  | event e =>
    cases e with
    | received q info =>
      refine PingKept.trans ?_ (tryEmitPeerReady_pings _ q)
      exact .same rfl rfl rfl rfl
    | error q t e => exact .same rfl rfl rfl rfl

omit [Sha256] [MultihashCodec] in
theorem drainIdentifyOutputs_pings (s : SwarmCore) : PingKept c P s s.drainIdentifyOutputs := by
  have hdrained : PingKept c P s { s with identify := s.identify.drainOutputs.2 } :=
    .same rfl rfl rfl rfl
  exact hdrained.trans (PingKept.foldl handleIdentifyOutput_pings _ _)

omit [Sha256] in
theorem feedIdentify_pings (s : SwarmCore) (input : IdentifyInput) :
    PingKept c P s (s.feedIdentify input) := by
  have hfed : PingKept c P s { s with identify := (s.identify.handleInput input).1 } :=
    .same rfl rfl rfl rfl
  exact hfed.trans (drainIdentifyOutputs_pings _)

/-! ## Polling a negotiator -/

omit [Sha256] [MultihashCodec] in
theorem handleMultistreamOutput_pings (s : SwarmCore) (k : StreamKey) (o : MultistreamOutput)
    (negotiated : Option String) :
    PingKept c P s (s.handleMultistreamOutput k o negotiated).1 := by
  cases o <;> exact .same rfl rfl rfl rfl

omit [Sha256] [MultihashCodec] in
theorem pollInbound_pings (k : StreamKey) (outputs : List MultistreamOutput) (s : SwarmCore)
    (negotiated : Option String) : PingKept c P s (pollInbound k outputs s negotiated).1 := by
  induction outputs generalizing s negotiated with
  | nil => exact .rfl
  | cons o outputs ih =>
    have hone := handleMultistreamOutput_pings (c := c) (P := P) s k o negotiated
    rw [pollInbound]
    split
    · next heq => simpa only [heq] using hone
    · next heq =>
      rw [heq] at hone
      exact hone.trans (ih _ _)

omit [Sha256] [MultihashCodec] in
theorem pollOutbound_pings (k : StreamKey) (outputs : List MultistreamOutput) (s : SwarmCore)
    (negotiated : Bool) : PingKept c P s (pollOutbound k outputs s negotiated).1 := by
  fun_induction pollOutbound k outputs s negotiated with
  | case1 => exact .rfl
  | case2 _ _ _ _ ih => exact ih
  | case3 => exact .same rfl rfl rfl rfl
  | case4 o _ s _ _ _ s' _ heq =>
    have hone := handleMultistreamOutput_pings (c := c) (P := P) s k o none
    simpa only [heq] using hone
  | case5 o _ s _ _ _ s' _ heq ih =>
    have hone := handleMultistreamOutput_pings (c := c) (P := P) s k o none
    rw [heq] at hone
    exact hone.trans ih

omit [Sha256] [MultihashCodec] in
theorem pollStart_pings (k : StreamKey) (outputs : List MultistreamOutput) (s : SwarmCore) :
    PingKept c P s (pollStart k outputs s) :=
  PingKept.foldl (fun s o => handleMultistreamOutput_pings s k o none) outputs s

/-! ## Requests -/

omit [Sha256] [MultihashCodec] in
/-- No ping stream is asked for on `c`. -/
theorem queueOpenProtocolStream_pings (s : SwarmCore) {q : PeerId} (protocolId : String)
    {target : ProtocolKind} (h : target = .ping → s.peerToConn[q]? ≠ some c) :
    PingKept c P s (s.queueOpenProtocolStream q protocolId target).1 := by
  unfold queueOpenProtocolStream requireConn
  cases hq : s.peerToConn[q]? with
  | none => exact .rfl
  | some d =>
    refine .opens rfl rfl rfl (BTreeMap.countEntries_insert_of_neg ?_)
    apply decide_eq_false
    rintro ⟨rfl, htarget⟩
    exact h htarget hq

omit [Sha256] [MultihashCodec] in
theorem openOrReport_pings (s : SwarmCore) {q : PeerId} (d : ConnectionId) (protocolId : String)
    {target : ProtocolKind} (kind : SwarmErrorKind) (detail : SwarmError → String)
    (h : target = .ping → s.peerToConn[q]? ≠ some c) :
    PingKept c P s (s.openOrReport q d protocolId target kind detail) := by
  have hqueue := queueOpenProtocolStream_pings (P := P) s protocolId h
  unfold openOrReport
  split
  · next heq => simpa only [heq] using hqueue
  · next heq =>
    rw [heq] at hqueue
    exact hqueue.trans (.same rfl rfl rfl rfl)

omit [Sha256] [MultihashCodec] in
theorem openUserStream_pings (s : SwarmCore) (q : PeerId) (protocolId : String) :
    PingKept c P s (s.openUserStream q protocolId).1 := by
  unfold openUserStream
  split
  · exact .rfl
  · split
    · exact .rfl
    · split
      · exact .rfl
      · exact queueOpenProtocolStream_pings s protocolId fun h => by cases h

omit [Sha256] [MultihashCodec] in
theorem userStreamAction_pings (s : SwarmCore) (q : PeerId) (t : StreamId)
    (action : ConnectionId → SwarmAction) : PingKept c P s (s.userStreamAction q t action).1 := by
  unfold userStreamAction
  split
  · exact .same rfl rfl rfl rfl
  · exact .rfl

omit [Sha256] [MultihashCodec] in
theorem disconnect_pings (s : SwarmCore) (q : PeerId) : PingKept c P s (s.disconnect q).1 := by
  unfold disconnect
  split
  · exact .same rfl rfl rfl rfl
  · exact .rfl

omit [Sha256] [MultihashCodec] in
theorem handleOpenStreamFailed_pings (s : SwarmCore) (token : OpenStreamToken)
    (reason : String) : PingKept c P s (s.handleOpenStreamFailed token reason) := by
  unfold handleOpenStreamFailed
  split
  · exact .opens rfl rfl rfl BTreeMap.countEntries_erase_le
  · exact .same rfl rfl rfl rfl

omit [Sha256] [MultihashCodec] in
/-- The open request makes way for the negotiator. -/
theorem startOutbound_pings (s : SwarmCore) (k : StreamKey) (token : OpenStreamToken)
    {pending : PendingOpen} (hpending : s.pendingOpens[token]? = some pending)
    (hconn : pending.connId = k.conn) :
    PingKept c P s
      ({ s with pendingOpens := s.pendingOpens.erase token }.startOutbound k pending) := by
  unfold startOutbound
  dsimp only [MultistreamSelect.handleInput, MultistreamSelect.drainOutputs]
  have hstarted := pollStart_pings (c := c) (P := P) k
    (MultistreamSelect.dialer pending.protocol).start.pendingOutputs
    { s with pendingOpens := s.pendingOpens.erase token }
  have htables := tables_oblivious.pollStart k
    (MultistreamSelect.dialer pending.protocol).start.pendingOutputs
    { s with pendingOpens := s.pendingOpens.erase token }
  refine ⟨hstarted.ping, hstarted.payload, ?_⟩
  apply SinglePing.requests_opened_le hpending hconn
  · exact htables.pendingOpens
  · exact congrArg (fun m => m.insert k _) htables.outboundNegotiators

omit [Sha256] [MultihashCodec] in
theorem handleStreamOpened_pings (s : SwarmCore) (k : StreamKey) (token : OpenStreamToken) :
    PingKept c P s (s.handleStreamOpened k token) := by
  unfold handleStreamOpened
  split
  · exact .same rfl rfl rfl rfl
  · next pending hpending =>
    dsimp only
    split
    · exact .opens rfl rfl rfl BTreeMap.countEntries_erase_le
    · next hconn =>
      exact startOutbound_pings s k token hpending (not_not.mp hconn)

/-! ## Streams -/

omit [MultihashCodec] in
theorem ensurePeerIdForConn_pings (s : SwarmCore) (d : ConnectionId) :
    PingKept c P s (s.ensurePeerIdForConn d).1 := by
  unfold ensurePeerIdForConn
  split
  · exact .rfl
  · exact .same rfl rfl rfl rfl

theorem dispatchProtocolData_pings (s : SwarmCore) (k : StreamKey) (data : Bytes)
    (nowMs : UInt64) : PingKept c P s (s.dispatchProtocolData k data nowMs) := by
  have hensure := ensurePeerIdForConn_pings (c := c) (P := P) s k.conn
  unfold dispatchProtocolData
  split
  · exact .rfl
  · next protocol _ =>
    cases protocol with
    | ping => exact hensure.trans (feedPing_pings _ _)
    | identifyInitiator => exact hensure.trans (feedIdentify_pings _ _)
    | identifyResponder => exact hensure
    | user protocolId => exact hensure.trans (.same rfl rfl rfl rfl)

theorem dispatchRemaining_pings (s : SwarmCore) (k : StreamKey) (remaining : Bytes)
    (nowMs : UInt64) : PingKept c P s (s.dispatchRemaining k remaining nowMs) := by
  unfold dispatchRemaining
  split
  · exact .rfl
  · exact dispatchProtocolData_pings s k remaining nowMs

theorem handleStreamRemoteWriteClosed_pings (s : SwarmCore) (k : StreamKey) :
    PingKept c P s (s.handleStreamRemoteWriteClosed k) := by
  have hensure := ensurePeerIdForConn_pings (c := c) (P := P) s k.conn
  unfold handleStreamRemoteWriteClosed
  split
  · exact .rfl
  · next protocol _ =>
    cases protocol with
    | ping => exact hensure.trans (feedPing_pings _ _)
    | identifyInitiator => exact hensure.trans (feedIdentify_pings _ _)
    | identifyResponder => exact hensure
    | user protocolId => exact hensure.trans (.same rfl rfl rfl rfl)

omit [Sha256] in
theorem notifyStreamClosed_pings (s : SwarmCore) (protocol : ProtocolKind) (q : PeerId)
    (t : StreamId) : PingKept c P s (s.notifyStreamClosed protocol q t) := by
  cases protocol with
  | ping => exact feedPing_pings _ _
  | identifyInitiator => exact feedIdentify_pings _ _
  | identifyResponder => exact feedIdentify_pings _ _
  | user protocolId => exact .same rfl rfl rfl rfl

omit [Sha256] in
theorem handleStreamClosed_pings (s : SwarmCore) (k : StreamKey) :
    PingKept c P s (s.handleStreamClosed k) := by
  have hdisown : PingKept c P s { s with streamOwner := s.streamOwner.erase k } :=
    .same rfl rfl rfl rfl
  unfold handleStreamClosed
  dsimp only
  split
  · next protocol q _ _ =>
    refine (hdisown.trans (notifyStreamClosed_pings _ protocol q k.stream)).trans ?_
    exact .negotiators rfl rfl rfl BTreeMap.countEntries_erase_le
  · exact hdisown.trans (.negotiators rfl rfl rfl BTreeMap.countEntries_erase_le)

omit [Sha256] in
theorem respondIdentify_pings (s : SwarmCore) (k : StreamKey) (q : PeerId) :
    PingKept c P s (s.respondIdentify k q) := by
  unfold respondIdentify
  dsimp only
  split
  · refine PingKept.trans ?_ (drainIdentifyOutputs_pings _)
    exact .same rfl rfl rfl rfl
  · exact .same rfl rfl rfl rfl

theorem onInboundNegotiated_pings (s : SwarmCore) (k : StreamKey) (protocol : String) :
    PingKept c P s (s.onInboundNegotiated k protocol) := by
  refine (ensurePeerIdForConn_pings s k.conn).trans ?_
  unfold onInboundNegotiated
  dsimp only
  split_ifs
  · refine PingKept.trans ?_ (feedPing_pings _ _)
    exact .same rfl rfl rfl rfl
  · exact respondIdentify_pings _ k _
  · exact .same rfl rfl rfl rfl
  · exact .rfl

theorem feedInboundNegotiator_pings (s : SwarmCore) (k : StreamKey) (data : Bytes)
    (nowMs : UInt64) : PingKept c P s (s.feedInboundNegotiator k data nowMs) := by
  unfold feedInboundNegotiator
  split
  · exact .rfl
  next negotiator _ =>
  dsimp only [MultistreamSelect.handleInput, MultistreamSelect.drainOutputs]
  have hstored : PingKept c P s
      (pollInbound k (negotiator.receive data).pendingOutputs
        { s with
          inboundNegotiators := s.inboundNegotiators.insert k
            { negotiator.receive data with pendingOutputs := [] } } none).1 := by
    refine PingKept.trans ?_ (pollInbound_pings k _ _ none)
    exact .same rfl rfl rfl rfl
  split
  · next heq =>
    rw [heq] at hstored
    exact hstored.trans (.same rfl rfl rfl rfl)
  · next heq =>
    rw [heq] at hstored
    exact hstored
  · next heq =>
    rw [heq] at hstored
    refine (hstored.trans ?_).trans (dispatchRemaining_pings _ _ _ _)
    refine PingKept.trans ?_ (onInboundNegotiated_pings _ _ _)
    exact .same rfl rfl rfl rfl

omit [Sha256] [MultihashCodec] in
theorem handleIncomingStream_pings (s : SwarmCore) (k : StreamKey) :
    PingKept c P s (s.handleIncomingStream k) := by
  unfold handleIncomingStream
  dsimp only [MultistreamSelect.handleInput, MultistreamSelect.drainOutputs]
  refine PingKept.trans ?_ (pollStart_pings _ _ _)
  exact .same rfl rfl rfl rfl

/-! ## Ping streams that become ready -/

omit [Sha256] in
/-- Only the payload that waits for `q` is taken. -/
theorem sendDeferredPing_pings (s : SwarmCore) (k : StreamKey) (q : PeerId) (nowMs : UInt64) :
    PingKept c (· ≠ q) s (s.sendDeferredPing k q nowMs) := by
  unfold sendDeferredPing
  split
  · exact .rfl
  next payload _ =>
  have htaken : PingKept c (· ≠ q) s
      { s with
        pendingPings := s.pendingPings.erase q
        ping := (s.ping.handleInput (.sendPing q payload nowMs)).1 } :=
    ⟨.handleInput s.ping _, fun p hp => BTreeMap.getElem?_erase_of_ne hp, Nat.le_refl _⟩
  split
  · next heq =>
    rw [heq] at htaken
    exact htaken.trans (drainPingOutputs_pings _)
  · next heq =>
    rw [heq] at htaken
    exact htaken.trans (.same rfl rfl rfl rfl)

omit [Sha256] in
theorem startPing_pings (s : SwarmCore) (k : StreamKey) (q : PeerId) (nowMs : UInt64) :
    PingKept c (· ≠ q) s (s.startPing k q nowMs) := by
  have hregistered : PingKept c (· ≠ q) s
      { s with ping := (s.ping.handleInput (.registerOutboundStream q k.stream)).1 } :=
    ⟨.handleInput s.ping _, fun _ _ => rfl, Nat.le_refl _⟩
  unfold startPing
  split
  · next heq =>
    rw [heq] at hregistered
    exact hregistered.trans (.same rfl rfl rfl rfl)
  · next heq =>
    rw [heq] at hregistered
    exact (hregistered.trans (drainPingOutputs_pings _)).trans (sendDeferredPing_pings _ _ _ _)

theorem onOutboundNegotiated_ping (s : SwarmCore) {k : StreamKey} {q : PeerId}
    (hq : s.connToPeer[k.conn]? = some q) (nowMs : UInt64) :
    PingKept c (· ≠ q) s (s.onOutboundNegotiated k .ping nowMs) := by
  unfold onOutboundNegotiated
  rw [ensurePeerIdForConn_of_some hq]
  refine PingKept.trans ?_ (startPing_pings _ k q nowMs)
  exact .same rfl rfl rfl rfl

/-- No other stream takes a payload. -/
theorem onOutboundNegotiated_other (s : SwarmCore) (k : StreamKey) {target : ProtocolKind}
    (htarget : target ≠ .ping) (nowMs : UInt64) :
    PingKept c P s (s.onOutboundNegotiated k target nowMs) := by
  refine (ensurePeerIdForConn_pings s k.conn).trans ?_
  unfold onOutboundNegotiated
  cases target with
  | ping => exact absurd rfl htarget
  | identifyInitiator =>
    refine PingKept.trans ?_ (feedIdentify_pings _ _)
    exact .same rfl rfl rfl rfl
  | identifyResponder => exact .same rfl rfl rfl rfl
  | user protocolId => exact .same rfl rfl rfl rfl

/-- Data on a stream in negotiation takes a payload only if a ping stream becomes ready, which is
no request any more then. -/
theorem feedOutboundNegotiator_pings (s : SwarmCore) {k : StreamKey} {q : PeerId}
    (hq : s.connToPeer[k.conn]? = some q) (data : Bytes) (nowMs : UInt64) :
    PingKept c P s (s.feedOutboundNegotiator k data nowMs) ∨
      ∃ pending, s.outboundNegotiators[k]? = some pending ∧ pending.target = .ping ∧
        PingKept c (· ≠ q) { s with outboundNegotiators := s.outboundNegotiators.erase k }
          (s.feedOutboundNegotiator k data nowMs) := by
  unfold feedOutboundNegotiator
  split
  · exact .inl .rfl
  next pending hpending =>
  dsimp only [MultistreamSelect.handleInput, MultistreamSelect.drainOutputs]
  generalize hstart : { s with
    outboundNegotiators := s.outboundNegotiators.insert k
      { pending with
        negotiator := { pending.negotiator.receive data with pendingOutputs := [] } } } = start
  have hstored : PingKept c P s start := by
    subst hstart
    refine .negotiators rfl rfl rfl (BTreeMap.countEntries_replace_le hpending ?_)
    rfl
  have hpoll : ∀ P, PingKept c P start _ := fun P =>
    pollOutbound_pings k (pending.negotiator.receive data).pendingOutputs start false
  have hhandlers := handlers_permissive.pollOutbound k
    (pending.negotiator.receive data).pendingOutputs start
    false
  have htables := tables_oblivious.pollOutbound k
    (pending.negotiator.receive data).pendingOutputs start
    false
  split
  · next heq =>
    rw [heq] at hpoll
    left
    refine (hstored.trans (hpoll P)).trans ?_
    exact .negotiators rfl rfl rfl BTreeMap.countEntries_erase_le
  · next heq =>
    rw [heq] at hpoll
    exact .inl (hstored.trans (hpoll P))
  · next s' heq =>
    rw [heq] at hpoll hhandlers htables
    by_cases htarget : pending.target = .ping
    · refine .inr ⟨pending, hpending, htarget, ?_⟩
      have hq' : s'.connToPeer[k.conn]? = some q := by
        rw [htables.connToPeer, ← hstart]
        exact hq
      have hready : PingKept c (· ≠ q)
          { s with outboundNegotiators := s.outboundNegotiators.erase k }
          { s' with outboundNegotiators := s'.outboundNegotiators.erase k } := by
        subst hstart
        refine ⟨.of_eq hhandlers.ping, (hpoll _).payload, ?_⟩
        unfold pingOpens pingNegotiators
        rw [htables.pendingOpens, htables.outboundNegotiators, BTreeMap.erase_insert_self]
      rw [htarget]
      refine (hready.trans ?_).trans (dispatchRemaining_pings _ _ _ _)
      apply onOutboundNegotiated_ping
      exact hq'
    · left
      refine ((hstored.trans (hpoll P)).trans ?_).trans (dispatchRemaining_pings _ _ _ _)
      refine PingKept.trans ?_ (onOutboundNegotiated_other _ _ htarget nowMs)
      exact .negotiators rfl rfl rfl BTreeMap.countEntries_erase_le

/-! ## Connections -/

omit [Sha256] [MultihashCodec] in
theorem yieldTo_pings (s : SwarmCore) (d : ConnectionId) (q : PeerId) :
    PingKept c P s (s.yieldTo d q) := by
  rcases yieldTo_cases s d q with ⟨heq, -⟩ | ⟨old, -, -, heq⟩
  · rw [heq]
    exact .rfl
  · rw [heq]
    exact ⟨.handleInput s.ping (.removePeer q), fun _ _ => rfl,
      SinglePing.pingOpens_retain_le _ c old⟩

omit [Sha256] in
/-- A connection that is announced asks for streams of its own. -/
theorem announceConnection_pings (s : SwarmCore) {d : ConnectionId} {q : PeerId}
    (hq : s.peerToConn[q]? = some d) (hd : d ≠ c) :
    PingKept c P s (s.announceConnection d q) := by
  have hne : s.peerToConn[q]? ≠ some c := fun h => hd (Option.some.inj (hq.symm.trans h))
  have hannounced : PingKept c P s
      ({ s with establishedPeers := s.establishedPeers.insert q }.pushEvent
        (.connectionEstablished q)) := .same rfl rfl rfl rfl
  unfold announceConnection
  dsimp only
  split
  · refine (hannounced.trans ?_).trans (openOrReport_pings _ d _ _ _ fun _ => ?_)
    · exact openOrReport_pings _ d _ _ _ fun _ => hne
    · rw [openOrReport_peerToConn]
      exact hne
  · exact hannounced.trans (openOrReport_pings _ d _ _ _ fun _ => hne)

omit [Sha256] in
theorem registerConnection_pings (hidle : s.Idle) (hprimary : Primary s) {d : ConnectionId}
    (hd : d ≠ c) (q : PeerId) : PingKept c P s (s.registerConnection d q) := by
  unfold registerConnection
  dsimp only
  rw [supersedeOther_eq hidle (hprimary q)]
  have hfiled : PingKept c P s
      { s.yieldTo d q with
        connToPeer := (s.yieldTo d q).connToPeer.insert d q
        peerToConn := (s.yieldTo d q).peerToConn.insert q d } :=
    (yieldTo_pings s d q).trans (.same rfl rfl rfl rfl)
  split
  · exact hfiled.trans (announceConnection_pings _ Std.ExtTreeMap.getElem?_insert_self hd)
  · exact hfiled

omit [Sha256] in
/-- Another connection takes the payload of its own peer along only. -/
theorem handleConnectionClosed_pings (hidle : s.Idle) (hunique : Unique s) {d : ConnectionId}
    (hd : d ≠ c) :
    PingKept c (fun p => s.connToPeer[c]? = some p) s (s.handleConnectionClosed d) := by
  have hwithout : ∀ P, PingKept c P s (s.withoutConn d) := fun P =>
    ⟨.refl, fun _ _ => rfl, SinglePing.pingOpens_retain_le s c d⟩
  rw [handleConnectionClosed_eq hidle]
  rcases detach_cases s d with ⟨q, -, hq, heq⟩ | ⟨-, heq⟩
  · rw [heq]
    refine (hwithout _).trans ?_
    refine ⟨.handleInput s.ping (.removePeer q), fun p hp => ?_, Nat.le_refl _⟩
    apply BTreeMap.getElem?_erase_of_ne
    rintro rfl
    exact hd (Option.some.inj (hq.symm.trans (hunique c p hp)))
  · rw [heq]
    exact hwithout _

omit [Sha256] in
/-- A connection that closes takes its requests along. -/
theorem handleConnectionClosed_requests (hidle : s.Idle) (c : ConnectionId) :
    s.ping.Continues (s.handleConnectionClosed c).ping ∧
      (s.handleConnectionClosed c).pingOpens c +
        (s.handleConnectionClosed c).pingNegotiators c = 0 := by
  rw [handleConnectionClosed_eq hidle]
  rcases detach_cases s c with ⟨q, -, -, heq⟩ | ⟨-, heq⟩
  · rw [heq]
    exact ⟨.handleInput s.ping (.removePeer q), SinglePing.pingOpens_retain_self _ c⟩
  · rw [heq]
    exact ⟨.refl, SinglePing.pingOpens_retain_self _ c⟩

omit [Sha256] in
/-- A ping over another connection replaces the payload for its own peer only. -/
theorem pingPeer_pings (s : SwarmCore) {q : PeerId} (payload : Payload) (nowMs : UInt64)
    (h : s.peerToConn[q]? ≠ some c) :
    PingKept c (· ≠ q) s (s.pingPeer q payload nowMs).1 := by
  have hsent : PingKept c (· ≠ q) s
      { s with ping := (s.ping.handleInput (.sendPing q payload nowMs)).1 } :=
    ⟨.handleInput s.ping _, fun _ _ => rfl, Nat.le_refl _⟩
  have hqueued : PingKept c (· ≠ q) s
      { s with pendingPings := s.pendingPings.insert q payload } :=
    ⟨.refl, fun p hp => BTreeMap.getElem?_insert_of_ne hp, Nat.le_refl _⟩
  unfold pingPeer
  split
  · exact .rfl
  · split
    · split
      · next heq =>
        rw [heq] at hsent
        exact hsent.trans (drainPingOutputs_pings _)
      · next heq =>
        rw [heq] at hsent
        exact hsent
    · dsimp only
      split
      · exact hqueued
      · exact hqueued.trans (queueOpenProtocolStream_pings _ _ fun _ => h)

end SwarmCore

end Minip2p.Swarm
