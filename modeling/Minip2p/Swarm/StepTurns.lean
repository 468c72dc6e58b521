import Minip2p.Swarm.Coherence
import Minip2p.Swarm.Idle
import Minip2p.Swarm.Turns

/-!
# Every call is a chain of turns

The handlers of the source, one by one, as chains of turns, and from them the calls of a contract
run.
-/

namespace Minip2p.Swarm

open Identify (IdentifyInput IdentifyOutput IdentifyProtocol identifyProtocolId)
open Multistream (MultistreamOutput MultistreamSelect)
open Ping (Payload PingInput PingOutput PingProtocol pingProtocolId)
open SwarmCore

section Chains

variable [Sha256] [MultihashCodec] {s₀ s : SwarmCore} {call : Call}

/-! ## Draining the handlers -/

omit [MultihashCodec] in
theorem Turns.emitError {s' : SwarmCore} (h : Turns s₀ call s s') (kind : SwarmErrorKind)
    (peerId : Option PeerId) (connId : Option ConnectionId) (detail : String) :
    Turns s₀ call s (s'.emitError kind peerId connId detail) :=
  h.tail (.report _ rfl)

omit [MultihashCodec] in
theorem turns_executePingAction (a : Ping.PingAction) :
    Turns s₀ call s (s.executePingAction a) := by
  cases a with
  | send p t data =>
    simp only [executePingAction]
    split
    · exact .single (.act _)
    · exact .refl
  | closeStreamWrite p t =>
    simp only [executePingAction]
    split
    · exact .single (.act _)
    · exact .refl
  | resetStream p t =>
    simp only [executePingAction]
    split
    · exact .single (.act _)
    · exact .refl

theorem turns_handlePingOutput (o : PingOutput) : Turns s₀ call s (s.handlePingOutput o) := by
  cases o with
  | action a => exact turns_executePingAction a
  | event e =>
    simp only [handlePingOutput, handlePingEvent]
    split
    · exact .single (.report _ rfl)
    · exact .single (.report _ rfl)
    · exact .single (.report _ rfl)
    · exact .refl

omit [MultihashCodec] in
/-- A loop whose turns are chains is a chain. -/
theorem turns_foldl {α : Type} {f : SwarmCore → α → SwarmCore} {J : SwarmCore → Prop}
    {as : List α} (hf : ∀ s, J s → ∀ a ∈ as, Turns s₀ call s (f s a) ∧ J (f s a)) (hs : J s) :
    Turns s₀ call s (as.foldl f s) := by
  induction as generalizing s with
  | nil => exact .refl
  | cons a as ih =>
    obtain ⟨hfirst, hJ⟩ := hf s hs a List.mem_cons_self
    refine hfirst.trans (ih ?_ hJ)
    exact fun t ht b hb => hf t ht b (List.mem_cons_of_mem _ hb)

/-- The machine changes first, as its outputs are a snapshot. -/
theorem turns_drainPing {ping : PingProtocol} (hping : s.ping.OutboundLe ping) :
    Turns s₀ call s { s with ping := ping }.drainPingOutputs := by
  have hdrained : Turns s₀ call s { s with ping := ping.drainOutputs.2 } :=
    .single (.ping ping.drainOutputs.2 hping)
  refine hdrained.trans (turns_foldl (J := fun _ => True) ?_ trivial)
  exact fun t _ o _ => ⟨turns_handlePingOutput o, trivial⟩

omit [MultihashCodec] in
/-- What identify received on `k` is filed under the peer of its connection. -/
theorem turns_drainIdentify {identify : IdentifyProtocol} {t : SwarmCore}
    (hstart : Turns s₀ call s t)
    (hreceived : ∀ p info, .received p info ∈ identify.events → ∃ k : StreamKey,
      t.streamOwner[k]? = some .identifyInitiator ∧ t.connToPeer[k.conn]? = some p) :
    Turns s₀ call s { t with identify := identify }.drainIdentifyOutputs := by
  have hdrained : Turns s₀ call s { t with identify := identify.drainOutputs.2 } :=
    hstart.tail (.identify identify.drainOutputs.2)
  refine hdrained.trans (turns_foldl (J := SameTables t) ?_ ⟨rfl, rfl, rfl, rfl, rfl, rfl⟩)
  intro u hu o ho
  refine ⟨?_, hu.trans (tables_oblivious.handleIdentifyOutput u o)⟩
  cases o with
  | action a =>
    cases a with
    | send p t data =>
      simp only [handleIdentifyOutput, executeIdentifyAction]
      split
      · exact .single (.act _)
      · exact .refl
    | closeStreamWrite p t =>
      simp only [handleIdentifyOutput, executeIdentifyAction]
      split
      · exact .single (.act _)
      · exact .refl
  | event e =>
    cases e with
    | received p info =>
      have hmem : .received p info ∈ identify.events := by
        simpa [IdentifyProtocol.drainOutputs] using ho
      obtain ⟨k, hown, hp⟩ := hreceived p info hmem
      refine .single (.received k p info ?_ ?_)
      · rw [hu.streamOwner]
        exact hown
      · rw [hu.connToPeer]
        exact hp
    | error p t e => exact .single (.report _ rfl)

theorem turns_feedPing {input : PingInput}
    (hping : s.ping.OutboundLe (s.ping.handleInput input).1) :
    Turns s₀ call s (s.feedPing input) :=
  turns_drainPing hping

/-- An input of identify other than the end of a message is not an answer. -/
theorem turns_feedIdentify {input : IdentifyInput} (hidle : s.Idle)
    (hinput : ∀ p t, input ≠ .streamRemoteWriteClosed p t) :
    Turns s₀ call s (s.feedIdentify input) := by
  refine turns_drainIdentify .refl ?_
  intro p info h
  obtain ⟨t, ht⟩ := IdentifyProtocol.received_of_handleInput hidle.identify h
  exact absurd ht (hinput p t)

/-! ## Streams with an owner -/

variable {k : StreamKey} {p : PeerId}

theorem turns_dispatchProtocolData (hidle : s.Idle)
    (htracked : k ∈ s.streamOwner → k.conn ∈ s.connToPeer) (data : Bytes) (nowMs : UInt64) :
    Turns s₀ call s (s.dispatchProtocolData k data nowMs) := by
  simp only [dispatchProtocolData]
  split
  · exact .refl
  · next protocol howner =>
    obtain ⟨p, hp⟩ := BTreeMap.exists_getElem?_of_mem (htracked (BTreeMap.mem_of_getElem? howner))
    rw [ensurePeerIdForConn_of_some hp]
    cases protocol with
    | ping => exact turns_feedPing (PingProtocol.OutboundLe.onStreamData _ _ _ _ _)
    | identifyInitiator => exact turns_feedIdentify hidle fun _ _ => (by rintro ⟨⟩)
    | identifyResponder => exact .refl
    | user protocolId => exact .single (.deliver k protocolId p _ howner hp (.inl ⟨data, rfl⟩))

theorem turns_handleStreamRemoteWriteClosed (hidle : s.Idle)
    (htracked : k ∈ s.streamOwner → k.conn ∈ s.connToPeer) :
    Turns s₀ call s (s.handleStreamRemoteWriteClosed k) := by
  simp only [handleStreamRemoteWriteClosed]
  split
  · exact .refl
  · next protocol howner =>
    obtain ⟨p, hp⟩ := BTreeMap.exists_getElem?_of_mem (htracked (BTreeMap.mem_of_getElem? howner))
    rw [ensurePeerIdForConn_of_some hp]
    cases protocol with
    | ping => exact turns_feedPing (PingProtocol.OutboundLe.onStreamRemoteWriteClosed _ _ _)
    | identifyInitiator =>
      -- the one place where identify can have received a message
      refine turns_drainIdentify .refl ?_
      intro q info h
      obtain ⟨t, ht⟩ := IdentifyProtocol.received_of_handleInput hidle.identify h
      obtain ⟨rfl, -⟩ : p = q ∧ k.stream = t := by simpa using ht
      exact ⟨k, howner, hp⟩
    | identifyResponder => exact .refl
    | user protocolId => exact .single (.deliver k protocolId p _ howner hp (.inr rfl))

theorem turns_handleStreamClosed (hidle : s₀.Idle) (nowMs : UInt64) :
    Turns s₀ (.input (.transport (.streamClosed k.conn k.stream) nowMs)) s₀
      (s₀.handleStreamClosed k) := by
  have hdrop : ∀ {t : SwarmCore},
      Turns s₀ (.input (.transport (.streamClosed k.conn k.stream) nowMs)) s₀ t →
      t.outboundNegotiators = s₀.outboundNegotiators →
      Turns s₀ (.input (.transport (.streamClosed k.conn k.stream) nowMs)) s₀
        { t with
          inboundNegotiators := t.inboundNegotiators.erase k
          outboundNegotiators := t.outboundNegotiators.erase k } := by
    intro t h hsame
    have hinbound := h.tail (.inbound (t.inboundNegotiators.erase k))
    exact hinbound.tail (.dropOutbound k rfl hsame)
  have hdisown : Turns s₀ (.input (.transport (.streamClosed k.conn k.stream) nowMs)) s₀
      { s₀ with streamOwner := s₀.streamOwner.erase k } := .single (.disown k)
  simp only [handleStreamClosed]
  split
  · next protocol p howner hp =>
    cases protocol with
    | ping =>
      refine hdrop (hdisown.trans (turns_feedPing ?_)) ?_
      · exact PingProtocol.OutboundLe.onStreamClosed _ _ _
      · exact (tables_oblivious.feedPing _ _).outboundNegotiators
    | identifyInitiator =>
      refine hdrop (hdisown.trans (turns_feedIdentify ?_ fun _ _ => (by rintro ⟨⟩))) ?_
      · exact ⟨hidle.ping, hidle.identify⟩
      · exact (tables_oblivious.feedIdentify _ _).outboundNegotiators
    | identifyResponder =>
      refine hdrop (hdisown.trans (turns_feedIdentify ?_ fun _ _ => (by rintro ⟨⟩))) ?_
      · exact ⟨hidle.ping, hidle.identify⟩
      · exact (tables_oblivious.feedIdentify _ _).outboundNegotiators
    | user protocolId => exact hdrop (.single (.closeUser k protocolId p howner hp)) rfl
  · exact hdrop hdisown rfl

theorem turns_dispatchRemaining (hidle : s.Idle) (htracked : k.conn ∈ s.connToPeer)
    (remaining : Bytes) (nowMs : UInt64) :
    Turns s₀ call s (s.dispatchRemaining k remaining nowMs) := by
  rw [dispatchRemaining]
  split
  · exact .refl
  · exact turns_dispatchProtocolData hidle (fun _ => htracked) remaining nowMs

/-! ## Negotiation -/

omit [MultihashCodec] in
theorem turns_handleMultistreamOutput (o : MultistreamOutput) (negotiated : Option String) :
    Turns s₀ call s (s.handleMultistreamOutput k o negotiated).1 := by
  cases o with
  | outboundData bytes => exact .single (.act _)
  | negotiated protocol => exact .refl
  | notAvailable => exact .refl
  | protocolError reason => exact .single (.report _ rfl)

omit [MultihashCodec] in
theorem turns_pollInbound (outputs : List MultistreamOutput) (negotiated : Option String) :
    Turns s₀ call s (pollInbound k outputs s negotiated).1 := by
  induction outputs generalizing s negotiated with
  | nil => exact .refl
  | cons o outputs ih =>
    have hone : Turns s₀ call s (s.handleMultistreamOutput k o negotiated).1 :=
      turns_handleMultistreamOutput o negotiated
    rw [pollInbound]
    split
    · next heq => simpa only [heq] using hone
    · next heq =>
      rw [heq] at hone
      exact hone.trans (ih _)

omit [MultihashCodec] in
theorem turns_pollOutbound (outputs : List MultistreamOutput) (s : SwarmCore) (negotiated : Bool) :
    Turns s₀ call s (pollOutbound k outputs s negotiated).1 := by
  fun_induction pollOutbound k outputs s negotiated with
  | case1 => exact .refl
  | case2 _ _ _ _ ih => exact ih
  | case3 => exact .single (.report _ rfl)
  | case4 o _ s _ _ _ s' _ heq =>
    have hone : Turns s₀ call s (s.handleMultistreamOutput k o none).1 :=
      turns_handleMultistreamOutput o none
    simpa only [heq] using hone
  | case5 o _ s _ _ _ s' _ heq ih =>
    have hone : Turns s₀ call s (s.handleMultistreamOutput k o none).1 :=
      turns_handleMultistreamOutput o none
    rw [heq] at hone
    exact hone.trans ih

omit [Sha256] [MultihashCodec] in
/-- A negotiation fails with an error. -/
theorem emits_of_pollOutbound {outputs : List MultistreamOutput} {s s' : SwarmCore}
    {negotiated negotiated' : Bool}
    (h : pollOutbound k outputs s negotiated = (s', negotiated', true)) :
    s.Emits s' (SwarmEvent.isError ·) := by
  fun_induction pollOutbound k outputs s negotiated with
  | case1 => cases h
  | case2 _ _ _ _ ih => exact ih h
  | case3 =>
    cases h
    exact emits_pushEvent (Nat.le_refl _) rfl
  | case4 o _ s _ hnegotiated hdeclined t _ heq =>
    cases h
    cases o with
    | outboundData bytes => cases heq
    | negotiated protocol => exact absurd rfl (hnegotiated protocol)
    | notAvailable => exact absurd rfl hdeclined
    | protocolError reason =>
      cases heq
      exact emits_pushEvent (Nat.le_refl _) rfl
  | case5 o _ s _ hnegotiated hdeclined t _ heq ih =>
    have hsame : t.events = s.events := by
      cases o with
      | outboundData bytes =>
        cases heq
        rfl
      | negotiated protocol => exact absurd rfl (hnegotiated protocol)
      | notAvailable => exact absurd rfl hdeclined
      | protocolError reason => cases heq
    obtain ⟨e, he, herror⟩ := ih h
    rw [hsame] at he
    exact ⟨e, he, herror⟩

omit [MultihashCodec] in
theorem turns_pollStart (outputs : List MultistreamOutput) :
    Turns s₀ call s (pollStart k outputs s) :=
  turns_foldl (J := fun _ => True)
    (fun _ _ o _ => ⟨turns_handleMultistreamOutput o none, trivial⟩) trivial

/-! ## The end of a negotiation -/

theorem turns_respondIdentify (hidle : s.Idle) : Turns s₀ call s (s.respondIdentify k p) := by
  have hreceived : ∀ q info, .received q info ∉ (s.identify.handleInput (.registerOutboundStream p
      k.stream s.connToRemoteAddr[k.conn]? s.localAddresses)).1.events := by
    intro q info h
    obtain ⟨t, ht⟩ := IdentifyProtocol.received_of_handleInput hidle.identify h
    cases ht
  simp only [respondIdentify]
  split
  · next identify heq =>
    rw [heq] at hreceived
    have hown : Turns s₀ call s
        { s with streamOwner := s.streamOwner.insert k .identifyResponder } :=
      .single (.own k _ (.inr rfl))
    exact turns_drainIdentify hown fun q info h => absurd h (hreceived q info)
  · next identify e heq =>
    have hidentify : Turns s₀ call s { s with identify := identify } := .single (.identify identify)
    exact (hidentify.emitError _ _ _ _).tail (.act _)

/-- Once the peer of the connection is known. -/
theorem turns_inbound_at (hp : s.connToPeer[k.conn]? = some p) (hidle : s.Idle)
    (protocol : String) : Turns s₀ call s (s.onInboundNegotiated k protocol) := by
  simp only [onInboundNegotiated, ensurePeerIdForConn_of_some hp]
  split
  · have hown : Turns s₀ call s { s with streamOwner := s.streamOwner.insert k .ping } :=
      .single (.own k _ (.inl rfl))
    exact hown.trans (turns_feedPing (PingProtocol.OutboundLe.registerInboundStream _ _ _))
  · split
    · exact turns_respondIdentify hidle
    · split
      · exact .single (.acceptUser k protocol p hp)
      · exact .refl

theorem turns_onInboundNegotiated (hidle : s.Idle)
    (hneeds : s.connToPeer[k.conn]? = none → call.NeedsPlaceholder s₀ k.conn)
    (hconn : s.connToPeer = s₀.connToPeer) (hpeer : s.peerToConn = s₀.peerToConn)
    (protocol : String) : Turns s₀ call s (s.onInboundNegotiated k protocol) := by
  have hensure : Turns s₀ call s (s.ensurePeerIdForConn k.conn).1 := by
    simp only [ensurePeerIdForConn]
    split
    · exact .refl
    · next hnew => exact .single (.placeholder k.conn (hneeds hnew) hnew hconn hpeer)
  have hidle' := (ensurePeerIdForConn_handlers s k.conn).idle hidle
  rw [onInboundNegotiated_eq]
  exact hensure.trans (turns_inbound_at (ensurePeerIdForConn_peer s k.conn) hidle' protocol)

theorem turns_sendDeferredPing (nowMs : UInt64) :
    Turns s₀ call s (s.sendDeferredPing k p nowMs) := by
  have htake : Turns s₀ call s { s with pendingPings := s.pendingPings.erase p } :=
    .single (.setPings _)
  simp only [sendDeferredPing]
  split
  · exact .refl
  · next payload _ =>
    have hle := PingProtocol.OutboundLe.sendPing s.ping p payload nowMs
    split
    · next ping heq =>
      rw [heq] at hle
      exact htake.trans (turns_drainPing hle)
    · next ping e heq =>
      rw [heq] at hle
      have hping : Turns s₀ call s
          { s with pendingPings := s.pendingPings.erase p, ping := ping } :=
        htake.tail (.ping ping hle)
      exact hping.emitError _ _ _ _

/-- The negotiator of an outbound stream makes way for its owner. -/
theorem turns_onOutboundNegotiated (hp : s.connToPeer[k.conn]? = some p) (hidle : s.Idle)
    {pending : PendingOutbound} (hpending : s.outboundNegotiators[k]? = some pending)
    (nowMs : UInt64) :
    Turns s₀ call s ({ s with
      outboundNegotiators := s.outboundNegotiators.erase k }.onOutboundNegotiated k pending.target
        nowMs) := by
  have hensure : { s with
      outboundNegotiators := s.outboundNegotiators.erase k }.ensurePeerIdForConn k.conn =
      ({ s with outboundNegotiators := s.outboundNegotiators.erase k }, p) :=
    ensurePeerIdForConn_of_some hp
  simp only [onOutboundNegotiated, hensure]
  cases htarget : pending.target with
  | ping =>
    have hpromote := @Turn.promotePing _ s₀ call s k pending p hpending htarget hp
    simp only [startPing]
    split
    · next ping e heq =>
      simp only [heq] at hpromote
      exact ((Turns.emitError (.single hpromote) _ _ _ _).tail (.disown k)).tail (.act _)
    · next ping heq =>
      simp only [heq] at hpromote
      refine Relation.ReflTransGen.trans ?_ (turns_sendDeferredPing nowMs)
      exact (Relation.ReflTransGen.single hpromote).trans (turns_drainPing .refl)
  | identifyInitiator =>
    have hpromote := @Turn.promote _ s₀ call s k pending hpending (.inl htarget)
    rw [htarget] at hpromote
    refine (Relation.ReflTransGen.single hpromote).trans
      (turns_feedIdentify ?_ fun _ _ => (by rintro ⟨⟩))
    exact ⟨hidle.ping, hidle.identify⟩
  | identifyResponder =>
    have hpromote := @Turn.promote _ s₀ call s k pending hpending (.inr htarget)
    rw [htarget] at hpromote
    exact .single hpromote
  | user protocolId => exact .single (.promoteUser k pending protocolId p hpending htarget hp)

variable {calls : List Call}

theorem turns_feedInboundNegotiator (hcoh : Coherent calls s₀) (data : Bytes) (nowMs : UInt64) :
    Turns s₀ (.input (.transport (.streamData k.conn k.stream data) nowMs)) s₀
      (s₀.feedInboundNegotiator k data nowMs) := by
  simp only [feedInboundNegotiator]
  split
  · exact .refl
  · next negotiator hn =>
    simp only [MultistreamSelect.handleInput, MultistreamSelect.drainOutputs]
    have hstore : Turns s₀ (.input (.transport (.streamData k.conn k.stream data) nowMs)) s₀
        { s₀ with
          inboundNegotiators := s₀.inboundNegotiators.insert k
            { negotiator.receive data with pendingOutputs := [] } } := .single (.inbound _)
    have htables := tables_oblivious.pollInbound k (negotiator.receive data).pendingOutputs
      { s₀ with
        inboundNegotiators := s₀.inboundNegotiators.insert k
          { negotiator.receive data with pendingOutputs := [] } } none
    have hpoll := hstore.trans (@turns_pollInbound _ s₀ _
      (.input (.transport (.streamData k.conn k.stream data) nowMs)) k
      (negotiator.receive data).pendingOutputs none)
    split
    · next s' _ hres =>
      rw [hres] at hpoll
      exact (hpoll.tail (.inbound (s'.inboundNegotiators.erase k))).tail (.act _)
    · next s' hres =>
      rw [hres] at hpoll
      exact hpoll
    · next s' protocol hres =>
      -- only a finished negotiation can ask for a placeholder
      have hcompletes : s₀.CompletesInbound k data := by
        refine ⟨negotiator, protocol, hn, ?_⟩
        exact (negotiated_of_pollInbound hres).resolve_left (by simp)
      have hidle := (handlers_permissive.pollInbound k (negotiator.receive data).pendingOutputs
        { s₀ with
          inboundNegotiators := s₀.inboundNegotiators.insert k
            { negotiator.receive data with pendingOutputs := [] } } none).idle
        ⟨hcoh.idle.ping, hcoh.idle.identify⟩
      rw [hres] at hpoll htables hidle
      have hdrop := hpoll.tail (.inbound (s'.inboundNegotiators.erase k))
      have hidle' : Idle { s' with inboundNegotiators := s'.inboundNegotiators.erase k } :=
        ⟨hidle.ping, hidle.identify⟩
      have hnegotiated := hdrop.trans (turns_onInboundNegotiated hidle'
        (fun _ => .inr ⟨k.stream, data, nowMs, rfl, hcompletes⟩) htables.connToPeer
        htables.peerToConn protocol)
      refine hnegotiated.trans (turns_dispatchRemaining (hidle'.onInboundNegotiated k protocol) ?_ _
        nowMs)
      rw [onInboundNegotiated_connToPeer]
      exact BTreeMap.mem_of_getElem? (ensurePeerIdForConn_peer _ k.conn)

theorem turns_feedOutboundNegotiator (hcoh : Coherent calls s₀) (data : Bytes) (nowMs : UInt64) :
    Turns s₀ call s₀ (s₀.feedOutboundNegotiator k data nowMs) := by
  simp only [feedOutboundNegotiator]
  split
  · exact .refl
  · next pending hpending =>
    have hmem : k ∈ s₀.outboundNegotiators := BTreeMap.mem_of_getElem? hpending
    simp only [MultistreamSelect.handleInput, MultistreamSelect.drainOutputs]
    -- the drained negotiator is stored, then its outputs are handled
    have hstore : Turns s₀ call s₀
        { s₀ with
          outboundNegotiators := s₀.outboundNegotiators.insert k
            { pending with
              negotiator := { pending.negotiator.receive data with pendingOutputs := [] } } } :=
      .single (.outbound k pending _ hpending)
    have htables := tables_oblivious.pollOutbound k (pending.negotiator.receive data).pendingOutputs
      { s₀ with
        outboundNegotiators := s₀.outboundNegotiators.insert k
          { pending with
            negotiator := { pending.negotiator.receive data with pendingOutputs := [] } } } false
    have hidle := (handlers_permissive.pollOutbound k
      (pending.negotiator.receive data).pendingOutputs
      { s₀ with
        outboundNegotiators := s₀.outboundNegotiators.insert k
          { pending with
            negotiator := { pending.negotiator.receive data with pendingOutputs := [] } } }
      false).idle ⟨hcoh.idle.ping, hcoh.idle.identify⟩
    have hpoll := hstore.trans (@turns_pollOutbound _ s₀ call k
      (pending.negotiator.receive data).pendingOutputs _ false)
    split
    · next s' _ hres =>
      have herror := emits_of_pollOutbound hres
      rw [hres] at hpoll
      exact (hpoll.tail (.failOutbound k herror)).tail (.act _)
    · next s' hres =>
      rw [hres] at hpoll
      exact hpoll
    · next s' hres =>
      rw [hres] at hpoll htables hidle
      obtain ⟨p, hp⟩ := BTreeMap.exists_getElem?_of_mem (hcoh.outboundTracked k hmem)
      have hp' : s'.connToPeer[k.conn]? = some p := by
        rw [htables.connToPeer]
        exact hp
      have hpending' : s'.outboundNegotiators[k]? = some { pending with
          negotiator := { pending.negotiator.receive data with pendingOutputs := [] } } := by
        rw [htables.outboundNegotiators]
        exact BTreeMap.getElem?_insert_eq_some_iff.mpr (.inl ⟨rfl, rfl⟩)
      have hidle' : Idle { s' with outboundNegotiators := s'.outboundNegotiators.erase k } :=
        ⟨hidle.ping, hidle.identify⟩
      have hnegotiated := hpoll.trans (turns_onOutboundNegotiated hp' hidle hpending' nowMs)
      refine hnegotiated.trans (turns_dispatchRemaining
        (hidle'.onOutboundNegotiated k pending.target nowMs) ?_ _ nowMs)
      have hconn := @onOutboundNegotiated_connToPeer _ _
        { s' with outboundNegotiators := s'.outboundNegotiators.erase k } k p hp' pending.target
        nowMs
      rw [hconn]
      exact BTreeMap.mem_of_getElem? hp'

theorem turns_handleStreamData (hcoh : Coherent calls s₀) (data : Bytes) (nowMs : UInt64) :
    Turns s₀ (.input (.transport (.streamData k.conn k.stream data) nowMs)) s₀
      (s₀.handleStreamData k data nowMs) := by
  rw [handleStreamData]
  split
  · exact turns_feedInboundNegotiator hcoh data nowMs
  · split
    · exact turns_feedOutboundNegotiator hcoh data nowMs
    · exact turns_dispatchProtocolData hcoh.idle (hcoh.ownerTracked k) data nowMs

/-! ## New streams -/

omit [MultihashCodec] in
theorem turns_handleIncomingStream : Turns s₀ call s (s.handleIncomingStream k) := by
  simp only [handleIncomingStream, MultistreamSelect.handleInput]
  have hstore : Turns s₀ call s
      { s with
        inboundNegotiators := s.inboundNegotiators.insert k
          (MultistreamSelect.listener s.supportedProtocols).start.drainOutputs.2 } :=
    .single (.inbound _)
  exact hstore.trans (turns_pollStart _)

omit [MultihashCodec] in
theorem turns_handleStreamOpened (hcoh : Coherent calls s₀) {token : OpenStreamToken}
    {nowMs : UInt64} (hnew : ¬ Announced calls k) :
    Turns s₀ (.input (.streamOpened k.conn k.stream token nowMs)) s₀
      (s₀.handleStreamOpened k token) := by
  simp only [handleStreamOpened]
  split
  · exact Turns.emitError .refl _ _ _ _
  · next pending hpending =>
    split
    · exact .single (.refuse token _ rfl)
    · next hconn =>
      have hout : k ∉ s₀.outboundNegotiators := fun h => hnew (hcoh.announced k (.inr (.inl h)))
      -- the source files the negotiator after its first message, which makes no difference
      have hopened : Turns s₀ (.input (.streamOpened k.conn k.stream token nowMs)) s₀
          { s₀ with
            pendingOpens := s₀.pendingOpens.erase token
            outboundNegotiators := s₀.outboundNegotiators.insert k
              { negotiator := (MultistreamSelect.dialer pending.protocol).start.drainOutputs.2
                target := pending.target } } :=
        .single (.opened k token pending _ ⟨nowMs, rfl⟩ hpending (not_not.mp hconn) hout)
      exact hopened.trans (turns_pollStart
        (MultistreamSelect.dialer pending.protocol).start.drainOutputs.1)

omit [MultihashCodec] in
theorem turns_handleOpenStreamFailed (token : OpenStreamToken) (reason : String) :
    Turns s₀ call s (s.handleOpenStreamFailed token reason) := by
  simp only [handleOpenStreamFailed]
  split
  · exact .single (.refuse token _ rfl)
  · exact Turns.emitError .refl _ _ _ _

/-! ## Connections -/

omit [MultihashCodec] in
theorem turns_queueOpenProtocolStream {protocolId : String} {target : ProtocolKind}
    (htoken : (takeOpenToken s.nextOpenToken).1 ∈ s₀.requestTokens call)
    (hping : target = .ping → s.ping.outboundStream p = none ∧ s.hasPendingPingStream p = false)
    (hidentify : target = .identifyInitiator → p ∈ s.establishedPeers) :
    Turns s₀ call s (s.queueOpenProtocolStream p protocolId target).1 := by
  cases hp : s.peerToConn[p]? with
  | none =>
    simp only [queueOpenProtocolStream, requireConn, hp]
    exact .refl
  | some c => exact .single (.ask p c protocolId target htoken hp hping hidentify)

omit [MultihashCodec] in
theorem turns_openOrReport {c : ConnectionId} {protocolId : String} {target : ProtocolKind}
    {kind : SwarmErrorKind} {detail : SwarmError → String}
    (htoken : (takeOpenToken s.nextOpenToken).1 ∈ s₀.requestTokens call)
    (hping : target = .ping → s.ping.outboundStream p = none ∧ s.hasPendingPingStream p = false)
    (hidentify : target = .identifyInitiator → p ∈ s.establishedPeers) :
    Turns s₀ call s (s.openOrReport p c protocolId target kind detail) := by
  have hopen : Turns s₀ call s (s.queueOpenProtocolStream p protocolId target).1 :=
    turns_queueOpenProtocolStream htoken hping hidentify
  simp only [openOrReport]
  split
  · next heq =>
    rw [heq] at hopen
    exact hopen
  · next heq =>
    rw [heq] at hopen
    exact hopen.emitError _ _ _ _

omit [Sha256] [MultihashCodec] in
theorem yieldTo_requests (s : SwarmCore) (c : ConnectionId) (p : PeerId) :
    (s.yieldTo c p).nextOpenToken = s.nextOpenToken ∧
      (s.yieldTo c p).pendingPings = s.pendingPings := by
  rcases yieldTo_cases s c p with ⟨heq, -⟩ | ⟨old, -, -, heq⟩
  · rw [heq]
    exact ⟨rfl, rfl⟩
  · rw [heq]
    exact ⟨rfl, rfl⟩

omit [Sha256] [MultihashCodec] in
theorem openOrReport_requests {c : ConnectionId} (hp : s.peerToConn[p]? = some c)
    (connId : ConnectionId) (protocolId : String) (target : ProtocolKind) (kind : SwarmErrorKind)
    (detail : SwarmError → String) :
    (s.openOrReport p connId protocolId target kind detail).nextOpenToken =
        (takeOpenToken s.nextOpenToken).2 ∧
      (s.openOrReport p connId protocolId target kind detail).pendingPings = s.pendingPings := by
  rw [openOrReport_eq hp]
  simp only [queueOpenProtocolStream, requireConn, hp, and_self]

/-- A connection that was not tracked is attached to its peer; then streams are asked for. -/
theorem turns_registerConnection {c : ConnectionId} (hcall : call.ConnectsAs c p)
    (hs : s₀.Agrees s) (hidle : s.Idle) (hnew : s.connToPeer[c]? = none)
    (hprimary : ∀ old, s.peerToConn[p]? = some old → s.connToPeer[old]? = some p)
    (hnext : s.nextOpenToken = s₀.nextOpenToken) (hpings : s.pendingPings = s₀.pendingPings) :
    Turns s₀ call s (s.registerConnection c p) := by
  have hfresh : s.connToPeer.contains c = false := by
    rw [Std.ExtTreeMap.contains_eq_isSome_getElem?, hnew]
    rfl
  have hattach : Turns s₀ call s ((s.yieldTo c p).attach c p) :=
    .single (.register c p hcall hnew hs)
  have hp : ((s.yieldTo c p).attach c p).peerToConn[p]? = some c :=
    Std.ExtTreeMap.getElem?_insert_self
  obtain ⟨endpoint, nowMs, rfl, hpeer⟩ := hcall
  -- the first token is for identify, the second for a ping that waits
  have hfirst : (takeOpenToken ((s.yieldTo c p).attach c p).nextOpenToken).1 ∈
      s₀.requestTokens (.input (.transport (.connected c endpoint) nowMs)) := by
    show (takeOpenToken (s.yieldTo c p).nextOpenToken).1 ∈ _
    rw [(yieldTo_requests s c p).1, hnext]
    simp only [requestTokens]
    split
    · exact List.mem_cons_self
    · exact List.mem_cons_self
  simp only [registerConnection, hfresh, Bool.not_false, ↓reduceIte,
    supersedeOther_eq hidle hprimary, announceConnection]
  -- the peer was surfaced before identify asks for its stream
  have hopen : Turns s₀ (.input (.transport (.connected c endpoint) nowMs)) s
      (((s.yieldTo c p).attach c p).openOrReport p c identifyProtocolId .identifyInitiator .identify
        fun e => s!"failed to queue identify stream to {p.toBase58}: {e.display}") :=
    hattach.trans (turns_openOrReport hfirst (by rintro ⟨⟩)
      fun _ => BTreeSet.mem_insert_iff.mpr (.inl rfl))
  split
  · next hguard =>
    refine hopen.trans (turns_openOrReport ?_ (fun _ => ?_) (by rintro ⟨⟩))
    · obtain ⟨htoken, hwaiting⟩ := openOrReport_requests hp c identifyProtocolId .identifyInitiator
        .identify fun e => s!"failed to queue identify stream to {p.toBase58}: {e.display}"
      have hwaits : (s.yieldTo c p).pendingPings.contains p = true := by
        show ((s.yieldTo c p).attach c p).pendingPings.contains p = true
        rw [← hwaiting]
        exact hguard.1
      rw [(yieldTo_requests s c p).2, hpings] at hwaits
      refine Eq.subst (motive := fun next => (takeOpenToken next).1 ∈ _) htoken.symm ?_
      show (takeOpenToken (takeOpenToken (s.yieldTo c p).nextOpenToken).2).1 ∈ _
      rw [(yieldTo_requests s c p).1, hnext]
      simp only [requestTokens, hpeer, Option.any_some, hwaits, if_true]
      exact List.mem_cons_of_mem _ List.mem_cons_self
    · exact ⟨Option.isNone_iff_eq_none.mp hguard.2.1, Bool.not_eq_true _ ▸ hguard.2.2⟩
  · exact hopen

omit [Sha256] [MultihashCodec] in
theorem tryEmitPeerReady_requests (s : SwarmCore) (p : PeerId) :
    (s.tryEmitPeerReady p).nextOpenToken = s.nextOpenToken ∧
      (s.tryEmitPeerReady p).establishedPeers = s.establishedPeers := by
  rcases tryEmitPeerReady_cases s p with heq | ⟨info, -, -, heq⟩
  · rw [heq]
    exact ⟨rfl, rfl⟩
  · rw [heq]
    exact ⟨rfl, rfl⟩

theorem turns_upgradeConnectionIdentity {c : ConnectionId} (hcall : call.VerifiesAs c p)
    (hs : s₀.Agrees s) (hidle : s.Idle) (hnext : s.nextOpenToken = s₀.nextOpenToken) :
    Turns s₀ call s (s.upgradeConnectionIdentity c p) := by
  have hfirst : (takeOpenToken s.nextOpenToken).1 ∈ s₀.requestTokens call := by
    obtain ⟨endpoint, previous, nowMs, rfl, -⟩ := hcall
    rw [hnext]
    exact List.mem_cons_self
  -- what follows once the connection is filed under its peer
  have hbind : ∀ t : SwarmCore, t.nextOpenToken = s.nextOpenToken →
      Turns s₀ call s ((t.attach c p).tryEmitPeerReady p) →
      Turns s₀ call s (t.bindIdentity c p) := by
    intro t htoken ht
    obtain ⟨hsame, hpeers⟩ := tryEmitPeerReady_requests (t.attach c p) p
    refine ht.trans (turns_openOrReport ?_ (by rintro ⟨⟩) fun _ => ?_)
    · rw [hsame]
      show (takeOpenToken t.nextOpenToken).1 ∈ _
      rw [htoken]
      exact hfirst
    · rw [hpeers]
      exact BTreeSet.mem_insert_iff.mpr (.inl rfl)
  rw [upgradeConnectionIdentity]
  cases hc : s.connToPeer[c]? with
  | none =>
    have hrebind : Turns s₀ call s (((s.migrateFrom c p).attach c p).tryEmitPeerReady p) :=
      .single (.rebind c p hcall (by rw [hc]; rintro ⟨⟩) hs)
    rw [migrateFrom, hc] at hrebind
    exact hbind s rfl hrebind
  | some current =>
    by_cases heq : current = p
    · simp only [if_pos heq]
      exact .refl
    · have hrebind : Turns s₀ call s (((s.migrateFrom c p).attach c p).tryEmitPeerReady p) :=
        .single (.rebind c p hcall (by rw [hc]; exact fun h => heq (Option.some.inj h)) hs)
      rw [migrateFrom, hc] at hrebind
      simp only [if_neg heq, migrateIdentity_eq hidle]
      exact hbind _ rfl hrebind

/-! ## Ticks and calls of the application -/

theorem turns_handleTick (hidle : s.Idle) (nowMs : UInt64) :
    Turns s₀ call s (s.handleTick nowMs) := by
  have hping : Turns s₀ call s (s.feedPing (.tick nowMs)) :=
    turns_feedPing (PingProtocol.OutboundLe.onTick s.ping nowMs)
  -- ping does not talk to identify, which had nothing to say
  have hquiet : (s.feedPing (.tick nowMs)).drainIdentifyOutputs = s.feedPing (.tick nowMs) :=
    drainIdentifyOutputs_of_idle (feedPing_idle hidle.identify).identify
  rw [handleTick, hquiet]
  exact hping

theorem turns_pingPeer (payload : Payload) (nowMs : UInt64)
    (htoken : (takeOpenToken s.nextOpenToken).1 ∈ s₀.requestTokens call) :
    Turns s₀ call s (s.pingPeer p payload nowMs).1 := by
  have hle := PingProtocol.OutboundLe.sendPing s.ping p payload nowMs
  rw [pingPeer]
  split
  · exact .refl
  · split
    · split
      · next ping heq =>
        rw [heq] at hle
        exact turns_drainPing hle
      · next ping e heq =>
        rw [heq] at hle
        exact .single (.ping ping hle)
    · next hnone =>
      have hdefer : Turns s₀ call s { s with pendingPings := s.pendingPings.insert p payload } :=
        .single (.setPings _)
      simp only
      split
      · exact hdefer
      · next hidle =>
        refine hdefer.trans (turns_queueOpenProtocolStream htoken (fun _ => ?_) (by rintro ⟨⟩))
        exact ⟨Option.not_isSome_iff_eq_none.mp hnone, Bool.not_eq_true _ ▸ hidle⟩

omit [MultihashCodec] in
theorem turns_openUserStream (protocolId : String)
    (htoken : (takeOpenToken s.nextOpenToken).1 ∈ s₀.requestTokens call) :
    Turns s₀ call s (s.openUserStream p protocolId).1 := by
  rw [openUserStream]
  split
  · exact .refl
  · split
    · exact .refl
    · split
      · exact .refl
      · exact turns_queueOpenProtocolStream htoken (by rintro ⟨⟩) (by rintro ⟨⟩)

omit [MultihashCodec] in
theorem turns_userStreamAction (streamId : StreamId) (action : ConnectionId → SwarmAction) :
    Turns s₀ call s (s.userStreamAction p streamId action).1 := by
  simp only [userStreamAction]
  split
  · exact .single (.act _)
  · exact .refl

omit [MultihashCodec] in
theorem turns_disconnect : Turns s₀ call s (s.disconnect p).1 := by
  simp only [disconnect]
  split
  · exact .single (.act _)
  · exact .refl

/-! ## The calls -/

theorem turns_handleTransportEvent (hcoh : Coherent calls s₀) (event : TransportEvent)
    (nowMs : UInt64) (hcontract : EventContract calls event) :
    Turns s₀ (.input (.transport event nowMs)) s₀ (s₀.handleTransportEvent event nowMs) := by
  cases event with
  | connected c endpoint =>
    -- a connection is reported once, so this one is not tracked
    have hnew : s₀.connToPeer[c]? = none := by
      have hnot : c ∉ s₀.connToPeer := fun h => hcontract.1 (hcoh.connected c h)
      exact Std.ExtTreeMap.getElem?_eq_none hnot
    have hstart : Turns s₀ (.input (.transport (.connected c endpoint) nowMs)) s₀
        { s₀ with
          activeConnections := s₀.activeConnections.insert c true
          connToRemoteAddr := s₀.connToRemoteAddr.insert c endpoint.transport } :=
      .single (.locate _ _)
    simp only [handleTransportEvent]
    refine hstart.trans ?_
    split
    · next p hp =>
      exact turns_registerConnection ⟨endpoint, nowMs, rfl, hp⟩ ⟨rfl, rfl, rfl, rfl⟩
        ⟨hcoh.idle.ping, hcoh.idle.identify⟩ hnew (hcoh.primary p) rfl rfl
    · next hp =>
      simp only [ensurePeerIdForConn, hnew]
      exact .single (.placeholder c (.inl ⟨endpoint, nowMs, rfl, hp⟩) hnew rfl rfl)
  | peerIdentityVerified c endpoint previous =>
    have hstart : Turns s₀
        (.input (.transport (.peerIdentityVerified c endpoint previous) nowMs)) s₀
        { s₀ with connToRemoteAddr := s₀.connToRemoteAddr.insert c endpoint.transport } :=
      .single (.locate _ _)
    simp only [handleTransportEvent]
    refine hstart.trans ?_
    split
    · next p hp =>
      exact turns_upgradeConnectionIdentity ⟨endpoint, previous, nowMs, rfl, hp⟩
        ⟨rfl, rfl, rfl, rfl⟩ ⟨hcoh.idle.ping, hcoh.idle.identify⟩ rfl
    · exact .refl
  | incomingConnection c endpoint => exact .single (.locate _ _)
  | incomingStream c t => exact turns_handleIncomingStream
  | streamOpened c t => exact .refl
  | streamData c t data => exact turns_handleStreamData (k := ⟨c, t⟩) hcoh data nowMs
  | streamRemoteWriteClosed c t =>
    exact turns_handleStreamRemoteWriteClosed hcoh.idle (hcoh.ownerTracked _)
  | streamClosed c t => exact turns_handleStreamClosed (k := ⟨c, t⟩) hcoh.idle nowMs
  | closed c =>
    simp only [handleTransportEvent, handleConnectionClosed_eq hcoh.idle]
    exact .single (.close c rfl ⟨rfl, rfl, rfl, rfl⟩)
  | listening addr => exact .refl
  | error c message => exact Turns.emitError .refl _ _ _ _

/-- Every call but a poll is a chain of turns. -/
theorem step_turns (hcoh : Coherent calls s₀) (hcontract : TransportContract calls call)
    (hpoll : call ≠ .pollOutput) : Turns s₀ call s₀ (step s₀ call) := by
  cases call with
  | input input =>
    cases input with
    | transport event nowMs => exact turns_handleTransportEvent hcoh event nowMs hcontract
    | tick nowMs => exact turns_handleTick hcoh.idle nowMs
    | streamOpened c t token nowMs => exact turns_handleStreamOpened hcoh hcontract
    | openStreamFailed token reason nowMs => exact turns_handleOpenStreamFailed token reason
    | runtimeError error => exact .single (.report _ rfl)
  | pollOutput => exact absurd rfl hpoll
  | setLocalAddresses addrs => exact .single (.configure addrs _ _)
  | addUserProtocol id =>
    have hconfigure : Turns s₀ (.addUserProtocol id) s₀
        { s₀ with
          userProtocols :=
            if s₀.userProtocols.contains id then s₀.userProtocols else s₀.userProtocols ++ [id]
          supportedProtocols :=
            if s₀.supportedProtocols.contains id then s₀.supportedProtocols
            else s₀.supportedProtocols ++ [id] } := .single (.configure _ _ _)
    exact hconfigure.tail (.identify _)
  | ping p payload nowMs => exact turns_pingPeer payload nowMs List.mem_cons_self
  | openUserStream p protocolId => exact turns_openUserStream protocolId List.mem_cons_self
  | sendUserStream p t data => exact turns_userStreamAction t _
  | closeUserStreamWrite p t => exact turns_userStreamAction t _
  | resetUserStream p t => exact turns_userStreamAction t _
  | disconnect p => exact turns_disconnect

end Chains

end Minip2p.Swarm
