import Minip2p.Multistream.Agreement
import Minip2p.Swarm.Outgoing

/-!
# User streams from end to end

A core sends two lines on a stream of the application, the header and the protocol, and after them
what the application hands over, in order, and nothing else. It hears the same two lines and hands
on what comes after them. When the transport carries what one core sends to another in order, the
application at the far end is handed what was sent to it, byte by byte, and for the same protocol.
-/

namespace Minip2p.Swarm

open Multistream (Answers MultistreamOutput MultistreamSelect Role Sendable Speaks greeting)
open SwarmCore

/-! ## What was said on a stream -/

/-- Where a stream is filed says what was sent on it. -/
structure Voice (k : StreamKey) (delivered sent submitted : Bytes) (s : SwarmCore) : Prop where
  inbound : ∀ negotiator, s.inboundNegotiators[k]? = some negotiator →
    submitted = [] ∧ Speaks negotiator delivered sent
  outbound : ∀ pending, s.outboundNegotiators[k]? = some pending →
    submitted = [] ∧ Speaks pending.negotiator delivered sent ∧
      ∀ protocol, pending.target = .user protocol → pending.negotiator.role = .dialer protocol
  owned : ∀ protocol, s.streamOwner[k]? = some (.user protocol) →
    Sendable protocol ∧ sent = greeting protocol ++ submitted ∧
      ∃ heard, delivered = greeting protocol ++ heard

namespace Voice

variable {k : StreamKey} {delivered sent submitted : Bytes} {s s' : SwarmCore}

theorem of_unused (hin : s.inboundNegotiators[k]? = none) (hout : s.outboundNegotiators[k]? = none)
    (hown : ∀ protocol, s.streamOwner[k]? ≠ some (.user protocol)) :
    Voice k delivered sent submitted s := by
  constructor
  · intro n h
    rw [hin] at h
    cases h
  · intro p h
    rw [hout] at h
    cases h
  · intro protocol h
    exact absurd h (hown protocol)

/-- What is filed was filed before, and only a stream with an owner has more to say. -/
theorem of_le {more : Bytes} (hs : Voice k delivered sent submitted s) (h : LeAt k s s')
    (hin : k ∈ s.inboundNegotiators → more = []) (hout : k ∈ s.outboundNegotiators → more = []) :
    Voice k delivered (sent ++ more) (submitted ++ more) s' := by
  constructor
  · intro n hn
    have hold := h.inbound n hn
    obtain ⟨hsubmitted, hspeaks⟩ := hs.inbound n hold
    rw [hin (BTreeMap.mem_of_getElem? hold), List.append_nil, List.append_nil]
    exact ⟨hsubmitted, hspeaks⟩
  · intro p hp
    have hold := h.outbound p hp
    rw [hout (BTreeMap.mem_of_getElem? hold), List.append_nil, List.append_nil]
    exact hs.outbound p hold
  · intro protocol hown
    obtain ⟨hfits, hsent, hheard⟩ := hs.owned protocol (h.owner _ hown)
    exact ⟨hfits, by rw [hsent, List.append_assoc], hheard⟩

/-- A call that leaves the stream tables and the actions alone. -/
theorem same (hs : Voice k delivered sent submitted s) (h : SameStreams s s') :
    Voice k delivered sent submitted s' := by
  have hsame : Voice k delivered (sent ++ []) (submitted ++ []) s' :=
    hs.of_le (.of_same h) (fun _ => rfl) (fun _ => rfl)
  rwa [List.append_nil, List.append_nil] at hsame

end Voice

/-! ## Handlers -/

section Handlers

variable [Sha256] [MultihashCodec] {k : StreamKey} {s : SwarmCore}

omit [MultihashCodec] in
theorem ensurePeerIdForConn_actions (s : SwarmCore) (c : ConnectionId) :
    (s.ensurePeerIdForConn c).1.actions = s.actions := by
  simp only [ensurePeerIdForConn]
  split
  · rfl
  · rfl

/-- Data on a stream without a negotiator goes to the owner. -/
theorem handleStreamData_eq (hin : k ∉ s.inboundNegotiators) (hout : k ∉ s.outboundNegotiators)
    (data : Bytes) (nowMs : UInt64) :
    s.handleStreamData k data nowMs = s.dispatchProtocolData k data nowMs := by
  have hnotIn : ¬ s.inboundNegotiators.contains k = true := hin
  have hnotOut : ¬ s.outboundNegotiators.contains k = true := hout
  rw [handleStreamData, if_neg hnotIn, if_neg hnotOut]

/-- Data for the application sends nothing. -/
theorem dispatchProtocolData_user_actions {protocol : String}
    (h : s.streamOwner[k]? = some (.user protocol)) (data : Bytes) (nowMs : UInt64) :
    (s.dispatchProtocolData k data nowMs).actions = s.actions := by
  simp only [dispatchProtocolData, h]
  exact ensurePeerIdForConn_actions s k.conn

theorem dispatchRemaining_user_actions {protocol : String}
    (h : s.streamOwner[k]? = some (.user protocol)) (remaining : Bytes) (nowMs : UInt64) :
    (s.dispatchRemaining k remaining nowMs).actions = s.actions := by
  rw [dispatchRemaining]
  split
  · rfl
  · exact dispatchProtocolData_user_actions h remaining nowMs

/-- A stream that becomes the application's carries the negotiated protocol. -/
theorem onInboundNegotiated_user_actions {protocol owner : String}
    (h : (s.onInboundNegotiated k protocol).streamOwner[k]? = some (.user owner))
    (hnone : s.streamOwner[k]? = none) :
    owner = protocol ∧ (s.onInboundNegotiated k protocol).actions = s.actions := by
  have hensure : (s.ensurePeerIdForConn k.conn).1.streamOwner = s.streamOwner :=
    (ensurePeerIdForConn_sameStreams s k.conn).owner
  have hself : ∀ o : ProtocolKind, (s.streamOwner.insert k o)[k]? = some o :=
    fun o => BTreeMap.getElem?_insert_eq_some_iff.mpr (.inl ⟨rfl, rfl⟩)
  simp only [onInboundNegotiated] at h ⊢
  split at h
  · -- ping
    rw [(tables_oblivious.feedPing _ _).streamOwner, hensure, hself] at h
    cases h
  next hping =>
  rw [if_neg hping]
  split at h
  · -- identify
    simp only [respondIdentify] at h
    split at h
    · rw [(tables_oblivious.drainIdentifyOutputs _).streamOwner, hensure, hself] at h
      cases h
    · have hsame : (s.ensurePeerIdForConn k.conn).1.streamOwner[k]? = some (.user owner) := h
      rw [hensure, hnone] at hsame
      cases hsame
  next hidentify =>
  rw [if_neg hidentify]
  split at h
  · next huser =>
    rw [if_pos huser]
    have howner : ((s.ensurePeerIdForConn k.conn).1.streamOwner.insert k (.user protocol))[k]? =
        some (.user owner) := h
    rw [hensure, hself] at howner
    obtain rfl := ProtocolKind.user.inj (Option.some.inj howner)
    exact ⟨rfl, ensurePeerIdForConn_actions s k.conn⟩
  · rw [hensure, hnone] at h
    cases h

/-- The same for a stream the core opened, which carries the protocol it was opened for. -/
theorem onOutboundNegotiated_user_actions {target : ProtocolKind} {nowMs : UInt64} {owner : String}
    (h : (s.onOutboundNegotiated k target nowMs).streamOwner[k]? = some (.user owner)) :
    target = .user owner ∧ (s.onOutboundNegotiated k target nowMs).actions = s.actions := by
  have hself : ∀ o : ProtocolKind,
      ((s.ensurePeerIdForConn k.conn).1.streamOwner.insert k o)[k]? = some o :=
    fun o => BTreeMap.getElem?_insert_eq_some_iff.mpr (.inl ⟨rfl, rfl⟩)
  simp only [onOutboundNegotiated] at h ⊢
  cases target with
  | ping =>
    have howner := (startPing_negotiators _ k _ nowMs).2.2 _ h
    rw [hself] at howner
    cases howner
  | identifyInitiator =>
    rw [(tables_oblivious.feedIdentify _ _).streamOwner, hself] at h
    cases h
  | identifyResponder =>
    rw [hself] at h
    cases h
  | user protocolId =>
    have howner : ((s.ensurePeerIdForConn k.conn).1.streamOwner.insert k (.user protocolId))[k]? =
        some (.user owner) := h
    rw [hself] at howner
    exact ⟨Option.some.inj howner, ensurePeerIdForConn_actions s k.conn⟩

end Handlers

/-! ## Feeding a negotiator -/

section Feeding

variable [Sha256] [MultihashCodec] {k : StreamKey} {s : SwarmCore}
  {delivered prior submitted : Bytes}

/-- A stream that the application gets has said the two lines, and the bytes that follow them are
the first that it hears. -/
theorem voice_dispatchRemaining {t : SwarmCore} {protocol : String} {sent rest : Bytes}
    (hin : t.inboundNegotiators[k]? = none) (hout : t.outboundNegotiators[k]? = none)
    (hown : ∀ owner, t.streamOwner[k]? = some (.user owner) →
      owner = protocol ∧ prior ++ sentOn k t.actions = sent)
    (hfits : Sendable protocol) (hdelivered : delivered = greeting protocol ++ rest)
    (hsent : sent = greeting protocol) (nowMs : UInt64) :
    Voice k delivered (prior ++ sentOn k (t.dispatchRemaining k rest nowMs).actions) []
      (t.dispatchRemaining k rest nowMs) := by
  have hstreams := dispatchRemaining_sameStreams t k rest nowMs
  constructor
  · intro n hn
    rw [hstreams.inbound, hin] at hn
    cases hn
  · intro p hp
    rw [hstreams.outbound, hout] at hp
    cases hp
  · intro owner howner
    rw [hstreams.owner] at howner
    rw [dispatchRemaining_user_actions howner]
    obtain ⟨rfl, hactions⟩ := hown owner howner
    exact ⟨hfits, by rw [hactions, hsent, List.append_nil], rest, hdelivered⟩

theorem voice_feedInboundNegotiator
    (hs : Voice k delivered (prior ++ sentOn k s.actions) submitted s)
    {negotiator : MultistreamSelect} (hin : s.inboundNegotiators[k]? = some negotiator)
    (hout : s.outboundNegotiators[k]? = none) (hown : s.streamOwner[k]? = none) (data : Bytes)
    (nowMs : UInt64) :
    Voice k (delivered ++ data)
      (prior ++ sentOn k (s.feedInboundNegotiator k data nowMs).actions) submitted
      (s.feedInboundNegotiator k data nowMs) := by
  obtain ⟨rfl, hspeaks⟩ := hs.inbound negotiator hin
  have herase : ∀ m : BTreeMap StreamKey MultistreamSelect, (m.erase k)[k]? = none :=
    fun m => Std.ExtTreeMap.getElem?_erase_self
  have hnot : ∀ protocol, s.streamOwner[k]? ≠ some (.user protocol) := by
    intro protocol h
    rw [hown] at h
    cases h
  simp only [feedInboundNegotiator, hin, MultistreamSelect.handleInput,
    MultistreamSelect.drainOutputs, MultistreamSelect.takeRemainingBuffer]
  cases MultistreamSelect.receive_answers hspeaks data with
  | waits sent houtputs hspeaks' =>
    rw [houtputs, ← List.append_nil (sent.map _), pollInbound_sent, pollInbound]
    constructor
    · intro n hn
      obtain ⟨-, rfl⟩ | ⟨hne, -⟩ := BTreeMap.getElem?_insert_eq_some_iff.mp hn
      · refine ⟨rfl, ?_⟩
        rw [sentOn_append, sentOn_pieces, ← List.append_assoc]
        exact hspeaks'
      · exact absurd rfl hne
    · intro p hp
      rw [hout] at hp
      cases hp
    · intro protocol hp
      exact absurd hp (hnot protocol)
  -- the stream is the application's if it asked for the protocol
  | agrees sent protocol houtputs hfits hrole hdelivered hsaid =>
    rw [houtputs, pollInbound_sent, pollInbound]
    simp only [handleMultistreamOutput, pollInbound]
    refine voice_dispatchRemaining ?_ ?_ ?_ hfits hdelivered hsaid nowMs
    · rw [(onInboundNegotiated_negotiators _ k protocol).1]
      exact herase _
    · rw [(onInboundNegotiated_negotiators _ k protocol).2]
      exact hout
    · intro owner howner
      obtain ⟨rfl, hactions⟩ := onInboundNegotiated_user_actions howner hown
      refine ⟨rfl, ?_⟩
      rw [hactions, sentOn_append, sentOn_pieces, List.append_assoc]
  | fails sent output houtput houtputs =>
    rw [houtputs, pollInbound_sent]
    -- the negotiator is dropped with the failure
    rcases houtput with rfl | ⟨reason, rfl⟩
    · simp only [pollInbound, handleMultistreamOutput]
      exact .of_unused (herase _) hout hnot
    · simp only [pollInbound, handleMultistreamOutput]
      exact .of_unused (herase _) hout hnot

theorem voice_feedOutboundNegotiator
    (hs : Voice k delivered (prior ++ sentOn k s.actions) submitted s)
    {pending : PendingOutbound} (hout : s.outboundNegotiators[k]? = some pending)
    (hin : s.inboundNegotiators[k]? = none) (hown : s.streamOwner[k]? = none) (data : Bytes)
    (nowMs : UInt64) :
    Voice k (delivered ++ data)
      (prior ++ sentOn k (s.feedOutboundNegotiator k data nowMs).actions) submitted
      (s.feedOutboundNegotiator k data nowMs) := by
  obtain ⟨rfl, hspeaks, htarget⟩ := hs.outbound pending hout
  have herase : ∀ m : BTreeMap StreamKey PendingOutbound, (m.erase k)[k]? = none :=
    fun m => Std.ExtTreeMap.getElem?_erase_self
  have hnot : ∀ protocol, s.streamOwner[k]? ≠ some (.user protocol) := by
    intro protocol h
    rw [hown] at h
    cases h
  simp only [feedOutboundNegotiator, hout, MultistreamSelect.handleInput,
    MultistreamSelect.drainOutputs, MultistreamSelect.takeRemainingBuffer]
  cases MultistreamSelect.receive_answers hspeaks data with
  -- as on the inbound side, with the tables exchanged
  | waits sent houtputs hspeaks' =>
    rw [houtputs, ← List.append_nil (sent.map _), pollOutbound_sent, pollOutbound]
    constructor
    · intro n hn
      rw [hin] at hn
      cases hn
    · intro p hp
      obtain ⟨-, rfl⟩ | ⟨hne, -⟩ := BTreeMap.getElem?_insert_eq_some_iff.mp hp
      · refine ⟨rfl, ?_, fun protocol h => ?_⟩
        · rw [sentOn_append, sentOn_pieces, ← List.append_assoc]
          exact hspeaks'
        · exact (MultistreamSelect.receive_role _ _).trans (htarget protocol h)
      · exact absurd rfl hne
    · intro protocol hp
      exact absurd hp (hnot protocol)
  -- what was agreed on is what was asked for
  | agrees sent protocol houtputs hfits hrole hdelivered hsaid =>
    rw [houtputs, pollOutbound_sent, pollOutbound]
    simp only [pollOutbound]
    refine voice_dispatchRemaining ?_ ?_ ?_ hfits hdelivered hsaid nowMs
    · rw [(onOutboundNegotiated_negotiators _ k pending.target nowMs).1]
      exact hin
    · rw [(onOutboundNegotiated_negotiators _ k pending.target nowMs).2]
      exact herase _
    · intro owner howner
      obtain ⟨huser, hactions⟩ := onOutboundNegotiated_user_actions howner
      refine ⟨hrole owner (htarget owner huser), ?_⟩
      rw [hactions, sentOn_append, sentOn_pieces, List.append_assoc]
  | fails sent output houtput houtputs =>
    rw [houtputs, pollOutbound_sent]
    rcases houtput with rfl | ⟨reason, rfl⟩
    · simp only [pollOutbound]
      exact .of_unused hin (herase _) hnot
    · simp only [pollOutbound, handleMultistreamOutput]
      exact .of_unused hin (herase _) hnot

end Feeding

/-! ## One call -/

section Steps

variable {s : SwarmCore} {call : Call} {calls : List Call} {k : StreamKey}
  {delivered prior submitted : Bytes}

/-- A listener says the header. -/
theorem voice_handleIncomingStream (hout : s.outboundNegotiators[k]? = none)
    (hown : s.streamOwner[k]? = none) (hsilent : prior ++ sentOn k s.actions = []) :
    Voice k [] (prior ++ sentOn k (s.handleIncomingStream k).actions) []
      (s.handleIncomingStream k) := by
  have hactions : (s.handleIncomingStream k).actions =
      s.actions ++ [Multistream.encodeMessage Multistream.multistreamProtocolId].map
        (.sendStream k.conn k.stream) := rfl
  rw [hactions, sentOn_append, sentOn_pieces, ← List.append_assoc, hsilent]
  constructor
  · intro n hn
    obtain ⟨-, rfl⟩ | ⟨hne, -⟩ := BTreeMap.getElem?_insert_eq_some_iff.mp hn
    · exact ⟨rfl, .header rfl rfl rfl (List.append_nil _)⟩
    · exact absurd rfl hne
  · intro p hp
    have hold : s.outboundNegotiators[k]? = some p := hp
    rw [hout] at hold
    cases hold
  · intro protocol hp
    have hold : s.streamOwner[k]? = some (.user protocol) := hp
    rw [hown] at hold
    cases hold

/-- So does a dialer, whose proposal is what the stream was requested for. -/
theorem voice_handleStreamOpened (hin : s.inboundNegotiators[k]? = none)
    (hout : s.outboundNegotiators[k]? = none) (hown : s.streamOwner[k]? = none)
    (hsilent : prior ++ sentOn k s.actions = []) (hasked : Asked s) (token : OpenStreamToken) :
    Voice k [] (prior ++ sentOn k (s.handleStreamOpened k token).actions) []
      (s.handleStreamOpened k token) := by
  have hnot : ∀ protocol, s.streamOwner[k]? ≠ some (.user protocol) := by
    intro protocol h
    rw [hown] at h
    cases h
  simp only [handleStreamOpened]
  split
  · exact .of_unused hin hout hnot
  · next pending hpending =>
    split
    · exact .of_unused hin hout hnot
    · simp only [startOutbound, MultistreamSelect.handleInput]
      have hactions : (pollStart k (MultistreamSelect.dialer pending.protocol).start.drainOutputs.1
          { s with pendingOpens := s.pendingOpens.erase token }).actions =
          s.actions ++ [Multistream.encodeMessage Multistream.multistreamProtocolId].map
            (.sendStream k.conn k.stream) := rfl
      rw [hactions, sentOn_append, sentOn_pieces, ← List.append_assoc, hsilent]
      constructor
      · intro n hn
        have hold : s.inboundNegotiators[k]? = some n := hn
        rw [hin] at hold
        cases hold
      · intro p hp
        obtain ⟨-, rfl⟩ | ⟨hne, -⟩ := BTreeMap.getElem?_insert_eq_some_iff.mp hp
        · refine ⟨rfl, .header rfl rfl rfl (List.append_nil _), ?_⟩
          intro protocol htarget
          have hprotocol := hasked token pending hpending protocol htarget
          exact congrArg Role.dialer hprotocol
        · exact absurd rfl hne
      · intro protocol hp
        have hold : s.streamOwner[k]? = some (.user protocol) := hp
        rw [hown] at hold
        cases hold

variable [Sha256] [MultihashCodec]

theorem voice_handleStreamData (hcoh : Coherent calls s)
    (hs : Voice k delivered (prior ++ sentOn k s.actions) submitted s) (data : Bytes)
    (nowMs : UInt64) :
    Voice k (delivered ++ data) (prior ++ sentOn k (s.handleStreamData k data nowMs).actions)
      submitted (s.handleStreamData k data nowMs) := by
  rw [handleStreamData]
  split
  · next hcontains =>
    have hmem : k ∈ s.inboundNegotiators := hcontains
    obtain ⟨negotiator, hin⟩ := BTreeMap.exists_getElem?_of_mem hmem
    obtain ⟨hout, hown⟩ := hcoh.inboundDisjoint k hmem
    exact voice_feedInboundNegotiator hs hin (Std.ExtTreeMap.getElem?_eq_none hout)
      (Std.ExtTreeMap.getElem?_eq_none hown) data nowMs
  · next hnotIn =>
    have hin : s.inboundNegotiators[k]? = none := Std.ExtTreeMap.getElem?_eq_none hnotIn
    split
    · next hcontains =>
      have hmem : k ∈ s.outboundNegotiators := hcontains
      obtain ⟨pending, hout⟩ := BTreeMap.exists_getElem?_of_mem hmem
      have hown := hcoh.outboundDisjoint k hmem
      exact voice_feedOutboundNegotiator hs hout hin (Std.ExtTreeMap.getElem?_eq_none hown) data
        nowMs
    · next hnotOut =>
      have hout : s.outboundNegotiators[k]? = none := Std.ExtTreeMap.getElem?_eq_none hnotOut
      have hstreams := dispatchProtocolData_sameStreams s k data nowMs
      constructor
      · intro n hn
        rw [hstreams.inbound, hin] at hn
        cases hn
      · intro p hp
        rw [hstreams.outbound, hout] at hp
        cases hp
      · intro protocol howner
        rw [hstreams.owner] at howner
        rw [dispatchProtocolData_user_actions howner]
        obtain ⟨hfits, hsent, heard, hdelivered⟩ := hs.owned protocol howner
        exact ⟨hfits, hsent, heard ++ data, by rw [hdelivered, List.append_assoc]⟩

/-- The end of what the peer sends is news for the owner alone. -/
theorem voice_handleStreamRemoteWriteClosed (hcoh : Coherent calls s)
    (hs : Voice k delivered (prior ++ sentOn k s.actions) submitted s) :
    Voice k delivered (prior ++ sentOn k (s.handleStreamRemoteWriteClosed k).actions) submitted
      (s.handleStreamRemoteWriteClosed k) := by
  have hstreams := handleStreamRemoteWriteClosed_sameStreams s k
  have hquiet : (s.handleStreamRemoteWriteClosed k).actions = s.actions →
      Voice k delivered (prior ++ sentOn k (s.handleStreamRemoteWriteClosed k).actions) submitted
        (s.handleStreamRemoteWriteClosed k) := by
    intro hactions
    rw [hactions]
    exact hs.same hstreams
  cases hown : s.streamOwner[k]? with
  | none => exact hquiet (by simp only [handleStreamRemoteWriteClosed, hown])
  | some owner =>
    have hmem : k ∈ s.streamOwner := BTreeMap.mem_of_getElem? hown
    have hunused : (∀ protocol, owner ≠ .user protocol) →
        Voice k delivered (prior ++ sentOn k (s.handleStreamRemoteWriteClosed k).actions) submitted
          (s.handleStreamRemoteWriteClosed k) := by
      intro hnot
      refine .of_unused ?_ ?_ ?_
      · rw [hstreams.inbound]
        exact Std.ExtTreeMap.getElem?_eq_none fun h => (hcoh.inboundDisjoint k h).2 hmem
      · rw [hstreams.outbound]
        exact Std.ExtTreeMap.getElem?_eq_none fun h => hcoh.outboundDisjoint k h hmem
      · rw [hstreams.owner, hown]
        exact fun protocol h => hnot protocol (Option.some.inj h)
    cases owner with
    | user protocol =>
      refine hquiet ?_
      simp only [handleStreamRemoteWriteClosed, hown]
      exact ensurePeerIdForConn_actions s k.conn
    | _ => exact hunused (by rintro _ ⟨⟩)

/-- Every call but a poll moves what was said along with what was delivered and handed over. -/
theorem step_voice (hcoh : Coherent calls s) (hcontract : TransportContract calls call)
    (hclash : NoClash s call) (hunique : Unique s) (hasked : Asked s) (hpoll : call ≠ .pollOutput)
    (hfresh : ¬ Announced calls k →
      delivered = [] ∧ prior ++ sentOn k s.actions = [] ∧ submitted = [])
    (hs : Voice k delivered (prior ++ sentOn k s.actions) submitted s) :
    Voice k (delivered ++ call.dataOn k) (prior ++ sentOn k (step s call).actions)
      (submitted ++ submittedBy k s call) (step s call) := by
  by_cases hkey : call.key? = some k
  · rw [submittedBy_of_key? hkey, List.append_nil]
    have hnew : ¬ Announced calls k →
        (delivered = [] ∧ prior ++ sentOn k s.actions = [] ∧ submitted = []) ∧
          s.inboundNegotiators[k]? = none ∧ s.outboundNegotiators[k]? = none ∧
          s.streamOwner[k]? = none :=
      fun h => ⟨hfresh h, unfiled_of_not_announced hcoh h⟩
    cases Call.aboutStream_of_key? hkey with
    | reported nowMs =>
      rw [Call.dataOn, List.append_nil]
      · exact hs
      · rintro _ _ _ _ ⟨⟩
    | incoming nowMs =>
      obtain ⟨⟨rfl, hsilent, rfl⟩, -, hout, hown⟩ := hnew hcontract.2.2
      exact voice_handleIncomingStream hout hown hsilent
    | data data nowMs =>
      rw [Call.dataOn, if_pos rfl]
      exact voice_handleStreamData hcoh hs data nowMs
    | remoteWriteClosed nowMs =>
      rw [Call.dataOn, List.append_nil]
      · exact voice_handleStreamRemoteWriteClosed hcoh hs
      · rintro _ _ _ _ ⟨⟩
    | closed nowMs =>
      obtain ⟨hin, hout, hown⟩ := handleStreamClosed_unused s k
      refine .of_unused hin hout ?_
      intro protocol h
      rw [step, handleInput, handleTransportEvent, hown] at h
      cases h
    | opened token nowMs =>
      obtain ⟨⟨rfl, hsilent, rfl⟩, hin, hout, hown⟩ := hnew hcontract
      exact voice_handleStreamOpened hin hout hown hsilent hasked token
  · have hother : call.dataKey? ≠ some k := fun h => hkey (Call.key?_of_dataKey? h)
    have hle := step_leAt hcoh hcontract hkey
    rw [Call.dataOn_of_dataKey? hother, List.append_nil]
    by_cases hping : s.streamOwner[k]? = some .ping
    · -- nothing is claimed about a stream of ping
      have hmem : k ∈ s.streamOwner := BTreeMap.mem_of_getElem? hping
      refine .of_unused (Option.eq_none_iff_forall_ne_some.mpr ?_)
        (Option.eq_none_iff_forall_ne_some.mpr ?_) ?_
      · intro n hn
        exact (hcoh.inboundDisjoint k (BTreeMap.mem_of_getElem? (hle.inbound n hn))).2 hmem
      · intro p hp
        exact hcoh.outboundDisjoint k (BTreeMap.mem_of_getElem? (hle.outbound p hp)) hmem
      · intro protocol hown
        have hold := hle.owner _ hown
        rw [hping] at hold
        cases hold
    · rw [step_sentOn hcoh hcontract hclash hunique hpoll hkey hping, ← List.append_assoc]
      have hquiet : k ∉ s.streamOwner → submittedBy k s call = [] := by
        intro hnot
        refine submittedBy_of_not_user ?_ call
        intro protocol hown
        exact hnot (BTreeMap.mem_of_getElem? hown)
      exact hs.of_le hle (fun hin => hquiet (hcoh.inboundDisjoint k hin).2)
        (fun hout => hquiet (hcoh.outboundDisjoint k hout))

omit [Sha256] [MultihashCodec] in
theorem not_files_of_unfiled (hin : s.inboundNegotiators[k]? = none)
    (hout : s.outboundNegotiators[k]? = none) (hown : s.streamOwner[k]? = none) : ¬ s.Files k := by
  have hnone : ∀ {β : Type} {m : BTreeMap StreamKey β}, m[k]? = none → k ∉ m := by
    intro β m hm hmem
    obtain ⟨v, hv⟩ := BTreeMap.exists_getElem?_of_mem hmem
    rw [hm] at hv
    cases hv
  rintro (h | h | h)
  · exact hnone hin h
  · exact hnone hout h
  · exact hnone hown h

/-- Nothing happens on a stream that is not filed, until it is reported. -/
theorem step_unfiled (hcoh : Coherent calls s) (hcontract : TransportContract calls call)
    (hclash : NoClash s call) (hunique : Unique s) (hpoll : call ≠ .pollOutput)
    (hfiles : ¬ s.Files k) (hannounces : call.announces? ≠ some k) :
    ¬ (step s call).Files k ∧ sentOn k (step s call).actions = sentOn k s.actions ∧
      submittedBy k s call = [] ∧ emittedBy k s call = [] := by
  have hin : s.inboundNegotiators[k]? = none :=
    Std.ExtTreeMap.getElem?_eq_none fun h => hfiles (.inl h)
  have hout : s.outboundNegotiators[k]? = none :=
    Std.ExtTreeMap.getElem?_eq_none fun h => hfiles (.inr (.inl h))
  have hown : s.streamOwner[k]? = none :=
    Std.ExtTreeMap.getElem?_eq_none fun h => hfiles (.inr (.inr h))
  have hnot : ∀ owner, s.streamOwner[k]? ≠ some owner := by
    intro owner h
    rw [hown] at h
    cases h
  have hsubmitted : submittedBy k s call = [] := submittedBy_of_not_user (fun _ => hnot _) call
  by_cases hkey : call.key? = some k
  · have hsame : step s call = s → ¬ (step s call).Files k ∧
        sentOn k (step s call).actions = sentOn k s.actions ∧ submittedBy k s call = [] ∧
        emittedBy k s call = [] := by
      intro heq
      refine ⟨by rwa [heq], by rw [heq], hsubmitted, ?_⟩
      rw [emittedBy]
      split
      · exact emittedSince_self (by rw [heq])
      · rfl
    cases Call.aboutStream_of_key? hkey with
    | reported nowMs => exact hsame rfl
    | incoming nowMs => exact absurd rfl hannounces
    | data data nowMs =>
      refine hsame ?_
      show s.handleStreamData k data nowMs = s
      rw [handleStreamData_eq (fun h => hfiles (.inl h)) fun h => hfiles (.inr (.inl h))]
      simp only [dispatchProtocolData, hown]
    | remoteWriteClosed nowMs =>
      refine hsame ?_
      show s.handleStreamRemoteWriteClosed k = s
      simp only [handleStreamRemoteWriteClosed, hown]
    | closed nowMs =>
      obtain ⟨hin', hout', hown'⟩ := handleStreamClosed_unused s k
      refine ⟨?_, ?_, hsubmitted, emittedBy_of_dataKey? hcoh hcontract (by rintro ⟨⟩)⟩
      · exact not_files_of_unfiled hin' hout' hown'
      · show sentOn k (s.handleStreamClosed k).actions = _
        simp only [handleStreamClosed, hown]
    | opened token nowMs => exact absurd rfl hannounces
  · have hle := step_leAt hcoh hcontract hkey
    have hother : call.dataKey? ≠ some k := fun h => hkey (Call.key?_of_dataKey? h)
    refine ⟨?_, ?_, hsubmitted, emittedBy_of_dataKey? hcoh hcontract hother⟩
    · exact not_files_of_unfiled
        (Option.eq_none_iff_forall_ne_some.mpr fun n hn => by
          have hold := hle.inbound n hn
          rw [hin] at hold
          cases hold)
        (Option.eq_none_iff_forall_ne_some.mpr fun p hp => by
          have hold := hle.outbound p hp
          rw [hout] at hold
          cases hold)
        (Option.eq_none_iff_forall_ne_some.mpr fun o ho => hnot o (hle.owner o ho))
    · rw [step_sentOn hcoh hcontract hclash hunique hpoll hkey (hnot _), hsubmitted,
        List.append_nil]

end Steps

/-! ## Conversations -/

/-- On a stream that the application has got, the two lines were said and heard, then what the
application handed over and what it was handed. Only a stream that is filed no more may get bytes
that nobody hears. -/
structure Talk (k : StreamKey) (protocol : String) (delivered emitted sent submitted : Bytes)
    (s : SwarmCore) : Prop where
  fits : Sendable protocol
  filed : s.streamOwner[k]? = some (.user protocol) ∨ ¬ s.Files k
  said : sent = greeting protocol ++ submitted
  heard : ∃ unheard, delivered = greeting protocol ++ (emitted ++ unheard) ∧
    (s.streamOwner[k]? = some (.user protocol) → unheard = [])

section Talks

variable {s : SwarmCore} {call : Call} {calls : List Call} {k : StreamKey} {protocol : String}
  {delivered emitted sent submitted prior : Bytes}

/-- A stream that the application owns. -/
theorem Talk.of_owned (hvoice : Voice k delivered sent submitted s)
    (hstage : Stage k delivered emitted s) (hown : s.streamOwner[k]? = some (.user protocol)) :
    Talk k protocol delivered emitted sent submitted s := by
  obtain ⟨hfits, hsaid, heard, hdelivered⟩ := hvoice.owned protocol hown
  obtain ⟨header, line, n, m, hheader, hline, hemitted⟩ := hstage.owned protocol hown
  refine ⟨hfits, .inl hown, hsaid, [], ?_, fun _ => rfl⟩
  -- the two frames that were read are the two lines
  rw [hdelivered, greeting, List.append_assoc] at hheader
  rw [Multistream.decodeMessage_encodeMessage Multistream.header_sendable] at hheader
  obtain ⟨rfl, rfl⟩ := Multistream.DecodeResult.complete.inj hheader
  rw [hdelivered, greeting, List.append_assoc, List.drop_left,
    Multistream.decodeMessage_encodeMessage hfits] at hline
  obtain ⟨rfl, rfl⟩ := Multistream.DecodeResult.complete.inj hline
  rw [hemitted, hdelivered, greeting, List.append_nil, ← List.length_append, List.drop_left]

/-- The application says more, or nothing, and the stream stays or goes. -/
theorem Talk.say {s' : SwarmCore} (hs : Talk k protocol delivered emitted sent submitted s)
    (more : Bytes) (hfiled : s'.streamOwner[k]? = some (.user protocol) ∨ ¬ s'.Files k)
    (hkept : s'.streamOwner[k]? = some (.user protocol) →
      s.streamOwner[k]? = some (.user protocol)) :
    Talk k protocol delivered emitted (sent ++ more) (submitted ++ more) s' := by
  obtain ⟨unheard, hdelivered, hnone⟩ := hs.heard
  exact ⟨hs.fits, hfiled, by rw [hs.said, List.append_assoc], unheard, hdelivered,
    fun h => hnone (hkept h)⟩

theorem Talk.quiet {s' : SwarmCore} (hs : Talk k protocol delivered emitted sent submitted s)
    (hfiled : s'.streamOwner[k]? = some (.user protocol) ∨ ¬ s'.Files k)
    (hkept : s'.streamOwner[k]? = some (.user protocol) →
      s.streamOwner[k]? = some (.user protocol)) :
    Talk k protocol delivered emitted sent submitted s' := by
  have hsame := hs.say [] hfiled hkept
  rwa [List.append_nil, List.append_nil] at hsame

theorem Talk.same {s' : SwarmCore} (hs : Talk k protocol delivered emitted sent submitted s)
    (h : SameStreams s s') : Talk k protocol delivered emitted sent submitted s' := by
  have hfiles : ¬ s.Files k → ¬ s'.Files k := by
    rw [Files, Files, h.inbound, h.outbound, h.owner]
    exact id
  refine hs.quiet ?_ ?_
  · rw [h.owner]
    exact hs.filed.imp_right hfiles
  · rw [h.owner]
    exact id

/-- A stream is reported once. -/
theorem announces?_ne_of_announced (hcontract : TransportContract calls call)
    (h : Announced calls k) : call.announces? ≠ some k := by
  rcases call with (⟨event, nowMs⟩ | _ | ⟨c, t, token, nowMs⟩ | _ | _) | _
  case input.transport =>
    cases event with
    | incomingStream c t =>
      rintro ⟨⟩
      exact hcontract.2.2 h
    | _ => rintro ⟨⟩
  case input.streamOpened =>
    rintro ⟨⟩
    exact hcontract h
  all_goals rintro ⟨⟩

variable [Sha256] [MultihashCodec]

/-- A conversation goes on while the stream is the application's. -/
theorem step_talk_owned (hcoh : Coherent calls s) (hcontract : TransportContract calls call)
    (hclash : NoClash s call) (hunique : Unique s) (hpoll : call ≠ .pollOutput)
    (hown : s.streamOwner[k]? = some (.user protocol))
    (hs : Talk k protocol delivered emitted (prior ++ sentOn k s.actions) submitted s) :
    Talk k protocol (delivered ++ call.dataOn k) (emitted ++ emittedBy k s call)
      (prior ++ sentOn k (step s call).actions) (submitted ++ submittedBy k s call)
      (step s call) := by
  have hmem : k ∈ s.streamOwner := BTreeMap.mem_of_getElem? hown
  have hannounced : Announced calls k := hcoh.announced k (.inr (.inr hmem))
  have hnotIn : k ∉ s.inboundNegotiators := fun h => (hcoh.inboundDisjoint k h).2 hmem
  have hnotOut : k ∉ s.outboundNegotiators := fun h => hcoh.outboundDisjoint k h hmem
  -- a call that delivers nothing hands nothing over either
  have hother : call.dataKey? ≠ some k →
      Talk k protocol delivered emitted (prior ++ sentOn k (step s call).actions)
        (submitted ++ submittedBy k s call) (step s call) →
      Talk k protocol (delivered ++ call.dataOn k) (emitted ++ emittedBy k s call)
        (prior ++ sentOn k (step s call).actions) (submitted ++ submittedBy k s call)
        (step s call) := by
    intro hdata htalk
    rwa [Call.dataOn_of_dataKey? hdata, emittedBy_of_dataKey? hcoh hcontract hdata,
      List.append_nil, List.append_nil]
  by_cases hkey : call.key? = some k
  · rw [submittedBy_of_key? hkey, List.append_nil] at hother ⊢
    have hannounces := announces?_ne_of_announced hcontract hannounced
    cases Call.aboutStream_of_key? hkey with
    | reported nowMs => exact hother (by rintro ⟨⟩) hs
    | incoming nowMs => exact absurd rfl hannounces
    | data data nowMs =>
      obtain ⟨unheard, hdelivered, hnone⟩ := hs.heard
      obtain ⟨p, hevents⟩ := dispatchProtocolData_user hown data nowMs
      have hdispatch := handleStreamData_eq hnotIn hnotOut data nowMs
      have hactions : (s.handleStreamData k data nowMs).actions = s.actions := by
        rw [hdispatch]
        exact dispatchProtocolData_user_actions hown data nowMs
      have howned : (s.handleStreamData k data nowMs).streamOwner[k]? = some (.user protocol) := by
        rw [hdispatch, (dispatchProtocolData_sameStreams s k data nowMs).owner]
        exact hown
      have hemits : emittedSince k s (s.handleStreamData k data nowMs) = data := by
        rw [hdispatch, emittedSince_eq rfl hevents, List.flatMap_cons, List.flatMap_nil,
          List.append_nil, userData_self]
      rw [Call.dataOn, if_pos rfl, emittedBy, if_pos (.inr rfl)]
      show Talk k protocol _ (emitted ++ emittedSince k s (s.handleStreamData k data nowMs))
        (prior ++ sentOn k (s.handleStreamData k data nowMs).actions) _ _
      rw [hemits, hactions]
      refine ⟨hs.fits, .inl howned, hs.said, [], ?_, fun _ => rfl⟩
      rw [hdelivered, hnone hown]
      simp
    | remoteWriteClosed nowMs =>
      refine hother (by rintro ⟨⟩) ?_
      have hsame := handleStreamRemoteWriteClosed_sameStreams s k
      have hactions : (s.handleStreamRemoteWriteClosed k).actions = s.actions := by
        simp only [handleStreamRemoteWriteClosed, hown]
        exact ensurePeerIdForConn_actions s k.conn
      have howned : (s.handleStreamRemoteWriteClosed k).streamOwner[k]? =
          some (.user protocol) := by
        rw [hsame.owner]
        exact hown
      show Talk k protocol _ _ (prior ++ sentOn k (s.handleStreamRemoteWriteClosed k).actions) _
        (s.handleStreamRemoteWriteClosed k)
      rw [hactions]
      exact hs.quiet (.inl howned) fun _ => hown
    | closed nowMs =>
      refine hother (by rintro ⟨⟩) ?_
      obtain ⟨hin', hout', hown'⟩ := handleStreamClosed_unused s k
      have hactions : (s.handleStreamClosed k).actions = s.actions := by
        simp only [handleStreamClosed, hown]
        cases s.connToPeer[k.conn]? <;> rfl
      show Talk k protocol _ _ (prior ++ sentOn k (s.handleStreamClosed k).actions) _
        (s.handleStreamClosed k)
      rw [hactions]
      exact hs.quiet (.inr (not_files_of_unfiled hin' hout' hown')) fun _ => hown
    | opened token nowMs => exact absurd rfl hannounces
  · refine hother (fun h => hkey (Call.key?_of_dataKey? h)) ?_
    have hle := step_leAt hcoh hcontract hkey
    have hping : s.streamOwner[k]? ≠ some .ping := by
      rw [hown]
      rintro ⟨⟩
    rw [step_sentOn hcoh hcontract hclash hunique hpoll hkey hping, ← List.append_assoc]
    refine hs.say _ ?_ fun _ => hown
    cases hown' : (step s call).streamOwner[k]? with
    | some owner =>
      have hold := hle.owner owner hown'
      rw [hown] at hold
      exact .inl hold.symm
    | none =>
      refine .inr (not_files_of_unfiled ?_ ?_ hown')
      · exact Option.eq_none_iff_forall_ne_some.mpr fun n hn =>
          hnotIn (BTreeMap.mem_of_getElem? (hle.inbound n hn))
      · exact Option.eq_none_iff_forall_ne_some.mpr fun p hp =>
          hnotOut (BTreeMap.mem_of_getElem? (hle.outbound p hp))

/-- Every call but a poll carries a conversation on. -/
theorem step_talk (hcoh : Coherent calls s) (hcontract : TransportContract calls call)
    (hclash : NoClash s call) (hunique : Unique s) (hpoll : call ≠ .pollOutput)
    (hannounced : Announced calls k)
    (hs : Talk k protocol delivered emitted (prior ++ sentOn k s.actions) submitted s) :
    Talk k protocol (delivered ++ call.dataOn k) (emitted ++ emittedBy k s call)
      (prior ++ sentOn k (step s call).actions) (submitted ++ submittedBy k s call)
      (step s call) := by
  rcases hs.filed with hown | hfiles
  · exact step_talk_owned hcoh hcontract hclash hunique hpoll hown hs
  · -- a stream that was given up is not heard any more
    obtain ⟨hfiles', hsent, hsubmitted, hemitted⟩ := step_unfiled hcoh hcontract hclash hunique
      hpoll hfiles (announces?_ne_of_announced hcontract hannounced)
    obtain ⟨unheard, hdelivered, -⟩ := hs.heard
    rw [hsent, hsubmitted, hemitted, List.append_nil, List.append_nil]
    refine ⟨hs.fits, .inr hfiles', hs.said, unheard ++ call.dataOn k, ?_, fun hown => ?_⟩
    · rw [hdelivered]
      simp
    · exact absurd (.inr (.inr (BTreeMap.mem_of_getElem? hown))) hfiles'

end Talks

/-! ## Runs -/

section Runs

variable [Sha256] [MultihashCodec] {calls : List Call} {call : Call} {k : StreamKey}
  {protocol : String}

/-- The application owned the stream at some point of a run. -/
def OwnedDuring (k : StreamKey) (protocol : String) (s : SwarmCore) (calls : List Call) : Prop :=
  ∃ before, before <+: calls ∧ (run s before).streamOwner[k]? = some (.user protocol)

/-- The queues hold what was polled before and what waits. -/
theorem sentOn_emittedActions (s : SwarmCore) (calls : List Call) :
    sentOn k (emittedActions s calls) =
      sentOn k (polledActions s calls) ++ sentOn k (run s calls).actions :=
  sentOn_append _ _

omit [Sha256] [MultihashCodec] in
theorem sameStreams_poll (s : SwarmCore) : SameStreams s s.pollOutput.1 := by
  obtain ⟨events, actions, heq⟩ := pollOutput_eq s
  rw [heq]
  exact ⟨rfl, rfl, rfl⟩

/-- What was delivered, sent, handed over and emitted with one more call. -/
structure Spoken (core : SwarmCore) (k : StreamKey) (calls : List Call) : Prop where
  asked : Asked (run core calls)
  fresh : ¬ Announced calls k → deliveredOn k calls = [] ∧
    sentOn k (emittedActions core calls) = [] ∧ submittedOn k core calls = []
  voice : Voice k (deliveredOn k calls) (sentOn k (emittedActions core calls))
    (submittedOn k core calls) (run core calls)
  talk : ∀ protocol, OwnedDuring k protocol core calls →
    Talk k protocol (deliveredOn k calls) (emittedOn k core calls)
      (sentOn k (emittedActions core calls)) (submittedOn k core calls) (run core calls)

namespace Spoken

variable {core : SwarmCore}

/-- A stream that the application had was reported. -/
theorem announced (hs : Spoken core k calls) (h : OwnedDuring k protocol core calls) :
    Announced calls k := by
  by_contra hnot
  obtain ⟨unheard, hdelivered, -⟩ := (hs.talk protocol h).heard
  rw [(hs.fresh hnot).1, greeting, Multistream.encodeMessage] at hdelivered
  simp at hdelivered

/-- A poll says nothing new. -/
theorem poll (hs : Spoken core k calls) (hcoh : Coherent calls (run core calls))
    (hstage : Stage k (deliveredOn k calls) (emittedOn k core calls) (run core calls)) :
    Spoken core k (calls ++ [.pollOutput]) := by
  have hsame : SameStreams (run core calls) (run core (calls ++ [.pollOutput])) := by
    rw [run_concat]
    exact sameStreams_poll (run core calls)
  have hdelivered : deliveredOn k (calls ++ [.pollOutput]) = deliveredOn k calls := by
    rw [deliveredOn_concat]
    exact List.append_nil _
  have hsubmitted : submittedOn k core (calls ++ [.pollOutput]) = submittedOn k core calls := by
    rw [submittedOn_concat]
    exact List.append_nil _
  have hemitted : emittedOn k core (calls ++ [.pollOutput]) = emittedOn k core calls := by
    have hnone : emittedBy k (run core calls) .pollOutput = [] :=
      emittedBy_of_dataKey? hcoh trivial (by rintro ⟨⟩)
    rw [emittedOn_concat, hnone, List.append_nil]
  constructor
  · obtain ⟨events, actions, heq⟩ := pollOutput_eq (run core calls)
    rw [run_concat, step, heq]
    exact hs.asked.same rfl
  · rw [hdelivered, hsubmitted, sentOn_emittedActions_poll]
    exact fun hnot => hs.fresh fun h => hnot h.concat
  · rw [hdelivered, hsubmitted, sentOn_emittedActions_poll]
    exact hs.voice.same hsame
  · rw [hdelivered, hsubmitted, sentOn_emittedActions_poll, hemitted]
    rintro protocol ⟨before, hbefore, hown⟩
    rcases List.prefix_concat_iff.mp hbefore with rfl | hbefore
    · rw [hsame.owner] at hown
      exact (Talk.of_owned hs.voice hstage hown).same hsame
    · exact (hs.talk protocol ⟨before, hbefore, hown⟩).same hsame

/-- Another call. -/
theorem concat (hs : Spoken core k calls) (hcoh : Coherent calls (run core calls))
    (hcontract : TransportContract calls call) (hdata : DataContract calls call)
    (hcall : Identifies (run core calls) call) (hclash : NoClash (run core calls) call)
    (hunique : Unique (run core calls)) (hpoll : call ≠ .pollOutput)
    (hstage : Stage k (deliveredOn k (calls ++ [call])) (emittedOn k core (calls ++ [call]))
      (run core (calls ++ [call]))) :
    Spoken core k (calls ++ [call]) := by
  have hvoice : Voice k (deliveredOn k (calls ++ [call]))
      (sentOn k (emittedActions core (calls ++ [call]))) (submittedOn k core (calls ++ [call]))
      (run core (calls ++ [call])) := by
    rw [deliveredOn_concat, sentOn_emittedActions_concat core calls hpoll, submittedOn_concat,
      run_concat]
    have hbefore := hs.voice
    have hfresh := hs.fresh
    rw [sentOn_emittedActions] at hbefore hfresh
    exact step_voice hcoh hcontract hclash hunique hs.asked hpoll hfresh hbefore
  refine ⟨?_, ?_, hvoice, ?_⟩
  · rw [run_concat]
    exact step_asked hcoh hcontract hcall hs.asked
  · -- a stream that was not reported is not filed and gets no data
    intro hnot
    have hbefore : ¬ Announced calls k := fun h => hnot h.concat
    obtain ⟨hdelivered, hsent, hsubmitted⟩ := hs.fresh hbefore
    obtain ⟨hin, hout, hown⟩ := unfiled_of_not_announced hcoh hbefore
    obtain ⟨-, hsame, hnone, -⟩ := step_unfiled hcoh hcontract hclash hunique hpoll
      (not_files_of_unfiled hin hout hown) fun h => hnot (announced_of_announces h)
    rw [deliveredOn_concat, sentOn_emittedActions_concat core calls hpoll, submittedOn_concat,
      hdelivered, hsame, ← sentOn_emittedActions, hsent, hsubmitted, hnone,
      Call.dataOn_of_dataKey? fun h => hbefore (hdata k h).1]
    exact ⟨rfl, rfl, rfl⟩
  · rintro protocol ⟨before, hbefore, hown⟩
    rcases List.prefix_concat_iff.mp hbefore with rfl | hbefore
    · exact .of_owned hvoice hstage hown
    · have htalk := hs.talk protocol ⟨before, hbefore, hown⟩
      rw [sentOn_emittedActions] at htalk
      rw [deliveredOn_concat, sentOn_emittedActions_concat core calls hpoll, submittedOn_concat,
        emittedOn_concat, run_concat]
      exact step_talk hcoh hcontract hclash hunique hpoll
        (hs.announced ⟨before, hbefore, hown⟩) htalk

end Spoken

/-- A run of a stream transport that identifies its peers. -/
theorem spoken_run (hsha : NoCollision) (identifyConfig : Identify.IdentifyConfig)
    (pingConfig : Ping.PingConfig) (hrun : HandshakeRun calls) (hstreams : StreamRun calls) :
    Spoken (SwarmCore.new identifyConfig pingConfig) k calls := by
  refine (handshake_invariant hsha identifyConfig pingConfig (I := fun calls _ =>
    StreamRun calls → Spoken (SwarmCore.new identifyConfig pingConfig) k calls) hrun ?_ ?_).2
    hstreams
  · refine fun _ => ⟨?_, fun _ => ⟨rfl, rfl, rfl⟩, .of_unused ?_ ?_ ?_, ?_⟩
    · intro token pending h
      simp [run, SwarmCore.new] at h
    · simp [run, SwarmCore.new]
    · simp [run, SwarmCore.new]
    · intro protocol h
      simp [run, SwarmCore.new] at h
    · rintro protocol ⟨before, hbefore, hown⟩
      rw [List.prefix_nil.mp hbefore] at hown
      simp [run, SwarmCore.new] at hown
  · rintro before call s rfl hcoh hrepresented hcontract hcall hclash hbefore hstreams
    obtain ⟨hfirst, ⟨-, hdata⟩, -⟩ := Runs.eachStep_append.mp hstreams
    have hs := hbefore hfirst
    by_cases hpoll : call = .pollOutput
    · subst hpoll
      exact hs.poll hcoh (stage_run identifyConfig pingConfig hfirst)
    · exact hs.concat hcoh hcontract hdata hcall hclash hrepresented.unique hpoll
        (stage_run identifyConfig pingConfig hstreams)

/-- Two cores, each in a run of a stream transport that identifies its peers, and a stream that
each application has got at some point. When what is delivered at one end is what the driver sends
at the other, up to some byte, both have got the stream for the same protocol, and the one is
handed what the other hands over, up to some byte. Nothing is missing once all that was sent is
delivered to a stream that is still there. -/
theorem userStream_endToEnd (hsha : NoCollision)
    (identifyConfig identifyConfig' : Identify.IdentifyConfig)
    (pingConfig pingConfig' : Ping.PingConfig) (calls calls' : List Call) (k k' : StreamKey)
    (protocol protocol' : String) (hrun : HandshakeRun calls) (hrun' : HandshakeRun calls')
    (hstreams : StreamRun calls) (hstreams' : StreamRun calls')
    (hown : OwnedDuring k protocol (SwarmCore.new identifyConfig pingConfig) calls)
    (hown' : OwnedDuring k' protocol' (SwarmCore.new identifyConfig' pingConfig') calls')
    (hwire : deliveredOn k' calls' <+:
      sentOn k (polledActions (SwarmCore.new identifyConfig pingConfig) calls)) :
    protocol' = protocol ∧
      emittedOn k' (SwarmCore.new identifyConfig' pingConfig') calls' <+:
        submittedOn k (SwarmCore.new identifyConfig pingConfig) calls ∧
      (deliveredOn k' calls' =
          sentOn k (emittedActions (SwarmCore.new identifyConfig pingConfig) calls) →
        (run (SwarmCore.new identifyConfig' pingConfig') calls').streamOwner[k']? =
          some (.user protocol') →
        emittedOn k' (SwarmCore.new identifyConfig' pingConfig') calls' =
          submittedOn k (SwarmCore.new identifyConfig pingConfig) calls) := by
  have hspoken : Spoken (SwarmCore.new identifyConfig pingConfig) k calls :=
    spoken_run hsha identifyConfig pingConfig hrun hstreams
  have hspoken' : Spoken (SwarmCore.new identifyConfig' pingConfig') k' calls' :=
    spoken_run hsha identifyConfig' pingConfig' hrun' hstreams'
  have htalk := hspoken.talk protocol hown
  have htalk' := hspoken'.talk protocol' hown'
  obtain ⟨unheard, hdelivered, hheard⟩ := htalk'.heard
  have hsent : deliveredOn k' calls' <+:
      sentOn k (emittedActions (SwarmCore.new identifyConfig pingConfig) calls) := by
    rw [sentOn_emittedActions]
    exact hwire.trans (List.prefix_append _ _)
  rw [htalk.said, hdelivered] at hsent
  obtain ⟨hsame, hbytes⟩ := Multistream.greeting_prefix htalk'.fits htalk.fits hsent
  refine ⟨hsame, (List.prefix_append _ _).trans hbytes, fun hall hkept => ?_⟩
  rw [htalk.said, hdelivered, hheard hkept, hsame, List.append_nil] at hall
  exact List.append_cancel_left hall

end Runs

/-! ## A concrete pair of runs -/

/-- A stream is opened to Alice, who agrees; two bytes are handed over, and all is polled. -/
def dialingRun : List Call :=
  [.addUserProtocol "/u", .event (.connected ⟨1⟩ (Sample.endpoint (some Sample.alice))),
    .openUserStream Sample.alice "/u", .input (.streamOpened ⟨1⟩ ⟨0⟩ ⟨2⟩ 0),
    .event (.streamData ⟨1⟩ ⟨0⟩ handshakeBytes), .sendUserStream Sample.alice ⟨0⟩ [0x41, 0x42],
    .pollOutput, .pollOutput, .pollOutput, .pollOutput, .pollOutput]

/-- The other end gets the handshake in two chunks, the first byte with the second, and the second
byte alone. -/
def listeningRun : List Call := chunkedRun ++ chunkedRest.take 1

theorem listeningRun_endToEnd :
    @emittedOn Sample.sha256 multihashCodec ⟨⟨1⟩, ⟨0⟩⟩ Sample.core listeningRun =
        @submittedOn Sample.sha256 multihashCodec ⟨⟨1⟩, ⟨0⟩⟩ Sample.core dialingRun ∧
      @emittedOn Sample.sha256 multihashCodec ⟨⟨1⟩, ⟨0⟩⟩ Sample.core listeningRun =
        [0x41, 0x42] := by
  have hconnected : @HandshakeIdentity Sample.sha256 [.addUserProtocol "/u"]
      (.event (.connected ⟨1⟩ (Sample.endpoint (some Sample.alice)))) :=
    ⟨Sample.alice, rfl, Sample.alice_ne_syntheticPeerId⟩
  have hrun : @HandshakeRun Sample.sha256 dialingRun :=
    ⟨⟨by decide, trivial⟩, ⟨by decide, hconnected⟩, ⟨by decide, trivial⟩, ⟨by decide, trivial⟩,
      ⟨by decide, trivial⟩, ⟨by decide, trivial⟩, ⟨by decide, trivial⟩, ⟨by decide, trivial⟩,
      ⟨by decide, trivial⟩, ⟨by decide, trivial⟩, ⟨by decide, trivial⟩, trivial⟩
  have hrun' : @HandshakeRun Sample.sha256 listeningRun :=
    ⟨⟨by decide, trivial⟩, ⟨by decide, hconnected⟩, ⟨by decide, trivial⟩, ⟨by decide, trivial⟩,
      ⟨by decide, trivial⟩, ⟨by decide, trivial⟩, trivial⟩
  have hends := @userStream_endToEnd Sample.sha256 multihashCodec Sample.noCollision
    { protocolVersion := "ipfs/0.1.0", agentVersion := "minip2p/0.1.0", protocols := [],
      publicKey := [] }
    { protocolVersion := "ipfs/0.1.0", agentVersion := "minip2p/0.1.0", protocols := [],
      publicKey := [] } default default dialingRun listeningRun ⟨⟨1⟩, ⟨0⟩⟩ ⟨⟨1⟩, ⟨0⟩⟩ "/u" "/u"
    hrun hrun' (by decide +kernel) (by decide +kernel)
    ⟨dialingRun, List.prefix_rfl, by decide +kernel⟩
    ⟨listeningRun, List.prefix_rfl, by decide +kernel⟩ (by decide +kernel)
  have hsame := hends.2.2 (by decide +kernel) (by decide +kernel)
  have hsubmitted : @submittedOn Sample.sha256 multihashCodec ⟨⟨1⟩, ⟨0⟩⟩ Sample.core dialingRun =
      [0x41, 0x42] := by
    decide +kernel
  exact ⟨hsame, hsame.trans hsubmitted⟩

end Minip2p.Swarm
