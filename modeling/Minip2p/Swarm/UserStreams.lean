import Minip2p.Multistream.Voice
import Minip2p.Swarm.Superseded

/-!
# The bytes of a user stream

Bytes that arrive on a stream go to its negotiator until two frames have been read; from the byte
after them on they are handed to the application, those that came in the same chunk as the end of
the second frame included. `Stage` relates what was delivered and what was handed over to the
table a stream is filed in.
-/

namespace Minip2p.Swarm

open Multistream (MultistreamOutput MultistreamSelect Handshake Speaks)
open SwarmCore

/-! ## Delivered and emitted bytes -/

/-- The bytes a call delivers on a stream. -/
def Call.dataOn (k : StreamKey) : Call → Bytes
  | .input (.transport (.streamData c t data) _) => if (⟨c, t⟩ : StreamKey) = k then data else []
  | _ => []

/-- The bytes delivered on a stream in a run. -/
def deliveredOn (k : StreamKey) (calls : List Call) : Bytes := calls.flatMap (Call.dataOn k)

/-- The user data of an event about a stream id. -/
def SwarmEvent.userData (t : StreamId) : SwarmEvent → Bytes
  | userStreamData _ streamId data => if streamId = t then data else []
  | _ => []

/-- The user data for a stream id in the events that `s'` has queued after those of `s`. -/
def emittedSince (k : StreamKey) (s s' : SwarmCore) : Bytes :=
  (s'.events.drop s.events.length).flatMap (SwarmEvent.userData k.stream)

/-- The user data that a call emits for the stream: all there is for its stream id, unless the
call is about another connection. -/
def emittedBy [Sha256] [MultihashCodec] (k : StreamKey) (s : SwarmCore) (call : Call) : Bytes :=
  if call.conn? = none ∨ call.conn? = some k.conn then emittedSince k s (step s call) else []

/-- The user data emitted for a stream in a run. -/
def emittedOn [Sha256] [MultihashCodec] (k : StreamKey) : SwarmCore → List Call → Bytes
  | _, [] => []
  | s, call :: calls => emittedBy k s call ++ emittedOn k (step s call) calls

theorem emittedSince_eq {k : StreamKey} {s s' : SwarmCore} {kept added : List SwarmEvent}
    (hlen : kept.length = s.events.length) (h : s'.events = kept ++ added) :
    emittedSince k s s' = added.flatMap (SwarmEvent.userData k.stream) := by
  rw [emittedSince, h, ← hlen, List.drop_left]

theorem emittedSince_self {k : StreamKey} {s s' : SwarmCore} (h : s'.events = s.events) :
    emittedSince k s s' = [] := by
  rw [emittedSince, h, List.drop_length]
  rfl

theorem deliveredOn_concat (k : StreamKey) (calls : List Call) (call : Call) :
    deliveredOn k (calls ++ [call]) = deliveredOn k calls ++ call.dataOn k := by
  simp [deliveredOn]

section Emitted

variable [Sha256] [MultihashCodec]

theorem emittedOn_concat (k : StreamKey) (s : SwarmCore) (calls : List Call) (call : Call) :
    emittedOn k s (calls ++ [call]) = emittedOn k s calls ++ emittedBy k (run s calls) call := by
  induction calls generalizing s with
  | nil => simp [emittedOn]
  | cons first calls ih =>
    simp only [List.cons_append, emittedOn, List.append_assoc]
    rw [ih]
    rfl

end Emitted

/-! ## Stages of a stream -/

/-- Where a stream is filed says what was made of the bytes delivered on it. -/
structure Stage (k : StreamKey) (delivered emitted : Bytes) (s : SwarmCore) : Prop where
  inbound : ∀ negotiator, s.inboundNegotiators[k]? = some negotiator →
    emitted = [] ∧ ∃ said, Speaks negotiator delivered said
  outbound : ∀ pending, s.outboundNegotiators[k]? = some pending →
    emitted = [] ∧ ∃ said, Speaks pending.negotiator delivered said
  owned : ∀ protocol, s.streamOwner[k]? = some (.user protocol) → Handshake delivered emitted

/-- The three stream tables agree. -/
structure SameStreams (s s' : SwarmCore) : Prop where
  inbound : s'.inboundNegotiators = s.inboundNegotiators
  outbound : s'.outboundNegotiators = s.outboundNegotiators
  owner : s'.streamOwner = s.streamOwner

theorem SameTables.streams {s s' : SwarmCore} (h : SameTables s s') : SameStreams s s' :=
  ⟨h.inboundNegotiators, h.outboundNegotiators, h.streamOwner⟩

theorem SameStreams.trans {s s' s'' : SwarmCore} (h : SameStreams s s') (h' : SameStreams s' s'') :
    SameStreams s s'' :=
  ⟨h'.inbound.trans h.inbound, h'.outbound.trans h.outbound, h'.owner.trans h.owner⟩

/-- What is filed for the stream in `s'` was filed for it in `s`. -/
structure LeAt (k : StreamKey) (s s' : SwarmCore) : Prop where
  inbound : ∀ n, s'.inboundNegotiators[k]? = some n → s.inboundNegotiators[k]? = some n
  outbound : ∀ p, s'.outboundNegotiators[k]? = some p → s.outboundNegotiators[k]? = some p
  owner : ∀ o, s'.streamOwner[k]? = some o → s.streamOwner[k]? = some o

namespace LeAt

variable {k : StreamKey} {s s' s'' : SwarmCore}

theorem of_same (h : SameStreams s s') : LeAt k s s' := by
  constructor
  · rw [h.inbound]
    exact fun _ => id
  · rw [h.outbound]
    exact fun _ => id
  · rw [h.owner]
    exact fun _ => id

theorem trans (h : LeAt k s s') (h' : LeAt k s' s'') : LeAt k s s'' :=
  ⟨fun n hn => h.inbound n (h'.inbound n hn), fun p hp => h.outbound p (h'.outbound p hp),
    fun o ho => h.owner o (h'.owner o ho)⟩

theorem withoutConn (k : StreamKey) (s : SwarmCore) (c : ConnectionId) :
    LeAt k s (s.withoutConn c) :=
  ⟨fun _ hn => (BTreeMap.getElem?_filter_eq_some_iff.mp hn).1,
    fun _ hp => (BTreeMap.getElem?_filter_eq_some_iff.mp hp).1,
    fun _ ho => (BTreeMap.getElem?_filter_eq_some_iff.mp ho).1⟩

theorem yieldTo (k : StreamKey) (s : SwarmCore) (c : ConnectionId) (p : PeerId) :
    LeAt k s (s.yieldTo c p) := by
  rcases yieldTo_cases s c p with ⟨heq, -⟩ | ⟨old, -, -, heq⟩
  · rw [heq]
    exact of_same ⟨rfl, rfl, rfl⟩
  · rw [heq]
    exact (withoutConn k s old).trans (of_same ⟨rfl, rfl, rfl⟩)

theorem migrateFrom (k : StreamKey) (s : SwarmCore) (c : ConnectionId) (p : PeerId) :
    LeAt k s (s.migrateFrom c p) := by
  rw [SwarmCore.migrateFrom]
  split
  · exact of_same ⟨rfl, rfl, rfl⟩
  · exact of_same ⟨rfl, rfl, rfl⟩

theorem detach (k : StreamKey) (s : SwarmCore) (c : ConnectionId) : LeAt k s (s.detach c) := by
  have hconn : LeAt k s (s.withoutConn c) := withoutConn k s c
  rcases detach_cases s c with ⟨p, -, -, heq⟩ | ⟨-, heq⟩
  · rw [heq]
    exact hconn.trans (of_same ⟨rfl, rfl, rfl⟩)
  · rw [heq]
    exact hconn

end LeAt

namespace Stage

variable {k : StreamKey} {delivered emitted : Bytes} {s s' : SwarmCore}

theorem of_le (hs : Stage k delivered emitted s) (h : LeAt k s s') :
    Stage k delivered emitted s' :=
  ⟨fun n hn => hs.inbound n (h.inbound n hn), fun p hp => hs.outbound p (h.outbound p hp),
    fun o ho => hs.owned o (h.owner _ ho)⟩

/-- A stream without negotiators whose owner, if it has one, is no application. -/
theorem of_unused (hin : s.inboundNegotiators[k]? = none) (hout : s.outboundNegotiators[k]? = none)
    (hown : ∀ protocol, s.streamOwner[k]? ≠ some (.user protocol)) :
    Stage k delivered emitted s := by
  constructor
  · intro n h
    rw [hin] at h
    cases h
  · intro p h
    rw [hout] at h
    cases h
  · intro protocol h
    exact absurd h (hown protocol)

end Stage

/-! ## Handlers -/

section Handlers

variable [Sha256] [MultihashCodec] {k : StreamKey} {s : SwarmCore}

omit [MultihashCodec] in
theorem ensurePeerIdForConn_sameStreams (s : SwarmCore) (c : ConnectionId) :
    SameStreams s (s.ensurePeerIdForConn c).1 := by
  simp only [ensurePeerIdForConn]
  split
  · exact ⟨rfl, rfl, rfl⟩
  · exact ⟨rfl, rfl, rfl⟩

theorem dispatchProtocolData_sameStreams (s : SwarmCore) (k : StreamKey) (data : Bytes)
    (nowMs : UInt64) : SameStreams s (s.dispatchProtocolData k data nowMs) := by
  simp only [dispatchProtocolData]
  split
  · exact ⟨rfl, rfl, rfl⟩
  · next protocol _ =>
    refine (ensurePeerIdForConn_sameStreams s k.conn).trans ?_
    cases protocol with
    | ping => exact (tables_oblivious.feedPing _ _).streams
    | identifyInitiator => exact (tables_oblivious.feedIdentify _ _).streams
    | identifyResponder => exact ⟨rfl, rfl, rfl⟩
    | user protocolId => exact ⟨rfl, rfl, rfl⟩

/-- Data on a stream of the application becomes one event. -/
theorem dispatchProtocolData_user {protocol : String}
    (h : s.streamOwner[k]? = some (.user protocol)) (data : Bytes) (nowMs : UInt64) :
    ∃ p, (s.dispatchProtocolData k data nowMs).events =
      s.events ++ [.userStreamData p k.stream data] := by
  refine ⟨(s.ensurePeerIdForConn k.conn).2, ?_⟩
  simp only [dispatchProtocolData, h]
  show (s.ensurePeerIdForConn k.conn).1.events ++ _ = _
  rw [ensurePeerIdForConn_events]

omit [Sha256] [MultihashCodec] in
theorem userData_self (p : PeerId) (t : StreamId) (data : Bytes) :
    SwarmEvent.userData t (.userStreamData p t data) = data := if_pos rfl

theorem dispatchRemaining_sameStreams (s : SwarmCore) (k : StreamKey) (remaining : Bytes)
    (nowMs : UInt64) : SameStreams s (s.dispatchRemaining k remaining nowMs) := by
  rw [dispatchRemaining]
  split
  · exact ⟨rfl, rfl, rfl⟩
  · exact dispatchProtocolData_sameStreams s k remaining nowMs

/-- The bytes after the handshake are handed over, if there are any. -/
theorem dispatchRemaining_user {protocol : String} (h : s.streamOwner[k]? = some (.user protocol))
    (remaining : Bytes) (nowMs : UInt64) :
    ∃ added, (s.dispatchRemaining k remaining nowMs).events = s.events ++ added ∧
      added.flatMap (SwarmEvent.userData k.stream) = remaining := by
  rw [dispatchRemaining]
  split
  · next hempty =>
    refine ⟨[], by rw [List.append_nil], ?_⟩
    rw [List.isEmpty_iff.mp hempty]
    rfl
  · obtain ⟨p, hevents⟩ := dispatchProtocolData_user h remaining nowMs
    refine ⟨_, hevents, ?_⟩
    rw [List.flatMap_cons, List.flatMap_nil, List.append_nil, userData_self]

theorem onInboundNegotiated_negotiators (s : SwarmCore) (k : StreamKey) (protocol : String) :
    (s.onInboundNegotiated k protocol).inboundNegotiators = s.inboundNegotiators ∧
      (s.onInboundNegotiated k protocol).outboundNegotiators = s.outboundNegotiators := by
  have hensure := ensurePeerIdForConn_sameStreams s k.conn
  rw [← hensure.inbound, ← hensure.outbound]
  simp only [onInboundNegotiated]
  split
  · have hping := tables_oblivious.feedPing
      { (s.ensurePeerIdForConn k.conn).1 with
        streamOwner := (s.ensurePeerIdForConn k.conn).1.streamOwner.insert k .ping }
      (.registerInboundStream (s.ensurePeerIdForConn k.conn).2 k.stream)
    exact ⟨hping.inboundNegotiators, hping.outboundNegotiators⟩
  · split
    · simp only [respondIdentify]
      split
      · next identify _ =>
        have hdrain := tables_oblivious.drainIdentifyOutputs
          { (s.ensurePeerIdForConn k.conn).1 with
            identify := identify
            streamOwner :=
              (s.ensurePeerIdForConn k.conn).1.streamOwner.insert k .identifyResponder }
        exact ⟨hdrain.inboundNegotiators, hdrain.outboundNegotiators⟩
      · exact ⟨rfl, rfl⟩
    · split
      · exact ⟨rfl, rfl⟩
      · exact ⟨rfl, rfl⟩

/-- A stream that becomes the application's is reported as ready. -/
theorem onInboundNegotiated_user {protocol owner : String}
    (h : (s.onInboundNegotiated k protocol).streamOwner[k]? = some (.user owner))
    (hnone : s.streamOwner[k]? = none) :
    ∃ p, (s.onInboundNegotiated k protocol).events =
      s.events ++ [.userStreamReady p k.stream protocol false] := by
  have hensure : (s.ensurePeerIdForConn k.conn).1.streamOwner = s.streamOwner :=
    (ensurePeerIdForConn_sameStreams s k.conn).owner
  have hself : ∀ o : ProtocolKind, (s.streamOwner.insert k o)[k]? = some o :=
    fun o => BTreeMap.getElem?_insert_eq_some_iff.mpr (.inl ⟨rfl, rfl⟩)
  simp only [onInboundNegotiated] at h ⊢
  split at h
  · -- ping
    rw [(tables_oblivious.feedPing _ _).streamOwner, hensure, hself] at h
    cases h
  next hping =>
  rw [if_neg hping]
  split at h
  · -- identify
    simp only [respondIdentify] at h
    split at h
    · rw [(tables_oblivious.drainIdentifyOutputs _).streamOwner, hensure, hself] at h
      cases h
    · have hsame : (s.ensurePeerIdForConn k.conn).1.streamOwner[k]? = some (.user owner) := h
      rw [hensure, hnone] at hsame
      cases hsame
  next hidentify =>
  rw [if_neg hidentify]
  split at h
  · next huser =>
    rw [if_pos huser]
    refine ⟨(s.ensurePeerIdForConn k.conn).2, ?_⟩
    show (s.ensurePeerIdForConn k.conn).1.events ++ _ = _
    rw [ensurePeerIdForConn_events]
  · rw [hensure, hnone] at h
    cases h

omit [Sha256] in
theorem startPing_negotiators (s : SwarmCore) (k : StreamKey) (p : PeerId) (nowMs : UInt64) :
    (s.startPing k p nowMs).inboundNegotiators = s.inboundNegotiators ∧
      (s.startPing k p nowMs).outboundNegotiators = s.outboundNegotiators ∧
      ∀ o, (s.startPing k p nowMs).streamOwner[k]? = some o → s.streamOwner[k]? = some o := by
  simp only [startPing]
  split
  · refine ⟨rfl, rfl, ?_⟩
    intro o ho
    exact (BTreeMap.getElem?_erase_eq_some_iff.mp ho).2
  · next ping _ =>
    have hping : SameTables s { s with ping := ping } := ⟨rfl, rfl, rfl, rfl, rfl, rfl⟩
    have hdrain : SameTables s { s with ping := ping }.drainPingOutputs :=
      hping.trans (tables_oblivious.drainPingOutputs _)
    have hdeferred : SameTables s ({ s with ping := ping }.drainPingOutputs.sendDeferredPing k p
        nowMs) := by
      refine hdrain.trans ?_
      simp only [sendDeferredPing]
      split
      · exact SameTables.rfl
      · split
        · refine SameTables.trans ?_ (tables_oblivious.drainPingOutputs _)
          exact ⟨rfl, rfl, rfl, rfl, rfl, rfl⟩
        · exact ⟨rfl, rfl, rfl, rfl, rfl, rfl⟩
    refine ⟨hdeferred.inboundNegotiators, hdeferred.outboundNegotiators, ?_⟩
    rw [hdeferred.streamOwner]
    exact fun _ => id

theorem onOutboundNegotiated_negotiators (s : SwarmCore) (k : StreamKey) (target : ProtocolKind)
    (nowMs : UInt64) :
    (s.onOutboundNegotiated k target nowMs).inboundNegotiators = s.inboundNegotiators ∧
      (s.onOutboundNegotiated k target nowMs).outboundNegotiators = s.outboundNegotiators := by
  have hensure := ensurePeerIdForConn_sameStreams s k.conn
  rw [← hensure.inbound, ← hensure.outbound]
  simp only [onOutboundNegotiated]
  cases target with
  | ping =>
    obtain ⟨hin, hout, -⟩ := startPing_negotiators
      { (s.ensurePeerIdForConn k.conn).1 with
        streamOwner := (s.ensurePeerIdForConn k.conn).1.streamOwner.insert k .ping }
      k (s.ensurePeerIdForConn k.conn).2 nowMs
    exact ⟨hin, hout⟩
  | identifyInitiator =>
    have hfeed := tables_oblivious.feedIdentify
      { (s.ensurePeerIdForConn k.conn).1 with
        streamOwner := (s.ensurePeerIdForConn k.conn).1.streamOwner.insert k .identifyInitiator }
      (.registerInboundStream (s.ensurePeerIdForConn k.conn).2 k.stream)
    exact ⟨hfeed.inboundNegotiators, hfeed.outboundNegotiators⟩
  | identifyResponder => exact ⟨rfl, rfl⟩
  | user protocolId => exact ⟨rfl, rfl⟩

/-- The same for a stream the core opened. -/
theorem onOutboundNegotiated_user {target : ProtocolKind} {nowMs : UInt64} {owner : String}
    (h : (s.onOutboundNegotiated k target nowMs).streamOwner[k]? = some (.user owner)) :
    ∃ p, (s.onOutboundNegotiated k target nowMs).events =
      s.events ++ [.userStreamReady p k.stream owner true] := by
  have hself : ∀ o : ProtocolKind,
      ((s.ensurePeerIdForConn k.conn).1.streamOwner.insert k o)[k]? = some o :=
    fun o => BTreeMap.getElem?_insert_eq_some_iff.mpr (.inl ⟨rfl, rfl⟩)
  simp only [onOutboundNegotiated] at h ⊢
  cases target with
  | ping =>
    have howner := (startPing_negotiators _ k _ nowMs).2.2 _ h
    rw [hself] at howner
    cases howner
  | identifyInitiator =>
    rw [(tables_oblivious.feedIdentify _ _).streamOwner, hself] at h
    cases h
  | identifyResponder =>
    rw [hself] at h
    cases h
  | user protocolId =>
    have howner : ((s.ensurePeerIdForConn k.conn).1.streamOwner.insert k (.user protocolId))[k]? =
        some (.user owner) := h
    rw [hself] at howner
    obtain rfl : protocolId = owner := ProtocolKind.user.inj (Option.some.inj howner)
    refine ⟨(s.ensurePeerIdForConn k.conn).2, ?_⟩
    show (s.ensurePeerIdForConn k.conn).1.events ++ _ = _
    rw [ensurePeerIdForConn_events]

end Handlers

/-! ## Feeding a negotiator -/

section Feeding

variable {k : StreamKey} {s : SwarmCore} {delivered emitted : Bytes}

/-- Bytes to send queue actions and nothing else. -/
theorem pollInbound_sent (k : StreamKey) (sent : List Bytes) (outputs : List MultistreamOutput)
    (s : SwarmCore) (negotiated : Option String) :
    pollInbound k (sent.map .outboundData ++ outputs) s negotiated =
      pollInbound k outputs
        { s with actions := s.actions ++ sent.map (.sendStream k.conn k.stream) } negotiated := by
  induction sent generalizing s with
  | nil => simp
  | cons bytes sent ih =>
    rw [List.map_cons, List.cons_append, pollInbound]
    simp only [handleMultistreamOutput, pushAction]
    rw [ih]
    simp

theorem pollOutbound_sent (k : StreamKey) (sent : List Bytes) (outputs : List MultistreamOutput)
    (s : SwarmCore) (negotiated : Bool) :
    pollOutbound k (sent.map .outboundData ++ outputs) s negotiated =
      pollOutbound k outputs
        { s with actions := s.actions ++ sent.map (.sendStream k.conn k.stream) } negotiated := by
  induction sent generalizing s with
  | nil => simp
  | cons bytes sent ih =>
    rw [List.map_cons, List.cons_append, pollOutbound]
    · simp only [handleMultistreamOutput, pushAction]
      rw [ih]
      simp
    · rintro _ ⟨⟩
    · rintro ⟨⟩

variable [Sha256] [MultihashCodec]

/-- The stream of the application starts with the bytes that followed the handshake. -/
theorem stage_dispatchRemaining {t : SwarmCore} {rest : Bytes}
    (hin : t.inboundNegotiators[k]? = none) (hout : t.outboundNegotiators[k]? = none)
    (hready : ∀ owner, t.streamOwner[k]? = some (.user owner) →
      ∃ e, t.events = s.events ++ [e] ∧ e.isUserData = false)
    (hrest : Handshake delivered rest) (nowMs : UInt64) :
    Stage k delivered (emittedSince k s (t.dispatchRemaining k rest nowMs))
      (t.dispatchRemaining k rest nowMs) := by
  have hstreams := dispatchRemaining_sameStreams t k rest nowMs
  constructor
  · intro n hn
    rw [hstreams.inbound, hin] at hn
    cases hn
  · intro p hp
    rw [hstreams.outbound, hout] at hp
    cases hp
  · intro owner howner
    rw [hstreams.owner] at howner
    obtain ⟨e, hevent, hplain⟩ := hready owner howner
    obtain ⟨added, hadded, hdata⟩ := dispatchRemaining_user howner rest nowMs
    have hevents : (t.dispatchRemaining k rest nowMs).events = s.events ++ (e :: added) := by
      rw [hadded, hevent, List.append_assoc]
      rfl
    -- the event that makes the stream known carries no data
    have hnone : e.userData k.stream = [] := by
      cases e <;> first | rfl | cases hplain
    rw [emittedSince_eq rfl hevents, List.flatMap_cons, hnone, hdata]
    exact hrest

theorem stage_feedInboundNegotiator (hs : Stage k delivered emitted s)
    {negotiator : MultistreamSelect} (hin : s.inboundNegotiators[k]? = some negotiator)
    (hout : s.outboundNegotiators[k]? = none) (hown : s.streamOwner[k]? = none) (data : Bytes)
    (nowMs : UInt64) :
    Stage k (delivered ++ data)
      (emitted ++ emittedSince k s (s.feedInboundNegotiator k data nowMs))
      (s.feedInboundNegotiator k data nowMs) := by
  obtain ⟨rfl, said, hspeaks⟩ := hs.inbound negotiator hin
  have herase : ∀ m : BTreeMap StreamKey MultistreamSelect, (m.erase k)[k]? = none :=
    fun m => Std.ExtTreeMap.getElem?_erase_self
  simp only [feedInboundNegotiator, hin, MultistreamSelect.handleInput,
    MultistreamSelect.drainOutputs, MultistreamSelect.takeRemainingBuffer, List.nil_append]
  cases MultistreamSelect.receive_answers hspeaks data with
  -- the handshake goes on: the negotiator that was stored has read all of it
  | waits sent houtputs hspeaks' =>
    rw [houtputs, ← List.append_nil (sent.map _), pollInbound_sent, pollInbound]
    constructor
    · intro n hn
      obtain ⟨-, rfl⟩ | ⟨hne, -⟩ := BTreeMap.getElem?_insert_eq_some_iff.mp hn
      · exact ⟨emittedSince_self rfl, _, hspeaks'⟩
      · exact absurd rfl hne
    · intro p hp
      rw [hout] at hp
      cases hp
    · intro protocol hp
      rw [hown] at hp
      cases hp
  -- what the negotiator has not used is what follows the two frames
  | agrees sent protocol houtputs hfits hrole hdelivered hsaid =>
    have hrest := Handshake.of_greeting hfits (negotiator.receive data).recvBuf
    rw [← hdelivered] at hrest
    rw [houtputs, pollInbound_sent, pollInbound]
    simp only [handleMultistreamOutput, pollInbound]
    refine stage_dispatchRemaining ?_ ?_ ?_ hrest nowMs
    · rw [(onInboundNegotiated_negotiators _ k protocol).1]
      exact herase _
    · rw [(onInboundNegotiated_negotiators _ k protocol).2]
      exact hout
    · intro owner howner
      obtain ⟨p, hready⟩ := onInboundNegotiated_user howner hown
      exact ⟨_, hready, rfl⟩
  | fails sent output houtput houtputs =>
    rw [houtputs, pollInbound_sent]
    have hnot : ∀ protocol, s.streamOwner[k]? ≠ some (.user protocol) := by
      intro protocol h
      rw [hown] at h
      cases h
    -- the negotiator is dropped with the failure
    rcases houtput with rfl | ⟨reason, rfl⟩
    · simp only [pollInbound, handleMultistreamOutput]
      exact .of_unused (herase _) hout hnot
    · simp only [pollInbound, handleMultistreamOutput]
      exact .of_unused (herase _) hout hnot

theorem stage_feedOutboundNegotiator (hs : Stage k delivered emitted s)
    {pending : PendingOutbound} (hout : s.outboundNegotiators[k]? = some pending)
    (hin : s.inboundNegotiators[k]? = none) (hown : s.streamOwner[k]? = none) (data : Bytes)
    (nowMs : UInt64) :
    Stage k (delivered ++ data)
      (emitted ++ emittedSince k s (s.feedOutboundNegotiator k data nowMs))
      (s.feedOutboundNegotiator k data nowMs) := by
  obtain ⟨rfl, said, hspeaks⟩ := hs.outbound pending hout
  have herase : ∀ m : BTreeMap StreamKey PendingOutbound, (m.erase k)[k]? = none :=
    fun m => Std.ExtTreeMap.getElem?_erase_self
  simp only [feedOutboundNegotiator, hout, MultistreamSelect.handleInput,
    MultistreamSelect.drainOutputs, MultistreamSelect.takeRemainingBuffer, List.nil_append]
  cases MultistreamSelect.receive_answers hspeaks data with
  -- as on the inbound side, with the tables exchanged
  | waits sent houtputs hspeaks' =>
    rw [houtputs, ← List.append_nil (sent.map _), pollOutbound_sent, pollOutbound]
    constructor
    · intro n hn
      rw [hin] at hn
      cases hn
    · intro p hp
      obtain ⟨-, rfl⟩ | ⟨hne, -⟩ := BTreeMap.getElem?_insert_eq_some_iff.mp hp
      · exact ⟨emittedSince_self rfl, _, hspeaks'⟩
      · exact absurd rfl hne
    · intro protocol hp
      rw [hown] at hp
      cases hp
  | agrees sent protocol houtputs hfits hrole hdelivered hsaid =>
    have hrest := Handshake.of_greeting hfits (pending.negotiator.receive data).recvBuf
    rw [← hdelivered] at hrest
    rw [houtputs, pollOutbound_sent, pollOutbound]
    simp only [pollOutbound]
    refine stage_dispatchRemaining ?_ ?_ ?_ hrest nowMs
    · rw [(onOutboundNegotiated_negotiators _ k pending.target nowMs).1]
      exact hin
    · rw [(onOutboundNegotiated_negotiators _ k pending.target nowMs).2]
      exact herase _
    · intro owner howner
      obtain ⟨p, hready⟩ := onOutboundNegotiated_user howner
      exact ⟨_, hready, rfl⟩
  | fails sent output houtput houtputs =>
    rw [houtputs, pollOutbound_sent]
    have hnot : ∀ protocol, s.streamOwner[k]? ≠ some (.user protocol) := by
      intro protocol h
      rw [hown] at h
      cases h
    rcases houtput with rfl | ⟨reason, rfl⟩
    · simp only [pollOutbound]
      exact .of_unused hin (herase _) hnot
    · simp only [pollOutbound, handleMultistreamOutput]
      exact .of_unused hin (herase _) hnot

/-- Data on a stream moves it to its next stage. -/
theorem stage_handleStreamData {calls : List Call} (hcoh : Coherent calls s)
    (hs : Stage k delivered emitted s) (data : Bytes) (nowMs : UInt64) :
    Stage k (delivered ++ data) (emitted ++ emittedSince k s (s.handleStreamData k data nowMs))
      (s.handleStreamData k data nowMs) := by
  rw [handleStreamData]
  split
  · next hcontains =>
    have hmem : k ∈ s.inboundNegotiators := hcontains
    obtain ⟨negotiator, hin⟩ := BTreeMap.exists_getElem?_of_mem hmem
    obtain ⟨hout, hown⟩ := hcoh.inboundDisjoint k hmem
    exact stage_feedInboundNegotiator hs hin (Std.ExtTreeMap.getElem?_eq_none hout)
      (Std.ExtTreeMap.getElem?_eq_none hown) data nowMs
  · next hnotIn =>
    have hin : s.inboundNegotiators[k]? = none := Std.ExtTreeMap.getElem?_eq_none hnotIn
    split
    · next hcontains =>
      have hmem : k ∈ s.outboundNegotiators := hcontains
      obtain ⟨pending, hout⟩ := BTreeMap.exists_getElem?_of_mem hmem
      have hown := hcoh.outboundDisjoint k hmem
      exact stage_feedOutboundNegotiator hs hout hin (Std.ExtTreeMap.getElem?_eq_none hown) data
        nowMs
    · next hnotOut =>
      have hout : s.outboundNegotiators[k]? = none := Std.ExtTreeMap.getElem?_eq_none hnotOut
      have hstreams := dispatchProtocolData_sameStreams s k data nowMs
      constructor
      · intro n hn
        rw [hstreams.inbound, hin] at hn
        cases hn
      · intro p hp
        rw [hstreams.outbound, hout] at hp
        cases hp
      · intro protocol howner
        rw [hstreams.owner] at howner
        obtain ⟨p, hevents⟩ := dispatchProtocolData_user howner data nowMs
        rw [emittedSince_eq rfl hevents, List.flatMap_cons, List.flatMap_nil, List.append_nil,
          userData_self]
        -- behind the handshake every byte is user data
        exact (hs.owned protocol howner).append data

end Feeding

/-! ## Calls about other streams -/

section Moves

variable [Sha256] {s₀ s s' : SwarmCore} {call : Call} {k : StreamKey}

/-- A call about another stream, or about none, files nothing for the stream. -/
theorem Move.leAt (h : Move s₀ call s s') (hkey : call.key? ≠ some k) : LeAt k s s' := by
  have hother : ∀ {k' : StreamKey}, call.key? = some k' → k ≠ k' := by
    rintro k' hk' rfl
    exact hkey hk'
  -- an entry of another stream does not show at `k`
  have hinsert : ∀ {β : Type} {m : BTreeMap StreamKey β} {k' : StreamKey} {v w : β},
      call.key? = some k' → (m.insert k' v)[k]? = some w → m[k]? = some w := by
    intro β m k' v w hk' hw
    rcases BTreeMap.getElem?_insert_eq_some_iff.mp hw with ⟨heq, -⟩ | ⟨-, hw⟩
    · exact absurd heq (hother hk')
    · exact hw
  have herase : ∀ {β : Type} {m : BTreeMap StreamKey β} {k' : StreamKey} {w : β},
      (m.erase k')[k]? = some w → m[k]? = some w :=
    fun hw => (BTreeMap.getElem?_erase_eq_some_iff.mp hw).2
  cases h with
  | register c p => exact (LeAt.yieldTo k s c p).trans (.of_same ⟨rfl, rfl, rfl⟩)
  | rebind c p => exact (LeAt.migrateFrom k s c p).trans (.of_same ⟨rfl, rfl, rfl⟩)
  | close c => exact LeAt.detach k s c
  | openStream p c protocolId target hp =>
    simp only [queueOpenProtocolStream, requireConn, hp]
    exact .of_same ⟨rfl, rfl, rfl⟩
  | inbound k' n hk' => exact ⟨fun _ => hinsert hk', fun _ => id, fun _ => id⟩
  | outbound k' p hk' => exact ⟨fun _ => id, fun _ => hinsert hk', fun _ => id⟩
  | own k' o hk' => exact ⟨fun _ => id, fun _ => id, fun _ => hinsert hk'⟩
  | dropInbound k' hk' => exact ⟨fun _ => herase, fun _ => id, fun _ => id⟩
  | dropOutbound k' hk' => exact ⟨fun _ => id, fun _ => herase, fun _ => id⟩
  | disown k' hk' => exact ⟨fun _ => id, fun _ => id, fun _ => herase⟩
  | _ => exact .of_same ⟨rfl, rfl, rfl⟩

/-- A call about another stream, or about none, leaves the owner of the stream alone, unless it
closes or supersedes the connection. -/
theorem Move.owner_kept (h : Move s₀ call s s') (hkey : call.key? ≠ some k)
    (hclose : call.closes? ≠ some k.conn) (hsupersedes : ¬ Supersedes s₀ call k.conn)
    {o : ProtocolKind} (ho : s.streamOwner[k]? = some o) : s'.streamOwner[k]? = some o := by
  have hfilter : ∀ {c : ConnectionId}, k.conn ≠ c → (s.withoutConn c).streamOwner[k]? = some o :=
    fun hc => BTreeMap.getElem?_filter_eq_some_iff.mpr ⟨ho, decide_eq_true hc⟩
  cases h with
  | register c p hconnects hnew hagrees =>
    rcases yieldTo_cases s c p with ⟨heq, -⟩ | ⟨old, hold, hne, heq⟩
    · rw [heq]
      exact ho
    · rw [heq]
      refine hfilter ?_
      rintro rfl
      exact hsupersedes ⟨c, p, hconnects, hagrees.peerToConn ▸ hold, hne⟩
  | rebind c p =>
    simp only [attach, migrateFrom]
    split
    · exact ho
    · exact ho
  | close c hcloses =>
    have hc : k.conn ≠ c := by
      rintro rfl
      exact hclose hcloses
    rcases detach_cases s c with ⟨p, -, -, heq⟩ | ⟨-, heq⟩
    · rw [heq]
      exact hfilter hc
    · rw [heq]
      exact hfilter hc
  | openStream p c protocolId target hp =>
    simp only [queueOpenProtocolStream, requireConn, hp]
    exact ho
  | own k' owner hk' =>
    refine BTreeMap.getElem?_insert_eq_some_iff.mpr (.inr ⟨?_, ho⟩)
    rintro rfl
    exact hkey hk'
  | disown k' hk' =>
    refine BTreeMap.getElem?_erase_eq_some_iff.mpr ⟨?_, ho⟩
    rintro rfl
    exact hkey hk'
  | _ => exact ho

/-- User events are about the stream of the call, and user data is data it delivers. -/
def UserGuarded (call : Call) (e : SwarmEvent) : Prop :=
  (∀ p t, e.userStream? = some (p, t) → ∃ c, call.key? = some ⟨c, t⟩) ∧
    (e.isUserData → call.isData)

/-- The events of a call follow those queued before it, which may have been renamed. -/
def QueuedSince (s₀ : SwarmCore) (call : Call) (s : SwarmCore) : Prop :=
  ∃ kept added, s.events = kept ++ added ∧ kept.length = s₀.events.length ∧
    ∀ e ∈ added, UserGuarded call e

omit [Sha256] in
theorem QueuedSince.push (h : QueuedSince s₀ call s) {e : SwarmEvent} (he : UserGuarded call e)
    (hevents : s'.events = s.events ++ [e]) : QueuedSince s₀ call s' := by
  obtain ⟨kept, added, heq, hlen, hadded⟩ := h
  refine ⟨kept, added ++ [e], by rw [hevents, heq, List.append_assoc], hlen, ?_⟩
  intro e' he'
  rcases List.mem_append.mp he' with he' | he'
  · exact hadded e' he'
  · rw [List.mem_singleton.mp he']
    exact he

omit [Sha256] in
theorem QueuedSince.same (h : QueuedSince s₀ call s) (hevents : s'.events = s.events) :
    QueuedSince s₀ call s' := by
  rw [QueuedSince, hevents]
  exact h

theorem Move.queuedSince (h : Move s₀ call s s') (hs : QueuedSince s₀ call s) :
    QueuedSince s₀ call s' := by
  have hplain : ∀ {e : SwarmEvent}, e.userStream? = none → e.isUserData = false →
      UserGuarded call e := by
    intro e hstream hdata
    refine ⟨?_, ?_⟩
    · intro p t h
      rw [hstream] at h
      cases h
    · intro h
      rw [hdata] at h
      cases h
  cases h with
  | register c p =>
    refine hs.push (hplain rfl rfl) (e := .connectionEstablished p) ?_
    show (s.yieldTo c p).events ++ _ = _
    rw [yieldTo_events]
  | rebind c p hverifies hne hagrees =>
    -- nothing has been queued yet, and what was queued before is renamed in place
    simp only [attach, migrateFrom]
    split
    · next stale _ =>
      refine ⟨s.events.map (SwarmEvent.migrate stale p), [.connectionEstablished p], rfl, ?_, ?_⟩
      · rw [List.length_map, hagrees.events]
      · intro e he
        rw [List.mem_singleton.mp he]
        exact hplain rfl rfl
    · exact hs.push (hplain rfl rfl) rfl
  | close c =>
    rcases detach_cases s c with ⟨p, -, -, heq⟩ | ⟨-, heq⟩
    · rw [heq]
      exact hs.push (hplain rfl rfl) (e := .connectionClosed p) rfl
    · rw [heq]
      exact hs.same rfl
  | openStream p c protocolId target hp =>
    simp only [queueOpenProtocolStream, requireConn, hp]
    exact hs.same rfl
  | event e hlifecycle hcause huser hdata =>
    refine hs.push ⟨?_, hdata⟩ rfl
    intro p t h
    obtain ⟨c, hc, -⟩ := huser p t h
    exact ⟨c, hc⟩
  | _ => exact hs.same rfl

end Moves

end Minip2p.Swarm
