import Minip2p.Swarm.Lifecycle
import Minip2p.Swarm.UserStreams

/-!
# Byte fidelity of user streams

Over a whole run, the user data emitted for a stream is what was delivered on it after its first
two frames, in order, however the transport splits it.
-/

namespace Minip2p.Swarm

open Multistream (MultistreamSelect Handshake)
open SwarmCore

/-! ## The promises about streams -/

/-- The stream was reported as closed. -/
def Ended (calls : List Call) (k : StreamKey) : Prop := ∃ call ∈ calls, call.endsStream? = some k

instance (calls : List Call) (k : StreamKey) : Decidable (Ended calls k) :=
  inferInstanceAs (Decidable (∃ call ∈ calls, call.endsStream? = some k))

/-- The stream a call delivers data on. -/
def Call.dataKey? : Call → Option StreamKey
  | .input (.transport (.streamData c t _) _) => some ⟨c, t⟩
  | _ => none

/-- Data comes after the stream was reported and not after it was closed. -/
def DataContract (before : List Call) (call : Call) : Prop :=
  ∀ k ∈ call.dataKey?, Announced before k ∧ ¬ Ended before k

instance (before : List Call) (call : Call) : Decidable (DataContract before call) :=
  inferInstanceAs (Decidable (∀ k ∈ call.dataKey?, Announced before k ∧ ¬ Ended before k))

/-- A contract run whose data obeys the promises about streams. -/
def StreamRun (calls : List Call) : Prop :=
  Runs.EachStep (fun before call => TransportContract before call ∧ DataContract before call)
    [] calls

instance (calls : List Call) : Decidable (StreamRun calls) :=
  inferInstanceAs (Decidable (Runs.EachStep
    (fun before call => TransportContract before call ∧ DataContract before call) [] calls))

/-! ## One call -/

section Steps

variable [Sha256] [MultihashCodec] {s : SwarmCore} {call : Call} {calls : List Call}
  {k : StreamKey} {delivered emitted : Bytes}

omit [Sha256] [MultihashCodec] in
theorem Call.dataKey?_eq_some (hkey : call.key? = some k) (hdata : call.isData = true) :
    call.dataKey? = some k := by
  cases aboutStream_of_key? hkey with
  | data data nowMs => rfl
  | _ => cases hdata

omit [Sha256] [MultihashCodec] in
theorem Call.key?_of_dataKey? (h : call.dataKey? = some k) : call.key? = some k := by
  rcases call with (⟨event, nowMs⟩ | _ | _ | _ | _) | _
  case input.transport =>
    cases event with
    | streamData c t data => exact h
    | _ => cases h
  all_goals cases h

omit [Sha256] [MultihashCodec] in
/-- The call that ends a stream delivers nothing on it. -/
theorem Call.dataKey?_ne_of_endsStream? (h : call.endsStream? = some k) :
    call.dataKey? ≠ some k := by
  intro hdata
  cases aboutStream_of_key? (key?_of_dataKey? hdata) with
  | data data nowMs => cases h
  | _ => cases hdata

omit [Sha256] [MultihashCodec] in
theorem Call.dataOn_of_dataKey? (h : call.dataKey? ≠ some k) : call.dataOn k = [] := by
  rcases call with (⟨event, nowMs⟩ | _ | _ | _ | _) | _
  case input.transport =>
    cases event with
    | streamData c t data =>
      have hne : ¬ (⟨c, t⟩ : StreamKey) = k := fun heq => h (congrArg some heq)
      rw [dataOn, if_neg hne]
    | _ => rfl
  all_goals rfl

/-- Only data on the stream makes the core emit user data for it. -/
theorem emittedBy_of_dataKey? (hcoh : Coherent calls s) (hcontract : TransportContract calls call)
    (h : call.dataKey? ≠ some k) : emittedBy k s call = [] := by
  rw [emittedBy]
  split
  · next hconn =>
    by_cases hpoll : call = .pollOutput
    · -- a poll only takes events
      have hle : (step s call).events.length ≤ s.events.length := by
        rw [hpoll, ← polledBy_append s, List.length_append]
        exact Nat.le_add_left _ _
      rw [emittedSince, List.drop_eq_nil_of_le hle]
      rfl
    · have hqueued : QueuedSince s call (step s call) :=
        Runs.keeps_of_chain (J := QueuedSince s call) (step_moves hcoh hcontract hpoll)
          (fun _ _ hmove => hmove.queuedSince)
          ⟨s.events, [], by rw [List.append_nil], rfl, fun e he => absurd he List.not_mem_nil⟩
      obtain ⟨kept, added, heq, hlen, hadded⟩ := hqueued
      rw [emittedSince_eq hlen heq, List.flatMap_eq_nil_iff]
      intro e he
      obtain ⟨hstream, hdata⟩ := hadded e he
      cases e with
      | userStreamData p t data =>
        refine if_neg ?_
        rintro rfl
        -- it would be data on this very stream
        obtain ⟨c, hkey⟩ := hstream p k.stream rfl
        have hc : call.conn? = some c := Call.conn?_of_key? hkey
        have hsame : c = k.conn := by
          rcases hconn with hnone | hsome
          · rw [hc] at hnone
            cases hnone
          · exact Option.some.inj (hc.symm.trans hsome)
        rw [hsame] at hkey
        exact h (Call.dataKey?_eq_some hkey (hdata rfl))
      | _ => rfl
  · rfl

theorem handleStreamRemoteWriteClosed_sameStreams (s : SwarmCore) (k : StreamKey) :
    SameStreams s (s.handleStreamRemoteWriteClosed k) := by
  simp only [handleStreamRemoteWriteClosed]
  split
  · exact ⟨rfl, rfl, rfl⟩
  · next protocol _ =>
    refine (ensurePeerIdForConn_sameStreams s k.conn).trans ?_
    cases protocol with
    | ping => exact (tables_oblivious.feedPing _ _).streams
    | identifyInitiator => exact (tables_oblivious.feedIdentify _ _).streams
    | identifyResponder => exact ⟨rfl, rfl, rfl⟩
    | user protocolId => exact ⟨rfl, rfl, rfl⟩

omit [Sha256] in
/-- A stream that closed is not filed. -/
theorem handleStreamClosed_unused (s : SwarmCore) (k : StreamKey) :
    (s.handleStreamClosed k).inboundNegotiators[k]? = none ∧
      (s.handleStreamClosed k).outboundNegotiators[k]? = none ∧
      (s.handleStreamClosed k).streamOwner[k]? = none := by
  refine ⟨Std.ExtTreeMap.getElem?_erase_self, Std.ExtTreeMap.getElem?_erase_self, ?_⟩
  simp only [handleStreamClosed]
  split
  · rw [(tables_oblivious.notifyStreamClosed _ _ _ _).streamOwner]
    exact Std.ExtTreeMap.getElem?_erase_self
  · exact Std.ExtTreeMap.getElem?_erase_self

omit [Sha256] [MultihashCodec] in
/-- A stream that was not reported is not filed. -/
theorem unfiled_of_not_announced (hcoh : Coherent calls s) (h : ¬ Announced calls k) :
    s.inboundNegotiators[k]? = none ∧ s.outboundNegotiators[k]? = none ∧
      s.streamOwner[k]? = none := by
  have hfiles : ¬ s.Files k := fun hk => h (hcoh.announced k hk)
  refine ⟨Std.ExtTreeMap.getElem?_eq_none ?_, Std.ExtTreeMap.getElem?_eq_none ?_,
    Std.ExtTreeMap.getElem?_eq_none ?_⟩
  · exact fun hk => hfiles (.inl hk)
  · exact fun hk => hfiles (.inr (.inl hk))
  · exact fun hk => hfiles (.inr (.inr hk))

omit [Sha256] [MultihashCodec] in
theorem stage_handleIncomingStream (hout : s.outboundNegotiators[k]? = none)
    (hown : s.streamOwner[k]? = none) : Stage k [] [] (s.handleIncomingStream k) := by
  simp only [handleIncomingStream, MultistreamSelect.handleInput]
  have htables := fun outputs t => tables_oblivious.pollStart k outputs t
  constructor
  · intro n hn
    rw [(htables _ _).inboundNegotiators] at hn
    obtain ⟨-, rfl⟩ | ⟨hne, -⟩ := BTreeMap.getElem?_insert_eq_some_iff.mp hn
    · exact ⟨rfl, _, .header rfl rfl rfl rfl⟩
    · exact absurd rfl hne
  · intro p hp
    rw [(htables _ _).outboundNegotiators, hout] at hp
    cases hp
  · intro protocol hp
    rw [(htables _ _).streamOwner, hown] at hp
    cases hp

omit [Sha256] [MultihashCodec] in
theorem stage_handleStreamOpened (hin : s.inboundNegotiators[k]? = none)
    (hout : s.outboundNegotiators[k]? = none) (hown : s.streamOwner[k]? = none)
    (token : OpenStreamToken) : Stage k [] [] (s.handleStreamOpened k token) := by
  have hnot : ∀ protocol, s.streamOwner[k]? ≠ some (.user protocol) := by
    intro protocol h
    rw [hown] at h
    cases h
  simp only [handleStreamOpened]
  split
  · exact .of_unused hin hout hnot
  · split
    · exact .of_unused hin hout hnot
    · simp only [startOutbound, MultistreamSelect.handleInput]
      have htables := fun outputs t => tables_oblivious.pollStart k outputs t
      constructor
      · intro n hn
        rw [(htables _ _).inboundNegotiators, hin] at hn
        cases hn
      · intro p hp
        obtain ⟨-, rfl⟩ | ⟨hne, -⟩ := BTreeMap.getElem?_insert_eq_some_iff.mp hp
        · exact ⟨rfl, _, .header rfl rfl rfl rfl⟩
        · exact absurd rfl hne
      · intro protocol hp
        rw [(htables _ _).streamOwner, hown] at hp
        cases hp

/-- What is filed for a stream by a call about another one was filed before. -/
theorem step_leAt (hcoh : Coherent calls s) (hcontract : TransportContract calls call)
    (hkey : call.key? ≠ some k) : LeAt k s (step s call) := by
  by_cases hpoll : call = .pollOutput
  · obtain ⟨events, actions, heq⟩ := pollOutput_eq s
    rw [hpoll, step, heq]
    exact .of_same ⟨rfl, rfl, rfl⟩
  · exact Runs.keeps_of_chain (J := LeAt k s) (step_moves hcoh hcontract hpoll)
      (fun _ _ hmove ht => ht.trans (hmove.leAt hkey)) (.of_same ⟨rfl, rfl, rfl⟩)

/-- Every call moves a stream to the stage of the bytes delivered and emitted with it. -/
theorem step_stage (hcoh : Coherent calls s) (hcontract : TransportContract calls call)
    (hfresh : ¬ Announced calls k → delivered = [] ∧ emitted = [])
    (hs : Stage k delivered emitted s) :
    Stage k (delivered ++ call.dataOn k) (emitted ++ emittedBy k s call) (step s call) := by
  by_cases hkey : call.key? = some k
  · -- the stream was not reported before the call that reports it
    have hnew : ¬ Announced calls k →
        (delivered = [] ∧ emitted = []) ∧ s.inboundNegotiators[k]? = none ∧
          s.outboundNegotiators[k]? = none ∧ s.streamOwner[k]? = none :=
      fun h => ⟨hfresh h, unfiled_of_not_announced hcoh h⟩
    -- the other calls about the stream emit no user data
    have hquiet : call.dataKey? = none → emittedBy k s call = [] := by
      intro hnone
      refine emittedBy_of_dataKey? hcoh hcontract ?_
      rw [hnone]
      rintro ⟨⟩
    cases Call.aboutStream_of_key? hkey with
    | reported nowMs =>
      rw [hquiet rfl]
      simp only [Call.dataOn, List.append_nil]
      exact hs
    | incoming nowMs =>
      obtain ⟨⟨rfl, rfl⟩, -, hout, hown⟩ := hnew hcontract.2.2
      rw [hquiet rfl]
      exact stage_handleIncomingStream hout hown
    | data data nowMs =>
      rw [Call.dataOn, if_pos rfl, emittedBy, if_pos (.inr rfl)]
      exact stage_handleStreamData hcoh hs data nowMs
    | remoteWriteClosed nowMs =>
      rw [hquiet rfl]
      simp only [Call.dataOn, List.append_nil]
      exact hs.of_le (.of_same (handleStreamRemoteWriteClosed_sameStreams s k))
    | closed nowMs =>
      obtain ⟨hin, hout, hown⟩ := handleStreamClosed_unused s k
      refine .of_unused hin hout ?_
      intro protocol h
      rw [step, handleInput, handleTransportEvent, hown] at h
      cases h
    | opened token nowMs =>
      obtain ⟨⟨rfl, rfl⟩, hin, hout, hown⟩ := hnew hcontract
      rw [hquiet rfl]
      exact stage_handleStreamOpened hin hout hown token
  · have hother : call.dataKey? ≠ some k := fun h => hkey (Call.key?_of_dataKey? h)
    rw [Call.dataOn_of_dataKey? hother, emittedBy_of_dataKey? hcoh hcontract hother,
      List.append_nil, List.append_nil]
    exact hs.of_le (step_leAt hcoh hcontract hkey)

end Steps

/-! ## Runs -/

section Runs

variable [Sha256] [MultihashCodec] {s : SwarmCore} {call : Call} {calls : List Call}
  {k : StreamKey}

/-- In every state of a run, a stream is at the stage of the bytes delivered and emitted. -/
theorem stage_run (identifyConfig : Identify.IdentifyConfig) (pingConfig : Ping.PingConfig)
    (hrun : StreamRun calls) :
    Stage k (deliveredOn k calls)
      (emittedOn k (SwarmCore.new identifyConfig pingConfig) calls)
      (run (SwarmCore.new identifyConfig pingConfig) calls) := by
  have hinv : (¬ Announced calls k → deliveredOn k calls = [] ∧
        emittedOn k (SwarmCore.new identifyConfig pingConfig) calls = []) ∧
      Stage k (deliveredOn k calls) (emittedOn k (SwarmCore.new identifyConfig pingConfig) calls)
        (run (SwarmCore.new identifyConfig pingConfig) calls) := by
    refine run_invariant identifyConfig pingConfig
      (I := fun calls s => (¬ Announced calls k → deliveredOn k calls = [] ∧
          emittedOn k (SwarmCore.new identifyConfig pingConfig) calls = []) ∧
        Stage k (deliveredOn k calls)
          (emittedOn k (SwarmCore.new identifyConfig pingConfig) calls) s) hrun ⟨?_, ?_⟩ ?_
    · exact fun _ => ⟨rfl, rfl⟩
    · refine .of_unused ?_ ?_ ?_ <;> simp [SwarmCore.new]
    · rintro before call s rfl hcoherent hcontract hdata ⟨hfresh, hstage⟩
      rw [deliveredOn_concat, emittedOn_concat]
      refine ⟨?_, step_stage hcoherent hcontract hfresh hstage⟩
      intro hnot
      have hbefore : ¬ Announced before k := fun h => hnot h.concat
      have hother : call.dataKey? ≠ some k := fun h => hbefore (hdata k h).1
      obtain ⟨hdelivered, hemitted⟩ := hfresh hbefore
      rw [hdelivered, hemitted, Call.dataOn_of_dataKey? hother,
        emittedBy_of_dataKey? hcoherent hcontract hother]
      exact ⟨rfl, rfl⟩
  exact hinv.2

/-- The owner of a stream stays until the stream ends or its connection is given up. -/
theorem step_owner_kept (hcoh : Coherent calls s) (hcontract : TransportContract calls call)
    (hends : call.endsStream? ≠ some k) (hclose : call.closes? ≠ some k.conn)
    (hsupersedes : ¬ Supersedes s call k.conn) {o : ProtocolKind}
    (ho : s.streamOwner[k]? = some o) : (step s call).streamOwner[k]? = some o := by
  have hmem : k ∈ s.streamOwner := BTreeMap.mem_of_getElem? ho
  have hannounced : Announced calls k := hcoh.announced k (.inr (.inr hmem))
  by_cases hkey : call.key? = some k
  · cases Call.aboutStream_of_key? hkey with
    | reported nowMs => exact ho
    | incoming nowMs => exact absurd hannounced hcontract.2.2
    | data data nowMs =>
      -- a stream with an owner has no negotiator any more
      have hin : ¬ s.inboundNegotiators.contains k = true :=
        fun h => (hcoh.inboundDisjoint k h).2 hmem
      have hout : ¬ s.outboundNegotiators.contains k = true :=
        fun h => hcoh.outboundDisjoint k h hmem
      show (s.handleStreamData k data nowMs).streamOwner[k]? = some o
      rw [handleStreamData, if_neg hin, if_neg hout,
        (dispatchProtocolData_sameStreams s k data nowMs).owner]
      exact ho
    | remoteWriteClosed nowMs =>
      show (s.handleStreamRemoteWriteClosed k).streamOwner[k]? = some o
      rw [(handleStreamRemoteWriteClosed_sameStreams s k).owner]
      exact ho
    | closed nowMs => exact absurd hkey hends
    | opened token nowMs => exact absurd hannounced hcontract
  · by_cases hpoll : call = .pollOutput
    · obtain ⟨events, actions, heq⟩ := pollOutput_eq s
      rw [hpoll, step, heq]
      exact ho
    · exact Runs.keeps_of_chain (J := fun t => t.streamOwner[k]? = some o)
        (step_moves hcoh hcontract hpoll)
        (fun _ _ hmove ht => hmove.owner_kept hkey hclose hsupersedes ht) ho

/-- The connection of the stream is neither closed nor superseded by the call. -/
def Spares (s : SwarmCore) (c : ConnectionId) (call : Call) : Prop :=
  call.closes? ≠ some c ∧ ¬ Supersedes s call c

/-- For every stream that the application owns at some point of a run, and as long as its
connection is neither closed nor superseded, the user data emitted for it is what was delivered
on it after its first two frames. -/
theorem userStream_fidelity (identifyConfig : Identify.IdentifyConfig)
    (pingConfig : Ping.PingConfig) (before after : List Call) (k : StreamKey) (protocol : String)
    (hrun : StreamRun (before ++ after))
    (howner : (run (SwarmCore.new identifyConfig pingConfig) before).streamOwner[k]? =
      some (.user protocol))
    (hspares : Runs.EachStep (fun calls call =>
      Spares (run (SwarmCore.new identifyConfig pingConfig) calls) k.conn call) before after) :
    ∃ header line n m,
      Multistream.decodeMessage (deliveredOn k (before ++ after)) = .complete header n ∧
      Multistream.decodeMessage ((deliveredOn k (before ++ after)).drop n) = .complete line m ∧
      emittedOn k (SwarmCore.new identifyConfig pingConfig) (before ++ after) =
        (deliveredOn k (before ++ after)).drop (n + m) := by
  obtain ⟨hbefore, hafter⟩ := Runs.eachStep_append.mp hrun
  have hsteps : Runs.EachStep (fun calls call =>
      (TransportContract calls call ∧ DataContract calls call) ∧
        Spares (run (SwarmCore.new identifyConfig pingConfig) calls) k.conn call) before after :=
    Runs.eachStep_and hafter hspares
  have hinv : StreamRun (before ++ after) ∧
      Handshake (deliveredOn k (before ++ after))
        (emittedOn k (SwarmCore.new identifyConfig pingConfig) (before ++ after)) ∧
      ((run (SwarmCore.new identifyConfig pingConfig) (before ++ after)).streamOwner[k]? =
        some (.user protocol) ∨ Ended (before ++ after) k) := by
    refine Runs.EachStep.invariant (I := fun calls => StreamRun calls ∧
      Handshake (deliveredOn k calls)
        (emittedOn k (SwarmCore.new identifyConfig pingConfig) calls) ∧
      ((run (SwarmCore.new identifyConfig pingConfig) calls).streamOwner[k]? =
        some (.user protocol) ∨ Ended calls k)) hsteps ⟨hbefore, ?_, .inl howner⟩ ?_
    · exact (stage_run identifyConfig pingConfig hbefore).owned protocol howner
    · rintro calls call ⟨⟨hcontract, hdata⟩, hclose, hsupersedes⟩ ⟨hcalls, hshake, hstate⟩
      have hcalls' : StreamRun (calls ++ [call]) :=
        Runs.eachStep_append.mpr ⟨hcalls, ⟨hcontract, hdata⟩, trivial⟩
      have hcoherent : Coherent calls (run (SwarmCore.new identifyConfig pingConfig) calls) :=
        coherent_run identifyConfig pingConfig (hcalls.mono fun _ _ h => h.1)
      -- a call that delivers nothing on the stream changes neither side
      have hquiet : call.dataKey? ≠ some k → Handshake (deliveredOn k (calls ++ [call]))
          (emittedOn k (SwarmCore.new identifyConfig pingConfig) (calls ++ [call])) := by
        intro hother
        rw [deliveredOn_concat, emittedOn_concat, Call.dataOn_of_dataKey? hother,
          emittedBy_of_dataKey? hcoherent hcontract hother, List.append_nil, List.append_nil]
        exact hshake
      refine ⟨hcalls', ?_⟩
      -- the stream is still the application's, or it has ended and gets no more data
      rcases hstate with ho | hended
      · by_cases hends : call.endsStream? = some k
        · exact ⟨hquiet (Call.dataKey?_ne_of_endsStream? hends),
            .inr ⟨call, List.mem_append_right _ List.mem_cons_self, hends⟩⟩
        · have ho' := step_owner_kept hcoherent hcontract hends hclose hsupersedes ho
          rw [← run_concat] at ho'
          exact ⟨(stage_run identifyConfig pingConfig hcalls').owned protocol ho', .inl ho'⟩
      · refine ⟨hquiet fun h => (hdata k h).2 hended, .inr ?_⟩
        obtain ⟨x, hx, hk⟩ := hended
        exact ⟨x, List.mem_append_left _ hx, hk⟩
  exact hinv.2.1

end Runs

/-! ## A concrete run -/

/-- The two frames that agree on the protocol of the application. -/
def handshakeBytes : Bytes :=
  Multistream.encodeMessage Multistream.multistreamProtocolId ++ Multistream.encodeMessage "/u"

/-- Alice opens a stream; the handshake comes in two chunks, the second with one byte more. -/
def chunkedRun : List Call :=
  [.addUserProtocol "/u", .event (.connected ⟨1⟩ (Sample.endpoint (some Sample.alice))),
    .event (.incomingStream ⟨1⟩ ⟨0⟩),
    .event (.streamData ⟨1⟩ ⟨0⟩ (handshakeBytes.take 21)),
    .event (.streamData ⟨1⟩ ⟨0⟩ (handshakeBytes.drop 21 ++ [0x41]))]

/-- Another byte, and the end of the stream. -/
def chunkedRest : List Call :=
  [.event (.streamData ⟨1⟩ ⟨0⟩ [0x42]), .event (.streamClosed ⟨1⟩ ⟨0⟩)]

theorem chunkedRun_fidelity :
    @emittedOn Sample.sha256 multihashCodec ⟨⟨1⟩, ⟨0⟩⟩ Sample.core (chunkedRun ++ chunkedRest) =
        [0x41, 0x42] ∧
      ∃ header line n m,
        Multistream.decodeMessage (deliveredOn ⟨⟨1⟩, ⟨0⟩⟩ (chunkedRun ++ chunkedRest)) =
          .complete header n ∧
        Multistream.decodeMessage
          ((deliveredOn ⟨⟨1⟩, ⟨0⟩⟩ (chunkedRun ++ chunkedRest)).drop n) = .complete line m ∧
        @emittedOn Sample.sha256 multihashCodec ⟨⟨1⟩, ⟨0⟩⟩ Sample.core (chunkedRun ++ chunkedRest) =
          (deliveredOn ⟨⟨1⟩, ⟨0⟩⟩ (chunkedRun ++ chunkedRest)).drop (n + m) := by
  refine ⟨by decide +kernel, ?_⟩
  refine @userStream_fidelity Sample.sha256 multihashCodec _ _ chunkedRun chunkedRest
    ⟨⟨1⟩, ⟨0⟩⟩ "/u" (by decide +kernel) (by decide +kernel) ?_
  have hspares : ∀ (s : SwarmCore) (event : TransportEvent), event.key? = some ⟨⟨1⟩, ⟨0⟩⟩ →
      Spares s ⟨1⟩ (.event event) := by
    intro s event hkey
    refine ⟨?_, ?_⟩
    · intro hcloses
      cases event with
      | closed c => cases hkey
      | _ => cases hcloses
    · rintro ⟨c, p, ⟨endpoint, nowMs, hcall, -⟩, -⟩
      cases hcall
      cases hkey
  exact ⟨hspares _ _ rfl, hspares _ _ rfl, trivial⟩

end Minip2p.Swarm
