import Minip2p.Swarm.Fidelity

/-!
# Negotiation after the remote half-close

`handle_stream_remote_write_closed` looks at the owner of a stream and not at its negotiator. A
stream that is still in negotiation when its remote side finishes writing stays there, although the
bytes that would complete the negotiation can no longer come.
-/

namespace Minip2p.Swarm

open SwarmCore

/-- The stream whose remote side finishes writing with a call. -/
def Call.halfCloses? : Call → Option StreamKey
  | .input (.transport (.streamRemoteWriteClosed c t) _) => some ⟨c, t⟩
  | _ => none

/-- The half-close of the stream was handled. -/
def HalfClosed (calls : List Call) (k : StreamKey) : Prop :=
  ∃ call ∈ calls, call.halfCloses? = some k

instance (calls : List Call) (k : StreamKey) : Decidable (HalfClosed calls k) :=
  inferInstanceAs (Decidable (∃ call ∈ calls, call.halfCloses? = some k))

/-- The stream is in negotiation, on either side. -/
def SwarmCore.Negotiates (s : SwarmCore) (k : StreamKey) : Prop :=
  k ∈ s.inboundNegotiators ∨ k ∈ s.outboundNegotiators

instance (s : SwarmCore) (k : StreamKey) : Decidable (s.Negotiates k) :=
  inferInstanceAs (Decidable (_ ∨ _))

/-- No stream whose remote side has finished writing is in negotiation. -/
def NoneStuck (calls : List Call) (s : SwarmCore) : Prop :=
  ∀ k, HalfClosed calls k → ¬ s.Negotiates k

/-- The stream whose negotiation starts with a call. A reply of the driver starts one if the core
asked for the stream on its connection. -/
def SwarmCore.starts? (s : SwarmCore) : Call → Option StreamKey
  | .input (.transport (.incomingStream c t) _) => some ⟨c, t⟩
  | .input (.streamOpened c t token _) =>
    if s.pendingOpens[token]?.any (·.connId = c) then some ⟨c, t⟩ else none
  | _ => none

/-- A half-close comes neither during the negotiation of its stream nor before it. -/
def Timely (before : List Call) (s : SwarmCore) (call : Call) : Prop :=
  (∀ k ∈ call.halfCloses?, ¬ s.Negotiates k) ∧ ∀ k ∈ s.starts? call, ¬ HalfClosed before k

instance (before : List Call) (s : SwarmCore) (call : Call) : Decidable (Timely before s call) :=
  inferInstanceAs (Decidable (_ ∧ _))

/-! ## One call -/

section Steps

variable [Sha256] [MultihashCodec] {s s' : SwarmCore} {call : Call} {calls : List Call}
  {k : StreamKey}

omit [Sha256] [MultihashCodec] in
theorem halfClosed_concat :
    HalfClosed (calls ++ [call]) k ↔ HalfClosed calls k ∨ call.halfCloses? = some k := by
  simp [HalfClosed, or_and_right, exists_or]

omit [Sha256] [MultihashCodec] in
theorem LeAt.negotiates (h : LeAt k s s') (hk : s'.Negotiates k) : s.Negotiates k := by
  rcases hk with hk | hk
  · obtain ⟨n, hn⟩ := BTreeMap.exists_getElem?_of_mem hk
    exact .inl (BTreeMap.mem_of_getElem? (h.inbound n hn))
  · obtain ⟨p, hp⟩ := BTreeMap.exists_getElem?_of_mem hk
    exact .inr (BTreeMap.mem_of_getElem? (h.outbound p hp))

omit [Sha256] [MultihashCodec] in
theorem SameStreams.negotiates_iff (h : SameStreams s s') : s'.Negotiates k ↔ s.Negotiates k := by
  rw [Negotiates, h.inbound, h.outbound]
  rfl

omit [Sha256] [MultihashCodec] in
theorem Call.key?_of_halfCloses? (h : call.halfCloses? = some k) : call.key? = some k := by
  rcases call with (⟨event, nowMs⟩ | _ | _ | _ | _) | _
  case input.transport =>
    cases event with
    | streamRemoteWriteClosed c t => exact h
    | _ => cases h
  all_goals cases h

/-- Data starts no negotiation. -/
theorem handleStreamData_negotiates (hk : ¬ s.Negotiates k) (data : Bytes) (nowMs : UInt64) :
    ¬ (s.handleStreamData k data nowMs).Negotiates k := by
  have hin : ¬ s.inboundNegotiators.contains k = true := fun h => hk (.inl h)
  have hout : ¬ s.outboundNegotiators.contains k = true := fun h => hk (.inr h)
  rw [handleStreamData, if_neg hin, if_neg hout,
    (dispatchProtocolData_sameStreams s k data nowMs).negotiates_iff]
  exact hk

omit [Sha256] [MultihashCodec] in
/-- An incoming stream is negotiated. -/
theorem handleIncomingStream_negotiates (s : SwarmCore) (k : StreamKey) :
    (s.handleIncomingStream k).Negotiates k := by
  left
  simp only [handleIncomingStream]
  rw [(tables_oblivious.pollStart _ _ _).inboundNegotiators]
  exact BTreeMap.mem_insert_iff.mpr (.inl rfl)

omit [Sha256] [MultihashCodec] in
/-- The stream the driver opened is negotiated if the core asked for it on its connection. -/
theorem handleStreamOpened_negotiates_iff (hk : ¬ s.Negotiates k) (token : OpenStreamToken) :
    (s.handleStreamOpened k token).Negotiates k ↔
      s.pendingOpens[token]?.any (·.connId = k.conn) = true := by
  rw [handleStreamOpened]
  split
  · next hnone =>
    rw [hnone]
    exact ⟨fun h => absurd h hk, by rintro ⟨⟩⟩
  · next pending hsome =>
    rw [hsome, Option.any_some, decide_eq_true_iff]
    split
    · next hne => exact ⟨fun h => absurd h hk, fun h => absurd h hne⟩
    · next heq =>
      refine ⟨fun _ => not_not.mp heq, fun _ => .inr ?_⟩
      exact BTreeMap.mem_insert_iff.mpr (.inl rfl)

omit [Sha256] in
theorem handleStreamClosed_negotiates (s : SwarmCore) (k : StreamKey) :
    ¬ (s.handleStreamClosed k).Negotiates k := by
  obtain ⟨hin, hout, -⟩ := handleStreamClosed_unused s k
  rintro (h | h)
  · obtain ⟨n, hn⟩ := BTreeMap.exists_getElem?_of_mem h
    rw [hin] at hn
    cases hn
  · obtain ⟨p, hp⟩ := BTreeMap.exists_getElem?_of_mem h
    rw [hout] at hp
    cases hp

/-- A timely call leaves no half-closed stream in negotiation, and every other call does. -/
theorem step_noneStuck_iff (hcoh : Coherent calls s) (hcontract : TransportContract calls call)
    (hs : NoneStuck calls s) :
    NoneStuck (calls ++ [call]) (step s call) ↔ Timely calls s call := by
  -- a stream the call is not about is as it was
  have hother : ∀ k', call.key? ≠ some k' → HalfClosed (calls ++ [call]) k' →
      ¬ (step s call).Negotiates k' := by
    intro k' hkey hhalf hk'
    rcases halfClosed_concat.mp hhalf with hhalf | hhalf
    · exact hs k' hhalf ((step_leAt hcoh hcontract hkey).negotiates hk')
    · exact hkey (Call.key?_of_halfCloses? hhalf)
  -- so only the stream of the call matters
  have hat : ∀ k, call.key? = some k →
      ((HalfClosed (calls ++ [call]) k → ¬ (step s call).Negotiates k) ↔ Timely calls s call) →
      (NoneStuck (calls ++ [call]) (step s call) ↔ Timely calls s call) := by
    intro k hkey hiff
    refine ⟨fun h => hiff.mp (h k), ?_⟩
    intro htimely k' hhalf
    by_cases hk' : k' = k
    · rw [hk'] at hhalf ⊢
      exact hiff.mpr htimely hhalf
    · refine hother k' ?_ hhalf
      rw [hkey]
      exact fun h => hk' (Option.some.inj h).symm
  cases hkey : call.key? with
  | none =>
    have htimely : Timely calls s call := by
      rcases call with (⟨event, nowMs⟩ | _ | _ | _ | _) | _
      case input.transport =>
        cases event with
        | incomingStream c t => cases hkey
        | streamRemoteWriteClosed c t => cases hkey
        | _ => exact ⟨by rintro _ ⟨⟩, by rintro _ ⟨⟩⟩
      case input.streamOpened => cases hkey
      all_goals exact ⟨by rintro _ ⟨⟩, by rintro _ ⟨⟩⟩
    refine ⟨fun _ => htimely, fun _ k' => hother k' ?_⟩
    rw [hkey]
    rintro ⟨⟩
  | some k =>
    refine hat k hkey ?_
    rw [halfClosed_concat]
    cases Call.aboutStream_of_key? hkey with
    | reported nowMs =>
      refine ⟨fun _ => ⟨by rintro _ ⟨⟩, by rintro _ ⟨⟩⟩, ?_⟩
      rintro - (hhalf | hhalf)
      · exact hs k hhalf
      · cases hhalf
    | incoming nowMs =>
      have hin : (step s (.input (.transport (.incomingStream k.conn k.stream) nowMs))).Negotiates
          k := handleIncomingStream_negotiates s k
      simp [Timely, Call.halfCloses?, starts?, hin]
    | data data nowMs =>
      refine ⟨fun _ => ⟨by rintro _ ⟨⟩, by rintro _ ⟨⟩⟩, ?_⟩
      rintro - (hhalf | hhalf)
      · exact handleStreamData_negotiates (hs k hhalf) data nowMs
      · cases hhalf
    | remoteWriteClosed nowMs =>
      -- the negotiators are not looked at
      have hsame : (step s (.input (.transport (.streamRemoteWriteClosed k.conn k.stream)
          nowMs))).Negotiates k ↔ s.Negotiates k :=
        (handleStreamRemoteWriteClosed_sameStreams s k).negotiates_iff
      simp [Timely, Call.halfCloses?, starts?, hsame]
    | closed nowMs =>
      exact ⟨fun _ => ⟨by rintro _ ⟨⟩, by rintro _ ⟨⟩⟩,
        fun _ _ => handleStreamClosed_negotiates s k⟩
    | opened token nowMs =>
      have hfresh : ¬ s.Negotiates k := by
        intro h
        refine hcontract (hcoh.announced k ?_)
        exact h.imp_right .inl
      have hiff : (step s (.input (.streamOpened k.conn k.stream token nowMs))).Negotiates k ↔ _ :=
        handleStreamOpened_negotiates_iff hfresh token
      rw [hiff]
      simp only [Timely, Call.halfCloses?, starts?, reduceCtorEq, or_false]
      split
      · next hasked => simp [hasked]
      · next hnot => simp [hnot]

end Steps

/-! ## Runs -/

/-- In a contract run no stream whose half-close was handled is in negotiation in any state reached,
exactly when every half-close is timely. -/
theorem noneStuck_iff_timely [Sha256] [MultihashCodec] (identifyConfig : Identify.IdentifyConfig)
    (pingConfig : Ping.PingConfig) (calls : List Call) (hrun : ContractRun calls) :
    (∀ before after, calls = before ++ after →
        NoneStuck before (run (SwarmCore.new identifyConfig pingConfig) before)) ↔
      Runs.EachStep (fun before call =>
        Timely before (run (SwarmCore.new identifyConfig pingConfig) before) call) [] calls := by
  have hiff := Runs.EachStep.prefixes_iff
    (I := fun before => NoneStuck before (run (SwarmCore.new identifyConfig pingConfig) before))
    (Q := fun before call =>
      Timely before (run (SwarmCore.new identifyConfig pingConfig) before) call) hrun trivial
    (by rintro k ⟨call, hcall, -⟩; cases hcall) ?_
  · simpa using hiff
  · intro before call hbefore hcontract hs
    rw [run_concat]
    exact step_noneStuck_iff (coherent_run identifyConfig pingConfig hbefore) hcontract hs

/-! ## Concrete runs -/

/-- Alice finishes writing on a ping stream before she has answered the negotiation. -/
def stuckPingRun : List Call :=
  [.event (.connected ⟨1⟩ (Sample.endpoint (some Sample.alice))),
    .ping Sample.alice (Vector.replicate Ping.pingPayloadLen 7) 0,
    .input (.streamOpened ⟨1⟩ ⟨4⟩ ⟨2⟩ 0), .event (.streamRemoteWriteClosed ⟨1⟩ ⟨4⟩)]

/-- The stream stays in negotiation, and every later ping to Alice waits for it. -/
theorem stuckPingRun_stuck :
    ContractRun stuckPingRun ∧ ¬ NoneStuck stuckPingRun (Sample.run stuckPingRun) ∧
      (Sample.run stuckPingRun).hasPendingPingStream Sample.alice = true := by
  refine ⟨by decide, ?_, by decide⟩
  intro h
  have hnot := h ⟨⟨1⟩, ⟨4⟩⟩ (by decide)
  exact absurd (show (Sample.run stuckPingRun).Negotiates ⟨⟨1⟩, ⟨4⟩⟩ by decide) hnot

/-- Alice negotiates a ping stream and finishes writing on it. -/
def timelyPingRun : List Call :=
  [.event (.connected ⟨1⟩ (Sample.endpoint (some Sample.alice))),
    .event (.incomingStream ⟨1⟩ ⟨0⟩),
    .event (.streamData ⟨1⟩ ⟨0⟩ (Multistream.encodeMessage Multistream.multistreamProtocolId ++
      Multistream.encodeMessage Ping.pingProtocolId)),
    .event (.streamRemoteWriteClosed ⟨1⟩ ⟨0⟩)]

theorem timelyPingRun_noneStuck : NoneStuck timelyPingRun (Sample.run timelyPingRun) :=
  (@noneStuck_iff_timely Sample.sha256 multihashCodec _ _ timelyPingRun (by decide)).mpr
    (by decide +kernel) timelyPingRun [] rfl

end Minip2p.Swarm
