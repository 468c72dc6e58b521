import Minip2p.Swarm.Actions

/-!
# Superseded connections

`supersede_connection` keeps no record of the connection it gives up, so every handler must reject
the events that the transport still reports on it. All do but one: `on_inbound_negotiated` files
the connection again, under a placeholder. As long as no inbound negotiation of a superseded
connection completes, the connection stays out of the tables and its events cause errors only.
-/

namespace Minip2p.Swarm

open Multistream (MultistreamOutput MultistreamSelect)
open SwarmCore

/-- The call makes the core give up `old` for a new connection of the same peer. -/
def Supersedes (s : SwarmCore) (call : Call) (old : ConnectionId) : Prop :=
  ∃ c p, call.ConnectsAs c p ∧ s.peerToConn[p]? = some old ∧ old ≠ c

/-- What the transport may still report on a connection that is being closed: streams, their
data and their ends, errors and the close. -/
def Lingers (old : ConnectionId) : Call → Prop
  | .input (.transport (.peerIdentityVerified c _ _) _) => c ≠ old
  | _ => True

/-- The call does not complete the negotiation of an inbound stream of `old`. -/
def LeavesOpen (s : SwarmCore) (old : ConnectionId) : Call → Prop
  | .input (.transport (.streamData c streamId data) _) =>
    c = old → ¬ s.CompletesInbound ⟨c, streamId⟩ data
  | _ => True

/-- Runs on after the call that superseded `old`. -/
def LingeringRun [Sha256] [MultihashCodec] (core : SwarmCore) (old : ConnectionId) :
    List Call → List Call → Prop :=
  Runs.EachStep fun before call =>
    TransportContract before call ∧ Lingers old call ∧ LeavesOpen (run core before) old call

/-- The connection was given up by one of the calls of the run. -/
def Superseded [Sha256] [MultihashCodec] (core : SwarmCore) (calls : List Call)
    (c : ConnectionId) : Prop :=
  ∃ before call after, calls = before ++ call :: after ∧ Supersedes (run core before) call c

section Moves

variable [Sha256] {s₀ s s' : SwarmCore} {call : Call} {old : ConnectionId} {calls : List Call}

/-- The call does not file `old` under a peer. -/
structure Disregards (s₀ : SwarmCore) (call : Call) (old : ConnectionId) : Prop where
  placeholder : ¬ call.NeedsPlaceholder s₀ old
  register : ∀ p, ¬ call.ConnectsAs old p
  rebind : ∀ p, ¬ call.VerifiesAs old p

omit [Sha256] in
/-- The transport reports a connection as connected once. -/
theorem disregards_of_lingers (hcontract : TransportContract calls call)
    (hconnected : Connected calls old) (hlingers : Lingers old call)
    (hopen : LeavesOpen s₀ old call) : Disregards s₀ call old := by
  constructor
  · rintro (⟨endpoint, nowMs, rfl, -⟩ | ⟨t, data, nowMs, rfl, hcompletes⟩)
    · exact hcontract.1 hconnected
    · exact hopen rfl hcompletes
  · rintro p ⟨endpoint, nowMs, rfl, -⟩
    exact hcontract.1 hconnected
  · rintro p ⟨endpoint, previous, nowMs, rfl, -⟩
    exact hlingers rfl

omit [Sha256] in
theorem not_mem_connToPeer_of_yieldTo {c : ConnectionId} (hs : old ∉ s.connToPeer)
    (p : PeerId) : old ∉ (s.yieldTo c p).connToPeer := by
  rw [yieldTo_connToPeer]
  split
  · split
    · exact fun h => hs (BTreeMap.mem_erase_iff.mp h).2
    · exact hs
  · exact hs

omit [Sha256] in
theorem not_mem_connToPeer_of_detach (hs : old ∉ s.connToPeer) (c : ConnectionId) :
    old ∉ (s.detach c).connToPeer := by
  have herase : old ∉ s.connToPeer.erase c := fun h => hs (BTreeMap.mem_erase_iff.mp h).2
  rcases detach_cases s c with ⟨p, -, -, heq⟩ | ⟨-, heq⟩
  · rw [heq]
    exact herase
  · rw [heq]
    exact herase

/-- A connection that is not tracked stays so. -/
theorem Move.untracked (h : Move s₀ call s s') (hcall : Disregards s₀ call old)
    (hs : old ∉ s.connToPeer) : old ∉ s'.connToPeer := by
  have hinsert : ∀ {conns : BTreeMap ConnectionId PeerId} {c : ConnectionId} {p : PeerId},
      c ≠ old → old ∉ conns → old ∉ conns.insert c p := by
    intro conns c p hne hconns h
    rcases BTreeMap.mem_insert_iff.mp h with h | h
    · exact hne h.symm
    · exact hconns h
  cases h with
  | placeholder c hneeds =>
    refine hinsert ?_ hs
    rintro rfl
    exact hcall.placeholder hneeds
  | register c p hconnects =>
    refine hinsert ?_ (not_mem_connToPeer_of_yieldTo hs p)
    rintro rfl
    exact hcall.register p hconnects
  | rebind c p hverifies =>
    refine hinsert ?_ ?_
    · rintro rfl
      exact hcall.rebind p hverifies
    · rw [migrateFrom]
      split
      · exact hs
      · exact hs
  | close c => exact not_mem_connToPeer_of_detach hs c
  | openStream p c protocolId target hp =>
    simp only [queueOpenProtocolStream, requireConn, hp]
    exact hs
  | _ => exact hs

/-- An event on a connection that is not tracked causes errors only. -/
theorem Move.events_of_untracked (h : Move s₀ call s s') (hcall : Disregards s₀ call old)
    (hconn : call.eventConn? = some old) (hs : old ∉ s.connToPeer) :
    ∃ added, s'.events = s.events ++ added ∧ ∀ e ∈ added, e.isError := by
  have hnone : ∀ {events : List SwarmEvent}, events = s.events →
      ∃ added, events = s.events ++ added ∧ ∀ e ∈ added, e.isError := by
    intro events heq
    refine ⟨[], by rw [heq, List.append_nil], ?_⟩
    intro e he
    cases he
  -- every move of the call is about the connection of its event
  have hsame : ∀ {c : ConnectionId}, call.eventConn? = some c → c = old := by
    intro c hc
    exact Option.some.inj (hc.symm.trans hconn)
  cases h with
  | register c p hconnects =>
    obtain rfl : c = old := hsame hconnects.eventConn
    exact absurd hconnects (hcall.register p)
  | rebind c p hverifies =>
    obtain rfl : c = old := hsame hverifies.eventConn
    exact absurd hverifies (hcall.rebind p)
  | close c hcloses =>
    obtain rfl : c = old := hsame (Call.eventConn?_of_closes? hcloses)
    have huntracked : s.connToPeer[c]? = none := Std.ExtTreeMap.getElem?_eq_none hs
    rw [detach, huntracked]
    exact hnone rfl
  | openStream p c protocolId target hp =>
    simp only [queueOpenProtocolStream, requireConn, hp]
    exact hnone rfl
  | event e hplain hcause =>
    -- other events need a tracked connection
    rcases hcause with herror | htracked
    · refine ⟨[e], rfl, ?_⟩
      intro e' he'
      rw [List.mem_singleton.mp he']
      exact herror
    · exact absurd (htracked old hconn) hs
  | _ => exact hnone rfl

/-- A tracked connection stays so until it closes or makes room for a newer one. -/
theorem Move.tracked (h : Move s₀ call s s') (hclose : call.closes? ≠ some old)
    (hsupersedes : ¬ Supersedes s₀ call old) (hs : old ∈ s.connToPeer) : old ∈ s'.connToPeer := by
  cases h with
  | placeholder c => exact BTreeMap.mem_insert_iff.mpr (.inr hs)
  | register c p hconnects hnew hagrees =>
    refine BTreeMap.mem_insert_iff.mpr (.inr ?_)
    rcases yieldTo_cases s c p with ⟨heq, -⟩ | ⟨displaced, hdisplaced, hne, heq⟩
    · rw [heq]
      exact hs
    · rw [heq]
      refine BTreeMap.mem_erase_iff.mpr ⟨?_, hs⟩
      rintro rfl
      exact hsupersedes ⟨c, p, hconnects, hagrees.peerToConn ▸ hdisplaced, hne⟩
  | rebind c p =>
    refine BTreeMap.mem_insert_iff.mpr (.inr ?_)
    rw [migrateFrom]
    split
    · exact hs
    · exact hs
  | close c hcloses =>
    have hother : old ∈ s.connToPeer.erase c := by
      refine BTreeMap.mem_erase_iff.mpr ⟨?_, hs⟩
      rintro rfl
      exact hclose hcloses
    rcases detach_cases s c with ⟨p, -, -, heq⟩ | ⟨-, heq⟩
    · rw [heq]
      exact hother
    · rw [heq]
      exact hother
  | openStream p c protocolId target hp =>
    simp only [queueOpenProtocolStream, requireConn, hp]
    exact hs
  | _ => exact hs

variable [MultihashCodec]

theorem step_tracked (hs₀ : Coherent calls s₀) (hcontract : TransportContract calls call)
    (hclose : call.closes? ≠ some old) (hsupersedes : ¬ Supersedes s₀ call old)
    (hs : old ∈ s₀.connToPeer) : old ∈ (step s₀ call).connToPeer := by
  by_cases hpoll : call = .pollOutput
  · obtain ⟨events, actions, heq⟩ := pollOutput_eq s₀
    rw [hpoll, step, heq]
    exact hs
  · exact Runs.keeps_of_chain (J := fun t => old ∈ t.connToPeer)
      (step_moves hs₀ hcontract hpoll)
      (fun _ _ hmove => hmove.tracked hclose hsupersedes) hs

theorem Superseded.concat {core : SwarmCore} (h : Superseded core calls old) :
    Superseded core (calls ++ [call]) old := by
  obtain ⟨before, first, after, rfl, hsupersedes⟩ := h
  exact ⟨before, first, after ++ [call], by simp, hsupersedes⟩

theorem Supersedes.superseded {core : SwarmCore} (h : Supersedes (run core calls) call old) :
    Superseded core (calls ++ [call]) old :=
  ⟨calls, call, [], rfl, h⟩

theorem step_untracked (hs₀ : Coherent calls s₀) (hcontract : TransportContract calls call)
    (hcall : Disregards s₀ call old) (hs : old ∉ s₀.connToPeer) :
    old ∉ (step s₀ call).connToPeer := by
  by_cases hpoll : call = .pollOutput
  · obtain ⟨events, actions, heq⟩ := pollOutput_eq s₀
    rw [hpoll, step, heq]
    exact hs
  · exact Runs.keeps_of_chain (J := fun t => old ∉ t.connToPeer)
      (step_moves hs₀ hcontract hpoll) (fun _ _ hmove => hmove.untracked hcall) hs

theorem step_events_of_untracked (hs₀ : Coherent calls s₀)
    (hcontract : TransportContract calls call) (hcall : Disregards s₀ call old)
    (hconn : call.eventConn? = some old) (hs : old ∉ s₀.connToPeer) :
    Extends (fun e => e.isError) s₀.events (step s₀ call).events := by
  have hpoll : call ≠ .pollOutput := by
    rintro rfl
    cases hconn
  obtain ⟨added, heq, hadded⟩ := Runs.appends_of_chain (J := fun t => old ∉ t.connToPeer)
    (step_moves hs₀ hcontract hpoll)
    (fun t t' hmove ht => ⟨hmove.untracked hcall ht, hmove.events_of_untracked hcall hconn ht⟩) hs
  exact ⟨s₀.events, added, heq, List.suffix_rfl, hadded⟩

/-! ## The call that supersedes -/

/-- The connection that makes room is no longer tracked. -/
theorem step_supersedes (hs₀ : Coherent calls s₀) (hcontract : TransportContract calls call)
    (h : Supersedes s₀ call old) : old ∉ (step s₀ call).connToPeer := by
  obtain ⟨c, p, hcall, hold, hne⟩ := h
  -- the new connection takes the place of the old one in `conn_to_peer`
  rw [step_connToPeer_of_connectsAs hs₀ hcontract hcall, yieldTo_connToPeer, hold]
  simp only [if_pos hne]
  intro h
  rcases BTreeMap.mem_insert_iff.mp h with h | h
  · exact hne h
  · exact BTreeMap.not_mem_erase_self h

/-! ## Runs -/

variable {identifyConfig : Identify.IdentifyConfig} {pingConfig : Ping.PingConfig}

/-- A superseded connection, in a state after the call that gave it up. -/
structure GivenUp (identifyConfig : Identify.IdentifyConfig) (pingConfig : Ping.PingConfig)
    (old : ConnectionId) (calls : List Call) : Prop where
  contract : ContractRun calls
  connected : Connected calls old
  untracked : old ∉ (run (SwarmCore.new identifyConfig pingConfig) calls).connToPeer

theorem GivenUp.coherent (h : GivenUp identifyConfig pingConfig old calls) :
    Coherent calls (run (SwarmCore.new identifyConfig pingConfig) calls) :=
  coherent_run identifyConfig pingConfig h.contract

theorem GivenUp.of_supersedes {before : List Call} (hrun : ContractRun (before ++ [call]))
    (h : Supersedes (run (SwarmCore.new identifyConfig pingConfig) before) call old) :
    GivenUp identifyConfig pingConfig old (before ++ [call]) := by
  obtain ⟨hbefore, hcontract⟩ := Runs.EachStep.split hrun rfl
  have hcoherent := coherent_run identifyConfig pingConfig hbefore
  have hconnected : Connected before old := by
    obtain ⟨c, p, -, hold, -⟩ := h
    exact hcoherent.connected old (BTreeMap.mem_of_getElem? (hcoherent.primary p old hold))
  refine ⟨hrun, hconnected.concat, ?_⟩
  rw [run_concat]
  exact step_supersedes hcoherent hcontract h

theorem GivenUp.step (h : GivenUp identifyConfig pingConfig old calls)
    (hcontract : TransportContract calls call) (hlingers : Lingers old call)
    (hopen : LeavesOpen (run (SwarmCore.new identifyConfig pingConfig) calls) old call) :
    GivenUp identifyConfig pingConfig old (calls ++ [call]) := by
  have hcall := disregards_of_lingers hcontract h.connected hlingers hopen
  refine ⟨Runs.eachStep_append.mpr ⟨h.contract, hcontract, trivial⟩, h.connected.concat, ?_⟩
  rw [run_concat]
  exact step_untracked h.coherent hcontract hcall h.untracked

/-- After the call that supersedes a connection, as long as no inbound negotiation of it
completes, it is in neither connection map and every event on it emits errors only. -/
theorem superseded_connection_dead (identifyConfig : Identify.IdentifyConfig)
    (pingConfig : Ping.PingConfig) (before : List Call) (call : Call) (after : List Call)
    (old : ConnectionId) (hrun : ContractRun (before ++ [call]))
    (hsupersedes : Supersedes (run (SwarmCore.new identifyConfig pingConfig) before) call old)
    (hafter : LingeringRun (SwarmCore.new identifyConfig pingConfig) old
      (before ++ [call]) after) :
    (old ∉ (run (SwarmCore.new identifyConfig pingConfig) (before ++ [call] ++ after)).connToPeer ∧
      ∀ p : PeerId, (run (SwarmCore.new identifyConfig pingConfig)
        (before ++ [call] ++ after)).peerToConn[p]? ≠ some old) ∧
    ∀ mid late rest, after = mid ++ late :: rest → late.eventConn? = some old →
      Extends (fun e => e.isError)
        (run (SwarmCore.new identifyConfig pingConfig) (before ++ [call] ++ mid)).events
        (run (SwarmCore.new identifyConfig pingConfig)
          (before ++ [call] ++ mid ++ [late])).events := by
  have hgiven : ∀ mid, LingeringRun (SwarmCore.new identifyConfig pingConfig) old
      (before ++ [call]) mid →
      GivenUp identifyConfig pingConfig old (before ++ [call] ++ mid) := by
    intro mid hmid
    refine Runs.EachStep.invariant hmid (.of_supersedes hrun hsupersedes) ?_
    rintro calls x ⟨hcontract, hlingers, hopen⟩ h
    exact h.step hcontract hlingers hopen
  refine ⟨?_, ?_⟩
  · have hend := hgiven after hafter
    refine ⟨hend.untracked, ?_⟩
    intro p hp
    exact hend.untracked (BTreeMap.mem_of_getElem? (hend.coherent.primary p old hp))
  · intro mid late rest hsplit hconn
    rw [LingeringRun, hsplit, Runs.eachStep_append] at hafter
    obtain ⟨hmid, ⟨hcontract, hlingers, hopen⟩, -⟩ := hafter
    have h := hgiven mid hmid
    have hcall := disregards_of_lingers hcontract h.connected hlingers hopen
    rw [run_concat]
    exact step_events_of_untracked h.coherent hcontract hcall hconn h.untracked

end Moves

/-! ## Concrete runs -/

/-- The application offers a protocol, and Alice has a connection. -/
def firstConnection : List Call :=
  [.addUserProtocol "/u", .event (.connected ⟨1⟩ (Sample.endpoint (some Sample.alice)))]

/-- She connects a second time. -/
def secondConnection : Call := .event (.connected ⟨2⟩ (Sample.endpoint (some Sample.alice)))

theorem secondConnection_supersedes :
    Supersedes (Sample.run firstConnection) secondConnection ⟨1⟩ :=
  ⟨⟨2⟩, Sample.alice, ⟨Sample.endpoint (some Sample.alice), 0, rfl, rfl⟩, by decide,
    by decide⟩

/-- A stream of the first connection that gets no further than the header. -/
def lateStream : List Call :=
  [.event (.incomingStream ⟨1⟩ ⟨0⟩),
    .event (.streamData ⟨1⟩ ⟨0⟩ (Multistream.encodeMessage Multistream.multistreamProtocolId)),
    .event (.streamClosed ⟨1⟩ ⟨0⟩), .event (.closed ⟨1⟩)]

theorem lateStream_leaves_connection_dead :
    ¬ (⟨1⟩ : ConnectionId) ∈
      (Sample.run (firstConnection ++ [secondConnection] ++ lateStream)).connToPeer := by
  refine (@superseded_connection_dead Sample.sha256 multihashCodec _ _ firstConnection
    secondConnection lateStream ⟨1⟩ (by decide) secondConnection_supersedes ?_).1.1
  refine ⟨⟨by decide, trivial, trivial⟩, ⟨by decide, trivial, ?_⟩, ⟨by decide, trivial, trivial⟩,
    ⟨by decide, trivial, trivial⟩, trivial⟩
  -- the negotiator says nothing about the header
  rintro - ⟨negotiator, protocol, hget, hmem⟩
  have hfiled : (Sample.run (firstConnection ++ [secondConnection] ++
      [.event (.incomingStream ⟨1⟩ ⟨0⟩)])).inboundNegotiators[(⟨⟨1⟩, ⟨0⟩⟩ : StreamKey)]? =
      some negotiator := hget
  have hquiet : (Sample.run (firstConnection ++ [secondConnection] ++
      [.event (.incomingStream ⟨1⟩ ⟨0⟩)])).inboundNegotiators[(⟨⟨1⟩, ⟨0⟩⟩ : StreamKey)]?.map
        (fun negotiator => (negotiator.receive
          (Multistream.encodeMessage Multistream.multistreamProtocolId)).pendingOutputs) =
      some [] := by
    decide +kernel
  rw [hfiled] at hquiet
  have houtputs : (negotiator.receive
      (Multistream.encodeMessage Multistream.multistreamProtocolId)).pendingOutputs = [] :=
    Option.some.inj hquiet
  rw [houtputs] at hmem
  cases hmem

/-- A stream of the first connection that agrees on the protocol. -/
def lateHandshake : List Call :=
  [.event (.incomingStream ⟨1⟩ ⟨0⟩),
    .event (.streamData ⟨1⟩ ⟨0⟩ (Multistream.encodeMessage Multistream.multistreamProtocolId ++
      Multistream.encodeMessage "/u"))]

/-- The stream becomes ready under a placeholder of the connection that was given up. -/
theorem lateHandshake_revives_connection :
    ContractRun (firstConnection ++ [secondConnection] ++ lateHandshake) ∧
      Supersedes (Sample.run firstConnection) secondConnection ⟨1⟩ ∧
      (Sample.run (firstConnection ++ [secondConnection] ++ lateHandshake)).connToPeer[
        (⟨1⟩ : ConnectionId)]? = some (@syntheticPeerId Sample.sha256 ⟨1⟩) ∧
      (Sample.run (firstConnection ++ [secondConnection] ++ lateHandshake)).events =
        (Sample.run (firstConnection ++ [secondConnection])).events ++
          [.userStreamReady (@syntheticPeerId Sample.sha256 ⟨1⟩) ⟨0⟩ "/u" false] :=
  ⟨by decide, secondConnection_supersedes, by decide +kernel, by decide +kernel⟩

end Minip2p.Swarm
