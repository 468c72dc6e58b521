import Minip2p.Swarm.Coherence

/-!
# The two connection maps

`peer_to_conn` always names a connection of its peer (`Primary`). The converse, and with it the
rule that the last connection wins, holds as long as no connection is filed under a peer id that
another connection has: `upgrade_connection_identity` and `ensure_peer_id_for_conn` overwrite the
entry without superseding its connection (`NoClash`).
-/

namespace Minip2p.Swarm

open SwarmCore

/-- `peer_to_conn` and `conn_to_peer` are mutually inverse. -/
def Inverse (s : SwarmCore) : Prop :=
  ∀ (p : PeerId) (c : ConnectionId), s.peerToConn[p]? = some c ↔ s.connToPeer[c]? = some p

/-- A tracked connection is the one its peer has. -/
def Unique (s : SwarmCore) : Prop :=
  ∀ (c : ConnectionId) (p : PeerId), s.connToPeer[c]? = some p → s.peerToConn[p]? = some c

theorem inverse_iff {s : SwarmCore} : Inverse s ↔ Primary s ∧ Unique s :=
  ⟨fun h => ⟨fun p c => (h p c).mp, fun c p => (h p c).mpr⟩,
    fun h p c => ⟨h.1 p c, h.2 c p⟩⟩

/-- A connection is not filed under a peer id that another connection has: not when its identity
is verified, and not when it gets a placeholder. -/
def NoClash [Sha256] (s : SwarmCore) : Call → Prop
  | .input (.transport (.peerIdentityVerified c endpoint _) _) =>
    ∀ p ∈ endpoint.peerId, s.peerToConn[p]? = none ∨ s.connToPeer[c]? = some p
  | .input (.transport (.connected c endpoint) _) =>
    endpoint.peerId = none → s.peerToConn[syntheticPeerId c]? = none
  | .input (.transport (.streamData c streamId data) _) =>
    s.CompletesInbound ⟨c, streamId⟩ data → s.connToPeer[c]? = none →
      s.peerToConn[syntheticPeerId c]? = none
  | _ => True

namespace Unique

variable {s : SwarmCore}

/-- A connection takes a peer that no other connection has. -/
theorem insert {c : ConnectionId} {p : PeerId} {conns : BTreeMap ConnectionId PeerId}
    {peers : BTreeMap PeerId ConnectionId}
    (h : ∀ (d : ConnectionId) (q : PeerId), d ≠ c → conns[d]? = some q →
      q ≠ p ∧ peers[q]? = some d) (d : ConnectionId) (q : PeerId)
    (hd : (conns.insert c p)[d]? = some q) : (peers.insert p c)[q]? = some d := by
  rw [BTreeMap.getElem?_insert_eq_some_iff] at hd ⊢
  rcases hd with ⟨rfl, rfl⟩ | ⟨hne, hd⟩
  · exact .inl ⟨rfl, rfl⟩
  · exact .inr (h d q hne hd)

/-- A connection takes a peer that has none. -/
theorem insert_fresh (hs : Unique s) {p : PeerId} (hp : s.peerToConn[p]? = none)
    (c d : ConnectionId) (q : PeerId) (hd : (s.connToPeer.insert c p)[d]? = some q) :
    (s.peerToConn.insert p c)[q]? = some d := by
  refine insert ?_ d q hd
  intro d q _ hd
  have hq : s.peerToConn[q]? = some d := hs d q hd
  refine ⟨?_, hq⟩
  rintro rfl
  rw [hp] at hq
  cases hq

theorem register (hs : Unique s) (hprimary : Primary s) {c : ConnectionId}
    (hnew : s.connToPeer[c]? = none) (p : PeerId) : Unique ((s.yieldTo c p).attach c p) := by
  rcases hprimary.yieldTo_cases hnew p with ⟨hp, heq⟩ | ⟨old, hp, -, heq⟩
  · rw [heq]
    exact hs.insert_fresh hp c
  · rw [heq]
    refine insert ?_
    intro d q _ hd
    obtain ⟨hdo, hd⟩ := BTreeMap.getElem?_erase_eq_some_iff.mp hd
    have hq : s.peerToConn[q]? = some d := hs d q hd
    refine ⟨?_, hq⟩
    -- the peer of another connection than the superseded one is not `p`
    rintro rfl
    rw [hp] at hq
    exact hdo (Option.some.inj hq).symm

theorem rebind (hs : Unique s) {c : ConnectionId} {p : PeerId} (hp : s.peerToConn[p]? = none) :
    Unique ((s.migrateFrom c p).attach c p) := by
  cases hc : s.connToPeer[c]? with
  | none =>
    rw [migrateFrom, hc]
    exact hs.insert_fresh hp c
  | some stale =>
    -- the stale peer gives up its entry, which was the one of `c`
    have hstale : s.peerToConn[stale]? = some c := hs c stale hc
    rw [migrateFrom, hc]
    refine insert ?_
    intro d q hdc hd
    have hq : s.peerToConn[q]? = some d := hs d q hd
    refine ⟨?_, BTreeMap.getElem?_erase_eq_some_iff.mpr ⟨?_, hq⟩⟩
    · rintro rfl
      rw [hp] at hq
      cases hq
    · rintro rfl
      rw [hstale] at hq
      exact hdc (Option.some.inj hq).symm

theorem detach (hs : Unique s) (c : ConnectionId) : Unique (s.detach c) := by
  rcases detach_cases s c with ⟨p, -, hp, heq⟩ | ⟨-, heq⟩
  case inr =>
    rw [heq]
    intro d q hd
    exact hs d q (BTreeMap.getElem?_erase_eq_some_iff.mp hd).2
  case inl =>
    rw [heq]
    intro d q hd
    obtain ⟨hdc, hd⟩ := BTreeMap.getElem?_erase_eq_some_iff.mp hd
    have hq : s.peerToConn[q]? = some d := hs d q hd
    refine BTreeMap.getElem?_erase_eq_some_iff.mpr ⟨?_, hq⟩
    rintro rfl
    rw [hp] at hq
    exact hdc (Option.some.inj hq).symm

end Unique

section Runs

variable [Sha256] {s₀ s s' : SwarmCore} {call : Call}

theorem Move.unique (h : Move s₀ call s s') (hclash : NoClash s₀ call) (hprimary : Primary s)
    (hs : Unique s) : Unique s' := by
  cases h with
  | placeholder c hneeds hnew hconn hpeer =>
    refine hs.insert_fresh ?_ c
    rw [hpeer]
    -- a connection gets its placeholder when it connects or when a negotiation completes
    rcases hneeds with ⟨endpoint, nowMs, rfl, hnone⟩ | ⟨t, data, nowMs, rfl, hcompletes⟩
    · exact hclash hnone
    · exact hclash hcompletes (hconn ▸ hnew)
  | register c p hcall hnew => exact hs.register hprimary hnew p
  | rebind c p hcall hne hagrees =>
    refine hs.rebind ?_
    obtain ⟨endpoint, previous, nowMs, rfl, hendpoint⟩ := hcall
    rw [hagrees.connToPeer] at hne
    rw [hagrees.peerToConn]
    -- the peer of a rebound connection has no other one
    exact (hclash p hendpoint).resolve_right hne
  | close c => exact hs.detach c
  | openStream p c protocolId target hp =>
    simp only [queueOpenProtocolStream, requireConn, hp]
    exact hs
  | _ => exact hs

variable [MultihashCodec] {calls : List Call}

theorem step_unique (hs₀ : Coherent calls s₀) (hcontract : TransportContract calls call)
    (hclash : NoClash s₀ call) (hs : Unique s₀) : Unique (step s₀ call) := by
  by_cases hpoll : call = .pollOutput
  · obtain ⟨events, actions, heq⟩ := pollOutput_eq s₀
    rw [hpoll, step, heq]
    exact hs
  · have hmoves : Primary (step s₀ call) ∧ Unique (step s₀ call) := by
      refine @Runs.keeps_of_chain _ _ (fun s => Primary s ∧ Unique s) _ _
        (step_moves hs₀ hcontract hpoll) ?_ ⟨hs₀.primary, hs⟩
      rintro s s' hmove ⟨hprimary, hunique⟩
      exact ⟨hmove.primary hprimary, hmove.unique hclash hprimary hunique⟩
    exact hmoves.2

variable {identifyConfig : Identify.IdentifyConfig} {pingConfig : Ping.PingConfig}

/-- A contract run in which no connection is filed under a peer id that another one has. -/
def ClashFreeRun (identifyConfig : Identify.IdentifyConfig) (pingConfig : Ping.PingConfig)
    (calls : List Call) : Prop :=
  Runs.EachStep (fun before call => TransportContract before call ∧
    NoClash (run (SwarmCore.new identifyConfig pingConfig) before) call) [] calls

theorem ClashFreeRun.contract (hrun : ClashFreeRun identifyConfig pingConfig calls) :
    ContractRun calls :=
  hrun.mono fun _ _ h => h.1

theorem ClashFreeRun.unique (hrun : ClashFreeRun identifyConfig pingConfig calls) :
    Unique (run (SwarmCore.new identifyConfig pingConfig) calls) := by
  refine run_invariant identifyConfig pingConfig (I := fun _ s => Unique s) hrun ?_ ?_
  · intro c p h
    simp [SwarmCore.new] at h
  · rintro before call s rfl hcoherent hcontract hclash hs
    exact step_unique hcoherent hcontract hclash hs

/-- The maps are mutually inverse after every contract run without a clash, and a peer has at
most one tracked connection. -/
theorem inverse_of_noClash (identifyConfig : Identify.IdentifyConfig)
    (pingConfig : Ping.PingConfig) (calls : List Call)
    (hrun : ClashFreeRun identifyConfig pingConfig calls) :
    Inverse (run (SwarmCore.new identifyConfig pingConfig) calls) ∧
      ∀ (c d : ConnectionId) (p : PeerId),
        (run (SwarmCore.new identifyConfig pingConfig) calls).connToPeer[c]? = some p →
        (run (SwarmCore.new identifyConfig pingConfig) calls).connToPeer[d]? = some p → c = d := by
  have hprimary := (coherent_run identifyConfig pingConfig hrun.contract).primary
  have hunique := hrun.unique
  refine ⟨inverse_iff.mpr ⟨hprimary, hunique⟩, ?_⟩
  intro c d p hc hd
  exact Option.some.inj ((hunique c p hc).symm.trans (hunique d p hd))

end Runs

/-! ## Concrete runs -/

/-- Alice's first connection gets its identity late. -/
def lateIdentityRun : List Call :=
  [.event (.connected ⟨1⟩ (Sample.endpoint none)),
    .event (.peerIdentityVerified ⟨1⟩ (Sample.endpoint (some Sample.alice)) none)]

theorem inverse_of_lateIdentityRun :
    Inverse (Sample.run lateIdentityRun) ∧
      (Sample.run lateIdentityRun).connToPeer[(⟨1⟩ : ConnectionId)]? = some Sample.alice := by
  refine ⟨(@inverse_of_noClash Sample.sha256 multihashCodec _ _ lateIdentityRun ?_).1,
    by decide +kernel⟩
  refine ⟨⟨by decide, fun _ => by decide⟩, ⟨by decide, ?_⟩, trivial⟩
  intro p hp
  obtain rfl : Sample.alice = p := Option.some.inj hp
  exact .inl (by decide +kernel)

/-- Alice's second connection gets its identity while her first one is tracked. -/
def clashRun : List Call :=
  [.event (.connected ⟨1⟩ (Sample.endpoint (some Sample.alice))),
    .event (.connected ⟨2⟩ (Sample.endpoint none)),
    .event (.peerIdentityVerified ⟨2⟩ (Sample.endpoint (some Sample.alice)) none)]

/-- Both connections are then tracked as Alice's. -/
theorem inverse_fails_on_clashRun :
    ContractRun clashRun ∧ ¬ Inverse (Sample.run clashRun) ∧
      (Sample.run clashRun).connToPeer[(⟨1⟩ : ConnectionId)]? = some Sample.alice ∧
      (Sample.run clashRun).connToPeer[(⟨2⟩ : ConnectionId)]? = some Sample.alice := by
  refine ⟨by decide, ?_, by decide +kernel, by decide +kernel⟩
  intro h
  have hfirst : (Sample.run clashRun).peerToConn[Sample.alice]? = some ⟨1⟩ :=
    (h Sample.alice ⟨1⟩).mpr (by decide +kernel)
  have hsecond : (Sample.run clashRun).peerToConn[Sample.alice]? = some ⟨2⟩ := by decide +kernel
  rw [hfirst] at hsecond
  exact absurd hsecond (by decide)

end Minip2p.Swarm
