import Minip2p.Swarm.Actions

/-!
# Closed connections

`handle_connection_closed` takes its connection out of every table that is keyed by connections,
and nothing that happens afterwards brings it back: a connection enters a table only with a
transport event of its own, or by way of a table that has it already.
-/

namespace Minip2p.Swarm

open SwarmCore

/-- No table mentions the connection. -/
structure Forgotten (s : SwarmCore) (c : ConnectionId) : Prop where
  connToPeer : c ∉ s.connToPeer
  peerToConn : ∀ p : PeerId, s.peerToConn[p]? ≠ some c
  activeConnections : c ∉ s.activeConnections
  connToRemoteAddr : c ∉ s.connToRemoteAddr
  inboundNegotiators : ∀ k, k ∈ s.inboundNegotiators → k.conn ≠ c
  outboundNegotiators : ∀ k, k ∈ s.outboundNegotiators → k.conn ≠ c
  streamOwner : ∀ k, k ∈ s.streamOwner → k.conn ≠ c
  pendingOpens : ∀ (t : OpenStreamToken) (pending : PendingOpen),
    s.pendingOpens[t]? = some pending → pending.connId ≠ c

/-- Each stream is in at most one of the three stream tables. -/
def FiledOnce (s : SwarmCore) : Prop :=
  ∀ k : StreamKey, ¬ (k ∈ s.inboundNegotiators ∧ k ∈ s.outboundNegotiators) ∧
    ¬ (k ∈ s.inboundNegotiators ∧ k ∈ s.streamOwner) ∧
    ¬ (k ∈ s.outboundNegotiators ∧ k ∈ s.streamOwner)

theorem Filed.once {calls : List Call} {s : SwarmCore} (hs : Filed calls s) : FiledOnce s := by
  intro k
  refine ⟨?_, ?_, ?_⟩
  · intro h
    exact (hs.inboundDisjoint k h.1).1 h.2
  · intro h
    exact (hs.inboundDisjoint k h.1).2 h.2
  · intro h
    exact hs.outboundDisjoint k h.1 h.2

namespace Forgotten

variable {s : SwarmCore} {c : ConnectionId}

/-- A connection that no peer has is forgotten without its entries. -/
theorem of_withoutConn (hpeer : ∀ p : PeerId, s.peerToConn[p]? ≠ some c) :
    Forgotten (s.withoutConn c) c where
  connToPeer := BTreeMap.not_mem_erase_self
  peerToConn := hpeer
  activeConnections := BTreeMap.not_mem_erase_self
  connToRemoteAddr := BTreeMap.not_mem_erase_self
  inboundNegotiators := fun _ hk => (of_mem_retained hk).2
  outboundNegotiators := fun _ hk => (of_mem_retained hk).2
  streamOwner := fun _ hk => (of_mem_retained hk).2
  pendingOpens := fun _ _ ht =>
    of_decide_eq_true (BTreeMap.getElem?_filter_eq_some_iff.mp ht).2

theorem withoutConn (hs : Forgotten s c) (d : ConnectionId) : Forgotten (s.withoutConn d) c where
  connToPeer := fun h => hs.connToPeer (BTreeMap.mem_erase_iff.mp h).2
  peerToConn := hs.peerToConn
  activeConnections := fun h => hs.activeConnections (BTreeMap.mem_erase_iff.mp h).2
  connToRemoteAddr := fun h => hs.connToRemoteAddr (BTreeMap.mem_erase_iff.mp h).2
  inboundNegotiators := fun k hk => hs.inboundNegotiators k (of_mem_retained hk).1
  outboundNegotiators := fun k hk => hs.outboundNegotiators k (of_mem_retained hk).1
  streamOwner := fun k hk => hs.streamOwner k (of_mem_retained hk).1
  pendingOpens := fun t pending ht =>
    hs.pendingOpens t pending (BTreeMap.getElem?_filter_eq_some_iff.mp ht).1

/-- A change of what is known of the peers. -/
theorem peers {s' : SwarmCore} (hs : Forgotten s c) (h : SameTables s s')
    (hactive : s'.activeConnections = s.activeConnections)
    (haddr : s'.connToRemoteAddr = s.connToRemoteAddr) : Forgotten s' c := by
  obtain ⟨hconn, hpeer, hin, hout, hown, hopen⟩ := h
  constructor
  · rw [hconn]
    exact hs.connToPeer
  · rw [hpeer]
    exact hs.peerToConn
  · rw [hactive]
    exact hs.activeConnections
  · rw [haddr]
    exact hs.connToRemoteAddr
  · rw [hin]
    exact hs.inboundNegotiators
  · rw [hout]
    exact hs.outboundNegotiators
  · rw [hown]
    exact hs.streamOwner
  · rw [hopen]
    exact hs.pendingOpens

theorem yieldTo (hs : Forgotten s c) (d : ConnectionId) (p : PeerId) :
    Forgotten (s.yieldTo d p) c := by
  rcases yieldTo_cases s d p with ⟨heq, -⟩ | ⟨old, -, -, heq⟩
  · rw [heq]
    exact hs
  · rw [heq]
    have hpeer : Forgotten (s.withoutPeer p) c := hs.peers ⟨rfl, rfl, rfl, rfl, rfl, rfl⟩ rfl rfl
    exact (hpeer.withoutConn old).peers (SameTables.pushAction _) rfl rfl

theorem migrateFrom (hs : Forgotten s c) (d : ConnectionId) (p : PeerId) :
    Forgotten (s.migrateFrom d p) c := by
  rw [SwarmCore.migrateFrom]
  split
  · refine { hs with peerToConn := ?_ }
    intro q hq
    exact hs.peerToConn q (BTreeMap.getElem?_erase_eq_some_iff.mp hq).2
  · exact hs

/-- Another connection is filed under a peer. -/
theorem insertConn (hs : Forgotten s c) {d : ConnectionId} (hd : d ≠ c) (p : PeerId) :
    Forgotten { s with
      connToPeer := s.connToPeer.insert d p
      peerToConn := s.peerToConn.insert p d } c := by
  refine { hs with connToPeer := ?_, peerToConn := ?_ }
  · intro h
    rcases BTreeMap.mem_insert_iff.mp h with h | h
    · exact hd h.symm
    · exact hs.connToPeer h
  · intro q hq
    rcases BTreeMap.getElem?_insert_eq_some_iff.mp hq with ⟨-, h⟩ | ⟨-, hq⟩
    · exact hd h
    · exact hs.peerToConn q hq

theorem attach (hs : Forgotten s c) {d : ConnectionId} (hd : d ≠ c) (p : PeerId) :
    Forgotten (s.attach d p) c :=
  (hs.insertConn hd p).peers ⟨rfl, rfl, rfl, rfl, rfl, rfl⟩ rfl rfl

theorem detach (hs : Forgotten s c) (d : ConnectionId) : Forgotten (s.detach d) c := by
  have hd : Forgotten (s.withoutConn d) c := hs.withoutConn d
  rcases detach_cases s d with ⟨p, -, -, heq⟩ | ⟨-, heq⟩
  · rw [heq]
    refine { hd with peerToConn := ?_ }
    intro q hq
    exact hs.peerToConn q (BTreeMap.getElem?_erase_eq_some_iff.mp hq).2
  · rw [heq]
    exact hd

/-- A stream is asked for on the connection of a peer. -/
theorem queueOpen (hs : Forgotten s c) (p : PeerId) (protocolId : String)
    (target : ProtocolKind) : Forgotten (s.queueOpenProtocolStream p protocolId target).1 c := by
  cases hp : s.peerToConn[p]? with
  | none =>
    simp only [queueOpenProtocolStream, requireConn, hp]
    exact hs
  | some d =>
    simp only [queueOpenProtocolStream, requireConn, hp]
    refine { hs with pendingOpens := ?_ }
    intro t pending ht
    rcases BTreeMap.getElem?_insert_eq_some_iff.mp ht with ⟨-, rfl⟩ | ⟨-, ht⟩
    · rintro rfl
      exact hs.peerToConn p hp
    · exact hs.pendingOpens t pending ht

/-- A connection that makes room for another one of its peer is forgotten. -/
theorem of_superseded (hs : Primary s) {d : ConnectionId} {p : PeerId}
    (hc : s.peerToConn[p]? = some c) (hd : d ≠ c) :
    Forgotten ((s.superseded c p).attach d p) c := by
  have hpeer : ∀ q : PeerId, (s.peerToConn.insert p d)[q]? ≠ some c := by
    intro q hq
    rcases BTreeMap.getElem?_insert_eq_some_iff.mp hq with ⟨-, h⟩ | ⟨hne, hq⟩
    · exact hd h
    · -- the connection is tracked under one peer only
      have hboth := (hs p c hc).symm.trans (hs q c hq)
      exact hne (Option.some.inj hboth).symm
  have hgone := @of_withoutConn { s.withoutPeer p with peerToConn := s.peerToConn.insert p d } c
    hpeer
  refine { hgone with connToPeer := ?_ }
  intro h
  rcases BTreeMap.mem_insert_iff.mp h with h | h
  · exact hd h.symm
  · exact hgone.connToPeer h

/-- A connection that closes is forgotten. -/
theorem of_detach (hs : Primary s) (c : ConnectionId) : Forgotten (s.detach c) c := by
  have hprimary : Primary (s.detach c) := hs.detach c
  -- a peer that still had the connection would have it tracked
  have hpeer : c ∉ (s.detach c).connToPeer →
      ∀ p : PeerId, (s.detach c).peerToConn[p]? ≠ some c := by
    intro hc p hp
    exact hc (BTreeMap.mem_of_getElem? (hprimary p c hp))
  rcases detach_cases s c with ⟨p, -, -, heq⟩ | ⟨-, heq⟩
  · rw [heq] at hpeer ⊢
    have hq := hpeer BTreeMap.not_mem_erase_self
    exact (@of_withoutConn { s with peerToConn := s.peerToConn.erase p } c hq).peers
      ⟨rfl, rfl, rfl, rfl, rfl, rfl⟩ rfl rfl
  · rw [heq] at hpeer ⊢
    exact of_withoutConn (hpeer BTreeMap.not_mem_erase_self)

end Forgotten

section Moves

variable [Sha256] {s₀ s s' : SwarmCore} {call : Call} {c : ConnectionId}

/-- A call that is not about a forgotten connection does not bring it back. -/
theorem Move.forgotten (h : Move s₀ call s s') (hcall : call.eventConn? ≠ some c)
    (hs : Forgotten s c) : Forgotten s' c := by
  have hother : ∀ {d : ConnectionId}, call.eventConn? = some d → d ≠ c := by
    intro d hd
    rintro rfl
    exact hcall hd
  -- a forgotten connection is not tracked
  have htracked : ∀ {d : ConnectionId}, d ∈ s.connToPeer → d ≠ c := by
    intro d hd
    rintro rfl
    exact hs.connToPeer hd
  cases h with
  | activate d connected hd =>
    refine { hs with activeConnections := ?_ }
    intro h
    rcases BTreeMap.mem_insert_iff.mp h with h | h
    · exact hother hd h.symm
    · exact hs.activeConnections h
  | locate d addr hd =>
    refine { hs with connToRemoteAddr := ?_ }
    intro h
    rcases BTreeMap.mem_insert_iff.mp h with h | h
    · exact hother hd h.symm
    · exact hs.connToRemoteAddr h
  | placeholder d hneeds => exact hs.insertConn (hother hneeds.eventConn) _
  | register d p hconnects => exact (hs.yieldTo d p).attach (hother hconnects.eventConn) p
  | rebind d p hverifies => exact (hs.migrateFrom d p).attach (hother hverifies.eventConn) p
  | close d => exact hs.detach d
  | openStream p d protocolId target hp => exact hs.queueOpen p protocolId target
  | answer token =>
    refine { hs with pendingOpens := ?_ }
    intro t pending ht
    exact hs.pendingOpens t pending (BTreeMap.getElem?_erase_eq_some_iff.mp ht).2
  | inbound k negotiator hk hd =>
    refine { hs with inboundNegotiators := ?_ }
    intro k' hk'
    rcases BTreeMap.mem_insert_iff.mp hk' with rfl | hk'
    · exact hother hd
    · exact hs.inboundNegotiators k' hk'
  | outbound k pending hk hd =>
    refine { hs with outboundNegotiators := ?_ }
    intro k' hk'
    rcases BTreeMap.mem_insert_iff.mp hk' with rfl | hk'
    · exact htracked hd
    · exact hs.outboundNegotiators k' hk'
  | own k owner hk hd =>
    refine { hs with streamOwner := ?_ }
    intro k' hk'
    rcases BTreeMap.mem_insert_iff.mp hk' with rfl | hk'
    · exact htracked hd
    · exact hs.streamOwner k' hk'
  | dropInbound k hk =>
    refine { hs with inboundNegotiators := ?_ }
    exact fun k' hk' => hs.inboundNegotiators k' (BTreeMap.mem_erase_iff.mp hk').2
  | dropOutbound k hk =>
    refine { hs with outboundNegotiators := ?_ }
    exact fun k' hk' => hs.outboundNegotiators k' (BTreeMap.mem_erase_iff.mp hk').2
  | disown k hk =>
    refine { hs with streamOwner := ?_ }
    exact fun k' hk' => hs.streamOwner k' (BTreeMap.mem_erase_iff.mp hk').2
  | _ => exact hs.peers ⟨rfl, rfl, rfl, rfl, rfl, rfl⟩ rfl rfl

omit [Sha256] in
/-- No action has a reason to be about a forgotten connection. -/
theorem Justified.conn_ne {a : SwarmAction} (h : Justified s₀ call s a)
    (hcall : call.eventConn? ≠ some c) (hs : Forgotten s c) : a.conn ≠ c := by
  have htracked : ∀ {d : ConnectionId} {p : PeerId}, s.connToPeer[d]? = some p → d ≠ c := by
    intro d p hd
    rintro rfl
    exact hs.connToPeer (BTreeMap.mem_of_getElem? hd)
  have hprimary : ∀ {d : ConnectionId} {p : PeerId}, s.peerToConn[p]? = some d → d ≠ c := by
    intro d p hp
    rintro rfl
    exact hs.peerToConn p hp
  cases h with
  | connection p ha hp => exact hprimary hp
  | negotiation k ha hk hknown hc =>
    rw [SwarmAction.conn_of_key? ha]
    rcases hc with hc | hc
    · intro heq
      exact hcall (heq ▸ hc)
    · obtain ⟨p, hp⟩ := BTreeMap.exists_getElem?_of_mem hc
      exact htracked hp
  | ping k p ha hown hp =>
    rw [SwarmAction.conn_of_key? ha]
    exact htracked hp
  | identify k p ha hk hknown hp hc => exact hprimary hc
  | user k p ha hown hp =>
    rw [SwarmAction.conn_of_key? ha]
    exact htracked hp

variable [MultihashCodec] {calls : List Call}

omit [Sha256] [MultihashCodec] in
/-- The transport says nothing more about a closed connection. -/
theorem eventConn?_ne_of_closed (hcontract : TransportContract calls call)
    (hclosed : Closed calls c) : call.eventConn? ≠ some c := by
  rintro hc
  rcases call with (⟨event, nowMs⟩ | _ | _ | _ | _) | _
  case input.transport =>
    cases event with
    -- every report about a connection promises that it is not closed
    | listening addr => cases hc
    | connected d endpoint => exact hcontract.2 (Option.some.inj hc ▸ hclosed)
    | peerIdentityVerified d endpoint previous =>
      exact hcontract.2 (Option.some.inj hc ▸ hclosed)
    | streamOpened d t => exact hcontract.2 (Option.some.inj hc ▸ hclosed)
    | streamData d t data => exact hcontract.2 (Option.some.inj hc ▸ hclosed)
    | streamRemoteWriteClosed d t => exact hcontract.2 (Option.some.inj hc ▸ hclosed)
    | streamClosed d t => exact hcontract.2 (Option.some.inj hc ▸ hclosed)
    | incomingStream d t => exact hcontract.2.1 (Option.some.inj hc ▸ hclosed)
    | incomingConnection d endpoint => exact hcontract.2.2 (Option.some.inj hc ▸ hclosed)
    | closed d => exact hcontract (Option.some.inj hc ▸ hclosed)
    | error d message => exact hcontract (Option.some.inj hc ▸ hclosed)
  all_goals cases hc

theorem step_forgotten (hs₀ : Coherent calls s₀) (hcontract : TransportContract calls call)
    (hcall : call.eventConn? ≠ some c) (hs : Forgotten s₀ c) :
    Forgotten (step s₀ call) c ∧
      Extends (fun a => a.conn ≠ c) s₀.actions (step s₀ call).actions := by
  by_cases hpoll : call = .pollOutput
  · refine ⟨?_, ?_⟩
    · obtain ⟨events, actions, heq⟩ := pollOutput_eq s₀
      rw [hpoll, step, heq]
      exact hs.peers ⟨rfl, rfl, rfl, rfl, rfl, rfl⟩ rfl rfl
    · rw [hpoll, step]
      exact pollOutput_actions _ s₀
  · have hmoves := step_moves hs₀ hcontract hpoll
    have hkeeps : ∀ t t', Move s₀ call t t' → Forgotten t c → Forgotten t' c :=
      fun t t' hmove => hmove.forgotten hcall
    -- an action needs the event, or a table that has the connection
    obtain ⟨added, heq, hadded⟩ := hmoves.actions_added hs hkeeps
      fun t a ht hjust => hjust.conn_ne hcall ht
    refine ⟨?_, s₀.actions, added, heq, List.suffix_rfl, hadded⟩
    exact Runs.keeps_of_chain (J := fun t => Forgotten t c) hmoves hkeeps hs

/-- The call that closes a connection makes the core forget it. -/
theorem step_closed (hs₀ : Coherent calls s₀) (hcloses : call.closes? = some c) :
    Forgotten (step s₀ call) c := by
  obtain ⟨nowMs, rfl⟩ := Call.exists_of_closes? hcloses
  show Forgotten (s₀.handleConnectionClosed c) c
  rw [handleConnectionClosed_eq hs₀.idle]
  exact .of_detach hs₀.primary c

theorem forgotten_of_closed (identifyConfig : Identify.IdentifyConfig)
    (pingConfig : Ping.PingConfig) (hrun : ContractRun calls) (hclosed : Closed calls c) :
    Forgotten (run (SwarmCore.new identifyConfig pingConfig) calls) c := by
  have hinv : Closed calls c →
      Forgotten (run (SwarmCore.new identifyConfig pingConfig) calls) c := by
    have hcalls :
        Runs.EachStep (fun before call => TransportContract before call ∧ True) [] calls :=
      hrun.mono fun _ _ h => ⟨h, trivial⟩
    refine run_invariant identifyConfig pingConfig
      (I := fun calls s => Closed calls c → Forgotten s c) hcalls ?_ ?_
    · rintro ⟨call, hcall, -⟩
      cases hcall
    · rintro before call s rfl hcoherent hcontract - hbefore ⟨closing, hmem, hcloses⟩
      rcases List.mem_append.mp hmem with hmem | hmem
      · have hclosed : Closed before c := ⟨closing, hmem, hcloses⟩
        have hcall := eventConn?_ne_of_closed hcontract hclosed
        exact (step_forgotten hcoherent hcontract hcall (hbefore hclosed)).1
      · rw [List.mem_singleton.mp hmem] at hcloses
        exact step_closed hcoherent hcloses
  exact hinv hclosed

/-- After every contract run a stream is filed at most once and no table mentions a connection
that has closed, and no call after the close queues an action for it. -/
theorem closed_connection_forgotten (identifyConfig : Identify.IdentifyConfig)
    (pingConfig : Ping.PingConfig) (calls : List Call) (hrun : ContractRun calls) :
    FiledOnce (run (SwarmCore.new identifyConfig pingConfig) calls) ∧
    ∀ c, (Closed calls c → Forgotten (run (SwarmCore.new identifyConfig pingConfig) calls) c) ∧
      ∀ before call after, calls = before ++ call :: after → Closed before c →
        Extends (fun a => a.conn ≠ c)
          (run (SwarmCore.new identifyConfig pingConfig) before).actions
          (run (SwarmCore.new identifyConfig pingConfig) (before ++ [call])).actions := by
  refine ⟨(coherent_run identifyConfig pingConfig hrun).once, ?_⟩
  intro c
  refine ⟨forgotten_of_closed identifyConfig pingConfig hrun, ?_⟩
  intro before call after hcalls hclosed
  obtain ⟨hbefore, hcontract⟩ := Runs.EachStep.split hrun hcalls
  have hcoherent := coherent_run identifyConfig pingConfig hbefore
  have hforgotten := forgotten_of_closed identifyConfig pingConfig hbefore hclosed
  rw [run_concat]
  exact (step_forgotten hcoherent hcontract (eventConn?_ne_of_closed hcontract hclosed)
    hforgotten).2

end Moves

/-- Alice's connection closes while an identify stream is asked for; the driver answers and the
application pings her afterwards. -/
def closedRun : List Call :=
  [.event (.connected ⟨1⟩ (Sample.endpoint (some Sample.alice))), .event (.closed ⟨1⟩),
    .input (.streamOpened ⟨1⟩ ⟨4⟩ ⟨1⟩ 0), .ping Sample.alice default 0]

theorem closedRun_forgets_connection :
    Closed closedRun ⟨1⟩ ∧ Forgotten (Sample.run closedRun) ⟨1⟩ :=
  ⟨by decide, ((@closed_connection_forgotten Sample.sha256 multihashCodec _ _ closedRun
    (by decide)).2 ⟨1⟩).1 (by decide)⟩

end Minip2p.Swarm
