import Minip2p.Swarm.HandshakeTurns

/-!
# The grammar of readiness

A peer becomes ready when identify answers on a connection that was reported. Three sets follow
that (the peers that are connected, those that are established and those that are ready), and
connections that come, go and replace one another change them at different times. In a run of a
transport that identifies its peers in the handshake they can be read off the events, and so can
the order in which the events come.
-/

namespace Minip2p.Swarm

open Logs (Since)
open SwarmCore

/-- The event reports `p` as ready. -/
def Readies (p : PeerId) (e : SwarmEvent) : Prop := ∃ protocols, e = .peerReady p protocols

/-- The event begins or ends an interval of `p`. -/
def Bounds (p : PeerId) (e : SwarmEvent) : Prop :=
  e = .connectionEstablished p ∨ e = .connectionClosed p

/-- The event is about the connection of `p` or its readiness. -/
def Marks (p : PeerId) (e : SwarmEvent) : Prop :=
  e = .connectionEstablished p ∨ e = .connectionClosed p ∨ Readies p e

/-- The latest of the events that report `p` as ready, connected or closed is the one that reports
it as ready. -/
def LatestReady (p : PeerId) (log : List SwarmEvent) : Prop := Since (Readies p) (Bounds p) log

/-- A peer is reported as ready when it was reported as connected, and not as closed or ready
since, and identify has answered with the protocols since then. -/
def ReadyOnce (before : List SwarmEvent) (e : SwarmEvent) : Prop :=
  ∀ p protocols, e = .peerReady p protocols →
    Since (· = .connectionEstablished p) (Marks p) before ∧
      Since (fun x => ∃ info, x = .identifyReceived p info ∧ info.protocols = protocols) (Marks p)
        before

section Log

variable {log : List SwarmEvent} {p : PeerId} {e : SwarmEvent}

theorem not_marks_of_lifecycle? (hplain : e.lifecycle? = none) (hready : ¬ Readies p e) :
    ¬ Marks p e := by
  rintro (rfl | rfl | h)
  · cases hplain
  · cases hplain
  · exact hready h

theorem open_concat_other (he : ¬ Marks p e) : Open p (log ++ [e]) ↔ Open p log := by
  rw [open_iff_since, open_iff_since]
  exact Logs.since_concat_other (fun h => he (.inl h)) fun h => he (.inr (.inl h))

theorem latestReady_concat_other (he : ¬ Marks p e) :
    LatestReady p (log ++ [e]) ↔ LatestReady p log := by
  refine Logs.since_concat_other (fun h => he (.inr (.inr h))) ?_
  rintro (h | h)
  · exact he (.inl h)
  · exact he (.inr (.inl h))

theorem not_latestReady_concat (he : Bounds p e) : ¬ LatestReady p (log ++ [e]) := by
  intro h
  rcases Logs.since_concat.mp h with ⟨protocols, rfl⟩ | ⟨hnot, -⟩
  · rcases he with he | he
    · cases he
    · cases he
  · exact hnot he

end Log

/-! ## The requests of identify -/

/-- Identify has asked on a connection who its peer is: as an open request, in negotiation or on
an open stream. -/
inductive Initiates (s : SwarmCore) : ConnectionId → Prop
  | asked {token : OpenStreamToken} {pending : PendingOpen}
      (hpending : s.pendingOpens[token]? = some pending)
      (htarget : pending.target = .identifyInitiator) : Initiates s pending.connId
  | negotiating {k : StreamKey} {pending : PendingOutbound}
      (hpending : s.outboundNegotiators[k]? = some pending)
      (htarget : pending.target = .identifyInitiator) : Initiates s k.conn
  | opened {k : StreamKey} (hown : s.streamOwner[k]? = some .identifyInitiator) :
    Initiates s k.conn

/-- Identify asks the peers that were reported as connected. -/
def Initiated (s : SwarmCore) : Prop :=
  ∀ c, Initiates s c → ∃ p, s.connToPeer[c]? = some p ∧ p ∈ s.establishedPeers

namespace Initiated

variable {s s' : SwarmCore} {c d : ConnectionId} {p : PeerId} {k : StreamKey}

/-- The peers that identify has asked stay. -/
theorem shrink (hs : Initiated s)
    (h : ∀ c, Initiates s' c → Initiates s c ∧
      ∀ p, s.connToPeer[c]? = some p → p ∈ s.establishedPeers →
        s'.connToPeer[c]? = some p ∧ p ∈ s'.establishedPeers) : Initiated s' := by
  intro c hc
  obtain ⟨hinitiates, hstays⟩ := h c hc
  obtain ⟨p, hp, hestablished⟩ := hs c hinitiates
  exact ⟨p, hstays p hp hestablished⟩

/-- The connections stay, and every request was one before. -/
theorem mono (hs : Initiated s) (hconn : s'.connToPeer = s.connToPeer)
    (hestablished : s'.establishedPeers = s.establishedPeers)
    (h : ∀ c, Initiates s' c → Initiates s c) : Initiated s' := by
  refine hs.shrink ?_
  rw [hconn, hestablished]
  exact fun c hc => ⟨h c hc, fun p hp hmem => ⟨hp, hmem⟩⟩

/-- The tables have at most the requests they had. -/
theorem initiates_of_le (h : Initiates s' c)
    (hopens : ∀ (token : OpenStreamToken) (pending : PendingOpen),
      s'.pendingOpens[token]? = some pending → s.pendingOpens[token]? = some pending)
    (hout : ∀ (k : StreamKey) (pending : PendingOutbound),
      s'.outboundNegotiators[k]? = some pending → s.outboundNegotiators[k]? = some pending)
    (howner : ∀ k : StreamKey, s'.streamOwner[k]? = some .identifyInitiator →
      s.streamOwner[k]? = some .identifyInitiator) : Initiates s c := by
  cases h with
  | asked hpending htarget => exact .asked (hopens _ _ hpending) htarget
  | negotiating hpending htarget => exact .negotiating (hout _ _ hpending) htarget
  | opened hown => exact .opened (howner _ hown)

theorem initiates_of_same (h : Initiates s' c) (hopens : s'.pendingOpens = s.pendingOpens)
    (hout : s'.outboundNegotiators = s.outboundNegotiators)
    (howner : s'.streamOwner = s.streamOwner) : Initiates s c :=
  initiates_of_le h (fun _ _ hk => hopens ▸ hk) (fun _ _ hk => hout ▸ hk) fun _ hk => howner ▸ hk

theorem same (hs : Initiated s) (hopens : s'.pendingOpens = s.pendingOpens)
    (hout : s'.outboundNegotiators = s.outboundNegotiators)
    (howner : s'.streamOwner = s.streamOwner) (hconn : s'.connToPeer = s.connToPeer)
    (hestablished : s'.establishedPeers = s.establishedPeers) : Initiated s' :=
  hs.mono hconn hestablished fun _ hc => initiates_of_same hc hopens hout howner

/-- A connection that is given up takes its requests along. -/
theorem initiates_of_withoutConn (h : Initiates (s.withoutConn c) d) :
    Initiates s d ∧ d ≠ c := by
  cases h with
  | asked hpending htarget =>
    obtain ⟨hpending, hkept⟩ := BTreeMap.getElem?_filter_eq_some_iff.mp hpending
    exact ⟨.asked hpending htarget, of_decide_eq_true hkept⟩
  | negotiating hpending htarget =>
    obtain ⟨hpending, hkept⟩ := BTreeMap.getElem?_filter_eq_some_iff.mp hpending
    exact ⟨.negotiating hpending htarget, of_decide_eq_true hkept⟩
  | opened hown =>
    obtain ⟨hown, hkept⟩ := BTreeMap.getElem?_filter_eq_some_iff.mp hown
    exact ⟨.opened hown, of_decide_eq_true hkept⟩

/-! ## Connections -/

/-- A new connection. -/
theorem track (hs : Initiated s) (hnew : s.connToPeer[c]? = none)
    (hopens : s'.pendingOpens = s.pendingOpens)
    (hout : s'.outboundNegotiators = s.outboundNegotiators)
    (howner : s'.streamOwner = s.streamOwner) (hconn : s'.connToPeer = s.connToPeer.insert c p)
    (hestablished : ∀ q, q ∈ s.establishedPeers → q ∈ s'.establishedPeers) : Initiated s' := by
  refine hs.shrink ?_
  intro d hd
  refine ⟨initiates_of_same hd hopens hout howner, ?_⟩
  intro q hq hmem
  refine ⟨?_, hestablished q hmem⟩
  rw [hconn]
  refine BTreeMap.getElem?_insert_eq_some_iff.mpr (.inr ⟨?_, hq⟩)
  rintro rfl
  rw [hnew] at hq
  cases hq

theorem withoutConn (hs : Initiated s) (c : ConnectionId) : Initiated (s.withoutConn c) := by
  refine hs.shrink ?_
  intro d hd
  obtain ⟨hd, hne⟩ := initiates_of_withoutConn hd
  exact ⟨hd, fun q hq hmem => ⟨BTreeMap.getElem?_erase_eq_some_iff.mpr ⟨hne, hq⟩, hmem⟩⟩

/-- The only connection of a peer is given up, and the peer with it. -/
theorem withoutPeer (hs : Initiated s) (hinverse : Inverse s) (hp : s.peerToConn[p]? = some c)
    (hconn : s'.connToPeer = (s.withoutConn c).connToPeer)
    (hestablished : s'.establishedPeers = s.establishedPeers.erase p)
    (hrequests : ∀ d, Initiates s' d → Initiates (s.withoutConn c) d) : Initiated s' := by
  refine hs.shrink ?_
  intro d hd
  obtain ⟨hd, hne⟩ := initiates_of_withoutConn (hrequests d hd)
  refine ⟨hd, ?_⟩
  intro q hq hmem
  rw [hconn, hestablished]
  refine ⟨BTreeMap.getElem?_erase_eq_some_iff.mpr ⟨hne, hq⟩, BTreeSet.mem_erase_iff.mpr ⟨?_, hmem⟩⟩
  rintro rfl
  rw [(hinverse q d).mpr hq] at hp
  exact hne (Option.some.inj hp)

theorem register (hs : Initiated s) (hinverse : Inverse s) (hnew : s.connToPeer[c]? = none)
    (p : PeerId) : Initiated ((s.yieldTo c p).attach c p) := by
  rcases yieldTo_cases s c p with ⟨heq, -⟩ | ⟨old, hp, -, heq⟩
  · rw [heq]
    exact hs.track hnew rfl rfl rfl rfl fun q hq => BTreeSet.mem_insert_iff.mpr (.inr hq)
  · rw [heq]
    have hleft : Initiated (s.superseded old p) :=
      hs.withoutPeer hinverse hp rfl rfl fun d hd => initiates_of_same hd rfl rfl rfl
    refine hleft.track ?_ rfl rfl rfl rfl fun q hq => BTreeSet.mem_insert_iff.mpr (.inr hq)
    exact BTreeMap.getElem?_erase_eq_none_iff.mpr (.inr hnew)

theorem detach (hs : Initiated s) (hinverse : Inverse s) (c : ConnectionId) :
    Initiated (s.detach c) := by
  rcases detach_cases s c with ⟨p, -, hp, heq⟩ | ⟨-, heq⟩
  · rw [heq]
    exact hs.withoutPeer hinverse hp rfl rfl fun d hd => initiates_of_same hd rfl rfl rfl
  · rw [heq]
    exact hs.withoutConn c

end Initiated

theorem Turn.initiated [Sha256] {s₀ s s' : SwarmCore} {call : Call} (h : Turn s₀ call s s')
    (hcall : Identifies s₀ call) (hinverse : Inverse s) (hs : Initiated s) : Initiated s' := by
  cases h with
  | placeholder c hneeds hnew => exact hs.track hnew rfl rfl rfl rfl fun q hq => hq
  | register c p hconnects hnew => exact hs.register hinverse hnew p
  | rebind c p hverifies hne hagrees =>
    exact absurd (hcall.bound hverifies hagrees) hne
  | close c => exact hs.detach hinverse c
  | ask p c protocolId target htoken hp hping hidentify =>
    simp only [queueOpenProtocolStream, requireConn, hp]
    intro d hd
    cases hd with
    | asked hpending htarget =>
      rcases BTreeMap.getElem?_insert_eq_some_iff.mp hpending with ⟨-, rfl⟩ | ⟨-, hold⟩
      · exact ⟨p, (hinverse p c).mp hp, hidentify htarget⟩
      · exact hs _ (.asked hold htarget)
    | negotiating hpending htarget => exact hs _ (.negotiating hpending htarget)
    | opened hown => exact hs _ (.opened hown)
  | refuse token e =>
    refine hs.mono rfl rfl fun d hd => Initiated.initiates_of_le hd ?_ (fun _ _ h => h) fun _ h => h
    exact fun _ _ h => (BTreeMap.getElem?_erase_eq_some_iff.mp h).2
  | opened k token pending negotiator hopened hpending hconn =>
    refine hs.mono rfl rfl ?_
    intro d hd
    cases hd with
    | asked hopen htarget =>
      exact .asked (BTreeMap.getElem?_erase_eq_some_iff.mp hopen).2 htarget
    | negotiating hnegotiator htarget =>
      rcases BTreeMap.getElem?_insert_eq_some_iff.mp hnegotiator with ⟨rfl, rfl⟩ | ⟨-, hold⟩
      · rw [← hconn]
        exact .asked hpending htarget
      · exact .negotiating hold htarget
    | opened hown => exact .opened hown
  | outbound k pending negotiator hpending =>
    refine hs.mono rfl rfl ?_
    intro d hd
    cases hd with
    | asked hopen htarget => exact .asked hopen htarget
    | negotiating hnegotiator htarget =>
      rcases BTreeMap.getElem?_insert_eq_some_iff.mp hnegotiator with ⟨rfl, rfl⟩ | ⟨-, hold⟩
      · exact .negotiating hpending htarget
      · exact .negotiating hold htarget
    | opened hown => exact .opened hown
  | failOutbound k =>
    refine hs.mono rfl rfl fun d hd => Initiated.initiates_of_le hd (fun _ _ h => h) ?_ fun _ h => h
    exact fun _ _ h => (BTreeMap.getElem?_erase_eq_some_iff.mp h).2
  | dropOutbound k =>
    refine hs.mono rfl rfl fun d hd => Initiated.initiates_of_le hd (fun _ _ h => h) ?_ fun _ h => h
    exact fun _ _ h => (BTreeMap.getElem?_erase_eq_some_iff.mp h).2
  | own k owner howner =>
    refine hs.mono rfl rfl fun d hd =>
      Initiated.initiates_of_le hd (fun _ _ h => h) (fun _ _ h => h) ?_
    intro k' hk'
    rcases howner with rfl | rfl
    · exact BTreeMap.getElem?_of_insert hk' (by rintro ⟨⟩)
    · exact BTreeMap.getElem?_of_insert hk' (by rintro ⟨⟩)
  | disown k =>
    refine hs.mono rfl rfl fun d hd =>
      Initiated.initiates_of_le hd (fun _ _ h => h) (fun _ _ h => h) ?_
    exact fun _ h => (BTreeMap.getElem?_erase_eq_some_iff.mp h).2
  | promote k pending hpending htarget =>
    refine hs.mono rfl rfl ?_
    intro d hd
    cases hd with
    | asked hopen htarget => exact .asked hopen htarget
    | negotiating hnegotiator htarget =>
      exact .negotiating (BTreeMap.getElem?_erase_eq_some_iff.mp hnegotiator).2 htarget
    | opened hown =>
      rcases BTreeMap.getElem?_insert_eq_some_iff.mp hown with ⟨rfl, heq⟩ | ⟨-, hold⟩
      · exact .negotiating hpending heq
      · exact .opened hold
  | promotePing k pending p =>
    refine hs.mono rfl rfl fun d hd => Initiated.initiates_of_le hd (fun _ _ h => h) ?_ ?_
    · exact fun _ _ h => (BTreeMap.getElem?_erase_eq_some_iff.mp h).2
    · exact fun _ h => BTreeMap.getElem?_of_insert h (by rintro ⟨⟩)
  | promoteUser k pending protocolId p =>
    refine hs.mono rfl rfl fun d hd => Initiated.initiates_of_le hd (fun _ _ h => h) ?_ ?_
    · exact fun _ _ h => (BTreeMap.getElem?_erase_eq_some_iff.mp h).2
    · exact fun _ h => BTreeMap.getElem?_of_insert h (by rintro ⟨⟩)
  | acceptUser k protocolId p =>
    refine hs.mono rfl rfl fun d hd =>
      Initiated.initiates_of_le hd (fun _ _ h => h) (fun _ _ h => h) ?_
    exact fun _ h => BTreeMap.getElem?_of_insert h (by rintro ⟨⟩)
  | closeUser k protocolId p =>
    refine hs.mono rfl rfl fun d hd =>
      Initiated.initiates_of_le hd (fun _ _ h => h) (fun _ _ h => h) ?_
    exact fun _ h => (BTreeMap.getElem?_erase_eq_some_iff.mp h).2
  | received k p info =>
    rcases received_cases s p info with ⟨heq, -⟩ | ⟨heq, -⟩
    · rw [heq]
      exact hs.same rfl rfl rfl rfl rfl
    · rw [heq]
      exact hs.same rfl rfl rfl rfl rfl
  | _ => exact hs.same rfl rfl rfl rfl rfl

/-! ## The sets and the events -/

/-- The events of the log are in order, and what the core knows of its peers is what it
reported. -/
structure Readiness (log : List SwarmEvent) (s : SwarmCore) : Prop where
  grammar : Runs.EachStep ReadyOnce [] log
  established : ∀ p, p ∈ s.establishedPeers ↔ Open p log
  ready : ∀ p, p ∈ s.readyPeers ↔ LatestReady p log
  connected : ∀ p, p ∈ s.readyPeers → p ∈ s.peerToConn

namespace Readiness

variable {log polled : List SwarmEvent} {s s' : SwarmCore} {c : ConnectionId} {p : PeerId}
  {e : SwarmEvent}

theorem same (hs : Readiness log s) (hestablished : s'.establishedPeers = s.establishedPeers)
    (hready : s'.readyPeers = s.readyPeers) (hpeer : ∀ p, p ∈ s.peerToConn → p ∈ s'.peerToConn) :
    Readiness log s' where
  grammar := hs.grammar
  established := by
    rw [hestablished]
    exact hs.established
  ready := by
    rw [hready]
    exact hs.ready
  connected := by
    rw [hready]
    exact fun p hp => hpeer p (hs.connected p hp)

theorem grammar_concat (hs : Readiness log s) (he : ∀ p, ¬ Readies p e) :
    Runs.EachStep ReadyOnce [] (log ++ [e]) := by
  refine Logs.eachStep_concat.mpr ⟨hs.grammar, ?_⟩
  intro p protocols heq
  exact absurd ⟨protocols, heq⟩ (he p)

/-- An event about neither the connection of a peer nor its readiness. -/
theorem concat (hs : Readiness log s) (he : ∀ p, ¬ Marks p e) : Readiness (log ++ [e]) s where
  grammar := hs.grammar_concat fun p h => he p (.inr (.inr h))
  established := fun p => (hs.established p).trans (open_concat_other (he p)).symm
  ready := fun p => (hs.ready p).trans (latestReady_concat_other (he p)).symm
  connected := hs.connected

/-- An interval of `p` begins or ends. -/
theorem bound (hs : Readiness log s) (hbounds : Bounds p e)
    (hp : p ∈ s'.establishedPeers ↔ e = .connectionEstablished p)
    (hestablished : ∀ q, q ≠ p → (q ∈ s'.establishedPeers ↔ q ∈ s.establishedPeers))
    (hready : ∀ q, q ∈ s'.readyPeers ↔ q ≠ p ∧ q ∈ s.readyPeers)
    (hpeer : ∀ q, q ≠ p → q ∈ s.peerToConn → q ∈ s'.peerToConn) : Readiness (log ++ [e]) s' := by
  have hother : ∀ q, q ≠ p → ¬ Marks q e := by
    intro q hq hmarks
    rcases hbounds with rfl | rfl
    · rcases hmarks with h | h | ⟨protocols, h⟩
      · exact hq (SwarmEvent.connectionEstablished.inj h).symm
      · cases h
      · cases h
    · rcases hmarks with h | h | ⟨protocols, h⟩
      · cases h
      · exact hq (SwarmEvent.connectionClosed.inj h).symm
      · cases h
  constructor
  · refine hs.grammar_concat ?_
    rintro q ⟨protocols, rfl⟩
    rcases hbounds with h | h
    · cases h
    · cases h
  · intro q
    by_cases hq : q = p
    · rw [hq, hp, open_concat]
      constructor
      · exact .inl
      · rintro (h | ⟨hnot, -⟩)
        · exact h
        · exact hbounds.resolve_right hnot
    · rw [hestablished q hq, hs.established q, open_concat_other (hother q hq)]
  · intro q
    rw [hready q]
    by_cases hq : q = p
    · rw [hq]
      exact iff_of_false (fun h => h.1 rfl) (not_latestReady_concat hbounds)
    · rw [hs.ready q, latestReady_concat_other (hother q hq)]
      exact and_iff_right hq
  · intro q hq
    obtain ⟨hne, hq⟩ := (hready q).mp hq
    exact hpeer q hne (hs.connected q hq)

theorem register (hs : Readiness (polled ++ s.events) s) (hinverse : Inverse s)
    (hnew : s.connToPeer[c]? = none) (p : PeerId) :
    Readiness (polled ++ ((s.yieldTo c p).attach c p).events) ((s.yieldTo c p).attach c p) := by
  have hlog : polled ++ ((s.yieldTo c p).attach c p).events =
      polled ++ s.events ++ [.connectionEstablished p] := by
    rw [List.append_assoc, ← yieldTo_events s c p]
    rfl
  have hpeer : ∀ q, q ∈ s.peerToConn → q ∈ ((s.yieldTo c p).attach c p).peerToConn := by
    intro q hq
    rw [← yieldTo_peerToConn s c p] at hq
    exact BTreeMap.mem_insert_iff.mpr (.inr hq)
  rw [hlog]
  refine hs.bound (.inl rfl) ?_ ?_ ?_ fun q _ hq => hpeer q hq
  · exact iff_of_true (BTreeSet.mem_insert_iff.mpr (.inl rfl)) rfl
  · intro q hq
    refine BTreeSet.mem_insert_iff.trans ((or_iff_right hq).trans ?_)
    exact mem_yieldTo_establishedPeers c hq
  · intro q
    show q ∈ (s.yieldTo c p).readyPeers ↔ _
    rcases (inverse_iff.mp hinverse).1.yieldTo_cases hnew p with ⟨hp, heq⟩ | ⟨old, -, -, heq⟩
    · rw [heq]
      -- nobody is ready without a connection
      refine ⟨fun hq => ⟨?_, hq⟩, And.right⟩
      rintro rfl
      obtain ⟨d, hd⟩ := BTreeMap.exists_getElem?_of_mem (hs.connected q hq)
      rw [hp] at hd
      cases hd
    · rw [heq]
      exact BTreeSet.mem_erase_iff

theorem detach (hs : Readiness (polled ++ s.events) s) (c : ConnectionId) :
    Readiness (polled ++ (s.detach c).events) (s.detach c) := by
  have hleft : Readiness (polled ++ s.events) (s.withoutConn c) := hs.same rfl rfl fun _ hp => hp
  rcases detach_cases s c with ⟨p, -, -, heq⟩ | ⟨-, heq⟩
  · rw [heq]
    show Readiness (polled ++ (s.events ++ [.connectionClosed p])) _
    rw [← List.append_assoc]
    refine hs.bound (p := p) (.inr rfl) (iff_of_false ?_ (by rintro ⟨⟩)) ?_ ?_ ?_
    · exact fun h => (BTreeSet.mem_erase_iff.mp h).1 rfl
    · exact fun q hq => BTreeSet.mem_erase_iff.trans (and_iff_right hq)
    · exact fun q => BTreeSet.mem_erase_iff
    · exact fun q hq hmem => BTreeMap.mem_erase_iff.mpr ⟨hq, hmem⟩
  · rw [heq]
    exact hleft

/-- Identify answers on a connection that was reported. -/
theorem received (hs : Readiness (polled ++ s.events) s) (p : PeerId)
    (info : Identify.IdentifyMessage) (hp : p ∈ s.establishedPeers) :
    Readiness (polled ++ (s.handleIdentifyEvent (.received p info)).events)
      (s.handleIdentifyEvent (.received p info)) := by
  have hplain : ∀ q, ¬ Marks q (.identifyReceived p info) :=
    fun _ => not_marks_of_lifecycle? rfl (by rintro ⟨_, ⟨⟩⟩)
  have hanswered := hs.concat hplain
  rcases received_cases s p info with ⟨heq, -⟩ | ⟨heq, hready, hpeer⟩
  · rw [heq]
    simp only [pushEvent]
    rw [← List.append_assoc]
    exact hanswered.same rfl rfl fun _ hq => hq
  · rw [heq]
    simp only [pushEvent]
    rw [← List.append_assoc, ← List.append_assoc]
    have hlatest : ¬ LatestReady p (polled ++ s.events) := fun h => hready ((hs.ready p).mpr h)
    have hsince := Logs.since_of_not_since (open_iff_since.mp ((hs.established p).mp hp)) hlatest
    have hother : ∀ q, q ≠ p → ¬ Marks q (.peerReady p info.protocols) := by
      intro q hq
      refine not_marks_of_lifecycle? rfl ?_
      rintro ⟨protocols, h⟩
      exact hq (SwarmEvent.peerReady.inj h).1.symm
    constructor
    · refine Logs.eachStep_concat.mpr ⟨hanswered.grammar, ?_⟩
      intro q protocols heq
      obtain ⟨rfl, rfl⟩ := SwarmEvent.peerReady.inj heq
      refine ⟨(Logs.since_concat_other (by rintro ⟨⟩) (hplain p)).mpr hsince, ?_⟩
      exact Logs.since_concat.mpr (.inl ⟨info, rfl, rfl⟩)
    · intro q
      show q ∈ s.establishedPeers ↔ _
      rw [hanswered.established q]
      exact (open_concat_plain rfl).symm
    · intro q
      refine BTreeSet.mem_insert_iff.trans ?_
      by_cases hq : q = p
      · rw [hq, LatestReady, Logs.since_concat]
        exact iff_of_true (.inl rfl) (.inl ⟨info.protocols, rfl⟩)
      · rw [latestReady_concat_other (hother q hq), ← hanswered.ready q]
        exact or_iff_right hq
    · intro q hq
      rcases BTreeSet.mem_insert_iff.mp hq with rfl | hq
      · exact hpeer
      · exact hs.connected q hq

end Readiness

theorem Turn.readiness [Sha256] {s₀ s s' : SwarmCore} {call : Call} {polled : List SwarmEvent}
    (h : Turn s₀ call s s') (hcall : Identifies s₀ call) (hinverse : Inverse s)
    (hinitiated : Initiated s) (hs : Readiness (polled ++ s.events) s) :
    Readiness (polled ++ s'.events) s' := by
  -- an event about a stream, a ping or an error marks nobody
  have hpush : ∀ {t : SwarmCore} (e : SwarmEvent), (∀ q, ¬ Marks q e) →
      t.events = s.events → t.establishedPeers = s.establishedPeers →
      t.readyPeers = s.readyPeers → t.peerToConn = s.peerToConn →
      Readiness (polled ++ (t.pushEvent e).events) (t.pushEvent e) := by
    intro t e he hevents hestablished hready hpeer
    have hlog := hs.concat he
    rw [List.append_assoc, ← hevents] at hlog
    refine hlog.same hestablished hready ?_
    intro q hq
    rw [← hpeer] at hq
    exact hq
  cases h with
  | report e he =>
    refine hpush e ?_ rfl rfl rfl rfl
    rintro q (rfl | rfl | ⟨protocols, rfl⟩)
    · cases he
    · cases he
    · cases he
  | refuse token e he =>
    refine hpush e ?_ rfl rfl rfl rfl
    rintro q (rfl | rfl | ⟨protocols, rfl⟩)
    · cases he
    · cases he
    · cases he
  | placeholder c =>
    exact hs.same rfl rfl fun q hq => BTreeMap.mem_insert_iff.mpr (.inr hq)
  | register c p hconnects hnew => exact hs.register hinverse hnew p
  | rebind c p hverifies hne hagrees =>
    exact absurd (hcall.bound hverifies hagrees) hne
  | close c => exact hs.detach c
  | ask p c protocolId target htoken hp =>
    simp only [queueOpenProtocolStream, requireConn, hp]
    exact hs.same rfl rfl fun _ hq => hq
  | promoteUser k pending protocolId p =>
    exact hpush _ (fun _ => not_marks_of_lifecycle? rfl (by rintro ⟨_, ⟨⟩⟩)) rfl rfl rfl rfl
  | acceptUser k protocolId p =>
    exact hpush _ (fun _ => not_marks_of_lifecycle? rfl (by rintro ⟨_, ⟨⟩⟩)) rfl rfl rfl rfl
  | deliver k protocolId p e hown hp he =>
    refine hpush e ?_ rfl rfl rfl rfl
    rcases he with ⟨data, rfl⟩ | rfl
    · exact fun _ => not_marks_of_lifecycle? rfl (by rintro ⟨_, ⟨⟩⟩)
    · exact fun _ => not_marks_of_lifecycle? rfl (by rintro ⟨_, ⟨⟩⟩)
  | closeUser k protocolId p =>
    exact hpush _ (fun _ => not_marks_of_lifecycle? rfl (by rintro ⟨_, ⟨⟩⟩)) rfl rfl rfl rfl
  | received k p info hown hp =>
    obtain ⟨q, hq, hestablished⟩ := hinitiated k.conn (.opened hown)
    rw [hp] at hq
    cases hq
    exact hs.received p info hestablished
  | _ => exact hs.same rfl rfl fun _ hq => hq

/-! ## Runs -/

/-- In a run of a transport that identifies its peers in the handshake, a peer is reported as ready
only after it was reported as connected, with neither its close nor its readiness reported in
between, and after identify has answered in that interval with the protocols that are reported;
and a peer is ready exactly while the latest event about its connection or its readiness is the one
that reports it as ready. -/
theorem readiness_grammar [Sha256] [MultihashCodec] (hsha : NoCollision)
    (identifyConfig : Identify.IdentifyConfig) (pingConfig : Ping.PingConfig) (calls : List Call)
    (hrun : HandshakeRun calls) (p : PeerId) :
    (∀ before after protocols, emittedEvents (SwarmCore.new identifyConfig pingConfig) calls =
        before ++ .peerReady p protocols :: after →
      Since (· = .connectionEstablished p) (Marks p) before ∧
        Since (fun x => ∃ info, x = .identifyReceived p info ∧ info.protocols = protocols)
          (Marks p) before) ∧
      ((run (SwarmCore.new identifyConfig pingConfig) calls).isPeerReady p = true ↔
        LatestReady p (emittedEvents (SwarmCore.new identifyConfig pingConfig) calls)) := by
  have hs : Initiated (run (SwarmCore.new identifyConfig pingConfig) calls) ∧
      Readiness (emittedEvents (SwarmCore.new identifyConfig pingConfig) calls)
        (run (SwarmCore.new identifyConfig pingConfig) calls) := by
    refine handshake_turns hsha identifyConfig pingConfig
      (J := fun log s => Initiated s ∧ Readiness log s) hrun ⟨?_, trivial, ?_, ?_, ?_⟩ ?_ ?_
    · intro c hc
      cases hc with
      | asked hpending => simp [SwarmCore.new] at hpending
      | negotiating hpending => simp [SwarmCore.new] at hpending
      | opened hown => simp [SwarmCore.new] at hown
    · exact fun q => iff_of_false Std.ExtTreeSet.not_mem_empty not_open_nil
    · exact fun q => iff_of_false Std.ExtTreeSet.not_mem_empty Logs.not_since_nil
    · exact fun q hq => absurd hq Std.ExtTreeSet.not_mem_empty
    · exact fun log s events actions hs =>
        ⟨hs.1.same rfl rfl rfl rfl rfl, hs.2.same rfl rfl fun _ hq => hq⟩
    · exact fun h hidentifies hinverse _ hs =>
        ⟨h.initiated hidentifies hinverse hs.1, h.readiness hidentifies hinverse hs.1 hs.2⟩
  constructor
  · intro before after protocols hlog
    exact (hs.2.grammar.split hlog).2 p protocols rfl
  · exact Std.ExtTreeSet.contains_iff_mem.trans (hs.2.ready p)

/-- Alice connects, and identify learns that she speaks one protocol. -/
def answeredRun : List Call :=
  [.event (.connected ⟨1⟩ (Sample.endpoint (some Sample.alice))),
    .input (.streamOpened ⟨1⟩ ⟨0⟩ ⟨1⟩ 0),
    .event (.streamData ⟨1⟩ ⟨0⟩ (Multistream.encodeMessage Multistream.multistreamProtocolId ++
      Multistream.encodeMessage Identify.identifyProtocolId ++
      Identify.encodeLengthPrefixed ({ protocols := ["/u"] } : Identify.IdentifyMessage).encode)),
    .event (.streamRemoteWriteClosed ⟨1⟩ ⟨0⟩)]

theorem answeredRun_ready :
    LatestReady Sample.alice
        (@emittedEvents Sample.sha256 multihashCodec Sample.core answeredRun) ∧
      ∃ before, @emittedEvents Sample.sha256 multihashCodec Sample.core answeredRun =
          before ++ [.peerReady Sample.alice ["/u"]] ∧
        Since (· = .connectionEstablished Sample.alice) (Marks Sample.alice) before := by
  have hrun : @HandshakeRun Sample.sha256 answeredRun :=
    ⟨⟨by decide, Sample.alice, rfl, Sample.alice_ne_syntheticPeerId⟩, ⟨by decide, trivial⟩,
      ⟨by decide, trivial⟩, ⟨by decide, trivial⟩, trivial⟩
  have hlog : @emittedEvents Sample.sha256 multihashCodec Sample.core answeredRun =
      [.connectionEstablished Sample.alice,
        .identifyReceived Sample.alice { protocols := ["/u"] }] ++
          [.peerReady Sample.alice ["/u"]] := by
    decide +kernel
  have hready : (Sample.run answeredRun).isPeerReady Sample.alice = true := by decide +kernel
  exact ⟨(@readiness_grammar Sample.sha256 multihashCodec Sample.noCollision _ _ answeredRun hrun
      Sample.alice).2.mp hready, _, hlog,
    ((@readiness_grammar Sample.sha256 multihashCodec Sample.noCollision _ _ answeredRun hrun
      Sample.alice).1 _ [] _ hlog).1⟩

end Minip2p.Swarm
