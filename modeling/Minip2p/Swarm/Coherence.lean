import Minip2p.Swarm.StepMoves

/-!
# Coherence

`Coherent` holds of a new core, every move keeps it, and so it holds in every state of a contract
run.
-/

namespace Minip2p.Swarm

open Multistream (MultistreamSelect)
open SwarmCore

/-! ## Contract facts only grow -/

section History

variable {calls : List Call} {call : Call}

theorem Connected.concat {c : ConnectionId} (h : Connected calls c) :
    Connected (calls ++ [call]) c := by
  obtain ⟨x, hx, hc⟩ := h
  exact ⟨x, List.mem_append_left _ hx, hc⟩

theorem Announced.concat {k : StreamKey} (h : Announced calls k) :
    Announced (calls ++ [call]) k := by
  obtain ⟨x, hx, hk⟩ := h
  exact ⟨x, List.mem_append_left _ hx, hk⟩

theorem announced_of_announces {k : StreamKey} (h : call.announces? = some k) :
    Announced (calls ++ [call]) k :=
  ⟨call, List.mem_append_right _ List.mem_cons_self, h⟩

theorem connected_of_connects {c : ConnectionId} (h : call.connects? = some c) :
    Connected (calls ++ [call]) c :=
  ⟨call, List.mem_append_right _ List.mem_cons_self, h⟩

end History

/-! ## Updates keep the streams filed -/

namespace Filed

variable {calls : List Call} {s s' : SwarmCore}

theorem same (hs : Filed calls s) (h : SameTables s s') : Filed calls s' := by
  obtain ⟨hconn, -, hin, hout, hown, hopen⟩ := h
  constructor
  · rw [hconn]
    exact hs.connected
  · rw [hconn, hown]
    exact hs.ownerTracked
  · rw [hconn, hout]
    exact hs.outboundTracked
  · rw [hconn, hopen]
    exact hs.openTracked
  · rw [hin, hout, hown]
    exact hs.inboundDisjoint
  · rw [hout, hown]
    exact hs.outboundDisjoint
  · simp only [Files, hin, hout, hown]
    exact hs.announced

theorem concat {call : Call} (hs : Filed calls s) : Filed (calls ++ [call]) s :=
  { hs with
    connected := fun c hc => (hs.connected c hc).concat
    announced := fun k hk => (hs.announced k hk).concat }

/-- Tracking one more connection. -/
theorem insertConn {c : ConnectionId} {p : PeerId} (hs : Filed calls s) (hc : Connected calls c)
    (hconn : s'.connToPeer = s.connToPeer.insert c p)
    (hin : s'.inboundNegotiators = s.inboundNegotiators)
    (hout : s'.outboundNegotiators = s.outboundNegotiators)
    (hown : s'.streamOwner = s.streamOwner) (hopen : s'.pendingOpens = s.pendingOpens) :
    Filed calls s' := by
  -- what was tracked stays tracked
  have hgrow : ∀ d, d ∈ s.connToPeer → d ∈ s'.connToPeer := by
    intro d hd
    rw [hconn]
    exact BTreeMap.mem_insert_iff.mpr (.inr hd)
  constructor
  · intro d hd
    rw [hconn, BTreeMap.mem_insert_iff] at hd
    rcases hd with rfl | hd
    · exact hc
    · exact hs.connected d hd
  · intro k hk
    exact hgrow _ (hs.ownerTracked k (hown ▸ hk))
  · intro k hk
    exact hgrow _ (hs.outboundTracked k (hout ▸ hk))
  · intro t pending ht
    exact hgrow _ (hs.openTracked t pending (hopen ▸ ht))
  · rw [hin, hout, hown]
    exact hs.inboundDisjoint
  · rw [hout, hown]
    exact hs.outboundDisjoint
  · simp only [Files, hin, hout, hown]
    exact hs.announced

theorem attach {c : ConnectionId} (hs : Filed calls s) (hc : Connected calls c) (p : PeerId) :
    Filed calls (s.attach c p) :=
  hs.insertConn hc rfl rfl rfl rfl rfl

theorem withoutConn (hs : Filed calls s) (c : ConnectionId) : Filed calls (s.withoutConn c) := by
  have hkept : ∀ d, d ∈ s.connToPeer → d ≠ c → d ∈ (s.withoutConn c).connToPeer := by
    intro d hd hne
    exact BTreeMap.mem_erase_iff.mpr ⟨hne, hd⟩
  constructor
  · intro d hd
    exact hs.connected d (BTreeMap.mem_erase_iff.mp hd).2
  · intro k hk
    obtain ⟨hk, hne⟩ := of_mem_retained hk
    exact hkept _ (hs.ownerTracked k hk) hne
  · intro k hk
    obtain ⟨hk, hne⟩ := of_mem_retained hk
    exact hkept _ (hs.outboundTracked k hk) hne
  · intro t pending ht
    obtain ⟨ht, hne⟩ := BTreeMap.getElem?_filter_eq_some_iff.mp ht
    exact hkept _ (hs.openTracked t pending ht) (of_decide_eq_true hne)
  · intro k hk
    obtain ⟨hout, hown⟩ := hs.inboundDisjoint k (of_mem_retained hk).1
    exact ⟨fun h => hout (of_mem_retained h).1, fun h => hown (of_mem_retained h).1⟩
  · intro k hk hown
    exact hs.outboundDisjoint k (of_mem_retained hk).1 (of_mem_retained hown).1
  · rintro k (hk | hk | hk)
    · exact hs.announced k (.inl (of_mem_retained hk).1)
    · exact hs.announced k (.inr (.inl (of_mem_retained hk).1))
    · exact hs.announced k (.inr (.inr (of_mem_retained hk).1))

theorem superseded (hs : Filed calls s) (old : ConnectionId) (p : PeerId) :
    Filed calls (s.superseded old p) := by
  have hpeer : Filed calls (s.withoutPeer p) := hs.same ⟨rfl, rfl, rfl, rfl, rfl, rfl⟩
  exact (hpeer.withoutConn old).same (SameTables.pushAction _)

theorem yieldTo (hs : Filed calls s) (c : ConnectionId) (p : PeerId) :
    Filed calls (s.yieldTo c p) := by
  rcases yieldTo_cases s c p with ⟨heq, -⟩ | ⟨old, -, -, heq⟩
  · rw [heq]
    exact hs
  · rw [heq]
    exact hs.superseded old p

theorem migrateFrom (hs : Filed calls s) (c : ConnectionId) (p : PeerId) :
    Filed calls (s.migrateFrom c p) := by
  rw [SwarmCore.migrateFrom]
  split
  · exact ⟨hs.connected, hs.ownerTracked, hs.outboundTracked, hs.openTracked, hs.inboundDisjoint,
      hs.outboundDisjoint, hs.announced⟩
  · exact hs

theorem detach (hs : Filed calls s) (c : ConnectionId) : Filed calls (s.detach c) := by
  have hconn := hs.withoutConn c
  rcases detach_cases s c with ⟨p, -, -, heq⟩ | ⟨-, heq⟩
  · rw [heq]
    exact ⟨hconn.connected, hconn.ownerTracked, hconn.outboundTracked, hconn.openTracked,
      hconn.inboundDisjoint, hconn.outboundDisjoint, hconn.announced⟩
  · rw [heq]
    exact hconn

/-! A stream enters one of its tables, or leaves it. -/

theorem inbound {k : StreamKey} {negotiator : MultistreamSelect} (hs : Filed calls s)
    (hann : Announced calls k) (hout : k ∉ s.outboundNegotiators) (hown : k ∉ s.streamOwner) :
    Filed calls { s with inboundNegotiators := s.inboundNegotiators.insert k negotiator } := by
  refine { hs with inboundDisjoint := ?_, announced := ?_ }
  · intro k' hk'
    rcases BTreeMap.mem_insert_iff.mp hk' with rfl | hk'
    · exact ⟨hout, hown⟩
    · exact hs.inboundDisjoint k' hk'
  · rintro k' (hk' | hk')
    · rcases BTreeMap.mem_insert_iff.mp hk' with rfl | hk'
      · exact hann
      · exact hs.announced k' (.inl hk')
    · exact hs.announced k' (.inr hk')

theorem outbound {k : StreamKey} {pending : PendingOutbound} (hs : Filed calls s)
    (hc : k.conn ∈ s.connToPeer) (hann : Announced calls k) (hin : k ∉ s.inboundNegotiators)
    (hown : k ∉ s.streamOwner) :
    Filed calls { s with outboundNegotiators := s.outboundNegotiators.insert k pending } := by
  refine { hs with
    outboundTracked := ?_, inboundDisjoint := ?_, outboundDisjoint := ?_, announced := ?_ }
  · intro k' hk'
    rcases BTreeMap.mem_insert_iff.mp hk' with rfl | hk'
    · exact hc
    · exact hs.outboundTracked k' hk'
  · intro k' hk'
    obtain ⟨hout', hown'⟩ := hs.inboundDisjoint k' hk'
    refine ⟨?_, hown'⟩
    intro h
    rcases BTreeMap.mem_insert_iff.mp h with rfl | h
    · exact hin hk'
    · exact hout' h
  · intro k' hk'
    rcases BTreeMap.mem_insert_iff.mp hk' with rfl | hk'
    · exact hown
    · exact hs.outboundDisjoint k' hk'
  · rintro k' (hk' | hk' | hk')
    · exact hs.announced k' (.inl hk')
    · rcases BTreeMap.mem_insert_iff.mp hk' with rfl | hk'
      · exact hann
      · exact hs.announced k' (.inr (.inl hk'))
    · exact hs.announced k' (.inr (.inr hk'))

theorem own {k : StreamKey} {owner : ProtocolKind} (hs : Filed calls s)
    (hc : k.conn ∈ s.connToPeer) (hann : Announced calls k) (hin : k ∉ s.inboundNegotiators)
    (hout : k ∉ s.outboundNegotiators) :
    Filed calls { s with streamOwner := s.streamOwner.insert k owner } := by
  refine { hs with
    ownerTracked := ?_, inboundDisjoint := ?_, outboundDisjoint := ?_, announced := ?_ }
  · intro k' hk'
    rcases BTreeMap.mem_insert_iff.mp hk' with rfl | hk'
    · exact hc
    · exact hs.ownerTracked k' hk'
  · intro k' hk'
    obtain ⟨hout', hown'⟩ := hs.inboundDisjoint k' hk'
    refine ⟨hout', ?_⟩
    intro h
    rcases BTreeMap.mem_insert_iff.mp h with rfl | h
    · exact hin hk'
    · exact hown' h
  · intro k' hk' h
    rcases BTreeMap.mem_insert_iff.mp h with rfl | h
    · exact hout hk'
    · exact hs.outboundDisjoint k' hk' h
  · rintro k' (hk' | hk' | hk')
    · exact hs.announced k' (.inl hk')
    · exact hs.announced k' (.inr (.inl hk'))
    · rcases BTreeMap.mem_insert_iff.mp hk' with rfl | hk'
      · exact hann
      · exact hs.announced k' (.inr (.inr hk'))

/-- Tables that only lose streams. -/
theorem shrink (hs : Filed calls s) (hconn : s'.connToPeer = s.connToPeer)
    (hopen : s'.pendingOpens = s.pendingOpens)
    (hin : ∀ k, k ∈ s'.inboundNegotiators → k ∈ s.inboundNegotiators)
    (hout : ∀ k, k ∈ s'.outboundNegotiators → k ∈ s.outboundNegotiators)
    (hown : ∀ k, k ∈ s'.streamOwner → k ∈ s.streamOwner) : Filed calls s' := by
  constructor
  · rw [hconn]
    exact hs.connected
  · intro k hk
    rw [hconn]
    exact hs.ownerTracked k (hown k hk)
  · intro k hk
    rw [hconn]
    exact hs.outboundTracked k (hout k hk)
  · rw [hconn, hopen]
    exact hs.openTracked
  · intro k hk
    obtain ⟨hout', hown'⟩ := hs.inboundDisjoint k (hin k hk)
    exact ⟨fun h => hout' (hout k h), fun h => hown' (hown k h)⟩
  · intro k hk h
    exact hs.outboundDisjoint k (hout k hk) (hown k h)
  · rintro k (hk | hk | hk)
    · exact hs.announced k (.inl (hin k hk))
    · exact hs.announced k (.inr (.inl (hout k hk)))
    · exact hs.announced k (.inr (.inr (hown k hk)))

theorem dropInbound (hs : Filed calls s) (k : StreamKey) :
    Filed calls { s with inboundNegotiators := s.inboundNegotiators.erase k } :=
  hs.shrink rfl rfl (fun _ h => (BTreeMap.mem_erase_iff.mp h).2) (fun _ h => h) fun _ h => h

theorem dropOutbound (hs : Filed calls s) (k : StreamKey) :
    Filed calls { s with outboundNegotiators := s.outboundNegotiators.erase k } :=
  hs.shrink rfl rfl (fun _ h => h) (fun _ h => (BTreeMap.mem_erase_iff.mp h).2) fun _ h => h

theorem disown (hs : Filed calls s) (k : StreamKey) :
    Filed calls { s with streamOwner := s.streamOwner.erase k } :=
  hs.shrink rfl rfl (fun _ h => h) (fun _ h => h) fun _ h => (BTreeMap.mem_erase_iff.mp h).2

end Filed

/-! ## Updates of the two connection tables -/

namespace Primary

variable {s : SwarmCore}

/-- A peer takes a connection that no other peer has. -/
theorem insert {c : ConnectionId} {p : PeerId} {conns : BTreeMap ConnectionId PeerId}
    {peers : BTreeMap PeerId ConnectionId}
    (h : ∀ (q : PeerId) (d : ConnectionId), q ≠ p → peers[q]? = some d →
      d ≠ c ∧ conns[d]? = some q) (q : PeerId) (d : ConnectionId)
    (hq : (peers.insert p c)[q]? = some d) : (conns.insert c p)[d]? = some q := by
  rw [BTreeMap.getElem?_insert_eq_some_iff] at hq ⊢
  rcases hq with ⟨rfl, rfl⟩ | ⟨hne, hq⟩
  · exact .inl ⟨rfl, rfl⟩
  · exact .inr (h q d hne hq)

theorem placeholder (hs : Primary s) {c : ConnectionId} (hnew : s.connToPeer[c]? = none)
    (p : PeerId) (q : PeerId) (d : ConnectionId) (hq : (s.peerToConn.insert p c)[q]? = some d) :
    (s.connToPeer.insert c p)[d]? = some q := by
  refine insert ?_ q d hq
  intro q d _ hq
  have hd := hs q d hq
  refine ⟨?_, hd⟩
  rintro rfl
  rw [hnew] at hd
  cases hd

/-- A connection that is not tracked finds its peer without one, or takes the place of another. -/
theorem yieldTo_cases (hs : Primary s) {c : ConnectionId} (hnew : s.connToPeer[c]? = none)
    (p : PeerId) :
    (s.peerToConn[p]? = none ∧ s.yieldTo c p = s) ∨
      ∃ old, s.peerToConn[p]? = some old ∧ old ≠ c ∧ s.yieldTo c p = s.superseded old p := by
  rcases SwarmCore.yieldTo_cases s c p with ⟨heq, honly⟩ | hother
  · refine .inl ⟨?_, heq⟩
    cases hp : s.peerToConn[p]? with
    | none => rfl
    | some old =>
      have hold : s.connToPeer[old]? = some p := hs p old hp
      rw [honly old hp, hnew] at hold
      cases hold
  · exact .inr hother

theorem register (hs : Primary s) {c : ConnectionId} (hnew : s.connToPeer[c]? = none)
    (p : PeerId) : Primary ((s.yieldTo c p).attach c p) := by
  rcases hs.yieldTo_cases hnew p with ⟨-, heq⟩ | ⟨old, hp, -, heq⟩
  · rw [heq]
    exact hs.placeholder hnew p
  · rw [heq]
    have hold : s.connToPeer[old]? = some p := hs p old hp
    refine insert ?_
    intro q d hqp hq
    have hd : s.connToPeer[d]? = some q := hs q d hq
    refine ⟨?_, ?_⟩
    · rintro rfl
      rw [hnew] at hd
      cases hd
    -- the superseded connection was not one of `q`
    · have hdo : d ≠ old := by
        rintro rfl
        rw [hold] at hd
        exact hqp (Option.some.inj hd).symm
      show (s.connToPeer.erase old)[d]? = some q
      exact BTreeMap.getElem?_erase_eq_some_iff.mpr ⟨hdo, hd⟩

theorem rebind (hs : Primary s) (c : ConnectionId) (p : PeerId) :
    Primary ((s.migrateFrom c p).attach c p) := by
  cases hc : s.connToPeer[c]? with
  | none =>
    rw [migrateFrom, hc]
    exact hs.placeholder hc p
  | some stale =>
    rw [migrateFrom, hc]
    refine insert ?_
    intro q d _ hq
    obtain ⟨hne, hq⟩ := BTreeMap.getElem?_erase_eq_some_iff.mp hq
    have hd : s.connToPeer[d]? = some q := hs q d hq
    refine ⟨?_, hd⟩
    rintro rfl
    rw [hc] at hd
    exact hne (Option.some.inj hd).symm

theorem detach (hs : Primary s) (c : ConnectionId) : Primary (s.detach c) := by
  -- once no peer has `c`, forgetting it changes nothing for the others
  have hforget : ∀ {peers : BTreeMap PeerId ConnectionId},
      (∀ (q : PeerId) (d : ConnectionId), peers[q]? = some d → d ≠ c ∧ s.peerToConn[q]? = some d) →
      ∀ (q : PeerId) (d : ConnectionId), peers[q]? = some d →
        (s.connToPeer.erase c)[d]? = some q := by
    intro peers hpeers q d hq
    obtain ⟨hdc, hq⟩ := hpeers q d hq
    exact BTreeMap.getElem?_erase_eq_some_iff.mpr ⟨hdc, hs q d hq⟩
  rcases detach_cases s c with ⟨p, hp, -, heq⟩ | ⟨hprimary, heq⟩
  · rw [heq]
    refine hforget ?_
    intro q d hq
    obtain ⟨hqp, hq⟩ := BTreeMap.getElem?_erase_eq_some_iff.mp hq
    refine ⟨?_, hq⟩
    -- another peer cannot have `c`: it is tracked as a connection of `p`
    rintro rfl
    have hd := hs q d hq
    rw [hp] at hd
    exact hqp (Option.some.inj hd).symm
  · rw [heq]
    refine hforget ?_
    intro q d hq
    refine ⟨?_, hq⟩
    rintro rfl
    exact hprimary q (hs q d hq) hq

end Primary

/-! ## Moves keep the core coherent -/

section Moves

variable [Sha256] {calls : List Call} {s₀ s s' : SwarmCore} {call : Call}

theorem Move.primary (h : Move s₀ call s s') (hs : Primary s) : Primary s' := by
  cases h with
  | placeholder c _ hnew => exact hs.placeholder hnew (syntheticPeerId c)
  | register c p _ hnew => exact hs.register hnew p
  | rebind c p => exact hs.rebind c p
  | close c => exact hs.detach c
  | openStream p c protocolId target hp =>
    simp only [queueOpenProtocolStream, requireConn, hp]
    exact hs
  | _ => exact hs

omit [Sha256] in
/-- A connection that gets a placeholder was reported as connected. -/
theorem connected_of_needsPlaceholder {c : ConnectionId} (hcontract : TransportContract calls call)
    (h : call.NeedsPlaceholder s₀ c) : Connected (calls ++ [call]) c := by
  rcases h with ⟨endpoint, nowMs, rfl, -⟩ | ⟨t, data, nowMs, rfl, -⟩
  · exact connected_of_connects rfl
  · exact Connected.concat hcontract.1

theorem Move.filed (h : Move s₀ call s s') (hs₀ : Filed calls s₀)
    (hcontract : TransportContract calls call) (hprimary : Primary s)
    (hs : Filed (calls ++ [call]) s) : Filed (calls ++ [call]) s' := by
  -- a stream that a move files was filed before the call or is reported by it
  have hann : ∀ {k : StreamKey}, s₀.Files k ∨ call.announces? = some k →
      Announced (calls ++ [call]) k := by
    rintro k (hfiles | hnew)
    · exact (hs₀.announced k hfiles).concat
    · exact announced_of_announces hnew
  cases h with
  | placeholder c hneeds hnew =>
    exact hs.insertConn (connected_of_needsPlaceholder hcontract hneeds) rfl rfl rfl rfl rfl
  | register c p hcall =>
    have hc : Connected (calls ++ [call]) c := by
      obtain ⟨endpoint, nowMs, rfl, -⟩ := hcall
      exact connected_of_connects rfl
    exact (hs.yieldTo c p).attach hc p
  | rebind c p hcall =>
    have hc : Connected (calls ++ [call]) c := by
      obtain ⟨endpoint, previous, nowMs, rfl, -⟩ := hcall
      exact Connected.concat hcontract.1
    exact (hs.migrateFrom c p).attach hc p
  | close c => exact hs.detach c
  | openStream p c protocolId target hp =>
    -- the connection an open is asked for on is tracked
    have hc : c ∈ s.connToPeer := BTreeMap.mem_of_getElem? (hprimary p c hp)
    simp only [queueOpenProtocolStream, requireConn, hp]
    refine { hs with openTracked := ?_ }
    intro t pending ht
    rcases BTreeMap.getElem?_insert_eq_some_iff.mp ht with ⟨-, rfl⟩ | ⟨-, ht⟩
    · exact hc
    · exact hs.openTracked t pending ht
  | answer token =>
    refine { hs with openTracked := ?_ }
    intro t pending ht
    exact hs.openTracked t pending (BTreeMap.getElem?_erase_eq_some_iff.mp ht).2
  | inbound k negotiator hk hc hknown hout hown => exact hs.inbound (hann hknown) hout hown
  | outbound k pending hk hc hknown hin hown => exact hs.outbound hc (hann hknown) hin hown
  | own k owner hk hc hknown hin hout => exact hs.own hc (hann hknown) hin hout
  | dropInbound k => exact hs.dropInbound k
  | dropOutbound k => exact hs.dropOutbound k
  | disown k => exact hs.disown k
  | _ => exact hs.same ⟨rfl, rfl, rfl, rfl, rfl, rfl⟩

theorem Move.coherent (h : Move s₀ call s s') (hs₀ : Coherent calls s₀)
    (hcontract : TransportContract calls call) (hs : Coherent (calls ++ [call]) s) :
    Coherent (calls ++ [call]) s' :=
  { h.filed hs₀.toFiled hcontract hs.primary hs.toFiled with
    idle := h.idle hs.idle
    primary := h.primary hs.primary }

omit [Sha256] in
theorem Coherent.concat (hs : Coherent calls s) : Coherent (calls ++ [call]) s :=
  { hs.toFiled.concat with idle := hs.idle, primary := hs.primary }

theorem Moves.coherent (h : Moves s₀ call s₀ s) (hs₀ : Coherent calls s₀)
    (hcontract : TransportContract calls call) : Coherent (calls ++ [call]) s :=
  Runs.keeps_of_chain h (fun _ _ hmove => hmove.coherent hs₀ hcontract) hs₀.concat

end Moves

/-! ## Runs -/

/-- Polling takes one output from a queue and does nothing else. -/
theorem pollOutput_cases (s : SwarmCore) :
    (∃ a actions, s.actions = a :: actions ∧
      s.pollOutput = ({ s with actions := actions }, some (.action a))) ∨
    (∃ e events, s.actions = [] ∧ s.events = e :: events ∧
      s.pollOutput = ({ s with events := events }, some (.event e))) ∨
    (s.actions = [] ∧ s.events = [] ∧ s.pollOutput = (s, none)) := by
  cases ha : s.actions with
  | cons a actions => exact .inl ⟨a, actions, rfl, by simp only [pollOutput, ha]⟩
  | nil =>
    cases he : s.events with
    | cons e events => exact .inr (.inl ⟨e, events, rfl, rfl, by simp only [pollOutput, ha, he]⟩)
    | nil => exact .inr (.inr ⟨rfl, rfl, by simp only [pollOutput, ha, he]⟩)

/-- Whatever a poll leaves is the core with other queues. -/
theorem pollOutput_eq (s : SwarmCore) :
    ∃ events actions, s.pollOutput.1 = { s with events := events, actions := actions } := by
  rcases pollOutput_cases s with ⟨a, actions, -, h⟩ | ⟨e, events, -, -, h⟩ | ⟨-, -, h⟩
  · exact ⟨s.events, actions, by rw [h]⟩
  · exact ⟨events, s.actions, by rw [h]⟩
  · exact ⟨s.events, s.actions, by rw [h]⟩

section Runs

variable [Sha256] [MultihashCodec] {calls : List Call} {s : SwarmCore} {call : Call}

omit [Sha256] [MultihashCodec] in
theorem openOrReport_connToPeer (s : SwarmCore) (p : PeerId) (c : ConnectionId)
    (protocolId : String) (target : ProtocolKind) (kind : SwarmErrorKind)
    (detail : SwarmError → String) :
    (s.openOrReport p c protocolId target kind detail).connToPeer = s.connToPeer := by
  cases hp : s.peerToConn[p]? with
  | none =>
    simp only [openOrReport, queueOpenProtocolStream, requireConn, hp]
    rfl
  | some d =>
    rw [openOrReport_eq hp]
    simp only [queueOpenProtocolStream, requireConn, hp]

omit [Sha256] [MultihashCodec] in
theorem openOrReport_peerToConn (s : SwarmCore) (p : PeerId) (c : ConnectionId)
    (protocolId : String) (target : ProtocolKind) (kind : SwarmErrorKind)
    (detail : SwarmError → String) :
    (s.openOrReport p c protocolId target kind detail).peerToConn = s.peerToConn := by
  cases hp : s.peerToConn[p]? with
  | none =>
    simp only [openOrReport, queueOpenProtocolStream, requireConn, hp]
    rfl
  | some d =>
    rw [openOrReport_eq hp]
    simp only [queueOpenProtocolStream, requireConn, hp]

omit [Sha256] [MultihashCodec] in
theorem yieldTo_connToPeer (s : SwarmCore) (c : ConnectionId) (p : PeerId) :
    (s.yieldTo c p).connToPeer =
      match s.peerToConn[p]? with
      | some old => if old ≠ c then s.connToPeer.erase old else s.connToPeer
      | none => s.connToPeer := by
  rw [yieldTo]
  cases s.peerToConn[p]? with
  | none => rfl
  | some old => exact apply_ite connToPeer (old ≠ c) (s.superseded old p) s

/-- The tracked connections after one of a known peer connected. -/
theorem step_connToPeer_of_connectsAs (hs : Coherent calls s)
    (hcontract : TransportContract calls call) {c : ConnectionId} {p : PeerId}
    (hcall : call.ConnectsAs c p) :
    (step s call).connToPeer = (s.yieldTo c p).connToPeer.insert c p := by
  obtain ⟨endpoint, nowMs, rfl, hendpoint⟩ := hcall
  -- the core when the connection is registered
  let t : SwarmCore := { s with
    activeConnections := s.activeConnections.insert c true
    connToRemoteAddr := s.connToRemoteAddr.insert c endpoint.transport }
  have hfresh : t.connToPeer.contains c = false := by
    have hc : c ∉ s.connToPeer := fun hc => hcontract.1 (hs.connected c hc)
    rw [Std.ExtTreeMap.contains_eq_isSome_getElem?, Std.ExtTreeMap.getElem?_eq_none hc]
    rfl
  have hyield : t.supersedeOther c p = t.yieldTo c p :=
    supersedeOther_eq (s := t) ⟨hs.idle.ping, hs.idle.identify⟩ (hs.primary p)
  have hsame : (t.yieldTo c p).connToPeer = (s.yieldTo c p).connToPeer := by
    rw [yieldTo_connToPeer, yieldTo_connToPeer]
  have hstep : step s (.input (.transport (.connected c endpoint) nowMs)) =
      t.registerConnection c p := by
    simp only [step, handleInput, handleTransportEvent, hendpoint]
    rfl
  rw [hstep, ← hsame]
  simp only [registerConnection, hyield, hfresh, Bool.not_false, ↓reduceIte, announceConnection]
  split
  · rw [openOrReport_connToPeer, openOrReport_connToPeer]
    rfl
  · rw [openOrReport_connToPeer]
    rfl

theorem step_coherent (hs : Coherent calls s) (hcontract : TransportContract calls call) :
    Coherent (calls ++ [call]) (step s call) := by
  by_cases hpoll : call = .pollOutput
  · obtain ⟨events, actions, heq⟩ := pollOutput_eq s
    rw [hpoll, step, heq]
    have hfiled : Filed (calls ++ [.pollOutput]) { s with events := events, actions := actions } :=
      hs.toFiled.concat.same ⟨rfl, rfl, rfl, rfl, rfl, rfl⟩
    exact { hfiled with idle := ⟨hs.idle.ping, hs.idle.identify⟩, primary := hs.primary }
  · exact (step_moves hs hcontract hpoll).coherent hs hcontract

variable (identifyConfig : Identify.IdentifyConfig) (pingConfig : Ping.PingConfig)

omit [Sha256] [MultihashCodec] in
theorem coherent_new : Coherent [] (SwarmCore.new identifyConfig pingConfig) where
  idle := ⟨Ping.PingProtocol.idle_new pingConfig, Identify.IdentifyProtocol.idle_new identifyConfig⟩
  primary := fun p c h => by simp [SwarmCore.new] at h
  connected := fun c h => by simp [SwarmCore.new] at h
  ownerTracked := fun k h => by simp [SwarmCore.new] at h
  outboundTracked := fun k h => by simp [SwarmCore.new] at h
  openTracked := fun t pending h => by simp [SwarmCore.new] at h
  inboundDisjoint := fun k h => by simp [SwarmCore.new] at h
  outboundDisjoint := fun k h => by simp [SwarmCore.new] at h
  announced := fun k h => by simp [SwarmCore.new, Files] at h

theorem coherent_run (h : ContractRun calls) :
    Coherent calls (run (SwarmCore.new identifyConfig pingConfig) calls) := by
  refine Runs.EachStep.invariant
    (I := fun calls => Coherent calls (run (SwarmCore.new identifyConfig pingConfig) calls)) h
    (coherent_new identifyConfig pingConfig) ?_
  intro before call hcontract hbefore
  rw [run_concat]
  exact step_coherent hbefore hcontract

/-- The induction over a contract run: a call that meets `cond` keeps `I`, given that the core
is coherent. -/
theorem run_invariant {I : List Call → SwarmCore → Prop} {cond : List Call → Call → Prop}
    (hrun : Runs.EachStep (fun before call => TransportContract before call ∧ cond before call)
      [] calls)
    (hnew : I [] (SwarmCore.new identifyConfig pingConfig))
    (hstep : ∀ before call s, s = run (SwarmCore.new identifyConfig pingConfig) before →
      Coherent before s → TransportContract before call → cond before call → I before s →
      I (before ++ [call]) (step s call)) :
    I calls (run (SwarmCore.new identifyConfig pingConfig) calls) := by
  have hboth := Runs.EachStep.invariant
    (I := fun calls => Coherent calls (run (SwarmCore.new identifyConfig pingConfig) calls) ∧
      I calls (run (SwarmCore.new identifyConfig pingConfig) calls)) hrun
    ⟨coherent_new identifyConfig pingConfig, hnew⟩ ?_
  · exact hboth.2
  · rintro before call ⟨hcontract, hcond⟩ ⟨hcoherent, hinv⟩
    rw [run_concat]
    exact ⟨step_coherent hcoherent hcontract,
      hstep before call _ rfl hcoherent hcontract hcond hinv⟩

end Runs

end Minip2p.Swarm
