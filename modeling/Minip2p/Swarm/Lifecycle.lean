import Minip2p.Lib.Logs
import Minip2p.Swarm.Coherence

/-!
# Lifecycle events

The events of a run are those the application has polled followed by those still queued. `Open`
says that the last lifecycle event of a peer is its establishment, and `Lawful` that every close
is the close of an open peer. `connected_peers` is the set of open peers as long as every peer
that closes was surfaced and no peer that was surfaced is rebound (`Surfaced`).
-/

namespace Minip2p.Swarm

open SwarmCore

/-! ## Event logs -/

/-- The peer was reported as established, and not as closed since. -/
def Open (p : PeerId) (log : List SwarmEvent) : Prop :=
  ∃ before after, log = before ++ .connectionEstablished p :: after ∧ .connectionClosed p ∉ after

/-- Only open peers are reported as closed. -/
def Lawful (log : List SwarmEvent) : Prop :=
  ∀ p before after, log = before ++ .connectionClosed p :: after → Open p before

section Log

variable {log : List SwarmEvent} {p q : PeerId} {e : SwarmEvent}

theorem open_iff_since :
    Open p log ↔ Logs.Since (· = .connectionEstablished p) (· = .connectionClosed p) log := by
  constructor
  · rintro ⟨before, after, rfl, hafter⟩
    refine ⟨before, _, after, rfl, rfl, ?_⟩
    rintro y hy rfl
    exact hafter hy
  · rintro ⟨before, x, after, rfl, rfl, hafter⟩
    exact ⟨before, after, rfl, fun h => hafter _ h rfl⟩

theorem open_concat :
    Open p (log ++ [e]) ↔
      e = .connectionEstablished p ∨ (e ≠ .connectionClosed p ∧ Open p log) := by
  rw [open_iff_since, open_iff_since]
  exact Logs.since_concat

theorem not_open_nil : ¬ Open p [] := by
  rw [open_iff_since]
  exact Logs.not_since_nil

theorem lawful_concat :
    Lawful (log ++ [e]) ↔ Lawful log ∧ ∀ p, e = .connectionClosed p → Open p log := by
  constructor
  · intro h
    refine ⟨?_, ?_⟩
    · rintro p before after rfl
      exact h p before (after ++ [e]) (by rw [List.append_assoc]; rfl)
    · rintro p rfl
      exact h p log [] rfl
  · rintro ⟨hlog, he⟩ p before after h
    rcases Logs.concat_eq_append_cons h with ⟨rfl, hclosed, -⟩ | ⟨rest, rfl, hrest⟩
    · exact he p hclosed
    · exact hlog p before rest hrest

theorem lawful_nil : Lawful [] := by
  intro p before after h
  cases before <;> cases h

/-- An event that is about no connection changes nothing. -/
theorem open_concat_plain (hplain : e.lifecycle? = none) : Open p (log ++ [e]) ↔ Open p log := by
  rw [open_concat]
  constructor
  · rintro (rfl | ⟨-, h⟩)
    · cases hplain
    · exact h
  · intro h
    refine .inr ⟨?_, h⟩
    rintro rfl
    cases hplain

theorem Open.mem (h : Open p log) : .connectionEstablished p ∈ log := by
  obtain ⟨before, after, rfl, -⟩ := h
  exact List.mem_append_right _ List.mem_cons_self

/-! ## Renaming the queued events -/

/-- What renaming does to the lifecycle part of an event. -/
theorem SwarmEvent.lifecycle?_migrate (stale new : PeerId) (e : SwarmEvent) :
    (e.migrate stale new).lifecycle? =
      e.lifecycle?.map fun x => (if x.1 = stale then new else x.1, x.2) := by
  cases e <;> rfl

theorem SwarmEvent.eq_established_iff :
    e = .connectionEstablished p ↔ e.lifecycle? = some (p, true) := by
  cases e <;> simp [SwarmEvent.lifecycle?]

theorem SwarmEvent.eq_closed_iff : e = .connectionClosed p ↔ e.lifecycle? = some (p, false) := by
  cases e <;> simp [SwarmEvent.lifecycle?]

variable {stale new : PeerId} {polled queued : List SwarmEvent}

/-- A queue that does not close the stale peer may be renamed after the polled events: the stale
peer disappears from the queue, the new one gets its establishments, the others do not change. -/
theorem open_migrate (hne : stale ≠ new) (hpolled : ¬ Open stale polled)
    (hqueued : .connectionClosed stale ∉ queued) :
    ¬ Open stale (polled ++ queued.map (SwarmEvent.migrate stale new)) ∧
      (Open new (polled ++ queued) →
        Open new (polled ++ queued.map (SwarmEvent.migrate stale new))) ∧
      ∀ p, p ≠ stale → p ≠ new →
        (Open p (polled ++ queued.map (SwarmEvent.migrate stale new)) ↔
          Open p (polled ++ queued)) := by
  induction queued using List.reverseRecOn with
  | nil => simpa using hpolled
  | append_singleton queued e ih =>
    have hrest : .connectionClosed stale ∉ queued := fun h => hqueued (List.mem_append_left _ h)
    have he : e ≠ .connectionClosed stale := by
      rintro rfl
      exact hqueued (List.mem_append_right _ List.mem_cons_self)
    -- the queue is renamed event by event, the last one here
    obtain ⟨hstale, hnew, hother⟩ := ih hrest
    rw [List.map_append, List.map_cons, List.map_nil, ← List.append_assoc, ← List.append_assoc]
    -- only the lifecycle part of the event matters
    simp only [open_concat, Ne, SwarmEvent.eq_established_iff, SwarmEvent.eq_closed_iff,
      SwarmEvent.lifecycle?_migrate] at he ⊢
    cases hlife : e.lifecycle? with
    | none => simpa [hlife] using ⟨hstale, hnew, hother⟩
    | some x =>
      obtain ⟨q, established⟩ := x
      by_cases hq : q = stale
      · -- an establishment of the stale peer becomes one of the new peer
        obtain rfl : established = true := by
          rw [hlife, hq] at he
          cases established
          · exact absurd rfl he
          · rfl
        simp only [Option.map_some, hq, ↓reduceIte, Option.some.injEq, Prod.mk.injEq]
        refine ⟨?_, ?_, ?_⟩
        · simp [hne.symm, hstale]
        · simp
        · intro p hps hpn
          simp [Ne.symm hpn, Ne.symm hps, hother p hps hpn]
      · simp only [Option.map_some, hq, ↓reduceIte, Option.some.injEq, Prod.mk.injEq]
        refine ⟨?_, ?_, ?_⟩
        · simp [hstale]
        · rintro (h | ⟨h, hopen⟩)
          · exact .inl h
          · exact .inr ⟨h, hnew hopen⟩
        · intro p hps hpn
          rw [hother p hps hpn]

theorem lawful_migrate (hne : stale ≠ new) (hpolled : ¬ Open stale polled)
    (hqueued : .connectionClosed stale ∉ queued) (h : Lawful (polled ++ queued)) :
    Lawful (polled ++ queued.map (SwarmEvent.migrate stale new)) := by
  induction queued using List.reverseRecOn with
  | nil => simpa using h
  | append_singleton queued e ih =>
    have hrest : .connectionClosed stale ∉ queued := fun h => hqueued (List.mem_append_left _ h)
    have he : e ≠ .connectionClosed stale := by
      rintro rfl
      exact hqueued (List.mem_append_right _ List.mem_cons_self)
    obtain ⟨-, hnew, hother⟩ := open_migrate hne hpolled hrest
    rw [← List.append_assoc, lawful_concat] at h
    rw [List.map_append, List.map_cons, List.map_nil, ← List.append_assoc, lawful_concat]
    refine ⟨ih hrest h.1, ?_⟩
    intro p hp
    -- the closed peer is not the stale one, so the event was not renamed
    rw [SwarmEvent.eq_closed_iff, SwarmEvent.lifecycle?_migrate, Option.map_eq_some_iff] at hp
    obtain ⟨⟨q, established⟩, hlife, hx⟩ := hp
    simp only [Prod.mk.injEq] at hx
    obtain ⟨hq, rfl⟩ := hx
    have hclosed : e = .connectionClosed q := SwarmEvent.eq_closed_iff.mpr hlife
    have hqs : q ≠ stale := by
      rintro rfl
      exact he hclosed
    rw [if_neg hqs] at hq
    subst hq
    have hopen : Open q (polled ++ queued) := h.2 q hclosed
    by_cases hqn : q = new
    · rw [hqn] at hopen ⊢
      exact hnew hopen
    · exact (hother q hqs hqn).mpr hopen

end Log

/-! ## The events of a run -/

section Runs

variable [Sha256] [MultihashCodec]

/-- The event a call hands to the application. -/
def polledBy (s : SwarmCore) : Call → List SwarmEvent
  | .pollOutput =>
    match s.pollOutput.2 with
    | some (.event e) => [e]
    | _ => []
  | _ => []

/-- The events the application has polled in a run. -/
def polledEvents : SwarmCore → List Call → List SwarmEvent
  | _, [] => []
  | s, call :: calls => polledBy s call ++ polledEvents (step s call) calls

/-- The events a run has emitted: those polled and those still queued. -/
def emittedEvents (s : SwarmCore) (calls : List Call) : List SwarmEvent :=
  polledEvents s calls ++ (run s calls).events

theorem polledEvents_concat (s : SwarmCore) (calls : List Call) (call : Call) :
    polledEvents s (calls ++ [call]) = polledEvents s calls ++ polledBy (run s calls) call := by
  induction calls generalizing s with
  | nil => simp [polledEvents]
  | cons first calls ih =>
    simp only [List.cons_append, polledEvents, List.append_assoc]
    rw [ih]
    rfl

omit [Sha256] [MultihashCodec] in
/-- A poll moves an event from the queue to the application. -/
theorem polledBy_append (s : SwarmCore) :
    polledBy s .pollOutput ++ s.pollOutput.1.events = s.events := by
  rw [polledBy]
  rcases pollOutput_cases s with ⟨a, actions, -, h⟩ | ⟨e, events, -, hevents, h⟩ | ⟨-, -, h⟩
  · rw [h]
    rfl
  · rw [h, hevents]
    rfl
  · rw [h]
    rfl

/-- The transport reported the peer id. -/
def Reported (calls : List Call) (p : PeerId) : Prop :=
  ∃ call ∈ calls, ∃ c, call.ConnectsAs c p ∨ call.VerifiesAs c p

/-- The call surfaces and rebinds as the application can follow: the peer whose connection closes
was surfaced; and an identity is not moved away from a peer that the application takes for
connected, or whose close it has yet to poll. -/
def Surfaced (polled : List SwarmEvent) (s : SwarmCore) : Call → Prop
  | .input (.transport (.closed c) _) =>
    ∀ p : PeerId, s.peerToConn[p]? = some c → p ∈ s.establishedPeers
  | .input (.transport (.peerIdentityVerified c endpoint _) _) =>
    ∀ new ∈ endpoint.peerId, ∀ stale : PeerId, s.connToPeer[c]? = some stale → stale ≠ new →
      ¬ Open stale polled ∧ .connectionClosed stale ∉ s.events
  | _ => True

/-- The emitted events are lawful, name peers the transport reported and are what
`established_peers` says. -/
structure Truthful (calls : List Call) (polled : List SwarmEvent) (s : SwarmCore) : Prop where
  lawful : Lawful (polled ++ s.events)
  established : ∀ p, p ∈ s.establishedPeers ↔ Open p (polled ++ s.events)
  reported : ∀ e ∈ polled ++ s.events, ∀ p b, e.lifecycle? = some (p, b) → Reported calls p

variable {s₀ s s' : SwarmCore} {call : Call} {calls : List Call} {polled : List SwarmEvent}

omit [Sha256] [MultihashCodec] in
theorem Reported.concat {p : PeerId} (h : Reported calls p) : Reported (calls ++ [call]) p := by
  obtain ⟨x, hx, hp⟩ := h
  exact ⟨x, List.mem_append_left _ hx, hp⟩

omit [Sha256] [MultihashCodec] in
/-- One more event, about peers that were reported. -/
theorem reported_concat {queued : List SwarmEvent} {e : SwarmEvent}
    (hlog : ∀ x ∈ polled ++ queued, ∀ p b, x.lifecycle? = some (p, b) → Reported calls p)
    (he : ∀ p b, e.lifecycle? = some (p, b) → Reported calls p) :
    ∀ x ∈ polled ++ (queued ++ [e]), ∀ p b, x.lifecycle? = some (p, b) → Reported calls p := by
  intro x hx p b hlife
  rw [← List.append_assoc] at hx
  rcases List.mem_append.mp hx with hx | hx
  · exact hlog x hx p b hlife
  · rw [List.mem_singleton.mp hx] at hlife
    exact he p b hlife

namespace Truthful

omit [Sha256] [MultihashCodec]

theorem concat (hs : Truthful calls polled s) : Truthful (calls ++ [call]) polled s :=
  { hs with reported := fun e he p b h => (hs.reported e he p b h).concat }

/-- Nothing was said and the established peers are the same. -/
theorem same (hs : Truthful calls polled s) (hevents : s'.events = s.events)
    (hpeers : s'.establishedPeers = s.establishedPeers) : Truthful calls polled s' := by
  constructor
  · rw [hevents]
    exact hs.lawful
  · rw [hevents, hpeers]
    exact hs.established
  · rw [hevents]
    exact hs.reported

theorem pushEvent (hs : Truthful calls polled s) {e : SwarmEvent} (hplain : e.lifecycle? = none) :
    Truthful calls polled (s.pushEvent e) := by
  constructor
  · show Lawful (polled ++ (s.events ++ [e]))
    rw [← List.append_assoc, lawful_concat]
    refine ⟨hs.lawful, ?_⟩
    rintro p rfl
    cases hplain
  · intro p
    show p ∈ s.establishedPeers ↔ Open p (polled ++ (s.events ++ [e]))
    rw [← List.append_assoc, open_concat_plain hplain]
    exact hs.established p
  · refine reported_concat hs.reported ?_
    intro p b hlife
    rw [hplain] at hlife
    cases hlife

/-- A peer is reported as established. The others need not have kept their place in the set of
established peers by more than the log says. -/
theorem establish {p : PeerId} (hlawful : Lawful (polled ++ s.events))
    (hothers : ∀ q, q ≠ p → (q ∈ s.establishedPeers ↔ Open q (polled ++ s.events)))
    (hreported : ∀ e ∈ polled ++ s.events, ∀ q b, e.lifecycle? = some (q, b) → Reported calls q)
    (hp : Reported calls p) (c : ConnectionId) : Truthful calls polled (s.attach c p) := by
  constructor
  · show Lawful (polled ++ (s.events ++ [.connectionEstablished p]))
    rw [← List.append_assoc, lawful_concat]
    exact ⟨hlawful, by rintro q ⟨⟩⟩
  · intro q
    show q ∈ s.establishedPeers.insert p ↔
      Open q (polled ++ (s.events ++ [.connectionEstablished p]))
    rw [← List.append_assoc, open_concat, BTreeSet.mem_insert_iff]
    by_cases hqp : q = p
    · simp [hqp]
    · have hpq : ¬ p = q := fun h => hqp h.symm
      simp [hqp, hpq, hothers q hqp]
  · refine reported_concat hreported ?_
    intro q b hlife
    obtain rfl : p = q := congrArg Prod.fst (Option.some.inj hlife)
    exact hp

theorem register (hs : Truthful calls polled s) {p : PeerId} (hp : Reported calls p)
    (c : ConnectionId) : Truthful calls polled ((s.yieldTo c p).attach c p) := by
  have hevents : (s.yieldTo c p).events = s.events := yieldTo_events s c p
  refine establish ?_ ?_ ?_ hp c
  · rw [hevents]
    exact hs.lawful
  · intro q hqp
    rw [hevents, mem_yieldTo_establishedPeers c hqp]
    exact hs.established q
  · rw [hevents]
    exact hs.reported

theorem rebind (hs : Truthful calls polled s) {c : ConnectionId} {new : PeerId}
    (hnew : Reported calls new) (hne : s.connToPeer[c]? ≠ some new)
    (hsurfaced : ∀ stale : PeerId, s.connToPeer[c]? = some stale →
      ¬ Open stale polled ∧ .connectionClosed stale ∉ s.events) :
    Truthful calls polled ((s.migrateFrom c new).attach c new) := by
  rw [migrateFrom]
  cases hc : s.connToPeer[c]? with
  | none => exact establish hs.lawful (fun q _ => hs.established q) hs.reported hnew c
  | some stale =>
    obtain ⟨hpolled, hqueued⟩ := hsurfaced stale hc
    have hsn : stale ≠ new := by
      rintro rfl
      exact hne hc
    obtain ⟨hstale, -, hother⟩ := open_migrate hsn hpolled hqueued
    refine establish (lawful_migrate hsn hpolled hqueued hs.lawful) ?_ ?_ hnew c
    · intro q hqn
      -- the set is renamed like the queue
      have hpeers : q ∈ (s.migrated stale new).establishedPeers ↔
          q ≠ stale ∧ q ∈ s.establishedPeers := by
        show q ∈ (if s.establishedPeers.contains stale then
          (s.establishedPeers.erase stale).insert new else s.establishedPeers) ↔ _
        split
        · rw [BTreeSet.mem_insert_iff, BTreeSet.mem_erase_iff, or_iff_right hqn]
        · next hcontains =>
          refine ⟨fun h => ⟨?_, h⟩, fun h => h.2⟩
          rintro rfl
          exact hcontains h
      rw [hpeers]
      by_cases hqs : q = stale
      · rw [hqs]
        exact ⟨fun h => absurd rfl h.1, fun h => absurd h hstale⟩
      · rw [and_iff_right hqs, hs.established q]
        exact (hother q hqs hqn).symm
    · intro e he q b hlife
      rcases List.mem_append.mp he with he | he
      · exact hs.reported e (List.mem_append_left _ he) q b hlife
      · obtain ⟨e', he', rfl⟩ := List.mem_map.mp he
        rw [SwarmEvent.lifecycle?_migrate, Option.map_eq_some_iff] at hlife
        obtain ⟨⟨q', b'⟩, hlife', hx⟩ := hlife
        simp only [Prod.mk.injEq] at hx
        obtain ⟨hq, -⟩ := hx
        by_cases hqs : q' = stale
        · rw [if_pos hqs] at hq
          exact hq ▸ hnew
        · rw [if_neg hqs] at hq
          exact hq ▸ hs.reported e' (List.mem_append_right _ he') q' b' hlife'

theorem detach (hs : Truthful calls polled s) {c : ConnectionId}
    (hsurfaced : ∀ p : PeerId, s.peerToConn[p]? = some c → p ∈ s.establishedPeers) :
    Truthful calls polled (s.detach c) := by
  rcases detach_cases s c with ⟨p, -, hprimary, heq⟩ | ⟨-, heq⟩
  · rw [heq]
    -- the peer that closes was surfaced, so the log has it open
    have hopen : Open p (polled ++ s.events) := (hs.established p).mp (hsurfaced p hprimary)
    constructor
    · show Lawful (polled ++ (s.events ++ [.connectionClosed p]))
      rw [← List.append_assoc, lawful_concat]
      refine ⟨hs.lawful, ?_⟩
      intro q hq
      obtain rfl : p = q := SwarmEvent.connectionClosed.inj hq
      exact hopen
    · intro q
      show q ∈ s.establishedPeers.erase p ↔
        Open q (polled ++ (s.events ++ [.connectionClosed p]))
      rw [← List.append_assoc, open_concat, BTreeSet.mem_erase_iff, hs.established q]
      simp [eq_comm]
    · refine reported_concat hs.reported ?_
      intro q b hlife
      obtain rfl : p = q := congrArg Prod.fst (Option.some.inj hlife)
      -- the establishment that opened the peer was reported
      exact hs.reported _ hopen.mem p true rfl
  · rw [heq]
    exact hs.same rfl rfl

end Truthful

omit [MultihashCodec] in
theorem Move.truthful (h : Move s₀ call s s') (hcall : Surfaced polled s₀ call)
    (hs : Truthful (calls ++ [call]) polled s) : Truthful (calls ++ [call]) polled s' := by
  have hreported : ∀ {c : ConnectionId} {p : PeerId}, call.ConnectsAs c p ∨ call.VerifiesAs c p →
      Reported (calls ++ [call]) p := by
    intro c p h
    exact ⟨call, List.mem_append_right _ List.mem_cons_self, c, h⟩
  cases h with
  | register c p hconnects => exact hs.register (hreported (.inl hconnects)) c
  | rebind c p hverifies hne hagrees =>
    refine hs.rebind (hreported (.inr hverifies)) hne ?_
    obtain ⟨endpoint, previous, nowMs, rfl, hendpoint⟩ := hverifies
    intro stale hstale
    have hsp : stale ≠ p := by
      rintro rfl
      exact hne hstale
    rw [hagrees.events]
    exact hcall p hendpoint stale (hagrees.connToPeer ▸ hstale) hsp
  | close c hcloses hagrees =>
    refine hs.detach ?_
    obtain ⟨nowMs, rfl⟩ := Call.exists_of_closes? hcloses
    rw [hagrees.peerToConn, hagrees.establishedPeers]
    exact hcall
  | openStream p c protocolId target hp =>
    simp only [queueOpenProtocolStream, requireConn, hp]
    exact hs.same rfl rfl
  | event e hplain => exact hs.pushEvent hplain
  | _ => exact hs.same rfl rfl

theorem step_truthful (hs₀ : Coherent calls s₀) (hcontract : TransportContract calls call)
    (hcall : Surfaced polled s₀ call) (hs : Truthful calls polled s₀) :
    Truthful (calls ++ [call]) (polled ++ polledBy s₀ call) (step s₀ call) := by
  by_cases hpoll : call = .pollOutput
  · have hlog : (polled ++ polledBy s₀ call) ++ (step s₀ call).events = polled ++ s₀.events := by
      rw [List.append_assoc, hpoll]
      exact congrArg (polled ++ ·) (polledBy_append s₀)
    have hpeers : (step s₀ call).establishedPeers = s₀.establishedPeers := by
      obtain ⟨events, actions, heq⟩ := pollOutput_eq s₀
      rw [hpoll, step, heq]
    constructor
    · rw [hlog]
      exact hs.lawful
    · rw [hlog, hpeers]
      exact hs.established
    · rw [hlog]
      exact hs.concat.reported
  · have hquiet : polledBy s₀ call = [] := by
      cases call <;> first | rfl | exact absurd rfl hpoll
    rw [hquiet, List.append_nil]
    exact Runs.keeps_of_chain (J := Truthful (calls ++ [call]) polled)
      (step_moves hs₀ hcontract hpoll) (fun _ _ hmove => hmove.truthful hcall) hs.concat

/-- In every contract run in which peers are surfaced and rebound as the application can follow,
every reported close is the close of an open peer, `connected_peers` is the set of open peers, and
lifecycle events name peers that the transport reported. -/
theorem lifecycle_of_surfaced (identifyConfig : Identify.IdentifyConfig)
    (pingConfig : Ping.PingConfig) (calls : List Call)
    (hrun : Runs.EachStep (fun before call => TransportContract before call ∧
      Surfaced (polledEvents (SwarmCore.new identifyConfig pingConfig) before)
        (run (SwarmCore.new identifyConfig pingConfig) before) call) [] calls) :
    Lawful (emittedEvents (SwarmCore.new identifyConfig pingConfig) calls) ∧
      (∀ p, p ∈ (run (SwarmCore.new identifyConfig pingConfig) calls).connectedPeers ↔
        Open p (emittedEvents (SwarmCore.new identifyConfig pingConfig) calls)) ∧
      ∀ e ∈ emittedEvents (SwarmCore.new identifyConfig pingConfig) calls, ∀ p b,
        e.lifecycle? = some (p, b) → Reported calls p := by
  have htruthful : Truthful calls (polledEvents (SwarmCore.new identifyConfig pingConfig) calls)
      (run (SwarmCore.new identifyConfig pingConfig) calls) := by
    refine run_invariant identifyConfig pingConfig
      (I := fun calls s =>
        Truthful calls (polledEvents (SwarmCore.new identifyConfig pingConfig) calls) s) hrun ?_ ?_
    · refine ⟨lawful_nil, ?_, ?_⟩
      · intro p
        refine ⟨?_, fun h => absurd h not_open_nil⟩
        intro h
        simp [SwarmCore.new] at h
      · intro e he
        cases he
    · rintro before call s rfl hcoherent hcontract hsurfaced hs
      rw [polledEvents_concat]
      exact step_truthful hcoherent hcontract hsurfaced hs
  refine ⟨htruthful.lawful, ?_, htruthful.reported⟩
  intro p
  rw [connectedPeers, Std.ExtTreeSet.mem_toList]
  exact htruthful.established p

end Runs

/-! ## Concrete runs -/

/-- Alice's connection is identified late and closes after the application has heard of it. -/
def lateCloseRun : List Call :=
  [.event (.connected ⟨1⟩ (Sample.endpoint none)),
    .event (.peerIdentityVerified ⟨1⟩ (Sample.endpoint (some Sample.alice)) none), .pollOutput,
    .pollOutput, .event (.closed ⟨1⟩)]

theorem lateCloseRun_lifecycle :
    @emittedEvents Sample.sha256 multihashCodec Sample.core lateCloseRun =
        [.connectionEstablished Sample.alice, .connectionClosed Sample.alice] ∧
      Lawful (@emittedEvents Sample.sha256 multihashCodec Sample.core lateCloseRun) := by
  refine ⟨by decide +kernel,
    (@lifecycle_of_surfaced Sample.sha256 multihashCodec _ _ lateCloseRun ?_).1⟩
  refine ⟨⟨by decide, trivial⟩, ⟨by decide, ?_⟩, ⟨by decide, trivial⟩, ⟨by decide, trivial⟩,
    ⟨by decide, ?_⟩, trivial⟩
  · -- nothing has been emitted when the placeholder is replaced
    have hqueue : (Sample.run (lateCloseRun.take 1)).events = [] := by decide
    intro new _ stale _ _
    refine ⟨not_open_nil, ?_⟩
    show .connectionClosed stale ∉ (Sample.run (lateCloseRun.take 1)).events
    rw [hqueue]
    exact List.not_mem_nil
  · intro p hp
    have hcoherent := @coherent_run Sample.sha256 multihashCodec (lateCloseRun.take 4)
      { protocolVersion := "ipfs/0.1.0", agentVersion := "minip2p/0.1.0", protocols := [],
        publicKey := [] } default (by decide)
    have hpeer := hcoherent.primary p ⟨1⟩ hp
    have halice : (Sample.run (lateCloseRun.take 4)).connToPeer[(⟨1⟩ : ConnectionId)]? =
        some Sample.alice := by
      decide +kernel
    obtain rfl : Sample.alice = p := Option.some.inj (halice.symm.trans hpeer)
    decide +kernel

/-- A connection closes before its peer is known. -/
def anonymousCloseRun : List Call :=
  [.event (.connected ⟨1⟩ (Sample.endpoint none)), .event (.closed ⟨1⟩)]

/-- The placeholder, which was never established, is reported as closed. -/
theorem anonymousCloseRun_not_lawful :
    ContractRun anonymousCloseRun ∧
      @emittedEvents Sample.sha256 multihashCodec Sample.core anonymousCloseRun =
        [.connectionClosed (@syntheticPeerId Sample.sha256 ⟨1⟩)] ∧
      ¬ Lawful (@emittedEvents Sample.sha256 multihashCodec Sample.core anonymousCloseRun) := by
  have hevents : @emittedEvents Sample.sha256 multihashCodec Sample.core anonymousCloseRun =
      [.connectionClosed (@syntheticPeerId Sample.sha256 ⟨1⟩)] := by
    decide +kernel
  refine ⟨by decide, hevents, ?_⟩
  rw [hevents]
  intro h
  exact not_open_nil (h (@syntheticPeerId Sample.sha256 ⟨1⟩) [] [] rfl)

end Minip2p.Swarm
