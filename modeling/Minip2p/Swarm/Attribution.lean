import Minip2p.Swarm.Handshake
import Minip2p.Swarm.Lifecycle
import Minip2p.Swarm.Superseded

/-!
# Whom the events of a handshake run name

In a handshake run a connection is tracked under a peer that the transport reported, and so are the
peers that the application hears of as established or as the owners of user streams. The exception
are connections that were superseded: a stream of such a connection may bring it back, under its
placeholder.
-/

namespace Minip2p.Swarm

open SwarmCore

variable [Sha256] [MultihashCodec] {core s₀ s s' : SwarmCore} {call : Call} {calls : List Call}
  {polled : List SwarmEvent}

/-- Tracked connections, established peers and user streams belong to peers that the transport
reported, or to placeholders of superseded connections, which are never established. -/
structure Attributed (core : SwarmCore) (calls : List Call) (polled : List SwarmEvent)
    (s : SwarmCore) : Prop where
  tracked : ∀ (c : ConnectionId) (p : PeerId), s.connToPeer[c]? = some p →
    (p = syntheticPeerId c ∧ Superseded core calls c) ∨ Reported calls p
  established : ∀ p, .connectionEstablished p ∈ polled ++ s.events → Reported calls p
  userStreams : ∀ e ∈ polled ++ s.events, ∀ p t, e.userStream? = some (p, t) →
    (∃ c, p = syntheticPeerId c ∧ Superseded core calls c) ∨ Reported calls p

namespace Attributed

theorem concat (hs : Attributed core calls polled s) : Attributed core (calls ++ [call]) polled s where
  tracked c p hp := (hs.tracked c p hp).imp (And.imp_right Superseded.concat) Reported.concat
  established p hp := (hs.established p hp).concat
  userStreams e he p t ht := (hs.userStreams e he p t ht).imp
    (fun ⟨c, hc, hsuperseded⟩ => ⟨c, hc, hsuperseded.concat⟩) Reported.concat

/-- Nothing was said, and no further connection is tracked. -/
theorem shrink (hs : Attributed core calls polled s) (hevents : s'.events = s.events)
    (hconn : ∀ (c : ConnectionId) (p : PeerId), s'.connToPeer[c]? = some p →
      s.connToPeer[c]? = some p) : Attributed core calls polled s' := by
  constructor
  · exact fun c p hp => hs.tracked c p (hconn c p hp)
  · rw [hevents]
    exact hs.established
  · rw [hevents]
    exact hs.userStreams

theorem same (hs : Attributed core calls polled s) (hevents : s'.events = s.events)
    (hconn : s'.connToPeer = s.connToPeer) : Attributed core calls polled s' :=
  hs.shrink hevents fun _ _ hp => hconn ▸ hp

/-- A connection gets a name. -/
theorem insert (hs : Attributed core calls polled s) {c : ConnectionId} {p : PeerId}
    (hp : (p = syntheticPeerId c ∧ Superseded core calls c) ∨ Reported calls p)
    (hevents : s'.events = s.events)
    (hconn : s'.connToPeer = s.connToPeer.insert c p) : Attributed core calls polled s' := by
  constructor
  · intro d q hq
    rw [hconn] at hq
    rcases BTreeMap.getElem?_insert_eq_some_iff.mp hq with ⟨rfl, rfl⟩ | ⟨-, hold⟩
    · exact hp
    · exact hs.tracked d q hold
  · rw [hevents]
    exact hs.established
  · rw [hevents]
    exact hs.userStreams

theorem pushEvent (hs : Attributed core calls polled s) {e : SwarmEvent}
    (hestablished : ∀ p, e = .connectionEstablished p → Reported calls p)
    (huser : ∀ p t, e.userStream? = some (p, t) →
      (∃ c, p = syntheticPeerId c ∧ Superseded core calls c) ∨ Reported calls p) :
    Attributed core calls polled (s.pushEvent e) := by
  refine ⟨hs.tracked, fun p hp => ?_, fun x hx p t ht => ?_⟩
  · rw [show (s.pushEvent e).events = s.events ++ [e] from rfl, ← List.append_assoc] at hp
    rcases List.mem_append.mp hp with hold | hnew
    · exact hs.established p hold
    · exact hestablished p (List.mem_singleton.mp hnew).symm
  · rw [show (s.pushEvent e).events = s.events ++ [e] from rfl, ← List.append_assoc] at hx
    rcases List.mem_append.mp hx with hold | hnew
    · exact hs.userStreams x hold p t ht
    · rw [List.mem_singleton.mp hnew] at ht
      exact huser p t ht

theorem yieldTo (hs : Attributed core calls polled s) (c : ConnectionId) (p : PeerId) :
    Attributed core calls polled (s.yieldTo c p) := by
  refine hs.shrink (yieldTo_events s c p) fun d q hq => ?_
  rcases yieldTo_cases s c p with ⟨heq, -⟩ | ⟨old, -, -, heq⟩
  · rw [heq] at hq
    exact hq
  · rw [heq] at hq
    exact (BTreeMap.getElem?_erase_eq_some_iff.mp hq).2

theorem attach (hs : Attributed core calls polled s) (c : ConnectionId) {p : PeerId}
    (hp : Reported calls p) : Attributed core calls polled (s.attach c p) := by
  have hnamed : Attributed core calls polled { s with
      connToPeer := s.connToPeer.insert c p, peerToConn := s.peerToConn.insert p c } :=
    hs.insert (.inr hp) rfl rfl
  refine (hnamed.pushEvent (e := .connectionEstablished p) ?_ ?_).same rfl rfl
  · rintro _ ⟨⟩
    exact hp
  · rintro _ _ ⟨⟩

theorem detach (hs : Attributed core calls polled s) (c : ConnectionId) :
    Attributed core calls polled (s.detach c) := by
  have hwithout : Attributed core calls polled (s.withoutConn c) :=
    hs.shrink rfl fun d q hq => (BTreeMap.getElem?_erase_eq_some_iff.mp hq).2
  rcases detach_cases s c with ⟨p, -, -, heq⟩ | ⟨-, heq⟩
  · rw [heq]
    refine (hwithout.pushEvent (e := .connectionClosed p) ?_ ?_).same rfl rfl
    · rintro _ ⟨⟩
    · rintro _ _ ⟨⟩
  · rw [heq]
    exact hwithout

end Attributed

theorem Move.attributed (h : Move s₀ call s s') (hcall : Identifies s₀ call)
    (hplaceholder : ∀ c, call.NeedsPlaceholder s₀ c → s₀.connToPeer[c]? = none →
      Superseded core (calls ++ [call]) c)
    (hs : Attributed core (calls ++ [call]) polled s) :
    Attributed core (calls ++ [call]) polled s' := by
  cases h with
  | placeholder c hneeds hnew hconn =>
    rw [hconn] at hnew
    exact hs.insert (.inl ⟨rfl, hplaceholder c hneeds hnew⟩) rfl rfl
  | register c p hconnects =>
    exact (hs.yieldTo c p).attach c
      ⟨call, List.mem_append_right _ List.mem_cons_self, c, .inl hconnects⟩
  | rebind c p hverifies hne hagrees =>
    exact absurd (hcall.bound hverifies hagrees) hne
  | close c => exact hs.detach c
  | openStream p c protocolId target hp =>
    simp only [queueOpenProtocolStream, requireConn, hp]
    exact hs.same rfl rfl
  | event e hplain hcause huser =>
    refine hs.pushEvent ?_ fun p t ht => ?_
    · rintro p rfl
      cases hplain
    · -- the owner of the stream is the peer of its connection
      obtain ⟨c, -, hp⟩ := huser p t ht
      exact (hs.tracked c p hp).imp_left fun hsynthetic => ⟨c, hsynthetic⟩
  | _ => exact hs.same rfl rfl

theorem step_attributed (hs₀ : Coherent calls s₀) (hcontract : TransportContract calls call)
    (hcall : Identifies s₀ call)
    (hplaceholder : ∀ c, call.NeedsPlaceholder s₀ c → s₀.connToPeer[c]? = none →
      Superseded core (calls ++ [call]) c)
    (hs : Attributed core calls polled s₀) :
    Attributed core (calls ++ [call]) (polled ++ polledBy s₀ call) (step s₀ call) := by
  by_cases hpoll : call = .pollOutput
  · have hlog : (polled ++ polledBy s₀ call) ++ (step s₀ call).events = polled ++ s₀.events := by
      rw [List.append_assoc, hpoll]
      exact congrArg (polled ++ ·) (polledBy_append s₀)
    have hconn : (step s₀ call).connToPeer = s₀.connToPeer := by
      obtain ⟨events, actions, heq⟩ := pollOutput_eq s₀
      rw [hpoll, step, heq]
    constructor
    · rw [hconn]
      exact hs.concat.tracked
    · rw [hlog]
      exact hs.concat.established
    · rw [hlog]
      exact hs.concat.userStreams
  · have hquiet : polledBy s₀ call = [] := by
      cases call <;> first | rfl | exact absurd rfl hpoll
    rw [hquiet, List.append_nil]
    exact Runs.keeps_of_chain (J := Attributed core (calls ++ [call]) polled)
      (step_moves hs₀ hcontract hpoll) (fun _ _ hmove => hmove.attributed hcall hplaceholder)
      hs.concat

/-! ## Connections that are no longer tracked -/

omit [Sha256] [MultihashCodec] in
/-- The call that reports a connection as connected. -/
theorem Call.exists_of_connects? {c : ConnectionId} (h : call.connects? = some c) :
    ∃ endpoint nowMs, call = .input (.transport (.connected c endpoint) nowMs) := by
  rcases call with (⟨event, nowMs⟩ | _ | _ | _ | _) | _
  case input.transport =>
    cases event with
    | connected d endpoint =>
      obtain rfl : d = c := Option.some.inj h
      exact ⟨endpoint, nowMs, rfl⟩
    | _ => cases h
  all_goals cases h

/-- What the transport has connected is tracked until it closes, unless it was superseded. -/
def Retained (core : SwarmCore) (calls : List Call) (s : SwarmCore) : Prop :=
  ∀ c, Connected calls c → Closed calls c ∨ c ∈ s.connToPeer ∨ Superseded core calls c

theorem step_retained (hs₀ : Coherent calls (run core calls))
    (hcontract : TransportContract calls call) (hidentity : HandshakeIdentity calls call)
    (hs : Retained core calls (run core calls)) :
    Retained core (calls ++ [call]) (step (run core calls) call) := by
  rintro c ⟨connects, hmem, hconnects⟩
  rcases List.mem_append.mp hmem with hbefore | hlast
  · rcases hs c ⟨connects, hbefore, hconnects⟩ with ⟨closes, hcloses, hc⟩ | htracked | hsuperseded
    · exact .inl ⟨closes, List.mem_append_left _ hcloses, hc⟩
    · by_cases hcloses : call.closes? = some c
      · exact .inl ⟨call, List.mem_append_right _ List.mem_cons_self, hcloses⟩
      by_cases hsupersedes : Supersedes (run core calls) call c
      · exact .inr (.inr hsupersedes.superseded)
      · exact .inr (.inl (step_tracked hs₀ hcontract hcloses hsupersedes htracked))
    · exact .inr (.inr hsuperseded.concat)
  · obtain rfl := List.mem_singleton.mp hlast
    obtain ⟨endpoint, nowMs, rfl⟩ := Call.exists_of_connects? hconnects
    obtain ⟨p, hp, -⟩ := hidentity
    right
    left
    rw [step_connToPeer_of_connectsAs hs₀ hcontract ⟨endpoint, nowMs, rfl, hp⟩]
    exact BTreeMap.mem_insert_iff.mpr (.inl rfl)

/-- A connection that gets a placeholder was superseded. -/
theorem Retained.superseded_of_needsPlaceholder (hs : Retained core calls s)
    (hcontract : TransportContract calls call) (hidentity : HandshakeIdentity calls call)
    {c : ConnectionId} (hneeds : call.NeedsPlaceholder s c) (hnew : s.connToPeer[c]? = none) :
    Superseded core (calls ++ [call]) c := by
  rcases hneeds with ⟨endpoint, nowMs, rfl, hnone⟩ | ⟨t, data, nowMs, rfl, -⟩
  · obtain ⟨p, hp, -⟩ := hidentity
    rw [hnone] at hp
    cases hp
  · rcases hs c hcontract.1 with hclosed | htracked | hsuperseded
    · exact absurd hclosed hcontract.2
    · rw [Std.ExtTreeMap.mem_iff_isSome_getElem?, hnew] at htracked
      cases htracked
    · exact hsuperseded.concat

/-- In a handshake run the application hears of peers that the transport reported, and of
placeholders of superseded connections. -/
theorem attributed_of_handshake (identifyConfig : Identify.IdentifyConfig)
    (pingConfig : Ping.PingConfig) (hrun : HandshakeRun calls) :
    Attributed (SwarmCore.new identifyConfig pingConfig) calls
      (polledEvents (SwarmCore.new identifyConfig pingConfig) calls)
      (run (SwarmCore.new identifyConfig pingConfig) calls) := by
  refine (run_invariant identifyConfig pingConfig
    (I := fun calls s => Latest calls s ∧
      Retained (SwarmCore.new identifyConfig pingConfig) calls s ∧
      Attributed (SwarmCore.new identifyConfig pingConfig) calls
        (polledEvents (SwarmCore.new identifyConfig pingConfig) calls) s)
    hrun ⟨?_, ?_, ?_, ?_, ?_⟩ ?_).2.2
  · intro c endpoint p hlast
    cases hlast
  · rintro c ⟨call, hmem, -⟩
    cases hmem
  · intro c p hp
    simp [SwarmCore.new] at hp
  · rintro p ⟨⟩
  · rintro e ⟨⟩
  · rintro before call s rfl hcoherent hcontract hidentity ⟨hlatest, hretained, hs⟩
    rw [polledEvents_concat]
    exact ⟨step_latest hcoherent hcontract hlatest,
      step_retained hcoherent hcontract hidentity hretained,
      step_attributed hcoherent hcontract (identifies_of_handshake hlatest hidentity)
        (fun _ => hretained.superseded_of_needsPlaceholder hcontract hidentity) hs⟩

end Minip2p.Swarm
