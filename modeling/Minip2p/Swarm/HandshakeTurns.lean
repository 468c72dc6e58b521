import Minip2p.Swarm.Handshake
import Minip2p.Swarm.Lifecycle
import Minip2p.Swarm.StepTurns

/-!
# Turns of a handshake run

What every turn keeps, in states in which the connection maps are mutually inverse, holds all along
a run of a transport that identifies its peers in the handshake. The invariant may speak of the
events emitted so far, polled or not: a poll changes neither them nor the tables.
-/

namespace Minip2p.Swarm

open SwarmCore

section Turns

variable [Sha256] {s₀ s s' : SwarmCore} {call : Call}

omit [Sha256] in
/-- The connection maps of one state are those of another. -/
theorem Inverse.same (hs : Inverse s) (hconn : s'.connToPeer = s.connToPeer)
    (hpeer : s'.peerToConn = s.peerToConn) : Inverse s' := by
  intro p c
  rw [hconn, hpeer]
  exact hs p c

theorem Turn.inverse (h : Turn s₀ call s s') (hclash : NoClash s₀ call) (hs : Inverse s) :
    Inverse s' := by
  obtain ⟨hprimary, hunique⟩ := inverse_iff.mp hs
  -- a turn that files or forgets a connection is a move
  have hmove : ∀ {t : SwarmCore}, Move s₀ call s t → Inverse t :=
    fun hmove => inverse_iff.mpr ⟨hmove.primary hprimary, hmove.unique hclash hprimary hunique⟩
  cases h with
  | placeholder c hneeds hnew hconn hpeer => exact hmove (.placeholder c hneeds hnew hconn hpeer)
  | register c p hcall hnew hagrees => exact hmove (.register c p hcall hnew hagrees)
  | rebind c p hcall hne hagrees =>
    have htables := tables_oblivious.tryEmitPeerReady ((s.migrateFrom c p).attach c p) p
    exact (hmove (.rebind c p hcall hne hagrees)).same htables.connToPeer htables.peerToConn
  | close c hcall hagrees => exact hmove (.close c hcall hagrees)
  | ask p c protocolId target hcall hp =>
    simp only [queueOpenProtocolStream, requireConn, hp]
    exact hs.same rfl rfl
  | received k p info =>
    have htables := tables_oblivious.handleIdentifyOutput s (.event (.received p info))
    exact hs.same htables.connToPeer htables.peerToConn
  | _ => exact hs.same rfl rfl

end Turns

variable [Sha256] [MultihashCodec]

/-- The induction over the turns of a handshake run. -/
theorem handshake_turns (hsha : NoCollision) (identifyConfig : Identify.IdentifyConfig)
    (pingConfig : Ping.PingConfig) {calls : List Call} {J : List SwarmEvent → SwarmCore → Prop}
    (hrun : HandshakeRun calls) (hnew : J [] (SwarmCore.new identifyConfig pingConfig))
    (hqueues : ∀ log s events actions, J log s →
      J log { s with events := events, actions := actions })
    (hturn : ∀ {s₀ call s s' polled}, Turn s₀ call s s' → Identifies s₀ call → Inverse s →
      NoClash s₀ call → J (polled ++ s.events) s → J (polled ++ s'.events) s') :
    J (emittedEvents (SwarmCore.new identifyConfig pingConfig) calls)
      (run (SwarmCore.new identifyConfig pingConfig) calls) := by
  refine (handshake_invariant hsha identifyConfig pingConfig
    (I := fun calls s => J (polledEvents (SwarmCore.new identifyConfig pingConfig) calls ++
      s.events) s) hrun hnew ?_).2
  rintro before call s rfl hcoherent hrepresented hcontract hidentifies hclash hJ
  rw [polledEvents_concat]
  by_cases hpoll : call = .pollOutput
  · -- the log stays, an event of it has been handed over
    obtain ⟨events, actions, heq⟩ :=
      pollOutput_eq (run (SwarmCore.new identifyConfig pingConfig) before)
    rw [hpoll, List.append_assoc, step, polledBy_append, heq]
    exact hqueues _ _ _ _ hJ
  · have hquiet : polledBy (run (SwarmCore.new identifyConfig pingConfig) before) call = [] := by
      cases call <;> first | rfl | exact absurd rfl hpoll
    rw [hquiet, List.append_nil]
    have hinverse := inverse_iff.mpr ⟨hcoherent.primary, hrepresented.unique⟩
    refine (Runs.keeps_of_chain (J := fun t => Inverse t ∧
      J (polledEvents (SwarmCore.new identifyConfig pingConfig) before ++ t.events) t)
      (step_turns hcoherent hcontract hpoll) ?_ ⟨hinverse, hJ⟩).2
    rintro t t' h ⟨ht, hJt⟩
    exact ⟨h.inverse hclash ht, hturn h hidentifies ht hclash hJt⟩

end Minip2p.Swarm
