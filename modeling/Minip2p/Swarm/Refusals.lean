import Minip2p.Identify.Theorems
import Minip2p.Ping.Theorems
import Minip2p.Swarm.Core

/-!
# A call that fails changes nothing

The methods of the application check before they act, and where they ask ping they keep what ping
refused to change. So an error leaves the whole core as it was, and the same holds of the two
machines inside it.
-/

namespace Minip2p.Swarm

namespace SwarmCore

variable {s : SwarmCore} {p : PeerId} {e : SwarmError}

theorem requireConn_eq_error_iff :
    s.requireConn p = .error e ↔ s.peerToConn[p]? = none ∧ e = .notConnected p := by
  unfold requireConn
  cases s.peerToConn[p]? with
  | none => simp [eq_comm]
  | some c => simp

/-- An open is refused only for a peer without a connection. -/
theorem queueOpenProtocolStream_eq_error {protocolId : String} {target : ProtocolKind}
    (h : (s.queueOpenProtocolStream p protocolId target).2 = .error e) :
    s.peerToConn[p]? = none ∧ (s.queueOpenProtocolStream p protocolId target).1 = s := by
  unfold queueOpenProtocolStream at h ⊢
  split
  · next e' hconn => exact ⟨(requireConn_eq_error_iff.mp hconn).1, rfl⟩
  · next c hconn =>
    rw [hconn] at h
    cases h

theorem openUserStream_refused {protocolId : String}
    (h : (s.openUserStream p protocolId).2 = .error e) : (s.openUserStream p protocolId).1 = s := by
  unfold openUserStream at h ⊢
  split_ifs at h ⊢ with hregistered hconnected hsupported
  · rfl
  · exact (queueOpenProtocolStream_eq_error h).2
  · rfl
  · rfl

theorem userStreamAction_refused {t : StreamId} {action : ConnectionId → SwarmAction}
    (h : (s.userStreamAction p t action).2 = .error e) :
    (s.userStreamAction p t action).1 = s := by
  unfold userStreamAction at h ⊢
  split
  · next hconn =>
    rw [hconn] at h
    cases h
  · rfl

theorem disconnect_refused (h : (s.disconnect p).2 = .error e) : (s.disconnect p).1 = s := by
  unfold disconnect at h ⊢
  split
  · next hconn =>
    rw [hconn] at h
    cases h
  · rfl

theorem pingPeer_refused [MultihashCodec] {payload : Ping.Payload} {nowMs : UInt64}
    (h : (s.pingPeer p payload nowMs).2 = .error e) : (s.pingPeer p payload nowMs).1 = s := by
  unfold pingPeer at h ⊢
  dsimp only at h ⊢
  by_cases hconnected : s.peerToConn.contains p
  · rw [if_neg (not_not.mpr hconnected)] at h ⊢
    by_cases hstream : (s.findNegotiatedPingStream p).isSome
    · rw [if_pos hstream] at h ⊢
      split at h
      · cases h
      · next ping error hsend =>
        -- ping refused, and is what it was before
        have hping : ping = s.ping := by
          have hsame := Ping.PingProtocol.handleInput_refused (congrArg Prod.snd hsend)
          rw [hsend] at hsame
          exact hsame
        rw [hping]
    · rw [if_neg hstream] at h ⊢
      split at h
      · cases h
      · -- the payload is stored by now, but the open cannot fail for a connected peer
        have hnone := (queueOpenProtocolStream_eq_error h).1
        rw [Std.ExtTreeMap.contains_eq_isSome_getElem?, hnone] at hconnected
        cases hconnected
  · rw [if_pos hconnected]

/-- In any state, a call of the application that returns an error leaves every field as it was, the
two machines and both queues among them; and an input that either machine refuses leaves that
machine as it was. -/
theorem refused_unchanged [MultihashCodec] (s : SwarmCore) (p : PeerId) :
    (∀ payload nowMs e, (s.pingPeer p payload nowMs).2 = .error e →
      (s.pingPeer p payload nowMs).1 = s) ∧
    (∀ protocolId e, (s.openUserStream p protocolId).2 = .error e →
      (s.openUserStream p protocolId).1 = s) ∧
    (∀ t data e, (s.sendUserStream p t data).2 = .error e → (s.sendUserStream p t data).1 = s) ∧
    (∀ t e, (s.closeUserStreamWrite p t).2 = .error e → (s.closeUserStreamWrite p t).1 = s) ∧
    (∀ t e, (s.resetUserStream p t).2 = .error e → (s.resetUserStream p t).1 = s) ∧
    (∀ e, (s.disconnect p).2 = .error e → (s.disconnect p).1 = s) ∧
    (∀ (ping : Ping.PingProtocol) input e, (ping.handleInput input).2 = .error e →
      (ping.handleInput input).1 = ping) ∧
    (∀ (identify : Identify.IdentifyProtocol) input e, (identify.handleInput input).2 = .error e →
      (identify.handleInput input).1 = identify) :=
  ⟨fun _ _ _ => pingPeer_refused, fun _ _ => openUserStream_refused,
    fun _ _ _ => userStreamAction_refused, fun _ _ => userStreamAction_refused,
    fun _ _ => userStreamAction_refused, fun _ => disconnect_refused,
    fun _ _ _ => Ping.PingProtocol.handleInput_refused,
    fun _ _ _ => Identify.IdentifyProtocol.handleInput_refused⟩

end SwarmCore

end Minip2p.Swarm
