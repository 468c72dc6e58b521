import Minip2p.Swarm.ClosedConnections
import Minip2p.Swarm.PingQueue

/-!
# A ping that outlives its connection

The payload that waits for a peer stays with the connection that asked for the ping stream: until
the stream is ready, or is no request any more, no call but another ping to the peer takes or
replaces it.
-/

namespace Minip2p.Swarm

open Ping (Payload PingProtocol)
open SwarmCore

/-- The ping is for the peer of `c`. -/
def Call.PingsOn (s : SwarmCore) (c : ConnectionId) : Call → Prop
  | .ping p _ _ => s.peerToConn[p]? = some c
  | _ => False

/-- What a call makes of the ping stream asked for on `c`. -/
inductive PingStep (c : ConnectionId) (s s' : SwarmCore) : Prop
  -- the payload goes on waiting
  | kept (h : PingKept c (fun p => s.connToPeer[c]? = some p) s s')
  -- the stream is ready, or has gone with the connection
  | settled (hping : s.ping.Continues s'.ping)
      (hnone : s'.pingOpens c + s'.pingNegotiators c = 0)

theorem PingStep.ping {c : ConnectionId} {s s' : SwarmCore} (h : PingStep c s s') :
    s.ping.Continues s'.ping := by
  cases h with
  | kept h => exact h.ping
  | settled hping => exact hping

section Steps

variable [Sha256] [MultihashCodec] {c : ConnectionId} {s : SwarmCore} {calls : List Call}
  {call : Call}

/-! ## One call -/

omit [Sha256] [MultihashCodec] in
/-- What is left alone for other peers is left alone for the peer of another connection. -/
theorem PingKept.other {s' : SwarmCore} (hunique : Unique s) {q : PeerId}
    (h : PingKept c (· ≠ q) s s') (hq : s.peerToConn[q]? ≠ some c) :
    PingKept c (fun p => s.connToPeer[c]? = some p) s s' := by
  refine ⟨h.ping, fun p hp => h.payload p ?_, h.requests⟩
  rintro rfl
  exact hq (hunique c p hp)

/-- The one ping stream of `c` may become ready. -/
theorem feedOutboundNegotiator_step (hcoherent : Coherent calls s) (hunique : Unique s)
    (hsingle : SinglePing s) (k : StreamKey) (data : Bytes) (nowMs : UInt64) :
    PingStep c s (s.feedOutboundNegotiator k data nowMs) := by
  by_cases hk : k ∈ s.outboundNegotiators
  · obtain ⟨q, hq⟩ := BTreeMap.exists_getElem?_of_mem (hcoherent.outboundTracked k hk)
    rcases feedOutboundNegotiator_pings s hq data nowMs with h | ⟨pending, hpending, htarget, h⟩
    · exact .kept h
    · by_cases hc : k.conn = c
      · -- the negotiator was the one request
        refine .settled h.ping ?_
        have hle := hsingle.single k.conn q hq
        have hrequests := h.requests
        have htake := BTreeMap.countEntries_erase_of_pos
          (f := fun key pending => decide (key.conn = c ∧ pending.target = .ping)) hpending
          (by simp [hc, htarget])
        rw [hc] at hle
        unfold pingSlots at hle
        unfold pingNegotiators pingOpens at *
        dsimp only at hrequests
        omega
      · apply PingStep.kept
        refine PingKept.other hunique ?_ (q := q) ?_
        · refine PingKept.trans ?_ h
          exact .negotiators rfl rfl rfl BTreeMap.countEntries_erase_le
        · intro hp
          rw [hunique k.conn q hq] at hp
          exact hc (Option.some.inj hp)
  · unfold feedOutboundNegotiator
    rw [Std.ExtTreeMap.getElem?_eq_none hk]
    exact .kept .rfl

theorem handleStreamData_step (hcoherent : Coherent calls s) (hunique : Unique s)
    (hsingle : SinglePing s) (k : StreamKey) (data : Bytes) (nowMs : UInt64) :
    PingStep c s (s.handleStreamData k data nowMs) := by
  unfold handleStreamData
  split
  · exact .kept (feedInboundNegotiator_pings s k data nowMs)
  · split
    · exact feedOutboundNegotiator_step hcoherent hunique hsingle k data nowMs
    · exact .kept (dispatchProtocolData_pings s k data nowMs)

theorem handleTransportEvent_step (hcoherent : Coherent calls s) (hunique : Unique s)
    (hsingle : SinglePing s) {event : TransportEvent} {nowMs : UInt64}
    (hcall : Identifies s (.input (.transport event nowMs)))
    (hconnects : (Call.input (.transport event nowMs)).connects? ≠ some c) :
    PingStep c s (s.handleTransportEvent event nowMs) := by
  have hlocate : ∀ (active : BTreeMap ConnectionId Bool) (addrs : BTreeMap ConnectionId Multiaddr),
      PingKept c (fun p => s.connToPeer[c]? = some p) s
        { s with activeConnections := active, connToRemoteAddr := addrs } :=
    fun _ _ => .same rfl rfl rfl rfl
  cases event with
  | connected d endpoint =>
    have hd : d ≠ c := fun h => hconnects (congrArg some h)
    apply PingStep.kept
    simp only [handleTransportEvent]
    cases endpoint.peerId with
    | none => exact (hlocate _ _).trans (ensurePeerIdForConn_pings _ d)
    | some q =>
      refine (hlocate _ _).trans (registerConnection_pings ?_ ?_ hd q)
      · exact ⟨hcoherent.idle.ping, hcoherent.idle.identify⟩
      · exact hcoherent.primary
  | peerIdentityVerified d endpoint previous =>
    apply PingStep.kept
    simp only [handleTransportEvent]
    cases hq : endpoint.peerId with
    | none => exact hlocate s.activeConnections _
    | some q =>
      -- the connection has this identity already
      have hbound := hcall.verifies d q ⟨endpoint, previous, nowMs, rfl, hq⟩
      simp only [upgradeConnectionIdentity, hbound, if_true]
      exact hlocate s.activeConnections _
  | closed d =>
    by_cases hd : d = c
    · subst hd
      obtain ⟨hping, hnone⟩ := handleConnectionClosed_requests hcoherent.idle d
      exact .settled hping hnone
    · exact .kept (handleConnectionClosed_pings hcoherent.idle hunique hd)
  | incomingConnection d endpoint => exact .kept (hlocate _ _)
  | incomingStream d t => exact .kept (handleIncomingStream_pings s ⟨d, t⟩)
  | streamOpened d t => exact .kept .rfl
  | streamData d t data => exact handleStreamData_step hcoherent hunique hsingle ⟨d, t⟩ data nowMs
  | streamRemoteWriteClosed d t => exact .kept (handleStreamRemoteWriteClosed_pings s ⟨d, t⟩)
  | streamClosed d t => exact .kept (handleStreamClosed_pings s ⟨d, t⟩)
  | listening addr => exact .kept .rfl
  | error d message => exact .kept (.same rfl rfl rfl rfl)

/-- No call but a ping to the peer of `c` makes a payload wait for it, or asks for a ping stream
on `c`, once the connection is there. -/
theorem step_pings (hcoherent : Coherent calls s) (hunique : Unique s) (hsingle : SinglePing s)
    (hcall : Identifies s call) (hconnects : call.connects? ≠ some c)
    (hpings : ¬ call.PingsOn s c) : PingStep c s (step s call) := by
  cases call with
  | input input =>
    cases input with
    | transport event nowMs =>
      exact handleTransportEvent_step hcoherent hunique hsingle hcall hconnects
    | tick nowMs =>
      exact .kept ((feedPing_pings s (.tick nowMs)).trans (drainIdentifyOutputs_pings _))
    | streamOpened d t token nowMs => exact .kept (handleStreamOpened_pings s ⟨d, t⟩ token)
    | openStreamFailed token reason nowMs =>
      exact .kept (handleOpenStreamFailed_pings s token reason)
    | runtimeError error => exact .kept (.same rfl rfl rfl rfl)
  | pollOutput =>
    obtain ⟨events, actions, heq⟩ := pollOutput_eq s
    unfold step
    rw [heq]
    exact .kept (.same rfl rfl rfl rfl)
  | setLocalAddresses addrs => exact .kept (.same rfl rfl rfl rfl)
  | addUserProtocol id => exact .kept (.same rfl rfl rfl rfl)
  | ping q payload nowMs =>
    exact .kept ((pingPeer_pings s payload nowMs hpings).other hunique hpings)
  | openUserStream q protocolId => exact .kept (openUserStream_pings s q protocolId)
  | sendUserStream q t data => exact .kept (userStreamAction_pings s q t _)
  | closeUserStreamWrite q t => exact .kept (userStreamAction_pings s q t _)
  | resetUserStream q t => exact .kept (userStreamAction_pings s q t _)
  | disconnect q => exact .kept (disconnect_pings s q)

/-- Whatever the call, ping has only been given inputs. -/
theorem step_continues (hcoherent : Coherent calls s) (hunique : Unique s)
    (hsingle : SinglePing s) (hcall : Identifies s call) :
    s.ping.Continues (step s call).ping := by
  have hother : ∀ d : ConnectionId, ∃ c : ConnectionId, c ≠ d := by
    rintro ⟨d⟩
    refine ⟨⟨d + 1⟩, ?_⟩
    intro h
    have hd : d + 1 = d := ConnectionId.mk.inj h
    exact absurd hd (by simp)
  -- the call leaves some connection alone
  have hspared : ∃ c, call.connects? ≠ some c ∧ ¬ call.PingsOn s c := by
    rcases call with (⟨event, nowMs⟩ | _ | _ | _ | _) | _ | _ | _ | ⟨q, payload, nowMs⟩ | _
    case input.transport =>
      cases hconnects : (Call.input (.transport event nowMs)).connects? with
      | none => exact ⟨⟨0⟩, by rintro ⟨⟩, id⟩
      | some d =>
        obtain ⟨c, hc⟩ := hother d
        exact ⟨c, fun h => hc (Option.some.inj h).symm, id⟩
    case ping =>
      cases hq : s.peerToConn[q]? with
      | none => exact ⟨⟨0⟩, by rintro ⟨⟩, fun h => by cases hq.symm.trans h⟩
      | some d =>
        obtain ⟨c, hc⟩ := hother d
        exact ⟨c, by rintro ⟨⟩, fun h => hc (Option.some.inj (hq.symm.trans h)).symm⟩
    all_goals exact ⟨⟨0⟩, by rintro ⟨⟩, id⟩
  obtain ⟨c, hconnects, hpings⟩ := hspared
  exact (step_pings hcoherent hunique hsingle hcall hconnects hpings).ping

/-! ## The connection keeps its peer -/

variable {s₀ s' : SwarmCore} {p : PeerId} {payload : Payload}

omit [MultihashCodec] in
/-- A connection that is there is given to no other peer. -/
theorem Move.keepsPeer (h : Move s₀ call s s') (hcall : Identifies s₀ call)
    (hconnects : call.connects? ≠ some c) (hp : s₀.connToPeer[c]? = some p)
    (hs : s.connToPeer[c]? = some p ∨ s.connToPeer[c]? = none) :
    s'.connToPeer[c]? = some p ∨ s'.connToPeer[c]? = none := by
  have herase : ∀ d, (s.connToPeer.erase d)[c]? = some p ∨ (s.connToPeer.erase d)[c]? = none := by
    intro d
    by_cases hd : c = d
    · exact .inr (BTreeMap.getElem?_erase_eq_none_iff.mpr (.inl hd))
    · rw [BTreeMap.getElem?_erase_of_ne hd]
      exact hs
  cases h with
  | placeholder d hneeds hnew hconn =>
    have hd : c ≠ d := by
      rintro rfl
      rw [hconn, hp] at hnew
      cases hnew
    show (s.connToPeer.insert d _)[c]? = _ ∨ (s.connToPeer.insert d _)[c]? = _
    rw [BTreeMap.getElem?_insert_of_ne hd]
    exact hs
  | register d q hconnectsAs =>
    have hd : c ≠ d := by
      rintro rfl
      obtain ⟨endpoint, nowMs, rfl, -⟩ := hconnectsAs
      exact hconnects rfl
    show ((s.yieldTo d q).connToPeer.insert d q)[c]? = _ ∨
      ((s.yieldTo d q).connToPeer.insert d q)[c]? = _
    rw [BTreeMap.getElem?_insert_of_ne hd]
    rcases yieldTo_cases s d q with ⟨heq, -⟩ | ⟨old, -, -, heq⟩
    · rw [heq]
      exact hs
    · rw [heq]
      exact herase old
  | rebind d q hverifies hne hagrees => exact absurd (hcall.bound hverifies hagrees) hne
  | close d =>
    rcases detach_cases s d with ⟨q, -, -, heq⟩ | ⟨-, heq⟩
    · rw [heq]
      exact herase d
    · rw [heq]
      exact herase d
  | openStream q d protocolId target hq =>
    simp only [queueOpenProtocolStream, requireConn, hq]
    exact hs
  | _ => exact hs

theorem step_keepsPeer (hcoherent : Coherent calls s) (hcontract : TransportContract calls call)
    (hcall : Identifies s call) (hconnects : call.connects? ≠ some c)
    (hp : s.connToPeer[c]? = some p) :
    (step s call).connToPeer[c]? = some p ∨ (step s call).connToPeer[c]? = none := by
  by_cases hpoll : call = .pollOutput
  · obtain ⟨events, actions, heq⟩ := pollOutput_eq s
    rw [hpoll, step, heq]
    exact .inl hp
  · exact Runs.keeps_of_chain
      (J := fun t => t.connToPeer[c]? = some p ∨ t.connToPeer[c]? = none)
      (step_moves hcoherent hcontract hpoll)
      (fun t t' hmove => hmove.keepsPeer hcall hconnects hp) (.inl hp)

/-! ## The payload goes on waiting -/

/-- A ping stream is asked for on `c` or in negotiation. -/
def SwarmCore.pingUnderWay (s : SwarmCore) (c : ConnectionId) : Prop :=
  0 < s.pingOpens c + s.pingNegotiators c

instance (s : SwarmCore) (c : ConnectionId) : Decidable (s.pingUnderWay c) :=
  inferInstanceAs (Decidable (0 < _))

/-- The payload waits for the ping stream of `c`, and for its peer. -/
def Deferred (c : ConnectionId) (p : PeerId) (payload : Payload) (s : SwarmCore) : Prop :=
  s.pingUnderWay c → s.connToPeer[c]? = some p ∧ s.pendingPings[p]? = some payload

/-- Only another ping to the peer keeps the payload from waiting on. -/
theorem Deferred.step (h : Deferred c p payload s) (hcoherent : Coherent calls s)
    (hunique : Unique s) (hsingle : SinglePing s) (hsingle' : SinglePing (step s call))
    (hcontract : TransportContract calls call) (hcall : Identifies s call)
    (hconnects : call.connects? ≠ some c) (hunder : s.pingUnderWay c)
    (hpings : ∀ payload nowMs, call ≠ .ping p payload nowMs) :
    Deferred c p payload (step s call) := by
  obtain ⟨hp, hpayload⟩ := h hunder
  have hother : ¬ call.PingsOn s c := by
    intro hon
    cases call with
    | ping q payload' nowMs =>
      -- the peer of `c` is `p`
      obtain rfl : p = q := Option.some.inj (hp.symm.trans (hcoherent.primary q c hon))
      exact hpings payload' nowMs rfl
    | _ => exact hon
  intro hunder'
  unfold pingUnderWay at hunder'
  rcases step_keepsPeer hcoherent hcontract hcall hconnects hp with hp' | hnone
  · cases step_pings hcoherent hunique hsingle hcall hconnects hother with
    | kept hkept => exact ⟨hp', (hkept.payload p hp).trans hpayload⟩
    | settled hping hnone => omega
  · have hzero := hsingle'.untracked c hnone
    omega

end Steps

/-! ## Runs -/

section Runs

variable [Sha256] [MultihashCodec] (identifyConfig : Identify.IdentifyConfig)
  (pingConfig : Ping.PingConfig) {calls later : List Call} {c : ConnectionId} {p : PeerId}
  {payload : Payload}

/-- What is known of the core in every state of a handshake run. -/
structure Orderly (calls : List Call) (s : SwarmCore) : Prop where
  coherent : Coherent calls s
  represented : Represented s
  single : SinglePing s

theorem orderly_run (hsha : NoCollision) (hrun : HandshakeRun calls) :
    Orderly calls (run (.new identifyConfig pingConfig) calls) where
  coherent := coherent_run identifyConfig pingConfig (hrun.mono fun _ _ h => h.1)
  represented := (handshake_invariant hsha identifyConfig pingConfig (I := fun _ _ => True) hrun
    trivial fun _ _ _ _ _ _ _ _ _ _ => trivial).1
  single := singlePing_run hsha identifyConfig pingConfig hrun

theorem ping_wellFormed_run (hsha : NoCollision) (hrun : HandshakeRun calls) :
    (run (.new identifyConfig pingConfig) calls).ping.WellFormed := by
  refine (Runs.EachStep.invariant (I := fun before => HandshakeRun before ∧
    (run (.new identifyConfig pingConfig) before).ping.WellFormed) hrun
    ⟨trivial, PingProtocol.wellFormed_new pingConfig⟩ ?_).2
  rintro before call hcall ⟨hbefore, hping⟩
  have hnext : HandshakeRun (before ++ [call]) :=
    Runs.eachStep_append.mpr ⟨hbefore, hcall, trivial⟩
  have horderly := orderly_run identifyConfig pingConfig hsha hbefore
  refine ⟨hnext, ?_⟩
  rw [run_concat]
  exact (step_continues horderly.coherent horderly.represented.unique horderly.single
    (identifies_of_run hsha identifyConfig pingConfig hnext)).wellFormed hping

/-- A run in which the ping stream of `c` is under way all along, and no other ping to `p` is
made. -/
def AwaitingRun (core : SwarmCore) (c : ConnectionId) (p : PeerId) :
    List Call → List Call → Prop :=
  Runs.EachStep fun before call =>
    (run core before).pingUnderWay c ∧ ∀ payload nowMs, call ≠ .ping p payload nowMs

/-- The payload waits as long as its stream is under way. -/
theorem deferred_run (hsha : NoCollision) (hrun : HandshakeRun (calls ++ later))
    (hawaiting : AwaitingRun (.new identifyConfig pingConfig) c p calls later)
    (hconnected : Connected calls c)
    (hstart : Deferred c p payload (run (.new identifyConfig pingConfig) calls)) :
    Deferred c p payload (run (.new identifyConfig pingConfig) (calls ++ later)) := by
  obtain ⟨hbefore, hlater⟩ := Runs.eachStep_append.mp hrun
  refine (Runs.EachStep.invariant (I := fun before => HandshakeRun before ∧ Connected before c ∧
    Deferred c p payload (run (.new identifyConfig pingConfig) before))
    (Runs.eachStep_and hlater hawaiting) ⟨hbefore, hconnected, hstart⟩ ?_).2.2
  rintro before call ⟨hcall, hunder, hpings⟩ ⟨hbefore, hconnected, hdeferred⟩
  have hnext : HandshakeRun (before ++ [call]) :=
    Runs.eachStep_append.mpr ⟨hbefore, hcall, trivial⟩
  have horderly := orderly_run identifyConfig pingConfig hsha hbefore
  have hsingle' := singlePing_run hsha identifyConfig pingConfig hnext
  have hconnects : call.connects? ≠ some c := by
    intro h
    rcases call with (⟨event, nowMs⟩ | _ | _ | _ | _) | _
    case input.transport =>
      cases event with
      | connected d endpoint => exact hcall.1.1 (Option.some.inj h ▸ hconnected)
      | _ => cases h
    all_goals cases h
  rw [run_concat] at hsingle' ⊢
  exact ⟨hnext, hconnected.concat, hdeferred.step horderly.coherent horderly.represented.unique
    horderly.single hsingle' hcall.1 (identifies_of_run hsha identifyConfig pingConfig hnext)
    hconnects hunder hpings⟩

end Runs

end Minip2p.Swarm
