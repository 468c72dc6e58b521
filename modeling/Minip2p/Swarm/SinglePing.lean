import Minip2p.Swarm.HandshakeTurns

/-!
# A peer has one ping stream

The ping stream to a peer is an open request, then a negotiator, then the outbound stream of the
ping handler. `pingSlots` counts all three; every hand-over takes the stream out of one place and
puts it into the next, and nothing is asked for while a place is taken.
-/

namespace Minip2p.Swarm

open SwarmCore
open Ping (PingProtocol)

namespace SwarmCore

/-- The open requests for a ping stream on a connection. -/
def pingOpens (s : SwarmCore) (c : ConnectionId) : Nat :=
  BTreeMap.countEntries s.pendingOpens fun _ open_ => open_.connId = c ∧ open_.target = .ping

/-- The ping streams of a connection that are in negotiation. -/
def pingNegotiators (s : SwarmCore) (c : ConnectionId) : Nat :=
  BTreeMap.countEntries s.outboundNegotiators fun key pending =>
    key.conn = c ∧ pending.target = .ping

/-- The ping streams to the peer `p` of connection `c`, wherever they are. -/
def pingSlots (s : SwarmCore) (c : ConnectionId) (p : PeerId) : Nat :=
  s.pingOpens c + s.pingNegotiators c + if (s.ping.outboundStream p).isSome then 1 else 0

end SwarmCore

/-- A peer has at most one ping stream, and it has none without a connection. -/
structure SinglePing (s : SwarmCore) : Prop where
  untracked : ∀ c, s.connToPeer[c]? = none → s.pingOpens c + s.pingNegotiators c = 0
  unconnected : ∀ p, s.peerToConn[p]? = none → s.ping.outboundStream p = none
  single : ∀ c p, s.connToPeer[c]? = some p → s.pingSlots c p ≤ 1

namespace SinglePing

variable {s s' : SwarmCore} {c : ConnectionId} {p : PeerId}

theorem slots_le (hrequests : s'.pingOpens c + s'.pingNegotiators c ≤
      s.pingOpens c + s.pingNegotiators c)
    (hping : (s'.ping.outboundStream p).isSome → (s.ping.outboundStream p).isSome) :
    s'.pingSlots c p ≤ s.pingSlots c p := by
  rw [pingSlots, pingSlots]
  split
  · next hsome =>
    rw [if_pos (hping hsome)]
    omega
  · omega

theorem isSome_of_outboundLe {ping ping' : PingProtocol} (h : ping.OutboundLe ping')
    (hsome : (ping'.outboundStream p).isSome) : (ping.outboundStream p).isSome := by
  obtain ⟨t, ht⟩ := Option.isSome_iff_exists.mp hsome
  rw [h p t ht]
  rfl

/-- No connection has more requests than before, and no peer a stream it did not have. -/
theorem shrink (hs : SinglePing s) (hconn : s'.connToPeer = s.connToPeer)
    (hpeer : s'.peerToConn = s.peerToConn)
    (hrequests : ∀ c, s'.pingOpens c + s'.pingNegotiators c ≤ s.pingOpens c + s.pingNegotiators c)
    (hping : s.ping.OutboundLe s'.ping) : SinglePing s' := by
  constructor
  · intro c hc
    rw [hconn] at hc
    have hzero := hs.untracked c hc
    have hle := hrequests c
    omega
  · intro p hp
    rw [hpeer] at hp
    have hnone := hs.unconnected p hp
    cases hstream : s'.ping.outboundStream p with
    | none => rfl
    | some t =>
      rw [hping p t hstream] at hnone
      cases hnone
  · intro c p hc
    rw [hconn] at hc
    exact Nat.le_trans (slots_le (hrequests c) (isSome_of_outboundLe hping)) (hs.single c p hc)

/-- Nothing that counts has changed. -/
theorem same (hs : SinglePing s) (hconn : s'.connToPeer = s.connToPeer)
    (hpeer : s'.peerToConn = s.peerToConn) (hopens : s'.pendingOpens = s.pendingOpens)
    (hout : s'.outboundNegotiators = s.outboundNegotiators) (hping : s'.ping = s.ping) :
    SinglePing s' := by
  refine hs.shrink hconn hpeer ?_ (by rw [hping]; exact .refl)
  intro c
  simp only [pingOpens, pingNegotiators, hopens, hout, Nat.le_refl]

/-! ## Connections -/

theorem pingOpens_retain_le (s : SwarmCore) (c d : ConnectionId) :
    (s.retainOtherStreams d).pingOpens c + (s.retainOtherStreams d).pingNegotiators c ≤
      s.pingOpens c + s.pingNegotiators c :=
  Nat.add_le_add BTreeMap.countEntries_filter_le BTreeMap.countEntries_filter_le

/-- A connection that is given up has no requests left. -/
theorem pingOpens_retain_self (s : SwarmCore) (c : ConnectionId) :
    (s.retainOtherStreams c).pingOpens c + (s.retainOtherStreams c).pingNegotiators c = 0 := by
  have hopens : (s.retainOtherStreams c).pingOpens c = 0 := by
    apply BTreeMap.countEntries_eq_zero
    intro token pending hpending
    have hkept := (BTreeMap.getElem?_filter_eq_some_iff.mp hpending).2
    have hne : pending.connId ≠ c := of_decide_eq_true hkept
    simp [hne]
  have hnegotiators : (s.retainOtherStreams c).pingNegotiators c = 0 := by
    apply BTreeMap.countEntries_eq_zero
    intro k pending hpending
    have hkept := (BTreeMap.getElem?_filter_eq_some_iff.mp hpending).2
    have hne : k.conn ≠ c := of_decide_eq_true hkept
    simp [hne]
  rw [hopens, hnegotiators]

theorem outboundStream_removePeer (ping : PingProtocol) (p : PeerId) :
    (ping.removePeer p).outboundStream p = none := by
  have hnone : (ping.peers.erase p)[p]? = none := Std.ExtTreeMap.getElem?_erase_self
  simp only [PingProtocol.outboundStream, PingProtocol.removePeer, hnone, Option.bind_none]

/-- A connection is filed under a peer without a ping stream. -/
theorem track (hs : SinglePing s) (hnew : s.connToPeer[c]? = none)
    (hstream : s.ping.outboundStream p = none) (hconn : s'.connToPeer = s.connToPeer.insert c p)
    (hpeer : s'.peerToConn = s.peerToConn.insert p c) (hopens : s'.pendingOpens = s.pendingOpens)
    (hout : s'.outboundNegotiators = s.outboundNegotiators) (hping : s'.ping = s.ping) :
    SinglePing s' := by
  have hslots : ∀ d q, s'.pingSlots d q = s.pingSlots d q := by
    intro d q
    simp only [pingSlots, pingOpens, pingNegotiators, hopens, hout, hping]
  constructor
  · intro d hd
    rw [hconn] at hd
    simp only [pingOpens, pingNegotiators, hopens, hout]
    exact hs.untracked d (BTreeMap.getElem?_insert_eq_none_iff.mp hd).2
  · intro q hq
    rw [hpeer] at hq
    rw [hping]
    exact hs.unconnected q (BTreeMap.getElem?_insert_eq_none_iff.mp hq).2
  · intro d q hd
    rw [hslots]
    rw [hconn] at hd
    rcases BTreeMap.getElem?_insert_eq_some_iff.mp hd with ⟨rfl, rfl⟩ | ⟨-, hd⟩
    · -- the new connection has asked for nothing
      have hzero := hs.untracked d hnew
      rw [pingSlots, hzero, hstream]
      exact Nat.zero_le 1
    · exact hs.single d q hd

theorem withoutConn (hs : SinglePing s) (c : ConnectionId) : SinglePing (s.withoutConn c) := by
  constructor
  · intro d hd
    rcases BTreeMap.getElem?_erase_eq_none_iff.mp hd with rfl | hd
    · exact pingOpens_retain_self _ d
    · have hzero := hs.untracked d hd
      have hle := pingOpens_retain_le s d c
      exact Nat.le_zero.mp (Nat.le_trans hle (Nat.le_of_eq hzero))
  · exact hs.unconnected
  · intro d q hd
    have hd := (BTreeMap.getElem?_erase_eq_some_iff.mp hd).2
    refine Nat.le_trans ?_ (hs.single d q hd)
    exact slots_le (pingOpens_retain_le s d c) fun h => h

/-- Ping forgets a peer, which may lose its connection with that. -/
theorem removePeer (hs : SinglePing s) (p : PeerId) (hconn : s'.connToPeer = s.connToPeer)
    (hpeer : ∀ q, s'.peerToConn[q]? = none → q = p ∨ s.peerToConn[q]? = none)
    (hopens : s'.pendingOpens = s.pendingOpens)
    (hout : s'.outboundNegotiators = s.outboundNegotiators)
    (hping : s'.ping = s.ping.removePeer p) : SinglePing s' := by
  have hle : s.ping.OutboundLe s'.ping := by
    rw [hping]
    exact .removePeer s.ping p
  have hrequests : ∀ d, s'.pingOpens d + s'.pingNegotiators d =
      s.pingOpens d + s.pingNegotiators d := by
    intro d
    simp only [pingOpens, pingNegotiators, hopens, hout]
  constructor
  · intro d hd
    rw [hconn] at hd
    rw [hrequests]
    exact hs.untracked d hd
  · intro q hq
    rcases hpeer q hq with rfl | hq
    · rw [hping]
      exact outboundStream_removePeer s.ping q
    · have hnone := hs.unconnected q hq
      by_contra hsome
      have hisSome := isSome_of_outboundLe hle (Option.isSome_iff_ne_none.mpr hsome)
      rw [hnone] at hisSome
      cases hisSome
  · intro d q hd
    rw [hconn] at hd
    exact Nat.le_trans (slots_le (Nat.le_of_eq (hrequests d)) (isSome_of_outboundLe hle))
      (hs.single d q hd)

/-- The peer of a new connection has no ping stream left. -/
theorem register (hs : SinglePing s) (hinverse : Inverse s) (hnew : s.connToPeer[c]? = none)
    (p : PeerId) : SinglePing ((s.yieldTo c p).attach c p) := by
  have hprimary := (inverse_iff.mp hinverse).1
  rcases hprimary.yieldTo_cases hnew p with ⟨hp, heq⟩ | ⟨old, -, -, heq⟩
  · rw [heq]
    exact hs.track hnew (hs.unconnected p hp) rfl rfl rfl rfl rfl
  · rw [heq]
    have hpeer : SinglePing (s.withoutPeer p) := hs.removePeer p rfl (fun _ => .inr) rfl rfl rfl
    refine (hpeer.withoutConn old).track ?_ (outboundStream_removePeer s.ping p) rfl rfl rfl rfl rfl
    exact BTreeMap.getElem?_erase_eq_none_iff.mpr (.inr hnew)

theorem detach (hs : SinglePing s) (c : ConnectionId) : SinglePing (s.detach c) := by
  rcases detach_cases s c with ⟨p, -, -, heq⟩ | ⟨-, heq⟩
  · rw [heq]
    refine (hs.withoutConn c).removePeer p rfl ?_ rfl rfl rfl
    exact fun q hq => BTreeMap.getElem?_erase_eq_none_iff.mp hq
  · rw [heq]
    exact hs.withoutConn c

/-! ## Requests -/

/-- A stream for another protocol is asked for. -/
theorem ask_other (hs : SinglePing s) {token : OpenStreamToken} {pending : PendingOpen}
    (htarget : pending.target ≠ .ping) (hconn : s'.connToPeer = s.connToPeer)
    (hpeer : s'.peerToConn = s.peerToConn)
    (hopens : s'.pendingOpens = s.pendingOpens.insert token pending)
    (hout : s'.outboundNegotiators = s.outboundNegotiators) (hping : s'.ping = s.ping) :
    SinglePing s' := by
  refine hs.shrink hconn hpeer ?_ (by rw [hping]; exact .refl)
  intro c
  simp only [pingOpens, pingNegotiators, hopens, hout]
  refine Nat.add_le_add_right (BTreeMap.countEntries_insert_of_neg ?_) _
  simp [htarget]

/-- A ping stream is asked for while the peer has none. -/
theorem ask_ping (hs : SinglePing s) (hinverse : Inverse s) {token : OpenStreamToken}
    {protocolId : String} (hp : s.peerToConn[p]? = some c)
    (hstream : s.ping.outboundStream p = none) (hpending : s.hasPendingPingStream p = false)
    (hconn : s'.connToPeer = s.connToPeer) (hpeer : s'.peerToConn = s.peerToConn)
    (hopens : s'.pendingOpens = s.pendingOpens.insert token ⟨c, protocolId, .ping⟩)
    (hout : s'.outboundNegotiators = s.outboundNegotiators) (hping : s'.ping = s.ping) :
    SinglePing s' := by
  -- the connection had neither an open request nor a negotiator for ping
  have hzero : s.pingOpens c = 0 ∧ s.pingNegotiators c = 0 := by
    simp only [hasPendingPingStream, hp, Bool.or_eq_false_iff] at hpending
    exact ⟨BTreeMap.countEntries_eq_zero_of_anyEntry hpending.2,
      BTreeMap.countEntries_eq_zero_of_anyEntry hpending.1⟩
  have hother : ∀ d, d ≠ c → s'.pingOpens d ≤ s.pingOpens d := by
    intro d hd
    rw [pingOpens, hopens]
    refine BTreeMap.countEntries_insert_of_neg ?_
    simp [hd.symm]
  have hone : s'.pingOpens c ≤ s.pingOpens c + 1 := by
    rw [pingOpens, hopens]
    exact BTreeMap.countEntries_insert_le
  have hnegotiators : ∀ d, s'.pingNegotiators d = s.pingNegotiators d := by
    intro d
    rw [pingNegotiators, hout]
    rfl
  constructor
  · intro d hd
    rw [hconn] at hd
    have hdc : d ≠ c := by
      rintro rfl
      rw [(hinverse p d).mp hp] at hd
      cases hd
    have hle := hother d hdc
    have hnone := hs.untracked d hd
    rw [hnegotiators d]
    omega
  · rw [hpeer, hping]
    exact hs.unconnected
  · intro d q hd
    rw [hconn] at hd
    by_cases hdc : d = c
    · obtain rfl : p = q := by
        rw [hdc, (hinverse p c).mp hp] at hd
        exact Option.some.inj hd
      rw [hdc, pingSlots, hping, hstream, hnegotiators]
      simp only [Option.isSome_none, Bool.false_eq_true, if_false]
      omega
    · refine Nat.le_trans (slots_le ?_ ?_) (hs.single d q hd)
      · rw [hnegotiators d]
        exact Nat.add_le_add_right (hother d hdc) _
      · rw [hping]
        exact fun h => h

/-- The open request makes way for the negotiator. -/
theorem requests_opened_le {k : StreamKey} {token : OpenStreamToken} {pending : PendingOpen}
    {negotiator : Multistream.MultistreamSelect} (hpending : s.pendingOpens[token]? = some pending)
    (hconn : pending.connId = k.conn) (hopens : s'.pendingOpens = s.pendingOpens.erase token)
    (hout : s'.outboundNegotiators =
      s.outboundNegotiators.insert k { negotiator, target := pending.target }) (c : ConnectionId) :
    s'.pingOpens c + s'.pingNegotiators c ≤ s.pingOpens c + s.pingNegotiators c := by
  simp only [pingOpens, pingNegotiators, hopens, hout]
  by_cases hcount : k.conn = c ∧ pending.target = .ping
  · have herase := BTreeMap.countEntries_erase_of_pos (m := s.pendingOpens)
      (f := fun _ open_ => decide (open_.connId = c ∧ open_.target = .ping)) hpending
      (by simp [hconn, hcount])
    have hinsert := BTreeMap.countEntries_insert_le (m := s.outboundNegotiators) (k := k)
      (v := { negotiator, target := pending.target })
      (f := fun key pending => decide (key.conn = c ∧ pending.target = .ping))
    omega
  · refine Nat.add_le_add BTreeMap.countEntries_erase_le ?_
    refine BTreeMap.countEntries_insert_of_neg ?_
    simpa using hcount

theorem opened (hs : SinglePing s) {k : StreamKey} {token : OpenStreamToken}
    {pending : PendingOpen} {negotiator : Multistream.MultistreamSelect}
    (hpending : s.pendingOpens[token]? = some pending) (hconn : pending.connId = k.conn) :
    SinglePing { s with
      pendingOpens := s.pendingOpens.erase token
      outboundNegotiators :=
        s.outboundNegotiators.insert k { negotiator, target := pending.target } } :=
  hs.shrink rfl rfl (requests_opened_le hpending hconn rfl rfl) .refl

/-- The negotiator makes way for the outbound stream of ping. -/
theorem promotePing (hs : SinglePing s) (hinverse : Inverse s) {k : StreamKey}
    {pending : PendingOutbound} (hpending : s.outboundNegotiators[k]? = some pending)
    (htarget : pending.target = .ping) (hp : s.connToPeer[k.conn]? = some p)
    (hconn : s'.connToPeer = s.connToPeer) (hpeer : s'.peerToConn = s.peerToConn)
    (hopens : s'.pendingOpens = s.pendingOpens)
    (hout : s'.outboundNegotiators = s.outboundNegotiators.erase k)
    (hping : s'.ping = (s.ping.registerOutboundStream p k.stream).1) : SinglePing s' := by
  have hle : ∀ d, s'.pingOpens d + s'.pingNegotiators d ≤ s.pingOpens d + s.pingNegotiators d := by
    intro d
    simp only [pingOpens, pingNegotiators, hopens, hout]
    exact Nat.add_le_add_left BTreeMap.countEntries_erase_le _
  have hother : ∀ q, q ≠ p → s'.ping.outboundStream q = s.ping.outboundStream q := by
    intro q hq
    rw [hping]
    exact PingProtocol.registerOutboundStream_other hq
  constructor
  · intro d hd
    rw [hconn] at hd
    have hzero := hs.untracked d hd
    have hd := hle d
    omega
  · intro q hq
    rw [hpeer] at hq
    have hqp : q ≠ p := by
      rintro rfl
      rw [(hinverse q k.conn).mpr hp] at hq
      cases hq
    rw [hother q hqp]
    exact hs.unconnected q hq
  · intro d q hd
    rw [hconn] at hd
    by_cases hdk : d = k.conn
    · -- the negotiator was the one place that was taken
      have hone := hs.single d q hd
      have htake := BTreeMap.countEntries_erase_of_pos (m := s.outboundNegotiators)
        (f := fun key pending => decide (key.conn = d ∧ pending.target = .ping)) hpending
        (by simp [hdk, htarget])
      have hopen : s'.pingOpens d = s.pingOpens d := by
        rw [pingOpens, hopens]
        rfl
      have hfewer : s'.pingNegotiators d + 1 = s.pingNegotiators d := by
        rw [pingNegotiators, hout]
        exact htake
      rw [pingSlots] at hone ⊢
      split <;> omega
    · have hqp : q ≠ p := by
        rintro rfl
        have hd' : s.peerToConn[q]? = some d := (hinverse q d).mpr hd
        rw [(hinverse q k.conn).mpr hp] at hd'
        exact hdk (Option.some.inj hd').symm
      refine Nat.le_trans (slots_le (hle d) ?_) (hs.single d q hd)
      rw [hother q hqp]
      exact fun h => h

end SinglePing

theorem Turn.singlePing [Sha256] {s₀ s s' : SwarmCore} {call : Call} (h : Turn s₀ call s s')
    (hcall : Identifies s₀ call) (hinverse : Inverse s) (hclash : NoClash s₀ call)
    (hs : SinglePing s) : SinglePing s' := by
  cases h with
  | placeholder c hneeds hnew hconn hpeer =>
    -- the placeholder is free, so ping has no stream for it
    have hfree : s.peerToConn[syntheticPeerId c]? = none := by
      rw [hconn] at hnew
      rw [hpeer]
      rcases hneeds with ⟨endpoint, nowMs, rfl, hnone⟩ | ⟨t, data, nowMs, rfl, hcompletes⟩
      · exact hclash hnone
      · exact hclash hcompletes hnew
    exact hs.track hnew (hs.unconnected _ hfree) rfl rfl rfl rfl rfl
  | register c p hconnects hnew => exact hs.register hinverse hnew p
  | rebind c p hverifies hne hagrees =>
    exact absurd (hcall.bound hverifies hagrees) hne
  | close c => exact hs.detach c
  | ask p c protocolId target htoken hp hping hidentify =>
    simp only [queueOpenProtocolStream, requireConn, hp]
    by_cases htarget : target = .ping
    · obtain ⟨hstream, hpending⟩ := hping htarget
      subst htarget
      exact hs.ask_ping hinverse hp hstream hpending rfl rfl rfl rfl rfl
    · exact hs.ask_other htarget rfl rfl rfl rfl rfl
  | refuse token e =>
    refine hs.shrink rfl rfl (fun c => ?_) .refl
    exact Nat.add_le_add_right BTreeMap.countEntries_erase_le _
  | opened k token pending negotiator hopened hpending hconn => exact hs.opened hpending hconn
  | outbound k pending negotiator hpending =>
    refine hs.shrink rfl rfl (fun c => ?_) .refl
    refine Nat.add_le_add_left (BTreeMap.countEntries_replace_le hpending ?_) _
    rfl
  | failOutbound k =>
    refine hs.shrink rfl rfl (fun c => ?_) .refl
    exact Nat.add_le_add_left BTreeMap.countEntries_erase_le _
  | dropOutbound k =>
    refine hs.shrink rfl rfl (fun c => ?_) .refl
    exact Nat.add_le_add_left BTreeMap.countEntries_erase_le _
  | promote k pending hpending =>
    refine hs.shrink rfl rfl (fun c => ?_) .refl
    exact Nat.add_le_add_left BTreeMap.countEntries_erase_le _
  | promotePing k pending p hpending htarget hp =>
    exact hs.promotePing hinverse hpending htarget hp rfl rfl rfl rfl rfl
  | promoteUser k pending protocolId p hpending =>
    refine hs.shrink rfl rfl (fun c => ?_) .refl
    exact Nat.add_le_add_left BTreeMap.countEntries_erase_le _
  | ping ping hping => exact hs.shrink rfl rfl (fun c => Nat.le_refl _) hping
  | received k p info =>
    have htables := tables_oblivious.handleIdentifyOutput s (.event (.received p info))
    exact hs.same htables.connToPeer htables.peerToConn htables.pendingOpens
      htables.outboundNegotiators
      (handlers_permissive.handleIdentifyOutput s (.event (.received p info))).ping
  | _ => exact hs.same rfl rfl rfl rfl rfl

/-! ## Runs -/

theorem singlePing_run [Sha256] [MultihashCodec] (hsha : NoCollision)
    (identifyConfig : Identify.IdentifyConfig) (pingConfig : Ping.PingConfig) {calls : List Call}
    (hrun : HandshakeRun calls) : SinglePing (run (.new identifyConfig pingConfig) calls) := by
  refine handshake_turns hsha identifyConfig pingConfig (J := fun _ s => SinglePing s) hrun
    ⟨?_, ?_, ?_⟩ ?_ ?_
  · intro c _
    rfl
  · intro p _
    simp [SwarmCore.new, PingProtocol.outboundStream, PingProtocol.new]
  · intro c p hc
    simp [SwarmCore.new] at hc
  · exact fun _ s events actions hs => hs.same rfl rfl rfl rfl rfl
  · exact fun h hidentifies hinverse hclash hs => h.singlePing hidentifies hinverse hclash hs

/-- The negotiator takes the one place there is. -/
theorem SinglePing.outboundStream_eq_none {s : SwarmCore} (hs : SinglePing s) {k : StreamKey}
    {pending : PendingOutbound} {p : PeerId} (hp : s.connToPeer[k.conn]? = some p)
    (hpending : s.outboundNegotiators[k]? = some pending) (htarget : pending.target = .ping) :
    s.ping.outboundStream p = none := by
  have hle := hs.single k.conn p hp
  have hpos := BTreeMap.countEntries_erase_of_pos
    (f := fun key pending => decide (key.conn = k.conn ∧ pending.target = .ping)) hpending
    (by simp [htarget])
  by_contra hsome
  rw [pingSlots, if_pos (Option.isSome_iff_ne_none.mpr hsome), pingNegotiators] at hle
  omega

/-- In every state of a handshake run a peer has at most one ping stream, counting the open
requests, the negotiators and the stream of the ping handler; so a ping stream whose negotiation
completes can always be registered. -/
theorem singlePing_of_handshake [Sha256] [MultihashCodec] (hsha : NoCollision)
    (identifyConfig : Identify.IdentifyConfig) (pingConfig : Ping.PingConfig) (calls : List Call)
    (hrun : HandshakeRun calls) (c : ConnectionId) (p : PeerId)
    (hp : (run (SwarmCore.new identifyConfig pingConfig) calls).connToPeer[c]? = some p) :
    (run (SwarmCore.new identifyConfig pingConfig) calls).pingSlots c p ≤ 1 ∧
      ∀ (t : StreamId) (pending : PendingOutbound),
        (run (SwarmCore.new identifyConfig pingConfig) calls).outboundNegotiators[
            (⟨c, t⟩ : StreamKey)]? = some pending → pending.target = .ping →
          ((run (SwarmCore.new identifyConfig pingConfig) calls).ping.handleInput
            (.registerOutboundStream p t)).2 = .ok () := by
  have hsingle := singlePing_run hsha identifyConfig pingConfig hrun
  refine ⟨hsingle.single c p hp, ?_⟩
  intro t pending hpending htarget
  exact PingProtocol.registerOutboundStream_ok
    (hsingle.outboundStream_eq_none hp hpending htarget) t

/-- Two pings to Alice, the second while the stream of the first is in negotiation. -/
def eagerPingRun : List Call :=
  [.event (.connected ⟨1⟩ (Sample.endpoint (some Sample.alice))),
    .ping Sample.alice (Vector.replicate Ping.pingPayloadLen 7) 0,
    .input (.streamOpened ⟨1⟩ ⟨4⟩ ⟨2⟩ 0),
    .ping Sample.alice (Vector.replicate Ping.pingPayloadLen 8) 0]

theorem eagerPingRun_single :
    (Sample.run eagerPingRun).pingNegotiators ⟨1⟩ = 1 ∧
      (Sample.run eagerPingRun).pingSlots ⟨1⟩ Sample.alice ≤ 1 := by
  have hrun : @HandshakeRun Sample.sha256 eagerPingRun :=
    ⟨⟨by decide, Sample.alice, rfl, Sample.alice_ne_syntheticPeerId⟩, ⟨by decide, trivial⟩,
      ⟨by decide, trivial⟩, ⟨by decide, trivial⟩, trivial⟩
  exact ⟨by decide +kernel, (@singlePing_of_handshake Sample.sha256 multihashCodec
    Sample.noCollision _ _ eagerPingRun hrun ⟨1⟩ Sample.alice (by decide)).1⟩

end Minip2p.Swarm
