import Minip2p.Swarm.ConnectionMaps

/-!
# Runs of a transport that identifies its peers in the handshake

A transport like QUIC reports every connection with its peer, and repeats the identity at most
right after. No identity is ever rebound in such a run, and a placeholder is only made for a
superseded connection that lingers. Then the two connection maps are mutually inverse, and every
table that is keyed by peers has entries for connected peers only.
-/

namespace Minip2p.Swarm

open SwarmCore

/-! ## Placeholders -/

theorem repr_injective {m n : Nat} (h : m.repr = n.repr) : m = n := by
  rw [Nat.repr_eq_ofList_toDigits, Nat.repr_eq_ofList_toDigits] at h
  have hdigits : Nat.toDigits 10 m = Nat.toDigits 10 n := by
    simpa using congrArg String.toList h
  have hvalue := congrArg (fun digits => Nat.ofDigitChars 10 digits 0) hdigits
  simpa using hvalue

/-- The text that stands for the public key of a connection without one. -/
def syntheticKey (c : ConnectionId) : Bytes := asBytes s!"minip2p-synthetic-conn-{c.asU64}"

theorem syntheticKey_eq (c : ConnectionId) :
    syntheticKey c = asBytes "minip2p-synthetic-conn-" ++ asBytes c.asU64.toNat.repr := by
  rw [← asBytes_append]
  rfl

theorem syntheticKey_inj {c d : ConnectionId} (h : syntheticKey c = syntheticKey d) : c = d := by
  rw [syntheticKey_eq, syntheticKey_eq] at h
  have hrepr : c.asU64.toNat.repr = d.asU64.toNat.repr := asBytes_inj (List.append_cancel_left h)
  obtain ⟨c⟩ := c
  obtain ⟨d⟩ := d
  exact congrArg ConnectionId.mk (UInt64.toNat_inj.mp (repr_injective hrepr))

/-- SHA-256 has no collision among the placeholder keys that are hashed, those of more than 42
bytes. -/
def NoCollision [Sha256] : Prop :=
  ∀ c d : ConnectionId, ¬ (syntheticKey c).length ≤ maxInlineKeyLength →
    ¬ (syntheticKey d).length ≤ maxInlineKeyLength →
    Sha256.digest (syntheticKey c) = Sha256.digest (syntheticKey d) →
    syntheticKey c = syntheticKey d

theorem syntheticPeerId_inj [Sha256] (hsha : NoCollision) {c d : ConnectionId}
    (h : syntheticPeerId c = syntheticPeerId d) : c = d := by
  have hid : PeerId.fromPublicKeyProtobuf (syntheticKey c) =
      PeerId.fromPublicKeyProtobuf (syntheticKey d) := h
  apply syntheticKey_inj
  by_cases hc : (syntheticKey c).length ≤ maxInlineKeyLength
  · by_cases hd : (syntheticKey d).length ≤ maxInlineKeyLength
    · exact PeerId.fromPublicKeyProtobuf_inj_of_short hc hd hid
    · exact absurd hid (PeerId.fromPublicKeyProtobuf_ne_of_short_of_long hc hd)
  · by_cases hd : (syntheticKey d).length ≤ maxInlineKeyLength
    · exact absurd hid.symm (PeerId.fromPublicKeyProtobuf_ne_of_short_of_long hd hc)
    · exact hsha c d hc hd (PeerId.digest_eq_of_fromPublicKeyProtobuf_eq hc hd hid)

/-! ## Handshake runs -/

/-- The latest transport event. -/
def lastEvent? (calls : List Call) : Option TransportEvent :=
  (calls.filterMap Call.transportEvent?).getLast?

theorem lastEvent?_concat (calls : List Call) (call : Call) :
    lastEvent? (calls ++ [call]) = call.transportEvent?.or (lastEvent? calls) := by
  rw [lastEvent?, List.filterMap_append]
  cases h : call.transportEvent? with
  | none =>
    simp only [List.filterMap_cons, h, List.filterMap_nil, List.append_nil, Option.none_or]
    rfl
  | some event =>
    simp only [List.filterMap_cons, h, List.filterMap_nil, List.getLast?_append,
      List.getLast?_singleton, Option.some_or]

/-- Every connection is reported with a peer id that is no placeholder, and an identity is
verified only right after its connection was reported with it. -/
def HandshakeIdentity [Sha256] (before : List Call) : Call → Prop
  | .input (.transport (.connected _ endpoint) _) =>
    ∃ p, endpoint.peerId = some p ∧ ∀ c, p ≠ syntheticPeerId c
  | .input (.transport (.peerIdentityVerified c endpoint _) _) =>
    ∃ p connected, endpoint.peerId = some p ∧
      lastEvent? before = some (.connected c connected) ∧ connected.peerId = some p
  | _ => True

/-- A contract run of such a transport. -/
def HandshakeRun [Sha256] (calls : List Call) : Prop :=
  Runs.EachStep (fun before call =>
    TransportContract before call ∧ HandshakeIdentity before call) [] calls

/-! ## Peer tables -/

/-- The peers of the tables keyed by peers satisfy `keep`, and what makes a peer ready is
known. -/
structure Within (keep : PeerId → Prop) (s : SwarmCore) : Prop where
  ping : ∀ p, p ∈ s.ping.peers → keep p
  identify : ∀ p, p ∈ s.identify.peers → keep p
  pendingPings : ∀ p, p ∈ s.pendingPings → keep p
  peerInfo : ∀ p, p ∈ s.peerInfo → keep p
  readyPeers : ∀ p, p ∈ s.readyPeers → keep p
  establishedPeers : ∀ p, p ∈ s.establishedPeers → keep p
  readyInfo : ∀ p, p ∈ s.readyPeers → p ∈ s.peerInfo

namespace Within

variable {keep keep' : PeerId → Prop} {s : SwarmCore}

theorem mono (hs : Within keep s) (h : ∀ p, keep p → keep' p) : Within keep' s where
  ping := fun p hp => h p (hs.ping p hp)
  identify := fun p hp => h p (hs.identify p hp)
  pendingPings := fun p hp => h p (hs.pendingPings p hp)
  peerInfo := fun p hp => h p (hs.peerInfo p hp)
  readyPeers := fun p hp => h p (hs.readyPeers p hp)
  establishedPeers := fun p hp => h p (hs.establishedPeers p hp)
  readyInfo := hs.readyInfo

/-- The tables are the same. -/
theorem same {s' : SwarmCore} (hs : Within keep s) (hping : s'.ping = s.ping)
    (hidentify : s'.identify = s.identify) (hpending : s'.pendingPings = s.pendingPings)
    (hinfo : s'.peerInfo = s.peerInfo) (hready : s'.readyPeers = s.readyPeers)
    (hestablished : s'.establishedPeers = s.establishedPeers) : Within keep s' := by
  constructor
  · rw [hping]
    exact hs.ping
  · rw [hidentify]
    exact hs.identify
  · rw [hpending]
    exact hs.pendingPings
  · rw [hinfo]
    exact hs.peerInfo
  · rw [hready]
    exact hs.readyPeers
  · rw [hestablished]
    exact hs.establishedPeers
  · rw [hready, hinfo]
    exact hs.readyInfo

theorem withoutPeer (hs : Within keep s) (p : PeerId) : Within keep (s.withoutPeer p) where
  ping := fun q hq => hs.ping q (BTreeMap.mem_erase_iff.mp hq).2
  identify := fun q hq => hs.identify q (BTreeMap.mem_erase_iff.mp hq).2
  pendingPings := hs.pendingPings
  peerInfo := fun q hq => hs.peerInfo q (BTreeMap.mem_erase_iff.mp hq).2
  readyPeers := fun q hq => hs.readyPeers q (BTreeSet.mem_erase_iff.mp hq).2
  establishedPeers := fun q hq => hs.establishedPeers q (BTreeSet.mem_erase_iff.mp hq).2
  readyInfo := fun q hq => by
    obtain ⟨hqp, hq⟩ := BTreeSet.mem_erase_iff.mp hq
    exact BTreeMap.mem_erase_iff.mpr ⟨hqp, hs.readyInfo q hq⟩

/-- The last connection of a peer takes all of its entries along. -/
theorem dropPeer (hs : Within keep s) (p : PeerId) :
    Within (fun q => q ≠ p ∧ keep q) (s.dropPeer p) := by
  have hmap : ∀ {β : Type} {m : BTreeMap PeerId β}, (∀ q, q ∈ m → keep q) →
      ∀ q, q ∈ m.erase p → q ≠ p ∧ keep q := by
    intro β m hm q hq
    obtain ⟨hqp, hq⟩ := BTreeMap.mem_erase_iff.mp hq
    exact ⟨hqp, hm q hq⟩
  have hset : ∀ {t : BTreeSet PeerId}, (∀ q, q ∈ t → keep q) →
      ∀ q, q ∈ t.erase p → q ≠ p ∧ keep q := by
    intro t ht q hq
    obtain ⟨hqp, hq⟩ := BTreeSet.mem_erase_iff.mp hq
    exact ⟨hqp, ht q hq⟩
  exact ⟨hmap hs.ping, hmap hs.identify, hmap hs.pendingPings, hmap hs.peerInfo,
    hset hs.readyPeers, hset hs.establishedPeers, (hs.withoutPeer p).readyInfo⟩

theorem yieldTo (hs : Within keep s) (c : ConnectionId) (p : PeerId) :
    Within keep (s.yieldTo c p) := by
  rcases yieldTo_cases s c p with ⟨heq, -⟩ | ⟨old, -, -, heq⟩
  · rw [heq]
    exact hs
  · rw [heq]
    exact (hs.withoutPeer p).same rfl rfl rfl rfl rfl rfl

theorem attach (hs : Within keep s) (c : ConnectionId) (p : PeerId) (hp : keep p) :
    Within keep (s.attach c p) := by
  refine ⟨hs.ping, hs.identify, hs.pendingPings, hs.peerInfo, hs.readyPeers, ?_, hs.readyInfo⟩
  intro q hq
  rcases BTreeSet.mem_insert_iff.mp hq with rfl | hq
  · exact hp
  · exact hs.establishedPeers q hq

end Within

/-! ## The representation invariant -/

/-- A tracked connection has a placeholder of its own or a peer id that is none. -/
def Named [Sha256] (s : SwarmCore) : Prop :=
  ∀ (c : ConnectionId) (p : PeerId), s.connToPeer[c]? = some p →
    p = syntheticPeerId c ∨ ∀ d, p ≠ syntheticPeerId d

/-- What holds in every state of a handshake run. -/
structure Represented [Sha256] (s : SwarmCore) : Prop where
  named : Named s
  unique : Unique s
  within : Within (· ∈ s.peerToConn) s
  asserted : s.debugAssertFailed = false

section Moves

variable [Sha256] {s₀ s s' : SwarmCore} {call : Call} {calls : List Call}

theorem Named.insert (hs : Named s) {c : ConnectionId} {p : PeerId}
    (hp : p = syntheticPeerId c ∨ ∀ d, p ≠ syntheticPeerId d)
    (hconn : s'.connToPeer = s.connToPeer.insert c p) : Named s' := by
  intro d q hd
  rw [hconn] at hd
  rcases BTreeMap.getElem?_insert_eq_some_iff.mp hd with ⟨rfl, rfl⟩ | ⟨-, hd⟩
  · exact hp
  · exact hs d q hd

theorem Named.erase (hs : Named s) {c : ConnectionId}
    (hconn : s'.connToPeer = s.connToPeer.erase c) : Named s' := by
  intro d q hd
  rw [hconn] at hd
  exact hs d q (BTreeMap.getElem?_erase_eq_some_iff.mp hd).2

theorem Named.yieldTo (hs : Named s) (c : ConnectionId) (p : PeerId) : Named (s.yieldTo c p) := by
  rcases yieldTo_cases s c p with ⟨heq, -⟩ | ⟨old, -, -, heq⟩
  · rw [heq]
    exact hs
  · rw [heq]
    exact hs.erase rfl

theorem Named.detach (hs : Named s) (c : ConnectionId) : Named (s.detach c) := by
  rcases detach_cases s c with ⟨p, -, -, heq⟩ | ⟨-, heq⟩
  · rw [heq]
    exact hs.erase rfl
  · rw [heq]
    exact hs.erase rfl

/-- How the call identifies its connection. -/
structure Identifies (s₀ : SwarmCore) (call : Call) : Prop where
  connects : ∀ c p, call.ConnectsAs c p → ∀ d, p ≠ syntheticPeerId d
  verifies : ∀ c p, call.VerifiesAs c p → s₀.connToPeer[c]? = some p

/-- The handshake has named the peer: nothing is rebound. -/
theorem Identifies.bound {c : ConnectionId} {p : PeerId} (hcall : Identifies s₀ call)
    (hverifies : call.VerifiesAs c p) (hagrees : s₀.Agrees s) : s.connToPeer[c]? = some p := by
  rw [hagrees.connToPeer]
  exact hcall.verifies c p hverifies

theorem Move.named (h : Move s₀ call s s') (hcall : Identifies s₀ call) (hs : Named s) :
    Named s' := by
  cases h with
  | placeholder c => exact hs.insert (.inl rfl) rfl
  | register c p hconnects =>
    exact (hs.yieldTo c p).insert (.inr (hcall.connects c p hconnects)) rfl
  | rebind c p hverifies hne hagrees =>
    exact absurd (hcall.bound hverifies hagrees) hne
  | close c => exact hs.detach c
  | openStream p c protocolId target hp =>
    simp only [queueOpenProtocolStream, requireConn, hp]
    exact hs
  | _ => exact hs

theorem Move.asserted (h : Move s₀ call s s') (hprimary : Primary s)
    (hs : s.debugAssertFailed = false) : s'.debugAssertFailed = false := by
  cases h with
  | register c p =>
    rcases yieldTo_cases s c p with ⟨heq, -⟩ | ⟨old, -, -, heq⟩
    · rw [heq]
      exact hs
    · rw [heq]
      exact hs
  | rebind c p =>
    simp only [attach, migrateFrom]
    split
    · exact hs
    · exact hs
  | close c =>
    rcases detach_cases s c with ⟨p, -, -, heq⟩ | ⟨-, heq⟩
    · rw [heq]
      exact hs
    · rw [heq]
      exact hs
  | openStream p c protocolId target hp =>
    simp only [queueOpenProtocolStream, requireConn, hp, hprimary p c hp, hs]
    simp
  | _ => exact hs

theorem Move.within (h : Move s₀ call s s') (hcall : Identifies s₀ call) (hunique : Unique s)
    (hs : Within (· ∈ s.peerToConn) s) : Within (· ∈ s'.peerToConn) s' := by
  -- the peer of a tracked connection is connected
  have hpeer : ∀ {c : ConnectionId} {p : PeerId}, s.connToPeer[c]? = some p → p ∈ s.peerToConn := by
    intro c p hc
    exact BTreeMap.mem_of_getElem? (hunique c p hc)
  have hinsert : ∀ {β : Type} {m : BTreeMap PeerId β} {p : PeerId} {v : β}, p ∈ s.peerToConn →
      (∀ q, q ∈ m → q ∈ s.peerToConn) → ∀ q, q ∈ m.insert p v → q ∈ s.peerToConn := by
    intro β m p v hp hm q hq
    rcases BTreeMap.mem_insert_iff.mp hq with rfl | hq
    · exact hp
    · exact hm q hq
  have hgrow : ∀ {p : PeerId} {c : ConnectionId} (q : PeerId), q ∈ s.peerToConn →
      q ∈ s.peerToConn.insert p c := by
    intro p c q hq
    exact BTreeMap.mem_insert_iff.mpr (.inr hq)
  cases h with
  | placeholder c => exact (hs.mono hgrow).same rfl rfl rfl rfl rfl rfl
  | register c p =>
    -- what a superseded connection leaves behind belongs to `p`, which is connected again
    have hattach : Within (· ∈ s.peerToConn.insert p c) ((s.yieldTo c p).attach c p) :=
      ((hs.mono hgrow).yieldTo c p).attach c p (BTreeMap.mem_insert_iff.mpr (.inl rfl))
    rw [← yieldTo_peerToConn s c p] at hattach
    exact hattach
  | rebind c p hverifies hne hagrees =>
    exact absurd (hcall.bound hverifies hagrees) hne
  | close c =>
    have hwithout : Within (· ∈ s.peerToConn) (s.withoutConn c) :=
      hs.same rfl rfl rfl rfl rfl rfl
    rcases detach_cases s c with ⟨p, -, -, heq⟩ | ⟨-, heq⟩
    · rw [heq]
      exact (hwithout.dropPeer p).mono fun q hq => BTreeMap.mem_erase_iff.mpr hq
    · rw [heq]
      exact hwithout
  | openStream p c protocolId target hp =>
    simp only [queueOpenProtocolStream, requireConn, hp]
    exact hs.same rfl rfl rfl rfl rfl rfl
  | ping ping hidle hpeers =>
    refine { hs with ping := ?_ }
    intro q hq
    rcases hpeers q hq with hq | ⟨c, -, hc⟩
    · exact hs.ping q hq
    · exact hpeer hc
  | identify identify hidle hpeers =>
    refine { hs with identify := ?_ }
    intro q hq
    rcases hpeers q hq with hq | ⟨c, -, hc⟩
    · exact hs.identify q hq
    · exact hpeer hc
  | info p info c hc hp =>
    refine { hs with peerInfo := hinsert (hpeer hp) hs.peerInfo, readyInfo := ?_ }
    intro q hq
    exact BTreeMap.mem_insert_iff.mpr (.inr (hs.readyInfo q hq))
  | ready p hinfo hp =>
    refine { hs with readyPeers := ?_, readyInfo := ?_ }
    · intro q hq
      rcases BTreeSet.mem_insert_iff.mp hq with rfl | hq
      · exact hp
      · exact hs.readyPeers q hq
    · intro q hq
      rcases BTreeSet.mem_insert_iff.mp hq with rfl | hq
      · exact hinfo
      · exact hs.readyInfo q hq
  | deferPing p payload hp => exact { hs with pendingPings := hinsert hp hs.pendingPings }
  | takePing p =>
    refine { hs with pendingPings := ?_ }
    exact fun q hq => hs.pendingPings q (BTreeMap.mem_erase_iff.mp hq).2
  | _ => exact hs.same rfl rfl rfl rfl rfl rfl

/-- Without a transport event no connection is filed or forgotten. -/
theorem Move.connToPeer_of_no_event (h : Move s₀ call s s') (hevent : call.eventConn? = none) :
    s'.connToPeer = s.connToPeer := by
  have hnot : ∀ {c : ConnectionId}, call.eventConn? ≠ some c := by
    intro c hc
    rw [hevent] at hc
    cases hc
  cases h with
  | placeholder c hneeds => exact absurd hneeds.eventConn hnot
  | register c p hconnects => exact absurd hconnects.eventConn hnot
  | rebind c p hverifies => exact absurd hverifies.eventConn hnot
  | close c hcloses => exact absurd (Call.eventConn?_of_closes? hcloses) hnot
  | openStream p c protocolId target hp => simp only [queueOpenProtocolStream, requireConn, hp]
  | _ => rfl

/-- The connection that was just reported is tracked under the peer it was reported with. -/
def Latest (calls : List Call) (s : SwarmCore) : Prop :=
  ∀ c endpoint p, lastEvent? calls = some (.connected c endpoint) → endpoint.peerId = some p →
    s.connToPeer[c]? = some p

variable [MultihashCodec]

theorem step_latest (hs₀ : Coherent calls s₀) (hcontract : TransportContract calls call)
    (hs : Latest calls s₀) : Latest (calls ++ [call]) (step s₀ call) := by
  intro c endpoint p hlast hp
  rw [lastEvent?_concat] at hlast
  cases hevent : call.transportEvent? with
  | none =>
    rw [hevent, Option.none_or] at hlast
    have hsame : (step s₀ call).connToPeer = s₀.connToPeer := by
      by_cases hpoll : call = .pollOutput
      · obtain ⟨events, actions, heq⟩ := pollOutput_eq s₀
        rw [hpoll, step, heq]
      · have hnone : call.eventConn? = none := by
          rw [Call.eventConn?, hevent]
          rfl
        refine @Runs.keeps_of_chain _ _ (fun t => t.connToPeer = s₀.connToPeer) _ _
          (step_moves hs₀ hcontract hpoll) ?_ rfl
        intro t t' hmove ht
        rw [hmove.connToPeer_of_no_event hnone, ht]
    rw [hsame]
    exact hs c endpoint p hlast hp
  | some event =>
    rw [hevent, Option.some_or] at hlast
    obtain rfl : event = .connected c endpoint := Option.some.inj hlast
    have hcall : call.ConnectsAs c p := by
      rcases call with (⟨event, nowMs⟩ | _ | _ | _ | _) | _
      case input.transport => exact ⟨endpoint, nowMs, by rw [Option.some.inj hevent], hp⟩
      all_goals cases hevent
    rw [step_connToPeer_of_connectsAs hs₀ hcontract hcall]
    exact BTreeMap.getElem?_insert_eq_some_iff.mpr (.inl ⟨rfl, rfl⟩)

omit [MultihashCodec] in
theorem identifies_of_handshake (hlatest : Latest calls s₀) (h : HandshakeIdentity calls call) :
    Identifies s₀ call := by
  constructor
  · rintro c p ⟨endpoint, nowMs, rfl, hp⟩
    obtain ⟨q, hq, hnot⟩ := h
    obtain rfl : q = p := Option.some.inj (hq.symm.trans hp)
    exact hnot
  · rintro c p ⟨endpoint, previous, nowMs, rfl, hp⟩
    obtain ⟨q, connected, hq, hlast, hconnected⟩ := h
    obtain rfl : q = p := Option.some.inj (hq.symm.trans hp)
    exact hlatest c connected q hlast hconnected

omit [MultihashCodec] in
/-- A connection that gets a placeholder finds it free. -/
theorem noClash_of_handshake (hsha : NoCollision) (hprimary : Primary s₀) (hnamed : Named s₀)
    (hlatest : Latest calls s₀) (h : HandshakeIdentity calls call) : NoClash s₀ call := by
  rcases call with (⟨event, nowMs⟩ | _ | _ | _ | _) | _
  case input.transport =>
    cases event with
    | connected c endpoint =>
      obtain ⟨p, hp, -⟩ := h
      intro hnone
      rw [hp] at hnone
      cases hnone
    | peerIdentityVerified c endpoint previous =>
      intro p hp
      exact .inr ((identifies_of_handshake hlatest h).verifies c p
        ⟨endpoint, previous, nowMs, rfl, hp⟩)
    | streamData c t data =>
      intro _ hnew
      cases hfree : s₀.peerToConn[syntheticPeerId c]? with
      | none => rfl
      | some d =>
        have hd := hprimary _ d hfree
        rcases hnamed d _ hd with heq | hnot
        · rw [syntheticPeerId_inj hsha heq] at hnew
          rw [hnew] at hd
          cases hd
        · exact absurd rfl (hnot c)
    | _ => trivial
  all_goals trivial

theorem step_represented (hsha : NoCollision) (hs₀ : Coherent calls s₀)
    (hcontract : TransportContract calls call) (hidentity : HandshakeIdentity calls call)
    (hlatest : Latest calls s₀) (hs : Represented s₀) : Represented (step s₀ call) := by
  by_cases hpoll : call = .pollOutput
  · obtain ⟨events, actions, heq⟩ := pollOutput_eq s₀
    rw [hpoll, step, heq]
    exact ⟨hs.named, hs.unique, hs.within.same rfl rfl rfl rfl rfl rfl, hs.asserted⟩
  · have hcall := identifies_of_handshake hlatest hidentity
    have hclash := noClash_of_handshake hsha hs₀.primary hs.named hlatest hidentity
    have hboth : Primary (step s₀ call) ∧ Represented (step s₀ call) := by
      refine @Runs.keeps_of_chain _ _ (fun t => Primary t ∧ Represented t) _ _
        (step_moves hs₀ hcontract hpoll) ?_ ⟨hs₀.primary, hs⟩
      rintro t t' hmove ⟨hprimary, ht⟩
      exact ⟨hmove.primary hprimary, hmove.named hcall ht.named,
        hmove.unique hclash hprimary ht.unique, hmove.within hcall ht.unique ht.within,
        hmove.asserted hprimary ht.asserted⟩
    exact hboth.2

/-- The induction over a handshake run. -/
theorem handshake_invariant (hsha : NoCollision) (identifyConfig : Identify.IdentifyConfig)
    (pingConfig : Ping.PingConfig) {I : List Call → SwarmCore → Prop} (hrun : HandshakeRun calls)
    (hnew : I [] (SwarmCore.new identifyConfig pingConfig))
    (hstep : ∀ before call s, s = run (SwarmCore.new identifyConfig pingConfig) before →
      Coherent before s → Represented s → TransportContract before call → Identifies s call →
      NoClash s call → I before s → I (before ++ [call]) (step s call)) :
    Represented (run (SwarmCore.new identifyConfig pingConfig) calls) ∧
      I calls (run (SwarmCore.new identifyConfig pingConfig) calls) := by
  have hinv : Latest calls (run (SwarmCore.new identifyConfig pingConfig) calls) ∧
      Represented (run (SwarmCore.new identifyConfig pingConfig) calls) ∧
      I calls (run (SwarmCore.new identifyConfig pingConfig) calls) := by
    refine run_invariant identifyConfig pingConfig
      (I := fun calls s => Latest calls s ∧ Represented s ∧ I calls s) hrun
      ⟨?_, ⟨?_, ?_, ?_, rfl⟩, hnew⟩ ?_
    · intro c endpoint p hlast
      cases hlast
    · intro c p h
      simp [SwarmCore.new] at h
    · intro c p h
      simp [SwarmCore.new] at h
    · constructor <;> intro p h <;> simp [SwarmCore.new, Ping.PingProtocol.new,
        Identify.IdentifyProtocol.new] at h
    · rintro before call s rfl hcoherent hcontract hidentity ⟨hlatest, hs, hI⟩
      exact ⟨step_latest hcoherent hcontract hlatest,
        step_represented hsha hcoherent hcontract hidentity hlatest hs,
        hstep before call _ rfl hcoherent hs hcontract (identifies_of_handshake hlatest hidentity)
          (noClash_of_handshake hsha hcoherent.primary hs.named hlatest hidentity) hI⟩
  exact hinv.2

/-- A call of a handshake run identifies its connection. -/
theorem identifies_of_run (hsha : NoCollision) (identifyConfig : Identify.IdentifyConfig)
    (pingConfig : Ping.PingConfig) (hrun : HandshakeRun (calls ++ [call])) :
    Identifies (run (SwarmCore.new identifyConfig pingConfig) calls) call := by
  refine (handshake_invariant hsha identifyConfig pingConfig (I := fun calls' _ =>
    ∀ before last, calls' = before ++ [last] →
      Identifies (run (SwarmCore.new identifyConfig pingConfig) before) last) hrun ?_ ?_).2
      calls call rfl
  · intro before last h
    exact absurd h.symm (List.append_ne_nil_of_right_ne_nil _ (List.cons_ne_nil _ _))
  · rintro before last s rfl _ _ _ hidentifies _ _ before' last' h
    obtain ⟨rfl, hlast⟩ := List.append_inj' h rfl
    obtain rfl := List.singleton_inj.mp hlast
    exact hidentifies

/-- In every state of a handshake run the connection maps are mutually inverse, the tables keyed
by peers have entries for connected peers only, a ready peer has its information, and no stream
was asked for on a connection of another peer. -/
theorem representation_of_handshake (hsha : NoCollision) (identifyConfig : Identify.IdentifyConfig)
    (pingConfig : Ping.PingConfig) (calls : List Call) (hrun : HandshakeRun calls) :
    Inverse (run (SwarmCore.new identifyConfig pingConfig) calls) ∧
      Within (· ∈ (run (SwarmCore.new identifyConfig pingConfig) calls).peerToConn)
        (run (SwarmCore.new identifyConfig pingConfig) calls) ∧
      (run (SwarmCore.new identifyConfig pingConfig) calls).debugAssertFailed = false := by
  have hrepresented := (handshake_invariant hsha identifyConfig pingConfig
    (I := fun _ _ => True) hrun trivial fun _ _ _ _ _ _ _ _ _ _ => trivial).1
  have hcontract : ContractRun calls := hrun.mono fun _ _ h => h.1
  have hprimary := (coherent_run identifyConfig pingConfig hcontract).primary
  exact ⟨inverse_iff.mpr ⟨hprimary, hrepresented.unique⟩, hrepresented.within,
    hrepresented.asserted⟩

end Moves

/-! ## A concrete run -/

/-- A decimal number has as many bytes as digits. -/
theorem length_asBytes_repr_le (e n : Nat) (h : n < 10 ^ (e + 1)) :
    (asBytes n.repr).length ≤ e + 1 := by
  have hdigit : ∀ m < 10, (asBytes m.repr).length = 1 := by decide +kernel
  induction e generalizing n with
  | zero => exact Nat.le_of_eq (hdigit n h)
  | succ e ih =>
    by_cases hn : n < 10
    · rw [hdigit n hn]
      omega
    · have hdiv : n / 10 < 10 ^ (e + 1) := by
        rw [Nat.pow_succ] at h
        omega
      have hrest := ih (n / 10) hdiv
      rw [Nat.repr_eq_repr_append_repr (by omega), asBytes_append, List.length_append,
        hdigit (n % 10) (by omega)]
      omega

/-- The part of a placeholder key that is the same for all. -/
theorem length_keyPrefix : (asBytes "minip2p-synthetic-conn-").length = 23 := by
  decide +kernel

theorem length_syntheticKey_le (c : ConnectionId) : (syntheticKey c).length ≤ 43 := by
  have hdigits : (asBytes c.asU64.toNat.repr).length ≤ 20 := by
    refine length_asBytes_repr_le 19 _ ?_
    have hlt := c.asU64.toNat_lt
    omega
  rw [syntheticKey_eq, List.length_append, length_keyPrefix]
  omega

/-- A hashed placeholder key has 43 bytes, and the first eleven of them are the same for all. -/
theorem Sample.noCollision : @NoCollision Sample.sha256 := by
  intro c d hc hd h
  have hlen : ∀ {e : ConnectionId}, ¬ (syntheticKey e).length ≤ maxInlineKeyLength →
      (syntheticKey e).length = 43 := by
    intro e he
    have hle := length_syntheticKey_le e
    simp only [maxInlineKeyLength] at he
    omega
  have htake : ∀ e : ConnectionId, (syntheticKey e).take 11 = asBytes "minip2p-syn" := by
    intro e
    rw [syntheticKey_eq, List.take_append_of_le_length (by rw [length_keyPrefix]; decide)]
    decide +kernel
  have hdigest : ∀ {e : ConnectionId}, (syntheticKey e).length = 43 →
      (@Sha256.digest Sample.sha256 (syntheticKey e)).toList = (syntheticKey e).drop 11 := by
    intro e he
    have hdrop : ((syntheticKey e).drop 11).length = 32 := by rw [List.length_drop, he]
    show (((syntheticKey e).drop ((syntheticKey e).length - 32) ++ List.replicate 32 0).take 32)
      = _
    rw [he, List.take_append_of_le_length (Nat.le_of_eq hdrop.symm),
      List.take_of_length_le (Nat.le_of_eq hdrop)]
  have hdrop : (syntheticKey c).drop 11 = (syntheticKey d).drop 11 := by
    rw [← hdigest (hlen hc), ← hdigest (hlen hd), h]
  rw [← List.take_append_drop 11 (syntheticKey c), ← List.take_append_drop 11 (syntheticKey d),
    htake, htake, hdrop]

/-- The digest of a placeholder is its key or 32 bytes long. -/
theorem le_length_digest_syntheticPeerId [Sha256] (c : ConnectionId) :
    23 ≤ (syntheticPeerId c).multihash.digest.length := by
  have hid : syntheticPeerId c = PeerId.fromPublicKeyProtobuf (syntheticKey c) := rfl
  rw [hid, PeerId.fromPublicKeyProtobuf]
  split
  · show 23 ≤ (syntheticKey c).length
    rw [syntheticKey_eq, List.length_append, length_keyPrefix]
    omega
  · simp

theorem Sample.alice_ne_syntheticPeerId (c : ConnectionId) :
    Sample.alice ≠ @syntheticPeerId Sample.sha256 c := by
  intro h
  have hlen := @le_length_digest_syntheticPeerId Sample.sha256 c
  rw [← h] at hlen
  exact absurd hlen (by decide)

/-- Alice connects, is verified, and connects again while a ping waits for a stream. -/
def reconnectRun : List Call :=
  [.event (.connected ⟨1⟩ (Sample.endpoint (some Sample.alice))),
    .event (.peerIdentityVerified ⟨1⟩ (Sample.endpoint (some Sample.alice)) none),
    .ping Sample.alice default 0, .event (.connected ⟨2⟩ (Sample.endpoint (some Sample.alice)))]

theorem reconnectRun_represented :
    Inverse (Sample.run reconnectRun) ∧ Sample.alice ∈ (Sample.run reconnectRun).pendingPings ∧
      (Sample.run reconnectRun).debugAssertFailed = false := by
  have hrun : @HandshakeRun Sample.sha256 reconnectRun := by
    refine ⟨⟨by decide, Sample.alice, rfl, Sample.alice_ne_syntheticPeerId⟩,
      ⟨by decide, Sample.alice, Sample.endpoint (some Sample.alice), rfl, by decide, rfl⟩,
      ⟨by decide, trivial⟩,
      ⟨by decide, Sample.alice, rfl, Sample.alice_ne_syntheticPeerId⟩, trivial⟩
  have h := @representation_of_handshake Sample.sha256 multihashCodec Sample.noCollision
    { protocolVersion := "ipfs/0.1.0", agentVersion := "minip2p/0.1.0", protocols := [],
      publicKey := [] } default reconnectRun hrun
  exact ⟨h.1, by decide +kernel, h.2.2⟩

end Minip2p.Swarm
