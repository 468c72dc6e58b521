import Minip2p.Quic.Dual
import Minip2p.Quic.StreamMethods
import Minip2p.Quic.TransportTheorems

/-!
# The events of a `poll` that fails

`poll` takes the pending events into a vector of its own, adds what it reads, and returns the
vector at its end. Every early return on the way drops it. So after a `poll` that fails the
transport holds nothing of what had been pending or was produced, and the next `poll` that
succeeds delivers none of it (`DeliveredNext`), unless there was nothing to deliver.

The dual-stack `poll` in addition drops what its IPv4 side has returned when its IPv6 side fails.
-/

namespace Minip2p.Quic

variable {W : Type}

/-! ## What a poll collects -/

/-- The vector of `poll` begins with `before`, and nothing is pending besides. -/
structure Collected (before : List TransportEvent) (h : Host W) : Prop where
  events : before <+: h.events
  taken : h.transport.pendingEvents = []

section Collects

variable {net : Net W} {fuel : Nat} {before : List TransportEvent} {id : ConnectionId}

theorem collected_worldly : Worldly (Collected (W := W) before) := fun _ _ hh =>
  ⟨hh.events, hh.taken⟩

theorem push_collected (event : TransportEvent) :
    Keeps (Collected before) (modify fun h => h.push event : HostMethod W Unit) :=
  Keeps.modify fun _ hh => ⟨hh.events.trans (List.prefix_append _ _), hh.taken⟩

/-- A change of the transport that leaves the pending events alone. -/
theorem modifyTransport_collected {f : QuicTransport → QuicTransport}
    (hf : ∀ t, (f t).pendingEvents = t.pendingEvents) :
    Keeps (Collected before) (modifyTransport f : HostMethod W Unit) :=
  Keeps.modify fun h hh => ⟨hh.events, (hf h.transport).trans hh.taken⟩

theorem reindex_collected (previous peer : Option PeerId) :
    Keeps (Collected before) (reindex id previous peer : HostMethod W Unit) := by
  refine Keeps.bind (modifyTransport_collected fun t =>
    t.pendingEvents_removePeerConnection? previous id) fun _ => ?_
  split
  · exact Keeps.pure _
  · exact modifyTransport_collected fun _ => rfl

/-- A method of a connection that only adds to the vector. -/
theorem onConnection_collected {α : Type} {entry : Entry} {method : Quiche W → Method W α}
    (hmethod : ∀ q, Keeps (fun s => before <+: s.events) (method q)) :
    Keeps (Collected before) (onConnection net .polled id entry method) :=
  Triple.zoom (hmethod _) (fun _ hh => hh.events) (fun _ _ _ hh hs => ⟨hs, hh.taken⟩)
    fun _ _ hh hs => ⟨hs, hh.taken⟩

/-- No step of a connection takes an event back. -/
theorem grown_permissive : Permissive fun s : Session W => before <+: s.events where
  world _ _ hs := hs
  stream _ _ _ hs := hs
  event _ _ _ hs := hs.trans (List.prefix_append _ _)
  nextStreamId _ _ hs := hs
  gc _ hs := hs

theorem grown_receives (q : Quiche W) : Receives q fun s : Session W => before <+: s.events where
  toDrains := grown_permissive.steady.drains
  state _ _ hs := hs
  cert _ _ hs := hs
  peer _ _ hs := hs
  event _ _ _ hs := hs.trans (List.prefix_append _ _)

theorem acceptConnection_collected (localSocket source : SocketAddr) :
    Keeps (Collected before) (acceptConnection net fuel localSocket source) := by
  refine Keeps.bind (collected_worldly.ask_keeps _) fun scid => ?_
  split
  · exact Keeps.throw _
  refine Keeps.bind (collected_worldly.ask_keeps _) fun quiche => ?_
  split
  · exact Keeps.throw _
  refine Keeps.bind (collected_worldly.sendInitial_keeps _ _ _) fun _ => ?_
  refine Triple.bind ((allocateConnectionId_triple fun h next hh =>
    ⟨hh.events, hh.taken⟩).mono (fun _ hh => hh) (fun _ _ hh => hh.1) fun _ hh => hh) fun id => ?_
  refine Triple.bind ((collected_worldly.newConnection_triple _ _ _).mono (fun _ hh => hh)
    (fun _ _ hh => hh.1) fun _ hh => hh) fun entry => ?_
  refine Keeps.bind (collected_worldly.ask_keeps _) fun sourceCid => ?_
  refine Keeps.bind Keeps.get fun h => ?_
  refine Keeps.bind (modifyTransport_collected fun _ => rfl) fun _ => ?_
  split
  · exact Keeps.throw _
  · exact Keeps.bind (modifyTransport_collected fun _ => rfl) fun _ =>
      Keeps.bind (push_collected _) fun _ => Keeps.pure _

theorem routePacket_collected (packet : Bytes) (localSocket source : SocketAddr) :
    Keeps (Collected before) (routePacket net fuel packet localSocket source) := by
  refine Keeps.bind Keeps.get fun h => ?_
  dsimp only
  split
  · exact Keeps.pure _
  split
  · exact Keeps.bind (acceptConnection_collected _ _) fun _ => Keeps.pure _
  · exact Keeps.bind Keeps.get fun _ => Keeps.bind (collected_worldly.ask_keeps _) fun _ =>
      Keeps.pure _

theorem pollConnections_collected (ids : List ConnectionId) :
    Keeps (Collected before) (pollConnections net fuel ids) := by
  induction ids with
  | nil => exact Keeps.pure _
  | cons id ids ih =>
    refine Keeps.bind Keeps.get fun h => ?_
    split
    · exact ih
    · refine Keeps.bind (onConnection_collected fun q => grown_permissive.pollStreams_keeps)
        fun _ => ?_
      refine Keeps.bind (collected_worldly.ask_keeps _) fun sourceCid =>
        Keeps.bind (collected_worldly.ask_keeps _) fun closed => ?_
      exact Keeps.bind ih fun _ => Keeps.pure _

theorem removeConnection_collected :
    Keeps (Collected before) (removeConnection id : HostMethod W Unit) := by
  refine Keeps.bind Keeps.get fun h => ?_
  split
  · exact push_collected _
  · exact Keeps.bind (modifyTransport_collected fun t =>
      QuicTransport.pendingEvents_removePeerConnection? _ _ _) fun _ => push_collected _

variable [MultihashCodec] {verifyLibp2pCertificate : Bytes → Except String PeerId}

/-- A packet for a connection loses no event. -/
theorem deliver_collected (packet : Bytes) :
    Keeps (Collected before) (deliver net fuel verifyLibp2pCertificate id packet) := by
  refine Keeps.bind Keeps.get fun h => ?_
  split
  · exact Keeps.pure _
  refine Keeps.bind (onConnection_collected fun q => Keeps.bind
    ((grown_receives q).recvPacket_keeps _ packet) fun _ => Keeps.bind Keeps.get fun _ =>
      Keeps.pure _) fun endpoint => ?_
  refine Keeps.bind (collected_worldly.ask_keeps _) fun sourceCid =>
    Keeps.bind (modifyTransport_collected fun _ => rfl) fun _ => ?_
  split
  · exact Keeps.pure _
  · exact Keeps.bind (reindex_collected _ _) fun _ => push_collected _

theorem pollPackets_collected (turns : Nat) :
    Keeps (Collected before) (pollPacketsGo net fuel verifyLibp2pCertificate turns) := by
  induction turns with
  | zero => exact Keeps.diverge
  | succ turns ih =>
    refine Keeps.bind (collected_worldly.ask_keeps _) fun received => ?_
    split
    · exact Keeps.pure _
    · exact Keeps.throw _
    · refine Keeps.bind (Keeps.bind collected_worldly.localAddr_keeps fun localSocket =>
        Keeps.bind (routePacket_collected _ _ _) fun target => ?_) fun _ => ih
      split
      · exact Keeps.pure _
      · exact deliver_collected _

/-- Whether it returns or fails, `poll` leaves nothing pending, and its vector begins with what
was pending before. What it returns is the vector. -/
theorem poll_collects (h : Host W) :
    Triple (fun h' => h' = h) (poll net fuel verifyLibp2pCertificate)
      (fun events h' => events = h'.events ∧ Collected h.transport.pendingEvents h')
      (Collected h.transport.pendingEvents) := by
  refine Triple.bind (Q := fun _ => Collected h.transport.pendingEvents) (Triple.modify ?_)
    fun _ => ?_
  · rintro _ rfl
    exact ⟨List.prefix_rfl, rfl⟩
  refine Triple.bind (pollPackets_collected fuel) fun _ => ?_
  refine Triple.bind Keeps.get fun h₁ => Triple.bind (collected_worldly.ask_keeps _) fun ids => ?_
  refine Triple.bind (pollConnections_collected ids) fun found => ?_
  refine Triple.bind (Keeps.forM fun update _ => modifyTransport_collected fun _ => rfl)
    fun _ => ?_
  refine Triple.bind (Keeps.forM fun id _ => removeConnection_collected) fun _ => ?_
  refine Triple.get_bind fun h₂ hh₂ => Triple.pure ?_
  rintro _ rfl
  exact ⟨rfl, hh₂⟩

end Collects

/-! ## A poll on an idle network -/

section Idle

variable {bound : SocketAddr} {fuel : Nat}

/-- Idle connections have nothing to report and are not closed. -/
theorem exec_pollConnections_idle (ids : List ConnectionId) (h : Host W) :
    ∃ updates h', Prog.exec (pollConnections (.idle W bound) fuel ids) h =
      some (.ok (updates, []), h') ∧ h'.events = h.events := by
  induction ids generalizing h with
  | nil => exact ⟨[], h, rfl, rfl⟩
  | cons id ids ih =>
    rw [pollConnections, Prog.exec_bind_of_ok (Prog.exec_get h)]
    split
    · exact ih h
    · next entry hentry =>
      -- the connection is written back as it was
      let h₁ := h.restore .polled id entry (h.session .polled entry)
      have hconn : Prog.exec (onConnection (.idle W bound) .polled id entry
          fun q => pollStreams q fuel) h = some (.ok (), h₁) := rfl
      have hcid : Prog.exec (ask ((Net.idle W bound).sourceId entry.quiche)) h₁ =
          some (.ok [], h₁) := rfl
      have hclosed : Prog.exec (ask ((Net.idle W bound).isClosed entry.quiche)) h₁ =
          some (.ok false, h₁) := rfl
      obtain ⟨updates, h', hrest, hevents⟩ := ih h₁
      refine ⟨([], id) :: updates, h', ?_, hevents⟩
      rw [Prog.exec_bind_of_ok hconn, Prog.exec_bind_of_ok hcid, Prog.exec_bind_of_ok hclosed,
        Prog.exec_bind_of_ok hrest]
      rfl

theorem exec_insertCids (updates : List (Bytes × ConnectionId)) (h : Host W) :
    ∃ h', Prog.exec (updates.forM fun (cid, id) => modifyTransport fun t => t.insertCid cid id :
        HostMethod W PUnit) h = some (.ok ⟨⟩, h') ∧ h'.events = h.events := by
  induction updates generalizing h with
  | nil => exact ⟨h, rfl, rfl⟩
  | cons update updates ih =>
    obtain ⟨h', hrest, hevents⟩ := ih (h.modifyTransport fun t => t.insertCid update.1 update.2)
    exact ⟨h', hrest, hevents⟩

/-- On an idle network `poll` returns what was pending. -/
theorem exec_poll_idle [MultihashCodec] (verifyLibp2pCertificate : Bytes → Except String PeerId)
    (h : Host W) :
    ∃ h', Prog.exec (poll (.idle W bound) 1 verifyLibp2pCertificate) h =
      some (.ok h.transport.pendingEvents, h') := by
  have hpackets : Prog.exec (pollPacketsGo (.idle W bound) 1 verifyLibp2pCertificate 1)
      h.takePending = some (.ok (), h.takePending) := rfl
  have hkeys : Prog.exec (ask ((Net.idle W bound).keyOrder
      h.takePending.transport.connections.keys)) h.takePending =
      some (.ok h.transport.connections.keys, h.takePending) := rfl
  obtain ⟨updates, h₁, hconns, hevents₁⟩ := @exec_pollConnections_idle W bound 1
    h.transport.connections.keys h.takePending
  obtain ⟨h₂, hcids, hevents₂⟩ := exec_insertCids updates h₁
  refine ⟨h₂, ?_⟩
  rw [poll, Prog.exec_bind_of_ok (Prog.exec_modify _ h), Prog.exec_bind_of_ok hpackets,
    Prog.exec_bind_of_ok (Prog.exec_get _), Prog.exec_bind_of_ok hkeys,
    Prog.exec_bind_of_ok hconns]
  dsimp only
  rw [Prog.exec_bind_of_ok hcids]
  show some (Except.ok h₂.events, h₂) = _
  rw [hevents₂, hevents₁]
  rfl

/-- On an idle network the dual-stack `poll` returns what was pending on both sides. -/
theorem exec_pollDual_idle [MultihashCodec]
    (verifyLibp2pCertificate : Bytes → Except String PeerId) (d : DualHost W) :
    ∃ d', Prog.exec (pollDual (fun _ => .idle W bound) 1 verifyLibp2pCertificate) d =
      some (.ok (d.ipv4.transport.pendingEvents.map (mapEvent .ipv4) ++
        d.ipv6.transport.pendingEvents.map (mapEvent .ipv6)), d') := by
  obtain ⟨h₄, hipv4⟩ := @exec_poll_idle W bound _ verifyLibp2pCertificate
    (d.forgetVectors.host .ipv4)
  obtain ⟨h₆, hipv6⟩ := @exec_poll_idle W bound _ verifyLibp2pCertificate
    ((d.forgetVectors.setHost .ipv4 h₄).host .ipv6)
  have hside₄ : Prog.exec (onSide .ipv4 (poll (.idle W bound) 1 verifyLibp2pCertificate))
      d.forgetVectors = some (.ok d.ipv4.transport.pendingEvents,
        d.forgetVectors.setHost .ipv4 h₄) := by
    rw [onSide, Prog.exec_zoom, hipv4]
    rfl
  have hside₆ : Prog.exec (onSide .ipv6 (poll (.idle W bound) 1 verifyLibp2pCertificate))
      (d.forgetVectors.setHost .ipv4 h₄) = some (.ok d.ipv6.transport.pendingEvents,
        (d.forgetVectors.setHost .ipv4 h₄).setHost .ipv6 h₆) := by
    rw [onSide, Prog.exec_zoom, hipv6]
    rfl
  refine ⟨(d.forgetVectors.setHost .ipv4 h₄).setHost .ipv6 h₆, ?_⟩
  rw [pollDual, Prog.exec_bind_of_ok (Prog.exec_modify _ d), Prog.exec_bind_of_ok hside₄,
    Prog.exec_bind_of_ok hside₆]
  rfl

end Idle

/-! ## What a failed poll loses -/

/-- Whatever the network does next, the next `poll` that succeeds begins with these events. -/
def DeliveredNext [MultihashCodec] (h : Host W) (events : List TransportEvent) : Prop :=
  ∀ (net : Net W) (fuel : Nat) (verifyLibp2pCertificate : Bytes → Except String PeerId) (world : W)
    (returned : List TransportEvent) (h' : Host W),
    Prog.exec (poll net fuel verifyLibp2pCertificate) { h with world } = some (.ok returned, h') →
      events <+: returned

/-- Whatever the network does next, the next dual-stack `poll` that succeeds returns these events
at the beginning of what it returns for each side. -/
def DeliveredNextDual [MultihashCodec] (d : DualHost W) (ipv4 ipv6 : List TransportEvent) : Prop :=
  ∀ (net : AddressFamily → Net W) (fuel : Nat)
    (verifyLibp2pCertificate : Bytes → Except String PeerId) (world : W)
    (returned : List TransportEvent) (d' : DualHost W),
    Prog.exec (pollDual net fuel verifyLibp2pCertificate) { d with world } =
        some (.ok returned, d') →
      ∃ more₄ more₆, returned = ipv4.map (mapEvent .ipv4) ++ more₄ ++
        (ipv6.map (mapEvent .ipv6) ++ more₆)

/-- What one side had pending before a call or produced in it: what its `poll` took and what it
left. -/
def Side.reported (side : Side) : List TransportEvent := side.events ++ side.transport.pendingEvents

section Failures

variable [MultihashCodec] {fuel : Nat} {verifyLibp2pCertificate : Bytes → Except String PeerId}

/-- Events that are not pending any more are not delivered, unless there are none. -/
theorem deliveredNext_iff {h : Host W} (htaken : h.transport.pendingEvents = [])
    (events : List TransportEvent) : DeliveredNext h events ↔ events = [] := by
  constructor
  · intro hdelivered
    obtain ⟨h', hidle⟩ := @exec_poll_idle W (.v4 #v[0, 0, 0, 0] 0) _ (fun _ => .error "") h
    rw [htaken] at hidle
    exact List.prefix_nil.mp (hdelivered _ _ _ h.world _ _ hidle)
  · rintro rfl net fuel verify world returned h' -
    exact List.nil_prefix

/-- What a `poll` of one side does to it. -/
theorem onSide_poll {net : Net W} {family : AddressFamily} {d d' : DualHost W}
    {r : Except TransportError (List TransportEvent)}
    (h : Prog.exec (onSide family (poll net fuel verifyLibp2pCertificate)) d = some (r, d')) :
    ∃ h', Prog.exec (poll net fuel verifyLibp2pCertificate) (d.host family) = some (r, h') ∧
      d' = d.setHost family h' ∧ Collected (d.side family).transport.pendingEvents h' ∧
      ∀ events, r = .ok events → events = h'.events := by
  rw [onSide, Prog.exec_zoom, Option.map_eq_some_iff] at h
  obtain ⟨⟨r', h'⟩, hexec, heq⟩ := h
  obtain ⟨rfl, rfl⟩ := Prod.mk.inj heq
  obtain ⟨hok, herr⟩ := poll_collects _ (d.host family) rfl _ _ hexec
  cases r' with
  | ok events =>
    obtain ⟨hevents, hcollected⟩ := hok events rfl
    refine ⟨h', hexec, rfl, hcollected, fun events' heq => ?_⟩
    cases heq
    exact hevents
  | error e => exact ⟨h', hexec, rfl, herr e rfl, by rintro _ ⟨⟩⟩

/-- A dual-stack `poll` that succeeds delivers what is pending on both sides. -/
theorem pending_deliveredNextDual (d : DualHost W) :
    DeliveredNextDual d d.ipv4.transport.pendingEvents d.ipv6.transport.pendingEvents := by
  intro net fuel verify world returned d' hexec
  rw [pollDual, Prog.exec_bind_of_ok (Prog.exec_modify _ _)] at hexec
  rcases Prog.exec_bind_eq_some hexec with ⟨e, -, heq⟩ | ⟨ipv4, d₁, hipv4, hrest⟩
  · cases heq
  rcases Prog.exec_bind_eq_some hrest with ⟨e, -, heq⟩ | ⟨ipv6, d₂, hipv6, hreturn⟩
  · cases heq
  cases hreturn
  obtain ⟨h₄, -, rfl, hcollected₄, hevents₄⟩ := onSide_poll hipv4
  obtain ⟨h₆, -, -, hcollected₆, hevents₆⟩ := onSide_poll hipv6
  obtain ⟨more₄, hmore₄⟩ := hcollected₄.events
  obtain ⟨more₆, hmore₆⟩ := hcollected₆.events
  refine ⟨more₄.map (mapEvent .ipv4), more₆.map (mapEvent .ipv6), ?_⟩
  rw [hevents₄ ipv4 rfl, hevents₆ ipv6 rfl, ← hmore₄, ← hmore₆, List.map_append, List.map_append]
  rfl

/-- The next dual-stack `poll` delivers what the sides still hold and nothing of what their polls
have taken. -/
theorem reported_deliveredNextDual_iff (d : DualHost W) :
    DeliveredNextDual d d.ipv4.reported d.ipv6.reported ↔
      d.ipv4.events = [] ∧ d.ipv6.events = [] := by
  constructor
  · intro hdelivered
    obtain ⟨d', hidle⟩ := @exec_pollDual_idle W (.v4 #v[0, 0, 0, 0] 0) _ (fun _ => .error "") d
    obtain ⟨more₄, more₆, hreturned⟩ := hdelivered _ _ _ d.world _ _ hidle
    -- an idle network returns the pending events only, so there is no room for others
    have hlength := congrArg List.length hreturned
    simp only [Side.reported, List.length_append, List.length_map] at hlength
    exact ⟨List.length_eq_zero_iff.mp (by omega), List.length_eq_zero_iff.mp (by omega)⟩
  · rintro ⟨hipv4, hipv6⟩
    rw [Side.reported, Side.reported, hipv4, hipv6]
    exact pending_deliveredNextDual d

/-- A `poll` that fails has lost what was pending before the call or was produced in it: the next
one that succeeds delivers these events exactly when there are none. The dual-stack `poll` loses
what its sides have taken or produced by the time it fails, so that the events pending on the IPv6
side survive only a failure of the IPv4 side. -/
theorem failed_poll_delivers_iff :
    (∀ (net : Net W) (fuel : Nat) (verifyLibp2pCertificate : Bytes → Except String PeerId)
      (h h' : Host W) (e : TransportError),
      Prog.exec (poll net fuel verifyLibp2pCertificate) h = some (.error e, h') →
      ∃ produced, h'.events = h.transport.pendingEvents ++ produced ∧
        (DeliveredNext h' (h.transport.pendingEvents ++ produced) ↔
          h.transport.pendingEvents = [] ∧ produced = [])) ∧
    (∀ (net : AddressFamily → Net W) (fuel : Nat)
      (verifyLibp2pCertificate : Bytes → Except String PeerId) (d d' : DualHost W)
      (e : TransportError),
      Prog.exec (pollDual net fuel verifyLibp2pCertificate) d = some (.error e, d') →
      ∃ produced₄ produced₆,
        d'.ipv4.reported = d.ipv4.transport.pendingEvents ++ produced₄ ∧
        d'.ipv6.reported = d.ipv6.transport.pendingEvents ++ produced₆ ∧
        (DeliveredNextDual d' (d.ipv4.transport.pendingEvents ++ produced₄)
            (d.ipv6.transport.pendingEvents ++ produced₆) ↔
          d.ipv4.transport.pendingEvents = [] ∧ produced₄ = [] ∧
            ((∃ e h', Prog.exec (poll (net .ipv4) fuel verifyLibp2pCertificate)
                (d.forgetVectors.host .ipv4) = some (.error e, h')) ∨
              d.ipv6.transport.pendingEvents = [] ∧ produced₆ = []))) := by
  constructor
  · intro net fuel verify h h' e hexec
    obtain ⟨hevents, htaken⟩ := (poll_collects h h rfl _ _ hexec).2 e rfl
    obtain ⟨produced, hproduced⟩ := hevents
    refine ⟨produced, hproduced.symm, ?_⟩
    rw [deliveredNext_iff htaken, List.append_eq_nil_iff]
  · intro net fuel verify d d' e hexec
    rw [pollDual, Prog.exec_bind_of_ok (Prog.exec_modify _ _)] at hexec
    have hreported : ∀ (side : Side) (before produced : List TransportEvent),
        side.transport.pendingEvents = [] → before ++ produced = side.events →
        side.reported = before ++ produced := by
      intro side before produced htaken hevents
      rw [Side.reported, htaken, List.append_nil, hevents]
    rcases Prog.exec_bind_eq_some hexec with ⟨e', hipv4, -⟩ | ⟨ipv4, d₁, hipv4, hrest⟩
    -- the IPv4 side fails: the IPv6 side is left as it was
    · obtain ⟨h₄, hfailed, hd', ⟨⟨produced, hproduced⟩, htaken⟩, -⟩ := onSide_poll hipv4
      have hipv4' : d'.ipv4 = ⟨h₄.transport, h₄.events⟩ := by rw [hd']; rfl
      have hipv6' : d'.ipv6 = ⟨d.ipv6.transport, []⟩ := by rw [hd']; rfl
      have hreported₄ : d'.ipv4.reported = d.ipv4.transport.pendingEvents ++ produced :=
        hreported _ _ _ (by rw [hipv4']; exact htaken) (by rw [hipv4']; exact hproduced)
      have hreported₆ : d'.ipv6.reported = d.ipv6.transport.pendingEvents ++ [] := by
        rw [hipv6', List.append_nil]
        rfl
      refine ⟨produced, [], hreported₄, hreported₆, ?_⟩
      rw [← hreported₄, ← hreported₆, reported_deliveredNextDual_iff, hipv4', hipv6', ← hproduced]
      constructor
      · rintro ⟨hnone, -⟩
        obtain ⟨hpending, hnone⟩ := List.append_eq_nil_iff.mp hnone
        exact ⟨hpending, hnone, .inl ⟨e', h₄, hfailed⟩⟩
      · rintro ⟨hpending, rfl, -⟩
        exact ⟨List.append_eq_nil_iff.mpr ⟨hpending, rfl⟩, rfl⟩
    -- the IPv6 side fails: what the IPv4 side has returned is dropped with the rest
    rcases Prog.exec_bind_eq_some hrest with ⟨e', hipv6, -⟩ | ⟨ipv6, d₂, -, hreturn⟩
    · obtain ⟨h₄, hok, rfl, ⟨⟨produced₄, hproduced₄⟩, htaken₄⟩, -⟩ := onSide_poll hipv4
      obtain ⟨h₆, -, hd', ⟨⟨produced₆, hproduced₆⟩, htaken₆⟩, -⟩ := onSide_poll hipv6
      have hipv4' : d'.ipv4 = ⟨h₄.transport, h₄.events⟩ := by rw [hd']; rfl
      have hipv6' : d'.ipv6 = ⟨h₆.transport, h₆.events⟩ := by rw [hd']; rfl
      have hreported₄ : d'.ipv4.reported = d.ipv4.transport.pendingEvents ++ produced₄ :=
        hreported _ _ _ (by rw [hipv4']; exact htaken₄) (by rw [hipv4']; exact hproduced₄)
      have hreported₆ : d'.ipv6.reported = d.ipv6.transport.pendingEvents ++ produced₆ :=
        hreported _ _ _ (by rw [hipv6']; exact htaken₆) (by rw [hipv6']; exact hproduced₆)
      refine ⟨produced₄, produced₆, hreported₄, hreported₆, ?_⟩
      rw [← hreported₄, ← hreported₆, reported_deliveredNextDual_iff, hipv4', hipv6',
        ← hproduced₄, ← hproduced₆]
      constructor
      · rintro ⟨hnone₄, hnone₆⟩
        obtain ⟨hpending₄, hnone₄⟩ := List.append_eq_nil_iff.mp hnone₄
        exact ⟨hpending₄, hnone₄, .inr (List.append_eq_nil_iff.mp hnone₆)⟩
      · rintro ⟨hpending₄, rfl, ⟨e, h', hfailed⟩ | hnone₆⟩
        · cases hfailed.symm.trans hok
        · exact ⟨List.append_eq_nil_iff.mpr ⟨hpending₄, rfl⟩,
            List.append_eq_nil_iff.mpr hnone₆⟩
    · cases hreturn

end Failures

/-- An IPv4 socket whose `recv_from` fails, beside an idle IPv6 socket. -/
def halfBrokenNet : AddressFamily → Net Unit
  | .ipv4 =>
    { Net.idle Unit (.v4 #v[0, 0, 0, 0] 4001) with
      recvFrom := fun w => (.error "connection reset (os error 10054)", w) }
  | .ipv6 => .idle Unit (.v6 (Vector.replicate 16 0) 4001 0 0)

/-- The IPv6 side has an event pending. -/
def halfListening : DualHost Unit :=
  ⟨(), ⟨.new, []⟩, ⟨{ QuicTransport.new with pendingEvents := [.listening ⟨[.quicV1]⟩] }, []⟩⟩

/-- The IPv4 side fails with nothing to report, and Listening of the IPv6 side is delivered. -/
theorem failed_poll_delivers_iff_ipv6 :
    ∃ d' e, Prog.exec (@pollDual Unit halfBrokenNet 1 multihashCodec fun _ => .error "")
        halfListening = some (.error e, d') ∧
      @DeliveredNextDual Unit multihashCodec d' [] [.listening ⟨[.quicV1]⟩] := by
  refine ⟨_, _, rfl, ?_⟩
  obtain ⟨produced₄, produced₆, hipv4, hipv6, hiff⟩ :=
    (@failed_poll_delivers_iff Unit multihashCodec).2 halfBrokenNet 1 (fun _ => .error "")
      halfListening _ _ rfl
  obtain rfl : [] = produced₄ := hipv4
  obtain rfl : [] = produced₆ := (List.cons.inj hipv6).2
  exact hiff.mpr ⟨rfl, rfl, .inl ⟨_, _, rfl⟩⟩

/-! ## An unreachable network -/

/-- A server's connection that has an answer to each packet, on a socket that cannot send. The
world says whether a packet has been received. -/
def unreachableQuiche : Quiche Bool :=
  { Quiche.idle Bool with
    isServer := fun w => (true, w)
    recv := fun _ _ => (.ok (), true)
    send := fun w => (if w then .ok [0x40] else .error .done, w)
    sendTo := fun _ w => (.error "Network is unreachable (os error 101)", w) }

/-- Every packet is the first one of a new connection, and no answer can be sent. -/
def unreachableNet : Net Bool :=
  { Net.idle Bool (.v4 #v[0, 0, 0, 0] 4001) with
    quiche := fun _ => unreachableQuiche
    header := fun _ => some ⟨true, [1]⟩
    recvFrom := fun w => (.packet [0xc0] (.v4 #v[192, 0, 2, 7] 9000), w) }

/-- A listening transport gets the first packet of a connection and cannot answer it: `poll` fails,
and Listening and IncomingConnection are not delivered by the next one that succeeds. -/
theorem unreachable_poll_loses_events :
    ∃ h h', @runHost Bool multihashCodec unreachableNet 1 (fun _ => .error "") ⟨false, .new, []⟩
        [.listenOnBoundAddr] = some h ∧
      h.transport.pendingEvents = [.listening ⟨[.ip4 #v[0, 0, 0, 0], .udp 4001, .quicV1]⟩] ∧
      Prog.exec (@poll Bool unreachableNet 1 multihashCodec fun _ => .error "") h =
        some (.error (.closeFailed ⟨1⟩ "udp send error: Network is unreachable (os error 101)"),
          h') ∧
      h'.events = [.listening ⟨[.ip4 #v[0, 0, 0, 0], .udp 4001, .quicV1]⟩,
        .incomingConnection ⟨1⟩ ⟨⟨[.ip4 #v[192, 0, 2, 7], .udp 9000, .quicV1]⟩, none⟩] ∧
      ¬ @DeliveredNext Bool multihashCodec h' h'.events := by
  let h : Host Bool := ⟨false, { QuicTransport.new with
    listenAddr := some (.v4 #v[0, 0, 0, 0] 4001)
    pendingEvents := [.listening ⟨[.ip4 #v[0, 0, 0, 0], .udp 4001, .quicV1]⟩] }, []⟩
  have hpoll : (Prog.exec (@poll Bool unreachableNet 1 multihashCodec fun _ => .error "") h).map
      (fun p => ((match p.1 with | .ok _ => none | .error e => some e), p.2.events)) =
      some (some (.closeFailed ⟨1⟩ "udp send error: Network is unreachable (os error 101)"),
        [.listening ⟨[.ip4 #v[0, 0, 0, 0], .udp 4001, .quicV1]⟩,
        .incomingConnection ⟨1⟩ ⟨⟨[.ip4 #v[192, 0, 2, 7], .udp 9000, .quicV1]⟩, none⟩]) := by
    decide +kernel
  obtain ⟨⟨r, h'⟩, hexec, hresult⟩ := Option.map_eq_some_iff.mp hpoll
  rw [Prod.mk.injEq] at hresult
  obtain ⟨hr, hevents⟩ := hresult
  cases r with
  | ok events => cases hr
  | error e =>
    obtain rfl := Option.some.inj hr
    refine ⟨h, h', rfl, rfl, hexec, hevents, ?_⟩
    have htaken := ((@poll_collects Bool unreachableNet 1 multihashCodec _ h h rfl _ _
      hexec).2 _ rfl).taken
    rw [@deliveredNext_iff Bool multihashCodec h' htaken]
    intro hnone
    cases hevents.symm.trans hnone

end Minip2p.Quic
