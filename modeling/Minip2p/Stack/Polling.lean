import Minip2p.Quic.Indexes
import Minip2p.Stack.Host

/-!
# A poll of the transport and the history

A poll hands packets to their connections, reads the streams of every connection and reports those
that have closed. Each event it collects may be told after the ones before it, as long as the
streams it reads are those of connections that have been reported (`readsReported`): a peer that
failed the check of its certificate is still established for quiche.
-/

namespace Minip2p.Stack

open Swarm (Call Connected Closed lastEvent?)
open Quic (QuicTransport Session Method HostMethod Quiche Net Entry Host SocketAddr Along)

variable {W : Type}

/-! ## Which streams are read -/

/-- The events report the connection. -/
def reports (events : List TransportEvent) (id : ConnectionId) : Bool :=
  events.any fun
    | .connected c _ => c = id
    | _ => false

section Reads

variable (net : Net W) (fuel : Nat) (reported : List TransportEvent)

/-- Where the next turn of `pollConnections` starts. -/
def afterTurn (entry : Entry) (h : Host W) : Host W :=
  { h with world := (net.isClosed entry.quiche (net.sourceId entry.quiche h.world).2).2 }

/-- `pollConnections` reads streams on connections only that have been reported by then; `reported`
are the events that were handed out before. -/
def readsReported : List ConnectionId → Host W → Bool
  | [], _ => true
  | id :: ids, h =>
    match h.transport.connections[id]? with
    | none => readsReported ids h
    | some entry =>
      (!((net.quiche entry.quiche).isEstablished h.world).1 || reports (reported ++ h.events) id) &&
        match Prog.exec (Quic.onConnection net .polled id entry fun q =>
          Quic.pollStreams q fuel) h with
        | some (.ok _, h) => readsReported ids (afterTurn net entry h)
        | _ => true

variable [MultihashCodec] (verifyLibp2pCertificate : Bytes → Except String PeerId)

/-- A poll up to its loop over the connections. -/
def receive : HostMethod W (List ConnectionId) := do
  modify (·.takePending)
  Quic.pollPacketsGo net fuel verifyLibp2pCertificate fuel
  let h ← get
  Quic.ask (net.keyOrder h.transport.connections.keys)

/-- The rest of it. -/
def sweep (ids : List ConnectionId) : HostMethod W (List TransportEvent) := do
  let found ← Quic.pollConnections net fuel ids
  found.1.forM fun update => Quic.modifyTransport fun t => t.insertCid update.1 update.2
  found.2.forM Quic.removeConnection
  let h ← get
  return h.events

/-- A poll receives what has come, and then looks after every connection. -/
theorem poll_eq : Quic.poll net fuel verifyLibp2pCertificate =
    receive net fuel verifyLibp2pCertificate >>= sweep net fuel := by
  simp only [Quic.poll, receive, bind_assoc]
  rfl

/-- A poll reads streams on connections only that have been reported. -/
def pollReadsReported (h : Host W) : Bool :=
  match Prog.exec (receive net fuel verifyLibp2pCertificate) h with
  | some (.ok ids, h) => readsReported net fuel reported ids h
  | _ => true

end Reads

/-! ## Packets -/

section Packets

variable {net : Net W} {laws : Setup net} {told : List Call} {nowMs : UInt64}
  {limit : Nat} {id : ConnectionId} {fuel : Nat}

theorem findByPeer_counted (source : SocketAddr) :
    Keeps (Counted laws .polled told nowMs limit) (Quic.findByPeer net source) :=
  Keeps.bind Keeps.get fun _ =>
    Keeps.bind (counted_along.ask_keeps (.keyOrder _)) fun _ => Keeps.pure _

/-- Routing a packet may make a connection. -/
theorem routePacket_counted (packet : Bytes) (localSocket source : SocketAddr)
    (hwrap : limit + 1 < 2 ^ 64) :
    Triple (Counted laws .polled told nowMs limit)
      (Quic.routePacket net fuel packet localSocket source)
      (fun _ => Counted laws .polled told nowMs (limit + 1)) (fun _ => True) := by
  have hmore : ∀ h, Counted laws .polled told nowMs limit h →
      Counted laws .polled told nowMs (limit + 1) h := fun h hh =>
    ⟨hh.mirrors, Nat.le_succ_of_le hh.limit⟩
  refine Triple.bind Keeps.get.returning fun h => ?_
  dsimp only
  split
  · exact Triple.pure hmore
  split
  · exact Triple.bind (acceptConnection_counted _ _ hwrap) fun _ => Triple.pure fun _ hh => hh
  · exact (findByPeer_counted source).mono (fun _ hh => hh) (fun _ => hmore) fun _ _ => trivial

/-- A packet was handed to a connection, which has an endpoint now. -/
structure Delivered (laws : Setup net) (told : List Call) (nowMs : UInt64) (limit : Nat)
    (id : ConnectionId) (previous : Option PeerId) (endpoint : ConnectionEndpoint) (h : Host W) :
    Prop where
  counted : Counted laws .polled told nowMs limit h
  below : id.asU64.toNat < h.transport.nextConnectionId.toNat
  live : ¬ Closed (history told nowMs h.events) id
  reports : endpoint.peerId = previous ∨ ∃ p connected, endpoint.peerId = some p ∧
    lastEvent? (history told nowMs h.events) = some (.connected id connected) ∧
    connected.peerId = some p

/-- A change of the indexes keeps what was delivered. -/
theorem Delivered.index {previous : Option PeerId} {endpoint : ConnectionEndpoint} {h : Host W}
    (hh : Delivered laws told nowMs limit id previous endpoint h)
    {f : QuicTransport → QuicTransport} (hf : OnlyIndexes f) :
    Delivered laws told nowMs limit id previous endpoint (h.modifyTransport f) := by
  refine ⟨hh.counted.index hf, ?_, hh.live, hh.reports⟩
  show id.asU64.toNat < (f h.transport).nextConnectionId.toNat
  rw [hf.nextConnectionId]
  exact hh.below

/-- Filing a connection anew keeps what was delivered. -/
theorem reindex_delivered {previous : Option PeerId} {endpoint : ConnectionEndpoint} :
    Keeps (Delivered (W := W) laws told nowMs limit id previous endpoint)
      (Quic.reindex id previous endpoint.peerId) := by
  refine Keeps.bind (Keeps.modify fun h hh => hh.index (.removePeerConnection? previous id))
    fun _ => ?_
  split
  · exact Keeps.pure _
  · exact Keeps.modify fun h hh => hh.index (.indexPeerConnection _ id)

variable [MultihashCodec] {verifyLibp2pCertificate : Bytes → Except String PeerId}

/-- What `deliver` runs on a connection. -/
def receivePacket (fuel : Nat) (verifyLibp2pCertificate : Bytes → Except String PeerId)
    (packet : Bytes) (q : Quiche W) : Method W ConnectionEndpoint := do
  Quic.recvPacket q fuel verifyLibp2pCertificate packet
  let s ← get
  return s.conn.endpoint

/-- A packet keeps the mirror of its connection. -/
theorem receivePacket_mirrors {x : Setting} {s₀ : Session W} (fuel : Nat) (packet : Bytes)
    (hs₀ : SessionMirrors laws x s₀)
    (hverify : ∀ der p, verifyLibp2pCertificate der = .ok p → laws.verified p) :
    Triple (fun s => s = s₀)
      (receivePacket fuel verifyLibp2pCertificate packet (net.quiche x.quiche))
      (fun endpoint s => SessionMirrors laws x s ∧ Reports x s₀.conn.endpoint.peerId s ∧
        endpoint = s.conn.endpoint)
      (fun _ => True) := by
  refine Triple.bind (recvPacket_mirrors packet hs₀ hverify) fun _ => ?_
  refine Triple.get_bind fun s hs => Triple.pure ?_
  rintro _ rfl
  exact ⟨hs.1, hs.2, rfl⟩

/-- Delivering a packet keeps the count. -/
theorem deliver_counted (packet : Bytes)
    (hverify : ∀ der p, verifyLibp2pCertificate der = .ok p → laws.verified p) :
    Triple (Counted laws .polled told nowMs limit)
      (Quic.deliver net fuel verifyLibp2pCertificate id packet)
      (fun _ => Counted laws .polled told nowMs limit) (fun _ => True) := by
  apply Triple.get_bind
  intro h₀ hh₀
  split
  · exact Triple.pure fun h hh => hh ▸ hh₀
  next entry hentry =>
  dsimp only
  refine Triple.bind (Q := fun endpoint h =>
    Delivered laws told nowMs limit id entry.endpoint.peerId endpoint h) ?_ fun endpoint => ?_
  · have hreceive := receivePacket_mirrors fuel packet (hh₀.mirrors.session hentry) hverify
    refine Triple.mono (onConnection_triple hreceive) (fun _ hh => hh) ?_ fun _ _ => trivial
    rintro _ _ ⟨s, ⟨hs, hreports, rfl⟩, rfl⟩
    exact ⟨⟨hh₀.mirrors.restore hs (by rintro ⟨⟩), hh₀.limit⟩, hs.bound, hs.self.live, hreports⟩
  refine Triple.bind (Q := fun _ h =>
    Delivered laws told nowMs limit id entry.endpoint.peerId endpoint h) (Triple.modifyGet ?_)
    fun sourceCid => ?_
  · exact fun h hh => ⟨counted_along h _ (.sourceId entry.quiche h.world) hh.counted, hh.below,
      hh.live, hh.reports⟩
  refine Triple.bind (Q := fun _ h =>
    Delivered laws told nowMs limit id entry.endpoint.peerId endpoint h)
    (Triple.modify fun h hh => hh.index (.insertCid sourceCid id)) fun _ => ?_
  split
  · exact Triple.pure fun _ hh => hh.counted
  next hchanged =>
  refine Triple.bind reindex_delivered.returning fun _ => Triple.modify fun h hh => ?_
  -- the change was reported by the last event
  obtain ⟨p, connected, hp, hlast, hconnected⟩ := hh.reports.resolve_left hchanged
  refine ⟨hh.counted.mirrors.push ⟨connected_of_lastEvent? hlast, hh.live⟩
    ⟨p, connected, hp, hlast, hconnected⟩ ?_ ?_, hh.counted.limit⟩
  · rintro _ ⟨⟩
    exact hh.below
  · exact fun other entry _ => ⟨by rintro ⟨⟩, by rintro ⟨⟩, fun _ => by rintro ⟨⟩⟩

variable (hverify : ∀ der p, verifyLibp2pCertificate der = .ok p → laws.verified p)

include hverify

/-- A packet counts at most one new connection. -/
theorem pollPacket_counted (packet : Bytes) (source : SocketAddr) (hwrap : limit + 1 < 2 ^ 64) :
    Triple (Counted laws .polled told nowMs limit)
      (Quic.pollPacket net fuel verifyLibp2pCertificate packet source)
      (fun _ => Counted laws .polled told nowMs (limit + 1)) (fun _ => True) := by
  refine Triple.bind counted_along.localAddr_keeps.returning fun localSocket =>
    Triple.bind (routePacket_counted _ _ _ hwrap) fun target => ?_
  split
  · exact Triple.pure fun _ hh => hh
  · exact deliver_counted packet hverify

/-- The packets of a poll count at most one new connection each. -/
theorem pollPacketsGo_counted (turns : Nat) (hwrap : limit + turns < 2 ^ 64) :
    Triple (Counted laws .polled told nowMs limit)
      (Quic.pollPacketsGo net fuel verifyLibp2pCertificate turns)
      (fun _ => HostMirrors laws .polled told nowMs) (fun _ => True) := by
  induction turns generalizing limit with
  | zero => exact Triple.diverge
  | succ turns ih =>
    refine Triple.bind (counted_along.ask_keeps .recvFrom).returning fun received => ?_
    split
    · exact Triple.pure fun _ hh => hh.mirrors
    · exact Triple.throw fun _ _ => trivial
    · exact Triple.bind (pollPacket_counted hverify _ _ (by omega)) fun _ => ih (by omega)

/-- The receive loop, after which the ids of the table are listed. -/
theorem receive_mirrors {h₀ : Host W} (hh₀ : HostMirrors laws .pending told nowMs h₀)
    (hwrap : h₀.transport.nextConnectionId.toNat + fuel < 2 ^ 64) :
    Triple (fun h => h = h₀) (receive net fuel verifyLibp2pCertificate)
      (fun ids h => HostMirrors laws .polled told nowMs h ∧
        ids.Perm h.transport.connections.keys) (fun _ => True) := by
  refine Triple.bind (Q := fun _ => Counted laws .polled told nowMs
    h₀.transport.nextConnectionId.toNat) (Triple.modify ?_) fun _ => ?_
  · rintro h rfl
    exact ⟨⟨hh₀.table, by rintro ⟨⟩, fun _ => rfl⟩, Nat.le_refl _⟩
  refine Triple.bind (pollPacketsGo_counted hverify fuel hwrap) fun _ => ?_
  refine Triple.get_bind fun h hh => Triple.modifyGet ?_
  rintro _ rfl
  exact ⟨HostMirrors.along _ _ (.keyOrder _ _) hh, net.keyOrder_perm _ _⟩

end Packets

/-! ## Streams and closed connections -/

section Sweep

variable {net : Net W} {laws : Setup net} {told : List Call} {nowMs : UInt64}
  {id : ConnectionId} {fuel : Nat} {reported : List TransportEvent}

/-- What was reported in this poll is connected. -/
theorem connected_of_reports (hreported : ∀ c, reports reported c = true → Connected told c)
    {events : List TransportEvent} (h : reports (reported ++ events) id = true) :
    Connected (history told nowMs events) id := by
  rw [history, connected_append_iff]
  rw [reports, List.any_append, Bool.or_eq_true] at h
  refine h.imp (hreported id) fun hnew => ?_
  obtain ⟨event, hevent, hid⟩ := List.any_eq_true.mp hnew
  refine ⟨.input (.transport event nowMs), List.mem_map.mpr ⟨event, hevent, rfl⟩, ?_⟩
  cases event with
  | connected c endpoint =>
    obtain rfl := of_decide_eq_true hid
    rfl
  | _ => cases hid

/-- The turn of a connection keeps the mirror. -/
theorem HostMirrors.afterTurn {h : Host W} (hh : HostMirrors laws .polled told nowMs h)
    (entry : Entry) : HostMirrors laws .polled told nowMs (afterTurn net entry h) := by
  have hasked := HostMirrors.along h _ (.sourceId entry.quiche h.world) hh
  exact HostMirrors.along { h with world := (net.sourceId entry.quiche h.world).2 } _
    (.isClosed entry.quiche _) hasked

/-- One turn of the loop reads the streams of a connection. -/
theorem turn_mirrors {h₀ : Host W} {entry : Entry} (fuel : Nat)
    (hh₀ : HostMirrors laws .polled told nowMs h₀)
    (hentry : h₀.transport.connections[id]? = some entry)
    (hactive : ((net.quiche entry.quiche).isEstablished h₀.world).1 = true →
      Connected (history told nowMs h₀.events) id) :
    Triple (fun h => h = h₀)
      (Quic.onConnection net .polled id entry fun q => Quic.pollStreams q fuel)
      (fun _ h => HostMirrors laws .polled told nowMs (afterTurn net entry h))
      (fun _ => True) := by
  have hpoll := pollStreams_mirrors fuel (hh₀.session hentry) hactive
  refine (onConnection_triple hpoll).mono (fun _ hh => hh) ?_ fun _ _ => trivial
  rintro _ _ ⟨s, hs, rfl⟩
  exact (hh₀.restore hs (by rintro ⟨⟩)).afterTurn entry

/-- The loop finds closed connections among those of its list. -/
theorem pollConnections_mirrors
    (hreported : ∀ c, reports reported c = true → Connected told c) (ids : List ConnectionId)
    {h₀ : Host W} (hh₀ : HostMirrors laws .polled told nowMs h₀)
    (hreads : readsReported net fuel reported ids h₀ = true) :
    Triple (fun h => h = h₀) (Quic.pollConnections net fuel ids)
      (fun found h => HostMirrors laws .polled told nowMs h ∧ found.2.Sublist ids)
      (fun _ => True) := by
  induction ids generalizing h₀ with
  | nil => exact Triple.pure fun h hh => ⟨hh ▸ hh₀, .slnil⟩
  | cons id ids ih =>
    apply Triple.get_bind
    rintro h₁ rfl
    rw [readsReported] at hreads
    split
    · next hnone =>
      rw [hnone] at hreads
      exact (ih hh₀ hreads).mono (fun _ hh => hh) (fun _ _ hh => ⟨hh.1, hh.2.cons id⟩)
        fun _ hh => hh
    next entry hentry =>
    rw [hentry, Bool.and_eq_true] at hreads
    obtain ⟨hestablished, hreads⟩ := hreads
    rw [Bool.or_eq_true, Bool.not_eq_true'] at hestablished
    have hactive : ((net.quiche entry.quiche).isEstablished h₁.world).1 = true →
        Connected (history told nowMs h₁.events) id := by
      intro hasked
      refine connected_of_reports hreported (hestablished.resolve_left fun hnot => ?_)
      cases hasked.symm.trans hnot
    -- where the rest of the loop starts
    let J : Host W → Prop := fun h => HostMirrors laws .polled told nowMs h ∧
      readsReported net fuel reported ids h = true
    have hturn : Triple (fun h => h = h₁)
        (Quic.onConnection net .polled id entry fun q => Quic.pollStreams q fuel)
        (fun _ h => J (afterTurn net entry h)) (fun _ => True) := by
      refine ((turn_mirrors fuel hh₀ hentry hactive).and (Triple.returned _ h₁)).mono
        (fun _ hh => ⟨hh, hh⟩) ?_ fun _ _ => trivial
      rintro _ h ⟨hh, hexec⟩
      rw [hexec] at hreads
      exact ⟨hh, hreads⟩
    refine Triple.bind hturn fun _ => ?_
    refine Triple.bind (Q := fun _ h =>
      J { h with world := (net.isClosed entry.quiche h.world).2 }) (Triple.modifyGet
        fun _ hh => hh) fun sourceCid => ?_
    refine Triple.bind (Q := fun _ h => J h) (Triple.modifyGet fun _ hh => hh) fun closed => ?_
    refine Triple.bind (Q := fun found h => HostMirrors laws .polled told nowMs h ∧
      found.2.Sublist ids) ?_ fun found => Triple.pure fun h hh => ⟨hh.1, ?_⟩
    · intro h hh
      exact ih hh.1 hh.2 h rfl
    · split
      · exact hh.2.cons_cons id
      · exact hh.2.cons id

/-- A connection of the table is taken out and reported as closed. -/
theorem removeConnection_mirrors (ids : List ConnectionId) :
    Triple (fun h : Host W => HostMirrors laws .polled told nowMs h ∧ (id :: ids).Nodup ∧
        Quic.Known (id :: ids) h)
      (Quic.removeConnection id)
      (fun _ h => HostMirrors laws .polled told nowMs h ∧ ids.Nodup ∧ Quic.Known ids h)
      (fun _ => True) := by
  apply Triple.get_bind
  rintro h₀ ⟨hh₀, hnodup, hknown⟩
  obtain ⟨hnot, hnodup⟩ := List.nodup_cons.mp hnodup
  obtain ⟨entry, hentry⟩ := BTreeMap.exists_getElem?_of_mem (hknown id List.mem_cons_self)
  split
  · next hnone => cases hentry.symm.trans hnone
  next entry' hentry' =>
  obtain rfl := Option.some.inj (hentry.symm.trans hentry')
  have hunindex := OnlyIndexes.unindexConnection id entry.endpoint.peerId
  let t : QuicTransport :=
    { h₀.transport with connections := h₀.transport.connections.erase id }.unindexConnection id
      entry.endpoint.peerId
  have hconnections : t.connections = h₀.transport.connections.erase id := hunindex.connections _
  have hpending : t.pendingEvents = h₀.transport.pendingEvents := hunindex.pendingEvents _
  have hnext : t.nextConnectionId = h₀.transport.nextConnectionId := hunindex.nextConnectionId _
  refine Triple.bind (Q := fun _ h => h = { h₀ with transport := t })
    (Triple.modify fun h hh => by rw [hh]; rfl) fun _ => Triple.modify ?_
  rintro _ rfl
  refine ⟨⟨?_, by rintro ⟨⟩, fun _ => hpending.trans (hh₀.empty rfl)⟩, hnodup, ?_⟩
  · show TableMirrors laws (history told nowMs (h₀.events ++ [.closed id])) h₀.world t.connections
      t.nextConnectionId
    rw [history_concat, hconnections, hnext]
    exact hh₀.table.remove hentry
  · intro other hother
    show other ∈ t.connections
    rw [hconnections]
    refine BTreeMap.mem_erase_iff.mpr ⟨?_, hknown other (List.mem_cons_of_mem _ hother)⟩
    rintro rfl
    exact hnot hother

/-- Looking after every connection keeps the mirror. -/
theorem sweep_mirrors (hreported : ∀ c, reports reported c = true → Connected told c)
    {ids : List ConnectionId} {h₀ : Host W} (hh₀ : HostMirrors laws .polled told nowMs h₀)
    (hids : ids.Perm h₀.transport.connections.keys)
    (hreads : readsReported net fuel reported ids h₀ = true) :
    Triple (fun h => h = h₀) (sweep net fuel ids)
      (fun _ => HostMirrors laws .polled told nowMs) (fun _ => True) := by
  have hknown : Quic.Known ids h₀ := fun id hid => Std.ExtTreeMap.mem_keys.mp (hids.mem_iff.mp hid)
  have hnodup : ids.Nodup := hids.nodup_iff.mpr h₀.transport.connections.nodup_keys
  refine Triple.bind (((pollConnections_mirrors hreported ids hh₀ hreads).and
    (Quic.pollConnections_known ids ids)).mono (fun h hh => ⟨hh, hh ▸ hknown⟩) (fun _ _ hh => hh)
    fun _ _ => trivial) fun found => ?_
  let J : Host W → Prop := fun h => HostMirrors laws .polled told nowMs h ∧ found.2.Nodup ∧
    Quic.Known found.2 h
  have hcids : Keeps J (found.1.forM fun update =>
      Quic.modifyTransport fun t => t.insertCid update.1 update.2) :=
    Keeps.forM fun update _ => Keeps.modify fun h hh =>
      ⟨hh.1.index (.insertCid update.1 update.2), hh.2.1, hh.2.2⟩
  refine Triple.bind (hcids.returning.mono ?_ (fun _ _ hh => hh) fun _ hh => hh) fun _ => ?_
  · rintro h ⟨⟨hh, hfound⟩, hknown, -⟩
    exact ⟨hh, hfound.nodup hnodup, fun id hid => hknown id (hfound.subset hid)⟩
  · refine Triple.bind (Triple.forM (P := fun ids h => HostMirrors laws .polled told nowMs h ∧
      ids.Nodup ∧ Quic.Known ids h) (fun id ids => removeConnection_mirrors ids) found.2)
      fun _ => ?_
    exact Triple.get_bind fun h hh => Triple.pure fun _ hsame => hsame ▸ hh.1

variable [MultihashCodec] {verifyLibp2pCertificate : Bytes → Except String PeerId}

/-- A poll that returns, with ids to spare and every stream read on a connection that was reported,
has collected events that may be told in their order. -/
theorem poll_mirrors
    (hverify : ∀ der p, verifyLibp2pCertificate der = .ok p → laws.verified p)
    (hreported : ∀ c, reports reported c = true → Connected told c) {h₀ : Host W}
    (hh₀ : HostMirrors laws .pending told nowMs h₀)
    (hwrap : h₀.transport.nextConnectionId.toNat + fuel < 2 ^ 64)
    (hreads : pollReadsReported net fuel reported verifyLibp2pCertificate h₀ = true) :
    Triple (fun h => h = h₀) (Quic.poll net fuel verifyLibp2pCertificate)
      (fun _ => HostMirrors laws .polled told nowMs) (fun _ => True) := by
  rw [poll_eq]
  refine Triple.bind (((receive_mirrors hverify hh₀ hwrap).and (Triple.returned _ h₀)).mono
    (fun _ hh => ⟨hh, hh⟩) (fun _ _ hh => hh) fun _ _ => trivial) fun ids => ?_
  rintro h ⟨⟨hh, hids⟩, hexec⟩
  rw [pollReadsReported, hexec] at hreads
  exact sweep_mirrors hreported hh hids hreads h rfl

end Sweep

end Minip2p.Stack