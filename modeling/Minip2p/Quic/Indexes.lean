import Minip2p.Quic.StreamMethods
import Minip2p.Quic.TransportTheorems

/-!
# The indexes of the QUIC transport

Three maps of the transport describe the same connections. `Indexed` says that they agree: a
connection is filed under a peer exactly when it is in the table and its endpoint carries that
peer's id, no entry of the peer index is empty, and packets are routed to connections of the table
only. Every call keeps this, also one that fails.

A change of a connection's peer goes through states in which the index and the endpoint disagree
on that connection. `Filed t id peer` is the invariant there: everything agrees, but the
connection `id` is filed under `peer` whatever its endpoint says.
-/

namespace Minip2p.Quic

variable {W : Type}

/-- The table and its two indexes agree. -/
structure Indexed (t : QuicTransport) : Prop where
  /-- A connection is filed under a peer iff it is in the table with that peer's id. -/
  peers : ∀ peerId id, t.peerConnections.Has peerId id ↔
    ∃ entry, t.connections[id]? = some entry ∧ entry.endpoint.peerId = some peerId
  /-- No entry of the peer index is empty. -/
  noEmpty : t.peerConnections.NoEmpty
  /-- Every connection that packets are routed to is in the table. -/
  cids : ∀ (cid : Bytes) (id : ConnectionId), t.cidToConnection[cid]? = some id → id ∈ t.connections

/-- The indexes agree with the table, but the connection `id` is filed under `peer`. -/
structure Filed (t : QuicTransport) (id : ConnectionId) (peer : Option PeerId) : Prop where
  others : ∀ peerId other, other ≠ id → (t.peerConnections.Has peerId other ↔
    ∃ entry, t.connections[other]? = some entry ∧ entry.endpoint.peerId = some peerId)
  self : ∀ peerId, t.peerConnections.Has peerId id ↔ peer = some peerId
  noEmpty : t.peerConnections.NoEmpty
  cids : ∀ (cid : Bytes) (other : ConnectionId), t.cidToConnection[cid]? = some other →
    other ≠ id → other ∈ t.connections

/-- A new transport has no connection to index. -/
theorem indexed_new : Indexed QuicTransport.new where
  peers peerId id := by
    constructor
    · intro h
      exact absurd h MultiMap.not_has_empty
    · rintro ⟨entry, hentry, -⟩
      cases Std.ExtTreeMap.getElem?_empty.symm.trans hentry
  noEmpty := MultiMap.noEmpty_empty
  cids cid id h := by cases Std.ExtTreeMap.getElem?_empty.symm.trans h

/-! ## The operations on the maps -/

section Maps

variable {t : QuicTransport} {id : ConnectionId} {entry : Entry} {peer : Option PeerId}

theorem Indexed.filed (h : Indexed t) (hentry : t.connections[id]? = some entry) :
    Filed t id entry.endpoint.peerId where
  others peerId other _ := h.peers peerId other
  self peerId := by
    rw [h.peers peerId id, hentry]
    simp
  noEmpty := h.noEmpty
  cids cid other hcid _ := h.cids cid other hcid

/-- A connection that is not in the table is not filed at all. -/
theorem Indexed.filed_none (h : Indexed t) (hnone : t.connections[id]? = none) :
    Filed t id none where
  others peerId other _ := h.peers peerId other
  self peerId := by
    rw [h.peers peerId id, hnone]
    simp
  noEmpty := h.noEmpty
  cids cid other hcid _ := h.cids cid other hcid

/-- The connection is filed under the peer its endpoint carries. -/
theorem Filed.indexed (h : Filed t id peer) (hentry : t.connections[id]? = some entry)
    (hpeer : entry.endpoint.peerId = peer) : Indexed t where
  peers peerId other := by
    by_cases hother : other = id
    · subst hother
      rw [h.self peerId, hentry, ← hpeer]
      simp
    · exact h.others peerId other hother
  noEmpty := h.noEmpty
  cids cid other hcid := by
    by_cases hother : other = id
    · exact hother ▸ BTreeMap.mem_of_getElem? hentry
    · exact h.cids cid other hcid hother

/-- Whatever happens to the entry of the connection itself. -/
theorem Filed.insertConnection (h : Filed t id peer) (entry : Entry) :
    Filed (t.insertConnection id entry) id peer where
  others peerId other hother := by
    have hsame : (t.insertConnection id entry).connections[other]? = t.connections[other]? :=
      BTreeMap.getElem?_insert_of_ne hother
    rw [hsame]
    exact h.others peerId other hother
  self := h.self
  noEmpty := h.noEmpty
  cids cid other hcid hother := BTreeMap.mem_insert_iff.mpr (.inr (h.cids cid other hcid hother))

theorem Filed.insertCid (h : Filed t id peer) (cid : Bytes) :
    Filed (t.insertCid cid id) id peer where
  others := h.others
  self := h.self
  noEmpty := h.noEmpty
  cids cid' other hcid hother := by
    rcases BTreeMap.getElem?_insert_eq_some_iff.mp hcid with ⟨-, heq⟩ | ⟨-, hold⟩
    · exact absurd heq.symm hother
    · exact h.cids cid' other hold hother

/-- One more id of a connection in the table. -/
theorem Indexed.insertCid (h : Indexed t) (hentry : t.connections[id]? = some entry)
    (cid : Bytes) : Indexed (t.insertCid cid id) :=
  ((h.filed hentry).insertCid cid).indexed hentry rfl

/-- The connection is taken out from under its peer. -/
theorem Filed.removePeerConnection? (h : Filed t id peer) :
    Filed (t.removePeerConnection? peer id) id none := by
  cases peer with
  | none => exact h
  | some peerId =>
    exact
      { others := fun peerId' other hother => by
          have hkeep : (t.removePeerConnection peerId id).peerConnections.Has peerId' other ↔
              t.peerConnections.Has peerId' other := by
            refine MultiMap.has_remove_iff.trans (and_iff_right ?_)
            exact fun heq => hother heq.2
          exact hkeep.trans (h.others peerId' other hother)
        self := fun peerId' => by
          refine MultiMap.has_remove_iff.trans ?_
          rw [h.self peerId']
          simp only [and_true, reduceCtorEq, iff_false, not_and, Option.some.injEq]
          exact fun hne heq => hne heq.symm
        noEmpty := h.noEmpty.remove
        cids := h.cids }

/-- A connection that is not filed gets filed. -/
theorem Filed.indexPeerConnection (h : Filed t id none) (peerId : PeerId) :
    Filed (t.indexPeerConnection peerId id) id (some peerId) where
  others peerId' other hother := by
    have hkeep : (t.indexPeerConnection peerId id).peerConnections.Has peerId' other ↔
        t.peerConnections.Has peerId' other := by
      refine MultiMap.has_add_iff.trans (or_iff_right ?_)
      exact fun heq => hother heq.2
    exact hkeep.trans (h.others peerId' other hother)
  self peerId' := by
    refine MultiMap.has_add_iff.trans ?_
    rw [h.self peerId']
    simp only [and_true, reduceCtorEq, or_false, Option.some.injEq]
    exact eq_comm
  noEmpty := h.noEmpty.add
  cids := h.cids

/-- The connection leaves the table and both indexes. -/
theorem Indexed.unindexConnection (h : Indexed t) (hentry : t.connections[id]? = some entry) :
    Indexed ({ t with connections := t.connections.erase id }.unindexConnection id
      entry.endpoint.peerId) := by
  -- the peer index does not look at the other two maps
  have hfiled : Filed { t with
      connections := t.connections.erase id
      cidToConnection := t.cidToConnection.filter fun _ mapped => mapped != id }
      id entry.endpoint.peerId :=
    { others := fun peerId other hother => by
        rw [h.peers peerId other]
        simp only [BTreeMap.getElem?_erase_eq_some_iff, ne_eq, hother, not_false_iff, true_and]
      self := (h.filed hentry).self
      noEmpty := h.noEmpty
      cids := fun cid other hcid hother => by
        obtain ⟨hcid, -⟩ := BTreeMap.getElem?_filter_eq_some_iff.mp hcid
        exact BTreeMap.mem_erase_iff.mpr ⟨hother, h.cids cid other hcid⟩ }
  have hgone := hfiled.removePeerConnection?
  refine ⟨fun peerId other => ?_, hgone.noEmpty, fun cid other hcid => ?_⟩
  · by_cases hother : other = id
    · subst hother
      rw [QuicTransport.unindexConnection, hgone.self peerId,
        QuicTransport.connections_removePeerConnection?]
      simp
    · exact hgone.others peerId other hother
  · by_cases hother : other = id
    · rw [QuicTransport.unindexConnection,
        QuicTransport.cidToConnection_removePeerConnection?] at hcid
      obtain ⟨-, hne⟩ := BTreeMap.getElem?_filter_eq_some_iff.mp hcid
      simp [hother] at hne
    · exact hgone.cids cid other hcid hother

end Maps

/-! ## What a connection's methods do to its endpoint -/

/-- The endpoint of the connection is still `endpoint`. -/
def EndpointIs (endpoint : ConnectionEndpoint) (s : Session W) : Prop :=
  s.conn.endpoint = endpoint

theorem endpointIs_permissive (endpoint : ConnectionEndpoint) :
    Permissive (EndpointIs (W := W) endpoint) where
  world _ _ hs := hs
  stream _ _ _ hs := hs
  event _ _ _ hs := hs
  nextStreamId _ _ hs := hs
  gc _ hs := hs

theorem close_endpointIs {q : Quiche W} {fuel : Nat} (endpoint : ConnectionEndpoint) :
    Keeps (EndpointIs (W := W) endpoint) (close q fuel) := by
  have hdrains := (endpointIs_permissive (W := W) endpoint).steady.drains (q := q)
  intro s₀ hs₀
  exact close_triple hdrains hdrains hs₀ (fun _ _ => hs₀) (fun _ hs => hs) s₀ rfl

/-- A packet that fails has not touched the endpoint: its peer is set by the very last step. -/
theorem recvPacket_endpointIs [MultihashCodec] {q : Quiche W} {fuel : Nat}
    (verifyLibp2pCertificate : Bytes → Except String PeerId) (endpoint : ConnectionEndpoint)
    (packet : Bytes) :
    Triple (EndpointIs endpoint) (recvPacket q fuel verifyLibp2pCertificate packet)
      (fun _ _ => True) (EndpointIs endpoint) := by
  have hperm := endpointIs_permissive (W := W) endpoint
  have hdrain : Keeps (EndpointIs endpoint) (drainAndFlush q fuel) :=
    hperm.steady.drainAndFlush_keeps
  have hok : ∀ {α : Type} {m : Method W α}, Keeps (EndpointIs endpoint) m →
      Triple (EndpointIs endpoint) m (fun _ _ => True) (EndpointIs endpoint) :=
    fun hm => hm.mono (fun _ hs => hs) (fun _ _ _ => trivial) fun _ hs => hs
  have hreject : ∀ message code reason,
      Keeps (EndpointIs endpoint) (rejectPeer q fuel message code reason) := fun _ _ _ =>
    Keeps.bind Keeps.get fun _ => Keeps.bind (Keeps.modify fun _ hs => hs) fun _ =>
      Keeps.bind (hperm.steady.call_keeps _) fun _ =>
        Keeps.bind (Keeps.modify fun _ hs => hs) fun _ => hperm.steady.flush_keeps
  have haccept : ∀ p, Triple (EndpointIs endpoint) (do
      setPeerId p
      let s ← get
      pushEvent (.connected s.conn.id s.conn.endpoint) : Method W Unit)
      (fun _ _ => True) (EndpointIs endpoint) := by
    intro p
    refine Triple.bind (Q := fun _ _ => True) (Triple.modify fun _ _ => trivial) fun _ => ?_
    exact Triple.get_bind fun _ _ => Triple.modify fun _ _ => trivial
  refine Triple.bind (hperm.steady.call_keeps _) fun answer => ?_
  split
  · exact hok (Keeps.bind Keeps.get fun _ => Keeps.modify fun _ hs => hs)
  have hcompleted : Keeps (EndpointIs (W := W) endpoint) (handshakeCompleted q) := by
    refine Keeps.bind Keeps.get fun s => ?_
    split
    · exact hperm.steady.call_keeps _
    · exact Keeps.pure _
  refine Triple.bind hcompleted fun completed => ?_
  split
  · refine Triple.bind (Q := fun _ => EndpointIs endpoint) (Triple.modify fun _ hs => hs)
      fun _ => ?_
    refine Triple.bind hdrain fun _ => ?_
    refine Triple.bind (hperm.steady.call_keeps _) fun cert => ?_
    split
    · exact hok (hreject _ _ _)
    refine Triple.bind (Q := fun _ => EndpointIs endpoint) (Triple.modify fun _ hs => hs)
      fun _ => ?_
    split
    · exact hok (hreject _ _ _)
    refine Triple.bind Keeps.get fun s => ?_
    split
    · split
      · exact hok (hreject _ _ _)
      · exact haccept _
    · exact haccept _
  · exact hok hdrain

/-! ## What the calls keep -/

section Calls

variable {net : Net W} {fuel : Nat} {id : ConnectionId}

/-- A method of a connection whose failures leave the endpoint alone. The indexes are as they
were; the entry carries what the method made of the endpoint. -/
theorem onConnection_triple {α : Type} {sink : Sink} {entry : Entry}
    {method : Quiche W → Method W α} {Q : α → ConnectionEndpoint → Prop}
    (hmethod : ∀ q, Triple (EndpointIs entry.endpoint) (method q)
      (fun a s => Q a s.conn.endpoint) (EndpointIs entry.endpoint)) :
    Triple (fun h => Indexed h.transport ∧ h.transport.connections[id]? = some entry)
      (onConnection net sink id entry method)
      (fun a h => ∃ after, h.transport.connections[id]? = some after ∧ Q a after.endpoint ∧
        Filed h.transport id entry.endpoint.peerId)
      (fun h => Indexed h.transport) := by
  have hrestore : ∀ (h : Host W) (s : Session W), Indexed h.transport →
      h.transport.connections[id]? = some entry →
      (h.restore sink id entry s).transport.connections[id]? =
          some { entry with conn := s.conn } ∧
        Filed (h.restore sink id entry s).transport id entry.endpoint.peerId := by
    intro h s hh hentry
    have hfiled := (hh.filed hentry).insertConnection { entry with conn := s.conn }
    have hself : (h.transport.connections.insert id { entry with conn := s.conn })[id]? =
        some { entry with conn := s.conn } := Std.ExtTreeMap.getElem?_insert_self
    -- the event vector is not part of the indexes
    cases sink with
    | pending => exact ⟨hself, hfiled.others, hfiled.self, hfiled.noEmpty, hfiled.cids⟩
    | polled => exact ⟨hself, hfiled⟩
  refine Triple.zoom (hmethod _) (fun _ _ => rfl) ?_ ?_
  · rintro a h s ⟨hh, hentry⟩ hQ
    obtain ⟨hself, hfiled⟩ := hrestore h s hh hentry
    exact ⟨_, hself, hQ, hfiled⟩
  · rintro h s ⟨hh, hentry⟩ hsame
    obtain ⟨hself, hfiled⟩ := hrestore h s hh hentry
    exact hfiled.indexed hself (congrArg ConnectionEndpoint.peerId hsame)

/-- A method that leaves the endpoint alone. -/
theorem onConnection_indexed {α : Type} {sink : Sink} {entry : Entry}
    {method : Quiche W → Method W α}
    (hmethod : ∀ q, Keeps (EndpointIs entry.endpoint) (method q)) :
    Triple (fun h => Indexed h.transport ∧ h.transport.connections[id]? = some entry)
      (onConnection net sink id entry method)
      (fun _ h => Indexed h.transport) (fun h => Indexed h.transport) := by
  refine (onConnection_triple (Q := fun _ endpoint => endpoint = entry.endpoint) hmethod).mono
    (fun _ hh => hh) ?_ fun _ hh => hh
  rintro _ h ⟨after, hself, hsame, hfiled⟩
  exact hfiled.indexed hself (congrArg ConnectionEndpoint.peerId hsame)

/-- A method that leaves the endpoint of its connection alone keeps the indexes. -/
theorem withConnection_indexed {α : Type} {method : Quiche W → Method W α}
    (hmethod : ∀ q endpoint, Keeps (EndpointIs endpoint) (method q)) :
    Keeps (fun h => Indexed h.transport) (withConnection net id method) := by
  apply Triple.get_bind
  intro h₀ hh₀
  split
  · exact Triple.throw fun h hh => hh ▸ hh₀
  · next entry hentry =>
    exact (onConnection_indexed fun q => hmethod q _).mono (fun h hh => hh ▸ ⟨hh₀, hentry⟩)
      (fun _ _ hh => hh) fun _ hh => hh

/-- Filing a connection under the peer its endpoint carries now. -/
theorem reindex_triple (entry : Entry) {previous : Option PeerId} {E : Host W → Prop} :
    Triple (fun h => h.transport.connections[id]? = some entry ∧ Filed h.transport id previous)
      (reindex id previous entry.endpoint.peerId) (fun _ h => Indexed h.transport) E := by
  refine Triple.bind (Q := fun _ h => h.transport.connections[id]? = some entry ∧
    Filed h.transport id none) (Triple.modify ?_) fun _ => ?_
  · rintro h ⟨hentry, hfiled⟩
    refine ⟨?_, hfiled.removePeerConnection?⟩
    cases previous <;> exact hentry
  · cases hpeer : entry.endpoint.peerId with
    | none => exact Triple.pure fun h hh => hh.2.indexed hh.1 hpeer
    | some peerId =>
      exact Triple.modify fun h hh => (hh.2.indexPeerConnection peerId).indexed hh.1 hpeer

/-! ## Every call -/

theorem indexed_worldly : Worldly fun h : Host W => Indexed h.transport := fun _ _ hh => hh

theorem Indexed.nextConnectionId {t : QuicTransport} (h : Indexed t) (next : UInt64) :
    Indexed { t with nextConnectionId := next } :=
  ⟨h.peers, h.noEmpty, h.cids⟩

/-- Events and the listen address are not part of the indexes. -/
theorem pushPending_indexed (event : TransportEvent) :
    Keeps (fun h : Host W => Indexed h.transport)
      (modify fun h => h.pushPending event : HostMethod W Unit) :=
  Keeps.modify fun _ hh => ⟨hh.peers, hh.noEmpty, hh.cids⟩

/-- A dial enters its connection in every index. -/
theorem dial_indexed (addr : PeerAddr) :
    Keeps (fun h => Indexed h.transport) (dial net fuel addr) := by
  refine Triple.bind (allocateConnectionId_triple fun h next hh => hh.nextConnectionId next)
    fun id => ?_
  -- the id is free until the connection gets it
  let J : Host W → Prop := fun h => Indexed h.transport ∧ h.transport.connections[id]? = none
  have hJ : Worldly J := fun _ _ hh => hh
  refine Triple.mono (P := J) (E := J) ?_
    (fun _ hh => hh) (fun _ _ hh => hh) fun _ hh => hh.1
  refine Triple.bind (hJ.resolveDialSocketAddr_keeps _ _) fun peerSocket => ?_
  refine Triple.bind hJ.localAddr_keeps fun localSocket => ?_
  refine Triple.bind (hJ.ask_keeps _) fun scid => ?_
  split
  · exact Keeps.throw _ |>.mono (fun _ hh => hh) (fun _ _ hh => hh.1) fun _ hh => hh
  refine Triple.bind (hJ.ask_keeps _) fun quiche => ?_
  split
  · exact Keeps.throw _ |>.mono (fun _ hh => hh) (fun _ _ hh => hh.1) fun _ hh => hh
  next quiche =>
  refine Triple.bind (hJ.sendInitial_keeps _ _ _) fun _ => ?_
  refine Triple.bind (hJ.newConnection_triple _ _ _) fun entry => ?_
  refine Triple.bind (Q := fun _ h => J h ∧
    entry.endpoint = ⟨addr.transport, some addr.peerId⟩) (Triple.modifyGet fun _ hh => hh)
    fun sourceCid => ?_
  refine Triple.bind (Q := fun _ h => h.transport.connections[id]? = some entry ∧
    Filed h.transport id none ∧ entry.endpoint.peerId = some addr.peerId) (Triple.modify ?_)
    fun _ => ?_
  · rintro h ⟨⟨hh, hfree⟩, hendpoint⟩
    refine ⟨Std.ExtTreeMap.getElem?_insert_self, (hh.filed_none hfree).insertConnection entry, ?_⟩
    rw [hendpoint]
  refine Triple.bind (Q := fun _ h => h.transport.connections[id]? = some entry ∧
    Filed h.transport id none ∧ entry.endpoint.peerId = some addr.peerId)
    (Triple.modify fun h hh => ⟨hh.1, hh.2.1.insertCid sourceCid, hh.2.2⟩) fun _ => ?_
  refine Triple.bind (Q := fun _ h => Indexed h.transport) (Triple.modify ?_) fun _ =>
    Triple.pure fun _ hh => hh
  rintro h ⟨hentry, hfiled, hpeer⟩
  exact (hfiled.indexPeerConnection addr.peerId).indexed hentry hpeer

theorem acceptConnection_indexed (localSocket source : SocketAddr) :
    Keeps (fun h => Indexed h.transport) (acceptConnection net fuel localSocket source) := by
  refine Keeps.bind (indexed_worldly.ask_keeps _) fun scid => ?_
  split
  · exact Keeps.throw _
  refine Keeps.bind (indexed_worldly.ask_keeps _) fun quiche => ?_
  split
  · exact Keeps.throw _
  refine Keeps.bind (indexed_worldly.sendInitial_keeps _ _ _) fun _ => ?_
  refine Triple.bind (allocateConnectionId_triple fun h next hh => hh.nextConnectionId next)
    fun id => ?_
  let J : Host W → Prop := fun h => Indexed h.transport ∧ h.transport.connections[id]? = none
  have hJ : Worldly J := fun _ _ hh => hh
  refine Triple.bind (hJ.newConnection_triple _ _ _) fun entry => ?_
  refine Triple.bind (Q := fun _ h => J h ∧
    entry.endpoint = ⟨socketAddrToMultiaddr source, none⟩) (Triple.modifyGet fun _ hh => hh)
    fun sourceCid => ?_
  apply Triple.get_bind
  rintro h₀ ⟨⟨hh₀, hfree⟩, hendpoint⟩
  refine Triple.bind (Q := fun _ h => h.transport.connections[id]? = some entry ∧
    Indexed h.transport) (Triple.modify ?_) fun _ => ?_
  · rintro h rfl
    have hself : (h.transport.connections.insert id entry)[id]? = some entry :=
      Std.ExtTreeMap.getElem?_insert_self
    refine ⟨hself, ((hh₀.filed_none hfree).insertConnection entry).indexed hself ?_⟩
    rw [hendpoint]
  split
  -- the id is free, so the insertion replaces nothing; the branch still keeps the indexes
  · exact Triple.throw fun _ hh => hh.2
  refine Triple.bind (Q := fun _ h => Indexed h.transport)
    (Triple.modify fun h hh => hh.2.insertCid hh.1 sourceCid) fun _ => ?_
  exact Keeps.bind (Keeps.modify fun _ hh => hh) fun _ => Keeps.pure _

theorem listen_indexed (addr : Multiaddr) :
    Keeps (fun h => Indexed h.transport) (listen net addr) := by
  refine Keeps.bind (Keeps.ofResult _) fun _ => Keeps.bind indexed_worldly.localAddr_keeps fun _ =>
    Keeps.bind (Keeps.ofResult _) fun _ => ?_
  refine Keeps.bind (Keeps.modify fun _ hh => ⟨hh.peers, hh.noEmpty, hh.cids⟩) fun _ => ?_
  exact Keeps.bind (pushPending_indexed _) fun _ => Keeps.pure _

theorem sendRawUdp_indexed (target : Multiaddr) (payload : Bytes) :
    Keeps (fun h => Indexed h.transport) (sendRawUdp net target payload) := by
  refine Keeps.bind (indexed_worldly.resolveDialSocketAddr_keeps _ _) fun addr =>
    Keeps.bind (indexed_worldly.ask_keeps _) fun answer => ?_
  split
  · exact Keeps.pure _
  · exact Keeps.throw _

theorem verifyConnectionPeerId_indexed (peerId : PeerId) :
    Keeps (fun h : Host W => Indexed h.transport) (verifyConnectionPeerId id peerId) := by
  apply Triple.get_bind
  intro h₀ hh₀
  split
  · exact Triple.throw fun h hh => hh ▸ hh₀
  next entry hentry =>
  dsimp only
  split
  · exact Triple.pure fun h hh => hh ▸ hh₀
  refine Triple.bind (Q := fun _ h => h.transport.connections[id]? = some (entry.setPeerId peerId) ∧
    Filed h.transport id entry.endpoint.peerId) (Triple.modify ?_) fun _ => ?_
  · rintro h rfl
    exact ⟨Std.ExtTreeMap.getElem?_insert_self, (hh₀.filed hentry).insertConnection _⟩
  · exact Triple.bind (reindex_triple (entry.setPeerId peerId)) fun _ =>
      pushPending_indexed _

/-! ## Polling -/

theorem findByPeer_indexed (source : SocketAddr) :
    Keeps (fun h => Indexed h.transport) (findByPeer net source) :=
  Keeps.bind Keeps.get fun _ => Keeps.bind (indexed_worldly.ask_keeps _) fun _ => Keeps.pure _

theorem routePacket_indexed (packet : Bytes) (localSocket source : SocketAddr) :
    Keeps (fun h => Indexed h.transport) (routePacket net fuel packet localSocket source) := by
  refine Keeps.bind Keeps.get fun h => ?_
  dsimp only
  split
  · exact Keeps.pure _
  split
  · exact Keeps.bind (acceptConnection_indexed _ _) fun _ => Keeps.pure _
  · exact findByPeer_indexed _

theorem pollConnections_indexed (ids : List ConnectionId) :
    Keeps (fun h => Indexed h.transport) (pollConnections net fuel ids) := by
  induction ids with
  | nil => exact Keeps.pure _
  | cons id ids ih =>
    apply Triple.get_bind
    intro h₀ hh₀
    split
    · exact ih.mono (fun h hh => hh ▸ hh₀) (fun _ _ hh => hh) fun _ hh => hh
    next entry hentry =>
    refine Triple.bind ((onConnection_indexed fun q =>
      (endpointIs_permissive _).pollStreams_keeps).mono (fun h hh => hh ▸ ⟨hh₀, hentry⟩)
      (fun _ _ hh => hh) fun _ hh => hh) fun _ => ?_
    refine Keeps.bind (indexed_worldly.ask_keeps _) fun sourceCid => ?_
    refine Keeps.bind (indexed_worldly.ask_keeps _) fun closed => ?_
    exact Keeps.bind ih fun _ => Keeps.pure _

/-- The connections of a list are in the table. -/
def Known (ids : List ConnectionId) (h : Host W) : Prop := ∀ id ∈ ids, id ∈ h.transport.connections

/-- The loop over the connections removes none, and finds source ids for those of its list. -/
theorem pollConnections_known (known ids : List ConnectionId) :
    Triple (Known known) (pollConnections net fuel ids)
      (fun found h => Known known h ∧ ∀ update ∈ found.1, update.2 ∈ ids) (fun _ => True) := by
  induction ids with
  | nil => exact Triple.pure fun _ hh => ⟨hh, by rintro _ ⟨⟩⟩
  | cons id ids ih =>
    apply Triple.get_bind
    intro h₀ hh₀
    split
    · refine ih.mono (fun h hh => hh ▸ hh₀) ?_ fun _ hh => hh
      rintro found h ⟨hknown, hfound⟩
      exact ⟨hknown, fun update hupdate => List.mem_cons_of_mem _ (hfound update hupdate)⟩
    next entry hentry =>
    have hconn : Triple (fun h => h = h₀)
        (onConnection net .polled id entry fun q => pollStreams q fuel)
        (fun _ => Known known) (fun _ => True) := by
      have hany : Triple (fun _ => True) (pollStreams (net.quiche entry.quiche) fuel)
          (fun _ _ => True) (fun _ => True) :=
        fun _ _ _ _ _ => ⟨fun _ _ => trivial, fun _ _ => trivial⟩
      refine Triple.zoom hany (fun _ _ => trivial) ?_ fun _ _ _ _ => trivial
      rintro _ h s rfl - k hk
      exact BTreeMap.mem_insert_iff.mpr (.inr (hh₀ k hk))
    refine Triple.bind hconn fun _ => ?_
    refine Triple.bind (Q := fun _ => Known known) (Triple.modifyGet fun _ hh => hh)
      fun sourceCid => ?_
    refine Triple.bind (Q := fun _ => Known known) (Triple.modifyGet fun _ hh => hh)
      fun closed => ?_
    refine Triple.bind ih fun found => Triple.pure ?_
    rintro h ⟨hknown, hfound⟩
    refine ⟨hknown, fun update hupdate => ?_⟩
    rcases List.mem_cons.mp hupdate with rfl | hupdate
    · exact List.mem_cons_self
    · exact List.mem_cons_of_mem _ (hfound update hupdate)

/-- A removed connection leaves no entry behind. -/
theorem removeConnection_indexed :
    Keeps (fun h : Host W => Indexed h.transport) (removeConnection id) := by
  apply Triple.get_bind
  intro h₀ hh₀
  split
  · exact Triple.modify fun h hh => hh ▸ hh₀
  next entry hentry =>
  refine Triple.bind (Q := fun _ (h : Host W) => Indexed h.transport) (Triple.modify ?_) fun _ =>
    Keeps.modify fun _ hh => hh
  rintro h rfl
  exact hh₀.unindexConnection hentry

variable [MultihashCodec] {verifyLibp2pCertificate : Bytes → Except String PeerId}

theorem deliver_indexed (packet : Bytes) :
    Keeps (fun h => Indexed h.transport)
      (deliver net fuel verifyLibp2pCertificate id packet) := by
  apply Triple.get_bind
  intro h₀ hh₀
  split
  · exact Triple.pure fun h hh => hh ▸ hh₀
  next entry hentry =>
  dsimp only
  have hreceive : ∀ q, Triple (EndpointIs (W := W) entry.endpoint) (do
      recvPacket q fuel verifyLibp2pCertificate packet
      let s ← get
      return s.conn.endpoint) (fun endpoint s => endpoint = s.conn.endpoint)
      (EndpointIs entry.endpoint) := fun q =>
    Triple.bind (recvPacket_endpointIs _ _ _) fun _ =>
      Triple.get_bind fun s _ => Triple.pure fun s' hs' => hs' ▸ rfl
  refine Triple.bind ((onConnection_triple hreceive).mono (fun h hh => hh ▸ ⟨hh₀, hentry⟩)
    (fun _ _ hh => hh) fun _ hh => hh) fun endpoint => ?_
  refine Triple.bind (Q := fun _ h => ∃ after, h.transport.connections[id]? = some after ∧
    endpoint = after.endpoint ∧ Filed h.transport id entry.endpoint.peerId)
    (Triple.modifyGet fun _ hh => hh) fun sourceCid => ?_
  refine Triple.bind (Q := fun _ h => ∃ after, h.transport.connections[id]? = some after ∧
    endpoint = after.endpoint ∧ Filed h.transport id entry.endpoint.peerId)
    (Triple.modify ?_) fun _ => ?_
  · rintro h ⟨after, hafter, hendpoint, hfiled⟩
    exact ⟨after, hafter, hendpoint, hfiled.insertCid sourceCid⟩
  split
  · next hsame =>
    apply Triple.pure
    rintro h ⟨after, hafter, rfl, hfiled⟩
    exact hfiled.indexed hafter hsame
  · refine Triple.bind (Q := fun _ (h : Host W) => Indexed h.transport) ?_ fun _ =>
      Keeps.modify fun _ hh => hh
    rintro h ⟨after, hafter, rfl, hfiled⟩
    exact reindex_triple _ h ⟨hafter, hfiled⟩

theorem pollPacket_indexed (packet : Bytes) (source : SocketAddr) :
    Keeps (fun h => Indexed h.transport)
      (pollPacket net fuel verifyLibp2pCertificate packet source) := by
  refine Keeps.bind indexed_worldly.localAddr_keeps fun localSocket =>
    Keeps.bind (routePacket_indexed _ _ _) fun target => ?_
  split
  · exact Keeps.pure _
  · exact deliver_indexed packet

theorem pollPackets_indexed (turns : Nat) :
    Keeps (fun h => Indexed h.transport)
      (pollPacketsGo net fuel verifyLibp2pCertificate turns) := by
  induction turns with
  | zero => exact Keeps.diverge
  | succ turns ih =>
    refine Keeps.bind (indexed_worldly.ask_keeps _) fun received => ?_
    split
    · exact Keeps.pure _
    · exact Keeps.throw _
    · exact Keeps.bind (pollPacket_indexed _ _) fun _ => ih

theorem poll_indexed :
    Keeps (fun h => Indexed h.transport) (poll net fuel verifyLibp2pCertificate) := by
  refine Keeps.bind (Keeps.modify fun _ hh => ⟨hh.peers, hh.noEmpty, hh.cids⟩) fun _ => ?_
  refine Keeps.bind (pollPackets_indexed fuel) fun _ => ?_
  apply Triple.get_bind
  intro h₀ hh₀
  refine Triple.bind (Q := fun ids h => Indexed h.transport ∧ Known ids h) (Triple.modifyGet ?_)
    fun ids => ?_
  · rintro h rfl
    refine ⟨hh₀, fun id hid => ?_⟩
    exact Std.ExtTreeMap.mem_keys.mp ((net.keyOrder_perm _ _).mem_iff.mp hid)
  refine Triple.bind (((pollConnections_indexed ids).and (pollConnections_known ids ids)).mono
    (fun _ hh => hh) (fun _ _ hh => hh) fun _ hh => hh.1) fun found => ?_
  -- the source ids that were found belong to connections of the table
  refine Triple.bind (Q := fun _ h => Indexed h.transport) ?_ fun _ => ?_
  · refine Triple.mono (Triple.forM (P := fun updates h => Indexed h.transport ∧
      ∀ update ∈ updates, update.2 ∈ h.transport.connections) (E := fun h => Indexed h.transport)
      (fun update updates => Triple.modify ?_) found.1) ?_ (fun _ _ hh => hh.1) fun _ hh => hh
    · rintro h ⟨hh, hupdates⟩
      obtain ⟨entry, hentry⟩ :=
        BTreeMap.exists_getElem?_of_mem (hupdates update List.mem_cons_self)
      exact ⟨hh.insertCid hentry update.1,
        fun other hother => hupdates other (List.mem_cons_of_mem _ hother)⟩
    · rintro h ⟨hh, hknown, hfound⟩
      exact ⟨hh, fun update hupdate => hknown _ (hfound update hupdate)⟩
  refine Keeps.bind (Keeps.forM fun id _ => removeConnection_indexed) fun _ => ?_
  exact Keeps.bind Keeps.get fun _ => Keeps.pure _

/-- Every call of the transport keeps the indexes consistent. -/
theorem call_indexed (call : HostCall) :
    Keeps (fun h => Indexed h.transport) (call.method net fuel verifyLibp2pCertificate) := by
  have hperm := endpointIs_permissive (W := W)
  cases call with
  | dial addr => exact Keeps.bind (dial_indexed addr) fun _ => Keeps.pure _
  | listen addr => exact Keeps.bind (listen_indexed addr) fun _ => Keeps.pure _
  | listenOnBoundAddr =>
    exact Keeps.bind (Keeps.bind indexed_worldly.localAddr_keeps fun addr => listen_indexed _)
      fun _ => Keeps.pure _
  | sendRawUdp target payload => exact sendRawUdp_indexed target payload
  | openStream id =>
    refine Keeps.bind (Keeps.bind (withConnection_indexed fun _ endpoint =>
      (hperm endpoint).steady.openStream_keeps) fun _ => ?_) fun _ => Keeps.pure _
    exact Keeps.bind (pushPending_indexed _) fun _ => Keeps.pure _
  | sendStream id streamId data =>
    exact withConnection_indexed fun _ endpoint => (hperm endpoint).steady.sendStream_keeps _ _
  | closeStreamWrite id streamId =>
    exact withConnection_indexed fun _ endpoint => (hperm endpoint).steady.closeStreamWrite_keeps _
  | resetStream id streamId =>
    exact withConnection_indexed fun _ endpoint => (hperm endpoint).resetStream_keeps _
  | close id => exact withConnection_indexed fun _ endpoint => close_endpointIs endpoint
  | verifyConnectionPeerId id peerId => exact verifyConnectionPeerId_indexed peerId
  | poll => exact Keeps.bind poll_indexed fun _ => Keeps.pure _

/-- In every state that a sequence of calls on a new transport reaches, whatever quiche, the
socket and the resolver answer and whichever calls fail, the table and its indexes agree. -/
theorem indexes_consistent (net : Net W) (fuel : Nat)
    (verifyLibp2pCertificate : Bytes → Except String PeerId) (world : W) (calls : List HostCall)
    (h : Host W)
    (hrun : runHost net fuel verifyLibp2pCertificate ⟨world, .new, []⟩ calls = some h) :
    Indexed h.transport :=
  runHost_invariant call_indexed (I := fun h => Indexed h.transport) indexed_new hrun

end Calls

/-- A peer is dialed twice and one of the connections turns out to be to another peer. -/
theorem indexes_consistent_dialed :
    ∃ h, @runHost Unit multihashCodec (.idle Unit (.v4 #v[0, 0, 0, 0] 4001)) 1
        (fun _ => .ok somePeer) ⟨(), .new, []⟩
        [.dial somePeerAddr, .dial somePeerAddr, .verifyConnectionPeerId ⟨1⟩ otherPeer, .poll] =
          some h ∧
      h.transport.connectionIdsForPeer somePeer = [⟨2⟩] ∧
      h.transport.connectionIdsForPeer otherPeer = [⟨1⟩] ∧ Indexed h.transport := by
  have hids : (@runHost Unit multihashCodec (.idle Unit (.v4 #v[0, 0, 0, 0] 4001)) 1
      (fun _ => .ok somePeer) ⟨(), .new, []⟩
      [.dial somePeerAddr, .dial somePeerAddr, .verifyConnectionPeerId ⟨1⟩ otherPeer, .poll]).map
        (fun h => (h.transport.connectionIdsForPeer somePeer,
          h.transport.connectionIdsForPeer otherPeer)) = some ([⟨2⟩], [⟨1⟩]) := by
    decide +kernel
  obtain ⟨h, hrun, hpair⟩ := Option.map_eq_some_iff.mp hids
  rw [Prod.mk.injEq] at hpair
  exact ⟨h, hrun, hpair.1, hpair.2, @indexes_consistent _ multihashCodec _ _ _ _ _ h hrun⟩

end Minip2p.Quic
