import Minip2p.Quic.Allocation
import Minip2p.Quic.StreamMethods

/-!
# The ids a QUIC transport reports

No connection gets the id 0, and a connection reports under its own id. So every id that a
transport returns or puts in an event is at least 1 (`Sound`), whatever the network does.
-/

namespace Minip2p.Quic

variable {W : Type}

/-- The events are about connections whose ids are not 0. -/
def Named (events : List TransportEvent) : Prop :=
  ∀ e ∈ events, ∀ id, e.conn? = some id → id.asU64 ≠ 0

/-- One more event, with a nonzero id if any. -/
theorem Named.push {events : List TransportEvent} {e : TransportEvent} (h : Named events)
    (he : ∀ id, e.conn? = some id → id.asU64 ≠ 0) : Named (events ++ [e]) := by
  intro e' he'
  rcases List.mem_append.mp he' with hold | hnew
  · exact h e' hold
  · rw [List.mem_singleton.mp hnew]
    exact he

/-! ## A connection -/

/-- The connection has the id, and the events are named. -/
structure Owned (id : ConnectionId) (s : Session W) : Prop where
  self : s.conn.id = id
  events : Named s.events

section Connection

variable {id : ConnectionId} (hid : id.asU64 ≠ 0) {q : Quiche W} {fuel : Nat}

include hid

/-- A connection may report under its own id. -/
theorem Owned.push {s : Session W} (hs : Owned id s) {e : TransportEvent}
    (he : e.conn? = some id) : Owned id (s.push e) := by
  refine ⟨hs.self, hs.events.push fun c hc => ?_⟩
  rw [← Option.some.inj (he.symm.trans hc)]
  exact hid

theorem owned_steady : Steady (Owned (W := W) id) where
  world _ _ hs := ⟨hs.self, hs.events⟩
  writes _ _ _ _ _ hs := ⟨hs.self, hs.events⟩
  note s raw state _ _ _ hs :=
    Owned.push hid (s := s.setStream raw { state with closedNotified := true })
      ⟨hs.self, hs.events⟩ (congrArg some hs.self)
  fresh _ _ hs := ⟨hs.self, hs.events⟩
  closeWrite _ _ _ _ _ hs := ⟨hs.self, hs.events⟩
  nextStreamId _ _ hs := ⟨hs.self, hs.events⟩
  gc _ hs := ⟨hs.self, hs.events⟩
  error _ _ hs := Owned.push hid hs (congrArg some hs.self)

theorem close_owned : Keeps (Owned (W := W) id) (close q fuel) := by
  have hdrains := (owned_steady (W := W) hid).drains (q := q)
  intro s₀ hs₀
  exact close_triple hdrains hdrains hs₀ (fun _ _ => ⟨hs₀.self, hs₀.events⟩)
    (fun _ hs => ⟨hs.self, hs₀.events⟩) s₀ rfl

theorem resetStream_owned (streamId : StreamId) :
    Keeps (Owned (W := W) id) (resetStream q streamId) := by
  have hsteady := owned_steady (W := W) hid
  refine Triple.get_bind fun s₀ hs₀ => ?_
  split
  · exact Triple.throw fun s hs => hs ▸ hs₀
  next state _ =>
  -- the id that is reported was read before the shutdowns
  have hstart : ∀ s, s = s₀ → Owned id s := fun s hs => hs ▸ hs₀
  refine Triple.mono (P := Owned id) ?_ hstart (fun _ _ hs => hs) fun _ hs => hs
  refine Keeps.bind (hsteady.shutdownStream_keeps _ _ _) fun _ => ?_
  refine Keeps.bind (hsteady.shutdownStream_keeps _ _ _) fun _ => ?_
  refine Keeps.bind (Keeps.modify fun s hs => ⟨hs.self, hs.events⟩) fun _ => ?_
  split
  · exact Keeps.modify fun s hs => Owned.push hid hs (congrArg some hs₀.self)
  · exact Keeps.pure _

theorem owned_report {s : Session W} (hs : Owned id s) (raw : UInt64) (data : Bytes) :
    Owned id (s.report raw data) := by
  unfold Session.report
  split
  · exact hs
  · exact Owned.push hid hs (congrArg some hs.self)

theorem pollStreams_owned : Keeps (Owned (W := W) id) (pollStreams q fuel) := by
  have hsteady := owned_steady (W := W) hid
  have hreads : ∀ raw, Reads q raw (Owned id) (Owned id) (Owned id) := by
    intro raw
    refine ⟨?_, ?_, ?_, ?_, ?_, fun s => hsteady.note s raw⟩
    · intro s hs
      unfold Session.discover
      split
      · refine Owned.push hid (s := (s.askServer q).setStream raw _) ⟨hs.self, hs.events⟩ ?_
        exact congrArg some hs.self
      · exact ⟨hs.self, hs.events⟩
    · intro s state _ _ hs
      exact hsteady.world s _ hs
    · intro s state e message _ _ hs
      exact Owned.push hid (hsteady.world s _ hs) (congrArg some hs.self)
    · intro s state data _ _ hs
      exact owned_report hid (hsteady.world s _ hs) raw data
    · intro s state data _ _ hs
      have hreport := owned_report hid (hsteady.world s (q.streamRecv raw s.world).2 hs) raw data
      exact Owned.push hid (s := Session.setStream _ raw _) ⟨hreport.self, hreport.events⟩
        (congrArg some hs.self)
  intro s₀ hs₀
  exact pollStreams_triple (P := fun _ => Owned id) (R := fun _ _ => Owned id) hsteady.drains hs₀
    (fun _ => hsteady.drains.polled hs₀) (fun raw rest => hreads raw) (fun _ hs => hs) hsteady.gc
    s₀ rfl

theorem recvPacket_owned [MultihashCodec]
    (verifyLibp2pCertificate : Bytes → Except String PeerId) (packet : Bytes) :
    Keeps (Owned (W := W) id) (recvPacket q fuel verifyLibp2pCertificate packet) := by
  have hsteady := owned_steady (W := W) hid
  have hreport : ∀ event : Session W → TransportEvent, (∀ s, (event s).conn? = some s.conn.id) →
      Keeps (Owned id) (do
        let s ← get
        pushEvent (event s) : Method W Unit) := fun event hevent =>
    Triple.get_bind fun s₀ hs₀ => Triple.modify fun s hs =>
      hs ▸ Owned.push hid hs₀ ((hevent s₀).trans (congrArg some hs₀.self))
  have hreject : ∀ message code reason,
      Keeps (Owned id) (rejectPeer q fuel message code reason) := by
    intro message code reason
    refine Triple.get_bind fun s₀ hs₀ => Triple.bind (Q := fun _ => Owned id) ?_ fun _ => ?_
    · exact Triple.modify fun s hs => hs ▸ Owned.push hid hs₀
        (e := .error s₀.conn.id message) (congrArg some hs₀.self)
    · exact Keeps.bind (hsteady.call_keeps _) fun _ =>
        Keeps.bind (Keeps.modify fun s hs => ⟨hs.self, hs.events⟩) fun _ => hsteady.flush_keeps
  have haccept : ∀ p, Keeps (Owned id) (do
      setPeerId p
      let s ← get
      pushEvent (.connected s.conn.id s.conn.endpoint) : Method W Unit) := fun p =>
    Keeps.bind (Keeps.modify fun s hs => ⟨hs.self, hs.events⟩) fun _ =>
      hreport (fun s => .connected s.conn.id s.conn.endpoint) fun _ => rfl
  refine Keeps.bind (hsteady.call_keeps _) fun answer => ?_
  split
  · exact hreport (fun s => .error s.conn.id _) fun _ => rfl
  have hcompleted : Keeps (Owned (W := W) id) (handshakeCompleted q) := by
    refine Keeps.bind Keeps.get fun s => ?_
    split
    · exact hsteady.call_keeps _
    · exact Keeps.pure _
  refine Keeps.bind hcompleted fun completed => ?_
  split
  · refine Keeps.bind (Keeps.modify fun s hs => ⟨hs.self, hs.events⟩) fun _ => ?_
    refine Keeps.bind hsteady.drainAndFlush_keeps fun _ => ?_
    refine Keeps.bind (hsteady.call_keeps _) fun cert => ?_
    split
    · exact hreject _ _ _
    refine Keeps.bind (Keeps.modify fun s hs => ⟨hs.self, hs.events⟩) fun _ => ?_
    split
    · exact hreject _ _ _
    refine Keeps.bind Keeps.get fun s => ?_
    split
    · split
      · exact hreject _ _ _
      · exact haccept _
    · exact haccept _
  · exact hsteady.drainAndFlush_keeps

end Connection

/-! ## The transport -/

/-- Every connection in the table has its key as its id, which is not 0, and the events are
named. -/
structure Sound (h : Host W) : Prop where
  entries : ∀ (id : ConnectionId) (entry : Entry), h.transport.connections[id]? = some entry →
    id.asU64 ≠ 0 ∧ entry.conn.id = id
  pending : Named h.transport.pendingEvents
  events : Named h.events

/-- A new host has no connection and no event. -/
theorem sound_new (world : W) : Sound ⟨world, .new, []⟩ where
  entries id entry hentry := by cases Std.ExtTreeMap.getElem?_empty.symm.trans hentry
  pending e he := absurd he List.not_mem_nil
  events e he := absurd he List.not_mem_nil

theorem sound_worldly : Worldly (Sound (W := W)) := fun _ _ hh =>
  ⟨hh.entries, hh.pending, hh.events⟩

section Transport

variable {net : Net W} {fuel : Nat} {id : ConnectionId}

/-- A connection is entered under its own nonzero id. -/
theorem Sound.insert {h : Host W} (hh : Sound h) (hid : id.asU64 ≠ 0) {entry : Entry}
    (hself : entry.conn.id = id) :
    Sound (h.modifyTransport (·.insertConnection id entry)) where
  entries other entry' hentry := by
    rcases BTreeMap.getElem?_insert_eq_some_iff.mp hentry with ⟨rfl, rfl⟩ | ⟨-, hold⟩
    · exact ⟨hid, hself⟩
    · exact hh.entries other entry' hold
  pending := hh.pending
  events := hh.events

/-- A change of the indexes. -/
theorem modifyTransport_sound {f : QuicTransport → QuicTransport}
    (hconnections : ∀ t, (f t).connections = t.connections)
    (hpending : ∀ t, (f t).pendingEvents = t.pendingEvents) :
    Keeps Sound (modifyTransport f : HostMethod W Unit) := by
  refine Keeps.modify fun h hh => ⟨fun id entry hentry => ?_, ?_, hh.events⟩
  · apply hh.entries id entry
    rw [← hconnections h.transport]
    exact hentry
  · show Named (f h.transport).pendingEvents
    rw [hpending h.transport]
    exact hh.pending

theorem push_sound {e : TransportEvent} (he : ∀ id, e.conn? = some id → id.asU64 ≠ 0) :
    Keeps Sound (modify fun h => h.push e : HostMethod W Unit) :=
  Keeps.modify fun _ hh => ⟨hh.entries, hh.pending, hh.events.push he⟩

theorem pushPending_sound {e : TransportEvent} (he : ∀ id, e.conn? = some id → id.asU64 ≠ 0) :
    Keeps Sound (modify fun h => h.pushPending e : HostMethod W Unit) :=
  Keeps.modify fun _ hh => ⟨hh.entries, hh.pending.push he, hh.events⟩

theorem unindexConnection_tables (t : QuicTransport) (peer : Option PeerId) :
    (t.unindexConnection id peer).connections = t.connections ∧
      (t.unindexConnection id peer).pendingEvents = t.pendingEvents :=
  ⟨QuicTransport.connections_removePeerConnection? _ _ _,
    QuicTransport.pendingEvents_removePeerConnection? _ _ _⟩

theorem reindex_sound (previous peer : Option PeerId) :
    Keeps Sound (reindex id previous peer : HostMethod W Unit) := by
  refine Keeps.bind (modifyTransport_sound
    (fun t => t.connections_removePeerConnection? previous id)
    fun t => t.pendingEvents_removePeerConnection? previous id) fun _ => ?_
  split
  · exact Keeps.pure _
  · exact modifyTransport_sound (fun _ => rfl) fun _ => rfl

/-- A method of a connection in the table. -/
theorem onConnection_sound {α : Type} {sink : Sink} {entry : Entry} {h₀ : Host W}
    {method : Quiche W → Method W α} (hh₀ : Sound h₀)
    (hentry : h₀.transport.connections[id]? = some entry)
    (hmethod : ∀ q, id.asU64 ≠ 0 → Keeps (Owned id) (method q)) :
    Triple (fun h => h = h₀) (onConnection net sink id entry method) (fun _ => Sound) Sound := by
  obtain ⟨hid, hself⟩ := hh₀.entries id entry hentry
  have hrestore : ∀ s : Session W, Owned id s → Sound (h₀.restore sink id entry s) := by
    intro s hs
    have hinsert : Sound (h₀.modifyTransport (·.insertConnection id { entry with conn := s.conn })) :=
      hh₀.insert hid hs.self
    cases sink with
    | pending => exact ⟨hinsert.entries, hs.events, hinsert.events⟩
    | polled => exact ⟨hinsert.entries, hinsert.pending, hs.events⟩
  refine Triple.zoom (hmethod _ hid) ?_ ?_ ?_
  · rintro _ rfl
    refine ⟨hself, ?_⟩
    cases sink with
    | pending => exact hh₀.pending
    | polled => exact hh₀.events
  · rintro _ _ s rfl hs
    exact hrestore s hs
  · rintro _ s rfl hs
    exact hrestore s hs

/-- An operation on an id that is not in the table fails. -/
theorem withConnection_sound {α : Type} {method : Quiche W → Method W α}
    (hmethod : ∀ q, id.asU64 ≠ 0 → Keeps (Owned id) (method q)) :
    Triple Sound (withConnection net id method) (fun _ h => Sound h ∧ id.asU64 ≠ 0) Sound := by
  refine Triple.get_bind fun h₀ hh₀ => ?_
  split
  · exact Triple.throw fun h hh => hh ▸ hh₀
  · next entry hentry =>
    exact (onConnection_sound hh₀ hentry hmethod).mono (fun _ hh => hh)
      (fun _ _ hh => ⟨hh, (hh₀.entries id entry hentry).1⟩) fun _ hh => hh

theorem withConnection_keeps {α : Type} {method : Quiche W → Method W α}
    (hmethod : ∀ q, id.asU64 ≠ 0 → Keeps (Owned id) (method q)) :
    Keeps Sound (withConnection net id method) :=
  (withConnection_sound hmethod).mono (fun _ hh => hh) (fun _ _ hh => hh.1) fun _ hh => hh

/-! ## New connections -/

/-- The id handed out is not zero. -/
theorem allocateConnectionId_sound :
    Triple Sound (allocateConnectionId : HostMethod W ConnectionId)
      (fun id h => Sound h ∧ id.asU64 ≠ 0) Sound := by
  refine Triple.bind (Q := fun result h => Sound h ∧ ∀ id, result = .ok id → id.asU64 ≠ 0)
    (Triple.modifyGet ?_) fun result => ?_
  · intro h hh
    refine ⟨⟨hh.entries, hh.pending, hh.events⟩, fun id hid => ?_⟩
    exact ((allocateConnectionId_complete h.transport).2.1 id hid).1
  · exact Triple.ofResult (fun id _ hid hh => ⟨hh.1, hh.2 id hid⟩) fun _ _ _ hh => hh.1

theorem newConnection_sound (quiche : Nat) (peerAddr : SocketAddr)
    (endpoint : ConnectionEndpoint) {E : Host W → Prop} :
    Triple Sound (newConnection net id quiche peerAddr endpoint)
      (fun entry h => Sound h ∧ entry.conn.id = id) E :=
  Triple.modifyGet fun h hh => ⟨sound_worldly h _ hh, rfl⟩

/-- A dial returns a nonzero id. -/
theorem dial_sound (addr : PeerAddr) :
    Triple Sound (dial net fuel addr) (fun id h => Sound h ∧ id.asU64 ≠ 0) Sound := by
  refine Triple.bind allocateConnectionId_sound fun id => ?_
  have hpure : ∀ {m : HostMethod W ConnectionId},
      (id.asU64 ≠ 0 → Triple Sound m (fun id h => Sound h ∧ id.asU64 ≠ 0) Sound) →
      Triple (fun h => Sound h ∧ id.asU64 ≠ 0) m (fun id h => Sound h ∧ id.asU64 ≠ 0) Sound :=
    fun hm h hh => hm hh.2 h hh.1
  refine hpure fun hid => ?_
  refine Triple.bind (sound_worldly.resolveDialSocketAddr_keeps _ _) fun peerSocket => ?_
  refine Triple.bind sound_worldly.localAddr_keeps fun localSocket => ?_
  refine Triple.bind (sound_worldly.ask_keeps _) fun scid => ?_
  split
  · exact Triple.throw fun _ hh => hh
  refine Triple.bind (sound_worldly.ask_keeps _) fun quiche => ?_
  split
  · exact Triple.throw fun _ hh => hh
  refine Triple.bind (sound_worldly.sendInitial_keeps _ _ _) fun _ => ?_
  refine Triple.bind (newConnection_sound _ _ _) fun entry => ?_
  refine Triple.bind (Q := fun _ h => Sound h ∧ entry.conn.id = id)
    (Triple.modifyGet fun h hh => ⟨sound_worldly h _ hh.1, hh.2⟩) fun sourceCid => ?_
  refine Triple.bind (Q := fun _ => Sound)
    (Triple.modify fun h hh => hh.1.insert hid hh.2) fun _ => ?_
  refine Triple.bind (modifyTransport_sound (fun _ => rfl) fun _ => rfl) fun _ => ?_
  refine Triple.bind (modifyTransport_sound (fun _ => rfl) fun _ => rfl) fun _ => ?_
  exact Triple.pure fun _ hh => ⟨hh, hid⟩

theorem acceptConnection_sound (localSocket source : SocketAddr) :
    Keeps Sound (acceptConnection net fuel localSocket source) := by
  refine Keeps.bind (sound_worldly.ask_keeps _) fun scid => ?_
  split
  · exact Keeps.throw _
  refine Keeps.bind (sound_worldly.ask_keeps _) fun quiche => ?_
  split
  · exact Keeps.throw _
  refine Keeps.bind (sound_worldly.sendInitial_keeps _ _ _) fun _ => ?_
  refine Triple.bind allocateConnectionId_sound fun id => ?_
  have hpure : ∀ {m : HostMethod W ConnectionId}, (id.asU64 ≠ 0 → Keeps Sound m) →
      Triple (fun h => Sound h ∧ id.asU64 ≠ 0) m (fun _ => Sound) Sound :=
    fun hm h hh => hm hh.2 h hh.1
  refine hpure fun hid => ?_
  refine Triple.bind (newConnection_sound _ _ _) fun entry => ?_
  refine Triple.bind (Q := fun _ h => Sound h ∧ entry.conn.id = id)
    (Triple.modifyGet fun h hh => ⟨sound_worldly h _ hh.1, hh.2⟩) fun sourceCid => ?_
  refine Triple.get_bind fun h₀ hh₀ => ?_
  refine Triple.bind (Q := fun _ => Sound)
    (Triple.modify fun h hh => hh ▸ hh₀.1.insert hid hh₀.2) fun _ => ?_
  split
  · exact Keeps.throw _
  refine Keeps.bind (modifyTransport_sound (fun _ => rfl) fun _ => rfl) fun _ => ?_
  refine Keeps.bind (push_sound fun c hc => ?_) fun _ => Keeps.pure _
  rw [← Option.some.inj hc]
  exact hid

/-! ## Operations -/

theorem listen_sound (addr : Multiaddr) : Keeps Sound (listen net addr) := by
  refine Keeps.bind (Keeps.ofResult _) fun _ => Keeps.bind sound_worldly.localAddr_keeps fun _ =>
    Keeps.bind (Keeps.ofResult _) fun _ => ?_
  refine Keeps.bind (modifyTransport_sound (fun _ => rfl) fun _ => rfl) fun _ => ?_
  exact Keeps.bind (pushPending_sound nofun) fun _ => Keeps.pure _

theorem sendRawUdp_sound (target : Multiaddr) (payload : Bytes) :
    Keeps Sound (sendRawUdp net target payload) := by
  refine Keeps.bind (sound_worldly.resolveDialSocketAddr_keeps _ _) fun addr =>
    Keeps.bind (sound_worldly.ask_keeps _) fun answer => ?_
  split
  · exact Keeps.pure _
  · exact Keeps.throw _

theorem openStreamOn_sound : Keeps Sound (openStreamOn net id) := by
  refine Triple.bind (withConnection_sound fun _ hid => (owned_steady hid).openStream_keeps)
    fun streamId h hh => ?_
  refine Keeps.bind (pushPending_sound fun c hc => ?_) (fun _ => Keeps.pure _) h hh.1
  rw [← Option.some.inj hc]
  exact hh.2

/-! ## Polling -/

theorem routePacket_sound (packet : Bytes) (localSocket source : SocketAddr) :
    Keeps Sound (routePacket net fuel packet localSocket source) := by
  refine Keeps.bind Keeps.get fun h => ?_
  dsimp only
  split
  · exact Keeps.pure _
  split
  · exact Keeps.bind (acceptConnection_sound _ _) fun _ => Keeps.pure _
  · exact Keeps.bind Keeps.get fun _ => Keeps.bind (sound_worldly.ask_keeps _) fun _ =>
      Keeps.pure _

/-- The connections that are to be removed are in the table. -/
theorem pollConnections_sound (ids : List ConnectionId) :
    Triple Sound (pollConnections net fuel ids)
      (fun found h => Sound h ∧ ∀ id ∈ found.2, id.asU64 ≠ 0) Sound := by
  induction ids with
  | nil => exact Triple.pure fun _ hh => ⟨hh, nofun⟩
  | cons id ids ih =>
    refine Triple.get_bind fun h₀ hh₀ => ?_
    split
    · exact ih.mono (fun h hh => hh ▸ hh₀) (fun _ _ hh => hh) fun _ hh => hh
    next entry hentry =>
    refine Triple.bind (onConnection_sound hh₀ hentry fun _ hid => pollStreams_owned hid)
      fun _ => ?_
    refine Triple.bind (sound_worldly.ask_keeps _) fun sourceCid => ?_
    refine Triple.bind (sound_worldly.ask_keeps _) fun closed => ?_
    refine Triple.bind ih fun found => Triple.pure ?_
    rintro h ⟨hh, hfound⟩
    refine ⟨hh, fun removed hremoved => ?_⟩
    dsimp only at hremoved
    split at hremoved
    · rcases List.mem_cons.mp hremoved with rfl | hremoved
      · exact (hh₀.entries removed entry hentry).1
      · exact hfound removed hremoved
    · exact hfound removed hremoved

theorem removeConnection_sound (hid : id.asU64 ≠ 0) :
    Keeps Sound (removeConnection id : HostMethod W Unit) := by
  have hpush : Keeps Sound (modify fun h => h.push (.closed id) : HostMethod W Unit) := by
    refine push_sound fun c hc => ?_
    rw [← Option.some.inj hc]
    exact hid
  refine Triple.get_bind fun h₀ hh₀ => ?_
  split
  · exact hpush.mono (fun h hh => hh ▸ hh₀) (fun _ _ hh => hh) fun _ hh => hh
  · refine Triple.bind (Q := fun _ => Sound) (Triple.modify ?_) fun _ => hpush
    rintro h rfl
    refine ⟨fun other entry hentry => ?_, ?_, hh₀.events⟩
    · have hkept : (h.transport.connections.erase id)[other]? = some entry := by
        rw [← hentry]
        show _ = (QuicTransport.unindexConnection _ id _).connections[other]?
        rw [(unindexConnection_tables _ _).1]
      exact hh₀.entries other entry (BTreeMap.getElem?_erase_eq_some_iff.mp hkept).2
    · show Named (QuicTransport.unindexConnection _ id _).pendingEvents
      rw [(unindexConnection_tables _ _).2]
      exact hh₀.pending

variable [MultihashCodec] {verifyLibp2pCertificate : Bytes → Except String PeerId}

/-- A packet for a connection reports nothing under the id zero. -/
theorem deliver_sound (packet : Bytes) :
    Keeps Sound (deliver net fuel verifyLibp2pCertificate id packet) := by
  refine Triple.get_bind fun h₀ hh₀ => ?_
  split
  · exact Triple.pure fun h hh => hh ▸ hh₀
  next entry hentry =>
  refine Triple.bind (onConnection_sound hh₀ hentry fun _ hid =>
    Keeps.bind (recvPacket_owned hid _ _) fun _ => Keeps.bind Keeps.get fun _ => Keeps.pure _)
    fun endpoint => ?_
  refine Keeps.bind (sound_worldly.ask_keeps _) fun sourceCid =>
    Keeps.bind (modifyTransport_sound (fun _ => rfl) fun _ => rfl) fun _ => ?_
  split
  · exact Keeps.pure _
  · refine Keeps.bind (reindex_sound _ _) fun _ => push_sound fun c hc => ?_
    rw [← Option.some.inj hc]
    exact (hh₀.entries id entry hentry).1

theorem pollPackets_sound (turns : Nat) :
    Keeps Sound (pollPacketsGo net fuel verifyLibp2pCertificate turns) := by
  induction turns with
  | zero => exact Keeps.diverge
  | succ turns ih =>
    refine Keeps.bind (sound_worldly.ask_keeps _) fun received => ?_
    split
    · exact Keeps.pure _
    · exact Keeps.throw _
    · refine Keeps.bind (Keeps.bind sound_worldly.localAddr_keeps fun localSocket =>
        Keeps.bind (routePacket_sound _ _ _) fun target => ?_) fun _ => ih
      split
      · exact Keeps.pure _
      · exact deliver_sound _

/-- What `poll` returns is named. -/
theorem poll_sound :
    Triple Sound (poll net fuel verifyLibp2pCertificate)
      (fun events h => Sound h ∧ Named events) Sound := by
  refine Triple.bind (Q := fun _ => Sound)
    (Triple.modify fun h hh => ⟨hh.entries, nofun, hh.pending⟩) fun _ => ?_
  refine Triple.bind (pollPackets_sound fuel) fun _ => ?_
  refine Triple.bind Keeps.get fun h₁ => Triple.bind (sound_worldly.ask_keeps _) fun ids => ?_
  refine Triple.bind (pollConnections_sound ids) ?_
  rintro ⟨cidUpdates, toRemove⟩ h ⟨hh, hfound⟩
  refine Triple.bind (Q := fun _ => Sound) ?_ (fun _ => ?_) h hh
  · exact Keeps.forM fun _ _ => modifyTransport_sound (fun _ => rfl) fun _ => rfl
  refine Triple.bind (Keeps.forM fun removed hremoved =>
    removeConnection_sound (hfound removed hremoved)) fun _ => ?_
  refine Triple.get_bind fun h₂ hh₂ => Triple.pure ?_
  rintro _ rfl
  exact ⟨hh₂, hh₂.events⟩

end Transport

end Minip2p.Quic
