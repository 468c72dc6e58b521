import Minip2p.Stack.Mirror

/-!
# The transport's methods and the history

Every method of the transport keeps the mirror between its table and the history (`HostMirrors`):
of the events still waiting between two polls, and of those collected so far during a poll. A poll
asks that the ids do not run out and that streams are read on reported connections only.
-/

namespace Minip2p.Stack

open Swarm (Call Connected Accepted Closed Announced TransportContract EventContract)
open Quic (isLocalId QuicConnection QuicTransport Session Method Quiche Net Entry Host HostMethod
  Sink SocketAddr Along)

variable {W : Type}

/-! ## The invariant -/

/-- A change of the transport that only touches its indexes and its listen address. -/
structure OnlyIndexes (f : QuicTransport → QuicTransport) : Prop where
  connections : ∀ t, (f t).connections = t.connections
  pendingEvents : ∀ t, (f t).pendingEvents = t.pendingEvents
  nextConnectionId : ∀ t, (f t).nextConnectionId = t.nextConnectionId

namespace OnlyIndexes

/-- A change of the indexes keeps the events. -/
theorem vector {f : QuicTransport → QuicTransport} (hf : OnlyIndexes f) (h : Host W) (sink : Sink) :
    (h.modifyTransport f).vector sink = h.vector sink := by
  cases sink with
  | pending => exact hf.pendingEvents h.transport
  | polled => rfl

theorem insertCid (cid : Bytes) (id : ConnectionId) : OnlyIndexes (·.insertCid cid id) :=
  ⟨fun _ => rfl, fun _ => rfl, fun _ => rfl⟩

theorem indexPeerConnection (p : PeerId) (id : ConnectionId) :
    OnlyIndexes (·.indexPeerConnection p id) :=
  ⟨fun _ => rfl, fun _ => rfl, fun _ => rfl⟩

theorem removePeerConnection? (p : Option PeerId) (id : ConnectionId) :
    OnlyIndexes (·.removePeerConnection? p id) := by
  cases p <;> exact ⟨fun _ => rfl, fun _ => rfl, fun _ => rfl⟩

theorem unindexConnection (id : ConnectionId) (p : Option PeerId) :
    OnlyIndexes (·.unindexConnection id p) := by
  cases p <;> exact ⟨fun _ => rfl, fun _ => rfl, fun _ => rfl⟩

theorem listenAddr (bound : Option SocketAddr) :
    OnlyIndexes fun t => { t with listenAddr := bound } :=
  ⟨fun _ => rfl, fun _ => rfl, fun _ => rfl⟩

end OnlyIndexes

section Invariant

variable {net : Net W}

/-- Every connection of the table mirrors the history, and no id from `next` on has been used. -/
structure TableMirrors (laws : Setup net) (told : List Call) (w : W)
    (table : BTreeMap ConnectionId Entry) (next : UInt64) : Prop where
  known : Known laws.verified told next.toNat
  counter : 0 < next.toNat
  bound : ∀ (id : ConnectionId) (entry : Entry), table[id]? = some entry →
    id.asU64.toNat < next.toNat
  entries : ∀ (id : ConnectionId) (entry : Entry), table[id]? = some entry →
    Mirrored (laws.server entry.quiche) (fun raw => laws.finished entry.quiche raw w) told id
      entry.conn

/-- The transport mirrors the history, to which the events in the vector `sink` belong. -/
structure HostMirrors (laws : Setup net) (sink : Sink) (told : List Call) (nowMs : UInt64)
    (h : Host W) : Prop where
  table : TableMirrors laws (history told nowMs (h.vector sink)) h.world h.transport.connections
    h.transport.nextConnectionId
  quiet : sink = .pending → ∀ e ∈ h.transport.pendingEvents, isQuiet e = true
  empty : sink = .polled → h.transport.pendingEvents = []

namespace TableMirrors

variable {laws : Setup net} {told : List Call} {w : W} {table : BTreeMap ConnectionId Entry}
  {next : UInt64} {id : ConnectionId}

/-- The table does not look at the world, but for the streams that have ended. -/
theorem world (h : TableMirrors laws told w table next) {w' : W}
    (hw : ∀ n raw, laws.finished n raw w → laws.finished n raw w') :
    TableMirrors laws told w' table next where
  known := h.known
  counter := h.counter
  bound := h.bound
  entries := fun id entry hentry => (h.entries id entry hentry).finish (hw entry.quiche)

/-- An entry is written back, or a new one made. -/
theorem insert (h : TableMirrors laws told w table next) {entry : Entry}
    (hid : id.asU64.toNat < next.toNat)
    (hentry : Mirrored (laws.server entry.quiche) (fun raw => laws.finished entry.quiche raw w) told
      id entry.conn) : TableMirrors laws told w (table.insert id entry) next where
  known := h.known
  counter := h.counter
  bound := by
    intro other entry' hother
    rcases BTreeMap.getElem?_insert_eq_some_iff.mp hother with ⟨rfl, rfl⟩ | ⟨-, hold⟩
    · exact hid
    · exact h.bound other entry' hold
  entries := by
    intro other entry' hother
    rcases BTreeMap.getElem?_insert_eq_some_iff.mp hother with ⟨rfl, rfl⟩ | ⟨-, hold⟩
    · exact hentry
    · exact h.entries other entry' hold

/-- A call about no connection of the table, or one that neither connects nor closes it nor
announces a stream. -/
theorem concat (h : TableMirrors laws told w table next) {call : Call}
    (hknown : Known laws.verified (told ++ [call]) next.toNat)
    (hquiet : ∀ (id : ConnectionId) (entry : Entry), table[id]? = some entry →
      call.connects? ≠ some id ∧ call.closes? ≠ some id ∧ ∀ t, call.announces? ≠ some ⟨id, t⟩) :
    TableMirrors laws (told ++ [call]) w table next where
  known := hknown
  counter := h.counter
  bound := h.bound
  entries := fun id entry hentry =>
    (h.entries id entry hentry).concat (hquiet id entry hentry).1 (hquiet id entry hentry).2.1
      (hquiet id entry hentry).2.2

/-- A connection of the table is taken out and reported as closed. -/
theorem remove (h : TableMirrors laws told w table next) {entry : Entry} {nowMs : UInt64}
    (hentry : table[id]? = some entry) :
    TableMirrors laws (told ++ [.input (.transport (.closed id) nowMs)]) w (table.erase id)
      next := by
  have herased : TableMirrors laws told w (table.erase id) next :=
    { known := h.known
      counter := h.counter
      bound := fun other entry' hother =>
        h.bound other entry' (BTreeMap.getElem?_erase_eq_some_iff.mp hother).2
      entries := fun other entry' hother =>
        h.entries other entry' (BTreeMap.getElem?_erase_eq_some_iff.mp hother).2 }
  refine herased.concat (h.known.push (h.entries id entry hentry).live trivial ?_) ?_
  · rintro _ ⟨⟩
    exact h.bound id entry hentry
  · intro other entry' hother
    refine ⟨by rintro ⟨⟩, ?_, fun _ => by rintro ⟨⟩⟩
    intro hsame
    exact (BTreeMap.getElem?_erase_eq_some_iff.mp hother).1 (Option.some.inj hsame).symm

end TableMirrors

namespace HostMirrors

variable {laws : Setup net} {sink : Sink} {told : List Call} {nowMs : UInt64} {h : Host W}
  {id : ConnectionId} {entry : Entry}

/-- The world moves on, and what quiche has finished stays finished. -/
theorem withWorld (hh : HostMirrors laws sink told nowMs h) {w : W}
    (hw : ∀ n raw, laws.finished n raw h.world → laws.finished n raw w) :
    HostMirrors laws sink told nowMs { h with world := w } := by
  refine ⟨?_, hh.quiet, hh.empty⟩
  cases sink with
  | pending => exact hh.table.world hw
  | polled => exact hh.table.world hw

theorem along : Along net (HostMirrors laws sink told nowMs) :=
  fun h w hw hh => hh.withWorld fun n raw => laws.lasts n raw h.world w hw

/-- A change of the indexes. -/
theorem index (hh : HostMirrors laws sink told nowMs h) {f : QuicTransport → QuicTransport}
    (hf : OnlyIndexes f) : HostMirrors laws sink told nowMs (h.modifyTransport f) := by
  refine ⟨?_, ?_, ?_⟩
  · rw [hf.vector]
    show TableMirrors laws _ h.world (f h.transport).connections (f h.transport).nextConnectionId
    rw [hf.connections, hf.nextConnectionId]
    exact hh.table
  · show sink = .pending → ∀ e ∈ (f h.transport).pendingEvents, isQuiet e = true
    rw [hf.pendingEvents]
    exact hh.quiet
  · show sink = .polled → (f h.transport).pendingEvents = []
    rw [hf.pendingEvents]
    exact hh.empty

/-- An event that says nothing new about the connections of the table is collected. -/
theorem push (hh : HostMirrors laws .polled told nowMs h) {event : TransportEvent}
    (hcontract : EventContract (history told nowMs h.events) event)
    (hidentity : VerifiedIdentity laws.verified (history told nowMs h.events) (.input (.transport event nowMs)))
    (hbelow : ∀ c, event.conn? = some c → c.asU64.toNat < h.transport.nextConnectionId.toNat)
    (hquiet : ∀ (id : ConnectionId) (entry : Entry), h.transport.connections[id]? = some entry →
      (Call.input (.transport event nowMs)).connects? ≠ some id ∧
        (Call.input (.transport event nowMs)).closes? ≠ some id ∧
        ∀ t, (Call.input (.transport event nowMs)).announces? ≠ some ⟨id, t⟩) :
    HostMirrors laws .polled told nowMs (h.push event) := by
  have hevents : history told nowMs ((h.push event).vector .polled) =
      history told nowMs h.events ++ [.input (.transport event nowMs)] := history_concat event
  refine ⟨?_, by rintro ⟨⟩, fun _ => hh.empty rfl⟩
  rw [hevents]
  exact hh.table.concat (hh.table.known.push hcontract hidentity hbelow) hquiet

/-- A quiet event is put down for the next poll. -/
theorem pushPending (hh : HostMirrors laws .pending told nowMs h) {event : TransportEvent}
    (hevent : isQuiet event = true)
    (hcontract : EventContract (history told nowMs h.transport.pendingEvents) event)
    (hbelow : ∀ c, event.conn? = some c → c.asU64.toNat < h.transport.nextConnectionId.toNat) :
    HostMirrors laws .pending told nowMs (h.pushPending event) := by
  have hevents : history told nowMs ((h.pushPending event).vector .pending) =
      history told nowMs h.transport.pendingEvents ++ [.input (.transport event nowMs)] :=
    history_concat event
  refine ⟨?_, ?_, by rintro ⟨⟩⟩
  · rw [hevents]
    refine hh.table.concat (hh.table.known.push hcontract ?_ hbelow) fun id entry _ => ?_
    · cases event with
      | connected => cases hevent
      | peerIdentityVerified => cases hevent
      | _ => trivial
    · rw [connects?_of_isQuiet hevent, closes?_of_isQuiet hevent, announces?_of_isQuiet hevent]
      exact ⟨by rintro ⟨⟩, by rintro ⟨⟩, fun _ => by rintro ⟨⟩⟩
  · rintro - e he
    rcases List.mem_append.mp he with hold | hnew
    · exact hh.quiet rfl e hold
    · rw [List.mem_singleton.mp hnew]
      exact hevent

end HostMirrors

end Invariant

/-! ## A connection's method -/

/-- Where a method of the connection `id` of the transport runs. -/
def settingOf (h : Host W) (told : List Call) (nowMs : UInt64) (id : ConnectionId)
    (entry : Entry) : Setting :=
  ⟨entry.quiche, id, h.transport.connections, h.transport.nextConnectionId.toNat, told, nowMs⟩

section Connection

variable {net : Net W} {laws : Setup net} {sink : Sink} {told : List Call} {nowMs : UInt64} {h : Host W}
  {id : ConnectionId} {entry : Entry}

/-- A connection in the table mirrors its history. -/
theorem HostMirrors.session (hh : HostMirrors laws sink told nowMs h)
    (hentry : h.transport.connections[id]? = some entry) :
    SessionMirrors laws (settingOf h told nowMs id entry) (h.session sink entry) where
  known := hh.table.known
  bound := hh.table.bound id entry hentry
  self := hh.table.entries id entry hentry
  others := fun other entry' _ hother => hh.table.entries other entry' hother

/-- What the method leaves goes back into the table. -/
theorem HostMirrors.restore (hh : HostMirrors laws sink told nowMs h) {s : Session W}
    (hs : SessionMirrors laws (settingOf h told nowMs id entry) s)
    (hquiet : sink = .pending → ∀ e ∈ s.events, isQuiet e = true) :
    HostMirrors laws sink told nowMs (h.restore sink id entry s) := by
  have htable : TableMirrors laws (history told nowMs s.events) s.world
      (h.transport.connections.insert id { entry with conn := s.conn })
      h.transport.nextConnectionId :=
    { known := hs.known
      counter := hh.table.counter
      bound := by
        intro other entry' hother
        rcases BTreeMap.getElem?_insert_eq_some_iff.mp hother with ⟨rfl, rfl⟩ | ⟨-, hold⟩
        · exact hs.bound
        · exact hh.table.bound other entry' hold
      entries := by
        intro other entry' hother
        rcases BTreeMap.getElem?_insert_eq_some_iff.mp hother with ⟨rfl, rfl⟩ | ⟨hne, hold⟩
        · exact hs.self
        · exact hs.others other entry' hne hold }
  cases sink with
  | pending => exact ⟨htable, hquiet, by rintro ⟨⟩⟩
  | polled => exact ⟨htable, by rintro ⟨⟩, fun _ => hh.empty rfl⟩

theorem onConnection_triple {α : Type} {method : Quiche W → Method W α}
    {Q : α → Session W → Prop} {E : Session W → Prop}
    (hmethod : Triple (fun s => s = h.session sink entry) (method (net.quiche entry.quiche)) Q E) :
    Triple (fun h' => h' = h) (Quic.onConnection net sink id entry method)
      (fun a h' => ∃ s, Q a s ∧ h' = h.restore sink id entry s)
      (fun h' => ∃ s, E s ∧ h' = h.restore sink id entry s) := by
  refine Triple.zoom hmethod ?_ ?_ ?_
  · rintro _ rfl
    rfl
  · rintro a _ s rfl hs
    exact ⟨s, hs, rfl⟩
  · rintro _ s rfl hs
    exact ⟨s, hs, rfl⟩

end Connection

/-! ## New connections -/

/-- A connection that nobody has heard of mirrors every history. -/
theorem mirrored_fresh {verified : PeerId → Prop} {server : Bool} {finished : UInt64 → Prop}
    {told : List Call} {next : Nat} {id : ConnectionId} {conn : QuicConnection}
    (hknown : Known verified told next)
    (hconnected : ¬ Connected told id) (hclosed : ¬ Closed told id) (hself : conn.id = id)
    (hstate : conn.state = .connecting) (hstreams : conn.streamStates = ∅)
    (hparity : isLocalId server conn.nextLocalBidiStreamId = true) :
    Mirrored server finished told id conn where
  self := hself
  live := hclosed
  connected := by
    intro h
    cases hstate.symm.trans h
  connecting := fun h => absurd h hconnected
  active := by
    intro raw state h
    rw [hstreams, Std.ExtTreeMap.getElem?_empty] at h
    cases h
  streams := by
    intro raw
    rw [hstreams, Std.ExtTreeMap.getElem?_empty]
    exact ⟨by rintro _ ⟨⟩, by rintro _ ⟨⟩, fun hann => absurd (hknown.announced _ hann) hconnected⟩
  below := fun raw hann => absurd (hknown.announced _ hann) hconnected
  parity := hparity

section New

variable {net : Net W} {laws : Setup net} {sink : Sink} {told : List Call}
  {nowMs : UInt64} {limit : Nat} {h : Host W} {id : ConnectionId} {fuel : Nat}

/-- The mirror, with a limit on the ids that were handed out. -/
structure Counted (laws : Setup net) (sink : Sink) (told : List Call) (nowMs : UInt64)
    (limit : Nat) (h : Host W) : Prop where
  mirrors : HostMirrors laws sink told nowMs h
  limit : h.transport.nextConnectionId.toNat ≤ limit

/-- An id was handed out that the history has not seen yet. -/
structure Reserved (laws : Setup net) (sink : Sink) (told : List Call) (nowMs : UInt64)
    (limit : Nat) (id : ConnectionId) (h : Host W) : Prop extends
    Counted laws sink told nowMs limit h where
  below : id.asU64.toNat < h.transport.nextConnectionId.toNat
  fresh : ¬ Connected (history told nowMs (h.vector sink)) id ∧
    ¬ Accepted (history told nowMs (h.vector sink)) id ∧
    ¬ Closed (history told nowMs (h.vector sink)) id

theorem counted_along : Along net (Counted laws sink told nowMs limit) :=
  fun h w hw hh => ⟨HostMirrors.along h w hw hh.mirrors, hh.limit⟩

/-- A change of the indexes counts no event. -/
theorem Counted.index (hh : Counted laws sink told nowMs limit h)
    {f : QuicTransport → QuicTransport} (hf : OnlyIndexes f) :
    Counted laws sink told nowMs limit (h.modifyTransport f) := by
  refine ⟨hh.mirrors.index hf, ?_⟩
  show (f h.transport).nextConnectionId.toNat ≤ limit
  rw [hf.nextConnectionId]
  exact hh.limit

namespace Reserved

theorem along : Along net (Reserved laws sink told nowMs limit id) := by
  intro h w hw hh
  refine ⟨counted_along h w hw hh.toCounted, hh.below, ?_⟩
  cases sink with
  | pending => exact hh.fresh
  | polled => exact hh.fresh

/-- A change of the indexes keeps the reservation. -/
theorem index (hh : Reserved laws sink told nowMs limit id h) {f : QuicTransport → QuicTransport}
    (hf : OnlyIndexes f) : Reserved laws sink told nowMs limit id (h.modifyTransport f) := by
  refine ⟨hh.toCounted.index hf, ?_, ?_⟩
  · show id.asU64.toNat < (f h.transport).nextConnectionId.toNat
    rw [hf.nextConnectionId]
    exact hh.below
  · rw [hf.vector]
    exact hh.fresh

end Reserved

/-- An entry as `newConnection` makes it. -/
structure NewEntry (laws : Setup net) (id : ConnectionId) (entry : Entry) : Prop where
  self : entry.conn.id = id
  state : entry.conn.state = .connecting
  streams : entry.conn.streamStates = ∅
  parity : isLocalId (laws.server entry.quiche) entry.conn.nextLocalBidiStreamId = true

/-- A new connection of quiche takes the id that was reserved. -/
theorem newConnection_reserved (quiche : Nat) (peerAddr : SocketAddr)
    (endpoint : ConnectionEndpoint) {E : Host W → Prop} :
    Triple (Reserved laws sink told nowMs limit id)
      (Quic.newConnection net id quiche peerAddr endpoint)
      (fun entry h => Reserved laws sink told nowMs limit id h ∧ NewEntry laws id entry) E := by
  refine Triple.modifyGet fun h hh => ⟨Reserved.along h _ (.quiche quiche (.silent
    (.isServer h.world))) hh, rfl, rfl, rfl, ?_⟩
  show isLocalId (laws.server quiche)
    (if ((net.quiche quiche).isServer h.world).1 then 1 else 0) = true
  rw [laws.isServer]
  cases laws.server quiche <;> decide

/-- The entry of the new connection uses the reservation up. -/
theorem Reserved.insert (hh : Reserved laws sink told nowMs limit id h) {entry : Entry}
    (hentry : NewEntry laws id entry) :
    Reserved laws sink told nowMs limit id
      (h.modifyTransport fun t => t.insertConnection id entry) := by
  have hvector : (h.modifyTransport fun t => t.insertConnection id entry).vector sink =
      h.vector sink := by
    cases sink <;> rfl
  refine ⟨⟨⟨?_, hh.mirrors.quiet, hh.mirrors.empty⟩, hh.limit⟩, hh.below, ?_⟩
  · rw [hvector]
    exact hh.mirrors.table.insert hh.below (mirrored_fresh hh.mirrors.table.known hh.fresh.1
      hh.fresh.2.2 hentry.self hentry.state hentry.streams hentry.parity)
  · rw [hvector]
    exact hh.fresh

/-- The counter has not come round, so its value is free. -/
theorem HostMirrors.allocateConnectionId_eq (hh : HostMirrors laws sink told nowMs h) :
    h.transport.allocateConnectionId = (.ok ⟨h.transport.nextConnectionId⟩,
      { h.transport with nextConnectionId := h.transport.nextConnectionId + 1 }) := by
  have hne : h.transport.nextConnectionId ≠ 0 := by
    intro hzero
    have hcounter := hh.table.counter
    rw [hzero] at hcounter
    exact Nat.lt_irrefl 0 hcounter
  have hfree : ¬ h.transport.connections.contains ⟨h.transport.nextConnectionId⟩ = true := by
    rw [Std.ExtTreeMap.contains_iff_mem]
    intro hmem
    obtain ⟨entry, hentry⟩ := BTreeMap.exists_getElem?_of_mem hmem
    exact Nat.lt_irrefl _ (hh.table.bound _ entry hentry)
  have hgo : ∀ start fuel, h.transport.allocateGo start fuel h.transport.nextConnectionId =
      (.ok ⟨h.transport.nextConnectionId⟩, h.transport.nextConnectionId + 1) := by
    intro start fuel
    unfold QuicTransport.allocateGo
    exact if_pos ⟨hne, hfree⟩
  rw [QuicTransport.allocateConnectionId, hgo]

/-- An id that was allocated is reserved. -/
theorem allocateConnectionId_reserved {E : Host W → Prop} (hwrap : limit + 1 < 2 ^ 64) :
    Triple (Counted laws sink told nowMs limit) Quic.allocateConnectionId
      (fun id => Reserved laws sink told nowMs (limit + 1) id) E := by
  refine Triple.bind (Q := fun id h => ∃ i, id = .ok i ∧
    Reserved laws sink told nowMs (limit + 1) i h) (Triple.modifyGet ?_) fun id => ?_
  · intro h hh
    rw [hh.mirrors.allocateConnectionId_eq]
    refine ⟨_, rfl, ?_⟩
    have hmore : (h.transport.nextConnectionId + 1).toNat =
        h.transport.nextConnectionId.toNat + 1 := by
      have hlimit := hh.limit
      have hone : (1 : UInt64).toNat = 1 := rfl
      rw [UInt64.toNat_add, hone]
      exact Nat.mod_eq_of_lt (by omega)
    have hbump : TableMirrors laws (history told nowMs (h.vector sink)) h.world
        h.transport.connections (h.transport.nextConnectionId + 1) :=
      { hh.mirrors.table with
        known := hh.mirrors.table.known.mono (by omega)
        counter := by omega
        bound := fun other entry hother => by
          have hlt := hh.mirrors.table.bound other entry hother
          omega }
    refine ⟨⟨⟨?_, hh.mirrors.quiet, hh.mirrors.empty⟩, ?_⟩, ?_, ?_⟩
    · cases sink <;> exact hbump
    · show (h.transport.nextConnectionId + 1).toNat ≤ limit + 1
      have hlimit := hh.limit
      omega
    · show h.transport.nextConnectionId.toNat < (h.transport.nextConnectionId + 1).toNat
      omega
    · have hfresh := hh.mirrors.table.known.fresh
        (c := ⟨h.transport.nextConnectionId⟩) (Nat.le_refl _)
      cases sink <;> exact hfresh
  · refine Triple.ofResult ?_ ?_
    · rintro i h rfl ⟨_, ⟨⟩, hh⟩
      exact hh
    · rintro e h rfl ⟨_, ⟨⟩, -⟩

/-- Dialing keeps the mirror. -/
theorem dial_mirrors (addr : PeerAddr) (hwrap : limit + 1 < 2 ^ 64) :
    Triple (Counted laws .pending told nowMs limit) (Quic.dial net fuel addr)
      (fun _ => HostMirrors laws .pending told nowMs) (HostMirrors laws .pending told nowMs) := by
  refine Triple.bind (allocateConnectionId_reserved hwrap) fun id => ?_
  have hJ : Along net (Reserved laws .pending told nowMs (limit + 1) id) := Reserved.along
  refine Triple.mono (P := Reserved laws .pending told nowMs (limit + 1) id)
    (E := Reserved laws .pending told nowMs (limit + 1) id) ?_
    (fun _ hh => hh) (fun _ _ hh => hh) fun _ hh => hh.mirrors
  refine Triple.bind (hJ.resolveDialSocketAddr_keeps _ _) fun peerSocket => ?_
  refine Triple.bind hJ.localAddr_keeps fun localSocket => ?_
  refine Triple.bind (hJ.ask_keeps .generateScid) fun scid => ?_
  split
  · exact (Keeps.throw _).mono (fun _ hh => hh) (fun _ _ hh => hh.mirrors) fun _ hh => hh
  refine Triple.bind (hJ.ask_keeps (.connect _ _ _)) fun quiche => ?_
  split
  · exact (Keeps.throw _).mono (fun _ hh => hh) (fun _ _ hh => hh.mirrors) fun _ hh => hh
  next quiche =>
  refine Triple.bind (hJ.sendInitial_keeps _ _ _) fun _ => ?_
  refine Triple.bind (newConnection_reserved _ _ _) fun entry => ?_
  refine Triple.bind (Q := fun sourceCid h => Reserved laws .pending told nowMs (limit + 1) id h ∧
    NewEntry laws id entry)
    (Triple.modifyGet fun h hh => ⟨hJ h _ (.sourceId quiche h.world) hh.1, hh.2⟩)
    fun sourceCid => ?_
  refine Triple.bind (Q := fun _ => Reserved laws .pending told nowMs (limit + 1) id)
    (Triple.modify fun h hh => hh.1.insert hh.2) fun _ => ?_
  refine Triple.bind (Q := fun _ => Reserved laws .pending told nowMs (limit + 1) id)
    (Triple.modify fun h hh => hh.index (.insertCid sourceCid id)) fun _ => ?_
  refine Triple.bind (Q := fun _ => Reserved laws .pending told nowMs (limit + 1) id)
    (Triple.modify fun h hh => hh.index (.indexPeerConnection addr.peerId id)) fun _ => ?_
  exact Triple.pure fun _ hh => hh.mirrors

/-- Accepting a connection counts at most one event. -/
theorem acceptConnection_counted (localSocket source : SocketAddr) (hwrap : limit + 1 < 2 ^ 64) :
    Triple (Counted laws .polled told nowMs limit) (Quic.acceptConnection net fuel localSocket source)
      (fun _ => Counted laws .polled told nowMs (limit + 1)) (fun _ => True) := by
  have hJ : Along net (Counted laws .polled told nowMs limit) := counted_along
  have hask : ∀ {α : Type} {op : W → α × W}, (∀ w, net.Moves w (op w).2) →
      Triple (Counted laws .polled told nowMs limit) (Quic.ask op)
        (fun _ => Counted laws .polled told nowMs limit) fun _ => True := fun hop =>
    (hJ.ask_keeps hop).mono (fun _ hh => hh) (fun _ _ hh => hh) fun _ _ => trivial
  refine Triple.bind (hask .generateScid) fun scid => ?_
  split
  · exact Triple.throw fun _ _ => trivial
  refine Triple.bind (hask (.accept _ _ _)) fun quiche => ?_
  split
  · exact Triple.throw fun _ _ => trivial
  next quiche =>
  refine Triple.bind ((hJ.sendInitial_keeps _ _ _).mono (fun _ hh => hh) (fun _ _ hh => hh)
    fun _ _ => trivial) fun _ => ?_
  refine Triple.bind (allocateConnectionId_reserved hwrap) fun id => ?_
  refine Triple.bind (newConnection_reserved _ _ _) fun entry => ?_
  refine Triple.bind (Q := fun sourceCid h => Reserved laws .polled told nowMs (limit + 1) id h ∧
    NewEntry laws id entry)
    (Triple.modifyGet fun h hh => ⟨Reserved.along h _ (.sourceId quiche h.world) hh.1, hh.2⟩)
    fun sourceCid => ?_
  apply Triple.get_bind
  rintro h₀ ⟨hh₀, hentry⟩
  refine Triple.bind (Q := fun _ => Reserved laws .polled told nowMs (limit + 1) id)
    (Triple.modify fun h hh => hh ▸ hh₀.insert hentry) fun _ => ?_
  split
  · exact Triple.throw fun _ _ => trivial
  refine Triple.bind (Q := fun _ => Reserved laws .polled told nowMs (limit + 1) id)
    (Triple.modify fun h hh => hh.index (.insertCid sourceCid id)) fun _ => ?_
  refine Triple.bind (Q := fun _ => Counted laws .polled told nowMs (limit + 1))
    (Triple.modify fun h hh => ⟨hh.mirrors.push hh.fresh trivial ?_ ?_, hh.limit⟩) fun _ =>
    Triple.pure fun _ hh => hh
  · rintro _ ⟨⟩
    exact hh.below
  · exact fun other entry _ => ⟨by rintro ⟨⟩, by rintro ⟨⟩, fun _ => by rintro ⟨⟩⟩

end New

/-! ## Requests of the driver -/

section Requests

variable {net : Net W} {laws : Setup net} {told : List Call} {nowMs : UInt64}
  {h : Host W} {id : ConnectionId} {streamId : StreamId} {fuel : Nat}

/-- Listening keeps the mirror. -/
theorem listen_mirrors (addr : Multiaddr) :
    Keeps (HostMirrors laws .pending told nowMs) (Quic.listen net addr) := by
  refine Keeps.bind (Keeps.ofResult _) fun _ =>
    Keeps.bind HostMirrors.along.localAddr_keeps fun bound => Keeps.bind (Keeps.ofResult _) fun _ => ?_
  refine Keeps.bind (Keeps.modify fun h hh => hh.index (.listenAddr (some bound))) fun _ => ?_
  refine Keeps.bind (Keeps.modify fun h hh => ?_) fun _ => Keeps.pure _
  exact hh.pushPending rfl trivial (by rintro _ ⟨⟩)

/-- A method of a connection that keeps the mirror between two polls. `R` is what its caller has to
see to. -/
theorem withConnection_mirrors {α : Type} {method : Quiche W → Method W α}
    {R : List Call → ConnectionId → Prop}
    (hmethod : ∀ x : Setting, Triple
      (fun s => Waiting laws x s ∧ R (x.history s.events) x.id) (method (net.quiche x.quiche))
      (fun _ => Waiting laws x) (Waiting laws x)) :
    Triple (fun h => HostMirrors laws .pending told nowMs h ∧
        R (history told nowMs h.transport.pendingEvents) id)
      (Quic.withConnection net id method) (fun _ => HostMirrors laws .pending told nowMs)
      (HostMirrors laws .pending told nowMs) := by
  apply Triple.get_bind
  rintro h₀ ⟨hh₀, hready⟩
  split
  · exact Triple.throw fun h hh => hh ▸ hh₀
  next entry hentry =>
  refine Triple.mono (onConnection_triple (Triple.mono
    (hmethod (settingOf h₀ told nowMs id entry)) ?_ (fun _ _ hs => hs) fun _ hs => hs))
    (fun _ hh => hh) ?_ ?_
  · rintro _ rfl
    exact ⟨⟨hh₀.session hentry, hh₀.quiet rfl⟩, hready⟩
  · rintro _ _ ⟨s, hs, rfl⟩
    exact hh₀.restore hs.mirrors fun _ => hs.quiet
  · rintro _ ⟨s, hs, rfl⟩
    exact hh₀.restore hs.mirrors fun _ => hs.quiet

/-- The streams the driver writes to have been announced. -/
theorem sendStreamOn_mirrors (data : Bytes) :
    Triple (fun h => HostMirrors laws .pending told nowMs h ∧
        Announced (history told nowMs h.transport.pendingEvents) ⟨id, streamId⟩)
      (Quic.sendStreamOn net fuel id streamId data)
      (fun _ => HostMirrors laws .pending told nowMs) (HostMirrors laws .pending told nowMs) :=
  withConnection_mirrors (R := fun told id => Announced told ⟨id, streamId⟩)
    fun _ => sendStream_waiting data

/-- Closing a stream keeps the mirror, if the stream was announced. -/
theorem closeStreamWriteOn_mirrors :
    Triple (fun h => HostMirrors laws .pending told nowMs h ∧
        Announced (history told nowMs h.transport.pendingEvents) ⟨id, streamId⟩)
      (Quic.closeStreamWriteOn net fuel id streamId)
      (fun _ => HostMirrors laws .pending told nowMs) (HostMirrors laws .pending told nowMs) :=
  withConnection_mirrors (R := fun told id => Announced told ⟨id, streamId⟩)
    fun _ => closeStreamWrite_waiting

/-- Resetting a stream keeps the mirror. -/
theorem resetStreamOn_mirrors :
    Keeps (HostMirrors laws .pending told nowMs) (Quic.resetStreamOn net id streamId) :=
  Triple.mono (withConnection_mirrors (R := fun _ _ => True) fun _ =>
      Triple.mono (resetStream_waiting streamId) (fun _ hs => hs.1) (fun _ _ hs => hs)
        fun _ hs => hs)
    (fun _ hh => ⟨hh, trivial⟩) (fun _ _ hh => hh) fun _ hh => hh

/-- Closing a connection keeps the mirror. -/
theorem closeOn_mirrors :
    Keeps (HostMirrors laws .pending told nowMs) (Quic.closeOn net fuel id) :=
  Triple.mono (withConnection_mirrors (R := fun _ _ => True) fun _ =>
      Triple.mono close_waiting (fun _ hs => hs.1) (fun _ _ hs => hs) fun _ hs => hs)
    (fun _ hh => ⟨hh, trivial⟩) (fun _ _ hh => hh) fun _ hh => hh

/-- Every stream of the table that `id` and `streamId` name is one that this side opened. -/
def Ours (laws : Setup net) (h : Host W) (id : ConnectionId) (raw : UInt64) : Prop :=
  ∀ entry : Entry, h.transport.connections[id]? = some entry →
    isLocalId (laws.server entry.quiche) raw = true ∧
      raw.toNat < entry.conn.nextLocalBidiStreamId.toNat

/-- A stream was opened on a connection that is known, and the history has not seen it yet. -/
structure Opened (laws : Setup net) (told : List Call) (nowMs : UInt64) (id : ConnectionId)
    (streamId : StreamId) (h : Host W) : Prop where
  mirrors : HostMirrors laws .pending told nowMs h
  active : Connected (history told nowMs h.transport.pendingEvents) id
  unseen : ¬ Announced (history told nowMs h.transport.pendingEvents) ⟨id, streamId⟩
  ours : Ours laws h id streamId.asU64

/-- The connection has stream ids left. -/
def hasStreamIds (h : Host W) (id : ConnectionId) : Bool :=
  match h.transport.connections[id]? with
  | none => true
  | some entry => entry.conn.nextLocalBidiStreamId.toNat + 4 < 2 ^ 64

/-- A stream that was opened is new. -/
theorem openStreamOn_opened {h₀ : Host W} (hh₀ : HostMirrors laws .pending told nowMs h₀)
    (hwrap : hasStreamIds h₀ id = true) :
    Triple (fun h => h = h₀) (Quic.openStreamOn net id)
      (fun streamId h => Opened laws told nowMs id streamId h)
      (HostMirrors laws .pending told nowMs) := by
  refine Triple.bind (Q := fun streamId h => Opened laws told nowMs id streamId h ∧
    ¬ Closed (history told nowMs h.transport.pendingEvents) id ∧
    id.asU64.toNat < h.transport.nextConnectionId.toNat) ?_ fun streamId => ?_
  · apply Triple.get_bind
    rintro h₁ rfl
    split
    · exact Triple.throw fun h hh => hh ▸ hh₀
    next entry hentry =>
    rw [hasStreamIds, hentry] at hwrap
    have hwaiting : Waiting laws (settingOf h₁ told nowMs id entry) (h₁.session .pending entry) :=
      ⟨hh₀.session hentry, hh₀.quiet rfl⟩
    have hopen := openStream_waiting hwaiting (of_decide_eq_true hwrap)
    refine Triple.mono (onConnection_triple hopen) (fun _ hh => hh) ?_ ?_
    · rintro streamId _ ⟨s, ⟨hs, hopening⟩, rfl⟩
      refine ⟨⟨hh₀.restore hs.mirrors fun _ => hs.quiet, hopening.active, hopening.unseen, ?_⟩,
        hs.mirrors.self.live, hs.mirrors.bound⟩
      intro entry' hentry'
      have hself : (h₁.transport.connections.insert id { entry with conn := s.conn })[id]? =
          some { entry with conn := s.conn } := Std.ExtTreeMap.getElem?_insert_self
      obtain rfl := Option.some.inj (hself.symm.trans hentry')
      exact ⟨hopening.ours, hopening.below⟩
    · rintro _ ⟨s, hs, rfl⟩
      exact hh₀.restore hs.mirrors fun _ => hs.quiet
  · refine Triple.bind (Q := fun _ h => Opened laws told nowMs id streamId h) (Triple.modify ?_)
      fun _ => Triple.pure fun _ hh => hh
    rintro h ⟨hh, hlive, hbelow⟩
    have hevents : history told nowMs
        (h.pushPending (.streamOpened id streamId)).transport.pendingEvents =
        history told nowMs h.transport.pendingEvents ++
          [.input (.transport (.streamOpened id streamId) nowMs)] :=
      history_concat (TransportEvent.streamOpened id streamId)
    refine ⟨hh.mirrors.pushPending rfl ⟨hh.active, hlive⟩ ?_, ?_, ?_, hh.ours⟩
    · rintro _ ⟨⟩
      exact hbelow
    · rw [hevents]
      exact hh.active.concat
    · rw [hevents, announced_concat_iff]
      rintro (hold | hnew)
      · exact hh.unseen hold
      · cases hnew

end Requests

/-! ## Calls on the core -/

section Calls

variable {net : Net W} {laws : Setup net} {told : List Call} {nowMs : UInt64}
  {h : Host W} {call : Call}

/-- The driver makes a call on the core that is no transport event. A stream it announces is one
that was opened. -/
theorem HostMirrors.tell (hh : HostMirrors laws .pending told nowMs h)
    (hevent : call.transportEvent? = none) (hcontract : TransportContract told call)
    (hannounces : ∀ k, call.announces? = some k →
      Connected (history told nowMs h.transport.pendingEvents) k.conn ∧
        Ours laws h k.conn k.stream.asU64) :
    HostMirrors laws .pending (told ++ [call]) nowMs h := by
  obtain ⟨hconnects, -, hcloses⟩ := silent_of_no_event hevent
  refine ⟨⟨?_, hh.table.counter, hh.table.bound, fun id entry hentry => ?_⟩, hh.quiet, hh.empty⟩
  · exact hh.table.known.tell (hh.quiet rfl) hevent hcontract fun k hk => (hannounces k hk).1
  · have hours : ∀ raw, call.announces? = some ⟨id, ⟨raw⟩⟩ →
        isLocalId (laws.server entry.quiche) raw = true ∧
          raw.toNat < entry.conn.nextLocalBidiStreamId.toNat := fun raw hk =>
      (hannounces _ hk).2 entry hentry
    refine ((hh.table.entries id entry hentry).announce ?_ ?_ fun raw hk => ?_).perm
      history_tell_perm.symm
    · rw [hconnects]
      rintro ⟨⟩
    · rw [hcloses]
      rintro ⟨⟩
    · refine ⟨fun hremote => ?_, fun _ => (hours raw hk).2⟩
      cases (hours raw hk).1.symm.trans hremote

/-- What was opened stays open when the world moves on. -/
theorem Opened.withWorld {id : ConnectionId} {streamId : StreamId}
    (hh : Opened laws told nowMs id streamId h) {w : W}
    (hw : ∀ n raw, laws.finished n raw h.world → laws.finished n raw w) :
    Opened laws told nowMs id streamId { h with world := w } :=
  ⟨hh.mirrors.withWorld hw, hh.active, hh.unseen, hh.ours⟩

/-- A stream that was opened is announced. -/
theorem Opened.announce {id : ConnectionId} {streamId : StreamId} {token : Swarm.OpenStreamToken}
    {now : UInt64} (hh : Opened laws told nowMs id streamId h) :
    HostMirrors laws .pending (told ++ [.input (.streamOpened id streamId token now)]) nowMs h := by
  refine hh.mirrors.tell rfl (fun hann => hh.unseen ?_) ?_
  · obtain ⟨call, hcall, hk⟩ := hann
    exact ⟨call, List.mem_append_left _ hcall, hk⟩
  · rintro _ ⟨⟩
    exact ⟨hh.active, hh.ours⟩

/-- What a poll has returned is told. -/
theorem HostMirrors.handOut (hh : HostMirrors laws .polled told nowMs h) (now : UInt64) :
    HostMirrors laws .pending (history told nowMs h.events) now h := by
  have hpending := hh.empty rfl
  have hevents : history (history told nowMs h.events) now (h.vector .pending) =
      history told nowMs h.events := by
    show history _ now h.transport.pendingEvents = _
    rw [hpending, history_nil]
  refine ⟨?_, ?_, by rintro ⟨⟩⟩
  · rw [hevents]
    exact hh.table
  · rintro - e he
    rw [hpending] at he
    cases he

end Calls

end Minip2p.Stack
