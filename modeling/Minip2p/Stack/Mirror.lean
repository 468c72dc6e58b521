import Minip2p.Quic.TransportTheorems
import Minip2p.Stack.History

/-!
# A connection's methods and the history

Every method of a connection keeps the mirror between the transport's table and the history
(`SessionMirrors`), with the events the method reports added to the history. What is relied on of
quiche is in `StreamLaws`; what a caller has to see to is said with each method.
-/

namespace Minip2p.Stack

open Swarm (Call Connected Closed Announced EventContract lastEvent?)
open Quic (isLocalId QuicConnection StreamRuntimeState Session Method Quiche Net Entry Drains)

variable {W : Type}

/-! ## What is relied on of quiche -/

/-- The role of a quiche connection does not change, and a stream is not reported readable again
once its end has been read or its read side shut down. -/
structure StreamLaws (net : Net W) where
  server : Nat → Bool
  finished : Nat → UInt64 → W → Prop
  isServer : ∀ n w, ((net.quiche n).isServer w).1 = server n
  lasts : ∀ n raw w w', net.Moves w w' → finished n raw w → finished n raw w'
  fin : ∀ n raw w data, ((net.quiche n).streamRecv raw w).1 = .ok (data, true) →
    finished n raw ((net.quiche n).streamRecv raw w).2
  shut : ∀ n raw w, ((net.quiche n).streamShutdown raw .read w).1 = .ok () →
    finished n raw ((net.quiche n).streamShutdown raw .read w).2
  unreadable : ∀ n raw w, raw ∈ ((net.quiche n).readable w).1 → ¬ finished n raw w

/-- The laws, with the peers that certificates are accepted for. -/
structure Setup (net : Net W) extends StreamLaws net where
  verified : PeerId → Prop

/-- Where a method of a connection runs: on the quiche connection with a number, for the connection
`id` of the table, after the calls `told`. The ids handed out so far are below `next`. -/
structure Setting where
  quiche : Nat
  id : ConnectionId
  table : BTreeMap ConnectionId Entry
  next : Nat
  told : List Call
  nowMs : UInt64

/-- The history when the method has reported `events`. -/
def Setting.history (x : Setting) (events : List TransportEvent) : List Call :=
  Stack.history x.told x.nowMs events

/-- The call that hands an event to the core. -/
abbrev Setting.handOver (x : Setting) (event : TransportEvent) : Call :=
  .input (.transport event x.nowMs)

@[simp] theorem Setting.history_concat (x : Setting) (events : List TransportEvent)
    (event : TransportEvent) :
    x.history (events ++ [event]) = x.history events ++ [x.handOver event] :=
  Stack.history_concat event

theorem Setting.history_push (x : Setting) (s : Session W) (event : TransportEvent) :
    x.history (s.push event).events = x.history s.events ++ [x.handOver event] :=
  x.history_concat _ _

section Sessions

variable {net : Net W} (laws : Setup net) (x : Setting)

/-- The connection of the session and the rest of the table mirror the history. -/
structure SessionMirrors (s : Session W) : Prop where
  known : Known laws.verified (x.history s.events) x.next
  bound : x.id.asU64.toNat < x.next
  self : Mirrored (laws.server x.quiche) (fun raw => laws.finished x.quiche raw s.world)
    (x.history s.events) x.id s.conn
  others : ∀ (id : ConnectionId) (entry : Entry), id ≠ x.id → x.table[id]? = some entry →
    Mirrored (laws.server entry.quiche) (fun raw => laws.finished entry.quiche raw s.world)
      (x.history s.events) id entry.conn

variable {laws x}

namespace SessionMirrors

variable {s : Session W} {raw : UInt64} {old state : StreamRuntimeState}

/-- The world moves on. -/
theorem world (h : SessionMirrors laws x s) {w : W} (hw : net.Moves s.world w) :
    SessionMirrors laws x (s.setWorld w) where
  known := h.known
  bound := h.bound
  self := h.self.finish fun raw => laws.lasts x.quiche raw s.world w hw
  others := fun id entry hid hentry =>
    (h.others id entry hid hentry).finish fun raw => laws.lasts entry.quiche raw s.world w hw

/-- The connection itself changes, with the same streams. -/
theorem conn (h : SessionMirrors laws x s) {conn : QuicConnection} (hself : conn.id = s.conn.id)
    (hstreams : conn.streamStates = s.conn.streamStates)
    (hnext : conn.nextLocalBidiStreamId = s.conn.nextLocalBidiStreamId)
    (hconnected : conn.state = .connected → Connected (x.history s.events) x.id)
    (hconnecting : Connected (x.history s.events) x.id → conn.state ≠ .connecting) :
    SessionMirrors laws x { s with conn } where
  known := h.known
  bound := h.bound
  self :=
    { self := hself.trans h.self.self
      live := h.self.live
      connected := hconnected
      connecting := hconnecting
      active := fun raw state hstate => h.self.active raw state (hstreams ▸ hstate)
      streams := fun raw => by
        rw [hstreams]
        exact h.self.streams raw
      below := fun raw => by
        rw [hnext]
        exact h.self.below raw
      parity := by
        rw [hnext]
        exact h.self.parity }
  others := h.others

/-- The connection is closing. -/
theorem setClosing (h : SessionMirrors laws x s) :
    SessionMirrors laws x (s.setState .closing) :=
  h.conn rfl rfl rfl (by rintro ⟨⟩) (by rintro _ ⟨⟩)

/-- One entry is written back, on a connection that has been reported. -/
theorem setStream (h : SessionMirrors laws x s)
    (hactive : Connected (x.history s.events) x.id)
    (hstream : StreamMirrored (laws.server x.quiche) raw (laws.finished x.quiche raw s.world)
      (Announced (x.history s.events) ⟨x.id, ⟨raw⟩⟩) (some state)) :
    SessionMirrors laws x (s.setStream raw state) where
  known := h.known
  bound := h.bound
  self :=
    { h.self with
      active := fun _ _ _ => hactive
      streams := fun raw' => by
        by_cases hraw : raw' = raw
        · subst hraw
          rw [Session.getElem?_setStream_self]
          exact hstream
        · rw [Session.getElem?_setStream_of_ne s hraw]
          exact h.self.streams raw' }
  others := h.others

/-- An entry is written back with the flags it had, or with the mark of its end. -/
theorem update (h : SessionMirrors laws x s) (hold : s.conn.streamStates[raw]? = some old)
    (hincoming : old.incomingNotified = true → state.incomingNotified = true)
    (hremote : state.remoteWriteClosed = true →
      old.remoteWriteClosed = true ∨ laws.finished x.quiche raw s.world)
    (hnotified : state.closedNotified = true → state.remoteWriteClosed = true) :
    SessionMirrors laws x (s.setStream raw state) := by
  have hstream := h.self.streams raw
  rw [hold] at hstream
  exact h.setStream (h.self.active raw old hold) (hstream.update hincoming hremote hnotified)

/-- The connection reports an event, which may go with a change of its own state. -/
theorem push_conn (h : SessionMirrors laws x s) {event : TransportEvent} {conn : QuicConnection}
    (hconn : event.conn? = some x.id)
    (hcontract : EventContract (x.history s.events) event)
    (hidentity : VerifiedIdentity laws.verified (x.history s.events) (x.handOver event))
    (hself : Mirrored (laws.server x.quiche) (fun raw => laws.finished x.quiche raw s.world)
      (x.history s.events ++ [x.handOver event]) x.id conn) :
    SessionMirrors laws x { s with conn, events := s.events ++ [event] } := by
  have hcall : (x.handOver event).conn? = some x.id := hconn
  have hevents : x.history (s.events ++ [event]) = x.history s.events ++ [x.handOver event] :=
    x.history_concat _ _
  refine ⟨?_, h.bound, ?_, ?_⟩
  · rw [hevents]
    refine h.known.push hcontract hidentity fun c hc => ?_
    rw [← Option.some.inj (hconn.symm.trans hc)]
    exact h.bound
  · rw [hevents]
    exact hself
  · intro id entry hid hentry
    rw [hevents]
    -- the event says nothing about the other connections
    have hnot : ∀ {c}, (x.handOver event).conn? = some c → c ≠ id := by
      rintro c hc rfl
      exact hid (Option.some.inj (hc.symm.trans hcall))
    exact (h.others id entry hid hentry).concat
      (fun hc => hnot (conn?_of_connects? hc) rfl) (fun hc => hnot (conn?_of_closes? hc) rfl)
      fun t hk => hnot (conn?_of_announces? hk) rfl

/-- An event that keeps the contract keeps the mirror. -/
theorem push (h : SessionMirrors laws x s) {event : TransportEvent}
    (hconn : event.conn? = some x.id)
    (hcontract : EventContract (x.history s.events) event)
    (hidentity : VerifiedIdentity laws.verified (x.history s.events) (x.handOver event))
    (hself : Mirrored (laws.server x.quiche) (fun raw => laws.finished x.quiche raw s.world)
      (x.history s.events ++ [x.handOver event]) x.id s.conn) :
    SessionMirrors laws x (s.push event) :=
  h.push_conn hconn hcontract hidentity hself

/-- An event that neither connects nor closes the connection, nor announces a stream. -/
theorem push_plain (h : SessionMirrors laws x s) {event : TransportEvent}
    (hconn : event.conn? = some x.id)
    (hcontract : EventContract (x.history s.events) event)
    (hidentity : VerifiedIdentity laws.verified (x.history s.events) (x.handOver event))
    (hconnects : (x.handOver event).connects? = none)
    (hcloses : (x.handOver event).closes? = none)
    (hannounces : (x.handOver event).announces? = none) :
    SessionMirrors laws x (s.push event) := by
  refine h.push hconn hcontract hidentity (h.self.concat ?_ ?_ ?_)
  · intro hc
    cases hconnects.symm.trans hc
  · intro hc
    cases hcloses.symm.trans hc
  · intro t hk
    cases hannounces.symm.trans hk

/-- An error is reported. -/
theorem push_error (h : SessionMirrors laws x s) (message : String) :
    SessionMirrors laws x (s.push (.error s.conn.id message)) := by
  rw [h.self.self]
  exact h.push_plain rfl h.self.live trivial rfl rfl rfl

/-- The end of a stream is reported, on a connection that has been reported itself. -/
theorem push_closed (h : SessionMirrors laws x s)
    (hactive : Connected (x.history s.events) x.id) (streamId : StreamId) :
    SessionMirrors laws x (s.push (.streamClosed x.id streamId)) :=
  h.push_plain rfl ⟨hactive, h.self.live⟩ trivial rfl rfl rfl

/-- Closed streams are collected. -/
theorem gcStreams (h : SessionMirrors laws x s) : SessionMirrors laws x s.gcStreams where
  known := h.known
  bound := h.bound
  self :=
    { h.self with
      active := fun raw state hstate => h.self.active raw state (Session.getElem?_of_gcStreams hstate)
      streams := fun raw => by
        have hstream := h.self.streams raw
        cases hentry : s.conn.streamStates[raw]? with
        | none =>
          have hgone : s.gcStreams.conn.streamStates[raw]? = none := by
            apply Option.eq_none_iff_forall_ne_some.mpr
            intro state hstate
            cases hentry.symm.trans (Session.getElem?_of_gcStreams hstate)
          rw [hgone, ← hentry]
          exact hstream
        | some state =>
          rw [hentry] at hstream
          cases hgc : s.gcStreams.conn.streamStates[raw]? with
          | none =>
            refine hstream.collected ?_
            by_contra hopen
            rw [Bool.not_eq_true] at hopen
            cases hgc.symm.trans (Session.getElem?_gcStreams hentry hopen)
          | some state' =>
            rw [← hentry, Session.getElem?_of_gcStreams hgc] at hstream
            exact hstream }
  others := h.others

end SessionMirrors

/-! ## Draining and flushing -/

/-- Draining the writes keeps the mirror. -/
theorem mirrors_drains : Drains (net.quiche x.quiche) (SessionMirrors laws x) where
  silent s w hw hs := hs.world (.quiche _ (.silent hw))
  offer s raw state pending rest _ _ _ hs := hs.world (.quiche _ (.streamSend _ _ _ _))
  write s raw state pending rest written pendingWrites hstate _ _ _ hs := by
    have hstream := hs.self.streams raw
    rw [hstate] at hstream
    have hworld := hs.world (w := ((net.quiche x.quiche).offer raw pending s.world).2)
      (.quiche _ (.streamSend _ _ _ _))
    exact hworld.update hstate (fun hold => hold) .inl (hstream.notified state rfl)
  note s raw state hstate hfull _ hs := by
    rw [StreamRuntimeState.isFullyClosed, Bool.and_eq_true] at hfull
    have hset : SessionMirrors laws x (s.setStream raw { state with closedNotified := true }) :=
      hs.update hstate (fun hold => hold) .inl fun _ => hfull.2
    rw [hs.self.self]
    exact hset.push_closed (hs.self.active raw state hstate) ⟨raw⟩

/-! ## Reading streams -/

/-- If the stream is a remote one and has been announced, its entry says so. -/
def Discovered (laws : Setup net) (x : Setting) (raw : UInt64) (s : Session W) : Prop :=
  Announced (x.history s.events) ⟨x.id, ⟨raw⟩⟩ → isLocalId (laws.server x.quiche) raw = false →
    ∃ state, s.conn.streamStates[raw]? = some state ∧ state.incomingNotified = true

namespace Discovered

variable {s : Session W} {raw raw' : UInt64} {state : StreamRuntimeState}

/-- A change of another stream keeps what was discovered. -/
theorem setStream (h : Discovered laws x raw s)
    (hkept : ∀ old, s.conn.streamStates[raw']? = some old → old.incomingNotified = true →
      state.incomingNotified = true) : Discovered laws x raw (s.setStream raw' state) := by
  intro hann hremote
  obtain ⟨old, hold, hnotified⟩ := h hann hremote
  by_cases hraw : raw = raw'
  · subst hraw
    exact ⟨state, Session.getElem?_setStream_self s raw state, hkept old hold hnotified⟩
  · rw [Session.getElem?_setStream_of_ne s hraw]
    exact ⟨old, hold, hnotified⟩

/-- An event about another stream keeps what was discovered. -/
theorem push (h : Discovered laws x raw s) {event : TransportEvent}
    (hannounces : (x.handOver event).announces? ≠ some ⟨x.id, ⟨raw⟩⟩) :
    Discovered laws x raw (s.push event) := by
  intro hann hremote
  rw [x.history_push, announced_concat_iff] at hann
  exact h (hann.resolve_right hannounces) hremote

end Discovered

/-- Streams are being read on a connection that has been reported; those of `rest` are yet to be
looked at. -/
structure Reading (laws : Setup net) (x : Setting) (rest : List UInt64) (s : Session W) :
    Prop where
  mirrors : SessionMirrors laws x s
  active : Connected (x.history s.events) x.id
  discovered : ∀ raw ∈ rest, Discovered laws x raw s

namespace Reading

variable {rest : List UInt64} {s : Session W} {raw : UInt64} {old state : StreamRuntimeState}

/-- Reading goes on when the world moves on. -/
theorem world (h : Reading laws x rest s) {w : W} (hw : net.Moves s.world w) :
    Reading laws x rest (s.setWorld w) :=
  ⟨h.mirrors.world hw, h.active, h.discovered⟩

/-- A stream that was announced may be updated. -/
theorem update (h : Reading laws x rest s) (hold : s.conn.streamStates[raw]? = some old)
    (hincoming : old.incomingNotified = true → state.incomingNotified = true)
    (hremote : state.remoteWriteClosed = true →
      old.remoteWriteClosed = true ∨ laws.finished x.quiche raw s.world)
    (hnotified : state.closedNotified = true → state.remoteWriteClosed = true) :
    Reading laws x rest (s.setStream raw state) := by
  refine ⟨h.mirrors.update hold hincoming hremote hnotified, h.active, fun raw' hraw' => ?_⟩
  refine (h.discovered raw' hraw').setStream fun old' hold' => ?_
  rw [← Option.some.inj (hold.symm.trans hold')]
  exact hincoming

/-- An event that neither connects nor closes the connection, nor announces a stream. -/
theorem push (h : Reading laws x rest s) {event : TransportEvent}
    (hconn : event.conn? = some x.id)
    (hcontract : EventContract (x.history s.events) event)
    (hidentity : VerifiedIdentity laws.verified (x.history s.events) (x.handOver event))
    (hconnects : (x.handOver event).connects? = none)
    (hcloses : (x.handOver event).closes? = none)
    (hannounces : (x.handOver event).announces? = none) : Reading laws x rest (s.push event) := by
  refine ⟨h.mirrors.push_plain hconn hcontract hidentity hconnects hcloses hannounces, ?_,
    fun raw hraw => (h.discovered raw hraw).push ?_⟩
  · rw [x.history_push]
    exact h.active.concat
  · rw [hannounces]
    rintro ⟨⟩

/-- A stream event of the connection. -/
theorem push_stream (h : Reading laws x rest s) {event : TransportEvent} {raw : UInt64}
    (hevent : (∃ data, event = .streamData x.id ⟨raw⟩ data) ∨
      event = .streamRemoteWriteClosed x.id ⟨raw⟩ ∨ event = .streamClosed x.id ⟨raw⟩) :
    Reading laws x rest (s.push event) := by
  rcases hevent with ⟨data, rfl⟩ | rfl | rfl
  · exact h.push rfl ⟨h.active, h.mirrors.self.live⟩ trivial rfl rfl rfl
  · exact h.push rfl ⟨h.active, h.mirrors.self.live⟩ trivial rfl rfl rfl
  · exact h.push rfl ⟨h.active, h.mirrors.self.live⟩ trivial rfl rfl rfl

/-- What was read is reported. -/
theorem report (h : Reading laws x rest s) (raw : UInt64) (data : Bytes) :
    Reading laws x rest (s.report raw data) := by
  unfold Session.report
  split
  · exact h
  · rw [h.mirrors.self.self]
    exact h.push_stream (.inl ⟨data, rfl⟩)

/-- The stream that is looked at next gets its entry, and is announced if that is due. -/
theorem discover (h : Reading laws x (raw :: rest) s) :
    Reading laws x rest (s.discover (isLocalId (laws.server x.quiche) raw) raw) := by
  have hstream := h.mirrors.self.streams raw
  have hrest : Reading laws x rest s :=
    ⟨h.mirrors, h.active, fun raw' hraw' => h.discovered raw' (List.mem_cons_of_mem raw hraw')⟩
  -- an entry that counts as announced keeps the mark
  have hkept : ∀ old, s.conn.streamStates[raw]? = some old → old.incomingNotified = true →
      (s.stream raw).incomingNotified = true := by
    intro old hold hnotified
    rw [Session.stream_of_getElem? hold]
    exact hnotified
  unfold Session.discover
  split
  · next hdue =>
    rw [Bool.and_eq_true, Bool.not_eq_true', Bool.not_eq_true'] at hdue
    obtain ⟨hremote, hunnoticed⟩ := hdue
    have hset : Reading laws x rest
        (s.setStream raw { s.stream raw with incomingNotified := true }) := by
      refine ⟨h.mirrors.setStream h.active hstream.announce, h.active, fun raw' hraw' => ?_⟩
      exact (hrest.discovered raw' hraw').setStream fun _ _ _ => rfl
    have hnew : ¬ Announced (x.history s.events) ⟨x.id, ⟨raw⟩⟩ := by
      intro hann
      obtain ⟨old, hold, hnotified⟩ := h.discovered raw List.mem_cons_self hann hremote
      rw [hkept old hold hnotified] at hunnoticed
      cases hunnoticed
    rw [h.mirrors.self.self]
    have hannounced : ∀ {raw' : UInt64}, Announced (x.history s.events ++
        [x.handOver (.incomingStream x.id ⟨raw⟩)]) ⟨x.id, ⟨raw'⟩⟩ →
        Announced (x.history s.events) ⟨x.id, ⟨raw'⟩⟩ ∨ raw' = raw := by
      intro raw' hann
      refine (announced_concat_iff.mp hann).imp_right fun hnew => ?_
      cases hnew
      rfl
    refine ⟨hset.mirrors.push rfl ⟨h.active, h.mirrors.self.live, hnew⟩ trivial ?_, ?_, ?_⟩
    · refine hset.mirrors.self.announce (by rintro ⟨⟩) (by rintro ⟨⟩) ?_
      rintro _ ⟨⟩
      refine ⟨fun _ => .inr ⟨_, Session.getElem?_setStream_self s raw _, rfl⟩, fun hlocal => ?_⟩
      cases hlocal.symm.trans hremote
    · rw [x.history_push]
      exact h.active.concat
    · intro raw' hraw' hann hremote'
      rw [x.history_push] at hann
      rcases hannounced hann with hold | rfl
      · exact hset.discovered raw' hraw' hold hremote'
      · exact ⟨_, Session.getElem?_setStream_self s raw' _, rfl⟩
  · next hnotdue =>
    have hmarked : isLocalId (laws.server x.quiche) raw = true ∨
        (s.stream raw).incomingNotified = true := by
      cases hlocal : isLocalId (laws.server x.quiche) raw with
      | true => exact .inl rfl
      | false =>
        rw [hlocal, Bool.not_false, Bool.true_and, Bool.not_eq_true', Bool.not_eq_false] at hnotdue
        exact .inr hnotdue
    refine ⟨h.mirrors.setStream h.active (hstream.settle hmarked), h.active, fun raw' hraw' => ?_⟩
    exact (hrest.discovered raw' hraw').setStream hkept

end Reading

/-- Reading a stream keeps the mirror. -/
theorem mirrors_reads (raw : UInt64) (rest : List UInt64) :
    Quic.Reads (net.quiche x.quiche) raw (Reading laws x (raw :: rest)) (Reading laws x rest)
      (Reading laws x rest) where
  discover s hs := by
    have hlocal : s.isLocal (net.quiche x.quiche) raw =
        isLocalId (laws.server x.quiche) raw := by
      rw [Session.isLocal, laws.isServer, isLocalId]
    rw [hlocal]
    exact (hs.world (.quiche _ (.silent (.isServer _)))).discover
  done s state _ _ hs := hs.world (.quiche _ (.streamRecv _ _))
  failed s state e message _ _ hs := by
    have hworld := hs.world (w := ((net.quiche x.quiche).streamRecv raw s.world).2)
      (.quiche _ (.streamRecv _ _))
    rw [hs.mirrors.self.self]
    exact hworld.push rfl hs.mirrors.self.live trivial rfl rfl rfl
  more s state data _ _ hs := (hs.world (.quiche _ (.streamRecv _ _))).report raw data
  fin s state data hstate hanswer hs := by
    have hreport : Reading laws x rest
        ((s.setWorld ((net.quiche x.quiche).streamRecv raw s.world).2).report raw data) :=
      (hs.world (.quiche _ (.streamRecv _ _))).report raw data
    have hentry : ((s.setWorld ((net.quiche x.quiche).streamRecv raw s.world).2).report raw
        data).conn.streamStates[raw]? = some state := by
      rw [Session.getElem?_report]
      exact hstate
    rw [hs.mirrors.self.self]
    refine Reading.push_stream ?_ (.inr (.inl rfl))
    refine hreport.update hentry (fun hold => hold) (fun _ => .inr ?_) fun _ => rfl
    rw [Session.world_report]
    exact laws.fin x.quiche raw s.world data hanswer
  note s state hstate hfull _ hs := by
    rw [StreamRuntimeState.isFullyClosed, Bool.and_eq_true] at hfull
    rw [hs.mirrors.self.self]
    refine Reading.push_stream ?_ (.inr (.inr rfl))
    exact hs.update hstate (fun hold => hold) .inl fun _ => hfull.2

/-- What quiche reports readable has been discovered, or will be announced now. -/
theorem SessionMirrors.readable {s : Session W} (hs : SessionMirrors laws x s)
    (hactive : Connected (x.history s.events) x.id) :
    Reading laws x (s.readable (net.quiche x.quiche)) (s.polled (net.quiche x.quiche)) := by
  refine ⟨mirrors_drains.polled hs, hactive, fun raw hraw hann hremote => ?_⟩
  have hunfinished := laws.unreadable x.quiche raw _ hraw
  refine ((hs.self.streams raw).incoming hann hremote).resolve_left fun hfinished => ?_
  exact hunfinished (laws.lasts _ _ _ _ (.quiche _ (.silent (.isEstablished _))) hfinished)

/-- Streams are read only on a connection that has been reported. -/
theorem pollStreams_mirrors {s₀ : Session W} (fuel : Nat) (hs₀ : SessionMirrors laws x s₀)
    (hactive : ((net.quiche x.quiche).isEstablished s₀.world).1 = true →
      Connected (x.history s₀.events) x.id) :
    Triple (fun s => s = s₀) (Quic.pollStreams (net.quiche x.quiche) fuel)
      (fun _ => SessionMirrors laws x) (SessionMirrors laws x) :=
  Quic.pollStreams_triple (P := Reading laws x) (R := fun _ => Reading laws x) mirrors_drains hs₀
    (fun hestablished => hs₀.readable (hactive hestablished)) mirrors_reads
    (fun _ hs => hs.mirrors) fun _ hs => hs.gcStreams

/-! ## Packets -/

/-- The peer of the connection is the one it had, or has just been reported with it. -/
def Reports (x : Setting) (previous : Option PeerId) (s : Session W) : Prop :=
  s.conn.endpoint.peerId = previous ∨ ∃ p connected, s.conn.endpoint.peerId = some p ∧
    lastEvent? (x.history s.events) = some (.connected x.id connected) ∧
    connected.peerId = some p

/-- The handshake is over and the connection has not been reported yet. -/
structure Unreported (x : Setting) (previous : Option PeerId) (s : Session W) : Prop where
  state : s.conn.state = .connected
  peer : s.conn.endpoint.peerId = previous
  hidden : ¬ Connected (x.history s.events) x.id

theorem unreported_stable (previous : Option PeerId) :
    Quic.Stable (Unreported (W := W) x previous) where
  world _ _ hs := ⟨hs.state, hs.peer, hs.hidden⟩
  writes _ _ _ _ _ hs := ⟨hs.state, hs.peer, hs.hidden⟩
  note s raw state _ _ _ hs := by
    refine ⟨hs.state, hs.peer, fun hconnected => ?_⟩
    rw [x.history_push, connected_concat_iff] at hconnected
    rcases hconnected with hold | hnew
    · exact hs.hidden hold
    · cases hnew

theorem peer_stable (previous : Option PeerId) :
    Quic.Stable fun s : Session W => s.conn.endpoint.peerId = previous where
  world _ _ hs := hs
  writes _ _ _ _ _ hs := hs
  note _ _ _ _ _ _ hs := hs

section Packets

variable [MultihashCodec] {verifyLibp2pCertificate : Bytes → Except String PeerId} {fuel : Nat}
  {previous : Option PeerId}

/-- The check of the certificate, after which the peer is reported or the connection closing. -/
theorem verifyPeer_mirrors
    (hverify : ∀ der p, verifyLibp2pCertificate der = .ok p → laws.verified p) :
    Triple (fun s => SessionMirrors laws x (s.setState .connecting) ∧ Unreported x previous s)
      (Quic.verifyPeer (net.quiche x.quiche) fuel verifyLibp2pCertificate)
      (fun _ s => SessionMirrors laws x s ∧ Reports x previous s) (fun _ => True) := by
  refine Quic.verifyPeer_drains verifyLibp2pCertificate
    ((mirrors_drains.setState .connecting).and (unreported_stable previous).drains) ?_ ?_ ?_
  · rintro s der ⟨hs, hunreported⟩
    exact ⟨⟨hs.known, hs.bound, hs.self, hs.others⟩, hunreported.state, hunreported.peer,
      hunreported.hidden⟩
  · intro message code reason
    refine Triple.mono (Quic.rejectPeer_drains (I := fun s => SessionMirrors laws x s ∧
      s.conn.endpoint.peerId = previous) (mirrors_drains.and (peer_stable previous).drains) ?_
      message code reason) (fun _ hs => hs) (fun _ s hs => ⟨hs.1, .inl hs.2⟩) fun _ _ => trivial
    rintro s w message ⟨hs, hunreported⟩ hw
    exact ⟨((hs.push_error message).world (.quiche _ (.silent hw))).setClosing, hunreported.peer⟩
  · rintro s der p ⟨hs, hunreported⟩ - hp -
    have hid : s.conn.id = x.id := hs.self.self
    rw [hid]
    refine ⟨hs.push_conn rfl ⟨hunreported.hidden, hs.self.live⟩ ⟨p, rfl, hverify der p hp⟩ ?_, ?_⟩
    · exact hs.self.connect rfl rfl rfl rfl hunreported.state rfl rfl
    · refine .inr ⟨p, (s.setPeerId p).conn.endpoint, rfl, ?_, rfl⟩
      rw [x.history_push, Swarm.lastEvent?_concat]
      rfl

/-- A packet keeps the mirror. -/
theorem recvPacket_mirrors {s₀ : Session W} (buf : Bytes) (hs₀ : SessionMirrors laws x s₀)
    (hverify : ∀ der p, verifyLibp2pCertificate der = .ok p → laws.verified p) :
    Triple (fun s => s = s₀)
      (Quic.recvPacket (net.quiche x.quiche) fuel verifyLibp2pCertificate buf)
      (fun _ s => SessionMirrors laws x s ∧ Reports x s₀.conn.endpoint.peerId s)
      (fun _ => True) := by
  have hrecv : SessionMirrors laws x (Quic.afterRecv (net.quiche x.quiche) buf s₀) :=
    hs₀.world (.quiche _ (.silent (.recv _ _)))
  have hasked : SessionMirrors laws x ((Quic.afterRecv (net.quiche x.quiche) buf s₀).setWorld
      ((net.quiche x.quiche).isEstablished
        (Quic.afterRecv (net.quiche x.quiche) buf s₀).world).2) :=
    hrecv.world (.quiche _ (.silent (.isEstablished _)))
  refine Quic.recvPacket_exits verifyLibp2pCertificate ?_ ?_ ?_
  · exact fun message => ⟨hrecv.push_error message, .inl rfl⟩
  · rintro ⟨-, hconnecting, -⟩
    have hhidden : ¬ Connected (x.history s₀.events) x.id := fun hc =>
      hs₀.self.connecting hc hconnecting
    refine Triple.bind (Q := fun _ s => SessionMirrors laws x (s.setState .connecting) ∧
      Unreported x s₀.conn.endpoint.peerId s) ?_ fun _ => verifyPeer_mirrors hverify
    refine Triple.mono (Drains.drainAndFlush_keeps ((mirrors_drains.setState .connecting).and
      (unreported_stable s₀.conn.endpoint.peerId).drains)) ?_ (fun _ _ hs => hs) fun _ _ => trivial
    rintro _ rfl
    refine ⟨?_, rfl, rfl, hhidden⟩
    exact hasked.conn rfl rfl rfl (by rintro ⟨⟩) fun hc => absurd hc hhidden
  · intro s₁ hs₁
    have hstart : SessionMirrors laws x s₁ ∧
        s₁.conn.endpoint.peerId = s₀.conn.endpoint.peerId := by
      rcases hs₁ with rfl | rfl
      · exact ⟨hrecv, rfl⟩
      · exact ⟨hasked, rfl⟩
    refine Triple.mono (Drains.drainAndFlush_keeps
      (mirrors_drains.and (peer_stable s₀.conn.endpoint.peerId).drains)) ?_
      (fun _ s hs => ⟨hs.1, .inl hs.2⟩) fun _ _ => trivial
    rintro _ rfl
    exact hstart

end Packets

/-! ## Requests of the driver -/

/-- The mirror between two polls, when only quiet events wait to be reported. -/
structure Waiting (laws : Setup net) (x : Setting) (s : Session W) : Prop where
  mirrors : SessionMirrors laws x s
  quiet : ∀ e ∈ s.events, isQuiet e = true

/-- The end of a stream may wait to be reported. -/
theorem Waiting.push_closed {s : Session W} (h : Waiting laws x s)
    (hactive : Connected (x.history s.events) x.id) (streamId : StreamId) :
    Waiting laws x (s.push (.streamClosed x.id streamId)) := by
  refine ⟨h.mirrors.push_closed hactive streamId, fun e he => ?_⟩
  rcases List.mem_append.mp he with hold | hnew
  · exact h.quiet e hold
  · rw [List.mem_singleton.mp hnew]
    rfl

theorem quiet_stable : Quic.Stable fun s : Session W => ∀ e ∈ s.events, isQuiet e = true where
  world _ _ hs := hs
  writes _ _ _ _ _ hs := hs
  note s raw state _ _ _ hs e he := by
    rcases List.mem_append.mp he with hold | hnew
    · exact hs e hold
    · rw [List.mem_singleton.mp hnew]
      rfl

/-- Draining the writes keeps what waits. -/
theorem waiting_drains : Drains (net.quiche x.quiche) (Waiting laws x) where
  silent _ _ hw hs := ⟨hs.mirrors.world (.quiche _ (.silent hw)), hs.quiet⟩
  offer _ _ _ _ _ _ _ _ hs := ⟨hs.mirrors.world (.quiche _ (.streamSend _ _ _ _)), hs.quiet⟩
  write s raw state pending rest written pendingWrites hstate hpending hok hsome hs :=
    ⟨mirrors_drains.write s raw state pending rest written pendingWrites hstate hpending hok hsome
      hs.mirrors, hs.quiet⟩
  note s raw state hstate hfull hopen hs :=
    ⟨mirrors_drains.note s raw state hstate hfull hopen hs.mirrors,
      quiet_stable.note s raw state hstate hfull hopen hs.quiet⟩

/-- Writing to a stream that has been announced. -/
theorem queueWrite_waiting {fuel : Nat} {streamId : StreamId}
    {update : StreamRuntimeState → StreamRuntimeState} {refusal : Session W → TransportError}
    (hincoming : ∀ state, (update state).incomingNotified = state.incomingNotified)
    (hremote : ∀ state, (update state).remoteWriteClosed = state.remoteWriteClosed)
    (hnotified : ∀ state, (update state).closedNotified = state.closedNotified) :
    Triple (fun s => Waiting laws x s ∧ Announced (x.history s.events) ⟨x.id, streamId⟩)
      (Quic.queueWrite (net.quiche x.quiche) fuel streamId update refusal)
      (fun _ => Waiting laws x) (Waiting laws x) := by
  refine Quic.Queues.queueWrite_triple ⟨?_, ?_, ?_, ?_⟩ waiting_drains
  · rintro s state - - ⟨hs, -⟩
    exact hs
  · rintro s state hstate - ⟨hs, -⟩
    have hstream := hs.mirrors.self.streams streamId.asU64
    rw [hstate] at hstream
    refine ⟨hs.mirrors.update hstate (fun hold => (hincoming state).trans hold)
      (fun hclosed => .inl ((hremote state).symm.trans hclosed)) fun hflag => ?_, hs.quiet⟩
    rw [hremote]
    exact hstream.notified state rfl ((hnotified state).symm.trans hflag)
  · rintro s - hlocal ⟨hs, hann⟩
    have hserver : isLocalId (laws.server x.quiche) streamId.asU64 = true := by
      rw [← hlocal, Session.isLocal, laws.isServer, isLocalId]
    refine ⟨(hs.mirrors.world (.quiche _ (.silent (.isServer _)))).setStream
      (hs.mirrors.known.announced _ hann) ?_, hs.quiet⟩
    refine (StreamMirrored.create hserver).update (fun hold => (hincoming _).trans hold)
      (fun hclosed => .inl ((hremote _).symm.trans hclosed)) fun hflag => ?_
    cases (hnotified .default).symm.trans hflag
  · rintro s - - ⟨hs, -⟩
    exact ⟨hs.mirrors.world (.quiche _ (.silent (.isServer _))), hs.quiet⟩

/-- Sending on a stream keeps what waits, if the stream was announced. -/
theorem sendStream_waiting {fuel : Nat} {streamId : StreamId} (data : Bytes) :
    Triple (fun s => Waiting laws x s ∧ Announced (x.history s.events) ⟨x.id, streamId⟩)
      (Quic.sendStream (net.quiche x.quiche) fuel streamId data)
      (fun _ => Waiting laws x) (Waiting laws x) := by
  by_cases hdata : data = []
  · rw [hdata]
    exact Triple.pure fun _ hs => hs.1
  · rw [Quic.sendStream_eq _ _ _ hdata]
    exact queueWrite_waiting (fun _ => rfl) (fun _ => rfl) fun _ => rfl

/-- Closing a stream keeps what waits, if the stream was announced. -/
theorem closeStreamWrite_waiting {fuel : Nat} {streamId : StreamId} :
    Triple (fun s => Waiting laws x s ∧ Announced (x.history s.events) ⟨x.id, streamId⟩)
      (Quic.closeStreamWrite (net.quiche x.quiche) fuel streamId)
      (fun _ => Waiting laws x) (Waiting laws x) := by
  rw [Quic.closeStreamWrite_eq]
  exact queueWrite_waiting (fun _ => rfl) (fun _ => rfl) fun _ => rfl

/-- Resetting a stream keeps what waits. -/
theorem resetStream_waiting (streamId : StreamId) :
    Keeps (Waiting laws x) (Quic.resetStream (net.quiche x.quiche) streamId) := by
  intro s hs r s' hr
  have hshut : ∀ {t : Session W} (direction : Quic.Shutdown), Waiting laws x t →
      Waiting laws x (t.shut (net.quiche x.quiche) streamId.asU64 direction) := fun direction ht =>
    ⟨ht.mirrors.world (.quiche _ (.streamShutdown _ _ _)), ht.quiet⟩
  have hend : Waiting laws x s' := by
    rw [Quic.exec_resetStream] at hr
    cases hentry : s.conn.streamStates[streamId.asU64]? with
    | none =>
      rw [hentry] at hr
      cases hr
      exact hs
    | some state =>
      rw [hentry] at hr
      dsimp only at hr
      split at hr
      · cases hr
        exact hshut .write hs
      split at hr
      · cases hr
        exact hshut .read (hshut .write hs)
      next hread =>
      cases hr
      -- the read side is shut down, so quiche has finished the reading
      have hboth := hshut .read (hshut .write hs)
      have hreset : SessionMirrors laws x (Session.setStream _ streamId.asU64 state.reset) :=
        hboth.mirrors.update hentry (fun hold => hold)
          (fun _ => .inr (laws.shut _ _ _ hread)) fun _ => rfl
      unfold Session.finishReset
      split
      · exact ⟨hreset, hboth.quiet⟩
      · have hself := hboth.mirrors.self.self
        rw [hself]
        exact Waiting.push_closed ⟨hreset, hboth.quiet⟩
          (hboth.mirrors.self.active _ state hentry) streamId
  exact ⟨fun _ _ => hend, fun _ _ => hend⟩

/-- A drain whose events are dropped. -/
theorem dropping_drains (events : List TransportEvent) :
    Drains (net.quiche x.quiche) fun s : Session W => SessionMirrors laws x { s with events } where
  silent s := mirrors_drains.silent { s with events }
  offer s := mirrors_drains.offer { s with events }
  write s := mirrors_drains.write { s with events }
  note s raw state hstate hfull _ hs := by
    rw [StreamRuntimeState.isFullyClosed, Bool.and_eq_true] at hfull
    exact SessionMirrors.update hs hstate (fun hold => hold) .inl fun _ => hfull.2

/-- Closing the connection keeps what waits. -/
theorem close_waiting {fuel : Nat} :
    Keeps (Waiting laws x) (Quic.close (net.quiche x.quiche) fuel) := by
  intro s₀ hs₀
  exact Quic.close_triple waiting_drains (dropping_drains s₀.events) hs₀
    (fun w hw => (hs₀.mirrors.world (.quiche _ (.silent hw))).setClosing)
    (fun s hs => ⟨hs, hs₀.quiet⟩) s₀ rfl

/-- A stream id that was just opened: the history has not seen it, and it is below the counter. -/
structure Opening (server : Bool) (told : List Call) (id : ConnectionId) (streamId : StreamId)
    (conn : QuicConnection) : Prop where
  active : Connected told id
  unseen : ¬ Announced told ⟨id, streamId⟩
  ours : isLocalId server streamId.asU64 = true
  below : streamId.asU64.toNat < conn.nextLocalBidiStreamId.toNat

/-- A stream that was opened is new. -/
theorem openStream_waiting {s₀ : Session W} (hs₀ : Waiting laws x s₀)
    (hwrap : s₀.conn.nextLocalBidiStreamId.toNat + 4 < 2 ^ 64) :
    Triple (fun s => s = s₀) (Quic.openStream : Method W StreamId)
      (fun streamId s => Waiting laws x s ∧
        Opening (laws.server x.quiche) (x.history s.events) x.id streamId s.conn)
      (Waiting laws x) := by
  have hmore : (s₀.conn.nextLocalBidiStreamId + 4).toNat =
      s₀.conn.nextLocalBidiStreamId.toNat + 4 := Quic.toNat_add_four hwrap
  -- the counter moves on
  have hcounter : SessionMirrors laws x
      (s₀.setNextStreamId (s₀.conn.nextLocalBidiStreamId + 4)) :=
    { hs₀.mirrors with
      self :=
        { hs₀.mirrors.self with
          below := fun raw hann hlocal => by
            have hlt := hs₀.mirrors.self.below raw hann hlocal
            show raw.toNat < (s₀.conn.nextLocalBidiStreamId + 4).toNat
            omega
          parity := (Quic.isLocalId_add_four _ _).trans hs₀.mirrors.self.parity } }
  intro s hs r s' hr
  rw [hs, Quic.exec_openStream] at hr
  split at hr
  · cases hr
    exact ⟨by rintro _ ⟨⟩, fun _ _ => hs₀⟩
  next hstate =>
  split at hr
  · cases hr
    exact ⟨by rintro _ ⟨⟩, fun _ _ => ⟨hcounter, hs₀.quiet⟩⟩
  cases hr
  have hactive := hs₀.mirrors.self.connected (not_not.mp hstate)
  refine ⟨?_, by rintro _ ⟨⟩⟩
  rintro _ ⟨⟩
  refine ⟨⟨hcounter.setStream hactive (StreamMirrored.create hs₀.mirrors.self.parity), hs₀.quiet⟩,
    hactive, fun hann => ?_, hs₀.mirrors.self.parity, ?_⟩
  · exact Nat.lt_irrefl _ (hs₀.mirrors.self.below _ hann hs₀.mirrors.self.parity)
  · show s₀.conn.nextLocalBidiStreamId.toNat < (s₀.conn.nextLocalBidiStreamId + 4).toNat
    omega

end Sessions

end Minip2p.Stack
