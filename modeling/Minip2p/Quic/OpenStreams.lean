import Minip2p.Quic.Records

/-!
# Which streams can be written to

`get_or_create_local_stream_state` makes an entry for any id of local parity, so a write can
succeed on a stream that was never opened, or that was closed and collected. As long as the caller
writes to a local id only while it has an entry, quiche reports no stream readable that is neither
known nor new, and the counter of stream ids does not wrap, every write that succeeds is one on an
open stream, and `open_stream` never finds its id taken (`writes_only_open_streams`).
-/

namespace Minip2p.Quic

variable {W : Type}

/-! ## The contract -/

/-- Whether a stream id is of the parity of this side. -/
def isLocalId (server : Bool) (raw : UInt64) : Bool := (raw &&& 0x1) == (if server then 1 else 0)

/-- The id a call opens. -/
def openedBy (s : Session W) : Call → List UInt64
  | .openStream =>
    match Prog.exec (openStream : Method W StreamId) s with
    | some (.ok streamId, _) => [streamId.asU64]
    | _ => []
  | _ => []

/-- The stream was opened or announced, and StreamClosed has not been emitted for it. -/
def Session.isOpen (s : Session W) (opened : List UInt64) (raw : UInt64) : Prop :=
  (raw ∈ opened ∨ s.events.any (isIncomingEvent raw) = true) ∧ ¬ s.closeEmitted raw

/-- A write that succeeds was one on an open stream; on any other it fails and makes no entry. -/
structure WriteContract (opened : List UInt64) (raw : UInt64) (s s' : Session W)
    (r : Except TransportError Unit) : Prop where
  success : r = .ok () → s.isOpen opened raw
  other : ¬ s.isOpen opened raw → (∃ e, r = .error e) ∧
    ∀ raw', raw' ∈ s'.conn.streamStates → raw' ∈ s.conn.streamStates

/-- What holds of every call: the two writing methods keep the contract, and `open_stream` never
fails with StreamExists. -/
def OnlyOpenWritten (opened : List UInt64) (s s' : Session W) (r : Except TransportError Unit) :
    Call → Prop
  | .sendStream streamId data => data ≠ [] → WriteContract opened streamId.asU64 s s' r
  | .closeStreamWrite streamId => WriteContract opened streamId.asU64 s s' r
  | .openStream => ∀ id streamId, r ≠ .error (.streamExists id streamId)
  | _ => True

/-- A stream without an entry is written to only if it is a remote one; it is reported readable
only if it is a remote one that has not been closed; and the counter of stream ids does not
wrap. -/
def StreamsKnown (server : Bool) (q : Quiche W) (s : Session W) : Call → Prop
  | .sendStream streamId data => data ≠ [] → s.conn.streamStates[streamId.asU64]? = none →
    isLocalId server streamId.asU64 = false
  | .closeStreamWrite streamId => s.conn.streamStates[streamId.asU64]? = none →
    isLocalId server streamId.asU64 = false
  | .openStream => s.conn.nextLocalBidiStreamId.toNat + 4 < 2 ^ 64
  | .pollStreams => (q.isEstablished s.world).1 = true → ∀ raw ∈ s.readable q,
    s.conn.streamStates[raw]? = none →
      isLocalId server raw = false ∧ s.events.any (isClosedEvent raw) = false
  | _ => True

/-! ## The invariant -/

/-- The entries of a connection, after the streams `opened` and the events `events`. -/
structure Tracked (server : Bool) (opened : List UInt64) (conn : QuicConnection)
    (events : List TransportEvent) : Prop where
  known : ∀ raw state, conn.streamStates[raw]? = some state →
    raw ∈ opened ∨ events.any (isIncomingEvent raw) = true
  closed : ∀ raw state, conn.streamStates[raw]? = some state →
    events.any (isClosedEvent raw) = true ∨ state.closedNotified = true →
    state.localWriteClosed = true
  below : ∀ raw, (∃ state, conn.streamStates[raw]? = some state) ∨
    events.any (isClosedEvent raw) = true → isLocalId server raw = true →
    raw.toNat < conn.nextLocalBidiStreamId.toNat
  parity : isLocalId server conn.nextLocalBidiStreamId = true

namespace Tracked

variable {server : Bool} {opened : List UInt64} {events : List TransportEvent} {s : Session W}

/-- The entry of a stream that is opened or announced is written back. -/
theorem setStream (h : Tracked server opened s.conn events) {raw : UInt64}
    {state : StreamRuntimeState}
    (hknown : raw ∈ opened ∨ events.any (isIncomingEvent raw) = true)
    (hclosed : events.any (isClosedEvent raw) = true ∨ state.closedNotified = true →
      state.localWriteClosed = true)
    (hbelow : isLocalId server raw = true → raw.toNat < s.conn.nextLocalBidiStreamId.toNat) :
    Tracked server opened (s.setStream raw state).conn events := by
  have hcases : ∀ raw' state', (s.setStream raw state).conn.streamStates[raw']? = some state' →
      (raw' = raw ∧ state' = state) ∨ s.conn.streamStates[raw']? = some state' := by
    intro raw' state' hstate'
    by_cases hraw : raw' = raw
    · subst hraw
      rw [Session.getElem?_setStream_self] at hstate'
      exact .inl ⟨rfl, (Option.some.inj hstate').symm⟩
    · rw [Session.getElem?_setStream_of_ne s hraw] at hstate'
      exact .inr hstate'
  refine ⟨?_, ?_, ?_, h.parity⟩
  · intro raw' state' hstate'
    rcases hcases raw' state' hstate' with ⟨rfl, rfl⟩ | hold
    · exact hknown
    · exact h.known raw' state' hold
  · intro raw' state' hstate' hclosed'
    rcases hcases raw' state' hstate' with ⟨rfl, rfl⟩ | hold
    · exact hclosed hclosed'
    · exact h.closed raw' state' hold hclosed'
  · rintro raw' (⟨state', hstate'⟩ | hany) hlocal
    · rcases hcases raw' state' hstate' with ⟨rfl, -⟩ | hold
      · exact hbelow hlocal
      · exact h.below raw' (.inl ⟨state', hold⟩) hlocal
    · exact h.below raw' (.inr hany) hlocal

/-- An entry is written back; its write side is closed if it was before or it counts as closed. -/
theorem update (h : Tracked server opened s.conn events) {raw : UInt64}
    {old state : StreamRuntimeState} (hold : s.conn.streamStates[raw]? = some old)
    (hlocal : old.localWriteClosed = true → state.localWriteClosed = true)
    (hclosed : state.closedNotified = true →
      old.closedNotified = true ∨ state.localWriteClosed = true) :
    Tracked server opened (s.setStream raw state).conn events := by
  refine h.setStream (h.known raw old hold) ?_ (h.below raw (.inl ⟨old, hold⟩))
  rintro (hany | hnotified)
  · exact hlocal (h.closed raw old hold (.inl hany))
  · rcases hclosed hnotified with hnotified | hdone
    · exact hlocal (h.closed raw old hold (.inr hnotified))
    · exact hdone

/-- An event follows; a StreamClosed only for a stream with an entry whose write side is closed. -/
theorem push {conn : QuicConnection} (h : Tracked server opened conn events)
    (event : TransportEvent)
    (hevent : ∀ raw, isClosedEvent raw event = true →
      ∃ state, conn.streamStates[raw]? = some state ∧ state.localWriteClosed = true) :
    Tracked server opened conn (events ++ [event]) := by
  have hcases : ∀ raw, (events ++ [event]).any (isClosedEvent raw) = true →
      events.any (isClosedEvent raw) = true ∨ isClosedEvent raw event = true := by
    intro raw hany
    rw [List.any_append, Bool.or_eq_true, List.any_cons, List.any_nil, Bool.or_false] at hany
    exact hany
  refine ⟨?_, ?_, ?_, h.parity⟩
  · intro raw state hstate
    exact (h.known raw state hstate).imp_right fun hany => any_push hany event
  · rintro raw state hstate (hany | hnotified)
    · rcases hcases raw hany with hany | hnew
      · exact h.closed raw state hstate (.inl hany)
      · obtain ⟨state', hstate', hdone⟩ := hevent raw hnew
        cases hstate.symm.trans hstate'
        exact hdone
    · exact h.closed raw state hstate (.inr hnotified)
  · rintro raw (hentry | hany) hlocal
    · exact h.below raw (.inl hentry) hlocal
    · rcases hcases raw hany with hany | hnew
      · exact h.below raw (.inr hany) hlocal
      · obtain ⟨state, hstate, -⟩ := hevent raw hnew
        exact h.below raw (.inl ⟨state, hstate⟩) hlocal

/-- An event other than StreamClosed. -/
theorem push_other {conn : QuicConnection} (h : Tracked server opened conn events)
    {event : TransportEvent} (hevent : ∀ raw, isClosedEvent raw event = false) :
    Tracked server opened conn (events ++ [event]) :=
  h.push event fun raw hclosed => by rw [hevent raw] at hclosed; cases hclosed

/-- A stream that is closed on both sides may be marked as reported. -/
theorem note (h : Tracked server opened s.conn events) {raw : UInt64} {state : StreamRuntimeState}
    (hstate : s.conn.streamStates[raw]? = some state) (hfull : state.isFullyClosed = true) :
    Tracked server opened (s.setStream raw { state with closedNotified := true }).conn events := by
  rw [StreamRuntimeState.isFullyClosed, Bool.and_eq_true] at hfull
  exact h.update hstate id fun _ => .inr hfull.1

/-- The StreamClosed of an entry that is there and has its write side closed. -/
theorem push_closed (h : Tracked server opened s.conn events) {raw : UInt64}
    {state : StreamRuntimeState} (hstate : s.conn.streamStates[raw]? = some state)
    (hdone : state.localWriteClosed = true) (id : ConnectionId) :
    Tracked server opened s.conn (events ++ [.streamClosed id ⟨raw⟩]) := by
  refine h.push _ fun raw' hraw' => ?_
  rw [isClosedEvent, beq_iff_eq] at hraw'
  exact ⟨state, hraw' ▸ hstate, hdone⟩

/-- The notice of a closed stream, with its event. -/
theorem note_push (h : Tracked server opened s.conn events) {raw : UInt64}
    {state : StreamRuntimeState} (hstate : s.conn.streamStates[raw]? = some state)
    (hfull : state.isFullyClosed = true) (id : ConnectionId) :
    Tracked server opened (s.setStream raw { state with closedNotified := true }).conn
      (events ++ [.streamClosed id ⟨raw⟩]) := by
  have hset := h.note hstate hfull
  rw [StreamRuntimeState.isFullyClosed, Bool.and_eq_true] at hfull
  exact hset.push_closed (Session.getElem?_setStream_self s raw _) hfull.1 id

/-- Collecting streams keeps the ones that stay as they were. -/
theorem gcStreams (h : Tracked server opened s.conn events) :
    Tracked server opened s.gcStreams.conn events where
  known raw state hstate := h.known raw state (Session.getElem?_of_gcStreams hstate)
  closed raw state hstate := h.closed raw state (Session.getElem?_of_gcStreams hstate)
  below raw hraw := h.below raw
    (hraw.imp_left fun ⟨state, hstate⟩ => ⟨state, Session.getElem?_of_gcStreams hstate⟩)
  parity := h.parity

end Tracked

/-! ## Draining, packets and closing -/

/-- Draining pushes StreamClosed only, with `events` fixed or growing. -/
theorem trackedIn_stable (server : Bool) (opened : List UInt64) (events : List TransportEvent) :
    Stable fun s : Session W => Tracked server opened s.conn events where
  world _ _ hs := hs
  writes _ _ _ _ hstate hs := hs.update hstate id fun h => .inl h
  note _ _ _ hstate hfull _ hs := hs.note hstate hfull

theorem tracked_stable (server : Bool) (opened : List UInt64) :
    Stable fun s : Session W => Tracked server opened s.conn s.events where
  world _ _ hs := hs
  writes _ _ _ _ hstate hs := hs.update hstate id fun h => .inl h
  note _ _ _ hstate hfull _ hs := hs.note_push hstate hfull _

theorem isClosedEvent_of_other {e : TransportEvent} (he : isStreamEvent e = false) (raw : UInt64) :
    isClosedEvent raw e = false := by
  cases e with
  | streamClosed id streamId => cases he
  | _ => rfl

theorem tracked_receives {q : Quiche W} (server : Bool) (opened : List UInt64) :
    Receives q fun s : Session W => Tracked server opened s.conn s.events where
  toDrains := (tracked_stable server opened).drains
  state _ _ hs := ⟨hs.known, hs.closed, hs.below, hs.parity⟩
  cert _ _ hs := hs
  peer _ _ hs := ⟨hs.known, hs.closed, hs.below, hs.parity⟩
  event _ _ he hs := hs.push_other (isClosedEvent_of_other he)

theorem close_tracked {q : Quiche W} {fuel : Nat} (server : Bool) (opened : List UInt64) :
    Keeps (fun s : Session W => Tracked server opened s.conn s.events) (close q fuel) := by
  intro s hs
  refine close_triple (D := fun s' => Tracked server opened s'.conn s.events)
    (tracked_stable server opened).drains (trackedIn_stable server opened s.events).drains hs
    (fun _ _ => ?_) (fun _ hs => hs) s rfl
  exact ⟨hs.known, hs.closed, hs.below, hs.parity⟩

/-! ## Polling -/

/-- The stream has an entry, or it is a remote one that has not been closed. -/
def Readable (server : Bool) (raw : UInt64) (s : Session W) : Prop :=
  (∃ state, s.conn.streamStates[raw]? = some state) ∨
    (isLocalId server raw = false ∧ s.events.any (isClosedEvent raw) = false)

/-- The invariant, and each of the streams that are still to be read may be read. -/
def TrackedReading (server : Bool) (opened : List UInt64) (rest : List UInt64) (s : Session W) :
    Prop :=
  Tracked server opened s.conn s.events ∧ ∀ raw ∈ rest, Readable server raw s

/-- What changes an entry or adds one, and pushes a StreamClosed only for a stream with an entry,
leaves every stream readable. -/
theorem Readable.mono {server : Bool} {raw : UInt64} {s s' : Session W}
    (h : Readable server raw s)
    (hentry : (∃ state, s.conn.streamStates[raw]? = some state) →
      ∃ state, s'.conn.streamStates[raw]? = some state)
    (hevents : s'.events.any (isClosedEvent raw) = true →
      s.events.any (isClosedEvent raw) = true ∨
        ∃ state, s'.conn.streamStates[raw]? = some state) : Readable server raw s' := by
  rcases h with h | ⟨hremote, hnone⟩
  · exact .inl (hentry h)
  · by_cases hany : s'.events.any (isClosedEvent raw) = true
    · rcases hevents hany with hold | hnew
      · rw [hnone] at hold
        cases hold
      · exact .inl hnew
    · exact .inr ⟨hremote, Bool.eq_false_iff.mpr hany⟩

namespace TrackedReading

variable {server : Bool} {opened rest : List UInt64} {s : Session W}
  (h : TrackedReading server opened rest s)

include h

theorem setStream {raw : UInt64} {state : StreamRuntimeState}
    (hset : Tracked server opened (s.setStream raw state).conn s.events) :
    TrackedReading server opened rest (s.setStream raw state) :=
  ⟨hset, fun raw' hraw' => (h.2 raw' hraw').mono Session.exists_setStream fun hany => .inl hany⟩

theorem push {event : TransportEvent} (hevent : ∀ raw, isClosedEvent raw event = false) :
    TrackedReading server opened rest (s.push event) := by
  refine ⟨h.1.push_other hevent, fun raw' hraw' => (h.2 raw' hraw').mono id fun hany => .inl ?_⟩
  exact (any_push_other s.events (hevent raw')).symm.trans hany

theorem report (raw : UInt64) (data : Bytes) :
    TrackedReading server opened rest (s.report raw data) := by
  unfold Session.report
  split
  · exact h
  · exact h.push fun _ => rfl

theorem note {raw : UInt64} {state : StreamRuntimeState}
    (hstate : s.conn.streamStates[raw]? = some state) (hfull : state.isFullyClosed = true) :
    TrackedReading server opened rest ((s.setStream raw { state with closedNotified := true }).push
      (.streamClosed s.conn.id ⟨raw⟩)) := by
  refine ⟨h.1.note_push hstate hfull _, fun raw' hraw' =>
    (h.2 raw' hraw').mono (Session.exists_setStream (s := s)) fun hany => ?_⟩
  by_cases hraw : raw' = raw
  · subst hraw
    exact .inr ⟨_, Session.getElem?_setStream_self s raw' _⟩
  · have hother : isClosedEvent raw' (.streamClosed s.conn.id ⟨raw⟩) = false :=
      beq_false_of_ne (Ne.symm hraw)
    exact .inl ((any_push_other s.events hother).symm.trans hany)

end TrackedReading

/-- A readable stream has an entry, or it is a new remote one and is announced. -/
theorem TrackedReading.discover {server : Bool} {opened rest : List UInt64} {raw : UInt64}
    {s : Session W} (h : TrackedReading server opened (raw :: rest) s) :
    TrackedReading server opened rest (s.discover (isLocalId server raw) raw) := by
  have hrest : TrackedReading server opened rest s :=
    ⟨h.1, fun raw' hraw' => h.2 raw' (List.mem_cons_of_mem _ hraw')⟩
  have hincoming : ∀ raw', isClosedEvent raw' (.incomingStream s.conn.id ⟨raw⟩) = false :=
    fun _ => rfl
  unfold Session.discover
  cases hentry : s.conn.streamStates[raw]? with
  | some state =>
    rw [Session.stream_of_getElem? hentry]
    split
    · have hset : TrackedReading server opened rest
          (s.setStream raw { state with incomingNotified := true }) :=
        hrest.setStream (h.1.update hentry id fun hc => .inl hc)
      exact hset.push hincoming
    · exact hrest.setStream (h.1.update hentry id fun hc => .inl hc)
  | none =>
    obtain ⟨hremote, hnone⟩ : isLocalId server raw = false ∧
        s.events.any (isClosedEvent raw) = false := by
      rcases h.2 raw List.mem_cons_self with ⟨state, hstate⟩ | hnew
      · cases hentry.symm.trans hstate
      · exact hnew
    rw [Session.stream_of_none hentry, hremote]
    -- the entry and its announcement come together
    have hpushed := hrest.push hincoming
    refine ⟨Tracked.setStream (s := s.push _) hpushed.1 (.inr ?_) ?_ ?_, fun raw' hraw' => ?_⟩
    · exact any_push_self _ (beq_self_eq_true raw)
    · rintro (hany | hnotified)
      · cases ((any_push_other s.events (hincoming raw)).trans hnone).symm.trans hany
      · cases hnotified
    · intro hlocal
      rw [hremote] at hlocal
      cases hlocal
    · exact (hpushed.2 raw' hraw').mono (Session.exists_setStream (s := s.push _))
        fun hany => .inl hany

theorem tracked_reads {q : Quiche W} {server : Bool} (hserver : ∀ w, (q.isServer w).1 = server)
    (opened : List UInt64) (raw : UInt64) (rest : List UInt64) :
    Reads q raw (TrackedReading server opened (raw :: rest)) (TrackedReading server opened rest)
      (TrackedReading server opened rest) := by
  have hread : ∀ (s : Session W) (w : W), TrackedReading server opened rest s →
      TrackedReading server opened rest (s.setWorld w) := fun _ _ hs => hs
  constructor
  · intro s hs
    have hlocal : s.isLocal q raw = isLocalId server raw := by
      rw [Session.isLocal, hserver, isLocalId]
    rw [hlocal]
    exact TrackedReading.discover (s := s.askServer q) hs
  · exact fun s _ _ _ hs => hread s _ hs
  · intro s _ _ _ _ _ hs
    exact (hread s _ hs).push fun _ => rfl
  · intro s _ data _ _ hs
    exact (hread s _ hs).report raw data
  · intro s state data hstate _ hs
    have hreport := (hread s (q.streamRecv raw s.world).2 hs).report raw data
    have hentry : ((s.setWorld (q.streamRecv raw s.world).2).report raw
        data).conn.streamStates[raw]? = some state := by
      rw [Session.getElem?_report]
      exact hstate
    have hset : TrackedReading server opened rest
        (((s.setWorld (q.streamRecv raw s.world).2).report raw data).setStream raw
          { state with remoteWriteClosed := true }) :=
      hreport.setStream (hreport.1.update hentry id fun hc => .inl hc)
    exact hset.push fun _ => rfl
  · exact fun s state hstate hfull _ hs => hs.note hstate hfull

theorem pollStreams_tracked {q : Quiche W} {server : Bool}
    (hserver : ∀ w, (q.isServer w).1 = server) {fuel : Nat} {opened : List UInt64}
    {s : Session W} (hs : Tracked server opened s.conn s.events)
    (hguard : StreamsKnown server q s .pollStreams) :
    Triple (fun s' => s' = s) (pollStreams q fuel)
      (fun _ s' => Tracked server opened s'.conn s'.events)
      (fun s' => Tracked server opened s'.conn s'.events) := by
  refine pollStreams_triple (P := TrackedReading server opened)
    (R := fun _ => TrackedReading server opened) (tracked_stable server opened).drains hs ?_
    (tracked_reads hserver opened) (fun _ hs => hs.1) (fun _ hs => hs.gcStreams)
  intro hestablished
  refine ⟨hs, fun raw hraw => ?_⟩
  cases hentry : s.conn.streamStates[raw]? with
  | some state => exact .inl ⟨state, hentry⟩
  | none => exact .inr (hguard hestablished raw hraw hentry)

/-! ## Writing -/

/-- A stream whose write side is open is an open stream. -/
theorem Tracked.isOpen {server : Bool} {opened : List UInt64} {s : Session W} {raw : UInt64}
    {state : StreamRuntimeState} (h : Tracked server opened s.conn s.events)
    (hstate : s.conn.streamStates[raw]? = some state) (hopen : state.localWriteClosed = false) :
    s.isOpen opened raw := by
  refine ⟨h.known raw state hstate, fun hemitted => ?_⟩
  rw [Session.closeEmitted, Session.stream_of_getElem? hstate] at hemitted
  rw [h.closed raw state hstate hemitted] at hopen
  cases hopen

theorem queueWrite_contract {q : Quiche W} {server : Bool}
    (hserver : ∀ w, (q.isServer w).1 = server) {fuel : Nat} {opened : List UInt64}
    {streamId : StreamId} {update : StreamRuntimeState → StreamRuntimeState}
    {refusal : Session W → TransportError} {s s' : Session W} {r : Except TransportError Unit}
    (hs : Tracked server opened s.conn s.events)
    (hguard : s.conn.streamStates[streamId.asU64]? = none →
      isLocalId server streamId.asU64 = false)
    (hexec : Prog.exec (queueWrite q fuel streamId update refusal) s = some (r, s')) :
    WriteContract opened streamId.asU64 s s' r := by
  rw [exec_queueWrite] at hexec
  cases hentry : s.conn.streamStates[streamId.asU64]? with
  | some state =>
    rw [hentry] at hexec
    dsimp only at hexec
    split at hexec
    · cases hexec
      exact ⟨by rintro ⟨⟩, fun _ => ⟨⟨_, rfl⟩, fun _ h => h⟩⟩
    · next hopen =>
      rw [Bool.not_eq_true] at hopen
      have hisOpen := hs.isOpen hentry hopen
      exact ⟨fun _ => hisOpen, fun hnot => absurd hisOpen hnot⟩
  | none =>
    have hremote : s.isLocal q streamId.asU64 = false := by
      rw [Session.isLocal, hserver]
      exact hguard hentry
    rw [hentry, hremote] at hexec
    cases hexec
    exact ⟨by rintro ⟨⟩, fun _ => ⟨⟨_, rfl⟩, fun _ h => h⟩⟩

theorem queueWrite_tracked {q : Quiche W} {server : Bool}
    (hserver : ∀ w, (q.isServer w).1 = server) {fuel : Nat} {opened : List UInt64}
    {streamId : StreamId} {refusal : Session W → TransportError} {s : Session W}
    (hs : Tracked server opened s.conn s.events)
    (hguard : s.conn.streamStates[streamId.asU64]? = none →
      isLocalId server streamId.asU64 = false)
    (update : StreamRuntimeState → StreamRuntimeState)
    (hupdate : ∀ state, (update state).closedNotified = state.closedNotified) :
    Triple (fun s' => s' = s) (queueWrite q fuel streamId update refusal)
      (fun _ s' => Tracked server opened s'.conn s'.events)
      (fun s' => Tracked server opened s'.conn s'.events) := by
  refine Queues.queueWrite_triple ?_ (tracked_stable server opened).drains
  constructor
  · rintro _ _ _ _ rfl
    exact hs
  · rintro s state hstate hopen rfl
    refine hs.update hstate (fun hclosed => ?_) fun hc => .inl (hupdate state ▸ hc)
    rw [hopen] at hclosed
    cases hclosed
  · rintro s hnone hlocal rfl
    rw [Session.isLocal, hserver] at hlocal
    cases hlocal.symm.trans (hguard hnone)
  · rintro _ _ _ rfl
    exact hs

/-! ## Opening and resetting -/

/-- The next stream id of the same side does not wrap. -/
theorem toNat_add_four {raw : UInt64} (h : raw.toNat + 4 < 2 ^ 64) :
    (raw + 4).toNat = raw.toNat + 4 := by
  rw [UInt64.toNat_add]
  exact Nat.mod_eq_of_lt h

/-- The next id but one has the same parity. -/
theorem isLocalId_add_four (server : Bool) (raw : UInt64) :
    isLocalId server (raw + 4) = isLocalId server raw := by
  have hbit : (raw + 4) &&& 0x1 = raw &&& 0x1 := by
    apply UInt64.toNat_inj.mp
    rw [UInt64.toNat_and, UInt64.toNat_and, UInt64.toNat_add]
    show ((raw.toNat + 4) % 2 ^ 64) &&& 1 = raw.toNat &&& 1
    rw [Nat.and_one_is_mod, Nat.and_one_is_mod]
    omega
  rw [isLocalId, hbit, isLocalId]

/-- The counter is past every local stream, so its id is free, and it is tracked from then on. -/
theorem openStream_tracked {server : Bool} {opened : List UInt64} {s s' : Session W}
    {r : Except TransportError StreamId} (hs : Tracked server opened s.conn s.events)
    (hguard : s.conn.nextLocalBidiStreamId.toNat + 4 < 2 ^ 64)
    (hexec : Prog.exec (openStream : Method W StreamId) s = some (r, s')) :
    (∀ id streamId, r ≠ .error (.streamExists id streamId)) ∧
      Tracked server (opened ++ openedBy s .openStream) s'.conn s'.events := by
  have hfresh : s.conn.streamStates.contains s.conn.nextLocalBidiStreamId = false := by
    apply Bool.eq_false_iff.mpr
    intro hcontains
    have hmem := Std.ExtTreeMap.mem_iff_contains.mpr hcontains
    have hlt := hs.below _ (.inl (BTreeMap.exists_getElem?_of_mem hmem)) hs.parity
    exact Nat.lt_irrefl _ hlt
  have hform := exec_openStream s
  rw [hfresh] at hform
  split at hform
  · cases hexec.symm.trans hform
    have hopened : openedBy s .openStream = [] := by rw [openedBy, hform]
    rw [hopened, List.append_nil]
    exact ⟨by rintro _ _ ⟨⟩, hs⟩
  · rw [if_neg Bool.false_ne_true] at hform
    cases hexec.symm.trans hform
    refine ⟨by rintro _ _ ⟨⟩, ?_⟩
    have hopened : openedBy s .openStream = [s.conn.nextLocalBidiStreamId] := by
      rw [openedBy, hform]
    rw [hopened]
    -- the counter moves on, then the entry is made
    have hcounter : Tracked server (opened ++ [s.conn.nextLocalBidiStreamId])
        (s.setNextStreamId (s.conn.nextLocalBidiStreamId + 4)).conn s.events := by
      refine ⟨fun raw state hstate => ?_, hs.closed, fun raw hraw hlocal => ?_, ?_⟩
      · exact (hs.known raw state hstate).imp_left (List.mem_append_left _)
      · have hlt := hs.below raw hraw hlocal
        show raw.toNat < (s.conn.nextLocalBidiStreamId + 4).toNat
        rw [toNat_add_four hguard]
        omega
      · exact (isLocalId_add_four server _).trans hs.parity
    refine hcounter.setStream (.inl (List.mem_append_right _ List.mem_cons_self)) ?_ fun _ => ?_
    · rintro (hany | hnotified)
      · have hlt := hs.below _ (.inr hany) hs.parity
        exact absurd hlt (Nat.lt_irrefl _)
      · cases hnotified
    · show s.conn.nextLocalBidiStreamId.toNat < (s.conn.nextLocalBidiStreamId + 4).toNat
      rw [toNat_add_four hguard]
      omega

theorem resetStream_tracked {q : Quiche W} {server : Bool} {opened : List UInt64}
    (streamId : StreamId) :
    Keeps (fun s : Session W => Tracked server opened s.conn s.events)
      (resetStream q streamId) := by
  intro s hs r s' hr
  have hend : Tracked server opened s'.conn s'.events := by
    rw [exec_resetStream] at hr
    split at hr
    · cases hr
      exact hs
    next state hstate =>
    split at hr
    · cases hr
      exact hs
    dsimp only at hr
    split at hr
    · cases hr
      exact hs
    cases hr
    have hset : Tracked server opened (s.setStream streamId.asU64 state.reset).conn s.events :=
      hs.update hstate (fun _ => rfl) fun _ => .inr rfl
    unfold Session.finishReset
    split
    · exact hset
    · exact hset.push_closed (Session.getElem?_setStream_self s _ _) rfl _
  exact ⟨fun _ _ => hend, fun _ _ => hend⟩

/-! ## Runs -/

/-- One guarded call keeps the contract and the invariant. -/
theorem call_tracked [MultihashCodec] {q : Quiche W} {server : Bool}
    (hserver : ∀ w, (q.isServer w).1 = server) {fuel : Nat}
    {verifyLibp2pCertificate : Bytes → Except String PeerId} {opened : List UInt64} {call : Call}
    {s s' : Session W} {r : Except TransportError Unit}
    (hs : Tracked server opened s.conn s.events) (hguard : StreamsKnown server q s call)
    (hexec : Prog.exec (call.method q fuel verifyLibp2pCertificate) s = some (r, s')) :
    OnlyOpenWritten opened s s' r call ∧
      Tracked server (opened ++ openedBy s call) s'.conn s'.events := by
  -- only `open_stream` opens anything
  have hnothing : Tracked server opened s'.conn s'.events →
      Tracked server (opened ++ []) s'.conn s'.events := by
    rw [List.append_nil]
    exact id
  cases call with
  | recvPacket buf =>
    exact ⟨trivial, hnothing (((tracked_receives server opened).recvPacket_keeps
      verifyLibp2pCertificate buf).of_exec hs hexec)⟩
  | pollStreams =>
    exact ⟨trivial, hnothing ((pollStreams_tracked hserver hs hguard).of_exec rfl hexec)⟩
  | openStream =>
    rcases Prog.exec_bind_eq_some hexec with ⟨e, hfailed, rfl⟩ | ⟨streamId, s₁, hopen, hrest⟩
    · obtain ⟨hnot, hend⟩ := openStream_tracked hs hguard hfailed
      refine ⟨fun id streamId heq => ?_, hend⟩
      cases heq
      exact hnot id streamId rfl
    · cases hrest
      exact ⟨by rintro _ _ ⟨⟩, (openStream_tracked hs hguard hopen).2⟩
  | sendStream streamId data =>
    by_cases hdata : data = []
    · subst hdata
      cases hexec
      exact ⟨fun h => absurd rfl h, hnothing hs⟩
    · have hwrite : Prog.exec (sendStream q fuel streamId data) s = some (r, s') := hexec
      rw [sendStream_eq _ _ _ hdata] at hwrite
      exact ⟨fun _ => queueWrite_contract hserver hs (hguard hdata) hwrite,
        hnothing ((queueWrite_tracked hserver hs (hguard hdata) (.queueData data)
          fun _ => rfl).of_exec rfl hwrite)⟩
  | closeStreamWrite streamId =>
    have hwrite : Prog.exec (closeStreamWrite q fuel streamId) s = some (r, s') := hexec
    rw [closeStreamWrite_eq] at hwrite
    exact ⟨queueWrite_contract hserver hs hguard hwrite,
      hnothing ((queueWrite_tracked hserver hs hguard .queueFin fun _ => rfl).of_exec rfl hwrite)⟩
  | resetStream streamId =>
    exact ⟨trivial, hnothing ((resetStream_tracked streamId).of_exec hs hexec)⟩
  | close => exact ⟨trivial, hnothing ((close_tracked server opened).of_exec hs hexec)⟩

/-- A new connection has no stream. -/
theorem new_tracked {q : Quiche W} {server : Bool} (hserver : ∀ w, (q.isServer w).1 = server)
    (id : ConnectionId) (transport : Multiaddr) (dialed : Option PeerId) (world : W) :
    Tracked server [] (new q id transport dialed world).conn
      (new q id transport dialed world).events := by
  have hnone : ∀ raw, (new q id transport dialed world).conn.streamStates[raw]? = none :=
    fun _ => Std.ExtTreeMap.getElem?_empty
  refine ⟨fun raw state hstate => ?_, fun raw state hstate => ?_, ?_, ?_⟩
  · cases (hnone raw).symm.trans hstate
  · cases (hnone raw).symm.trans hstate
  · rintro raw (⟨state, hstate⟩ | hany) _
    · cases (hnone raw).symm.trans hstate
    · cases hany
  · show isLocalId server (if (q.isServer world).1 then 1 else 0) = true
    rw [hserver]
    cases server <;> decide

/-- In every run whose calls all meet `StreamsKnown`, every call on a session that is reached
keeps the contract: a write that succeeds is one on a stream that was opened or announced before
and not closed since, any other write fails and makes no entry, and `open_stream` never fails with
StreamExists. -/
theorem writes_only_open_streams [MultihashCodec] (q : Quiche W) (server : Bool)
    (hserver : ∀ w, (q.isServer w).1 = server) (fuel : Nat)
    (verifyLibp2pCertificate : Bytes → Except String PeerId) (id : ConnectionId)
    (transport : Multiaddr) (dialed : Option PeerId) (world : W) (calls : List Call) (call : Call)
    (s s' : Session W) (r : Except TransportError Unit)
    (hguard : GuardedRun q fuel verifyLibp2pCertificate (StreamsKnown server q)
      (new q id transport dialed world) calls)
    (hrun : run q fuel verifyLibp2pCertificate (new q id transport dialed world) calls = some s)
    (hcall : StreamsKnown server q s call)
    (hexec : Prog.exec (call.method q fuel verifyLibp2pCertificate) s = some (r, s')) :
    OnlyOpenWritten (collect q fuel verifyLibp2pCertificate openedBy
      (new q id transport dialed world) calls) s s' r call := by
  have hinv := run_collect_invariant
    (I := fun opened s => Tracked server opened s.conn s.events)
    (fun opened s call r s' hs hcall hexec => (call_tracked hserver hs hcall hexec).2)
    (new_tracked hserver id transport dialed world) hguard hrun
  rw [List.nil_append] at hinv
  exact (call_tracked hserver hinv hcall hexec).1

/-- A stream is opened and written to. -/
theorem writes_only_open_streams_opened :
    ∃ s s', @run _ multihashCodec quietQuiche 2 (fun _ => .ok somePeer)
        (dialedConnection quietQuiche) [.recvPacket [], .openStream] = some s ∧
      Prog.exec (sendStream quietQuiche 2 ⟨0⟩ [1]) s = some (.ok (), s') ∧
      OnlyOpenWritten [0] s s' (.ok ()) (.sendStream ⟨0⟩ [1]) := by
  refine ⟨_, _, rfl, rfl, ?_⟩
  refine @writes_only_open_streams Unit multihashCodec quietQuiche false (fun _ => rfl) 2
    (fun _ => .ok somePeer) ⟨1⟩ ⟨[.quicV1]⟩ (some somePeer) () [.recvPacket [], .openStream]
    (.sendStream ⟨0⟩ [1]) _ _ _ ⟨trivial, fun r s hexec => ?_⟩ rfl ?_ rfl
  · cases hexec
    refine ⟨?_, fun _ _ _ => trivial⟩
    show (0 : UInt64).toNat + 4 < 2 ^ 64
    decide
  · intro _ hnone
    cases hnone

/-- A write on a local stream that was never opened succeeds and makes an entry, and the
`open_stream` that comes to its id fails. -/
theorem never_opened_stream_written :
    ∃ s' s, Prog.exec (sendStream quietQuiche 2 ⟨0⟩ [1]) (dialedConnection quietQuiche) =
        some (.ok (), s') ∧
      ¬ OnlyOpenWritten [] (dialedConnection quietQuiche) s' (.ok ()) (.sendStream ⟨0⟩ [1]) ∧
      @run _ multihashCodec quietQuiche 2 (fun _ => .ok somePeer)
        (dialedConnection quietQuiche) [.sendStream ⟨0⟩ [1], .recvPacket []] = some s ∧
      (Prog.exec (openStream : Method Unit StreamId) s).map Prod.fst =
        some (.error (.streamExists ⟨1⟩ ⟨0⟩)) := by
  refine ⟨_, _, rfl, fun h => ?_, rfl, rfl⟩
  rcases ((h (by decide)).success rfl).1 with hmem | hany
  · cases hmem
  · cases hany

end Minip2p.Quic
