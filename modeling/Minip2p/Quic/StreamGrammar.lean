import Minip2p.Lib.Logs
import Minip2p.Quic.OpenStreams

/-!
# The grammar of stream events

The events of a stream come in order: IncomingStream first and once, for remote streams only;
StreamRemoteWriteClosed at most once and no data after it; StreamClosed at most once and nothing
after it (`stream_event_grammar`). It rests on quiche, which does not report a stream readable
again after its FIN or a read shutdown, and on the caller, which leaves closed streams alone. The
invariant `StreamTold` ties the flags of an entry to the events and to quiche's reads, also after
the entry has been collected.
-/

namespace Minip2p.Quic

variable {W : Type}

/-! ## The grammar -/

/-- Whether an event is the StreamRemoteWriteClosed of the stream. -/
def isRemoteClosedEvent (raw : UInt64) : TransportEvent → Bool
  | .streamRemoteWriteClosed _ streamId => streamId.asU64 == raw
  | _ => false

/-- Whether an event is one of the stream's. -/
def isEventOf (raw : UInt64) : TransportEvent → Bool
  | .incomingStream _ streamId | .streamData _ streamId _
  | .streamRemoteWriteClosed _ streamId | .streamClosed _ streamId => streamId.asU64 == raw
  | _ => false

/-- The stream has been announced if it is a remote one, and has not been closed. -/
def Introduced (server : Bool) (before : List TransportEvent) (raw : UInt64) : Prop :=
  before.any (isClosedEvent raw) = false ∧
    (isLocalId server raw = false → before.any (isIncomingEvent raw) = true)

/-- What may follow the events `before`. -/
def Follows (server : Bool) (before : List TransportEvent) : TransportEvent → Prop
  | .incomingStream _ streamId =>
    isLocalId server streamId.asU64 = false ∧ before.any (isEventOf streamId.asU64) = false
  | .streamData _ streamId _ | .streamRemoteWriteClosed _ streamId =>
    Introduced server before streamId.asU64 ∧
      before.any (isRemoteClosedEvent streamId.asU64) = false
  | .streamClosed _ streamId => Introduced server before streamId.asU64
  | _ => True

/-- Every event may follow those before it. -/
def StreamGrammar (server : Bool) (events : List TransportEvent) : Prop :=
  Runs.EachStep (Follows server) [] events

namespace StreamGrammar

variable {server : Bool} {events : List TransportEvent}

theorem push (h : StreamGrammar server events) {event : TransportEvent}
    (hevent : Follows server events event) : StreamGrammar server (events ++ [event]) :=
  Logs.eachStep_concat.mpr ⟨h, hevent⟩

/-- Only remote streams are announced. -/
theorem remote_of_incoming (h : StreamGrammar server events) {raw : UInt64}
    (hany : events.any (isIncomingEvent raw) = true) : isLocalId server raw = false := by
  induction events using List.reverseRecOn with
  | nil => cases hany
  | append_singleton events event ih =>
    obtain ⟨hold, hevent⟩ := Logs.eachStep_concat.mp h
    by_cases hnew : isIncomingEvent raw event = true
    · cases event with
      | incomingStream id streamId =>
        rw [isIncomingEvent, beq_iff_eq] at hnew
        exact hnew ▸ hevent.1
      | _ => cases hnew
    · rw [any_push_other _ (Bool.eq_false_iff.mpr hnew)] at hany
      exact ih hold hany

/-- A remote stream with an event has been announced. -/
theorem incoming_of_event (h : StreamGrammar server events) {raw : UInt64}
    (hremote : isLocalId server raw = false) (hany : events.any (isEventOf raw) = true) :
    events.any (isIncomingEvent raw) = true := by
  induction events using List.reverseRecOn with
  | nil => cases hany
  | append_singleton events event ih =>
    obtain ⟨hold, hevent⟩ := Logs.eachStep_concat.mp h
    by_cases hnew : isEventOf raw event = true
    · cases event with
      | incomingStream id streamId => exact any_push_self _ hnew
      | streamData id streamId data =>
        rw [isEventOf, beq_iff_eq] at hnew
        exact any_push (hnew ▸ hevent.1.2 (hnew ▸ hremote)) _
      | streamRemoteWriteClosed id streamId =>
        rw [isEventOf, beq_iff_eq] at hnew
        exact any_push (hnew ▸ hevent.1.2 (hnew ▸ hremote)) _
      | streamClosed id streamId =>
        rw [isEventOf, beq_iff_eq] at hnew
        exact any_push (hnew ▸ hevent.2 (hnew ▸ hremote)) _
      | _ => cases hnew
    · rw [any_push_other _ (Bool.eq_false_iff.mpr hnew)] at hany
      exact any_push (ih hold hany) event

end StreamGrammar

/-! ## The invariant -/

/-- Whether a call ends the reading of the stream: it brought the FIN, or it shut down the read
side. -/
def Record.isFinal (raw : UInt64) : Record → Bool
  | .received raw' (.ok (_, fin)) => fin && raw' == raw
  | .shut raw' .read (.ok _) => raw' == raw
  | _ => false

/-- quiche has delivered the FIN of the stream or has shut down its read side. -/
def Finished (raw : UInt64) (log : List Record) : Prop := log.any (Record.isFinal raw) = true

theorem Finished.append {raw : UInt64} {log : List Record} (h : Finished raw log)
    (more : List Record) : Finished raw (log ++ more) := by
  rw [Finished, List.any_append, h, Bool.true_or]

/-- What the entry of a stream, the events and quiche's record say about each other. -/
structure StreamTold (server : Bool) (raw : UInt64) (entry : Option StreamRuntimeState)
    (events : List TransportEvent) (log : List Record) : Prop where
  announced : ∀ state, entry = some state → isLocalId server raw = false →
    events.any (isIncomingEvent raw) = true
  incoming : events.any (isIncomingEvent raw) = true →
    (∃ state, entry = some state ∧ state.incomingNotified = true) ∨ Finished raw log
  remote : ∀ state, entry = some state → state.remoteWriteClosed = true → Finished raw log
  notified : ∀ state, entry = some state → state.closedNotified = true →
    state.remoteWriteClosed = true
  ended : events.any (isRemoteClosedEvent raw) = true → Finished raw log
  closed : events.any (isClosedEvent raw) = true → Finished raw log ∧
    ∀ state, entry = some state → state.closedNotified = true ∨ state.isFullyClosed = false

/-- The invariant of a run. -/
structure Told (server : Bool) (conn : QuicConnection) (events : List TransportEvent)
    (log : List Record) : Prop where
  grammar : StreamGrammar server events
  parity : isLocalId server conn.nextLocalBidiStreamId = true
  streams : ∀ raw, StreamTold server raw conn.streamStates[raw]? events log

theorem isEventOf_of_incoming {raw : UInt64} {e : TransportEvent}
    (h : isIncomingEvent raw e = true) : isEventOf raw e = true := by
  cases e with
  | incomingStream id streamId => exact h
  | _ => cases h

theorem isEventOf_of_remoteClosed {raw : UInt64} {e : TransportEvent}
    (h : isRemoteClosedEvent raw e = true) : isEventOf raw e = true := by
  cases e with
  | streamRemoteWriteClosed id streamId => exact h
  | _ => cases h

theorem isEventOf_of_closed {raw : UInt64} {e : TransportEvent}
    (h : isClosedEvent raw e = true) : isEventOf raw e = true := by
  cases e with
  | streamClosed id streamId => exact h
  | _ => cases h

/-- Events of other streams do not count. -/
theorem any_append_other {raw : UInt64} {P : TransportEvent → Bool}
    (hP : ∀ e, P e = true → isEventOf raw e = true) (events : List TransportEvent)
    {more : List TransportEvent} (hmore : ∀ e ∈ more, isEventOf raw e = false) :
    (events ++ more).any P = events.any P := by
  have hnone : more.any P = false := by
    rw [List.any_eq_false]
    intro e he hPe
    cases (hmore e he).symm.trans (hP e hPe)
  rw [List.any_append, hnone, Bool.or_false]

/-- Events of other streams and further calls change nothing for a stream. -/
theorem StreamTold.mono {server : Bool} {raw : UInt64} {entry : Option StreamRuntimeState}
    {events : List TransportEvent} {log log' : List Record}
    (h : StreamTold server raw entry events log) (more : List TransportEvent)
    (hmore : ∀ e ∈ more, isEventOf raw e = false)
    (hlog : Finished raw log → Finished raw log') :
    StreamTold server raw entry (events ++ more) log' := by
  have hincoming := any_append_other (fun _ => isEventOf_of_incoming) events hmore
  have hended := any_append_other (fun _ => isEventOf_of_remoteClosed) events hmore
  have hclosed := any_append_other (fun _ => isEventOf_of_closed) events hmore
  refine ⟨?_, ?_, ?_, h.notified, ?_, ?_⟩
  · rw [hincoming]
    exact h.announced
  · rw [hincoming]
    exact fun hany => (h.incoming hany).imp_right hlog
  · exact fun state hstate hremote => hlog (h.remote state hstate hremote)
  · rw [hended]
    exact fun hany => hlog (h.ended hany)
  · rw [hclosed]
    exact fun hany => ⟨hlog (h.closed hany).1, (h.closed hany).2⟩

namespace Told

variable {server : Bool} {events : List TransportEvent} {log : List Record} {s : Session W}

/-- One stream changes: its entry is written back, with events of its own and further calls. -/
theorem setStream (h : Told server s.conn events log) {raw : UInt64} {state : StreamRuntimeState}
    (more : List TransportEvent) (calls : List Record)
    (hgrammar : StreamGrammar server (events ++ more))
    (hmore : ∀ e ∈ more, ∀ raw', raw' ≠ raw → isEventOf raw' e = false)
    (hstream : StreamTold server raw (some state) (events ++ more) (log ++ calls)) :
    Told server (s.setStream raw state).conn (events ++ more) (log ++ calls) := by
  refine ⟨hgrammar, h.parity, fun raw' => ?_⟩
  by_cases hraw : raw' = raw
  · subst hraw
    rw [Session.getElem?_setStream_self]
    exact hstream
  · rw [Session.getElem?_setStream_of_ne s hraw]
    exact (h.streams raw').mono more (fun e he => hmore e he raw' hraw)
      fun hfin => hfin.append calls

/-- One stream is written back without an event. -/
theorem setStream_quiet (h : Told server s.conn events log) {raw : UInt64}
    {state : StreamRuntimeState} (hstream : StreamTold server raw (some state) events log) :
    Told server (s.setStream raw state).conn events log := by
  have hset := h.setStream [] [] (by rw [List.append_nil]; exact h.grammar)
    (by rintro _ ⟨⟩) (by rw [List.append_nil, List.append_nil]; exact hstream)
  rw [List.append_nil, List.append_nil] at hset
  exact hset

/-- Further calls. -/
theorem append {conn : QuicConnection} (h : Told server conn events log) (calls : List Record) :
    Told server conn events (log ++ calls) := by
  refine ⟨h.grammar, h.parity, fun raw => ?_⟩
  have hmono := (h.streams raw).mono [] (by rintro _ ⟨⟩) fun hfin => hfin.append calls
  rw [List.append_nil] at hmono
  exact hmono

/-- An event that is not about a stream. -/
theorem push_other {conn : QuicConnection} (h : Told server conn events log)
    {event : TransportEvent} (hevent : isStreamEvent event = false) :
    Told server conn (events ++ [event]) log := by
  have hother : ∀ raw, isEventOf raw event = false := by
    intro raw
    cases event with
    | incomingStream | streamData | streamRemoteWriteClosed | streamClosed => cases hevent
    | _ => rfl
  have hfollows : Follows server events event := by
    cases event with
    | incomingStream | streamData | streamRemoteWriteClosed | streamClosed => cases hevent
    | _ => trivial
  refine ⟨h.grammar.push hfollows, h.parity, fun raw => (h.streams raw).mono [event] ?_ id⟩
  intro e he
  rw [List.mem_singleton.mp he]
  exact hother raw

/-- The events of one stream are not those of another. -/
theorem isEventOf_of_ne {raw : UInt64} {event : TransportEvent} (h : isEventOf raw event = true) :
    ∀ e ∈ [event], ∀ raw', raw' ≠ raw → isEventOf raw' e = false := by
  intro e he raw' hne
  rw [List.mem_singleton.mp he]
  cases event with
  | incomingStream id streamId | streamData id streamId _
  | streamRemoteWriteClosed id streamId | streamClosed id streamId =>
    rw [isEventOf, beq_iff_eq] at h
    exact beq_false_of_ne (h ▸ hne.symm)
  | _ => cases h

/-- A stream with an entry has been announced if it is a remote one, and unless it counts as
closed it has not been closed. -/
theorem introduced {conn : QuicConnection} (h : Told server conn events log) {raw : UInt64}
    {state : StreamRuntimeState} (hstate : conn.streamStates[raw]? = some state)
    (hopen : events.any (isClosedEvent raw) = false) : Introduced server events raw :=
  ⟨hopen, (h.streams raw).announced state hstate⟩

end Told

/-! ## Changes of one stream -/

namespace StreamTold

variable {server : Bool} {raw : UInt64} {events : List TransportEvent} {log : List Record}
  {old state : StreamRuntimeState}

/-- The entry is written back with its flags as they were; the write side of a stream that has
been closed is not closed anew. -/
theorem update (h : StreamTold server raw (some old) events log)
    (hincoming : old.incomingNotified = true → state.incomingNotified = true)
    (hremote : state.remoteWriteClosed = old.remoteWriteClosed)
    (hnotified : state.closedNotified = old.closedNotified)
    (hfull : events.any (isClosedEvent raw) = true → state.isFullyClosed = old.isFullyClosed) :
    StreamTold server raw (some state) events log := by
  refine ⟨fun _ _ => h.announced old rfl, fun hany => ?_, ?_, ?_, h.ended, fun hany => ?_⟩
  · refine (h.incoming hany).imp_left ?_
    rintro ⟨_, ⟨⟩, hold⟩
    exact ⟨state, rfl, hincoming hold⟩
  · rintro _ ⟨⟩ hclosed
    exact h.remote old rfl (hremote ▸ hclosed)
  · rintro _ ⟨⟩ hflag
    exact hremote.trans (h.notified old rfl (hnotified ▸ hflag))
  · refine ⟨(h.closed hany).1, ?_⟩
    rintro _ ⟨⟩
    rw [hnotified, hfull hany]
    exact (h.closed hany).2 old rfl

/-- A fully closed stream is recorded as closed. -/
theorem note (h : StreamTold server raw (some old) events log)
    (hfull : old.isFullyClosed = true) :
    StreamTold server raw (some { old with closedNotified := true }) events log := by
  rw [StreamRuntimeState.isFullyClosed, Bool.and_eq_true] at hfull
  refine ⟨fun _ _ => h.announced old rfl, fun hany => ?_, ?_, ?_, h.ended, fun hany => ?_⟩
  · refine (h.incoming hany).imp_left ?_
    rintro ⟨_, ⟨⟩, hold⟩
    exact ⟨_, rfl, hold⟩
  · rintro _ ⟨⟩ _
    exact h.remote old rfl hfull.2
  · rintro _ ⟨⟩ _
    exact hfull.2
  · refine ⟨(h.closed hany).1, ?_⟩
    rintro _ ⟨⟩
    exact .inl rfl

/-- StreamClosed follows for a stream that is finished and counts as closed. -/
theorem push_closed (h : StreamTold server raw (some old) events log)
    (hfinished : Finished raw log) (hflag : old.closedNotified = true) (id : ConnectionId) :
    StreamTold server raw (some old) (events ++ [.streamClosed id ⟨raw⟩]) log := by
  refine ⟨fun state hstate hremote => any_push (h.announced state hstate hremote) _,
    fun hany => ?_, h.remote, h.notified, fun hany => ?_, fun _ => ⟨hfinished, ?_⟩⟩
  · rw [any_push_other _ rfl] at hany
    exact h.incoming hany
  · rw [any_push_other _ rfl] at hany
    exact h.ended hany
  · rintro _ ⟨⟩
    exact .inl hflag

/-- Data follows. -/
theorem push_data (h : StreamTold server raw (some old) events log) (id : ConnectionId)
    (data : Bytes) :
    StreamTold server raw (some old) (events ++ [.streamData id ⟨raw⟩ data]) log := by
  refine ⟨fun state hstate hremote => any_push (h.announced state hstate hremote) _,
    fun hany => ?_, h.remote, h.notified, fun hany => ?_, fun hany => ?_⟩
  · rw [any_push_other _ rfl] at hany
    exact h.incoming hany
  · rw [any_push_other _ rfl] at hany
    exact h.ended hany
  · rw [any_push_other _ rfl] at hany
    exact h.closed hany

/-- The remote's FIN has been read: the flag is set and the end is reported. -/
theorem finish (h : StreamTold server raw (some old) events log) (hfinished : Finished raw log)
    (hopen : events.any (isClosedEvent raw) = false) (id : ConnectionId) :
    StreamTold server raw (some { old with remoteWriteClosed := true })
      (events ++ [.streamRemoteWriteClosed id ⟨raw⟩]) log := by
  refine ⟨fun _ _ hremote => any_push (h.announced old rfl hremote) _, fun hany => ?_,
    fun _ _ _ => hfinished, ?_, fun _ => hfinished, fun hany => ?_⟩
  · rw [any_push_other _ rfl] at hany
    refine (h.incoming hany).imp_left ?_
    rintro ⟨_, ⟨⟩, hold⟩
    exact ⟨_, rfl, hold⟩
  · rintro _ ⟨⟩ _
    rfl
  · rw [any_push_other _ rfl, hopen] at hany
    cases hany

/-- A stream gets its entry and is announced, or its entry is marked as announced. -/
theorem announce {entry : Option StreamRuntimeState}
    (h : StreamTold server raw entry events log) (id : ConnectionId) :
    StreamTold server raw (some { entry.getD .default with incomingNotified := true })
      (events ++ [.incomingStream id ⟨raw⟩]) log := by
  refine ⟨fun _ _ _ => any_push_self _ (beq_self_eq_true raw), fun _ => .inl ⟨_, rfl, rfl⟩, ?_,
    ?_, fun hany => ?_, fun hany => ?_⟩
  · rintro _ ⟨⟩ hremote
    cases entry with
    | none => cases hremote
    | some state => exact h.remote state rfl hremote
  · rintro _ ⟨⟩ hflag
    cases entry with
    | none => cases hflag
    | some state => exact h.notified state rfl hflag
  · rw [any_push_other _ rfl] at hany
    exact h.ended hany
  · rw [any_push_other _ rfl] at hany
    refine ⟨(h.closed hany).1, ?_⟩
    rintro _ ⟨⟩
    cases entry with
    | none => exact .inr rfl
    | some state => exact (h.closed hany).2 state rfl

/-- A new entry for a stream without one that needs no announcement. -/
theorem create (h : StreamTold server raw none events log)
    (hlocal : isLocalId server raw = true)
    (hremote : events.any (isIncomingEvent raw) = true → isLocalId server raw = false) :
    StreamTold server raw (some .default) events log := by
  refine ⟨fun _ _ hnot => ?_, fun hany => ?_, ?_, ?_, h.ended, fun hany => ⟨(h.closed hany).1, ?_⟩⟩
  · cases hlocal.symm.trans hnot
  · cases hlocal.symm.trans (hremote hany)
  · rintro _ ⟨⟩ hflag
    cases hflag
  · rintro _ ⟨⟩ hflag
    cases hflag
  · rintro _ ⟨⟩
    exact .inr rfl

/-- The entry of a stream that is reset, once its read side is shut down. -/
theorem reset (h : StreamTold server raw (some old) events log) (hfinished : Finished raw log) :
    StreamTold server raw (some old.reset) events log := by
  refine ⟨fun _ _ => h.announced old rfl, fun _ => .inr hfinished, fun _ _ _ => hfinished, ?_,
    h.ended, fun hany => ⟨hfinished, ?_⟩⟩
  · rintro _ ⟨⟩ _
    rfl
  · rintro _ ⟨⟩
    exact .inl rfl

/-- The entry of a finished stream is collected. -/
theorem collected (h : StreamTold server raw (some old) events log)
    (hflag : old.closedNotified = true) : StreamTold server raw none events log := by
  have hfinished := h.remote old rfl (h.notified old rfl hflag)
  exact ⟨by rintro _ ⟨⟩, fun _ => .inr hfinished, by rintro _ ⟨⟩, by rintro _ ⟨⟩, h.ended,
    fun hany => ⟨hfinished, by rintro _ ⟨⟩⟩⟩

end StreamTold

/-! ## Draining, packets and closing -/

namespace Told

variable {server : Bool} {events : List TransportEvent} {log : List Record} {s : Session W}
  {raw : UInt64} {state : StreamRuntimeState}

/-- One stream changes and reports one event. -/
theorem setStream_push (h : Told server s.conn events log) {event : TransportEvent}
    (hevent : isEventOf raw event = true) (hfollows : Follows server events event)
    (hstream : StreamTold server raw (some state) (events ++ [event]) log) :
    Told server (s.setStream raw state).conn (events ++ [event]) log := by
  have hset := h.setStream [event] [] (h.grammar.push hfollows) (isEventOf_of_ne hevent)
    (by rw [List.append_nil]; exact hstream)
  rw [List.append_nil] at hset
  exact hset

/-- What the invariant says of an entry that is there. -/
theorem entry {conn : QuicConnection} (h : Told server conn events log)
    (hstate : conn.streamStates[raw]? = some state) :
    StreamTold server raw (some state) events log := by
  have hstream := h.streams raw
  rw [hstate] at hstream
  exact hstream

theorem note (h : Told server s.conn events log) (hstate : s.conn.streamStates[raw]? = some state)
    (hfull : state.isFullyClosed = true) :
    Told server (s.setStream raw { state with closedNotified := true }).conn events log :=
  h.setStream_quiet ((h.entry hstate).note hfull)

/-- The notice of a closed stream, with its event: the stream is finished and has not been closed
before. -/
theorem note_push (h : Told server s.conn events log)
    (hstate : s.conn.streamStates[raw]? = some state) (hfull : state.isFullyClosed = true)
    (hflag : state.closedNotified = false) (id : ConnectionId) :
    Told server (s.setStream raw { state with closedNotified := true }).conn
      (events ++ [.streamClosed id ⟨raw⟩]) log := by
  have hentry := h.entry hstate
  have hopen : events.any (isClosedEvent raw) = false := by
    apply Bool.eq_false_iff.mpr
    intro hany
    rcases (hentry.closed hany).2 state rfl with hset | hnot
    · cases hflag.symm.trans hset
    · cases hfull.symm.trans hnot
  have hremote : state.remoteWriteClosed = true := by
    rw [StreamRuntimeState.isFullyClosed, Bool.and_eq_true] at hfull
    exact hfull.2
  refine h.setStream_push (beq_self_eq_true raw) (h.introduced hstate hopen) ?_
  exact (hentry.note hfull).push_closed (hentry.remote state rfl hremote) rfl id

end Told

/-- Draining with the events as they are, or growing. -/
theorem toldIn_drains {q : Quiche W} (server : Bool) (events : List TransportEvent) :
    Drains q.recorded fun s => Told server s.conn events s.log where
  silent s w hsilent hs := by
    show Told server s.conn events w.2
    rw [hsilent.snd_eq]
    exact hs
  offer s raw state pending rest _ _ _ hs := hs.append _
  write s raw state pending rest written pendingWrites hstate _ _ _ hs := by
    have hsent : Told server s.conn events (q.recorded.offer raw pending s.world).2.2 :=
      hs.append _
    refine Told.setStream_quiet (s := s.setWorld _) hsent ?_
    exact (hsent.entry hstate).update id rfl rfl fun _ => rfl
  note s raw state hstate hfull _ hs := hs.note hstate hfull

theorem told_drains {q : Quiche W} (server : Bool) :
    Drains q.recorded fun s => Told server s.conn s.events s.log where
  silent s := (toldIn_drains server s.events).silent s
  offer s := (toldIn_drains server s.events).offer s
  write s := (toldIn_drains server s.events).write s
  note _ _ _ hstate hfull hflag hs := hs.note_push hstate hfull hflag _

theorem told_receives {q : Quiche W} (server : Bool) :
    Receives q.recorded fun s => Told server s.conn s.events s.log where
  toDrains := told_drains server
  state _ _ hs := ⟨hs.grammar, hs.parity, hs.streams⟩
  cert _ _ hs := hs
  peer _ _ hs := ⟨hs.grammar, hs.parity, hs.streams⟩
  event _ _ he hs := hs.push_other he

theorem close_told {q : Quiche W} {fuel : Nat} (server : Bool) :
    Keeps (fun s : Session (Recorded W) => Told server s.conn s.events s.log)
      (close q.recorded fuel) := by
  intro s hs
  refine close_triple (D := fun s' => Told server s'.conn s.events s'.log)
    (told_drains server) (toldIn_drains server s.events) hs (fun w hsilent => ?_)
    (fun _ hs => hs) s rfl
  have hsame := (toldIn_drains server s.events).silent s w hsilent hs
  exact ⟨hsame.grammar, hsame.parity, hsame.streams⟩

/-! ## Polling -/

theorem Told.gcStreams {server : Bool} {events : List TransportEvent} {log : List Record}
    {s : Session W} (h : Told server s.conn events log) :
    Told server s.gcStreams.conn events log := by
  refine ⟨h.grammar, h.parity, fun raw => ?_⟩
  cases hentry : s.conn.streamStates[raw]? with
  | none =>
    have hgone : s.gcStreams.conn.streamStates[raw]? = none := by
      apply Option.eq_none_iff_forall_ne_some.mpr
      intro state hstate
      cases hentry.symm.trans (Session.getElem?_of_gcStreams hstate)
    have hstream := h.streams raw
    rw [hentry] at hstream
    rw [hgone]
    exact hstream
  | some state =>
    cases hkept : s.gcStreams.conn.streamStates[raw]? with
    | some state' =>
      cases hentry.symm.trans (Session.getElem?_of_gcStreams hkept)
      exact h.entry hentry
    | none =>
      -- only closed streams are collected
      have hflag : state.closedNotified = true := by
        by_contra hopen
        rw [Bool.not_eq_true] at hopen
        cases hkept.symm.trans (Session.getElem?_gcStreams hentry hopen)
      exact (h.entry hentry).collected hflag

/-- The invariant, and the streams that are still to be read are distinct and not finished. -/
def ToldReading (server : Bool) (rest : List UInt64) (s : Session (Recorded W)) : Prop :=
  Told server s.conn s.events s.log ∧ rest.Nodup ∧ ∀ raw ∈ rest, ¬ Finished raw s.log

/-- A call that finishes none of the streams. -/
theorem not_finished_append {raw : UInt64} {log : List Record} {r : Record}
    (h : ¬ Finished raw log) (hr : r.isFinal raw = false) : ¬ Finished raw (log ++ [r]) := by
  rw [Finished, List.any_append, List.any_cons, hr, List.any_nil, Bool.or_false, Bool.or_false]
  exact h

/-- A read of a stream that is not finished: nothing of it has been reported that ends it. -/
theorem ToldReading.unfinished {server : Bool} {raw : UInt64} {rest : List UInt64}
    {s : Session (Recorded W)} (h : ToldReading server (raw :: rest) s) :
    s.events.any (isClosedEvent raw) = false ∧ s.events.any (isRemoteClosedEvent raw) = false := by
  have hopen : ¬ Finished raw s.log := h.2.2 raw List.mem_cons_self
  have hstream := h.1.streams raw
  exact ⟨Bool.eq_false_iff.mpr fun hany => hopen (hstream.closed hany).1,
    Bool.eq_false_iff.mpr fun hany => hopen (hstream.ended hany)⟩

/-- A remote stream that is not finished and not marked as announced has no event. -/
theorem ToldReading.discover {server : Bool} {raw : UInt64} {rest : List UInt64}
    {s : Session (Recorded W)} (h : ToldReading server (raw :: rest) s) :
    ToldReading server (raw :: rest) (s.discover (isLocalId server raw) raw) := by
  have hopen : ¬ Finished raw s.log := h.2.2 raw List.mem_cons_self
  have hstream := h.1.streams raw
  unfold Session.discover
  split
  · next hcond =>
    rw [Bool.and_eq_true, Bool.not_eq_true', Bool.not_eq_true'] at hcond
    refine ⟨h.1.setStream_push (beq_self_eq_true raw) ⟨hcond.1, ?_⟩ (hstream.announce _), h.2⟩
    apply Bool.eq_false_iff.mpr
    intro hany
    rcases hstream.incoming (h.1.grammar.incoming_of_event hcond.1 hany) with
      ⟨state, hstate, hflag⟩ | hfinished
    · rw [Session.stream_of_getElem? hstate, hflag] at hcond
      cases hcond.2
    · exact hopen hfinished
  · next hcond =>
    refine ⟨h.1.setStream_quiet ?_, h.2⟩
    cases hentry : s.conn.streamStates[raw]? with
    | some state =>
      rw [Session.stream_of_getElem? hentry]
      exact h.1.entry hentry
    | none =>
      -- without an entry the stream is a local one
      have hlocal : isLocalId server raw = true := by
        rw [Session.stream_of_none hentry] at hcond
        by_contra hremote
        rw [Bool.not_eq_true] at hremote
        exact hcond (by rw [hremote]; rfl)
      rw [Session.stream_of_none hentry]
      rw [hentry] at hstream
      exact hstream.create hlocal fun hany => h.1.grammar.remote_of_incoming hany

/-- One stream reports one event. -/
theorem Told.push {server : Bool} {raw : UInt64} {conn : QuicConnection}
    {events : List TransportEvent} {log : List Record} (h : Told server conn events log)
    {event : TransportEvent} (hevent : isEventOf raw event = true)
    (hfollows : Follows server events event)
    (hstream : StreamTold server raw conn.streamStates[raw]? (events ++ [event]) log) :
    Told server conn (events ++ [event]) log := by
  refine ⟨h.grammar.push hfollows, h.parity, fun raw' => ?_⟩
  by_cases hraw : raw' = raw
  · rw [hraw]
    exact hstream
  · exact (h.streams raw').mono [event]
      (fun e he => Told.isEventOf_of_ne hevent e he raw' hraw) id

/-- Data of a stream whose end has not been reported. -/
theorem Told.report {server : Bool} {raw : UInt64} {s : Session (Recorded W)}
    {state : StreamRuntimeState} (h : Told server s.conn s.events s.log)
    (hstate : s.conn.streamStates[raw]? = some state)
    (hclosed : s.events.any (isClosedEvent raw) = false)
    (hended : s.events.any (isRemoteClosedEvent raw) = false) (data : Bytes) :
    Told server (s.report raw data).conn (s.report raw data).events (s.report raw data).log ∧
      (s.report raw data).events.any (isClosedEvent raw) = false ∧
      (s.report raw data).events.any (isRemoteClosedEvent raw) = false := by
  unfold Session.report
  split
  · exact ⟨h, hclosed, hended⟩
  · have hpushed : Told server s.conn (s.events ++ [.streamData s.conn.id ⟨raw⟩ data]) s.log := by
      refine h.push (beq_self_eq_true raw) ⟨h.introduced hstate hclosed, hended⟩ ?_
      rw [hstate]
      exact (h.entry hstate).push_data _ data
    exact ⟨hpushed, (any_push_other _ rfl).trans hclosed, (any_push_other _ rfl).trans hended⟩

/-- The streams behind the one that is read are not finished by the read. -/
theorem ToldReading.rest {server : Bool} {raw : UInt64} {rest : List UInt64}
    {s s' : Session (Recorded W)} (h : ToldReading server (raw :: rest) s)
    (answer : Except QuicheError (Bytes × Bool))
    (hlog : s'.log = s.log ++ [.received raw answer])
    (hs' : Told server s'.conn s'.events s'.log) : ToldReading server rest s' := by
  obtain ⟨-, hnodup, hopen⟩ := h
  rw [List.nodup_cons] at hnodup
  refine ⟨hs', hnodup.2, fun raw' hraw' => ?_⟩
  rw [hlog]
  refine not_finished_append (hopen raw' (List.mem_cons_of_mem _ hraw')) ?_
  have hne : raw ≠ raw' := fun heq => hnodup.1 (heq ▸ hraw')
  cases answer with
  | error e => rfl
  | ok read => rw [Record.isFinal, beq_false_of_ne hne, Bool.and_false]

theorem told_reads {q : Quiche W} {server : Bool} (hserver : ∀ w, (q.isServer w).1 = server)
    (raw : UInt64) (rest : List UInt64) :
    Reads q.recorded raw (ToldReading server (raw :: rest)) (ToldReading server (raw :: rest))
      (ToldReading server rest) := by
  -- the record of the read
  have hread : ∀ s : Session (Recorded W), Told server s.conn s.events s.log →
      Told server s.conn s.events
        (s.log ++ [.received raw (q.recorded.streamRecv raw s.world).1]) :=
    fun s hs => hs.append _
  constructor
  · intro s hs
    have hlocal : s.isLocal q.recorded raw = isLocalId server raw :=
      congrArg (fun b => (raw &&& 0x1) == (if b then 1 else 0)) (hserver s.world.1)
    rw [hlocal]
    exact ToldReading.discover (s := s.askServer q.recorded) hs
  · intro s state hstate _ hs
    exact hs.rest _ rfl (hread s hs.1)
  · intro s state e message hstate _ hs
    exact hs.rest _ rfl ((hread s hs.1).push_other rfl)
  · intro s state data hstate hanswer hs
    obtain ⟨hclosed, hended⟩ := hs.unfinished
    have hreport := Told.report (s := s.setWorld (q.recorded.streamRecv raw s.world).2)
      (hread s hs.1) hstate hclosed hended data
    refine ⟨hreport.1, hs.2.1, fun raw' hraw' => ?_⟩
    have hlog : ((s.setWorld (q.recorded.streamRecv raw s.world).2).report raw data).log =
        s.log ++ [.received raw (.ok (data, false))] := by
      rw [Session.log, Session.world_report, ← hanswer]
      rfl
    rw [hlog]
    exact not_finished_append (hs.2.2 raw' hraw') rfl
  · intro s state data hstate hanswer hs
    obtain ⟨hclosed, hended⟩ := hs.unfinished
    have hlog : ((s.setWorld (q.recorded.streamRecv raw s.world).2).report raw data).log =
        s.log ++ [.received raw (.ok (data, true))] := by
      rw [Session.log, Session.world_report, ← hanswer]
      rfl
    obtain ⟨htold, hclosed, hended⟩ :=
      Told.report (s := s.setWorld (q.recorded.streamRecv raw s.world).2)
        (hread s hs.1) hstate hclosed hended data
    have hentry : ((s.setWorld (q.recorded.streamRecv raw s.world).2).report raw
        data).conn.streamStates[raw]? = some state := by
      rw [Session.getElem?_report]
      exact hstate
    have hfinished : Finished raw
        ((s.setWorld (q.recorded.streamRecv raw s.world).2).report raw data).log := by
      rw [hlog, Finished, List.any_append, List.any_cons, Record.isFinal, beq_self_eq_true]
      exact Bool.or_true _
    refine hs.rest (.ok (data, true)) hlog ?_
    exact htold.setStream_push (beq_self_eq_true raw) ⟨htold.introduced hentry hclosed, hended⟩
      ((htold.entry hentry).finish hfinished hclosed s.conn.id)
  · exact fun s state hstate hfull hflag hs => ⟨hs.1.note_push hstate hfull hflag _, hs.2⟩

/-! ## Runs -/

/-- The streams quiche reports readable are distinct and not finished, and the caller does nothing
with a stream whose StreamClosed has been pushed. -/
def LeavesFinished (q : Quiche W) (s : Session (Recorded W)) : Call → Prop
  | .pollStreams => (q.recorded.isEstablished s.world).1 = true →
    (s.readable q.recorded).Nodup ∧ ∀ raw ∈ s.readable q.recorded, ¬ Finished raw s.log
  | .sendStream streamId _ | .closeStreamWrite streamId | .resetStream streamId =>
    s.events.any (isClosedEvent streamId.asU64) = false
  | _ => True

theorem pollStreams_told {q : Quiche W} {server : Bool}
    (hserver : ∀ w, (q.isServer w).1 = server) {fuel : Nat} {s : Session (Recorded W)}
    (hs : Told server s.conn s.events s.log) (hguard : LeavesFinished q s .pollStreams) :
    Triple (fun s' => s' = s) (pollStreams q.recorded fuel)
      (fun _ s' => Told server s'.conn s'.events s'.log)
      (fun s' => Told server s'.conn s'.events s'.log) := by
  refine pollStreams_triple (P := ToldReading server)
    (R := fun raw rest => ToldReading server (raw :: rest)) (told_drains server) hs ?_
    (told_reads hserver) (fun _ hs => hs.1) (fun _ hs => hs.gcStreams)
  intro hestablished
  exact ⟨hs, hguard hestablished⟩

theorem queueWrite_told {q : Quiche W} {server : Bool}
    (hserver : ∀ w, (q.isServer w).1 = server) {fuel : Nat} {streamId : StreamId}
    {refusal : Session (Recorded W) → TransportError} {s : Session (Recorded W)}
    (hs : Told server s.conn s.events s.log)
    (hopen : s.events.any (isClosedEvent streamId.asU64) = false)
    (update : StreamRuntimeState → StreamRuntimeState)
    (hupdate : ∀ state, (update state).incomingNotified = state.incomingNotified ∧
      (update state).remoteWriteClosed = state.remoteWriteClosed ∧
      (update state).closedNotified = state.closedNotified) :
    Triple (fun s' => s' = s) (queueWrite q.recorded fuel streamId update refusal)
      (fun _ s' => Told server s'.conn s'.events s'.log)
      (fun s' => Told server s'.conn s'.events s'.log) := by
  -- whatever the write does to the entry, its flags stay and the stream has not been closed
  have hqueued : ∀ state, StreamTold server streamId.asU64 (some state) s.events s.log →
      StreamTold server streamId.asU64 (some (update state)) s.events s.log := by
    intro state hstream
    obtain ⟨hincoming, hremote, hnotified⟩ := hupdate state
    refine hstream.update (fun h => hincoming.trans h) hremote hnotified fun hany => ?_
    cases hopen.symm.trans hany
  refine Queues.queueWrite_triple ?_ (told_drains server)
  constructor
  · rintro _ _ _ _ rfl
    exact hs
  · rintro s state hstate _ rfl
    exact hs.setStream_quiet (hqueued state (hs.entry hstate))
  · rintro s hnone hlocal rfl
    have hlocalId : isLocalId server streamId.asU64 = true := by
      rw [Session.isLocal, show (q.recorded.isServer s.world).1 = server from hserver s.world.1]
        at hlocal
      exact hlocal
    have hstream := hs.streams streamId.asU64
    rw [hnone] at hstream
    refine Told.setStream_quiet (s := s.askServer q.recorded) hs (hqueued .default ?_)
    exact hstream.create hlocalId fun hany => hs.grammar.remote_of_incoming hany
  · rintro _ _ _ rfl
    exact hs

theorem openStream_told {server : Bool} :
    Keeps (fun s : Session (Recorded W) => Told server s.conn s.events s.log)
      (openStream : Method (Recorded W) StreamId) := by
  intro s hs r s' hr
  have hend : Told server s'.conn s'.events s'.log := by
    have hcounter : Told server (s.setNextStreamId (s.conn.nextLocalBidiStreamId + 4)).conn
        s.events s.log :=
      ⟨hs.grammar, (isLocalId_add_four server _).trans hs.parity, hs.streams⟩
    rw [exec_openStream] at hr
    split at hr
    · cases hr
      exact hs
    split at hr
    · cases hr
      exact hcounter
    · next hnew =>
      cases hr
      rw [Bool.not_eq_true] at hnew
      have hstream := hs.streams s.conn.nextLocalBidiStreamId
      rw [Std.ExtTreeMap.getElem?_eq_none_of_contains_eq_false hnew] at hstream
      refine hcounter.setStream_quiet ?_
      exact hstream.create hs.parity fun hany => hs.grammar.remote_of_incoming hany
  exact ⟨fun _ _ => hend, fun _ _ => hend⟩

theorem resetStream_told {q : Quiche W} {server : Bool} {streamId : StreamId}
    {s : Session (Recorded W)} (hs : Told server s.conn s.events s.log)
    (hopen : s.events.any (isClosedEvent streamId.asU64) = false) :
    Triple (fun s' => s' = s) (resetStream q.recorded streamId)
      (fun _ s' => Told server s'.conn s'.events s'.log)
      (fun s' => Told server s'.conn s'.events s'.log) := by
  have hwrite : Told server s.conn s.events (s.shut q.recorded streamId.asU64 .write).log :=
    hs.append _
  intro s₀ hs₀ r s' hr
  subst s₀
  have hend : Told server s'.conn s'.events s'.log := by
    rw [exec_resetStream] at hr
    split at hr
    · cases hr
      exact hs
    next state hstate =>
    split at hr
    · cases hr
      exact hwrite
    dsimp only at hr
    have hboth : Told server s.conn s.events
        ((s.shut q.recorded streamId.asU64 .write).shut q.recorded streamId.asU64 .read).log :=
      hwrite.append _
    split at hr
    · cases hr
      exact hboth
    next hread =>
    cases hr
    -- the read side is shut down, so the stream is finished
    have hfinished : Finished streamId.asU64
        ((s.shut q.recorded streamId.asU64 .write).shut q.recorded streamId.asU64 .read).log := by
      show Finished streamId.asU64 ((s.shut q.recorded streamId.asU64 .write).log ++
        [.shut streamId.asU64 .read (q.recorded.streamShutdown streamId.asU64 .read
          (s.shut q.recorded streamId.asU64 .write).world).1])
      rw [hread, Finished, List.any_append, List.any_cons, Record.isFinal, beq_self_eq_true]
      exact Bool.or_true _
    have hreset := (hboth.entry hstate).reset hfinished
    unfold Session.finishReset
    split
    · exact hboth.setStream_quiet hreset
    · exact hboth.setStream_push (beq_self_eq_true _) (hboth.introduced hstate hopen)
        (hreset.push_closed hfinished rfl _)
  exact ⟨fun _ _ => hend, fun _ _ => hend⟩

/-- One guarded call keeps the invariant. -/
theorem call_told [MultihashCodec] {q : Quiche W} {server : Bool}
    (hserver : ∀ w, (q.isServer w).1 = server) {fuel : Nat}
    {verifyLibp2pCertificate : Bytes → Except String PeerId} {call : Call}
    {s s' : Session (Recorded W)} {r : Except TransportError Unit}
    (hs : Told server s.conn s.events s.log) (hguard : LeavesFinished q s call)
    (hexec : Prog.exec (call.method q.recorded fuel verifyLibp2pCertificate) s = some (r, s')) :
    Told server s'.conn s'.events s'.log := by
  cases call with
  | recvPacket buf =>
    exact ((told_receives server).recvPacket_keeps verifyLibp2pCertificate buf).of_exec hs hexec
  | pollStreams => exact (pollStreams_told hserver hs hguard).of_exec rfl hexec
  | openStream =>
    exact Keeps.of_exec (Keeps.bind openStream_told fun _ => Keeps.pure _) hs hexec
  | sendStream streamId data =>
    by_cases hdata : data = []
    · subst hdata
      cases hexec
      exact hs
    · have hwrite : Prog.exec (sendStream q.recorded fuel streamId data) s = some (r, s') := hexec
      rw [sendStream_eq _ _ _ hdata] at hwrite
      exact (queueWrite_told hserver hs hguard (.queueData data)
        fun _ => ⟨rfl, rfl, rfl⟩).of_exec rfl hwrite
  | closeStreamWrite streamId =>
    have hwrite : Prog.exec (closeStreamWrite q.recorded fuel streamId) s = some (r, s') := hexec
    rw [closeStreamWrite_eq] at hwrite
    exact (queueWrite_told hserver hs hguard .queueFin fun _ => ⟨rfl, rfl, rfl⟩).of_exec rfl hwrite
  | resetStream streamId => exact (resetStream_told hs hguard).of_exec rfl hexec
  | close => exact (close_told server).of_exec hs hexec

/-- In every run in which quiche reports no finished stream readable and the caller leaves closed
streams alone, the events of every stream are in order. -/
theorem stream_event_grammar [MultihashCodec] (q : Quiche W) (server : Bool)
    (hserver : ∀ w, (q.isServer w).1 = server) (fuel : Nat)
    (verifyLibp2pCertificate : Bytes → Except String PeerId) (id : ConnectionId)
    (transport : Multiaddr) (dialed : Option PeerId) (world : W) (calls : List Call)
    (s : Session (Recorded W))
    (hguard : GuardedRun q.recorded fuel verifyLibp2pCertificate (LeavesFinished q)
      (new q.recorded id transport dialed (world, [])) calls)
    (hrun : run q.recorded fuel verifyLibp2pCertificate
      (new q.recorded id transport dialed (world, [])) calls = some s) :
    StreamGrammar server s.events := by
  have hnew : Told server (new q.recorded id transport dialed (world, [])).conn
      (new q.recorded id transport dialed (world, [])).events
      (new q.recorded id transport dialed (world, [])).log := by
    have hparity := (new_tracked (q := q.recorded) (fun w => hserver w.1) id transport dialed
      (world, [])).parity
    refine ⟨trivial, hparity, fun raw => ?_⟩
    have hnone : (new q.recorded id transport dialed (world, [])).conn.streamStates[raw]? = none :=
      Std.ExtTreeMap.getElem?_empty
    rw [hnone]
    exact ⟨by rintro _ ⟨⟩, by rintro ⟨⟩, by rintro _ ⟨⟩, by rintro _ ⟨⟩, by rintro ⟨⟩,
      by rintro ⟨⟩⟩
  have hend : Told server s.conn s.events s.log :=
    run_invariant (I := fun s => Told server s.conn s.events s.log)
      (fun s call r s' hs hcall hexec => call_told hserver hs hcall hexec) hnew hguard hrun
  exact hend.grammar

/-- A verified peer that sends a byte and the FIN on its stream 1. -/
def finQuiche : Quiche Unit :=
  { talkingQuiche with streamRecv := fun _ w => (.ok ([7], true), w) }

/-- A remote stream is announced and read to its end. -/
theorem stream_event_grammar_fin :
    ∃ s, @run _ multihashCodec finQuiche.recorded 2 (fun _ => .ok somePeer)
        (new finQuiche.recorded ⟨1⟩ ⟨[.quicV1]⟩ (some somePeer) ((), []))
        [.recvPacket [], .pollStreams] = some s ∧
      s.events.drop 1 = [.incomingStream ⟨1⟩ ⟨1⟩, .streamData ⟨1⟩ ⟨1⟩ [7],
        .streamRemoteWriteClosed ⟨1⟩ ⟨1⟩] ∧
      StreamGrammar false s.events := by
  have hevents : (@run _ multihashCodec finQuiche.recorded 2 (fun _ => .ok somePeer)
      (new finQuiche.recorded ⟨1⟩ ⟨[.quicV1]⟩ (some somePeer) ((), []))
      [.recvPacket [], .pollStreams]).map (·.events.drop 1) =
        some [.incomingStream ⟨1⟩ ⟨1⟩, .streamData ⟨1⟩ ⟨1⟩ [7],
          .streamRemoteWriteClosed ⟨1⟩ ⟨1⟩] := by decide +kernel
  obtain ⟨s, hrun, hdrop⟩ := Option.map_eq_some_iff.mp hevents
  refine ⟨s, hrun, hdrop, ?_⟩
  -- nothing has been read before the poll
  have hpoll : ∀ s : Session (Recorded Unit), s.log = [] →
      LeavesFinished finQuiche s .pollStreams := by
    intro s hlog _
    refine ⟨?_, fun raw _ hfinished => ?_⟩
    · show [(1 : UInt64)].Nodup
      decide
    · rw [hlog] at hfinished
      cases hfinished
  apply @stream_event_grammar Unit multihashCodec finQuiche false (fun _ => rfl) 2
    (fun _ => .ok somePeer) ⟨1⟩ ⟨[.quicV1]⟩ (some somePeer) () [.recvPacket [], .pollStreams] s
  · constructor
    · trivial
    · intro r s hexec
      cases hexec
      exact ⟨hpoll _ rfl, fun _ _ _ => trivial⟩
  · exact hrun

end Minip2p.Quic
