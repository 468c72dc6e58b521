import Minip2p.Quic.Records

/-!
# The end of a stream that the remote ends abnormally

When quiche fails to read a stream, for example because the remote has reset it, `poll_streams`
reports an Error of the connection and leaves the stream as it is. So the end of the stream is
reported, and the remote's side recorded as closed, exactly when that was already so before the
poll or the poll also read a FIN (`endReported_iff`).
-/

namespace Minip2p.Quic

variable {W : Type}

/-- Whether an event tells that the remote's side of the stream has ended. -/
def isEndEvent (raw : UInt64) : TransportEvent → Bool
  | .streamRemoteWriteClosed _ streamId | .streamClosed _ streamId => streamId.asU64 == raw
  | _ => false

/-- The end of the stream has been reported, and its entry is gone or has the remote's side
closed. -/
def EndReported (raw : UInt64) (s : Session W) : Prop :=
  s.events.any (isEndEvent raw) = true ∧
    ∀ state, s.conn.streamStates[raw]? = some state → state.remoteWriteClosed = true

/-! ## What is recorded has been reported -/

/-- A stream that is reported closed has the remote's side closed, and then its end is among
`events`. -/
def EndsIn (events : List TransportEvent) (s : Session W) : Prop :=
  ∀ raw state, s.conn.streamStates[raw]? = some state →
    (state.closedNotified = true → state.remoteWriteClosed = true) ∧
      (state.remoteWriteClosed = true → events.any (isEndEvent raw) = true)

/-- Whatever is recorded as closed by the remote has been reported. -/
def EndsReported (s : Session W) : Prop := EndsIn s.events s

namespace EndsIn

variable {events : List TransportEvent} {s : Session W} (h : EndsIn events s)

include h

theorem setStream {raw : UInt64} {state : StreamRuntimeState}
    (hclosed : state.closedNotified = true → state.remoteWriteClosed = true)
    (hremote : state.remoteWriteClosed = true → events.any (isEndEvent raw) = true) :
    EndsIn events (s.setStream raw state) := by
  intro raw' state' hstate'
  by_cases hraw : raw' = raw
  · subst hraw
    rw [Session.getElem?_setStream_self] at hstate'
    cases hstate'
    exact ⟨hclosed, hremote⟩
  · rw [Session.getElem?_setStream_of_ne s hraw] at hstate'
    exact h raw' state' hstate'

/-- An entry is written back with its closing flags as they were. -/
theorem update {raw : UInt64} {state : StreamRuntimeState}
    (hclosed : state.closedNotified = (s.stream raw).closedNotified)
    (hremote : state.remoteWriteClosed = (s.stream raw).remoteWriteClosed) :
    EndsIn events (s.setStream raw state) := by
  cases hentry : s.conn.streamStates[raw]? with
  | none =>
    rw [Session.stream_of_none hentry] at hclosed hremote
    exact h.setStream (fun hc => by rw [hclosed] at hc; cases hc)
      (fun hr => by rw [hremote] at hr; cases hr)
  | some old =>
    rw [Session.stream_of_getElem? hentry] at hclosed hremote
    exact h.setStream (fun hc => hremote.trans ((h raw old hentry).1 (hclosed ▸ hc)))
      (fun hr => (h raw old hentry).2 (hremote ▸ hr))

theorem mono {events' : List TransportEvent}
    (hsub : ∀ raw, events.any (isEndEvent raw) = true → events'.any (isEndEvent raw) = true) :
    EndsIn events' s :=
  fun raw state hstate => ⟨(h raw state hstate).1, fun hr => hsub raw ((h raw state hstate).2 hr)⟩

theorem note {raw : UInt64} {state : StreamRuntimeState}
    (hstate : s.conn.streamStates[raw]? = some state) (hfull : state.isFullyClosed = true) :
    EndsIn events (s.setStream raw { state with closedNotified := true }) := by
  rw [StreamRuntimeState.isFullyClosed, Bool.and_eq_true] at hfull
  exact h.setStream (fun _ => hfull.2) (h raw state hstate).2

end EndsIn

theorem EndsReported.push {s : Session W} (h : EndsReported s) (event : TransportEvent) :
    EndsReported (s.push event) :=
  EndsIn.mono (s := s.push event) h fun _ hany => any_push hany event

theorem endsIn_stable (events : List TransportEvent) : Stable (EndsIn (W := W) events) where
  world _ _ hs := hs
  writes s raw state _ hstate hs := by
    have hstream : s.stream raw = state := Session.stream_of_getElem? hstate
    exact hs.update (by rw [hstream]) (by rw [hstream])
  note s raw state hstate hfull _ hs := hs.note hstate hfull

theorem endsReported_steady : Steady (EndsReported (W := W)) where
  world _ _ hs := hs
  writes s := (endsIn_stable s.events).writes s
  note s raw state hstate hfull _ hs := EndsReported.push (EndsIn.note hs hstate hfull) _
  fresh s raw hs := EndsIn.setStream hs (by rintro ⟨⟩) (by rintro ⟨⟩)
  closeWrite s raw state _ hstate hs := by
    have hstream : s.stream raw = state := Session.stream_of_getElem? hstate
    exact EndsIn.update hs (by rw [hstream]) (by rw [hstream])
  nextStreamId _ _ hs := hs
  gc s hs raw state hstate := hs raw state (BTreeMap.getElem?_filter_eq_some_iff.mp hstate).1
  error s message hs := hs.push _

theorem endsReported_receives {q : Quiche W} : Receives q (EndsReported (W := W)) where
  toDrains := endsReported_steady.toStable.drains
  state _ _ hs := hs
  cert _ _ hs := hs
  peer _ _ hs := hs
  event _ e _ hs := hs.push e

theorem endsReported_reads {q : Quiche W} (raw : UInt64) :
    Reads q raw EndsReported EndsReported EndsReported := by
  have hreport : ∀ (s : Session W) data, EndsReported s → EndsReported (s.report raw data) := by
    intro s data hs
    unfold Session.report
    split
    · exact hs
    · exact hs.push _
  constructor
  · intro s hs
    unfold Session.discover
    split
    · apply EndsReported.push
      exact EndsIn.update (s := s.askServer q) hs rfl rfl
    · exact EndsIn.update (s := s.askServer q) hs rfl rfl
  · exact fun s _ _ _ hs => hs
  · exact fun s _ _ _ _ _ hs => EndsReported.push hs _
  · exact fun s _ data _ _ hs => hreport (s.setWorld _) data hs
  · intro s state data _ _ hs
    have hread := hreport (s.setWorld (q.streamRecv raw s.world).2) data hs
    -- the flag and the event come together
    refine EndsIn.setStream (s := Session.push _ _) (EndsReported.push hread _) (fun _ => rfl)
      fun _ => ?_
    exact any_push_self _ (beq_self_eq_true _)
  · exact fun s state => endsReported_steady.note s raw state

theorem endsReported_resetStream {q : Quiche W} (streamId : StreamId) :
    Keeps (EndsReported (W := W)) (resetStream q streamId) := by
  intro s hs r s' hr
  have hend : EndsReported s' := by
    rw [exec_resetStream] at hr
    split at hr
    · cases hr
      exact hs
    next state hstate =>
    split at hr
    · cases hr
      exact hs
    dsimp only at hr
    split at hr
    · cases hr
      exact hs
    cases hr
    unfold Session.finishReset
    split
    · next hclosed =>
      -- a stream that was reported closed before has been reported
      exact EndsIn.setStream hs (fun _ => rfl)
        fun _ => (hs _ state hstate).2 ((hs _ state hstate).1 hclosed)
    · refine EndsIn.setStream (s := Session.push _ _) (EndsReported.push hs _) (fun _ => rfl)
        fun _ => ?_
      exact any_push_self _ (beq_self_eq_true _)
  exact ⟨fun _ _ => hend, fun _ _ => hend⟩

theorem endsReported_close {q : Quiche W} {fuel : Nat} :
    Keeps (EndsReported (W := W)) (close q fuel) := by
  intro s hs
  exact close_triple (D := EndsIn s.events) endsReported_steady.toStable.drains
    (endsIn_stable s.events).drains hs (fun _ _ => hs) (fun _ hs => hs) s rfl

theorem endsReported_pollStreams {q : Quiche W} {fuel : Nat} :
    Keeps (EndsReported (W := W)) (pollStreams q fuel) := by
  have hdrains : Drains q (EndsReported (W := W)) := endsReported_steady.toStable.drains
  intro s hs
  exact pollStreams_triple (P := fun _ => EndsReported) (R := fun _ _ => EndsReported) hdrains hs
    (fun _ => hdrains.polled hs) (fun raw _ => endsReported_reads raw) (fun _ hs => hs)
    endsReported_steady.gc s rfl

/-- In every run, whatever is recorded as closed by the remote has been reported. -/
theorem run_endsReported [MultihashCodec] {q : Quiche W} {fuel : Nat}
    {verifyLibp2pCertificate : Bytes → Except String PeerId} {s s' : Session W}
    {calls : List Call} (hs : EndsReported s)
    (hrun : run q fuel verifyLibp2pCertificate s calls = some s') : EndsReported s' := by
  have hany : ∀ (calls : List Call) (s : Session W),
      GuardedRun q fuel verifyLibp2pCertificate (fun _ _ => True) s calls := by
    intro calls
    induction calls with
    | nil => exact fun _ => trivial
    | cons call calls ih => exact fun s => ⟨trivial, fun _ s' _ => ih s'⟩
  refine run_invariant ?_ hs (hany calls s) hrun
  intro s call r s' hs _ hexec
  cases call with
  | recvPacket buf => exact (endsReported_receives.recvPacket_keeps _ buf).of_exec hs hexec
  | pollStreams => exact endsReported_pollStreams.of_exec hs hexec
  | openStream =>
    exact Keeps.of_exec (Keeps.bind endsReported_steady.openStream_keeps fun _ => Keeps.pure _)
      hs hexec
  | sendStream streamId data => exact (endsReported_steady.sendStream_keeps _ _).of_exec hs hexec
  | closeStreamWrite streamId =>
    exact (endsReported_steady.closeStreamWrite_keeps _).of_exec hs hexec
  | resetStream streamId => exact (endsReported_resetStream streamId).of_exec hs hexec
  | close => exact endsReported_close.of_exec hs hexec

/-! ## One poll -/

/-- Whether a call is a read of the stream. -/
def Record.isRead (raw : UInt64) : Record → Bool
  | .received raw' _ => raw' == raw
  | _ => false

/-- Whether a call is a read of the stream that brought the remote's FIN. -/
def Record.isFinRead (raw : UInt64) : Record → Bool
  | .received raw' (.ok (_, fin)) => fin && raw' == raw
  | _ => false

/-- The remote's side of the stream is recorded as closed, and its end has been reported. -/
def EndRecorded (raw : UInt64) (s : Session W) : Prop :=
  s.events.any (isEndEvent raw) = true ∧
    ∃ state, s.conn.streamStates[raw]? = some state ∧ state.remoteWriteClosed = true

/-- No FIN was read among the calls `added`, and the stream is open on the remote's side; if it
was read at all it has an entry. -/
structure StillOpen (raw : UInt64) (added : List Record) (s : Session (Recorded W)) : Prop where
  noFin : ∀ r ∈ added, r.isFinRead raw = false
  remote : (s.stream raw).remoteWriteClosed = false
  notified : (s.stream raw).closedNotified = false
  entry : ∀ r ∈ added, r.isRead raw = true → ∃ state, s.conn.streamStates[raw]? = some state

/-- Where a poll that started with the record `log` stands: the remote's side was closed before or
a FIN has been read since, and then `C` holds; or the stream is still open. -/
def PollState (C : Session (Recorded W) → Prop) (raw : UInt64) (log : List Record)
    (already : Prop) (s : Session (Recorded W)) : Prop :=
  ∃ added, s.log = log ++ added ∧
    (((already ∨ ∃ r ∈ added, r.isFinRead raw = true) ∧ C s) ∨
      (¬ already ∧ StillOpen raw added s))

/-- A change with no FIN of the stream. -/
theorem PollState.mono {C C' : Session (Recorded W) → Prop} {raw : UInt64} {log : List Record}
    {already : Prop} {s s' : Session (Recorded W)} (h : PollState C raw log already s)
    (extra : List Record) (hlog : s'.log = s.log ++ extra)
    (hextra : ∀ r ∈ extra, r.isFinRead raw = false) (hC : C s → C' s')
    (hremote : (s'.stream raw).remoteWriteClosed = (s.stream raw).remoteWriteClosed)
    (hnotified : (s'.stream raw).closedNotified = (s.stream raw).closedNotified)
    (hentry : (∃ state, s.conn.streamStates[raw]? = some state) ∨
      (∃ r ∈ extra, r.isRead raw = true) →
      ∃ state, s'.conn.streamStates[raw]? = some state) :
    PollState C' raw log already s' := by
  obtain ⟨added, heq, hcase⟩ := h
  refine ⟨added ++ extra, by rw [hlog, heq, List.append_assoc], ?_⟩
  rcases hcase with ⟨hfin, hs⟩ | ⟨hnot, hopen⟩
  · refine .inl ⟨hfin.imp_right ?_, hC hs⟩
    rintro ⟨r, hr, hisFin⟩
    exact ⟨r, List.mem_append_left _ hr, hisFin⟩
  · refine .inr ⟨hnot, ?_, hremote.trans hopen.remote, hnotified.trans hopen.notified, ?_⟩
    · intro r hr
      exact (List.mem_append.mp hr).elim (hopen.noFin r) (hextra r)
    · intro r hr hread
      rcases List.mem_append.mp hr with hr | hr
      · exact hentry (.inl (hopen.entry r hr hread))
      · exact hentry (.inr ⟨r, hr, hread⟩)

/-- An entry that is written back with the remote's side as it was. -/
theorem EndReported.setStream {raw raw' : UInt64} {s : Session W} {old state : StreamRuntimeState}
    (h : EndReported raw s) (hold : s.conn.streamStates[raw']? = some old)
    (hremote : state.remoteWriteClosed = old.remoteWriteClosed) :
    EndReported raw (s.setStream raw' state) := by
  refine ⟨h.1, fun new hnew => ?_⟩
  by_cases hraw : raw = raw'
  · subst hraw
    rw [Session.getElem?_setStream_self] at hnew
    cases hnew
    exact hremote.trans (h.2 old hold)
  · rw [Session.getElem?_setStream_of_ne s hraw] at hnew
    exact h.2 new hnew

theorem EndReported.push {raw : UInt64} {s : Session W} (h : EndReported raw s)
    (event : TransportEvent) : EndReported raw (s.push event) := ⟨any_push h.1 event, h.2⟩

theorem EndReported.gcStreams {raw : UInt64} {s : Session W} (h : EndReported raw s) :
    EndReported raw s.gcStreams :=
  ⟨h.1, fun state hstate => h.2 state (BTreeMap.getElem?_filter_eq_some_iff.mp hstate).1⟩

/-- An entry that is written back for the stream, with the remote's side as it was or closed. -/
theorem EndRecorded.setStream {raw raw' : UInt64} {s : Session W} {state : StreamRuntimeState}
    (h : EndRecorded raw s)
    (hremote : state.remoteWriteClosed = (s.stream raw').remoteWriteClosed ∨
      state.remoteWriteClosed = true) : EndRecorded raw (s.setStream raw' state) := by
  obtain ⟨hany, old, hold, hclosed⟩ := h
  refine ⟨hany, ?_⟩
  by_cases hraw : raw = raw'
  · subst hraw
    rw [Session.stream_of_getElem? hold] at hremote
    exact ⟨state, Session.getElem?_setStream_self s raw state,
      hremote.elim (fun heq => heq.trans hclosed) id⟩
  · exact ⟨old, (Session.getElem?_setStream_of_ne s hraw state).trans hold, hclosed⟩

theorem EndRecorded.push {raw : UInt64} {s : Session W} (h : EndRecorded raw s)
    (event : TransportEvent) : EndRecorded raw (s.push event) := ⟨any_push h.1 event, h.2⟩

theorem EndRecorded.report {raw : UInt64} {s : Session W} (h : EndRecorded raw s) (raw' : UInt64)
    (data : Bytes) : EndRecorded raw (s.report raw' data) := by
  unfold Session.report
  split
  · exact h
  · exact h.push _

theorem EndRecorded.endReported {raw : UInt64} {s : Session W} (h : EndRecorded raw s) :
    EndReported raw s := by
  obtain ⟨hany, old, hold, hclosed⟩ := h
  refine ⟨hany, fun state hstate => ?_⟩
  rw [hold] at hstate
  cases hstate
  exact hclosed

/-- The notice of a closed stream: an open one gets none. -/
theorem PollState.note {C : Session (Recorded W) → Prop} {raw raw' : UInt64} {log : List Record}
    {already : Prop} {s : Session (Recorded W)} {state : StreamRuntimeState}
    (h : PollState C raw log already s) (hstate : s.conn.streamStates[raw']? = some state)
    (hfull : state.isFullyClosed = true)
    (hC : C s → C ((s.setStream raw' { state with closedNotified := true }).push
      (.streamClosed s.conn.id ⟨raw'⟩))) :
    PollState C raw log already ((s.setStream raw' { state with closedNotified := true }).push
      (.streamClosed s.conn.id ⟨raw'⟩)) := by
  by_cases hraw : raw = raw'
  · subst hraw
    obtain ⟨added, hlog, ⟨hfin, hend⟩ | ⟨-, hopen⟩⟩ := h
    · exact ⟨added, hlog, .inl ⟨hfin, hC hend⟩⟩
    · have hremote := hopen.remote
      rw [StreamRuntimeState.isFullyClosed, Bool.and_eq_true] at hfull
      rw [Session.stream_of_getElem? hstate, hfull.2] at hremote
      cases hremote
  · have hother : (s.setStream raw' { state with closedNotified := true }).stream raw =
        s.stream raw := Session.stream_setStream_of_ne s hraw _
    exact h.mono [] (List.append_nil _).symm (by rintro _ ⟨⟩) hC
      (congrArg (·.remoteWriteClosed) hother) (congrArg (·.closedNotified) hother)
      fun hentry => hentry.elim Session.exists_setStream (by rintro ⟨_, ⟨⟩, _⟩)

theorem pollState_drains {q : Quiche W} (raw : UInt64) (log : List Record) (already : Prop) :
    Drains q.recorded (PollState (EndReported raw) raw log already) where
  silent s w hsilent hs := by
    refine hs.mono [] ?_ (by rintro _ ⟨⟩) id rfl rfl (fun h => h.elim id ?_)
    · rw [List.append_nil]
      exact hsilent.snd_eq
    · rintro ⟨_, ⟨⟩, _⟩
  offer s raw' state pending rest _ _ _ hs := by
    refine hs.mono [.sent ..] rfl ?_ id rfl rfl (fun h => h.elim id ?_)
    · intro r hr
      rw [List.mem_singleton.mp hr]
      rfl
    · rintro ⟨r, hr, hread⟩
      rw [List.mem_singleton.mp hr] at hread
      cases hread
  write s raw' state pending rest written pendingWrites hstate _ _ _ hs := by
    have hstream : s.stream raw' = state := Session.stream_of_getElem? hstate
    have hsame : ∀ {w : Recorded W}, ((s.setWorld w).setStream raw' { state with pendingWrites }
        |>.stream raw).remoteWriteClosed = (s.stream raw).remoteWriteClosed ∧
        ((s.setWorld w).setStream raw' { state with pendingWrites }
        |>.stream raw).closedNotified = (s.stream raw).closedNotified := by
      intro w
      by_cases hraw : raw = raw'
      · subst hraw
        rw [Session.stream_setStream_self, hstream]
        exact ⟨rfl, rfl⟩
      · rw [Session.stream_setStream_of_ne _ hraw]
        exact ⟨rfl, rfl⟩
    refine hs.mono [.sent ..] rfl ?_ ?_ hsame.1 hsame.2 (fun h => ?_)
    · intro r hr
      rw [List.mem_singleton.mp hr]
      rfl
    · intro hend
      exact EndReported.setStream (s := s.setWorld _) hend hstate rfl
    · rcases h with h | ⟨r, hr, hread⟩
      · exact Session.exists_setStream (s := s.setWorld _) h
      · rw [List.mem_singleton.mp hr] at hread
        cases hread
  note s raw' state hstate hfull _ hs := by
    refine hs.note hstate hfull fun hend => ?_
    apply EndReported.push
    exact hend.setStream hstate rfl

namespace PollState

variable {raw : UInt64} {log : List Record} {already : Prop} {s : Session (Recorded W)}
  (h : PollState (EndRecorded raw) raw log already s)

include h

theorem push (event : TransportEvent) :
    PollState (EndRecorded raw) raw log already (s.push event) :=
  h.mono [] (List.append_nil _).symm (by rintro _ ⟨⟩) (fun hs => hs.push event) rfl rfl
    fun hentry => hentry.elim id (by rintro ⟨_, ⟨⟩, _⟩)

theorem report (raw' : UInt64) (data : Bytes) :
    PollState (EndRecorded raw) raw log already (s.report raw' data) := by
  unfold Session.report
  split
  · exact h
  · exact h.push _

/-- An entry is written back with its closing flags as they were. -/
theorem setStream {raw' : UInt64} {state : StreamRuntimeState}
    (hremote : state.remoteWriteClosed = (s.stream raw').remoteWriteClosed)
    (hnotified : state.closedNotified = (s.stream raw').closedNotified) :
    PollState (EndRecorded raw) raw log already (s.setStream raw' state) := by
  refine h.mono [] (List.append_nil _).symm (by rintro _ ⟨⟩)
    (fun hs => hs.setStream (.inl hremote)) ?_ ?_
    fun hentry => hentry.elim Session.exists_setStream (by rintro ⟨_, ⟨⟩, _⟩)
  all_goals
    by_cases hraw : raw = raw'
    · subst hraw
      rw [Session.stream_setStream_self]
      assumption
    · rw [Session.stream_setStream_of_ne s hraw]

/-- A read of a stream with an entry. -/
theorem read {q : Quiche W} {raw' : UInt64} {state : StreamRuntimeState}
    (hstate : s.conn.streamStates[raw']? = some state)
    (hnoFin : (Record.received raw' (q.recorded.streamRecv raw' s.world).1).isFinRead raw = false) :
    PollState (EndRecorded raw) raw log already
      (s.setWorld (q.recorded.streamRecv raw' s.world).2) := by
  refine h.mono [.received raw' (q.recorded.streamRecv raw' s.world).1] rfl ?_ id rfl rfl
    (fun hentry => hentry.elim id ?_)
  · intro r hr
    rw [List.mem_singleton.mp hr]
    exact hnoFin
  · rintro ⟨r, hr, hisRead⟩
    rw [List.mem_singleton.mp hr, Record.isRead, beq_iff_eq] at hisRead
    exact ⟨state, hisRead ▸ hstate⟩

end PollState

theorem pollState_reads {q : Quiche W} (raw raw' : UInt64) (log : List Record) (already : Prop) :
    Reads q.recorded raw' (PollState (EndRecorded raw) raw log already)
      (PollState (EndRecorded raw) raw log already)
      (PollState (EndRecorded raw) raw log already) := by
  constructor
  · intro s hs
    have hasked : PollState (EndRecorded raw) raw log already (s.askServer q.recorded) :=
      hs.mono [] (List.append_nil _).symm (by rintro _ ⟨⟩) id rfl rfl
        fun hentry => hentry.elim id (by rintro ⟨_, ⟨⟩, _⟩)
    unfold Session.discover
    split
    · apply PollState.push
      exact hasked.setStream rfl rfl
    · exact hasked.setStream rfl rfl
  · intro s state hstate hanswer hs
    exact hs.read hstate (by rw [hanswer]; rfl)
  · intro s state e message hstate hanswer hs
    exact (hs.read hstate (by rw [hanswer]; rfl)).push _
  · intro s state data hstate hanswer hs
    exact (hs.read hstate (by rw [hanswer]; rfl)).report raw' data
  · intro s state data hstate hanswer hs
    by_cases hraw : raw = raw'
    · -- the FIN of the stream: the flag is set and the end is reported
      subst hraw
      obtain ⟨added, hlog, -⟩ := hs
      have hread : (s.setWorld (q.recorded.streamRecv raw s.world).2).log =
          log ++ (added ++ [.received raw (.ok (data, true))]) := by
        show s.log ++ [.received raw (q.recorded.streamRecv raw s.world).1] = _
        rw [hlog, hanswer, List.append_assoc]
      have hisFin : (Record.received raw (.ok (data, true))).isFinRead raw = true := by
        rw [Record.isFinRead, beq_self_eq_true, Bool.and_true]
      refine ⟨added ++ [.received raw (.ok (data, true))], ?_, .inl ⟨.inr ⟨_,
        List.mem_append_right _ List.mem_cons_self, hisFin⟩, ?_, ?_⟩⟩
      · rw [← hread]
        exact congrArg Prod.snd (Session.world_report _ raw data)
      · exact any_push_self _ (beq_self_eq_true _)
      · exact ⟨_, Session.getElem?_setStream_self _ _ _, rfl⟩
    · have hother : (Record.received raw' (q.recorded.streamRecv raw' s.world).1).isFinRead raw =
          false := by
        rw [hanswer, Record.isFinRead, beq_false_of_ne (Ne.symm hraw), Bool.and_false]
      have hreported := (hs.read hstate hother).report raw' data
      apply PollState.push
      refine hreported.mono [] (List.append_nil _).symm (by rintro _ ⟨⟩)
        (fun hend => hend.setStream (.inr rfl)) ?_ ?_
        fun hentry => hentry.elim Session.exists_setStream (by rintro ⟨_, ⟨⟩, _⟩)
      all_goals rw [Session.stream_setStream_of_ne _ hraw]
  · intro s state hstate hfull _ hs
    refine hs.note hstate hfull fun hend => ?_
    apply EndRecorded.push
    exact hend.setStream (.inl (by rw [Session.stream_of_getElem? hstate]))

/-- A stream that is open is not collected. -/
theorem PollState.gcStreams {raw : UInt64} {log : List Record} {already : Prop}
    {s : Session (Recorded W)} (h : PollState (EndReported raw) raw log already s) :
    PollState (EndReported raw) raw log already s.gcStreams := by
  obtain ⟨added, hlog, ⟨hfin, hend⟩ | ⟨hnot, hopen⟩⟩ := h
  · exact ⟨added, hlog, .inl ⟨hfin, hend.gcStreams⟩⟩
  · have hstream := Session.stream_gcStreams hopen.notified
    refine ⟨added, hlog, .inr ⟨hnot, hopen.noFin, hstream ▸ hopen.remote,
      hstream ▸ hopen.notified, fun r hr hread => ?_⟩⟩
    obtain ⟨state, hstate⟩ := hopen.entry r hr hread
    exact ⟨state, Session.getElem?_gcStreams hstate
      (Session.stream_of_getElem? hstate ▸ hopen.notified)⟩

/-- A stream is recorded as ended and reported, or it is open. -/
theorem EndsReported.cases {s : Session (Recorded W)} (h : EndsReported s) (raw : UInt64) :
    ((s.stream raw).remoteWriteClosed = true ∧ EndRecorded raw s) ∨
      (¬ (s.stream raw).remoteWriteClosed = true ∧ StillOpen raw [] s) := by
  cases hentry : s.conn.streamStates[raw]? with
  | none =>
    have hstream := Session.stream_of_none hentry
    refine .inr ⟨?_, by rintro _ ⟨⟩, ?_, ?_, by rintro _ ⟨⟩⟩
    all_goals
      rw [hstream]
      decide
  | some state =>
    have hstream : s.stream raw = state := Session.stream_of_getElem? hentry
    obtain ⟨hclosed, hreported⟩ := h raw state hentry
    rw [hstream]
    by_cases hremote : state.remoteWriteClosed = true
    · exact .inl ⟨hremote, hreported hremote, state, hentry, hremote⟩
    · refine .inr ⟨hremote, by rintro _ ⟨⟩, ?_, ?_, by rintro _ ⟨⟩⟩
      · rw [hstream]
        exact Bool.eq_false_iff.mpr hremote
      · rw [hstream]
        exact Bool.eq_false_iff.mpr fun hc => hremote (hclosed hc)

theorem pollStreams_pollState {q : Quiche W} {fuel : Nat} {s : Session (Recorded W)}
    (hs : EndsReported s) (raw : UInt64) :
    Triple (fun s' => s' = s) (pollStreams q.recorded fuel)
      (fun _ => PollState (EndReported raw) raw s.log ((s.stream raw).remoteWriteClosed = true))
      (PollState (EndReported raw) raw s.log ((s.stream raw).remoteWriteClosed = true)) := by
  have hstart : ∀ w : Recorded W, w.2 = s.world.2 → PollState (EndRecorded raw) raw s.log
      ((s.stream raw).remoteWriteClosed = true) (s.setWorld w) := by
    intro w hw
    refine ⟨[], ?_, (hs.cases raw).imp (fun h => ⟨.inl h.1, h.2⟩) fun h => ⟨h.1, ?_⟩⟩
    · rw [List.append_nil]
      exact hw
    · exact ⟨h.2.noFin, h.2.remote, h.2.notified, h.2.entry⟩
  have hweaken : ∀ s' : Session (Recorded W), PollState (EndRecorded raw) raw s.log
      ((s.stream raw).remoteWriteClosed = true) s' →
      PollState (EndReported raw) raw s.log ((s.stream raw).remoteWriteClosed = true) s' :=
    fun s' h => h.mono [] (List.append_nil _).symm (by rintro _ ⟨⟩)
      (fun hend => hend.endReported) rfl rfl
      fun hentry => hentry.elim id (by rintro ⟨_, ⟨⟩, _⟩)
  exact pollStreams_triple
    (P := fun _ => PollState (EndRecorded raw) raw s.log ((s.stream raw).remoteWriteClosed = true))
    (R := fun _ _ =>
      PollState (EndRecorded raw) raw s.log ((s.stream raw).remoteWriteClosed = true))
    (pollState_drains raw s.log _) (hweaken s (hstart s.world rfl)) (fun _ => hstart _ rfl)
    (fun raw' _ => pollState_reads raw raw' s.log _) hweaken fun _ hs' => hs'.gcStreams

/-- The end of a stream whose read fails in a poll is reported exactly when the remote's side was
recorded as closed before the poll, or the poll also read the remote's FIN. -/
theorem endReported_iff [MultihashCodec] (q : Quiche W) (fuel : Nat)
    (verifyLibp2pCertificate : Bytes → Except String PeerId) (id : ConnectionId)
    (transport : Multiaddr) (dialed : Option PeerId) (world : W) (calls : List Call)
    (s s' : Session (Recorded W)) (r : Except TransportError Unit) (added : List Record)
    (raw : UInt64) (e : String)
    (hrun : run q.recorded fuel verifyLibp2pCertificate
      (new q.recorded id transport dialed (world, [])) calls = some s)
    (hpoll : Prog.exec (pollStreams q.recorded fuel) s = some (r, s'))
    (hlog : s'.log = s.log ++ added) (hfailed : .received raw (.error (.other e)) ∈ added) :
    EndReported raw s' ↔ (s.stream raw).remoteWriteClosed = true ∨
      ∃ data, .received raw (.ok (data, true)) ∈ added := by
  have hnew : EndsReported (new q.recorded id transport dialed (world, [])) := by
    intro raw' state hstate
    rw [new, Std.ExtTreeMap.getElem?_empty] at hstate
    cases hstate
  have hends : EndsReported s := run_endsReported hnew hrun
  obtain ⟨added', heq, hcase⟩ := (pollStreams_pollState hends raw).of_exec rfl hpoll
  obtain rfl : added' = added := List.append_cancel_left (heq.symm.trans hlog)
  have hfin : ∀ r : Record, r.isFinRead raw = true →
      ∃ data, r = .received raw (.ok (data, true)) := by
    intro r hr
    cases r with
    | received raw' answer =>
      cases answer with
      | error e => cases hr
      | ok read =>
        obtain ⟨data, fin⟩ := read
        rw [Record.isFinRead, Bool.and_eq_true, beq_iff_eq] at hr
        exact ⟨data, by rw [hr.1, hr.2]⟩
    | _ => cases hr
  rcases hcase with ⟨hclosed, hend⟩ | ⟨hnot, hopen⟩
  · refine iff_of_true hend (hclosed.imp_right ?_)
    rintro ⟨x, hx, hisFin⟩
    obtain ⟨data, rfl⟩ := hfin x hisFin
    exact ⟨data, hx⟩
  · refine iff_of_false (fun hend => ?_) ?_
    · -- the stream was read, so it has an entry, and its flag is not set
      obtain ⟨state, hstate⟩ := hopen.entry _ hfailed (beq_self_eq_true raw)
      have hremote := hopen.remote
      rw [Session.stream_of_getElem? hstate, hend.2 state hstate] at hremote
      cases hremote
    · rintro (halready | ⟨data, hmem⟩)
      · exact hnot halready
      · have hnone := hopen.noFin _ hmem
        rw [Record.isFinRead, beq_self_eq_true] at hnone
        cases hnone

/-- A verified peer that has reset its stream 1. -/
def resetQuiche : Quiche Unit :=
  { talkingQuiche with streamRecv := fun _ w => (.error (.other "StreamReset(0)"), w) }

/-- A poll that meets the reset of stream 1. -/
theorem exists_reset_poll :
    ∃ s s' r, @run _ multihashCodec resetQuiche.recorded 2 (fun _ => .ok somePeer)
        (new resetQuiche.recorded ⟨1⟩ ⟨[.quicV1]⟩ (some somePeer) ((), [])) [.recvPacket []] =
          some s ∧
      Prog.exec (pollStreams resetQuiche.recorded 2) s = some (r, s') ∧
      s'.log = s.log ++ [.received 1 (.error (.other "StreamReset(0)"))] ∧
      s'.events.any (isEndEvent 1) = false :=
  ⟨_, _, _, rfl, rfl, rfl, rfl⟩

/-- The reset of stream 1 is not reported as its end. -/
theorem reset_by_remote_not_reported :
    ∃ s s' r, @run _ multihashCodec resetQuiche.recorded 2 (fun _ => .ok somePeer)
        (new resetQuiche.recorded ⟨1⟩ ⟨[.quicV1]⟩ (some somePeer) ((), [])) [.recvPacket []] =
          some s ∧
      Prog.exec (pollStreams resetQuiche.recorded 2) s = some (r, s') ∧
      s'.log = s.log ++ [.received 1 (.error (.other "StreamReset(0)"))] ∧
      s'.events.any (isEndEvent 1) = false ∧ ¬ EndReported 1 s' := by
  obtain ⟨s, s', r, hrun, hpoll, hlog, hevents⟩ := exists_reset_poll
  refine ⟨s, s', r, hrun, hpoll, hlog, hevents, fun h => ?_⟩
  rw [h.1] at hevents
  cases hevents

/-- Neither side of the equivalence holds of the reset stream 1. -/
theorem endReported_iff_reset :
    ∃ s s' r, @run _ multihashCodec resetQuiche.recorded 2 (fun _ => .ok somePeer)
        (new resetQuiche.recorded ⟨1⟩ ⟨[.quicV1]⟩ (some somePeer) ((), [])) [.recvPacket []] =
          some s ∧
      Prog.exec (pollStreams resetQuiche.recorded 2) s = some (r, s') ∧
      (EndReported 1 s' ↔ (s.stream 1).remoteWriteClosed = true ∨
        ∃ data, .received 1 (.ok (data, true)) ∈
          [Record.received 1 (.error (.other "StreamReset(0)"))]) := by
  obtain ⟨s, s', r, hrun, hpoll, hlog, -⟩ := exists_reset_poll
  refine ⟨s, s', r, hrun, hpoll, ?_⟩
  exact @endReported_iff Unit multihashCodec resetQuiche 2 (fun _ => .ok somePeer) ⟨1⟩
    ⟨[.quicV1]⟩ (some somePeer) () [.recvPacket []] s s' r
    [.received 1 (.error (.other "StreamReset(0)"))] 1 "StreamReset(0)" hrun hpoll hlog
    List.mem_cons_self

end Minip2p.Quic
