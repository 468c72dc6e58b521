import Minip2p.Quic.IdentityGate

/-!
# Rules for the methods of a QUIC connection

What the methods do to a stream, as functions of the session, and one rule for each method: an
invariant that survives every single change the method can make survives the method. Draining and
flushing have their rule in `Drains`; here are the rules for packets (`Receives`), for reading
streams (`Reads`), for queueing writes and for the methods without a loop.
-/

namespace Minip2p.Quic

variable {W : Type}

namespace Session

/-- The entry of a stream; one that is not there counts as new. -/
def stream (s : Session W) (raw : UInt64) : StreamRuntimeState :=
  (s.conn.streamStates[raw]?).getD .default

/-- Whether a stream id is of this side's parity. -/
def isLocal (q : Quiche W) (s : Session W) (raw : UInt64) : Bool :=
  (raw &&& 0x1) == (if (q.isServer s.world).1 then 1 else 0)

/-- `is_server` has been asked. -/
def askServer (q : Quiche W) (s : Session W) : Session W := s.setWorld (q.isServer s.world).2

/-- The bytes of one read are reported, if there are any. -/
def report (s : Session W) (raw : UInt64) (data : Bytes) : Session W :=
  if data.isEmpty then s else s.push (.streamData s.conn.id ⟨raw⟩ data)

/-- The entry of a readable stream is there, and a remote one has been announced. -/
def discover (s : Session W) (isLocal : Bool) (raw : UInt64) : Session W :=
  if !isLocal && !(s.stream raw).incomingNotified then
    (s.setStream raw { s.stream raw with incomingNotified := true }).push
      (.incomingStream s.conn.id ⟨raw⟩)
  else s.setStream raw (s.stream raw)

/-! ## Lookups after an update -/

@[simp] theorem getElem?_setStream_self (s : Session W) (raw : UInt64)
    (state : StreamRuntimeState) :
    (s.setStream raw state).conn.streamStates[raw]? = some state :=
  Std.ExtTreeMap.getElem?_insert_self

theorem getElem?_setStream_of_ne (s : Session W) {raw raw' : UInt64} (hne : raw' ≠ raw)
    (state : StreamRuntimeState) :
    (s.setStream raw state).conn.streamStates[raw']? = s.conn.streamStates[raw']? :=
  BTreeMap.getElem?_insert_of_ne hne

/-- A stream with an entry has one after any entry is written back. -/
theorem exists_setStream {s : Session W} {raw raw' : UInt64} {state : StreamRuntimeState}
    (h : ∃ old, s.conn.streamStates[raw]? = some old) :
    ∃ new, (s.setStream raw' state).conn.streamStates[raw]? = some new := by
  by_cases hraw : raw = raw'
  · subst hraw
    exact ⟨state, getElem?_setStream_self s raw state⟩
  · rw [getElem?_setStream_of_ne s hraw]
    exact h

theorem stream_of_getElem? {s : Session W} {raw : UInt64} {state : StreamRuntimeState}
    (h : s.conn.streamStates[raw]? = some state) : s.stream raw = state := by
  rw [stream, h, Option.getD_some]

theorem stream_of_none {s : Session W} {raw : UInt64}
    (h : s.conn.streamStates[raw]? = none) : s.stream raw = .default := by
  rw [stream, h, Option.getD_none]

@[simp] theorem stream_setStream_self (s : Session W) (raw : UInt64)
    (state : StreamRuntimeState) : (s.setStream raw state).stream raw = state :=
  stream_of_getElem? (getElem?_setStream_self s raw state)

theorem stream_setStream_of_ne (s : Session W) {raw raw' : UInt64} (hne : raw' ≠ raw)
    (state : StreamRuntimeState) : (s.setStream raw state).stream raw' = s.stream raw' := by
  rw [stream, getElem?_setStream_of_ne s hne, stream]

/-- Only closed streams are collected. -/
theorem getElem?_gcStreams {s : Session W} {raw : UInt64} {state : StreamRuntimeState}
    (h : s.conn.streamStates[raw]? = some state) (hopen : state.closedNotified = false) :
    s.gcStreams.conn.streamStates[raw]? = some state := by
  refine BTreeMap.getElem?_filter_eq_some_iff.mpr ⟨h, ?_⟩
  rw [hopen]
  rfl

theorem getElem?_of_gcStreams {s : Session W} {raw : UInt64} {state : StreamRuntimeState}
    (h : s.gcStreams.conn.streamStates[raw]? = some state) :
    s.conn.streamStates[raw]? = some state :=
  (BTreeMap.getElem?_filter_eq_some_iff.mp h).1

theorem stream_gcStreams {s : Session W} {raw : UInt64}
    (hopen : (s.stream raw).closedNotified = false) : s.gcStreams.stream raw = s.stream raw := by
  cases hentry : s.conn.streamStates[raw]? with
  | some state =>
    rw [stream_of_getElem? hentry] at hopen ⊢
    exact stream_of_getElem? (getElem?_gcStreams hentry hopen)
  | none =>
    have hgone : s.gcStreams.conn.streamStates[raw]? = none := by
      apply Option.eq_none_iff_forall_ne_some.mpr
      intro state hstate
      cases hentry.symm.trans (getElem?_of_gcStreams hstate)
    rw [stream_of_none hgone, stream_of_none hentry]

/-- Writing an entry twice is writing it once. -/
theorem setStream_setStream (s : Session W) (raw : UInt64) (state state' : StreamRuntimeState) :
    (s.setStream raw state).setStream raw state' = s.setStream raw state' := by
  have hmap : (s.conn.streamStates.insert raw state).insert raw state' =
      s.conn.streamStates.insert raw state' := by
    apply Std.ExtTreeMap.ext_getElem?
    intro k
    simp only [Std.ExtTreeMap.getElem?_insert]
    split <;> rfl
  simp only [setStream, hmap]

end Session

/-! ## Events of a stream -/

/-- Whether an event is the IncomingStream of the stream. -/
def isIncomingEvent (raw : UInt64) : TransportEvent → Bool
  | .incomingStream _ streamId => streamId.asU64 == raw
  | _ => false

/-- Whether an event is the StreamClosed of the stream. -/
def isClosedEvent (raw : UInt64) : TransportEvent → Bool
  | .streamClosed _ streamId => streamId.asU64 == raw
  | _ => false

/-- StreamClosed has been emitted for the stream. The flag is set whenever the event is, and stays
when the event goes to the vector that `close` drains into. -/
def Session.closeEmitted (s : Session W) (raw : UInt64) : Prop :=
  s.events.any (isClosedEvent raw) = true ∨ (s.stream raw).closedNotified = true

theorem any_push {P : TransportEvent → Bool} {events : List TransportEvent}
    (h : events.any P = true) (event : TransportEvent) : (events ++ [event]).any P = true := by
  rw [List.any_append, h, Bool.true_or]

theorem any_push_other {P : TransportEvent → Bool} (events : List TransportEvent)
    {event : TransportEvent} (h : P event = false) : (events ++ [event]).any P = events.any P := by
  rw [List.any_append, List.any_cons, h, List.any_nil, Bool.or_false, Bool.or_false]

theorem any_push_self {P : TransportEvent → Bool} (events : List TransportEvent)
    {event : TransportEvent} (h : P event = true) : (events ++ [event]).any P = true := by
  rw [List.any_append, List.any_cons, h, Bool.true_or, Bool.or_true]

/-! ## Packets -/

/-- An invariant that draining keeps and that does not look at the state of the connection, at
its peer or at events that are not about a stream. -/
structure Receives (q : Quiche W) (I : Session W → Prop) : Prop extends Drains q I where
  state : ∀ s state, I s → I (s.setState state)
  cert : ∀ s der, I s → I (s.recordCert der)
  peer : ∀ s peerId, I s → I (s.setPeerId peerId)
  event : ∀ s e, isStreamEvent e = false → I s → I (s.push e)

namespace Receives

variable {q : Quiche W} {I : Session W → Prop} (h : Receives q I) {fuel : Nat}

include h

theorem pushEvent_keeps {e : TransportEvent} (he : isStreamEvent e = false) :
    Keeps I (pushEvent e : Method W Unit) :=
  Keeps.modify fun s hs => h.event s e he hs

theorem rejectPeer_keeps (message : String) (code : Nat) (reason : String) :
    Keeps I (rejectPeer q fuel message code reason) :=
  Keeps.bind Keeps.get fun _ => Keeps.bind (h.pushEvent_keeps rfl) fun _ =>
    Keeps.bind (h.call_keeps (.close code reason)) fun _ =>
      Keeps.bind (Keeps.modify fun s hs => h.state s _ hs) fun _ => h.flush_keeps

theorem verifyPeer_keeps [MultihashCodec]
    (verifyLibp2pCertificate : Bytes → Except String PeerId) :
    Keeps I (verifyPeer q fuel verifyLibp2pCertificate) := by
  have haccept : ∀ p, Keeps I (do
      setPeerId p
      let s ← get
      pushEvent (.connected s.conn.id s.conn.endpoint) : Method W Unit) := fun p =>
    Keeps.bind (Keeps.modify fun s hs => h.peer s p hs) fun _ =>
      Keeps.bind Keeps.get fun _ => h.pushEvent_keeps rfl
  refine Keeps.bind (h.call_keeps .peerCert) fun cert => ?_
  split
  · exact h.rejectPeer_keeps _ _ _
  refine Keeps.bind (Keeps.modify fun s hs => h.cert s _ hs) fun _ => ?_
  split
  · exact h.rejectPeer_keeps _ _ _
  refine Keeps.bind Keeps.get fun s => ?_
  split
  · split
    · exact h.rejectPeer_keeps _ _ _
    · exact haccept _
  · exact haccept _

theorem recvPacket_keeps [MultihashCodec]
    (verifyLibp2pCertificate : Bytes → Except String PeerId) (buf : Bytes) :
    Keeps I (recvPacket q fuel verifyLibp2pCertificate buf) := by
  refine Keeps.bind (h.call_keeps (.recv buf)) fun answer => ?_
  split
  · exact Keeps.bind Keeps.get fun s => h.pushEvent_keeps rfl
  have hcompleted : Keeps I (handshakeCompleted q) := by
    refine Keeps.bind Keeps.get fun s => ?_
    split
    · exact h.call_keeps .isEstablished
    · exact Keeps.pure _
  refine Keeps.bind hcompleted fun completed => ?_
  split
  · exact Keeps.bind (Keeps.modify fun s hs => h.state s _ hs) fun _ =>
      Keeps.bind h.drainAndFlush_keeps fun _ => h.verifyPeer_keeps verifyLibp2pCertificate
  · exact h.drainAndFlush_keeps

end Receives

/-! ## Reading -/

theorem exec_isLocalInitiatedStream (q : Quiche W) (raw : UInt64) (s : Session W) :
    Prog.exec (isLocalInitiatedStream q raw) s = some (.ok (s.isLocal q raw), s.askServer q) := rfl

theorem exec_ensureStreamDiscovered (q : Quiche W) (raw : UInt64) (s : Session W) :
    Prog.exec (ensureStreamDiscovered q raw) s =
      some (.ok (), (s.askServer q).discover (s.isLocal q raw) raw) := by
  rw [ensureStreamDiscovered, Prog.exec_bind_of_ok (exec_isLocalInitiatedStream q raw s),
    Prog.exec_bind_of_ok (Prog.exec_get _)]
  unfold Session.discover Session.stream
  dsimp only
  split <;> rfl

theorem exec_reportData (raw : UInt64) (data : Bytes) (s : Session W) :
    Prog.exec (reportData raw data) s = some (.ok (), s.report raw data) := by
  rw [reportData, Prog.exec_bind_of_ok (Prog.exec_get _)]
  unfold Session.report
  split <;> rfl

/-- Reading the stream `raw`, from `P` to `I`; `R` holds once the stream has been discovered and
until a read ends the loop. -/
structure Reads (q : Quiche W) (raw : UInt64) (P R I : Session W → Prop) : Prop where
  discover : ∀ s, P s → R ((s.askServer q).discover (s.isLocal q raw) raw)
  done : ∀ s state, s.conn.streamStates[raw]? = some state →
    (q.streamRecv raw s.world).1 = .error .done → R s →
    I (s.setWorld (q.streamRecv raw s.world).2)
  failed : ∀ s state e message, s.conn.streamStates[raw]? = some state →
    (q.streamRecv raw s.world).1 = .error (.other e) → R s →
    I ((s.setWorld (q.streamRecv raw s.world).2).push (.error s.conn.id message))
  more : ∀ s state data, s.conn.streamStates[raw]? = some state →
    (q.streamRecv raw s.world).1 = .ok (data, false) → R s →
    R ((s.setWorld (q.streamRecv raw s.world).2).report raw data)
  fin : ∀ s state data, s.conn.streamStates[raw]? = some state →
    (q.streamRecv raw s.world).1 = .ok (data, true) → R s →
    I ((((s.setWorld (q.streamRecv raw s.world).2).report raw data).setStream raw
      { state with remoteWriteClosed := true }).push (.streamRemoteWriteClosed s.conn.id ⟨raw⟩))
  note : ∀ s state, s.conn.streamStates[raw]? = some state → state.isFullyClosed = true →
    state.closedNotified = false → I s →
    I ((s.setStream raw { state with closedNotified := true }).push (.streamClosed s.conn.id ⟨raw⟩))

namespace Session

@[simp] theorem getElem?_report (s : Session W) (raw raw' : UInt64) (data : Bytes) :
    (s.report raw data).conn.streamStates[raw']? = s.conn.streamStates[raw']? := by
  unfold report
  split <;> rfl

@[simp] theorem conn_report (s : Session W) (raw : UInt64) (data : Bytes) :
    (s.report raw data).conn = s.conn := by
  unfold report
  split <;> rfl

@[simp] theorem world_report (s : Session W) (raw : UInt64) (data : Bytes) :
    (s.report raw data).world = s.world := by
  unfold report
  split <;> rfl

/-- A discovered stream has an entry. -/
theorem exists_discover (s : Session W) (isLocal : Bool) (raw : UInt64) :
    ∃ state, (s.discover isLocal raw).conn.streamStates[raw]? = some state := by
  unfold discover
  split
  · exact ⟨_, getElem?_setStream_self s raw _⟩
  · exact ⟨_, getElem?_setStream_self s raw _⟩

end Session

namespace Reads

variable {q : Quiche W} {raw : UInt64} {P R I E : Session W → Prop} (h : Reads q raw P R I)
  {fuel : Nat}

include h

/-- The read that carried the remote's FIN. -/
theorem finishRead_triple {s₀ : Session W} {state : StreamRuntimeState} {data : Bytes}
    (hstate : s₀.conn.streamStates[raw]? = some state)
    (hanswer : (q.streamRecv raw s₀.world).1 = .ok (data, true)) (hs₀ : R s₀) :
    Triple (fun s => s = (s₀.setWorld (q.streamRecv raw s₀.world).2).report raw data)
      (finishRead raw) (fun _ => I) E := by
  have hmark : Triple
      (fun s => s = (s₀.setWorld (q.streamRecv raw s₀.world).2).report raw data)
      (markRemoteWriteClosed raw : Method W Unit)
      (fun _ s => s = ((s₀.setWorld (q.streamRecv raw s₀.world).2).report raw data).setStream raw
        { state with remoteWriteClosed := true }) E := by
    apply Triple.get_bind
    rintro s₁ rfl
    rw [Session.getElem?_report]
    have hold : (s₀.setWorld (q.streamRecv raw s₀.world).2).conn.streamStates[raw]? =
      some state := hstate
    rw [hold]
    apply Triple.modify
    rintro _ rfl
    rfl
  refine Triple.bind hmark fun _ => ?_
  apply Triple.get_bind
  rintro s₁ rfl
  refine Triple.bind (Q := fun _ => I) (Triple.modify ?_) fun _ =>
    noteStreamClosed_triple h.note
  rintro _ rfl
  have hid : (((s₀.setWorld (q.streamRecv raw s₀.world).2).report raw data).setStream raw
      { state with remoteWriteClosed := true }).conn.id = s₀.conn.id := by
    unfold Session.report
    split <;> rfl
  rw [hid]
  exact h.fin s₀ state data hstate hanswer hs₀

theorem pollStreamGo_triple :
    Triple (fun s => R s ∧ ∃ state, s.conn.streamStates[raw]? = some state)
      (pollStreamGo q raw fuel) (fun _ => I) E := by
  induction fuel with
  | zero => exact Triple.diverge
  | succ fuel ih =>
    unfold pollStreamGo
    rintro s₀ ⟨hs₀, state, hstate⟩
    refine Triple.bind (call_spec _ s₀) (fun answer => ?_) s₀ rfl
    split
    · apply Triple.pure
      rintro _ ⟨hanswer, rfl⟩
      exact h.done s₀ state hstate hanswer.symm hs₀
    · apply Triple.get_bind
      rintro _ ⟨hanswer, rfl⟩
      apply Triple.modify
      rintro _ rfl
      exact h.failed s₀ state _ _ hstate hanswer.symm hs₀
    next data fin =>
    rintro _ ⟨hanswer, rfl⟩
    refine Triple.bind
      (Q := fun _ s => s = (s₀.setWorld (q.streamRecv raw s₀.world).2).report raw data)
      (P := fun s => s = s₀.setWorld (q.streamRecv raw s₀.world).2) ?_ (fun _ => ?_) _ rfl
    · rintro _ rfl r s' hr
      rw [exec_reportData] at hr
      cases hr
      exact ⟨fun _ _ => rfl, by rintro _ ⟨⟩⟩
    split
    · next hfin =>
      rw [hfin] at hanswer
      exact h.finishRead_triple hstate hanswer.symm hs₀
    · next hfin =>
      rw [Bool.not_eq_true] at hfin
      rw [hfin] at hanswer
      refine ih.mono ?_ (fun _ _ hs => hs) fun _ hs => hs
      rintro _ rfl
      refine ⟨h.more s₀ state data hstate hanswer.symm hs₀, state, ?_⟩
      rw [Session.getElem?_report]
      exact hstate

theorem pollStream_triple : Triple P (pollStream q fuel raw) (fun _ => I) E := by
  refine Triple.bind
    (Q := fun _ s => R s ∧ ∃ state, s.conn.streamStates[raw]? = some state) ?_ fun _ =>
      h.pollStreamGo_triple
  intro s hs r s' hr
  rw [exec_ensureStreamDiscovered] at hr
  cases hr
  refine ⟨fun _ _ => ⟨h.discover s hs, Session.exists_discover _ _ _⟩, by rintro _ ⟨⟩⟩

end Reads

/-- The readable streams that a poll asks for, and the session it then reads them in. -/
def Session.readable (q : Quiche W) (s : Session W) : List UInt64 :=
  (q.readable (q.isEstablished s.world).2).1

/-- The session after quiche was asked whether it is established and which streams are readable. -/
def Session.polled (q : Quiche W) (s : Session W) : Session W :=
  s.setWorld (q.readable (q.isEstablished s.world).2).2

/-- `poll_streams` from a session `s₀`. `P` holds of the streams that are still to be read, `R` of
the one that is being read and of those behind it. -/
theorem pollStreams_triple {q : Quiche W} {fuel : Nat} {s₀ : Session W} {I : Session W → Prop}
    {P : List UInt64 → Session W → Prop} {R : UInt64 → List UInt64 → Session W → Prop}
    (hdrains : Drains q I) (hs₀ : I s₀)
    (hstart : (q.isEstablished s₀.world).1 = true → P (s₀.readable q) (s₀.polled q))
    (hreads : ∀ raw rest, Reads q raw (P (raw :: rest)) (R raw rest) (P rest))
    (hend : ∀ s, P [] s → I s) (hgc : ∀ s, I s → I s.gcStreams) :
    Triple (fun s => s = s₀) (pollStreams q fuel) (fun _ => I) I := by
  refine Triple.bind (call_spec _ s₀) fun established => ?_
  split
  · next hestablished =>
    rintro _ ⟨heq, rfl⟩
    refine Triple.bind (call_spec _ _) (fun readable => ?_) _ rfl
    rintro _ ⟨hreadable, rfl⟩
    have hloop : Triple (P readable) (readable.forM (pollStream q fuel)) (fun _ => P []) I :=
      Triple.forM (fun raw rest => (hreads raw rest).pollStream_triple) readable
    refine Triple.bind hloop (fun _ => ?_) _ ?_
    · refine Triple.mono ?_ hend (fun _ _ hs => hs) fun _ hs => hs
      exact Keeps.bind hdrains.drainAndFlush_keeps fun _ => Keeps.modify hgc
    · rw [hreadable]
      exact hstart (heq.symm.trans hestablished)
  · apply Triple.pure
    rintro _ ⟨-, rfl⟩
    exact hdrains.silent s₀ _ (.isEstablished _) hs₀

/-- What is indifferent to calls that are not about a stream holds when the reading starts. -/
theorem Drains.polled {q : Quiche W} {I : Session W → Prop} (h : Drains q I) {s : Session W}
    (hs : I s) : I (s.polled q) := by
  have hasked : I (s.setWorld (q.isEstablished s.world).2) := h.silent s _ (.isEstablished _) hs
  exact h.silent (s.setWorld (q.isEstablished s.world).2) _ (.readable _) hasked

/-! ## Writing -/

/-- What `send_stream` and `close_stream_write` have in common: `update` puts the write into the
entry of the stream, and `refusal` is the error when its write side is closed. -/
def queueWrite (q : Quiche W) (fuel : Nat) (streamId : StreamId)
    (update : StreamRuntimeState → StreamRuntimeState) (refusal : Session W → TransportError) :
    Method W Unit := do
  let state ← getOrCreateLocalStreamState q streamId
  let s ← get
  if state.localWriteClosed then throw (refusal s)
  else
    setStream streamId.asU64 (update state)
    drainAndFlush q fuel

/-- The entry with one more write of data. -/
def StreamRuntimeState.queueData (data : Bytes) (state : StreamRuntimeState) :
    StreamRuntimeState :=
  { state with pendingWrites := state.pendingWrites ++ [⟨data, 0, false⟩] }

/-- The entry with its write side closed and the FIN queued. -/
def StreamRuntimeState.queueFin (state : StreamRuntimeState) : StreamRuntimeState :=
  { state with
    localWriteClosed := true, pendingWrites := state.pendingWrites ++ [⟨[], 0, true⟩] }

theorem sendStream_eq (q : Quiche W) (fuel : Nat) (streamId : StreamId) {data : Bytes}
    (hdata : data ≠ []) :
    sendStream q fuel streamId data = queueWrite q fuel streamId (.queueData data) fun s =>
      .streamSendFailed s.conn.id streamId "local stream write side is already closed" := by
  have hempty : ¬ data.isEmpty = true := fun h => hdata (List.isEmpty_iff.mp h)
  rw [sendStream, if_neg hempty]
  rfl

theorem closeStreamWrite_eq (q : Quiche W) (fuel : Nat) (streamId : StreamId) :
    closeStreamWrite q fuel streamId = queueWrite q fuel streamId .queueFin fun s =>
      .streamCloseWriteFailed s.conn.id streamId "local stream write side is already closed" := rfl

theorem exec_getOrCreateLocalStreamState (q : Quiche W) (streamId : StreamId) (s : Session W) :
    Prog.exec (getOrCreateLocalStreamState q streamId) s =
      match s.conn.streamStates[streamId.asU64]? with
      | some state => some (.ok state, s)
      | none =>
        if s.isLocal q streamId.asU64 then
          some (.ok .default, (s.askServer q).setStream streamId.asU64 .default)
        else some (.error (.streamNotFound s.conn.id streamId), s.askServer q) := by
  rw [getOrCreateLocalStreamState, Prog.exec_bind_of_ok (Prog.exec_get _)]
  cases s.conn.streamStates[streamId.asU64]? with
  | some state => rfl
  | none =>
    dsimp only
    rw [Prog.exec_bind_of_ok (exec_isLocalInitiatedStream q _ s)]
    split <;> rfl

/-- How a write is queued, by the entry of the stream. -/
theorem exec_queueWrite (q : Quiche W) (fuel : Nat) (streamId : StreamId)
    (update : StreamRuntimeState → StreamRuntimeState) (refusal : Session W → TransportError)
    (s : Session W) :
    Prog.exec (queueWrite q fuel streamId update refusal) s =
      match s.conn.streamStates[streamId.asU64]? with
      | some state =>
        if state.localWriteClosed then some (.error (refusal s), s)
        else Prog.exec (drainAndFlush q fuel) (s.setStream streamId.asU64 (update state))
      | none =>
        if s.isLocal q streamId.asU64 then
          Prog.exec (drainAndFlush q fuel)
            ((s.askServer q).setStream streamId.asU64 (update .default))
        else some (.error (.streamNotFound s.conn.id streamId), s.askServer q) := by
  have hget := exec_getOrCreateLocalStreamState q streamId s
  rw [queueWrite]
  cases hentry : s.conn.streamStates[streamId.asU64]? with
  | some state =>
    rw [hentry] at hget
    rw [Prog.exec_bind_of_ok hget, Prog.exec_bind_of_ok (Prog.exec_get _)]
    dsimp only
    split
    · rfl
    · exact Prog.exec_bind_of_ok (Prog.exec_modify _ _) _
  | none =>
    rw [hentry] at hget
    dsimp only at hget ⊢
    split at hget
    · next hlocal =>
      rw [Prog.exec_bind_of_ok hget, Prog.exec_bind_of_ok (Prog.exec_get _), if_pos hlocal,
        ← Session.setStream_setStream _ _ .default (update .default),
        if_neg (by exact Bool.false_ne_true)]
      exact Prog.exec_bind_of_ok (Prog.exec_modify _ _) _
    · next hremote => rw [Prog.exec_bind_of_error hget, if_neg hremote]

/-- Queueing a write on the stream `raw`, from `P` to `I`. -/
structure Queues (q : Quiche W) (raw : UInt64)
    (update : StreamRuntimeState → StreamRuntimeState) (P I : Session W → Prop) : Prop where
  refused : ∀ s state, s.conn.streamStates[raw]? = some state → state.localWriteClosed = true →
    P s → I s
  queued : ∀ s state, s.conn.streamStates[raw]? = some state → state.localWriteClosed = false →
    P s → I (s.setStream raw (update state))
  created : ∀ s, s.conn.streamStates[raw]? = none → s.isLocal q raw = true → P s →
    I ((s.askServer q).setStream raw (update .default))
  unknown : ∀ s, s.conn.streamStates[raw]? = none → s.isLocal q raw = false → P s →
    I (s.askServer q)

theorem Queues.queueWrite_triple {q : Quiche W} {fuel : Nat} {streamId : StreamId}
    {update : StreamRuntimeState → StreamRuntimeState} {refusal : Session W → TransportError}
    {P I : Session W → Prop} (h : Queues q streamId.asU64 update P I) (hI : Drains q I) :
    Triple P (queueWrite q fuel streamId update refusal) (fun _ => I) I := by
  intro s hs r s' hr
  have hend : I s' := by
    rw [exec_queueWrite] at hr
    cases hentry : s.conn.streamStates[streamId.asU64]? with
    | some state =>
      rw [hentry] at hr
      dsimp only at hr
      split at hr
      · next hclosed =>
        cases hr
        exact h.refused s state hentry hclosed hs
      · next hopen =>
        rw [Bool.not_eq_true] at hopen
        exact hI.drainAndFlush_keeps.of_exec (h.queued s state hentry hopen hs) hr
    | none =>
      rw [hentry] at hr
      dsimp only at hr
      split at hr
      · next hlocal => exact hI.drainAndFlush_keeps.of_exec (h.created s hentry hlocal hs) hr
      · next hremote =>
        cases hr
        rw [Bool.not_eq_true] at hremote
        exact h.unknown s hentry hremote hs
  exact ⟨fun _ _ => hend, fun _ _ => hend⟩

/-! ## Opening, resetting and closing -/

theorem exec_openStream (s : Session W) :
    Prog.exec (openStream : Method W StreamId) s =
      if s.conn.state ≠ .connected then
        some (.error (.invalidState s.conn.id s.conn.state .connected), s)
      else if s.conn.streamStates.contains s.conn.nextLocalBidiStreamId then
        some (.error (.streamExists s.conn.id ⟨s.conn.nextLocalBidiStreamId⟩),
          s.setNextStreamId (s.conn.nextLocalBidiStreamId + 4))
      else
        some (.ok ⟨s.conn.nextLocalBidiStreamId⟩,
          (s.setNextStreamId (s.conn.nextLocalBidiStreamId + 4)).setStream
            s.conn.nextLocalBidiStreamId .default) := by
  rw [openStream, Prog.exec_bind_of_ok (Prog.exec_get _)]
  split
  · rfl
  · rw [Prog.exec_bind_of_ok (Prog.exec_modify _ _)]
    split <;> rfl

/-- The world after the shutdown of one direction of a stream. -/
def Session.shut (q : Quiche W) (s : Session W) (raw : UInt64) (direction : Shutdown) :
    Session W :=
  s.setWorld (q.streamShutdown raw direction s.world).2

/-- The error of a failed shutdown. -/
def Session.shutdownError (s : Session W) (streamId : StreamId) (side : String) (e : QuicheError) :
    TransportError :=
  .streamResetFailed s.conn.id streamId s!"failed to shutdown stream {side} side: {e.display}"

theorem exec_shutdownStream (q : Quiche W) (streamId : StreamId) (direction : Shutdown)
    (side : String) (s : Session W) :
    Prog.exec (shutdownStream q streamId direction side) s =
      match (q.streamShutdown streamId.asU64 direction s.world).1 with
      | .ok () => some (.ok (), s.shut q streamId.asU64 direction)
      | .error e =>
        some (.error (s.shutdownError streamId side e), s.shut q streamId.asU64 direction) := by
  have hcall : Prog.exec (call (q.streamShutdown streamId.asU64 direction) : Method W _) s =
    some (.ok (q.streamShutdown streamId.asU64 direction s.world).1,
      s.shut q streamId.asU64 direction) := rfl
  rw [shutdownStream, Prog.exec_bind_of_ok (Prog.exec_get _), Prog.exec_bind_of_ok hcall]
  cases (q.streamShutdown streamId.asU64 direction s.world).1 <;> rfl

/-- The entry of a stream that was reset. -/
def StreamRuntimeState.reset (state : StreamRuntimeState) : StreamRuntimeState :=
  { state with localWriteClosed := true, remoteWriteClosed := true, closedNotified := true }

/-- Both directions of a stream with an entry have been shut down. -/
def Session.finishReset (s : Session W) (raw : UInt64) (state : StreamRuntimeState) : Session W :=
  if state.closedNotified then s.setStream raw state.reset
  else (s.setStream raw state.reset).push (.streamClosed s.conn.id ⟨raw⟩)

/-- `reset_stream`, by the entry of the stream and the answers to its two shutdowns. -/
theorem exec_resetStream (q : Quiche W) (streamId : StreamId) (s : Session W) :
    Prog.exec (resetStream q streamId) s =
      match s.conn.streamStates[streamId.asU64]? with
      | none => some (.error (.streamNotFound s.conn.id streamId), s)
      | some state =>
        match (q.streamShutdown streamId.asU64 .write s.world).1 with
        | .error e =>
          some (.error (s.shutdownError streamId "write" e), s.shut q streamId.asU64 .write)
        | .ok () =>
          let s₁ := s.shut q streamId.asU64 .write
          match (q.streamShutdown streamId.asU64 .read s₁.world).1 with
          | .error e =>
            some (.error (s₁.shutdownError streamId "read" e), s₁.shut q streamId.asU64 .read)
          | .ok () => some (.ok (), (s₁.shut q streamId.asU64 .read).finishReset
              streamId.asU64 state) := by
  rw [resetStream, Prog.exec_bind_of_ok (Prog.exec_get _)]
  cases s.conn.streamStates[streamId.asU64]? with
  | none => rfl
  | some state =>
    have hwrite := exec_shutdownStream q streamId .write "write" s
    dsimp only
    cases hw : (q.streamShutdown streamId.asU64 .write s.world).1 with
    | error e =>
      rw [hw] at hwrite
      exact Prog.exec_bind_of_error hwrite _
    | ok _ =>
      rw [hw] at hwrite
      rw [Prog.exec_bind_of_ok hwrite]
      have hread := exec_shutdownStream q streamId .read "read" (s.shut q streamId.asU64 .write)
      dsimp only
      cases hr : (q.streamShutdown streamId.asU64 .read
          (s.shut q streamId.asU64 .write).world).1 with
      | error e =>
        rw [hr] at hread
        exact Prog.exec_bind_of_error hread _
      | ok _ =>
        rw [hr] at hread
        rw [Prog.exec_bind_of_ok hread]
        unfold Session.finishReset
        cases state.closedNotified <;> rfl

/-- `close` from a session `s₀`: `D` holds during its drain, whose events are dropped. -/
theorem close_triple {q : Quiche W} {fuel : Nat} {s₀ : Session W} {I D : Session W → Prop}
    (hI : Drains q I) (hD : Drains q D) (hs₀ : I s₀)
    (hstart : ∀ w, q.Silent s₀.world w → D ((s₀.setWorld w).setState .closing))
    (hend : ∀ s, D s → I { s with events := s₀.events }) :
    Triple (fun s => s = s₀) (close q fuel) (fun _ => I) I := by
  apply Triple.get_bind
  rintro _ rfl
  refine Triple.bind (call_spec _ _) fun answer => ?_
  split
  · apply Triple.throw
    rintro _ ⟨-, rfl⟩
    exact hI.silent _ _ (.close _ _ _) hs₀
  refine Triple.bind (Q := fun _ => D) (Triple.modify ?_) fun _ => ?_
  · rintro _ ⟨-, rfl⟩
    exact hstart _ (.close _ _ _)
  refine Triple.bind hD.drainSendQueue_keeps.attempt fun drained => ?_
  refine Triple.bind (Q := fun _ => I) (Triple.modify hend) fun _ => ?_
  split
  · exact Keeps.throw _
  · exact hI.flush_keeps

end Minip2p.Quic
