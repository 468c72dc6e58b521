import Minip2p.Quic.Connection

/-!
# What the methods of a QUIC connection keep

Three sorts of invariant, by how much of a session they look at. `Stable` ones survive draining
and flushing, `Steady` ones also opening streams and queueing writes, and `Permissive` ones any
change of a stream and any event but Connected. Each method keeps the invariants of its sort,
whether it returns or fails.
-/

namespace Minip2p.Quic

variable {W : Type}

/-! ## What draining and flushing can do -/

/-- A call of quiche or the socket that is not about a stream. -/
inductive Quiche.Silent (q : Quiche W) : W → W → Prop
  | recv (buf : Bytes) (w : W) : Silent q w (q.recv buf w).2
  | isEstablished (w : W) : Silent q w (q.isEstablished w).2
  | isServer (w : W) : Silent q w (q.isServer w).2
  | peerCert (w : W) : Silent q w (q.peerCert w).2
  | close (code : Nat) (reason : String) (w : W) : Silent q w (q.close code reason w).2
  | readable (w : W) : Silent q w (q.readable w).2
  | send (w : W) : Silent q w (q.send w).2
  | sendTo (packet : Bytes) (w : W) : Silent q w (q.sendTo packet w).2
  | keyOrder (keys : List UInt64) (w : W) : Silent q w (q.keyOrder keys w).2

/-- The `stream_send` of what is left of a write. -/
def Quiche.offer (q : Quiche W) (raw : UInt64) (pending : PendingStreamWrite) (w : W) :
    Except QuicheError Nat × W :=
  q.streamSend raw (pending.bytes.drop pending.offset)
    (pending.fin && (pending.bytes.drop pending.offset).isEmpty) w

/-- An invariant that every single thing keeps that draining and flushing do: a call that is not
about a stream, an offer that quiche does not take, one that it takes, and the notice of a closed
stream. -/
structure Drains (q : Quiche W) (I : Session W → Prop) : Prop where
  silent : ∀ s w, q.Silent s.world w → I s → I (s.setWorld w)
  offer : ∀ s raw state pending rest, s.conn.streamStates[raw]? = some state →
    state.pendingWrites = pending :: rest →
    (∀ written, (q.offer raw pending s.world).1 = .ok written →
      advanceWrites pending rest written = none) → I s →
    I (s.setWorld (q.offer raw pending s.world).2)
  write : ∀ s raw state pending rest written pendingWrites,
    s.conn.streamStates[raw]? = some state → state.pendingWrites = pending :: rest →
    (q.offer raw pending s.world).1 = .ok written →
    advanceWrites pending rest written = some pendingWrites → I s →
    I ((s.setWorld (q.offer raw pending s.world).2).setStream raw { state with pendingWrites })
  note : ∀ s raw state, s.conn.streamStates[raw]? = some state → state.isFullyClosed = true →
    state.closedNotified = false → I s →
    I ((s.setStream raw { state with closedNotified := true }).push (.streamClosed s.conn.id ⟨raw⟩))

/-- A call of quiche gives its answer and changes the world only. -/
theorem call_spec {α : Type} {E : Session W → Prop} (op : W → α × W) (s₀ : Session W) :
    Triple (fun s => s = s₀) (call op)
      (fun answer s => answer = (op s₀.world).1 ∧ s = s₀.setWorld (op s₀.world).2) E := by
  apply Triple.modifyGet
  intro s hs
  rw [hs]
  exact ⟨rfl, rfl⟩

/-- A call of quiche changes the world only. -/
theorem call_triple {α : Type} {E : Session W → Prop} (op : W → α × W) (s₀ : Session W) :
    Triple (fun s => s = s₀) (call op) (fun _ s => ∃ w, s = s₀.setWorld w) E :=
  (call_spec op s₀).mono (fun _ hs => hs) (fun _ _ hs => ⟨_, hs.2⟩) fun _ hs => hs

/-- The notice of a closed stream: the entry and the event change in one go, and it never fails. -/
theorem noteStreamClosed_triple {raw : UInt64} {I E : Session W → Prop}
    (hnote : ∀ s state, s.conn.streamStates[raw]? = some state → state.isFullyClosed = true →
      state.closedNotified = false → I s → I ((s.setStream raw
        { state with closedNotified := true }).push (.streamClosed s.conn.id ⟨raw⟩))) :
    Triple I (noteStreamClosedIfFinished raw) (fun _ => I) E := by
  apply Triple.get_bind
  intro s₀ hs₀
  split
  · exact Triple.pure fun s hs => hs ▸ hs₀
  · next state hstate =>
    split
    · next hcond =>
      rw [Bool.and_eq_true, Bool.not_eq_true'] at hcond
      refine Triple.bind
        (Q := fun _ s => s = s₀.setStream raw { state with closedNotified := true })
        (Triple.modify fun s hs => by rw [hs]) fun _ => ?_
      apply Triple.modify
      intro s hs
      rw [hs]
      exact hnote s₀ state hstate hcond.1 hcond.2 hs₀
    · exact Triple.pure fun s hs => hs ▸ hs₀

namespace Drains

variable {q : Quiche W} {I : Session W → Prop} (h : Drains q I) {fuel : Nat}

include h

theorem call_keeps {α : Type} {op : W → α × W} (hop : ∀ w, q.Silent w (op w).2) :
    Keeps I (call op) :=
  Keeps.modifyGet fun s hs => h.silent s _ (hop s.world) hs

theorem noteStreamClosed_keeps (raw : UInt64) : Keeps I (noteStreamClosedIfFinished raw) :=
  noteStreamClosed_triple fun s state => h.note s raw state

theorem flush_keeps : Keeps I (flush q fuel) := by
  unfold flush
  induction fuel with
  | zero => exact Keeps.diverge
  | succ fuel ih =>
    unfold flushGo
    refine Keeps.bind Keeps.get fun s => Keeps.bind (h.call_keeps .send) fun sent => ?_
    split
    · exact Keeps.pure _
    · exact Keeps.throw _
    · refine Keeps.bind (h.call_keeps (.sendTo _)) fun answer => ?_
      split
      · exact Keeps.throw _
      · exact ih

theorem drainStream_keeps (raw : UInt64) : Keeps I (drainStreamGo q raw fuel) := by
  induction fuel with
  | zero => exact Keeps.diverge
  | succ fuel ih =>
    unfold drainStreamGo
    apply Triple.get_bind
    intro s₀ hs₀
    have hstay : ∀ s, s = s₀ → I s := fun s hs => hs ▸ hs₀
    split
    · exact Triple.pure hstay
    next state hstate =>
    split
    · exact Triple.pure hstay
    next pending rest hpending =>
    refine Triple.bind (call_spec _ s₀) fun answer => ?_
    -- quiche does not take the offer: only the world has changed
    have hrefused : (∀ written, answer = .ok written →
          advanceWrites pending rest written = none) →
        ∀ s, answer = (q.offer raw pending s₀.world).1 ∧
          s = s₀.setWorld (q.offer raw pending s₀.world).2 → I s := by
      rintro hnone s ⟨hanswer, rfl⟩
      refine h.offer s₀ raw state pending rest hstate hpending ?_ hs₀
      rw [← hanswer]
      exact hnone
    split
    · exact Triple.pure (hrefused (by rintro _ ⟨⟩))
    · exact Triple.throw (hrefused (by rintro _ ⟨⟩))
    next written =>
    split
    · next hnone =>
      refine Triple.pure (hrefused fun _ hok => ?_)
      cases hok
      exact hnone
    next pendingWrites hsome =>
    refine Triple.bind (Q := fun _ => I) (Triple.modify ?_) fun _ =>
      Keeps.bind (h.noteStreamClosed_keeps raw) fun _ => ih
    rintro s ⟨hanswer, rfl⟩
    exact h.write s₀ raw state pending rest written pendingWrites hstate hpending hanswer.symm
      hsome hs₀

theorem drainSendQueue_keeps : Keeps I (drainSendQueue q fuel) :=
  Keeps.bind Keeps.get fun _ => Keeps.bind (h.call_keeps (.keyOrder _)) fun _ =>
    Keeps.forM fun raw _ => h.drainStream_keeps raw

theorem drainAndFlush_keeps : Keeps I (drainAndFlush q fuel) :=
  Keeps.bind h.drainSendQueue_keeps fun _ => h.flush_keeps

theorem and {J : Session W → Prop} (hJ : Drains q J) : Drains q fun s => I s ∧ J s where
  silent s w hw hs := ⟨h.silent s w hw hs.1, hJ.silent s w hw hs.2⟩
  offer s raw state pending rest hstate hpending hnone hs :=
    ⟨h.offer s raw state pending rest hstate hpending hnone hs.1,
      hJ.offer s raw state pending rest hstate hpending hnone hs.2⟩
  write s raw state pending rest written pendingWrites hstate hpending hok hsome hs :=
    ⟨h.write s raw state pending rest written pendingWrites hstate hpending hok hsome hs.1,
      hJ.write s raw state pending rest written pendingWrites hstate hpending hok hsome hs.2⟩
  note s raw state hstate hfull hopen hs :=
    ⟨h.note s raw state hstate hfull hopen hs.1, hJ.note s raw state hstate hfull hopen hs.2⟩

/-- Draining does not look at the state of the connection. -/
theorem setState (state : ConnectionState) : Drains q fun s => I (s.setState state) where
  silent s := h.silent (s.setState state)
  offer s := h.offer (s.setState state)
  write s := h.write (s.setState state)
  note s := h.note (s.setState state)

end Drains

/-- An invariant that the answers of quiche, the progress of pending writes and the notice of a
closed stream keep. -/
structure Stable (I : Session W → Prop) : Prop where
  world : ∀ s w, I s → I (s.setWorld w)
  writes : ∀ s raw state pendingWrites, s.conn.streamStates[raw]? = some state → I s →
    I (s.setStream raw { state with pendingWrites })
  note : ∀ s raw state, s.conn.streamStates[raw]? = some state → state.isFullyClosed = true →
    state.closedNotified = false → I s →
    I ((s.setStream raw { state with closedNotified := true }).push (.streamClosed s.conn.id ⟨raw⟩))

namespace Stable

variable {I : Session W → Prop} (h : Stable I) {q : Quiche W} {fuel : Nat}

include h

theorem drains : Drains q I where
  silent s w _ hs := h.world s w hs
  offer s _ _ _ _ _ _ _ hs := h.world s _ hs
  write s raw state _ _ _ pendingWrites hstate _ _ _ hs :=
    h.writes _ raw state pendingWrites hstate (h.world s _ hs)
  note := h.note

theorem call_keeps {α : Type} (op : W → α × W) : Keeps I (call op) :=
  Keeps.modifyGet fun s hs => h.world s _ hs

theorem noteStreamClosed_keeps (raw : UInt64) : Keeps I (noteStreamClosedIfFinished raw) :=
  noteStreamClosed_triple fun s state => h.note s raw state

theorem flush_keeps : Keeps I (flush q fuel) := h.drains.flush_keeps

theorem drainSendQueue_keeps : Keeps I (drainSendQueue q fuel) := h.drains.drainSendQueue_keeps

theorem drainAndFlush_keeps : Keeps I (drainAndFlush q fuel) := h.drains.drainAndFlush_keeps

end Stable

/-! ## What the other methods can do -/

/-- An invariant that opening streams and queueing writes keep as well. -/
structure Steady (I : Session W → Prop) : Prop extends Stable I where
  fresh : ∀ s raw, I s → I (s.setStream raw .default)
  closeWrite : ∀ s raw state pendingWrites, s.conn.streamStates[raw]? = some state → I s →
    I (s.setStream raw { state with localWriteClosed := true, pendingWrites })
  nextStreamId : ∀ s raw, I s → I (s.setNextStreamId raw)
  gc : ∀ s, I s → I s.gcStreams
  error : ∀ s message, I s → I (s.push (.error s.conn.id message))

namespace Steady

variable {I : Session W → Prop} (h : Steady I) {q : Quiche W} {fuel : Nat}

include h

theorem openStream_keeps : Keeps I (openStream : Method W StreamId) := by
  refine Keeps.bind Keeps.get fun s => ?_
  split
  · exact Keeps.throw _
  · refine Keeps.bind (Keeps.modify fun s hs => h.nextStreamId s _ hs) fun _ => ?_
    split
    · exact Keeps.throw _
    · exact Keeps.bind (Keeps.modify fun s hs => h.fresh s _ hs) fun _ => Keeps.pure _

/-- The state that was handed out is the one in the table. -/
theorem getOrCreate_triple (streamId : StreamId) :
    Triple I (getOrCreateLocalStreamState q streamId)
      (fun state s => I s ∧ s.conn.streamStates[streamId.asU64]? = some state) I := by
  apply Triple.get_bind
  intro s₀ hs₀
  split
  · next state hstate => exact Triple.pure fun s hs => hs ▸ ⟨hs₀, hstate⟩
  · have hlocal : Triple (fun s => s = s₀) (isLocalInitiatedStream q streamId.asU64)
        (fun _ => I) I :=
      Triple.bind (Q := fun _ => I)
        ((h.call_keeps _).mono (fun s hs => hs ▸ hs₀) (fun _ _ hs => hs) fun _ hs => hs)
        fun _ => Keeps.pure _
    refine Triple.bind hlocal fun isLocal => ?_
    split
    · refine Triple.bind (Q := fun _ s => I s ∧
        s.conn.streamStates[streamId.asU64]? = some .default) (Triple.modify ?_) fun _ =>
          Triple.pure fun _ hs => hs
      intro s hs
      exact ⟨h.fresh s _ hs, Std.ExtTreeMap.getElem?_insert_self⟩
    · exact Triple.throw fun _ hs => hs

theorem sendStream_keeps (streamId : StreamId) (data : Bytes) :
    Keeps I (sendStream q fuel streamId data) := by
  unfold sendStream
  split
  · exact Keeps.pure _
  refine Triple.bind (h.getOrCreate_triple streamId) fun state => ?_
  apply Triple.get_bind
  rintro s₀ ⟨hs₀, hstate⟩
  split
  · exact Triple.throw fun s hs => hs ▸ hs₀
  · refine Triple.bind (Q := fun _ => I) (Triple.modify ?_) fun _ => h.drainAndFlush_keeps
    intro s hs
    rw [hs]
    exact h.writes s₀ _ state _ hstate hs₀

theorem closeStreamWrite_keeps (streamId : StreamId) :
    Keeps I (closeStreamWrite q fuel streamId) := by
  refine Triple.bind (h.getOrCreate_triple streamId) fun state => ?_
  apply Triple.get_bind
  rintro s₀ ⟨hs₀, hstate⟩
  split
  · exact Triple.throw fun s hs => hs ▸ hs₀
  · refine Triple.bind (Q := fun _ => I) (Triple.modify ?_) fun _ => h.drainAndFlush_keeps
    intro s hs
    rw [hs]
    exact h.closeWrite s₀ _ state _ hstate hs₀

theorem shutdownStream_keeps (streamId : StreamId) (direction : Shutdown) (side : String) :
    Keeps I (shutdownStream q streamId direction side) := by
  refine Keeps.bind Keeps.get fun s => Keeps.bind (h.call_keeps _) fun answer => ?_
  split
  · exact Keeps.pure _
  · exact Keeps.throw _

end Steady

/-- An invariant that any change of a stream and any event but Connected keep. -/
structure Permissive (I : Session W → Prop) : Prop where
  world : ∀ s w, I s → I (s.setWorld w)
  stream : ∀ s raw state, I s → I (s.setStream raw state)
  event : ∀ s e, (∀ id endpoint, e ≠ .connected id endpoint) → I s → I (s.push e)
  nextStreamId : ∀ s raw, I s → I (s.setNextStreamId raw)
  gc : ∀ s, I s → I s.gcStreams

namespace Permissive

variable {I : Session W → Prop} (h : Permissive I) {q : Quiche W} {fuel : Nat}

include h

theorem steady : Steady I where
  world := h.world
  writes s raw state _ _ hs := h.stream s raw _ hs
  note s raw state _ _ _ hs := h.event _ _ (by rintro _ _ ⟨⟩) (h.stream s raw _ hs)
  fresh s raw hs := h.stream s raw _ hs
  closeWrite s raw state _ _ hs := h.stream s raw _ hs
  nextStreamId := h.nextStreamId
  gc := h.gc
  error s message hs := h.event s _ (by rintro _ _ ⟨⟩) hs

theorem setStream_keeps (raw : UInt64) (state : StreamRuntimeState) :
    Keeps I (setStream raw state : Method W Unit) :=
  Keeps.modify fun s hs => h.stream s raw state hs

theorem pushEvent_keeps {e : TransportEvent} (he : ∀ id endpoint, e ≠ .connected id endpoint) :
    Keeps I (pushEvent e : Method W Unit) :=
  Keeps.modify fun s hs => h.event s e he hs

theorem resetStream_keeps (streamId : StreamId) : Keeps I (resetStream q streamId) := by
  refine Keeps.bind Keeps.get fun s => ?_
  split
  · exact Keeps.throw _
  · refine Keeps.bind (h.steady.shutdownStream_keeps _ _ _) fun _ => ?_
    refine Keeps.bind (h.steady.shutdownStream_keeps _ _ _) fun _ => ?_
    refine Keeps.bind (h.setStream_keeps _ _) fun _ => ?_
    split
    · exact h.pushEvent_keeps (by rintro _ _ ⟨⟩)
    · exact Keeps.pure _

theorem reportData_keeps (raw : UInt64) (data : Bytes) :
    Keeps I (reportData raw data : Method W Unit) := by
  refine Keeps.bind Keeps.get fun s => ?_
  split
  · exact Keeps.pure _
  · exact h.pushEvent_keeps (by rintro _ _ ⟨⟩)

theorem finishRead_keeps (raw : UInt64) : Keeps I (finishRead raw : Method W Unit) := by
  refine Keeps.bind (Keeps.bind Keeps.get fun s => ?_) fun _ => Keeps.bind Keeps.get fun s =>
    Keeps.bind (h.pushEvent_keeps (by rintro _ _ ⟨⟩)) fun _ => h.steady.noteStreamClosed_keeps raw
  split
  · exact Keeps.pure _
  · exact h.setStream_keeps _ _

theorem pollStream_keeps (raw : UInt64) : Keeps I (pollStreamGo q raw fuel) := by
  induction fuel with
  | zero => exact Keeps.diverge
  | succ fuel ih =>
    unfold pollStreamGo
    refine Keeps.bind (h.steady.call_keeps _) fun answer => ?_
    split
    · exact Keeps.pure _
    · exact Keeps.bind Keeps.get fun s => h.pushEvent_keeps (by rintro _ _ ⟨⟩)
    · refine Keeps.bind (h.reportData_keeps raw _) fun _ => ?_
      split
      · exact h.finishRead_keeps raw
      · exact ih

theorem ensureStreamDiscovered_keeps (raw : UInt64) : Keeps I (ensureStreamDiscovered q raw) := by
  refine Keeps.bind (Keeps.bind (h.steady.call_keeps _) fun _ => Keeps.pure _) fun isLocal => ?_
  refine Keeps.bind Keeps.get fun s => ?_
  dsimp only
  split
  · exact Keeps.bind (h.setStream_keeps _ _) fun _ => h.pushEvent_keeps (by rintro _ _ ⟨⟩)
  · exact h.setStream_keeps _ _

theorem pollStreams_keeps : Keeps I (pollStreams q fuel) := by
  refine Keeps.bind (h.steady.call_keeps _) fun established => ?_
  split
  · refine Keeps.bind (h.steady.call_keeps _) fun readable => ?_
    refine Keeps.bind (Keeps.forM fun raw _ => Keeps.bind (h.ensureStreamDiscovered_keeps raw)
      fun _ => h.pollStream_keeps raw) fun _ => ?_
    exact Keeps.bind h.steady.drainAndFlush_keeps fun _ => Keeps.modify fun s hs => h.gc s hs
  · exact Keeps.pure _

end Permissive

end Minip2p.Quic
