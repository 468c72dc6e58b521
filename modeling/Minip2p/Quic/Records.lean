import Minip2p.Quic.StreamMethods

/-!
# A record of the stream calls

What the adapter hands to quiche and gets from it cannot be read off the adapter's own state.
`Quiche.recorded q` answers as `q` does and keeps a record of every call about a stream in the
world, so that properties of the calls are properties of the session. A run over `q.recorded`
is a run over `q` with the record left out (`run_erase`).
-/

namespace Minip2p.Quic

variable {W : Type}

/-- A call of quiche about a stream, with its answer. -/
inductive Record
  | sent (raw : UInt64) (payload : Bytes) (fin : Bool) (answer : Except QuicheError Nat)
  | received (raw : UInt64) (answer : Except QuicheError (Bytes × Bool))
  | shut (raw : UInt64) (direction : Shutdown) (answer : Except QuicheError Unit)

/-- A world with a record. -/
abbrev Recorded (W : Type) := W × List Record

/-- A call that leaves the record as it is. -/
def unrecorded {α : Type} (op : W → α × W) (w : Recorded W) : α × Recorded W :=
  ((op w.1).1, (op w.1).2, w.2)

/-- A call that is added to the record, with its answer. -/
def recording {α : Type} (record : α → Record) (op : W → α × W) (w : Recorded W) :
    α × Recorded W :=
  ((op w.1).1, (op w.1).2, w.2 ++ [record (op w.1).1])

/-- quiche with a record of its stream calls; it answers as before. -/
def Quiche.recorded (q : Quiche W) : Quiche (Recorded W) where
  recv buf := unrecorded (q.recv buf)
  isEstablished := unrecorded q.isEstablished
  isServer := unrecorded q.isServer
  peerCert := unrecorded q.peerCert
  close code reason := unrecorded (q.close code reason)
  readable := unrecorded q.readable
  streamRecv raw := recording (.received raw) (q.streamRecv raw)
  streamSend raw payload fin := recording (.sent raw payload fin) (q.streamSend raw payload fin)
  streamShutdown raw direction := recording (.shut raw direction) (q.streamShutdown raw direction)
  send := unrecorded q.send
  sendTo packet := unrecorded (q.sendTo packet)
  keyOrder keys := unrecorded (q.keyOrder keys)
  keyOrder_perm keys w := q.keyOrder_perm keys w.1

/-- The record of a session. -/
def Session.log (s : Session (Recorded W)) : List Record := s.world.2

/-- A call that is not about a stream leaves no record. -/
theorem Quiche.Silent.snd_eq {q : Quiche W} {w w' : Recorded W} (h : q.recorded.Silent w w') :
    w'.2 = w.2 := by
  cases h <;> rfl

/-! ## Leaving the record out -/

/-- The session without its record. -/
def Session.erase (s : Session (Recorded W)) : Session W :=
  { s with world := s.world.1 }

/-- The record is no part of the connection. -/
theorem Session.erase_conn (s : Session (Recorded W)) : s.erase.conn = s.conn := rfl

/-- `m` does to a session with a record what `m'` does to the session without. -/
def Erases {α : Type} (m : Method (Recorded W) α) (m' : Method W α) : Prop :=
  ∀ s, (Prog.exec m s).map (fun p => (p.1, p.2.erase)) = Prog.exec m' s.erase

namespace Erases

variable {α β : Type}

theorem pure (a : α) : Erases (W := W) (pure a) (pure a) := fun _ => rfl

theorem throw (e : TransportError) : Erases (W := W) (α := α) (throw e) (throw e) := fun _ => rfl

theorem diverge : Erases (W := W) (α := α) Prog.diverge Prog.diverge := fun _ => rfl

theorem modify {f : Session (Recorded W) → Session (Recorded W)} {g : Session W → Session W}
    (h : ∀ s, (f s).erase = g s.erase) : Erases (modify f) (modify g) := by
  intro s
  rw [Prog.exec_modify, Prog.exec_modify, Option.map_some, h]

theorem call {op : Recorded W → α × Recorded W} {op' : W → α × W}
    (h : ∀ w, ((op w).1, (op w).2.1) = op' w.1) : Erases (Quic.call op) (Quic.call op') := by
  intro s
  have hop := h s.world
  show some (Except.ok (op s.world).1, (s.setWorld (op s.world).2).erase) =
    some (Except.ok (op' s.world.1).1, s.erase.setWorld (op' s.world.1).2)
  rw [← hop]
  rfl

/-- Steps in sequence. -/
theorem bind {m : Method (Recorded W) α} {m' : Method W α} {f : α → Method (Recorded W) β}
    {f' : α → Method W β} (hm : Erases m m') (hf : ∀ a, Erases (f a) (f' a)) :
    Erases (m >>= f) (m' >>= f') := by
  intro s
  rw [Prog.exec_bind, Prog.exec_bind, ← hm s]
  cases Prog.exec m s with
  | none => rfl
  | some p =>
    obtain ⟨r, s₁⟩ := p
    cases r with
    | error e => rfl
    | ok a => exact hf a s₁

/-- The rest may look at the session, but not at its record. -/
theorem get_bind {f : Session (Recorded W) → Method (Recorded W) β} {f' : Session W → Method W β}
    (hf : ∀ s, Erases (f s) (f' s.erase)) : Erases (get >>= f) (get >>= f') := by
  intro s
  rw [Prog.exec_bind_of_ok (Prog.exec_get s), Prog.exec_bind_of_ok (Prog.exec_get s.erase)]
  exact hf s s

theorem attempt {m : Method (Recorded W) α} {m' : Method W α} (hm : Erases m m') :
    Erases (Prog.attempt m) (Prog.attempt m') := by
  intro s
  rw [Prog.exec_attempt, Prog.exec_attempt, ← hm s, Option.map_map, Option.map_map]
  rfl

theorem forM {body : α → Method (Recorded W) PUnit} {body' : α → Method W PUnit}
    (h : ∀ a, Erases (body a) (body' a)) (items : List α) :
    Erases (items.forM body) (items.forM body') := by
  induction items with
  | nil => exact pure _
  | cons a items ih => exact bind (h a) fun _ => ih

end Erases

section Methods

variable {q : Quiche W} {fuel : Nat}

theorem erases_pushEvent (event : TransportEvent) :
    Erases (W := W) (pushEvent event) (pushEvent event) :=
  Erases.modify fun _ => rfl

theorem erases_setState (state : ConnectionState) :
    Erases (W := W) (setState state) (setState state) :=
  Erases.modify fun _ => rfl

theorem erases_setStream (raw : UInt64) (state : StreamRuntimeState) :
    Erases (W := W) (setStream raw state) (setStream raw state) :=
  Erases.modify fun _ => rfl

theorem erases_noteStreamClosed (raw : UInt64) :
    Erases (W := W) (noteStreamClosedIfFinished raw) (noteStreamClosedIfFinished raw) := by
  apply Erases.get_bind
  intro s
  simp only [Session.erase_conn]
  cases s.conn.streamStates[raw]? with
  | none => exact Erases.pure _
  | some state =>
    dsimp only
    split
    · exact Erases.bind (erases_setStream _ _) fun _ => erases_pushEvent _
    · exact Erases.pure _

/-- The record does not change what `flush` does. -/
theorem erases_flush : Erases (flush q.recorded fuel) (flush q fuel) := by
  unfold flush
  induction fuel with
  | zero => exact Erases.diverge
  | succ fuel ih =>
    refine Erases.get_bind fun s => Erases.bind (Erases.call fun _ => rfl) fun sent => ?_
    split
    · exact Erases.pure _
    · exact Erases.throw _
    · refine Erases.bind (Erases.call fun _ => rfl) fun answer => ?_
      split
      · exact Erases.throw _
      · exact ih

theorem erases_drainStream (raw : UInt64) :
    Erases (drainStreamGo q.recorded raw fuel) (drainStreamGo q raw fuel) := by
  induction fuel with
  | zero => exact Erases.diverge
  | succ fuel ih =>
    apply Erases.get_bind
    intro s
    simp only [Session.erase_conn]
    cases s.conn.streamStates[raw]? with
    | none => exact Erases.pure _
    | some state =>
      dsimp only
      split
      · exact Erases.pure _
      refine Erases.bind (Erases.call fun _ => rfl) fun answer => ?_
      split
      · exact Erases.pure _
      · exact Erases.throw _
      split
      · exact Erases.pure _
      · exact Erases.bind (erases_setStream _ _) fun _ =>
          Erases.bind (erases_noteStreamClosed _) fun _ => ih

theorem erases_drainSendQueue :
    Erases (drainSendQueue q.recorded fuel) (drainSendQueue q fuel) :=
  Erases.get_bind fun _ => Erases.bind (Erases.call fun _ => rfl) fun streamIds =>
    Erases.forM (fun raw => erases_drainStream raw) streamIds

theorem erases_drainAndFlush : Erases (drainAndFlush q.recorded fuel) (drainAndFlush q fuel) :=
  Erases.bind erases_drainSendQueue fun _ => erases_flush

theorem erases_isLocal (raw : UInt64) :
    Erases (isLocalInitiatedStream q.recorded raw) (isLocalInitiatedStream q raw) :=
  Erases.bind (Erases.call fun _ => rfl) fun _ => Erases.pure _

theorem erases_ensureStreamDiscovered (raw : UInt64) :
    Erases (ensureStreamDiscovered q.recorded raw) (ensureStreamDiscovered q raw) := by
  refine Erases.bind (erases_isLocal raw) fun isLocal => Erases.get_bind fun s => ?_
  show Erases (ite (!isLocal && !((s.conn.streamStates[raw]?).getD .default).incomingNotified) _ _)
    (ite (!isLocal && !((s.conn.streamStates[raw]?).getD .default).incomingNotified) _ _)
  split
  · exact Erases.bind (erases_setStream _ _) fun _ => erases_pushEvent _
  · exact erases_setStream _ _

theorem erases_rejectPeer (message : String) (code : Nat) (reason : String) :
    Erases (rejectPeer q.recorded fuel message code reason)
      (rejectPeer q fuel message code reason) :=
  Erases.get_bind fun _ => Erases.bind (erases_pushEvent _) fun _ =>
    Erases.bind (Erases.call fun _ => rfl) fun _ =>
      Erases.bind (erases_setState _) fun _ => erases_flush

theorem erases_openStream : Erases (W := W) openStream openStream := by
  apply Erases.get_bind
  intro s
  show Erases (ite (s.conn.state ≠ .connected) _ _) (ite (s.conn.state ≠ .connected) _ _)
  split
  · exact Erases.throw _
  refine Erases.bind (Erases.modify fun _ => rfl) fun _ => ?_
  show Erases (ite (s.conn.streamStates.contains s.conn.nextLocalBidiStreamId = true) _ _)
    (ite (s.conn.streamStates.contains s.conn.nextLocalBidiStreamId = true) _ _)
  split
  · exact Erases.throw _
  · exact Erases.bind (erases_setStream _ _) fun _ => Erases.pure _

theorem erases_getOrCreate (streamId : StreamId) :
    Erases (getOrCreateLocalStreamState q.recorded streamId)
      (getOrCreateLocalStreamState q streamId) := by
  apply Erases.get_bind
  intro s
  simp only [Session.erase_conn]
  cases s.conn.streamStates[streamId.asU64]? with
  | some state => exact Erases.pure _
  | none =>
    refine Erases.bind (erases_isLocal _) fun isLocal => ?_
    split
    · exact Erases.bind (erases_setStream _ _) fun _ => Erases.pure _
    · exact Erases.throw _

theorem erases_queueWrite (streamId : StreamId)
    (update : StreamRuntimeState → StreamRuntimeState) (refusal : ConnectionId → TransportError) :
    Erases (queueWrite q.recorded fuel streamId update fun s => refusal s.conn.id)
      (queueWrite q fuel streamId update fun s => refusal s.conn.id) := by
  refine Erases.bind (erases_getOrCreate streamId) fun state => Erases.get_bind fun s => ?_
  split
  · exact Erases.throw _
  · exact Erases.bind (erases_setStream _ _) fun _ => erases_drainAndFlush

theorem erases_sendStream (streamId : StreamId) (data : Bytes) :
    Erases (sendStream q.recorded fuel streamId data) (sendStream q fuel streamId data) := by
  by_cases hdata : data = []
  · rw [hdata]
    exact Erases.pure _
  · rw [sendStream_eq _ _ _ hdata, sendStream_eq _ _ _ hdata]
    exact erases_queueWrite streamId _ fun id =>
      .streamSendFailed id streamId "local stream write side is already closed"

theorem erases_closeStreamWrite (streamId : StreamId) :
    Erases (closeStreamWrite q.recorded fuel streamId) (closeStreamWrite q fuel streamId) :=
  erases_queueWrite streamId _ fun id =>
    .streamCloseWriteFailed id streamId "local stream write side is already closed"

theorem erases_shutdownStream (streamId : StreamId) (direction : Shutdown) (side : String) :
    Erases (shutdownStream q.recorded streamId direction side)
      (shutdownStream q streamId direction side) := by
  refine Erases.get_bind fun s => Erases.bind (Erases.call fun _ => rfl) fun answer => ?_
  split
  · exact Erases.pure _
  · exact Erases.throw _

theorem erases_resetStream (streamId : StreamId) :
    Erases (resetStream q.recorded streamId) (resetStream q streamId) := by
  apply Erases.get_bind
  intro s
  simp only [Session.erase_conn]
  cases s.conn.streamStates[streamId.asU64]? with
  | none => exact Erases.throw _
  | some state =>
    refine Erases.bind (erases_shutdownStream _ _ _) fun _ =>
      Erases.bind (erases_shutdownStream _ _ _) fun _ =>
        Erases.bind (erases_setStream _ _) fun _ => ?_
    split
    · exact erases_pushEvent _
    · exact Erases.pure _

theorem erases_close : Erases (close q.recorded fuel) (close q fuel) := by
  refine Erases.get_bind fun s => Erases.bind (Erases.call fun _ => rfl) fun answer => ?_
  split
  · exact Erases.throw _
  refine Erases.bind (erases_setState _) fun _ =>
    Erases.bind erases_drainSendQueue.attempt fun drained =>
      Erases.bind (Erases.modify fun _ => rfl) fun _ => ?_
  split
  · exact Erases.throw _
  · exact erases_flush

theorem erases_finishRead (raw : UInt64) :
    Erases (W := W) (finishRead raw) (finishRead raw) := by
  refine Erases.bind (Erases.get_bind fun s => ?_) fun _ => Erases.get_bind fun s =>
    Erases.bind (erases_pushEvent _) fun _ => erases_noteStreamClosed raw
  simp only [Session.erase_conn]
  cases s.conn.streamStates[raw]? with
  | none => exact Erases.pure _
  | some state => exact erases_setStream _ _

theorem erases_pollStream (raw : UInt64) :
    Erases (pollStream q.recorded fuel raw) (pollStream q fuel raw) := by
  refine Erases.bind (erases_ensureStreamDiscovered raw) fun _ => ?_
  induction fuel with
  | zero => exact Erases.diverge
  | succ fuel ih =>
    refine Erases.bind (Erases.call fun _ => rfl) fun answer => ?_
    split
    · exact Erases.pure _
    · exact Erases.get_bind fun _ => erases_pushEvent _
    next data fin =>
    have hreport : Erases (W := W) (reportData raw data) (reportData raw data) := by
      refine Erases.get_bind fun s => ?_
      split
      · exact Erases.pure _
      · exact erases_pushEvent _
    refine Erases.bind hreport fun _ => ?_
    split
    · exact erases_finishRead raw
    · exact ih

theorem erases_pollStreams : Erases (pollStreams q.recorded fuel) (pollStreams q fuel) := by
  refine Erases.bind (Erases.call fun _ => rfl) fun established => ?_
  split
  · exact Erases.bind (Erases.call fun _ => rfl) fun readable =>
      Erases.bind (Erases.forM (fun raw => erases_pollStream raw) readable) fun _ =>
        Erases.bind erases_drainAndFlush fun _ => Erases.modify fun _ => rfl
  · exact Erases.pure _

variable [MultihashCodec] (verifyLibp2pCertificate : Bytes → Except String PeerId)

theorem erases_verifyPeer :
    Erases (verifyPeer q.recorded fuel verifyLibp2pCertificate)
      (verifyPeer q fuel verifyLibp2pCertificate) := by
  have haccept : ∀ p, Erases (W := W) (do
      setPeerId p
      let s ← get
      pushEvent (.connected s.conn.id s.conn.endpoint)) (do
      setPeerId p
      let s ← get
      pushEvent (.connected s.conn.id s.conn.endpoint)) := fun p =>
    Erases.bind (Erases.modify fun _ => rfl) fun _ => Erases.get_bind fun _ => erases_pushEvent _
  refine Erases.bind (Erases.call fun _ => rfl) fun cert => ?_
  split
  · exact erases_rejectPeer _ _ _
  refine Erases.bind (Erases.modify fun _ => rfl) fun _ => ?_
  split
  · exact erases_rejectPeer _ _ _
  next p _ =>
  apply Erases.get_bind
  intro s
  simp only [Session.erase_conn]
  cases s.conn.endpoint.peerId with
  | none => exact haccept p
  | some expected =>
    dsimp only
    split
    · exact erases_rejectPeer _ _ _
    · exact haccept p

theorem erases_recvPacket (buf : Bytes) :
    Erases (recvPacket q.recorded fuel verifyLibp2pCertificate buf)
      (recvPacket q fuel verifyLibp2pCertificate buf) := by
  refine Erases.bind (Erases.call fun _ => rfl) fun answer => ?_
  split
  · exact Erases.get_bind fun _ => erases_pushEvent _
  have hcompleted : Erases (handshakeCompleted q.recorded) (handshakeCompleted q) := by
    apply Erases.get_bind
    intro s
    show Erases (ite (s.conn.state = .connecting) _ _) (ite (s.conn.state = .connecting) _ _)
    split
    · exact Erases.call fun _ => rfl
    · exact Erases.pure _
  refine Erases.bind hcompleted fun completed => ?_
  split
  · exact Erases.bind (erases_setState _) fun _ => Erases.bind erases_drainAndFlush fun _ =>
      erases_verifyPeer verifyLibp2pCertificate
  · exact erases_drainAndFlush

/-- The record does not change what a call does. -/
theorem erases_method (call : Call) :
    Erases (call.method q.recorded fuel verifyLibp2pCertificate)
      (call.method q fuel verifyLibp2pCertificate) := by
  cases call with
  | recvPacket buf => exact erases_recvPacket verifyLibp2pCertificate buf
  | pollStreams => exact erases_pollStreams
  | openStream => exact Erases.bind erases_openStream fun _ => Erases.pure _
  | sendStream streamId data => exact erases_sendStream streamId data
  | closeStreamWrite streamId => exact erases_closeStreamWrite streamId
  | resetStream streamId => exact erases_resetStream streamId
  | close => exact erases_close

/-- A run with a record is a run without it: the recorder answers as quiche does, and no method
looks at the record. -/
theorem run_erase (s : Session (Recorded W)) (calls : List Call) :
    (run q.recorded fuel verifyLibp2pCertificate s calls).map Session.erase =
      run q fuel verifyLibp2pCertificate s.erase calls := by
  induction calls generalizing s with
  | nil => rfl
  | cons call calls ih =>
    rw [run, run, ← erases_method verifyLibp2pCertificate call s]
    cases Prog.exec (call.method q.recorded fuel verifyLibp2pCertificate) s with
    | none => rfl
    | some p => exact ih p.2

end Methods

/-! ## What the calls of a run add up to -/

section Collect

variable [MultihashCodec] {α : Type} (q : Quiche W) (fuel : Nat)
  (verifyLibp2pCertificate : Bytes → Except String PeerId) (f : Session W → Call → List α)

/-- What `f` gives at each call of a run, in order. -/
def collect (s : Session W) : List Call → List α
  | [] => []
  | call :: calls =>
    f s call ++
      match Prog.exec (call.method q fuel verifyLibp2pCertificate) s with
      | none => []
      | some (_, s) => collect s calls

variable {q fuel verifyLibp2pCertificate f}

/-- A guard that follows at every call of the list. -/
theorem GuardedRun.imp_mem {guard guard' : Session W → Call → Prop} {s : Session W}
    {calls : List Call} (h : GuardedRun q fuel verifyLibp2pCertificate guard s calls)
    (himp : ∀ s, ∀ call ∈ calls, guard s call → guard' s call) :
    GuardedRun q fuel verifyLibp2pCertificate guard' s calls := by
  induction calls generalizing s with
  | nil => trivial
  | cons call calls ih =>
    refine ⟨himp s call List.mem_cons_self h.1, fun r s' hexec => ?_⟩
    exact ih (h.2 r s' hexec) fun s call' hmem => himp s call' (List.mem_cons_of_mem _ hmem)

/-- An invariant over what has been collected and the session, which every guarded call keeps. -/
theorem run_collect_invariant {guard : Session W → Call → Prop} {I : List α → Session W → Prop}
    (hstep : ∀ collected s call r s', I collected s → guard s call →
      Prog.exec (call.method q fuel verifyLibp2pCertificate) s = some (r, s') →
      I (collected ++ f s call) s')
    {collected : List α} {s s' : Session W} {calls : List Call} (hs : I collected s)
    (hguard : GuardedRun q fuel verifyLibp2pCertificate guard s calls)
    (hrun : run q fuel verifyLibp2pCertificate s calls = some s') :
    I (collected ++ collect q fuel verifyLibp2pCertificate f s calls) s' := by
  induction calls generalizing s collected with
  | nil =>
    cases hrun
    rw [collect, List.append_nil]
    exact hs
  | cons call calls ih =>
    obtain ⟨hcall, hrest⟩ := hguard
    rw [run] at hrun
    cases hexec : Prog.exec (call.method q fuel verifyLibp2pCertificate) s with
    | none =>
      rw [hexec] at hrun
      cases hrun
    | some p =>
      rw [hexec] at hrun
      rw [collect, hexec, ← List.append_assoc]
      exact ih (hstep collected s call p.1 p.2 hs hcall hexec) (hrest p.1 p.2 hexec) hrun

end Collect

end Minip2p.Quic
