import Minip2p.Lib.Logs
import Minip2p.Quic.Records

/-!
# The order of the writes on a stream

What quiche accepts on a stream is what `send_stream` queued there, from the front and without a
gap, and the FIN comes once and last (`writes_in_order`). The invariant `InOrder` splits the bytes
queued so far into those accepted and those still in the queue. It says nothing about a stream
once its StreamClosed has been emitted: the entry may then be collected, and a local id gets a new
one.
-/

namespace Minip2p.Quic

variable {W : Type}

/-! ## What is accepted and what is queued -/

/-- The bytes of the stream that quiche accepted with this call. -/
def Record.accepted (raw : UInt64) : Record → Bytes
  | .sent raw' payload _ (.ok written) => if raw' = raw then payload.take written else []
  | _ => []

/-- Whether quiche accepted the FIN of the stream with this call. -/
def Record.isFin (raw : UInt64) : Record → Bool
  | .sent raw' _ fin (.ok _) => fin && raw' == raw
  | _ => false

/-- The bytes of the stream that quiche accepted. -/
def accepted (raw : UInt64) (log : List Record) : Bytes := log.flatMap (Record.accepted raw)

/-- quiche never accepts more than it was offered. -/
def Quiche.AcceptsOffered (q : Quiche W) : Prop :=
  ∀ raw payload fin w written, (q.streamSend raw payload fin w).1 = .ok written →
    written ≤ payload.length

/-- Whether `send_stream` queues data on the stream: its write side is open, or it is a local id
without an entry. -/
def Session.takesWrites (q : Quiche W) (s : Session W) (raw : UInt64) : Bool :=
  match s.conn.streamStates[raw]? with
  | some state => !state.localWriteClosed
  | none => s.isLocal q raw

/-- The data a call queues on the stream. -/
def queuedBy (q : Quiche W) (raw : UInt64) (s : Session W) : Call → Bytes
  | .sendStream streamId data =>
    if streamId.asU64 = raw ∧ s.takesWrites q raw = true then data else []
  | _ => []

/-- The data `send_stream` queues on the stream in a run. -/
def queuedIn [MultihashCodec] (q : Quiche W) (fuel : Nat)
    (verifyLibp2pCertificate : Bytes → Except String PeerId) (raw : UInt64) (s : Session W)
    (calls : List Call) : Bytes :=
  collect q fuel verifyLibp2pCertificate (queuedBy q raw) s calls

theorem Session.takesWrites_of_some {q : Quiche W} {s : Session W} {raw : UInt64}
    {state : StreamRuntimeState} (h : s.conn.streamStates[raw]? = some state) :
    s.takesWrites q raw = !state.localWriteClosed := by
  rw [takesWrites, h]

theorem Session.takesWrites_of_none {q : Quiche W} {s : Session W} {raw : UInt64}
    (h : s.conn.streamStates[raw]? = none) : s.takesWrites q raw = s.isLocal q raw := by
  rw [takesWrites, h]

theorem accepted_append (raw : UInt64) (log log' : List Record) :
    accepted raw (log ++ log') = accepted raw log ++ accepted raw log' := List.flatMap_append

theorem accepted_singleton (raw : UInt64) (r : Record) : accepted raw [r] = r.accepted raw :=
  List.flatMap_singleton _ _

/-! ## The queue of a stream -/

/-- What is left of a write. -/
def PendingStreamWrite.unsent (write : PendingStreamWrite) : Bytes := write.bytes.drop write.offset

/-- A queue of writes with `fins` FINs: data that is not sent in full, then at most one FIN. The
lengths are those of a `Vec`. -/
inductive WriteQueue : List PendingStreamWrite → Nat → Prop
  | nil : WriteQueue [] 0
  | fin : WriteQueue [⟨[], 0, true⟩] 1
  | data {write : PendingStreamWrite} {rest : List PendingStreamWrite} {fins : Nat} :
    write.fin = false → write.offset < write.bytes.length → write.bytes.length < 2 ^ 64 →
    WriteQueue rest fins → WriteQueue (write :: rest) fins

namespace WriteQueue

variable {writes : List PendingStreamWrite}

theorem queueData (h : WriteQueue writes 0) {data : Bytes} (hdata : data ≠ [])
    (hsize : data.length < 2 ^ 64) : WriteQueue (writes ++ [⟨data, 0, false⟩]) 0 := by
  generalize hn : 0 = fins at h
  induction h with
  | nil => exact .data rfl (List.length_pos_iff.mpr hdata) hsize .nil
  | fin => cases hn
  | data hfin hoffset hlength _ ih => exact .data hfin hoffset hlength (ih hn)

theorem queueFin (h : WriteQueue writes 0) : WriteQueue (writes ++ [⟨[], 0, true⟩]) 1 := by
  generalize hn : 0 = fins at h
  induction h with
  | nil => exact .fin
  | fin => cases hn
  | data hfin hoffset hlength _ ih => exact .data hfin hoffset hlength (ih hn)

/-- The queue after quiche took `written` bytes of the front: the FIN is taken when nothing else
is left, and of data what was offered is a front of what is left. -/
theorem advance {write : PendingStreamWrite} {rest : List PendingStreamWrite} {fins written : Nat}
    (h : WriteQueue (write :: rest) fins) (hwritten : written ≤ write.unsent.length) :
    (write.fin = true ∧ rest = [] ∧ fins = 1 ∧ write.unsent = [] ∧
        advanceWrites write rest written = some []) ∨
      (write.fin = false ∧ written = 0 ∧ advanceWrites write rest written = none) ∨
      ∃ writes', write.fin = false ∧ advanceWrites write rest written = some writes' ∧
        WriteQueue writes' fins ∧
        write.unsent.take written ++ writes'.flatMap PendingStreamWrite.unsent =
          (write :: rest).flatMap PendingStreamWrite.unsent := by
  cases h with
  | fin => exact .inl ⟨rfl, rfl, rfl, rfl, rfl⟩
  | data hfin hoffset hlength hrest =>
    rw [PendingStreamWrite.unsent, List.length_drop] at hwritten
    -- no `usize` is exceeded
    have hmin : min (write.offset + written) (2 ^ 64 - 1) = write.offset + written := by omega
    simp only [advanceWrites, hfin, Bool.false_and, Bool.false_eq_true, if_false, hmin]
    by_cases hzero : written = 0
    · exact .inr (.inl ⟨trivial, hzero, if_pos hzero⟩)
    refine .inr (.inr ?_)
    rw [if_neg hzero]
    by_cases hend : write.offset + written ≥ write.bytes.length
    · refine ⟨rest, trivial, if_pos hend, hrest, ?_⟩
      have hall : write.unsent.length ≤ written := by
        rw [PendingStreamWrite.unsent, List.length_drop]
        omega
      rw [List.take_of_length_le hall, List.flatMap_cons]
    · refine ⟨⟨write.bytes, write.offset + written, write.fin⟩ :: rest, trivial, ?_, ?_, ?_⟩
      · rw [if_neg hend, hfin]
      · exact .data hfin (Nat.lt_of_not_ge hend) hlength hrest
      · have hsplit : write.unsent.take written ++ write.bytes.drop (write.offset + written) =
            write.unsent := by
          rw [← List.drop_drop]
          exact List.take_append_drop written write.unsent
        rw [List.flatMap_cons, List.flatMap_cons, ← List.append_assoc]
        exact congrArg (· ++ _) hsplit

end WriteQueue

/-! ## The invariant -/

/-- Of the bytes queued on the stream a front has been accepted and the rest is in the queue; the
FIN is in the queue or accepted exactly when the write side is closed, and it was accepted after
every byte. -/
structure InOrder (raw : UInt64) (queued : Bytes) (s : Session (Recorded W)) : Prop where
  bytes : accepted raw s.log ++
    (s.stream raw).pendingWrites.flatMap PendingStreamWrite.unsent = queued
  fins : ∃ fins, WriteQueue (s.stream raw).pendingWrites fins ∧
    s.log.countP (Record.isFin raw) + fins = if (s.stream raw).localWriteClosed then 1 else 0
  last : ∀ before r after, s.log = before ++ r :: after → r.isFin raw = true →
    accepted raw before = queued

namespace InOrder

variable {raw : UInt64} {queued : Bytes} {s s' : Session (Recorded W)}

/-- The session is changed where the stream does not look. -/
theorem of_eq (h : InOrder raw queued s) (hlog : s'.log = s.log)
    (hpending : (s'.stream raw).pendingWrites = (s.stream raw).pendingWrites)
    (hclosed : (s'.stream raw).localWriteClosed = (s.stream raw).localWriteClosed) :
    InOrder raw queued s' := by
  refine ⟨?_, ?_, ?_⟩
  · rw [hlog, hpending]
    exact h.bytes
  · rw [hlog, hpending, hclosed]
    exact h.fins
  · rw [hlog]
    exact h.last

/-- One more call: what it accepts comes off the front of the queue, the FIN when nothing else is
left. -/
theorem record (h : InOrder raw queued s) {r : Record} (hlog : s'.log = s.log ++ [r])
    (hbytes : accepted raw s.log ++ (r.accepted raw ++
      (s'.stream raw).pendingWrites.flatMap PendingStreamWrite.unsent) = queued)
    (hfins : ∃ fins, WriteQueue (s'.stream raw).pendingWrites fins ∧
      s.log.countP (Record.isFin raw) + ((if r.isFin raw then 1 else 0) + fins) =
        if (s'.stream raw).localWriteClosed then 1 else 0)
    (hlast : r.isFin raw = true → accepted raw s.log = queued) : InOrder raw queued s' := by
  refine ⟨?_, ?_, ?_⟩
  · rw [hlog, accepted_append, accepted_singleton, List.append_assoc]
    exact hbytes
  · obtain ⟨fins, hqueue, hcount⟩ := hfins
    refine ⟨fins, hqueue, ?_⟩
    rw [hlog, List.countP_append, List.countP_singleton, Nat.add_assoc]
    exact hcount
  · intro before x after hsplit hfin
    rw [hlog] at hsplit
    rcases Logs.concat_eq_append_cons hsplit with ⟨rfl, rfl, -⟩ | ⟨rest, -, hold⟩
    · exact hlast hfin
    · exact h.last before x rest hold hfin

/-- A call that accepts nothing of the stream. -/
theorem neutral (h : InOrder raw queued s) {r : Record} (hlog : s'.log = s.log ++ [r])
    (hr : r.accepted raw = [] ∧ r.isFin raw = false)
    (hpending : (s'.stream raw).pendingWrites = (s.stream raw).pendingWrites)
    (hclosed : (s'.stream raw).localWriteClosed = (s.stream raw).localWriteClosed) :
    InOrder raw queued s' := by
  refine h.record hlog ?_ ?_ fun hfin => ?_
  · rw [hr.1, List.nil_append, hpending]
    exact h.bytes
  · rw [hr.2, if_neg Bool.false_ne_true, hpending, hclosed]
    obtain ⟨fins, hqueue, hcount⟩ := h.fins
    exact ⟨fins, hqueue, by rw [Nat.zero_add]; exact hcount⟩
  · rw [hr.2] at hfin
    cases hfin

/-- Any entry is written back that has the same writes and the same write side. -/
theorem setStream (h : InOrder raw queued s) {raw' : UInt64} {state : StreamRuntimeState}
    (hpending : state.pendingWrites = (s.stream raw').pendingWrites)
    (hclosed : state.localWriteClosed = (s.stream raw').localWriteClosed) :
    InOrder raw queued (s.setStream raw' state) := by
  by_cases hraw : raw = raw'
  · subst hraw
    exact h.of_eq rfl (by rw [Session.stream_setStream_self, hpending])
      (by rw [Session.stream_setStream_self, hclosed])
  · exact h.of_eq rfl (by rw [Session.stream_setStream_of_ne s hraw])
      (by rw [Session.stream_setStream_of_ne s hraw])

/-- A stream whose FIN was accepted has its write side closed. -/
theorem not_isFin (h : InOrder raw queued s) (hopen : (s.stream raw).localWriteClosed = false) :
    WriteQueue (s.stream raw).pendingWrites 0 ∧ ∀ r ∈ s.log, r.isFin raw = false := by
  obtain ⟨fins, hqueue, hcount⟩ := h.fins
  rw [hopen, if_neg Bool.false_ne_true, Nat.add_eq_zero_iff] at hcount
  obtain ⟨hzero, rfl⟩ := hcount
  refine ⟨hqueue, fun r hr => ?_⟩
  exact Bool.eq_false_iff.mpr (List.countP_eq_zero.mp hzero r hr)

end InOrder

/-! ## Draining -/

/-- A call on another stream accepts nothing of this one. -/
theorem Record.sent_of_ne {raw raw' : UInt64} (hne : raw' ≠ raw) (payload : Bytes) (fin : Bool)
    (answer : Except QuicheError Nat) :
    (Record.sent raw' payload fin answer).accepted raw = [] ∧
      (Record.sent raw' payload fin answer).isFin raw = false := by
  cases answer with
  | error e => exact ⟨rfl, rfl⟩
  | ok written =>
    refine ⟨if_neg hne, ?_⟩
    rw [Record.isFin, beq_false_of_ne hne, Bool.and_false]

theorem Quiche.AcceptsOffered.offer {q : Quiche W} (hq : q.AcceptsOffered) {raw : UInt64}
    {pending : PendingStreamWrite} {w : Recorded W} {written : Nat}
    (h : (q.recorded.offer raw pending w).1 = .ok written) : written ≤ pending.unsent.length :=
  hq _ _ _ _ _ h

/-- The record of an offer. -/
theorem Session.log_offer (q : Quiche W) (s : Session (Recorded W)) (raw : UInt64)
    (pending : PendingStreamWrite) :
    (s.setWorld (q.recorded.offer raw pending s.world).2).log =
      s.log ++ [.sent raw pending.unsent (pending.fin && pending.unsent.isEmpty)
        (q.recorded.offer raw pending s.world).1] := rfl

/-- quiche takes some of the front of the queue. -/
theorem InOrder.advance {raw : UInt64} {queued : Bytes} {s s' : Session (Recorded W)}
    {pending : PendingStreamWrite} {rest writes : List PendingStreamWrite} {written : Nat}
    (h : InOrder raw queued s) (hpending : (s.stream raw).pendingWrites = pending :: rest)
    (hwritten : written ≤ pending.unsent.length)
    (hadvance : advanceWrites pending rest written = some writes)
    (hlog : s'.log = s.log ++ [.sent raw pending.unsent (pending.fin && pending.unsent.isEmpty)
      (.ok written)])
    (hwrites : (s'.stream raw).pendingWrites = writes)
    (hclosed : (s'.stream raw).localWriteClosed = (s.stream raw).localWriteClosed) :
    InOrder raw queued s' := by
  have hbytes := h.bytes
  obtain ⟨fins, hqueue, hcount⟩ := h.fins
  rw [hpending] at hqueue hbytes
  have haccepted : (Record.sent raw pending.unsent (pending.fin && pending.unsent.isEmpty)
      (.ok written)).accepted raw = pending.unsent.take written := if_pos rfl
  have hisFin : (Record.sent raw pending.unsent (pending.fin && pending.unsent.isEmpty)
      (.ok written)).isFin raw = (pending.fin && pending.unsent.isEmpty) := by
    rw [Record.isFin, beq_self_eq_true, Bool.and_true]
  rcases hqueue.advance hwritten with
    ⟨hfin, rfl, rfl, hunsent, hsome⟩ | ⟨-, -, hnone⟩ | ⟨_, hfin, hsome, hrest, hsplit⟩
  · -- the FIN: every byte has been accepted before
    cases hadvance.symm.trans hsome
    have hall : accepted raw s.log = queued := by
      rw [List.flatMap_singleton, hunsent, List.append_nil] at hbytes
      exact hbytes
    refine h.record hlog ?_ ⟨0, ?_, ?_⟩ fun _ => hall
    · rw [haccepted, hunsent, hwrites, List.take_nil, List.flatMap_nil, List.append_nil,
        List.append_nil]
      exact hall
    · rw [hwrites]
      exact .nil
    · rw [hisFin, hfin, hunsent, hclosed]
      exact hcount
  · rw [hadvance] at hnone
    cases hnone
  · -- data: what was accepted and what is left make up the write
    cases hadvance.symm.trans hsome
    refine h.record hlog ?_ ⟨fins, ?_, ?_⟩ fun hisTrue => ?_
    · rw [haccepted, hwrites, hsplit]
      exact hbytes
    · rw [hwrites]
      exact hrest
    · rw [hisFin, hfin, Bool.false_and, if_neg Bool.false_ne_true, Nat.zero_add, hclosed]
      exact hcount
    · rw [hisFin, hfin, Bool.false_and] at hisTrue
      cases hisTrue

theorem inOrder_drains {q : Quiche W} (hq : q.AcceptsOffered) (raw : UInt64) (queued : Bytes) :
    Drains q.recorded (InOrder raw queued) where
  silent s w hsilent hs := hs.of_eq hsilent.snd_eq rfl rfl
  offer s raw' state pending rest hstate hpending hnone hs := by
    refine hs.neutral (Session.log_offer q s raw' pending) ?_ rfl rfl
    by_cases hraw : raw' = raw
    · subst hraw
      -- the offer was turned down, or it was data and quiche took nothing
      cases hanswer : (q.recorded.offer raw' pending s.world).1 with
      | error e => exact ⟨rfl, rfl⟩
      | ok written =>
        obtain ⟨fins, hqueue, -⟩ := hs.fins
        rw [Session.stream_of_getElem? hstate, hpending] at hqueue
        rcases hqueue.advance (hq.offer hanswer) with
          ⟨-, -, -, -, hsome⟩ | ⟨hfin, hzero, -⟩ | ⟨_, -, hsome, -⟩
        · rw [hnone written hanswer] at hsome
          cases hsome
        · refine ⟨?_, ?_⟩
          · rw [Record.accepted, if_pos rfl, hzero, List.take_zero]
          · rw [Record.isFin, hfin, Bool.false_and, Bool.false_and]
        · rw [hnone written hanswer] at hsome
          cases hsome
    · exact Record.sent_of_ne hraw _ _ _
  write s raw' state pending rest written pendingWrites hstate hpending hanswer hadvance hs := by
    have hlog := Session.log_offer q s raw' pending
    by_cases hraw : raw' = raw
    · subst hraw
      rw [hanswer] at hlog
      have hstream : s.stream raw' = state := Session.stream_of_getElem? hstate
      refine hs.advance (by rw [hstream, hpending]) (hq.offer hanswer) hadvance hlog ?_ ?_
      · rw [Session.stream_setStream_self]
      · rw [Session.stream_setStream_self, hstream]
    · refine hs.neutral hlog (Record.sent_of_ne hraw _ _ _) ?_ ?_
      · rw [Session.stream_setStream_of_ne _ (Ne.symm hraw)]
        rfl
      · rw [Session.stream_setStream_of_ne _ (Ne.symm hraw)]
        rfl
  note s raw' state hstate _ _ hs := by
    have hstream : s.stream raw' = state := Session.stream_of_getElem? hstate
    have hset : InOrder raw queued (s.setStream raw' { state with closedNotified := true }) :=
      hs.setStream (by rw [hstream]) (by rw [hstream])
    exact hset.of_eq rfl rfl rfl

/-! ## The other methods -/

theorem inOrder_receives {q : Quiche W} (hq : q.AcceptsOffered) (raw : UInt64) (queued : Bytes) :
    Receives q.recorded (InOrder raw queued) where
  toDrains := inOrder_drains hq raw queued
  state _ _ hs := hs.of_eq rfl rfl rfl
  cert _ _ hs := hs.of_eq rfl rfl rfl
  peer _ _ hs := hs.of_eq rfl rfl rfl
  event _ _ _ hs := hs.of_eq rfl rfl rfl

section Queueing

variable {q : Quiche W} {raw : UInt64} {queued : Bytes} {s : Session (Recorded W)}

/-- Data that is put into the queue of the stream is queued. -/
theorem InOrder.queueData (h : InOrder raw queued s) {data : Bytes} (hdata : data ≠ [])
    (hsize : data.length < 2 ^ 64) (hopen : (s.stream raw).localWriteClosed = false) :
    InOrder raw (queued ++ data) (s.setStream raw ((s.stream raw).queueData data)) := by
  obtain ⟨hqueue, hnone⟩ := h.not_isFin hopen
  obtain ⟨fins, -, hcount⟩ := h.fins
  refine ⟨?_, ⟨0, ?_, ?_⟩, ?_⟩
  · rw [Session.stream_setStream_self, StreamRuntimeState.queueData, List.flatMap_append,
      List.flatMap_singleton, ← List.append_assoc]
    exact congrArg (· ++ data) h.bytes
  · rw [Session.stream_setStream_self]
    exact hqueue.queueData hdata hsize
  · rw [Session.stream_setStream_self, StreamRuntimeState.queueData]
    dsimp only
    rw [hopen]
    exact List.countP_eq_zero.mpr fun r hr => Bool.eq_false_iff.mp (hnone r hr)
  · intro before r after hsplit hfin
    have hmem : r ∈ s.log := by
      show r ∈ (s.setStream raw ((s.stream raw).queueData data)).log
      rw [hsplit]
      exact List.mem_append_right _ List.mem_cons_self
    rw [hnone r hmem] at hfin
    cases hfin

/-- The FIN is put into the queue once. -/
theorem InOrder.queueFin (h : InOrder raw queued s)
    (hopen : (s.stream raw).localWriteClosed = false) :
    InOrder raw queued (s.setStream raw (s.stream raw).queueFin) := by
  obtain ⟨hqueue, hnone⟩ := h.not_isFin hopen
  refine ⟨?_, ⟨1, ?_, ?_⟩, h.last⟩
  · rw [Session.stream_setStream_self, StreamRuntimeState.queueFin, List.flatMap_append]
    have hempty : [(⟨[], 0, true⟩ : PendingStreamWrite)].flatMap PendingStreamWrite.unsent = [] :=
      rfl
    rw [hempty, List.append_nil]
    exact h.bytes
  · rw [Session.stream_setStream_self]
    exact hqueue.queueFin
  · have hzero : s.log.countP (Record.isFin raw) = 0 :=
      List.countP_eq_zero.mpr fun r hr => Bool.eq_false_iff.mp (hnone r hr)
    rw [Session.stream_setStream_self]
    show s.log.countP (Record.isFin raw) + 1 = 1
    rw [hzero]

end Queueing

/-- An entry of another stream does not matter. -/
theorem InOrder.setStream_of_ne {raw raw' : UInt64} {queued : Bytes} {s : Session (Recorded W)}
    (h : InOrder raw queued s) (hne : raw ≠ raw') (state : StreamRuntimeState) :
    InOrder raw queued (s.setStream raw' state) :=
  h.of_eq rfl (by rw [Session.stream_setStream_of_ne s hne])
    (by rw [Session.stream_setStream_of_ne s hne])

theorem sendStream_inOrder {q : Quiche W} (hq : q.AcceptsOffered) {fuel : Nat} {raw : UInt64}
    {queued : Bytes} {s₀ : Session (Recorded W)} (hs₀ : InOrder raw queued s₀)
    (streamId : StreamId) (data : Bytes) (hsize : data.length < 2 ^ 64) :
    Triple (fun s => s = s₀) (sendStream q.recorded fuel streamId data)
      (fun _ => InOrder raw (queued ++ queuedBy q.recorded raw s₀ (.sendStream streamId data)))
      (InOrder raw (queued ++ queuedBy q.recorded raw s₀ (.sendStream streamId data))) := by
  have hstay : queuedBy q.recorded raw s₀ (.sendStream streamId data) = [] →
      InOrder raw (queued ++ queuedBy q.recorded raw s₀ (.sendStream streamId data)) s₀ := by
    intro hnone
    rw [hnone, List.append_nil]
    exact hs₀
  by_cases hdata : data = []
  · rw [hdata] at hstay ⊢
    refine Triple.pure fun s hs => hs ▸ hstay ?_
    rw [queuedBy, ite_self]
  rw [sendStream_eq _ _ _ hdata]
  refine Queues.queueWrite_triple ?_ (inOrder_drains hq raw _)
  -- whether the write is queued is decided by the entry of the stream
  by_cases hraw : raw = streamId.asU64
  · subst hraw
    have hqueuedBy : queuedBy q.recorded streamId.asU64 s₀ (.sendStream streamId data) =
        if s₀.takesWrites q.recorded streamId.asU64 = true then data else [] := by
      simp only [queuedBy, true_and]
    have hopen : s₀.takesWrites q.recorded streamId.asU64 = true →
        (s₀.stream streamId.asU64).localWriteClosed = false →
        InOrder streamId.asU64
          (queued ++ queuedBy q.recorded streamId.asU64 s₀ (.sendStream streamId data))
          (s₀.setStream streamId.asU64 ((s₀.stream streamId.asU64).queueData data)) := by
      intro htakes hwritable
      rw [hqueuedBy, if_pos htakes]
      exact hs₀.queueData hdata hsize hwritable
    constructor
    · rintro _ state hstate hclosed rfl
      apply hstay
      rw [hqueuedBy, Session.takesWrites_of_some hstate, hclosed]
      rfl
    · rintro s state hstate hwritable rfl
      have hstream : s.stream streamId.asU64 = state := Session.stream_of_getElem? hstate
      rw [← hstream] at hwritable ⊢
      refine hopen ?_ hwritable
      rw [Session.takesWrites_of_some hstate, ← hstream, hwritable]
      rfl
    · rintro s hnone hlocal rfl
      have hstream := Session.stream_of_none hnone
      have htakes := (Session.takesWrites_of_none hnone).trans hlocal
      have hset := hopen htakes (by rw [hstream]; rfl)
      rw [hstream] at hset
      exact hset.of_eq rfl rfl rfl
    · rintro s hnone hremote rfl
      refine (hstay ?_).of_eq rfl rfl rfl
      rw [hqueuedBy, Session.takesWrites_of_none hnone, hremote]
      rfl
  · have hother : queuedBy q.recorded raw s₀ (.sendStream streamId data) = [] :=
      if_neg fun h => hraw h.1.symm
    constructor
    · rintro _ _ _ _ rfl
      exact hstay hother
    · rintro _ _ _ _ rfl
      exact (hstay hother).setStream_of_ne hraw _
    · rintro s _ _ rfl
      have hasked : InOrder raw _ (s.askServer q.recorded) := (hstay hother).of_eq rfl rfl rfl
      exact hasked.setStream_of_ne hraw _
    · rintro _ _ _ rfl
      exact (hstay hother).of_eq rfl rfl rfl

theorem closeStreamWrite_inOrder {q : Quiche W} (hq : q.AcceptsOffered) {fuel : Nat}
    {raw : UInt64} {queued : Bytes} (streamId : StreamId) :
    Keeps (InOrder raw queued) (closeStreamWrite q.recorded fuel streamId) := by
  rw [closeStreamWrite_eq]
  refine Queues.queueWrite_triple ?_ (inOrder_drains hq raw _)
  -- the stream's own FIN, or the one of another stream
  have hfin : ∀ s : Session (Recorded W), InOrder raw queued s →
      (s.stream streamId.asU64).localWriteClosed = false →
      InOrder raw queued (s.setStream streamId.asU64 (s.stream streamId.asU64).queueFin) := by
    intro s hs hopen
    by_cases hraw : raw = streamId.asU64
    · subst hraw
      exact hs.queueFin hopen
    · exact hs.setStream_of_ne hraw _
  constructor
  · intro s _ _ _ hs
    exact hs
  · intro s state hstate hopen hs
    have hstream : s.stream streamId.asU64 = state := Session.stream_of_getElem? hstate
    rw [← hstream] at hopen ⊢
    exact hfin s hs hopen
  · intro s hnone _ hs
    have hstream := Session.stream_of_none hnone
    have hset := hfin s hs (by rw [hstream]; rfl)
    rw [hstream] at hset
    exact hset.of_eq rfl rfl rfl
  · intro s _ _ hs
    exact hs.of_eq rfl rfl rfl

/-- A new entry is that of a stream without one. -/
theorem openStream_inOrder {raw : UInt64} {queued : Bytes} :
    Keeps (InOrder raw queued) (openStream : Method (Recorded W) StreamId) := by
  intro s hs r s' hr
  have hend : InOrder raw queued s' := by
    rw [exec_openStream] at hr
    split at hr
    · cases hr
      exact hs
    split at hr
    · cases hr
      exact hs.of_eq rfl rfl rfl
    · next hnew =>
      cases hr
      have hnone : s.conn.streamStates[s.conn.nextLocalBidiStreamId]? = none := by
        rw [Bool.not_eq_true] at hnew
        exact Std.ExtTreeMap.getElem?_eq_none_of_contains_eq_false hnew
      have hstream := Session.stream_of_none hnone
      have hcounter : InOrder raw queued
          (s.setNextStreamId (s.conn.nextLocalBidiStreamId + 4)) := hs.of_eq rfl rfl rfl
      exact hcounter.setStream (by rw [← hstream]; rfl) (by rw [← hstream]; rfl)
  exact ⟨fun _ _ => hend, fun _ _ => hend⟩

theorem resetStream_inOrder {q : Quiche W} {raw : UInt64} {queued : Bytes} {streamId : StreamId}
    (hne : raw ≠ streamId.asU64) :
    Keeps (InOrder raw queued) (resetStream q.recorded streamId) := by
  have hshut : ∀ (direction : Shutdown) (s : Session (Recorded W)), InOrder raw queued s →
      InOrder raw queued (s.shut q.recorded streamId.asU64 direction) :=
    fun _ _ hs => hs.neutral rfl ⟨rfl, rfl⟩ rfl rfl
  intro s hs r s' hr
  have hend : InOrder raw queued s' := by
    rw [exec_resetStream] at hr
    split at hr
    · cases hr
      exact hs
    split at hr
    · cases hr
      exact hshut _ _ hs
    dsimp only at hr
    split at hr
    · cases hr
      exact hshut _ _ (hshut _ _ hs)
    · cases hr
      have hreset := (hshut .read _ (hshut .write _ hs)).setStream_of_ne hne
      unfold Session.finishReset
      split
      · exact hreset _
      · exact (hreset _).of_eq rfl rfl rfl
  exact ⟨fun _ _ => hend, fun _ _ => hend⟩

theorem close_inOrder {q : Quiche W} (hq : q.AcceptsOffered) {fuel : Nat} {raw : UInt64}
    {queued : Bytes} : Keeps (InOrder raw queued) (close q.recorded fuel) := by
  have hdrains := inOrder_drains hq raw queued
  intro s hs
  refine close_triple hdrains hdrains hs (fun w hsilent => ?_) (fun s hs => ?_) s rfl
  · exact (hdrains.silent s w hsilent hs).of_eq rfl rfl rfl
  · exact hs.of_eq rfl rfl rfl

/-! ## Polling -/

/-- StreamClosed has been pushed, or the stream is as it should be and will not be collected. -/
def InOrderUntilClosed (raw : UInt64) (queued : Bytes) (s : Session (Recorded W)) : Prop :=
  s.events.any (isClosedEvent raw) = true ∨
    ((s.stream raw).closedNotified = false ∧ InOrder raw queued s)

namespace InOrderUntilClosed

variable {raw : UInt64} {queued : Bytes} {s s' : Session (Recorded W)}

/-- More events and the same flag. -/
theorem mono (h : InOrderUntilClosed raw queued s)
    (hevents : ∃ events, s'.events = s.events ++ events)
    (hflag : (s'.stream raw).closedNotified = (s.stream raw).closedNotified)
    (horder : InOrder raw queued s → InOrder raw queued s') :
    InOrderUntilClosed raw queued s' := by
  rcases h with hclosed | ⟨hopen, hs⟩
  · obtain ⟨events, heq⟩ := hevents
    rw [InOrderUntilClosed, heq, List.any_append, hclosed]
    exact .inl rfl
  · exact .inr ⟨hflag.trans hopen, horder hs⟩

/-- Any entry but that of a closed stream is written back. -/
theorem setStream (h : InOrderUntilClosed raw queued s) {raw' : UInt64}
    {state : StreamRuntimeState} (hpending : state.pendingWrites = (s.stream raw').pendingWrites)
    (hclosed : state.localWriteClosed = (s.stream raw').localWriteClosed)
    (hflag : state.closedNotified = (s.stream raw').closedNotified) :
    InOrderUntilClosed raw queued (s.setStream raw' state) := by
  refine h.mono ⟨[], (List.append_nil _).symm⟩ ?_ fun hs => hs.setStream hpending hclosed
  by_cases hraw : raw = raw'
  · subst hraw
    rw [Session.stream_setStream_self, hflag]
  · rw [Session.stream_setStream_of_ne s hraw]

theorem push (h : InOrderUntilClosed raw queued s) (event : TransportEvent) :
    InOrderUntilClosed raw queued (s.push event) :=
  h.mono ⟨[event], rfl⟩ rfl fun hs => hs.of_eq rfl rfl rfl

theorem report (h : InOrderUntilClosed raw queued s) (raw' : UInt64) (data : Bytes) :
    InOrderUntilClosed raw queued (s.report raw' data) := by
  unfold Session.report
  split
  · exact h
  · exact h.push _

/-- A stream that is not closed is not collected. -/
theorem gcStreams (h : InOrderUntilClosed raw queued s) :
    InOrderUntilClosed raw queued s.gcStreams := by
  rcases h with hclosed | ⟨hopen, hs⟩
  · exact .inl hclosed
  · have hstream := Session.stream_gcStreams hopen
    exact .inr ⟨by rw [hstream]; exact hopen, hs.of_eq rfl (by rw [hstream]) (by rw [hstream])⟩

end InOrderUntilClosed

theorem inOrderUntilClosed_drains {q : Quiche W} (hq : q.AcceptsOffered) (raw : UInt64)
    (queued : Bytes) : Drains q.recorded (InOrderUntilClosed raw queued) where
  silent s w hsilent hs := hs.mono ⟨[], (List.append_nil _).symm⟩ rfl
    ((inOrder_drains hq raw queued).silent s w hsilent)
  offer s raw' state pending rest hstate hpending hnone hs :=
    hs.mono ⟨[], (List.append_nil _).symm⟩ rfl
      ((inOrder_drains hq raw queued).offer s raw' state pending rest hstate hpending hnone)
  write s raw' state pending rest written pendingWrites hstate hpending hanswer hadvance hs := by
    refine hs.mono ⟨[], (List.append_nil _).symm⟩ ?_ ((inOrder_drains hq raw queued).write s raw'
      state pending rest written pendingWrites hstate hpending hanswer hadvance)
    by_cases hraw : raw = raw'
    · subst hraw
      rw [Session.stream_setStream_self, Session.stream_of_getElem? hstate]
    · rw [Session.stream_setStream_of_ne _ hraw]
      rfl
  note s raw' state hstate hfull hflag hs := by
    by_cases hraw : raw = raw'
    · subst hraw
      refine .inl (List.any_eq_true.mpr ⟨_, List.mem_append_right _ List.mem_cons_self, ?_⟩)
      rw [isClosedEvent, beq_self_eq_true]
    · refine hs.mono ⟨_, rfl⟩ ?_
        ((inOrder_drains hq raw queued).note s raw' state hstate hfull hflag)
      show ((s.setStream raw' _).stream raw).closedNotified = _
      rw [Session.stream_setStream_of_ne _ hraw]

theorem inOrderUntilClosed_reads {q : Quiche W} (hq : q.AcceptsOffered) (raw raw' : UInt64)
    (queued : Bytes) : Reads q.recorded raw' (InOrderUntilClosed raw queued)
      (InOrderUntilClosed raw queued) (InOrderUntilClosed raw queued) := by
  have hdrains := inOrderUntilClosed_drains hq raw queued
  -- a read accepts nothing
  have hread : ∀ s : Session (Recorded W), InOrderUntilClosed raw queued s →
      InOrderUntilClosed raw queued (s.setWorld (q.recorded.streamRecv raw' s.world).2) :=
    fun s hs => hs.mono ⟨[], (List.append_nil _).symm⟩ rfl
      fun hs => hs.neutral rfl ⟨rfl, rfl⟩ rfl rfl
  constructor
  · intro s hs
    have hasked : InOrderUntilClosed raw queued (s.askServer q.recorded) :=
      hdrains.silent s _ (.isServer _) hs
    unfold Session.discover
    split
    · apply InOrderUntilClosed.push
      exact hasked.setStream rfl rfl rfl
    · exact hasked.setStream rfl rfl rfl
  · intro s _ _ _ hs
    exact hread s hs
  · intro s _ _ _ _ _ hs
    exact (hread s hs).push _
  · intro s _ data _ _ hs
    exact (hread s hs).report raw' data
  · intro s state data hstate _ hs
    have hentry : ((s.setWorld (q.recorded.streamRecv raw' s.world).2).report raw'
        data).conn.streamStates[raw']? = some state := by
      rw [Session.getElem?_report]
      exact hstate
    refine (((hread s hs).report raw' data).setStream ?_ ?_ ?_).push _
    all_goals rw [Session.stream_of_getElem? hentry]
  · intro s state
    exact hdrains.note s raw' state

theorem pollStreams_inOrder {q : Quiche W} (hq : q.AcceptsOffered) {fuel : Nat} {raw : UInt64}
    {queued : Bytes} :
    Keeps (InOrderUntilClosed raw queued) (pollStreams q.recorded fuel) := by
  have hdrains := inOrderUntilClosed_drains hq raw queued
  intro s hs
  refine pollStreams_triple (P := fun _ => InOrderUntilClosed raw queued)
    (R := fun _ _ => InOrderUntilClosed raw queued) hdrains hs ?_ ?_ ?_ ?_ s rfl
  · intro _
    exact hdrains.polled hs
  · intro raw' _
    exact inOrderUntilClosed_reads hq raw raw' queued
  · exact fun _ hs => hs
  · exact fun _ hs => hs.gcStreams

/-! ## Runs -/

/-- One call that does not reset the stream, on a stream that has not been closed: it is closed
afterwards, or what the call queued is accounted for. -/
theorem call_inOrder [MultihashCodec] {q : Quiche W} (hq : q.AcceptsOffered) {fuel : Nat}
    {verifyLibp2pCertificate : Bytes → Except String PeerId} {raw : UInt64} {queued : Bytes}
    {call : Call} {s s' : Session (Recorded W)} {r : Except TransportError Unit}
    (hs : InOrder raw queued s) (hopen : ¬ s.closeEmitted raw)
    (hreset : call ≠ .resetStream ⟨raw⟩)
    (hsize : ∀ streamId data, call = .sendStream streamId data → data.length < 2 ^ 64)
    (hexec : Prog.exec (call.method q.recorded fuel verifyLibp2pCertificate) s = some (r, s')) :
    s'.closeEmitted raw ∨ InOrder raw (queued ++ queuedBy q.recorded raw s call) s' := by
  -- only `send_stream` queues anything
  have hnothing : InOrder raw queued s' → InOrder raw (queued ++ []) s' := by
    rw [List.append_nil]
    exact id
  cases call with
  | recvPacket buf =>
    exact .inr (hnothing (((inOrder_receives hq raw queued).recvPacket_keeps
      verifyLibp2pCertificate buf).of_exec hs hexec))
  | pollStreams =>
    have hstart : InOrderUntilClosed raw queued s := by
      refine .inr ⟨?_, hs⟩
      rw [Session.closeEmitted, not_or] at hopen
      exact Bool.eq_false_iff.mpr hopen.2
    rcases (pollStreams_inOrder hq).of_exec hstart hexec with hclosed | ⟨-, hend⟩
    · exact .inl (.inl hclosed)
    · exact .inr (hnothing hend)
  | openStream =>
    exact .inr (hnothing (Keeps.of_exec (Keeps.bind openStream_inOrder fun _ => Keeps.pure _)
      hs hexec))
  | sendStream streamId data =>
    exact .inr ((sendStream_inOrder hq hs streamId data (hsize _ _ rfl)).of_exec rfl hexec)
  | closeStreamWrite streamId =>
    exact .inr (hnothing ((closeStreamWrite_inOrder hq streamId).of_exec hs hexec))
  | resetStream streamId =>
    have hne : raw ≠ streamId.asU64 := by
      rintro rfl
      exact hreset rfl
    exact .inr (hnothing ((resetStream_inOrder hne).of_exec hs hexec))
  | close => exact .inr (hnothing ((close_inOrder hq).of_exec hs hexec))

/-- In every run in which a stream is not reset, and as long as its StreamClosed has not been
emitted, what quiche accepted on it is a front of what `send_stream` queued; the FIN is accepted
at most once, and when it is, everything that is ever queued has been accepted before. -/
theorem writes_in_order [MultihashCodec] (q : Quiche W) (hq : q.AcceptsOffered) (fuel : Nat)
    (verifyLibp2pCertificate : Bytes → Except String PeerId) (id : ConnectionId)
    (transport : Multiaddr) (dialed : Option PeerId) (world : W) (raw : UInt64)
    (calls : List Call) (s : Session (Recorded W)) (hreset : .resetStream ⟨raw⟩ ∉ calls)
    (hsize : ∀ streamId data, .sendStream streamId data ∈ calls → data.length < 2 ^ 64)
    (hopen : GuardedRun q.recorded fuel verifyLibp2pCertificate
      (fun s _ => ¬ s.closeEmitted raw) (new q.recorded id transport dialed (world, [])) calls)
    (hrun : run q.recorded fuel verifyLibp2pCertificate
      (new q.recorded id transport dialed (world, [])) calls = some s)
    (hlast : ¬ s.closeEmitted raw) :
    accepted raw s.log <+: queuedIn q.recorded fuel verifyLibp2pCertificate raw
        (new q.recorded id transport dialed (world, [])) calls ∧
      s.log.countP (Record.isFin raw) ≤ 1 ∧
      ∀ before r after, s.log = before ++ r :: after → r.isFin raw = true →
        accepted raw before = queuedIn q.recorded fuel verifyLibp2pCertificate raw
          (new q.recorded id transport dialed (world, [])) calls := by
  have hnone : (new q.recorded id transport dialed (world, [])).stream raw = .default :=
    Session.stream_of_none Std.ExtTreeMap.getElem?_empty
  have hlog : (new q.recorded id transport dialed (world, [])).log = [] := rfl
  have hnew : InOrder raw [] (new q.recorded id transport dialed (world, [])) := by
    refine ⟨?_, ⟨0, ?_, ?_⟩, ?_⟩
    · rw [hnone, hlog]
      rfl
    · rw [hnone]
      exact .nil
    · rw [hnone, hlog]
      rfl
    · intro before r after hsplit
      rw [hlog] at hsplit
      cases before <;> cases hsplit
  have hguard : GuardedRun q.recorded fuel verifyLibp2pCertificate
      (fun s call => ¬ s.closeEmitted raw ∧ call ≠ .resetStream ⟨raw⟩ ∧
        ∀ streamId data, call = .sendStream streamId data → data.length < 2 ^ 64)
      (new q.recorded id transport dialed (world, [])) calls := by
    refine hopen.imp_mem fun s call hmem hcall => ⟨hcall, ?_, ?_⟩
    · rintro rfl
      exact hreset hmem
    · rintro streamId data rfl
      exact hsize streamId data hmem
  -- StreamClosed has been emitted at some point, or everything queued is accounted for
  have hinv := run_collect_invariant
    (I := fun queued s => s.closeEmitted raw ∨ InOrder raw queued s)
    (fun queued s call r s' hs hcall hexec => call_inOrder hq (hs.resolve_left hcall.1) hcall.1
      hcall.2.1 hcall.2.2 hexec)
    (.inr hnew) hguard hrun
  have hend := hinv.resolve_left hlast
  rw [List.nil_append] at hend
  obtain ⟨fins, -, hcount⟩ := hend.fins
  refine ⟨⟨_, hend.bytes⟩, ?_, hend.last⟩
  split at hcount <;> omega

/-- A verified peer; quiche takes at most two bytes at a time. -/
def sipQuiche : Quiche Unit :=
  { quietQuiche with streamSend := fun _ payload _ w => (.ok (min 2 payload.length), w) }

/-- A write of three bytes and a FIN. -/
def sipCalls : List Call :=
  [.recvPacket [], .openStream, .sendStream ⟨0⟩ [1, 2, 3], .closeStreamWrite ⟨0⟩]

/-- Three bytes go out in two pieces, then the FIN. -/
theorem writes_in_order_sip :
    ∃ s, @run _ multihashCodec sipQuiche.recorded 4 (fun _ => .ok somePeer)
        (new sipQuiche.recorded ⟨1⟩ ⟨[.quicV1]⟩ (some somePeer) ((), [])) sipCalls = some s ∧
      s.log.length = 3 ∧ accepted 0 s.log = [1, 2, 3] ∧ s.log.countP (Record.isFin 0) = 1 ∧
      accepted 0 s.log <+: @queuedIn _ multihashCodec sipQuiche.recorded 4
        (fun _ => .ok somePeer) 0
        (new sipQuiche.recorded ⟨1⟩ ⟨[.quicV1]⟩ (some somePeer) ((), [])) sipCalls := by
  refine ⟨_, rfl, rfl, rfl, rfl, ?_⟩
  refine (@writes_in_order Unit multihashCodec sipQuiche ?_ 4 (fun _ => .ok somePeer) ⟨1⟩
    ⟨[.quicV1]⟩ (some somePeer) () 0 sipCalls _ (by decide) ?_ ?_ rfl ?_).1
  · intro raw payload fin w written h
    cases h
    exact Nat.min_le_right _ _
  · intro streamId data hmem
    simp only [sipCalls, List.mem_cons, reduceCtorEq, List.not_mem_nil, or_false, false_or,
      Call.sendStream.injEq] at hmem
    rw [hmem.2]
    decide
  · refine ⟨?_, fun r s hexec => ?_⟩
    · rintro (h | h) <;> cases h
    cases hexec
    refine ⟨?_, fun r s hexec => ?_⟩
    · rintro (h | h) <;> cases h
    cases hexec
    refine ⟨?_, fun r s hexec => ?_⟩
    · rintro (h | h) <;> cases h
    cases hexec
    refine ⟨?_, fun r s hexec => trivial⟩
    rintro (h | h) <;> cases h
  · rintro (h | h) <;> cases h

end Minip2p.Quic
