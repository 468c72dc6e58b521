import Minip2p.Quic.WriteOrder

/-!
# Failed writes and resets

What stays behind when quiche refuses a write or a shutdown. A drain stops at the first write that
fails: the write keeps its place in the queue, so the next drain fails again, and the streams
behind it get nothing (`drain_not_isolated`). A reset that quiche takes leaves the pending writes
where they are, and one that quiche takes only half of is reported as failed
(`resetHonoured_iff`).
-/

namespace Minip2p.Quic

variable {W : Type}

/-! ## Failed writes -/

/-- What was handed to quiche for the stream. -/
def offered (raw : UInt64) (log : List Record) : List (Bytes × Bool) :=
  log.filterMap fun
    | .sent raw' payload fin _ => if raw' = raw then some (payload, fin) else none
    | _ => none

/-- Whether a call is a `stream_send` that failed with another error than Done. -/
def Record.isFailedSend : Record → Bool
  | .sent _ _ _ (.error (.other _)) => true
  | _ => false

/-- The session in which the stream has no pending writes. -/
def Session.withoutWrites (s : Session W) (raw : UInt64) : Session W :=
  s.setStream raw { s.stream raw with pendingWrites := [] }

/-- The write that was handed to quiche last is still the next one of the stream. -/
def Session.stillQueued (s : Session W) (raw : UInt64) (payload : Bytes) : Prop :=
  ∃ write rest, (s.stream raw).pendingWrites = write :: rest ∧ write.unsent = payload

/-- A drain that ends in `s'` keeps what fails on the stream `raw` to that stream: the others get
what they would get without its writes, and the write that failed is not queued any more. -/
structure WriteIsolated (q : Quiche W) (fuel : Nat) (raw : UInt64)
    (s s' : Session (Recorded W)) : Prop where
  others : ∀ r s₁, Prog.exec (drainSendQueue q.recorded fuel) (s.withoutWrites raw) =
    some (r, s₁) → ∀ raw', raw' ≠ raw → offered raw' s'.log = offered raw' s₁.log
  dropped : ∀ added payload fin e, s'.log = s.log ++ added →
    .sent raw payload fin (.error (.other e)) ∈ added → ¬ s'.stillQueued raw payload

/-- No write has failed since `log`. -/
def NoneFailed (log : List Record) (s : Session (Recorded W)) : Prop :=
  ∃ added, s.log = log ++ added ∧ ∀ r ∈ added, r.isFailedSend = false

/-- The last call since `log` is the first write that failed, and the write is still queued. -/
def FailedLast (log : List Record) (s : Session (Recorded W)) : Prop :=
  ∃ added raw payload fin e, s.log = log ++ (added ++ [.sent raw payload fin (.error (.other e))]) ∧
    (∀ r ∈ added, r.isFailedSend = false) ∧ s.stillQueued raw payload

theorem NoneFailed.record {log : List Record} {s s' : Session (Recorded W)} (h : NoneFailed log s)
    {r : Record} (hlog : s'.log = s.log ++ [r]) (hr : r.isFailedSend = false) :
    NoneFailed log s' := by
  obtain ⟨added, heq, hadded⟩ := h
  refine ⟨added ++ [r], by rw [hlog, heq, List.append_assoc], fun x hx => ?_⟩
  rcases List.mem_append.mp hx with hx | hx
  · exact hadded x hx
  · rw [List.mem_singleton.mp hx]
    exact hr

/-- The writes of one stream: the loop fails at the first write that does. -/
theorem drainStream_noneFailed {q : Quiche W} {fuel : Nat} (raw : UInt64) (log : List Record) :
    Triple (NoneFailed log) (drainStreamGo q.recorded raw fuel) (fun _ => NoneFailed log)
      (FailedLast log) := by
  induction fuel with
  | zero => exact Triple.diverge
  | succ fuel ih =>
    unfold drainStreamGo
    apply Triple.get_bind
    intro s₀ hs₀
    split
    · exact Triple.pure fun s hs => hs ▸ hs₀
    next state hstate =>
    split
    · exact Triple.pure fun s hs => hs ▸ hs₀
    next pending rest hpending =>
    refine Triple.bind (call_spec _ s₀) fun answer => ?_
    have hlog := Session.log_offer q s₀ raw pending
    -- an answer that is no failure leaves no failure
    have hrecorded : ∀ s, (∀ e, answer ≠ .error (.other e)) →
        answer = (q.recorded.offer raw pending s₀.world).1 ∧
          s = s₀.setWorld (q.recorded.offer raw pending s₀.world).2 → NoneFailed log s := by
      rintro s hanswer ⟨heq, rfl⟩
      refine hs₀.record hlog ?_
      rw [← heq]
      cases answer with
      | ok written => rfl
      | error e =>
        cases e with
        | done => rfl
        | other text => exact absurd rfl (hanswer text)
    split
    · exact Triple.pure fun s hs => hrecorded s (by rintro _ ⟨⟩) hs
    · next e =>
      apply Triple.throw
      rintro s ⟨heq, rfl⟩
      obtain ⟨added, hadded, hnone⟩ := hs₀
      have hsent : q.recorded.offer raw pending s₀.world =
          (.error (.other e), (q.recorded.offer raw pending s₀.world).2) := by
        rw [heq]
        rfl
      refine ⟨added, raw, pending.unsent, pending.fin && pending.unsent.isEmpty, e, ?_, hnone,
        pending, rest, ?_, rfl⟩
      · show (s₀.setWorld (q.recorded.offer raw pending s₀.world).2).log = _
        rw [hlog, hadded, List.append_assoc, hsent]
      · show (s₀.stream raw).pendingWrites = _
        rw [Session.stream_of_getElem? hstate, hpending]
    next written =>
    split
    · exact Triple.pure fun s hs => hrecorded s (by rintro _ ⟨⟩) hs
    refine Triple.bind (Q := fun _ => NoneFailed log) (Triple.modify ?_) fun _ =>
      Triple.bind (Q := fun _ => NoneFailed log) ?_ fun _ => ih
    · exact fun s hs => hrecorded s (by rintro _ ⟨⟩) hs
    · exact noteStreamClosed_triple fun _ _ _ _ _ hs => hs

theorem drainSendQueue_noneFailed {q : Quiche W} {fuel : Nat} (log : List Record) :
    Triple (NoneFailed log) (drainSendQueue q.recorded fuel) (fun _ => NoneFailed log)
      (FailedLast log) :=
  Triple.get_bind fun _ hs₀ => Triple.bind (Q := fun _ => NoneFailed log)
    (Triple.modifyGet fun _ hs => hs ▸ hs₀) fun _ =>
      Triple.forM (P := fun _ => NoneFailed log)
        (fun raw _ => drainStream_noneFailed raw log) _

/-- A drain in which a write fails ends there, and the write is still queued. -/
theorem stillQueued_of_failed {q : Quiche W} {fuel : Nat} {s s' : Session (Recorded W)}
    {r : Except TransportError Unit}
    (hexec : Prog.exec (drainSendQueue q.recorded fuel) s = some (r, s')) {added : List Record}
    {raw : UInt64} {payload : Bytes} {fin : Bool} {e : String} (hlog : s'.log = s.log ++ added)
    (hfailed : .sent raw payload fin (.error (.other e)) ∈ added) :
    (∃ err, r = .error err) ∧ s'.stillQueued raw payload := by
  have hstart : NoneFailed s.log s := ⟨[], (List.append_nil _).symm, by rintro _ ⟨⟩⟩
  obtain ⟨hok, herr⟩ := drainSendQueue_noneFailed s.log s hstart r s' hexec
  cases r with
  | ok _ =>
    obtain ⟨added', heq, hnone⟩ := hok () rfl
    rw [List.append_cancel_left (hlog.symm.trans heq)] at hfailed
    cases hnone _ hfailed
  | error err =>
    obtain ⟨before, raw', payload', fin', e', heq, hnone, hqueued⟩ := herr err rfl
    rw [List.append_cancel_left (hlog.symm.trans heq)] at hfailed
    rcases List.mem_append.mp hfailed with hold | hnew
    · cases hnone _ hold
    · cases List.mem_singleton.mp hnew
      exact ⟨⟨err, rfl⟩, hqueued⟩

/-- quiche refuses every write on the stream, as it does after the remote's STOP_SENDING. -/
def Quiche.Refuses (q : Quiche W) (raw : UInt64) : Prop :=
  ∀ payload fin w, ∃ e, (q.streamSend raw payload fin w).1 = .error (.other e)

/-- Nothing comes off the queue of a stream that quiche refuses. -/
theorem refused_drains {q : Quiche W} {raw : UInt64} (hq : q.Refuses raw)
    (state : StreamRuntimeState) :
    Drains q fun s => ∃ closed, s.conn.streamStates[raw]? =
      some { state with closedNotified := closed } where
  silent _ _ _ hs := hs
  offer _ _ _ _ _ _ _ _ hs := hs
  write s raw' state' pending rest written pendingWrites hstate _ hanswer _ hs := by
    have hne : raw ≠ raw' := by
      rintro rfl
      obtain ⟨e, he⟩ := hq (pending.bytes.drop pending.offset)
        (pending.fin && (pending.bytes.drop pending.offset).isEmpty) s.world
      rw [Quiche.offer, he] at hanswer
      cases hanswer
    rw [Session.getElem?_setStream_of_ne _ hne]
    exact hs
  note s raw' state' hstate _ _ hs := by
    by_cases hraw : raw = raw'
    · subst hraw
      obtain ⟨closed, hentry⟩ := hs
      rw [hentry] at hstate
      cases hstate
      exact ⟨true, Session.getElem?_setStream_self _ _ _⟩
    · obtain ⟨closed, hentry⟩ := hs
      exact ⟨closed, (Session.getElem?_setStream_of_ne _ hraw _).trans hentry⟩

/-- Every drain fails as long as quiche refuses a stream with a write, and the write stays. -/
theorem drain_fails_of_refused {q : Quiche W} {raw : UInt64} (hq : q.Refuses raw) {fuel : Nat}
    {s s' : Session W} {r : Except TransportError Unit}
    (hpending : (s.stream raw).pendingWrites ≠ [])
    (hexec : Prog.exec (drainSendQueue q fuel) s = some (r, s')) :
    (∃ e, r = .error e) ∧ (s'.stream raw).pendingWrites = (s.stream raw).pendingWrites := by
  obtain ⟨state, hstate⟩ : ∃ state, s.conn.streamStates[raw]? = some state := by
    cases hentry : s.conn.streamStates[raw]? with
    | some state => exact ⟨state, rfl⟩
    | none =>
      rw [Session.stream_of_none hentry] at hpending
      exact absurd rfl hpending
  have hstream : s.stream raw = state := Session.stream_of_getElem? hstate
  let Stuck : Session W → Prop := fun s => ∃ closed, s.conn.streamStates[raw]? =
    some { state with closedNotified := closed }
  have hdrains : Drains q Stuck := refused_drains hq state
  -- the loop over the streams comes to the refused one and does not get past it
  have hself : Triple Stuck (drainStreamGo q raw fuel) (fun _ _ => False) Stuck := by
    cases fuel with
    | zero => exact Triple.diverge
    | succ fuel =>
      unfold drainStreamGo
      apply Triple.get_bind
      rintro s₀ ⟨closed, hentry⟩
      rw [hentry]
      obtain ⟨write, rest, hwrite⟩ := List.exists_cons_of_ne_nil (hstream ▸ hpending)
      dsimp only
      rw [hwrite]
      refine Triple.bind (call_spec _ s₀) fun answer => ?_
      obtain ⟨e, he⟩ := hq (write.bytes.drop write.offset)
        (write.fin && (write.bytes.drop write.offset).isEmpty) s₀.world
      rintro _ ⟨hanswer, rfl⟩
      rw [hanswer, he]
      exact Triple.throw (fun _ hs => hs ▸ ⟨closed, hentry⟩) _ rfl
  have hloop : ∀ streamIds, Triple (fun s => Stuck s ∧ raw ∈ streamIds)
      (List.forM streamIds fun raw => drainStreamGo q raw fuel) (fun _ _ => False) Stuck := by
    intro streamIds
    refine (Triple.forM (P := fun rest s => Stuck s ∧ raw ∈ rest) (fun raw' rest => ?_)
      streamIds).mono (fun _ hs => hs) (fun _ _ hs => List.not_mem_nil hs.2) fun _ hs => hs
    by_cases hraw : raw' = raw
    · rw [hraw]
      exact hself.mono (fun _ hs => hs.1) (fun _ _ hs => hs.elim) fun _ hs => hs
    · rintro s₀ ⟨hs₀, hmem⟩ r s₁ hr
      obtain ⟨hok, herr⟩ := hdrains.drainStream_keeps raw' s₀ hs₀ r s₁ hr
      exact ⟨fun a ha => ⟨hok a ha, List.mem_of_ne_of_mem (Ne.symm hraw) hmem⟩, herr⟩
  have hall : Triple (fun s₁ => s₁ = s) (drainSendQueue q fuel) (fun _ _ => False) Stuck := by
    apply Triple.get_bind
    rintro _ rfl
    refine Triple.bind (call_spec _ _) fun streamIds => ?_
    refine (hloop streamIds).mono ?_ (fun _ _ hs => hs) fun _ hs => hs
    rintro _ ⟨rfl, rfl⟩
    refine ⟨⟨state.closedNotified, hstate⟩, (q.keyOrder_perm _ _).mem_iff.mpr ?_⟩
    exact Std.ExtTreeMap.mem_keys.mpr (BTreeMap.mem_of_getElem? hstate)
  obtain ⟨hok, herr⟩ := hall s rfl r s' hexec
  cases r with
  | ok _ => exact (hok () rfl).elim
  | error e =>
    obtain ⟨closed, hentry⟩ := herr e rfl
    refine ⟨⟨e, rfl⟩, ?_⟩
    rw [Session.stream_of_getElem? hentry, hstream]

/-- No drain in which a write fails is isolated: the write is still queued, and while quiche
refuses the stream every later drain fails on it again. -/
theorem drain_not_isolated (q : Quiche W) (fuel : Nat) (s s' : Session (Recorded W))
    (r : Except TransportError Unit) (added : List Record) (raw : UInt64) (payload : Bytes)
    (fin : Bool) (e : String)
    (hexec : Prog.exec (drainSendQueue q.recorded fuel) s = some (r, s'))
    (hlog : s'.log = s.log ++ added)
    (hfailed : .sent raw payload fin (.error (.other e)) ∈ added) :
    ¬ WriteIsolated q fuel raw s s' ∧
      (q.Refuses raw → ∀ fuel' s₁ r' s₂,
        (s₁.stream raw).pendingWrites = (s'.stream raw).pendingWrites →
        Prog.exec (drainSendQueue q.recorded fuel') s₁ = some (r', s₂) →
        (∃ err, r' = .error err) ∧
          (s₂.stream raw).pendingWrites = (s'.stream raw).pendingWrites) := by
  obtain ⟨-, hqueued⟩ := stillQueued_of_failed hexec hlog hfailed
  refine ⟨fun hisolated => hisolated.dropped added payload fin e hlog hfailed hqueued, ?_⟩
  intro hrefuses fuel' s₁ r' s₂ hsame hlater
  have hrecorded : q.recorded.Refuses raw := fun payload fin w => hrefuses payload fin w.1
  obtain ⟨write, rest, hpending, -⟩ := hqueued
  have hne : (s₁.stream raw).pendingWrites ≠ [] := by
    rw [hsame, hpending]
    exact List.cons_ne_nil _ _
  obtain ⟨herr, hstays⟩ := drain_fails_of_refused hrecorded hne hlater
  exact ⟨herr, hstays.trans hsame⟩

/-- A verified peer that has stopped stream 0. -/
def stoppedQuiche : Quiche Unit :=
  { quietQuiche with streamSend := fun raw payload _ w =>
      (if raw = 0 then .error (.other "StreamStopped") else .ok payload.length, w) }

/-- Streams 0 and 4 have a byte to send each. -/
def stoppedSession : Session (Recorded Unit) :=
  ((new stoppedQuiche.recorded ⟨1⟩ ⟨[.quicV1]⟩ (some somePeer) ((), [])).setStream 0
    (StreamRuntimeState.default.queueData [1])).setStream 4
    (StreamRuntimeState.default.queueData [2])

/-- The write on the stopped stream 0 keeps stream 4 from its byte, which it would get without it,
and the write is still queued. -/
theorem stopped_stream_blocks_the_other :
    ∃ s' s₁ r r₁, Prog.exec (drainSendQueue stoppedQuiche.recorded 3) stoppedSession =
        some (r, s') ∧
      s'.log = [.sent 0 [1] false (.error (.other "StreamStopped"))] ∧
      Prog.exec (drainSendQueue stoppedQuiche.recorded 3) (stoppedSession.withoutWrites 0) =
        some (r₁, s₁) ∧
      offered 4 s'.log = [] ∧ offered 4 s₁.log = [([2], false)] ∧ s'.stillQueued 0 [1] ∧
      ¬ WriteIsolated stoppedQuiche 3 0 stoppedSession s' := by
  refine ⟨_, _, _, _, rfl, rfl, rfl, rfl, rfl, ⟨⟨[1], 0, false⟩, [], rfl, rfl⟩, ?_⟩
  intro hisolated
  have hothers := hisolated.others _ _ rfl 4 (by decide)
  cases hothers

/-- The drain after that fails as well. -/
theorem drain_not_isolated_stopped :
    ∃ s' r, Prog.exec (drainSendQueue stoppedQuiche.recorded 3) stoppedSession = some (r, s') ∧
      ¬ WriteIsolated stoppedQuiche 3 0 stoppedSession s' ∧
      ∀ r' s₂, Prog.exec (drainSendQueue stoppedQuiche.recorded 3) s' = some (r', s₂) →
        ∃ err, r' = .error err := by
  refine ⟨_, _, rfl, ?_⟩
  obtain ⟨hnot, hagain⟩ := drain_not_isolated stoppedQuiche 3 stoppedSession _ _
    [.sent 0 [1] false (.error (.other "StreamStopped"))] 0 [1] false "StreamStopped" rfl rfl
    List.mem_cons_self
  exact ⟨hnot, fun r' s₂ hlater => (hagain (fun _ _ _ => ⟨_, rfl⟩) 3 _ r' s₂ rfl hlater).1⟩

/-! ## Resets -/

/-- Whether a call is a `stream_shutdown` that quiche took. -/
def Record.isShutdown : Record → Bool
  | .shut _ _ (.ok _) => true
  | _ => false

/-- What `reset_stream` promises for a call from `s` that ends in `s'` with `r`: a reset stream
has no pending writes and StreamClosed has been emitted for it once, here or before; after an
error nothing has changed, neither in the adapter nor in quiche. -/
structure ResetHonoured (streamId : StreamId) (s s' : Session (Recorded W))
    (r : Except TransportError Unit) : Prop where
  reset : r = .ok () → (s'.stream streamId.asU64).pendingWrites = [] ∧
    s'.events = s.events ++ if (s.stream streamId.asU64).closedNotified then []
      else [.streamClosed s.conn.id streamId]
  failed : ∀ e, r = .error e → s'.conn = s.conn ∧ s'.events = s.events ∧
    ∃ added, s'.log = s.log ++ added ∧ ∀ x ∈ added, x.isShutdown = false

/-- The record of a shutdown. -/
theorem Session.log_shut (q : Quiche W) (s : Session (Recorded W)) (raw : UInt64)
    (direction : Shutdown) :
    (s.shut q.recorded raw direction).log = s.log ++
      [.shut raw direction (q.recorded.streamShutdown raw direction s.world).1] := rfl

theorem Session.stream_finishReset (s : Session W) (raw : UInt64) (state : StreamRuntimeState) :
    (s.finishReset raw state).stream raw = state.reset := by
  unfold finishReset
  split
  · exact stream_setStream_self s raw state.reset
  · exact stream_setStream_self s raw state.reset

theorem Session.events_finishReset (s : Session W) (raw : UInt64) (state : StreamRuntimeState) :
    (s.finishReset raw state).events = s.events ++ if state.closedNotified then []
      else [.streamClosed s.conn.id ⟨raw⟩] := by
  unfold finishReset
  split
  · exact (List.append_nil _).symm
  · rfl

/-- `reset_stream` returns, and it does what it promises exactly when quiche, once it has shut
down the write side, shuts down the read side too and the stream has no pending writes. -/
theorem resetHonoured_iff (q : Quiche W) (streamId : StreamId) (s : Session (Recorded W)) :
    ∃ r s', Prog.exec (resetStream q.recorded streamId) s = some (r, s') ∧
      (ResetHonoured streamId s s' r ↔
        ∀ state, s.conn.streamStates[streamId.asU64]? = some state →
          (q.streamShutdown streamId.asU64 .write s.world.1).1 = .ok () →
          (q.streamShutdown streamId.asU64 .read
            (q.streamShutdown streamId.asU64 .write s.world.1).2).1 = .ok () ∧
            state.pendingWrites = []) := by
  rw [exec_resetStream]
  cases hentry : s.conn.streamStates[streamId.asU64]? with
  | none =>
    refine ⟨_, _, rfl, fun _ state hstate => (by cases hstate), fun _ => ⟨by rintro ⟨⟩, ?_⟩⟩
    rintro _ -
    exact ⟨rfl, rfl, [], (List.append_nil _).symm, by rintro _ ⟨⟩⟩
  | some state =>
    have hstream : s.stream streamId.asU64 = state := Session.stream_of_getElem? hentry
    cases hwrite : (q.recorded.streamShutdown streamId.asU64 .write s.world).1 with
    | error e =>
      -- nothing has happened
      refine ⟨_, _, rfl, fun _ state' _ hok => ?_, fun _ => ⟨by rintro ⟨⟩, ?_⟩⟩
      · cases hwrite.symm.trans hok
      · rintro _ -
        refine ⟨rfl, rfl, _, Session.log_shut q s _ _, fun x hx => ?_⟩
        rw [List.mem_singleton.mp hx, hwrite]
        rfl
    | ok _ =>
      dsimp only
      cases hread : (q.recorded.streamShutdown streamId.asU64 .read
          (s.shut q.recorded streamId.asU64 .write).world).1 with
      | error e =>
        -- the write side is shut down, and the caller hears of a failure
        refine ⟨_, _, rfl, fun hhonoured => ?_, fun hcond => ?_⟩
        · obtain ⟨-, -, added, hlog, hnone⟩ := hhonoured.failed _ rfl
          rw [Session.log_shut, Session.log_shut, List.append_assoc, hwrite] at hlog
          have hadded := List.append_cancel_left hlog
          have hfirst := hnone (.shut streamId.asU64 .write (.ok ())) (by
            rw [← hadded]
            exact List.mem_cons_self)
          cases hfirst
        · obtain ⟨hok, -⟩ := hcond state rfl hwrite
          cases hread.symm.trans hok
      | ok _ =>
        refine ⟨_, _, rfl, fun hhonoured => ?_, fun hcond => ⟨fun _ => ⟨?_, ?_⟩, ?_⟩⟩
        · rintro state' hstate' -
          cases hstate'
          obtain ⟨hpending, -⟩ := hhonoured.reset rfl
          rw [Session.stream_finishReset] at hpending
          exact ⟨hread, hpending⟩
        · obtain ⟨-, hpending⟩ := hcond state rfl hwrite
          rw [Session.stream_finishReset]
          exact hpending
        · rw [Session.events_finishReset, hstream]
          rfl
        · rintro _ ⟨⟩

/-- A verified peer; quiche takes no write, and the read side of stream 4 is already done. -/
def finishedQuiche : Quiche Unit :=
  { quietQuiche with streamShutdown := fun raw direction w =>
      (if raw = 4 ∧ direction = .read then .error .done else .ok (), w) }

/-- Stream 0 has a byte to send; so has stream 4. -/
def finishedSession : Session (Recorded Unit) :=
  ((new finishedQuiche.recorded ⟨1⟩ ⟨[.quicV1]⟩ (some somePeer) ((), [])).setStream 0
    (StreamRuntimeState.default.queueData [1])).setStream 4
    (StreamRuntimeState.default.queueData [2])

/-- A reset stream still has its write, and a reset that fails has shut down the write side. -/
theorem reset_not_honoured :
    (∃ s', Prog.exec (resetStream finishedQuiche.recorded ⟨0⟩) finishedSession =
        some (.ok (), s') ∧ (s'.stream 0).pendingWrites = [⟨[1], 0, false⟩] ∧
        ¬ ResetHonoured ⟨0⟩ finishedSession s' (.ok ())) ∧
      ∃ s' e, Prog.exec (resetStream finishedQuiche.recorded ⟨4⟩) finishedSession =
        some (.error e, s') ∧
        s'.log = [.shut 4 .write (.ok ()), .shut 4 .read (.error .done)] ∧
        ¬ ResetHonoured ⟨4⟩ finishedSession s' (.error e) := by
  refine ⟨⟨_, rfl, rfl, fun h => ?_⟩, _, _, rfl, rfl, fun h => ?_⟩
  · cases (h.reset rfl).1
  · obtain ⟨-, -, added, hlog, hnone⟩ := h.failed _ rfl
    have hadded : [.shut 4 .write (.ok ()), .shut 4 .read (.error .done)] = added := hlog
    have hfirst := hnone (.shut 4 .write (.ok ())) (by
      rw [← hadded]
      exact List.mem_cons_self)
    cases hfirst

end Minip2p.Quic
