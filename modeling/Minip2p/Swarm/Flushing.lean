import Minip2p.Lib.Loops
import Minip2p.Swarm.Delivery

/-!
# The loops of the driver end

`flush_actions`, `open_user_stream` and `poll` drain the core in loops that nothing bounds: an
action that is carried out feeds the core, which may queue more. Here the loops have no fuel. They
end whatever the transport answers, since a turn takes away more load than it can add, and the
results are those of the driver on fuel.
-/

namespace Minip2p.Swarm

open SwarmCore Loops

namespace Driver

variable {W : Type} [Sha256] [MultihashCodec]

/-- What a drain works on: the driver, the stream id it captured and the events it has taken. -/
abbrev Draining (W : Type) := Driver W × Option StreamId × List SwarmEvent

/-- One turn of `while let Some(output) = self.core.poll_output()`. -/
def drainTurn (platform : Platform W) : Draining W → Draining W ⊕ Draining W
  | (driver, captured, queue) =>
    match driver.core.pollOutput.2 with
    | none => .inr (driver, captured, queue)
    | some (.action action) =>
      let (driver, captured) := dispatchAction platform (driver.onCore .pollOutput) action captured
      .inl (driver, captured, queue)
    | some (.event event) => .inl (driver.onCore .pollOutput, captured, queue ++ [event])

/-- The loop that leaves the events in the buffer, and the stream id it captured. -/
def DrainsToBuffer (platform : Platform W) (driver : Driver W) (out : Driver W × Option StreamId) :
    Prop :=
  ∃ drained captured queue,
    Ends (drainTurn platform) (driver, none, driver.eventBuffer) (drained, captured, queue) ∧
    out = ({ drained with eventBuffer := queue }, captured)

/-- `flush_actions` comes back with `out`. -/
def Flushes (platform : Platform W) (driver out : Driver W) : Prop :=
  ∃ captured, DrainsToBuffer platform driver (out, captured)

/-- `open_user_stream` returns `out`. -/
def OpensUserStream (platform : Platform W) (driver : Driver W) (peerId : PeerId)
    (protocolId : String) (out : Except TransportError StreamId × Driver W) : Prop :=
  let asked := driver.onCore (.openUserStream peerId protocolId)
  match (driver.core.openUserStream peerId protocolId).2 with
  | .error e => out = (.error (swarmToTransportError e), asked)
  | .ok () =>
    ∃ drained allocated flushed, DrainsToBuffer platform asked (drained, allocated) ∧
      Flushes platform drained flushed ∧
      out = match allocated with
        | some streamId => (.ok streamId, flushed)
        | none =>
          (.error (.pollError "core did not allocate a stream id for open_user_stream"), flushed)

/-- `poll` returns `out`. -/
def Polls (platform : Platform W) (driver : Driver W)
    (out : Except TransportError (List SwarmEvent) × Driver W) : Prop :=
  let (nowMs, driver) := driver.ask platform.nowMs
  let (addrs, driver) := driver.ask platform.localAddresses
  let driver := driver.onCore (.setLocalAddresses addrs)
  match driver.ask platform.poll with
  | (.error e, driver) => out = (.error e, driver)
  | (.ok events, driver) =>
    ∃ flushed drained captured queue,
      Flushes platform ((driver.feedEvents events nowMs).onCore (.input (.tick nowMs))) flushed ∧
      Ends (drainTurn platform) ({ flushed with eventBuffer := [] }, none, flushed.eventBuffer)
        (drained, captured, queue) ∧
      out = (.ok queue, drained)

variable {platform : Platform W}

/-! ## A turn lowers the load -/

theorem drainTurn_lowers {s s' : Draining W} (h : drainTurn platform s = .inl s') :
    s'.1.core.load < s.1.core.load := by
  obtain ⟨driver, captured, queue⟩ := s
  unfold drainTurn at h
  show _ < driver.core.load
  rcases pollOutput_cases driver.core with
    ⟨a, actions, ha, hpoll⟩ | ⟨e, events, -, he, hpoll⟩ | ⟨-, -, hpoll⟩
  · simp only [hpoll] at h
    rw [← Sum.inl.inj h]
    exact load_dispatchAction_lt platform ha hpoll captured
  · simp only [hpoll] at h
    rw [← Sum.inl.inj h]
    exact load_onCore_pollOutput_lt he hpoll
  · simp only [hpoll] at h
    cases h

/-- A drain ends, and the drain on fuel gives its result if the fuel is the load of the core. -/
theorem drainGo_ends {fuel : ℕ} {s : Draining W} (hload : s.1.core.load ≤ fuel) :
    Ends (drainTurn platform) s (drainGo platform fuel s.1 s.2.1 s.2.2) := by
  apply ends_of_fuel (fun fuel (s : Draining W) => drainGo platform fuel s.1 s.2.1 s.2.2)
    fun s => s.1.core.load
  · intro s s' h
    exact drainTurn_lowers h
  · intro fuel s s' h
    obtain ⟨driver, captured, queue⟩ := s
    unfold drainTurn at h
    rw [drainGo]
    cases hpoll : driver.core.pollOutput.2 with
    | none =>
      simp only [hpoll] at h
      cases h
    | some output =>
      cases output with
      | action action =>
        simp only [hpoll] at h ⊢
        rw [← Sum.inl.inj h]
      | event event =>
        simp only [hpoll] at h ⊢
        rw [← Sum.inl.inj h]
  · intro fuel s r h _
    obtain ⟨driver, captured, queue⟩ := s
    unfold drainTurn at h
    dsimp only at h ⊢
    split at h
    · next hpoll =>
      rw [← Sum.inr.inj h]
      cases fuel with
      | zero => rfl
      | succ fuel => rw [drainGo, hpoll]
    · cases h
    · cases h
  · exact hload

theorem ends_drain_iff {driver : Driver W} {queue : List SwarmEvent} {out : Draining W} :
    Ends (drainTurn platform) (driver, none, queue) out ↔ out = driver.drain platform queue := by
  have hends : Ends (drainTurn platform) (driver, none, queue) (driver.drain platform queue) :=
    drainGo_ends le_rfl
  constructor
  · exact fun h => h.unique hends
  · intro h
    rw [h]
    exact hends

/-! ## The three methods -/

theorem drainsToBuffer_iff {driver : Driver W} {out : Driver W × Option StreamId} :
    DrainsToBuffer platform driver out ↔ out = driver.drainToBuffer platform := by
  unfold DrainsToBuffer drainToBuffer
  constructor
  · intro ⟨drained, captured, queue, hends, hout⟩
    rw [hout, ← ends_drain_iff.mp hends]
  · intro hout
    exact ⟨_, _, _, ends_drain_iff.mpr rfl, hout⟩

theorem flushes_iff {driver out : Driver W} :
    Flushes platform driver out ↔ out = driver.flushActions platform := by
  unfold Flushes flushActions
  simp only [drainsToBuffer_iff]
  constructor
  · intro ⟨captured, hout⟩
    rw [← hout]
  · intro hout
    exact ⟨_, by rw [hout]⟩

theorem opensUserStream_iff {driver : Driver W} {peerId : PeerId} {protocolId : String}
    {out : Except TransportError StreamId × Driver W} :
    OpensUserStream platform driver peerId protocolId out ↔
      out = driver.openUserStream platform peerId protocolId := by
  unfold OpensUserStream openUserStream
  simp only
  cases (driver.core.openUserStream peerId protocolId).2 with
  | error e => exact Iff.rfl
  | ok _ =>
    simp only [drainsToBuffer_iff, flushes_iff]
    constructor
    · rintro ⟨drained, allocated, flushed, hdrained, hflushed, hout⟩
      rw [← hdrained, ← hflushed]
      exact hout
    · intro hout
      exact ⟨_, _, _, rfl, rfl, hout⟩

theorem polls_iff {driver : Driver W} {out : Except TransportError (List SwarmEvent) × Driver W} :
    Polls platform driver out ↔ out = driver.poll platform := by
  unfold Polls poll
  simp only
  generalize ask _ platform.poll = answered
  obtain ⟨result, polled⟩ := answered
  cases result with
  | error e => exact Iff.rfl
  | ok events =>
    simp only [flushes_iff, ends_drain_iff, takeEvents]
    constructor
    · rintro ⟨flushed, drained, captured, queue, hflushed, hdrained, hout⟩
      rw [← hflushed, ← hdrained]
      exact hout
    · intro hout
      generalize hdrained : drain platform _ _ = result at hout
      obtain ⟨drained, captured, queue⟩ := result
      exact ⟨_, drained, captured, queue, rfl, hdrained.symm, hout⟩

/-- Whatever state the core is in and whatever the transport answers, the loop that drains the core
ends, and so `flush_actions`, `open_user_stream` and `poll` return: each in one way, that of the
driver on fuel. -/
theorem drains_end (platform : Platform W) (driver : Driver W) :
    (∀ captured queue, ∃ out, Ends (drainTurn platform) (driver, captured, queue) out) ∧
    (∀ out, Flushes platform driver out ↔ out = driver.flushActions platform) ∧
    (∀ peerId protocolId out, OpensUserStream platform driver peerId protocolId out ↔
      out = driver.openUserStream platform peerId protocolId) ∧
    (∀ out, Polls platform driver out ↔ out = driver.poll platform) :=
  ⟨fun _ _ => ⟨_, drainGo_ends le_rfl⟩, fun _ => flushes_iff, fun _ _ _ => opensUserStream_iff,
    fun _ => polls_iff⟩

end Driver

end Minip2p.Swarm
