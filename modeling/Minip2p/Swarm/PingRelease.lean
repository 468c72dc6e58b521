import Minip2p.Swarm.Migration

/-!
# Ping streams after the remote half-close

The transport closes a stream when both sides have finished writing, so a stream whose remote side
has finished is released by our own `CloseStreamWrite` or by a `ResetStream`. Ping answers the
half-close of an outbound stream with a ping in flight, and nothing else.
-/

namespace Minip2p.Swarm

open Ping (PingInput PingOutput PingProtocol)
open SwarmCore

section Runs

variable [Sha256] [MultihashCodec]

/-- The action a call hands to the driver. -/
def polledActionBy (s : SwarmCore) : Call → List SwarmAction
  | .pollOutput =>
    match s.pollOutput.2 with
    | some (.action a) => [a]
    | _ => []
  | _ => []

/-- The actions the driver has polled in a run. -/
def polledActions : SwarmCore → List Call → List SwarmAction
  | _, [] => []
  | s, call :: calls => polledActionBy s call ++ polledActions (step s call) calls

/-- The actions a run has queued: those polled and those that still wait. -/
def emittedActions (s : SwarmCore) (calls : List Call) : List SwarmAction :=
  polledActions s calls ++ (run s calls).actions

theorem polledActions_concat (s : SwarmCore) (calls : List Call) (call : Call) :
    polledActions s (calls ++ [call]) =
      polledActions s calls ++ polledActionBy (run s calls) call := by
  induction calls generalizing s with
  | nil => simp [polledActions]
  | cons first calls ih =>
    simp only [List.cons_append, polledActions, List.append_assoc]
    rw [ih]
    rfl

/-- What a call that is no poll adds to the queue, it adds to the actions of the run. -/
theorem emittedActions_concat {s : SwarmCore} {calls : List Call} {call : Call}
    {added : List SwarmAction} (hpoll : call ≠ .pollOutput)
    (hadded : (step (run s calls) call).actions = (run s calls).actions ++ added) :
    emittedActions s (calls ++ [call]) = emittedActions s calls ++ added := by
  have hnone : polledActionBy (run s calls) call = [] := by
    cases call with
    | pollOutput => exact absurd rfl hpoll
    | _ => rfl
  rw [emittedActions, emittedActions, polledActions_concat, hnone, List.append_nil, run_concat,
    hadded, List.append_assoc]

end Runs

/-- Actions that finish our side of a stream. -/
def SwarmAction.releases (k : StreamKey) (a : SwarmAction) : Prop :=
  a = .closeStreamWrite k.conn k.stream ∨ a = .resetStream k.conn k.stream

instance (k : StreamKey) (a : SwarmAction) : Decidable (a.releases k) :=
  inferInstanceAs (Decidable (_ ∨ _))

namespace SwarmCore

variable [Sha256] [MultihashCodec] {s : SwarmCore} {k : StreamKey}

/-- The half-close of `k` interrupts a ping of the peer of its connection, and `k` is the stream
the core finds for that peer. -/
def Interrupts (s : SwarmCore) (k : StreamKey) : Prop :=
  s.ping.interrupted (s.ensurePeerIdForConn k.conn).2 k.stream = true ∧
    (s.ensurePeerIdForConn k.conn).1.connForOwnedStream (s.ensurePeerIdForConn k.conn).2 k.stream
      .ping = some k.conn

instance (s : SwarmCore) (k : StreamKey) : Decidable (s.Interrupts k) :=
  inferInstanceAs (Decidable (_ ∧ _))

/-- The actions that executing a ping action adds. -/
def resetFor (s : SwarmCore) (p : PeerId) (t : StreamId) : List SwarmAction :=
  match s.connForOwnedStream p t .ping with
  | some c => [.resetStream c t]
  | none => []

omit [Sha256] in
theorem handlePingOutput_reset (s : SwarmCore) (p : PeerId) (t : StreamId) :
    (s.handlePingOutput (.action (.resetStream p t))).actions = s.actions ++ s.resetFor p t := by
  simp only [handlePingOutput, executePingAction, resetFor]
  cases s.connForOwnedStream p t .ping with
  | some c => rfl
  | none => exact (List.append_nil _).symm

omit [Sha256] in
/-- Ping events queue no action. -/
theorem handlePingOutput_event (s : SwarmCore) (e : Ping.PingEvent) :
    (s.handlePingOutput (.event e)).actions = s.actions := by
  cases e <;> rfl

omit [Sha256] in
/-- Draining ping executes its actions; the events come after them. -/
theorem drainPingOutputs_actions (s : SwarmCore) :
    s.drainPingOutputs.actions =
      ((s.ping.pendingActions.map PingOutput.action).foldl handlePingOutput
        { s with ping := s.ping.drainOutputs.2 }).actions := by
  have hevents : ∀ (events : List Ping.PingEvent) (t : SwarmCore),
      ((events.map PingOutput.event).foldl handlePingOutput t).actions = t.actions := by
    intro events
    induction events with
    | nil => exact fun t => rfl
    | cons e events ih =>
      intro t
      rw [List.map_cons, List.foldl_cons, ih, handlePingOutput_event]
  simp only [drainPingOutputs, PingProtocol.drainOutputs, List.foldl_append]
  exact hevents _ _

omit [Sha256] in
/-- Ping answers the half-close of an outbound stream with a ping in flight, and no other. -/
theorem feedPing_remoteWriteClosed (hidle : s.ping.Idle) (p : PeerId) (t : StreamId) :
    (s.feedPing (.streamRemoteWriteClosed p t)).actions =
      s.actions ++ if s.ping.interrupted p t then s.resetFor p t else [] := by
  obtain ⟨hreturned, hqueued⟩ := s.ping.onStreamRemoteWriteClosed_actions p t
  have hpending : (s.ping.handleInput (.streamRemoteWriteClosed p t)).1.pendingActions =
      (s.ping.onStreamRemoteWriteClosed p t).2 := by
    show (s.ping.onStreamRemoteWriteClosed p t).1.pendingActions ++ _ = _
    rw [hqueued, hidle.1, List.nil_append]
  rw [feedPing, drainPingOutputs_actions]
  show SwarmCore.actions (((s.ping.handleInput (.streamRemoteWriteClosed p t)).1.pendingActions.map
    PingOutput.action).foldl _ _) = _
  rw [hpending, hreturned]
  split
  · exact handlePingOutput_reset _ p t
  · exact (List.append_nil _).symm

/-- The core answers the half-close of a ping stream exactly when it interrupts a ping. -/
theorem handleStreamRemoteWriteClosed_releases_iff (hidle : s.Idle)
    (hown : s.streamOwner[k]? = some .ping) :
    ∃ added, (s.handleStreamRemoteWriteClosed k).actions = s.actions ++ added ∧
      ((∃ a ∈ added, a.releases k) ↔ s.Interrupts k) := by
  have hensure := (ensurePeerIdForConn_handlers s k.conn).idle hidle
  have hactions : (s.ensurePeerIdForConn k.conn).1.actions = s.actions := by
    simp only [ensurePeerIdForConn]
    split <;> rfl
  have hping := (ensurePeerIdForConn_handlers s k.conn).ping
  have hform := feedPing_remoteWriteClosed hensure.ping (s.ensurePeerIdForConn k.conn).2 k.stream
  rw [hactions, hping] at hform
  have hstep : s.handleStreamRemoteWriteClosed k =
      (s.ensurePeerIdForConn k.conn).1.feedPing
        (.streamRemoteWriteClosed (s.ensurePeerIdForConn k.conn).2 k.stream) := by
    simp only [handleStreamRemoteWriteClosed, hown]
  rw [hstep]
  refine Exists.intro _ ⟨hform, ?_⟩
  rw [Interrupts]
  cases s.ping.interrupted (s.ensurePeerIdForConn k.conn).2 k.stream with
  | false => simp
  | true =>
    -- the reset goes to the first ping stream with this id on a connection of the peer
    simp only [if_true, resetFor, true_and]
    cases (s.ensurePeerIdForConn k.conn).1.connForOwnedStream (s.ensurePeerIdForConn k.conn).2
      k.stream .ping with
    | none => simp
    | some c => simp [SwarmAction.releases]

end SwarmCore

/-- An action that finishes our side of the stream was queued in the run. -/
def Released [Sha256] [MultihashCodec] (s : SwarmCore) (calls : List Call) (k : StreamKey) : Prop :=
  ∃ a ∈ emittedActions s calls, a.releases k

instance [Sha256] [MultihashCodec] (s : SwarmCore) (calls : List Call) (k : StreamKey) :
    Decidable (Released s calls k) :=
  inferInstanceAs (Decidable (∃ a ∈ emittedActions s calls, a.releases k))

/-- After the remote half-close of a ping stream an action that releases it has been queued exactly
when one was queued before, or the half-close interrupts a ping. -/
theorem pingStream_released_iff [Sha256] [MultihashCodec]
    (identifyConfig : Identify.IdentifyConfig) (pingConfig : Ping.PingConfig) (calls : List Call)
    {k : StreamKey} {nowMs : UInt64}
    (hown : (run (.new identifyConfig pingConfig) calls).streamOwner[k]? = some .ping) :
    Released (.new identifyConfig pingConfig)
        (calls ++ [.input (.transport (.streamRemoteWriteClosed k.conn k.stream) nowMs)]) k ↔
      Released (.new identifyConfig pingConfig) calls k ∨
        (run (.new identifyConfig pingConfig) calls).Interrupts k := by
  have hidle := idle_run identifyConfig pingConfig calls
  obtain ⟨added, hadded, hiff⟩ := handleStreamRemoteWriteClosed_releases_iff hidle hown
  have hemitted : emittedActions (.new identifyConfig pingConfig)
      (calls ++ [.input (.transport (.streamRemoteWriteClosed k.conn k.stream) nowMs)]) =
      emittedActions (.new identifyConfig pingConfig) calls ++ added :=
    emittedActions_concat (by rintro ⟨⟩) hadded
  rw [Released, Released, hemitted, ← hiff]
  simp only [List.mem_append, or_and_right, exists_or]

/-! ## Concrete runs -/

/-- Alice opens a ping stream. -/
def inboundPingRun : List Call :=
  [.event (.connected ⟨1⟩ (Sample.endpoint (some Sample.alice))),
    .event (.incomingStream ⟨1⟩ ⟨0⟩),
    .event (.streamData ⟨1⟩ ⟨0⟩ (Multistream.encodeMessage Multistream.multistreamProtocolId ++
      Multistream.encodeMessage Ping.pingProtocolId))]

/-- The stream is ping's, and nothing was ever queued that releases it after the half-close. -/
theorem inboundPingRun_not_released :
    (Sample.run inboundPingRun).streamOwner[(⟨⟨1⟩, ⟨0⟩⟩ : StreamKey)]? = some .ping ∧
      ¬ @Released Sample.sha256 multihashCodec Sample.core
        (inboundPingRun ++ [.event (.streamRemoteWriteClosed ⟨1⟩ ⟨0⟩)]) ⟨⟨1⟩, ⟨0⟩⟩ := by
  decide +kernel

/-- Alice's answer to a ping is cut off. -/
def interruptedPingRun : List Call :=
  [.event (.connected ⟨1⟩ (Sample.endpoint (some Sample.alice))),
    .ping Sample.alice (Vector.replicate Ping.pingPayloadLen 7) 0,
    .input (.streamOpened ⟨1⟩ ⟨4⟩ ⟨2⟩ 0),
    .event (.streamData ⟨1⟩ ⟨4⟩ (Multistream.encodeMessage Multistream.multistreamProtocolId ++
      Multistream.encodeMessage Ping.pingProtocolId))]

theorem interruptedPingRun_released :
    @Released Sample.sha256 multihashCodec Sample.core
      (interruptedPingRun ++ [.event (.streamRemoteWriteClosed ⟨1⟩ ⟨4⟩)]) ⟨⟨1⟩, ⟨4⟩⟩ :=
  (@pingStream_released_iff Sample.sha256 multihashCodec _ _ interruptedPingRun ⟨⟨1⟩, ⟨4⟩⟩ 0
    (by decide +kernel)).mpr (.inr (by decide +kernel))

end Minip2p.Swarm
