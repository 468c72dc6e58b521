import Minip2p.Lib.Logs
import Minip2p.Lib.Matching
import Minip2p.Ping.Moves

/-!
# Streams that were reset

A violation on a stream that is registered asks for its reset, but leaves it registered, so that the
machine writes on it again. `ForgetsReset` says of a call that it resets no stream it keeps; a run
of such calls writes on no stream after its reset.
-/

namespace Minip2p.Ping

open Logs (Since)
open Runs (EachStep collect)
open SansIoProtocol (Call)

/-- The action writes on the stream, or ends the write side of it. -/
def PingAction.Writes (p : PeerId) (s : StreamId) : PingAction → Prop
  | send peerId streamId _ | closeStreamWrite peerId streamId => peerId = p ∧ streamId = s
  | resetStream _ _ => False

/-- An action that writes on a stream is for its peer. -/
theorem PingAction.Writes.peerId_eq {p : PeerId} {s : StreamId} {action : PingAction}
    (h : action.Writes p s) : action.peerId = p := by
  cases action with
  | send peerId streamId data => exact h.1
  | closeStreamWrite peerId streamId => exact h.1
  | resetStream peerId streamId => exact h.elim

namespace Move

variable {timeoutMs : UInt64} {p : PeerId} {s : StreamId} {state state' : PeerPingState}
  {input : PingInput} {events : List PingEvent} {actions : List PingAction}

/-- What is written on is registered. -/
theorem knows_of_writes (h : Move timeoutMs p state input state' events actions)
    {action : PingAction} (hmem : action ∈ actions) (hwrites : action.Writes p s) :
    state.Knows s := by
  cases h with
  | sendPing hout | closeOutbound hout =>
    obtain rfl := List.mem_singleton.mp hmem
    obtain ⟨-, rfl⟩ := hwrites
    exact .inl hout
  | echo _ hin =>
    obtain rfl := List.mem_singleton.mp hmem
    obtain ⟨-, rfl⟩ := hwrites
    exact .inr hin
  | limitExceeded | unknownStream | oversize | mismatch | outboundInterrupted | timedOut =>
    obtain rfl := List.mem_singleton.mp hmem
    exact hwrites.elim
  | _ => cases hmem

/-- A move that resets a stream writes on none. -/
theorem not_writes_of_reset (h : Move timeoutMs p state input state' events actions)
    (hreset : .resetStream p s ∈ actions) {action : PingAction} (hmem : action ∈ actions) :
    ¬ action.Writes p s := by
  cases h with
  | sendPing | closeOutbound | echo => cases List.mem_singleton.mp hreset
  | limitExceeded | unknownStream | oversize | mismatch | outboundInterrupted | timedOut =>
    obtain rfl := List.mem_singleton.mp hmem
    exact id
  | _ => cases hmem

/-- Only a registration registers a stream. -/
theorem registers (h : Move timeoutMs p state input state' events actions)
    (hbefore : ¬ state.Knows s) (hafter : state'.Knows s) :
    input = .registerOutboundStream p s ∨ input = .registerInboundStream p s := by
  cases h with
  | registerOutbound =>
    rcases hafter with hout | hin
    · obtain rfl := Option.some.inj hout
      exact .inl rfl
    · exact absurd (.inr hin) hbefore
  | registerInbound =>
    rcases hafter with hout | hin
    · exact absurd (.inl hout) hbefore
    · rw [Std.ExtTreeSet.contains_insert, Bool.or_eq_true, beq_iff_eq, Std.compare_eq_iff_eq] at hin
      rcases hin with rfl | hin
      · exact .inr rfl
      · exact absurd (.inr hin) hbefore
  | inboundEnded | otherClosed =>
    refine absurd (hafter.imp id ?_) hbefore
    intro hin
    rw [Std.ExtTreeSet.contains_erase, Bool.and_eq_true] at hin
    exact hin.2
  | outboundClosed =>
    rcases hafter with hout | hin
    · cases hout
    · rw [Std.ExtTreeSet.contains_erase, Bool.and_eq_true] at hin
      exact absurd (.inr hin.2) hbefore
  | outboundInterrupted | outboundEnded | timedOut =>
    rcases hafter with hout | hin
    · cases hout
    · exact absurd (.inr hin) hbefore
  | removed => exact absurd hafter (PingProtocol.not_knows_default s)
  | _ => exact absurd hafter hbefore

end Move

namespace PingProtocol

/-- The stream is registered for the peer. -/
def Knows (ping : PingProtocol) (p : PeerId) (s : StreamId) : Prop := (ping.peerState p).Knows s

/-- The calls of a run, each with the calls before it. -/
def history (calls : List (Call PingInput)) : List (List (Call PingInput) × Call PingInput) :=
  collect (fun before call => [(before, call)]) [] calls

/-- The call resets the stream. -/
def Resets (config : PingConfig) (p : PeerId) (s : StreamId)
    (step : List (Call PingInput) × Call PingInput) : Prop :=
  .resetStream p s ∈ (run config step.1).newActions step.2

/-- The call registers the stream for the peer: it is about this stream, or moves to the peer one
that has it, and the stream was not registered before. -/
def Registers (config : PingConfig) (p : PeerId) (s : StreamId)
    (step : List (Call PingInput) × Call PingInput) : Prop :=
  (step.2 = .handleInput (.registerOutboundStream p s) ∨
    step.2 = .handleInput (.registerInboundStream p s) ∨
    ∃ old, step.2 = .handleInput (.migratePeer old p)) ∧
  ¬ (run config step.1).Knows p s ∧ ((run config step.1).after step.2).Knows p s

/-- The call writes on no stream that was reset and has not been registered since. -/
def SparesReset (config : PingConfig) (before : List (Call PingInput)) (call : Call PingInput) :
    Prop :=
  ∀ p s, Since (Resets config p s) (Registers config p s) (history before) ∨
      Resets config p s (before, call) →
    ∀ action ∈ (run config before).newActions call, ¬ action.Writes p s

/-- The call resets no stream that it keeps: the outbound stream is not registered as a third
inbound one, a registered stream brings no more than a payload at a time and, if it is the outbound
one, a payload that is awaited, and no stream that times out is also an inbound one. -/
def ForgetsReset (ping : PingProtocol) : Call PingInput → Prop
  | .handleInput (.registerInboundStream p s) =>
    (ping.peerState p).outboundStream = some s → (ping.peerState p).inboundStreams.contains s ∨
      (ping.peerState p).inboundStreams.size < 2
  | .handleInput (.streamData p s data _) =>
    (ping.peerState p).Knows s →
      ((ping.peerState p).received s ++ data).length ≤ pingPayloadLen ∧
      ((ping.peerState p).outboundStream = some s →
        ((ping.peerState p).received s ++ data).length = pingPayloadLen →
          ∃ pending ∈ (ping.peerState p).pendingPing,
            (ping.peerState p).received s ++ data = pending.payload.toList)
  | .handleInput (.tick nowMs) =>
    ∀ p s, (ping.peerState p).outboundStream = some s → (∃ pending ∈ (ping.peerState p).pendingPing,
      saturatingSub nowMs pending.sentAtMs > ping.config.requestTimeoutMs) →
        ¬ (ping.peerState p).inboundStreams.contains s
  | _ => True

variable {ping : PingProtocol} {call : Call PingInput} {p : PeerId} {s : StreamId}

/-- An input that forgets the streams it resets leaves none of them registered. -/
theorem not_knows_of_reset (h : ping.ForgetsReset call)
    (hreset : .resetStream p s ∈ ping.newActions call) : ¬ (ping.after call).Knows p s := by
  cases call with
  | pollOutput =>
    rw [newActions_pollOutput] at hreset
    cases hreset
  | handleInput input =>
    by_cases hinput : input.IsMigration
    · rw [newActions_migratePeer ping hinput] at hreset
      cases hreset
    · have hmove := ping.move hinput p
      have hreset' : .resetStream p s ∈ ping.newActionsFor p (.handleInput input) :=
        mem_newActionsFor.mpr ⟨hreset, rfl⟩
      rw [Knows]
      generalize ping.newEventsFor p (.handleInput input) = events at hmove
      generalize ping.newActionsFor p (.handleInput input) = actions at hmove hreset'
      generalize (ping.after (.handleInput input)).peerState p = state' at hmove
      cases hmove with
      | limitExceeded hin hsize =>
        cases List.mem_singleton.mp hreset'
        rintro (hout | hin')
        · rcases h hout with hin' | hlt
          · exact hin hin'
          · omega
        · exact hin hin'
      | unknownStream _ hunknown =>
        cases List.mem_singleton.mp hreset'
        exact hunknown
      | oversize _ hknown hlen =>
        exact absurd (h hknown).1 (Nat.not_le.mpr hlen)
      | mismatch _ hout hbuf hpending =>
        obtain ⟨pending, hmem, heq⟩ := (h (.inl hout)).2 hout (by rw [hbuf, Vector.length_toList])
        refine absurd ?_ (hpending pending hmem)
        exact (Vector.toList_inj.mp (hbuf.symm.trans heq)).symm
      | outboundInterrupted _ hin =>
        cases List.mem_singleton.mp hreset'
        rintro (hout | hin')
        · cases hout
        · exact hin hin'
      | timedOut hout hpending helapsed =>
        cases List.mem_singleton.mp hreset'
        rintro (hout' | hin)
        · cases hout'
        · exact h p s hout ⟨_, hpending, helapsed⟩ hin
      | sendPing | closeOutbound | echo => cases List.mem_singleton.mp hreset'
      | _ => cases hreset'

/-- The condition is exact: a call that does not meet it keeps a stream that it resets. -/
theorem forgetsReset_iff : ping.ForgetsReset call ↔
    ∀ p s, .resetStream p s ∈ ping.newActions call → ¬ (ping.after call).Knows p s := by
  refine ⟨fun h p s => not_knows_of_reset h, fun h => ?_⟩
  cases call with
  | pollOutput => trivial
  | handleInput input =>
    have hmoves : ¬ input.IsMigration → ∀ p, ∃ state events actions,
        Move ping.config.requestTimeoutMs p (ping.peerState p) input state events actions ∧
        ∀ s, .resetStream p s ∈ actions → ¬ state.Knows s := by
      intro hinput p
      refine ⟨_, _, _, ping.move hinput p, fun s hmem => ?_⟩
      exact h p s (mem_newActionsFor.mp hmem).1
    cases input with
    | registerInboundStream p s =>
      intro hout
      obtain ⟨state, events, actions, hmove, hforgets⟩ := hmoves id p
      cases hmove with
      | other hpeer hne => exact absurd (Option.some.inj hpeer).symm hne
      | inboundExists hin => exact .inl hin
      | limitExceeded => exact absurd (.inl hout) (hforgets s List.mem_cons_self)
      | registerInbound _ hsize => exact .inr (Nat.not_le.mp hsize)
    | streamData p s data nowMs =>
      intro hknown
      obtain ⟨state, events, actions, hmove, hforgets⟩ := hmoves id p
      cases hmove with
      | other hpeer hne => exact absurd (Option.some.inj hpeer).symm hne
      | unknownStream _ hunknown => exact absurd hknown hunknown
      | oversize => exact absurd hknown (hforgets s List.mem_cons_self)
      | keep _ hlen => exact ⟨Nat.le_of_lt hlen, fun _ heq => absurd heq (Nat.ne_of_lt hlen)⟩
      | mismatch _ hout => exact absurd (.inl hout) (hforgets s List.mem_cons_self)
      | rtt hout hbuf hpending =>
        refine ⟨?_, fun _ _ => ⟨_, hpending, hbuf⟩⟩
        rw [hbuf, Vector.length_toList]
      | echo hne hin hbuf =>
        refine ⟨?_, fun hout => absurd hout hne⟩
        rw [hbuf, Vector.length_toList]
    | tick nowMs =>
      rintro p s hout ⟨pending, hpending, helapsed⟩ hin
      obtain ⟨state, events, actions, hmove, hforgets⟩ := hmoves id p
      cases hmove with
      | other hpeer => cases hpeer
      | timedOut hout' =>
        obtain rfl := Option.some.inj (hout.symm.trans hout')
        exact hforgets s List.mem_cons_self (.inr hin)
      | inTime hin =>
        rcases hin with hnone | hin
        · cases hout.symm.trans hnone
        · exact hin pending hpending helapsed
    | _ => trivial

/-- No stream that was reset and not registered since is registered. -/
theorem not_knows_of_since {config : PingConfig} {calls : List (Call PingInput)}
    (h : EachStep (fun before => (run config before).ForgetsReset) [] calls)
    (hsince : Since (Resets config p s) (Registers config p s) (history calls)) :
    ¬ (run config calls).Knows p s := by
  induction calls using List.reverseRecOn with
  | nil => exact absurd hsince Logs.not_since_nil
  | append_singleton calls call ih =>
    obtain ⟨hcalls, hcall⟩ := h.split rfl
    rw [run_concat]
    rw [history, Runs.collect_concat, Logs.since_concat] at hsince
    rcases hsince with hreset | ⟨hregisters, hsince⟩
    · exact not_knows_of_reset hcall hreset
    · have hbefore := ih hcalls hsince
      intro hafter
      refine hregisters ⟨?_, hbefore, hafter⟩
      cases call with
      | pollOutput =>
        rw [Knows, peerState_pollOutput] at hafter
        exact absurd hafter hbefore
      | handleInput input =>
        by_cases hinput : input.IsMigration
        · cases input with
          | migratePeer old new =>
            refine .inr (.inr ⟨old, ?_⟩)
            rw [Knows, after, handleInput] at hafter
            rcases peerState_migratePeer (run config calls) old new p with hnone | hsame | ⟨rfl, -⟩
            · rw [hnone] at hafter
              exact absurd hafter (not_knows_default s)
            · rw [hsame] at hafter
              exact absurd hafter hbefore
            · rfl
          | _ => exact hinput.elim
        · rcases ((run config calls).move hinput p).registers hbefore hafter with rfl | rfl
          · exact .inl rfl
          · exact .inr (.inl rfl)

/-- In a run of which no call resets a stream that it keeps, no call writes on a stream that was
reset and has not been registered since. -/
theorem spares_reset (config : PingConfig) (calls : List (Call PingInput))
    (h : EachStep (fun before => (run config before).ForgetsReset) [] calls) :
    EachStep (SparesReset config) [] calls := by
  induction calls using List.reverseRecOn with
  | nil => trivial
  | append_singleton calls call ih =>
    obtain ⟨hcalls, hcall⟩ := h.split rfl
    rw [Runs.eachStep_append, List.nil_append]
    refine ⟨ih hcalls, ?_, trivial⟩
    intro p s hreset action haction hwrites
    cases call with
    | pollOutput =>
      rw [newActions_pollOutput] at haction
      cases haction
    | handleInput input =>
      by_cases hinput : input.IsMigration
      · rw [newActions_migratePeer _ hinput] at haction
        cases haction
      · have hmove := (run config calls).move hinput p
        have hmem := mem_newActionsFor.mpr ⟨haction, hwrites.peerId_eq⟩
        rcases hreset with hsince | hreset
        · exact not_knows_of_since hcalls hsince (hmove.knows_of_writes hmem hwrites)
        · exact hmove.not_writes_of_reset (mem_newActionsFor.mpr ⟨hreset, rfl⟩) hmem hwrites

/-- Data on a stream that is not registered yet, and a ping on it when it is. -/
def earlyData : List (Call PingInput) :=
  [.handleInput (.streamData onePeer ⟨0⟩ [1] 0),
    .handleInput (.registerOutboundStream onePeer ⟨0⟩),
    .handleInput (.sendPing onePeer (Vector.replicate 32 7) 5)]

theorem spares_reset_earlyData :
    EachStep (SparesReset default) [] earlyData ∧
      (run default earlyData).pendingActions =
        [.resetStream onePeer ⟨0⟩, .send onePeer ⟨0⟩ (Vector.replicate 32 7)] := by
  refine ⟨spares_reset default earlyData ⟨?_, trivial, trivial, trivial⟩, by decide⟩
  intro hknown
  have hstate : (run default []).peerState onePeer = default := peerState_of_none (by simp [new])
  rw [hstate] at hknown
  exact absurd hknown (not_knows_default _)

/-- Too much data on the outbound stream, and a ping. -/
def pingAfterViolation : List (Call PingInput) :=
  [.handleInput (.registerOutboundStream onePeer ⟨0⟩),
    .handleInput (.streamData onePeer ⟨0⟩ (List.replicate 33 1) 0),
    .handleInput (.sendPing onePeer (Vector.replicate 32 7) 5)]

theorem writes_on_reset : ¬ EachStep (SparesReset default) [] pingAfterViolation := by
  intro h
  refine h.2.2.1 onePeer ⟨0⟩ (.inl ?_) (.send onePeer ⟨0⟩ (Vector.replicate 32 7))
    (by decide) ⟨rfl, rfl⟩
  refine ⟨[([], pingAfterViolation[0])], (pingAfterViolation.take 1, pingAfterViolation[1]), [],
    rfl, ?_, fun _ hmem => absurd hmem List.not_mem_nil⟩
  have hnew : (run default (pingAfterViolation.take 1)).newActions pingAfterViolation[1] =
      [.resetStream onePeer ⟨0⟩] := by
    decide
  rw [Resets, hnew]
  exact List.mem_cons_self

end PingProtocol

end Minip2p.Ping
