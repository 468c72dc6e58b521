import Minip2p.Lib.Fifo
import Minip2p.Lib.Runs
import Minip2p.Multistream.Chunking
import Mathlib.Logic.Function.Basic

/-!
# Two machines that negotiate

A dialer and a listener joined by two FIFO byte channels. Either side is started, polled and given
any number of the bytes in flight to it, in any order, except that it is started before it is
given its first bytes. By `Driven.view_feed` where a side stands is a function of the bytes
delivered to it, so the whole session is described by how far each channel has got. From every
session there is a way to one where everything is delivered.
-/

namespace Minip2p.Multistream

open Fifo (Channel Side)

/-! ## Sessions -/

/-- The left side proposes a protocol. -/
@[match_pattern] abbrev dialer : Side := .left

/-- The right side answers. -/
@[match_pattern] abbrev listener : Side := .right

/-- A driven machine and the channel that leads to it. -/
structure Endpoint where
  driven : Driven
  incoming : Channel UInt8
deriving DecidableEq

/-- A dialer and a listener. -/
abbrev Session := Side → Endpoint

/-- The bytes that some outputs send to the remote. -/
def outbound : List MultistreamOutput → Bytes
  | [] => []
  | .outboundData bytes :: outputs => bytes ++ outbound outputs
  | _ :: outputs => outbound outputs

/-- The bytes of some outputs, and of more. -/
theorem outbound_append (first second : List MultistreamOutput) :
    outbound (first ++ second) = outbound first ++ outbound second := by
  induction first with
  | nil => rfl
  | cons output first ih =>
    cases output with
    | outboundData bytes =>
      show bytes ++ outbound (first ++ second) = bytes ++ outbound first ++ outbound second
      rw [ih, List.append_assoc]
    | negotiated protocol => exact ih
    | notAvailable => exact ih
    | protocolError reason => exact ih

/-- What happens next between them. -/
inductive SessionAction
  | start (side : Side)
  | poll (side : Side)
  | deliver (side : Side) (n : Nat)
deriving DecidableEq, Repr

namespace Session

/-- A side is started before it is given bytes. -/
def Allowed (session : Session) : SessionAction → Prop
  | .start _ => True
  | .poll _ => True
  | .deliver side _ => (session side).driven.select.started = true

instance (session : Session) : ∀ action, Decidable (session.Allowed action)
  | .start _ => inferInstanceAs (Decidable True)
  | .poll _ => inferInstanceAs (Decidable True)
  | .deliver side _ => inferInstanceAs (Decidable ((session side).driven.select.started = true))

/-- One action: what a poll takes out of a machine is sent to the other one. -/
def step (session : Session) : SessionAction → Session
  | .start side =>
    Function.update session side { session side with driven := (session side).driven.start }
  | .poll side =>
    let output := (session side).driven.select.pollOutput.1
    let polled := Function.update session side
      { session side with driven := (session side).driven.poll }
    Function.update polled side.other
      { polled side.other with
        incoming := (polled side.other).incoming.send (outbound output.toList) }
  | .deliver side n =>
    Function.update session side
      ⟨(session side).driven.feed ((session side).incoming.next n),
        (session side).incoming.deliver n⟩

/-- The session before anything was done. -/
def create (roles : Side → Role) : Session := fun side => ⟨.create (roles side), .empty⟩

/-- Some allowed actions later. -/
def Continues : Session → Session → Prop :=
  Relation.ReflTransGen fun session session' =>
    ∃ action, session.Allowed action ∧ session' = session.step action

/-- The roles of a session for `desired` and a listener with the protocols `supported`. -/
def roles (desired : String) (supported : BTreeSet String) : Side → Role
  | dialer => .dialer desired
  | listener => .listener supported

/-- A session that some allowed actions lead to. -/
def Reachable (desired : String) (supported : BTreeSet String) (session : Session) : Prop :=
  Continues (create (roles desired supported)) session

/-- Everything a side has put out, polled or not. -/
def outputs (session : Session) (side : Side) : List MultistreamOutput :=
  (session side).driven.outputs

/-- The state of the machine of a side. -/
def state (session : Session) (side : Side) : State := (session side).driven.select.state

/-- Both sides were started, and every byte they sent or have to send is delivered. -/
def Drained (session : Session) : Prop :=
  ∀ side, (session side).driven.select.started = true ∧ (session side).incoming.inFlight = [] ∧
    outbound (session side).driven.select.pendingOutputs = []

end Session

/-! ## What a side has read -/

namespace MultistreamSelect

/-- The machine of an endpoint before it was given bytes. -/
def opening (role : Role) (started : Bool) : MultistreamSelect :=
  bif started then (create role).start else create role

theorem opening_started (role : Role) (started : Bool) :
    (opening role started).started = started := by
  cases started <;> rfl

/-- A turn does not start a machine. -/
theorem settle_started (select : MultistreamSelect) : select.settle.started = select.started := by
  induction select using settle_induction with
  | done select hdone => rw [settle_done hdone]
  | incomplete select hframe => rw [settle_incomplete hframe]
  | error select e hdone hframe =>
    rw [settle_error hdone hframe]
    rfl
  | complete select payload consumed hdone hframe ih =>
    rw [settle_complete hdone hframe, ih]
    rfl

end MultistreamSelect

/-- The endpoint stands where the delivered bytes take its machine, and what was sent to it is
what was polled from the other one. -/
structure Endpoint.Follows (role : Role) (endpoint peer : Endpoint) : Prop where
  valid : endpoint.driven.Valid
  reads : endpoint.driven.view =
    (MultistreamSelect.opening role endpoint.driven.select.started).absorb
      endpoint.incoming.delivered
  quiet : endpoint.driven.select.started = false → endpoint.incoming.delivered = []
  sent : endpoint.incoming.sent = outbound peer.driven.polled

namespace Driven

/-- Starting is seen in the view. -/
theorem view_start (driven : Driven) : driven.start.view = driven.view.start := by
  obtain ⟨⟨role, state, recvBuf, started, pending⟩, polled, late⟩ := driven
  cases started with
  | true => rfl
  | false =>
    simp [view, start, MultistreamSelect.handleInput, MultistreamSelect.start,
      MultistreamSelect.extend, MultistreamSelect.prepend]

theorem view_started (driven : Driven) : driven.view.started = driven.select.started := rfl

/-- What is polled goes out of the machine in order. -/
theorem outbound_poll (driven : Driven) : outbound driven.poll.polled =
    outbound driven.polled ++ outbound driven.select.pollOutput.1.toList :=
  outbound_append _ _

end Driven

namespace Endpoint.Follows

variable {role : Role} {endpoint peer : Endpoint}

/-- Only what was polled from the other machine matters of it. -/
theorem of_polled (h : Follows role endpoint peer) {peer' : Endpoint}
    (hpolled : peer'.driven.polled = peer.driven.polled) : Follows role endpoint peer' where
  valid := h.valid
  reads := h.reads
  quiet := h.quiet
  sent := by rw [h.sent, hpolled]

/-- Starting an end keeps it in step with its bytes. -/
theorem start (h : Follows role endpoint peer) :
    Follows role { endpoint with driven := endpoint.driven.start } peer := by
  have hstarted : endpoint.driven.start.select.started = true := by
    rw [← Driven.view_started, Driven.view_start, MultistreamSelect.start]
    split
    · assumption
    · rfl
  refine ⟨h.valid.start, ?_, ?_, h.sent⟩
  · rw [hstarted, Driven.view_start, h.reads]
    cases hbefore : endpoint.driven.select.started with
    | true =>
      -- the header is sent once
      apply if_pos
      rw [MultistreamSelect.absorb, MultistreamSelect.settle_started]
      exact MultistreamSelect.opening_started role true
    | false =>
      rw [h.quiet hbefore]
      rfl
  · intro hnot
    rw [hstarted] at hnot
    cases hnot

/-- Polling an end keeps it in step with its bytes. -/
theorem poll (h : Follows role endpoint peer) :
    Follows role { endpoint with driven := endpoint.driven.poll } peer where
  valid := h.valid.poll
  reads := by
    rw [Driven.view_poll]
    exact h.reads
  quiet := h.quiet
  sent := h.sent

/-- The other machine is polled. -/
theorem send (h : Follows role endpoint peer) :
    Follows role
      { endpoint with
        incoming := endpoint.incoming.send
          (outbound peer.driven.select.pollOutput.1.toList) }
      { peer with driven := peer.driven.poll } where
  valid := h.valid
  reads := h.reads
  quiet := h.quiet
  sent := by
    rw [Driven.outbound_poll, ← h.sent]
    exact Channel.sent_send _ _

/-- A delivery keeps an end in step with its bytes. -/
theorem deliver (h : Follows role endpoint peer)
    (hstarted : endpoint.driven.select.started = true) (n : Nat) :
    Follows role
      ⟨endpoint.driven.feed (endpoint.incoming.next n), endpoint.incoming.deliver n⟩ peer := by
  have hview : (endpoint.driven.feed (endpoint.incoming.next n)).view =
      (MultistreamSelect.opening role true).absorb (endpoint.incoming.deliver n).delivered := by
    rw [Driven.view_feed h.valid, h.reads, hstarted]
    exact MultistreamSelect.absorb_acts.append (.inr rfl) _ _
  have hstarted' : (endpoint.driven.feed (endpoint.incoming.next n)).select.started = true := by
    rw [← Driven.view_started, hview, MultistreamSelect.absorb, MultistreamSelect.settle_started]
    exact MultistreamSelect.opening_started role true
  refine ⟨h.valid.feed _, ?_, ?_, ?_⟩
  · rw [hstarted']
    exact hview
  · intro hnot
    rw [hstarted'] at hnot
    cases hnot
  · show (endpoint.incoming.deliver n).sent = _
    rw [Channel.sent_deliver]
    exact h.sent

end Endpoint.Follows

namespace Session

variable {roles : Side → Role} {session : Session}

/-- Both endpoints stand where the bytes delivered to them take their machines. -/
def Follows (roles : Side → Role) (session : Session) : Prop :=
  ∀ side, (session side).Follows (roles side) (session side.other)

/-- New ends are in step. -/
theorem create_follows (roles : Side → Role) : (create roles).Follows roles := fun side =>
  ⟨Driven.create_valid (roles side), rfl, fun _ => rfl, rfl⟩

/-- Every allowed action keeps both ends in step. -/
theorem Follows.step (h : session.Follows roles) {action : SessionAction}
    (hallowed : session.Allowed action) : (session.step action).Follows roles := by
  intro side'
  cases action with
  | start side =>
    rcases side.eq_or_eq_other side' with rfl | rfl
    · simp only [Session.step, Function.update_self, Function.update_of_ne (Side.other_ne _)]
      exact (h side').start
    · simp only [Session.step, Side.other_other, Function.update_self,
        Function.update_of_ne side.other_ne]
      have hother := h side.other
      rw [Side.other_other] at hother
      exact hother.of_polled rfl
  | poll side =>
    have hne := side.other_ne
    rcases side.eq_or_eq_other side' with rfl | rfl
    · simp only [Session.step, Function.update_self, Function.update_of_ne hne.symm,
        Function.update_of_ne hne]
      exact (h side').poll.of_polled rfl
    · simp only [Session.step, Side.other_other, Function.update_self,
        Function.update_of_ne hne.symm, Function.update_of_ne hne]
      have hother := h side.other
      rw [Side.other_other] at hother
      exact hother.send
  | deliver side n =>
    rcases side.eq_or_eq_other side' with rfl | rfl
    · simp only [Session.step, Function.update_self, Function.update_of_ne (Side.other_ne _)]
      exact (h side').deliver hallowed n
    · simp only [Session.step, Side.other_other, Function.update_self,
        Function.update_of_ne side.other_ne]
      have hother := h side.other
      rw [Side.other_other] at hother
      exact hother.of_polled rfl

/-! ### Runs -/

/-- Each action is allowed when it is taken. -/
def AllowedAll : Session → List SessionAction → Prop
  | _, [] => True
  | session, action :: actions => session.Allowed action ∧ AllowedAll (session.step action) actions

instance decidableAllowedAll : ∀ (session : Session) (actions : List SessionAction),
    Decidable (session.AllowedAll actions)
  | _, [] => .isTrue trivial
  | session, action :: actions =>
    have := decidableAllowedAll (session.step action) actions
    inferInstanceAs (Decidable (session.Allowed action ∧ AllowedAll (session.step action) actions))

/-- The session after some actions, the first one first. -/
def run (session : Session) (actions : List SessionAction) : Session := actions.foldl step session

/-- A run of allowed actions continues the session. -/
theorem continues_run {actions : List SessionAction} (h : session.AllowedAll actions) :
    session.Continues (session.run actions) := by
  induction actions generalizing session with
  | nil => exact .refl
  | cons action actions ih => exact .head ⟨action, h.1, rfl⟩ (ih h.2)

end Session

/-! ## Everything can be delivered -/

/-- A frame is answered with at most two outputs. -/
theorem handleMessage_outputs_length (role : Role) (state : State) (line : String) :
    (handleMessage role state line).2.length ≤ 2 := by
  cases state with
  | waitingForRemoteHeader =>
    simp only [handleMessage]
    split
    · exact Nat.le_succ 1
    · cases role with
      | dialer desired => exact Nat.le_succ 1
      | listener supported => exact Nat.zero_le 2
  | waitingForProtocolRequest =>
    cases role with
    | dialer desired => exact Nat.le_refl 2
    | listener supported =>
      simp only [handleMessage]
      split
      · exact Nat.le_refl 2
      · exact Nat.le_refl 2
  | waitingForProtocolResponse =>
    cases role with
    | dialer desired =>
      simp only [handleMessage]
      split
      · exact Nat.le_succ 1
      · split
        · exact Nat.le_succ 1
        · exact Nat.le_succ 1
    | listener supported => exact Nat.zero_le 2
  | done => exact Nat.zero_le 2

namespace MultistreamSelect

/-- The frames a machine has still to read and the outputs it has still to hand over. -/
def work (select : MultistreamSelect) : Nat :=
  5 * select.state.remaining + 2 * select.pendingOutputs.length

/-- Reading a frame costs more than its answer. -/
theorem settle_work (select : MultistreamSelect) : select.settle.work ≤ select.work := by
  induction select using settle_induction with
  | done select hdone => rw [settle_done hdone]
  | incomplete select hframe => rw [settle_incomplete hframe]
  | error select e hdone hframe =>
    have hpos : 0 < select.state.remaining := by
      have := handleMessage_remaining hdone select.role ""
      omega
    rw [settle_error hdone hframe, work, work]
    show 5 * 0 + 2 * (select.pendingOutputs ++ [_]).length ≤ _
    rw [List.length_append, List.length_singleton]
    omega
  | complete select payload consumed hdone hframe ih =>
    have hless := handleMessage_remaining hdone select.role payload
    have hfew := handleMessage_outputs_length select.role select.state payload
    rw [settle_complete hdone hframe]
    refine ih.trans ?_
    simp only [work, advance, List.length_append]
    omega

end MultistreamSelect

/-- What is left to do at an endpoint. -/
def Endpoint.work (endpoint : Endpoint) : Nat :=
  endpoint.driven.select.work + min endpoint.incoming.inFlight.length 1 +
    3 * (!endpoint.driven.select.started).toNat

namespace Session

/-- What is left to do in a session. -/
def work (session : Session) : Nat := (session dialer).work + (session listener).work

/-- The work left is that of the two sides. -/
theorem work_eq (session : Session) (side : Side) :
    session.work = (session side).work + (session side.other).work := by
  cases side with
  | left => rfl
  | right => exact Nat.add_comm _ _

/-- Handing over one output leaves less to do. -/
theorem work_poll {session : Session} {side : Side}
    (h : (session side).driven.select.pendingOutputs ≠ []) :
    (session.step (.poll side)).work < session.work := by
  have hlength := List.length_pos_iff.mpr h
  rw [work_eq _ side, work_eq session side]
  simp only [step, Function.update_self, Function.update_of_ne side.other_ne,
    Function.update_of_ne side.other_ne.symm]
  simp only [Endpoint.work, MultistreamSelect.work, Driven.poll, MultistreamSelect.pollOutput,
    List.length_tail]
  omega

/-- Starting a side for the first time takes work off. -/
theorem work_start {session : Session} {side : Side}
    (h : (session side).driven.select.started = false) :
    (session.step (.start side)).work < session.work := by
  have hstart : (session side).driven.select.start.work =
      (session side).driven.select.work + 2 := by
    simp only [MultistreamSelect.work, MultistreamSelect.start, h, Bool.false_eq_true, if_false,
      List.length_append, List.length_singleton]
    omega
  have hstarted : (session side).driven.select.start.started = true := by
    simp only [MultistreamSelect.start, h, Bool.false_eq_true, if_false]
  rw [work_eq _ side, work_eq session side]
  simp only [step, Function.update_self, Function.update_of_ne side.other_ne]
  simp only [Endpoint.work, Driven.start, MultistreamSelect.handleInput, hstart, hstarted, h,
    Bool.not_true, Bool.not_false, Bool.toNat_true, Bool.toNat_false]
  omega

/-- Delivering all that is in flight leaves less to do. -/
theorem work_deliver {session : Session} {side : Side}
    (hstarted : (session side).driven.select.started = true)
    (h : (session side).incoming.inFlight ≠ []) :
    (session.step (.deliver side (session side).incoming.inFlight.length)).work < session.work := by
  have hread : ((session side).driven.select.receive
      ((session side).incoming.next (session side).incoming.inFlight.length)).work ≤
        (session side).driven.select.work := by
    rw [MultistreamSelect.receive_eq]
    split
    · exact Nat.le_refl _
    · exact MultistreamSelect.settle_work _
  have hstarted' : ((session side).driven.select.receive
      ((session side).incoming.next (session side).incoming.inFlight.length)).started = true := by
    rw [MultistreamSelect.receive_eq]
    split
    · exact hstarted
    · rw [MultistreamSelect.absorb, MultistreamSelect.settle_started]
      exact hstarted
  rw [work_eq _ side, work_eq session side]
  simp only [step, Function.update_self, Function.update_of_ne side.other_ne]
  have hlength := List.length_pos_iff.mpr h
  simp only [Endpoint.work, Driven.feed, MultistreamSelect.handleInput, Channel.deliver,
    List.drop_length, List.length_nil, hstarted, hstarted']
  omega

/-- While something is left to do, some action does a part of it. -/
theorem exists_step_of_not_drained {session : Session} (h : ¬ session.Drained) :
    ∃ action, session.Allowed action ∧ (session.step action).work < session.work := by
  by_cases hstarted : ∃ side, (session side).driven.select.started = false
  · obtain ⟨side, hside⟩ := hstarted
    exact ⟨.start side, trivial, work_start hside⟩
  by_cases hpending : ∃ side, (session side).driven.select.pendingOutputs ≠ []
  · obtain ⟨side, hside⟩ := hpending
    exact ⟨.poll side, trivial, work_poll hside⟩
  by_cases hflight : ∃ side, (session side).incoming.inFlight ≠ []
  · obtain ⟨side, hside⟩ := hflight
    have hside' : (session side).driven.select.started = true := by
      cases hcase : (session side).driven.select.started with
      | true => rfl
      | false => exact absurd ⟨side, hcase⟩ hstarted
    exact ⟨.deliver side _, hside', work_deliver hside' hside⟩
  -- both are started, nothing waits to be sent and nothing is in flight
  exfalso
  apply h
  intro side
  refine ⟨?_, ?_, ?_⟩
  · cases hcase : (session side).driven.select.started with
    | true => rfl
    | false => exact absurd ⟨side, hcase⟩ hstarted
  · by_contra hside
    exact hflight ⟨side, hside⟩
  · have hside : (session side).driven.select.pendingOutputs = [] := by
      by_contra hside
      exact hpending ⟨side, hside⟩
    rw [hside]
    rfl

/-- From every session there is a way to one where everything is delivered. -/
theorem exists_drained (session : Session) :
    ∃ session', session.Continues session' ∧ session'.Drained := by
  induction hwork : session.work using Nat.strongRecOn generalizing session with
  | ind n ih =>
    by_cases hdrained : session.Drained
    · exact ⟨session, .refl, hdrained⟩
    · obtain ⟨action, hallowed, hless⟩ := exists_step_of_not_drained hdrained
      rw [hwork] at hless
      obtain ⟨session', hcontinues, hdrained'⟩ := ih _ hless _ rfl
      exact ⟨session', .head ⟨action, hallowed, rfl⟩ hcontinues, hdrained'⟩

end Session

end Minip2p.Multistream
