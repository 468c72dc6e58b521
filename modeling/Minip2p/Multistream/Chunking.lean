import Minip2p.Lib.Chunking
import Minip2p.Multistream.SelectTheorems

/-!
# Negotiation does not depend on the chunks

Reading is described without the chunks: `settle` handles the frames of the buffer until it stops
at an unfinished one, and `absorb` adds bytes and settles. Absorbing twice is absorbing the
concatenation, so what a driven machine has put out, where it stands and what it has left unread
are functions of the bytes alone.
-/

namespace Minip2p.Multistream

namespace MultistreamSelect

/-! ## Reading until a frame is missing -/

/-- Adds bytes to the buffer. -/
def extend (select : MultistreamSelect) (bytes : Bytes) : MultistreamSelect :=
  { select with recvBuf := select.recvBuf ++ bytes }

/-- Puts outputs before the ones that wait. -/
def prepend (select : MultistreamSelect) (earlier : List MultistreamOutput) : MultistreamSelect :=
  { select with pendingOutputs := earlier ++ select.pendingOutputs }

/-- Gives up on a frame that does not decode. -/
def fail (select : MultistreamSelect) (e : MultistreamError) : MultistreamSelect :=
  { select with
    state := .done
    pendingOutputs := select.pendingOutputs ++ [.protocolError e.display] }

/-- Handles a decoded frame and takes it off the buffer. -/
def advance (select : MultistreamSelect) (payload : String) (consumed : Nat) : MultistreamSelect :=
  { select with
    recvBuf := select.recvBuf.drop consumed
    state := (handleMessage select.role select.state payload).1
    pendingOutputs :=
      select.pendingOutputs ++ (handleMessage select.role select.state payload).2 }

/-- Handles the frames of the buffer until one is missing. -/
def settle (select : MultistreamSelect) : MultistreamSelect := select.receiveGo 3

/-- Adds bytes and handles the frames they complete. A finished machine keeps them. -/
def absorb (select : MultistreamSelect) (bytes : Bytes) : MultistreamSelect :=
  (select.extend bytes).settle

end MultistreamSelect

/-- The number of frames a machine in this state has still to read. -/
def State.remaining : State → Nat
  | .waitingForRemoteHeader => 2
  | .waitingForProtocolRequest => 1
  | .waitingForProtocolResponse => 1
  | .done => 0

/-- Every frame brings the machine closer to its end. -/
theorem handleMessage_remaining {state : State} (h : state ≠ .done) (role : Role) (line : String) :
    (handleMessage role state line).1.remaining < state.remaining := by
  cases state with
  | waitingForRemoteHeader =>
    simp only [handleMessage]
    split
    · exact Nat.two_pos
    · cases role with
      | dialer desired => exact Nat.one_lt_two
      | listener supported => exact Nat.one_lt_two
  | waitingForProtocolRequest =>
    cases role with
    | dialer desired => exact Nat.one_pos
    | listener supported =>
      simp only [handleMessage]
      split
      · exact Nat.one_pos
      · exact Nat.one_pos
  | waitingForProtocolResponse =>
    cases role with
    | dialer desired =>
      simp only [handleMessage]
      split
      · exact Nat.one_pos
      · split
        · exact Nat.one_pos
        · exact Nat.one_pos
    | listener supported => exact Nat.one_pos
  | done => exact absurd rfl h

namespace MultistreamSelect

variable {select : MultistreamSelect}

/-- One turn of the loop. -/
theorem receiveGo_succ (select : MultistreamSelect) (fuel : Nat) :
    select.receiveGo (fuel + 1) =
      if select.state = .done then select
      else
        match decodeMessage select.recvBuf with
        | .incomplete => select
        | .error e => select.fail e
        | .complete payload consumed => (select.advance payload consumed).receiveGo fuel := rfl

/-- More turns than frames to read change nothing. -/
theorem receiveGo_fuel {fuel fuel' : Nat} (h : select.state.remaining < fuel)
    (h' : select.state.remaining < fuel') : select.receiveGo fuel = select.receiveGo fuel' := by
  induction fuel generalizing select fuel' with
  | zero => omega
  | succ fuel ih =>
    cases fuel' with
    | zero => omega
    | succ fuel' =>
      rw [receiveGo_succ, receiveGo_succ]
      by_cases hdone : select.state = .done
      · rw [if_pos hdone, if_pos hdone]
      · rw [if_neg hdone, if_neg hdone]
        cases decodeMessage select.recvBuf with
        | incomplete => rfl
        | error e => rfl
        | complete payload consumed =>
          have hless : (select.advance payload consumed).state.remaining <
              select.state.remaining := handleMessage_remaining hdone select.role payload
          exact ih (by omega) (by omega)

/-- At most two frames are waited for. -/
theorem remaining_lt_three (select : MultistreamSelect) : select.state.remaining < 3 := by
  cases select.state <;> decide

/-- A machine that has ended stays as it is. -/
theorem settle_done (h : select.state = .done) : select.settle = select :=
  receiveGo_done h 3

/-- Without a complete frame nothing happens. -/
theorem settle_incomplete (hframe : decodeMessage select.recvBuf = .incomplete) :
    select.settle = select := by
  rw [settle, receiveGo_succ, hframe]
  split <;> rfl

/-- A bad frame ends the negotiation. -/
theorem settle_error {e : MultistreamError} (h : select.state ≠ .done)
    (hframe : decodeMessage select.recvBuf = .error e) : select.settle = select.fail e := by
  rw [settle, receiveGo_succ, if_neg h, hframe]

/-- A complete frame is one turn. -/
theorem settle_complete {payload : String} {consumed : Nat} (h : select.state ≠ .done)
    (hframe : decodeMessage select.recvBuf = .complete payload consumed) :
    select.settle = (select.advance payload consumed).settle := by
  have hless : (select.advance payload consumed).state.remaining < select.state.remaining :=
    handleMessage_remaining h select.role payload
  have hthree := select.remaining_lt_three
  rw [settle, receiveGo_succ, if_neg h, hframe]
  exact receiveGo_fuel (by omega) (by omega)

/-- The induction over the frames of the buffer. -/
theorem settle_induction {P : MultistreamSelect → Prop}
    (done : ∀ select, select.state = .done → P select)
    (incomplete : ∀ select, decodeMessage select.recvBuf = .incomplete → P select)
    (error : ∀ select e, select.state ≠ .done → decodeMessage select.recvBuf = .error e → P select)
    (complete : ∀ select payload consumed, select.state ≠ .done →
      decodeMessage select.recvBuf = .complete payload consumed →
      P (select.advance payload consumed) → P select) (select : MultistreamSelect) : P select := by
  induction hn : select.state.remaining using Nat.strongRecOn generalizing select with
  | ind n ih =>
    by_cases hdone : select.state = .done
    · exact done select hdone
    · cases hframe : decodeMessage select.recvBuf with
      | incomplete => exact incomplete select hframe
      | error e => exact error select e hdone hframe
      | complete payload consumed =>
        have hless : (select.advance payload consumed).state.remaining < select.state.remaining :=
          handleMessage_remaining hdone select.role payload
        rw [hn] at hless
        exact complete select payload consumed hdone hframe (ih _ hless _ rfl)

/-! ## Absorbing is an action of the byte strings -/

theorem extend_nil (select : MultistreamSelect) : select.extend [] = select := by
  rw [extend, List.append_nil]

theorem extend_extend (select : MultistreamSelect) (first second : Bytes) :
    (select.extend first).extend second = select.extend (first ++ second) := by
  simp only [extend, List.append_assoc]

/-- Bytes that were there from the start are handled as those that come later. -/
theorem settle_extend (select : MultistreamSelect) (bytes : Bytes) :
    (select.extend bytes).settle = (select.settle.extend bytes).settle := by
  induction select using settle_induction with
  | done select hdone => rw [settle_done hdone]
  | incomplete select hframe => rw [settle_incomplete hframe]
  | error select e hdone hframe =>
    have hframe' : decodeMessage (select.extend bytes).recvBuf = .error e := by
      rw [← hframe]
      apply decodeMessage_verdict_append
      rw [hframe]
      rintro ⟨⟩
    have hdone' : (select.extend bytes).state ≠ .done := hdone
    rw [settle_error hdone hframe, settle_error hdone' hframe']
    exact (settle_done rfl).symm
  | complete select payload consumed hdone hframe ih =>
    obtain ⟨hle, hframe'⟩ := decodeMessage_append hframe bytes
    have hdone' : (select.extend bytes).state ≠ .done := hdone
    have hadvance : (select.extend bytes).advance payload consumed =
        (select.advance payload consumed).extend bytes := by
      simp only [advance, extend, List.drop_append_of_le_length hle]
    rw [settle_complete hdone hframe, settle_complete hdone' hframe', hadvance, ih]

/-- Outputs that wait are not looked at. -/
theorem settle_prepend (select : MultistreamSelect) (earlier : List MultistreamOutput) :
    (select.prepend earlier).settle = select.settle.prepend earlier := by
  induction select using settle_induction with
  | done select hdone => rw [settle_done hdone, settle_done (by exact hdone)]
  | incomplete select hframe => rw [settle_incomplete hframe, settle_incomplete (by exact hframe)]
  | error select e hdone hframe =>
    rw [settle_error hdone hframe, settle_error (by exact hdone) (by exact hframe)]
    simp only [fail, prepend, List.append_assoc]
  | complete select payload consumed hdone hframe ih =>
    have hadvance : (select.prepend earlier).advance payload consumed =
        (select.advance payload consumed).prepend earlier := by
      simp only [advance, prepend, List.append_assoc]
    rw [settle_complete hdone hframe, settle_complete (by exact hdone) (by exact hframe), hadvance,
      ih]

/-- What a machine leaves unread is an end of what it had. -/
theorem settle_suffix (select : MultistreamSelect) : select.settle.recvBuf <:+ select.recvBuf := by
  induction select using settle_induction with
  | done select hdone => simp only [settle_done hdone, List.suffix_rfl]
  | incomplete select hframe => simp only [settle_incomplete hframe, List.suffix_rfl]
  | error select e hdone hframe =>
    rw [settle_error hdone hframe]
    exact List.suffix_rfl
  | complete select payload consumed hdone hframe ih =>
    rw [settle_complete hdone hframe]
    exact ih.trans (List.drop_suffix consumed select.recvBuf)

/-- The machine has handled every frame it holds. -/
def Settled (select : MultistreamSelect) : Prop :=
  select.state = .done ∨ decodeMessage select.recvBuf = .incomplete

/-- A machine that waits for more has nothing to do. -/
theorem Settled.settle_eq (h : select.Settled) : select.settle = select := by
  rcases h with hdone | hframe
  · exact settle_done hdone
  · exact settle_incomplete hframe

/-- After its turns a machine waits for more. -/
theorem settle_settled (select : MultistreamSelect) : select.settle.Settled := by
  induction select using settle_induction with
  | done select hdone =>
    rw [settle_done hdone]
    exact .inl hdone
  | incomplete select hframe =>
    rw [settle_incomplete hframe]
    exact .inr hframe
  | error select e hdone hframe =>
    rw [settle_error hdone hframe]
    exact .inl rfl
  | complete select payload consumed hdone hframe ih =>
    rw [settle_complete hdone hframe]
    exact ih

/-- Bytes that come in two pieces do what they do at once. -/
theorem absorb_acts : Chunking.Acts Settled absorb where
  keeps _ _ := settle_settled _
  nil h := by
    rw [absorb, extend_nil]
    exact h.settle_eq
  append {select} _ first second := by
    show ((select.extend first).settle.extend second).settle =
      (select.extend (first ++ second)).settle
    rw [← settle_extend, extend_extend]

/-- `receive` absorbs, except that a finished machine drops what it is fed. -/
theorem receive_eq (select : MultistreamSelect) (bytes : Bytes) :
    select.receive bytes = if select.state = .done then select else select.absorb bytes := rfl

/-- A machine in its first state. -/
def create (role : Role) : MultistreamSelect := ⟨role, .waitingForRemoteHeader, [], false, []⟩

/-- `MultistreamSelect::dialer` returns a machine in its first state. -/
theorem dialer_eq (desiredProtocol : String) :
    dialer desiredProtocol = create (.dialer desiredProtocol) := rfl

/-- And so does `MultistreamSelect::listener`. -/
theorem listener_eq (protocols : List String) :
    listener protocols = create (.listener (Std.ExtTreeSet.ofList protocols compare)) := rfl

end MultistreamSelect

/-! ## A driven machine -/

/-- A machine, the outputs its driver has polled, and the bytes its driver fed to it when it was
already `done`. -/
structure Driven where
  select : MultistreamSelect
  polled : List MultistreamOutput
  late : Bytes
deriving DecidableEq

/-- What a driver does with a machine. -/
inductive DriverCall
  | start
  | data (bytes : Bytes)
  | poll
deriving DecidableEq, Repr

namespace Driven

/-- A new machine, of which nothing was seen yet. -/
def create (role : Role) : Driven := ⟨.create role, [], []⟩

/-- The driver starts the machine. -/
def start (driven : Driven) : Driven :=
  { driven with select := (driven.select.handleInput .start).1 }

/-- The driver hands over some bytes. -/
def feed (driven : Driven) (bytes : Bytes) : Driven :=
  { driven with
    select := (driven.select.handleInput (.data bytes)).1
    late := if driven.select.state = .done then driven.late ++ bytes else driven.late }

/-- The driver takes the next output. -/
def poll (driven : Driven) : Driven :=
  { driven with
    select := driven.select.pollOutput.2
    polled := driven.polled ++ driven.select.pollOutput.1.toList }

/-- One call of the driver. -/
def call (driven : Driven) : DriverCall → Driven
  | .start => driven.start
  | .data bytes => driven.feed bytes
  | .poll => driven.poll

/-- The machine after some calls, the first one first. -/
def run (driven : Driven) (calls : List DriverCall) : Driven := calls.foldl call driven

/-- Everything the machine has put out, polled or not. -/
def outputs (driven : Driven) : List MultistreamOutput :=
  driven.polled ++ driven.select.pendingOutputs

/-- The bytes left in the receive buffer, and those fed after the machine became `done`. -/
def unread (driven : Driven) : Bytes := driven.select.recvBuf ++ driven.late

/-- The machine as if nothing had been polled and no bytes had come too late. -/
def view (driven : Driven) : MultistreamSelect :=
  (driven.select.extend driven.late).prepend driven.polled

/-- The machine has handled its frames, and bytes come too late only once it is `done`. -/
structure Valid (driven : Driven) : Prop where
  settled : driven.select.Settled
  late : driven.select.state = .done ∨ driven.late = []

variable {driven : Driven}

theorem view_recvBuf (driven : Driven) : driven.view.recvBuf = driven.unread := rfl

theorem view_pendingOutputs (driven : Driven) : driven.view.pendingOutputs = driven.outputs := rfl

theorem view_state (driven : Driven) : driven.view.state = driven.select.state := rfl

/-- A new machine is driven well. -/
theorem create_valid (role : Role) : (create role).Valid := ⟨.inr rfl, .inr rfl⟩

/-- A machine that is driven well waits for more. -/
theorem Valid.view_settled (h : driven.Valid) : driven.view.Settled := by
  rcases h.late with hdone | hlate
  · exact .inl hdone
  · rw [view, hlate, MultistreamSelect.extend_nil]
    exact h.settled

/-- Starting keeps a machine driven well. -/
theorem Valid.start (h : driven.Valid) : driven.start.Valid := by
  have hselect : driven.start.select.state = driven.select.state ∧
      driven.start.select.recvBuf = driven.select.recvBuf := by
    show driven.select.start.state = _ ∧ driven.select.start.recvBuf = _
    rw [MultistreamSelect.start]
    split
    · exact ⟨rfl, rfl⟩
    · exact ⟨rfl, rfl⟩
  refine ⟨?_, ?_⟩
  · rw [MultistreamSelect.Settled, hselect.1, hselect.2]
    exact h.settled
  · rw [hselect.1]
    exact h.late

/-- Feeding keeps a machine driven well. -/
theorem Valid.feed (h : driven.Valid) (bytes : Bytes) : (driven.feed bytes).Valid := by
  by_cases hdone : driven.select.state = .done
  · have hselect : (driven.feed bytes).select = driven.select := if_pos hdone
    refine ⟨?_, .inl ?_⟩
    · rw [hselect]
      exact h.settled
    · rw [hselect]
      exact hdone
  · have hselect : (driven.feed bytes).select = driven.select.absorb bytes := if_neg hdone
    have hlate : (driven.feed bytes).late = driven.late := if_neg hdone
    refine ⟨?_, .inr ?_⟩
    · rw [hselect]
      exact MultistreamSelect.settle_settled _
    · rw [hlate]
      exact h.late.resolve_left hdone

/-- Polling keeps a machine driven well. -/
theorem Valid.poll (h : driven.Valid) : driven.poll.Valid := ⟨h.settled, h.late⟩

/-- Polling moves an output from the machine to its driver. -/
theorem view_poll (driven : Driven) : driven.poll.view = driven.view := by
  obtain ⟨⟨role, state, recvBuf, started, pending⟩, polled, late⟩ := driven
  cases pending with
  | nil => simp [view, poll, MultistreamSelect.pollOutput, MultistreamSelect.prepend]
  | cons output pending =>
    simp [view, poll, MultistreamSelect.pollOutput, MultistreamSelect.prepend,
      MultistreamSelect.extend]

/-- Feeding is absorbing, for whom does not look at the polls. -/
theorem view_feed (h : driven.Valid) (bytes : Bytes) :
    (driven.feed bytes).view = driven.view.absorb bytes := by
  rw [MultistreamSelect.absorb]
  by_cases hdone : driven.select.state = .done
  · have hselect : (driven.feed bytes).select = driven.select := if_pos hdone
    have hlate : (driven.feed bytes).late = driven.late ++ bytes := if_pos hdone
    rw [MultistreamSelect.settle_done (by exact hdone), view, hselect, hlate,
      ← MultistreamSelect.extend_extend]
    rfl
  · have hselect : (driven.feed bytes).select = driven.select.absorb bytes := if_neg hdone
    have hlate : (driven.feed bytes).late = driven.late := if_neg hdone
    have hnone := h.late.resolve_left hdone
    have hview : driven.view.extend bytes = (driven.select.extend bytes).prepend driven.polled := by
      rw [view, hnone, MultistreamSelect.extend_nil]
      rfl
    rw [hview, MultistreamSelect.settle_prepend, view, hselect, hlate, hnone,
      MultistreamSelect.extend_nil]
    rfl

/-- The view of a driven machine is one of what it absorbs. -/
theorem view_views :
    Chunking.Views Valid MultistreamSelect.Settled MultistreamSelect.absorb feed poll view where
  valid := Valid.view_settled
  keeps_feed := Valid.feed
  keeps_poll := Valid.poll
  view_feed := view_feed
  view_poll _ := view_poll _

/-- A machine stays driven well. -/
theorem Valid.run (h : driven.Valid) (calls : List DriverCall) : (driven.run calls).Valid := by
  induction calls generalizing driven with
  | nil => exact h
  | cons call calls ih =>
    cases call with
    | start => exact ih h.start
    | data bytes => exact ih (h.feed bytes)
    | poll => exact ih h.poll

/-- However the bytes are cut into `Data` inputs and wherever the machine is polled, it puts out,
ends in and leaves unread what it does when it is fed all of them at once. The machine is any
dialer or listener, fresh, started or in the middle of a negotiation. -/
theorem run_chunking (role : Role) (before : List DriverCall) (ops : List (Chunking.Op UInt8)) :
    let driven := (create role).run before
    let chunked := Chunking.run feed poll driven ops
    let whole := driven.feed (Chunking.fed ops)
    chunked.outputs = whole.outputs ∧ chunked.select.state = whole.select.state ∧
      chunked.unread = whole.unread ∧ chunked.unread <:+ driven.unread ++ Chunking.fed ops := by
  intro driven chunked whole
  have hvalid : driven.Valid := (create_valid role).run before
  have hchunked : chunked.view = driven.view.absorb (Chunking.fed ops) :=
    view_views.run_eq MultistreamSelect.absorb_acts hvalid ops
  have hview : chunked.view = whole.view := hchunked.trans (view_feed hvalid _).symm
  refine ⟨?_, ?_, ?_, ?_⟩
  · rw [← view_pendingOutputs, hview, view_pendingOutputs]
  · rw [← view_state, hview, view_state]
  · rw [← view_recvBuf, hview, view_recvBuf]
  · rw [← view_recvBuf, hchunked]
    exact MultistreamSelect.settle_suffix _

end Driven

end Minip2p.Multistream
