import Minip2p.Multistream.Agreement

/-!
# Which protocols can be negotiated

A machine reports only lines that it has read, and a frame holds 1 to 1023 bytes; a dialer for the
refusal text takes a refusal for its success. Every other id can be negotiated.
-/

namespace Minip2p.Multistream

variable {desired : String} {supported : BTreeSet String}

/-- Whatever a machine reports as negotiated, it has read. -/
theorem handleMessage_negotiated {role : Role} {state : State} {line protocol : String}
    (h : .negotiated protocol ∈ (handleMessage role state line).2) : protocol = line := by
  cases state with
  | waitingForRemoteHeader =>
    simp only [handleMessage] at h
    split at h
    · simp [protocolError] at h
    · cases role with
      | dialer desired => simp at h
      | listener supported => simp at h
  | waitingForProtocolRequest =>
    cases role with
    | dialer desired => simp [handleMessage] at h
    | listener supported =>
      simp only [handleMessage] at h
      split at h
      · simpa using h
      · simp at h
  | waitingForProtocolResponse =>
    cases role with
    | dialer desired =>
      simp only [handleMessage] at h
      split at h
      · next hline =>
        rw [hline]
        simpa using h
      · split at h
        · simp at h
        · simp [protocolError] at h
    | listener supported => simp [handleMessage] at h
  | done => simp [handleMessage] at h

/-- Every protocol that was reported as negotiated fits a frame. -/
def MultistreamSelect.ReportsSendable (select : MultistreamSelect) : Prop :=
  ∀ protocol, .negotiated protocol ∈ select.pendingOutputs → Sendable protocol

/-- No turn reports a protocol that does not fit a frame. -/
theorem MultistreamSelect.ReportsSendable.settle {select : MultistreamSelect}
    (h : select.ReportsSendable) : select.settle.ReportsSendable := by
  induction select using settle_induction with
  | done select hdone =>
    rw [settle_done hdone]
    exact h
  | incomplete select hframe =>
    rw [settle_incomplete hframe]
    exact h
  | error select e hdone hframe =>
    rw [settle_error hdone hframe]
    intro protocol hmem
    rcases List.mem_append.mp hmem with hmem | hmem
    · exact h protocol hmem
    · cases List.mem_singleton.mp hmem
  | complete select payload consumed hdone hframe ih =>
    rw [settle_complete hdone hframe]
    apply ih
    intro protocol hmem
    rcases List.mem_append.mp hmem with hmem | hmem
    · exact h protocol hmem
    · rw [handleMessage_negotiated hmem]
      exact (sendable_of_decodeMessage hframe).2

namespace Session

/-- In every session both ends follow their bytes. -/
theorem Reachable.follows {session : Session} (h : Reachable desired supported session) :
    session.Follows (roles desired supported) := by
  refine Runs.keeps_of_chain h ?_ (create_follows _)
  rintro session _ ⟨action, hallowed, rfl⟩ hfollows
  exact hfollows.step hallowed

/-- In no session is a protocol negotiated that does not fit a frame. -/
theorem Reachable.negotiated_sendable {session : Session} (h : Reachable desired supported session)
    {side : Fifo.Side} {protocol : String} (hmem : .negotiated protocol ∈ session.outputs side) :
    Sendable protocol := by
  rw [← view_outputs, (h.follows side).reads] at hmem
  refine MultistreamSelect.ReportsSendable.settle ?_ protocol hmem
  intro protocol hmem
  cases hstarted : (session side).driven.select.started with
  | true =>
    rw [hstarted] at hmem
    cases List.mem_singleton.mp hmem
  | false =>
    rw [hstarted] at hmem
    exact absurd hmem List.not_mem_nil

end Session

/-- A dialer for `id` reports success only when the listener has selected `id`, and against a
listener that supports `id` both report it. -/
structure Negotiable (id : String) : Prop where
  selected : ∀ supported session, Session.Reachable id supported session →
    ∀ protocol, .negotiated protocol ∈ session.outputs dialer →
      .negotiated id ∈ session.outputs listener
  succeeds : ∀ supported, supported.contains id = true →
    ∀ session, Session.Reachable id supported session → session.Drained →
      ∀ side, session.state side = .done ∧ .negotiated id ∈ session.outputs side

/-- A dialer takes the refusal of `na` for its acceptance. -/
theorem refusal_negotiates :
    let session := (Session.create (Session.roles notAvailable ∅)).run Session.exchange
    .negotiated notAvailable ∈ session.outputs dialer ∧
      session.outputs listener = [.outboundData (encodeMessage multistreamProtocolId),
        .outboundData (encodeMessage notAvailable), .notAvailable] := by
  decide +kernel

/-- The ids that can be negotiated are those that fit a frame and are not the refusal. -/
theorem negotiable_iff (id : String) : Negotiable id ↔ Sendable id ∧ id ≠ notAvailable := by
  constructor
  · intro h
    refine ⟨?_, ?_⟩
    · obtain ⟨session, hreach, hdrained⟩ := (Session.create (Session.roles id {id})).exists_drained
      obtain ⟨-, hmem⟩ := h.succeeds {id} (by simp) session hreach hdrained listener
      exact Session.Reachable.negotiated_sendable hreach hmem
    · rintro rfl
      obtain ⟨hdialer, hlistener⟩ := refusal_negotiates
      have hreach : Session.Reachable notAvailable ∅
          ((Session.create (Session.roles notAvailable ∅)).run Session.exchange) :=
        Session.continues_run (by decide +kernel)
      have hselected := h.selected ∅ _ hreach _ hdialer
      rw [hlistener] at hselected
      simp at hselected
  · rintro ⟨hid, hna⟩
    constructor
    · intro supported session hreach protocol hmem
      exact ((hreach.scripted hid hna).negotiated_dialer hid hna hmem).2.2
    · intro supported hcontains session hreach hdrained side
      have hend := (hreach.scripted hid hna).verdict_of_drained hid hna hdrained side
      rw [verdict, if_pos hcontains] at hend
      exact hend

end Minip2p.Multistream
