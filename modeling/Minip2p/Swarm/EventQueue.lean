import Minip2p.Lib.Fifo
import Minip2p.Swarm.Lifecycle
import Minip2p.Swarm.Traffic

/-!
# The event queue of the core

A call other than a poll renames the events that wait and appends to them. So what the core ever
queued is, in order and once each, what was polled and what still waits, under the names of the
upgrades made meanwhile.
-/

namespace Minip2p.Swarm

namespace SwarmCore

/-! ## Answers of the driver -/

/-- The answer to an open request queues the multistream header or a report. -/
theorem handleStreamOpened_queues (s : SwarmCore) (k : StreamKey) (token : OpenStreamToken) :
    ((s.handleStreamOpened k token).actions = s.actions ∧
        ∃ e, (s.handleStreamOpened k token).events = s.events ++ [e]) ∨
      ∃ data, (s.handleStreamOpened k token).actions =
          s.actions ++ [.sendStream k.conn k.stream data] ∧
        (s.handleStreamOpened k token).events = s.events := by
  simp only [handleStreamOpened]
  split
  · exact .inl ⟨rfl, _, rfl⟩
  · split
    · exact .inl ⟨rfl, _, rfl⟩
    · exact .inr ⟨_, rfl, rfl⟩

theorem handleOpenStreamFailed_queues (s : SwarmCore) (token : OpenStreamToken) (reason : String) :
    (s.handleOpenStreamFailed token reason).actions = s.actions ∧
      ∃ e, (s.handleOpenStreamFailed token reason).events = s.events ++ [e] := by
  simp only [handleOpenStreamFailed]
  split
  · exact ⟨rfl, _, rfl⟩
  · exact ⟨rfl, _, rfl⟩

end SwarmCore

open SwarmCore

variable [Sha256] [MultihashCodec]

/-- A call that is not a poll renames the events that wait and appends. -/
theorem step_appends (s : SwarmCore) {call : Call} (hcall : call ≠ .pollOutput) :
    s.events.map (SwarmEvent.migrateAll (s.upgrade? call).toList) <+: (step s call).events := by
  obtain ⟨asks, htraffic⟩ := step_traffic s hcall
  exact htraffic.events

/-! ## The events of a run -/

/-- The events a call queues. -/
def queuedBy (s : SwarmCore) (call : Call) : List SwarmEvent :=
  (step s call).events.drop s.events.length

/-- The events the core has queued in a run, each as it was queued. -/
def queuedEvents : SwarmCore → List Call → List SwarmEvent
  | _, [] => []
  | s, call :: calls => queuedBy s call ++ queuedEvents (step s call) calls

/-- The identity upgrades of a run. -/
def upgrades : SwarmCore → List Call → List (PeerId × PeerId)
  | _, [] => []
  | s, call :: calls => (s.upgrade? call).toList ++ upgrades (step s call) calls

/-- `e'` is `e` after some upgrades in a row. -/
def Renamed (names : List (PeerId × PeerId)) (e e' : SwarmEvent) : Prop :=
  ∃ part, part <:+: names ∧ e' = e.migrateAll part

/-- `e'` is `e` after the latest upgrades. -/
def RenamedLast (names : List (PeerId × PeerId)) (e e' : SwarmEvent) : Prop :=
  ∃ part, part <:+ names ∧ e' = e.migrateAll part

theorem queuedEvents_concat (s : SwarmCore) (calls : List Call) (call : Call) :
    queuedEvents s (calls ++ [call]) = queuedEvents s calls ++ queuedBy (run s calls) call := by
  induction calls generalizing s with
  | nil => simp [queuedEvents]
  | cons first calls ih =>
    simp only [List.cons_append, queuedEvents, List.append_assoc]
    rw [ih]
    rfl

theorem upgrades_concat (s : SwarmCore) (calls : List Call) (call : Call) :
    upgrades s (calls ++ [call]) = upgrades s calls ++ ((run s calls).upgrade? call).toList := by
  induction calls generalizing s with
  | nil => simp [upgrades]
  | cons first calls ih =>
    simp only [List.cons_append, upgrades, List.append_assoc]
    rw [ih]
    rfl

section Names

variable {names more : List (PeerId × PeerId)} {e e' : SwarmEvent}

omit [Sha256] [MultihashCodec] in
theorem RenamedLast.refl (e : SwarmEvent) : RenamedLast names e e := ⟨[], List.nil_suffix, rfl⟩

omit [Sha256] [MultihashCodec] in
theorem RenamedLast.renamed (h : RenamedLast names e e') : Renamed names e e' := by
  obtain ⟨part, hpart, rfl⟩ := h
  exact ⟨part, hpart.isInfix, rfl⟩

omit [Sha256] [MultihashCodec] in
theorem Renamed.append (h : Renamed names e e') : Renamed (names ++ more) e e' := by
  obtain ⟨part, hpart, rfl⟩ := h
  exact ⟨part, hpart.trans (List.prefix_append _ _).isInfix, rfl⟩

omit [Sha256] [MultihashCodec] in
/-- An event that waits is renamed by every upgrade. -/
theorem RenamedLast.append (h : RenamedLast names e e') :
    RenamedLast (names ++ more) e (e'.migrateAll more) := by
  obtain ⟨part, ⟨front, rfl⟩, rfl⟩ := h
  refine ⟨part ++ more, ⟨front, by rw [List.append_assoc]⟩, ?_⟩
  rw [SwarmEvent.migrateAll, SwarmEvent.migrateAll, SwarmEvent.migrateAll, List.foldl_append]

end Names

/-- What the core has queued so far, by what became of it. -/
def Kept (s : SwarmCore) (calls : List Call) : Prop :=
  Fifo.Accounts (Renamed (upgrades s calls)) (RenamedLast (upgrades s calls))
    (queuedEvents s calls) (polledEvents s calls) (run s calls).events

omit [Sha256] [MultihashCodec] in
theorem polledBy_of_ne {s : SwarmCore} {call : Call} (hcall : call ≠ .pollOutput) :
    polledBy s call = [] := by
  cases call with
  | pollOutput => exact absurd rfl hcall
  | _ => rfl

/-- A poll queues nothing. -/
theorem queuedBy_pollOutput (s : SwarmCore) : queuedBy s .pollOutput = [] := by
  refine List.drop_eq_nil_of_le ?_
  rw [← polledBy_append s, List.length_append]
  exact Nat.le_add_left _ _

/-- The queue after a call that is not a poll. -/
theorem step_events (s : SwarmCore) {call : Call} (hcall : call ≠ .pollOutput) :
    (step s call).events =
      s.events.map (SwarmEvent.migrateAll (s.upgrade? call).toList) ++ queuedBy s call := by
  obtain ⟨added, hadded⟩ := step_appends s hcall
  rw [queuedBy, ← hadded, List.drop_append_of_le_length (by simp), List.drop_of_length_le (by simp),
    List.nil_append]

/-- A poll takes the event that has waited longest, or none. -/
theorem Kept.poll {s : SwarmCore} {calls : List Call} (h : Kept s calls) :
    Kept s (calls ++ [.pollOutput]) := by
  have hupgrade : (run s calls).upgrade? .pollOutput = none := rfl
  rw [Kept, queuedEvents_concat, upgrades_concat, polledEvents_concat, run_concat,
    queuedBy_pollOutput, hupgrade, Option.toList_none, List.append_nil, List.append_nil]
  have hpolled := polledBy_append (run s calls)
  cases hout : polledBy (run s calls) .pollOutput with
  | nil =>
    rw [hout, List.nil_append] at hpolled
    rw [List.append_nil, step, hpolled]
    exact h
  | cons e more =>
    have hone : more = [] := by
      simp only [polledBy] at hout
      split at hout
      · exact (List.cons.inj hout).2.symm
      · cases hout
    rw [hone] at hout ⊢
    rw [hout, List.singleton_append] at hpolled
    rw [Kept, ← hpolled] at h
    exact h.pop fun _ _ hlast => hlast.renamed

/-- A call keeps the account. -/
theorem Kept.concat {s : SwarmCore} {calls : List Call} (h : Kept s calls) (call : Call) :
    Kept s (calls ++ [call]) := by
  by_cases hcall : call = .pollOutput
  · subst hcall
    exact h.poll
  · rw [Kept, queuedEvents_concat, upgrades_concat, polledEvents_concat, run_concat,
      polledBy_of_ne hcall, List.append_nil, step_events _ hcall]
    refine Fifo.Accounts.push ?_ RenamedLast.refl _
    exact h.change (fun _ _ hrenamed => hrenamed.append) fun _ _ hlast => hlast.append

end Minip2p.Swarm
