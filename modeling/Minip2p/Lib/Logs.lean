import Mathlib.Data.List.Induction
import Minip2p.Lib.Runs

/-!
# Event logs

A log is the list of the events so far, the oldest first. `Since P Q` is the operator of past time
logic: an event of kind `P` is in the log, and none of kind `Q` came after it. A grammar of events
is an `EachStep` whose condition says what must have happened since when.
-/

namespace Logs

variable {α : Type} {P Q R : α → Prop} {log : List α} {e : α}

/-- An event of kind `P` happened, and none of kind `Q` since. -/
def Since (P Q : α → Prop) (log : List α) : Prop :=
  ∃ before x after, log = before ++ x :: after ∧ P x ∧ ∀ y ∈ after, ¬ Q y

/-- The last entry of a list that is split somewhere is the split entry, or stays behind. -/
theorem concat_eq_append_cons {before after : List α} {x : α}
    (h : log ++ [e] = before ++ x :: after) :
    (log = before ∧ e = x ∧ after = []) ∨
      ∃ rest, after = rest ++ [e] ∧ log = before ++ x :: rest := by
  rcases List.eq_nil_or_concat after with rfl | ⟨rest, y, rfl⟩
  · obtain ⟨hlog, he⟩ := List.append_inj' h rfl
    exact .inl ⟨hlog, (List.cons.inj he).1, rfl⟩
  · rw [List.concat_eq_append] at h ⊢
    have hassoc : log ++ [e] = (before ++ x :: rest) ++ [y] := by
      rw [h, List.append_assoc]
      rfl
    obtain ⟨hlog, he⟩ := List.append_inj' hassoc rfl
    exact .inr ⟨rest, by rw [(List.cons.inj he).1], hlog⟩

/-- Nothing has happened. -/
theorem not_since_nil : ¬ Since P Q [] := by
  rintro ⟨before, x, after, h, -⟩
  cases before <;> cases h

/-- The last entry decides, unless it is neither. -/
theorem since_concat : Since P Q (log ++ [e]) ↔ P e ∨ (¬ Q e ∧ Since P Q log) := by
  constructor
  · rintro ⟨before, x, after, h, hx, hafter⟩
    rcases concat_eq_append_cons h with ⟨-, rfl, -⟩ | ⟨rest, rfl, hlog⟩
    · exact .inl hx
    · refine .inr ⟨hafter e (List.mem_append_right _ List.mem_cons_self), before, x, rest, hlog,
        hx, ?_⟩
      exact fun y hy => hafter y (List.mem_append_left _ hy)
  · rintro (he | ⟨he, before, x, after, rfl, hx, hafter⟩)
    · exact ⟨log, e, [], rfl, he, fun y hy => absurd hy List.not_mem_nil⟩
    · refine ⟨before, x, after ++ [e], by rw [List.append_assoc]; rfl, hx, ?_⟩
      intro y hy
      rcases List.mem_append.mp hy with hy | hy
      · exact hafter y hy
      · rw [List.mem_singleton.mp hy]
        exact he

/-- An event of neither kind changes nothing. -/
theorem since_concat_other (hP : ¬ P e) (hQ : ¬ Q e) : Since P Q (log ++ [e]) ↔ Since P Q log := by
  rw [since_concat, or_iff_right hP, and_iff_right hQ]

/-- If `P` happened after the last `Q`, and the latest of the three kinds is not `R`, then the
latest of the three is `P`. -/
theorem since_of_not_since (h : Since P Q log) (hnot : ¬ Since R (fun x => P x ∨ Q x) log) :
    Since P (fun x => P x ∨ Q x ∨ R x) log := by
  induction log using List.reverseRecOn with
  | nil => exact absurd h not_since_nil
  | append_singleton log e ih =>
    rw [since_concat] at h hnot ⊢
    by_cases hP : P e
    · exact .inl hP
    · obtain ⟨hQ, hlog⟩ := h.resolve_left hP
      have hR : ¬ R e := fun hR => hnot (.inl hR)
      have hneither : ¬ (P e ∨ Q e) := not_or.mpr ⟨hP, hQ⟩
      refine .inr ⟨?_, ih hlog fun hsince => hnot (.inr ⟨hneither, hsince⟩)⟩
      exact not_or.mpr ⟨hP, not_or.mpr ⟨hQ, hR⟩⟩

/-- One more entry, which must satisfy its condition. -/
theorem eachStep_concat {C : List α → α → Prop} :
    Runs.EachStep C [] (log ++ [e]) ↔ Runs.EachStep C [] log ∧ C log e := by
  rw [Runs.eachStep_append, List.nil_append]
  exact and_congr_right fun _ => and_iff_left trivial

end Logs
