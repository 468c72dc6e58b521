import Mathlib.Logic.Function.Basic
import Minip2p.Lib.Logs

/-!
# Tickets

A ticket is issued to an owner and stays outstanding until it is settled or everything of its
owner is revoked. The ledger is the table of the owners of the outstanding tickets, kept up entry
by entry; `ledgerAfter_eq_some_iff` says what it means in terms of the log, as long as no ticket is
issued twice.
-/

namespace Tickets

open Logs (Since)

variable {τ κ : Type}

/-- What happens to tickets. -/
inductive Entry (τ κ : Type)
  | issued (ticket : τ) (owner : κ)
  | settled (ticket : τ)
  | revoked (owner : κ)
deriving DecidableEq

/-- The owner of each outstanding ticket. -/
abbrev Ledger (τ κ : Type) := τ → Option κ

/-- The ledger after one more entry. -/
def Ledger.post [DecidableEq τ] [DecidableEq κ] (ledger : Ledger τ κ) : Entry τ κ → Ledger τ κ
  | .issued ticket owner => Function.update ledger ticket (some owner)
  | .settled ticket => Function.update ledger ticket none
  | .revoked owner => fun ticket => if ledger ticket = some owner then none else ledger ticket

/-- The ledger after a log. -/
def ledgerAfter [DecidableEq τ] [DecidableEq κ] (log : List (Entry τ κ)) : Ledger τ κ :=
  log.foldl Ledger.post fun _ => none

/-- The ticket that an entry issues, with its owner. -/
def Entry.issue? : Entry τ κ → Option (τ × κ)
  | .issued ticket owner => some (ticket, owner)
  | _ => none

/-- What a log issues, the oldest first. -/
def issues (log : List (Entry τ κ)) : List (τ × κ) := log.filterMap Entry.issue?

/-- The ticket was issued to the owner, and neither settled nor revoked since. -/
def Outstanding (ticket : τ) (owner : κ) (log : List (Entry τ κ)) : Prop :=
  Since (· = .issued ticket owner) (fun e => e = .settled ticket ∨ e = .revoked owner) log

variable {ticket : τ} {owner : κ} {log : List (Entry τ κ)}

/-- What was issued in two parts. -/
theorem issues_append (log more : List (Entry τ κ)) :
    issues (log ++ more) = issues log ++ issues more := List.filterMap_append

/-- Issuing is all that issues. -/
theorem issues_map_issued (asks : List (τ × κ)) :
    issues (asks.map fun ask => Entry.issued ask.1 ask.2) = asks := by
  rw [issues, List.filterMap_map]
  exact List.filterMap_some

/-- A ticket that is outstanding was issued. -/
theorem mem_issues_of_outstanding (h : Outstanding ticket owner log) :
    (ticket, owner) ∈ issues log := by
  obtain ⟨before, e, after, hlog, he, -⟩ := h
  rw [issues, List.mem_filterMap]
  refine ⟨e, by rw [hlog]; exact List.mem_append_right _ List.mem_cons_self, ?_⟩
  rw [he]
  rfl

/-- Issuing another ticket changes nothing for this one. -/
theorem outstanding_concat_issued_iff {ticket' : τ} {owner' : κ} :
    Outstanding ticket owner (log ++ [.issued ticket' owner']) ↔
      (ticket' = ticket ∧ owner' = owner) ∨ Outstanding ticket owner log := by
  unfold Outstanding
  rw [Logs.since_concat]
  simp

/-- Settling a ticket leaves the others outstanding. -/
theorem outstanding_concat_settled_iff {ticket' : τ} :
    Outstanding ticket owner (log ++ [.settled ticket']) ↔
      ticket' ≠ ticket ∧ Outstanding ticket owner log := by
  unfold Outstanding
  rw [Logs.since_concat]
  simp

/-- Revoking the tickets of an owner leaves those of others outstanding. -/
theorem outstanding_concat_revoked_iff {owner' : κ} :
    Outstanding ticket owner (log ++ [.revoked owner']) ↔
      owner' ≠ owner ∧ Outstanding ticket owner log := by
  unfold Outstanding
  rw [Logs.since_concat]
  simp

variable [DecidableEq τ] [DecidableEq κ]

/-- The last entry is posted last. -/
theorem ledgerAfter_concat (log : List (Entry τ κ)) (e : Entry τ κ) :
    ledgerAfter (log ++ [e]) = (ledgerAfter log).post e := by
  rw [ledgerAfter, List.foldl_append]
  rfl

/-- While no ticket is issued twice, the ledger holds what is outstanding. -/
theorem ledgerAfter_eq_some_iff (hfresh : ((issues log).map Prod.fst).Nodup) :
    ledgerAfter log ticket = some owner ↔ Outstanding ticket owner log := by
  induction log using List.reverseRecOn with
  | nil =>
    have hnot : ¬ Outstanding ticket owner ([] : List (Entry τ κ)) := Logs.not_since_nil
    rw [iff_false_right hnot]
    exact nofun
  | append_singleton log e ih =>
    rw [issues_append, List.map_append, List.nodup_append] at hfresh
    obtain ⟨hlog, -, hdisjoint⟩ := hfresh
    have hold := ih hlog
    rw [ledgerAfter_concat]
    cases e with
    | issued ticket' owner' =>
      rw [outstanding_concat_issued_iff]
      show Function.update (ledgerAfter log) ticket' (some owner') ticket = some owner ↔ _
      by_cases hsame : ticket = ticket'
      · subst hsame
        -- the ticket is new, so it was not outstanding before
        have hnew : ¬ Outstanding ticket owner log := by
          intro h
          have hmem : ticket ∈ (issues log).map Prod.fst :=
            List.mem_map_of_mem (mem_issues_of_outstanding h)
          exact hdisjoint ticket hmem ticket List.mem_cons_self rfl
        rw [Function.update_self, Option.some_inj, or_iff_left hnew, and_iff_right rfl]
      · rw [Function.update_of_ne hsame, hold]
        exact (or_iff_right fun h => hsame h.1.symm).symm
    | settled ticket' =>
      rw [outstanding_concat_settled_iff]
      show Function.update (ledgerAfter log) ticket' none ticket = some owner ↔ _
      by_cases hsame : ticket = ticket'
      · subst hsame
        rw [Function.update_self]
        exact iff_of_false (nofun) fun h => h.1 rfl
      · rw [Function.update_of_ne hsame, hold, and_iff_right (Ne.symm hsame)]
    | revoked owner' =>
      rw [outstanding_concat_revoked_iff]
      show (if ledgerAfter log ticket = some owner' then none else ledgerAfter log ticket) =
        some owner ↔ _
      by_cases hgone : ledgerAfter log ticket = some owner'
      · rw [if_pos hgone, ← hold, hgone]
        refine iff_of_false (nofun) ?_
        intro h
        exact h.1 (Option.some.inj h.2)
      · rw [if_neg hgone, hold]
        refine (and_iff_right_of_imp ?_).symm
        rintro h rfl
        exact hgone (hold.mpr h)

end Tickets
