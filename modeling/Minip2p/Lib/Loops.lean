import Mathlib.Tactic.Common

/-!
# Loops without a bound

A loop is a body that takes a state to the next one (`.inl`) or ends with a result (`.inr`). Nothing
says that it ends: `Ends` holds of a state and a result when a finite number of turns leads from the
one to the other. A loop whose turns lower a measure does end, and the same loop on fuel gives its
result if there is fuel for the measure.
-/

namespace Loops

variable {σ ρ : Type} {body : σ → σ ⊕ ρ} {s s' : σ} {r r' : ρ}

/-- The loop, started in a state, ends with a result. -/
inductive Ends (body : σ → σ ⊕ ρ) : σ → ρ → Prop
  | done {s : σ} {r : ρ} (h : body s = .inr r) : Ends body s r
  | turn {s s' : σ} {r : ρ} (h : body s = .inl s') (rest : Ends body s' r) : Ends body s r

namespace Ends

/-- A loop has one result. -/
theorem unique (h : Ends body s r) (h' : Ends body s r') : r = r' := by
  induction h with
  | done hdone =>
    cases h' with
    | done hdone' => exact Sum.inr.inj (hdone.symm.trans hdone')
    | turn hturn' _ => rw [hdone] at hturn'; cases hturn'
  | turn hturn _ ih =>
    cases h' with
    | done hdone' => rw [hturn] at hdone'; cases hdone'
    | turn hturn' rest' =>
      obtain rfl := Sum.inl.inj (hturn.symm.trans hturn')
      exact ih rest'

/-- What every turn keeps holds when the last one begins. -/
theorem invariant (I : σ → Prop) (Q : ρ → Prop)
    (hturn : ∀ s s', I s → body s = .inl s' → I s') (hdone : ∀ s r, I s → body s = .inr r → Q r)
    (h : Ends body s r) (hs : I s) : Q r := by
  induction h with
  | done hend => exact hdone _ _ hs hend
  | turn hnext _ ih => exact ih (hturn _ _ hs hnext)

end Ends

/-- A function on fuel that takes the turns of the loop gives its result, if the fuel is enough for
a measure that every turn lowers. -/
theorem ends_of_fuel (go : ℕ → σ → ρ) (m : σ → ℕ)
    (hlower : ∀ s s', body s = .inl s' → m s' < m s)
    (hturn : ∀ fuel s s', body s = .inl s' → go (fuel + 1) s = go fuel s')
    (hdone : ∀ fuel s r, body s = .inr r → m s ≤ fuel → go fuel s = r) {fuel : ℕ} {s : σ}
    (hfuel : m s ≤ fuel) : Ends body s (go fuel s) := by
  induction fuel generalizing s with
  | zero =>
    cases hbody : body s with
    | inl s' =>
      have := hlower s s' hbody
      omega
    | inr r =>
      rw [hdone 0 s r hbody hfuel]
      exact .done hbody
  | succ fuel ih =>
    cases hbody : body s with
    | inl s' =>
      have := hlower s s' hbody
      rw [hturn fuel s s' hbody]
      exact .turn hbody (ih (by omega))
    | inr r =>
      rw [hdone (fuel + 1) s r hbody hfuel]
      exact .done hbody

end Loops
