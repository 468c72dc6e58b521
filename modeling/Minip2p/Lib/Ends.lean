import Minip2p.Lib.Hoare

/-!
# Programs that end

`Ends P m Q E` is total correctness: started in `P`, the program `m` ends, with a value in `Q` or
with an error in `E`. `Prog.iterate` is a loop that breaks with a value; it has a bound on its
turns, which is never met when each turn takes something away from the state (`Ends.iterate`).
-/

namespace Prog

variable {σ ε α β : Type}

/-- Runs `body` until it breaks with a value, for at most `fuel` turns. -/
def iterate (body : α → Prog σ ε (α ⊕ β)) : ℕ → α → Prog σ ε β
  | 0, _ => diverge
  | fuel + 1, a => do
    match ← body a with
    | .inl a => iterate body fuel a
    | .inr b => return b

end Prog

open Prog

/-- Started in `P`, `m` returns a value in `Q` or fails with an error in `E`. -/
def Ends {σ ε α : Type} (P : σ → Prop) (m : Prog σ ε α) (Q : α → σ → Prop)
    (E : ε → σ → Prop) : Prop :=
  ∀ s, P s → (∃ a s', exec m s = some (.ok a, s') ∧ Q a s') ∨
    ∃ e s', exec m s = some (.error e, s') ∧ E e s'

namespace Ends

variable {σ ε α β : Type} {P P' : σ → Prop} {Q Q' : α → σ → Prop} {R : β → σ → Prop}
  {E E' : ε → σ → Prop}

/-- A program whose run is known. -/
theorem of_exec {m : Prog σ ε α} {a : α}
    (h : ∀ s, P s → ∃ s', exec m s = some (.ok a, s') ∧ Q a s') : Ends P m Q E := by
  intro s hP
  obtain ⟨s', hm, hQ⟩ := h s hP
  exact .inl ⟨a, s', hm, hQ⟩

/-- A program that returns at once. -/
theorem pure {a : α} (h : ∀ s, P s → Q a s) : Ends P (pure a : Prog σ ε α) Q E :=
  of_exec fun s hP => ⟨s, exec_pure a s, h s hP⟩

/-- A program that fails at once. -/
theorem throw {e : ε} (h : ∀ s, P s → E e s) : Ends P (throw e : Prog σ ε α) Q E :=
  fun s hP => .inr ⟨e, s, exec_throw e s, h s hP⟩

/-- One program after another. -/
theorem bind {m : Prog σ ε α} {f : α → Prog σ ε β} (hm : Ends P m Q E)
    (hf : ∀ a, Ends (Q a) (f a) R E) : Ends P (m >>= f) R E := by
  intro s hP
  rcases hm s hP with ⟨a, s₁, hret, hQ⟩ | ⟨e, s₁, hfail, hE⟩
  · rw [exec_bind_of_ok hret]
    exact hf a s₁ hQ
  · exact .inr ⟨e, s₁, exec_bind_of_error hfail f, hE⟩

/-- A first part that only computes a value. -/
theorem bind_of_exec {m : Prog σ ε α} {f : α → Prog σ ε β} {a : α}
    (hm : ∀ s, P s → exec m s = some (.ok a, s)) (hf : Ends P (f a) R E) :
    Ends P (m >>= f) R E := by
  intro s hP
  rw [exec_bind_of_ok (hm s hP)]
  exact hf s hP

/-- Consequence: a stronger precondition, weaker postconditions. -/
theorem mono {m : Prog σ ε α} (h : Ends P m Q E) (hP : ∀ s, P' s → P s)
    (hQ : ∀ a s, Q a s → Q' a s) (hE : ∀ e s, E e s → E' e s) : Ends P' m Q' E' := by
  intro s hs
  rcases h s (hP s hs) with ⟨a, s', hm, ha⟩ | ⟨e, s', hm, he⟩
  · exact .inl ⟨a, s', hm, hQ a s' ha⟩
  · exact .inr ⟨e, s', hm, hE e s' he⟩

/-- What is known of the start besides its state. -/
theorem of_fact {m : Prog σ ε α} {p : Prop} (h : p → Ends P m Q E) :
    Ends (fun s => p ∧ P s) m Q E :=
  fun s hs => h hs.1 s hs.2

/-- Reading the state: the rest may be verified for each state on its own. -/
theorem get_bind {f : σ → Prog σ ε β} (h : ∀ s₀, P s₀ → Ends (fun s => s = s₀) (f s₀) R E) :
    Ends P (get >>= f) R E := by
  intro s hP
  rw [exec_bind_of_ok (exec_get s)]
  exact h s hP s rfl

/-- A loop whose turns either break or leave a smaller state. -/
theorem iterate {body : α → Prog σ ε (α ⊕ β)} {size : σ → ℕ} {P : α → σ → Prop}
    (hbody : ∀ a n, Ends (fun s => P a s ∧ size s = n) (body a)
      (fun r s => (∀ a', r = .inl a' → P a' s ∧ size s < n) ∧ ∀ b, r = .inr b → R b s) E)
    (fuel : ℕ) (a : α) :
    Ends (fun s => P a s ∧ size s < fuel) (iterate body fuel a) R E := by
  induction fuel generalizing a with
  | zero =>
    rintro s ⟨-, hsize⟩
    exact absurd hsize (Nat.not_lt_zero _)
  | succ fuel ih =>
    rintro s ⟨hP, hsize⟩
    rcases hbody a (size s) s ⟨hP, rfl⟩ with ⟨r, s₁, hret, hinl, hinr⟩ | ⟨e, s₁, hfail, hE⟩
    · unfold Prog.iterate
      rw [exec_bind_of_ok hret]
      cases r with
      | inl a' =>
        obtain ⟨hP', hsize'⟩ := hinl a' rfl
        exact ih a' s₁ ⟨hP', by omega⟩
      | inr b => exact .inl ⟨b, s₁, exec_pure b s₁, hinr b rfl⟩
    · exact .inr ⟨e, s₁, exec_bind_of_error hfail _, hE⟩

/-- A program that ends has an outcome. -/
theorem exists_exec {m : Prog σ ε α} (h : Ends P m Q E) {s : σ} (hs : P s) :
    ∃ r s', exec m s = some (r, s') ∧ (∀ a, r = .ok a → Q a s') ∧ ∀ e, r = .error e → E e s' := by
  rcases h s hs with ⟨a, s', hm, hQ⟩ | ⟨e, s', hm, hE⟩
  · refine ⟨.ok a, s', hm, ?_, ?_⟩
    · rintro _ ⟨⟩
      exact hQ
    · rintro _ ⟨⟩
  · refine ⟨.error e, s', hm, ?_, ?_⟩
    · rintro _ ⟨⟩
    · rintro _ ⟨⟩
      exact hE

end Ends
