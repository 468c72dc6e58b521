import Mathlib.Algebra.Ring.Nat
import Mathlib.Tactic.Common

/-!
# Pre- and postconditions for stateful programs with errors

`Prog σ ε α` is a program over a state `σ` that returns a value, fails with an error of type `ε`
or does not return (`none`). The state survives an error: what ran before an early exit has
happened. `Triple P m Q E` is partial correctness with two exits: started in `P`, a run of `m`
that returns ends in `Q`, one that fails ends in `E`. `Keeps I m` is the case of an invariant.
-/

/-- A program over the state `σ` with errors `ε`; `none` when it does not return. -/
abbrev Prog (σ ε α : Type) := ExceptT ε (StateT σ Option) α

namespace Prog

variable {σ ε α β : Type}

/-- The outcome of a program from a state. -/
def exec (m : Prog σ ε α) (s : σ) : Option (Except ε α × σ) := (ExceptT.run m).run s

/-- A program that does not return. -/
def diverge : Prog σ ε α := ExceptT.mk fun _ => none

/-- Runs `m` and hands out its result; only the caller decides whether a failure is one. -/
def attempt (m : Prog σ ε α) : Prog σ ε (Except ε α) :=
  ExceptT.mk do
    let r ← ExceptT.run m
    return .ok r

/-- The value or the error of a `Result`. -/
def ofResult : Except ε α → Prog σ ε α
  | .ok a => pure a
  | .error e => throw e

/-- Runs `m` on the part `view s` of the state and writes back what it leaves, also on failure. -/
def zoom {τ : Type} (view : σ → τ) (put : τ → σ → σ) (m : Prog τ ε α) : Prog σ ε α :=
  ExceptT.mk fun s => (exec m (view s)).map fun p => (p.1, put p.2 s)

@[simp] theorem exec_pure (a : α) (s : σ) : exec (pure a : Prog σ ε α) s = some (.ok a, s) := rfl

@[simp] theorem exec_throw (e : ε) (s : σ) :
    exec (throw e : Prog σ ε α) s = some (.error e, s) := rfl

@[simp] theorem exec_diverge (s : σ) : exec (diverge : Prog σ ε α) s = none := rfl

@[simp] theorem exec_get (s : σ) : exec (get : Prog σ ε σ) s = some (.ok s, s) := rfl

@[simp] theorem exec_modify (f : σ → σ) (s : σ) :
    exec (modify f : Prog σ ε PUnit) s = some (.ok ⟨⟩, f s) := rfl

@[simp] theorem exec_modifyGet (f : σ → α × σ) (s : σ) :
    exec (modifyGet f : Prog σ ε α) s = some (.ok (f s).1, (f s).2) := rfl

@[simp] theorem exec_attempt (m : Prog σ ε α) (s : σ) :
    exec (attempt m) s = (exec m s).map fun p => (.ok p.1, p.2) := by
  show (exec m s).bind (fun p => some (Except.ok p.1, p.2)) = _
  exact Option.map_eq_bind.symm

@[simp] theorem exec_ofResult (r : Except ε α) (s : σ) :
    exec (ofResult r : Prog σ ε α) s = some (r, s) := by
  cases r <;> rfl

theorem exec_zoom {τ : Type} (view : σ → τ) (put : τ → σ → σ) (m : Prog τ ε α) (s : σ) :
    exec (zoom view put m) s = (exec m (view s)).map fun p => (p.1, put p.2 s) := rfl

/-- A sequence: the rest runs when the first part returned. -/
theorem exec_bind (m : Prog σ ε α) (f : α → Prog σ ε β) (s : σ) :
    exec (m >>= f) s = (exec m s).bind fun p =>
      match p.1 with
      | .ok a => exec (f a) p.2
      | .error e => some (.error e, p.2) := by
  show (exec m s).bind (fun p => (ExceptT.bindCont f p.1).run p.2) = _
  congr 1
  funext p
  obtain ⟨r, s'⟩ := p
  cases r <;> rfl

/-- A sequence whose first part returned runs the rest. -/
theorem exec_bind_of_ok {m : Prog σ ε α} {s s₁ : σ} {a : α} (h : exec m s = some (.ok a, s₁))
    (f : α → Prog σ ε β) : exec (m >>= f) s = exec (f a) s₁ := by
  rw [exec_bind, h, Option.bind_some]

/-- A sequence whose first part failed has failed. -/
theorem exec_bind_of_error {m : Prog σ ε α} {s s₁ : σ} {e : ε}
    (h : exec m s = some (.error e, s₁)) (f : α → Prog σ ε β) :
    exec (m >>= f) s = some (.error e, s₁) := by
  rw [exec_bind, h, Option.bind_some]

/-- What a sequence that ended did: its first part failed, or returned and the rest ended. -/
theorem exec_bind_eq_some {m : Prog σ ε α} {f : α → Prog σ ε β} {s s' : σ} {r : Except ε β}
    (h : exec (m >>= f) s = some (r, s')) :
    (∃ e, exec m s = some (.error e, s') ∧ r = .error e) ∨
      ∃ a s₁, exec m s = some (.ok a, s₁) ∧ exec (f a) s₁ = some (r, s') := by
  rw [exec_bind] at h
  obtain ⟨⟨r₁, s₁⟩, hm, hrest⟩ := Option.bind_eq_some_iff.mp h
  cases r₁ with
  | error e =>
    cases hrest
    exact Or.inl ⟨e, hm, rfl⟩
  | ok a => exact Or.inr ⟨a, s₁, hm, hrest⟩

/-- Changing the value that is returned. -/
theorem exec_map (f : α → β) (m : Prog σ ε α) (s : σ) :
    exec (f <$> m) s = (exec m s).map fun p => (p.1.map f, p.2) := by
  rw [← bind_pure_comp, exec_bind]
  cases exec m s with
  | none => rfl
  | some p =>
    obtain ⟨r, s'⟩ := p
    cases r <;> rfl

/-- Changing the value of an attempt. -/
theorem attempt_map (f : α → β) (m : Prog σ ε α) :
    attempt (f <$> m) = Except.map f <$> attempt m := by
  funext s
  show exec (attempt (f <$> m)) s = exec (Except.map f <$> attempt m) s
  rw [exec_map, exec_attempt, exec_attempt, exec_map, Option.map_map, Option.map_map]
  rfl

end Prog

open Prog

/-- Started in `P`, a run of `m` that returns `a` ends in `Q a`, one that fails ends in `E`. -/
def Triple {σ ε α : Type} (P : σ → Prop) (m : Prog σ ε α) (Q : α → σ → Prop) (E : σ → Prop) :
    Prop :=
  ∀ s, P s → ∀ r s', exec m s = some (r, s') →
    (∀ a, r = .ok a → Q a s') ∧ (∀ e, r = .error e → E s')

namespace Triple

variable {σ ε α β : Type} {P P' : σ → Prop} {Q Q' : α → σ → Prop} {R : β → σ → Prop}
  {E E' : σ → Prop}

/-- A program that returns at once. -/
theorem pure {a : α} (h : ∀ s, P s → Q a s) : Triple P (pure a : Prog σ ε α) Q E := by
  intro s hP r s' hr
  rw [exec_pure] at hr
  cases hr
  exact ⟨by rintro _ ⟨⟩; exact h s hP, by rintro _ ⟨⟩⟩

/-- A program that fails at once. -/
theorem throw {e : ε} (h : ∀ s, P s → E s) : Triple P (throw e : Prog σ ε α) Q E := by
  intro s hP r s' hr
  rw [exec_throw] at hr
  cases hr
  exact ⟨by rintro _ ⟨⟩, by rintro _ ⟨⟩; exact h s hP⟩

/-- A program that does not end. -/
theorem diverge : Triple P (diverge : Prog σ ε α) Q E := by
  intro s hP r s' hr
  rw [exec_diverge] at hr
  cases hr

/-- One program after another. -/
theorem bind {m : Prog σ ε α} {f : α → Prog σ ε β} (hm : Triple P m Q E)
    (hf : ∀ a, Triple (Q a) (f a) R E) : Triple P (m >>= f) R E := by
  intro s hP r s' hr
  rcases exec_bind_eq_some hr with ⟨e, hfail, rfl⟩ | ⟨a, s₁, hret, hrest⟩
  · have hE := (hm s hP _ _ hfail).2 e rfl
    exact ⟨by rintro _ ⟨⟩, fun _ _ => hE⟩
  · have hQ := (hm s hP _ _ hret).1 a rfl
    exact hf a s₁ hQ r s' hrest

/-- A change of the state. -/
theorem modify {f : σ → σ} {Q : PUnit → σ → Prop} (h : ∀ s, P s → Q ⟨⟩ (f s)) :
    Triple P (modify f : Prog σ ε PUnit) Q E := by
  intro s hP r s' hr
  rw [exec_modify] at hr
  cases hr
  exact ⟨by rintro _ ⟨⟩; exact h s hP, by rintro _ ⟨⟩⟩

/-- A change of the state that returns something. -/
theorem modifyGet {f : σ → α × σ} (h : ∀ s, P s → Q (f s).1 (f s).2) :
    Triple P (modifyGet f : Prog σ ε α) Q E := by
  intro s hP r s' hr
  rw [exec_modifyGet] at hr
  cases hr
  exact ⟨by rintro _ ⟨⟩; exact h s hP, by rintro _ ⟨⟩⟩

/-- Reading the state: the rest may be verified for each state on its own. -/
theorem get_bind {f : σ → Prog σ ε β} (h : ∀ s₀, P s₀ → Triple (fun s => s = s₀) (f s₀) R E) :
    Triple P (get >>= f) R E := by
  intro s hP r s' hr
  rcases exec_bind_eq_some hr with ⟨e, hfail, -⟩ | ⟨a, s₁, hret, hrest⟩
  · cases hfail
  · rw [exec_get] at hret
    cases hret
    exact h s hP s rfl r s' hrest

/-- A program whose error is returned. -/
theorem attempt {m : Prog σ ε α} (h : Triple P m Q E) :
    Triple P (attempt m)
      (fun r s => (∀ a, r = .ok a → Q a s) ∧ (∀ e, r = .error e → E s)) E' := by
  intro s hP r s' hr
  rw [exec_attempt, Option.map_eq_some_iff] at hr
  obtain ⟨⟨r₀, s₀⟩, hm, heq⟩ := hr
  cases heq
  exact ⟨by rintro _ ⟨⟩; exact h s hP r₀ s₀ hm, by rintro _ ⟨⟩⟩

/-- A result that is there already. -/
theorem ofResult {r : Except ε α} (hok : ∀ a s, r = .ok a → P s → Q a s)
    (herr : ∀ e s, r = .error e → P s → E s) : Triple P (ofResult r : Prog σ ε α) Q E := by
  intro s hP r' s' hr
  rw [exec_ofResult] at hr
  cases hr
  exact ⟨fun a ha => hok a s ha hP, fun e he => herr e s he hP⟩

/-- A program on a part of the state: its own postconditions hold of the part it leaves. -/
theorem zoom {τ : Type} {view : σ → τ} {put : τ → σ → σ} {m : Prog τ ε α} {P' : τ → Prop}
    {Q' : α → τ → Prop} {E' : τ → Prop} (h : Triple P' m Q' E') (hP : ∀ s, P s → P' (view s))
    (hQ : ∀ a s t, P s → Q' a t → Q a (put t s)) (hE : ∀ s t, P s → E' t → E (put t s)) :
    Triple P (zoom view put m) Q E := by
  intro s hs r s' hr
  rw [exec_zoom, Option.map_eq_some_iff] at hr
  obtain ⟨⟨r₀, t⟩, hm, heq⟩ := hr
  cases heq
  obtain ⟨hok, herr⟩ := h (view s) (hP s hs) r₀ t hm
  exact ⟨fun a ha => hQ a s t hs (hok a ha), fun e he => hE s t hs (herr e he)⟩

/-- A loop over a list, with an assertion for each list of items that are left. -/
theorem forM {P : List α → σ → Prop} {body : α → Prog σ ε PUnit} {E : σ → Prop}
    (h : ∀ a rest, Triple (P (a :: rest)) (body a) (fun _ => P rest) E) (items : List α) :
    Triple (P items) (items.forM body) (fun _ => P []) E := by
  induction items with
  | nil => exact pure fun _ hs => hs
  | cons a items ih => exact bind (h a items) fun _ => ih

/-- Consequence: a stronger precondition, weaker postconditions. -/
theorem mono {m : Prog σ ε α} (h : Triple P m Q E) (hP : ∀ s, P' s → P s)
    (hQ : ∀ a s, Q a s → Q' a s) (hE : ∀ s, E s → E' s) : Triple P' m Q' E' := by
  intro s hs r s' hr
  obtain ⟨hok, herr⟩ := h s (hP s hs) r s' hr
  exact ⟨fun a ha => hQ a s' (hok a ha), fun e he => hE s' (herr e he)⟩

/-- Two triples for one program. -/
theorem and {m : Prog σ ε α} (h : Triple P m Q E) (h' : Triple P' m Q' E') :
    Triple (fun s => P s ∧ P' s) m (fun a s => Q a s ∧ Q' a s) (fun s => E s ∧ E' s) := by
  rintro s ⟨hs, hs'⟩ r t hr
  obtain ⟨hok, herr⟩ := h s hs r t hr
  obtain ⟨hok', herr'⟩ := h' s hs' r t hr
  exact ⟨fun a ha => ⟨hok a ha, hok' a ha⟩, fun e he => ⟨herr e he, herr' e he⟩⟩

/-- What a run from one state returned. -/
theorem returned (m : Prog σ ε α) (s₀ : σ) :
    Triple (fun s => s = s₀) m (fun a s => exec m s₀ = some (.ok a, s)) (fun _ => True) := by
  rintro s rfl r s' hr
  exact ⟨by rintro a rfl; exact hr, fun _ _ => trivial⟩

/-- The state a run ends in, when both exits ask for the same. -/
theorem of_exec {m : Prog σ ε α} (h : Triple P m (fun _ => E) E) {s s' : σ} {r : Except ε α}
    (hs : P s) (hr : exec m s = some (r, s')) : E s' := by
  obtain ⟨hok, herr⟩ := h s hs r s' hr
  cases r with
  | ok a => exact hok a rfl
  | error e => exact herr e rfl

end Triple

/-- `m` keeps the invariant `I`, whether it returns or fails. -/
def Keeps {σ ε α : Type} (I : σ → Prop) (m : Prog σ ε α) : Prop := Triple I m (fun _ => I) I

namespace Keeps

variable {σ ε α β : Type} {I : σ → Prop}

theorem pure (a : α) : Keeps I (pure a : Prog σ ε α) := Triple.pure fun _ h => h

theorem throw (e : ε) : Keeps I (throw e : Prog σ ε α) := Triple.throw fun _ h => h

theorem diverge : Keeps I (diverge : Prog σ ε α) := Triple.diverge

theorem bind {m : Prog σ ε α} {f : α → Prog σ ε β} (hm : Keeps I m) (hf : ∀ a, Keeps I (f a)) :
    Keeps I (m >>= f) := Triple.bind hm hf

theorem modify {f : σ → σ} (h : ∀ s, I s → I (f s)) : Keeps I (modify f : Prog σ ε PUnit) :=
  Triple.modify h

theorem modifyGet {f : σ → α × σ} (h : ∀ s, I s → I (f s).2) :
    Keeps I (modifyGet f : Prog σ ε α) :=
  Triple.modifyGet h

theorem ofResult (r : Except ε α) : Keeps I (ofResult r : Prog σ ε α) :=
  Triple.ofResult (fun _ _ _ h => h) fun _ _ _ h => h

theorem get : Keeps I (get : Prog σ ε σ) := by
  intro s hI r s' hr
  rw [exec_get] at hr
  cases hr
  exact ⟨fun _ _ => hI, fun _ _ => hI⟩

/-- An attempt itself does not fail. -/
theorem attempt {E : σ → Prop} {m : Prog σ ε α} (h : Keeps I m) :
    Triple I (Prog.attempt m) (fun _ => I) E := by
  refine (Triple.attempt h).mono (fun _ hs => hs) (fun r s hr => ?_) fun _ hs => hs
  cases r with
  | ok a => exact hr.1 a rfl
  | error e => exact hr.2 e rfl

/-- A loop over a list keeps what its body keeps. -/
theorem forM {items : List α} {body : α → Prog σ ε PUnit} (h : ∀ a ∈ items, Keeps I (body a)) :
    Keeps I (items.forM body) := by
  induction items with
  | nil => exact pure _
  | cons a items ih =>
    exact bind (h a List.mem_cons_self) fun _ =>
      ih fun b hb => h b (List.mem_cons_of_mem _ hb)

/-- A rule about a program that returns. -/
theorem returning {m : Prog σ ε α} (h : Keeps I m) : Triple I m (fun _ => I) (fun _ => True) :=
  Triple.mono h (fun _ hs => hs) (fun _ _ hs => hs) fun _ _ => trivial

/-- The state a run from `I` ends in is in `I`. -/
theorem of_exec {m : Prog σ ε α} (h : Keeps I m) {s s' : σ} {r : Except ε α} (hs : I s)
    (hr : exec m s = some (r, s')) : I s' :=
  Triple.of_exec h hs hr

end Keeps
