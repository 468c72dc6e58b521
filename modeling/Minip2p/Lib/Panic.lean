import Mathlib.Algebra.Ring.Nat
import Mathlib.Tactic.Common

/-!
# Checked machine arithmetic and slices

A program that indexes buffers can stop in ways that no `Result` carries: a sum or difference on
`usize` leaves the 64-bit range, a slice or a drain asks for bytes the buffer does not have,
or a loop does not end. `Exec` is a computation that may stop so, and `Fallible ε` one that in
addition returns a `Result` with error type `ε`.

`Returns x` says that `x` does not stop, and `Safe x Q` that `x` does not stop, and that `Q` holds
of its value when it returns one.
`Yields x a` says that `x` returns `a`.
The rules below follow the shape of the program: `Safe.bind` and `Yields.bind_iff` for a sequence,
one rule for each checked operation.
-/

/-- A sequence that succeeds is one whose parts do. -/
theorem Except.bind_eq_ok_iff {ε α β : Type} {x : Except ε α} {f : α → Except ε β} {b : β} :
    x >>= f = .ok b ↔ ∃ a, x = .ok a ∧ f a = .ok b := by
  constructor
  · intro h
    cases x with
    | error e => cases h
    | ok a => exact ⟨a, rfl, h⟩
  · rintro ⟨a, rfl, h⟩
    exact h

/-- Why a computation stopped without returning. -/
inductive Panic
  /-- A `usize` sum of `2 ^ 64` or more. -/
  | addOverflow
  /-- A `usize` difference below zero. -/
  | subOverflow
  /-- A slice or drain outside the buffer. -/
  | sliceRange
  /-- A loop that used up its bound. -/
  | diverged
deriving DecidableEq, Repr

/-- A computation that may panic. -/
abbrev Exec (α : Type) := Except Panic α

/-- A computation that may panic and otherwise returns a `Result`. -/
abbrev Fallible (ε α : Type) := ExceptT ε (Except Panic) α

namespace Exec

/-- `a + b` on `usize`. -/
def add (a b : Nat) : Exec Nat :=
  if a + b < 2 ^ 64 then .ok (a + b) else .error .addOverflow

/-- `a - b` on `usize`. -/
def sub (a b : Nat) : Exec Nat :=
  if b ≤ a then .ok (a - b) else .error .subOverflow

/-- `&xs[lo..hi]`. -/
def slice {α : Type} (xs : List α) (lo hi : Nat) : Exec (List α) :=
  if lo ≤ hi ∧ hi ≤ xs.length then .ok ((xs.take hi).drop lo) else .error .sliceRange

/-- `&xs[lo..]`. -/
def sliceFrom {α : Type} (xs : List α) (lo : Nat) : Exec (List α) :=
  if lo ≤ xs.length then .ok (xs.drop lo) else .error .sliceRange

/-- `xs.drain(..n)`: what is left of `xs`. -/
def drain {α : Type} (xs : List α) (n : Nat) : Exec (List α) :=
  if n ≤ xs.length then .ok (xs.drop n) else .error .sliceRange

/-- A sum that fits. -/
theorem add_eq_ok {a b : Nat} (h : a + b < 2 ^ 64) : add a b = .ok (a + b) := if_pos h

/-- A difference that is not negative. -/
theorem sub_eq_ok {a b : Nat} (h : b ≤ a) : sub a b = .ok (a - b) := if_pos h

/-- A slice inside the list. -/
theorem slice_eq_ok {α : Type} {xs : List α} {lo hi : Nat} (h₁ : lo ≤ hi) (h₂ : hi ≤ xs.length) :
    slice xs lo hi = .ok ((xs.take hi).drop lo) := if_pos ⟨h₁, h₂⟩

/-- A slice that starts inside the list. -/
theorem sliceFrom_eq_ok {α : Type} {xs : List α} {lo : Nat} (h : lo ≤ xs.length) :
    sliceFrom xs lo = .ok (xs.drop lo) := if_pos h

/-- As many elements as there are. -/
theorem drain_eq_ok {α : Type} {xs : List α} {n : Nat} (h : n ≤ xs.length) :
    drain xs n = .ok (xs.drop n) := if_pos h

/-- `x` returns: it does not panic. -/
def Returns {α : Type} (x : Exec α) : Prop := ∃ a, x = .ok a

theorem returns_ok {α : Type} (a : α) : Returns (.ok a) := ⟨a, rfl⟩

theorem not_returns_error {α : Type} (p : Panic) : ¬ Returns (.error p : Exec α) := by
  rintro ⟨_, h⟩
  cases h

/-- A sequence returns when its first part does and the rest does on that value. -/
theorem returns_bind_iff {α β : Type} {x : Exec α} {f : α → Exec β} :
    Returns (x >>= f) ↔ ∃ a, x = .ok a ∧ Returns (f a) := by
  cases x with
  | error p => exact ⟨fun h => (not_returns_error p h).elim, fun ⟨_, h, _⟩ => by cases h⟩
  | ok a => exact ⟨fun h => ⟨a, rfl, h⟩, fun ⟨_, h, hf⟩ => by cases h; exact hf⟩

/-- A sequence whose rest always returns. -/
theorem returns_bind_iff_of_forall {α β : Type} {x : Exec α} {f : α → Exec β}
    (hf : ∀ a, Returns (f a)) : Returns (x >>= f) ↔ Returns x := by
  rw [returns_bind_iff]
  exact ⟨fun ⟨a, hx, _⟩ => ⟨a, hx⟩, fun ⟨a, hx⟩ => ⟨a, hx, hf a⟩⟩

/-- A step that is skipped when `p` holds, and whose rest returns on every value of its first
part. -/
theorem returns_unless_iff {α β : Type} {p : Prop} [Decidable p] {b : β} {x : Exec α}
    {f : α → Exec β} (hf : ∀ a, x = .ok a → Returns (f a)) :
    Returns (if p then .ok b else x >>= f) ↔ (¬ p → Returns x) := by
  by_cases hp : p
  · rw [if_pos hp]
    exact ⟨fun _ h => absurd hp h, fun _ => returns_ok b⟩
  · rw [if_neg hp, returns_bind_iff]
    constructor
    · intro ⟨a, hx, _⟩ _
      exact ⟨a, hx⟩
    · intro h
      obtain ⟨a, hx⟩ := h hp
      exact ⟨a, hx, hf a hx⟩

end Exec

/-- `x` does not panic, and `Q` holds of the value it returns, if it returns one. -/
def Safe {ε α : Type} (x : Fallible ε α) (Q : α → Prop) : Prop :=
  ∃ r : Except ε α, x.run = .ok r ∧ ∀ a, r = .ok a → Q a

namespace Safe

variable {ε α β : Type}

theorem pure {Q : α → Prop} {a : α} (h : Q a) : Safe (pure a : Fallible ε α) Q :=
  ⟨.ok a, rfl, by rintro _ ⟨⟩; exact h⟩

/-- A safe computation returns a `Result`. -/
theorem returns {Q : α → Prop} {x : Fallible ε α} (h : Safe x Q) : Exec.Returns x.run :=
  h.imp fun _ hr => hr.1

theorem throw {Q : α → Prop} (e : ε) : Safe (throw e : Fallible ε α) Q :=
  ⟨.error e, rfl, by rintro _ ⟨⟩⟩

/-- A weaker postcondition. -/
theorem mono {P Q : α → Prop} {x : Fallible ε α} (h : Safe x P) (hPQ : ∀ a, P a → Q a) :
    Safe x Q := by
  obtain ⟨r, hr, hP⟩ := h
  exact ⟨r, hr, fun a ha => hPQ a (hP a ha)⟩

/-- One program after another. -/
theorem bind {P : α → Prop} {Q : β → Prop} {x : Fallible ε α} {f : α → Fallible ε β}
    (hx : Safe x P) (hf : ∀ a, P a → Safe (f a) Q) : Safe (x >>= f) Q := by
  obtain ⟨r, hr, hP⟩ := hx
  have hrun : (x >>= f).run = x.run >>= fun r => ExceptT.bindCont f r := rfl
  cases r with
  | error e =>
    refine ⟨.error e, ?_, by rintro _ ⟨⟩⟩
    rw [hrun, hr]
    rfl
  | ok a =>
    obtain ⟨r', hr', hQ⟩ := hf a (hP a rfl)
    refine ⟨r', ?_, hQ⟩
    rw [hrun, hr]
    exact hr'

/-- A checked operation that succeeds returns its value. -/
theorem lift {Q : α → Prop} {x : Exec α} {a : α} (h : x = .ok a) (hQ : Q a) :
    Safe (liftM x : Fallible ε α) Q := by
  subst h
  exact ⟨.ok a, rfl, by rintro _ ⟨⟩; exact hQ⟩

/-- A checked operation that succeeds, followed by the rest of the computation. -/
theorem bind_lift {Q : β → Prop} {x : Exec α} {a : α} {f : α → Fallible ε β} (h : x = .ok a)
    (hf : Safe (f a) Q) : Safe (liftM x >>= f) Q := by
  refine bind (lift (Q := (· = a)) h rfl) ?_
  rintro _ rfl
  exact hf

end Safe

/-- `x` returns `a`. -/
def Yields {ε α : Type} (x : Fallible ε α) (a : α) : Prop := x.run = .ok (.ok a)

namespace Yields

variable {ε α β : Type}

@[simp] theorem pure_iff {a b : α} : Yields (Pure.pure a : Fallible ε α) b ↔ a = b := by
  show (Except.ok (Except.ok a) : Except Panic (Except ε α)) = .ok (.ok b) ↔ a = b
  rw [Except.ok.injEq, Except.ok.injEq]

theorem eq_pure {x : Fallible ε α} {a : α} (h : Yields x a) : x = Pure.pure a := h

@[simp] theorem not_throw {e : ε} {a : α} : ¬ Yields (throw e : Fallible ε α) a := by
  intro h
  cases h

/-- A panicking program yields what it returns. -/
@[simp] theorem lift_iff {x : Exec α} {a : α} :
    Yields (liftM x : Fallible ε α) a ↔ x = .ok a := by
  cases x with
  | error p =>
    constructor
    · intro h
      cases h
    · intro h
      cases h
  | ok b =>
    show (Except.ok (Except.ok b) : Except Panic (Except ε α)) = .ok (.ok a) ↔ _
    rw [Except.ok.injEq, Except.ok.injEq, Except.ok.injEq]

/-- A sequence returns what its second part returns on the value of the first. -/
theorem bind_iff {x : Fallible ε α} {f : α → Fallible ε β} {b : β} :
    Yields (x >>= f) b ↔ ∃ a, Yields x a ∧ Yields (f a) b := by
  have hrun : (x >>= f).run = x.run >>= fun r => ExceptT.bindCont f r := rfl
  rw [Yields, hrun]
  constructor
  · intro h
    cases hx : x.run with
    | error p =>
      rw [hx] at h
      cases h
    | ok r =>
      rw [hx] at h
      cases r with
      | error e => cases h
      | ok a => exact ⟨a, hx, h⟩
  · rintro ⟨a, hx, hf⟩
    rw [show x.run = _ from hx]
    exact hf

/-- A checked operation that succeeds, followed by the rest of the computation. -/
theorem lift_bind_iff {x : Exec α} {a : α} {f : α → Fallible ε β} {b : β} (h : x = .ok a) :
    Yields (liftM x >>= f) b ↔ Yields (f a) b := by
  rw [bind_iff]
  constructor
  · rintro ⟨a', ha, hf⟩
    rw [lift_iff, h, Except.ok.injEq] at ha
    rw [ha]
    exact hf
  · intro hf
    exact ⟨a, lift_iff.mpr h, hf⟩

end Yields

/-- A change of the errors does not change what is returned. -/
@[simp] theorem Yields.adapt_iff {ε ε' α : Type} {f : ε → ε'} {x : Fallible ε α} {a : α} :
    Yields (ExceptT.adapt f x) a ↔ Yields x a := by
  have hrun : (ExceptT.adapt f x).run = Except.mapError f <$> x.run := rfl
  rw [Yields, Yields, hrun]
  rcases x.run with p | (e | b)
  · exact iff_of_false nofun nofun
  · exact iff_of_false nofun nofun
  · show (Except.ok (Except.ok b) : Exec (Except ε' α)) = .ok (.ok a) ↔ _
    rw [Except.ok.injEq, Except.ok.injEq, Except.ok.injEq, Except.ok.injEq]

/-- Renaming the error does not change whether there is a panic. -/
theorem Fallible.returns_adapt_iff {ε ε' α : Type} {f : ε → ε'} {x : Fallible ε α} :
    Exec.Returns (ExceptT.adapt f x).run ↔ Exec.Returns x.run := by
  have hrun : (ExceptT.adapt f x).run = Except.mapError f <$> x.run := rfl
  rw [hrun]
  cases x.run with
  | error p => exact iff_of_false (Exec.not_returns_error p) (Exec.not_returns_error p)
  | ok r => exact iff_of_true (Exec.returns_ok _) (Exec.returns_ok _)

/-- A sequence whose first part does not panic returns if the rest does on the value of the first
part, if there is one. -/
theorem Fallible.returns_bind_iff {ε α β : Type} {x : Fallible ε α} {f : α → Fallible ε β}
    (hx : Exec.Returns x.run) :
    Exec.Returns (x >>= f).run ↔ ∀ a, Yields x a → Exec.Returns (f a).run := by
  obtain ⟨r, hr⟩ := hx
  have hrun : (x >>= f).run = x.run >>= fun r => ExceptT.bindCont f r := rfl
  rw [hrun, hr]
  simp only [Yields, hr]
  cases r with
  | error e =>
    refine iff_of_true (Exec.returns_ok _) ?_
    rintro a ⟨⟩
  | ok a =>
    constructor
    · rintro h a' ⟨⟩
      exact h
    · exact fun h => h a rfl

/-- A sequence whose rest always returns. -/
theorem Fallible.returns_bind_iff_of_forall {ε α β : Type} {x : Fallible ε α}
    {f : α → Fallible ε β} (hf : ∀ a, Exec.Returns (f a).run) :
    Exec.Returns (x >>= f).run ↔ Exec.Returns x.run := by
  refine ⟨fun h => ?_, fun h => (Fallible.returns_bind_iff h).mpr fun a _ => hf a⟩
  have hrun : (x >>= f).run = x.run >>= fun r => ExceptT.bindCont f r := rfl
  rw [hrun] at h
  cases hx : x.run with
  | error p =>
    rw [hx] at h
    exact absurd h (Exec.not_returns_error p)
  | ok r => exact Exec.returns_ok r

/-- The value that `x` returns, if it returns one. -/
def Fallible.toOption {ε α : Type} (x : Fallible ε α) : Option α :=
  match x.run with
  | .ok (.ok a) => some a
  | _ => none

/-- What is yielded, as an option. -/
theorem Fallible.toOption_eq_some_iff {ε α : Type} {x : Fallible ε α} {a : α} :
    x.toOption = some a ↔ Yields x a := by
  rw [Fallible.toOption, Yields]
  split
  · next b hb => rw [hb, Option.some.injEq, Except.ok.injEq, Except.ok.injEq]
  · next hne => exact iff_of_false (Option.some_ne_none a).symm (hne a)
