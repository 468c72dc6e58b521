import Mathlib.Logic.Relation

/-!
# Runs

A run of a machine is the list of calls made on it, the oldest first. `EachStep` says that every
call of a run satisfies a predicate that may look at the calls before it, which is how contracts
and side conditions of runs are stated; `EachStep.invariant` is the induction over a run, and
`EachStep.prefixes_iff` the one for an invariant whose loss at a call is known exactly.
`keeps_of_chain` and `appends_of_chain` are the inductions over the elementary moves one call is
made of.
-/

namespace Runs

variable {ι : Type} {P Q : List ι → ι → Prop}

/-- `P` holds of every call of the run, given the calls before it; `before` came first. -/
def EachStep (P : List ι → ι → Prop) : List ι → List ι → Prop
  | _, [] => True
  | before, call :: after => P before call ∧ EachStep P (before ++ [call]) after

instance decidableEachStep [∀ before call, Decidable (P before call)] :
    ∀ before calls, Decidable (EachStep P before calls)
  | _, [] => .isTrue trivial
  | before, call :: after =>
    have := decidableEachStep (before ++ [call]) after
    inferInstanceAs (Decidable (P before call ∧ EachStep P (before ++ [call]) after))

/-- A run in two parts. -/
theorem eachStep_append {before first rest : List ι} :
    EachStep P before (first ++ rest) ↔
      EachStep P before first ∧ EachStep P (before ++ first) rest := by
  induction first generalizing before with
  | nil => simp [EachStep]
  | cons call first ih => simp [EachStep, ih, and_assoc]

/-- The calls up to any one call of a run, and that call. -/
theorem EachStep.split {calls before after : List ι} {call : ι} (h : EachStep P [] calls)
    (hcalls : calls = before ++ call :: after) : EachStep P [] before ∧ P before call := by
  rw [hcalls, eachStep_append, List.nil_append] at h
  exact ⟨h.1, h.2.1⟩

/-- A weaker condition on each step. -/
theorem EachStep.mono {before calls : List ι} (h : EachStep P before calls)
    (himp : ∀ before call, P before call → Q before call) : EachStep Q before calls := by
  induction calls generalizing before with
  | nil => trivial
  | cons call calls ih => exact ⟨himp before call h.1, ih h.2⟩

/-- Two conditions on each step. -/
theorem eachStep_and {before calls : List ι} (h : EachStep P before calls)
    (h' : EachStep Q before calls) :
    EachStep (fun before call => P before call ∧ Q before call) before calls := by
  induction calls generalizing before with
  | nil => trivial
  | cons call calls ih => exact ⟨⟨h.1, h'.1⟩, ih h.2 h'.2⟩

/-- What holds at the start of a run and is kept by each of its calls holds at its end. -/
theorem EachStep.invariant {I : List ι → Prop} {before calls : List ι}
    (h : EachStep P before calls) (hstart : I before)
    (hstep : ∀ before call, P before call → I before → I (before ++ [call])) :
    I (before ++ calls) := by
  induction calls generalizing before with
  | nil => simpa using hstart
  | cons call calls ih =>
    have hnext : I (before ++ [call]) := hstep before call h.1 hstart
    simpa using ih h.2 hnext

/-- If a call keeps an invariant exactly when it satisfies `Q`, the invariant holds all along a run
exactly when every call of the run satisfies `Q`. -/
theorem EachStep.prefixes_iff {I : List ι → Prop} {before calls : List ι}
    (h : EachStep P before calls) (hbefore : EachStep P [] before) (hstart : I before)
    (hstep : ∀ before call, EachStep P [] before → P before call → I before →
      (I (before ++ [call]) ↔ Q before call)) :
    (∀ first rest, calls = first ++ rest → I (before ++ first)) ↔ EachStep Q before calls := by
  induction calls generalizing before with
  | nil =>
    refine ⟨fun _ => trivial, ?_⟩
    intro _ first rest hsplit
    rw [(List.append_eq_nil_iff.mp hsplit.symm).1, List.append_nil]
    exact hstart
  | cons call calls ih =>
    have hiff : I (before ++ [call]) ↔ Q before call := hstep before call hbefore h.1 hstart
    have hnext : EachStep P [] (before ++ [call]) := by
      rw [eachStep_append]
      exact ⟨hbefore, h.1, trivial⟩
    constructor
    · intro hall
      have hcall : I (before ++ [call]) := hall [call] calls rfl
      refine ⟨hiff.mp hcall, (ih h.2 hnext hcall).mp ?_⟩
      intro first rest hsplit
      have hlater := hall (call :: first) rest (by rw [hsplit]; rfl)
      simpa using hlater
    · rintro ⟨hQ, hrest⟩ first rest hsplit
      cases first with
      | nil => simpa using hstart
      | cons x first =>
        obtain ⟨rfl, hcalls⟩ := List.cons.inj hsplit
        have hlater := (ih h.2 hnext (hiff.mpr hQ)).mpr hrest first rest hcalls
        simpa using hlater

/-- Two conditions that agree at every call a run can make agree on the run. -/
theorem EachStep.congr {R : List ι → ι → Prop} {before calls : List ι}
    (h : EachStep P before calls) (hbefore : EachStep P [] before)
    (hstep : ∀ before call, EachStep P [] before → P before call →
      (Q before call ↔ R before call)) :
    EachStep Q before calls ↔ EachStep R before calls := by
  induction calls generalizing before with
  | nil => exact Iff.rfl
  | cons call calls ih =>
    have hnext : EachStep P [] (before ++ [call]) := by
      rw [eachStep_append]
      exact ⟨hbefore, h.1, trivial⟩
    exact and_congr (hstep before call hbefore h.1) (ih h.2 hnext)

/-- What every move keeps, a chain of moves keeps. -/
theorem keeps_of_chain {σ : Type} {move : σ → σ → Prop} {J : σ → Prop} {s s' : σ}
    (hchain : Relation.ReflTransGen move s s') (hmove : ∀ s s', move s s' → J s → J s')
    (hs : J s) : J s' := by
  induction hchain with
  | refl => exact hs
  | tail _ hlast ih => exact hmove _ _ hlast ih

/-- If every move appends to a queue, a chain of moves appends what its moves do. -/
theorem appends_of_chain {σ α : Type} {move : σ → σ → Prop} {J : σ → Prop} {P : α → Prop}
    {queue : σ → List α} {s s' : σ} (hchain : Relation.ReflTransGen move s s')
    (hmove : ∀ s s', move s s' → J s →
      J s' ∧ ∃ added, queue s' = queue s ++ added ∧ ∀ a ∈ added, P a)
    (hs : J s) : ∃ added, queue s' = queue s ++ added ∧ ∀ a ∈ added, P a := by
  have hboth : J s' ∧ ∃ added, queue s' = queue s ++ added ∧ ∀ a ∈ added, P a := by
    induction hchain with
    | refl => exact ⟨hs, [], by rw [List.append_nil], fun a ha => absurd ha List.not_mem_nil⟩
    | tail _ hlast ih =>
      obtain ⟨hJ, added, heq, hadded⟩ := ih
      obtain ⟨hJ', more, hmore, hP⟩ := hmove _ _ hlast hJ
      refine ⟨hJ', added ++ more, by rw [hmore, heq, List.append_assoc], ?_⟩
      intro a ha
      rcases List.mem_append.mp ha with ha | ha
      · exact hadded a ha
      · exact hP a ha
  exact hboth.2

end Runs
