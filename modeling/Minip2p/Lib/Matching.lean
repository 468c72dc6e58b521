import Mathlib.Data.List.Forall2
import Mathlib.Data.List.Induction
import Mathlib.Data.List.NodupEquivFin
import Minip2p.Lib.Runs

/-!
# What the calls of a run give rise to

`collect` lists what each call of a run gives rise to, given the calls before it. `Matching` matches
the entries of one such list with entries of another, each with its own; a list that grows at its
end together with a sublist of the other is matched.
-/

namespace Runs

variable {ι α β : Type} {f : List ι → ι → List β} {before first rest calls : List ι} {call : ι}

/-- What every call of a run gives rise to; `before` came first. -/
def collect (f : List ι → ι → List β) : List ι → List ι → List β
  | _, [] => []
  | before, call :: rest => f before call ++ collect f (before ++ [call]) rest

/-- What is collected in two parts. -/
theorem collect_append :
    collect f before (first ++ rest) =
      collect f before first ++ collect f (before ++ first) rest := by
  induction first generalizing before with
  | nil => simp [collect]
  | cons call first ih => simp [collect, ih]

/-- What one more call adds. -/
theorem collect_concat :
    collect f [] (calls ++ [call]) = collect f [] calls ++ f calls call := by
  rw [collect_append, List.nil_append, collect, collect, List.append_nil]

/-- What is collected comes from some call. -/
theorem mem_collect {b : β} (h : b ∈ collect f before calls) :
    ∃ first call rest, calls = first ++ call :: rest ∧ b ∈ f (before ++ first) call := by
  induction calls generalizing before with
  | nil => cases h
  | cons call calls ih =>
    rcases List.mem_append.mp h with h | h
    · exact ⟨[], call, calls, rfl, by rwa [List.append_nil]⟩
    · obtain ⟨first, call', rest, rfl, hb⟩ := ih h
      refine ⟨call :: first, call', rest, rfl, ?_⟩
      rwa [List.append_assoc] at hb

/-- Every entry of `bs` has its own entry of `as` that is `R` to it. -/
def Matching (R : α → β → Prop) (as : List α) (bs : List β) : Prop :=
  ∃ f : Fin bs.length → Fin as.length, Function.Injective f ∧ ∀ i, R (as.get (f i)) (bs.get i)

/-- A list is matched with what it corresponds to entry by entry in a sublist. -/
theorem matching_of_sublist {R : α → β → Prop} {as matched : List α} {bs : List β}
    (hsub : matched.Sublist as) (h : List.Forall₂ R matched bs) : Matching R as bs := by
  obtain ⟨f, hf⟩ := List.sublist_iff_exists_fin_orderEmbedding_get_eq.mp hsub
  obtain ⟨hlen, hR⟩ := List.forall₂_iff_get.mp h
  refine ⟨fun i => f (i.cast hlen.symm), ?_, ?_⟩
  · intro i j hij
    exact Fin.cast_injective _ (f.injective hij)
  · intro i
    rw [← hf]
    exact hR i.val (Nat.lt_of_lt_of_eq i.isLt hlen.symm) i.isLt

end Runs
