import Mathlib.Tactic.Common

/-!
# Slices in chunks of one size

`slice::chunks`: a slice cut into pieces of `n` elements, of which the last takes what is left.
-/

namespace Slices

variable {α β : Type} {n : ℕ} {xs : List α}

/-- The chunks of `xs`, at most `fuel` of them. -/
def chunksGo (n : ℕ) : ℕ → List α → List (List α)
  | 0, _ => []
  | fuel + 1, xs => if xs.isEmpty then [] else xs.take n :: chunksGo n fuel (xs.drop n)

/-- The chunks of `xs`. A list has no more chunks than elements. -/
def chunks (n : ℕ) (xs : List α) : List (List α) := chunksGo n xs.length xs

/-- As much fuel as elements is enough. -/
theorem chunksGo_fuel (hn : 0 < n) {fuel : ℕ} (hfuel : xs.length ≤ fuel) :
    chunksGo n fuel xs = chunks n xs := by
  unfold chunks
  induction fuel using Nat.strongRecOn generalizing xs with
  | ind fuel ih =>
    cases xs with
    | nil => cases fuel <;> rfl
    | cons x xs =>
      rw [List.length_cons] at hfuel ⊢
      obtain ⟨fuel, rfl⟩ : ∃ k, fuel = k + 1 := ⟨fuel - 1, by omega⟩
      have hrest : ((x :: xs).drop n).length ≤ xs.length := by
        rw [List.length_drop, List.length_cons]
        omega
      -- the rest has lost an element, so both bounds are enough for it
      show _ :: chunksGo n fuel _ = _ :: chunksGo n xs.length _
      rw [ih fuel (by omega) (by omega), ih xs.length (by omega) hrest]

@[simp] theorem chunks_nil : chunks n ([] : List α) = [] := rfl

/-- The first chunk, and the others. -/
theorem chunks_eq (hn : 0 < n) (hxs : xs ≠ []) :
    chunks n xs = xs.take n :: chunks n (xs.drop n) := by
  cases xs with
  | nil => exact absurd rfl hxs
  | cons x xs =>
    have hrest : ((x :: xs).drop n).length ≤ xs.length := by
      rw [List.length_drop, List.length_cons]
      omega
    show _ :: chunksGo n xs.length _ = _
    rw [chunksGo_fuel hn hrest]

/-- What holds of no chunks, and of one more chunk in front, holds of all. -/
theorem chunks_induction {P : List α → List (List α) → Prop} (hn : 0 < n) (nil : P [] [])
    (cons : ∀ xs, xs ≠ [] → P (xs.drop n) (chunks n (xs.drop n)) →
      P xs (xs.take n :: chunks n (xs.drop n))) (xs : List α) : P xs (chunks n xs) := by
  induction hlen : xs.length using Nat.strongRecOn generalizing xs with
  | ind len ih =>
    by_cases hxs : xs = []
    · rw [hxs]
      exact nil
    · have hpos := List.length_pos_iff.mpr hxs
      rw [chunks_eq hn hxs]
      apply cons xs hxs
      have hless : (xs.drop n).length < len := by
        rw [List.length_drop]
        omega
      exact ih _ hless _ rfl

/-- The chunks one after the other are the slice. -/
theorem flatten_chunks (hn : 0 < n) (xs : List α) : (chunks n xs).flatten = xs := by
  apply chunks_induction (P := fun xs cs => cs.flatten = xs) hn
  · rfl
  · intro xs hxs ih
    rw [List.flatten_cons, ih, List.take_append_drop]

/-- No chunk is empty, and none is longer than `n`. -/
theorem length_of_mem_chunks (hn : 0 < n) (xs : List α) :
    ∀ c ∈ chunks n xs, 0 < c.length ∧ c.length ≤ n := by
  apply chunks_induction (P := fun _ cs => ∀ c ∈ cs, 0 < c.length ∧ c.length ≤ n) hn
  · intro c hc
    exact absurd hc List.not_mem_nil
  · intro xs hxs ih c hc
    rcases List.mem_cons.mp hc with rfl | hc
    · have := List.length_pos_iff.mpr hxs
      rw [List.length_take]
      omega
    · exact ih c hc

/-- Every chunk but the last is full. -/
theorem length_of_mem_dropLast_chunks (hn : 0 < n) (xs : List α) :
    ∀ c ∈ (chunks n xs).dropLast, c.length = n := by
  apply chunks_induction (P := fun _ cs => ∀ c ∈ cs.dropLast, c.length = n) hn
  · intro c hc
    exact absurd hc List.not_mem_nil
  · intro xs hxs ih c hc
    by_cases hrest : xs.drop n = []
    · rw [hrest, chunks_nil] at hc
      exact absurd hc List.not_mem_nil
    · have hlen := List.length_pos_iff.mpr hrest
      rw [List.length_drop] at hlen
      rw [List.dropLast_cons_of_ne_nil (by rw [chunks_eq hn hrest]; exact List.cons_ne_nil _ _),
        List.mem_cons] at hc
      rcases hc with rfl | hc
      · rw [List.length_take]
        omega
      · exact ih c hc

/-- The chunks of a list that is mapped. -/
theorem chunks_map (hn : 0 < n) (f : α → β) (xs : List α) :
    chunks n (xs.map f) = (chunks n xs).map (List.map f) := by
  apply chunks_induction (P := fun xs cs => chunks n (xs.map f) = cs.map (List.map f)) hn
  · rfl
  · intro xs hxs ih
    rw [chunks_eq hn (by rw [ne_eq, List.map_eq_nil_iff]; exact hxs), ← List.map_take,
      ← List.map_drop, ih, List.map_cons]

end Slices
