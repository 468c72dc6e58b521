import Mathlib.Algebra.Ring.Nat
import Mathlib.Data.List.Basic

/-!
# Records that are read field by field

A decoder walks over its input with an index and stores one field at every turn of its loop. When
each field that the encoder writes is read back at whatever place it stands (`Reads`), the loop
reads back any list of fields (`Reads.fields`), and an input of fields only takes it to the end
(`Reads.whole`). The loop itself is a parameter, so its result may be of any type.
-/

namespace Fields

variable {β F σ ρ : Type} {input : List β} {encode : F → List β} {store : σ → F → σ}
  {loop : ℕ → σ → ℕ → ρ}

/-- One turn of the loop, which spends one unit of fuel, reads the field at its index. -/
def Reads (input : List β) (encode : F → List β) (store : σ → F → σ) (loop : ℕ → σ → ℕ → ρ) :
    Prop :=
  ∀ (f : F) (rest : List β) (fuel : ℕ) (s : σ) (idx : ℕ), input.drop idx = encode f ++ rest →
    ∃ idx', input.drop idx' = rest ∧ loop (fuel + 1) s idx = loop fuel (store s f) idx'

/-- The loop reads any list of fields. -/
theorem Reads.fields (h : Reads input encode store loop) (fs : List F) (rest : List β) (fuel : ℕ)
    (s : σ) (idx : ℕ) (hinput : input.drop idx = fs.flatMap encode ++ rest) :
    ∃ idx', input.drop idx' = rest ∧
      loop (fuel + fs.length) s idx = loop fuel (fs.foldl store s) idx' := by
  induction fs generalizing s idx with
  | nil => exact ⟨idx, hinput, rfl⟩
  | cons f fs ih =>
    rw [List.flatMap_cons, List.append_assoc] at hinput
    obtain ⟨idx₁, hrest, hturn⟩ := h f _ (fuel + fs.length) s idx hinput
    obtain ⟨idx₂, hend, hfields⟩ := ih (store s f) idx₁ hrest
    refine ⟨idx₂, hend, ?_⟩
    rw [List.length_cons, ← Nat.add_assoc, hturn, hfields, List.foldl_cons]

/-- Fields that the message collects are all of them there in the end. -/
theorem foldl_repeated {α : Type} {field : α → F} (put : List α → σ)
    (h : ∀ xs x, store (put xs) (field x) = put (xs ++ [x])) (xs ys : List α) :
    (ys.map field).foldl store (put xs) = put (xs ++ ys) := by
  induction ys generalizing xs with
  | nil => rw [List.append_nil]; rfl
  | cons y ys ih => rw [List.map_cons, List.foldl_cons, h, ih, List.append_assoc]; rfl

/-- Fields that are not empty are at most as many as they have bytes. -/
theorem length_le_flatMap (hne : ∀ f, encode f ≠ []) (fs : List F) :
    fs.length ≤ (fs.flatMap encode).length := by
  induction fs with
  | nil => exact Nat.zero_le _
  | cons f fs ih =>
    have hpos := List.length_pos_iff.mpr (hne f)
    rw [List.flatMap_cons, List.length_append, List.length_cons]
    omega

/-- On an input of fields the loop comes to the end, with all of them stored. As much fuel as there
are bytes is enough. -/
theorem Reads.whole (hne : ∀ f, encode f ≠ []) {fs : List F}
    (h : Reads (fs.flatMap encode) encode store loop) (extra : ℕ) (s : σ) :
    ∃ fuel idx, (fs.flatMap encode).length ≤ idx ∧
      loop ((fs.flatMap encode).length + extra) s 0 =
        loop (fuel + extra) (fs.foldl store s) idx := by
  have hfuel := length_le_flatMap hne fs
  obtain ⟨fuel, hsum⟩ := Nat.exists_eq_add_of_le' hfuel
  obtain ⟨idx, hrest, hloop⟩ := h.fields fs [] (fuel + extra) s 0
    (by rw [List.drop_zero, List.append_nil])
  refine ⟨fuel, idx, List.drop_eq_nil_iff.mp hrest, ?_⟩
  rw [hsum, ← hloop]
  congr 1
  omega

end Fields
