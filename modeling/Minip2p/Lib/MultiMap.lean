import Minip2p.Lib.BTreeMap

/-!
# Maps from keys to sets

A program that files things under a key it computes from them keeps a map from keys to sets:
`add` files a thing and makes the set when there is none, `remove` takes it out and drops the set
when it was the last. `Has m k a` says that `a` is filed under `k`, and `NoEmpty m` that no set
of the map is empty, which both operations keep.
-/

/-- A map from keys to the set of things that are filed under them. -/
abbrev MultiMap (α β : Type) [Ord α] [Ord β] := BTreeMap α (BTreeSet β)

namespace MultiMap

variable {α β : Type} [Ord α] [Ord β] [Std.TransOrd α] [Std.TransOrd β]

/-- Files `a` under `k`. -/
def add (m : MultiMap α β) (k : α) (a : β) : MultiMap α β :=
  m.insert k ((m[k]?.getD ∅).insert a)

/-- Takes `a` out from under `k`; a set that is left empty goes with it. -/
def remove (m : MultiMap α β) (k : α) (a : β) : MultiMap α β :=
  match m[k]? with
  | none => m
  | some set => if (set.erase a).isEmpty then m.erase k else m.insert k (set.erase a)

/-- `a` is filed under `k`. -/
def Has (m : MultiMap α β) (k : α) (a : β) : Prop := ∃ set, m[k]? = some set ∧ a ∈ set

/-- No set of the map is empty. -/
def NoEmpty (m : MultiMap α β) : Prop := ∀ (k : α) (set : BTreeSet β), m[k]? = some set → set ≠ ∅

variable {m : MultiMap α β} {k k' : α} {a a' : β}

/-- The empty map has nothing. -/
theorem not_has_empty : ¬ Has (∅ : MultiMap α β) k a := by
  rintro ⟨set, hset, -⟩
  rw [Std.ExtTreeMap.getElem?_empty] at hset
  cases hset

omit [Std.TransOrd β] in
/-- The empty map has no empty set. -/
theorem noEmpty_empty : NoEmpty (∅ : MultiMap α β) := by
  intro k set hset
  rw [Std.ExtTreeMap.getElem?_empty] at hset
  cases hset

/-- A value is there if it is in the set of its key. -/
theorem has_iff_mem_getD : Has m k a ↔ a ∈ m[k]?.getD ∅ := by
  unfold Has
  cases m[k]? with
  | none => simp
  | some set => simp

variable [Std.LawfulEqOrd α] [Std.LawfulEqOrd β]

/-- Adding adds one value. -/
theorem has_add_iff : Has (m.add k' a') k a ↔ (k = k' ∧ a = a') ∨ Has m k a := by
  rw [has_iff_mem_getD, has_iff_mem_getD, add, Std.ExtTreeMap.getElem?_insert]
  split
  · next heq =>
    obtain rfl : k' = k := Std.compare_eq_iff_eq.mp heq
    rw [Option.getD_some, BTreeSet.mem_insert_iff]
    simp
  · next hne =>
    have hkk : k ≠ k' := fun h => hne (Std.compare_eq_iff_eq.mpr h.symm)
    simp [hkk]

/-- Removing removes one value. -/
theorem has_remove_iff : Has (m.remove k' a') k a ↔ ¬ (k = k' ∧ a = a') ∧ Has m k a := by
  unfold remove
  split
  · next hnone =>
    refine ⟨fun h => ⟨?_, h⟩, fun h => h.2⟩
    rintro ⟨rfl, rfl⟩
    obtain ⟨set, hset, -⟩ := h
    cases hnone.symm.trans hset
  next old hold =>
  -- under `k'` the set is the old one without `a'`; an empty one has no members to lose
  have hself : Has m k' a ↔ a ∈ old := by rw [has_iff_mem_getD, hold, Option.getD_some]
  split
  · next hempty =>
    have hnil : old.erase a' = ∅ := Std.ExtTreeSet.isEmpty_iff.mp hempty
    rw [has_iff_mem_getD, Std.ExtTreeMap.getElem?_erase]
    split
    · next heq =>
      obtain rfl : k' = k := Std.compare_eq_iff_eq.mp heq
      have hmem : a ∈ old → a = a' := by
        intro ha
        by_contra hne
        exact Std.ExtTreeSet.not_mem_empty (hnil ▸ BTreeSet.mem_erase_iff.mpr ⟨hne, ha⟩)
      rw [hself]
      simp only [Option.getD_none, Std.ExtTreeSet.not_mem_empty, true_and, false_iff, not_and]
      exact fun hne ha => hne (hmem ha)
    · next hne =>
      have hkk : k ≠ k' := fun h => hne (Std.compare_eq_iff_eq.mpr h.symm)
      rw [has_iff_mem_getD]
      simp [hkk]
  · rw [has_iff_mem_getD, Std.ExtTreeMap.getElem?_insert]
    split
    · next heq =>
      obtain rfl : k' = k := Std.compare_eq_iff_eq.mp heq
      rw [hself, Option.getD_some, BTreeSet.mem_erase_iff]
      simp
    · next hne =>
      have hkk : k ≠ k' := fun h => hne (Std.compare_eq_iff_eq.mpr h.symm)
      rw [has_iff_mem_getD]
      simp [hkk]

/-- Adding leaves no empty set. -/
theorem NoEmpty.add (h : NoEmpty m) : NoEmpty (m.add k a) := by
  intro k' set hset hnil
  rcases BTreeMap.getElem?_insert_eq_some_iff.mp hset with ⟨-, heq⟩ | ⟨-, hold⟩
  · have hmem : a ∈ set := heq ▸ BTreeSet.mem_insert_iff.mpr (.inl rfl)
    exact Std.ExtTreeSet.not_mem_empty (hnil ▸ hmem)
  · exact h k' set hold hnil

omit [Std.LawfulEqOrd β] in
/-- Removing leaves no empty set. -/
theorem NoEmpty.remove (h : NoEmpty m) : NoEmpty (m.remove k a) := by
  unfold MultiMap.remove
  split
  · exact h
  split
  · intro k' set hset
    exact h k' set (BTreeMap.getElem?_erase_eq_some_iff.mp hset).2
  · next hleft =>
    intro k' set hset
    rcases BTreeMap.getElem?_insert_eq_some_iff.mp hset with ⟨-, heq⟩ | ⟨-, hold⟩
    · rw [← heq]
      exact fun hnil => hleft (Std.ExtTreeSet.isEmpty_iff.mpr hnil)
    · exact h k' set hold

end MultiMap
