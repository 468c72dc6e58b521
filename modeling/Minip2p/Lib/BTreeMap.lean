import Mathlib.Algebra.Ring.Nat
import Mathlib.Tactic.Common

/-!
# Ordered maps and sets

`BTreeMap` and `BTreeSet` are the extensional tree maps and sets of the standard library at
the keys' own order. This file adds the two scans a program does over a map in key order, the
first entry a function accepts (`findMap`) and whether some entry passes a test (`anyEntry`),
states membership and lookups after `insert`, `erase` and `filter` for keys whose order is
lawful, and counts the entries that pass a test (`countEntries`).
-/

/-- A finite map iterated in key order. -/
abbrev BTreeMap (α β : Type) [Ord α] := Std.ExtTreeMap α β compare

/-- A finite set iterated in key order. -/
abbrev BTreeSet (α : Type) [Ord α] := Std.ExtTreeSet α compare

namespace BTreeMap

variable {α β γ : Type} [Ord α] [Std.TransOrd α] [Std.LawfulEqOrd α]

/-- The first result of `f` over the entries, in key order. -/
def findMap (m : BTreeMap α β) (f : α → β → Option γ) : Option γ :=
  m.toList.findSome? fun entry => f entry.1 entry.2

/-- Whether some entry passes `f`. -/
def anyEntry (m : BTreeMap α β) (f : α → β → Bool) : Bool :=
  m.toList.any fun entry => f entry.1 entry.2

/-- What `findMap` returns comes from an entry of the map. -/
theorem exists_of_findMap_eq_some {m : BTreeMap α β} {f : α → β → Option γ} {c : γ}
    (h : findMap m f = some c) : ∃ k v, m[k]? = some v ∧ f k v = some c := by
  obtain ⟨entry, hmem, hf⟩ := List.exists_of_findSome?_eq_some h
  obtain ⟨k, v⟩ := entry
  exact ⟨k, v, Std.ExtTreeMap.mem_toList_iff_getElem?_eq_some.mp hmem, hf⟩

/-- What all entries agree on is found. -/
theorem findMap_eq_some {m : BTreeMap α β} {f : α → β → Option γ} {k : α} {v : β} {c : γ}
    (hv : m[k]? = some v) (hf : f k v = some c)
    (hagree : ∀ k' v' c', m[k']? = some v' → f k' v' = some c' → c' = c) :
    findMap m f = some c := by
  cases hfound : findMap m f with
  | none =>
    have hmem := Std.ExtTreeMap.mem_toList_iff_getElem?_eq_some.mpr hv
    have hnone := List.findSome?_eq_none_iff.mp hfound _ hmem
    cases hf.symm.trans hnone
  | some d =>
    obtain ⟨k', v', hv', hf'⟩ := exists_of_findMap_eq_some hfound
    rw [hagree k' v' d hv' hf']

omit [Std.LawfulEqOrd α] in
/-- A key with a value is in the map. -/
theorem mem_of_getElem? {m : BTreeMap α β} {k : α} {v : β} (h : m[k]? = some v) : k ∈ m := by
  rw [Std.ExtTreeMap.mem_iff_isSome_getElem?, h]
  rfl

omit [Std.LawfulEqOrd α] in
/-- A key in the map has a value. -/
theorem exists_getElem?_of_mem {m : BTreeMap α β} {k : α} (h : k ∈ m) : ∃ v, m[k]? = some v :=
  Option.isSome_iff_exists.mp (Std.ExtTreeMap.mem_iff_isSome_getElem?.mp h)

theorem mem_insert_iff {m : BTreeMap α β} {k a : α} {v : β} :
    a ∈ m.insert k v ↔ a = k ∨ a ∈ m := by
  rw [Std.ExtTreeMap.mem_insert, Std.compare_eq_iff_eq, eq_comm]

theorem mem_erase_iff {m : BTreeMap α β} {k a : α} : a ∈ m.erase k ↔ a ≠ k ∧ a ∈ m := by
  rw [Std.ExtTreeMap.mem_erase, ne_eq, Std.compare_eq_iff_eq, eq_comm]

/-- Other entries are as they were. -/
theorem getElem?_insert_of_ne {m : BTreeMap α β} {k a : α} {v : β} (h : a ≠ k) :
    (m.insert k v)[a]? = m[a]? := by
  rw [Std.ExtTreeMap.getElem?_insert, if_neg]
  exact fun heq => h (Std.compare_eq_iff_eq.mp heq).symm

theorem getElem?_erase_of_ne {m : BTreeMap α β} {k a : α} (h : a ≠ k) :
    (m.erase k)[a]? = m[a]? := by
  rw [Std.ExtTreeMap.getElem?_erase, if_neg]
  exact fun heq => h (Std.compare_eq_iff_eq.mp heq).symm

/-- An erased key is gone. -/
theorem not_mem_erase_self {m : BTreeMap α β} {k : α} : k ∉ m.erase k :=
  fun h => (mem_erase_iff.mp h).1 rfl

/-- The entries after an insertion. -/
theorem getElem?_insert_eq_some_iff {m : BTreeMap α β} {k a : α} {v w : β} :
    (m.insert k v)[a]? = some w ↔ (a = k ∧ v = w) ∨ (a ≠ k ∧ m[a]? = some w) := by
  rw [Std.ExtTreeMap.getElem?_insert]
  split
  · next heq =>
    have hak : a = k := (Std.compare_eq_iff_eq.mp heq).symm
    simp only [hak, Option.some.injEq, true_and, ne_eq, not_true, false_and, or_false]
  · next hne =>
    have hak : a ≠ k := fun h => hne (Std.compare_eq_iff_eq.mpr h.symm)
    simp only [hak, false_and, ne_eq, not_false_iff, true_and, false_or]

/-- An entry with another value than the new one was there before. -/
theorem getElem?_of_insert {m : BTreeMap α β} {k a : α} {v w : β}
    (h : (m.insert k v)[a]? = some w) (hne : v ≠ w) : m[a]? = some w := by
  rcases getElem?_insert_eq_some_iff.mp h with ⟨-, heq⟩ | ⟨-, hold⟩
  · exact absurd heq hne
  · exact hold

/-- The entries after an erasure. -/
theorem getElem?_erase_eq_some_iff {m : BTreeMap α β} {k a : α} {w : β} :
    (m.erase k)[a]? = some w ↔ a ≠ k ∧ m[a]? = some w := by
  rw [Std.ExtTreeMap.getElem?_erase]
  split
  · next heq =>
    have hak : a = k := (Std.compare_eq_iff_eq.mp heq).symm
    simp only [hak, reduceCtorEq, ne_eq, not_true, false_and]
  · next hne =>
    have hak : a ≠ k := fun h => hne (Std.compare_eq_iff_eq.mpr h.symm)
    simp only [ne_eq, hak, not_false_iff, true_and]

/-- A key without a value after an insertion is another one, and had none before. -/
theorem getElem?_insert_eq_none_iff {m : BTreeMap α β} {k a : α} {v : β} :
    (m.insert k v)[a]? = none ↔ a ≠ k ∧ m[a]? = none := by
  rw [Std.ExtTreeMap.getElem?_insert]
  split
  · next heq => simp [(Std.compare_eq_iff_eq.mp heq).symm]
  · next hne =>
    have hak : a ≠ k := fun h => hne (Std.compare_eq_iff_eq.mpr h.symm)
    simp [hak]

/-- A key without a value after an erasure was erased or had none before. -/
theorem getElem?_erase_eq_none_iff {m : BTreeMap α β} {k a : α} :
    (m.erase k)[a]? = none ↔ a = k ∨ m[a]? = none := by
  rw [Std.ExtTreeMap.getElem?_erase]
  split
  · next heq => simp [(Std.compare_eq_iff_eq.mp heq).symm]
  · next hne =>
    have hak : a ≠ k := fun h => hne (Std.compare_eq_iff_eq.mpr h.symm)
    simp [hak]

/-- The entries of a filtered map. -/
theorem getElem?_filter_eq_some_iff {m : BTreeMap α β} {f : α → β → Bool} {k : α} {v : β} :
    (m.filter f)[k]? = some v ↔ m[k]? = some v ∧ f k v = true := by
  rw [Std.ExtTreeMap.getElem?_filter']
  exact Option.filter_eq_some_iff

/-- The keys of a map filtered by key. -/
theorem mem_filter_key_iff {m : BTreeMap α β} {f : α → Bool} {k : α} :
    k ∈ m.filter (fun a _ => f a) ↔ k ∈ m ∧ f k = true := by
  constructor
  · intro h
    obtain ⟨v, hv⟩ := exists_getElem?_of_mem h
    obtain ⟨hm, hf⟩ := getElem?_filter_eq_some_iff.mp hv
    exact ⟨mem_of_getElem? hm, hf⟩
  · rintro ⟨h, hf⟩
    obtain ⟨v, hv⟩ := exists_getElem?_of_mem h
    exact mem_of_getElem? (getElem?_filter_eq_some_iff.mpr ⟨hv, hf⟩)

/-- Taking an entry out and putting it back changes nothing. -/
theorem insert_erase_self {m : BTreeMap α β} {k : α} {v : β} (h : m[k]? = some v) :
    (m.erase k).insert k v = m := by
  apply Std.ExtTreeMap.ext_getElem?
  intro a
  rw [Std.ExtTreeMap.getElem?_insert, Std.ExtTreeMap.getElem?_erase]
  split
  · next heq => rw [← Std.ExtTreeMap.getElem?_congr heq, h]
  · rfl

/-- What was stored goes with the key. -/
theorem erase_insert_self {m : BTreeMap α β} {k : α} {v : β} :
    (m.insert k v).erase k = m.erase k := by
  apply Std.ExtTreeMap.ext_getElem?
  intro a
  rw [Std.ExtTreeMap.getElem?_erase, Std.ExtTreeMap.getElem?_erase, Std.ExtTreeMap.getElem?_insert]
  split
  · rfl
  · rfl

/-- Storing what is there changes nothing. -/
theorem insert_eq_self {m : BTreeMap α β} {k : α} {v : β} (h : m[k]? = some v) :
    m.insert k v = m := by
  apply Std.ExtTreeMap.ext_getElem?
  intro a
  rw [Std.ExtTreeMap.getElem?_insert]
  split
  · next heq => rw [← Std.ExtTreeMap.getElem?_congr heq, h]
  · rfl

/-- Erasing a key that is not there changes nothing. -/
theorem erase_eq_self {m : BTreeMap α β} {k : α} (h : m[k]? = none) : m.erase k = m := by
  apply Std.ExtTreeMap.ext_getElem?
  intro a
  rw [Std.ExtTreeMap.getElem?_erase]
  split
  · next heq => rw [← Std.ExtTreeMap.getElem?_congr heq, h]
  · rfl

/-- Moves the entry of a key, if it has one, to another key. -/
def rekey (m : BTreeMap α β) (old new : α) : BTreeMap α β :=
  match m[old]? with
  | some v => (m.erase old).insert new v
  | none => m

theorem not_mem_rekey {m : BTreeMap α β} {old new : α} (h : new ≠ old) : old ∉ m.rekey old new := by
  unfold rekey
  split
  · intro hmem
    rcases mem_insert_iff.mp hmem with heq | hmem
    · exact h heq.symm
    · exact not_mem_erase_self hmem
  · next hnone =>
    intro hmem
    obtain ⟨v, hv⟩ := exists_getElem?_of_mem hmem
    rw [hnone] at hv
    cases hv

theorem getElem?_rekey {m : BTreeMap α β} {old new : α} {v : β} (h : m[old]? = some v) :
    (m.rekey old new)[new]? = some v := by
  rw [rekey, h]
  exact getElem?_insert_eq_some_iff.mpr (.inl ⟨rfl, rfl⟩)

/-! ## Counting entries -/

/-- How many entries pass `f`. -/
def countEntries (m : BTreeMap α β) (f : α → β → Bool) : Nat := (m.filter f).size

variable {m : BTreeMap α β} {f g : α → β → Bool} {k : α} {v : β}

theorem filter_erase : (m.erase k).filter f = (m.filter f).erase k := by
  apply Std.ExtTreeMap.ext_getElem?
  intro a
  apply Option.ext
  intro w
  simp only [getElem?_filter_eq_some_iff, getElem?_erase_eq_some_iff, and_assoc]

theorem filter_insert_of_pos (hf : f k v = true) :
    (m.insert k v).filter f = (m.filter f).insert k v := by
  apply Std.ExtTreeMap.ext_getElem?
  intro a
  apply Option.ext
  intro w
  rw [getElem?_filter_eq_some_iff, getElem?_insert_eq_some_iff, getElem?_insert_eq_some_iff,
    getElem?_filter_eq_some_iff]
  constructor
  · rintro ⟨⟨rfl, rfl⟩ | ⟨hne, hw⟩, hfw⟩
    · exact .inl ⟨rfl, rfl⟩
    · exact .inr ⟨hne, hw, hfw⟩
  · rintro (⟨rfl, rfl⟩ | ⟨hne, hw, hfw⟩)
    · exact ⟨.inl ⟨rfl, rfl⟩, hf⟩
    · exact ⟨.inr ⟨hne, hw⟩, hfw⟩

theorem filter_insert_of_neg (hf : f k v = false) :
    (m.insert k v).filter f = (m.filter f).erase k := by
  apply Std.ExtTreeMap.ext_getElem?
  intro a
  apply Option.ext
  intro w
  rw [getElem?_filter_eq_some_iff, getElem?_insert_eq_some_iff, getElem?_erase_eq_some_iff,
    getElem?_filter_eq_some_iff]
  constructor
  · rintro ⟨⟨rfl, rfl⟩ | ⟨hne, hw⟩, hfw⟩
    · rw [hf] at hfw
      cases hfw
    · exact ⟨hne, hw, hfw⟩
  · rintro ⟨hne, hw, hfw⟩
    exact ⟨.inr ⟨hne, hw⟩, hfw⟩

theorem countEntries_erase_le : countEntries (m.erase k) f ≤ countEntries m f := by
  rw [countEntries, filter_erase]
  exact Std.ExtTreeMap.size_erase_le

/-- Taking out an entry that counts. -/
theorem countEntries_erase_of_pos (hv : m[k]? = some v) (hf : f k v = true) :
    countEntries (m.erase k) f + 1 = countEntries m f := by
  have hmem : k ∈ m.filter f := mem_of_getElem? (getElem?_filter_eq_some_iff.mpr ⟨hv, hf⟩)
  have hpos : (m.filter f).size ≠ 0 := by
    intro h
    rw [← Std.ExtTreeMap.eq_empty_iff_size_eq_zero] at h
    rw [h] at hmem
    exact Std.ExtTreeMap.not_mem_empty hmem
  rw [countEntries, countEntries, filter_erase, Std.ExtTreeMap.size_erase,
    if_pos (Std.ExtTreeMap.mem_iff_contains.mp hmem)]
  omega

theorem countEntries_insert_le : countEntries (m.insert k v) f ≤ countEntries m f + 1 := by
  rw [countEntries]
  cases hf : f k v with
  | true =>
    rw [filter_insert_of_pos hf]
    exact Std.ExtTreeMap.size_insert_le
  | false =>
    rw [filter_insert_of_neg hf]
    exact Nat.le_succ_of_le Std.ExtTreeMap.size_erase_le

theorem countEntries_insert_of_neg (hf : f k v = false) :
    countEntries (m.insert k v) f ≤ countEntries m f := by
  rw [countEntries, filter_insert_of_neg hf]
  exact Std.ExtTreeMap.size_erase_le

/-- Replacing an entry by one that counts only if it did. -/
theorem countEntries_replace_le {w : β} (hw : m[k]? = some w) (hf : f k v = f k w) :
    countEntries (m.insert k v) f ≤ countEntries m f := by
  cases hfv : f k v with
  | false => exact countEntries_insert_of_neg hfv
  | true =>
    have hmem : k ∈ m.filter f :=
      mem_of_getElem? (getElem?_filter_eq_some_iff.mpr ⟨hw, hf ▸ hfv⟩)
    rw [countEntries, filter_insert_of_pos hfv, Std.ExtTreeMap.size_insert,
      if_pos (Std.ExtTreeMap.mem_iff_contains.mp hmem)]
    exact Nat.le_refl _

theorem countEntries_eq_zero (h : ∀ k v, m[k]? = some v → f k v = false) :
    countEntries m f = 0 := by
  rw [countEntries, ← Std.ExtTreeMap.eq_empty_iff_size_eq_zero]
  apply Std.ExtTreeMap.ext_getElem?
  intro a
  apply Option.ext
  intro w
  rw [getElem?_filter_eq_some_iff]
  simp only [Std.ExtTreeMap.getElem?_empty, reduceCtorEq, iff_false, not_and]
  intro hw
  rw [h a w hw]
  exact Bool.false_ne_true

theorem countEntries_filter_le : countEntries (m.filter g) f ≤ countEntries m f := by
  have hswap : (m.filter g).filter f = (m.filter f).filter g := by
    apply Std.ExtTreeMap.ext_getElem?
    intro a
    apply Option.ext
    intro w
    simp only [getElem?_filter_eq_some_iff]
    exact and_right_comm
  rw [countEntries, hswap]
  exact Std.ExtTreeMap.size_filter_le_size

/-- No entry passes a test that `anyEntry` rejects. -/
theorem countEntries_eq_zero_of_anyEntry (h : anyEntry m f = false) : countEntries m f = 0 := by
  apply countEntries_eq_zero
  intro k v hv
  have hmem : (k, v) ∈ m.toList := Std.ExtTreeMap.mem_toList_iff_getElem?_eq_some.mpr hv
  rw [anyEntry, List.any_eq_false] at h
  exact Bool.not_eq_true _ ▸ h (k, v) hmem

theorem anyEntry_eq_false_of_countEntries (h : countEntries m f = 0) : anyEntry m f = false := by
  rw [countEntries, ← Std.ExtTreeMap.eq_empty_iff_size_eq_zero] at h
  rw [anyEntry, List.any_eq_false]
  intro entry hmem hf
  have hv := Std.ExtTreeMap.mem_toList_iff_getElem?_eq_some.mp hmem
  have hkept := getElem?_filter_eq_some_iff.mpr ⟨hv, hf⟩
  rw [h, Std.ExtTreeMap.getElem?_empty] at hkept
  cases hkept

end BTreeMap

namespace BTreeSet

variable {α : Type} [Ord α] [Std.TransOrd α] [Std.LawfulEqOrd α] {t : BTreeSet α} {a k : α}

theorem mem_insert_iff : a ∈ t.insert k ↔ a = k ∨ a ∈ t := by
  rw [Std.ExtTreeSet.mem_insert, Std.compare_eq_iff_eq, eq_comm]

theorem mem_erase_iff : a ∈ t.erase k ↔ a ≠ k ∧ a ∈ t := by
  rw [Std.ExtTreeSet.mem_erase, ne_eq, Std.compare_eq_iff_eq, eq_comm]

/-- Replaces a member, if it is one, by another. -/
def rekey (t : BTreeSet α) (old new : α) : BTreeSet α :=
  if t.contains old then (t.erase old).insert new else t

theorem not_mem_rekey {old new : α} (h : new ≠ old) : old ∉ t.rekey old new := by
  unfold rekey
  split
  · intro hmem
    rcases mem_insert_iff.mp hmem with heq | hmem
    · exact h heq.symm
    · exact (mem_erase_iff.mp hmem).1 rfl
  · next hnot => exact fun hmem => hnot (Std.ExtTreeSet.contains_iff_mem.mpr hmem)

theorem mem_rekey {old new : α} (h : old ∈ t) : new ∈ t.rekey old new := by
  rw [rekey, if_pos (Std.ExtTreeSet.contains_iff_mem.mpr h)]
  exact mem_insert_iff.mpr (.inl rfl)

end BTreeSet
