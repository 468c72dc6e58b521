import Mathlib.Algebra.Ring.Nat
import Mathlib.Data.List.Basic

/-!
# Inputs made of records

An input that is a sequence of records, each of which says where it ends (`SelfDelimiting`), is one
in a single way. A decoder takes the records one by one: each acts on what has been read so far, or
is refused. `Decodes` says what comes of an input, and `Loop.decodes_iff` that a loop over the
positions of its input computes it. What the decoder makes of two inputs one behind the other, of a
record more and of another record follows from what a single record does.
-/

namespace Records

variable {β R σ : Type} {encode : R → List β} {act : σ → R → Option σ}

/-- What follows a record does not change where it ends. -/
structure SelfDelimiting (encode : R → List β) : Prop where
  ne_nil (r : R) : encode r ≠ []
  eq_of_append {r r' : R} {rest rest' : List β} (h : encode r ++ rest = encode r' ++ rest') : r = r'

/-- The records that `input` consists of turn `s` into `s'`. -/
def Decodes (encode : R → List β) (act : σ → R → Option σ) (input : List β) (s s' : σ) : Prop :=
  ∃ rs : List R, input = rs.flatMap encode ∧ rs.foldlM act s = some s'

/-- If the first records of an input are known, the others are what is behind them. -/
theorem SelfDelimiting.exists_append (hself : SelfDelimiting encode) {rs rs' : List R}
    {rest : List β} (h : rs.flatMap encode ++ rest = rs'.flatMap encode) :
    ∃ more, rs' = rs ++ more ∧ rest = more.flatMap encode := by
  induction rs generalizing rs' with
  | nil => exact ⟨rs', rfl, h⟩
  | cons r rs ih =>
    cases rs' with
    | nil =>
      obtain ⟨hnil, -⟩ := List.append_eq_nil_iff.mp h
      exact absurd (List.append_eq_nil_iff.mp hnil).1 (hself.ne_nil r)
    | cons r' rs' =>
      rw [List.flatMap_cons, List.flatMap_cons, List.append_assoc] at h
      obtain rfl := hself.eq_of_append h
      obtain ⟨more, rfl, hrest⟩ := ih (List.append_cancel_left h)
      exact ⟨more, rfl, hrest⟩

variable {before : List R} {r : R} {a b : List β} {s s₁ s' : σ}

/-! ## One input behind another -/

/-- Records in front are done first. -/
theorem decodes_flatMap_append_iff (hself : SelfDelimiting encode) :
    Decodes encode act (before.flatMap encode ++ b) s s' ↔
      ∃ s₁, before.foldlM act s = some s₁ ∧ Decodes encode act b s₁ s' := by
  constructor
  · rintro ⟨rs, hinput, hfold⟩
    obtain ⟨more, rfl, hb⟩ := hself.exists_append hinput
    rw [List.foldlM_append] at hfold
    obtain ⟨s₁, hbefore, hmore⟩ := Option.bind_eq_some_iff.mp hfold
    exact ⟨s₁, hbefore, more, hb, hmore⟩
  · rintro ⟨s₁, hbefore, more, rfl, hmore⟩
    refine ⟨before ++ more, List.flatMap_append.symm, ?_⟩
    rw [List.foldlM_append, hbefore]
    exact hmore

/-- Without records nothing happens. -/
theorem decodes_nil_iff (hself : SelfDelimiting encode) : Decodes encode act [] s s' ↔ s = s' := by
  constructor
  · rintro ⟨rs, hinput, hfold⟩
    cases rs with
    | nil => exact Option.some.inj hfold
    | cons r rs =>
      rw [List.flatMap_cons] at hinput
      exact absurd (List.append_eq_nil_iff.mp hinput.symm).1 (hself.ne_nil r)
  · rintro rfl
    exact ⟨[], rfl, rfl⟩

/-- The first record is done first. -/
theorem decodes_cons_iff (hself : SelfDelimiting encode) :
    Decodes encode act (encode r ++ b) s s' ↔
      ∃ s₁, act s r = some s₁ ∧ Decodes encode act b s₁ s' := by
  have hone : encode r = [r].flatMap encode := by
    rw [List.flatMap_singleton]
  have hfold : [r].foldlM act s = act s r := by
    rw [List.foldlM_cons]
    exact bind_pure (act s r)
  rw [hone, decodes_flatMap_append_iff hself, hfold]

/-- Behind an input that was decoded the decoder goes on with what it has read. -/
theorem Decodes.append_iff (hself : SelfDelimiting encode) (h : Decodes encode act a s s₁) :
    Decodes encode act (a ++ b) s s' ↔ Decodes encode act b s₁ s' := by
  obtain ⟨rs, rfl, hfold⟩ := h
  rw [decodes_flatMap_append_iff hself]
  constructor
  · rintro ⟨s₂, hfold', hb⟩
    obtain rfl := Option.some.inj (hfold.symm.trans hfold')
    exact hb
  · exact fun hb => ⟨s₁, hfold, hb⟩

/-- A change to what has been read that no record notices. -/
theorem decodes_map_iff {f : σ → σ} (hact : ∀ s r, act (f s) r = (act s r).map f) {z : σ} :
    Decodes encode act b (f s) z ↔ ∃ s', Decodes encode act b s s' ∧ z = f s' := by
  have hfold : ∀ (rs : List R) (s : σ), rs.foldlM act (f s) = (rs.foldlM act s).map f := by
    intro rs
    induction rs with
    | nil => exact fun s => rfl
    | cons r rs ih =>
      intro s
      rw [List.foldlM_cons, List.foldlM_cons, hact]
      cases act s r with
      | none => rfl
      | some s₁ => exact ih s₁
  constructor
  · rintro ⟨rs, hb, hrs⟩
    rw [hfold] at hrs
    obtain ⟨s', hs', rfl⟩ := Option.map_eq_some_iff.mp hrs
    exact ⟨s', ⟨rs, hb, hs'⟩, rfl⟩
  · rintro ⟨s', ⟨rs, hb, hrs⟩, rfl⟩
    refine ⟨rs, hb, ?_⟩
    rw [hfold, hrs]
    rfl

/-! ## One record more, and another one -/

/-- A record that does nothing may stand anywhere. -/
theorem decodes_insert_iff (hself : SelfDelimiting encode) (hskip : ∀ s, act s r = some s) :
    Decodes encode act (before.flatMap encode ++ (encode r ++ b)) s s' ↔
      Decodes encode act (before.flatMap encode ++ b) s s' := by
  have hcons : ∀ s₁, Decodes encode act (encode r ++ b) s₁ s' ↔ Decodes encode act b s₁ s' := by
    intro s₁
    rw [decodes_cons_iff hself]
    constructor
    · rintro ⟨s₂, hact, hb⟩
      obtain rfl := Option.some.inj ((hskip s₁).symm.trans hact)
      exact hb
    · exact fun hb => ⟨s₁, hskip s₁, hb⟩
  simp only [decodes_flatMap_append_iff hself, hcons]

/-- A record that is refused may stand nowhere. -/
theorem not_decodes_insert (hself : SelfDelimiting encode) (hrefuse : ∀ s, act s r = none) :
    ¬ Decodes encode act (before.flatMap encode ++ (encode r ++ b)) s s' := by
  simp only [decodes_flatMap_append_iff hself, decodes_cons_iff hself]
  rintro ⟨s₁, -, s₂, hact, -⟩
  rw [hrefuse] at hact
  cases hact

/-- A record in place of one that does nothing else. -/
theorem Decodes.replace (hself : SelfDelimiting encode) {r' : R}
    (hact : ∀ s s', act s r = some s' → act s r' = some s')
    (h : Decodes encode act (before.flatMap encode ++ (encode r ++ b)) s s') :
    Decodes encode act (before.flatMap encode ++ (encode r' ++ b)) s s' := by
  rw [decodes_flatMap_append_iff hself] at h ⊢
  obtain ⟨s₁, hbefore, hr⟩ := h
  obtain ⟨s₂, hs₂, hb⟩ := (decodes_cons_iff hself).mp hr
  exact ⟨s₁, hbefore, (decodes_cons_iff hself).mpr ⟨s₂, hact s₁ s₂ hs₂, hb⟩⟩

/-! ## The loop of a decoder -/

/-- `front` stands in the input between two positions. -/
structure Spans (input : List β) (idx : ℕ) (front : List β) (idx' : ℕ) : Prop where
  drop_eq : input.drop idx = front ++ input.drop idx'
  idx_eq : idx' = idx + front.length

variable {input front : List β} {idx idx' : ℕ}

/-- What stands at a place. -/
theorem spans_iff : Spans input idx front idx' ↔
    front <+: input.drop idx ∧ idx' = idx + front.length := by
  constructor
  · exact fun h => ⟨⟨_, h.drop_eq.symm⟩, h.idx_eq⟩
  · rintro ⟨⟨rest, hrest⟩, rfl⟩
    refine ⟨?_, rfl⟩
    rw [← List.drop_drop, ← hrest, List.drop_left]

/-- Two parts stand behind each other. -/
theorem spans_append_iff {back : List β} : Spans input idx (front ++ back) idx' ↔
    ∃ mid, Spans input idx front mid ∧ Spans input mid back idx' := by
  constructor
  · rintro ⟨hdrop, hidx⟩
    have hfront : Spans input idx front (idx + front.length) := by
      refine spans_iff.mpr ⟨?_, rfl⟩
      rw [hdrop, List.append_assoc]
      exact List.prefix_append _ _
    refine ⟨_, hfront, ⟨?_, ?_⟩⟩
    · rw [hfront.drop_eq, List.append_assoc] at hdrop
      exact List.append_cancel_left hdrop
    · rw [hidx, List.length_append, Nat.add_assoc]
  · rintro ⟨mid, hfront, hback⟩
    refine ⟨?_, ?_⟩
    · rw [hfront.drop_eq, hback.drop_eq, List.append_assoc]
    · rw [hback.idx_eq, hfront.idx_eq, List.length_append, Nat.add_assoc]

/-- One element stands at a place. -/
theorem spans_singleton_iff {b : β} :
    Spans input idx [b] idx' ↔ input[idx]? = some b ∧ idx' = idx + 1 := by
  rw [spans_iff, List.length_singleton, ← List.head?_drop]
  refine and_congr_left' ?_
  cases input.drop idx with
  | nil => exact iff_of_false (fun h => by cases List.prefix_nil.mp h) (fun h => by cases h)
  | cons b' rest =>
    rw [List.cons_prefix_cons, and_iff_left (List.nil_prefix), List.head?_cons, Option.some.injEq,
      eq_comm]

/-- What stands in the input ends in it. -/
theorem Spans.le_length (h : Spans input idx front idx') (hidx : idx ≤ input.length) :
    idx' ≤ input.length := by
  have hlen := congrArg List.length h.drop_eq
  rw [List.length_drop, List.length_append, List.length_drop] at hlen
  have hidx' := h.idx_eq
  omega

/-- A loop with fuel that reads a record a turn; `ends fuel s idx s'` says that from `idx` on it
returns `s'`. -/
structure Loop (encode : R → List β) (act : σ → R → Option σ) (input : List β)
    (ends : ℕ → σ → ℕ → σ → Prop) : Prop where
  finish {fuel : ℕ} {s s' : σ} {idx : ℕ} (h : input.length ≤ idx) : ends fuel s idx s' ↔ s = s'
  turn {fuel : ℕ} {s s' : σ} {idx : ℕ} (h : idx < input.length) :
    ends (fuel + 1) s idx s' ↔ ∃ r idx' s₁, Spans input idx (encode r) idx' ∧
      act s r = some s₁ ∧ ends fuel s₁ idx' s'

/-- Every turn takes the bytes of a record, so as much fuel as there are bytes is enough. -/
theorem Loop.decodes_iff {ends : ℕ → σ → ℕ → σ → Prop} (hself : SelfDelimiting encode)
    (h : Loop encode act input ends) {fuel : ℕ} (hfuel : input.length ≤ idx + fuel) :
    ends fuel s idx s' ↔ Decodes encode act (input.drop idx) s s' := by
  induction fuel generalizing idx s with
  | zero =>
    have hend : input.length ≤ idx := by omega
    rw [h.finish hend, List.drop_eq_nil_of_le hend, decodes_nil_iff hself]
  | succ fuel ih =>
    by_cases hend : input.length ≤ idx
    · rw [h.finish hend, List.drop_eq_nil_of_le hend, decodes_nil_iff hself]
    have hstep : ∀ {r idx'}, Spans input idx (encode r) idx' → input.length ≤ idx' + fuel := by
      intro r idx' hspans
      have hpos := List.length_pos_iff.mpr (hself.ne_nil r)
      have hidx' := hspans.idx_eq
      omega
    rw [h.turn (Nat.lt_of_not_le hend)]
    constructor
    · rintro ⟨r, idx', s₁, hspans, hact, hrest⟩
      rw [hspans.drop_eq, decodes_cons_iff hself]
      exact ⟨s₁, hact, (ih (hstep hspans)).mp hrest⟩
    · intro hdecodes
      obtain ⟨rs, hrs, -⟩ := id hdecodes
      cases rs with
      | nil => exact absurd (List.drop_eq_nil_iff.mp hrs) hend
      | cons r rs =>
        rw [List.flatMap_cons] at hrs
        have hspans : Spans input idx (encode r) (idx + (encode r).length) :=
          spans_iff.mpr ⟨⟨_, hrs.symm⟩, rfl⟩
        rw [hspans.drop_eq, decodes_cons_iff hself] at hdecodes
        obtain ⟨s₁, hact, hrest⟩ := hdecodes
        exact ⟨r, _, s₁, hspans, hact, (ih (hstep hspans)).mpr hrest⟩

end Records
