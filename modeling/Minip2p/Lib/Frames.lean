import Mathlib.Data.List.Basic

/-!
# Readers that take one frame a call

A reader is fed a stream of frames in pieces. With each piece it looks at the front of its buffer
once: if a frame is complete there it is taken, and its payload skipped, or it ends the reader. The
frames behind a skipped one wait for the next piece, so what such a reader finds depends on how the
stream is cut exactly if the payload that answers it comes behind skipped ones
(`Framing.same_iff`).
-/

/-- Frames, and how one is taken off the front of a buffer. -/
structure Framing (β φ : Type) where
  frame : φ → List β
  next : List β → Option (φ × List β)

namespace Framing

variable {β φ α : Type}

/-- What a payload does to a reader. -/
inductive Verdict (α : Type)
  | skipped
  | ended
  | found (answer : α)

/-- The end of a reader, with its answer. -/
inductive State (β α : Type)
  | waiting (buf : List β)
  | settled (answer : Option α)

/-- The answer, if there is one. -/
def State.answer : State β α → Option α
  | .waiting _ => none
  | .settled answer => answer

/-- Within the limit, a frame is found as soon as it is complete, with whatever follows it. -/
structure Exact (framing : Framing β φ) (limit : ℕ) : Prop where
  nil : framing.next [] = none
  part (payload : φ) {n : ℕ} (hlen : (framing.frame payload).length ≤ limit)
    (hn : n < (framing.frame payload).length) :
    framing.next ((framing.frame payload).take n) = none
  whole (payload : φ) {rest : List β} (hlen : (framing.frame payload ++ rest).length ≤ limit) :
    framing.next (framing.frame payload ++ rest) = some (payload, rest)

variable (framing : Framing β φ) (verdict : φ → Verdict α)

/-- The frames of some payloads. -/
def stream (payloads : List φ) : List β := payloads.flatMap framing.frame

/-- Takes frames off the front of the buffer as long as one is complete there. -/
def takeAll : ℕ → List β → List φ × List β
  | 0, buf => ([], buf)
  | fuel + 1, buf =>
    match framing.next buf with
    | none => ([], buf)
    | some (payload, rest) => ((takeAll fuel rest).1.cons payload, (takeAll fuel rest).2)

/-- One look at the front of the buffer. -/
def look (buf : List β) : State β α :=
  match framing.next buf with
  | none => .waiting buf
  | some (payload, rest) =>
    match verdict payload with
    | .skipped => .waiting rest
    | .ended => .settled none
    | .found answer => .settled (some answer)

/-- More of the stream. -/
def feed : State β α → List β → State β α
  | .waiting buf, piece => framing.look verdict (buf ++ piece)
  | .settled answer, _ => .settled answer

/-- The pieces of a stream. -/
def run (pieces : List (List β)) : State β α := pieces.foldl (framing.feed verdict) (.waiting [])

/-- The payload that answers comes behind skipped ones. -/
def Late (payloads : List φ) : Prop :=
  ∃ skipped payload rest answer, payloads = skipped ++ payload :: rest ∧ skipped ≠ [] ∧
    (∀ p ∈ skipped, verdict p = .skipped) ∧ verdict payload = .found answer

/-- What a reader has come to of a part of the stream. -/
inductive Stands (payloads : List φ) (got : List β) : State β α → Prop
  /-- The payloads taken so far were skipped; an untouched buffer holds no complete frame. -/
  | waiting {taken rest : List φ} {buf : List β} (hpayloads : payloads = taken ++ rest)
    (htaken : ∀ p ∈ taken, verdict p = .skipped) (hgot : framing.stream taken ++ buf = got)
    (hfirst : taken = [] → framing.next buf = none) : Stands payloads got (.waiting buf)
  | ended {taken rest : List φ} {payload : φ} (hpayloads : payloads = taken ++ payload :: rest)
    (htaken : ∀ p ∈ taken, verdict p = .skipped) (hverdict : verdict payload = .ended) :
    Stands payloads got (.settled none)
  | found {taken rest : List φ} {payload : φ} {answer : α}
    (hpayloads : payloads = taken ++ payload :: rest) (htaken : ∀ p ∈ taken, verdict p = .skipped)
    (hverdict : verdict payload = .found answer) : Stands payloads got (.settled (some answer))

variable {framing verdict} {limit : ℕ} {payloads : List φ} {got piece : List β} {state : State β α}

/-- The stream of some payloads, and of more. -/
theorem stream_append (first second : List φ) :
    framing.stream (first ++ second) = framing.stream first ++ framing.stream second :=
  List.flatMap_append

theorem stream_cons (payload : φ) (rest : List φ) :
    framing.stream (payload :: rest) = framing.frame payload ++ framing.stream rest :=
  List.flatMap_cons

/-- Of frames that are found whatever follows them, all are taken. -/
theorem takeAll_stream {rest : List β} {fuel : ℕ} (hfuel : payloads.length < fuel)
    (hwhole : ∀ payload ∈ payloads, ∀ behind,
      framing.next (framing.frame payload ++ behind) = some (payload, behind))
    (hrest : framing.next rest = none) :
    framing.takeAll fuel (framing.stream payloads ++ rest) = (payloads, rest) := by
  induction payloads generalizing fuel with
  | nil =>
    obtain ⟨fuel, rfl⟩ := Nat.exists_eq_succ_of_ne_zero (Nat.ne_of_gt hfuel)
    rw [takeAll, stream, List.flatMap_nil, List.nil_append, hrest]
  | cons payload payloads ih =>
    obtain ⟨fuel, rfl⟩ := Nat.exists_eq_succ_of_ne_zero (Nat.ne_of_gt (Nat.zero_lt_of_lt hfuel))
    obtain ⟨hfirst, hwhole⟩ := List.forall_mem_cons.mp hwhole
    rw [takeAll, stream_cons, List.append_assoc, hfirst]
    dsimp only
    rw [ih (Nat.lt_of_succ_lt_succ hfuel) hwhole]

/-- A part of the stream begins with the first frame, or is a part of it. -/
theorem next_prefix (hexact : framing.Exact limit) (hlen : (framing.stream payloads).length ≤ limit)
    {buf : List β} (hbuf : buf <+: framing.stream payloads) :
    framing.next buf = none ∨ ∃ payload rest behind, payloads = payload :: rest ∧
      buf = framing.frame payload ++ behind ∧ framing.next buf = some (payload, behind) := by
  cases payloads with
  | nil =>
    obtain rfl := List.prefix_nil.mp hbuf
    exact .inl hexact.nil
  | cons payload rest =>
    rw [stream_cons] at hbuf hlen
    have hshort := hbuf.length_le
    by_cases hcut : buf.length < (framing.frame payload).length
    · have hpart : buf = (framing.frame payload).take buf.length := by
        rw [← List.take_append_of_le_length (Nat.le_of_lt hcut)]
        exact List.prefix_iff_eq_take.mp hbuf
      rw [List.length_append] at hlen
      refine .inl ?_
      rw [hpart]
      exact hexact.part payload (by omega) hcut
    · obtain ⟨behind, rfl⟩ := List.prefix_of_prefix_length_le (List.prefix_append _ _) hbuf
        (Nat.le_of_not_lt hcut)
      refine .inr ⟨payload, rest, behind, rfl, rfl, hexact.whole payload ?_⟩
      exact Nat.le_trans hshort hlen

/-- Nothing was fed. -/
theorem stands_nil (hexact : framing.Exact limit) :
    Stands framing verdict payloads [] (.waiting []) :=
  .waiting (List.nil_append payloads).symm (fun _ h => absurd h List.not_mem_nil) rfl
    fun _ => hexact.nil

/-- A piece of the stream. -/
theorem Stands.feed (hexact : framing.Exact limit)
    (hlen : (framing.stream payloads).length ≤ limit)
    (h : Stands framing verdict payloads got state)
    (hpiece : got ++ piece <+: framing.stream payloads) :
    Stands framing verdict payloads (got ++ piece) (framing.feed verdict state piece) := by
  cases h with
  | ended hpayloads htaken hverdict => exact .ended hpayloads htaken hverdict
  | found hpayloads htaken hverdict => exact .found hpayloads htaken hverdict
  | @waiting taken rest buf hpayloads htaken hgot hfirst =>
    subst hpayloads hgot
    rw [List.append_assoc, stream_append] at hpiece
    have hbuf : buf ++ piece <+: framing.stream rest := (List.prefix_append_right_inj _).mp hpiece
    rw [stream_append, List.length_append] at hlen
    show Stands framing verdict _ _ (framing.look verdict (buf ++ piece))
    rw [look]
    obtain hnone | ⟨payload, more, behind, rfl, hframe, hsome⟩ := next_prefix hexact (by omega) hbuf
    · rw [hnone]
      exact .waiting rfl htaken (List.append_assoc _ _ _).symm fun _ => hnone
    · rw [hsome]
      dsimp only
      cases hverdict : verdict payload with
      | skipped =>
        have htaken' : ∀ p ∈ taken ++ [payload], verdict p = .skipped := by
          intro p hp
          rcases List.mem_append.mp hp with hp | hp
          · exact htaken p hp
          · rwa [List.mem_singleton.mp hp]
        refine .waiting (List.append_cons taken payload more) htaken' ?_ fun h => ?_
        · rw [stream_append, stream_cons, List.append_assoc, List.append_assoc, List.append_assoc,
            hframe]
          rfl
        · exact absurd h (List.append_ne_nil_of_right_ne_nil _ (List.cons_ne_nil _ _))
      | ended => exact .ended rfl htaken hverdict
      | found answer => exact .found rfl htaken hverdict

/-- The pieces of the stream, one after the other. -/
theorem stands_run (hexact : framing.Exact limit) (hlen : (framing.stream payloads).length ≤ limit)
    {pieces : List (List β)} (hpieces : pieces.flatten = framing.stream payloads) :
    Stands framing verdict payloads (framing.stream payloads) (framing.run verdict pieces) := by
  suffices hfrom : ∀ (got : List β) (state : State β α), Stands framing verdict payloads got state →
      got ++ pieces.flatten = framing.stream payloads →
      Stands framing verdict payloads (framing.stream payloads)
        (pieces.foldl (framing.feed verdict) state) from
    hfrom [] _ (stands_nil hexact) hpieces
  clear hpieces
  induction pieces with
  | nil =>
    intro got state h hgot
    rw [List.flatten_nil, List.append_nil] at hgot
    rwa [← hgot]
  | cons piece pieces ih =>
    intro got state h hgot
    rw [List.flatten_cons, ← List.append_assoc] at hgot
    exact ih _ _ (h.feed hexact hlen ⟨_, hgot⟩) hgot

/-- What answers at once. -/
def early (verdict : φ → Verdict α) : List φ → Option α
  | [] => none
  | payload :: _ =>
    match verdict payload with
    | .found answer => some answer
    | .skipped | .ended => none

/-- No answer is early behind payloads that are skipped. -/
theorem early_eq_none {taken rest : List φ} {payload : φ}
    (htaken : ∀ p ∈ taken, verdict p = .skipped)
    (hverdict : ∀ answer, verdict payload ≠ .found answer) :
    early verdict (taken ++ payload :: rest) = none := by
  cases taken with
  | nil =>
    rw [List.nil_append, early]
    split
    · next answer h => exact absurd h (hverdict answer)
    · rfl
    · rfl
  | cons first taken => rw [List.cons_append, early, htaken first List.mem_cons_self]

/-- Unless the answer comes late, it comes at once or not at all. -/
theorem Stands.answer_eq (hexact : framing.Exact limit)
    (hlen : (framing.stream payloads).length ≤ limit)
    (h : Stands framing verdict payloads (framing.stream payloads) state)
    (hlate : ¬ Late verdict payloads) : state.answer = early verdict payloads := by
  cases h with
  | @waiting taken rest buf hpayloads htaken hgot hfirst =>
    cases payloads with
    | nil => rfl
    | cons payload more =>
      cases taken with
      | nil =>
        -- the first frame would have been found
        obtain rfl : buf = framing.stream (payload :: more) := hgot
        rw [stream_cons] at hlen hfirst
        rw [hexact.whole payload hlen] at hfirst
        cases hfirst rfl
      | cons first taken =>
        obtain ⟨rfl, -⟩ := List.cons.inj hpayloads
        rw [early, htaken payload List.mem_cons_self]
        rfl
  | @ended taken rest payload hpayloads htaken hverdict =>
    rw [hpayloads, early_eq_none htaken fun answer => by rw [hverdict]; rintro ⟨⟩]
    rfl
  | @found taken rest payload answer hpayloads htaken hverdict =>
    cases taken with
    | nil =>
      rw [hpayloads, List.nil_append, early, hverdict]
      rfl
    | cons first taken =>
      exact absurd ⟨_, _, _, _, hpayloads, List.cons_ne_nil _ _, htaken, hverdict⟩ hlate

/-- Fed in one piece, the stream of a late answer is not answered. -/
theorem run_whole (hexact : framing.Exact limit) (hlen : (framing.stream payloads).length ≤ limit)
    (hlate : Late verdict payloads) :
    (framing.run verdict [framing.stream payloads]).answer = none := by
  obtain ⟨skipped, payload, rest, answer, rfl, hskipped, hall, -⟩ := hlate
  cases skipped with
  | nil => exact absurd rfl hskipped
  | cons first skipped =>
    rw [List.cons_append, stream_cons] at hlen ⊢
    show (framing.look verdict ([] ++ _)).answer = none
    rw [List.nil_append, look, hexact.whole first hlen]
    simp only [hall first List.mem_cons_self]
    rfl

/-- A frame of the stream is read at its front. -/
theorem next_frame (hexact : framing.Exact limit) (hlen : (framing.stream payloads).length ≤ limit)
    {payload : φ} (hmem : payload ∈ payloads) :
    framing.next (framing.frame payload) = some (payload, []) := by
  obtain ⟨before, after, rfl⟩ := List.append_of_mem hmem
  rw [stream_append, stream_cons, List.length_append, List.length_append] at hlen
  have hwhole := hexact.whole payload (by rw [List.append_nil]; omega : (_ ++ []).length ≤ limit)
  rwa [List.append_nil] at hwhole

/-- Whole frames that are skipped leave nothing behind. -/
theorem foldl_skipped {skipped : List φ}
    (hnext : ∀ p ∈ skipped, framing.next (framing.frame p) = some (p, []))
    (hskipped : ∀ p ∈ skipped, verdict p = .skipped) :
    (skipped.map framing.frame).foldl (framing.feed verdict) (.waiting []) = .waiting [] := by
  induction skipped with
  | nil => rfl
  | cons first skipped ih =>
    obtain ⟨hfirst, hnext⟩ := List.forall_mem_cons.mp hnext
    obtain ⟨hverdict, hskipped⟩ := List.forall_mem_cons.mp hskipped
    have hlook : framing.look verdict ([] ++ framing.frame first) = .waiting [] := by
      rw [List.nil_append, look, hfirst]
      simp only [hverdict]
    rw [List.map_cons, List.foldl_cons]
    show (skipped.map framing.frame).foldl _ (framing.look verdict _) = _
    rw [hlook]
    exact ih hnext hskipped

/-- After the answer nothing changes. -/
theorem foldl_over (answer : Option α) (pieces : List (List β)) :
    pieces.foldl (framing.feed verdict) (.settled answer) = .settled answer := by
  induction pieces with
  | nil => rfl
  | cons piece pieces ih => exact ih

/-- Fed frame by frame, it is. -/
theorem run_framewise (hexact : framing.Exact limit)
    (hlen : (framing.stream payloads).length ≤ limit) (hlate : Late verdict payloads) :
    (framing.run verdict (payloads.map framing.frame)).answer ≠ none := by
  have hnext : ∀ p ∈ payloads, framing.next (framing.frame p) = some (p, []) :=
    fun p hp => next_frame hexact hlen hp
  obtain ⟨skipped, payload, rest, answer, rfl, -, hall, hfound⟩ := hlate
  obtain ⟨hskipped, hrest⟩ := List.forall_mem_append.mp hnext
  have hlook : framing.look verdict ([] ++ framing.frame payload) = .settled (some answer) := by
    rw [List.nil_append, look, hrest payload List.mem_cons_self]
    simp only [hfound]
  rw [run, List.map_append, List.map_cons, List.foldl_append, foldl_skipped hskipped hall,
    List.foldl_cons]
  show (State.answer ((rest.map framing.frame).foldl _ (framing.look verdict _))) ≠ none
  rw [hlook, foldl_over]
  rintro ⟨⟩

/-- A stream is answered in the same way however it is cut if and only if its answer is not late. -/
theorem same_iff (hexact : framing.Exact limit) (hlen : (framing.stream payloads).length ≤ limit) :
    (∀ pieces₁ pieces₂ : List (List β), pieces₁.flatten = framing.stream payloads →
      pieces₂.flatten = framing.stream payloads →
        (framing.run verdict pieces₁).answer = (framing.run verdict pieces₂).answer) ↔
      ¬ Late verdict payloads := by
  constructor
  · intro hsame hlate
    have hframes : (payloads.map framing.frame).flatten = framing.stream payloads :=
      List.flatMap_def.symm
    have heq := hsame _ _ hframes (List.flatten_singleton)
    rw [run_whole hexact hlen hlate] at heq
    exact run_framewise hexact hlen hlate heq
  · intro hlate pieces₁ pieces₂ h₁ h₂
    rw [(stands_run hexact hlen h₁).answer_eq hexact hlen hlate,
      (stands_run hexact hlen h₂).answer_eq hexact hlen hlate]

end Framing
