import Mathlib.Data.List.Basic

/-!
# Streams that arrive in pieces

A machine is fed a stream in pieces and polled for its outputs in between. Whether the pieces
matter is a question about a view of its states: if feeding acts on the view as appending to the
stream does, and polling does not show in it, then the view after any run is the view after the
whole stream in one piece.
-/

namespace Chunking

variable {σ ω β : Type}

/-- What a driver does with a machine that reads a stream. -/
inductive Op (β : Type)
  | feed (piece : List β)
  | poll
deriving DecidableEq, Repr

/-- The stream that was fed. -/
def fed : List (Op β) → List β
  | [] => []
  | .feed piece :: ops => piece ++ fed ops
  | .poll :: ops => fed ops

/-- The pieces in which it was fed. -/
def pieces : List (Op β) → List (List β)
  | [] => []
  | .feed piece :: ops => piece :: pieces ops
  | .poll :: ops => pieces ops

/-- The pieces make up what was fed. -/
theorem flatten_pieces (ops : List (Op β)) : (pieces ops).flatten = fed ops := by
  fun_induction pieces ops with
  | case1 => rfl
  | case2 piece ops ih => rw [List.flatten_cons, ih, fed]
  | case3 ops ih => rw [ih, fed]

/-- Every way to cut a stream is one to feed it. -/
theorem pieces_map_feed (cut : List (List β)) : pieces (cut.map .feed) = cut := by
  induction cut with
  | nil => rfl
  | cons piece cut ih => exact congrArg (piece :: ·) ih

/-- One operation. -/
def apply (feed : σ → List β → σ) (poll : σ → σ) (s : σ) : Op β → σ
  | .feed piece => feed s piece
  | .poll => poll s

/-- The state after some operations, the first one first. -/
def run (feed : σ → List β → σ) (poll : σ → σ) (s : σ) (ops : List (Op β)) : σ :=
  ops.foldl (apply feed poll) s

/-- A relation that feeding and polling keep, when the value is acted on piece by piece, is kept by
a run. -/
theorem run_simulates {feed : σ → List β → σ} {poll : σ → σ} {act : ω → List β → ω}
    {R : σ → ω → Prop} (hfeed : ∀ s v piece, R s v → R (feed s piece) (act v piece))
    (hpoll : ∀ s v, R s v → R (poll s) v) {s : σ} {v : ω} (h : R s v) (ops : List (Op β)) :
    R (run feed poll s ops) ((pieces ops).foldl act v) := by
  induction ops generalizing s v with
  | nil => exact h
  | cons op ops ih =>
    cases op with
    | feed piece => exact ih (hfeed s v piece h)
    | poll => exact ih (hpoll s v h)

/-- A relation between the states and what was fed so far, which feeding keeps within a stream, is
kept by a run over that stream. -/
theorem run_within {feed : σ → List β → σ} {poll : σ → σ} {R : σ → List β → Prop} {stream : List β}
    (hfeed : ∀ s got piece, R s got → got ++ piece <+: stream → R (feed s piece) (got ++ piece))
    (hpoll : ∀ s got, R s got → R (poll s) got) {s : σ} {got : List β} (h : R s got)
    (ops : List (Op β)) (hops : got ++ fed ops <+: stream) :
    R (run feed poll s ops) (got ++ fed ops) := by
  induction ops generalizing s got with
  | nil =>
    rw [fed, List.append_nil]
    exact h
  | cons op ops ih =>
    cases op with
    | feed piece =>
      rw [fed, ← List.append_assoc] at hops ⊢
      have hpiece : got ++ piece <+: stream := (List.prefix_append _ _).trans hops
      exact ih (hfeed s got piece h hpiece) hops
    | poll => exact ih (hpoll s got h) hops

/-- Streams act on the values with `I`: the empty one does nothing, and two in a row do what their
concatenation does. -/
structure Acts (I : ω → Prop) (act : ω → List β → ω) : Prop where
  keeps {v : ω} (h : I v) (piece : List β) : I (act v piece)
  nil {v : ω} (h : I v) : act v [] = v
  append {v : ω} (h : I v) (first second : List β) :
    act (act v first) second = act v (first ++ second)

/-- The view is one on which streams act: `J` is what the machine keeps, feeding acts on the view
and polling leaves it as it is. -/
structure Views (J : σ → Prop) (I : ω → Prop) (act : ω → List β → ω) (feed : σ → List β → σ)
    (poll : σ → σ) (view : σ → ω) : Prop where
  valid {s : σ} (h : J s) : I (view s)
  keeps_feed {s : σ} (h : J s) (piece : List β) : J (feed s piece)
  keeps_poll {s : σ} (h : J s) : J (poll s)
  view_feed {s : σ} (h : J s) (piece : List β) : view (feed s piece) = act (view s) piece
  view_poll {s : σ} (h : J s) : view (poll s) = view s

variable {J : σ → Prop} {I : ω → Prop} {act : ω → List β → ω} {feed : σ → List β → σ}
  {poll : σ → σ} {view : σ → ω}

/-- However the stream is cut and wherever the machine is polled, the view is that of the whole
stream fed at once. -/
theorem Views.run_eq (hview : Views J I act feed poll view) (hact : Acts I act) {s : σ} (h : J s)
    (ops : List (Op β)) : view (run feed poll s ops) = act (view s) (fed ops) := by
  induction ops generalizing s with
  | nil => exact (hact.nil (hview.valid h)).symm
  | cons op ops ih =>
    cases op with
    | feed piece =>
      have hrest := ih (hview.keeps_feed h piece)
      rw [hview.view_feed h, hact.append (hview.valid h)] at hrest
      exact hrest
    | poll =>
      have hrest := ih (hview.keeps_poll h)
      rw [hview.view_poll h] at hrest
      exact hrest

/-! ## Parts of a stream -/

/-- What has come of a stream ends in its first part or behind it. -/
theorem prefix_cases {part front behind : List β} (h : part <+: front ++ behind) :
    (∃ rest, rest ≠ [] ∧ part ++ rest = front) ∨
      ∃ more, part = front ++ more ∧ more <+: behind := by
  by_cases hlen : part.length < front.length
  · obtain ⟨rest, hrest⟩ :=
      List.prefix_of_prefix_length_le h (List.prefix_append front behind) (by omega)
    refine .inl ⟨rest, ?_, hrest⟩
    intro hnil
    rw [hnil, List.append_nil] at hrest
    rw [hrest] at hlen
    exact Nat.lt_irrefl _ hlen
  · obtain ⟨more, rfl⟩ :=
      List.prefix_of_prefix_length_le (List.prefix_append front behind) h (by omega)
    exact .inr ⟨more, rfl, (List.prefix_append_right_inj front).mp h⟩

/-- What is not all there does not start with all of it. -/
theorem not_prefix_of_part {part rest front : List β} (hrest : rest ≠ [])
    (h : part ++ rest = front) : ¬ front <+: part := by
  intro hfront
  have hle := hfront.length_le
  have hpos := List.length_pos_iff.mpr hrest
  rw [← h, List.length_append] at hle
  omega

end Chunking
