import Mathlib.Data.List.Basic
import Mathlib.Data.List.Forall2

/-!
# FIFO channels

A channel keeps the order of what is sent and delivers any number of elements at a time, so what
was delivered is at every moment a beginning of what was sent. `Accounts` is the same for a queue
whose elements may change while they wait. `Side` names the two ends that a pair of channels joins.
-/

namespace Fifo

variable {β : Type}

/-- An end of a pair of channels. -/
inductive Side
  | left
  | right
deriving DecidableEq, Repr

namespace Side

/-- The end at the other side. -/
def other : Side → Side
  | left => right
  | right => left

/-- The other end is another one. -/
theorem other_ne (side : Side) : side.other ≠ side := by cases side <;> decide

/-- The other end of the other end. -/
@[simp] theorem other_other (side : Side) : side.other.other = side := by cases side <;> rfl

/-- There are two ends. -/
theorem eq_or_eq_other (side side' : Side) : side' = side ∨ side' = side.other := by
  cases side <;> cases side' <;> decide

end Side

/-- What was sent into a channel, cut where delivery has got to. -/
structure Channel (β : Type) where
  delivered : List β
  inFlight : List β
deriving DecidableEq, Repr

namespace Channel

/-- A channel nothing was sent into. -/
def empty : Channel β := ⟨[], []⟩

/-- Everything that was sent, in order. -/
def sent (channel : Channel β) : List β := channel.delivered ++ channel.inFlight

/-- The channel with more elements sent into it. -/
def send (channel : Channel β) (elements : List β) : Channel β :=
  { channel with inFlight := channel.inFlight ++ elements }

/-- The next `n` elements, or as many as there are. -/
def next (channel : Channel β) (n : Nat) : List β := channel.inFlight.take n

/-- The channel with the next `n` elements delivered. -/
def deliver (channel : Channel β) (n : Nat) : Channel β :=
  ⟨channel.delivered ++ channel.next n, channel.inFlight.drop n⟩

/-- What is sent later is sent behind. -/
@[simp] theorem sent_send (channel : Channel β) (elements : List β) :
    (channel.send elements).sent = channel.sent ++ elements := by
  simp only [sent, send, List.append_assoc]

@[simp] theorem delivered_send (channel : Channel β) (elements : List β) :
    (channel.send elements).delivered = channel.delivered := rfl

/-- Delivering sends nothing. -/
@[simp] theorem sent_deliver (channel : Channel β) (n : Nat) :
    (channel.deliver n).sent = channel.sent := by
  simp only [sent, deliver, next, List.append_assoc, List.take_append_drop]

/-- What was delivered is a beginning of what was sent. -/
theorem delivered_prefix (channel : Channel β) : channel.delivered <+: channel.sent :=
  List.prefix_append _ _

/-- Nothing is in flight: all that was sent is delivered. -/
theorem delivered_eq_sent {channel : Channel β} (h : channel.inFlight = []) :
    channel.delivered = channel.sent := by
  rw [sent, h, List.append_nil]

end Channel

/-- A beginning of two parts ends in the first or holds all of it. -/
theorem prefix_append_cases {part first second : List β} (h : part <+: first ++ second) :
    (∃ n, n < first.length ∧ part = first.take n) ∨
      ∃ more, part = first ++ more ∧ more <+: second := by
  by_cases hlen : part.length < first.length
  · left
    refine ⟨part.length, hlen, ?_⟩
    have htake := List.prefix_iff_eq_take.mp h
    rw [List.take_append_of_le_length (by omega)] at htake
    exact htake
  · right
    obtain ⟨more, rfl⟩ := List.prefix_of_prefix_length_le (List.prefix_append first second) h
      (by omega)
    exact ⟨more, rfl, (List.prefix_append_right_inj first).mp h⟩

/-! ## Elements that change while they wait -/

/-- Everything that was put into a queue has been taken or waits, in order and once each. `Took`
relates an element to what was taken in its place, and `Waits` to what it has become so far. -/
def Accounts (Took Waits : β → β → Prop) (put taken waiting : List β) : Prop :=
  ∃ first rest, put = first ++ rest ∧ List.Forall₂ Took first taken ∧
    List.Forall₂ Waits rest waiting

namespace Accounts

variable {Took Waits Took' Waits' : β → β → Prop} {put taken waiting : List β}

/-- Nothing was put. -/
theorem nil : Accounts Took Waits [] [] [] := ⟨[], [], rfl, .nil, .nil⟩

/-- More is put. -/
theorem push (h : Accounts Took Waits put taken waiting) (hself : ∀ b, Waits b b)
    (added : List β) : Accounts Took Waits (put ++ added) taken (waiting ++ added) := by
  obtain ⟨first, rest, rfl, hfirst, hrest⟩ := h
  refine ⟨first, rest ++ added, List.append_assoc _ _ _, hfirst, ?_⟩
  exact List.rel_append hrest (List.forall₂_same.mpr fun b _ => hself b)

/-- The first that waits is taken. -/
theorem pop {b : β} (h : Accounts Took Waits put taken (b :: waiting))
    (htake : ∀ a b, Waits a b → Took a b) : Accounts Took Waits put (taken ++ [b]) waiting := by
  obtain ⟨first, rest, rfl, hfirst, hrest⟩ := h
  obtain ⟨a, more, hab, hmore, rfl⟩ := List.forall₂_cons_right_iff.mp hrest
  refine ⟨first ++ [a], more, by simp, ?_, hmore⟩
  exact List.rel_append hfirst (.cons (htake a b hab) .nil)

/-- The elements that wait change; what was taken does not. -/
theorem change (h : Accounts Took Waits put taken waiting) {f : β → β}
    (htook : ∀ a b, Took a b → Took' a b) (hwaits : ∀ a b, Waits a b → Waits' a (f b)) :
    Accounts Took' Waits' put taken (waiting.map f) := by
  obtain ⟨first, rest, rfl, hfirst, hrest⟩ := h
  exact ⟨first, rest, rfl, hfirst.imp htook,
    List.forall₂_map_right_iff.mpr (hrest.imp hwaits)⟩

end Accounts

end Fifo
