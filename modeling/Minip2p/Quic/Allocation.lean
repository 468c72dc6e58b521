import Minip2p.Lib.Loops
import Minip2p.Quic.TransportTheorems

/-!
# Allocating connection ids

The loop of `allocate_connection_id` has no bound of its own: it stops at a free id, or where its
counter is back at its start. It gets back there after `2 ^ 64` turns, from any start, and by then
it has tried every id.
-/

namespace Minip2p.Quic

open Loops

namespace QuicTransport

/-- One turn of the loop of `allocate_connection_id`, with the counter `raw`: it returns, breaks
with an error, or goes on with the next counter. -/
def allocateTurn (t : QuicTransport) (start raw : UInt64) :
    UInt64 ⊕ Except TransportError ConnectionId × UInt64 :=
  let next := raw + 1
  if raw ≠ 0 ∧ ¬ t.connections.contains ⟨raw⟩ then .inr (.ok ⟨raw⟩, next)
  else if next = start then .inr (.error (.resourceExhausted "connection ids"), next)
  else .inl next

/-- A counter value that is skipped. -/
def Taken (t : QuicTransport) (raw : UInt64) : Prop :=
  raw = 0 ∨ (⟨raw⟩ : ConnectionId) ∈ t.connections

end QuicTransport

variable {t : QuicTransport} {start raw next : UInt64}

/-- An id is taken if it is zero or in the table. -/
theorem taken_iff : t.Taken raw ↔ ¬ (raw ≠ 0 ∧ ¬ t.connections.contains ⟨raw⟩) := by
  unfold QuicTransport.Taken
  rw [Std.ExtTreeMap.contains_iff_mem]
  tauto

/-- A turn goes on past a taken id, unless the counter is back at the start. -/
theorem allocateTurn_eq_inl_iff :
    t.allocateTurn start raw = .inl next ↔ t.Taken raw ∧ raw + 1 ≠ start ∧ next = raw + 1 := by
  rw [taken_iff]
  unfold QuicTransport.allocateTurn
  dsimp only
  split_ifs with hfree hstart
  · exact iff_of_false (fun h => nomatch h) fun h => h.1 hfree
  · exact iff_of_false (fun h => nomatch h) fun h => h.2.1 hstart
  · rw [Sum.inl.injEq]
    exact ⟨fun h => ⟨hfree, hstart, h.symm⟩, fun h => h.2.2.symm⟩

/-! ## The counter -/

/-- How far the counter is from its start, which it left `2 ^ 64` turns ago at most. -/
theorem toNat_succ_sub (h : raw + 1 ≠ start) :
    (raw + 1 - start).toNat = (raw - start).toNat + 1 := by
  have hraw := raw.toNat_lt
  have hstart := start.toNat_lt
  have hne : (raw + 1).toNat ≠ start.toNat := fun heq => h (UInt64.toNat_inj.mp heq)
  have hone : (1 : UInt64).toNat = 1 := rfl
  rw [UInt64.toNat_add, hone] at hne
  rw [UInt64.toNat_sub, UInt64.toNat_sub, UInt64.toNat_add, hone]
  omega

theorem toNat_sub_of_succ_eq (h : raw + 1 = start) : (raw - start).toNat = 2 ^ 64 - 1 := by
  rw [← h, UInt64.toNat_sub, UInt64.toNat_add]
  have hraw := raw.toNat_lt
  have hone : (1 : UInt64).toNat = 1 := rfl
  omega

/-- Every turn brings the counter nearer to the end of its round. -/
theorem allocateTurn_lowers (h : t.allocateTurn start raw = .inl next) :
    2 ^ 64 - 1 - (next - start).toNat < 2 ^ 64 - 1 - (raw - start).toNat := by
  obtain ⟨-, hstart, rfl⟩ := allocateTurn_eq_inl_iff.mp h
  have hlt := (raw + 1 - start).toNat_lt
  rw [toNat_succ_sub hstart] at hlt ⊢
  omega

/-- The loop ends, and the model with its fuel gives its result. -/
theorem allocateGo_ends (t : QuicTransport) (start : UInt64) :
    Ends (t.allocateTurn start) start (t.allocateGo start (2 ^ 64 - 1) start) := by
  apply ends_of_fuel (fun fuel raw => t.allocateGo start fuel raw)
    (fun raw => 2 ^ 64 - 1 - (raw - start).toNat)
  · intro raw next h
    exact allocateTurn_lowers h
  · intro fuel raw next h
    obtain ⟨htaken, hstart, rfl⟩ := allocateTurn_eq_inl_iff.mp h
    rw [QuicTransport.allocateGo, if_neg (taken_iff.mp htaken), if_neg hstart]
  · intro fuel raw r h _
    unfold QuicTransport.allocateTurn at h
    unfold QuicTransport.allocateGo
    dsimp only at h ⊢
    split_ifs at h ⊢ with hfree hstart
    · exact Sum.inr.inj h
    · exact Sum.inr.inj h
  · exact Nat.sub_le _ _

/-! ## What the loop returns -/

/-- The ids the counter has passed since its start are all taken. -/
def Passed (t : QuicTransport) (start raw : UInt64) : Prop :=
  ∀ id : UInt64, (id - start).toNat < (raw - start).toNat → t.Taken id

/-- What the loop comes to: a free id, or an error if there is none. -/
structure Allocated (t : QuicTransport) (out : Except TransportError ConnectionId × UInt64) :
    Prop where
  free : ∀ {id}, out.1 = .ok id → ¬ t.Taken id.asU64
  full : ∀ {e}, out.1 = .error e →
    e = .resourceExhausted "connection ids" ∧ ∀ raw, t.Taken raw

/-- If the id that was reached is taken, so are all up to it. -/
theorem Passed.taken (h : Passed t start raw) (htaken : t.Taken raw) {id : UInt64}
    (hid : (id - start).toNat ≤ (raw - start).toNat) : t.Taken id := by
  rcases Nat.lt_or_eq_of_le hid with hlt | heq
  · exact h id hlt
  · have hsame : id - start = raw - start := UInt64.toNat_inj.mp heq
    rw [show id = raw by rw [← UInt64.sub_add_cancel id start, hsame, UInt64.sub_add_cancel]]
    exact htaken

/-- The turn that ends the search finds a free id, or there is none. -/
theorem allocated_of_ends {out : Except TransportError ConnectionId × UInt64}
    (h : Ends (t.allocateTurn start) start out) : Allocated t out := by
  refine h.invariant (Passed t start) (Allocated t) ?_ ?_ ?_
  · intro raw next hpassed hnext id hid
    obtain ⟨htaken, hstart, rfl⟩ := allocateTurn_eq_inl_iff.mp hnext
    rw [toNat_succ_sub hstart] at hid
    exact hpassed.taken htaken (by omega)
  · intro raw out hpassed hout
    unfold QuicTransport.allocateTurn at hout
    dsimp only at hout
    split_ifs at hout with hfree hstart
    · obtain rfl := Sum.inr.inj hout
      refine ⟨fun hid => ?_, fun he => (by cases he)⟩
      obtain rfl := Except.ok.inj hid
      exact fun htaken => taken_iff.mp htaken hfree
    · obtain rfl := Sum.inr.inj hout
      refine ⟨fun hid => (by cases hid), fun he => ?_⟩
      obtain rfl := Except.error.inj he
      refine ⟨rfl, fun id => hpassed.taken (taken_iff.mpr hfree) ?_⟩
      -- the counter has gone all the way round
      have hlt := (id - start).toNat_lt
      rw [toNat_sub_of_succ_eq hstart]
      omega
  · intro id hid
    rw [UInt64.sub_self] at hid
    exact absurd hid (Nat.not_lt_zero _)

/-- Whatever its counter and whatever connections are live, the allocation ends. It returns a free
id if there is one, fails only if there is none, and changes nothing but the counter. -/
theorem allocateConnectionId_complete (t : QuicTransport) :
    (∃ out, Ends (t.allocateTurn t.nextConnectionId) t.nextConnectionId out ∧
      t.allocateConnectionId = (out.1, { t with nextConnectionId := out.2 })) ∧
    (∀ id, t.allocateConnectionId.1 = .ok id → id.asU64 ≠ 0 ∧ id ∉ t.connections) ∧
    ((∃ raw : UInt64, raw ≠ 0 ∧ (⟨raw⟩ : ConnectionId) ∉ t.connections) →
      ∃ id, t.allocateConnectionId.1 = .ok id) ∧
    (∀ e, t.allocateConnectionId.1 = .error e → e = .resourceExhausted "connection ids" ∧
      ∀ raw : UInt64, raw ≠ 0 → (⟨raw⟩ : ConnectionId) ∈ t.connections) ∧
    { t.allocateConnectionId.2 with nextConnectionId := t.nextConnectionId } = t := by
  have hends := allocateGo_ends t t.nextConnectionId
  have hallocated := allocated_of_ends hends
  refine ⟨⟨_, hends, rfl⟩, ?_, ?_, ?_, rfl⟩
  · intro id hid
    exact not_or.mp (hallocated.free hid)
  · intro ⟨raw, hne, hfree⟩
    cases hresult : t.allocateConnectionId.1 with
    | ok id => exact ⟨id, rfl⟩
    | error e => exact absurd ((hallocated.full hresult).2 raw) (not_or.mpr ⟨hne, hfree⟩)
  · intro e he
    obtain ⟨hexhausted, htaken⟩ := hallocated.full he
    exact ⟨hexhausted, fun raw hne => (htaken raw).resolve_left hne⟩

end Minip2p.Quic
