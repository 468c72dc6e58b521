import Minip2p.Core.Wire

/-!
# Arithmetic safety of the frame and field readers

On a message shorter than `2 ^ 63` bytes no reader leaves the range of `usize` or slices outside
the message, because every declared length is compared with the bytes that remain before it is
added. `decodeFrame` adds the declared length first: it is safe exactly on the inputs without a
`HugePrefix`.
-/

namespace Minip2p.Wire

variable {ε : Type} [WireError ε] {input : Bytes} {idx : Nat}

/-! ## Readers at an index -/

/-- A varint moves the index forward and stays inside the message. -/
theorem readVarintValue_safe (hlen : input.length < 2 ^ 63) (hidx : idx ≤ input.length) :
    Safe (readVarintValue input idx : Fallible ε (UInt64 × Nat))
      fun r => idx < r.2 ∧ r.2 ≤ input.length := by
  unfold readVarintValue
  refine Safe.bind_lift (Exec.sliceFrom_eq_ok hidx) ?_
  cases hread : readUvarint (input.drop idx) with
  | error e => exact Safe.throw _
  | ok r =>
    obtain ⟨value, used⟩ := r
    have hused := readUvarint_used hread
    rw [List.length_drop] at hused
    refine Safe.bind_lift (Exec.add_eq_ok (by omega)) ?_
    apply Safe.pure
    show idx < idx + used ∧ idx + used ≤ input.length
    omega

/-- A length that passed the check fits in the rest of the message. -/
theorem readLength_safe (hlen : input.length < 2 ^ 63) (hidx : idx ≤ input.length) :
    Safe (readLength input idx : Fallible ε (Nat × Nat))
      fun r => idx < r.2 ∧ r.2 + r.1 ≤ input.length := by
  unfold readLength
  refine Safe.bind (readVarintValue_safe hlen hidx) ?_
  rintro ⟨length, idx'⟩ ⟨hlt, hle⟩
  dsimp only at hlt hle ⊢
  split
  · exact Safe.throw _
  · apply Safe.pure
    show idx < idx' ∧ idx' + length.toNat ≤ input.length
    omega

/-- A length-delimited value lies inside the message. -/
theorem readLenDelimited_safe (hlen : input.length < 2 ^ 63) (hidx : idx ≤ input.length) :
    Safe (readLenDelimited input idx : Fallible ε (Bytes × Nat))
      fun r => idx < r.2 ∧ r.2 ≤ input.length ∧ r.1.length ≤ input.length := by
  unfold readLenDelimited
  refine Safe.bind (readLength_safe hlen hidx) ?_
  rintro ⟨length, idx'⟩ ⟨hlt, hle⟩
  dsimp only at hlt hle ⊢
  have hadd : Exec.add idx' length = .ok (idx' + length) := Exec.add_eq_ok (by omega)
  refine Safe.bind_lift hadd ?_
  refine Safe.bind (Safe.lift (Q := fun value => value.length ≤ input.length)
    (Exec.slice_eq_ok (by omega) hle) ?_) ?_
  · rw [List.length_drop, List.length_take]
    omega
  intro value hvalue
  refine Safe.bind_lift hadd ?_
  apply Safe.pure
  exact ⟨by omega, hle, hvalue⟩

/-- Skipping a length-delimited value stays within the input. -/
theorem skipLen_safe (hlen : input.length < 2 ^ 63) (hidx : idx ≤ input.length) :
    Safe (skipLen input idx : Fallible ε Nat) fun r => idx < r ∧ r ≤ input.length := by
  unfold skipLen
  refine Safe.bind (readLength_safe hlen hidx) ?_
  rintro ⟨length, idx'⟩ ⟨hlt, hle⟩
  dsimp only at hlt hle ⊢
  exact Safe.lift (Exec.add_eq_ok (by omega)) (by omega)

/-- Skipping a value of fixed size stays within the input. -/
theorem skipFixed_safe {size : Nat} (hsize : size < 2 ^ 63) (hlen : input.length < 2 ^ 63)
    (hidx : idx ≤ input.length) :
    Safe (skipFixed size input idx : Fallible ε Nat) fun r => idx ≤ r ∧ r ≤ input.length := by
  have hadd : Exec.add idx size = .ok (idx + size) := Exec.add_eq_ok (by omega)
  unfold skipFixed
  refine Safe.bind_lift hadd ?_
  split
  · exact Safe.throw _
  · exact Safe.lift hadd (by omega)

/-- A tag that was read lies inside the message. -/
theorem readTag_safe (hlen : input.length < 2 ^ 63) :
    Safe (readTag input idx : Fallible ε (Option ((UInt64 × UInt8) × Nat)))
      fun r => ∀ tag idx', r = some (tag, idx') → idx < idx' ∧ idx' ≤ input.length := by
  unfold readTag
  split
  · exact Safe.pure (by rintro _ _ ⟨⟩)
  · refine Safe.bind (readVarintValue_safe hlen (by omega)) ?_
    rintro ⟨tagValue, idx'⟩ hr
    apply Safe.pure
    rintro _ _ ⟨⟩
    exact hr

/-! ## The loop over the fields -/

/-- A field reader that stays inside the message and keeps `P` of the message read so far. -/
def FieldSafe {σ : Type} (field : FieldReader ε σ) (input : Bytes) (P : σ → Prop) : Prop :=
  ∀ fieldNumber wireType msg idx, P msg → idx ≤ input.length →
    Safe (field input fieldNumber wireType msg idx)
      fun r => P r.1 ∧ idx ≤ r.2 ∧ r.2 ≤ input.length

/-- The loop of the decoders ends without a panic. -/
theorem decodeFieldsGo_safe {σ : Type} {field : FieldReader ε σ} {P : σ → Prop}
    (hlen : input.length < 2 ^ 63) (hfield : FieldSafe field input P) {fuel : Nat} {msg : σ}
    (hmsg : P msg) (hidx : idx ≤ input.length) (hfuel : input.length < idx + fuel) :
    Safe (decodeFieldsGo field input fuel msg idx) P := by
  induction fuel generalizing msg idx with
  | zero => omega
  | succ fuel ih =>
    unfold decodeFieldsGo
    refine Safe.bind (readTag_safe hlen) ?_
    intro r hr
    match r with
    | none => exact Safe.pure hmsg
    | some ((fieldNumber, wireType), idx₁) =>
      obtain ⟨hlt, hle⟩ := hr _ _ rfl
      refine Safe.bind (hfield fieldNumber wireType msg idx₁ hmsg hle) ?_
      rintro ⟨msg', idx₂⟩ ⟨hmsg', hle₁, hle₂⟩
      -- the tag alone moved the index, so one turn's fuel is paid for
      exact ih hmsg' hle₂ (by dsimp only at hle₁ ⊢; omega)

/-- The loop over the fields neither panics nor runs on. -/
theorem decodeFields_safe {σ : Type} {field : FieldReader ε σ} {P : σ → Prop} {msg : σ}
    (hlen : input.length < 2 ^ 63) (hfield : FieldSafe field input P) (hmsg : P msg) :
    Safe (decodeFields field input msg) P :=
  decodeFieldsGo_safe hlen hfield hmsg (Nat.zero_le _) (by omega)

/-! ## Frames -/

/-- The declared length and the length prefix together are `2 ^ 64` or more. -/
def HugePrefix (input : Bytes) : Prop :=
  ∃ v n, readUvarint input = .ok (v, n) ∧ 2 ^ 64 ≤ n + v.toNat

instance (input : Bytes) : Decidable (HugePrefix input) :=
  match h : readUvarint input with
  | .error e => .isFalse (by rintro ⟨v, n, hr, -⟩; rw [h] at hr; cases hr)
  | .ok (v, n) =>
    if hle : 2 ^ 64 ≤ n + v.toNat then .isTrue ⟨v, n, h, hle⟩
    else .isFalse (by rintro ⟨v', n', hr, hle'⟩; rw [h] at hr; cases hr; exact hle hle')

/-- A frame decoder is right on `input`: it returns, and a complete frame is the bytes between
its length prefix and `consumed`. -/
def FrameSafe (decodeFrame : Bytes → Exec FrameDecode) (input : Bytes) : Prop :=
  ∃ r, decodeFrame input = .ok r ∧ ∀ payload consumed, r = .complete payload consumed →
    ∃ v prefixLen, readUvarint input = .ok (v, prefixLen) ∧ prefixLen ≤ consumed ∧
      consumed ≤ input.length ∧ payload = (input.take consumed).drop prefixLen

/-- A huge prefix overflows the sum of prefix and declared length. -/
theorem decodeFrame_of_hugePrefix (h : HugePrefix input) :
    decodeFrame input = .error .addOverflow := by
  obtain ⟨v, n, hread, hle⟩ := h
  have hne : input.isEmpty = false := by
    cases input with
    | nil => cases hread
    | cons => rfl
  have hadd : Exec.add n v.toNat = .error .addOverflow := if_neg (by omega)
  simp only [decodeFrame, hne, hread, hadd]
  rfl

/-- Without one, the decoder is right. -/
theorem frameSafe_of_not_hugePrefix (h : ¬ HugePrefix input) : FrameSafe decodeFrame input := by
  unfold FrameSafe decodeFrame
  split
  · exact ⟨_, rfl, by rintro _ _ ⟨⟩⟩
  split
  · exact ⟨_, rfl, by rintro _ _ ⟨⟩⟩
  · exact ⟨_, rfl, by rintro _ _ ⟨⟩⟩
  · next length used hread =>
    have hsum : used + length.toNat < 2 ^ 64 := by
      by_contra hge
      exact h ⟨length, used, hread, by omega⟩
    rw [Exec.add_eq_ok hsum]
    by_cases hshort : input.length < used + length.toNat
    · exact ⟨.incomplete, if_pos hshort, by rintro _ _ ⟨⟩⟩
    · have hend : used + length.toNat ≤ input.length := by omega
      have hslice := Exec.slice_eq_ok (Nat.le_add_right used length.toNat) hend
      refine ⟨.complete ((input.take (used + length.toNat)).drop used) (used + length.toNat),
        ?_, ?_⟩
      · show (if _ then _ else _) = _
        rw [if_neg hshort, hslice]
        rfl
      · rintro _ _ ⟨⟩
        exact ⟨length, used, hread, by omega, by omega, rfl⟩

/-- The frame decoder is right exactly on the inputs without a huge prefix. -/
theorem frameSafe_iff : FrameSafe decodeFrame input ↔ ¬ HugePrefix input := by
  constructor
  · rintro ⟨r, hr, -⟩ huge
    rw [decodeFrame_of_hugePrefix huge] at hr
    cases hr
  · exact frameSafe_of_not_hugePrefix

/-- A complete frame lies inside the input. -/
theorem decodeFrame_complete {payload : Bytes} {consumed : Nat}
    (h : decodeFrame input = .ok (.complete payload consumed)) :
    consumed ≤ input.length ∧ payload.length ≤ input.length := by
  have huge : ¬ HugePrefix input := by
    intro huge
    rw [decodeFrame_of_hugePrefix huge] at h
    cases h
  obtain ⟨r, hr, hcomplete⟩ := frameSafe_of_not_hugePrefix huge
  obtain ⟨_, _, _, _, hle, rfl⟩ := hcomplete payload consumed (Except.ok.inj (hr.symm.trans h))
  refine ⟨hle, ?_⟩
  rw [List.length_drop, List.length_take]
  omega

/-- The receive step of a state machine panics exactly when the buffer passes the size guard and
has a huge prefix. The message decoder only has to be safe on payloads within the guard. -/
theorem returns_receive_iff {ε μ α : Type} [WireError μ] {maxSize : Nat} {tooLarge : Nat → ε}
    {malformed : μ → ε} {decode : Bytes → Fallible μ α} {recvBuf : Bytes}
    (hdecode : ∀ payload, payload.length ≤ maxSize → Exec.Returns (decode payload).run) :
    Exec.Returns (receive maxSize tooLarge malformed decode recvBuf) ↔
      ¬ (recvBuf.length ≤ maxSize ∧ HugePrefix recvBuf) := by
  unfold receive
  by_cases hmax : recvBuf.length > maxSize
  · rw [if_pos hmax]
    exact ⟨fun _ h => by omega, fun _ => Exec.returns_ok _⟩
  rw [if_neg hmax, Exec.returns_bind_iff]
  constructor
  · rintro ⟨frame, hframe, -⟩ ⟨-, huge⟩
    rw [decodeFrame_of_hugePrefix huge] at hframe
    cases hframe
  · intro hsmall
    have huge : ¬ HugePrefix recvBuf := fun h => hsmall ⟨by omega, h⟩
    obtain ⟨frame, hframe, hcomplete⟩ := frameSafe_of_not_hugePrefix huge
    refine ⟨frame, hframe, ?_⟩
    match frame with
    | .incomplete => exact Exec.returns_ok _
    | .error e => exact Exec.returns_ok _
    | .complete payload consumed =>
      obtain ⟨v, prefixLen, -, -, hle, hpayload⟩ := hcomplete _ _ rfl
      have hpayload : payload.length ≤ maxSize := by
        rw [hpayload, List.length_drop, List.length_take]
        omega
      obtain ⟨r, hr⟩ := hdecode payload hpayload
      refine Exec.returns_bind_iff.mpr ⟨r, hr, ?_⟩
      match r with
      | .error e => exact Exec.returns_ok _
      | .ok msg =>
        exact Exec.returns_bind_iff.mpr ⟨_, Exec.drain_eq_ok hle, Exec.returns_ok _⟩

/-- A message that was received came from within the size guard, and its frame's payload is what
the decoder read. -/
theorem receive_eq_message {ε μ α : Type} [WireError μ] {maxSize : Nat} {tooLarge : Nat → ε}
    {malformed : μ → ε} {decode : Bytes → Fallible μ α} {recvBuf rest : Bytes} {msg : α}
    (h : receive maxSize tooLarge malformed decode recvBuf = .ok (.message msg rest)) :
    ∃ payload consumed, recvBuf.length ≤ maxSize ∧
      decodeFrame recvBuf = .ok (.complete payload consumed) ∧
      (decode payload).run = .ok (.ok msg) ∧ rest = recvBuf.drop consumed := by
  unfold receive at h
  split at h
  · cases h
  next hmax =>
  match hframe : decodeFrame recvBuf with
  | .error p => rw [hframe] at h; cases h
  | .ok .incomplete => rw [hframe] at h; cases h
  | .ok (.error e) => rw [hframe] at h; cases h
  | .ok (.complete payload consumed) =>
    rw [hframe] at h
    change (decode payload).run >>= _ = _ at h
    match hdecode : (decode payload).run with
    | .error p => rw [hdecode] at h; cases h
    | .ok (.error e) => rw [hdecode] at h; cases h
    | .ok (.ok msg') =>
      rw [hdecode] at h
      change Exec.drain recvBuf consumed >>= _ = _ at h
      unfold Exec.drain at h
      split at h
      · cases h
        exact ⟨payload, consumed, by omega, rfl, hdecode, rfl⟩
      · cases h

end Minip2p.Wire
