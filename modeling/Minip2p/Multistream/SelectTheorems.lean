import Minip2p.Identity.VarintTheorems
import Minip2p.Multistream.Select
import Mathlib.Data.List.Basic

/-!
# Frames, and the two of a handshake

A line is read back from its frame, whatever follows, and a frame that is not all there waits for
more. A verdict is final: more bytes do not change it. The bytes of a stream on which a protocol was
agreed start with two frames (`Handshake`).
-/

namespace Minip2p.Multistream

/-! ## Frames -/

theorem isEmpty_iff_asBytes (line : String) : line.isEmpty = true ↔ (asBytes line).length = 0 := by
  rw [String.isEmpty_iff, List.length_eq_zero_iff]
  constructor
  · intro h
    rw [h, asBytes_empty]
  · intro h
    exact asBytes_inj (h.trans asBytes_empty.symm)

/-- A line that fits a frame: not empty, and with its newline at most `maxMessageLen` bytes. -/
def Sendable (line : String) : Prop := 1 ≤ (asBytes line).length ∧ (asBytes line).length ≤ 1023

instance (line : String) : Decidable (Sendable line) := inferInstanceAs (Decidable (_ ∧ _))

/-- The header is a line that fits. -/
theorem header_sendable : Sendable multistreamProtocolId := by decide +kernel

/-- The bytes of a complete message are a line that is not empty, and its newline. -/
theorem decodeLine_eq_complete {msgBytes : Bytes} {consumed n : Nat} {payload : String} :
    decodeLine msgBytes consumed = .complete payload n ↔
      n = consumed ∧ 1 ≤ (asBytes payload).length ∧ msgBytes = asBytes payload ++ [0x0a] := by
  constructor
  · intro h
    rw [decodeLine] at h
    split at h
    · cases h
    next hlast =>
    split at h
    · cases h
    next text htext =>
    split at h
    · cases h
    next hempty =>
    obtain ⟨rfl, rfl⟩ := DecodeResult.complete.inj h
    have hlast : msgBytes.getLast? = some 0x0a := not_not.mp hlast
    rw [isEmpty_iff_asBytes] at hempty
    refine ⟨rfl, by omega, ?_⟩
    rw [asBytes_of_fromUtf8 htext]
    exact (List.dropLast_append_getLast? 0x0a hlast).symm
  · rintro ⟨rfl, hpos, rfl⟩
    have hempty : ¬ payload.isEmpty = true := by
      rw [isEmpty_iff_asBytes]
      omega
    rw [decodeLine, List.getLast?_concat, if_neg (fun h => h rfl), List.dropLast_concat,
      fromUtf8_asBytes]
    exact if_neg hempty

/-- Once the buffer decides about the frame at its front, the bytes after it change nothing. -/
theorem decodeMessage_verdict_append {buf : Bytes} (h : decodeMessage buf ≠ .incomplete)
    (more : Bytes) : decodeMessage (buf ++ more) = decodeMessage buf := by
  have hempty : buf.isEmpty = false := by
    cases buf with
    | nil => exact absurd rfl h
    | cons byte rest => rfl
  have hempty' : (buf ++ more).isEmpty = false := by
    cases buf with
    | nil => exact absurd hempty (by decide)
    | cons byte rest => rfl
  have hcond : ¬ (false : Bool) = true := by decide
  rw [decodeMessage, hempty, if_neg hcond] at h
  rw [decodeMessage, decodeMessage, hempty, hempty', if_neg hcond, if_neg hcond]
  cases hread : readUvarint buf with
  | error e =>
    rw [hread] at h
    -- an unfinished prefix is the one error that more bytes can mend
    have he : e ≠ .bufferTooShort := by
      intro he
      rw [he] at h
      exact h rfl
    rw [readUvarint_error_append hread he]
    cases e with
    | bufferTooShort => exact absurd rfl he
    | overflow => rfl
    | nonCanonical => rfl
  | ok r =>
    obtain ⟨msgLen, varintBytes⟩ := r
    rw [hread] at h
    rw [readUvarint_append hread]
    simp only at h ⊢
    by_cases hlen : msgLen.toNat > maxMessageLen
    · rw [if_pos hlen, if_pos hlen]
    · rw [if_neg hlen] at h
      rw [if_neg hlen, if_neg hlen]
      -- the prefix gives the length of the frame, which is all there
      by_cases hshort : buf.length < varintBytes + msgLen.toNat
      · rw [if_pos hshort] at h
        exact absurd rfl h
      · rw [if_neg hshort, List.length_append, if_neg (by omega),
          List.take_append_of_le_length (by omega)]

/-- A complete frame lies in the buffer, and holds a line that fits a frame. -/
theorem sendable_of_decodeMessage {buf : Bytes} {payload : String} {n : Nat}
    (h : decodeMessage buf = .complete payload n) : n ≤ buf.length ∧ Sendable payload := by
  rw [decodeMessage] at h
  split at h
  · cases h
  split at h
  · cases h
  · cases h
  next msgLen varintBytes hread =>
  simp only at h
  split at h
  · cases h
  next hlen =>
  split at h
  · cases h
  next hshort =>
  obtain ⟨rfl, hpos, hline⟩ := decodeLine_eq_complete.mp h
  have hlength := congrArg List.length hline
  simp only [List.length_drop, List.length_take, List.length_append,
    List.length_singleton] at hlength
  have hmax : maxMessageLen = 1024 := rfl
  refine ⟨by omega, hpos, by omega⟩

/-- A complete frame does not depend on the bytes after it. -/
theorem decodeMessage_append {buf : Bytes} {payload : String} {n : Nat}
    (h : decodeMessage buf = .complete payload n) (more : Bytes) :
    n ≤ buf.length ∧ decodeMessage (buf ++ more) = .complete payload n := by
  have hverdict : decodeMessage buf ≠ .incomplete := by
    rw [h]
    rintro ⟨⟩
  exact ⟨(sendable_of_decodeMessage h).1, (decodeMessage_verdict_append hverdict more).trans h⟩

/-- The length prefix of a frame. -/
theorem toNat_frameLen {line : String} (h : Sendable line) :
    (UInt64.ofNat ((asBytes line).length + 1)).toNat = (asBytes line).length + 1 := by
  rw [UInt64.toNat_ofNat']
  have := h.2
  omega

/-- What the decoder does once the length prefix of the frame is there. -/
theorem decodeMessage_of_prefix {line : String} (h : Sendable line) (after : Bytes) :
    decodeMessage (writeUvarint (UInt64.ofNat ((asBytes line).length + 1)) ++ after) =
      if after.length < (asBytes line).length + 1 then .incomplete
      else decodeLine (after.take ((asBytes line).length + 1))
        ((writeUvarint (UInt64.ofNat ((asBytes line).length + 1))).length +
          ((asBytes line).length + 1)) := by
  have hread := readUvarint_writeUvarint_append
    (UInt64.ofNat ((asBytes line).length + 1)) after
  have hlen := toNat_frameLen h
  have hle := h.2
  have hused := readUvarint_used hread
  generalize writeUvarint (UInt64.ofNat ((asBytes line).length + 1)) = front at *
  have hempty : ¬ (front ++ after).isEmpty = true := by
    rw [List.isEmpty_iff_length_eq_zero, List.length_append]
    omega
  rw [decodeMessage, if_neg hempty, hread]
  simp only [hlen]
  rw [if_neg (by show ¬ _ > 1024; omega), List.length_append]
  have hcut : ((front ++ after).take (front.length + ((asBytes line).length + 1))).drop
      front.length = after.take ((asBytes line).length + 1) := by
    rw [List.take_append, List.take_of_length_le (by omega),
      List.drop_append_of_le_length (by simp), List.drop_length, List.nil_append]
    congr 1
    omega
  rw [hcut]
  by_cases hshort : after.length < (asBytes line).length + 1
  · rw [if_pos hshort, if_pos (by omega)]
  · rw [if_neg hshort, if_neg (by omega)]

/-- What was encoded is decoded, whatever follows. -/
theorem decodeMessage_encodeMessage {line : String} (h : Sendable line) (rest : Bytes) :
    decodeMessage (encodeMessage line ++ rest) = .complete line (encodeMessage line).length := by
  have hlength : (asBytes line ++ [0x0a]).length = (asBytes line).length + 1 := by simp
  rw [encodeMessage, List.append_assoc, List.append_assoc, decodeMessage_of_prefix h,
    ← List.append_assoc, ← hlength, List.take_left, if_neg (by simp)]
  apply decodeLine_eq_complete.mpr
  refine ⟨?_, h.1, rfl⟩
  simp only [List.length_append, List.append_assoc]

/-- The decoder waits for the rest of what was encoded. -/
theorem decodeMessage_take_encodeMessage {line : String} (h : Sendable line) {n : Nat}
    (hn : n < (encodeMessage line).length) :
    decodeMessage ((encodeMessage line).take n) = .incomplete := by
  rw [encodeMessage, List.append_assoc, List.length_append] at hn
  rw [encodeMessage, List.append_assoc]
  by_cases hfront : n < (writeUvarint (UInt64.ofNat ((asBytes line).length + 1))).length
  · -- the length prefix itself is cut
    rw [List.take_append_of_le_length (by omega), decodeMessage,
      readUvarint_take_writeUvarint _ hfront]
    split
    · rfl
    · rfl
  · rw [List.take_append, List.take_of_length_le (by omega), decodeMessage_of_prefix h]
    apply if_pos
    rw [List.length_take]
    simp only [List.length_append, List.length_singleton] at hn ⊢
    omega

/-- The delivered bytes start with two frames, and `rest` follows them. -/
def Handshake (delivered rest : Bytes) : Prop :=
  ∃ header line n m, decodeMessage delivered = .complete header n ∧
    decodeMessage (delivered.drop n) = .complete line m ∧ rest = delivered.drop (n + m)

/-- What comes later comes after the handshake. -/
theorem Handshake.append {delivered rest : Bytes} (h : Handshake delivered rest) (more : Bytes) :
    Handshake (delivered ++ more) (rest ++ more) := by
  obtain ⟨header, line, n, m, hheader, hline, rfl⟩ := h
  obtain ⟨hn, hheader'⟩ := decodeMessage_append hheader more
  obtain ⟨hm, hline'⟩ := decodeMessage_append hline more
  rw [List.length_drop] at hm
  refine ⟨header, line, n, m, hheader', ?_, ?_⟩
  · rw [List.drop_append_of_le_length hn]
    exact hline'
  · rw [List.drop_append_of_le_length (by omega)]

/-! ## Turns -/

/-- The state in which a role waits for the second frame. -/
def Role.second : Role → State
  | .dialer _ => .waitingForProtocolResponse
  | .listener _ => .waitingForProtocolRequest

namespace MultistreamSelect

/-- A machine that has ended takes no turns. -/
theorem receiveGo_done {select : MultistreamSelect} (h : select.state = .done) (fuel : Nat) :
    select.receiveGo fuel = select := by
  cases fuel with
  | zero => rfl
  | succ fuel => rw [receiveGo, if_pos h]

end MultistreamSelect

end Minip2p.Multistream
