import Minip2p.Lib.Fields
import Minip2p.Core.WireTheorems
import Minip2p.Identity.PeerIdTheorems

/-!
# Frames and fields, read back

What the encoders write in front of other bytes is what the readers find there: a frame as a whole,
each field at its place in a message. A frame that is cut short is incomplete, however short.
-/

namespace Minip2p.Wire

/-! ## Frames -/

variable {payload : Bytes}

/-- A frame is as long as its prefix and its payload. -/
theorem length_encodeFrame (payload : Bytes) : (encodeFrame payload).length =
    (writeUvarint (UInt64.ofNat payload.length)).length + payload.length := List.length_append

theorem encodeFrame_ne_nil (payload : Bytes) : encodeFrame payload ≠ [] := by
  intro h
  have hlen := length_writeUvarint (UInt64.ofNat payload.length)
  rw [(List.append_eq_nil_iff.mp h).1, uvarintLen_eq] at hlen
  cases hlen

/-- A frame at the front of the input is found, whatever follows it. -/
theorem decodeFrame_encodeFrame (hlen : payload.length < 2 ^ 63) (rest : Bytes) :
    decodeFrame (encodeFrame payload ++ rest) =
      .ok (.complete payload (encodeFrame payload).length) := by
  have hsize := length_encodeFrame payload
  have hten := length_writeUvarint_le (UInt64.ofNat payload.length)
  have hvalue : (UInt64.ofNat payload.length).toNat = payload.length :=
    toNat_ofNat_length (by omega)
  have hread : readUvarint (encodeFrame payload ++ rest) =
      .ok (UInt64.ofNat payload.length, (writeUvarint (UInt64.ofNat payload.length)).length) := by
    rw [encodeFrame, List.append_assoc, readUvarint_writeUvarint_append]
  have hne : (encodeFrame payload ++ rest).isEmpty = false := by
    rw [List.isEmpty_eq_false_iff]
    exact List.append_ne_nil_of_left_ne_nil (encodeFrame_ne_nil payload) _
  have hslice : Exec.slice (encodeFrame payload ++ rest)
      (writeUvarint (UInt64.ofNat payload.length)).length (encodeFrame payload).length =
        .ok payload := by
    rw [Exec.slice_eq_ok (by omega) (by rw [List.length_append]; omega), List.take_left]
    exact congrArg Except.ok List.drop_left
  simp only [decodeFrame, hne, hread, hvalue, Bool.false_eq_true, if_false]
  rw [Exec.add_eq_ok (by omega), ← hsize]
  show (if _ then _ else _) = _
  rw [if_neg (by rw [List.length_append]; omega), hslice]
  rfl

/-- A frame that is cut short is incomplete. -/
theorem decodeFrame_take_encodeFrame (hlen : payload.length < 2 ^ 63) {n : ℕ}
    (hn : n < (encodeFrame payload).length) :
    decodeFrame ((encodeFrame payload).take n) = .ok .incomplete := by
  have hsize := length_encodeFrame payload
  have hten := length_writeUvarint_le (UInt64.ofNat payload.length)
  have hvalue : (UInt64.ofNat payload.length).toNat = payload.length :=
    toNat_ofNat_length (by omega)
  cases hempty : ((encodeFrame payload).take n).isEmpty with
  | true => rw [decodeFrame, if_pos hempty]
  | false =>
    by_cases hprefix : n < (writeUvarint (UInt64.ofNat payload.length)).length
    · -- the cut is inside the length prefix
      have hread : readUvarint ((encodeFrame payload).take n) = .error .bufferTooShort := by
        rw [encodeFrame, List.take_append_of_le_length (by omega)]
        exact readUvarint_take_writeUvarint _ hprefix
      simp only [decodeFrame, hempty, hread, Bool.false_eq_true, if_false]
    · have hread : readUvarint ((encodeFrame payload).take n) =
          .ok (UInt64.ofNat payload.length,
            (writeUvarint (UInt64.ofNat payload.length)).length) := by
        rw [encodeFrame, List.take_append, List.take_of_length_le (by omega),
          readUvarint_writeUvarint_append]
      simp only [decodeFrame, hempty, hread, hvalue, Bool.false_eq_true, if_false]
      rw [Exec.add_eq_ok (by omega)]
      show (if _ then _ else _) = _
      rw [if_pos (by rw [List.length_take]; omega)]
      rfl

/-! ## Frames at the front of a buffer -/

section

variable {ε μ α : Type} [WireError μ] {maxSize : ℕ} {tooLarge : ℕ → ε} {malformed : μ → ε}
  {decode : Bytes → Fallible μ α} {msg : α}

/-- A message that is framed at the front of the buffer is found there. -/
theorem receive_encodeFrame (hmax : maxSize < 2 ^ 63)
    (hdecode : payload.length < 2 ^ 63 → decode payload = pure msg) {rest : Bytes}
    (hlen : (encodeFrame payload ++ rest).length ≤ maxSize) :
    receive maxSize tooLarge malformed decode (encodeFrame payload ++ rest) =
      .ok (.message msg rest) := by
  have hsize := length_encodeFrame payload
  have hboth : (encodeFrame payload ++ rest).length = _ := List.length_append
  have hpayload : payload.length < 2 ^ 63 := by omega
  rw [receive, if_neg (by omega), decodeFrame_encodeFrame hpayload]
  show ((decode payload).run >>= _) = _
  rw [hdecode hpayload]
  show (Exec.drain _ _ >>= _) = _
  rw [Exec.drain_eq_ok (by omega), List.drop_left]
  rfl

/-- As long as bytes of the frame are missing, nothing is found. -/
theorem receive_part_encodeFrame (hmax : maxSize < 2 ^ 63) {got rest : Bytes}
    (hframe : got ++ rest = encodeFrame payload) (hrest : rest ≠ [])
    (hlen : (encodeFrame payload).length ≤ maxSize) :
    receive maxSize tooLarge malformed decode got = .ok .incomplete := by
  have hsize := length_encodeFrame payload
  have hpos := List.length_pos_iff.mpr hrest
  have hboth := congrArg List.length hframe
  rw [List.length_append] at hboth
  have htake : got = (encodeFrame payload).take got.length := by
    rw [← hframe, List.take_left]
  rw [receive, if_neg (by omega), htake,
    decodeFrame_take_encodeFrame (by omega) (by rw [← hframe]; simp [hpos])]
  rfl

end

/-! ## Readers at an index -/

variable {ε : Type} [WireError ε] {input rest : Bytes} {idx : ℕ}

theorem drop_add {front : Bytes} (h : input.drop idx = front ++ rest) :
    input.drop (idx + front.length) = rest := by
  rw [← List.drop_drop, h, List.drop_left]

theorem idx_lt {front : Bytes} (hne : front ≠ []) (h : input.drop idx = front ++ rest) :
    idx + front.length ≤ input.length ∧ idx < input.length := by
  have hlen := congrArg List.length h
  rw [List.length_drop, List.length_append] at hlen
  have hpos := List.length_pos_iff.mpr hne
  omega

theorem writeUvarint_ne_nil (value : UInt64) : writeUvarint value ≠ [] := by
  intro h
  have hlen := length_writeUvarint value
  rw [h, uvarintLen_eq] at hlen
  cases hlen

/-- A varint value is read back from its encoding. -/
theorem readVarintValue_write (hlen : input.length < 2 ^ 63) {value : UInt64}
    (h : input.drop idx = writeUvarint value ++ rest) :
    (readVarintValue input idx : Fallible ε (UInt64 × ℕ)) =
      pure (value, idx + (writeUvarint value).length) := by
  obtain ⟨hend, hidx⟩ := idx_lt (writeUvarint_ne_nil value) h
  apply Yields.eq_pure
  rw [readVarintValue, Yields.lift_bind_iff (Exec.sliceFrom_eq_ok (by omega)), h]
  simp only [readUvarint_writeUvarint_append]
  rw [Yields.lift_bind_iff (Exec.add_eq_ok (by omega)), Yields.pure_iff]

/-- A length-delimited value is read back from its encoding. -/
theorem readLenDelimited_write (hlen : input.length < 2 ^ 63) {data : Bytes}
    (h : input.drop idx = writeUvarint (UInt64.ofNat data.length) ++ (data ++ rest)) :
    ∃ idx', (readLenDelimited input idx : Fallible ε (Bytes × ℕ)) = pure (data, idx') ∧
      input.drop idx' = rest := by
  have hbody := drop_add h
  have hsize := congrArg List.length hbody
  have hbound := congrArg List.length h
  rw [List.length_drop, List.length_append] at hsize
  rw [List.length_drop, List.length_append, List.length_append] at hbound
  have hvalue : (UInt64.ofNat data.length).toNat = data.length := toNat_ofNat_length (by omega)
  refine ⟨idx + (writeUvarint (UInt64.ofNat data.length)).length + data.length, ?_, drop_add hbody⟩
  obtain ⟨hend, hidx⟩ := idx_lt (writeUvarint_ne_nil _) h
  have hadd := Exec.add_eq_ok (a := idx + (writeUvarint (UInt64.ofNat data.length)).length)
    (b := data.length) (by omega)
  rw [readLenDelimited, readLength, readVarintValue_write hlen h]
  simp only [pure_bind, hvalue]
  rw [if_neg (by omega)]
  apply Yields.eq_pure
  rw [pure_bind, Yields.lift_bind_iff hadd,
    Yields.lift_bind_iff (Exec.slice_eq_ok (by omega) (by omega)), Yields.lift_bind_iff hadd,
    Yields.pure_iff, List.drop_take, hbody]
  simp

/-- A tag is read back from its encoding. -/
theorem readTag_write (hlen : input.length < 2 ^ 63) {value : UInt64}
    (h : input.drop idx = writeUvarint value ++ rest) :
    (readTag input idx : Fallible ε (Option ((UInt64 × UInt8) × ℕ))) =
      pure (some ((value >>> 3, (value &&& 0x07).toUInt8), idx + (writeUvarint value).length)) := by
  have hidx := idx_lt (writeUvarint_ne_nil value) h
  rw [readTag, if_neg (by omega), readVarintValue_write hlen h]
  rfl

/-! ## Fields -/

/-- A field as the encoders write it: a varint, or bytes behind their length. -/
inductive Field
  | varint (number value : UInt64)
  | bytes (number : UInt64) (data : Bytes)

namespace Field

/-- The number of a field. -/
def number : Field → UInt64
  | varint number _ | bytes number _ => number

/-- The wire type of a field. -/
def wireType : Field → UInt8
  | varint _ _ => wireVarint
  | bytes _ _ => wireLen

/-- The tag of a field. -/
def tag (field : Field) : UInt8 := (field.number.toUInt8 <<< 3) ||| field.wireType

/-- What stands behind the tag. -/
def body : Field → Bytes
  | varint _ value => writeUvarint value
  | bytes _ data => writeUvarint (UInt64.ofNat data.length) ++ data

/-- A field on the wire. -/
def encode (field : Field) : Bytes := field.tag :: field.body

theorem encode_ne_nil (field : Field) : field.encode ≠ [] := List.cons_ne_nil _ _

/-- What a message carries in a field of bytes is not longer than the message. -/
theorem length_le_flatMap_encode {F : Type} {toField : F → Field} {fs : List F} {f : F}
    (hmem : f ∈ fs) {number : UInt64} {data : Bytes} (hf : toField f = bytes number data) :
    data.length ≤ (fs.flatMap fun f => (toField f).encode).length := by
  obtain ⟨before, after, rfl⟩ := List.append_of_mem hmem
  simp only [List.flatMap_append, List.flatMap_cons, List.length_append, hf, encode, body,
    List.length_cons]
  omega

/-- The tag of a small field number is a varint of one byte, from which the number and the wire
type are read. -/
theorem tag_number (field : Field) (hnumber : field.number < 16) : ∃ tag : UInt64,
    writeUvarint tag = [field.tag] ∧ tag >>> 3 = field.number ∧
      (tag &&& 0x07).toUInt8 = field.wireType := by
  have htags : ∀ n < 16, ∀ wire ∈ [wireVarint, wireLen],
      writeUvarint (UInt64.ofNat n <<< 3 ||| wire.toUInt64) =
          [((UInt64.ofNat n).toUInt8 <<< 3) ||| wire] ∧
        (UInt64.ofNat n <<< 3 ||| wire.toUInt64) >>> 3 = UInt64.ofNat n ∧
        ((UInt64.ofNat n <<< 3 ||| wire.toUInt64) &&& 0x07).toUInt8 = wire := by
    decide +kernel
  have hn : field.number.toNat < 16 := hnumber
  have hfield := htags field.number.toNat hn field.wireType (by cases field <;> simp [wireType])
  rw [UInt64.ofNat_toNat] at hfield
  exact ⟨_, hfield⟩

end Field

/-- A field reader that reads back the body of `f`, written as `toField f`, into the message. -/
def ReadsField {σ F : Type} (field : FieldReader ε σ) (toField : F → Field) (store : σ → F → σ)
    (input : Bytes) : Prop :=
  ∀ f rest msg idx, input.drop idx = (toField f).body ++ rest → ∃ idx',
    field input (toField f).number (toField f).wireType msg idx = pure (store msg f, idx') ∧
      input.drop idx' = rest

section

variable {σ F : Type} {field : FieldReader ε σ} {toField : F → Field} {store : σ → F → σ}

/-- The loop of the decoders stores a field that it knows and goes on behind it. -/
theorem reads_field (hlen : input.length < 2 ^ 63) (hnumber : ∀ f, (toField f).number < 16)
    (hfield : ReadsField field toField store input) :
    Fields.Reads input (fun f => (toField f).encode) store (decodeFieldsGo field input) := by
  intro f rest fuel msg idx hinput
  obtain ⟨tag, htag, hnum, hwire⟩ := (toField f).tag_number (hnumber f)
  have hwritten : input.drop idx = writeUvarint tag ++ ((toField f).body ++ rest) := by
    rw [hinput, htag]
    rfl
  obtain ⟨idx', hread, hrest⟩ := hfield f rest msg _ (drop_add hwritten)
  refine ⟨idx', hrest, ?_⟩
  rw [decodeFieldsGo, readTag_write hlen hwritten, pure_bind]
  dsimp only
  rw [hnum, hwire, hread, pure_bind]

/-- A message of fields is read back, field by field. -/
theorem decodeFields_write {fs : List F}
    (hlen : (fs.flatMap fun f => (toField f).encode).length < 2 ^ 63)
    (hnumber : ∀ f, (toField f).number < 16)
    (hfield : ReadsField field toField store (fs.flatMap fun f => (toField f).encode)) (msg : σ) :
    decodeFields field (fs.flatMap fun f => (toField f).encode) msg =
      pure (fs.foldl store msg) := by
  obtain ⟨fuel, idx, hend, hloop⟩ :=
    (reads_field hlen hnumber hfield).whole (fun f => (toField f).encode_ne_nil) 1 msg
  rw [decodeFields, hloop, decodeFieldsGo, readTag, if_pos hend, pure_bind]

end

end Minip2p.Wire
