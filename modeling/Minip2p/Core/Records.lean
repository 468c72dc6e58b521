import Minip2p.Core.WireRoundTrip
import Minip2p.Lib.Records

/-!
# Messages as sequences of records

A protobuf message is a sequence of records, and every decoder walks over them. `Record` is what may
stand in a message, whether the decoder knows its field number or not. What a decoder makes of the
bytes of a message is what its fields make of the records in them (`decodeFields_iff`).
-/

namespace Minip2p.Wire

/-! ## Records -/

/-- The value of a record. -/
inductive Value
  | varint (value : UInt64)
  | i64 (data : Vector UInt8 8)
  /-- The length prefix of the data is a `u64`. -/
  | len (data : Bytes) (hdata : data.length < 2 ^ 64)
  | i32 (data : Vector UInt8 4)

namespace Value

/-- The wire type of a value. -/
def wireType : Value → UInt8
  | varint _ => wireVarint
  | i64 _ => wireI64
  | len _ _ => wireLen
  | i32 _ => wireI32

/-- A value on the wire. -/
def encode : Value → Bytes
  | varint value => writeUvarint value
  | i64 data => data.toList
  | len data _ => writeUvarint (UInt64.ofNat data.length) ++ data
  | i32 data => data.toList

theorem wireType_lt (value : Value) : value.wireType.toNat < 8 := by
  cases value with
  | varint => exact (by decide : wireVarint.toNat < 8)
  | i64 => exact (by decide : wireI64.toNat < 8)
  | len => exact (by decide : wireLen.toNat < 8)
  | i32 => exact (by decide : wireI32.toNat < 8)

theorem wireTypes_ne : wireVarint ≠ wireI64 ∧ wireVarint ≠ wireLen ∧ wireVarint ≠ wireI32 ∧
    wireI64 ≠ wireLen ∧ wireI64 ≠ wireI32 ∧ wireLen ≠ wireI32 := by
  decide

variable {value : Value}

theorem wireType_eq_varint_iff : value.wireType = wireVarint ↔ ∃ v, value = varint v := by
  have hne := wireTypes_ne
  cases value <;> simp_all [wireType, eq_comm]

theorem wireType_eq_i64_iff : value.wireType = wireI64 ↔ ∃ data, value = i64 data := by
  have hne := wireTypes_ne
  cases value <;> simp_all [wireType, eq_comm]

theorem wireType_eq_len_iff : value.wireType = wireLen ↔ ∃ data hdata, value = len data hdata := by
  constructor
  · intro h
    have hne := wireTypes_ne
    cases value with
    | len data hdata => exact ⟨data, hdata, rfl⟩
    | varint | i64 | i32 => simp_all [wireType, eq_comm]
  · rintro ⟨_, _, rfl⟩
    rfl

theorem wireType_eq_i32_iff : value.wireType = wireI32 ↔ ∃ data, value = i32 data := by
  have hne := wireTypes_ne
  cases value <;> simp_all [wireType, eq_comm]

/-- There are no values of other wire types. -/
theorem wireType_ne {wireType : UInt8} (hvarint : wireType ≠ wireVarint)
    (hi64 : wireType ≠ wireI64) (hlen : wireType ≠ wireLen) (hi32 : wireType ≠ wireI32) :
    value.wireType ≠ wireType := by
  rintro rfl
  cases value with
  | varint => exact hvarint rfl
  | i64 => exact hi64 rfl
  | len => exact hlen rfl
  | i32 => exact hi32 rfl

end Value

/-- A field of a message: its number, for which a tag has 61 bits, and its value. -/
structure Record where
  number : UInt64
  value : Value
  number_lt : number.toNat < 2 ^ 61

namespace Record

/-- The tag of a record. -/
def tag (record : Record) : UInt64 := (record.number <<< 3) ||| record.value.wireType.toUInt64

/-- A record on the wire. -/
def encode (record : Record) : Bytes := writeUvarint record.tag ++ record.value.encode

end Record

/-- Some records on the wire. -/
def encodeRecords (records : List Record) : Bytes := records.flatMap Record.encode

/-! ## Tags -/

/-- A tag is the number of the field above three bits of wire type. -/
theorem toNat_tag {number : UInt64} {wireType : UInt8} (hnumber : number.toNat < 2 ^ 61)
    (hwire : wireType.toNat < 8) :
    ((number <<< 3) ||| wireType.toUInt64).toNat = 8 * number.toNat + wireType.toNat := by
  have hor : 2 ^ 3 * number.toNat + wireType.toNat = 2 ^ 3 * number.toNat ||| wireType.toNat :=
    Nat.two_pow_add_eq_or_of_lt hwire number.toNat
  rw [UInt64.toNat_or, UInt64.toNat_shiftLeft, UInt8.toNat_toUInt64]
  show number.toNat <<< 3 % 2 ^ 64 ||| _ = _
  rw [Nat.shiftLeft_eq, Nat.mod_eq_of_lt (by omega), Nat.mul_comm, ← hor]
  rfl

theorem toNat_tag_number (tag : UInt64) : (tag >>> 3).toNat = tag.toNat / 8 := by
  rw [UInt64.toNat_shiftRight]
  show tag.toNat >>> 3 = _
  rw [Nat.shiftRight_eq_div_pow]

theorem toNat_tag_wireType (tag : UInt64) : (tag &&& 0x07).toUInt8.toNat = tag.toNat % 8 := by
  rw [UInt64.toNat_toUInt8, UInt64.toNat_and]
  show (tag.toNat &&& 2 ^ 3 - 1) % 2 ^ 8 = _
  rw [Nat.and_two_pow_sub_one_eq_mod]
  omega

theorem tag_number_lt (tag : UInt64) : (tag >>> 3).toNat < 2 ^ 61 := by
  have hlt := tag.toNat_lt
  rw [toNat_tag_number]
  omega

/-- A tag is its number and its wire type. -/
theorem tag_eq (tag : UInt64) : ((tag >>> 3) <<< 3) ||| (tag &&& 0x07).toUInt8.toUInt64 = tag := by
  have hwire := toNat_tag_wireType tag
  apply UInt64.toNat_inj.mp
  rw [toNat_tag (tag_number_lt tag) (by omega), hwire, toNat_tag_number]
  omega

namespace Record

variable (record : Record)

theorem tag_shiftRight : record.tag >>> 3 = record.number := by
  have hwire := record.value.wireType_lt
  apply UInt64.toNat_inj.mp
  rw [toNat_tag_number, tag, toNat_tag record.number_lt hwire]
  omega

theorem tag_and : (record.tag &&& 0x07).toUInt8 = record.value.wireType := by
  have hwire := record.value.wireType_lt
  apply UInt8.toNat_inj.mp
  rw [toNat_tag_wireType, tag, toNat_tag record.number_lt hwire]
  omega

theorem encode_ne_nil : record.encode ≠ [] :=
  List.append_ne_nil_of_left_ne_nil (writeUvarint_ne_nil _) _

end Record

/-! ## Where a record ends -/

/-- A varint ends where it says. -/
theorem writeUvarint_append_inj {value value' : UInt64} {rest rest' : Bytes}
    (h : writeUvarint value ++ rest = writeUvarint value' ++ rest') :
    value = value' ∧ rest = rest' := by
  have hread := readUvarint_writeUvarint_append value rest
  rw [h, readUvarint_writeUvarint_append, Except.ok.injEq, Prod.mk.injEq] at hread
  obtain ⟨rfl, -⟩ := hread
  exact ⟨rfl, List.append_cancel_left h⟩

/-- A value ends where its wire type says, whatever follows. -/
theorem Value.eq_of_append {value value' : Value} {rest rest' : Bytes}
    (hwire : value.wireType = value'.wireType)
    (h : value.encode ++ rest = value'.encode ++ rest') : value = value' := by
  have hfixed : ∀ {n : ℕ} {data data' : Vector UInt8 n},
      data.toList ++ rest = data'.toList ++ rest' → data = data' := by
    intro n data data' h
    have hlen : data.toList.length = data'.toList.length := by
      rw [Vector.length_toList, Vector.length_toList]
    exact Vector.toList_inj.mp (List.append_inj h hlen).1
  cases value with
  | varint v =>
    obtain ⟨v', rfl⟩ := Value.wireType_eq_varint_iff.mp hwire.symm
    rw [(writeUvarint_append_inj h).1]
  | i64 data =>
    obtain ⟨data', rfl⟩ := Value.wireType_eq_i64_iff.mp hwire.symm
    rw [hfixed h]
  | len data hdata =>
    obtain ⟨data', hdata', rfl⟩ := Value.wireType_eq_len_iff.mp hwire.symm
    rw [Value.encode, Value.encode, List.append_assoc, List.append_assoc] at h
    obtain ⟨hlen, hrest⟩ := writeUvarint_append_inj h
    have hlen := congrArg UInt64.toNat hlen
    rw [toNat_ofNat_length hdata, toNat_ofNat_length hdata'] at hlen
    obtain ⟨rfl, -⟩ := List.append_inj hrest hlen
    rfl
  | i32 data =>
    obtain ⟨data', rfl⟩ := Value.wireType_eq_i32_iff.mp hwire.symm
    rw [hfixed h]

/-- A record ends where its tag says, whatever follows. -/
theorem selfDelimiting_record : Records.SelfDelimiting Record.encode where
  ne_nil := Record.encode_ne_nil
  eq_of_append := by
    intro record record' rest rest' h
    rw [Record.encode, Record.encode, List.append_assoc, List.append_assoc] at h
    obtain ⟨htag, hvalue⟩ := writeUvarint_append_inj h
    have hnumber : record.number = record'.number := by
      rw [← record.tag_shiftRight, htag, record'.tag_shiftRight]
    have hwire : record.value.wireType = record'.value.wireType := by
      rw [← record.tag_and, htag, record'.tag_and]
    have hsame := Value.eq_of_append hwire hvalue
    cases record
    cases record'
    congr

/-! ## What the readers accept -/

section

variable {ε : Type} [WireError ε] {input : Bytes} {idx idx' : ℕ}

open Records (Spans)

/-- A varint is read where one stands. -/
theorem yields_readVarintValue_iff (hlen : input.length < 2 ^ 63) (hidx : idx ≤ input.length)
    {value : UInt64} : Yields (readVarintValue input idx : Fallible ε (UInt64 × ℕ)) (value, idx') ↔
      Spans input idx (writeUvarint value) idx' := by
  constructor
  · intro h
    rw [readVarintValue, Yields.lift_bind_iff (Exec.sliceFrom_eq_ok hidx)] at h
    cases hread : readUvarint (input.drop idx) with
    | error e =>
      rw [hread] at h
      exact absurd h Yields.not_throw
    | ok r =>
      obtain ⟨v, used⟩ := r
      have hspans := readUvarint_drop_iff.mp hread
      have hused := hspans.le_length hidx
      rw [hread] at h
      simp only at h
      rw [Yields.lift_bind_iff (Exec.add_eq_ok (by omega)), Yields.pure_iff] at h
      obtain ⟨rfl, rfl⟩ := Prod.mk.inj h
      exact hspans
  · intro h
    rw [readVarintValue_write hlen h.drop_eq, h.idx_eq]
    exact Yields.pure_iff.mpr rfl

/-- The bytes that fit behind a position. -/
theorem spans_take {n : ℕ} (h : idx + n ≤ input.length) :
    Spans input idx ((input.drop idx).take n) (idx + n) := by
  refine Records.spans_iff.mpr ⟨List.take_prefix _ _, ?_⟩
  rw [List.length_take, List.length_drop, Nat.min_eq_left (by omega)]

/-- A length is accepted if that many bytes follow. -/
theorem yields_readLength_iff (hlen : input.length < 2 ^ 63) (hidx : idx ≤ input.length)
    {n mid : ℕ} : Yields (readLength input idx : Fallible ε (ℕ × ℕ)) (n, mid) ↔
      ∃ data : Bytes, data.length = n ∧ n < 2 ^ 64 ∧
        Spans input idx (writeUvarint (UInt64.ofNat n)) mid ∧ Spans input mid data (mid + n) := by
  rw [readLength, Yields.bind_iff]
  constructor
  · rintro ⟨⟨value, mid'⟩, hread, h⟩
    have hspans := (yields_readVarintValue_iff hlen hidx).mp hread
    have hmid := hspans.le_length hidx
    simp only at h
    split at h
    · exact absurd h Yields.not_throw
    · obtain ⟨rfl, rfl⟩ := Prod.mk.inj (Yields.pure_iff.mp h)
      refine ⟨(input.drop mid').take value.toNat, ?_, value.toNat_lt, ?_, spans_take (by omega)⟩
      · rw [List.length_take, List.length_drop, Nat.min_eq_left (by omega)]
      · rw [UInt64.ofNat_toNat]
        exact hspans
  · rintro ⟨data, -, hn, hlength, hbody⟩
    have hvalue : (UInt64.ofNat n).toNat = n := by
      rw [UInt64.toNat_ofNat', Nat.mod_eq_of_lt hn]
    have hend := hbody.le_length (hlength.le_length hidx)
    refine ⟨_, (yields_readVarintValue_iff hlen hidx).mpr hlength, ?_⟩
    simp only [hvalue]
    rw [if_neg (by omega)]
    exact Yields.pure_iff.mpr rfl

/-- A length and that many bytes. -/
theorem spans_len_iff {data : Bytes} {hdata : data.length < 2 ^ 64} :
    Spans input idx (Value.len data hdata).encode idx' ↔
      ∃ mid, Spans input idx (writeUvarint (UInt64.ofNat data.length)) mid ∧
        Spans input mid data idx' := Records.spans_append_iff

/-- Skipping a length-delimited value passes over exactly one such value. -/
theorem yields_skipLen_iff (hlen : input.length < 2 ^ 63) (hidx : idx ≤ input.length) :
    Yields (skipLen input idx : Fallible ε ℕ) idx' ↔
      ∃ value : Value, value.wireType = wireLen ∧ Spans input idx value.encode idx' := by
  simp only [skipLen, Yields.bind_iff, Yields.lift_iff, Value.wireType_eq_len_iff]
  constructor
  · rintro ⟨⟨n, mid⟩, hread, hadd⟩
    obtain ⟨data, rfl, hdata, hlength, hbody⟩ := (yields_readLength_iff hlen hidx).mp hread
    have hend := hbody.le_length (hlength.le_length hidx)
    rw [Exec.add_eq_ok (by omega), Except.ok.injEq] at hadd
    subst hadd
    exact ⟨_, ⟨data, hdata, rfl⟩, spans_len_iff.mpr ⟨mid, hlength, hbody⟩⟩
  · rintro ⟨_, ⟨data, hdata, rfl⟩, hspans⟩
    obtain ⟨mid, hlength, hbody⟩ := spans_len_iff.mp hspans
    have hend := hbody.le_length (hlength.le_length hidx)
    obtain rfl := hbody.idx_eq
    exact ⟨(data.length, mid),
      (yields_readLength_iff hlen hidx).mpr ⟨data, rfl, hdata, hlength, hbody⟩,
      Exec.add_eq_ok (by omega)⟩

/-- A length-delimited value is what it skips. -/
theorem yields_readLenDelimited_iff (hlen : input.length < 2 ^ 63) (hidx : idx ≤ input.length)
    {data : Bytes} :
    Yields (readLenDelimited input idx : Fallible ε (Bytes × ℕ)) (data, idx') ↔
      ∃ hdata, Spans input idx (Value.len data hdata).encode idx' := by
  have hrest : ∀ {n mid : ℕ}, mid + n ≤ input.length → (Yields (do
      let stop ← Exec.add mid n
      let value ← Exec.slice input mid stop
      let idx ← Exec.add mid n
      return (value, idx) : Fallible ε (Bytes × ℕ)) (data, idx') ↔
        data = (input.drop mid).take n ∧ idx' = mid + n) := by
    intro n mid hfits
    have hadd : Exec.add mid n = .ok (mid + n) := Exec.add_eq_ok (by omega)
    rw [Yields.lift_bind_iff hadd, Yields.lift_bind_iff (Exec.slice_eq_ok (by omega) hfits),
      Yields.lift_bind_iff hadd, Yields.pure_iff, List.drop_take, Nat.add_sub_cancel_left,
      Prod.mk.injEq, eq_comm, eq_comm (a := mid + n)]
  simp only [readLenDelimited, Yields.bind_iff (x := readLength input idx), spans_len_iff]
  constructor
  · rintro ⟨⟨n, mid⟩, hread, h⟩
    obtain ⟨body, rfl, hdata, hlength, hbody⟩ := (yields_readLength_iff hlen hidx).mp hread
    have hend := hbody.le_length (hlength.le_length hidx)
    obtain ⟨rfl, rfl⟩ := (hrest hend).mp h
    rw [hbody.drop_eq, List.take_left]
    exact ⟨hdata, mid, hlength, hbody⟩
  · rintro ⟨hdata, mid, hlength, hbody⟩
    have hend := hbody.le_length (hlength.le_length hidx)
    obtain rfl := hbody.idx_eq
    refine ⟨(data.length, mid),
      (yields_readLength_iff hlen hidx).mpr ⟨data, rfl, hdata, hlength, hbody⟩, ?_⟩
    rw [hrest hend, hbody.drop_eq, List.take_left]
    exact ⟨rfl, rfl⟩

omit [WireError ε] in
/-- A value of a fixed size is there if that many bytes are. -/
theorem exists_vector_iff {size : ℕ} (hidx : idx ≤ input.length) :
    (∃ data : Vector UInt8 size, Spans input idx data.toList idx') ↔
      idx + size ≤ input.length ∧ idx' = idx + size := by
  constructor
  · rintro ⟨data, hspans⟩
    have hend := hspans.le_length hidx
    have hidx' := hspans.idx_eq
    rw [Vector.length_toList] at hidx'
    exact ⟨hidx' ▸ hend, hidx'⟩
  · rintro ⟨hfits, rfl⟩
    have hspans : Spans input idx ((input.drop idx).take size) (idx + size) := spans_take hfits
    have hsize := hspans.idx_eq
    refine ⟨⟨((input.drop idx).take size).toArray, ?_⟩, hspans⟩
    rw [List.size_toArray]
    omega

/-- Skipping a value of fixed size passes over exactly that many bytes. -/
theorem yields_skipFixed_iff {size : ℕ} (hsize : size < 2 ^ 63) (hlen : input.length < 2 ^ 63)
    (hidx : idx ≤ input.length) : Yields (skipFixed size input idx : Fallible ε ℕ) idx' ↔
      ∃ data : Vector UInt8 size, Spans input idx data.toList idx' := by
  have hadd : Exec.add idx size = .ok (idx + size) := Exec.add_eq_ok (by omega)
  rw [skipFixed, Yields.lift_bind_iff hadd, exists_vector_iff hidx]
  split
  · next hgt => exact iff_of_false Yields.not_throw fun h => Nat.not_le_of_lt hgt h.1
  · next hle =>
    rw [Yields.lift_iff, hadd, Except.ok.injEq, eq_comm, and_iff_right (Nat.le_of_not_lt hle)]

/-- The values of a fixed size, as values. -/
theorem exists_i64_iff : (∃ data : Vector UInt8 8, Spans input idx data.toList idx') ↔
    ∃ value : Value, value.wireType = wireI64 ∧ Spans input idx value.encode idx' := by
  simp only [Value.wireType_eq_i64_iff]
  constructor
  · rintro ⟨data, hspans⟩
    exact ⟨.i64 data, ⟨data, rfl⟩, hspans⟩
  · rintro ⟨_, ⟨data, rfl⟩, hspans⟩
    exact ⟨data, hspans⟩

theorem exists_i32_iff : (∃ data : Vector UInt8 4, Spans input idx data.toList idx') ↔
    ∃ value : Value, value.wireType = wireI32 ∧ Spans input idx value.encode idx' := by
  simp only [Value.wireType_eq_i32_iff]
  constructor
  · rintro ⟨data, hspans⟩
    exact ⟨.i32 data, ⟨data, rfl⟩, hspans⟩
  · rintro ⟨_, ⟨data, rfl⟩, hspans⟩
    exact ⟨data, hspans⟩

theorem yields_skipI64_iff (hlen : input.length < 2 ^ 63) (hidx : idx ≤ input.length) :
    Yields (skipFixed 8 input idx : Fallible ε ℕ) idx' ↔
      ∃ value : Value, value.wireType = wireI64 ∧ Spans input idx value.encode idx' := by
  rw [yields_skipFixed_iff (by decide) hlen hidx, exists_i64_iff]

theorem yields_skipI32_iff (hlen : input.length < 2 ^ 63) (hidx : idx ≤ input.length) :
    Yields (skipFixed 4 input idx : Fallible ε ℕ) idx' ↔
      ∃ value : Value, value.wireType = wireI32 ∧ Spans input idx value.encode idx' := by
  rw [yields_skipFixed_iff (by decide) hlen hidx, exists_i32_iff]

/-- A tag that was read is the varint that stands there. -/
theorem yields_readTag_iff (hlen : input.length < 2 ^ 63) (hidx : idx < input.length)
    {number : UInt64} {wireType : UInt8} :
    Yields (readTag input idx : Fallible ε (Option ((UInt64 × UInt8) × ℕ)))
      (some ((number, wireType), idx')) ↔
        ∃ tag : UInt64, Spans input idx (writeUvarint tag) idx' ∧ tag >>> 3 = number ∧
          (tag &&& 0x07).toUInt8 = wireType := by
  rw [readTag, if_neg (Nat.not_le_of_lt hidx), Yields.bind_iff]
  constructor
  · rintro ⟨⟨tag, mid⟩, hread, h⟩
    obtain ⟨⟨rfl, rfl⟩, rfl⟩ : (tag >>> 3 = number ∧ (tag &&& 0x07).toUInt8 = wireType) ∧
        mid = idx' := by
      simpa using h
    exact ⟨tag, (yields_readVarintValue_iff hlen hidx.le).mp hread, rfl, rfl⟩
  · rintro ⟨tag, hspans, rfl, rfl⟩
    exact ⟨_, (yields_readVarintValue_iff hlen hidx.le).mpr hspans, Yields.pure_iff.mpr rfl⟩

/-- Inside the input there is a tag. -/
theorem readTag_ne_none (hidx : idx < input.length) :
    ¬ Yields (readTag input idx : Fallible ε (Option ((UInt64 × UInt8) × ℕ))) none := by
  rw [readTag, if_neg (Nat.not_le_of_lt hidx), Yields.bind_iff]
  rintro ⟨found, -, h⟩
  cases Yields.pure_iff.mp h

/-! ## What the loop accepts -/

variable {σ : Type} {field : FieldReader ε σ} {act : σ → UInt64 → Value → Option σ}

/-- What a record does to the message read so far. -/
def onRecord (act : σ → UInt64 → Value → Option σ) (msg : σ) (record : Record) : Option σ :=
  act msg record.number record.value

/-- The records of `input` turn one message into the other. -/
abbrev Decodes (act : σ → UInt64 → Value → Option σ) (input : Bytes) (msg msg' : σ) : Prop :=
  Records.Decodes Record.encode (onRecord act) input msg msg'

/-- Behind a tag, the reader of the fields takes the value of the record and does what `act` says,
or fails if `act` has no result. -/
def Acts (field : FieldReader ε σ) (act : σ → UInt64 → Value → Option σ) (input : Bytes) : Prop :=
  ∀ number wireType msg idx msg' idx', idx ≤ input.length →
    (Yields (field input number wireType msg idx) (msg', idx') ↔
      ∃ value : Value, value.wireType = wireType ∧ Spans input idx value.encode idx' ∧
        act msg number value = some msg')

section

variable {msg msg' : σ} {number : UInt64}

/-- A field that holds a varint. -/
theorem acts_varint (hlen : input.length < 2 ^ 63) (hidx : idx ≤ input.length)
    {k : UInt64 × ℕ → Fallible ε (σ × ℕ)}
    (hk : ∀ v i, Yields (k (v, i)) (msg', idx') ↔
      i = idx' ∧ act msg number (.varint v) = some msg') :
    Yields (readVarintValue input idx >>= k) (msg', idx') ↔
      ∃ value : Value, value.wireType = wireVarint ∧ Spans input idx value.encode idx' ∧
        act msg number value = some msg' := by
  rw [Yields.bind_iff]
  constructor
  · rintro ⟨⟨v, i⟩, hread, h⟩
    obtain ⟨rfl, hact⟩ := (hk v i).mp h
    exact ⟨.varint v, rfl, (yields_readVarintValue_iff hlen hidx).mp hread, hact⟩
  · rintro ⟨value, hwire, hspans, hact⟩
    obtain ⟨v, rfl⟩ := Value.wireType_eq_varint_iff.mp hwire
    exact ⟨(v, idx'), (yields_readVarintValue_iff hlen hidx).mpr hspans, (hk v _).mpr ⟨rfl, hact⟩⟩

/-- A field that holds bytes. -/
theorem acts_len (hlen : input.length < 2 ^ 63) (hidx : idx ≤ input.length)
    {k : Bytes × ℕ → Fallible ε (σ × ℕ)}
    (hk : ∀ data hdata i, Yields (k (data, i)) (msg', idx') ↔
      i = idx' ∧ act msg number (.len data hdata) = some msg') :
    Yields (readLenDelimited input idx >>= k) (msg', idx') ↔
      ∃ value : Value, value.wireType = wireLen ∧ Spans input idx value.encode idx' ∧
        act msg number value = some msg' := by
  rw [Yields.bind_iff]
  constructor
  · rintro ⟨⟨data, i⟩, hread, h⟩
    obtain ⟨hdata, hspans⟩ := (yields_readLenDelimited_iff hlen hidx).mp hread
    obtain ⟨rfl, hact⟩ := (hk data hdata i).mp h
    exact ⟨.len data hdata, rfl, hspans, hact⟩
  · rintro ⟨value, hwire, hspans, hact⟩
    obtain ⟨data, hdata, rfl⟩ := Value.wireType_eq_len_iff.mp hwire
    exact ⟨(data, idx'), (yields_readLenDelimited_iff hlen hidx).mpr ⟨hdata, hspans⟩,
      (hk data hdata _).mpr ⟨rfl, hact⟩⟩

omit [WireError ε] in
/-- A message that is nested in the field. -/
theorem yields_nested_iff {α : Type} {x : Fallible ε α} {f : α → σ} {i : ℕ} :
    Yields (do let inner ← x; return (f inner, i)) (msg', idx') ↔
      i = idx' ∧ x.toOption.map f = some msg' := by
  rw [Yields.bind_iff, Option.map_eq_some_iff]
  constructor
  · rintro ⟨inner, hinner, h⟩
    obtain ⟨rfl, rfl⟩ := Prod.mk.inj (Yields.pure_iff.mp h)
    exact ⟨rfl, inner, Fallible.toOption_eq_some_iff.mpr hinner, rfl⟩
  · rintro ⟨rfl, inner, hinner, rfl⟩
    exact ⟨inner, Fallible.toOption_eq_some_iff.mp hinner, Yields.pure_iff.mpr rfl⟩

omit [WireError ε] in
/-- A field that is skipped: `skip` goes over the values of its wire type, and none of them does
anything. -/
theorem acts_skip {skip : Fallible ε ℕ} {wireType : UInt8}
    (hskip : Yields skip idx' ↔
      ∃ value : Value, value.wireType = wireType ∧ Spans input idx value.encode idx')
    (hact : ∀ value : Value, value.wireType = wireType → act msg number value = some msg) :
    Yields (do let idx ← skip; return (msg, idx)) (msg', idx') ↔
      ∃ value : Value, value.wireType = wireType ∧ Spans input idx value.encode idx' ∧
        act msg number value = some msg' := by
  rw [Yields.bind_iff]
  constructor
  · rintro ⟨i, hread, h⟩
    obtain ⟨rfl, rfl⟩ := Prod.mk.inj (Yields.pure_iff.mp h)
    obtain ⟨value, hwire, hspans⟩ := hskip.mp hread
    exact ⟨value, hwire, hspans, hact value hwire⟩
  · rintro ⟨value, hwire, hspans, h⟩
    obtain rfl := Option.some.inj ((hact value hwire).symm.trans h)
    exact ⟨idx', hskip.mpr ⟨value, hwire, hspans⟩, Yields.pure_iff.mpr rfl⟩

end

/-- A tag and the value behind it are a record. -/
theorem exists_record_iff {msg : σ} {P : ℕ → σ → Prop} :
    (∃ tag mid, Spans input idx (writeUvarint tag) mid ∧ ∃ msg' idx', (∃ value : Value,
      value.wireType = (tag &&& 0x07).toUInt8 ∧ Spans input mid value.encode idx' ∧
        act msg (tag >>> 3) value = some msg') ∧ P idx' msg') ↔
    ∃ record idx' msg', Spans input idx (Record.encode record) idx' ∧
      onRecord act msg record = some msg' ∧ P idx' msg' := by
  constructor
  · rintro ⟨tag, mid, htag, msg', idx', ⟨value, hwire, hvalue, hact⟩, h⟩
    refine ⟨⟨tag >>> 3, value, tag_number_lt tag⟩, idx', msg', ?_, hact, h⟩
    refine Records.spans_append_iff.mpr ⟨mid, ?_, hvalue⟩
    rw [Record.tag, hwire, tag_eq]
    exact htag
  · rintro ⟨record, idx', msg', hspans, hact, h⟩
    obtain ⟨mid, htag, hvalue⟩ := Records.spans_append_iff.mp hspans
    refine ⟨record.tag, mid, htag, msg', idx', ⟨record.value, ?_, hvalue, ?_⟩, h⟩
    · exact record.tag_and.symm
    · rw [record.tag_shiftRight]
      exact hact

/-- The loop of the decoders acts on the records of the input in turn. -/
theorem loop_decodeFields (hlen : input.length < 2 ^ 63) (hacts : Acts field act input) :
    Records.Loop Record.encode (onRecord act) input fun fuel msg idx msg' =>
      Yields (decodeFieldsGo field input (fuel + 1) msg idx) msg' where
  finish := by
    intro fuel msg msg' idx hend
    rw [decodeFieldsGo, readTag, if_pos hend, pure_bind, Yields.pure_iff]
  turn := by
    intro fuel msg msg' idx hidx
    rw [decodeFieldsGo, Yields.bind_iff, ← exists_record_iff]
    constructor
    · rintro ⟨found, htag, h⟩
      cases found with
      | none => exact absurd htag (readTag_ne_none hidx)
      | some found =>
        obtain ⟨⟨number, wireType⟩, mid⟩ := found
        obtain ⟨tag, hspans, rfl, rfl⟩ := (yields_readTag_iff hlen hidx).mp htag
        obtain ⟨⟨msg₁, idx'⟩, hfield, hrest⟩ := Yields.bind_iff.mp h
        have hmid := hspans.le_length hidx.le
        exact ⟨tag, mid, hspans, msg₁, idx', (hacts _ _ _ _ _ _ hmid).mp hfield, hrest⟩
    · rintro ⟨tag, mid, hspans, msg₁, idx', hvalue, hrest⟩
      have hmid := hspans.le_length hidx.le
      refine ⟨_, (yields_readTag_iff hlen hidx).mpr ⟨tag, hspans, rfl, rfl⟩, ?_⟩
      exact Yields.bind_iff.mpr ⟨(msg₁, idx'), (hacts _ _ _ _ _ _ hmid).mpr hvalue, hrest⟩

/-- A decoder makes of its input what its fields make of the records of the input. -/
theorem decodeFields_iff (hlen : input.length < 2 ^ 63) (hacts : Acts field act input)
    {msg msg' : σ} : Yields (decodeFields field input msg) msg' ↔
      Decodes act input msg msg' := by
  have hloop : Yields (decodeFieldsGo field input (input.length + 1) msg 0) msg' ↔
      Decodes act (input.drop 0) msg msg' :=
    (loop_decodeFields hlen hacts).decodes_iff selfDelimiting_record (Nat.le_add_left _ 0)
  exact hloop

end

/-! ## What an encoder writes -/

section

variable {σ : Type} {act : σ → UInt64 → Value → Option σ} {number : UInt64} {rest : Bytes}
  {msg msg₁ msg' : σ}

/-- The field of a small number is a record. -/
theorem encode_field (field : Field) (hnumber : field.number < 16) (record : Record)
    (heq : record.number = field.number) (hwire : record.value.wireType = field.wireType)
    (hvalue : record.value.encode = field.body) : field.encode = record.encode := by
  obtain ⟨tag, htag, hnum, htype⟩ := field.tag_number hnumber
  have hsame : record.tag = tag := by
    rw [Record.tag, heq, hwire, ← hnum, ← htype, tag_eq]
  rw [Record.encode, hsame, htag, hvalue]
  rfl

theorem lt_of_small (hnumber : number < 16) : number.toNat < 2 ^ 61 :=
  Nat.lt_trans (UInt64.lt_iff_toNat_lt.mp hnumber) (by decide)

theorem decodes_nil (msg : σ) : Decodes act [] msg msg :=
  (Records.decodes_nil_iff selfDelimiting_record).mpr rfl

theorem decodes_varint (hnumber : number < 16) {value : UInt64}
    (hact : act msg number (.varint value) = some msg₁)
    (h : Decodes act rest msg₁ msg') :
    Decodes act ((Field.varint number value).encode ++ rest) msg msg' := by
  rw [encode_field (.varint number value) hnumber ⟨number, .varint value, lt_of_small hnumber⟩
    rfl rfl rfl]
  exact (Records.decodes_cons_iff selfDelimiting_record).mpr ⟨msg₁, hact, h⟩

theorem decodes_bytes (hnumber : number < 16) {data : Bytes} (hdata : data.length < 2 ^ 64)
    (hact : act msg number (.len data hdata) = some msg₁)
    (h : Decodes act rest msg₁ msg') :
    Decodes act ((Field.bytes number data).encode ++ rest) msg msg' := by
  rw [encode_field (.bytes number data) hnumber ⟨number, .len data hdata, lt_of_small hnumber⟩
    rfl rfl rfl]
  exact (Records.decodes_cons_iff selfDelimiting_record).mpr ⟨msg₁, hact, h⟩

/-- A repeated field; `put` is the message with the values that were collected. -/
theorem decodes_repeated (hnumber : number < 16) (put : List Bytes → σ)
    {collected values : List Bytes} (hvalues : ∀ data ∈ values, data.length < 2 ^ 64)
    (hact : ∀ before data hdata,
      act (put before) number (.len data hdata) = some (put (before ++ [data])))
    (h : Decodes act rest (put (collected ++ values)) msg') :
    Decodes act ((values.flatMap fun data => (Field.bytes number data).encode) ++ rest)
      (put collected) msg' := by
  induction values generalizing collected with
  | nil =>
    rw [List.append_nil] at h
    exact h
  | cons data values ih =>
    obtain ⟨hdata, hvalues⟩ := List.forall_mem_cons.mp hvalues
    rw [List.flatMap_cons, List.append_assoc]
    refine decodes_bytes hnumber hdata (hact collected data hdata) (ih hvalues ?_)
    rw [List.append_assoc]
    exact h

end

end Minip2p.Wire
