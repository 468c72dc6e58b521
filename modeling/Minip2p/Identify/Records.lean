import Minip2p.Core.Records
import Minip2p.Identify.RoundTrip

/-!
# Identify messages as records

What a record does to a message, and that the decoder does just that: an input is decoded if and
only if it is a sequence of records whose known texts are UTF-8. So two inputs one behind the other
are decoded to the merge of their messages, and a record that is not known does nothing.
-/

namespace Minip2p.Identify

open Wire (Value Record)
open Records (Spans)

variable {input : Bytes} {idx idx' : ℕ}

/-! ## What the readers accept -/

/-- A varint is read where one is written. -/
theorem readVarint_iff {value : UInt64} :
    readVarint input idx = .ok (value, idx') ↔ Spans input idx (writeUvarint value) idx' := by
  constructor
  · intro h
    rw [readVarint] at h
    split at h
    · cases h
    · next v used hread =>
      obtain ⟨rfl, rfl⟩ := Prod.mk.inj (Except.ok.inj h)
      exact readUvarint_drop_iff.mp hread
  · intro h
    rw [readVarint_write h.drop_eq, h.idx_eq]

/-- A length-delimited value is read where one is written. -/
theorem readLenDelimited_iff (hidx : idx ≤ input.length) {data : Bytes} :
    readLenDelimited input idx = .ok (data, idx') ↔
      ∃ hdata, Spans input idx (Value.len data hdata).encode idx' := by
  rw [readLenDelimited, Except.bind_eq_ok_iff]
  simp only [Wire.spans_len_iff]
  constructor
  · rintro ⟨⟨value, mid⟩, hread, h⟩
    have hspans := readVarint_iff.mp hread
    have hmid := hspans.le_length hidx
    simp only at h
    split at h
    · cases h
    · next hfits =>
      obtain ⟨rfl, rfl⟩ := Prod.mk.inj (Except.ok.inj h)
      have hlength : ((input.drop mid).take value.toNat).length = value.toNat := by
        rw [List.length_take, List.length_drop, Nat.min_eq_left (by omega)]
      refine ⟨Nat.lt_of_le_of_lt hlength.le value.toNat_lt, mid, ?_, Wire.spans_take (by omega)⟩
      rw [hlength, UInt64.ofNat_toNat]
      exact hspans
  · rintro ⟨hdata, mid, hlength, hbody⟩
    have hend := hbody.le_length (hlength.le_length hidx)
    obtain rfl := hbody.idx_eq
    refine ⟨_, readVarint_iff.mpr hlength, ?_⟩
    simp only [toNat_ofNat_length hdata]
    rw [if_neg (by omega), hbody.drop_eq, List.take_left]
    rfl

/-- A field of fixed size is skipped where there are as many bytes. -/
theorem skipFixed_iff {size : ℕ} (hidx : idx ≤ input.length) :
    skipFixed size input idx = .ok idx' ↔
      ∃ data : Vector UInt8 size, Spans input idx data.toList idx' := by
  rw [skipFixed, Wire.exists_vector_iff hidx]
  split
  · next hgt => exact iff_of_false (fun h => by cases h) fun h => Nat.not_le_of_lt hgt h.1
  · next hle => rw [Except.ok.injEq, eq_comm, and_iff_right (Nat.le_of_not_lt hle)]

/-- The varint that a skipped field has. -/
theorem skipVarint_iff : (do let (_, idx) ← readVarint input idx; return idx) = .ok idx' ↔
    ∃ value : Value, value.wireType = wireVarint ∧ Spans input idx value.encode idx' := by
  rw [Except.bind_eq_ok_iff]
  simp only [Value.wireType_eq_varint_iff]
  constructor
  · rintro ⟨⟨v, i⟩, hread, h⟩
    obtain rfl := Except.ok.inj h
    exact ⟨_, ⟨v, rfl⟩, readVarint_iff.mp hread⟩
  · rintro ⟨_, ⟨v, rfl⟩, hspans⟩
    exact ⟨(v, idx'), readVarint_iff.mpr hspans, rfl⟩

/-- Four bytes are skipped as a fixed32 value. -/
theorem skipI32_iff (hidx : idx ≤ input.length) : skipFixed 4 input idx = .ok idx' ↔
    ∃ value : Value, value.wireType = wireI32 ∧ Spans input idx value.encode idx' := by
  rw [skipFixed_iff hidx, Wire.exists_i32_iff]

/-- Eight bytes are skipped as a fixed64 value. -/
theorem skipI64_iff (hidx : idx ≤ input.length) : skipFixed 8 input idx = .ok idx' ↔
    ∃ value : Value, value.wireType = wireI64 ∧ Spans input idx value.encode idx' := by
  rw [skipFixed_iff hidx, Wire.exists_i64_iff]

/-! ## What a record does -/

namespace IdentifyMessage

/-- A field that is known is stored, if its value is what the field is for. -/
def act (msg : IdentifyMessage) (number : UInt64) : Value → Option IdentifyMessage
  | .len data _ => (setField msg number data).toOption
  | _ => some msg

end IdentifyMessage

theorem toOption_eq_some_iff {ε α : Type} {x : Except ε α} {a : α} :
    x.toOption = some a ↔ x = .ok a := by
  cases x with
  | error e => exact iff_of_false (fun h => by cases h) (fun h => by cases h)
  | ok b => exact (Option.some.injEq b a).to_iff.trans (Except.ok.injEq b a).to_iff.symm

/-- A field that is skipped. -/
theorem skip_iff {skip : Except IdentifyMessageError ℕ} {number : UInt64} {wireType : UInt8}
    {msg msg' : IdentifyMessage}
    (hskip : skip = .ok idx' ↔
      ∃ value : Value, value.wireType = wireType ∧ Spans input idx value.encode idx')
    (hact : ∀ value : Value, value.wireType = wireType → msg.act number value = some msg) :
    (do let idx ← skip; return (msg, idx)) = .ok (msg', idx') ↔
      ∃ value : Value, value.wireType = wireType ∧ Spans input idx value.encode idx' ∧
        msg.act number value = some msg' := by
  rw [Except.bind_eq_ok_iff]
  constructor
  · rintro ⟨i, hread, h⟩
    obtain ⟨rfl, rfl⟩ := Prod.mk.inj (Except.ok.inj h)
    obtain ⟨value, hwire, hspans⟩ := hskip.mp hread
    exact ⟨value, hwire, hspans, hact value hwire⟩
  · rintro ⟨value, hwire, hspans, h⟩
    obtain rfl := Option.some.inj ((hact value hwire).symm.trans h)
    exact ⟨idx', hskip.mpr ⟨value, hwire, hspans⟩, rfl⟩

/-- A field is read as its record says. -/
theorem decodeField_iff (hidx : idx ≤ input.length) {number : UInt64} {wireType : UInt8}
    {msg msg' : IdentifyMessage} :
    decodeField input number wireType msg idx = .ok (msg', idx') ↔
      ∃ value : Value, value.wireType = wireType ∧ Spans input idx value.encode idx' ∧
        msg.act number value = some msg' := by
  unfold decodeField
  split
  · next hlen =>
    rw [Except.bind_eq_ok_iff]
    constructor
    · rintro ⟨⟨data, i⟩, hread, h⟩
      obtain ⟨msg₁, hset, h⟩ := Except.bind_eq_ok_iff.mp h
      obtain ⟨rfl, rfl⟩ := Prod.mk.inj (Except.ok.inj h)
      obtain ⟨hdata, hspans⟩ := (readLenDelimited_iff hidx).mp hread
      exact ⟨.len data hdata, hlen.symm, hspans, toOption_eq_some_iff.mpr hset⟩
    · rintro ⟨value, hwire, hspans, hact⟩
      obtain ⟨data, hdata, rfl⟩ := Value.wireType_eq_len_iff.mp (hwire.trans hlen)
      refine ⟨(data, idx'), (readLenDelimited_iff hidx).mpr ⟨hdata, hspans⟩, ?_⟩
      exact Except.bind_eq_ok_iff.mpr ⟨msg', toOption_eq_some_iff.mp hact, rfl⟩
  -- the values of all other wire types are skipped
  split
  · next h =>
    obtain rfl := h
    rw [← skip_iff skipVarint_iff, bind_assoc]
    · rfl
    · intro value hwire
      obtain ⟨v, rfl⟩ := Value.wireType_eq_varint_iff.mp hwire
      rfl
  split
  · next h =>
    obtain rfl := h
    refine skip_iff (skipI32_iff hidx) fun value hwire => ?_
    obtain ⟨data, rfl⟩ := Value.wireType_eq_i32_iff.mp hwire
    rfl
  split
  · next h =>
    obtain rfl := h
    refine skip_iff (skipI64_iff hidx) fun value hwire => ?_
    obtain ⟨data, rfl⟩ := Value.wireType_eq_i64_iff.mp hwire
    rfl
  · next hlen hvarint hi32 hi64 =>
    refine iff_of_false (fun h => by cases h) ?_
    rintro ⟨value, hwire, -⟩
    exact Value.wireType_ne hvarint hi64 hlen hi32 hwire

/-! ## What the decoder accepts -/

/-- The loop over the fields is the one over the records. -/
theorem loop_decodeGo : Records.Loop Record.encode (Wire.onRecord IdentifyMessage.act) input
    fun fuel msg idx msg' => decodeGo input fuel msg idx = .ok msg' where
  finish := by
    intro fuel msg msg' idx hend
    cases fuel with
    | zero => rw [decodeGo, Except.ok.injEq]
    | succ fuel => rw [decodeGo, if_pos hend, Except.ok.injEq]
  turn := by
    intro fuel msg msg' idx hidx
    rw [decodeGo, if_neg (Nat.not_le_of_lt hidx), Except.bind_eq_ok_iff, ← Wire.exists_record_iff]
    constructor
    · rintro ⟨⟨tag, mid⟩, hread, h⟩
      have hspans := readVarint_iff.mp hread
      obtain ⟨⟨msg₁, idx'⟩, hfield, hrest⟩ := Except.bind_eq_ok_iff.mp h
      exact ⟨tag, mid, hspans, msg₁, idx',
        (decodeField_iff (hspans.le_length hidx.le)).mp hfield, hrest⟩
    · rintro ⟨tag, mid, hspans, msg₁, idx', hvalue, hrest⟩
      refine ⟨(tag, mid), readVarint_iff.mpr hspans, Except.bind_eq_ok_iff.mpr ?_⟩
      exact ⟨(msg₁, idx'), (decodeField_iff (hspans.le_length hidx.le)).mpr hvalue, hrest⟩

namespace IdentifyMessage

/-- An input is decoded to what its records make of the empty message. -/
theorem decode_iff {msg : IdentifyMessage} :
    decode input = .ok msg ↔ Wire.Decodes act input default msg := by
  have hloop : decodeGo input input.length default 0 = .ok msg ↔
      Wire.Decodes act (input.drop 0) default msg :=
    loop_decodeGo.decodes_iff Wire.selfDelimiting_record (Nat.le_add_left _ 0)
  exact hloop

/-! ## Two inputs one behind the other -/

/-- The fields of both messages; of a field that is there once, that of the second one. -/
def merge (first second : IdentifyMessage) : IdentifyMessage where
  publicKey := second.publicKey.or first.publicKey
  listenAddrs := first.listenAddrs ++ second.listenAddrs
  protocols := first.protocols ++ second.protocols
  observedAddr := second.observedAddr.or first.observedAddr
  protocolVersion := second.protocolVersion.or first.protocolVersion
  agentVersion := second.agentVersion.or first.agentVersion

/-- Merging with nothing changes nothing. -/
theorem merge_default (msg : IdentifyMessage) : msg.merge default = msg := by
  have haddrs : msg.listenAddrs ++ [] = msg.listenAddrs := List.append_nil _
  have hprotocols : msg.protocols ++ [] = msg.protocols := List.append_nil _
  show IdentifyMessage.mk msg.publicKey (msg.listenAddrs ++ []) (msg.protocols ++ [])
    msg.observedAddr msg.protocolVersion msg.agentVersion = msg
  rw [haddrs, hprotocols]

/-- A record does to a merged message what it does to the second one. -/
theorem act_merge (first msg : IdentifyMessage) (number : UInt64) (value : Value) :
    (first.merge msg).act number value = (msg.act number value).map first.merge := by
  cases value with
  | varint | i64 | i32 => rfl
  | len data hdata =>
    show (setField (first.merge msg) number data).toOption =
      (setField msg number data).toOption.map first.merge
    unfold setField
    split
    · rfl
    split
    · simp [merge, Except.toOption]
    split
    · cases readString number data with
      | error e => rfl
      | ok s => simp [merge, Except.toOption, bind, Except.bind, pure, Except.pure]
    split
    · rfl
    split
    · cases readString number data with
      | error e => rfl
      | ok s => rfl
    split
    · cases readString number data with
      | error e => rfl
      | ok s => rfl
    · rfl

/-- Two messages in a row are read as one that merges them. -/
theorem decode_append_iff {a b : Bytes} {first msg : IdentifyMessage} (h : decode a = .ok first) :
    decode (a ++ b) = .ok msg ↔ ∃ second, decode b = .ok second ∧ msg = first.merge second := by
  have hact : ∀ (msg : IdentifyMessage) (record : Record),
      Wire.onRecord act (first.merge msg) record =
        (Wire.onRecord act msg record).map first.merge :=
    fun msg record => act_merge first msg record.number record.value
  have hrest : Wire.Decodes act (a ++ b) default msg ↔
      Wire.Decodes act b (first.merge default) msg := by
    rw [merge_default]
    exact (decode_iff.mp h).append_iff Wire.selfDelimiting_record
  rw [decode_iff, hrest]
  simp only [decode_iff]
  exact Records.decodes_map_iff hact

/-! ## Records that are not known -/

/-- A record that is not a field of the message: its number is another one, or its value is not
length-delimited. -/
def Unknown (record : Record) : Prop :=
  record.number ∉ [fieldPublicKey, fieldListenAddrs, fieldProtocols, fieldObservedAddr,
    fieldProtocolVersion, fieldAgentVersion] ∨ record.value.wireType ≠ wireLen

/-- An unknown record changes nothing. -/
theorem act_unknown {record : Record} (h : Unknown record) (msg : IdentifyMessage) :
    Wire.onRecord act msg record = some msg := by
  obtain ⟨number, value, hlt⟩ := record
  cases value with
  | varint | i64 | i32 => rfl
  | len data hdata =>
    have hnumber := h.resolve_right fun hwire => hwire rfl
    simp only [List.mem_cons, List.not_mem_nil, not_or] at hnumber
    simp [Wire.onRecord, act, setField, hnumber, Except.toOption]

/-- An unknown record between two others changes nothing. -/
theorem decode_insert_iff {record : Record} (h : Unknown record) {before : List Record}
    {rest : Bytes} {msg : IdentifyMessage} :
    decode (Wire.encodeRecords before ++ (record.encode ++ rest)) = .ok msg ↔
      decode (Wire.encodeRecords before ++ rest) = .ok msg := by
  rw [decode_iff, decode_iff]
  exact Records.decodes_insert_iff Wire.selfDelimiting_record (act_unknown h)

/-- The laws of the codec: a message is decoded from its encoding, two inputs one behind the other
are decoded to the merge of their messages, and an unknown record is an empty message that may stand
between any two records. -/
theorem codec_laws :
    (∀ msg : IdentifyMessage, msg.encode.length < 2 ^ 63 → decode msg.encode = .ok msg) ∧
    (∀ (a b : Bytes) (first msg : IdentifyMessage), decode a = .ok first →
      (decode (a ++ b) = .ok msg ↔ ∃ second, decode b = .ok second ∧ msg = first.merge second)) ∧
    ∀ record : Record, Unknown record → decode record.encode = .ok default ∧
      ∀ (before : List Record) (rest : Bytes) (msg : IdentifyMessage),
        decode (Wire.encodeRecords before ++ (record.encode ++ rest)) = .ok msg ↔
          decode (Wire.encodeRecords before ++ rest) = .ok msg := by
  refine ⟨decode_encode, fun a b first msg => decode_append_iff, fun record h => ⟨?_, ?_⟩⟩
  · have hempty : decode (Wire.encodeRecords [] ++ []) = .ok default := by rfl
    have hone := (decode_insert_iff h).mpr hempty
    rw [List.append_nil] at hone
    exact hone
  · exact fun before rest msg => decode_insert_iff h

/-- Two messages, and a field with number 33, whose tag ends like that of the public key. -/
theorem codec_laws_key :
    decode [10, 1, 7] = .ok { publicKey := some [7] } ∧
    decode ([10, 1, 7] ++ [10, 1, 8, 18, 1, 9]) =
      .ok { publicKey := some [8], listenAddrs := [[9]] } ∧
    decode [138, 2, 1, 5] = .ok default := by
  obtain ⟨hexact, hmerge, hunknown⟩ := codec_laws
  have hfirst : decode [10, 1, 7] = .ok { publicKey := some [7] } :=
    hexact { publicKey := some [7] } (by decide)
  have hnumber : Unknown ⟨33, .len [5] (by decide), by decide⟩ := .inl (by decide)
  exact ⟨hfirst, (hmerge _ _ _ _ hfirst).mpr ⟨_, rfl, rfl⟩, (hunknown _ hnumber).1⟩

end IdentifyMessage

end Minip2p.Identify
