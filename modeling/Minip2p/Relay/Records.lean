import Minip2p.Core.Schema
import Minip2p.Relay.Message

/-!
# Relay messages as records

What a record does to each of the five messages, and that the decoders do just that. A message is
decoded from its encoding, and records with field numbers that are not known are skipped wherever
they stand.
-/

namespace Minip2p.Relay

open Wire (Value Record)
open Records (Spans)

variable {input : Bytes} {idx idx' : ℕ}

/-- What is skipped is the encoding of a value with that wire type. -/
theorem yields_skipUnknownField_iff (hlen : input.length < 2 ^ 63) (hidx : idx ≤ input.length)
    {wireType : UInt8} : Yields (skipUnknownField input idx wireType) idx' ↔
      ∃ value : Value, value.wireType = wireType ∧ Spans input idx value.encode idx' := by
  unfold skipUnknownField
  split
  · next h =>
    obtain rfl := h
    rw [Yields.bind_iff]
    constructor
    · rintro ⟨⟨v, i⟩, hread, h⟩
      obtain rfl := Yields.pure_iff.mp h
      exact ⟨.varint v, rfl, (Wire.yields_readVarintValue_iff hlen hidx).mp hread⟩
    · rintro ⟨value, hwire, hspans⟩
      obtain ⟨v, rfl⟩ := Value.wireType_eq_varint_iff.mp hwire
      exact ⟨(v, idx'), (Wire.yields_readVarintValue_iff hlen hidx).mpr hspans,
        Yields.pure_iff.mpr rfl⟩
  split
  · next h =>
    obtain rfl := h
    exact Wire.yields_skipLen_iff hlen hidx
  split
  · next h =>
    obtain rfl := h
    exact Wire.yields_skipI32_iff hlen hidx
  split
  · next h =>
    obtain rfl := h
    exact Wire.yields_skipI64_iff hlen hidx
  · next hvarint hlenType hi32 hi64 =>
    refine iff_of_false Yields.not_throw ?_
    rintro ⟨value, hwire, -⟩
    exact Value.wireType_ne hvarint hi64 hlenType hi32 hwire

/-! ## What a record does -/

namespace Peer

/-- What a record does to a peer. -/
def act (msg : Peer) (number : UInt64) : Value → Option Peer
  | .len data _ =>
    if number = 1 then some { msg with id := data }
    else if number = 2 then some { msg with addrs := msg.addrs ++ [data] }
    else some msg
  | _ => some msg

/-- The reader of a peer does what its records say. -/
theorem acts (hlen : input.length < 2 ^ 63) : Wire.Acts readField act input := by
  intro number wireType msg idx msg' idx' hidx
  unfold readField
  split
  · next h =>
    obtain ⟨rfl, rfl⟩ := h
    exact Wire.acts_len hlen hidx fun data hdata i => by simp [act, and_comm]
  split
  · next h =>
    obtain ⟨rfl, rfl⟩ := h
    exact Wire.acts_len hlen hidx fun data hdata i => by simp [act, and_comm]
  · next hid haddr =>
    refine Wire.acts_skip (yields_skipUnknownField_iff hlen hidx) ?_
    rintro value rfl
    cases value with
    | len data hdata =>
      have hnumber : number ≠ 1 ∧ number ≠ 2 := ⟨fun h => hid ⟨h, rfl⟩, fun h => haddr ⟨h, rfl⟩⟩
      simp [act, hnumber]
    | varint | i64 | i32 => rfl

end Peer

namespace Reservation

/-- What a record does to a reservation. -/
def act (msg : Reservation) (number : UInt64) : Value → Option Reservation
  | .varint value =>
    if number = 1 then some { msg with expire := some value } else some msg
  | .len data _ =>
    if number = 2 then some { msg with addrs := msg.addrs ++ [data] }
    else if number = 3 then some { msg with voucher := some data }
    else some msg
  | _ => some msg

/-- The reader of a reservation does what its records say. -/
theorem acts (hlen : input.length < 2 ^ 63) : Wire.Acts readField act input := by
  intro number wireType msg idx msg' idx' hidx
  unfold readField
  split
  · next h =>
    obtain ⟨rfl, rfl⟩ := h
    exact Wire.acts_varint hlen hidx fun value i => by simp [act, and_comm]
  split
  · next h =>
    obtain ⟨rfl, rfl⟩ := h
    exact Wire.acts_len hlen hidx fun data hdata i => by simp [act, and_comm]
  split
  · next h =>
    obtain ⟨rfl, rfl⟩ := h
    exact Wire.acts_len hlen hidx fun data hdata i => by simp [act, and_comm]
  · next hexpire haddr hvoucher =>
    refine Wire.acts_skip (yields_skipUnknownField_iff hlen hidx) ?_
    rintro value rfl
    cases value with
    | varint v =>
      have hnumber : number ≠ 1 := fun h => hexpire ⟨h, rfl⟩
      simp [act, hnumber]
    | len data hdata =>
      have hnumber : number ≠ 2 ∧ number ≠ 3 :=
        ⟨fun h => haddr ⟨h, rfl⟩, fun h => hvoucher ⟨h, rfl⟩⟩
      simp [act, hnumber]
    | i64 | i32 => rfl

end Reservation

namespace Limit

/-- What a record does to a limit. -/
def act (msg : Limit) (number : UInt64) : Value → Option Limit
  | .varint value =>
    if number = 1 then some { msg with duration := some value.toUInt32 }
    else if number = 2 then some { msg with data := some value }
    else some msg
  | _ => some msg

/-- The reader of a limit does what its records say. -/
theorem acts (hlen : input.length < 2 ^ 63) : Wire.Acts readField act input := by
  intro number wireType msg idx msg' idx' hidx
  unfold readField
  split
  · next h =>
    obtain ⟨rfl, rfl⟩ := h
    exact Wire.acts_varint hlen hidx fun value i => by simp [act, and_comm]
  split
  · next h =>
    obtain ⟨rfl, rfl⟩ := h
    exact Wire.acts_varint hlen hidx fun value i => by simp [act, and_comm]
  · next hduration hdata =>
    refine Wire.acts_skip (yields_skipUnknownField_iff hlen hidx) ?_
    rintro value rfl
    cases value with
    | varint v =>
      have hnumber : number ≠ 1 ∧ number ≠ 2 :=
        ⟨fun h => hduration ⟨h, rfl⟩, fun h => hdata ⟨h, rfl⟩⟩
      simp [act, hnumber]
    | len | i64 | i32 => rfl

end Limit

namespace HopMessage

/-- What a record does to the fields of a HOP message. -/
def act (msg : HopFields) (number : UInt64) : Value → Option HopFields
  | .varint value =>
    if number = 1 then
      (HopMessageType.fromU64 value).map fun kind => { msg with kind := some kind }
    else if number = 5 then some { msg with status := some (Status.fromU64 value) }
    else some msg
  | .len data _ =>
    if number = 2 then
      (Peer.decode data).toOption.map fun peer => { msg with peer := some peer }
    else if number = 3 then
      (Reservation.decode data).toOption.map fun reservation =>
        { msg with reservation := some reservation }
    else if number = 4 then
      (Limit.decode data).toOption.map fun limit => { msg with limit := some limit }
    else some msg
  | _ => some msg

/-- The reader of a HOP message does what its records say. -/
theorem acts (hlen : input.length < 2 ^ 63) : Wire.Acts readField act input := by
  intro number wireType msg idx msg' idx' hidx
  unfold readField
  split
  · next h =>
    obtain ⟨rfl, rfl⟩ := h
    refine Wire.acts_varint hlen hidx fun value i => ?_
    cases hkind : HopMessageType.fromU64 value <;> simp [act, hkind, and_comm]
  split
  · next h =>
    obtain ⟨rfl, rfl⟩ := h
    exact Wire.acts_len hlen hidx fun data hdata i => Wire.yields_nested_iff
  split
  · next h =>
    obtain ⟨rfl, rfl⟩ := h
    exact Wire.acts_len hlen hidx fun data hdata i => Wire.yields_nested_iff
  split
  · next h =>
    obtain ⟨rfl, rfl⟩ := h
    exact Wire.acts_len hlen hidx fun data hdata i => Wire.yields_nested_iff
  split
  · next h =>
    obtain ⟨rfl, rfl⟩ := h
    exact Wire.acts_varint hlen hidx fun value i => by simp [act, and_comm]
  · next hkind hpeer hreservation hlimit hstatus =>
    refine Wire.acts_skip (yields_skipUnknownField_iff hlen hidx) ?_
    rintro value rfl
    cases value with
    | varint v =>
      have hnumber : number ≠ 1 ∧ number ≠ 5 :=
        ⟨fun h => hkind ⟨h, rfl⟩, fun h => hstatus ⟨h, rfl⟩⟩
      simp [act, hnumber]
    | len data hdata =>
      have hnumber : number ≠ 2 ∧ number ≠ 3 ∧ number ≠ 4 :=
        ⟨fun h => hpeer ⟨h, rfl⟩, fun h => hreservation ⟨h, rfl⟩, fun h => hlimit ⟨h, rfl⟩⟩
      simp [act, hnumber]
    | i64 | i32 => rfl

end HopMessage

namespace StopMessage

/-- What a record does to the fields of a STOP message. -/
def act (msg : StopFields) (number : UInt64) : Value → Option StopFields
  | .varint value =>
    if number = 1 then
      (StopMessageType.fromU64 value).map fun kind => { msg with kind := some kind }
    else if number = 4 then some { msg with status := some (Status.fromU64 value) }
    else some msg
  | .len data _ =>
    if number = 2 then
      (Peer.decode data).toOption.map fun peer => { msg with peer := some peer }
    else if number = 3 then
      (Limit.decode data).toOption.map fun limit => { msg with limit := some limit }
    else some msg
  | _ => some msg

/-- The reader of a STOP message does what its records say. -/
theorem acts (hlen : input.length < 2 ^ 63) : Wire.Acts readField act input := by
  intro number wireType msg idx msg' idx' hidx
  unfold readField
  split
  · next h =>
    obtain ⟨rfl, rfl⟩ := h
    refine Wire.acts_varint hlen hidx fun value i => ?_
    cases hkind : StopMessageType.fromU64 value <;> simp [act, hkind, and_comm]
  split
  · next h =>
    obtain ⟨rfl, rfl⟩ := h
    exact Wire.acts_len hlen hidx fun data hdata i => Wire.yields_nested_iff
  split
  · next h =>
    obtain ⟨rfl, rfl⟩ := h
    exact Wire.acts_len hlen hidx fun data hdata i => Wire.yields_nested_iff
  split
  · next h =>
    obtain ⟨rfl, rfl⟩ := h
    exact Wire.acts_varint hlen hidx fun value i => by simp [act, and_comm]
  · next hkind hpeer hlimit hstatus =>
    refine Wire.acts_skip (yields_skipUnknownField_iff hlen hidx) ?_
    rintro value rfl
    cases value with
    | varint v =>
      have hnumber : number ≠ 1 ∧ number ≠ 4 :=
        ⟨fun h => hkind ⟨h, rfl⟩, fun h => hstatus ⟨h, rfl⟩⟩
      simp [act, hnumber]
    | len data hdata =>
      have hnumber : number ≠ 2 ∧ number ≠ 3 :=
        ⟨fun h => hpeer ⟨h, rfl⟩, fun h => hlimit ⟨h, rfl⟩⟩
      simp [act, hnumber]
    | i64 | i32 => rfl

end StopMessage

/-! ## What the decoders accept -/

/-- A peer is read from exactly the records that make it. -/
theorem Peer.decode_iff (hlen : input.length < 2 ^ 63) {peer : Peer} :
    Yields (Peer.decode input) peer ↔ Wire.Decodes Peer.act input ⟨[], []⟩ peer :=
  Wire.decodeFields_iff hlen (Peer.acts hlen)

/-- A reservation is read from exactly the records that make it. -/
theorem Reservation.decode_iff (hlen : input.length < 2 ^ 63) {reservation : Reservation} :
    Yields (Reservation.decode input) reservation ↔
      Wire.Decodes Reservation.act input ⟨none, [], none⟩ reservation :=
  Wire.decodeFields_iff hlen (Reservation.acts hlen)

/-- A limit is read from exactly the records that make it. -/
theorem Limit.decode_iff (hlen : input.length < 2 ^ 63) {limit : Limit} :
    Yields (Limit.decode input) limit ↔ Wire.Decodes Limit.act input ⟨none, none⟩ limit :=
  Wire.decodeFields_iff hlen (Limit.acts hlen)

/-- The fields that a HOP message is put together from. -/
def HopMessage.toFields (msg : HopMessage) : HopFields :=
  ⟨some msg.kind, msg.peer, msg.reservation, msg.limit, msg.status⟩

/-- A HOP message is read from exactly the records that make it. -/
theorem HopMessage.decode_iff (hlen : input.length < 2 ^ 63) {msg : HopMessage} :
    Yields (HopMessage.decode input) msg ↔
      Wire.Decodes HopMessage.act input ⟨none, none, none, none, none⟩ msg.toFields := by
  rw [HopMessage.decode, Yields.bind_iff, ← Wire.decodeFields_iff hlen (HopMessage.acts hlen)]
  constructor
  · rintro ⟨⟨kind, peer, reservation, limit, status⟩, hfields, h⟩
    cases kind with
    | none => exact absurd h Yields.not_throw
    | some kind =>
      obtain rfl := Yields.pure_iff.mp h
      exact hfields
  · exact fun hfields => ⟨msg.toFields, hfields, Yields.pure_iff.mpr rfl⟩

/-- The fields that a STOP message is put together from. -/
def StopMessage.toFields (msg : StopMessage) : StopFields :=
  ⟨some msg.kind, msg.peer, msg.limit, msg.status⟩

/-- A STOP message is read from exactly the records that make it. -/
theorem StopMessage.decode_iff (hlen : input.length < 2 ^ 63) {msg : StopMessage} :
    Yields (StopMessage.decode input) msg ↔
      Wire.Decodes StopMessage.act input ⟨none, none, none, none⟩ msg.toFields := by
  rw [StopMessage.decode, Yields.bind_iff, ← Wire.decodeFields_iff hlen (StopMessage.acts hlen)]
  constructor
  · rintro ⟨⟨kind, peer, limit, status⟩, hfields, h⟩
    cases kind with
    | none => exact absurd h Yields.not_throw
    | some kind =>
      obtain rfl := Yields.pure_iff.mp h
      exact hfields
  · exact fun hfields => ⟨msg.toFields, hfields, Yields.pure_iff.mpr rfl⟩

/-! ## Messages, read back -/

section

variable {σ α : Type} {act : σ → UInt64 → Value → Option σ} {encode : α → Bytes}
  {value : Option α} {rest : Bytes} {msg' : σ}

/-- `put` is the message with the field, if it is there. -/
theorem decodes_encodeOption (put : Option α → σ)
    (hsome : ∀ a, value = some a → Wire.Decodes act rest (put (some a)) msg' →
      Wire.Decodes act (encode a ++ rest) (put none) msg')
    (h : Wire.Decodes act rest (put value) msg') :
    Wire.Decodes act (encodeOption encode value ++ rest) (put none) msg' := by
  cases value with
  | none => exact h
  | some a => exact hsome a rfl h

/-- A nested message that is optional. -/
theorem decodes_nested {number : UInt64} {tag : UInt8} {decode : Bytes → Decode α}
    (hnumber : number < 16) (htag : tag = tagByte number.toUInt8 wireLen) (put : Option α → σ)
    (hlen : (encodeOption (fun a => encodeBytesField tag (encode a)) value).length < 2 ^ 63)
    (hdecode : ∀ {a}, (encode a).length < 2 ^ 63 → Yields (decode (encode a)) a)
    (hact : ∀ data hdata, act (put none) number (.len data hdata) =
      (decode data).toOption.map fun a => put (some a))
    (h : Wire.Decodes act rest (put value) msg') :
    Wire.Decodes act (encodeOption (fun a => encodeBytesField tag (encode a)) value ++ rest)
      (put none) msg' := by
  refine decodes_encodeOption put ?_ h
  rintro a rfl h
  have hbound : (encode a).length < 2 ^ 63 := by
    simp only [encodeOption, encodeBytesField, List.length_cons, List.length_append] at hlen
    omega
  rw [htag]
  refine Wire.decodes_bytes hnumber (by omega) ?_ h
  rw [hact, Fallible.toOption_eq_some_iff.mpr (hdecode hbound)]
  rfl

end

/-- A value is no longer than the fields it is one of. -/
theorem length_le_flatMap (tag : UInt8) {values : List Bytes} {data : Bytes}
    (hmem : data ∈ values) :
    data.length ≤ (values.flatMap (encodeBytesField tag)).length := by
  obtain ⟨before, after, rfl⟩ := List.append_of_mem hmem
  simp only [List.flatMap_append, List.flatMap_cons, List.length_append, encodeBytesField,
    List.length_cons]
  omega

theorem Peer.decodes_encode {peer : Peer} (hlen : peer.encode.length < 2 ^ 63) :
    Wire.Decodes Peer.act peer.encode ⟨[], []⟩ peer := by
  rw [Peer.encode, List.length_append] at hlen
  have haddrs : Wire.Decodes Peer.act
      (peer.addrs.flatMap (encodeBytesField (tagByte 2 wireLen)) ++ []) ⟨peer.id, []⟩ peer := by
    refine Wire.decodes_repeated (by decide : (2 : UInt64) < 16) (Peer.mk peer.id) ?_ ?_
      (Wire.decodes_nil _)
    · intro addr haddr
      have hle := length_le_flatMap (tagByte 2 wireLen) haddr
      omega
    · intro before data hdata
      rfl
  rw [List.append_nil] at haddrs
  rw [Peer.encode]
  split
  · next hempty =>
    rw [List.isEmpty_iff.mp hempty] at haddrs
    exact haddrs
  · next hid =>
    rw [if_neg hid] at hlen
    have hbound : peer.id.length < 2 ^ 64 := by
      simp only [encodeBytesField, List.length_cons, List.length_append] at hlen
      omega
    exact Wire.decodes_bytes (by decide : (1 : UInt64) < 16) hbound rfl haddrs

theorem Reservation.decodes_encode {reservation : Reservation}
    (hlen : reservation.encode.length < 2 ^ 63) :
    Wire.Decodes Reservation.act reservation.encode ⟨none, [], none⟩ reservation := by
  obtain ⟨expire, addrs, voucher⟩ := reservation
  simp only [Reservation.encode, List.length_append] at hlen
  rw [Reservation.encode, ← List.append_nil (_ ++ _), List.append_assoc, List.append_assoc]
  refine decodes_encodeOption (fun expire => Reservation.mk expire [] none)
    (fun value _ h => Wire.decodes_varint (by decide : (1 : UInt64) < 16) rfl h) ?_
  refine Wire.decodes_repeated (by decide : (2 : UInt64) < 16)
    (fun addrs => Reservation.mk expire addrs none) ?_ (fun _ _ _ => rfl) ?_
  · intro addr (haddr : addr ∈ addrs)
    have hle := length_le_flatMap (tagByte 2 wireLen) haddr
    omega
  refine decodes_encodeOption (Reservation.mk expire addrs) ?_ (Wire.decodes_nil _)
  rintro data rfl h
  have hbound : data.length < 2 ^ 64 := by
    simp only [encodeOption, encodeBytesField, List.length_cons, List.length_append] at hlen
    omega
  exact Wire.decodes_bytes (by decide : (3 : UInt64) < 16) hbound rfl h

theorem Limit.decodes_encode (limit : Limit) :
    Wire.Decodes Limit.act limit.encode ⟨none, none⟩ limit := by
  obtain ⟨duration, data⟩ := limit
  rw [Limit.encode, ← List.append_nil (_ ++ _), List.append_assoc]
  refine decodes_encodeOption (fun duration => Limit.mk duration none) ?_ ?_
  · rintro value - h
    refine Wire.decodes_varint (by decide : (1 : UInt64) < 16) ?_ h
    have hvalue : value.toUInt64.toUInt32 = value := UInt32.toUInt32_toUInt64 value
    simp [Limit.act]
  refine decodes_encodeOption (Limit.mk duration)
    (fun value _ h => Wire.decodes_varint (by decide : (2 : UInt64) < 16) rfl h)
    (Wire.decodes_nil _)

/-- A peer is read back. -/
theorem Peer.decode_encode {peer : Peer} (hlen : peer.encode.length < 2 ^ 63) :
    Yields (Peer.decode peer.encode) peer :=
  (Peer.decode_iff hlen).mpr (Peer.decodes_encode hlen)

/-- A reservation is read back. -/
theorem Reservation.decode_encode {reservation : Reservation}
    (hlen : reservation.encode.length < 2 ^ 63) :
    Yields (Reservation.decode reservation.encode) reservation :=
  (Reservation.decode_iff hlen).mpr (Reservation.decodes_encode hlen)

/-- A limit is read back. -/
theorem Limit.decode_encode {limit : Limit} (hlen : limit.encode.length < 2 ^ 63) :
    Yields (Limit.decode limit.encode) limit :=
  (Limit.decode_iff hlen).mpr limit.decodes_encode

theorem HopMessage.decodes_encode {msg : HopMessage} (hlen : msg.encode.length < 2 ^ 63) :
    Wire.Decodes HopMessage.act msg.encode ⟨none, none, none, none, none⟩ msg.toFields := by
  obtain ⟨kind, peer, reservation, limit, status⟩ := msg
  simp only [HopMessage.encode, List.length_append] at hlen
  rw [HopMessage.encode, ← List.append_nil (_ ++ _)]
  simp only [List.append_assoc]
  have hkind : HopMessage.act ⟨none, none, none, none, none⟩ 1 (.varint kind.toU64) =
      some ⟨some kind, none, none, none, none⟩ := by
    cases kind <;> rfl
  refine Wire.decodes_varint (by decide : (1 : UInt64) < 16) hkind ?_
  refine decodes_nested (by decide : (2 : UInt64) < 16) (by rfl)
    (fun peer => HopFields.mk (some kind) peer none none none)
    (by omega) Peer.decode_encode (fun _ _ => rfl) ?_
  refine decodes_nested (by decide : (3 : UInt64) < 16) (by rfl)
    (fun reservation => HopFields.mk (some kind) peer reservation none none)
    (by omega) Reservation.decode_encode (fun _ _ => rfl) ?_
  refine decodes_nested (by decide : (4 : UInt64) < 16) (by rfl)
    (fun limit => HopFields.mk (some kind) peer reservation limit none)
    (by omega) Limit.decode_encode (fun _ _ => rfl) ?_
  refine decodes_encodeOption (HopFields.mk (some kind) peer reservation limit) ?_
    (Wire.decodes_nil _)
  intro value _ h
  refine Wire.decodes_varint (by decide : (5 : UInt64) < 16) ?_ h
  cases value <;> rfl

theorem StopMessage.decodes_encode {msg : StopMessage} (hlen : msg.encode.length < 2 ^ 63) :
    Wire.Decodes StopMessage.act msg.encode ⟨none, none, none, none⟩ msg.toFields := by
  obtain ⟨kind, peer, limit, status⟩ := msg
  simp only [StopMessage.encode, List.length_append] at hlen
  rw [StopMessage.encode, ← List.append_nil (_ ++ _)]
  simp only [List.append_assoc]
  have hkind : StopMessage.act ⟨none, none, none, none⟩ 1 (.varint kind.toU64) =
      some ⟨some kind, none, none, none⟩ := by
    cases kind <;> rfl
  refine Wire.decodes_varint (by decide : (1 : UInt64) < 16) hkind ?_
  refine decodes_nested (by decide : (2 : UInt64) < 16) (by rfl)
    (fun peer => StopFields.mk (some kind) peer none none)
    (by omega) Peer.decode_encode (fun _ _ => rfl) ?_
  refine decodes_nested (by decide : (3 : UInt64) < 16) (by rfl)
    (fun limit => StopFields.mk (some kind) peer limit none)
    (by omega) Limit.decode_encode (fun _ _ => rfl) ?_
  refine decodes_encodeOption (StopFields.mk (some kind) peer limit) ?_ (Wire.decodes_nil _)
  intro value _ h
  refine Wire.decodes_varint (by decide : (4 : UInt64) < 16) ?_ h
  cases value <;> rfl

/-- A HOP message is decoded from its encoding. -/
theorem HopMessage.decode_encode {msg : HopMessage} (hlen : msg.encode.length < 2 ^ 63) :
    HopMessage.decode msg.encode = pure msg :=
  Yields.eq_pure ((HopMessage.decode_iff hlen).mpr (HopMessage.decodes_encode hlen))

/-- A STOP message is decoded from its encoding. -/
theorem StopMessage.decode_encode {msg : StopMessage} (hlen : msg.encode.length < 2 ^ 63) :
    StopMessage.decode msg.encode = pure msg :=
  Yields.eq_pure ((StopMessage.decode_iff hlen).mpr (StopMessage.decodes_encode hlen))

/-! ## Records that are not known -/

/-- The messages of the protocol. -/
inductive MessageKind
  | hop
  | stop
  | peer
  | reservation
  | limit

/-- The messages of the relay and their fields. -/
def schema : Wire.Schema MessageKind where
  Fields := fun
    | .hop => HopFields
    | .stop => StopFields
    | .peer => Peer
    | .reservation => Reservation
    | .limit => Limit
  start := fun
    | .hop => ⟨none, none, none, none, none⟩
    | .stop => ⟨none, none, none, none⟩
    | .peer => ⟨[], []⟩
    | .reservation => ⟨none, [], none⟩
    | .limit => ⟨none, none⟩
  act := fun
    | .hop => HopMessage.act
    | .stop => StopMessage.act
    | .peer => Peer.act
    | .reservation => Reservation.act
    | .limit => Limit.act
  known := fun
    | .hop => [1, 2, 3, 4, 5]
    | .stop => [1, 2, 3, 4]
    | .peer => [1, 2]
    | .reservation => [1, 2, 3]
    | .limit => [1, 2]
  nested := fun
    | .hop, number =>
      if number = 2 then some .peer
      else if number = 3 then some .reservation
      else if number = 4 then some .limit
      else none
    | .stop, number =>
      if number = 2 then some .peer
      else if number = 3 then some .limit
      else none
    | _, _ => none

/-- The codecs of the relay are those of the schema. -/
theorem schema_lawful : schema.Lawful where
  nested := by
    intro k k' number h
    have hpeer : ∀ {body peer}, body.length < 2 ^ 63 → (Yields (Peer.decode body) peer ↔
        schema.Decodes .peer body peer) := fun hlen => Peer.decode_iff hlen
    have hreservation : ∀ {body reservation}, body.length < 2 ^ 63 →
        (Yields (Reservation.decode body) reservation ↔
          schema.Decodes .reservation body reservation) := fun hlen => Reservation.decode_iff hlen
    have hlimit : ∀ {body limit}, body.length < 2 ^ 63 → (Yields (Limit.decode body) limit ↔
        schema.Decodes .limit body limit) := fun hlen => Limit.decode_iff hlen
    cases k with
    | hop =>
      simp only [schema] at h
      split at h
      · next hnumber =>
        obtain ⟨rfl, rfl⟩ := And.intro hnumber (Option.some.inj h)
        exact ⟨_, fun msg body hbody msg' hlen => Wire.Schema.map_toOption_iff (hpeer hlen)⟩
      split at h
      · next hnumber =>
        obtain ⟨rfl, rfl⟩ := And.intro hnumber (Option.some.inj h)
        exact ⟨_, fun msg body hbody msg' hlen => Wire.Schema.map_toOption_iff (hreservation hlen)⟩
      split at h
      · next hnumber =>
        obtain ⟨rfl, rfl⟩ := And.intro hnumber (Option.some.inj h)
        exact ⟨_, fun msg body hbody msg' hlen => Wire.Schema.map_toOption_iff (hlimit hlen)⟩
      · cases h
    | stop =>
      simp only [schema] at h
      split at h
      · next hnumber =>
        obtain ⟨rfl, rfl⟩ := And.intro hnumber (Option.some.inj h)
        exact ⟨_, fun msg body hbody msg' hlen => Wire.Schema.map_toOption_iff (hpeer hlen)⟩
      split at h
      · next hnumber =>
        obtain ⟨rfl, rfl⟩ := And.intro hnumber (Option.some.inj h)
        exact ⟨_, fun msg body hbody msg' hlen => Wire.Schema.map_toOption_iff (hlimit hlen)⟩
      · cases h
    | peer | reservation | limit => cases h

/-- Every decoder skips what it does not know. -/
theorem act_unknown {record : Record} (k : MessageKind) (hnumber : record.number ∉ schema.known k)
    (msg : schema.Fields k) : schema.act k msg record.number record.value = some msg := by
  obtain ⟨number, value, hlt⟩ := record
  cases k with
  | hop =>
    simp only [schema, List.mem_cons, List.not_mem_nil, not_or] at hnumber
    cases value <;> simp [schema, HopMessage.act, hnumber]
  | stop =>
    simp only [schema, List.mem_cons, List.not_mem_nil, not_or] at hnumber
    cases value <;> simp [schema, StopMessage.act, hnumber]
  | peer =>
    simp only [schema, List.mem_cons, List.not_mem_nil, not_or] at hnumber
    cases value <;> simp [schema, Peer.act, hnumber]
  | reservation =>
    simp only [schema, List.mem_cons, List.not_mem_nil, not_or] at hnumber
    cases value <;> simp [schema, Reservation.act, hnumber]
  | limit =>
    simp only [schema, List.mem_cons, List.not_mem_nil, not_or] at hnumber
    cases value <;> simp [schema, Limit.act, hnumber]

/-- A record that the relay does not know changes nothing in a HOP message. -/
theorem HopMessage.decode_inserted {record : Record} {input input' : Bytes} {msg : HopMessage}
    (h : schema.Inserted record .hop input input') (hlen : input.length < 2 ^ 63)
    (hlen' : input'.length < 2 ^ 63) (hdecode : HopMessage.decode input = pure msg) :
    HopMessage.decode input' = pure msg := by
  apply Yields.eq_pure
  rw [HopMessage.decode_iff hlen']
  exact h.decodes schema_lawful act_unknown hlen hlen' ((HopMessage.decode_iff hlen).mp hdecode)

/-- A record that the relay does not know changes nothing in a STOP message. -/
theorem StopMessage.decode_inserted {record : Record} {input input' : Bytes} {msg : StopMessage}
    (h : schema.Inserted record .stop input input') (hlen : input.length < 2 ^ 63)
    (hlen' : input'.length < 2 ^ 63) (hdecode : StopMessage.decode input = pure msg) :
    StopMessage.decode input' = pure msg := by
  apply Yields.eq_pure
  rw [StopMessage.decode_iff hlen']
  exact h.decodes schema_lawful act_unknown hlen hlen' ((StopMessage.decode_iff hlen).mp hdecode)

end Minip2p.Relay
