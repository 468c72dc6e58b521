import Minip2p.Core.WireRoundTrip
import Minip2p.Identify.Message

/-!
# Identify messages, read back

A message is encoded as a list of length-delimited fields. The decoder stores each of them where
the encoder took it from, so it gives the message back.
-/

namespace Minip2p.Identify

/-! ## Readers on what the encoder writes -/

/-- A varint is read back. -/
theorem readVarint_write {input rest : Bytes} {idx : ℕ} {value : UInt64}
    (h : input.drop idx = writeUvarint value ++ rest) :
    readVarint input idx = .ok (value, idx + (writeUvarint value).length) := by
  rw [readVarint, h, readUvarint_writeUvarint_append]

/-- A length-delimited value is read back. -/
theorem readLenDelimited_write {input data rest : Bytes} {idx : ℕ} (hlen : data.length < 2 ^ 63)
    (h : input.drop idx = writeUvarint (UInt64.ofNat data.length) ++ (data ++ rest)) :
    ∃ idx', readLenDelimited input idx = .ok (data, idx') ∧ input.drop idx' = rest := by
  have hvalue : (UInt64.ofNat data.length).toNat = data.length := toNat_ofNat_length (by omega)
  have hbody := Wire.drop_add h
  have hremaining := congrArg List.length hbody
  rw [List.length_drop, List.length_append] at hremaining
  refine ⟨idx + (writeUvarint (UInt64.ofNat data.length)).length + data.length, ?_,
    Wire.drop_add hbody⟩
  rw [readLenDelimited, readVarint_write h]
  show (if _ then _ else _) = _
  rw [hvalue, if_neg (by omega), hbody, List.take_left]
  rfl

/-! ## Fields -/

/-- A field as the encoder writes it. -/
inductive Field
  | publicKey (key : Bytes)
  | listenAddr (addr : Bytes)
  | protocol (id : String)
  | observedAddr (addr : Bytes)
  | protocolVersion (version : String)
  | agentVersion (version : String)

namespace Field

/-- The number of a field. -/
def number : Field → UInt64
  | publicKey _ => fieldPublicKey
  | listenAddr _ => fieldListenAddrs
  | protocol _ => fieldProtocols
  | observedAddr _ => fieldObservedAddr
  | protocolVersion _ => fieldProtocolVersion
  | agentVersion _ => fieldAgentVersion

/-- The bytes of a field. -/
def data : Field → Bytes
  | publicKey key => key
  | listenAddr addr | observedAddr addr => addr
  | protocol text | protocolVersion text | agentVersion text => asBytes text

/-- The message with the field. -/
def store (msg : IdentifyMessage) : Field → IdentifyMessage
  | publicKey key => { msg with publicKey := some key }
  | listenAddr addr => { msg with listenAddrs := msg.listenAddrs ++ [addr] }
  | protocol id => { msg with protocols := msg.protocols ++ [id] }
  | observedAddr addr => { msg with observedAddr := some addr }
  | protocolVersion version => { msg with protocolVersion := some version }
  | agentVersion version => { msg with agentVersion := some version }

/-- A field on the wire. -/
def encode (field : Field) : Bytes := encodeBytesField (tagOf field.number) field.data

/-- A field is stored under its number. -/
theorem setField_data (msg : IdentifyMessage) (field : Field) :
    setField msg field.number field.data = .ok (store msg field) := by
  cases field with
  | publicKey | listenAddr | observedAddr => rfl
  | protocol text | protocolVersion text | agentVersion text =>
    simp only [setField, number, data, readString, fromUtf8_asBytes]
    rfl

/-- The tag is a varint of one byte, from which the number and the wire type are read. -/
theorem tag_number (field : Field) : ∃ tag : UInt64, writeUvarint tag = [tagOf field.number] ∧
    tag >>> 3 = field.number ∧ (tag &&& 0x07).toUInt8 = wireLen := by
  have hnumber : field.number < 16 := by
    cases field with
    | publicKey => exact (by decide : fieldPublicKey < 16)
    | listenAddr => exact (by decide : fieldListenAddrs < 16)
    | protocol => exact (by decide : fieldProtocols < 16)
    | observedAddr => exact (by decide : fieldObservedAddr < 16)
    | protocolVersion => exact (by decide : fieldProtocolVersion < 16)
    | agentVersion => exact (by decide : fieldAgentVersion < 16)
  exact (Wire.Field.bytes field.number field.data).tag_number hnumber

theorem encode_ne_nil (field : Field) : field.encode ≠ [] := List.cons_ne_nil _ _

/-- One turn of the decoder reads a field. -/
theorem reads {input : Bytes} (hlen : input.length < 2 ^ 63) :
    Fields.Reads input encode store (decodeGo input) := by
  intro field rest fuel msg idx hinput
  obtain ⟨tag, htag, hnumber, hwire⟩ := field.tag_number
  have hfield : input.drop idx = writeUvarint tag ++
      (writeUvarint (UInt64.ofNat field.data.length) ++ (field.data ++ rest)) := by
    rw [hinput, htag, encode, encodeBytesField]
    simp
  have hdata : field.data.length < 2 ^ 63 := by
    have hle := congrArg List.length hfield
    rw [List.length_drop, List.length_append, List.length_append, List.length_append] at hle
    omega
  have hidx : ¬ idx ≥ input.length := by
    intro hge
    rw [List.drop_eq_nil_of_le hge] at hinput
    exact field.encode_ne_nil (List.append_eq_nil_iff.mp hinput.symm).1
  obtain ⟨idx', hvalue, hrest⟩ := readLenDelimited_write hdata (Wire.drop_add hfield)
  refine ⟨idx', hrest, ?_⟩
  rw [decodeGo, if_neg hidx, readVarint_write hfield]
  show (decodeField input (tag >>> 3) (tag &&& 0x07).toUInt8 msg _ >>= _) = _
  rw [hnumber, hwire, decodeField, if_pos rfl, hvalue]
  show (setField msg field.number field.data >>= _) >>= _ = _
  rw [setField_data]
  rfl

end Field

/-! ## Messages -/

/-- The fields of a message in the order in which they are written. -/
def IdentifyMessage.fields (msg : IdentifyMessage) : List Field :=
  (msg.publicKey.map Field.publicKey).toList ++ msg.listenAddrs.map Field.listenAddr ++
    msg.protocols.map Field.protocol ++ (msg.observedAddr.map Field.observedAddr).toList ++
    (msg.protocolVersion.map Field.protocolVersion).toList ++
    (msg.agentVersion.map Field.agentVersion).toList

/-- A message is encoded field by field. -/
theorem IdentifyMessage.encode_eq (msg : IdentifyMessage) :
    msg.encode = msg.fields.flatMap Field.encode := by
  have hoptional : ∀ (tag : UInt8) (data : Option Bytes),
      encodeOptionalField tag data = data.toList.flatMap (encodeBytesField tag) := by
    intro tag data
    cases data with
    | none => rfl
    | some data => exact (List.append_nil _).symm
  obtain ⟨publicKey, listenAddrs, protocols, observedAddr, protocolVersion, agentVersion⟩ := msg
  simp only [IdentifyMessage.encode, IdentifyMessage.fields, hoptional, List.flatMap_append,
    List.flatMap_map, Option.toList_map]
  rfl

/-- The fields of a message make it up. -/
theorem IdentifyMessage.store_fields (msg : IdentifyMessage) :
    msg.fields.foldl Field.store default = msg := by
  have haddrs : ∀ (addrs : List Bytes) (m : IdentifyMessage),
      (addrs.map Field.listenAddr).foldl Field.store m =
        { m with listenAddrs := m.listenAddrs ++ addrs } := fun addrs m =>
    Fields.foldl_repeated (fun xs => { m with listenAddrs := xs }) (fun _ _ => rfl) _ addrs
  have hprotocols : ∀ (ids : List String) (m : IdentifyMessage),
      (ids.map Field.protocol).foldl Field.store m =
        { m with protocols := m.protocols ++ ids } := fun ids m =>
    Fields.foldl_repeated (fun xs => { m with protocols := xs }) (fun _ _ => rfl) _ ids
  obtain ⟨publicKey, listenAddrs, protocols, observedAddr, protocolVersion, agentVersion⟩ := msg
  simp only [IdentifyMessage.fields, List.foldl_append, haddrs, hprotocols]
  cases publicKey <;> cases observedAddr <;> cases protocolVersion <;> cases agentVersion <;> rfl

/-- A message is decoded from its encoding. -/
theorem IdentifyMessage.decode_encode (msg : IdentifyMessage) (hlen : msg.encode.length < 2 ^ 63) :
    IdentifyMessage.decode msg.encode = .ok msg := by
  rw [msg.encode_eq] at hlen ⊢
  obtain ⟨fuel, idx, hend, hloop⟩ :=
    (Field.reads hlen).whole Field.encode_ne_nil 0 (default : IdentifyMessage)
  rw [Nat.add_zero, Nat.add_zero, msg.store_fields] at hloop
  rw [IdentifyMessage.decode, hloop]
  cases fuel with
  | zero => rfl
  | succ fuel => rw [decodeGo, if_pos hend]

/-- The body of a frame. -/
theorem decodeLengthPrefixed_encode (payload : Bytes) (hlen : payload.length < 2 ^ 63) :
    decodeLengthPrefixed (encodeLengthPrefixed payload) = .ok payload := by
  have hvalue : (UInt64.ofNat payload.length).toNat = payload.length :=
    toNat_ofNat_length (by omega)
  rw [decodeLengthPrefixed, encodeLengthPrefixed, readUvarint_writeUvarint_append]
  simp only [hvalue, List.drop_left, List.take_length]
  rw [if_neg]
  rw [List.length_append]
  omega

end Minip2p.Identify
