import Minip2p.Core.MultiaddrTheorems
import Minip2p.Core.WireRoundTrip
import Minip2p.Autonat.Flows

/-!
# AutoNAT messages, read back

A message of one level is a field of the message above it, so the decoders give back what was
encoded level by level, from the peer of a DIAL up to the message. Both flows find the message at
the front of their receive buffer once its frame is complete, and not before.
-/

namespace Minip2p.Autonat

/-- A text is read back from its bytes. -/
theorem fromUtf8Lossy_asBytes (text : String) : fromUtf8Lossy (asBytes text) = text := by
  rw [fromUtf8Lossy, fromUtf8LossyGo, fromUtf8_asBytes]

/-! ## The loop over the fields -/

section

variable {σ F : Type} {field : Wire.FieldReader AutoNatError σ} {toField : F → Wire.Field}
  {store : σ → F → σ} {input : Bytes}

/-- A reader of fields reads what the encoder writes. -/
theorem reads_field (hlen : input.length < 2 ^ 63)
    (hnumber : ∀ f, (toField f).number < 16 ∧ (toField f).number ≠ 0)
    (hfield : Wire.ReadsField field toField store input) :
    Fields.Reads input (fun f => (toField f).encode) store (decodeFieldsGo field input) := by
  intro f rest fuel msg idx hinput
  obtain ⟨tag, htag, hnum, hwire⟩ := (toField f).tag_number (hnumber f).1
  have hwritten : input.drop idx = writeUvarint tag ++ ((toField f).body ++ rest) := by
    rw [hinput, htag]
    rfl
  obtain ⟨idx', hread, hrest⟩ := hfield f rest msg _ (Wire.drop_add hwritten)
  refine ⟨idx', hrest, ?_⟩
  rw [decodeFieldsGo, readTag, Wire.readTag_write hlen hwritten, pure_bind]
  dsimp only
  rw [hnum, hwire, if_neg (hnumber f).2, pure_bind]
  dsimp only
  rw [hread, pure_bind]

/-- A message of fields is read back, field by field. -/
theorem decodeFields_write {fs : List F}
    (hlen : (fs.flatMap fun f => (toField f).encode).length < 2 ^ 63)
    (hnumber : ∀ f, (toField f).number < 16 ∧ (toField f).number ≠ 0)
    (hfield : Wire.ReadsField field toField store (fs.flatMap fun f => (toField f).encode))
    (msg : σ) : decodeFields field (fs.flatMap fun f => (toField f).encode) msg =
      pure (fs.foldl store msg) := by
  obtain ⟨fuel, idx, hend, hloop⟩ :=
    (reads_field hlen hnumber hfield).whole (fun f => (toField f).encode_ne_nil) 1 msg
  rw [decodeFields, hloop, decodeFieldsGo, readTag, Wire.readTag, if_pos hend, pure_bind]
  rfl

/-- The body of a field of bytes is read, and is not longer than the message. -/
theorem readLenDelimited_body (hlen : input.length < 2 ^ 63) {number : UInt64} {data rest : Bytes}
    {idx : ℕ} (h : input.drop idx = (Wire.Field.bytes number data).body ++ rest) :
    ∃ idx', (Wire.readLenDelimited input idx : Fallible AutoNatError (Bytes × ℕ)) =
      pure (data, idx') ∧ input.drop idx' = rest ∧ data.length < 2 ^ 63 := by
  have hbody : input.drop idx = writeUvarint (UInt64.ofNat data.length) ++ (data ++ rest) :=
    h.trans (List.append_assoc _ _ _)
  have hsize := congrArg List.length hbody
  rw [List.length_drop, List.length_append, List.length_append] at hsize
  obtain ⟨idx', hread, hrest⟩ : ∃ idx', (Wire.readLenDelimited input idx :
      Fallible AutoNatError (Bytes × ℕ)) = pure (data, idx') ∧ input.drop idx' = rest :=
    Wire.readLenDelimited_write hlen hbody
  exact ⟨idx', hread, hrest, by omega⟩

end

/-! ## PeerInfo -/

/-- A field of a peer as the encoder writes it. -/
inductive PeerInfoField
  | id (data : Bytes)
  | addr (data : Bytes)

namespace PeerInfoField

/-- The field of a peer on the wire. -/
def toField : PeerInfoField → Wire.Field
  | id data => .bytes 1 data
  | addr data => .bytes 2 data

/-- The peer with the field. -/
def store (peer : PeerInfo) : PeerInfoField → PeerInfo
  | id data => { peer with id := data }
  | addr data => { peer with addrs := peer.addrs ++ [data] }

/-- The numbers of the fields of a peer take one byte, and are not 0. -/
theorem number_small (field : PeerInfoField) :
    field.toField.number < 16 ∧ field.toField.number ≠ 0 := by
  cases field with
  | id => exact (by decide : (1 : UInt64) < 16 ∧ (1 : UInt64) ≠ 0)
  | addr => exact (by decide : (2 : UInt64) < 16 ∧ (2 : UInt64) ≠ 0)

/-- The reader of a peer reads its fields. -/
theorem reads {input : Bytes} (hlen : input.length < 2 ^ 63) :
    Wire.ReadsField PeerInfo.readField toField store input := by
  intro field rest peer idx hinput
  cases field with
  | id data =>
    obtain ⟨idx', hread, hrest, -⟩ := readLenDelimited_body hlen hinput
    refine ⟨idx', ?_, hrest⟩
    show PeerInfo.readField input 1 wireLen peer idx = _
    rw [PeerInfo.readField, if_pos ⟨rfl, rfl⟩, hread, pure_bind]
    rfl
  | addr data =>
    obtain ⟨idx', hread, hrest, -⟩ := readLenDelimited_body hlen hinput
    refine ⟨idx', ?_, hrest⟩
    show PeerInfo.readField input 2 wireLen peer idx = _
    rw [PeerInfo.readField, if_neg (by decide), if_pos ⟨rfl, rfl⟩, hread, pure_bind]
    rfl

end PeerInfoField

namespace PeerInfo

/-- The fields of a peer in the order in which they are written. -/
def fields (peer : PeerInfo) : List PeerInfoField := .id peer.id :: peer.addrs.map .addr

/-- A peer is encoded field by field. -/
theorem encode_eq (peer : PeerInfo) :
    peer.encode = peer.fields.flatMap fun field => field.toField.encode := by
  rw [fields, List.flatMap_cons, List.flatMap_map]
  rfl

/-- The fields of a peer make it up. -/
theorem store_fields (peer : PeerInfo) :
    peer.fields.foldl PeerInfoField.store ⟨[], []⟩ = peer := by
  rw [fields, List.foldl_cons]
  exact Fields.foldl_repeated (PeerInfo.mk peer.id) (fun _ _ => rfl) [] peer.addrs

/-- A peer is read back. -/
theorem decode_encode (peer : PeerInfo) (hlen : peer.encode.length < 2 ^ 63) :
    decode peer.encode = pure peer := by
  rw [peer.encode_eq] at hlen ⊢
  rw [decode, decodeFields_write hlen PeerInfoField.number_small (PeerInfoField.reads hlen),
    peer.store_fields]

end PeerInfo

/-! ## Dial -/

/-- A field of a DIAL as the encoder writes it. -/
inductive DialField
  | peer (info : PeerInfo)

namespace DialField

/-- The field of a request on the wire. -/
def toField : DialField → Wire.Field
  | peer info => .bytes 1 info.encode

/-- The DIAL with the field. -/
def store (_ : Dial) : DialField → Dial
  | peer info => ⟨some info⟩

/-- The number of the field of a request takes one byte, and is not 0. -/
theorem number_small (field : DialField) :
    field.toField.number < 16 ∧ field.toField.number ≠ 0 := by
  cases field with
  | peer => exact (by decide : (1 : UInt64) < 16 ∧ (1 : UInt64) ≠ 0)

/-- The reader of a request reads its field. -/
theorem reads {input : Bytes} (hlen : input.length < 2 ^ 63) :
    Wire.ReadsField Dial.readField toField store input := by
  intro field rest dial idx hinput
  cases field with
  | peer info =>
    obtain ⟨idx', hread, hrest, hbody⟩ := readLenDelimited_body hlen hinput
    refine ⟨idx', ?_, hrest⟩
    show Dial.readField input 1 wireLen dial idx = _
    rw [Dial.readField, if_pos ⟨rfl, rfl⟩, hread, pure_bind]
    dsimp only
    rw [info.decode_encode hbody, pure_bind]
    rfl

end DialField

namespace Dial

/-- The fields of a request, in the order of the encoder. -/
def fields (dial : Dial) : List DialField := (dial.peer.map DialField.peer).toList

/-- A request is encoded field by field. -/
theorem encode_eq (dial : Dial) :
    dial.encode = dial.fields.flatMap fun field => field.toField.encode := by
  obtain ⟨peer⟩ := dial
  cases peer with
  | none => rfl
  | some info => exact (List.append_nil _).symm

/-- The fields of a request make it up. -/
theorem store_fields (dial : Dial) : dial.fields.foldl DialField.store ⟨none⟩ = dial := by
  obtain ⟨peer⟩ := dial
  cases peer <;> rfl

/-- A request is read back. -/
theorem decode_encode (dial : Dial) (hlen : dial.encode.length < 2 ^ 63) :
    decode dial.encode = pure dial := by
  rw [dial.encode_eq] at hlen ⊢
  rw [decode, decodeFields_write hlen DialField.number_small (DialField.reads hlen),
    dial.store_fields]

end Dial

/-! ## DialResponse -/

/-- A field of a DIAL_RESPONSE as the encoder writes it. -/
inductive DialResponseField
  | status (value : ResponseStatus)
  | statusText (text : String)
  | addr (data : Bytes)

namespace DialResponseField

/-- The field of a response on the wire. -/
def toField : DialResponseField → Wire.Field
  | status value => .varint 1 value.toU64
  | statusText text => .bytes 2 (asBytes text)
  | addr data => .bytes 3 data

/-- The response with the field. -/
def store (response : DialResponse) : DialResponseField → DialResponse
  | status value => { response with status := value }
  | statusText text => { response with statusText := some text }
  | addr data => { response with addrs := response.addrs ++ [data] }

/-- The numbers of the fields of a response take one byte, and are not 0. -/
theorem number_small (field : DialResponseField) :
    field.toField.number < 16 ∧ field.toField.number ≠ 0 := by
  cases field with
  | status => exact (by decide : (1 : UInt64) < 16 ∧ (1 : UInt64) ≠ 0)
  | statusText => exact (by decide : (2 : UInt64) < 16 ∧ (2 : UInt64) ≠ 0)
  | addr => exact (by decide : (3 : UInt64) < 16 ∧ (3 : UInt64) ≠ 0)

/-- The reader of a response reads its fields. -/
theorem reads {input : Bytes} (hlen : input.length < 2 ^ 63) :
    Wire.ReadsField DialResponse.readField toField store input := by
  intro field rest response idx hinput
  cases field with
  | status value =>
    have hvalue : ResponseStatus.fromU64 value.toU64 = value := by cases value <;> rfl
    refine ⟨_, ?_, Wire.drop_add hinput⟩
    show DialResponse.readField input 1 wireVarint response idx = _
    rw [DialResponse.readField, if_pos ⟨rfl, rfl⟩, Wire.readVarintValue_write hlen hinput,
      pure_bind]
    dsimp only
    rw [hvalue]
    rfl
  | statusText text =>
    obtain ⟨idx', hread, hrest, -⟩ := readLenDelimited_body hlen hinput
    refine ⟨idx', ?_, hrest⟩
    show DialResponse.readField input 2 wireLen response idx = _
    rw [DialResponse.readField, if_neg (by decide), if_pos ⟨rfl, rfl⟩, hread, pure_bind]
    dsimp only
    rw [fromUtf8Lossy_asBytes]
    rfl
  | addr data =>
    obtain ⟨idx', hread, hrest, -⟩ := readLenDelimited_body hlen hinput
    refine ⟨idx', ?_, hrest⟩
    show DialResponse.readField input 3 wireLen response idx = _
    rw [DialResponse.readField, if_neg (by decide), if_neg (by decide), if_pos ⟨rfl, rfl⟩, hread,
      pure_bind]
    rfl

end DialResponseField

/-- An optional field is written as the list of its values. -/
theorem encodeOptionalField_eq (tag : UInt8) (data : Option Bytes) :
    encodeOptionalField tag data = data.toList.flatMap (encodeBytesField tag) := by
  cases data with
  | none => rfl
  | some data => exact (List.append_nil _).symm

namespace DialResponse

/-- The fields of a response in the order in which they are written. -/
def fields (response : DialResponse) : List DialResponseField :=
  .status response.status :: (response.statusText.map DialResponseField.statusText).toList ++
    response.addrs.map .addr

/-- A response is encoded field by field. -/
theorem encode_eq (response : DialResponse) :
    response.encode = response.fields.flatMap fun field => field.toField.encode := by
  rw [encode, fields, List.flatMap_append, List.flatMap_cons, List.flatMap_map,
    encodeOptionalField_eq, Option.toList_map, Option.toList_map, List.flatMap_map,
    List.flatMap_map]
  rfl

/-- The fields of a response make it up. -/
theorem store_fields (response : DialResponse) :
    response.fields.foldl DialResponseField.store ⟨.internalError, none, []⟩ = response := by
  obtain ⟨status, statusText, addrs⟩ := response
  rw [fields, List.foldl_append]
  cases statusText with
  | none =>
    exact Fields.foldl_repeated (DialResponse.mk status none) (fun _ _ => rfl) [] addrs
  | some text =>
    exact Fields.foldl_repeated (DialResponse.mk status (some text)) (fun _ _ => rfl) [] addrs

/-- A response is read back. -/
theorem decode_encode (response : DialResponse) (hlen : response.encode.length < 2 ^ 63) :
    decode response.encode = pure response := by
  rw [response.encode_eq] at hlen ⊢
  rw [decode, decodeFields_write hlen DialResponseField.number_small
    (DialResponseField.reads hlen), response.store_fields]

end DialResponse

/-! ## Messages -/

/-- A field of a message as the encoder writes it. -/
inductive MessageField
  | kind (value : MessageType)
  | dial (value : Dial)
  | dialResponse (value : DialResponse)

namespace MessageField

/-- The field of a message on the wire. -/
def toField : MessageField → Wire.Field
  | kind value => .varint 1 value.toU64
  | dial value => .bytes 2 value.encode
  | dialResponse value => .bytes 3 value.encode

/-- The message with the field. -/
def store (msg : MessageFields) : MessageField → MessageFields
  | kind value => { msg with kind := some value }
  | dial value => { msg with dial := some value }
  | dialResponse value => { msg with dialResponse := some value }

/-- The numbers of the fields of a message take one byte, and are not 0. -/
theorem number_small (field : MessageField) :
    field.toField.number < 16 ∧ field.toField.number ≠ 0 := by
  cases field with
  | kind => exact (by decide : (1 : UInt64) < 16 ∧ (1 : UInt64) ≠ 0)
  | dial => exact (by decide : (2 : UInt64) < 16 ∧ (2 : UInt64) ≠ 0)
  | dialResponse => exact (by decide : (3 : UInt64) < 16 ∧ (3 : UInt64) ≠ 0)

/-- The reader of a message reads its fields. -/
theorem reads {input : Bytes} (hlen : input.length < 2 ^ 63) :
    Wire.ReadsField Message.readField toField store input := by
  intro field rest msg idx hinput
  cases field with
  | kind value =>
    have hvalue : MessageType.fromU64 value.toU64 = some value := by cases value <;> rfl
    refine ⟨_, ?_, Wire.drop_add hinput⟩
    show Message.readField input 1 wireVarint msg idx = _
    rw [Message.readField, if_pos ⟨rfl, rfl⟩, Wire.readVarintValue_write hlen hinput, pure_bind]
    simp only [hvalue]
    rfl
  | dial value =>
    obtain ⟨idx', hread, hrest, hbody⟩ := readLenDelimited_body hlen hinput
    refine ⟨idx', ?_, hrest⟩
    show Message.readField input 2 wireLen msg idx = _
    rw [Message.readField, if_neg (by decide), if_pos ⟨rfl, rfl⟩, hread, pure_bind]
    dsimp only
    rw [value.decode_encode hbody, pure_bind]
    rfl
  | dialResponse value =>
    obtain ⟨idx', hread, hrest, hbody⟩ := readLenDelimited_body hlen hinput
    refine ⟨idx', ?_, hrest⟩
    show Message.readField input 3 wireLen msg idx = _
    rw [Message.readField, if_neg (by decide), if_neg (by decide), if_pos ⟨rfl, rfl⟩, hread,
      pure_bind]
    dsimp only
    rw [value.decode_encode hbody, pure_bind]
    rfl

end MessageField

namespace Message

/-- The fields of a message in the order in which they are written. -/
def fields (msg : Message) : List MessageField :=
  .kind msg.kind :: (msg.dial.map MessageField.dial).toList ++
    (msg.dialResponse.map MessageField.dialResponse).toList

/-- A message is encoded field by field. -/
theorem encode_eq (msg : Message) :
    msg.encode = msg.fields.flatMap fun field => field.toField.encode := by
  rw [encode, fields, List.flatMap_append, List.flatMap_cons, encodeOptionalField_eq,
    encodeOptionalField_eq, Option.toList_map, Option.toList_map, Option.toList_map,
    Option.toList_map, List.flatMap_map, List.flatMap_map, List.flatMap_map, List.flatMap_map]
  rfl

/-- The fields of a message make it up. -/
theorem store_fields (msg : Message) : msg.fields.foldl MessageField.store ⟨none, none, none⟩ =
    ⟨some msg.kind, msg.dial, msg.dialResponse⟩ := by
  obtain ⟨kind, dial, dialResponse⟩ := msg
  cases dial <;> cases dialResponse <;> rfl

/-- A message is decoded from its encoding. -/
theorem decode_encode (msg : Message) (hlen : msg.encode.length < 2 ^ 63) :
    decode msg.encode = pure msg := by
  rw [msg.encode_eq] at hlen ⊢
  rw [decode, decodeFields_write hlen MessageField.number_small (MessageField.reads hlen),
    msg.store_fields, pure_bind]

end Message

/-! ## Frames -/

variable {payload : Bytes}

theorem length_payload (payload : Bytes) : payload.length ≤ (encodeFrame payload).length := by
  rw [encodeFrame, List.length_append]
  omega

/-- A frame at the front of the input is found, whatever follows it. -/
theorem decodeFrame_encodeFrame (hlen : payload.length ≤ maxMessageSize)
    (rest : Bytes) : decodeFrame (encodeFrame payload ++ rest) =
      .ok (.complete payload (encodeFrame payload).length) := by
  have hmax : maxMessageSize = 8192 := rfl
  have hsize : (encodeFrame payload).length = _ := Wire.length_encodeFrame payload
  have hten := length_writeUvarint_le (UInt64.ofNat payload.length)
  have hvalue : (UInt64.ofNat payload.length).toNat = payload.length :=
    toNat_ofNat_length (by omega)
  have hread : readUvarint (encodeFrame payload ++ rest) =
      .ok (UInt64.ofNat payload.length, (writeUvarint (UInt64.ofNat payload.length)).length) := by
    rw [encodeFrame, List.append_assoc, readUvarint_writeUvarint_append]
  have hslice : Exec.slice (encodeFrame payload ++ rest)
      (writeUvarint (UInt64.ofNat payload.length)).length (encodeFrame payload).length =
        .ok payload := by
    rw [Exec.slice_eq_ok (by omega) (by rw [List.length_append]; omega), List.take_left]
    exact congrArg Except.ok List.drop_left
  simp only [decodeFrame, hread, hvalue]
  rw [if_neg (by omega), Nat.min_eq_left (by omega), ← hsize,
    if_neg (by rw [List.length_append]; omega), hslice]
  rfl

/-- A frame that is cut short is incomplete. -/
theorem decodeFrame_take_encodeFrame (hlen : payload.length ≤ maxMessageSize) {n : ℕ}
    (hn : n < (encodeFrame payload).length) :
    decodeFrame ((encodeFrame payload).take n) = .ok .incomplete := by
  have hmax : maxMessageSize = 8192 := rfl
  have hsize : (encodeFrame payload).length = _ := Wire.length_encodeFrame payload
  have hten := length_writeUvarint_le (UInt64.ofNat payload.length)
  have hvalue : (UInt64.ofNat payload.length).toNat = payload.length :=
    toNat_ofNat_length (by omega)
  by_cases hcut : n < (writeUvarint (UInt64.ofNat payload.length)).length
  · -- the cut is inside the length prefix
    have hread : readUvarint ((encodeFrame payload).take n) = .error .bufferTooShort := by
      rw [encodeFrame, List.take_append_of_le_length (by omega)]
      exact readUvarint_take_writeUvarint _ hcut
    simp only [decodeFrame, hread]
  · have hread : readUvarint ((encodeFrame payload).take n) =
        .ok (UInt64.ofNat payload.length,
          (writeUvarint (UInt64.ofNat payload.length)).length) := by
      rw [encodeFrame, List.take_append, List.take_of_length_le (by omega),
        readUvarint_writeUvarint_append]
    simp only [decodeFrame, hread, hvalue]
    rw [if_neg (by omega), Nat.min_eq_left (by omega), if_pos (by rw [List.length_take]; omega)]
    rfl

variable {msg : Message}

/-- A message that is framed at the front of the receive buffer is found there. -/
theorem receive_frame (hlen : (encodeFrame msg.encode).length ≤ maxMessageSize) :
    receive (encodeFrame msg.encode) = .ok (.framed (.ok msg) []) := by
  have hmax : maxMessageSize = 8192 := rfl
  have hpayload := length_payload msg.encode
  have hframe := decodeFrame_encodeFrame (Nat.le_trans hpayload hlen) []
  rw [List.append_nil] at hframe
  rw [receive, if_neg (by omega), hframe]
  show ((Message.decode msg.encode).run >>= _) = _
  rw [msg.decode_encode (by omega)]
  show (Exec.drain _ _ >>= _) = _
  rw [Exec.drain_eq_ok (Nat.le_refl _), List.drop_length]
  rfl

/-- As long as bytes of the frame are missing, nothing is found. -/
theorem receive_part {got rest : Bytes} (hframe : got ++ rest = encodeFrame msg.encode)
    (hrest : rest ≠ []) (hlen : (encodeFrame msg.encode).length ≤ maxMessageSize) :
    receive got = .ok .incomplete := by
  have hgot : got.length < (encodeFrame msg.encode).length := by
    have hpos := List.length_pos_iff.mpr hrest
    rw [← hframe, List.length_append]
    omega
  have htake : got = (encodeFrame msg.encode).take got.length := by
    rw [← hframe, List.take_left]
  rw [receive, if_neg (by omega), htake,
    decodeFrame_take_encodeFrame (Nat.le_trans (length_payload msg.encode) hlen) hgot]
  rfl

/-! ## Addresses -/

variable [MultihashCodec]

/-- The addresses of a peer come back from their bytes. -/
theorem decodeAddrs_map (hcodec : MultihashCodec.Exact) {addrs : List Multiaddr}
    (haddrs : ∀ addr ∈ addrs, addr.Valid ∧ addr.toBytes.length < 2 ^ 63) :
    decodeAddrs (addrs.map Multiaddr.toBytes) = .ok addrs := by
  induction addrs with
  | nil => rfl
  | cons addr addrs ih =>
    obtain ⟨⟨hvalid, hlen⟩, hrest⟩ := List.forall_mem_cons.mp haddrs
    have hdecode : (Multiaddr.fromBytes addr.toBytes).run = .ok (.ok addr) :=
      Multiaddr.fromBytes_toBytes hcodec hvalid hlen
    have htail := ih hrest
    rw [decodeAddrs] at htail ⊢
    rw [List.map_cons, List.filterMapM_cons, hdecode, htail]
    rfl

end Minip2p.Autonat
