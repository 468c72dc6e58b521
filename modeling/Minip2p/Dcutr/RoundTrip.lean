import Minip2p.Core.MultiaddrTheorems
import Minip2p.Core.WireRoundTrip
import Minip2p.Dcutr.Flows

/-!
# DCUtR messages, read back

A `HolePunch` message is its type and then its addresses, and both machines find it again at the
front of their receive buffer: as a whole once the frame is complete, and not before.
-/

namespace Minip2p.Dcutr

/-! ## Messages -/

/-- A field of a HolePunch message as the encoder writes it. -/
inductive HolePunchField
  | kind (value : HolePunchType)
  | obsAddr (addr : Bytes)

namespace HolePunchField

/-- The field of a message on the wire. -/
def toField : HolePunchField → Wire.Field
  | kind value => .varint fieldType value.toU64
  | obsAddr addr => .bytes fieldObsAddrs addr

/-- The message with the field. -/
def store (msg : HolePunchFields) : HolePunchField → HolePunchFields
  | kind value => { msg with kind := some value }
  | obsAddr addr => { msg with obsAddrs := msg.obsAddrs ++ [addr] }

theorem number_lt (field : HolePunchField) : field.toField.number < 16 := by
  cases field with
  | kind => exact (by decide : fieldType < 16)
  | obsAddr => exact (by decide : fieldObsAddrs < 16)

theorem reads {input : Bytes} (hlen : input.length < 2 ^ 63) :
    Wire.ReadsField HolePunch.readField toField store input := by
  intro field rest msg idx hinput
  cases field with
  | kind value =>
    have hvalue : HolePunchType.fromU64 value.toU64 = some value := by cases value <;> rfl
    refine ⟨_, ?_, Wire.drop_add hinput⟩
    show HolePunch.readField input fieldType wireVarint msg idx = _
    rw [HolePunch.readField, if_pos ⟨rfl, rfl⟩, Wire.readVarintValue_write hlen hinput, pure_bind]
    simp only [hvalue]
    rfl
  | obsAddr addr =>
    have hbody : input.drop idx = writeUvarint (UInt64.ofNat addr.length) ++ (addr ++ rest) :=
      hinput.trans (List.append_assoc _ _ _)
    obtain ⟨idx', hread, hrest⟩ : ∃ idx', (Wire.readLenDelimited input idx :
        Fallible DcutrMessageError (Bytes × ℕ)) = pure (addr, idx') ∧ input.drop idx' = rest :=
      Wire.readLenDelimited_write hlen hbody
    refine ⟨idx', ?_, hrest⟩
    show HolePunch.readField input fieldObsAddrs wireLen msg idx = _
    rw [HolePunch.readField, if_neg (by decide), if_pos ⟨rfl, rfl⟩, hread, pure_bind]
    rfl

end HolePunchField

/-- The fields of a message in the order in which they are written. -/
def HolePunch.fields (msg : HolePunch) : List HolePunchField :=
  .kind msg.kind :: msg.obsAddrs.map .obsAddr

theorem HolePunch.encode_eq (msg : HolePunch) :
    msg.encode = msg.fields.flatMap fun field => field.toField.encode := by
  rw [HolePunch.fields, List.flatMap_cons, List.flatMap_map]
  rfl

theorem HolePunch.store_fields (msg : HolePunch) :
    msg.fields.foldl HolePunchField.store ⟨none, []⟩ = ⟨some msg.kind, msg.obsAddrs⟩ := by
  rw [HolePunch.fields, List.foldl_cons]
  exact Fields.foldl_repeated (HolePunchFields.mk (some msg.kind)) (fun _ _ => rfl) [] msg.obsAddrs

/-- A message is decoded from its encoding. -/
theorem HolePunch.decode_encode (msg : HolePunch) (hlen : msg.encode.length < 2 ^ 63) :
    HolePunch.decode msg.encode = pure msg := by
  rw [msg.encode_eq] at hlen ⊢
  rw [HolePunch.decode, Wire.decodeFields_write hlen HolePunchField.number_lt
    (HolePunchField.reads hlen), msg.store_fields, pure_bind]

/-! ## Frames -/

/-- A message that is framed at the front of the receive buffer is found there. -/
theorem receiveHolePunch_frame {msg : HolePunch} {rest : Bytes}
    (hlen : (encodeFrame msg.encode ++ rest).length ≤ maxMessageSize) :
    receiveHolePunch (encodeFrame msg.encode ++ rest) = .ok (.message msg rest) :=
  Wire.receive_encodeFrame maxMessageSize_lt msg.decode_encode hlen

/-- As long as bytes of the frame are missing, nothing is found. -/
theorem receiveHolePunch_part {msg : HolePunch} {got rest : Bytes}
    (hframe : got ++ rest = encodeFrame msg.encode) (hrest : rest ≠ [])
    (hlen : (encodeFrame msg.encode).length ≤ maxMessageSize) :
    receiveHolePunch got = .ok .incomplete :=
  Wire.receive_part_encodeFrame maxMessageSize_lt hframe hrest hlen

/-! ## Addresses -/

variable [MultihashCodec]

omit [MultihashCodec] in
theorem length_le_encode {msg : HolePunch} {addr : Bytes} (haddr : addr ∈ msg.obsAddrs) :
    addr.length ≤ msg.encode.length := by
  obtain ⟨before, after, hsplit⟩ := List.append_of_mem haddr
  rw [HolePunch.encode, hsplit]
  simp only [List.flatMap_append, List.flatMap_cons, List.length_append, List.length_cons]
  omega

/-- The addresses of a peer come back from their bytes. -/
theorem decodeRemoteAddrs_map (hcodec : MultihashCodec.Exact) {addrs : List Multiaddr}
    (haddrs : ∀ addr ∈ addrs, addr.Valid ∧ (encodeMultiaddr addr).length < 2 ^ 63) :
    decodeRemoteAddrs (addrs.map encodeMultiaddr) = .ok addrs := by
  induction addrs with
  | nil => rfl
  | cons addr addrs ih =>
    obtain ⟨⟨hvalid, hlen⟩, hrest⟩ := List.forall_mem_cons.mp haddrs
    have hdecode : (Multiaddr.fromBytes (encodeMultiaddr addr)).run = .ok (.ok addr) :=
      Multiaddr.fromBytes_toBytes hcodec hvalid hlen
    rw [List.map_cons, decodeRemoteAddrs, hdecode, ih hrest]
    rfl

end Minip2p.Dcutr
