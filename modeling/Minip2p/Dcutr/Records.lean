import Minip2p.Dcutr.RoundTrip
import Minip2p.Relay.Records

/-!
# DCUtR messages as records

What a record does to a `HolePunch` message, and that the decoder does just that. With it the codecs
of both NAT traversal protocols are exact, and a peer of a later version can add fields to any of
their messages.
-/

namespace Minip2p.Dcutr

open Wire (Value Record)

variable {input input' : Bytes}

/-! ## What a record does -/

namespace HolePunch

/-- What a record does to the fields of a message. -/
def act (msg : HolePunchFields) (number : UInt64) : Value → Option HolePunchFields
  | .varint value =>
    if number = fieldType then
      (HolePunchType.fromU64 value).map fun kind => { msg with kind := some kind }
    else some msg
  | .len data _ =>
    if number = fieldObsAddrs then some { msg with obsAddrs := msg.obsAddrs ++ [data] }
    else some msg
  | _ => some msg

/-- The reader of a message does what its records say. -/
theorem acts (hlen : input.length < 2 ^ 63) : Wire.Acts readField act input := by
  intro number wireType msg idx msg' idx' hidx
  unfold readField
  split
  · next h =>
    obtain ⟨rfl, rfl⟩ := h
    refine Wire.acts_varint hlen hidx fun value i => ?_
    cases hkind : HolePunchType.fromU64 value <;> simp [act, hkind, and_comm]
  split
  · next h =>
    obtain ⟨rfl, rfl⟩ := h
    exact Wire.acts_len hlen hidx fun data hdata i => by simp [act, and_comm]
  -- a number that the decoder does not look for, or looks for with another wire type
  split
  · next hkind _ h =>
    obtain rfl := h
    have hnumber : number ≠ fieldType := fun h => hkind ⟨h, rfl⟩
    exact Wire.acts_varint hlen hidx fun value i => by simp [act, hnumber, and_comm]
  split
  · next haddr _ h =>
    obtain rfl := h
    have hnumber : number ≠ fieldObsAddrs := fun h => haddr ⟨h, rfl⟩
    exact Wire.acts_len hlen hidx fun data hdata i => by simp [act, hnumber, and_comm]
  split
  · next h =>
    obtain rfl := h
    refine Wire.acts_skip (Wire.yields_skipI64_iff hlen hidx) ?_
    intro value hvalue
    obtain ⟨data, rfl⟩ := Value.wireType_eq_i64_iff.mp hvalue
    rfl
  split
  · next h =>
    obtain rfl := h
    refine Wire.acts_skip (Wire.yields_skipI32_iff hlen hidx) ?_
    intro value hvalue
    obtain ⟨data, rfl⟩ := Value.wireType_eq_i32_iff.mp hvalue
    rfl
  · next hvarint hlenType hi64 hi32 =>
    refine iff_of_false Yields.not_throw ?_
    rintro ⟨value, hwire, -⟩
    exact Value.wireType_ne hvarint hi64 hlenType hi32 hwire

/-- The fields that a message is put together from. -/
def toFields (msg : HolePunch) : HolePunchFields := ⟨some msg.kind, msg.obsAddrs⟩

/-- A message is read from exactly the records that make it. -/
theorem decode_iff (hlen : input.length < 2 ^ 63) {msg : HolePunch} :
    Yields (decode input) msg ↔ Wire.Decodes act input ⟨none, []⟩ msg.toFields := by
  rw [decode, Yields.bind_iff, ← Wire.decodeFields_iff hlen (acts hlen)]
  constructor
  · rintro ⟨⟨kind, obsAddrs⟩, hfields, h⟩
    cases kind with
    | none => exact absurd h Yields.not_throw
    | some kind =>
      obtain rfl := Yields.pure_iff.mp h
      exact hfields
  · exact fun hfields => ⟨msg.toFields, hfields, Yields.pure_iff.mpr rfl⟩

end HolePunch

/-! ## Records that are not known -/

/-- The one message of the protocol; nothing is nested in it. -/
def schema : Wire.Schema Unit where
  Fields _ := HolePunchFields
  start _ := ⟨none, []⟩
  act _ := HolePunch.act
  known _ := [fieldType, fieldObsAddrs]
  nested _ _ := none

theorem schema_lawful : schema.Lawful where
  nested h := by cases h

theorem act_unknown {record : Record} (k : Unit) (hnumber : record.number ∉ schema.known k)
    (msg : schema.Fields k) : schema.act k msg record.number record.value = some msg := by
  obtain ⟨number, value, hlt⟩ := record
  simp only [schema, List.mem_cons, List.not_mem_nil, not_or] at hnumber
  cases value <;> simp [schema, HolePunch.act, hnumber]

/-- A record that DCUtR does not know changes nothing in a message. -/
theorem HolePunch.decode_inserted {record : Record} {msg : HolePunch}
    (h : schema.Inserted record () input input') (hlen : input.length < 2 ^ 63)
    (hlen' : input'.length < 2 ^ 63) (hdecode : HolePunch.decode input = pure msg) :
    HolePunch.decode input' = pure msg := by
  apply Yields.eq_pure
  rw [HolePunch.decode_iff hlen']
  exact h.decodes schema_lawful act_unknown hlen hlen' ((HolePunch.decode_iff hlen).mp hdecode)

/-! ## Both protocols -/

/-- Every message is decoded from its encoding. In every input that is accepted, a record with a
field number that its message does not know may be added between two others, at the top or in a
nested message, whatever its wire type: the same message is decoded. -/
theorem codecs_exact_and_extensible :
    (∀ msg : Relay.HopMessage, msg.encode.length < 2 ^ 63 →
      Relay.HopMessage.decode msg.encode = pure msg) ∧
    (∀ msg : Relay.StopMessage, msg.encode.length < 2 ^ 63 →
      Relay.StopMessage.decode msg.encode = pure msg) ∧
    (∀ msg : HolePunch, msg.encode.length < 2 ^ 63 → HolePunch.decode msg.encode = pure msg) ∧
    ∀ (record : Record) (input input' : Bytes), input.length < 2 ^ 63 → input'.length < 2 ^ 63 →
      (Relay.schema.Inserted record .hop input input' → ∀ msg,
        Relay.HopMessage.decode input = pure msg → Relay.HopMessage.decode input' = pure msg) ∧
      (Relay.schema.Inserted record .stop input input' → ∀ msg,
        Relay.StopMessage.decode input = pure msg → Relay.StopMessage.decode input' = pure msg) ∧
      (schema.Inserted record () input input' → ∀ msg,
        HolePunch.decode input = pure msg → HolePunch.decode input' = pure msg) := by
  refine ⟨fun _ => Relay.HopMessage.decode_encode, fun _ => Relay.StopMessage.decode_encode,
    HolePunch.decode_encode, ?_⟩
  intro record input input' hlen hlen'
  exact ⟨fun h _ => Relay.HopMessage.decode_inserted h hlen hlen',
    fun h _ => Relay.StopMessage.decode_inserted h hlen hlen',
    fun h _ => HolePunch.decode_inserted h hlen hlen'⟩

/-- A message of each kind, and a fixed32 record that is added to the peer of a HOP message. -/
theorem codecs_exact_and_extensible_connect :
    Relay.HopMessage.decode [8, 0] = pure ⟨.reserve, none, none, none, none⟩ ∧
    Relay.StopMessage.decode [8, 1, 32, 100] = pure ⟨.status, none, none, some .ok⟩ ∧
    HolePunch.decode [8, 100, 18, 2, 6, 7] = pure ⟨.connect, [[6, 7]]⟩ ∧
    Relay.HopMessage.decode [8, 1, 18, 3, 10, 1, 7] =
      pure ⟨.connect, some ⟨[7], []⟩, none, none, none⟩ ∧
    Relay.HopMessage.decode [8, 1, 18, 8, 10, 1, 7, 125, 1, 2, 3, 4] =
      pure ⟨.connect, some ⟨[7], []⟩, none, none, none⟩ := by
  let kind : Record := ⟨1, .varint 1, by decide⟩
  let id : Record := ⟨1, .len [7] (by decide), by decide⟩
  let unknown : Record := ⟨15, .i32 #v[1, 2, 3, 4], by decide⟩
  have hunknown : unknown.number ∉ Relay.schema.known .peer := by decide
  have hpeer : [10, 1, 7] = Wire.encodeRecords [id] ++ [] := by decide
  have hpeer' : [10, 1, 7, 125, 1, 2, 3, 4] =
      Wire.encodeRecords [id] ++ (unknown.encode ++ []) := by decide
  have hinput : [8, 1, 18, 3, 10, 1, 7] = Wire.encodeRecords [kind] ++
      (Record.encode ⟨2, .len [10, 1, 7] (by decide), by decide⟩ ++ []) := by decide
  have hinput' : [8, 1, 18, 8, 10, 1, 7, 125, 1, 2, 3, 4] = Wire.encodeRecords [kind] ++
      (Record.encode ⟨2, .len [10, 1, 7, 125, 1, 2, 3, 4] (by decide), by decide⟩ ++ []) := by
    decide
  have hinserted : Relay.schema.Inserted unknown .hop
      [8, 1, 18, 3, 10, 1, 7] [8, 1, 18, 8, 10, 1, 7, 125, 1, 2, 3, 4] := by
    rw [hinput, hinput']
    refine .within rfl ?_ [kind] []
    rw [hpeer, hpeer']
    exact .here hunknown [id] []
  have hplain : Relay.HopMessage.decode [8, 1, 18, 3, 10, 1, 7] =
      pure ⟨.connect, some ⟨[7], []⟩, none, none, none⟩ := by rfl
  obtain ⟨hhop, hstop, hpunch, hextensible⟩ := codecs_exact_and_extensible
  exact ⟨hhop ⟨.reserve, none, none, none, none⟩ (by decide),
    hstop ⟨.status, none, none, some .ok⟩ (by decide), hpunch ⟨.connect, [[6, 7]]⟩ (by decide),
    hplain, (hextensible _ _ _ (by decide) (by decide)).1 hinserted _ hplain⟩

end Minip2p.Dcutr
