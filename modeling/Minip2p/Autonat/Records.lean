import Minip2p.Core.Schema
import Minip2p.Autonat.Message

/-!
# AutoNAT messages as records

What a record does to each of the four messages, and that the decoders do just that. Other than the
decoders of the sibling protocols, they refuse a record with a fixed-size value, at every level: of
the records that a later version may add, they skip those with a varint or with bytes.
-/

namespace Minip2p.Autonat

open Wire (Value Record)
open Records (Spans)

variable {σ : Type} {input : Bytes} {idx idx' : ℕ}

/-! ## The loop over the fields -/

/-- No field has the number 0. -/
def numbered (act : σ → UInt64 → Value → Option σ) (msg : σ) (number : UInt64) (value : Value) :
    Option σ :=
  if number = 0 then none else act msg number value

/-- A tag is read as everywhere, but its number is not 0. -/
theorem yields_readTag_iff {number : UInt64} {wireType : UInt8} :
    Yields (readTag input idx) (some ((number, wireType), idx')) ↔ number ≠ 0 ∧
      Yields (Wire.readTag input idx : Fallible AutoNatError _)
        (some ((number, wireType), idx')) := by
  rw [readTag, Yields.bind_iff]
  constructor
  · rintro ⟨found, htag, h⟩
    cases found with
    | none => cases Yields.pure_iff.mp h
    | some found =>
      obtain ⟨⟨n, w⟩, i⟩ := found
      simp only at h
      split at h
      · exact absurd h Yields.not_throw
      · next hnumber =>
        obtain ⟨⟨rfl, rfl⟩, rfl⟩ : (n = number ∧ w = wireType) ∧ i = idx' := by
          simpa using h
        exact ⟨hnumber, htag⟩
  · rintro ⟨hnumber, htag⟩
    refine ⟨_, htag, ?_⟩
    simp only
    rw [if_neg hnumber, Yields.pure_iff]

/-- There is a tag before the end of the input. -/
theorem readTag_ne_none (hidx : idx < input.length) : ¬ Yields (readTag input idx) none := by
  rw [readTag, Yields.bind_iff]
  rintro ⟨found, htag, h⟩
  cases found with
  | none => exact Wire.readTag_ne_none hidx htag
  | some found =>
    simp only at h
    split at h
    · exact absurd h Yields.not_throw
    · cases Yields.pure_iff.mp h

/-- The loop over the fields is the one over the records. -/
theorem loop_decodeFields (hlen : input.length < 2 ^ 63)
    {field : Wire.FieldReader AutoNatError σ} {act : σ → UInt64 → Value → Option σ}
    (hacts : Wire.Acts field act input) :
    Records.Loop Record.encode (Wire.onRecord (numbered act)) input fun fuel msg idx msg' =>
      Yields (decodeFieldsGo field input (fuel + 1) msg idx) msg' where
  finish := by
    intro fuel msg msg' idx hend
    have htag : readTag input idx = pure none := by
      rw [readTag, Wire.readTag, if_pos hend, pure_bind]
    rw [decodeFieldsGo, htag, pure_bind, Yields.pure_iff]
  turn := by
    intro fuel msg msg' idx hidx
    rw [decodeFieldsGo, Yields.bind_iff, ← Wire.exists_record_iff]
    constructor
    · rintro ⟨found, htag, h⟩
      cases found with
      | none => exact absurd htag (readTag_ne_none hidx)
      | some found =>
        obtain ⟨⟨number, wireType⟩, mid⟩ := found
        obtain ⟨hnumber, htag⟩ := yields_readTag_iff.mp htag
        obtain ⟨tag, hspans, rfl, rfl⟩ := (Wire.yields_readTag_iff hlen hidx).mp htag
        obtain ⟨⟨msg₁, idx'⟩, hfield, hrest⟩ := Yields.bind_iff.mp h
        obtain ⟨value, hwire, hvalue, hact⟩ :=
          (hacts _ _ _ _ _ _ (hspans.le_length hidx.le)).mp hfield
        refine ⟨tag, mid, hspans, msg₁, idx', ⟨value, hwire, hvalue, ?_⟩, hrest⟩
        rw [numbered, if_neg hnumber]
        exact hact
    · rintro ⟨tag, mid, hspans, msg₁, idx', ⟨value, hwire, hvalue, hact⟩, hrest⟩
      rw [numbered] at hact
      split at hact
      · cases hact
      · next hnumber =>
        have htag : Yields (Wire.readTag input idx : Fallible AutoNatError _) _ :=
          (Wire.yields_readTag_iff hlen hidx).mpr ⟨tag, hspans, rfl, rfl⟩
        refine ⟨_, yields_readTag_iff.mpr ⟨hnumber, htag⟩, Yields.bind_iff.mpr ?_⟩
        exact ⟨(msg₁, idx'), (hacts _ _ _ _ _ _ (hspans.le_length hidx.le)).mpr
          ⟨value, hwire, hvalue, hact⟩, hrest⟩

/-- A message is read from exactly the records that make it. -/
theorem decodeFields_iff (hlen : input.length < 2 ^ 63)
    {field : Wire.FieldReader AutoNatError σ} {act : σ → UInt64 → Value → Option σ}
    (hacts : Wire.Acts field act input) {msg msg' : σ} :
    Yields (decodeFields field input msg) msg' ↔ Wire.Decodes (numbered act) input msg msg' := by
  have hloop : Yields (decodeFieldsGo field input (input.length + 1) msg 0) msg' ↔
      Wire.Decodes (numbered act) (input.drop 0) msg msg' :=
    (loop_decodeFields hlen hacts).decodes_iff Wire.selfDelimiting_record (Nat.le_add_left _ 0)
  exact hloop

/-! ## What a record does -/

/-- What the decoders do with a record that they do not look for. -/
def skipped (msg : σ) : Value → Option σ
  | .varint _ | .len _ _ => some msg
  | .i64 _ | .i32 _ => none

theorem acts_skipField (hlen : input.length < 2 ^ 63) (hidx : idx ≤ input.length)
    {act : σ → UInt64 → Value → Option σ} {number : UInt64} {wireType : UInt8} {msg msg' : σ}
    (hact : ∀ value : Value, value.wireType = wireType → act msg number value = skipped msg value) :
    Yields (skipField input wireType msg idx) (msg', idx') ↔
      ∃ value : Value, value.wireType = wireType ∧ Spans input idx value.encode idx' ∧
        act msg number value = some msg' := by
  unfold skipField
  split
  · next h =>
    obtain rfl := h
    refine Wire.acts_len hlen hidx fun data hdata i => ?_
    rw [hact _ rfl, skipped, Yields.pure_iff]
    simp [and_comm]
  split
  · next h =>
    obtain rfl := h
    refine Wire.acts_varint hlen hidx fun value i => ?_
    rw [hact _ rfl, skipped, Yields.pure_iff]
    simp [and_comm]
  · next hlenType hvarint =>
    refine iff_of_false Yields.not_throw ?_
    rintro ⟨value, rfl, -, h⟩
    rw [hact _ rfl] at h
    cases value with
    | varint => exact hvarint rfl
    | len => exact hlenType rfl
    | i64 | i32 => cases h

namespace PeerInfo

/-- What a record does to a peer. -/
def act (peer : PeerInfo) (number : UInt64) : Value → Option PeerInfo
  | .len data _ =>
    if number = 1 then some { peer with id := data }
    else if number = 2 then some { peer with addrs := peer.addrs ++ [data] }
    else some peer
  | value => skipped peer value

/-- The reader of a peer does what its records say. -/
theorem acts (hlen : input.length < 2 ^ 63) : Wire.Acts readField act input := by
  intro number wireType msg idx msg' idx' hidx
  unfold readField
  split
  · next h =>
    obtain ⟨rfl, rfl⟩ := h
    exact Wire.acts_len hlen hidx fun data hdata i => by simp [act, and_comm]
  split
  · next h =>
    obtain ⟨rfl, rfl⟩ := h
    exact Wire.acts_len hlen hidx fun data hdata i => by simp [act, and_comm]
  · next hid haddr =>
    refine acts_skipField hlen hidx ?_
    rintro value rfl
    cases value with
    | len data hdata =>
      have hnumber : number ≠ 1 ∧ number ≠ 2 := ⟨fun h => hid ⟨h, rfl⟩, fun h => haddr ⟨h, rfl⟩⟩
      simp [act, skipped, hnumber]
    | varint | i64 | i32 => rfl

/-- A peer is read from exactly the records that make it. -/
theorem decode_iff (hlen : input.length < 2 ^ 63) {peer : PeerInfo} :
    Yields (decode input) peer ↔ Wire.Decodes (numbered act) input ⟨[], []⟩ peer :=
  decodeFields_iff hlen (acts hlen)

/-- A field of a peer that has no meaning is skipped. -/
theorem act_unknown {number : UInt64} (hnumber : number ∉ ([1, 2] : List UInt64)) (peer : PeerInfo)
    (value : Value) : act peer number value = skipped peer value := by
  simp only [List.mem_cons, List.not_mem_nil, not_or] at hnumber
  cases value <;> simp [act, skipped, hnumber]

end PeerInfo

namespace Dial

/-- What a record does to a request. -/
def act (dial : Dial) (number : UInt64) : Value → Option Dial
  | .len data _ =>
    if number = 1 then (PeerInfo.decode data).toOption.map fun peer => ⟨some peer⟩ else some dial
  | value => skipped dial value

/-- The reader of a request does what its records say. -/
theorem acts (hlen : input.length < 2 ^ 63) : Wire.Acts readField act input := by
  intro number wireType msg idx msg' idx' hidx
  unfold readField
  split
  · next h =>
    obtain ⟨rfl, rfl⟩ := h
    exact Wire.acts_len hlen hidx fun data hdata i => Wire.yields_nested_iff
  · next hpeer =>
    refine acts_skipField hlen hidx ?_
    rintro value rfl
    cases value with
    | len data hdata =>
      have hnumber : number ≠ 1 := fun h => hpeer ⟨h, rfl⟩
      simp [act, skipped, hnumber]
    | varint | i64 | i32 => rfl

/-- A request is read from exactly the records that make it. -/
theorem decode_iff (hlen : input.length < 2 ^ 63) {dial : Dial} :
    Yields (decode input) dial ↔ Wire.Decodes (numbered act) input ⟨none⟩ dial :=
  decodeFields_iff hlen (acts hlen)

/-- A field of a request that has no meaning is skipped. -/
theorem act_unknown {number : UInt64} (hnumber : number ∉ ([1] : List UInt64)) (dial : Dial)
    (value : Value) : act dial number value = skipped dial value := by
  simp only [List.mem_cons, List.not_mem_nil, not_or] at hnumber
  cases value <;> simp [act, skipped, hnumber]

end Dial

namespace DialResponse

/-- What a record does to a response. -/
def act (response : DialResponse) (number : UInt64) : Value → Option DialResponse
  | .varint value =>
    if number = 1 then some { response with status := .fromU64 value } else some response
  | .len data _ =>
    if number = 2 then some { response with statusText := some (fromUtf8Lossy data) }
    else if number = 3 then some { response with addrs := response.addrs ++ [data] }
    else some response
  | value => skipped response value

/-- The reader of a response does what its records say. -/
theorem acts (hlen : input.length < 2 ^ 63) : Wire.Acts readField act input := by
  intro number wireType msg idx msg' idx' hidx
  unfold readField
  split
  · next h =>
    obtain ⟨rfl, rfl⟩ := h
    exact Wire.acts_varint hlen hidx fun value i => by simp [act, and_comm]
  split
  · next h =>
    obtain ⟨rfl, rfl⟩ := h
    exact Wire.acts_len hlen hidx fun data hdata i => by simp [act, and_comm]
  split
  · next h =>
    obtain ⟨rfl, rfl⟩ := h
    exact Wire.acts_len hlen hidx fun data hdata i => by simp [act, and_comm]
  · next hstatus htext haddr =>
    refine acts_skipField hlen hidx ?_
    rintro value rfl
    cases value with
    | varint v =>
      have hnumber : number ≠ 1 := fun h => hstatus ⟨h, rfl⟩
      simp [act, skipped, hnumber]
    | len data hdata =>
      have hnumber : number ≠ 2 ∧ number ≠ 3 := ⟨fun h => htext ⟨h, rfl⟩, fun h => haddr ⟨h, rfl⟩⟩
      simp [act, skipped, hnumber]
    | i64 | i32 => rfl

/-- A response is read from exactly the records that make it. -/
theorem decode_iff (hlen : input.length < 2 ^ 63) {response : DialResponse} :
    Yields (decode input) response ↔
      Wire.Decodes (numbered act) input ⟨.internalError, none, []⟩ response :=
  decodeFields_iff hlen (acts hlen)

/-- A field of a response that has no meaning is skipped. -/
theorem act_unknown {number : UInt64} (hnumber : number ∉ ([1, 2, 3] : List UInt64))
    (response : DialResponse) (value : Value) :
    act response number value = skipped response value := by
  simp only [List.mem_cons, List.not_mem_nil, not_or] at hnumber
  cases value <;> simp [act, skipped, hnumber]

end DialResponse

namespace Message

/-- What a record does to the fields of a message. -/
def act (msg : MessageFields) (number : UInt64) : Value → Option MessageFields
  | .varint value =>
    if number = 1 then (MessageType.fromU64 value).map fun kind => { msg with kind := some kind }
    else some msg
  | .len data _ =>
    if number = 2 then (Dial.decode data).toOption.map fun dial => { msg with dial := some dial }
    else if number = 3 then
      (DialResponse.decode data).toOption.map fun dialResponse =>
        { msg with dialResponse := some dialResponse }
    else some msg
  | value => skipped msg value

/-- The reader of a message does what its records say. -/
theorem acts (hlen : input.length < 2 ^ 63) : Wire.Acts readField act input := by
  intro number wireType msg idx msg' idx' hidx
  unfold readField
  split
  · next h =>
    obtain ⟨rfl, rfl⟩ := h
    refine Wire.acts_varint hlen hidx fun value i => ?_
    cases hkind : MessageType.fromU64 value <;> simp [act, hkind, and_comm]
  split
  · next h =>
    obtain ⟨rfl, rfl⟩ := h
    exact Wire.acts_len hlen hidx fun data hdata i => Wire.yields_nested_iff
  split
  · next h =>
    obtain ⟨rfl, rfl⟩ := h
    exact Wire.acts_len hlen hidx fun data hdata i => Wire.yields_nested_iff
  · next hkind hdial hresponse =>
    refine acts_skipField hlen hidx ?_
    rintro value rfl
    cases value with
    | varint v =>
      have hnumber : number ≠ 1 := fun h => hkind ⟨h, rfl⟩
      simp [act, skipped, hnumber]
    | len data hdata =>
      have hnumber : number ≠ 2 ∧ number ≠ 3 :=
        ⟨fun h => hdial ⟨h, rfl⟩, fun h => hresponse ⟨h, rfl⟩⟩
      simp [act, skipped, hnumber]
    | i64 | i32 => rfl

/-- A field of a message that has no meaning is skipped. -/
theorem act_unknown {number : UInt64} (hnumber : number ∉ ([1, 2, 3] : List UInt64))
    (msg : MessageFields) (value : Value) : act msg number value = skipped msg value := by
  simp only [List.mem_cons, List.not_mem_nil, not_or] at hnumber
  cases value <;> simp [act, skipped, hnumber]

/-- The fields that a message is put together from. -/
def toFields (msg : Message) : MessageFields := ⟨some msg.kind, msg.dial, msg.dialResponse⟩

/-- A message is read from exactly the records that make it. -/
theorem decode_iff (hlen : input.length < 2 ^ 63) {msg : Message} :
    Yields (decode input) msg ↔
      Wire.Decodes (numbered act) input ⟨none, none, none⟩ msg.toFields := by
  rw [decode, Yields.bind_iff, ← decodeFields_iff hlen (acts hlen)]
  constructor
  · rintro ⟨⟨kind, dial, dialResponse⟩, hfields, h⟩
    cases kind with
    | none => exact absurd h Yields.not_throw
    | some kind =>
      obtain rfl := Yields.pure_iff.mp h
      exact hfields
  · exact fun hfields => ⟨msg.toFields, hfields, Yields.pure_iff.mpr rfl⟩

end Message

/-! ## Records that are not known -/

/-- The messages of the protocol. -/
inductive MessageKind
  | message
  | dial
  | peerInfo
  | dialResponse

/-- The messages and their fields. -/
def schema : Wire.Schema MessageKind where
  Fields := fun
    | .message => MessageFields
    | .dial => Dial
    | .peerInfo => PeerInfo
    | .dialResponse => DialResponse
  start := fun
    | .message => ⟨none, none, none⟩
    | .dial => ⟨none⟩
    | .peerInfo => ⟨[], []⟩
    | .dialResponse => ⟨.internalError, none, []⟩
  act := fun
    | .message => numbered Message.act
    | .dial => numbered Dial.act
    | .peerInfo => numbered PeerInfo.act
    | .dialResponse => numbered DialResponse.act
  known := fun
    | .message => [1, 2, 3]
    | .dial => [1]
    | .peerInfo => [1, 2]
    | .dialResponse => [1, 2, 3]
  nested := fun
    | .message, number =>
      if number = 2 then some .dial
      else if number = 3 then some .dialResponse
      else none
    | .dial, number => if number = 1 then some .peerInfo else none
    | _, _ => none

/-- The codecs are those of the schema. -/
theorem schema_lawful : schema.Lawful where
  nested := by
    intro k k' number h
    cases k with
    | message =>
      have hdial : ∀ {body dial}, body.length < 2 ^ 63 → (Yields (Dial.decode body) dial ↔
          schema.Decodes .dial body dial) := fun hlen => Dial.decode_iff hlen
      have hresponse : ∀ {body response}, body.length < 2 ^ 63 →
          (Yields (DialResponse.decode body) response ↔
            schema.Decodes .dialResponse body response) := fun hlen => DialResponse.decode_iff hlen
      simp only [schema] at h
      split at h
      · next hnumber =>
        obtain ⟨rfl, rfl⟩ := And.intro hnumber (Option.some.inj h)
        exact ⟨_, fun msg body hbody msg' hlen => Wire.Schema.map_toOption_iff (hdial hlen)⟩
      split at h
      · next hnumber =>
        obtain ⟨rfl, rfl⟩ := And.intro hnumber (Option.some.inj h)
        exact ⟨_, fun msg body hbody msg' hlen => Wire.Schema.map_toOption_iff (hresponse hlen)⟩
      · cases h
    | dial =>
      have hpeer : ∀ {body peer}, body.length < 2 ^ 63 → (Yields (PeerInfo.decode body) peer ↔
          schema.Decodes .peerInfo body peer) := fun hlen => PeerInfo.decode_iff hlen
      simp only [schema] at h
      split at h
      · next hnumber =>
        obtain ⟨rfl, rfl⟩ := And.intro hnumber (Option.some.inj h)
        exact ⟨_, fun msg body hbody msg' hlen => Wire.Schema.map_toOption_iff (hpeer hlen)⟩
      · cases h
    | peerInfo | dialResponse => cases h

/-- The records that the decoders skip. -/
def Skippable (record : Record) : Prop :=
  record.number ≠ 0 ∧ (record.value.wireType = wireVarint ∨ record.value.wireType = wireLen)

section

variable {record : Record} {act : σ → UInt64 → Value → Option σ} {msg : σ}

theorem numbered_unknown (hskip : Skippable record)
    (hact : act msg record.number record.value = skipped msg record.value) :
    numbered act msg record.number record.value = some msg := by
  obtain ⟨number, value, hlt⟩ := record
  obtain ⟨hzero, hwire⟩ := hskip
  rw [numbered, if_neg hzero, hact]
  cases value with
  | varint | len => rfl
  | i64 => exact absurd hwire (by decide : ¬ (wireI64 = wireVarint ∨ wireI64 = wireLen))
  | i32 => exact absurd hwire (by decide : ¬ (wireI32 = wireVarint ∨ wireI32 = wireLen))

theorem numbered_refused (hrefuse : ¬ Skippable record)
    (hi64 : ∀ data, act msg record.number (.i64 data) = none)
    (hi32 : ∀ data, act msg record.number (.i32 data) = none) :
    numbered act msg record.number record.value = none := by
  obtain ⟨number, value, hlt⟩ := record
  by_cases hzero : number = 0
  · exact if_pos hzero
  rw [numbered, if_neg hzero]
  cases value with
  | varint => exact absurd ⟨hzero, .inl rfl⟩ hrefuse
  | len => exact absurd ⟨hzero, .inr rfl⟩ hrefuse
  | i64 data => exact hi64 data
  | i32 data => exact hi32 data

end

/-- An unknown record that can be skipped changes nothing. -/
theorem schema_unknown {record : Record} (hskip : Skippable record) (k : MessageKind)
    (hnumber : record.number ∉ schema.known k) (msg : schema.Fields k) :
    schema.act k msg record.number record.value = some msg := by
  cases k with
  | message => exact numbered_unknown hskip (Message.act_unknown hnumber _ _)
  | dial => exact numbered_unknown hskip (Dial.act_unknown hnumber _ _)
  | peerInfo => exact numbered_unknown hskip (PeerInfo.act_unknown hnumber _ _)
  | dialResponse => exact numbered_unknown hskip (DialResponse.act_unknown hnumber _ _)

/-- A record that cannot be skipped is refused in every message. -/
theorem schema_refused {record : Record} (hrefuse : ¬ Skippable record) (k : MessageKind)
    (msg : schema.Fields k) : schema.act k msg record.number record.value = none := by
  cases k with
  | message | dial | peerInfo | dialResponse =>
    exact numbered_refused hrefuse (fun _ => rfl) (fun _ => rfl)

/-- What becomes of an accepted message when one record more stands in it, that its decoder or that
of a nested message does not know: it is decoded to the same if the record has a varint or bytes,
and refused if its value has a fixed size. -/
theorem Message.decode_inserted_iff {record : Record} {input' : Bytes} {msg : Message}
    (h : schema.Inserted record .message input input') (hlen : input.length < 2 ^ 63)
    (hlen' : input'.length < 2 ^ 63) (hdecode : Message.decode input = pure msg) :
    Message.decode input' = pure msg ↔ Skippable record := by
  have hinput' : Message.decode input' = pure msg ↔ schema.Decodes .message input' msg.toFields :=
    Message.decode_iff hlen'
  rw [hinput']
  constructor
  · intro hdecodes
    by_contra hrefuse
    exact h.refused schema_lawful (schema_refused hrefuse) hlen' _ hdecodes
  · exact fun hskip => h.decodes schema_lawful (schema_unknown hskip) hlen hlen'
      ((Message.decode_iff hlen).mp hdecode)

/-- A field with the number 15 and a varint, behind the type of a message. -/
theorem Message.decode_inserted_iff_varint :
    Message.decode [8, 0, 120, 5] = pure ⟨.dial, none, none⟩ := by
  let kind : Record := ⟨1, .varint 0, by decide⟩
  let unknown : Record := ⟨15, .varint 5, by decide⟩
  have hunknown : unknown.number ∉ schema.known .message := by decide
  have hinserted := Wire.Schema.Inserted.here hunknown [kind] []
  have hinput : Wire.encodeRecords [kind] ++ [] = [8, 0] := by decide
  have hinput' : Wire.encodeRecords [kind] ++ (unknown.encode ++ []) = [8, 0, 120, 5] := by
    decide
  rw [hinput, hinput'] at hinserted
  exact (Message.decode_inserted_iff hinserted (by decide) (by decide) rfl).mpr
    ⟨by decide, .inl rfl⟩

/-- A field with the number 15 and a fixed32 value, which is refused. -/
theorem Message.not_decode_inserted : ¬ ∀ (record : Record) (input input' : Bytes) (msg : Message),
    input.length < 2 ^ 63 → input'.length < 2 ^ 63 → record.number ≠ 0 →
      schema.Inserted record .message input input' → Message.decode input = pure msg →
        Message.decode input' = pure msg := by
  intro h
  let kind : Record := ⟨1, .varint 0, by decide⟩
  let unknown : Record := ⟨15, .i32 #v[1, 2, 3, 4], by decide⟩
  have hunknown : unknown.number ∉ schema.known .message := by decide
  have hinserted := Wire.Schema.Inserted.here hunknown [kind] []
  have hinput : Wire.encodeRecords [kind] ++ [] = [8, 0] := by decide
  have hinput' : Wire.encodeRecords [kind] ++ (unknown.encode ++ []) =
      [8, 0, 125, 1, 2, 3, 4] := by decide
  rw [hinput, hinput'] at hinserted
  have hdecode := h unknown [8, 0] [8, 0, 125, 1, 2, 3, 4] ⟨.dial, none, none⟩ (by decide)
    (by decide) (by decide) hinserted rfl
  have hrefused : Message.decode [8, 0, 125, 1, 2, 3, 4] = throw (.unsupportedWireType 5 3) := rfl
  rw [hrefused] at hdecode
  cases hdecode

end Minip2p.Autonat
