import Minip2p.Core.Records

/-!
# Records that a decoder does not know

A peer of another version may send fields that this one does not know, in a message or in a message
that is nested in it. `Inserted` puts one record more between two records of the input, at any
depth, and adjusts the lengths around it. If every decoder skips the record, what it decodes stays
the same (`Inserted.decodes`); if every decoder refuses it, the input is no longer accepted
(`Inserted.refused`).
-/

namespace Minip2p.Wire

/-- Kinds of messages, each with what is read of it, and the fields in which messages of other kinds
are nested. -/
structure Schema (K : Type) where
  Fields : K → Type
  /-- What has been read before the first record. -/
  start (k : K) : Fields k
  act (k : K) : Fields k → UInt64 → Value → Option (Fields k)
  /-- The field numbers the decoder looks for. -/
  known : K → List UInt64
  nested : K → UInt64 → Option K

namespace Schema

variable {K : Type} (schema : Schema K) {k k' : K}

/-- The records of `input` give the message of kind `k`. -/
def Decodes (k : K) (input : Bytes) (msg : schema.Fields k) : Prop :=
  Wire.Decodes (schema.act k) input (schema.start k) msg

/-- A nested message, which is a slice of the input, is decoded by the decoder of its kind, and
stored. -/
structure Lawful : Prop where
  nested {k k' : K} {number : UInt64} (h : schema.nested k number = some k') :
    ∃ put : schema.Fields k → schema.Fields k' → schema.Fields k, ∀ msg body hbody msg',
      body.length < 2 ^ 63 → (schema.act k msg number (.len body hbody) = some msg' ↔
        ∃ inner, schema.Decodes k' body inner ∧ put msg inner = msg')

/-- The second input is the first one with the record between two of its records, or of those of a
message nested in it. The decoder of the message that has it does not know its field number. -/
inductive Inserted (record : Record) : K → Bytes → Bytes → Prop
  | here {k : K} (hnumber : record.number ∉ schema.known k) (before : List Record) (rest : Bytes) :
    Inserted record k (encodeRecords before ++ rest)
      (encodeRecords before ++ (record.encode ++ rest))
  | within {k k' : K} {number : UInt64} {hlt : number.toNat < 2 ^ 61} {body body' : Bytes}
    {hbody : body.length < 2 ^ 64} {hbody' : body'.length < 2 ^ 64}
    (hnested : schema.nested k number = some k') (h : Inserted record k' body body')
    (before : List Record) (rest : Bytes) :
    Inserted record k
      (encodeRecords before ++ (Record.encode ⟨number, .len body hbody, hlt⟩ ++ rest))
      (encodeRecords before ++ (Record.encode ⟨number, .len body' hbody', hlt⟩ ++ rest))

variable {schema} {record : Record} {input input' : Bytes}

omit schema in
/-- A nested message is not longer than the message it is nested in. -/
theorem length_body_le (before : List Record) {number : UInt64} (hlt : number.toNat < 2 ^ 61)
    {body : Bytes} (hbody : body.length < 2 ^ 64) (rest : Bytes) :
    body.length ≤ (encodeRecords before ++
      (Record.encode ⟨number, .len body hbody, hlt⟩ ++ rest)).length := by
  simp only [Record.encode, Value.encode, List.length_append]
  omega

omit schema in
/-- What a nested message is stored as, if its decoder returns what `P` says. -/
theorem map_toOption_iff {ε α σ : Type} {x : Fallible ε α} {P : α → Prop} {f : α → σ} {msg : σ}
    (h : ∀ {inner}, Yields x inner ↔ P inner) :
    x.toOption.map f = some msg ↔ ∃ inner, P inner ∧ f inner = msg := by
  simp only [Option.map_eq_some_iff, Fallible.toOption_eq_some_iff, h]

/-- A record that every decoder skips. -/
theorem Inserted.decodes (hlawful : schema.Lawful)
    (hskip : ∀ k, record.number ∉ schema.known k → ∀ msg,
      schema.act k msg record.number record.value = some msg)
    (h : schema.Inserted record k input input') (hlen : input.length < 2 ^ 63)
    (hlen' : input'.length < 2 ^ 63) {msg : schema.Fields k}
    (hdecodes : schema.Decodes k input msg) : schema.Decodes k input' msg := by
  induction h with
  | here hnumber before rest =>
    exact (Records.decodes_insert_iff selfDelimiting_record (hskip _ hnumber)).mpr hdecodes
  | within hnested h before rest ih =>
    have hbody := Nat.lt_of_le_of_lt (length_body_le before _ _ rest) hlen
    have hbody' := Nat.lt_of_le_of_lt (length_body_le before _ _ rest) hlen'
    refine Records.Decodes.replace selfDelimiting_record ?_ hdecodes
    obtain ⟨put, hput⟩ := hlawful.nested hnested
    intro msg₁ msg₂ hact
    obtain ⟨inner, hinner, hmsg⟩ := (hput _ _ _ _ hbody).mp hact
    exact (hput _ _ _ _ hbody').mpr ⟨inner, ih hbody hbody' hinner, hmsg⟩

/-- A record that every decoder refuses. -/
theorem Inserted.refused (hlawful : schema.Lawful)
    (hrefuse : ∀ k msg, schema.act k msg record.number record.value = none)
    (h : schema.Inserted record k input input') (hlen' : input'.length < 2 ^ 63)
    (msg : schema.Fields k) : ¬ schema.Decodes k input' msg := by
  induction h with
  | here hnumber before rest =>
    exact Records.not_decodes_insert selfDelimiting_record (hrefuse _)
  | within hnested h before rest ih =>
    have hbody' := Nat.lt_of_le_of_lt (length_body_le before _ _ rest) hlen'
    refine Records.not_decodes_insert selfDelimiting_record ?_
    obtain ⟨put, hput⟩ := hlawful.nested hnested
    intro msg₁
    by_contra hsome
    obtain ⟨msg₂, hact⟩ := Option.ne_none_iff_exists'.mp hsome
    obtain ⟨inner, hinner, -⟩ := (hput _ _ _ _ hbody').mp hact
    exact ih hbody' inner hinner

end Schema

end Minip2p.Wire
