import Mathlib.Algebra.Ring.Nat
import Mathlib.Tactic.Common

/-!
# Unsigned varints

`uvarint_len`, `write_uvarint` and `read_uvarint` of `crates/identity/src/peer_id.rs`, the
integer code under every length prefix and field tag of the stack. Values are `u64`, so the
loops run at most ten times; `uvarintLenGo` and `writeUvarintGo` take that bound as fuel.
-/

namespace Minip2p

/-- A Rust `Vec<u8>` or `&[u8]`. -/
abbrev Bytes := List UInt8

instance Bytes.lawfulBEq : LawfulBEq Bytes := inferInstance

/-- Errors of `readUvarint`. -/
inductive VarintError
  | bufferTooShort
  | overflow
  | nonCanonical
deriving DecidableEq, Repr

namespace VarintError

/-- The `Display` text. -/
def display : VarintError → String
  | bufferTooShort => "buffer ended before varint terminated"
  | overflow => "varint overflows u64"
  | nonCanonical => "varint is not minimally encoded"

end VarintError

/-- The loop of `uvarintLen`. -/
def uvarintLenGo : Nat → UInt64 → Nat
  | 0, _ => 1
  | fuel + 1, value => if value ≥ 0x80 then uvarintLenGo fuel (value >>> 7) + 1 else 1

/-- The number of bytes that encode `value`. -/
def uvarintLen (value : UInt64) : Nat := uvarintLenGo 10 value

/-- The loop of `writeUvarint`. -/
def writeUvarintGo : Nat → UInt64 → Bytes
  | 0, _ => []
  | fuel + 1, value =>
    let byte := (value &&& 0x7f).toUInt8
    let value := value >>> 7
    if value ≠ 0 then (byte ||| 0x80) :: writeUvarintGo fuel value else [byte]

/-- The minimal encoding of `value`, seven bits a byte, least significant group first. -/
def writeUvarint (value : UInt64) : Bytes := writeUvarintGo 10 value

/-- The loop of `readUvarint` at byte `idx`, with the accumulated value and shift. -/
def readUvarintGo (idx : Nat) (value shift : UInt64) : Bytes → Except VarintError (UInt64 × Nat)
  | [] => .error .bufferTooShort
  | byte :: rest =>
    if idx ≥ 10 then .error .overflow
    else if idx = 9 ∧ (byte &&& 0x80 ≠ 0 ∨ byte > 1) then .error .overflow
    else
      let low := (byte &&& 0x7f).toUInt64
      let value := value ||| (low <<< shift)
      if byte &&& 0x80 = 0 then
        let used := idx + 1
        if used ≠ uvarintLen value then .error .nonCanonical else .ok (value, used)
      else readUvarintGo (idx + 1) value (shift + 7) rest

/-- Reads one varint from the front of `input`, with the number of bytes it took, and rejects
encodings that are not minimal. -/
def readUvarint (input : Bytes) : Except VarintError (UInt64 × Nat) :=
  readUvarintGo 0 0 0 input

/-! ## What a successful read used -/

/-- A varint takes at least one byte, all of them inside the input. -/
theorem readUvarintGo_used {idx : Nat} {value shift : UInt64} {input : Bytes} {v : UInt64} {n : Nat}
    (h : readUvarintGo idx value shift input = .ok (v, n)) :
    idx < n ∧ n ≤ idx + input.length ∧ n ≤ 10 := by
  induction input generalizing idx value shift with
  | nil => cases h
  | cons byte rest ih =>
    simp only [readUvarintGo] at h
    split at h
    · cases h
    split at h
    · cases h
    split at h
    · split at h
      · cases h
      · obtain ⟨rfl, rfl⟩ := Prod.mk.inj (Except.ok.inj h)
        simp only [List.length_cons]
        omega
    · have := ih h
      simp only [List.length_cons]
      omega

/-- A varint that was read takes at least one and at most ten bytes of the input. -/
theorem readUvarint_used {input : Bytes} {v : UInt64} {n : Nat}
    (h : readUvarint input = .ok (v, n)) : 0 < n ∧ n ≤ input.length ∧ n ≤ 10 := by
  have := readUvarintGo_used h
  omega

/-- A varint is read the same when more bytes follow. -/
theorem readUvarintGo_append {idx : Nat} {value shift : UInt64} {input : Bytes}
    {r : UInt64 × Nat} (h : readUvarintGo idx value shift input = .ok r) (more : Bytes) :
    readUvarintGo idx value shift (input ++ more) = .ok r := by
  induction input generalizing idx value shift with
  | nil => cases h
  | cons byte rest ih =>
    simp only [List.cons_append, readUvarintGo] at h ⊢
    split at h
    · cases h
    next hlong =>
    rw [if_neg hlong]
    split at h
    · cases h
    next hover =>
    rw [if_neg hover]
    split at h
    · next hlast =>
      rw [if_pos hlast]
      exact h
    · next hlast =>
      rw [if_neg hlast]
      exact ih h

/-- A varint does not depend on the bytes after it. -/
theorem readUvarint_append {input : Bytes} {r : UInt64 × Nat} (h : readUvarint input = .ok r)
    (more : Bytes) : readUvarint (input ++ more) = .ok r :=
  readUvarintGo_append h more

/-- The longest varint, `u64::MAX` in ten bytes, is read back. -/
example : readUvarint (writeUvarint 18446744073709551615) = .ok (18446744073709551615, 10) := by
  decide

end Minip2p
