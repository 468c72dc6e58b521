import Minip2p.Identity.PeerIdTheorems
import Minip2p.Lib.Panic
import Minip2p.Lib.Records

/-!
# Public keys

The protobuf codec of `crates/identity/src/key.rs`: the key type and the bytes of the key, in this
order and in no other form. The decoder runs in `Fallible`, because it adds the declared length to
its index before it compares the sum with the length of the input.
-/

namespace Minip2p

open Records (Spans)

/-- Key type values used by libp2p key protobuf wrappers. -/
inductive KeyType
  | rsa
  | ed25519
  | secp256k1
  | ecdsa
deriving DecidableEq, Repr

/-- A key with its type. -/
structure PublicKey where
  keyType : KeyType
  data : Bytes
deriving DecidableEq, Repr

/-- Errors from decoding a libp2p public key protobuf. -/
inductive PublicKeyError
  | emptyInput
  | invalidFieldTag (expected : UInt8) (found : Option UInt8)
  | varint (error : VarintError)
  | unknownKeyType (value : UInt64)
  /-- A `u64` always fits in the `usize` of 64 bits. -/
  | lengthOverflow
  | invalidLength (expectedTotal actualTotal : Nat)
deriving DecidableEq, Repr

/-- The `Display` text. -/
def PublicKeyError.display : PublicKeyError → String
  | emptyInput => "public key protobuf input is empty"
  | invalidFieldTag expected found =>
    let hex := (Nat.toDigits 16 expected.toNat).leftpad 2 '0'
    let debug := match found with
      | none => "None"
      | some byte => s!"Some({byte})"
    "invalid protobuf field tag: expected 0x" ++ String.ofList hex ++ ", found " ++ debug
  | varint error => "invalid protobuf varint: " ++ error.display
  | unknownKeyType value => s!"unknown key type value: {value}"
  | lengthOverflow => "protobuf length does not fit in usize"
  | invalidLength expectedTotal actualTotal =>
    s!"invalid protobuf length: expected total {expectedTotal} bytes, got {actualTotal}"

namespace KeyType

/-- The number of a key type. -/
def toU64 : KeyType → UInt64
  | rsa => 0
  | ed25519 => 1
  | secp256k1 => 2
  | ecdsa => 3

/-- The key type with a number. -/
def tryFrom (value : UInt64) : Fallible PublicKeyError KeyType :=
  if value = 0 then return rsa
  else if value = 1 then return ed25519
  else if value = 2 then return secp256k1
  else if value = 3 then return ecdsa
  else throw (.unknownKeyType value)

end KeyType

namespace PublicKey

/-- Encodes this key as deterministic protobuf bytes. -/
def encodeProtobuf (key : PublicKey) : Bytes :=
  0x08 :: (writeUvarint key.keyType.toU64 ++
    0x12 :: (writeUvarint (UInt64.ofNat key.data.length) ++ key.data))

/-- `read_uvarint(&input[idx..])?`, then `idx += used`. -/
def readVarint (input : Bytes) (idx : Nat) : Fallible PublicKeyError (UInt64 × Nat) := do
  let rest ← Exec.sliceFrom input idx
  match readUvarint rest with
  | .error e => throw (.varint e)
  | .ok (value, used) =>
    let idx ← Exec.add idx used
    return (value, idx)

/-- The tag that stands at `idx`; returns the index after it. -/
def expectTag (expected : UInt8) (input : Bytes) (idx : Nat) : Fallible PublicKeyError Nat :=
  if input[idx]? ≠ some expected then throw (.invalidFieldTag expected input[idx]?)
  else Exec.add idx 1

/-- What is behind the length of the data. -/
def readData (keyType : KeyType) (input : Bytes) (dataLen idx : Nat) :
    Fallible PublicKeyError PublicKey := do
  let total ← Exec.add idx dataLen
  if total ≠ input.length then throw (.invalidLength total input.length)
  else
    let data ← Exec.sliceFrom input idx
    return ⟨keyType, data⟩

/-- The tags and varints in front of the data: the type of the key, and the length of the data
with the index after it. -/
def readHeader (input : Bytes) : Fallible PublicKeyError (KeyType × UInt64 × Nat) := do
  let idx ← expectTag 0x08 input 0
  let (keyTypeRaw, idx) ← readVarint input idx
  let keyType ← KeyType.tryFrom keyTypeRaw
  let idx ← expectTag 0x12 input idx
  let (dataLen, idx) ← readVarint input idx
  return (keyType, dataLen, idx)

/-- Decodes a deterministic libp2p `PublicKey` protobuf byte sequence. -/
def decodeProtobuf (input : Bytes) : Fallible PublicKeyError PublicKey :=
  if input.isEmpty then throw .emptyInput
  else do
    let (keyType, dataLen, idx) ← readHeader input
    readData keyType input dataLen.toNat idx

end PublicKey

/-- Builds a peer id from a decoded `PublicKey`. -/
def PeerId.fromPublicKey [Sha256] (publicKey : PublicKey) : PeerId :=
  .fromPublicKeyProtobuf publicKey.encodeProtobuf

/-! ## What the readers accept -/

/-- A number is a key type if it is the number of one. -/
theorem KeyType.yields_tryFrom_iff {value : UInt64} {keyType : KeyType} :
    Yields (tryFrom value) keyType ↔ value = keyType.toU64 := by
  constructor
  · intro h
    unfold tryFrom at h
    split_ifs at h with h₀ h₁ h₂ h₃
    · rw [h₀, ← Yields.pure_iff.mp h, toU64]
    · rw [h₁, ← Yields.pure_iff.mp h, toU64]
    · rw [h₂, ← Yields.pure_iff.mp h, toU64]
    · rw [h₃, ← Yields.pure_iff.mp h, toU64]
    · exact absurd h Yields.not_throw
  · rintro rfl
    cases keyType <;> rfl

namespace PublicKey

variable {input : Bytes} {idx idx' : ℕ}

/-- The tag is one byte. -/
theorem yields_expectTag_iff (hlen : input.length < 2 ^ 63) {tag : UInt8} :
    Yields (expectTag tag input idx) idx' ↔ Spans input idx [tag] idx' := by
  rw [expectTag, Records.spans_singleton_iff]
  split
  · next hne => exact iff_of_false Yields.not_throw fun h => hne h.1
  · next htag =>
    have htag := of_not_not htag
    have hlt := (List.getElem?_eq_some_iff.mp htag).1
    rw [Yields.lift_iff, Exec.add_eq_ok (by omega), Except.ok.injEq, and_iff_right htag, eq_comm]

/-- A varint is read where one is written. -/
theorem yields_readVarint_iff (hlen : input.length < 2 ^ 63) (hidx : idx ≤ input.length)
    {value : UInt64} : Yields (readVarint input idx) (value, idx') ↔
      Spans input idx (writeUvarint value) idx' := by
  rw [readVarint, Yields.lift_bind_iff (Exec.sliceFrom_eq_ok hidx)]
  constructor
  · intro h
    split at h
    · exact absurd h Yields.not_throw
    · next v used hread =>
      have hspans := readUvarint_drop_iff.mp hread
      have hused := hspans.le_length hidx
      rw [Yields.lift_bind_iff (Exec.add_eq_ok (by omega)), Yields.pure_iff] at h
      obtain ⟨rfl, rfl⟩ := Prod.mk.inj h
      exact hspans
  · intro h
    have hend := h.le_length hidx
    obtain rfl := h.idx_eq
    rw [readUvarint_drop_iff.mpr h]
    simp only
    rw [Yields.lift_bind_iff (Exec.add_eq_ok (by omega)), Yields.pure_iff]

theorem yields_readData_iff (hlen : input.length < 2 ^ 63) (hidx : idx ≤ input.length)
    {keyType : KeyType} {dataLen : ℕ} {key : PublicKey} :
    Yields (readData keyType input dataLen idx) key ↔
      key = ⟨keyType, input.drop idx⟩ ∧ key.data.length = dataLen := by
  rw [readData, Yields.bind_iff]
  constructor
  · rintro ⟨total, hadd, h⟩
    rw [Yields.lift_iff, Exec.add] at hadd
    split at hadd
    · obtain rfl := Except.ok.inj hadd
      split at h
      · exact absurd h Yields.not_throw
      · next htotal =>
        rw [Yields.lift_bind_iff (Exec.sliceFrom_eq_ok hidx), Yields.pure_iff] at h
        subst h
        refine ⟨rfl, ?_⟩
        rw [List.length_drop]
        omega
    · cases hadd
  · rintro ⟨rfl, hdata⟩
    rw [List.length_drop] at hdata
    refine ⟨idx + dataLen, Yields.lift_iff.mpr (Exec.add_eq_ok (by omega)), ?_⟩
    rw [if_neg (by omega), Yields.lift_bind_iff (Exec.sliceFrom_eq_ok hidx), Yields.pure_iff]

/-- What an encoder writes in front of the data. -/
def header (keyType : KeyType) (dataLen : UInt64) : Bytes :=
  [0x08] ++ (writeUvarint keyType.toU64 ++ ([0x12] ++ writeUvarint dataLen))

theorem encodeProtobuf_eq (key : PublicKey) : key.encodeProtobuf =
    header key.keyType (UInt64.ofNat key.data.length) ++ key.data := by
  rw [encodeProtobuf, header]
  simp

theorem length_header (keyType : KeyType) (dataLen : UInt64) :
    (header keyType dataLen).length = 3 + (writeUvarint dataLen).length := by
  have hone : (writeUvarint keyType.toU64).length = 1 := by cases keyType <;> decide
  rw [header]
  simp only [List.length_append, List.length_singleton, hone]
  omega

theorem yields_readHeader_iff (hlen : input.length < 2 ^ 63) {keyType : KeyType}
    {dataLen : UInt64} : Yields (readHeader input) (keyType, dataLen, idx) ↔
      Spans input 0 (header keyType dataLen) idx := by
  simp only [readHeader, Yields.bind_iff, header, Records.spans_append_iff]
  constructor
  · rintro ⟨i₁, h₁, ⟨raw, i₂⟩, h₂, _, h₃, i₄, h₄, ⟨_, i₅⟩, h₅, h⟩
    obtain ⟨rfl, rfl, rfl⟩ := Prod.mk.inj (Yields.pure_iff.mp h)
    obtain rfl := KeyType.yields_tryFrom_iff.mp h₃
    have h₁ := (yields_expectTag_iff hlen).mp h₁
    have hi₁ := h₁.le_length (Nat.zero_le _)
    have h₂ := (yields_readVarint_iff hlen hi₁).mp h₂
    have h₄ := (yields_expectTag_iff hlen).mp h₄
    have hi₄ := h₄.le_length (h₂.le_length hi₁)
    exact ⟨i₁, h₁, i₂, h₂, i₄, h₄, (yields_readVarint_iff hlen hi₄).mp h₅⟩
  · rintro ⟨i₁, h₁, i₂, h₂, i₃, h₃, h₄⟩
    have hi₁ := h₁.le_length (Nat.zero_le _)
    have hi₃ := h₃.le_length (h₂.le_length hi₁)
    exact ⟨i₁, (yields_expectTag_iff hlen).mpr h₁, (keyType.toU64, i₂),
      (yields_readVarint_iff hlen hi₁).mpr h₂, keyType, KeyType.yields_tryFrom_iff.mpr rfl, i₃,
      (yields_expectTag_iff hlen).mpr h₃, (dataLen, idx),
      (yields_readVarint_iff hlen hi₃).mpr h₄, Yields.pure_iff.mpr rfl⟩

/-! ## The codec -/

/-- What is decoded is what is encoded, and nothing else. -/
theorem yields_decodeProtobuf_iff (hlen : input.length < 2 ^ 63) {key : PublicKey} :
    Yields (decodeProtobuf input) key ↔ key.encodeProtobuf = input := by
  rw [decodeProtobuf]
  split
  · next hempty =>
    refine iff_of_false Yields.not_throw fun h => ?_
    rw [List.isEmpty_iff.mp hempty] at h
    cases h
  rw [Yields.bind_iff, encodeProtobuf_eq]
  constructor
  · rintro ⟨⟨keyType, dataLen, idx⟩, hheader, hdata⟩
    have hspans := (yields_readHeader_iff hlen).mp hheader
    have hidx := hspans.le_length (Nat.zero_le _)
    obtain ⟨rfl, hlength⟩ := (yields_readData_iff hlen hidx).mp hdata
    dsimp only at hlength ⊢
    rw [hlength, UInt64.ofNat_toNat]
    exact hspans.drop_eq.symm
  · intro h
    have hspans : Spans input 0 (header key.keyType (UInt64.ofNat key.data.length))
        (header key.keyType (UInt64.ofNat key.data.length)).length :=
      Records.spans_iff.mpr ⟨⟨_, h⟩, (Nat.zero_add _).symm⟩
    refine ⟨_, (yields_readHeader_iff hlen).mpr hspans, ?_⟩
    rw [yields_readData_iff hlen (hspans.le_length (Nat.zero_le _)), ← h, List.drop_left,
      toNat_ofNat_length]
    · exact ⟨rfl, rfl⟩
    · rw [← h, List.length_append] at hlen
      omega

/-- Two inputs that are decoded to the same key are the same. -/
theorem decodeProtobuf_inj {a b : Bytes} {key : PublicKey} (ha : a.length < 2 ^ 63)
    (hb : b.length < 2 ^ 63) (hakey : decodeProtobuf a = pure key)
    (hbkey : decodeProtobuf b = pure key) : a = b :=
  ((yields_decodeProtobuf_iff ha).mp hakey).symm.trans ((yields_decodeProtobuf_iff hb).mp hbkey)

/-- The codec is deterministic in both directions: a key is decoded from its encoding, and from
nothing else, so that the peer id of a key is that of the bytes it came from. -/
theorem codec_deterministic [Sha256] :
    (∀ key : PublicKey, key.encodeProtobuf.length < 2 ^ 63 →
      decodeProtobuf key.encodeProtobuf = pure key) ∧
    ∀ (bytes : Bytes) (key : PublicKey), bytes.length < 2 ^ 63 →
      decodeProtobuf bytes = pure key →
        key.encodeProtobuf = bytes ∧
        PeerId.fromPublicKey key = PeerId.fromPublicKeyProtobuf bytes ∧
        ∀ other : Bytes, other.length < 2 ^ 63 → decodeProtobuf other = pure key →
          other = bytes := by
  refine ⟨fun key hlen => Yields.eq_pure ((yields_decodeProtobuf_iff hlen).mpr rfl), ?_⟩
  intro bytes key hlen hkey
  have hencode := (yields_decodeProtobuf_iff hlen).mp hkey
  refine ⟨hencode, ?_, fun other hother h => decodeProtobuf_inj hother hlen h hkey⟩
  rw [PeerId.fromPublicKey, hencode]

/-- The Ed25519 key of four bytes. -/
theorem codec_deterministic_ed25519 :
    decodeProtobuf [8, 1, 18, 4, 1, 2, 3, 4] = pure ⟨.ed25519, [1, 2, 3, 4]⟩ ∧
    encodeProtobuf ⟨.ed25519, [1, 2, 3, 4]⟩ = [8, 1, 18, 4, 1, 2, 3, 4] := by
  let _ : Sha256 := ⟨fun _ => Vector.replicate 32 0⟩
  have hdecode := codec_deterministic.1 ⟨.ed25519, [1, 2, 3, 4]⟩ (by decide)
  exact ⟨hdecode, (codec_deterministic.2 _ _ (by decide) hdecode).1⟩

/-! ## Arithmetic safety -/

/-- The declared length of the data, together with the bytes in front of the data, leaves the range
of `usize`. -/
def HugeLength (input : Bytes) : Prop :=
  ∃ (keyType : KeyType) (dataLen : UInt64) (rest : Bytes), 2 ^ 64 - 13 ≤ dataLen.toNat ∧
    input = header keyType dataLen ++ rest

theorem returns_expectTag (hlen : input.length < 2 ^ 63) (tag : UInt8) :
    Exec.Returns (expectTag tag input idx).run := by
  rw [expectTag]
  split
  · exact Exec.returns_ok _
  · next htag =>
    have hlt := (List.getElem?_eq_some_iff.mp (of_not_not htag)).1
    rw [Exec.add_eq_ok (by omega)]
    exact Exec.returns_ok _

theorem returns_readVarint (hlen : input.length < 2 ^ 63) (hidx : idx ≤ input.length) :
    Exec.Returns (readVarint input idx).run := by
  rw [readVarint, Exec.sliceFrom_eq_ok hidx]
  refine (Fallible.returns_bind_iff (Exec.returns_ok _)).mpr fun rest hrest => ?_
  obtain rfl := Except.ok.inj (Yields.lift_iff.mp hrest)
  split
  · exact Exec.returns_ok _
  · next v used hread =>
    have hused := (readUvarint_drop_iff.mp hread).le_length hidx
    rw [Exec.add_eq_ok (by omega)]
    exact Exec.returns_ok _

theorem returns_tryFrom (value : UInt64) :
    Exec.Returns (KeyType.tryFrom value).run := by
  unfold KeyType.tryFrom
  split_ifs <;> exact Exec.returns_ok _

/-- The header is read without a panic. -/
theorem returns_readHeader (hlen : input.length < 2 ^ 63) :
    Exec.Returns (readHeader input).run := by
  refine (Fallible.returns_bind_iff (returns_expectTag hlen _)).mpr fun i₁ h₁ => ?_
  have hi₁ := ((yields_expectTag_iff hlen).mp h₁).le_length (Nat.zero_le _)
  refine (Fallible.returns_bind_iff (returns_readVarint hlen hi₁)).mpr ?_
  rintro ⟨raw, i₂⟩ h₂
  have hi₂ := ((yields_readVarint_iff hlen hi₁).mp h₂).le_length hi₁
  refine (Fallible.returns_bind_iff (returns_tryFrom raw)).mpr fun keyType _ => ?_
  refine (Fallible.returns_bind_iff (returns_expectTag hlen _)).mpr fun i₃ h₃ => ?_
  have hi₃ := ((yields_expectTag_iff hlen).mp h₃).le_length hi₂
  exact (Fallible.returns_bind_iff (returns_readVarint hlen hi₃)).mpr fun _ _ => Exec.returns_ok _

/-- Behind the header, only the sum of the index and the declared length can leave its range. -/
theorem returns_readData_iff (hidx : idx ≤ input.length) {keyType : KeyType} {dataLen : ℕ} :
    Exec.Returns (readData keyType input dataLen idx).run ↔ idx + dataLen < 2 ^ 64 := by
  rw [readData, Exec.add]
  split
  · next hfits =>
    refine iff_of_true ((Fallible.returns_bind_iff (Exec.returns_ok _)).mpr ?_) hfits
    intro total _
    split
    · exact Exec.returns_ok _
    · rw [Exec.sliceFrom_eq_ok hidx]
      exact Exec.returns_ok _
  · next hover => exact iff_of_false (Exec.not_returns_error _) hover

/-- The header of a huge length takes thirteen bytes. -/
theorem length_header_of_huge {keyType : KeyType} {dataLen : UInt64} (h : 2 ^ 63 ≤ dataLen.toNat) :
    (header keyType dataLen).length = 13 := by
  have hle := length_writeUvarint_le dataLen
  have hlog : 9 ≤ Nat.log 128 dataLen.toNat := by
    refine Nat.le_log_of_pow_le (by decide) (Nat.le_trans ?_ h)
    decide
  rw [length_writeUvarint, uvarintLen_eq] at hle
  rw [length_header, length_writeUvarint, uvarintLen_eq]
  omega

/-- Decoding returns, with a key or an error, unless the input starts like a key whose data has a
huge length. -/
theorem returns_decodeProtobuf_iff (hlen : input.length < 2 ^ 63) :
    Exec.Returns (decodeProtobuf input).run ↔ ¬ HugeLength input := by
  have hreturns : Exec.Returns (decodeProtobuf input).run ↔
      ∀ keyType dataLen idx, Spans input 0 (header keyType dataLen) idx →
        idx + dataLen.toNat < 2 ^ 64 := by
    rw [decodeProtobuf]
    split
    · next hempty =>
      refine iff_of_true (Exec.returns_ok _) fun keyType dataLen idx hspans => ?_
      have hdrop := hspans.drop_eq
      rw [List.isEmpty_iff.mp hempty] at hdrop
      cases hdrop
    rw [Fallible.returns_bind_iff (returns_readHeader hlen)]
    constructor
    · intro h keyType dataLen idx hspans
      have hidx := hspans.le_length (Nat.zero_le _)
      exact (returns_readData_iff hidx).mp (h _ ((yields_readHeader_iff hlen).mpr hspans))
    · rintro h ⟨keyType, dataLen, idx⟩ hheader
      have hspans := (yields_readHeader_iff hlen).mp hheader
      exact (returns_readData_iff (hspans.le_length (Nat.zero_le _))).mpr (h _ _ _ hspans)
  rw [hreturns]
  constructor
  · rintro h ⟨keyType, dataLen, rest, huge, rfl⟩
    have hspans : Spans (header keyType dataLen ++ rest) 0 (header keyType dataLen) _ :=
      Records.spans_iff.mpr ⟨List.prefix_append _ _, rfl⟩
    have hsum := h keyType dataLen _ hspans
    rw [length_header_of_huge (by omega)] at hsum
    omega
  · intro h keyType dataLen idx hspans
    by_contra hover
    refine h ⟨keyType, dataLen, input.drop idx, ?_, hspans.drop_eq⟩
    have hidx := hspans.idx_eq
    have hten := length_writeUvarint_le dataLen
    rw [length_header] at hidx
    omega

/-- An Ed25519 key of four bytes, which is decoded. -/
theorem returns_decodeProtobuf_iff_ed25519 :
    Exec.Returns (decodeProtobuf [8, 1, 18, 4, 1, 2, 3, 4]).run := by
  refine (returns_decodeProtobuf_iff (by decide)).mpr ?_
  rintro ⟨keyType, dataLen, rest, huge, hinput⟩
  have hlength := congrArg List.length hinput
  rw [List.length_append, length_header_of_huge (by omega)] at hlength
  simp only [List.length_cons, List.length_nil] at hlength
  omega

/-- An Ed25519 key whose data is declared to be `2 ^ 64 - 1` bytes long. -/
theorem not_returns_decodeProtobuf : ¬ ∀ input : Bytes, input.length < 2 ^ 63 →
    Exec.Returns (decodeProtobuf input).run := by
  intro h
  obtain ⟨r, hr⟩ := h [8, 1, 18, 255, 255, 255, 255, 255, 255, 255, 255, 255, 1] (by decide)
  cases hr

end PublicKey

end Minip2p
