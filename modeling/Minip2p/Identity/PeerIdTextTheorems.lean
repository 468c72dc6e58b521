import Minip2p.Lib.Panic
import Minip2p.Identity.PeerIdTheorems
import Minip2p.Identity.Base58
import Minip2p.Identity.Base32
import Mathlib.Tactic.NormNum

/-!
# Peer ids read back from text

Both text forms give the bytes of the multihash back, so an id is read back by the parser of the
form it was written in. `fromStr` has to guess the form: base58btc text is recognised only by a
leading `1` or `Qm`, which the ids of other hash codes do not have.
-/

namespace Minip2p

/-- The wire format the `multihash` crate documents: the code, the size and the digest. -/
def MultihashCodec.Layout [MultihashCodec] : Prop :=
  ∀ multihash : Multihash, MultihashCodec.toBytes multihash =
    writeUvarint multihash.code ++ writeUvarint (UInt64.ofNat multihash.digest.length) ++
      multihash.digest

/-- The codec of the samples lays a multihash out as the crate does. -/
theorem multihashCodec_layout : @MultihashCodec.Layout multihashCodec := fun _ => rfl

/-- A multihash has an encoding. -/
theorem MultihashCodec.Layout.toBytes_ne_nil [MultihashCodec] (hlayout : MultihashCodec.Layout)
    (multihash : Multihash) : MultihashCodec.toBytes multihash ≠ [] := by
  intro h
  have hlen := length_writeUvarint multihash.code
  rw [hlayout, List.append_assoc, List.append_eq_nil_iff] at h
  rw [h.1, uvarintLen_eq] at hlen
  cases hlen

/-- An inlined key starts with the code of the identity hash, a zero byte. -/
theorem MultihashCodec.Layout.head?_toBytes [MultihashCodec] (hlayout : MultihashCodec.Layout)
    {multihash : Multihash} (hcode : multihash.code = identityMultihashCode) :
    (MultihashCodec.toBytes multihash).head? = some 0 := by
  rw [hlayout, hcode]
  rfl

theorem MultihashCodec.Layout.toBytes_sha256 [MultihashCodec] (hlayout : MultihashCodec.Layout)
    {multihash : Multihash} (hcode : multihash.code = sha256MultihashCode)
    (hlen : multihash.digest.length = 32) :
    MultihashCodec.toBytes multihash = [0x12, 0x20] ++ multihash.digest := by
  rw [hlayout, hcode, hlen]
  rfl

/-- The base-58 digits of `Qm`. -/
def qmDigits : List ℕ := [23, 44]

/-- Multihash bytes whose base58btc text starts with `1` or `Qm`: they start with a zero byte, or
what is left of their number when all other base-58 digits are divided off is `Qm`. -/
def LegacyForm (bytes : Bytes) : Prop :=
  bytes.head? = some 0 ∨ ∃ k, bigEndian bytes / 58 ^ k = Radix.value 58 qmDigits

/-- Two digits have two characters. -/
theorem base58Char_inj {d e : ℕ} (hd : d < 58) (he : e < 58) (h : base58Char d = base58Char e) :
    d = e := by
  have hbyte : UInt8.ofNat d = UInt8.ofNat e := by
    have hvalue := (base58Value_char ⟨d, hd⟩).1
    have hvalue' := (base58Value_char ⟨e, he⟩).1
    simp only at hvalue hvalue'
    rw [h, hvalue'] at hvalue
    exact (Option.some.inj hvalue).symm
  have hnat := congrArg UInt8.toNat hbyte
  rwa [UInt8.toNat_ofNat', UInt8.toNat_ofNat', Nat.mod_eq_of_lt (by omega),
    Nat.mod_eq_of_lt (by omega)] at hnat

theorem map_base58Char_inj {ds es : List ℕ} (hds : ∀ d ∈ ds, d < 58) (hes : ∀ d ∈ es, d < 58)
    (h : ds.map base58Char = es.map base58Char) : ds = es :=
  Radix.map_inj (fun _ hd _ he => base58Char_inj hd he) hds hes h

/-! ## Text and CID, read back -/

namespace PeerId

variable [MultihashCodec]

/-- A peer id is read back from its base58 text. -/
theorem fromBase58_toBase58 (hcodec : MultihashCodec.Exact) {peerId : PeerId} (h : peerId.Valid)
    (hne : peerId.toBytes ≠ []) : fromBase58 peerId.toBase58 = .ok peerId := by
  unfold fromBase58 toBase58
  rw [decodeBase58_encodeBase58 hne]
  exact fromBytes_toBytes hcodec h

/-- The bytes of the CID of an id: version, multicodec and multihash. -/
theorem fromCidBytes_eq_ok_iff (hcodec : MultihashCodec.Exact) {cidBytes : Bytes}
    {peerId : PeerId} : fromCidBytes cidBytes = .ok peerId ↔
      cidBytes = writeUvarint 1 ++ writeUvarint libp2pKeyMulticodec ++ peerId.toBytes ∧
        peerId.Valid := by
  constructor
  · intro h
    unfold fromCidBytes at h
    split at h
    · cases h
    next version versionLen hversion =>
    split at h
    · cases h
    next hone =>
    split at h
    · cases h
    next codec codecLen hmulticodec =>
    split at h
    · cases h
    next hkey =>
    obtain ⟨hbytes, hvalid⟩ := toBytes_of_fromBytes hcodec h
    obtain rfl := not_not.mp hone
    obtain rfl := not_not.mp hkey
    have hfirst := readUvarint_canonical hversion
    have hsecond := readUvarint_canonical hmulticodec
    refine ⟨?_, hvalid⟩
    rw [hbytes, ← hfirst, ← hsecond, ← List.drop_drop, List.append_assoc, List.take_append_drop,
      List.take_append_drop]
  · rintro ⟨rfl, hvalid⟩
    have hversion := readUvarint_writeUvarint_append 1
      (writeUvarint libp2pKeyMulticodec ++ peerId.toBytes)
    have hmulticodec := readUvarint_writeUvarint_append libp2pKeyMulticodec peerId.toBytes
    have hbytes := fromBytes_toBytes hcodec hvalid
    unfold fromCidBytes
    simp only [List.append_assoc, hversion, List.drop_left, hmulticodec, ← List.drop_drop, hbytes,
      ne_eq, not_true, if_false]

/-- A CID that starts with `b` is base32. -/
theorem fromCid_base32 {input : String} {c : Char} {payload : List Char}
    (h : input.toList = c :: payload) (hc : c = 'b' ∨ c = 'B') :
    fromCid input = decodeBase32Nopad (String.ofList payload) >>= fromCidBytes := by
  unfold fromCid
  rw [h]
  simp only [if_pos hc]

/-- A peer id is read back from its CID. -/
theorem fromCid_toCidBase32 (hcodec : MultihashCodec.Exact) {peerId : PeerId} (h : peerId.Valid) :
    fromCid peerId.toCidBase32 = .ok peerId := by
  have hread := decodeBase32_encodeBase32
    (writeUvarint 1 ++ writeUvarint libp2pKeyMulticodec ++ peerId.toBytes)
  have htext : peerId.toCidBase32.toList = 'b' :: (encodeBase32NopadLower
      (writeUvarint 1 ++ writeUvarint libp2pKeyMulticodec ++ peerId.toBytes)).toList := by
    rw [toCidBase32, String.toList_append]
    rfl
  rw [fromCid_base32 htext (.inl rfl), String.ofList_toList, hread]
  exact (fromCidBytes_eq_ok_iff hcodec).mpr ⟨rfl, h⟩

/-- The CID of a peer id is one of the texts that are parsed. -/
theorem fromStr_toCidBase32 (hcodec : MultihashCodec.Exact) {peerId : PeerId} (h : peerId.Valid) :
    fromStr peerId.toCidBase32 = .ok peerId := by
  have hlegacy : isLegacyText peerId.toCidBase32 = false := by
    unfold isLegacyText toCidBase32
    rw [String.toList_append]
    rfl
  unfold fromStr
  rw [hlegacy, if_neg Bool.false_ne_true, fromCid_toCidBase32 hcodec h]

/-- Every id is read back from each of its text forms, and both bases from any bytes. -/
theorem text_encodings_exact (hcodec : MultihashCodec.Exact)
    (hne : ∀ multihash, MultihashCodec.toBytes multihash ≠ []) :
    (∀ peerId : PeerId, peerId.Valid →
      fromCid peerId.toCidBase32 = .ok peerId ∧
      fromStr peerId.toCidBase32 = .ok peerId ∧
      fromBase58 peerId.toBase58 = .ok peerId) ∧
    (∀ input : Bytes, input ≠ [] → decodeBase58 (encodeBase58 input) = .ok input) ∧
    (∀ input : Bytes, decodeBase32Nopad (encodeBase32NopadLower input) = .ok input) := by
  refine ⟨?_, fun input => decodeBase58_encodeBase58, decodeBase32_encodeBase32⟩
  intro peerId hvalid
  exact ⟨fromCid_toCidBase32 hcodec hvalid, fromStr_toCidBase32 hcodec hvalid,
    fromBase58_toBase58 hcodec hvalid (hne _)⟩

/-- A SHA-256 multihash. -/
def sha256PeerId : PeerId := ⟨0x12, List.replicate 32 0, by decide⟩

omit [MultihashCodec] in
theorem text_encodings_exact_sha256 :
    @fromCid multihashCodec (@toCidBase32 multihashCodec sha256PeerId) = .ok sha256PeerId ∧
      @fromStr multihashCodec (@toCidBase32 multihashCodec sha256PeerId) = .ok sha256PeerId ∧
      @fromBase58 multihashCodec (@toBase58 multihashCodec sha256PeerId) = .ok sha256PeerId :=
  (@text_encodings_exact multihashCodec multihashCodec_exact
    (@MultihashCodec.Layout.toBytes_ne_nil multihashCodec multihashCodec_layout)).1
    sha256PeerId (by decide)

end PeerId

/-! ## What the text of an id starts with -/

/-- Text of bytes that start with a zero byte starts with a one. -/
theorem encodeBase58_zero {bytes : Bytes} (h : bytes.head? = some 0) :
    ∃ text, (encodeBase58 bytes).toList = '1' :: text := by
  have htext := encodeBase58_toList bytes
  cases bytes with
  | nil => cases h
  | cons byte bytes =>
    obtain rfl : byte = 0 := Option.some.inj h
    have hlen : leadingZeros (0 :: bytes) = leadingZeros bytes + 1 := rfl
    rw [htext, hlen, List.replicate_succ, List.cons_append]
    exact ⟨_, rfl⟩

/-- Other text has the digits of the number that the bytes denote. -/
theorem encodeBase58_digits {bytes : Bytes} (h : bytes.head? ≠ some 0) :
    (encodeBase58 bytes).toList =
      (Nat.digits 58 (bigEndian bytes)).reverse.map base58Char := by
  have hlen : leadingZeros bytes = 0 := by
    cases bytes with
    | nil => rfl
    | cons byte bytes =>
      have hbyte : byte ≠ 0 := fun hzero => h (by rw [hzero]; rfl)
      rw [leadingZeros, List.takeWhile_cons_of_neg (by simpa using hbyte)]
      rfl
  rw [encodeBase58_toList, hlen]
  rfl

theorem digits_reverse_lt (n : ℕ) : ∀ d ∈ (Nat.digits 58 n).reverse, d < 58 :=
  fun _ hd => Nat.digits_lt_base (by decide) (List.mem_reverse.mp hd)

/-- Text of bytes that do not start with a zero byte has the leading digits of their number. -/
theorem qm_prefix_encodeBase58_iff {bytes : Bytes} (h : bytes.head? ≠ some 0) :
    ['Q', 'm'] <+: (encodeBase58 bytes).toList ↔
      ∃ k, bigEndian bytes / 58 ^ k = Radix.value 58 qmDigits := by
  have hds := digits_reverse_lt (bigEndian bytes)
  rw [encodeBase58_digits h, show ['Q', 'm'] = qmDigits.map base58Char from rfl,
    List.prefix_iff_eq_take, List.length_map, ← List.map_take,
    ← Radix.prefix_digits_iff (by decide) (by decide) (by decide) (by decide),
    List.prefix_iff_eq_take]
  constructor
  · intro h
    exact map_base58Char_inj (by decide) (fun d hd => hds d (List.mem_of_mem_take hd)) h
  · exact congrArg _

/-- What `fromStr` takes for base58btc text of bytes. -/
theorem isLegacyText_encodeBase58 (bytes : Bytes) :
    PeerId.isLegacyText (encodeBase58 bytes) = true ↔ LegacyForm bytes := by
  by_cases hzero : bytes.head? = some 0
  · obtain ⟨text, htext⟩ := encodeBase58_zero hzero
    have hlegacy : PeerId.isLegacyText (encodeBase58 bytes) = true := by
      rw [PeerId.isLegacyText, htext]
      rfl
    exact iff_of_true hlegacy (.inl hzero)
  · have hone : ¬ ['1'] <+: (encodeBase58 bytes).toList := by
      rw [encodeBase58_digits hzero]
      cases hdigits : (Nat.digits 58 (bigEndian bytes)).reverse with
      | nil => exact fun h => absurd (List.prefix_nil.mp h) (by simp)
      | cons d ds =>
        rw [List.map_cons, List.cons_prefix_cons]
        rintro ⟨hchar, -⟩
        have hd : d < 58 := digits_reverse_lt _ d (by rw [hdigits]; exact List.mem_cons_self)
        exact Radix.digits_reverse_head hdigits ((base58Value_char ⟨d, hd⟩).2.mp hchar.symm)
    rw [PeerId.isLegacyText, Bool.or_eq_true, List.isPrefixOf_iff_prefix,
      List.isPrefixOf_iff_prefix, qm_prefix_encodeBase58_iff hzero]
    exact or_congr (iff_of_false hone hzero) Iff.rfl

/-! ## Other text is not the CID of the id -/

/-- A digit is five bits more. -/
theorem Base32Decoder.push_length (state : Base32Decoder) (value : UInt8) :
    8 * (state.push value).out.length + (state.push value).bits =
      8 * state.out.length + state.bits + 5 := by
  unfold push emit
  simp only
  split
  · simp only [emit, List.length_append, List.length_singleton]
    omega
  · simp only
    omega

/-- Five bits a digit come out, or fewer. -/
theorem decodeBase32Go_length {index : ℕ} {state : Base32Decoder} {text : List Char} {out : Bytes}
    (h : decodeBase32Go index state text = .ok out) :
    8 * out.length ≤ 8 * state.out.length + state.bits + 5 * text.length := by
  induction text generalizing index state with
  | nil =>
    obtain rfl := Except.ok.inj h
    omega
  | cons c text ih =>
    rw [decodeBase32Go] at h
    split at h
    · cases h
    · next value hvalue =>
      have hlen := ih h
      rw [state.push_length value] at hlen
      rw [List.length_cons]
      omega

/-- Five bits a character. -/
theorem decodeBase32Nopad_length {input : String} {out : Bytes}
    (h : decodeBase32Nopad input = .ok out) : 8 * out.length ≤ 5 * input.toList.length := by
  rw [decodeBase32Nopad] at h
  split at h
  · obtain rfl := Except.ok.inj h
    exact Nat.zero_le _
  · have hlen := decodeBase32Go_length h
    simpa using hlen

/-- Text that starts with a one starts with a zero byte. -/
theorem decodeBase58_one {payload : List Char} {out : Bytes}
    (h : decodeBase58 (String.ofList ('1' :: payload)) = .ok out) : out.head? = some 0 := by
  have hones : (('1' :: payload).takeWhile (· == '1')).length =
      (payload.takeWhile (· == '1')).length + 1 := rfl
  rw [decodeBase58, if_neg (by simp)] at h
  simp only [String.toList_ofList, hones] at h
  cases hgo : decodeBase58Go ((payload.takeWhile (· == '1')).length + 1) []
      (('1' :: payload).drop ((payload.takeWhile (· == '1')).length + 1)) with
  | error e =>
    rw [hgo] at h
    cases h
  | ok bytes =>
    rw [hgo] at h
    obtain rfl := Except.ok.inj h
    rfl

/-- Base58 text of a number below a power of 256 decodes to that many bytes at most, unless it
starts with a one. -/
theorem decodeBase58_length {digits : List ℕ} {out : Bytes} {n : ℕ} (hdigits : ∀ d ∈ digits, d < 58)
    (hlt : Radix.value 58 digits < 256 ^ n)
    (h : decodeBase58 (String.ofList (digits.map base58Char)) = .ok out) :
    out.head? = some 0 ∨ out.length ≤ n := by
  cases digits with
  | nil => cases h
  | cons d ds =>
    by_cases hd : d = 0
    · rw [hd, List.map_cons] at h
      exact .inl (decodeBase58_one h)
    · have hne : List.replicate 0 '1' ++ (d :: ds).map base58Char ≠ [] := List.cons_ne_nil _ _
      obtain ⟨decoded, hdecoded, hvalue⟩ := decodeBase58_text hdigits (fun _ => hd) hne
      rw [List.replicate_zero, List.nil_append, h] at hdecoded
      have hlen := congrArg List.length hvalue
      rw [List.length_map] at hlen
      rw [Except.ok.inj hdecoded, List.replicate_zero, List.nil_append, List.length_reverse, hlen]
      exact .inr ((Nat.digits_length_le_iff (by decide) _).mpr hlt)

namespace PeerId

variable [MultihashCodec]

/-- What `from_cid` accepts: a multibase prefix and the bytes of a CID. -/
theorem fromCid_ok {input : String} {peerId : PeerId} (h : fromCid input = .ok peerId) :
    ∃ c payload cidBytes, input.toList = c :: payload ∧ fromCidBytes cidBytes = .ok peerId ∧
      (decodeBase32Nopad (String.ofList payload) = .ok cidBytes ∨
        decodeBase58 (String.ofList payload) = .ok cidBytes) := by
  unfold fromCid at h
  split at h
  · cases h
  next c payload htext =>
  simp only at h
  split at h
  · obtain ⟨cidBytes, hcid, hid⟩ := Except.bind_eq_ok_iff.mp h
    exact ⟨c, payload, cidBytes, htext, hid, .inl hcid⟩
  · split at h
    · obtain ⟨cidBytes, hcid, hid⟩ := Except.bind_eq_ok_iff.mp h
      exact ⟨c, payload, cidBytes, htext, hid, .inr hcid⟩
    · cases h

/-- Base58btc text without a leading `1` is never the CID of the same id: what follows the
multibase prefix decodes to fewer bytes than a CID has. -/
theorem fromCid_display_ne (hcodec : MultihashCodec.Exact) {peerId : PeerId}
    (hzero : peerId.toBytes.head? ≠ some 0) : fromCid peerId.display ≠ .ok peerId := by
  intro h
  obtain ⟨c, payload, cidBytes, htext, hid, hpayload⟩ := fromCid_ok h
  obtain ⟨rfl, -⟩ := (fromCidBytes_eq_ok_iff hcodec).mp hid
  have hcid : (writeUvarint 1 ++ writeUvarint libp2pKeyMulticodec ++ peerId.toBytes).length =
      peerId.toBytes.length + 2 := by
    rw [List.length_append, Nat.add_comm]
    rfl
  rw [display, toBase58, encodeBase58_digits hzero] at htext
  obtain ⟨d, ds, hdigits, -, rfl⟩ := List.map_eq_cons_iff.mp htext
  have hds : ∀ e ∈ d :: ds, e < 58 := by
    rw [← hdigits]
    exact digits_reverse_lt _
  have hpos : 0 < d := Nat.pos_of_ne_zero (Radix.digits_reverse_head hdigits)
  have hvalue : bigEndian peerId.toBytes = Radix.value 58 (d :: ds) := by
    rw [← hdigits, Radix.value_digits]
  have hlt := bigEndian_lt peerId.toBytes
  rcases hpayload with h32 | h58
  · have hlen := decodeBase32Nopad_length h32
    rw [hcid, String.toList_ofList, List.length_map] at hlen
    have hle : 58 ^ ds.length ≤ bigEndian peerId.toBytes := by
      rw [hvalue]
      exact Radix.pow_le_value hpos
    have hbits : 2 ^ (5 * ds.length) < 2 ^ (8 * peerId.toBytes.length) := by
      calc 2 ^ (5 * ds.length) = 32 ^ ds.length := by rw [pow_mul]; norm_num
        _ ≤ 58 ^ ds.length := Nat.pow_le_pow_left (by decide) _
        _ ≤ bigEndian peerId.toBytes := hle
        _ < 256 ^ peerId.toBytes.length := hlt
        _ = 2 ^ (8 * peerId.toBytes.length) := by rw [pow_mul]; norm_num
    have hexp := (Nat.pow_lt_pow_iff_right (by decide)).mp hbits
    omega
  · have hrest : Radix.value 58 ds < 256 ^ peerId.toBytes.length := by
      rw [hvalue, Radix.value_cons] at hlt
      omega
    rcases decodeBase58_length (fun e he => hds e (List.mem_cons_of_mem _ he)) hrest h58 with
      hhead | hlen
    · cases hhead
    · rw [hcid] at hlen
      omega

/-- A `Display` text that starts with a one or with `Qm` is parsed back. -/
theorem fromStr_display_of_legacyForm (hcodec : MultihashCodec.Exact) {peerId : PeerId}
    (hvalid : peerId.Valid) (h : LegacyForm peerId.toBytes) :
    fromStr peerId.display = .ok peerId := by
  have hlegacy := (isLegacyText_encodeBase58 _).mpr h
  unfold fromStr
  rw [display, toBase58, if_pos hlegacy]
  apply fromBase58_toBase58 hcodec hvalid
  intro hnil
  rw [hnil] at hlegacy
  cases hlegacy

/-- The `Display` text of an id is parsed back exactly if it starts with a one or with `Qm`. -/
theorem fromStr_display_iff_legacyForm (hcodec : MultihashCodec.Exact) {bytes : Bytes}
    {peerId : PeerId} (h : fromBytes bytes = .ok peerId) :
    fromStr peerId.display = .ok peerId ↔ LegacyForm bytes := by
  obtain ⟨rfl, hvalid⟩ := toBytes_of_fromBytes hcodec h
  constructor
  · intro hparse
    by_contra hlegacy
    have hcid : fromStr peerId.display = fromCid peerId.display :=
      if_neg (mt (isLegacyText_encodeBase58 _).mp hlegacy)
    rw [hcid] at hparse
    refine fromCid_display_ne hcodec ?_ hparse
    intro hzero
    exact hlegacy (.inl hzero)
  · intro hlegacy
    exact fromStr_display_of_legacyForm hcodec hvalid hlegacy

/-- A SHA-1 multihash, which `validate_multihash` lets through. -/
def sha1PeerId : PeerId := ⟨0x11, List.replicate 20 0, by decide⟩

omit [MultihashCodec] in
theorem fromStr_display_sha1 :
    ¬ ∀ (codec : MultihashCodec), @MultihashCodec.Exact codec → ∀ (bytes : Bytes) (peerId : PeerId),
      @fromBytes codec bytes = .ok peerId →
        @fromStr codec (@display codec peerId) = .ok peerId := by
  intro h
  have hparse := h multihashCodec multihashCodec_exact ([0x11, 20] ++ List.replicate 20 0)
    sha1PeerId (by decide)
  exact absurd hparse (by decide)

omit [MultihashCodec] in
theorem fromStr_display_iff_sha256 :
    @fromStr multihashCodec (@display multihashCodec sha256PeerId) = .ok sha256PeerId ↔
      LegacyForm ([0x12, 32] ++ List.replicate 32 0) :=
  @fromStr_display_iff_legacyForm multihashCodec multihashCodec_exact _ _ (by decide)

omit [MultihashCodec] in
/-- The leading digits of a SHA-256 multihash: whatever the digest is, its 32 bytes do not carry
into them. -/
theorem sha256_leading_digits {digest : Bytes} (hlen : digest.length = 32) :
    ∃ k, bigEndian ([0x12, 0x20] ++ digest) / 58 ^ k = Radix.value 58 qmDigits := by
  have hvalue : bigEndian ([0x12, 0x20] ++ digest) = 0x1220 * 256 ^ 32 + bigEndian digest := by
    rw [bigEndian, List.map_append, Radix.value_append, List.length_map, hlen, bigEndian]
    rfl
  have hlt := bigEndian_lt digest
  rw [hlen] at hlt
  refine ⟨44, ?_⟩
  have hqm : Radix.value 58 qmDigits = 1378 := rfl
  rw [hvalue, hqm]
  norm_num at hlt ⊢
  omega

/-- The ids that are built from keys are parsed back: their hash is inline or SHA-256. -/
theorem legacyForm_toBytes (hlayout : MultihashCodec.Layout) {peerId : PeerId}
    (hvalid : peerId.Valid)
    (hcode : peerId.multihash.code = identityMultihashCode ∨
      peerId.multihash.code = sha256MultihashCode) : LegacyForm peerId.toBytes := by
  rcases hcode with hcode | hcode
  · exact .inl (hlayout.head?_toBytes hcode)
  · have hlen : peerId.multihash.digest.length = 32 := by
      by_contra hne
      rw [Valid, validateMultihash, if_pos ⟨hcode, hne⟩] at hvalid
      cases hvalid
    have hbytes : peerId.toBytes = _ := hlayout.toBytes_sha256 hcode hlen
    rw [hbytes]
    exact .inr (sha256_leading_digits hlen)

end PeerId

end Minip2p
