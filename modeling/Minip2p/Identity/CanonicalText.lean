import Minip2p.Identity.PeerIdTextTheorems

/-!
# Which texts the decoders accept

Both text codecs are read back from what they write. Here it is the other way round: text that is
accepted, decoded and written again. base58btc comes back unless a character outside ASCII is taken
for one of the alphabet, base32 unless bits of the text are not part of any byte.
-/

namespace Minip2p

/-! ## base58btc -/

/-- Text that is taken for base58btc because the low bytes of its characters are in the alphabet,
though one of them is a character above U+00FF. -/
def Aliased (text : String) : Prop :=
  (∀ c ∈ text.toList, ∃ v ∈ base58Alphabet, v.val.toNat % 256 = c.val.toNat % 256) ∧
    ∃ c ∈ text.toList, 256 ≤ c.val.toNat

instance (text : String) : Decidable (Aliased text) :=
  decidable_of_iff
    ((text.toList.all fun c => base58Alphabet.any fun v =>
        v.val.toNat % 256 == c.val.toNat % 256) = true ∧
      (text.toList.any fun c => 256 ≤ c.val.toNat) = true)
    (by simp [Aliased])

/-- A character is taken if its low byte is one of the alphabet. -/
theorem base58Value_isSome_iff {c : Char} :
    (base58Value c).isSome ↔ ∃ v ∈ base58Alphabet, v.val.toNat % 256 = c.val.toNat % 256 := by
  have hbyte : ∀ v : Char, (v.val.toUInt8 == c.val.toUInt8) = true ↔
      v.val.toNat % 256 = c.val.toNat % 256 := by
    intro v
    rw [beq_iff_eq, ← UInt8.toNat_inj, UInt32.toNat_toUInt8, UInt32.toNat_toUInt8]
  rw [base58Value, Option.isSome_map, List.findIdx?_isSome, List.any_eq_true]
  simp only [hbyte]

theorem base58Alphabet_lt : ∀ v ∈ base58Alphabet, v.val.toNat < 256 := by
  have hall : (base58Alphabet.all fun v => v.val.toNat < 256) = true := by
    decide
  simpa using hall

/-- Below U+0100 only the characters of the alphabet are taken for them. -/
theorem mem_base58Alphabet_iff {c : Char} (hc : c.val.toNat < 256) :
    c ∈ base58Alphabet ↔ (base58Value c).isSome := by
  rw [base58Value_isSome_iff]
  constructor
  · exact fun h => ⟨c, h, rfl⟩
  · rintro ⟨v, hv, hbyte⟩
    have hlt := base58Alphabet_lt v hv
    rw [Nat.mod_eq_of_lt hlt, Nat.mod_eq_of_lt hc] at hbyte
    rwa [← Char.ext (UInt32.toNat_inj.mp hbyte)]

/-- A text is decoded if all its characters are taken. -/
theorem decodeBase58Go_ok_iff {index : ℕ} {bytes : Bytes} {cs : List Char} :
    (∃ out, decodeBase58Go index bytes cs = .ok out) ↔ ∀ c ∈ cs, (base58Value c).isSome := by
  induction cs generalizing index bytes with
  | nil => exact iff_of_true ⟨bytes, rfl⟩ fun _ h => absurd h List.not_mem_nil
  | cons c cs ih =>
    rw [List.forall_mem_cons, decodeBase58Go]
    cases base58Value c with
    | none =>
      refine iff_of_false ?_ fun h => by cases h.1
      rintro ⟨_, h⟩
      cases h
    | some value => exact ih.trans (and_iff_right rfl).symm

/-- Text is accepted if all its characters are looked up. -/
theorem decodeBase58_ok_iff {text : String} : (∃ bytes, decodeBase58 text = .ok bytes) ↔
    text ≠ "" ∧ ∀ c ∈ text.toList, (base58Value c).isSome := by
  rw [decodeBase58]
  split
  · next hempty =>
    refine iff_of_false ?_ fun h => h.1 (String.isEmpty_iff.mp hempty)
    rintro ⟨_, h⟩
    cases h
  · next hne =>
    have hne : text ≠ "" := fun h => hne (String.isEmpty_iff.mpr h)
    obtain ⟨rest, hrest⟩ := List.takeWhile_prefix (l := text.toList) (· == '1')
    have hdrop : text.toList.drop (text.toList.takeWhile (· == '1')).length = rest :=
      (congrArg (List.drop _) hrest).symm.trans List.drop_left
    have hones : ∀ c ∈ text.toList.takeWhile (· == '1'), (base58Value c).isSome := by
      intro c hc
      have hone : (c == '1') = true := List.all_eq_true.mp List.all_takeWhile c hc
      rw [beq_iff_eq.mp hone]
      decide
    have hall : (∀ c ∈ text.toList, (base58Value c).isSome) ↔
        ∀ c ∈ rest, (base58Value c).isSome := by
      rw [← hrest, List.forall_mem_append, and_iff_right hones]
    rw [and_iff_right hne, hall, ← decodeBase58Go_ok_iff]
    simp only [hdrop, Except.bind_eq_ok_iff]
    constructor
    · rintro ⟨_, out, hout, -⟩
      exact ⟨out, hout⟩
    · rintro ⟨out, hout⟩
      exact ⟨_, out, hout, rfl⟩

/-- Text of the alphabet is its leading ones and the digits behind them. -/
theorem exists_base58_digits {cs : List Char} (hcs : ∀ c ∈ cs, c ∈ base58Alphabet) :
    ∃ (ones : ℕ) (digits : List ℕ), (∀ d ∈ digits, d < 58) ∧
      (∀ h : digits ≠ [], digits.head h ≠ 0) ∧
      cs = List.replicate ones '1' ++ digits.map base58Char := by
  have hchar : ∀ c ∈ base58Alphabet, ∃ d < 58, base58Char d = c := by
    intro c hc
    obtain ⟨d, hd, rfl⟩ := List.getElem_of_mem hc
    exact ⟨d, hd, List.getD_eq_getElem _ _ hd⟩
  induction cs with
  | nil => exact ⟨0, [], fun _ h => absurd h List.not_mem_nil, fun h => absurd rfl h, rfl⟩
  | cons c cs ih =>
    obtain ⟨hc, hcs⟩ := List.forall_mem_cons.mp hcs
    obtain ⟨ones, digits, hdigits, hhead, rfl⟩ := ih hcs
    obtain ⟨d, hd, rfl⟩ := hchar c hc
    by_cases hzero : d = 0
    · exact ⟨ones + 1, digits, hdigits, hhead, by rw [hzero]; rfl⟩
    · -- the ones that follow are digits of the number
      refine ⟨0, d :: (List.replicate ones 0 ++ digits), ?_, fun _ => hzero, ?_⟩
      · refine List.forall_mem_cons.mpr ⟨hd, List.forall_mem_append.mpr ⟨?_, hdigits⟩⟩
        intro e he
        rw [(List.mem_replicate.mp he).2]
        decide
      · rw [List.map_cons, List.map_append, List.map_replicate]
        rfl

/-- The zeros in front are counted. -/
theorem leadingZeros_append {ones : ℕ} {rest : Bytes} (h : NoLeadingZero rest) :
    leadingZeros (List.replicate ones 0 ++ rest) = ones := by
  rw [leadingZeros, List.takeWhile_append_of_pos (by simp), List.length_append,
    List.length_replicate]
  cases rest with
  | nil => rfl
  | cons byte rest =>
    have hbyte : byte ≠ 0 := h (List.cons_ne_nil _ _)
    rw [List.takeWhile_cons_of_neg (by simpa using hbyte)]
    rfl

/-- Text of the alphabet is written again from what it is decoded to. -/
theorem encodeBase58_decodeBase58 {text : String} {bytes : Bytes}
    (htext : ∀ c ∈ text.toList, c ∈ base58Alphabet) (h : decodeBase58 text = .ok bytes) :
    encodeBase58 bytes = text := by
  obtain ⟨ones, digits, hdigits, hhead, hlist⟩ := exists_base58_digits htext
  have hne : List.replicate ones '1' ++ digits.map base58Char ≠ [] := by
    rw [← hlist]
    intro hnil
    rw [String.toList_eq_nil_iff.mp hnil] at h
    cases h
  obtain ⟨out, hout, hdecoded⟩ := decodeBase58_text hdigits hhead hne
  rw [← hlist, String.ofList_toList, h, Except.ok.injEq] at hout
  have hvalue : out.reverse.map UInt8.toNat = (Nat.digits 256 (Radix.value 58 digits)).reverse := by
    rw [List.map_reverse, hdecoded]
  have hbig : bigEndian out.reverse = Radix.value 58 digits := by
    rw [bigEndian, hvalue, Radix.value_digits]
  have hlead : NoLeadingZero out.reverse := by
    cases hrev : out.reverse with
    | nil => exact fun h => absurd rfl h
    | cons byte rest =>
      rw [hrev, List.map_cons] at hvalue
      intro _ hzero
      exact Radix.digits_reverse_head hvalue.symm (congrArg UInt8.toNat hzero)
  apply String.toList_inj.mp
  rw [encodeBase58_toList, hout, leadingZeros_append hlead, hlist,
    List.drop_left' List.length_replicate, hbig, Radix.digits_value (by decide) hdigits hhead,
    List.reverse_reverse]

/-- A text is accepted exactly if it is not empty and all its characters are in the alphabet, and
is then what its bytes are written as. -/
def Base58Exact (text : String) : Prop :=
  ((∃ bytes, decodeBase58 text = .ok bytes) ↔ text ≠ "" ∧ ∀ c ∈ text.toList, c ∈ base58Alphabet) ∧
    ∀ bytes, decodeBase58 text = .ok bytes → encodeBase58 bytes = text

/-- A text is exact if none of its characters stands for another one. -/
theorem base58Exact_iff {text : String} : Base58Exact text ↔ ¬ Aliased text := by
  constructor
  · rintro ⟨haccept, -⟩ ⟨hbytes, c, hc, hwide⟩
    have hne : text ≠ "" := by
      rintro rfl
      cases hc
    have hmem := haccept.mp (decodeBase58_ok_iff.mpr
      ⟨hne, fun c hc => base58Value_isSome_iff.mpr (hbytes c hc)⟩)
    have hlt := base58Alphabet_lt c (hmem.2 c hc)
    omega
  · intro halias
    have haccept : (∃ bytes, decodeBase58 text = .ok bytes) ↔
        text ≠ "" ∧ ∀ c ∈ text.toList, c ∈ base58Alphabet := by
      rw [decodeBase58_ok_iff]
      refine and_congr_right' ⟨?_, ?_⟩
      · intro h c hc
        refine (mem_base58Alphabet_iff ?_).mpr (h c hc)
        by_contra hwide
        exact halias ⟨fun c hc => base58Value_isSome_iff.mp (h c hc), c, hc, by omega⟩
      · intro h c hc
        exact (mem_base58Alphabet_iff (base58Alphabet_lt c (h c hc))).mp (h c hc)
    exact ⟨haccept, fun bytes h => encodeBase58_decodeBase58 (haccept.mp ⟨bytes, h⟩).2 h⟩

/-- base58btc text that is not aliased is accepted and written as it should be, and only such text:
no two texts of the kind give the same peer id. -/
theorem base58_exact_iff [MultihashCodec] (hcodec : MultihashCodec.Exact) :
    (∀ text, Base58Exact text ↔ ¬ Aliased text) ∧
    ∀ (text other : String) (peerId : PeerId), ¬ Aliased text → ¬ Aliased other →
      PeerId.fromBase58 text = .ok peerId → PeerId.fromBase58 other = .ok peerId →
        text = other := by
  refine ⟨fun text => base58Exact_iff, ?_⟩
  intro text other peerId htext hother h h'
  obtain ⟨bytes, hdecode, hid⟩ := Except.bind_eq_ok_iff.mp h
  obtain ⟨bytes', hdecode', hid'⟩ := Except.bind_eq_ok_iff.mp h'
  have hbytes := (PeerId.toBytes_of_fromBytes hcodec hid).1
  have hbytes' := (PeerId.toBytes_of_fromBytes hcodec hid').1
  rw [← (base58Exact_iff.mpr htext).2 bytes hdecode,
    ← (base58Exact_iff.mpr hother).2 bytes' hdecode', ← hbytes, ← hbytes']

/-- A text of the alphabet, and one that is taken for it. -/
theorem base58_exact_iff_dotless : Base58Exact "Qm1" ∧ ¬ Base58Exact "ı" := by
  obtain ⟨hexact, -⟩ := @base58_exact_iff multihashCodec multihashCodec_exact
  rw [hexact, hexact, not_not]
  exact ⟨by decide, by decide⟩

/-- The dotless i, whose code point ends in the byte of the digit one. -/
theorem not_base58Exact_dotless : ¬ ∀ text, Base58Exact text := by
  intro h
  have hencode := (h "ı").2 [0] (by decide)
  exact absurd hencode (by decide)

/-! ## base32 -/

/-- `str::to_ascii_lowercase`. -/
def toAsciiLowercase (text : String) : String := String.ofList (text.toList.map Char.toLower)

/-- Bits of the text that are not part of any byte. -/
def leftoverBits (text : String) : ℕ := 5 * text.toList.length % 8

/-- Text that an encoder writes, in either case: no character is left over as a whole, and the bits
of the last one that are left over are zero. -/
def CanonicalBase32 (text : String) : Prop :=
  leftoverBits text < 5 ∧ ∀ c ∈ text.toList.getLast?,
    base32AlphabetLower.idxOf c.toLower % 2 ^ leftoverBits text = 0

instance (text : String) : Decidable (CanonicalBase32 text) :=
  decidable_of_iff
    (leftoverBits text < 5 ∧ (text.toList.getLast?.all fun c =>
      base32AlphabetLower.idxOf c.toLower % 2 ^ leftoverBits text == 0) = true)
    (by simp [CanonicalBase32, Option.all_eq_true])

theorem toLower_of_ge {c : Char} (hc : 128 ≤ c.toNat) : c.toLower = c := by
  refine dif_neg ?_
  rintro ⟨-, hle⟩
  have hle : c.toNat ≤ 90 := hle
  omega

/-- The value of a character is the digit it is written as, in lower case. -/
theorem base32Value_eq_some {c : Char} {value : UInt8} (h : base32Value c = some value) :
    value.toNat < 32 ∧ base32Char value.toNat = c.toLower := by
  have hascii : ∀ n : Fin 128, (base32Value (Char.ofNat n)).all fun value =>
      decide (value.toNat < 32 ∧ base32Char value.toNat = (Char.ofNat n).toLower) := by
    decide
  have hc : c.toNat < 128 := by
    by_contra hge
    have hlower := toLower_of_ge (Nat.le_of_not_lt hge)
    unfold base32Value at h
    simp only [hlower] at h
    split at h
    · next hletter =>
      have hle : c.toNat ≤ 122 := hletter.2
      omega
    split at h
    · next hdigit =>
      have hle : c.toNat ≤ 55 := hdigit.2
      omega
    · cases h
  have hvalue := hascii ⟨c.toNat, hc⟩
  rw [Char.ofNat_toNat, h] at hvalue
  exact of_decide_eq_true hvalue

/-- Text that is accepted consists of digits, in either case. -/
theorem decodeBase32Go_digits {index : ℕ} {state : Base32Decoder} {cs : List Char} {bytes : Bytes}
    (h : decodeBase32Go index state cs = .ok bytes) :
    ∃ digits : List ℕ, (∀ d ∈ digits, d < 32) ∧
      cs.map Char.toLower = digits.map base32Char ∧
      decodeBase32Go index state (digits.map base32Char) = .ok bytes := by
  induction cs generalizing index state with
  | nil => exact ⟨[], fun _ h => absurd h List.not_mem_nil, rfl, h⟩
  | cons c cs ih =>
    rw [decodeBase32Go] at h
    split at h
    · cases h
    · next value hvalue =>
      obtain ⟨hlt, hchar⟩ := base32Value_eq_some hvalue
      obtain ⟨digits, hdigits, hcs, hdecode⟩ := ih h
      refine ⟨value.toNat :: digits, List.forall_mem_cons.mpr ⟨hlt, hdigits⟩, ?_, ?_⟩
      · rw [List.map_cons, List.map_cons, hchar, hcs]
      · have hdigit : base32Value (base32Char value.toNat) = some value := by
          have hdigit := base32Value_char ⟨value.toNat, hlt⟩
          rwa [UInt8.ofNat_toNat] at hdigit
        rw [List.map_cons, decodeBase32Go, hdigit]
        exact hdecode

theorem idxOf_base32Char {d : ℕ} (hd : d < 32) : base32AlphabetLower.idxOf (base32Char d) = d := by
  have hall : ∀ d : Fin 32, base32AlphabetLower.idxOf (base32Char d) = d := by
    decide
  exact hall ⟨d, hd⟩

/-- Two digits have two characters. -/
theorem base32Char_inj {d e : ℕ} (hd : d < 32) (he : e < 32) (h : base32Char d = base32Char e) :
    d = e := by
  rw [← idxOf_base32Char hd, h, idxOf_base32Char he]

/-- The bits that are left over are low bits of the last digit. -/
theorem value_mod_leftover {digits : List ℕ} {bits : ℕ} (hbits : bits < 5)
    (hzero : digits = [] → bits = 0) : Radix.value 32 digits % 2 ^ bits = 0 ↔
      ∀ d ∈ digits.getLast?, d % 2 ^ bits = 0 := by
  induction digits using List.reverseRecOn with
  | nil =>
    rw [hzero rfl]
    exact iff_of_true rfl fun _ h => by cases h
  | append_singleton digits d ih =>
    have hdvd : 2 ^ bits ∣ 32 := Nat.pow_dvd_pow 2 (Nat.le_of_lt hbits)
    have hlow : (Radix.value 32 digits * 32 + d) % 2 ^ bits = d % 2 ^ bits := by
      rw [Nat.add_mod, Nat.mod_eq_zero_of_dvd (Dvd.dvd.mul_left hdvd _), Nat.zero_add,
        Nat.mod_mod]
    rw [Radix.value_concat, hlow, List.getLast?_concat]
    simp

/-- Text that is accepted consists of digits, and is decoded like them. -/
theorem exists_base32_digits {text : String} {bytes : Bytes}
    (h : decodeBase32Nopad text = .ok bytes) : ∃ digits : List ℕ, (∀ d ∈ digits, d < 32) ∧
      text.toList.map Char.toLower = digits.map base32Char ∧
      decodeBase32Nopad (String.ofList (digits.map base32Char)) = .ok bytes := by
  rw [decodeBase32Nopad] at h
  split at h
  · next hempty =>
    rw [String.isEmpty_iff.mp hempty]
    exact ⟨[], fun _ h => absurd h List.not_mem_nil, rfl, h⟩
  · next hne =>
    obtain ⟨digits, hdigits, hlower, hdecode⟩ := decodeBase32Go_digits h
    refine ⟨digits, hdigits, hlower, ?_⟩
    have hnonempty : ¬ (String.ofList (digits.map base32Char)).isEmpty := by
      rw [← hlower]
      simpa using hne
    rw [decodeBase32Nopad, if_neg hnonempty, String.toList_ofList]
    exact hdecode

/-- The last digit of a text. -/
theorem forall_getLast?_iff {text : String} {digits : List ℕ} (hdigits : ∀ d ∈ digits, d < 32)
    (hlower : text.toList.map Char.toLower = digits.map base32Char) {P : ℕ → Prop} :
    (∀ c ∈ text.toList.getLast?, P (base32AlphabetLower.idxOf c.toLower)) ↔
      ∀ d ∈ digits.getLast?, P d := by
  have hlast := congrArg List.getLast? hlower
  rw [List.getLast?_map, List.getLast?_map] at hlast
  constructor
  · intro h d hd
    obtain ⟨c, hc, hchar⟩ : ∃ c ∈ text.toList.getLast?, c.toLower = base32Char d := by
      rw [← Option.mem_map, hlast]
      exact Option.mem_map.mpr ⟨d, hd, rfl⟩
    have hP := h c hc
    rwa [hchar, idxOf_base32Char (hdigits d (List.mem_of_getLast? hd))] at hP
  · intro h c hc
    obtain ⟨d, hd, hchar⟩ : ∃ d ∈ digits.getLast?, base32Char d = c.toLower := by
      rw [← Option.mem_map, ← hlast]
      exact Option.mem_map.mpr ⟨c, hc, rfl⟩
    rw [← hchar, idxOf_base32Char (hdigits d (List.mem_of_getLast? hd))]
    exact h d hd

/-- The number that the bytes of a text denote: that of its digits, without the bits left over. -/
theorem bigEndian_of_digits {digits : List ℕ} {bytes : Bytes} {bits k : ℕ}
    (hdigits : ∀ d ∈ digits, d < 32) (hcount : 5 * digits.length = 8 * k + bits)
    (hdecoded : bytes.map UInt8.toNat = Radix.fixed 256 k (Radix.value 32 digits / 2 ^ bits)) :
    bigEndian bytes = Radix.value 32 digits / 2 ^ bits := by
  have hlt : Radix.value 32 digits < 32 ^ digits.length := Radix.value_lt (by decide) hdigits
  rw [bigEndian, hdecoded, Radix.value_fixed, Nat.mod_eq_of_lt]
  rw [Nat.div_lt_iff_lt_mul (Nat.two_pow_pos _)]
  calc Radix.value 32 digits < 32 ^ digits.length := hlt
    _ = 2 ^ (5 * digits.length) := by
        rw [pow_mul]
        norm_num
    _ = 256 ^ k * 2 ^ bits := by
        rw [hcount, pow_add, pow_mul]
        norm_num

/-- What is written for the bytes are the digits they were read from, if no digit and no bit of one
was left over. -/
theorem fixed_of_leftover_iff {digits : List ℕ} {bits pad k m : ℕ}
    (hdigits : ∀ d ∈ digits, d < 32) (hcount : 5 * digits.length = 8 * k + bits) (hpad : pad < 5)
    (hm : 5 * m = 8 * k + pad) :
    Radix.fixed 32 m (Radix.value 32 digits / 2 ^ bits * 2 ^ pad) = digits ↔
      bits < 5 ∧ ∀ d ∈ digits.getLast?, d % 2 ^ bits = 0 := by
  have hzero : digits = [] → bits = 0 := by
    rintro rfl
    simp only [List.length_nil] at hcount
    omega
  constructor
  · intro hfixed
    have hlen := congrArg List.length hfixed
    rw [Radix.length_fixed] at hlen
    obtain rfl : pad = bits := by omega
    have hlt : Radix.value 32 digits < 32 ^ digits.length := Radix.value_lt (by decide) hdigits
    have hvalue := congrArg (Radix.value 32) hfixed
    have hle := Nat.div_mul_le_self (Radix.value 32 digits) (2 ^ pad)
    rw [Radix.value_fixed, hlen, Nat.mod_eq_of_lt (by omega)] at hvalue
    refine ⟨hpad, (value_mod_leftover hpad hzero).mp ?_⟩
    rw [← hvalue]
    exact Nat.mul_mod_left _ _
  · rintro ⟨hfew, hlast⟩
    obtain rfl : pad = bits := by omega
    obtain rfl : m = digits.length := by omega
    have hmod := (value_mod_leftover hpad hzero).mpr hlast
    rw [Nat.div_mul_cancel (Nat.dvd_of_mod_eq_zero hmod), Radix.fixed_value (by decide) hdigits]

/-- Accepted text is written again, in lower case, if it is canonical. -/
theorem encodeBase32_decodeBase32_iff {text : String} {bytes : Bytes}
    (h : decodeBase32Nopad text = .ok bytes) :
    encodeBase32NopadLower bytes = toAsciiLowercase text ↔ CanonicalBase32 text := by
  obtain ⟨digits, hdigits, hlower, hdecode⟩ := exists_base32_digits h
  obtain ⟨out, bits, k, hout, hbits, hcount, hdecoded⟩ := decodeBase32_text digits hdigits
  obtain rfl := Except.ok.inj (hdecode.symm.trans hout)
  obtain ⟨m, pad, hpad, hm, htext⟩ := encodeBase32_toList bytes
  have hlength : text.toList.length = digits.length := by
    rw [← List.length_map Char.toLower, hlower, List.length_map]
  have hleft : leftoverBits text = bits := by
    rw [leftoverBits, hlength]
    omega
  have hk : bytes.length = k := by
    rw [← List.length_map UInt8.toNat, hdecoded, Radix.length_fixed]
  -- the encoder writes the digits of the bytes, filled up with zero bits
  have hwrite : encodeBase32NopadLower bytes = toAsciiLowercase text ↔
      Radix.fixed 32 m (Radix.value 32 digits / 2 ^ bits * 2 ^ pad) = digits := by
    rw [← String.toList_inj, htext, toAsciiLowercase, String.toList_ofList, hlower,
      bigEndian_of_digits hdigits hcount hdecoded]
    constructor
    · exact Radix.map_inj (fun _ hd _ he => base32Char_inj hd he)
        (Radix.fixed_lt (by decide) _) hdigits
    · exact congrArg _
  rw [hwrite, CanonicalBase32, hleft,
    forall_getLast?_iff (P := fun d => d % 2 ^ bits = 0) hdigits hlower]
  exact fixed_of_leftover_iff hdigits hcount hpad (hk ▸ hm)

/-- Accepted base32 text is, in lower case, what its bytes are written as exactly if it is
canonical; and so is the base32 text of a CID. -/
theorem base32_canonical_iff [MultihashCodec] (hcodec : MultihashCodec.Exact) :
    (∀ (text : String) (bytes : Bytes), decodeBase32Nopad text = .ok bytes →
      (encodeBase32NopadLower bytes = toAsciiLowercase text ↔ CanonicalBase32 text)) ∧
    ∀ (c : Char) (payload : List Char) (peerId : PeerId), c = 'b' ∨ c = 'B' →
      PeerId.fromCid (String.ofList (c :: payload)) = .ok peerId →
        (toAsciiLowercase (String.ofList (c :: payload)) = peerId.toCidBase32 ↔
          CanonicalBase32 (String.ofList payload)) := by
  refine ⟨fun text bytes => encodeBase32_decodeBase32_iff, ?_⟩
  intro c payload peerId hc h
  rw [PeerId.fromCid_base32 String.toList_ofList hc] at h
  obtain ⟨cidBytes, hdecode, hid⟩ := Except.bind_eq_ok_iff.mp h
  obtain ⟨rfl, -⟩ := (PeerId.fromCidBytes_eq_ok_iff hcodec).mp hid
  have hlower : c.toLower = 'b' := by
    rcases hc with rfl | rfl <;> rfl
  rw [← encodeBase32_decodeBase32_iff hdecode, PeerId.toCidBase32, toAsciiLowercase,
    toAsciiLowercase, String.toList_ofList, String.toList_ofList, List.map_cons, hlower,
    ← String.toList_inj, ← String.toList_inj, String.toList_append, String.toList_ofList,
    String.toList_ofList]
  show 'b' :: _ = 'b' :: _ ↔ _
  rw [List.cons.injEq, and_iff_right rfl, String.toList_ofList]
  exact eq_comm

/-- Two characters of a byte in upper case, and two with a bit that is left over. -/
theorem base32_canonical_iff_byte :
    encodeBase32NopadLower [0] = toAsciiLowercase "AA" ∧
      encodeBase32NopadLower [0] ≠ toAsciiLowercase "ab" := by
  obtain ⟨hcanonical, -⟩ := @base32_canonical_iff multihashCodec multihashCodec_exact
  rw [hcanonical "AA" [0] (by decide), ne_eq, hcanonical "ab" [0] (by decide)]
  exact ⟨by decide, by decide⟩

/-- One character is accepted, though it is not enough for a byte. -/
theorem not_encodeBase32_decodeBase32 : ¬ ∀ (text : String) (bytes : Bytes),
    decodeBase32Nopad text = .ok bytes →
      encodeBase32NopadLower bytes = toAsciiLowercase text := by
  intro h
  exact absurd (h "a" [] (by decide)) (by decide)

end Minip2p
