import Minip2p.Identity.PeerIdText
import Minip2p.Lib.Radix

/-!
# base58btc

Both loops of the codec keep the digits of a number: the encoder those in base 58 of the bytes it
has read, the decoder those in base 256 of the characters. Leading zeros are counted apart in both,
so decoding an encoding gives the bytes back.
-/

namespace Minip2p

/-- Bytes with the same values are the same. -/
theorem bytes_ext {a b : Bytes} (h : a.map UInt8.toNat = b.map UInt8.toNat) : a = b :=
  List.map_injective_iff.mpr (fun _ _ => UInt8.toNat_inj.mp) h

theorem toNat_map_lt (bytes : Bytes) : ∀ d ∈ bytes.map UInt8.toNat, d < 256 := by
  intro d hd
  obtain ⟨byte, -, rfl⟩ := List.mem_map.mp hd
  exact byte.toNat_lt

/-- The number that bytes denote, the most significant first. -/
def bigEndian (bytes : Bytes) : ℕ := Radix.value 256 (bytes.map UInt8.toNat)

/-- The number of some bytes is below the power of their count. -/
theorem bigEndian_lt (bytes : Bytes) : bigEndian bytes < 256 ^ bytes.length := by
  have hlt := Radix.value_lt (b := 256) (by decide) (toNat_map_lt bytes)
  rw [List.length_map] at hlt
  exact hlt

/-- The number of some bytes and one more. -/
theorem bigEndian_concat (bytes : Bytes) (byte : UInt8) :
    bigEndian (bytes ++ [byte]) = bigEndian bytes * 256 + byte.toNat := by
  rw [bigEndian, List.map_append, List.map_singleton, Radix.value_concat, bigEndian]

/-- The number of bytes whose first is not zero has as many digits. -/
theorem pow_le_bigEndian {byte : UInt8} (hbyte : byte ≠ 0) (bytes : Bytes) :
    256 ^ bytes.length ≤ bigEndian (byte :: bytes) := by
  have hpos : 0 < byte.toNat := Nat.pos_of_ne_zero fun h => hbyte (UInt8.toNat_inj.mp h)
  have hle : 256 ^ (bytes.map UInt8.toNat).length ≤ bigEndian (byte :: bytes) :=
    Radix.pow_le_value hpos
  rw [List.length_map] at hle
  exact hle

/-- Bytes do not start with zero. -/
def NoLeadingZero (bytes : Bytes) : Prop := ∀ h : bytes ≠ [], bytes.head h ≠ 0

/-- The digits of the number are the bytes. -/
theorem digits_bigEndian {bytes : Bytes} (h : NoLeadingZero bytes) :
    Nat.digits 256 (bigEndian bytes) = (bytes.map UInt8.toNat).reverse := by
  apply Radix.digits_value (by decide) (toNat_map_lt bytes)
  intro hne
  rw [List.head_map]
  intro hzero
  exact h _ (UInt8.toNat_inj.mp hzero)

/-! ## The encoder -/

/-- The carry loop multiplies and adds. -/
theorem base58Carry_eq (digits : List ℕ) (carry : ℕ) :
    base58Carry digits carry = Radix.mulAdd 58 256 digits carry := by
  induction digits generalizing carry with
  | nil => rfl
  | cons digit digits ih =>
    rw [Radix.mulAdd_cons, base58Carry]
    simp only [ih]

/-- The carry is written out digit by digit. -/
theorem base58Push_eq {fuel carry : ℕ} (h : carry < 58 ^ fuel) :
    base58Push fuel carry = Nat.digits 58 carry := by
  induction fuel generalizing carry with
  | zero =>
    have hzero : carry = 0 := by
      rw [pow_zero] at h
      omega
    rw [hzero, Nat.digits_zero]
    rfl
  | succ fuel ih =>
    rw [base58Push]
    split
    · next hpos =>
      rw [pow_succ] at h
      rw [Nat.digits_def' (by decide) hpos, ih (Nat.div_lt_of_lt_mul (by omega))]
    · next hzero =>
      rw [Nat.eq_zero_of_not_pos hzero, Nat.digits_zero]

/-- One byte more, as long as the number is not zero. -/
theorem base58Byte_digits {n : ℕ} {byte : UInt8} (h : n * 256 + byte.toNat ≠ 0) :
    base58Byte (Nat.digits 58 n) byte = Nat.digits 58 (n * 256 + byte.toNat) := by
  have hcarry : (Radix.mulAdd 58 256 (Nat.digits 58 n) byte.toNat).2 < 256 :=
    Radix.mulAdd_carry_lt (fun d hd => Nat.digits_lt_base (by decide) hd) byte.toNat_lt
  have hdigits := Radix.mulAdd_digits (b := 58) (n := n) (by decide) byte.toNat_lt
  rw [base58Byte]
  simp only [base58Carry_eq]
  rw [base58Push_eq (by omega), hdigits, if_neg]
  rw [List.isEmpty_iff, Nat.digits_eq_nil_iff_eq_zero]
  exact h

/-- The digits of all bytes are those of their number. -/
theorem foldl_base58Byte {bytes : Bytes} (h : NoLeadingZero bytes) :
    bytes.foldl base58Byte [] = Nat.digits 58 (bigEndian bytes) := by
  induction bytes using List.reverseRecOn with
  | nil => rfl
  | append_singleton bytes byte ih =>
    have hinit : NoLeadingZero bytes := by
      intro hne
      have hhead := h (by simp)
      rw [List.head_append_of_ne_nil hne] at hhead
      exact hhead
    have hne : bigEndian bytes * 256 + byte.toNat ≠ 0 := by
      cases bytes with
      | nil =>
        have hbyte := h (by simp)
        intro hzero
        exact hbyte (UInt8.toNat_inj.mp (Nat.eq_zero_of_add_eq_zero_left hzero))
      | cons first rest =>
        have hpos : 0 < 256 ^ rest.length := Nat.pow_pos (by decide)
        have hle := pow_le_bigEndian (hinit (by simp)) rest
        rw [List.head_cons] at hle
        omega
    rw [List.foldl_append, ih hinit, List.foldl_cons, List.foldl_nil, base58Byte_digits hne,
      bigEndian_concat]

/-- The character of a digit. -/
def base58Char (digit : ℕ) : Char := base58Alphabet.getD digit '1'

/-- The leading zero bytes. -/
def leadingZeros (bytes : Bytes) : ℕ := (bytes.takeWhile (· == 0)).length

/-- Leading zeros, and bytes that start with none. -/
theorem bytes_split (bytes : Bytes) :
    bytes = List.replicate (leadingZeros bytes) 0 ++ bytes.drop (leadingZeros bytes) ∧
      NoLeadingZero (bytes.drop (leadingZeros bytes)) := by
  induction bytes with
  | nil => exact ⟨rfl, fun h => absurd rfl h⟩
  | cons byte bytes ih =>
    by_cases hzero : byte = 0
    · have hlen : leadingZeros (byte :: bytes) = leadingZeros bytes + 1 := by
        rw [leadingZeros, List.takeWhile_cons_of_pos (by rw [hzero]; rfl)]
        rfl
      rw [hlen, List.replicate_succ, List.cons_append, List.drop_succ_cons, ← ih.1, hzero]
      exact ⟨rfl, ih.2⟩
    · have hlen : leadingZeros (byte :: bytes) = 0 := by
        rw [leadingZeros, List.takeWhile_cons_of_neg (by simpa using hzero)]
        rfl
      rw [hlen]
      exact ⟨rfl, fun _ => hzero⟩

/-- The encoding: a `'1'` for each leading zero, and the base-58 digits of the rest. -/
theorem encodeBase58_toList (input : Bytes) :
    (encodeBase58 input).toList = List.replicate (leadingZeros input) '1' ++
      (Nat.digits 58 (bigEndian (input.drop (leadingZeros input)))).reverse.map base58Char := by
  have hfold := foldl_base58Byte (bytes_split input).2
  rw [encodeBase58]
  split
  · next hempty =>
    rw [List.isEmpty_iff.mp hempty]
    rfl
  · simp only
    rw [show (input.takeWhile (· == 0)).length = leadingZeros input from rfl, hfold]
    split
    · next hnone =>
      rw [List.isEmpty_iff.mp hnone, String.toList_ofList]
      simp
    · rw [String.toList_ofList]
      rfl

/-! ## The decoder -/

/-- A digit is read back from its character. -/
theorem base58Value_char : ∀ digit : Fin 58,
    base58Value (base58Char digit) = some (UInt8.ofNat digit) ∧
      (base58Char digit = '1' ↔ digit.val = 0) := by
  decide

/-- The carry loop of the decoder multiplies and adds. -/
theorem base58Accumulate_eq (bytes : Bytes) {carry : UInt32} (hcarry : carry.toNat < 58) :
    (base58Accumulate bytes carry).1.map UInt8.toNat =
        (Radix.mulAdd 256 58 (bytes.map UInt8.toNat) carry.toNat).1 ∧
      (base58Accumulate bytes carry).2.toNat =
        (Radix.mulAdd 256 58 (bytes.map UInt8.toNat) carry.toNat).2 := by
  induction bytes generalizing carry with
  | nil => exact ⟨rfl, rfl⟩
  | cons byte bytes ih =>
    have hbyte := byte.toNat_lt
    have hacc : (byte.toUInt32 * 58 + carry).toNat = byte.toNat * 58 + carry.toNat := by
      rw [UInt32.toNat_add, UInt32.toNat_mul, UInt8.toNat_toUInt32]
      show (byte.toNat * 58 % 2 ^ 32 + carry.toNat) % 2 ^ 32 = _
      omega
    have hlow : ((byte.toUInt32 * 58 + carry) &&& 0xff).toUInt8.toNat =
        (byte.toNat * 58 + carry.toNat) % 256 := by
      rw [UInt32.toNat_toUInt8, UInt32.toNat_and, hacc]
      show (_ &&& 2 ^ 8 - 1) % 2 ^ 8 = _
      rw [Nat.and_two_pow_sub_one_eq_mod, Nat.mod_mod]
    have hhigh : ((byte.toUInt32 * 58 + carry) >>> 8).toNat =
        (byte.toNat * 58 + carry.toNat) / 256 := by
      rw [UInt32.toNat_shiftRight, hacc]
      show _ >>> (8 % 32) = _
      rw [Nat.shiftRight_eq_div_pow]
    have hcarry' : ((byte.toUInt32 * 58 + carry) >>> 8).toNat < 58 := by
      rw [hhigh]
      omega
    obtain ⟨hbytes, hout⟩ := ih hcarry'
    rw [hhigh] at hbytes hout
    rw [List.map_cons, Radix.mulAdd_cons, base58Accumulate]
    simp only [List.map_cons, hlow, hbytes, hout, and_self]

/-- The carry of the decoder is written out byte by byte. -/
theorem base58Flush_eq {fuel : ℕ} {carry : UInt32} (h : carry.toNat < 256 ^ fuel) :
    (base58Flush fuel carry).map UInt8.toNat = Nat.digits 256 carry.toNat := by
  induction fuel generalizing carry with
  | zero =>
    have hzero : carry.toNat = 0 := by
      rw [pow_zero] at h
      omega
    rw [hzero, Nat.digits_zero]
    rfl
  | succ fuel ih =>
    rw [base58Flush]
    split
    · next hpos =>
      have hhigh : (carry >>> 8).toNat = carry.toNat / 256 := by
        rw [UInt32.toNat_shiftRight]
        show _ >>> (8 % 32) = _
        rw [Nat.shiftRight_eq_div_pow]
      have hlow : (carry &&& 0xff).toUInt8.toNat = carry.toNat % 256 := by
        rw [UInt32.toNat_toUInt8, UInt32.toNat_and]
        show (_ &&& 2 ^ 8 - 1) % 2 ^ 8 = _
        rw [Nat.and_two_pow_sub_one_eq_mod, Nat.mod_mod]
      have hrest : (carry >>> 8).toNat < 256 ^ fuel := by
        rw [pow_succ] at h
        rw [hhigh]
        exact Nat.div_lt_of_lt_mul (by omega)
      rw [Nat.digits_def' (by decide) (UInt32.lt_iff_toNat_lt.mp hpos), List.map_cons, hlow,
        ih hrest, hhigh]
    · next hzero =>
      have hcarry : carry.toNat = 0 := by
        have hle : ¬ (0 : UInt32).toNat < carry.toNat :=
          fun hlt => hzero (UInt32.lt_iff_toNat_lt.mpr hlt)
        have : (0 : UInt32).toNat = 0 := rfl
        omega
      rw [hcarry, Nat.digits_zero]
      rfl

/-- One character more, as long as the number is not zero. -/
theorem base58Character_digits {n : ℕ} {bytes : Bytes} {value : UInt8}
    (hbytes : bytes.map UInt8.toNat = Nat.digits 256 n) (hvalue : value.toNat < 58)
    (h : n * 58 + value.toNat ≠ 0) :
    (base58Character bytes value).map UInt8.toNat = Nat.digits 256 (n * 58 + value.toNat) := by
  have hcarry : value.toUInt32.toNat < 58 := by
    rw [UInt8.toNat_toUInt32]
    exact hvalue
  by_cases hempty : bytes = []
  · -- the first character: the buffer starts as one zero byte
    have hn : n = 0 := by
      rw [hempty, List.map_nil] at hbytes
      exact Nat.digits_eq_nil_iff_eq_zero.mp hbytes.symm
    obtain ⟨hout, hrest⟩ := base58Accumulate_eq [0] hcarry
    have hone : Radix.mulAdd 256 58 ([0].map UInt8.toNat) value.toUInt32.toNat =
        ([value.toNat], 0) := by
      rw [List.map_singleton, Radix.mulAdd_cons, Radix.mulAdd_nil, UInt8.toNat_toUInt32]
      show ([(0 * 58 + value.toNat) % 256], (0 * 58 + value.toNat) / 256) = _
      rw [Nat.zero_mul, Nat.zero_add, Nat.mod_eq_of_lt (by omega), Nat.div_eq_of_lt (by omega)]
    rw [hone] at hout hrest
    rw [base58Character, hempty]
    simp only [List.isEmpty_nil, if_true]
    rw [List.map_append, hout, base58Flush_eq (by rw [hrest]; exact Nat.pow_pos (by decide)), hrest,
      hn, Nat.zero_mul, Nat.zero_add, Nat.digits_of_lt 256 value.toNat (by omega) (by omega)]
    rfl
  · obtain ⟨hout, hrest⟩ := base58Accumulate_eq bytes hcarry
    rw [hbytes, UInt8.toNat_toUInt32] at hout hrest
    have hlt : (Radix.mulAdd 256 58 (Nat.digits 256 n) value.toNat).2 < 58 :=
      Radix.mulAdd_carry_lt (fun d hd => Nat.digits_lt_base (by decide) hd) hvalue
    rw [base58Character, if_neg (by rw [List.isEmpty_iff]; exact hempty)]
    simp only
    rw [List.map_append, hout, base58Flush_eq (by rw [hrest]; omega), hrest,
      Radix.mulAdd_digits (by decide) hvalue]

/-- Characters after the leading ones add their digits to the number. -/
theorem decodeBase58Go_text {digits : List ℕ} (hdigits : ∀ d ∈ digits, d < 58) (index : ℕ)
    {n : ℕ} {bytes : Bytes} (hbytes : bytes.map UInt8.toNat = Nat.digits 256 n)
    (hhead : n ≠ 0 ∨ ∀ h : digits ≠ [], digits.head h ≠ 0) :
    ∃ out : Bytes, decodeBase58Go index bytes (digits.map base58Char) = .ok out ∧
      out.map UInt8.toNat = Nat.digits 256 (n * 58 ^ digits.length + Radix.value 58 digits) := by
  induction digits generalizing index n bytes with
  | nil =>
    refine ⟨bytes, rfl, ?_⟩
    rw [hbytes, List.length_nil, pow_zero, mul_one, Radix.value_nil, add_zero]
  | cons digit digits ih =>
    have hdigit : digit < 58 := hdigits digit List.mem_cons_self
    have hvalue := (base58Value_char ⟨digit, hdigit⟩).1
    have hnat : (UInt8.ofNat digit).toNat = digit := by
      rw [UInt8.toNat_ofNat', Nat.mod_eq_of_lt (by omega)]
    have hne : n * 58 + digit ≠ 0 := by
      rcases hhead with hn | hhead
      · omega
      · have hzero := hhead (by simp)
        rw [List.head_cons] at hzero
        omega
    have hstep : (base58Character bytes (UInt8.ofNat digit)).map UInt8.toNat = _ :=
      base58Character_digits hbytes (by omega) (by rw [hnat]; exact hne)
    rw [hnat] at hstep
    obtain ⟨out, hout, hdecoded⟩ := ih (fun d hd => hdigits d (List.mem_cons_of_mem _ hd))
      (index + 1) hstep (.inl hne)
    refine ⟨out, ?_, ?_⟩
    · simp only [List.map_cons, decodeBase58Go, hvalue]
      exact hout
    · rw [hdecoded, Radix.value_cons, List.length_cons, pow_succ]
      congr 1
      ring

/-- Decoding text: leading ones are zero bytes, and the other characters are the base-58 digits of
the number the remaining bytes denote. -/
theorem decodeBase58_text {ones : ℕ} {digits : List ℕ} (hdigits : ∀ d ∈ digits, d < 58)
    (hhead : ∀ h : digits ≠ [], digits.head h ≠ 0)
    (hne : List.replicate ones '1' ++ digits.map base58Char ≠ []) :
    ∃ out : Bytes, decodeBase58 (String.ofList
        (List.replicate ones '1' ++ digits.map base58Char)) =
          .ok (List.replicate ones 0 ++ out.reverse) ∧
      out.map UInt8.toNat = Nat.digits 256 (Radix.value 58 digits) := by
  have hones : ((List.replicate ones '1' ++ digits.map base58Char).takeWhile (· == '1')).length =
      ones := by
    rw [List.takeWhile_append_of_pos (by simp), List.length_append, List.length_replicate]
    cases digits with
    | nil => rfl
    | cons digit digits =>
      have hdigit : digit < 58 := hdigits digit List.mem_cons_self
      have hchar : base58Char digit ≠ '1' := fun h =>
        hhead (by simp) ((base58Value_char ⟨digit, hdigit⟩).2.mp h)
      rw [List.map_cons, List.takeWhile_cons_of_neg (by simpa using hchar)]
      rfl
  have hstart : ([] : Bytes).map UInt8.toNat = Nat.digits 256 0 := by
    rw [Nat.digits_zero]
    rfl
  obtain ⟨out, hout, hdecoded⟩ := decodeBase58Go_text hdigits ones hstart (.inr hhead)
  rw [Nat.zero_mul, Nat.zero_add] at hdecoded
  refine ⟨out, ?_, hdecoded⟩
  rw [decodeBase58, if_neg (by simpa using hne)]
  simp only [String.toList_ofList, hones]
  rw [List.drop_append_of_le_length (by rw [List.length_replicate]),
    List.drop_of_length_le (by rw [List.length_replicate]), List.nil_append, hout]
  rfl

/-- Decoding an encoding gives the bytes back. -/
theorem decodeBase58_encodeBase58 {input : Bytes} (hne : input ≠ []) :
    decodeBase58 (encodeBase58 input) = .ok input := by
  obtain ⟨hsplit, hlead⟩ := bytes_split input
  have htext := encodeBase58_toList input
  have hdigits : ∀ d ∈ (Nat.digits 58 (bigEndian (input.drop (leadingZeros input)))).reverse,
      d < 58 := fun d hd => Nat.digits_lt_base (by decide) (List.mem_reverse.mp hd)
  have hhead : ∀ h : (Nat.digits 58 (bigEndian (input.drop (leadingZeros input)))).reverse ≠ [],
      List.head _ h ≠ 0 := by
    intro h
    rw [List.head_reverse]
    apply Nat.getLast_digit_ne_zero
    intro hzero
    rw [hzero, Nat.digits_zero] at h
    exact h rfl
  have hnonempty : List.replicate (leadingZeros input) '1' ++
      (Nat.digits 58 (bigEndian (input.drop (leadingZeros input)))).reverse.map base58Char ≠
        [] := by
    intro hempty
    obtain ⟨hones, hnone⟩ := List.append_eq_nil_iff.mp hempty
    have hzeros : leadingZeros input = 0 := by simpa using hones
    have hvalue : bigEndian (input.drop (leadingZeros input)) = 0 := by
      rw [List.map_eq_nil_iff, List.reverse_eq_nil_iff] at hnone
      exact Nat.digits_eq_nil_iff_eq_zero.mp hnone
    rw [hzeros, List.drop_zero] at hvalue hlead
    cases input with
    | nil => exact hne rfl
    | cons byte rest =>
      have hpos : 0 < 256 ^ rest.length := Nat.pow_pos (by decide)
      have hle := pow_le_bigEndian (hlead (by simp)) rest
      rw [List.head_cons] at hle
      omega
  obtain ⟨out, hout, hdecoded⟩ := decodeBase58_text hdigits hhead hnonempty
  rw [← htext, String.ofList_toList] at hout
  rw [Radix.value_digits, digits_bigEndian hlead] at hdecoded
  have hrest : out.reverse = input.drop (leadingZeros input) := by
    apply bytes_ext
    rw [List.map_reverse, hdecoded, List.reverse_reverse]
  rw [hout, hrest, ← hsplit]

end Minip2p
