import Minip2p.Identity.Base58

/-!
# base32

The encoder shifts bytes into 16 bits and gives out groups of five, the decoder shifts groups of
five into 32 bits and gives out bytes. Neither register holds all it was given, but both hold the
bits that are not yet given out, so each loop writes the digits of the number it has read.
-/

namespace Minip2p

/-- The character of a digit. -/
def base32Char (digit : ℕ) : Char := base32AlphabetLower.getD digit 'a'

/-- A digit is read back from its character. -/
theorem base32Value_char : ∀ digit : Fin 32,
    base32Value (base32Char digit) = some (UInt8.ofNat digit) := by
  decide

/-! ## The encoder -/

namespace Base32Encoder

/-- The encoder has read `n` bytes, which denote `v`, and given out `k` groups. -/
structure Holds (state : Base32Encoder) (n v k : ℕ) : Prop where
  bits_eq : 8 * n = 5 * k + state.bits
  out_eq : state.out = (Radix.fixed 32 k (v / 2 ^ state.bits)).map base32Char
  buffer_eq : state.buffer.toNat = v % 2 ^ 16

/-- Nothing was pushed yet. -/
theorem Holds.start : Holds ⟨[], 0, 0⟩ 0 0 0 := ⟨rfl, rfl, rfl⟩

/-- The digits that are complete are put out. -/
theorem Holds.emit {state : Base32Encoder} {n v k fuel : ℕ} (h : state.Holds n v k)
    (hbits : state.bits ≤ 16) (hfuel : state.bits < 5 * fuel + 5) :
    ∃ k', (emit fuel state).Holds n v k' ∧ (emit fuel state).bits < 5 := by
  induction fuel generalizing state k with
  | zero => exact ⟨k, h, by show state.bits < 5; omega⟩
  | succ fuel ih =>
    obtain ⟨out, buffer, bits⟩ := state
    obtain ⟨hcount, hout, hbuffer⟩ := h
    simp only at hcount hout hbuffer hbits hfuel
    rw [Base32Encoder.emit]
    split
    · next hge =>
      have hidx : ((buffer >>> UInt16.ofNat (bits - 5)) &&& 0x1f).toNat =
          v / 2 ^ (bits - 5) % 2 ^ 5 := by
        rw [UInt16.toNat_and, UInt16.toNat_shiftRight, UInt16.toNat_ofNat', hbuffer]
        show (v % 2 ^ 16) >>> ((bits - 5) % 2 ^ 16 % 16) &&& 2 ^ 5 - 1 = _
        rw [Nat.and_two_pow_sub_one_eq_mod, Nat.shiftRight_eq_div_pow,
          Nat.mod_eq_of_lt (show bits - 5 < 2 ^ 16 by omega),
          Nat.mod_eq_of_lt (show bits - 5 < 16 by omega), Radix.shift_out (by omega)]
      refine ih (k := k + 1) ⟨?_, ?_, hbuffer⟩ ?_ ?_
      · show 8 * n = 5 * (k + 1) + (bits - 5)
        omega
      · show out ++ [base32AlphabetLower.getD _ 'a'] = _
        rw [hout, hidx, show (32 : ℕ) = 2 ^ 5 from rfl, Radix.fixed_shift hge, List.map_append]
        rfl
      · show bits - 5 ≤ 16
        omega
      · show bits - 5 < 5 * fuel + 5
        omega
    · next hlt => exact ⟨k, ⟨hcount, hout, hbuffer⟩, by show bits < 5; omega⟩

/-- One more byte is held. -/
theorem Holds.push {state : Base32Encoder} {n v k : ℕ} (h : state.Holds n v k)
    (hbits : state.bits < 5) (byte : UInt8) :
    ∃ k', (state.push byte).Holds (n + 1) (v * 256 + byte.toNat) k' ∧
      (state.push byte).bits < 5 := by
  have hbyte := byte.toNat_lt
  have hbuffer : ((state.buffer <<< 8) ||| byte.toUInt16).toNat =
      (v * 256 + byte.toNat) % 2 ^ 16 := by
    rw [UInt16.toNat_or, UInt16.toNat_shiftLeft, h.buffer_eq, UInt8.toNat_toUInt16]
    exact Radix.shift_in (a := 8) (w := 16) (by decide) hbyte
  apply Holds.emit (k := k)
  · refine ⟨?_, ?_, hbuffer⟩
    · show 8 * (n + 1) = 5 * k + (state.bits + 8)
      rw [mul_add, h.bits_eq]
      omega
    · show state.out = _
      rw [h.out_eq, pow_add, mul_comm (2 ^ state.bits), ← Nat.div_div_eq_div_mul]
      congr 3
      omega
  · show state.bits + 8 ≤ 16
    omega
  · show state.bits + 8 < 5 * 2 + 5
    omega

/-- The last digit is padded with zeros. -/
theorem Holds.finish {state : Base32Encoder} {n v k : ℕ} (h : state.Holds n v k)
    (hbits : state.bits < 5) :
    ∃ m pad, pad < 5 ∧ 5 * m = 8 * n + pad ∧
      state.finish = (Radix.fixed 32 m (v * 2 ^ pad)).map base32Char := by
  rw [Base32Encoder.finish]
  split
  · next hpos =>
    have hidx : ((state.buffer <<< UInt16.ofNat (5 - state.bits)) &&& 0x1f).toNat =
        v * 2 ^ (5 - state.bits) % 2 ^ 5 := by
      rw [UInt16.toNat_and, UInt16.toNat_shiftLeft, UInt16.toNat_ofNat', h.buffer_eq]
      show (v % 2 ^ 16) <<< ((5 - state.bits) % 2 ^ 16 % 16) % 2 ^ 16 &&& 2 ^ 5 - 1 = _
      rw [Nat.and_two_pow_sub_one_eq_mod, Nat.shiftLeft_eq,
        Nat.mod_eq_of_lt (show 5 - state.bits < 2 ^ 16 by omega),
        Nat.mod_eq_of_lt (show 5 - state.bits < 16 by omega),
        Nat.mod_mod_of_dvd _ (Nat.pow_dvd_pow 2 (by decide)), Nat.mul_mod,
        Nat.mod_mod_of_dvd _ (Nat.pow_dvd_pow 2 (by decide)), ← Nat.mul_mod]
    refine ⟨k + 1, 5 - state.bits, by omega, ?_, ?_⟩
    · have := h.bits_eq
      omega
    · have hdiv : v * 2 ^ (5 - state.bits) / 32 = v / 2 ^ state.bits := by
        have hsplit : 32 = 2 ^ state.bits * 2 ^ (5 - state.bits) := by
          rw [← pow_add, Nat.add_sub_cancel' (by omega)]
          rfl
        rw [hsplit, Nat.mul_div_mul_right _ _ (Nat.two_pow_pos _)]
      show state.out ++ [base32AlphabetLower.getD _ 'a'] = _
      rw [hidx, Radix.fixed, hdiv, List.map_append, h.out_eq]
      rfl
  · next hzero =>
    have hbits : state.bits = 0 := by omega
    refine ⟨k, 0, by decide, ?_, ?_⟩
    · have := h.bits_eq
      omega
    · rw [h.out_eq, hbits, pow_zero, Nat.div_one, mul_one]

end Base32Encoder

/-- What the encoder holds after all bytes. -/
theorem foldl_base32Push (input : Bytes) :
    ∃ k, (input.foldl Base32Encoder.push ⟨[], 0, 0⟩).Holds input.length (bigEndian input) k ∧
      (input.foldl Base32Encoder.push ⟨[], 0, 0⟩).bits < 5 := by
  induction input using List.reverseRecOn with
  | nil => exact ⟨0, .start, by decide⟩
  | append_singleton input byte ih =>
    obtain ⟨k, hholds, hbits⟩ := ih
    rw [List.foldl_append, List.length_append, bigEndian_concat]
    exact hholds.push hbits byte

/-- The encoding: the base-32 digits of the number the bytes denote, filled up with zero bits. -/
theorem encodeBase32_toList (input : Bytes) :
    ∃ m pad, pad < 5 ∧ 5 * m = 8 * input.length + pad ∧
      (encodeBase32NopadLower input).toList =
        (Radix.fixed 32 m (bigEndian input * 2 ^ pad)).map base32Char := by
  rw [encodeBase32NopadLower]
  split
  · next hempty =>
    rw [List.isEmpty_iff.mp hempty]
    exact ⟨0, 0, by decide, rfl, rfl⟩
  · obtain ⟨k, hholds, hbits⟩ := foldl_base32Push input
    rw [String.toList_ofList]
    exact hholds.finish hbits

/-! ## The decoder -/

namespace Base32Decoder

/-- The decoder has read `m` groups, which denote `v`, and given out `k` bytes. -/
structure Holds (state : Base32Decoder) (m v k : ℕ) : Prop where
  bits_eq : 5 * m = 8 * k + state.bits
  out_eq : state.out.map UInt8.toNat = Radix.fixed 256 k (v / 2 ^ state.bits)
  buffer_eq : state.buffer.toNat = v % 2 ^ 32

/-- Nothing was pushed yet. -/
theorem Holds.start : Holds ⟨[], 0, 0⟩ 0 0 0 := ⟨rfl, rfl, rfl⟩

/-- The bytes that are complete are put out. -/
theorem Holds.emit {state : Base32Decoder} {m v k : ℕ} (h : state.Holds m v k)
    (hbits : state.bits < 16) : ∃ k', (emit 1 state).Holds m v k' ∧ (emit 1 state).bits < 8 := by
  obtain ⟨out, buffer, bits⟩ := state
  obtain ⟨hcount, hout, hbuffer⟩ := h
  simp only at hcount hout hbuffer hbits
  rw [Base32Decoder.emit]
  split
  · next hge =>
    have hbyte : ((buffer >>> UInt32.ofNat (bits - 8)) &&& 0xff).toUInt8.toNat =
        v / 2 ^ (bits - 8) % 2 ^ 8 := by
      rw [UInt32.toNat_toUInt8, UInt32.toNat_and, UInt32.toNat_shiftRight, UInt32.toNat_ofNat',
        hbuffer]
      show ((v % 2 ^ 32) >>> ((bits - 8) % 2 ^ 32 % 32) &&& 2 ^ 8 - 1) % 2 ^ 8 = _
      rw [Nat.and_two_pow_sub_one_eq_mod, Nat.mod_mod, Nat.shiftRight_eq_div_pow,
        Nat.mod_eq_of_lt (show bits - 8 < 2 ^ 32 by omega),
        Nat.mod_eq_of_lt (show bits - 8 < 32 by omega), Radix.shift_out (by omega)]
    refine ⟨k + 1, ⟨?_, ?_, hbuffer⟩, by show bits - 8 < 8; omega⟩
    · show 5 * m = 8 * (k + 1) + (bits - 8)
      omega
    · show (out ++ [_]).map UInt8.toNat = Radix.fixed 256 (k + 1) (v / 2 ^ (bits - 8))
      rw [List.map_append, hout, List.map_singleton, hbyte, show (256 : ℕ) = 2 ^ 8 from rfl,
        Radix.fixed_shift hge]
  · next hlt => exact ⟨k, ⟨hcount, hout, hbuffer⟩, by show bits < 8; omega⟩

/-- One more digit is held. -/
theorem Holds.push {state : Base32Decoder} {m v k : ℕ} (h : state.Holds m v k)
    (hbits : state.bits < 8) (value : UInt8) (hvalue : value.toNat < 32) :
    ∃ k', (state.push value).Holds (m + 1) (v * 32 + value.toNat) k' ∧
      (state.push value).bits < 8 := by
  apply Holds.emit (k := k)
  · refine ⟨?_, ?_, ?_⟩
    · show 5 * (m + 1) = 8 * k + (state.bits + 5)
      rw [mul_add, h.bits_eq]
      omega
    · show state.out.map UInt8.toNat = _
      rw [h.out_eq, pow_add, mul_comm (2 ^ state.bits), ← Nat.div_div_eq_div_mul]
      congr 2
      omega
    · show ((state.buffer <<< 5) ||| value.toUInt32).toNat = _
      rw [UInt32.toNat_or, UInt32.toNat_shiftLeft, h.buffer_eq, UInt8.toNat_toUInt32]
      exact Radix.shift_in (a := 5) (w := 32) (by decide) hvalue
  · show state.bits + 5 < 16
    omega

end Base32Decoder

/-- Every character adds its digit to the number, and whole bytes of it are given out. -/
theorem decodeBase32Go_text {digits : List ℕ} (hdigits : ∀ d ∈ digits, d < 32) (index : ℕ)
    {state : Base32Decoder} {m v k : ℕ} (h : state.Holds m v k) (hbits : state.bits < 8) :
    ∃ out bits k', decodeBase32Go index state (digits.map base32Char) = .ok out ∧ bits < 8 ∧
      5 * (m + digits.length) = 8 * k' + bits ∧
      out.map UInt8.toNat = Radix.fixed 256 k'
        ((v * 32 ^ digits.length + Radix.value 32 digits) / 2 ^ bits) := by
  induction digits generalizing index state m v k with
  | nil =>
    refine ⟨state.out, state.bits, k, rfl, hbits, ?_, ?_⟩
    · exact h.bits_eq
    · rw [h.out_eq, List.length_nil, pow_zero, mul_one, Radix.value_nil, add_zero]
  | cons digit digits ih =>
    have hdigit : digit < 32 := hdigits digit List.mem_cons_self
    have hnat : (UInt8.ofNat digit).toNat = digit := by
      rw [UInt8.toNat_ofNat', Nat.mod_eq_of_lt (by omega)]
    obtain ⟨k₁, hpush, hbits₁⟩ := h.push hbits (UInt8.ofNat digit) (by omega)
    rw [hnat] at hpush
    obtain ⟨out, bits, k', hout, hlt, hcount, hdecoded⟩ :=
      ih (fun d hd => hdigits d (List.mem_cons_of_mem _ hd)) (index + 1) hpush hbits₁
    refine ⟨out, bits, k', ?_, hlt, ?_, ?_⟩
    · have hvalue := base32Value_char ⟨digit, hdigit⟩
      simp only [List.map_cons, decodeBase32Go, hvalue]
      exact hout
    · rw [List.length_cons]
      omega
    · rw [hdecoded, Radix.value_cons, List.length_cons, pow_succ]
      congr 2
      ring

/-- Decoding text gives five bits a character, in whole bytes. -/
theorem decodeBase32_text (digits : List ℕ) (hdigits : ∀ d ∈ digits, d < 32) :
    ∃ out bits k, decodeBase32Nopad (String.ofList (digits.map base32Char)) = .ok out ∧ bits < 8 ∧
      5 * digits.length = 8 * k + bits ∧
      out.map UInt8.toNat = Radix.fixed 256 k (Radix.value 32 digits / 2 ^ bits) := by
  obtain ⟨out, bits, k, hout, hbits, hcount, hdecoded⟩ :=
    decodeBase32Go_text hdigits 0 Base32Decoder.Holds.start (by decide)
  rw [Nat.zero_mul, Nat.zero_add] at hdecoded
  rw [Nat.zero_add] at hcount
  refine ⟨out, bits, k, ?_, hbits, hcount, hdecoded⟩
  rw [decodeBase32Nopad]
  split
  · next hempty =>
    have hnil : digits = [] := by simpa using hempty
    rw [hnil] at hout
    exact hout
  · rw [String.toList_ofList]
    exact hout

/-- Decoding an encoding gives the bytes back. -/
theorem decodeBase32_encodeBase32 (input : Bytes) :
    decodeBase32Nopad (encodeBase32NopadLower input) = .ok input := by
  obtain ⟨m, pad, hpad, hm, htext⟩ := encodeBase32_toList input
  obtain ⟨out, bits, k, hout, hbits, hcount, hdecoded⟩ :=
    decodeBase32_text (Radix.fixed 32 m (bigEndian input * 2 ^ pad)) (Radix.fixed_lt (by decide) _)
  rw [← htext, String.ofList_toList] at hout
  rw [Radix.length_fixed] at hcount
  -- the bits that are left over are those the encoder filled in
  have hk : k = input.length := by omega
  have hbitsEq : bits = pad := by omega
  have hlt : bigEndian input * 2 ^ pad < 32 ^ m := by
    have hvalue := bigEndian_lt input
    calc bigEndian input * 2 ^ pad < 256 ^ input.length * 2 ^ pad :=
          Nat.mul_lt_mul_of_pos_right hvalue (Nat.two_pow_pos _)
      _ = 2 ^ (8 * input.length + pad) := by
          rw [pow_add, pow_mul]
          norm_num
      _ = 32 ^ m := by
          rw [← hm, pow_mul]
          norm_num
  rw [Radix.value_fixed, Nat.mod_eq_of_lt hlt, hbitsEq, Nat.mul_div_cancel _ (Nat.two_pow_pos _),
    hk, bigEndian, ← List.length_map UInt8.toNat,
    Radix.fixed_value (by decide) (toNat_map_lt input)] at hdecoded
  rw [hout, bytes_ext hdecoded]

end Minip2p
