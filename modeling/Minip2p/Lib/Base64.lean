import Mathlib.Tactic.Common

/-!
# base64

The base64 of RFC 4648 with padding: three bytes are four characters of six bits, and `=` stands
for what the last bytes do not fill. The decoder is strict: the padding is in its place and the
bits under it are zero. It accepts what the encoder writes and nothing else.
-/

namespace Base64

/-- The alphabet, a character for each six bits. -/
def alphabet : List Char :=
  "ABCDEFGHIJKLMNOPQRSTUVWXYZabcdefghijklmnopqrstuvwxyz0123456789+/".toList

/-- The character of six bits. -/
def char (six : ℕ) : Char := alphabet.getD six 'A'

/-- The six bits a character stands for. -/
def value? (c : Char) : Option ℕ := alphabet.findIdx? (· == c)

/-! ## The codec -/

/-- The encoding of a byte string, three bytes at a time. -/
def encode : List UInt8 → List Char
  | [] => []
  | [a] => [char (a.toNat / 4), char (a.toNat % 4 * 16), '=', '=']
  | [a, b] =>
    [char (a.toNat / 4), char (a.toNat % 4 * 16 + b.toNat / 16), char (b.toNat % 16 * 4), '=']
  | a :: b :: c :: rest =>
    char (a.toNat / 4) :: char (a.toNat % 4 * 16 + b.toNat / 16) ::
      char (b.toNat % 16 * 4 + c.toNat / 64) :: char (c.toNat % 64) :: encode rest

/-- The byte of two characters before two `=`. -/
def decodeOne (a b : Char) : Option (List UInt8) :=
  match value? a, value? b with
  | some a, some b => if b % 16 = 0 then some [UInt8.ofNat (a * 4 + b / 16)] else none
  | _, _ => none

/-- The bytes of three characters before one `=`. -/
def decodeTwo (a b c : Char) : Option (List UInt8) :=
  match value? a, value? b, value? c with
  | some a, some b, some c =>
    if c % 4 = 0 then
      some [UInt8.ofNat (a * 4 + b / 16), UInt8.ofNat (b % 16 * 16 + c / 4)]
    else none
  | _, _, _ => none

/-- The bytes of four characters. -/
def decodeThree (a b c d : Char) : Option (List UInt8) :=
  match value? a, value? b, value? c, value? d with
  | some a, some b, some c, some d =>
    some [UInt8.ofNat (a * 4 + b / 16), UInt8.ofNat (b % 16 * 16 + c / 4),
      UInt8.ofNat (c % 4 * 64 + d)]
  | _, _, _, _ => none

/-- The bytes a text encodes, if it is a whole number of groups padded at the end only. -/
def decode : List Char → Option (List UInt8)
  | [] => some []
  | a :: b :: c :: d :: rest =>
    if rest = [] ∧ c = '=' ∧ d = '=' then decodeOne a b
    else if rest = [] ∧ d = '=' then decodeTwo a b c
    else
      match decodeThree a b c d, decode rest with
      | some group, some bytes => some (group ++ bytes)
      | _, _ => none
  | _ => none

/-! ## Characters -/

theorem value?_char_fin : ∀ six : Fin 64, value? (char six) = some six.val := by
  decide +kernel

/-- The value of a character is read back. -/
theorem value?_char {six : ℕ} (h : six < 64) : value? (char six) = some six :=
  value?_char_fin ⟨six, h⟩

theorem value?_pad : value? '=' = none := by decide

/-- A character has a value if it is the one for it. -/
theorem value?_eq_some_iff {c : Char} {six : ℕ} :
    value? c = some six ↔ six < 64 ∧ c = char six := by
  constructor
  · intro h
    obtain ⟨hlt, hchar, -⟩ := List.findIdx?_eq_some_iff_getElem.mp h
    refine ⟨hlt, ?_⟩
    unfold char
    rw [List.getD_eq_getElem?_getD, List.getElem?_eq_getElem hlt]
    exact (beq_iff_eq.mp hchar).symm
  · intro ⟨hlt, hchar⟩
    rw [hchar]
    exact value?_char hlt

/-- The padding is not one of the alphabet. -/
theorem char_ne_pad {six : ℕ} (h : six < 64) : char six ≠ '=' := by
  intro hpad
  have hvalue := value?_char h
  rw [hpad, value?_pad] at hvalue
  cases hvalue

/-- Every value has a character of the alphabet. -/
theorem char_mem (six : ℕ) : char six ∈ alphabet := by
  unfold char
  rw [List.getD_eq_getElem?_getD]
  cases h : alphabet[six]? with
  | none => decide
  | some c => exact List.mem_of_getElem? h

/-- An encoding has characters of the alphabet and padding. -/
theorem mem_encode {bytes : List UInt8} {c : Char} (h : c ∈ encode bytes) :
    c = '=' ∨ c ∈ alphabet := by
  fun_induction encode bytes with
  | case1 => exact absurd h List.not_mem_nil
  | case2 x =>
    simp only [List.mem_cons, List.not_mem_nil, or_false] at h
    rcases h with rfl | rfl | rfl | rfl <;> simp [char_mem]
  | case3 x y =>
    simp only [List.mem_cons, List.not_mem_nil, or_false] at h
    rcases h with rfl | rfl | rfl | rfl <;> simp [char_mem]
  | case4 x y z rest ih =>
    simp only [List.mem_cons] at h
    rcases h with rfl | rfl | rfl | rfl | h
    · exact .inr (char_mem _)
    · exact .inr (char_mem _)
    · exact .inr (char_mem _)
    · exact .inr (char_mem _)
    · exact ih h

/-! ## Bytes

The bits of a byte are those of two characters: the first byte has six and two, the second four
and four, the third two and six. -/

section Bytes

variable {n m k l r q : ℕ}

theorem toNat_ofNat_of_lt (h : n < 256) : (UInt8.ofNat n).toNat = n := by
  rw [UInt8.toNat_ofNat', Nat.mod_eq_of_lt h]

/-- The first byte of a quartet, and the two characters it is in. -/
theorem toNat_first (hn : n < 64) (hm : m < 64) :
    (UInt8.ofNat (n * 4 + m / 16)).toNat / 4 = n ∧
      (UInt8.ofNat (n * 4 + m / 16)).toNat % 4 = m / 16 := by
  rw [toNat_ofNat_of_lt (by omega)]
  omega

/-- The second byte of a quartet, and the two characters it is in. -/
theorem toNat_second (hk : k < 64) :
    (UInt8.ofNat (m % 16 * 16 + k / 4)).toNat / 16 = m % 16 ∧
      (UInt8.ofNat (m % 16 * 16 + k / 4)).toNat % 16 = k / 4 := by
  rw [toNat_ofNat_of_lt (by omega)]
  omega

/-- The third byte of a quartet, and the two characters it is in. -/
theorem toNat_third (hl : l < 64) :
    (UInt8.ofNat (k % 4 * 64 + l)).toNat / 64 = k % 4 ∧
      (UInt8.ofNat (k % 4 * 64 + l)).toNat % 64 = l := by
  rw [toNat_ofNat_of_lt (by omega)]
  omega

theorem ofNat_first (x : UInt8) (hr : r < 16) :
    UInt8.ofNat (x.toNat / 4 * 4 + (x.toNat % 4 * 16 + r) / 16) = x := by
  rw [show x.toNat / 4 * 4 + (x.toNat % 4 * 16 + r) / 16 = x.toNat by omega, UInt8.ofNat_toNat]

theorem ofNat_second (y : UInt8) (hr : r < 4) :
    UInt8.ofNat ((q * 16 + y.toNat / 16) % 16 * 16 + (y.toNat % 16 * 4 + r) / 4) = y := by
  have hy := y.toNat_lt
  rw [show (q * 16 + y.toNat / 16) % 16 * 16 + (y.toNat % 16 * 4 + r) / 4 = y.toNat by omega,
    UInt8.ofNat_toNat]

theorem ofNat_third (z : UInt8) :
    UInt8.ofNat ((q * 4 + z.toNat / 64) % 4 * 64 + z.toNat % 64) = z := by
  have hz := z.toNat_lt
  rw [show (q * 4 + z.toNat / 64) % 4 * 64 + z.toNat % 64 = z.toNat by omega, UInt8.ofNat_toNat]

end Bytes

/-! ## Groups -/

section Groups

variable {a b c d : Char} {bytes : List UInt8}

/-- Two characters are one byte. -/
theorem decodeOne_eq_some_iff :
    decodeOne a b = some bytes ↔
      ∃ x : UInt8, bytes = [x] ∧ a = char (x.toNat / 4) ∧ b = char (x.toNat % 4 * 16) := by
  unfold decodeOne
  constructor
  · intro h
    split at h
    · next n m hn hm =>
      split at h
      · next hzero =>
        obtain ⟨hn, ha⟩ := value?_eq_some_iff.mp hn
        obtain ⟨hm, hb⟩ := value?_eq_some_iff.mp hm
        have hfirst := toNat_first hn hm
        refine ⟨_, (Option.some.inj h).symm, ?_, ?_⟩
        · rw [hfirst.1, ha]
        · rw [hfirst.2, hb, Nat.div_mul_cancel (Nat.dvd_of_mod_eq_zero hzero)]
      · cases h
    · cases h
  · rintro ⟨x, rfl, rfl, rfl⟩
    have hx := x.toNat_lt
    rw [value?_char (by omega), value?_char (by omega)]
    simp only
    rw [if_pos (by omega)]
    exact congrArg (fun x => some [x]) (ofNat_first x (Nat.zero_lt_succ 15))

/-- Three characters are two bytes. -/
theorem decodeTwo_eq_some_iff :
    decodeTwo a b c = some bytes ↔
      ∃ x y : UInt8, bytes = [x, y] ∧ a = char (x.toNat / 4) ∧
        b = char (x.toNat % 4 * 16 + y.toNat / 16) ∧ c = char (y.toNat % 16 * 4) := by
  unfold decodeTwo
  constructor
  · intro h
    split at h
    · next n m k hn hm hk =>
      split at h
      · next hzero =>
        obtain ⟨hn, ha⟩ := value?_eq_some_iff.mp hn
        obtain ⟨hm, hb⟩ := value?_eq_some_iff.mp hm
        obtain ⟨hk, hc⟩ := value?_eq_some_iff.mp hk
        have hfirst := toNat_first hn hm
        have hsecond := toNat_second (m := m) hk
        refine ⟨_, _, (Option.some.inj h).symm, ?_, ?_, ?_⟩
        · rw [hfirst.1, ha]
        · rw [hfirst.2, hsecond.1, hb, Nat.div_add_mod']
        · rw [hsecond.2, hc, Nat.div_mul_cancel (Nat.dvd_of_mod_eq_zero hzero)]
      · cases h
    · cases h
  · rintro ⟨x, y, rfl, rfl, rfl, rfl⟩
    have hx := x.toNat_lt
    have hy := y.toNat_lt
    rw [value?_char (by omega), value?_char (by omega), value?_char (by omega)]
    simp only
    rw [if_pos (by omega), ofNat_first x (by omega)]
    exact congrArg (fun y => some [x, y]) (ofNat_second y (Nat.zero_lt_succ 3))

/-- Four characters are three bytes. -/
theorem decodeThree_eq_some_iff :
    decodeThree a b c d = some bytes ↔
      ∃ x y z : UInt8, bytes = [x, y, z] ∧ a = char (x.toNat / 4) ∧
        b = char (x.toNat % 4 * 16 + y.toNat / 16) ∧ c = char (y.toNat % 16 * 4 + z.toNat / 64) ∧
        d = char (z.toNat % 64) := by
  unfold decodeThree
  constructor
  · intro h
    split at h
    · next n m k l hn hm hk hl =>
      obtain ⟨hn, ha⟩ := value?_eq_some_iff.mp hn
      obtain ⟨hm, hb⟩ := value?_eq_some_iff.mp hm
      obtain ⟨hk, hc⟩ := value?_eq_some_iff.mp hk
      obtain ⟨hl, hd⟩ := value?_eq_some_iff.mp hl
      have hfirst := toNat_first hn hm
      have hsecond := toNat_second (m := m) hk
      have hthird := toNat_third (k := k) hl
      refine ⟨_, _, _, (Option.some.inj h).symm, ?_, ?_, ?_, ?_⟩
      · rw [hfirst.1, ha]
      · rw [hfirst.2, hsecond.1, hb, Nat.div_add_mod']
      · rw [hsecond.2, hthird.1, hc, Nat.div_add_mod']
      · rw [hthird.2, hd]
    · cases h
  · rintro ⟨x, y, z, rfl, rfl, rfl, rfl, rfl⟩
    have hx := x.toNat_lt
    have hy := y.toNat_lt
    have hz := z.toNat_lt
    rw [value?_char (by omega), value?_char (by omega), value?_char (by omega),
      value?_char (by omega)]
    simp only
    rw [ofNat_first x (by omega), ofNat_second y (by omega), ofNat_third]

end Groups

/-! ## Round trip -/

/-- What was encoded is decoded. -/
theorem decode_encode (bytes : List UInt8) : decode (encode bytes) = some bytes := by
  fun_induction encode bytes with
  | case1 => rfl
  | case2 x =>
    rw [decode, if_pos ⟨rfl, rfl, rfl⟩]
    exact decodeOne_eq_some_iff.mpr ⟨x, rfl, rfl, rfl⟩
  | case3 x y =>
    have hpad : char (y.toNat % 16 * 4) ≠ '=' := char_ne_pad (by omega)
    rw [decode, if_neg (fun h => hpad h.2.1), if_pos ⟨rfl, rfl⟩]
    exact decodeTwo_eq_some_iff.mpr ⟨x, y, rfl, rfl, rfl, rfl⟩
  | case4 x y z rest ih =>
    have hpad : char (z.toNat % 64) ≠ '=' := char_ne_pad (by omega)
    rw [decode, if_neg (fun h => hpad h.2.2), if_neg (fun h => hpad h.2), ih,
      decodeThree_eq_some_iff.mpr ⟨x, y, z, rfl, rfl, rfl, rfl, rfl⟩]
    rfl

/-- The decoder accepts a text exactly if it is the encoding of what it decodes to. -/
theorem decode_eq_some_iff {text : List Char} {bytes : List UInt8} :
    decode text = some bytes ↔ text = encode bytes := by
  constructor
  · intro h
    fun_induction decode text generalizing bytes with
    | case1 => rw [← Option.some.inj h]; rfl
    | case2 a b c d rest hlast =>
      obtain ⟨rfl, rfl, rfl⟩ := hlast
      obtain ⟨x, rfl, rfl, rfl⟩ := decodeOne_eq_some_iff.mp h
      rfl
    | case3 a b c d rest _ hlast =>
      obtain ⟨rfl, rfl⟩ := hlast
      obtain ⟨x, y, rfl, rfl, rfl, rfl⟩ := decodeTwo_eq_some_iff.mp h
      rfl
    | case4 a b c d rest _ _ group more hrest hgroup ih =>
      obtain ⟨x, y, z, rfl, rfl, rfl, rfl, rfl⟩ := decodeThree_eq_some_iff.mp hgroup
      rw [ih hrest, ← Option.some.inj h]
      rfl
    | case5 => cases h
    | case6 => cases h
  · intro h
    rw [h]
    exact decode_encode bytes

end Base64
