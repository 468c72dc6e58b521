import Minip2p.Lib.Radix

/-!
# Tags, lengths and contents

The distinguished encoding of a value is its tag, the length of its contents and the contents. A
length below 128 is one byte. A longer one is the count of its bytes, with the high bit set, and
then the bytes, most significant first and as few as possible. Here a length takes at most four
bytes, which is what a decoder with a 32-bit length type reads.

A length has one encoding, and nothing else starts like it (`readLength_eq_some_iff`), so that a
value is read back from its encoding and from nothing else (`readValue_eq_some_iff`).
-/

namespace Der

variable {n len : ℕ} {bytes rest contents : List UInt8} {tag : UInt8}

/-! ## Big-endian numbers -/

/-- The last `width` bytes of a number. -/
def octets (width n : ℕ) : List UInt8 := (Radix.fixed 256 width n).map UInt8.ofNat

/-- The number that is written in bytes. -/
def number (bytes : List UInt8) : ℕ := Radix.value 256 (bytes.map UInt8.toNat)

@[simp] theorem length_octets {width : ℕ} : (octets width n).length = width := by
  rw [octets, List.length_map, Radix.length_fixed]

theorem toNat_ofNat (h : n < 256) : (UInt8.ofNat n).toNat = n := UInt8.toNat_ofNat_of_lt h

theorem toNat_lt_of_mem (bytes : List UInt8) : ∀ d ∈ bytes.map UInt8.toNat, d < 256 := by
  intro d hd
  obtain ⟨byte, -, rfl⟩ := List.mem_map.mp hd
  exact byte.toNat_lt

/-- A number is below the power of the count of its bytes. -/
theorem number_lt (bytes : List UInt8) : number bytes < 256 ^ bytes.length := by
  have hlt := Radix.value_lt (by decide : 1 < 256) (toNat_lt_of_mem bytes)
  rwa [List.length_map] at hlt

/-- The number is read back, as far as the bytes go. -/
theorem number_octets (width n : ℕ) : number (octets width n) = n % 256 ^ width := by
  rw [number, octets, List.map_map, ← Radix.value_fixed]
  congr 1
  refine (List.map_congr_left fun d hd => ?_).trans (List.map_id _)
  exact toNat_ofNat (Radix.fixed_lt (by decide) n d hd)

/-- The bytes are read back. -/
theorem octets_number (bytes : List UInt8) : octets bytes.length (number bytes) = bytes := by
  have hfixed := Radix.fixed_value (by decide : 1 < 256) (toNat_lt_of_mem bytes)
  rw [List.length_map] at hfixed
  rw [octets, number, hfixed, List.map_map]
  refine (List.map_congr_left fun byte _ => ?_).trans (List.map_id _)
  exact UInt8.ofNat_toNat

/-! ## Lengths -/

/-- The count of bytes of a number below `2 ^ 32`. -/
def width (n : ℕ) : ℕ :=
  if n < 2 ^ 8 then 1 else if n < 2 ^ 16 then 2 else if n < 2 ^ 24 then 3 else 4

theorem width_pos (n : ℕ) : 0 < width n := by
  unfold width
  split_ifs <;> decide

/-- A 32-bit length takes at most four bytes. -/
theorem width_le (n : ℕ) : width n ≤ 4 := by
  unfold width
  split_ifs <;> decide

/-- The bytes of a length are enough. -/
theorem lt_pow_width (h : n < 2 ^ 32) : n < 256 ^ width n := by
  unfold width
  split_ifs <;> omega

/-- The bytes of a length. -/
def lengthOctets (n : ℕ) : List UInt8 :=
  if n < 128 then [UInt8.ofNat n] else UInt8.ofNat (128 + width n) :: octets (width n) n

/-- Reads a length, with what is behind it. -/
def readLength : List UInt8 → Option (ℕ × List UInt8)
  | [] => none
  | first :: rest =>
    if first.toNat < 128 then some (first.toNat, rest)
    else
      let count := first.toNat - 128
      if rest.length < count then none
      else
        let n := number (rest.take count)
        -- a shorter form would do, or there is no such length
        if n < 128 ∨ width n ≠ count then none
        else some (n, rest.drop count)

/-- How many bytes a length takes. -/
theorem length_lengthOctets (n : ℕ) :
    (lengthOctets n).length = if n < 128 then 1 else 1 + width n := by
  unfold lengthOctets
  split_ifs
  · rfl
  · rw [List.length_cons, length_octets, add_comm]

/-- A length is read back. -/
theorem readLength_lengthOctets (h : n < 2 ^ 32) (rest : List UInt8) :
    readLength (lengthOctets n ++ rest) = some (n, rest) := by
  unfold lengthOctets
  split
  · next hshort =>
    have hfirst : (UInt8.ofNat n).toNat = n := toNat_ofNat (by omega)
    rw [List.singleton_append, readLength, hfirst, if_pos hshort]
  · next hlong =>
    have hwidth := width_le n
    have hfirst : (UInt8.ofNat (128 + width n)).toNat = 128 + width n :=
      toNat_ofNat (by omega)
    have htake : (octets (width n) n ++ rest).take (width n) = octets (width n) n :=
      List.take_left' length_octets
    have hdrop : (octets (width n) n ++ rest).drop (width n) = rest :=
      List.drop_left' length_octets
    rw [List.cons_append, readLength, hfirst, if_neg (by omega), Nat.add_sub_cancel_left]
    simp only [htake, hdrop, number_octets, Nat.mod_eq_of_lt (lt_pow_width h)]
    rw [if_neg (by simp), if_neg (by simp [hlong])]

/-- A length is read from its bytes, and from nothing else. -/
theorem readLength_eq_some_iff :
    readLength bytes = some (n, rest) ↔ n < 2 ^ 32 ∧ bytes = lengthOctets n ++ rest := by
  constructor
  · intro h
    match bytes, h with
    | first :: after, h =>
      have hbyte : UInt8.ofNat first.toNat = first := UInt8.ofNat_toNat
      rw [readLength] at h
      split at h
      · next hshort =>
        obtain ⟨rfl, rfl⟩ := Prod.mk.inj (Option.some.inj h)
        rw [lengthOctets, if_pos hshort, hbyte]
        exact ⟨by omega, rfl⟩
      · next hlong =>
        simp only at h
        split at h
        · cases h
        next hlen =>
        split at h
        · cases h
        next hform =>
        obtain ⟨hn, hrest⟩ := Prod.mk.inj (Option.some.inj h)
        rw [hn] at hform
        push Not at hform
        obtain ⟨hn128, hwidth⟩ := hform
        have htake : (after.take (first.toNat - 128)).length = first.toNat - 128 := by
          rw [List.length_take]
          omega
        have hlt := number_lt (after.take (first.toNat - 128))
        rw [htake, hn, ← hwidth] at hlt
        have hle := width_le n
        refine ⟨lt_of_lt_of_le hlt (Nat.pow_le_pow_right (by decide) hle), ?_⟩
        have hoctets := octets_number (after.take (first.toNat - 128))
        rw [htake, hn] at hoctets
        have hfirst : 128 + width n = first.toNat := by omega
        rw [lengthOctets, if_neg (by omega), hfirst, hbyte, hwidth, hoctets, List.cons_append,
          ← hrest, List.take_append_drop]
  · rintro ⟨hn, rfl⟩
    exact readLength_lengthOctets hn rest

/-! ## Values -/

/-- The encoding of a value. -/
def encode (tag : UInt8) (contents : List UInt8) : List UInt8 :=
  tag :: (lengthOctets contents.length ++ contents)

/-- Reads the contents of a value with a tag, with what is behind it. -/
def readValue (tag : UInt8) : List UInt8 → Option (List UInt8 × List UInt8)
  | [] => none
  | first :: rest =>
    if first ≠ tag then none
    else
      match readLength rest with
      | none => none
      | some (n, rest) => if rest.length < n then none else some (rest.take n, rest.drop n)

/-- How many bytes a value takes. -/
theorem length_encode (tag : UInt8) (contents : List UInt8) : (encode tag contents).length =
    1 + (lengthOctets contents.length).length + contents.length := by
  rw [encode, List.length_cons, List.length_append]
  omega

/-- A value is read from its encoding, and from nothing else. -/
theorem readValue_eq_some_iff : readValue tag bytes = some (contents, rest) ↔
    contents.length < 2 ^ 32 ∧ bytes = encode tag contents ++ rest := by
  constructor
  · intro h
    match bytes, h with
    | first :: after, h =>
      rw [readValue] at h
      split at h
      · cases h
      next htag =>
      split at h
      · cases h
      next n behind hlength =>
      split at h
      · cases h
      next hroom =>
      obtain ⟨rfl, rfl⟩ := Prod.mk.inj (Option.some.inj h)
      obtain ⟨hn, rfl⟩ := readLength_eq_some_iff.mp hlength
      have htake : (behind.take n).length = n := by
        rw [List.length_take]
        omega
      rw [htake, encode, htake, of_not_not htag, List.cons_append, List.append_assoc,
        List.take_append_drop]
      exact ⟨hn, rfl⟩
  · rintro ⟨hlen, rfl⟩
    have hlength := readLength_lengthOctets hlen (contents ++ rest)
    rw [encode, List.cons_append, List.append_assoc, readValue, if_neg (by simp), hlength]
    simp

end Der
