import Minip2p.Identity.Varint
import Minip2p.Lib.Records
import Mathlib.Data.Nat.Log
import Mathlib.Data.Nat.Bitwise
import Mathlib.Tactic.Ring

/-!
# What the varint reader does with what the writer wrote

`readUvarint` gives back the value that `writeUvarint` wrote, whatever follows it, waits on every
strict part of it, and does not change a verdict other than `bufferTooShort` when more bytes come.
What it accepts is what the writer writes.
-/

namespace Minip2p

/-! ## A verdict is final -/

/-- A verdict other than that there is too little is final. -/
theorem readUvarintGo_error_append {idx : Nat} {value shift : UInt64} {input : Bytes}
    {e : VarintError} (h : readUvarintGo idx value shift input = .error e)
    (he : e ≠ .bufferTooShort) (more : Bytes) :
    readUvarintGo idx value shift (input ++ more) = .error e := by
  induction input generalizing idx value shift with
  | nil =>
    rw [readUvarintGo] at h
    exact absurd (Except.error.inj h).symm he
  | cons byte rest ih =>
    simp only [List.cons_append, readUvarintGo] at h ⊢
    split at h
    · next hlong => rw [if_pos hlong]; exact h
    next hlong =>
    rw [if_neg hlong]
    split at h
    · next hover => rw [if_pos hover]; exact h
    next hover =>
    rw [if_neg hover]
    split at h
    · next hlast => rw [if_pos hlast]; exact h
    next hlast =>
    rw [if_neg hlast]
    exact ih h

/-- A reader that has found an error finds the same one when more bytes come. -/
theorem readUvarint_error_append {input : Bytes} {e : VarintError}
    (h : readUvarint input = .error e) (he : e ≠ .bufferTooShort) (more : Bytes) :
    readUvarint (input ++ more) = .error e :=
  readUvarintGo_error_append h he more

/-! ## Seven bits at a time -/

theorem toNat_shiftRight_seven (value : UInt64) : (value >>> 7).toNat = value.toNat / 128 := by
  rw [UInt64.toNat_shiftRight]
  show value.toNat >>> 7 = _
  rw [Nat.shiftRight_eq_div_pow]

/-- The byte that carries the low group of `value`. -/
theorem lowGroup_eq (value : UInt64) :
    (value &&& 0x7f).toUInt8 = UInt8.ofNat (value.toNat % 128) := by
  apply UInt8.toNat_inj.mp
  rw [UInt64.toNat_toUInt8, UInt64.toNat_and, UInt8.toNat_ofNat']
  show (value.toNat &&& (2 ^ 7 - 1)) % 2 ^ 8 = _
  rw [Nat.and_two_pow_sub_one_eq_mod]

/-- A byte of a varint: seven bits of payload and the continuation bit. -/
theorem group_bits : ∀ group : Fin 128,
    UInt8.ofNat group.val &&& 0x80 = 0 ∧
    (UInt8.ofNat group.val ||| 0x80) &&& 0x80 ≠ 0 ∧
    (UInt8.ofNat group.val &&& 0x7f).toUInt64 = UInt64.ofNat group.val ∧
    ((UInt8.ofNat group.val ||| 0x80) &&& 0x7f).toUInt64 = UInt64.ofNat group.val := by
  decide

/-- The number of bytes of a value between two powers of 128. -/
theorem uvarintLenGo_eq {fuel n : Nat} {value : UInt64} (hfuel : n ≤ fuel)
    (hlow : n = 0 ∨ 128 ^ n ≤ value.toNat) (hhigh : value.toNat < 128 ^ (n + 1)) :
    uvarintLenGo fuel value = n + 1 := by
  induction n generalizing fuel value with
  | zero =>
    cases fuel with
    | zero => rfl
    | succ fuel =>
      have hsmall : ¬ value ≥ 0x80 := by
        show ¬ (128 : UInt64) ≤ value
        rw [UInt64.le_iff_toNat_le]
        show ¬ 128 ≤ value.toNat
        omega
      rw [uvarintLenGo, if_neg hsmall]
  | succ n ih =>
    cases fuel with
    | zero => omega
    | succ fuel =>
      have hlow : 128 ^ (n + 1) ≤ value.toNat := by omega
      have hge : 128 ≤ value.toNat := by
        have := Nat.one_le_pow n 128 (by decide)
        rw [pow_succ] at hlow
        omega
      have hbig : value ≥ 0x80 := by
        show (128 : UInt64) ≤ value
        rw [UInt64.le_iff_toNat_le]
        exact hge
      rw [uvarintLenGo, if_pos hbig]
      -- the groups above the low one lie between the powers one below
      have hnext : uvarintLenGo fuel (value >>> 7) = n + 1 := by
        apply ih (by omega)
        · right
          rw [toNat_shiftRight_seven, Nat.le_div_iff_mul_le (by decide), ← pow_succ]
          exact hlow
        · rw [toNat_shiftRight_seven, Nat.div_lt_iff_lt_mul (by decide), ← pow_succ]
          exact hhigh
      rw [hnext]

/-- Adding the group at `shift` to a value that ends below it. -/
theorem or_shift_toNat {idx group : Nat} {value shift : UInt64} (hshift : shift.toNat = 7 * idx)
    (hidx : idx < 10) (hvalue : value.toNat < 128 ^ idx) (hgroup : group < 128)
    (hfits : group * 128 ^ idx < 2 ^ 64) :
    (value ||| (UInt64.ofNat group <<< shift)).toNat = value.toNat + group * 128 ^ idx := by
  have hpow : 128 ^ idx = 2 ^ (7 * idx) := by
    rw [show (128 : Nat) = 2 ^ 7 from rfl, ← pow_mul]
  rw [UInt64.toNat_or, UInt64.toNat_shiftLeft, UInt64.toNat_ofNat', hshift,
    Nat.mod_eq_of_lt (show group < 2 ^ 64 by omega), Nat.mod_eq_of_lt (show 7 * idx < 64 by omega),
    Nat.shiftLeft_eq, ← hpow, Nat.mod_eq_of_lt hfits, Nat.or_comm, hpow, mul_comm group]
  rw [hpow] at hvalue
  rw [← Nat.two_pow_add_eq_or_of_lt hvalue]
  omega

/-- The shift of the next group. -/
theorem shift_next {idx : Nat} {shift : UInt64} (hshift : shift.toNat = 7 * idx) (hidx : idx < 10) :
    (shift + 7).toNat = 7 * (idx + 1) := by
  rw [UInt64.toNat_add, hshift]
  show (7 * idx + 7) % 2 ^ 64 = _
  omega

/-- With its group the value ends below the next one. -/
theorem or_shift_lt {idx group : Nat} {value shift : UInt64} (hshift : shift.toNat = 7 * idx)
    (hidx : idx < 10) (hvalue : value.toNat < 128 ^ idx) (hgroup : group < 128)
    (hfits : group * 128 ^ idx < 2 ^ 64) :
    (value ||| (UInt64.ofNat group <<< shift)).toNat < 128 ^ (idx + 1) := by
  have hle : group * 128 ^ idx ≤ 127 * 128 ^ idx := Nat.mul_le_mul_right _ (by omega)
  rw [or_shift_toNat hshift hidx hvalue hgroup hfits, pow_succ]
  omega

/-! ## Round trip -/

theorem writeUvarintGo_succ (fuel : Nat) (value : UInt64) :
    writeUvarintGo (fuel + 1) value =
      if value.toNat < 128 then [UInt8.ofNat (value.toNat % 128)]
      else (UInt8.ofNat (value.toNat % 128) ||| 0x80) :: writeUvarintGo fuel (value >>> 7) := by
  have hzero : value >>> 7 = 0 ↔ value.toNat < 128 := by
    rw [← UInt64.toNat_inj, toNat_shiftRight_seven]
    show value.toNat / 128 = 0 ↔ _
    omega
  simp only [writeUvarintGo, lowGroup_eq, ne_eq, hzero, ite_not]

/-- What the reader has read and what the writer has still to write are one value. -/
structure Halfway (idx : Nat) (acc shift value : UInt64) : Prop where
  shift_eq : shift.toNat = 7 * idx
  idx_lt : idx < 10
  acc_lt : acc.toNat < 128 ^ idx
  fits : value.toNat * 128 ^ idx < 2 ^ 64
  nonzero : idx = 0 ∨ value.toNat ≠ 0

namespace Halfway

variable {idx : Nat} {acc shift value : UInt64}

/-- At the start nothing is read. -/
theorem start (value : UInt64) : Halfway 0 0 0 value where
  shift_eq := rfl
  idx_lt := by decide
  acc_lt := by decide
  fits := by
    have := value.toNat_lt
    omega
  nonzero := .inl rfl

/-- The next group fits 64 bits. -/
theorem lowGroup_fits (h : Halfway idx acc shift value) :
    value.toNat % 128 * 128 ^ idx < 2 ^ 64 := by
  calc value.toNat % 128 * 128 ^ idx
      ≤ value.toNat * 128 ^ idx := Nat.mul_le_mul_right _ (Nat.mod_le _ _)
    _ < 2 ^ 64 := h.fits

/-- The value once the reader has taken the group at `idx`. -/
theorem acc_toNat (h : Halfway idx acc shift value) :
    (acc ||| (UInt64.ofNat (value.toNat % 128) <<< shift)).toNat =
      acc.toNat + value.toNat % 128 * 128 ^ idx :=
  or_shift_toNat h.shift_eq h.idx_lt h.acc_lt (Nat.mod_lt _ (by decide)) h.lowGroup_fits

/-- The tenth byte has room for one bit only. -/
theorem small_of_ninth (h : Halfway idx acc shift value) (hidx : idx = 9) : value.toNat < 2 := by
  have := h.fits
  rw [hidx] at this
  omega

/-- One more group is read. -/
theorem next (h : Halfway idx acc shift value) (hmore : ¬ value.toNat < 128) :
    Halfway (idx + 1) (acc ||| (UInt64.ofNat (value.toNat % 128) <<< shift)) (shift + 7)
      (value >>> 7) where
  shift_eq := shift_next h.shift_eq h.idx_lt
  idx_lt := by
    have := h.small_of_ninth
    have := h.idx_lt
    omega
  acc_lt := or_shift_lt h.shift_eq h.idx_lt h.acc_lt (Nat.mod_lt _ (by decide)) h.lowGroup_fits
  fits := by
    rw [toNat_shiftRight_seven]
    calc value.toNat / 128 * 128 ^ (idx + 1)
        = value.toNat / 128 * 128 * 128 ^ idx := by ring
      _ ≤ value.toNat * 128 ^ idx := Nat.mul_le_mul_right _ (Nat.div_mul_le_self _ _)
      _ < 2 ^ 64 := h.fits
  nonzero := by
    rw [toNat_shiftRight_seven]
    omega

/-- The reader takes the last group and finds the encoding minimal. -/
theorem read_last (h : Halfway idx acc shift value) (hlast : value.toNat < 128) (rest : Bytes) :
    readUvarintGo idx acc shift (UInt8.ofNat (value.toNat % 128) :: rest) =
      .ok (UInt64.ofNat (acc.toNat + value.toNat * 128 ^ idx), idx + 1) := by
  obtain ⟨hbit, -, hlow, -⟩ := group_bits ⟨value.toNat % 128, Nat.mod_lt _ (by decide)⟩
  simp only at hbit hlow
  have hover : ¬ (idx = 9 ∧ (UInt8.ofNat (value.toNat % 128) &&& 0x80 ≠ 0 ∨
      UInt8.ofNat (value.toNat % 128) > 1)) := by
    rintro ⟨hidx, hbad | hbad⟩
    · exact hbad hbit
    · have := h.small_of_ninth hidx
      have hbad : (1 : UInt8).toNat < (UInt8.ofNat (value.toNat % 128)).toNat := hbad
      rw [UInt8.toNat_ofNat'] at hbad
      have : (1 : UInt8).toNat = 1 := rfl
      omega
  have hmod : value.toNat % 128 = value.toNat := Nat.mod_eq_of_lt hlast
  have hacc := h.acc_toNat
  rw [hmod] at hacc
  have hlt := h.acc_lt
  have hidx := h.idx_lt
  have htotal : acc ||| (UInt64.ofNat (value.toNat % 128) <<< shift) =
      UInt64.ofNat (acc.toNat + value.toNat * 128 ^ idx) := by
    apply UInt64.toNat_inj.mp
    rw [hmod, hacc, UInt64.toNat_ofNat', Nat.mod_eq_of_lt]
    rw [← hacc]
    exact UInt64.toNat_lt _
  -- the last group is not zero unless it is the only one, so no shorter encoding exists
  have hlen : idx + 1 = uvarintLen (acc ||| (UInt64.ofNat (value.toNat % 128) <<< shift)) := by
    symm
    rw [hmod]
    apply uvarintLenGo_eq (by omega)
    · rw [hacc]
      rcases h.nonzero with hzero | hpos
      · exact .inl hzero
      · right
        calc 128 ^ idx = 1 * 128 ^ idx := (one_mul _).symm
          _ ≤ value.toNat * 128 ^ idx := Nat.mul_le_mul_right _ (by omega)
          _ ≤ _ := Nat.le_add_left _ _
    · have hgroup : value.toNat * 128 ^ idx ≤ 127 * 128 ^ idx := Nat.mul_le_mul_right _ (by omega)
      rw [hacc, pow_succ]
      omega
  rw [readUvarintGo, if_neg (by omega), if_neg hover]
  simp only [hlow]
  rw [if_pos hbit, if_neg (by rw [← hlen]; exact fun hne => hne rfl), htotal]

/-- The reader takes a group that is not the last one. -/
theorem read_group (h : Halfway idx acc shift value) (hmore : ¬ value.toNat < 128) (rest : Bytes) :
    readUvarintGo idx acc shift ((UInt8.ofNat (value.toNat % 128) ||| 0x80) :: rest) =
      readUvarintGo (idx + 1) (acc ||| (UInt64.ofNat (value.toNat % 128) <<< shift)) (shift + 7)
        rest := by
  obtain ⟨-, hbit, -, hlow⟩ := group_bits ⟨value.toNat % 128, Nat.mod_lt _ (by decide)⟩
  simp only at hbit hlow
  have hidx := h.idx_lt
  have hover : idx ≠ 9 := by
    intro hidx
    have := h.small_of_ninth hidx
    omega
  rw [readUvarintGo, if_neg (by omega), if_neg (fun hbad => hover hbad.1)]
  simp only [hlow]
  rw [if_neg hbit]

end Halfway

/-- From halfway on the value is read to its end. -/
theorem readUvarintGo_writeUvarintGo {fuel idx : Nat} {acc shift value : UInt64}
    (h : Halfway idx acc shift value) (hfuel : idx + fuel = 10) (rest : Bytes) :
    readUvarintGo idx acc shift (writeUvarintGo fuel value ++ rest) =
      .ok (UInt64.ofNat (acc.toNat + value.toNat * 128 ^ idx),
        idx + (writeUvarintGo fuel value).length) := by
  induction fuel generalizing idx acc shift value with
  | zero =>
    have := h.idx_lt
    omega
  | succ fuel ih =>
    rw [writeUvarintGo_succ]
    by_cases hlast : value.toNat < 128
    · rw [if_pos hlast]
      exact h.read_last hlast rest
    · rw [if_neg hlast, List.cons_append, h.read_group hlast, ih (h.next hlast) (by omega),
        h.acc_toNat, toNat_shiftRight_seven, List.length_cons]
      -- the group just read and those after it make up the value
      have hsum : acc.toNat + value.toNat % 128 * 128 ^ idx +
          value.toNat / 128 * 128 ^ (idx + 1) = acc.toNat + value.toNat * 128 ^ idx := by
        calc acc.toNat + value.toNat % 128 * 128 ^ idx + value.toNat / 128 * 128 ^ (idx + 1)
            = acc.toNat + (value.toNat % 128 + 128 * (value.toNat / 128)) * 128 ^ idx := by ring
          _ = acc.toNat + value.toNat * 128 ^ idx := by rw [Nat.mod_add_div]
      rw [hsum]
      congr 2
      omega

/-- From halfway on a strict part waits. -/
theorem readUvarintGo_take_writeUvarintGo {fuel idx : Nat} {acc shift value : UInt64}
    (h : Halfway idx acc shift value) {n : Nat} (hn : n < (writeUvarintGo fuel value).length) :
    readUvarintGo idx acc shift ((writeUvarintGo fuel value).take n) =
      .error .bufferTooShort := by
  induction fuel generalizing idx acc shift value n with
  | zero =>
    rw [writeUvarintGo] at hn
    exact absurd hn (Nat.not_lt_zero _)
  | succ fuel ih =>
    cases n with
    | zero => rfl
    | succ n =>
      rw [writeUvarintGo_succ] at hn ⊢
      by_cases hlast : value.toNat < 128
      · rw [if_pos hlast, List.length_singleton] at hn
        omega
      · rw [if_neg hlast, List.length_cons] at hn
        rw [if_neg hlast, List.take_succ_cons, h.read_group hlast]
        exact ih (h.next hlast) (by omega)

/-- What was written is read back, whatever follows. -/
theorem readUvarint_writeUvarint_append (value : UInt64) (rest : Bytes) :
    readUvarint (writeUvarint value ++ rest) = .ok (value, (writeUvarint value).length) := by
  have hread := readUvarintGo_writeUvarintGo (Halfway.start value) (Nat.zero_add 10) rest
  rw [readUvarint, writeUvarint, hread]
  simp

/-- The reader waits for the rest of what was written. -/
theorem readUvarint_take_writeUvarint (value : UInt64) {n : Nat}
    (hn : n < (writeUvarint value).length) :
    readUvarint ((writeUvarint value).take n) = .error .bufferTooShort :=
  readUvarintGo_take_writeUvarintGo (Halfway.start value) hn

/-! ## The other direction: accepted encodings -/

/-- A byte is a group of seven bits, with or without the continuation bit. -/
theorem byte_group : ∀ byte : Fin 256,
    (UInt8.ofNat byte.val &&& 0x80 = 0 → byte.val < 128) ∧
    (UInt8.ofNat byte.val &&& 0x80 ≠ 0 →
      UInt8.ofNat byte.val = UInt8.ofNat (byte.val % 128) ||| 0x80) ∧
    (UInt8.ofNat byte.val &&& 0x7f).toUInt64 = UInt64.ofNat (byte.val % 128) := by
  decide +kernel

/-- The length of an encoding is the number of its groups. -/
theorem uvarintLen_eq (value : UInt64) : uvarintLen value = Nat.log 128 value.toNat + 1 := by
  have hlt := value.toNat_lt
  apply uvarintLenGo_eq
  · have hle : Nat.log 128 value.toNat < 10 := by
      apply Nat.log_lt_of_lt_pow' (by decide)
      omega
    omega
  · by_cases hzero : value.toNat = 0
    · left
      rw [hzero, Nat.log_zero_right]
    · exact .inr (Nat.pow_log_le_self _ hzero)
  · exact Nat.lt_pow_succ_log_self (by decide) _

/-- A group the reader takes fits above what it has read so far: the tenth byte is at most 1. -/
theorem group_fits {idx : Nat} {byte : UInt8} (hidx : idx < 10)
    (hover : ¬ (idx = 9 ∧ (byte &&& 0x80 ≠ 0 ∨ byte > 1))) :
    byte.toNat % 128 * 128 ^ idx < 2 ^ 64 := by
  by_cases hnine : idx = 9
  · have hsmall : ¬ byte > 1 := fun hgt => hover ⟨hnine, .inr hgt⟩
    have hone : byte.toNat ≤ 1 := UInt8.le_iff_toNat_le.mp (UInt8.not_lt.mp hsmall)
    rw [hnine]
    omega
  · have hpow : 128 ^ idx ≤ 128 ^ 8 := Nat.pow_le_pow_right (by decide) (by omega)
    calc byte.toNat % 128 * 128 ^ idx ≤ 127 * 128 ^ 8 := Nat.mul_le_mul (by omega) hpow
      _ < 2 ^ 64 := by decide

/-- The low groups of a value are what was read first, the next one is the group at `idx`. -/
theorem groups_of_mod {idx acc group value : Nat} (hacc : acc < 128 ^ idx)
    (h : value % 128 ^ (idx + 1) = acc + group * 128 ^ idx) :
    value % 128 ^ idx = acc ∧ value / 128 ^ idx % 128 = group := by
  have hpos : 0 < 128 ^ idx := Nat.pow_pos (by decide)
  rw [pow_succ] at h
  constructor
  · rw [← Nat.mod_mul_right_mod value (128 ^ idx) 128, h, Nat.add_mul_mod_self_right,
      Nat.mod_eq_of_lt hacc]
  · rw [← Nat.mod_mul_right_div_self, h, Nat.add_mul_div_right _ _ hpos,
      Nat.div_eq_of_lt hacc, Nat.zero_add]

theorem toNat_ofNat_div (value : UInt64) (n : Nat) :
    (UInt64.ofNat (value.toNat / n)).toNat = value.toNat / n := by
  rw [UInt64.toNat_ofNat', Nat.mod_eq_of_lt]
  exact Nat.lt_of_le_of_lt (Nat.div_le_self _ _) value.toNat_lt

/-- What the reader accepted is what the writer writes for it, from any point of the loop on. -/
theorem readUvarintGo_canonical {idx n : Nat} {acc shift v : UInt64} {input : Bytes}
    (h : readUvarintGo idx acc shift input = .ok (v, n)) (hshift : shift.toNat = 7 * idx)
    (hacc : acc.toNat < 128 ^ idx) :
    n = uvarintLen v ∧ v.toNat % 128 ^ idx = acc.toNat ∧
      input.take (n - idx) =
        writeUvarintGo (10 - idx) (UInt64.ofNat (v.toNat / 128 ^ idx)) := by
  induction input generalizing idx acc shift with
  | nil => cases h
  | cons byte rest ih =>
    obtain ⟨hlast, hmore, hlow⟩ := byte_group ⟨byte.toNat, byte.toNat_lt⟩
    simp only [UInt8.ofNat_toNat] at hlast hmore hlow
    simp only [readUvarintGo, hlow] at h
    split at h
    · cases h
    next hidx =>
    split at h
    · cases h
    next hover =>
    have hgroup : byte.toNat % 128 < 128 := Nat.mod_lt _ (by decide)
    have hvalue := or_shift_toNat hshift (by omega) hacc hgroup (group_fits (by omega) hover)
    have hpos : 0 < 128 ^ idx := Nat.pow_pos (by decide)
    split at h
    · -- the last group
      next hbit =>
      split at h
      · cases h
      next hlen =>
      obtain ⟨rfl, rfl⟩ := Prod.mk.inj (Except.ok.inj h)
      have hmod : byte.toNat % 128 = byte.toNat := Nat.mod_eq_of_lt (hlast hbit)
      have hdiv : (acc.toNat + byte.toNat * 128 ^ idx) / 128 ^ idx = byte.toNat := by
        rw [Nat.add_mul_div_right _ _ hpos, Nat.div_eq_of_lt hacc, Nat.zero_add]
      have hnat : (UInt64.ofNat byte.toNat).toNat = byte.toNat := by
        rw [UInt64.toNat_ofNat', Nat.mod_eq_of_lt (by have := byte.toNat_lt; omega)]
      refine ⟨not_not.mp hlen, ?_, ?_⟩
      · rw [hvalue, Nat.add_mul_mod_self_right, Nat.mod_eq_of_lt hacc]
      · rw [hvalue, hmod, hdiv, show idx + 1 - idx = 1 by omega,
          show 10 - idx = 9 - idx + 1 by omega, writeUvarintGo_succ, hnat, if_pos (hlast hbit),
          hmod]
        simp
    · -- a group that others follow
      next hbit =>
      have hused := readUvarintGo_used h
      have hnine : idx ≠ 9 := fun hidx => hover ⟨hidx, .inl hbit⟩
      have hshift' := shift_next hshift (by omega)
      have hacc' := or_shift_lt hshift (by omega) hacc hgroup (group_fits (by omega) hover)
      obtain ⟨hlen, hlowv, htake⟩ := ih h hshift' hacc'
      rw [hvalue] at hlowv
      obtain ⟨hacceq, hgroupeq⟩ := groups_of_mod hacc hlowv
      -- the value goes on above this group, for its encoding is minimal
      have hbig : 128 ^ (idx + 1) ≤ v.toNat := by
        rw [uvarintLen_eq] at hlen
        refine Nat.pow_le_of_le_log ?_ (by omega)
        intro hzero
        rw [hzero, Nat.log_zero_right] at hlen
        omega
      have hgoes : ¬ v.toNat / 128 ^ idx < 128 := by
        rw [Nat.not_lt, Nat.le_div_iff_mul_le hpos, mul_comm, ← pow_succ]
        exact hbig
      have hnext : UInt64.ofNat (v.toNat / 128 ^ idx) >>> 7 =
          UInt64.ofNat (v.toNat / 128 ^ (idx + 1)) := by
        apply UInt64.toNat_inj.mp
        rw [toNat_shiftRight_seven, toNat_ofNat_div, toNat_ofNat_div, Nat.div_div_eq_div_mul,
          ← pow_succ]
      refine ⟨hlen, hacceq, ?_⟩
      rw [show n - idx = n - (idx + 1) + 1 by omega, List.take_succ_cons, htake,
        show 10 - idx = 10 - (idx + 1) + 1 by omega, writeUvarintGo_succ, toNat_ofNat_div,
        if_neg hgoes, hgroupeq, hnext, ← hmore hbit]

/-- An accepted encoding is the one the writer writes. -/
theorem readUvarint_canonical {input : Bytes} {v : UInt64} {n : Nat}
    (h : readUvarint input = .ok (v, n)) : input.take n = writeUvarint v := by
  obtain ⟨-, -, htake⟩ := readUvarintGo_canonical h rfl (by decide)
  rw [Nat.sub_zero, pow_zero, Nat.div_one, UInt64.ofNat_toNat] at htake
  exact htake

/-- A varint is read from its own bytes. -/
theorem readUvarint_take {input : Bytes} {v : UInt64} {used n : ℕ}
    (h : readUvarint input = .ok (v, used)) (hn : used ≤ n) :
    readUvarint (input.take n) = .ok (v, used) := by
  have hwhole : ∀ rest, readUvarint (input.take used ++ rest) =
      .ok (v, (writeUvarint v).length) := by
    rw [readUvarint_canonical h]
    exact readUvarint_writeUvarint_append v
  have hused : readUvarint input = .ok (v, (writeUvarint v).length) := by
    rw [← hwhole (input.drop used), List.take_append_drop]
  have hfront : (input.take n).take used = input.take used := by
    rw [List.take_take, Nat.min_eq_left hn]
  rw [← h, hused, ← hwhole ((input.take n).drop used), ← hfront, List.take_append_drop]

/-! ## The codec as a whole -/

/-- The reader counts the bytes that were written. -/
theorem length_writeUvarint (value : UInt64) : (writeUvarint value).length = uvarintLen value := by
  have hread := readUvarint_writeUvarint_append value []
  exact (readUvarintGo_canonical hread rfl (by decide)).1

/-- An encoding takes at most ten bytes. -/
theorem length_writeUvarint_le (value : UInt64) : (writeUvarint value).length ≤ 10 :=
  (readUvarint_used (readUvarint_writeUvarint_append value [])).2.2

/-- A varint is read where one stands. -/
theorem readUvarint_drop_iff {input : Bytes} {idx used : ℕ} {value : UInt64} :
    readUvarint (input.drop idx) = .ok (value, used) ↔
      Records.Spans input idx (writeUvarint value) (idx + used) := by
  constructor
  · intro h
    have hused := (readUvarint_used h).2.1
    rw [← readUvarint_canonical h]
    refine Records.spans_iff.mpr ⟨List.take_prefix _ _, ?_⟩
    rw [List.length_take, Nat.min_eq_left hused]
  · intro h
    have hused := Nat.add_left_cancel h.idx_eq
    rw [h.drop_eq, readUvarint_writeUvarint_append, hused]

/-- One `value |= low << shift` of the reader's loop: the operands before it. -/
structure Accumulation where
  value : UInt64
  shift : UInt64
  low : UInt64
deriving DecidableEq, Repr

namespace Accumulation

/-- The value after the step. -/
def result (a : Accumulation) : UInt64 := a.value ||| (a.low <<< a.shift)

/-- The shift is one a `u64` has, and neither it nor the accumulation loses a bit. -/
structure Fits (a : Accumulation) : Prop where
  shift_lt : a.shift.toNat < 64
  shifted_lt : a.low.toNat * 2 ^ a.shift.toNat < 2 ^ 64
  result_eq : a.result.toNat = a.value.toNat + a.low.toNat * 2 ^ a.shift.toNat

end Accumulation

/-- The accumulations `readUvarintGo` carries out from this point of its loop on, whether or not
the input is accepted in the end. -/
def accumulations (idx : Nat) (value shift : UInt64) : Bytes → List Accumulation
  | [] => []
  | byte :: rest =>
    if idx ≥ 10 then []
    else if idx = 9 ∧ (byte &&& 0x80 ≠ 0 ∨ byte > 1) then []
    else
      let step : Accumulation := ⟨value, shift, (byte &&& 0x7f).toUInt64⟩
      if byte &&& 0x80 = 0 then [step]
      else step :: accumulations (idx + 1) step.result (shift + 7) rest

/-- An accepted input takes one accumulation a byte, and the last of them gives its value. -/
theorem accumulations_of_readUvarintGo {idx n : Nat} {value shift v : UInt64} {input : Bytes}
    (h : readUvarintGo idx value shift input = .ok (v, n)) :
    idx + (accumulations idx value shift input).length = n ∧
      (accumulations idx value shift input).getLast?.map (·.result) = some v := by
  induction input generalizing idx value shift with
  | nil => cases h
  | cons byte rest ih =>
    rw [accumulations]
    simp only [readUvarintGo] at h
    split at h
    · cases h
    next hlong =>
    split at h
    · cases h
    next hover =>
    rw [if_neg hlong, if_neg hover]
    split at h
    · next hlast =>
      split at h
      · cases h
      · obtain ⟨rfl, rfl⟩ := Prod.mk.inj (Except.ok.inj h)
        simp only [if_pos hlast]
        exact ⟨rfl, rfl⟩
    · next hlast =>
      obtain ⟨hlen, hvalue⟩ := ih h
      simp only [if_neg hlast, List.length_cons, Accumulation.result]
      refine ⟨by omega, ?_⟩
      rw [List.getLast?_cons, ← hvalue]
      cases hgo : (accumulations (idx + 1) (value ||| (byte &&& 0x7f).toUInt64 <<< shift)
        (shift + 7) rest).getLast? with
      | none =>
        rw [hgo] at hvalue
        cases hvalue
      | some a => rfl

/-- Every group the loop takes lies above what it has read and below bit 64. -/
theorem accumulations_fit {idx : Nat} {value shift : UInt64} {input : Bytes}
    (hshift : shift.toNat = 7 * idx) (hvalue : value.toNat < 128 ^ idx) :
    ∀ a ∈ accumulations idx value shift input, a.Fits := by
  induction input generalizing idx value shift with
  | nil => exact fun _ h => absurd h List.not_mem_nil
  | cons byte rest ih =>
    obtain ⟨-, -, hlow⟩ := byte_group ⟨byte.toNat, byte.toNat_lt⟩
    simp only [UInt8.ofNat_toNat] at hlow
    rw [accumulations]
    split
    · exact fun _ h => absurd h List.not_mem_nil
    next hidx =>
    split
    · exact fun _ h => absurd h List.not_mem_nil
    next hover =>
    have hgroup : byte.toNat % 128 < 128 := Nat.mod_lt _ (by decide)
    have hfits := group_fits (by omega) hover
    have htotal := or_shift_toNat hshift (by omega) hvalue hgroup hfits
    have hpow : 2 ^ shift.toNat = 128 ^ idx := by
      rw [hshift, show (128 : Nat) = 2 ^ 7 from rfl, ← pow_mul]
    have hlowNat : (UInt64.ofNat (byte.toNat % 128)).toNat = byte.toNat % 128 := by
      rw [UInt64.toNat_ofNat', Nat.mod_eq_of_lt (by omega)]
    have hstep : (⟨value, shift, (byte &&& 0x7f).toUInt64⟩ : Accumulation).Fits := by
      rw [hlow]
      refine ⟨by show shift.toNat < 64; omega, ?_, ?_⟩
      · show (UInt64.ofNat _).toNat * 2 ^ shift.toNat < _
        rw [hlowNat, hpow]
        exact hfits
      · show (value ||| (UInt64.ofNat _ <<< shift)).toNat = value.toNat + (UInt64.ofNat _).toNat * _
        rw [htotal, hlowNat, hpow]
    simp only
    split
    · intro a ha
      rw [List.mem_singleton.mp ha]
      exact hstep
    · next hmore =>
      have hnine : idx ≠ 9 := fun hidx => hover ⟨hidx, .inl hmore⟩
      have hshift' := shift_next hshift (by omega)
      have hvalue' : (value ||| (byte &&& 0x7f).toUInt64 <<< shift).toNat < 128 ^ (idx + 1) := by
        rw [hlow]
        exact or_shift_lt hshift (by omega) hvalue hgroup hfits
      intro a ha
      rcases List.mem_cons.mp ha with rfl | ha
      · exact hstep
      · exact ih hshift' hvalue' a ha

/-- The codec is a bijection between `u64` and the accepted encodings, whatever follows them. Its
loop computes the value it accepts by one accumulation a byte, and stays within 64 bits on every
input. -/
theorem uvarint_codec_exact :
    (∀ (value : UInt64) (rest : Bytes),
      readUvarint (writeUvarint value ++ rest) = .ok (value, uvarintLen value) ∧
        uvarintLen value = (writeUvarint value).length) ∧
    (∀ (input : Bytes) (value : UInt64) (n : Nat), readUvarint input = .ok (value, n) →
      input.take n = writeUvarint value) ∧
    (∀ (input : Bytes) (value : UInt64) (n : Nat), readUvarint input = .ok (value, n) →
      (accumulations 0 0 0 input).length = n ∧
        (accumulations 0 0 0 input).getLast?.map (·.result) = some value) ∧
    ∀ (input : Bytes), ∀ a ∈ accumulations 0 0 0 input, a.Fits := by
  refine ⟨?_, ?_, ?_, ?_⟩
  · intro value rest
    rw [readUvarint_writeUvarint_append, length_writeUvarint]
    exact ⟨rfl, rfl⟩
  · intro input value n h
    exact readUvarint_canonical h
  · intro input value n h
    obtain ⟨hlength, hlast⟩ := accumulations_of_readUvarintGo h
    rw [Nat.zero_add] at hlength
    exact ⟨hlength, hlast⟩
  · intro input
    exact accumulations_fit rfl (by decide)

/-! ## Waiting for more bytes -/

/-- The byte 1 ends a varint of any length below ten groups. -/
theorem readUvarintGo_one {idx : Nat} {acc shift : UInt64} (hshift : shift.toNat = 7 * idx)
    (hidx : idx < 10) (hacc : acc.toNat < 128 ^ idx) :
    ∃ v, readUvarintGo idx acc shift [1] = .ok (v, idx + 1) := by
  have hfits : 1 * 128 ^ idx < 2 ^ 64 := by
    have hpow : 128 ^ idx ≤ 128 ^ 9 := Nat.pow_le_pow_right (by decide) (by omega)
    calc 1 * 128 ^ idx ≤ 1 * 128 ^ 9 := Nat.mul_le_mul_left _ hpow
      _ < 2 ^ 64 := by decide
  have hvalue := or_shift_toNat hshift hidx hacc (by decide) hfits
  have hlt := or_shift_lt hshift hidx hacc (by decide) hfits
  -- the group is not zero, so the value has no shorter encoding
  have hlog : Nat.log 128 (acc ||| (UInt64.ofNat 1 <<< shift)).toNat = idx := by
    apply Nat.log_eq_of_pow_le_of_lt_pow _ hlt
    omega
  have hlen : ¬ idx + 1 ≠ uvarintLen (acc ||| (UInt64.ofNat 1 <<< shift)) := by
    rw [uvarintLen_eq, hlog]
    exact fun hne => hne rfl
  have hover : ¬ (idx = 9 ∧ ((1 : UInt8) &&& 0x80 ≠ 0 ∨ (1 : UInt8) > 1)) := by
    intro hbad
    exact absurd hbad.2 (by decide)
  refine ⟨acc ||| (UInt64.ofNat 1 <<< shift), ?_⟩
  rw [readUvarintGo, if_neg (by omega), if_neg hover, if_pos (by decide)]
  exact if_neg hlen

/-- A reader that waits has read nothing that rules out an encoding: the byte 1 would complete
one. -/
theorem readUvarintGo_append_one {idx : Nat} {acc shift : UInt64} {input : Bytes}
    (h : readUvarintGo idx acc shift input = .error .bufferTooShort)
    (hshift : shift.toNat = 7 * idx) (hidx : idx < 10) (hacc : acc.toNat < 128 ^ idx) :
    ∃ v, readUvarintGo idx acc shift (input ++ [1]) = .ok (v, idx + input.length + 1) := by
  induction input generalizing idx acc shift with
  | nil => exact readUvarintGo_one hshift hidx hacc
  | cons byte rest ih =>
    obtain ⟨-, -, hlow⟩ := byte_group ⟨byte.toNat, byte.toNat_lt⟩
    simp only [UInt8.ofNat_toNat] at hlow
    simp only [readUvarintGo, hlow] at h
    split at h
    · cases h
    split at h
    · cases h
    next hover =>
    split at h
    · split at h
      · cases h
      · cases h
    next hmore =>
    -- only a tenth byte could be followed by an eleventh, and it has no continuation bit
    have hnine : idx ≠ 9 := fun hidx => hover ⟨hidx, .inl hmore⟩
    have hgroup : byte.toNat % 128 < 128 := Nat.mod_lt _ (by decide)
    have hacc' := or_shift_lt hshift hidx hacc hgroup (group_fits hidx hover)
    obtain ⟨v, hread⟩ := ih h (shift_next hshift hidx) (by omega) hacc'
    refine ⟨v, ?_⟩
    rw [List.cons_append, readUvarintGo, if_neg (by omega), if_neg hover]
    simp only [hlow]
    have hused : idx + 1 + rest.length + 1 = idx + (rest.length + 1) + 1 := by omega
    rw [if_neg hmore, hread, List.length_cons, hused]

/-- The reader waits exactly on the strict parts of what the writer writes. -/
theorem readUvarint_bufferTooShort_iff {input : Bytes} :
    readUvarint input = .error .bufferTooShort ↔
      ∃ v, input <+: writeUvarint v ∧ input ≠ writeUvarint v := by
  constructor
  · intro h
    obtain ⟨v, hread⟩ := readUvarintGo_append_one h rfl (by decide) (by decide)
    have hwhole : input ++ [1] = writeUvarint v := by
      rw [← readUvarint_canonical hread, List.take_of_length_le]
      rw [List.length_append, List.length_singleton]
      omega
    refine ⟨v, ?_, ?_⟩
    · rw [← hwhole]
      exact List.prefix_append input [1]
    · rw [← hwhole]
      exact fun heq => List.cons_ne_nil _ _ (List.append_right_eq_self.mp heq.symm)
  · intro ⟨v, hfront, hne⟩
    have hlt : input.length < (writeUvarint v).length := by
      apply Nat.lt_of_le_of_ne hfront.length_le
      exact fun hlen => hne (hfront.eq_of_length hlen)
    rw [List.prefix_iff_eq_take.mp hfront]
    exact readUvarint_take_writeUvarint v hlt

/-- The reader waits on the strict parts of encodings and on nothing else, and any other verdict
stands whatever bytes come after. -/
theorem readUvarint_streaming (input : Bytes) :
    (readUvarint input = .error .bufferTooShort ↔
      ∃ v, input <+: writeUvarint v ∧ input ≠ writeUvarint v) ∧
    (readUvarint input ≠ .error .bufferTooShort →
      ∀ more, readUvarint (input ++ more) = readUvarint input) := by
  refine ⟨readUvarint_bufferTooShort_iff, ?_⟩
  intro hdone more
  cases hread : readUvarint input with
  | ok r => exact readUvarint_append hread more
  | error e =>
    apply readUvarint_error_append hread
    intro he
    rw [he] at hread
    exact hdone hread

end Minip2p
