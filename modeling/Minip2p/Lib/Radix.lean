import Mathlib.Data.Nat.Digits.Lemmas
import Mathlib.Tactic.Ring

/-!
# Numbers in positional notation

A digit string, most significant digit first, denotes a number (`value`). Two ways a program
changes the base of a string are developed here. `mulAdd` is one pass of big-number arithmetic
over little-endian digits: what it leaves are again the digits of a number (`mulAdd_digits`), so a
loop of passes carries `Nat.digits` as its invariant. `fixed` writes a number with a given count of
digits, leading zeros included, which is what a shift register emits that takes groups of bits of
one width and gives out groups of another.
-/

namespace Radix

variable {b m n d : ℕ} {ds : List ℕ}

/-! ## The number a string denotes -/

/-- The number with the given digits, the most significant first. -/
def value (b : ℕ) (ds : List ℕ) : ℕ := Nat.ofDigits b ds.reverse

@[simp] theorem value_nil : value b [] = 0 := rfl

/-- One more digit at the end. -/
theorem value_concat : value b (ds ++ [d]) = value b ds * b + d := by
  rw [value, List.reverse_append, List.reverse_singleton, List.singleton_append,
    Nat.ofDigits_cons, value, mul_comm, add_comm]

/-- One more digit at the front. -/
theorem value_cons : value b (d :: ds) = d * b ^ ds.length + value b ds := by
  rw [value, Nat.ofDigits_reverse_cons, value, add_comm, mul_comm]

/-- Some digits, and more. -/
theorem value_append {first rest : List ℕ} :
    value b (first ++ rest) = value b first * b ^ rest.length + value b rest := by
  rw [value, List.reverse_append, Nat.ofDigits_append, List.length_reverse, value, value,
    add_comm, mul_comm]

/-- A number is below the power of the count of its digits. -/
theorem value_lt (hb : 1 < b) (hds : ∀ d ∈ ds, d < b) : value b ds < b ^ ds.length := by
  have hlt := Nat.ofDigits_lt_base_pow_length hb (l := ds.reverse)
    (fun d hd => hds d (List.mem_reverse.mp hd))
  rw [List.length_reverse] at hlt
  exact hlt

/-- Strings of one length denote different numbers. -/
theorem value_inj (hb : 1 < b) {es : List ℕ} (hlen : ds.length = es.length)
    (hds : ∀ d ∈ ds, d < b) (hes : ∀ d ∈ es, d < b) (h : value b ds = value b es) : ds = es := by
  have hrev : ds.reverse = es.reverse := Nat.ofDigits_inj_of_len_eq hb
    (by rw [List.length_reverse, List.length_reverse, hlen])
    (fun d hd => hds d (List.mem_reverse.mp hd)) (fun d hd => hes d (List.mem_reverse.mp hd)) h
  exact List.reverse_injective hrev

/-- A string that does not start with zero has the digits of its number. -/
theorem digits_value (hb : 1 < b) (hds : ∀ d ∈ ds, d < b) (hhead : ∀ h : ds ≠ [], ds.head h ≠ 0) :
    Nat.digits b (value b ds) = ds.reverse := by
  apply Nat.digits_ofDigits b hb
  · intro d hd
    exact hds d (List.mem_reverse.mp hd)
  · intro h
    rw [List.getLast_reverse]
    exact hhead _

/-- A number is read back from its digits. -/
theorem value_digits : value b (Nat.digits b n).reverse = n := by
  rw [value, List.reverse_reverse, Nat.ofDigits_digits]

/-- The first digit of a number is not zero. -/
theorem digits_reverse_head (h : (Nat.digits b n).reverse = d :: ds) : d ≠ 0 := by
  have hdigits : Nat.digits b n = ds.reverse ++ [d] := by
    rw [← List.reverse_inj, h, List.reverse_append, List.reverse_reverse]
    rfl
  have hn : n ≠ 0 := by
    rintro rfl
    rw [Nat.digits_zero] at h
    cases h
  have hlast := Nat.getLast_digit_ne_zero b hn
  simp only [hdigits, List.getLast_append_singleton] at hlast
  exact hlast

/-- The number of a string that starts with a digit other than zero has as many digits. -/
theorem pow_le_value (hd : 0 < d) : b ^ ds.length ≤ value b (d :: ds) := by
  rw [value_cons]
  calc b ^ ds.length = 1 * b ^ ds.length := (one_mul _).symm
    _ ≤ d * b ^ ds.length := Nat.mul_le_mul_right _ hd
    _ ≤ _ := Nat.le_add_right _ _

/-- Digits that are written as different characters are read back. -/
theorem map_inj {α : Type} {char : ℕ → α} {es : List ℕ}
    (hchar : ∀ d < b, ∀ e < b, char d = char e → d = e) (hds : ∀ d ∈ ds, d < b)
    (hes : ∀ d ∈ es, d < b) (h : ds.map char = es.map char) : ds = es := by
  induction ds generalizing es with
  | nil => exact (List.map_eq_nil_iff.mp h.symm).symm
  | cons d ds ih =>
    cases es with
    | nil => cases h
    | cons e es =>
      obtain ⟨hd, hds⟩ := List.forall_mem_cons.mp hds
      obtain ⟨he, hes⟩ := List.forall_mem_cons.mp hes
      obtain ⟨hfirst, hrest⟩ := List.cons.inj h
      rw [hchar d hd e he hfirst, ih hds hes hrest]

/-! ## Multiplying and adding, digit by digit -/

/-- One pass over little-endian digits, which multiplies by `m` and adds `carry`; returns the carry
out of the last digit. -/
def mulAdd (b m : ℕ) : List ℕ → ℕ → List ℕ × ℕ
  | [], carry => ([], carry)
  | d :: ds, carry =>
    let acc := d * m + carry
    let (ds, carry) := mulAdd b m ds (acc / b)
    (acc % b :: ds, carry)

theorem mulAdd_nil {carry : ℕ} : mulAdd b m [] carry = ([], carry) := rfl

theorem mulAdd_cons {carry : ℕ} : mulAdd b m (d :: ds) carry =
    ((d * m + carry) % b :: (mulAdd b m ds ((d * m + carry) / b)).1,
      (mulAdd b m ds ((d * m + carry) / b)).2) := rfl

/-- The carry into the next digit stays below the factor. -/
theorem carry_lt {carry : ℕ} (hd : d < b) (hcarry : carry < m) : (d * m + carry) / b < m := by
  rw [Nat.div_lt_iff_lt_mul (by omega)]
  calc d * m + carry < d * m + m := by omega
    _ = (d + 1) * m := by ring
    _ ≤ b * m := Nat.mul_le_mul_right _ hd
    _ = m * b := mul_comm _ _

/-- The carry stays small. -/
theorem mulAdd_carry_lt {carry : ℕ} (hds : ∀ d ∈ ds, d < b) (hcarry : carry < m) :
    (mulAdd b m ds carry).2 < m := by
  induction ds generalizing carry with
  | nil => exact hcarry
  | cons d ds ih =>
    rw [mulAdd_cons]
    refine ih (fun e he => hds e (List.mem_cons_of_mem _ he)) ?_
    exact carry_lt (hds d List.mem_cons_self) hcarry

/-- A pass over the digits of a number, followed by the digits of the carry, gives the digits of
the new number. -/
theorem mulAdd_digits {carry : ℕ} (hb : 1 < b) (hcarry : carry < m) :
    (mulAdd b m (Nat.digits b n) carry).1 ++
      Nat.digits b (mulAdd b m (Nat.digits b n) carry).2 = Nat.digits b (n * m + carry) := by
  induction n using Nat.strongRecOn generalizing carry with
  | ind n ih =>
    rcases Nat.eq_zero_or_pos n with rfl | hn
    · rw [Nat.digits_zero, mulAdd_nil, zero_mul, zero_add, List.nil_append]
    · have hlt : n / b < n := Nat.div_lt_self hn hb
      have hmod : n % b < b := Nat.mod_lt _ (by omega)
      have hsum : n * m + carry = b * (n / b * m) + (n % b * m + carry) := by
        calc n * m + carry = (b * (n / b) + n % b) * m + carry := by rw [Nat.div_add_mod]
          _ = b * (n / b * m) + (n % b * m + carry) := by ring
      have hpos : 0 < n * m + carry := by
        have : 0 < n * m := Nat.mul_pos hn (by omega)
        omega
      rw [Nat.digits_def' hb hn, mulAdd_cons, List.cons_append, ih _ hlt (carry_lt hmod hcarry),
        Nat.digits_def' hb hpos]
      congr 1
      · rw [hsum, Nat.mul_add_mod]
      · rw [hsum, Nat.mul_add_div (by omega)]

/-! ## A given count of digits -/

/-- The last `n` digits of `v`, the most significant first. -/
def fixed (b : ℕ) : ℕ → ℕ → List ℕ
  | 0, _ => []
  | n + 1, v => fixed b n (v / b) ++ [v % b]

@[simp] theorem length_fixed (v : ℕ) : (fixed b n v).length = n := by
  induction n generalizing v with
  | zero => rfl
  | succ n ih => rw [fixed, List.length_append, ih, List.length_singleton]

/-- The digits are digits. -/
theorem fixed_lt (hb : 0 < b) (v : ℕ) : ∀ d ∈ fixed b n v, d < b := by
  induction n generalizing v with
  | zero => exact fun _ h => absurd h List.not_mem_nil
  | succ n ih =>
    intro d hd
    rcases List.mem_append.mp hd with hd | hd
    · exact ih _ d hd
    · rw [List.mem_singleton.mp hd]
      exact Nat.mod_lt _ hb

/-- The number is read back, as far as the digits go. -/
theorem value_fixed (v : ℕ) : value b (fixed b n v) = v % b ^ n := by
  induction n generalizing v with
  | zero => rw [fixed, value_nil, pow_zero, Nat.mod_one]
  | succ n ih =>
    rw [fixed, value_concat, ih, pow_succ', Nat.mod_mul, mul_comm, add_comm]

/-- Digits are those of their number. -/
theorem fixed_value (hb : 1 < b) (hds : ∀ d ∈ ds, d < b) : fixed b ds.length (value b ds) = ds := by
  apply value_inj hb (length_fixed _) (fixed_lt (by omega) _) hds
  rw [value_fixed, Nat.mod_eq_of_lt (value_lt hb hds)]

/-- The first digits of a number are what is left of it when the others are divided off. -/
theorem prefix_digits_iff (hb : 1 < b) {ps : List ℕ} (hps : ∀ d ∈ ps, d < b) (hne : ps ≠ [])
    (hhead : ps.head hne ≠ 0) :
    ps <+: (Nat.digits b n).reverse ↔ ∃ k, n / b ^ k = value b ps := by
  constructor
  · rintro ⟨rest, hrest⟩
    have hlt : value b rest < b ^ rest.length := by
      apply value_lt hb
      intro d hd
      apply Nat.digits_lt_base (m := n) hb
      rw [← List.mem_reverse, ← hrest]
      exact List.mem_append_right _ hd
    have hn : n = value b ps * b ^ rest.length + value b rest := by
      rw [← value_append, hrest, value_digits]
    refine ⟨rest.length, ?_⟩
    rw [hn, mul_comm, Nat.mul_add_div (Nat.pow_pos (by omega)), Nat.div_eq_of_lt hlt, add_zero]
  · rintro ⟨k, hk⟩
    have hvalue : value b (ps ++ fixed b k n) = n := by
      rw [value_append, length_fixed, value_fixed, ← hk, mul_comm, Nat.div_add_mod]
    have hdigits : Nat.digits b n = (ps ++ fixed b k n).reverse := by
      rw [← digits_value hb _ _, hvalue]
      · intro d hd
        rcases List.mem_append.mp hd with hd | hd
        · exact hps d hd
        · exact fixed_lt (by omega) n d hd
      · intro _
        rw [List.head_append_of_ne_nil hne]
        exact hhead
    rw [hdigits, List.reverse_reverse]
    exact List.prefix_append _ _

/-! ## Shift registers

A register of `w` bits holds the last bits of the number shifted into it. -/

variable {a j v w bits : ℕ}

/-- What is shifted out does not show in the register. -/
theorem shift_in (ha : a ≤ w) (hd : d < 2 ^ a) :
    (v % 2 ^ w) <<< a % 2 ^ w ||| d = (v * 2 ^ a + d) % 2 ^ w := by
  obtain ⟨c, rfl⟩ := Nat.exists_eq_add_of_le ha
  have hmod : ∀ u, u * 2 ^ a % 2 ^ (a + c) = u % 2 ^ c * 2 ^ a := by
    intro u
    rw [pow_add, mul_comm u, Nat.mul_mod_mul_left, mul_comm]
  have hdiv : (v * 2 ^ a + d) / 2 ^ a = v := by
    rw [mul_comm v, Nat.mul_add_div (Nat.two_pow_pos a), Nat.div_eq_of_lt hd, add_zero]
  have hlow : (v * 2 ^ a + d) % 2 ^ (a + c) = v % 2 ^ c * 2 ^ a + d := by
    rw [pow_add, Nat.mod_mul, Nat.mul_add_mod_of_lt hd, hdiv]
    ring
  rw [Nat.shiftLeft_eq, hmod, hlow, Nat.mod_mod_of_dvd _ (Nat.pow_dvd_pow 2 (Nat.le_add_left c a)),
    mul_comm, Nat.two_pow_add_eq_or_of_lt hd]

/-- The register still has the group of `a` bits above its last `j`. -/
theorem shift_out (h : j + a ≤ w) : v % 2 ^ w / 2 ^ j % 2 ^ a = v / 2 ^ j % 2 ^ a := by
  obtain ⟨c, rfl⟩ := Nat.exists_eq_add_of_le h
  rw [show 2 ^ (j + a + c) = 2 ^ j * 2 ^ (a + c) by rw [add_assoc, pow_add],
    Nat.mod_mul_right_div_self, Nat.mod_mod_of_dvd _ (Nat.pow_dvd_pow 2 (Nat.le_add_right a c))]

/-- Giving out the next group of `a` bits. -/
theorem fixed_shift (h : a ≤ bits) :
    fixed (2 ^ a) (n + 1) (v / 2 ^ (bits - a)) =
      fixed (2 ^ a) n (v / 2 ^ bits) ++ [v / 2 ^ (bits - a) % 2 ^ a] := by
  rw [fixed, Nat.div_div_eq_div_mul, ← pow_add, Nat.sub_add_cancel h]

end Radix
