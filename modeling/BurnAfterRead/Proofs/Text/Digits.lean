import BurnAfterRead.Text.Blank
import BurnAfterRead.Text.Numeral

/-!
# Digits of a fixed width

The decimal digits of a number, exactly as many as asked for. Padded numerals are of this kind as
long as the number fits, and this form goes digit by digit, which the numeral's own does not: a
digit more is a tenth of the number with its last digit behind. So reading digits back, and the
order of texts that begin with digits, both follow by induction on the width.
-/

namespace BurnAfterRead.Text

/-- The last `width` decimal digits of a number. -/
def fixed : Nat → Nat → List Char
  | 0, _ => []
  | width + 1, n => fixed width (n / 10) ++ [Nat.digitChar (n % 10)]

theorem length_fixed (width n : Nat) : (fixed width n).length = width := by
  induction width generalizing n with
  | zero => rfl
  | succ width ih => rw [fixed, List.length_append, ih, List.length_singleton]

theorem fixed_zero (width : Nat) : fixed width 0 = List.replicate width '0' := by
  induction width with
  | zero => rfl
  | succ width ih =>
    rw [fixed, Nat.zero_div, ih, List.replicate_succ']
    rfl

theorem padded_of_lt {width n : Nat} (h : n < 10) : padded (width + 1) n = fixed (width + 1) n := by
  rw [fixed, Nat.div_eq_of_lt h, Nat.mod_eq_of_lt h, fixed_zero]
  unfold padded decimal
  rw [Nat.toDigits_of_lt_base h]
  simp

theorem padded_of_le {width n : Nat} (h : 10 ≤ n) :
    padded (width + 1) n = padded width (n / 10) ++ [Nat.digitChar (n % 10)] := by
  unfold padded decimal
  dsimp only
  rw [Nat.toDigits_of_base_le (by decide) h, List.length_append, List.length_singleton,
    Nat.add_sub_add_right, List.append_assoc]

theorem padded_eq_fixed {width n : Nat} (hwidth : 0 < width) (h : n < Nat.pow 10 width) :
    padded width n = fixed width n := by
  induction width generalizing n with
  | zero => omega
  | succ width ih =>
    by_cases hn : n < 10
    · exact padded_of_lt hn
    · have hpos : 0 < width := by
        rcases Nat.eq_zero_or_pos width with rfl | hpos
        · exact absurd h hn
        · exact hpos
      have hdiv : n / 10 < Nat.pow 10 width := by
        change n < Nat.pow 10 width * 10 at h
        omega
      rw [padded_of_le (by omega), ih hpos hdiv, fixed]

theorem isDigit_of_mem_decimal {n : Nat} {c : Char} (h : c ∈ decimal n) : c.isDigit = true :=
  Nat.isDigit_of_mem_toDigits (by decide) (by decide) h

theorem isDigit_of_mem_padded {width n : Nat} {c : Char} (h : c ∈ padded width n) :
    c.isDigit = true := by
  rcases List.mem_append.1 h with h | h
  · rw [(List.mem_replicate.1 h).2]
    decide
  · exact isDigit_of_mem_decimal h

theorem padded_ne_nil (width n : Nat) : padded width n ≠ [] := by
  unfold padded
  simp [decimal_ne_nil]

theorem digitsValue_padded (width n : Nat) : digitsValue (padded width n) = n := by
  unfold digitsValue padded decimal
  dsimp only
  rw [Nat.ofDigitChars_append, Nat.ofDigitChars_replicate_zero, Nat.mul_zero,
    Nat.ofDigitChars_toDigits (by decide) (by decide)]

theorem length_padded {width n : Nat} (hwidth : 0 < width) (h : n < Nat.pow 10 width) :
    (padded width n).length = width := by
  rw [padded_eq_fixed hwidth h, length_fixed]

theorem digitChar_lt {a b : Nat} (h : a < b) (hb : b < 10) : Nat.digitChar a < Nat.digitChar b := by
  rw [Char.lt_def, UInt32.lt_iff_toNat_lt]
  change (Nat.digitChar a).toNat < (Nat.digitChar b).toNat
  rw [Nat.toNat_digitChar_of_lt_ten (by omega), Nat.toNat_digitChar_of_lt_ten hb]
  omega

theorem append_lt_append_left (p : List Char) {x y : List Char} (h : x < y) : p ++ x < p ++ y := by
  induction p with
  | nil => exact h
  | cons c p ih => exact List.cons_lt_cons_iff.2 (Or.inr ⟨rfl, ih⟩)

/-- Texts that begin with digits are ordered by the numbers that they begin with. -/
theorem fixed_append_lt {width a b : Nat} (hab : a < b) (hb : b < Nat.pow 10 width) (x y : List Char) :
    fixed width a ++ x < fixed width b ++ y := by
  induction width generalizing a b x y with
  | zero =>
    change b < 1 at hb
    omega
  | succ width ih =>
    simp only [fixed, List.append_assoc, List.singleton_append]
    rcases Nat.lt_or_eq_of_le (Nat.div_le_div_right (c := 10) (Nat.le_of_lt hab)) with hdiv | hdiv
    · refine ih hdiv ?_ _ _
      change b < Nat.pow 10 width * 10 at hb
      omega
    · rw [hdiv]
      refine append_lt_append_left _ (List.cons_lt_cons_iff.2 (Or.inl ?_))
      exact digitChar_lt (by omega) (Nat.mod_lt b (by decide))

theorem padded_append_lt (width : Nat) {a b : Nat} (hwidth : 0 < width) (hab : a < b)
    (hb : b < Nat.pow 10 width) (x y : List Char) : padded width a ++ x < padded width b ++ y := by
  rw [padded_eq_fixed hwidth (Nat.lt_trans hab hb), padded_eq_fixed hwidth hb]
  exact fixed_append_lt hab hb x y

theorem isBlank_of_isDigit {c : Char} (h : c.isDigit = true) : isBlank c = false := by
  simp only [Char.isDigit, Bool.and_eq_true, decide_eq_true_eq, ge_iff_le, UInt32.le_iff_toNat_le] at h
  have hlow : 48 ≤ c.toNat := h.1
  have hhigh : c.toNat ≤ 57 := h.2
  simp only [isBlank, Bool.or_eq_false_iff, Bool.and_eq_false_iff, decide_eq_false_iff_not,
    beq_eq_false_iff_ne, ne_eq]
  omega

/-- The first digit of a number is that of its tenth, so only zero begins with a zero. -/
theorem head?_decimal_ne_zero {n : Nat} (h : 0 < n) : (decimal n).head? ≠ some '0' := by
  unfold decimal
  induction n using Nat.strongRecOn with
  | _ n ih =>
    by_cases hn : n < 10
    · intro hzero
      rw [Nat.toDigits_of_lt_base hn] at hzero
      have hvalue := Nat.toNat_digitChar_of_lt_ten hn
      rw [Option.some.inj hzero] at hvalue
      change 48 = 48 + n at hvalue
      omega
    · have htenth := ih (n / 10) (by omega) (by omega)
      rw [Nat.toDigits_of_base_le (by decide) (by omega)]
      cases hdigits : Nat.toDigits 10 (n / 10) with
      | nil => exact absurd hdigits (decimal_ne_nil (n / 10))
      | cons c cs =>
        rw [hdigits] at htenth
        exact htenth

end BurnAfterRead.Text
