/-!
# Decimal numerals

Numbers of a bounded width written in decimal. A sign is allowed in front where the number's type
has one; a plus sign is always allowed.
-/

namespace BurnAfterRead.Text

/-- The value of a text of decimal digits. -/
def digitsValue (cs : List Char) : Nat := Nat.ofDigitChars 10 cs 0

/-- Reads one or more decimal digits. -/
def readDigits (cs : List Char) : Option Nat :=
  if cs ≠ [] ∧ cs.all Char.isDigit then some (digitsValue cs) else none

/-- Reads a numeral of at most `limit`; a plus sign may stand in front. -/
def readUpTo (limit : Nat) (cs : List Char) : Option Nat :=
  let body := match cs with
    | '+' :: rest => rest
    | _ => cs
  (readDigits body).filter (· ≤ limit)

/-- The largest number of 16 bits. -/
def maxUInt16 : Nat := UInt16.size - 1

/-- The largest number of 32 bits. -/
def maxUInt32 : Nat := UInt32.size - 1

/-- The largest number of 64 bits. -/
def maxUInt64 : Nat := UInt64.size - 1

/-- The largest signed number of 64 bits. -/
def maxInt64 : Nat := UInt64.size / 2 - 1

/-- The decimal digits of a number. -/
def decimal (n : Nat) : List Char := Nat.toDigits 10 n

/-- The decimal digits of a number, with zeros in front up to `width` digits. -/
def padded (width n : Nat) : List Char :=
  let ds := decimal n
  List.replicate (width - ds.length) '0' ++ ds

/-- Reads a truth value: exactly `true` or `false`. -/
def readBool : List Char → Option Bool
  | ['t', 'r', 'u', 'e'] => some true
  | ['f', 'a', 'l', 's', 'e'] => some false
  | _ => none

theorem decimal_ne_nil (n : Nat) : decimal n ≠ [] := by
  simp [decimal]

theorem readDigits_decimal (n : Nat) : readDigits (decimal n) = some n := by
  have h : (decimal n).all Char.isDigit := by
    rw [List.all_eq_true]
    exact fun c hc => Nat.isDigit_of_mem_toDigits (by decide) (by decide) hc
  simp only [readDigits, ne_eq, decimal_ne_nil, not_false_eq_true, h, and_self, if_true]
  simp [digitsValue, decimal, Nat.ofDigitChars_toDigits]

theorem readDigits_eq_some_iff {cs : List Char} {n : Nat} :
    readDigits cs = some n ↔ cs ≠ [] ∧ (∀ c ∈ cs, c.isDigit = true) ∧ digitsValue cs = n := by
  rw [← List.all_eq_true]
  unfold readDigits
  split
  · rename_i h
    simp [h.1, h.2]
  · rename_i h
    simp only [reduceCtorEq, false_iff]
    exact fun hdigits => h ⟨hdigits.1, hdigits.2.1⟩

/-- The spellings of a number: decimal digits, with zeros in front or not, and a plus sign or not. -/
def IsNumeral (n : Nat) (cs : List Char) : Prop :=
  ∃ digits, (cs = digits ∨ cs = '+' :: digits) ∧ digits ≠ [] ∧ (∀ c ∈ digits, c.isDigit = true) ∧
    digitsValue digits = n

theorem isNumeral_decimal (n : Nat) : IsNumeral n (decimal n) :=
  ⟨decimal n, Or.inl rfl, readDigits_eq_some_iff.1 (readDigits_decimal n)⟩

theorem readUpTo_eq_some_iff {limit n : Nat} {cs : List Char} :
    readUpTo limit cs = some n ↔ IsNumeral n cs ∧ n ≤ limit := by
  unfold readUpTo
  dsimp only
  rw [Option.filter_eq_some_iff, decide_eq_true_iff, readDigits_eq_some_iff]
  refine and_congr_left fun _ => ⟨fun h => ?_, fun ⟨digits, hform, hdigits⟩ => ?_⟩
  · split at h
    · exact ⟨_, Or.inr rfl, h⟩
    · exact ⟨_, Or.inl rfl, h⟩
  · obtain rfl | rfl := hform
    · split
      · exact absurd (hdigits.2.1 '+' List.mem_cons_self) (by decide)
      · exact hdigits
    · exact hdigits

theorem readBool_eq_some_iff {cs : List Char} {b : Bool} :
    readBool cs = some b ↔ cs = (if b then "true" else "false").toList := by
  unfold readBool
  split
  · cases b <;> simp
  · cases b <;> simp
  · rename_i htrue hfalse
    cases b with
    | true => exact iff_of_false (by simp) htrue
    | false => exact iff_of_false (by simp) hfalse

theorem IsNumeral.isDigit_or_eq {n : Nat} {cs : List Char} (h : IsNumeral n cs) {c : Char}
    (hc : c ∈ cs) : c.isDigit = true ∨ c = '+' := by
  obtain ⟨digits, rfl | rfl, -, hdigits, -⟩ := h
  · exact Or.inl (hdigits c hc)
  · obtain rfl | hc := List.mem_cons.1 hc
    · exact Or.inr rfl
    · exact Or.inl (hdigits c hc)

end BurnAfterRead.Text
