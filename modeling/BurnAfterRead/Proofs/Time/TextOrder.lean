import BurnAfterRead.Proofs.Time.Timestamp

/-!
# The order of timestamps as texts

Within the years 0 to 9999, column timestamps have their digits in the same places, so they are
ordered as the seconds that they tell, leap seconds included. A sign comes before every digit: a year
before 0 is ordered as it should be, a year after 9999 is not.
-/

namespace BurnAfterRead

/-- The year that an instant lies in. -/
def Instant.year (t : Instant) : Int := Calendar.yearOfDay (t.seconds / 86400)

namespace Timestamp

open Calendar Text

theorem cons_lt (c : Char) {x y : List Char} (h : x < y) : c :: x < c :: y :=
  List.cons_lt_cons_iff.2 (Or.inr ⟨rfl, h⟩)

/-- Two digits that come first decide, unless they are the same. -/
theorem two_digits_lt {a b : Nat} {x y : List Char} (hb : b < 100)
    (h : a < b ∨ a = b ∧ x < y) : padded 2 a ++ x < padded 2 b ++ y := by
  rcases h with h | ⟨rfl, h⟩
  · exact padded_append_lt 2 (by decide) h hb x y
  · exact append_lt_append_left _ h

theorem dateText_lt {a b : Date} (h : a.Before b) (ha : 0 ≤ a.year ∧ a.year ≤ 9999)
    (hb : 0 ≤ b.year ∧ b.year ≤ 9999) (hmonth : b.month ≤ 12) (hday : b.day ≤ 31) (x y : List Char) :
    dateText a ++ x < dateText b ++ y := by
  unfold dateText yearText
  rw [if_pos ha, if_pos hb]
  simp only [List.append_assoc, List.cons_append]
  rcases h with h | ⟨hyear, h⟩
  · exact padded_append_lt 4 (by decide) (by omega) (show b.year.toNat < 10000 by omega) _ _
  · rw [hyear]
    refine append_lt_append_left _ (cons_lt _ (two_digits_lt (by omega) ?_))
    refine h.imp_right fun ⟨hmonth, h⟩ => ⟨hmonth, cons_lt _ ?_⟩
    exact two_digits_lt (by omega) (Or.inl h)

/-- A second of the day that comes before another is written before it; a leap second is written after
all others of its minute. -/
theorem clockText_lt {a b : Nat} {leap leap' : Bool} (h : a < b) (hb : b < 86400)
    (hleap : leap = true → a % 60 = 59) (x y : List Char) :
    clockText a leap ++ x < clockText b leap' ++ y := by
  unfold clockText
  simp only [List.append_assoc, List.cons_append]
  refine two_digits_lt (by omega) ?_
  by_cases hhour : a / 3600 < b / 3600
  · exact Or.inl hhour
  refine Or.inr ⟨by omega, cons_lt _ (two_digits_lt (by omega) ?_)⟩
  by_cases hminute : a / 60 % 60 < b / 60 % 60
  · exact Or.inl hminute
  have hsecond : b % 60 + (if leap' then 1 else 0) < 100 := by
    split <;> omega
  refine Or.inr ⟨by omega, cons_lt _ (two_digits_lt hsecond (Or.inl ?_))⟩
  cases leap with
  | false =>
    rw [if_neg (by simp)]
    split <;> omega
  | true =>
    have := hleap rfl
    omega

theorem leap_lt {a : Nat} (h : a % 60 = 59) (x y : List Char) :
    clockText a false ++ x < clockText a true ++ y := by
  unfold clockText
  simp only [List.append_assoc, List.cons_append]
  refine append_lt_append_left _ (cons_lt _ (append_lt_append_left _ (cons_lt _ ?_)))
  simp only [Bool.false_eq_true, if_false, if_true]
  exact two_digits_lt (by omega) (Or.inl (by omega))

theorem write_column (t : Instant) : write .column t = dateText (dateOfDay (t.seconds / 86400)) ++
    ' ' :: (clockText t.secondOfDay.toNat t.isLeapSecond ++ fractionText (t.nanos % 1000000000)) := by
  simp only [write, TimestampStyle.column, List.append_nil, List.append_assoc, List.cons_append]

theorem write_lt {a b : Instant} (hseconds : a.seconds < b.seconds)
    (ha : 1000000000 ≤ a.nanos → a.seconds % 60 = 59) (hayear : 0 ≤ a.year ∧ a.year ≤ 9999)
    (hbyear : 0 ≤ b.year ∧ b.year ≤ 9999) : write .column a < write .column b := by
  rw [write_column, write_column]
  by_cases hday : a.seconds / 86400 < b.seconds / 86400
  · exact dateText_lt (dateOfDay_before hday) hayear hbyear (dateOfDay_month_le _)
      (dateOfDay_day_le _) _ _
  · have hsame : a.seconds / 86400 = b.seconds / 86400 := by omega
    rw [hsame]
    refine append_lt_append_left _ (cons_lt _ (clockText_lt ?_ ?_ ?_ _ _))
    · unfold Instant.secondOfDay
      omega
    · unfold Instant.secondOfDay
      omega
    · unfold Instant.isLeapSecond Instant.secondOfDay
      intro h
      have := ha (of_decide_eq_true h)
      omega

theorem sign_lt {year : Int} (h : ¬ (0 ≤ year ∧ year ≤ 9999)) (n : Nat) (x y : List Char) :
    yearText year ++ x < padded 4 n ++ y := by
  have hsign : ∃ c cs, yearText year = c :: cs ∧ c.toNat < 48 := by
    unfold yearText
    rw [if_neg h]
    split
    · exact ⟨'-', _, rfl, by decide⟩
    · exact ⟨'+', _, rfl, by decide⟩
  obtain ⟨c, cs, hc, hlt⟩ := hsign
  cases hd : padded 4 n with
  | nil => exact absurd hd (padded_ne_nil 4 n)
  | cons d ds =>
    have hdigit : d.isDigit = true := isDigit_of_mem_padded (by rw [hd]; exact List.mem_cons_self)
    rw [hc]
    refine List.cons_lt_cons_iff.2 (Or.inl ?_)
    simp only [Char.isDigit, Bool.and_eq_true, decide_eq_true_eq, ge_iff_le,
      UInt32.le_iff_toNat_le] at hdigit
    have hlow : 48 ≤ d.toNat := hdigit.1
    rw [Char.lt_def, UInt32.lt_iff_toNat_lt]
    change c.toNat < d.toNat
    omega

theorem write_lt_of_signed {a b : Instant} (ha : ¬ (0 ≤ a.year ∧ a.year ≤ 9999))
    (hb : 0 ≤ b.year ∧ b.year ≤ 9999) : write .column a < write .column b := by
  rw [write_column, write_column]
  unfold dateText
  have hyear : yearText (dateOfDay (b.seconds / 86400)).year = padded 4 b.year.toNat := if_pos hb
  rw [hyear]
  simp only [List.append_assoc, List.cons_append]
  exact sign_lt ha _ _ _

/-- As texts, the timestamps before a second of the years 0 to 9999 are those of earlier seconds, and
those of years after 9999. -/
theorem write_lt_second_iff {t now : Instant} (h : t.WellFormed) (hnow : 0 ≤ now.year ∧ now.year ≤ 9999) :
    write .column t < write .column ⟨now.seconds, 0⟩ ↔ t.seconds < now.seconds ∨ 9999 < t.year := by
  obtain ⟨-, -, hleap⟩ := h
  by_cases hrange : 0 ≤ t.year ∧ t.year ≤ 9999
  · rcases Int.lt_trichotomy t.seconds now.seconds with hlt | heq | hgt
    · exact ⟨fun _ => Or.inl hlt, fun _ => write_lt hlt hleap hrange hnow⟩
    · -- The same second: the text is that of the second, of its leap second, or goes on with a fraction.
      have hnot : ¬ write .column t < write .column ⟨now.seconds, 0⟩ := by
        rw [write_column, write_column]
        dsimp only
        rw [← heq]
        have hzero : (⟨t.seconds, 0⟩ : Instant).isLeapSecond = false := rfl
        have hclock : (⟨t.seconds, 0⟩ : Instant).secondOfDay.toNat = t.secondOfDay.toNat := rfl
        rw [hzero, hclock]
        have hfraction : fractionText (0 % 1000000000) = [] := rfl
        rw [hfraction]
        cases hl : t.isLeapSecond with
        | true =>
          refine List.lt_asymm (append_lt_append_left _ (cons_lt _ (leap_lt ?_ _ _)))
          have := hleap (of_decide_eq_true hl)
          unfold Instant.secondOfDay
          omega
        | false =>
          cases fractionText (t.nanos % 1000000000) with
          | nil => exact List.lt_irrefl _
          | cons c cs =>
            refine List.lt_asymm (append_lt_append_left _ (cons_lt _ (append_lt_append_left _ ?_)))
            exact List.nil_lt_cons c cs
      exact ⟨fun h => absurd h hnot, fun h => by omega⟩
    · have hnot : ¬ write .column t < write .column ⟨now.seconds, 0⟩ :=
        List.lt_asymm (write_lt hgt (fun h => absurd h (by simp)) hnow hrange)
      exact ⟨fun h => absurd h hnot, fun h => by omega⟩
  · refine ⟨fun _ => ?_, fun _ => write_lt_of_signed hrange hnow⟩
    by_cases hlt : t.seconds < now.seconds
    · exact Or.inl hlt
    · have hmono : now.year ≤ t.year := yearOfDay_mono (show now.seconds / 86400 ≤ t.seconds / 86400 by omega)
      exact Or.inr (by omega)

end Timestamp

end BurnAfterRead
