import BurnAfterRead.Time.Calendar

/-!
# Days and dates

Every day has one date, and dates follow each other as days do. The year of a day is the one whose
first day is not after it and whose successor's is; within a year, months are found by walking
through their lengths, which never goes past the twelfth.
-/

namespace BurnAfterRead.Calendar

/-- The number of days of a year. -/
def daysInYear (year : Int) : Nat := if isLeap year then 366 else 365

theorem daysBeforeYear_succ (year : Int) :
    daysBeforeYear (year + 1) = daysBeforeYear year + daysInYear year := by
  unfold daysBeforeYear daysInYear isLeap
  have e : year + 1 - 1 = year := by omega
  rw [e]
  by_cases h4 : year % 4 = 0 <;> by_cases h100 : year % 100 = 0 <;> by_cases h400 : year % 400 = 0 <;>
    simp only [h4, h100, h400, decide_true, decide_false, ne_eq, not_true_eq_false,
      not_false_eq_true, Bool.true_and, Bool.false_and, Bool.or_true, Bool.or_false, if_true,
      Bool.false_eq_true, if_false] <;>
    omega

theorem daysBeforeYear_mono {a b : Int} (h : a ≤ b) : daysBeforeYear a ≤ daysBeforeYear b := by
  unfold daysBeforeYear
  dsimp only
  omega

/-- The year of a day begins no later than the day, and the next one later. -/
theorem yearOfDay_spec (day : Int) :
    daysBeforeYear (yearOfDay day) ≤ day ∧ day < daysBeforeYear (yearOfDay day + 1) := by
  unfold yearOfDay
  dsimp only
  have hlow : daysBeforeYear (400 * (day + 719162) / 146097 + 1 - 1) ≤ day := by
    unfold daysBeforeYear
    dsimp only
    omega
  have hhigh : day < daysBeforeYear (400 * (day + 719162) / 146097 + 1 + 1 + 1) := by
    unfold daysBeforeYear
    dsimp only
    omega
  generalize 400 * (day + 719162) / 146097 + 1 = guess at hlow hhigh
  split
  · rename_i h
    rw [Int.sub_add_cancel]
    exact ⟨hlow, h⟩
  · split
    · rename_i h
      exact ⟨h, hhigh⟩
    · omega

theorem sum_monthLengths (year : Int) : (monthLengths (isLeap year)).foldr (· + ·) 0 = daysInYear year := by
  unfold daysInYear
  cases isLeap year <;> rfl

theorem length_monthLengths (leap : Bool) : (monthLengths leap).length = 12 := rfl

/-- The walk through the months stops within one, and counts the days of those before it. -/
theorem monthOfDay_spec {lengths : List Nat} {day : Nat} (h : day < lengths.foldr (· + ·) 0) :
    (monthOfDay lengths day).1 < lengths.length ∧
      (monthOfDay lengths day).2 < lengths.getD (monthOfDay lengths day).1 0 ∧
      (lengths.take (monthOfDay lengths day).1).foldr (· + ·) 0 + (monthOfDay lengths day).2 = day := by
  induction lengths generalizing day with
  | nil => simp at h
  | cons length rest ih =>
    rw [monthOfDay]
    split
    · rename_i hlt
      exact ⟨by simp, by simpa using hlt, by simp⟩
    · rename_i hge
      rw [List.foldr_cons] at h
      obtain ⟨hmonth, hday, hsum⟩ := ih (show day - length < rest.foldr (· + ·) 0 by omega)
      refine ⟨?_, ?_, ?_⟩
      · rw [List.length_cons]
        exact Nat.succ_lt_succ hmonth
      · simpa using hday
      · simp only [List.take_succ_cons, List.foldr_cons]
        omega

theorem dayOfYear_lt (day : Int) :
    (day - daysBeforeYear (yearOfDay day)).toNat <
      (monthLengths (isLeap (yearOfDay day))).foldr (· + ·) 0 := by
  obtain ⟨hlow, hhigh⟩ := yearOfDay_spec day
  rw [daysBeforeYear_succ] at hhigh
  rw [sum_monthLengths]
  omega

/-- The date of a day exists. -/
theorem isValid_dateOfDay (day : Int) : (dateOfDay day).isValid = true := by
  obtain ⟨hmonth, hday, -⟩ := monthOfDay_spec (dayOfYear_lt day)
  rw [length_monthLengths] at hmonth
  unfold Date.isValid dateOfDay daysInMonth
  simp only [Bool.and_eq_true, decide_eq_true_eq]
  rw [if_neg (by omega), Nat.add_sub_cancel]
  omega

/-- The date of a day is the date of that day. -/
theorem toDay_dateOfDay (day : Int) : (dateOfDay day).toDay = day := by
  obtain ⟨-, -, hsum⟩ := monthOfDay_spec (dayOfYear_lt day)
  obtain ⟨hlow, -⟩ := yearOfDay_spec day
  unfold Date.toDay dateOfDay
  simp only [Nat.add_sub_cancel]
  omega

theorem dateOfDay_month_le (day : Int) : (dateOfDay day).month ≤ 12 := by
  have h := isValid_dateOfDay day
  simp only [Date.isValid, Bool.and_eq_true, decide_eq_true_eq] at h
  omega

theorem daysInMonth_le (year : Int) (month : Nat) : daysInMonth year month ≤ 31 := by
  unfold daysInMonth
  split
  · exact Nat.zero_le _
  · rw [List.getD_eq_getElem?_getD]
    generalize month - 1 = i
    cases isLeap year <;>
      match i with
      | 0 | 1 | 2 | 3 | 4 | 5 | 6 | 7 | 8 | 9 | 10 | 11 => decide
      | i + 12 => simp [monthLengths]

theorem dateOfDay_day_le (day : Int) : (dateOfDay day).day ≤ 31 := by
  have h := isValid_dateOfDay day
  simp only [Date.isValid, Bool.and_eq_true, decide_eq_true_eq] at h
  exact Nat.le_trans h.2 (daysInMonth_le _ _)

/-- A date comes before another by its year, its month or its day of the month. -/
def Date.Before (a b : Date) : Prop :=
  a.year < b.year ∨ a.year = b.year ∧ (a.month < b.month ∨ a.month = b.month ∧ a.day < b.day)

theorem yearOfDay_mono {a b : Int} (h : a ≤ b) : yearOfDay a ≤ yearOfDay b := by
  obtain ⟨hlow, -⟩ := yearOfDay_spec a
  obtain ⟨-, hhigh⟩ := yearOfDay_spec b
  by_cases hyear : yearOfDay a ≤ yearOfDay b
  · exact hyear
  · have := daysBeforeYear_mono (show yearOfDay b + 1 ≤ yearOfDay a by omega)
    omega

theorem monthOfDay_lt (lengths : List Nat) {a b : Nat} (h : a < b) :
    (monthOfDay lengths a).1 < (monthOfDay lengths b).1 ∨
      (monthOfDay lengths a).1 = (monthOfDay lengths b).1 ∧
        (monthOfDay lengths a).2 < (monthOfDay lengths b).2 := by
  induction lengths generalizing a b with
  | nil => exact Or.inr ⟨rfl, h⟩
  | cons length rest ih =>
    rw [monthOfDay, monthOfDay]
    by_cases ha : a < length
    · rw [if_pos ha]
      by_cases hb : b < length
      · rw [if_pos hb]
        exact Or.inr ⟨rfl, h⟩
      · rw [if_neg hb]
        exact Or.inl (Nat.succ_pos _)
    · rw [if_neg ha, if_neg (by omega)]
      rcases ih (a := a - length) (b := b - length) (by omega) with hlt | ⟨heq, hlt⟩
      · exact Or.inl (Nat.succ_lt_succ hlt)
      · exact Or.inr ⟨congrArg (· + 1) heq, hlt⟩

/-- Dates follow each other as days do. -/
theorem dateOfDay_before {a b : Int} (h : a < b) : (dateOfDay a).Before (dateOfDay b) := by
  rcases Int.lt_or_eq_of_le (yearOfDay_mono (Int.le_of_lt h)) with hyear | hyear
  · exact Or.inl hyear
  · obtain ⟨hlow, -⟩ := yearOfDay_spec a
    refine Or.inr ⟨hyear, ?_⟩
    unfold dateOfDay
    dsimp only
    rw [hyear] at hlow ⊢
    rcases monthOfDay_lt (monthLengths (isLeap (yearOfDay b)))
      (show (a - daysBeforeYear (yearOfDay b)).toNat < (b - daysBeforeYear (yearOfDay b)).toNat by omega)
      with hlt | ⟨heq, hlt⟩
    · exact Or.inl (Nat.succ_lt_succ hlt)
    · exact Or.inr ⟨congrArg (· + 1) heq, Nat.succ_lt_succ hlt⟩

end BurnAfterRead.Calendar
