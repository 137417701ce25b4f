import BurnAfterRead.Proofs.Text.Digits
import BurnAfterRead.Proofs.Time.Calendar
import BurnAfterRead.Time.Timestamp

/-!
# Timestamps are read as they were written

Each reader takes off the front what the writer of the same part has put there, whatever follows. So
the reader of a whole timestamp gives the instant back, in either style and over the whole range of
years, leap seconds included.
-/

namespace BurnAfterRead

/-- An instant in range that has the nanoseconds of a second, or those of a leap second, which is the
last of its minute. -/
structure Instant.WellFormed (t : Instant) : Prop where
  inRange : t.inRange = true
  nanos : t.nanos < 2000000000
  leap : 1000000000 ≤ t.nanos → t.seconds % 60 = 59

instance (t : Instant) : Decidable t.WellFormed :=
  decidable_of_iff (t.inRange = true ∧ t.nanos < 2000000000 ∧
    (1000000000 ≤ t.nanos → t.seconds % 60 = 59))
    ⟨fun ⟨inRange, nanos, leap⟩ => ⟨inRange, nanos, leap⟩, fun h => ⟨h.inRange, h.nanos, h.leap⟩⟩

theorem Instant.inRange_iff {t : Instant} :
    t.inRange = true ↔ -8334601228800 ≤ t.seconds ∧ t.seconds ≤ 8210266876799 := by
  unfold inRange
  rw [Bool.and_eq_true, decide_eq_true_iff, decide_eq_true_iff]
  rfl

namespace Timestamp

open Calendar

theorem trimStart_padded (width n : Nat) (rest : List Char) :
    Text.trimStart (Text.padded width n ++ rest) = Text.padded width n ++ rest := by
  cases h : Text.padded width n with
  | nil => exact absurd h (Text.padded_ne_nil width n)
  | cons c cs =>
    have hc : c ∈ Text.padded width n := by rw [h]; exact List.mem_cons_self
    exact Text.trimStart_of_not_blank (Text.isBlank_of_isDigit (Text.isDigit_of_mem_padded hc))

theorem takeWhile_padded (width n : Nat) :
    (Text.padded width n).takeWhile Char.isDigit = Text.padded width n := by
  have h : (Text.padded width n ++ []).takeWhile Char.isDigit =
      Text.padded width n ++ [].takeWhile Char.isDigit :=
    List.takeWhile_append_of_pos fun _ h => Text.isDigit_of_mem_padded h
  rwa [List.append_nil, List.takeWhile_nil, List.append_nil] at h

theorem takeWhile_padded_append (width n : Nat) {c : Char} (hc : c.isDigit = false) (rest : List Char) :
    (Text.padded width n ++ c :: rest).takeWhile Char.isDigit = Text.padded width n := by
  rw [List.takeWhile_append_of_pos fun _ h => Text.isDigit_of_mem_padded h,
    List.takeWhile_cons_of_neg (by simp [hc]), List.append_nil]

theorem readNumber?_padded {width n : Nat} (hwidth : 0 < width) (h : n < Nat.pow 10 width)
    (rest : List Char) : readNumber? width (Text.padded width n ++ rest) = some (n, rest) := by
  have hlen := Text.length_padded hwidth h
  unfold readNumber?
  dsimp only
  rw [trimStart_padded, List.take_left' hlen, takeWhile_padded,
    if_neg (Text.padded_ne_nil width n), Text.digitsValue_padded, List.drop_left' rfl]

theorem readMark?_self {c : Char} (hc : Text.isBlank c = false) (rest : List Char) :
    readMark? c (c :: rest) = some rest := by
  unfold readMark?
  rw [Text.trimStart_of_not_blank hc]
  simp

theorem readYear?_minus (cs : List Char) : readYear? ('-' :: cs) =
    if cs.takeWhile Char.isDigit = [] then none
    else some (-(Text.digitsValue (cs.takeWhile Char.isDigit) : Int),
      cs.drop (cs.takeWhile Char.isDigit).length) := rfl

theorem readYear?_plus (cs : List Char) : readYear? ('+' :: cs) =
    if cs.takeWhile Char.isDigit = [] then none
    else some ((Text.digitsValue (cs.takeWhile Char.isDigit) : Int),
      cs.drop (cs.takeWhile Char.isDigit).length) := rfl

theorem readYear?_yearText (year : Int) (rest : List Char) :
    readYear? (yearText year ++ '-' :: rest) = some (year, '-' :: rest) := by
  have signed : ∀ n, (Text.padded 4 n ++ '-' :: rest).takeWhile Char.isDigit = Text.padded 4 n :=
    fun n => takeWhile_padded_append 4 n (by decide) rest
  unfold yearText
  split
  · rename_i hyear
    have hnumber : readNumber? 4 (Text.padded 4 year.toNat ++ '-' :: rest) =
        some (year.toNat, '-' :: rest) := readNumber?_padded (by decide) (show year.toNat < 10000 by omega) _
    unfold readYear?
    rw [trimStart_padded]
    cases h : Text.padded 4 year.toNat with
    | nil => exact absurd h (Text.padded_ne_nil 4 _)
    | cons c cs =>
      have hc : c.isDigit = true := Text.isDigit_of_mem_padded (by rw [h]; exact List.mem_cons_self)
      rw [h] at hnumber
      rw [List.cons_append] at hnumber ⊢
      split
      · rename_i heq
        rw [(List.cons.inj heq).1] at hc
        exact absurd hc (by decide)
      · rename_i heq
        rw [(List.cons.inj heq).1] at hc
        exact absurd hc (by decide)
      · rw [hnumber, Option.map_some, Int.toNat_of_nonneg hyear.1]
  · split
    · rename_i hneg
      rw [List.cons_append, readYear?_minus, signed, if_neg (Text.padded_ne_nil 4 _),
        Text.digitsValue_padded, List.drop_left' rfl]
      rw [show -((year.natAbs : Nat) : Int) = year by omega]
    · rename_i hrange hneg
      rw [List.cons_append, readYear?_plus, signed, if_neg (Text.padded_ne_nil 4 _),
        Text.digitsValue_padded, List.drop_left' rfl, Int.toNat_of_nonneg (by omega)]

theorem readFraction?_point (cs : List Char) : readFraction? ('.' :: cs) =
    if (cs.take 9).takeWhile Char.isDigit = [] then none
    else some (Text.digitsValue ((cs.take 9).takeWhile Char.isDigit) *
        Nat.pow 10 (9 - ((cs.take 9).takeWhile Char.isDigit).length),
      (cs.drop ((cs.take 9).takeWhile Char.isDigit).length).dropWhile Char.isDigit) := rfl

theorem readFraction?_digits {width n : Nat} (hwidth : 0 < width) (hle : width ≤ 9)
    (h : n < Nat.pow 10 width) :
    readFraction? ('.' :: Text.padded width n ++ ['Z']) = some (n * Nat.pow 10 (9 - width), ['Z']) := by
  have hlen := Text.length_padded hwidth h
  have htake : ((Text.padded width n ++ ['Z']).take 9).takeWhile Char.isDigit = Text.padded width n := by
    rw [List.take_append, hlen, List.take_of_length_le (by omega)]
    by_cases h9 : width = 9
    · rw [h9, Nat.sub_self, List.take_zero, List.append_nil]
      exact takeWhile_padded 9 n
    · rw [List.take_of_length_le (l := ['Z']) (by simp; omega)]
      exact takeWhile_padded_append width n (by decide) []
  rw [List.cons_append, readFraction?_point, htake, if_neg (Text.padded_ne_nil width n),
    Text.digitsValue_padded, List.drop_left' rfl, hlen]
  rfl

theorem readFraction?_fractionText {n : Nat} (h : n < 1000000000) :
    readFraction? (fractionText n ++ ['Z']) = some (n, ['Z']) := by
  unfold fractionText
  split
  · rename_i hzero
    rw [hzero]
    rfl
  · split
    · rename_i hmilli
      rw [readFraction?_digits (by decide) (by decide) (show n / 1000000 < 1000 by omega)]
      have hn : n / 1000000 * 1000000 = n := by omega
      exact congrArg (fun m => some (m, ['Z'])) hn
    · split
      · rename_i hmicro
        rw [readFraction?_digits (by decide) (by decide) (show n / 1000 < 1000000 by omega)]
        have hn : n / 1000 * 1000 = n := by omega
        exact congrArg (fun m => some (m, ['Z'])) hn
      · rw [readFraction?_digits (by decide) (by decide) (show n < 1000000000 from h)]
        exact congrArg (fun m => some (m, ['Z'])) (Nat.mul_one n)

theorem yearOfDay_range {t : Instant} (h : t.inRange = true) :
    -262143 ≤ yearOfDay (t.seconds / 86400) ∧ yearOfDay (t.seconds / 86400) ≤ 262142 := by
  have h := Instant.inRange_iff.1 h
  have hmin : yearOfDay (-96465292) = -262143 := by decide
  have hmax : yearOfDay 95026236 = 262142 := by decide
  rw [← hmin, ← hmax]
  exact ⟨yearOfDay_mono (by omega), yearOfDay_mono (by omega)⟩

/-- The reader of timestamps on the parts that a writer has put one after the other. -/
theorem read?_parts {date : Date} {sep : Char} {hour minute second nanos : Nat}
    (hvalid : date.isValid = true) (hyear : -262143 ≤ date.year ∧ date.year ≤ 262142)
    (hmonth : date.month ≤ 12) (hday : date.day ≤ 31) (hsep : sep = 'T' ∨ sep = ' ')
    (hhour : hour < 24) (hminute : minute < 60) (hsecond : second ≤ 60) (hnanos : nanos < 1000000000)
    {t : Instant} (hseconds : t.seconds =
      date.toDay * 86400 + (hour * 3600 + minute * 60 + min second 59 : Nat))
    (ht : t.nanos = if second = 60 then nanos + 1000000000 else nanos) (hrange : t.inRange = true) :
    read? (dateText date ++ sep :: (Text.padded 2 hour ++ ':' :: (Text.padded 2 minute ++
      ':' :: (Text.padded 2 second ++ (fractionText nanos ++ ['Z']))))) = some t := by
  have dash : ∀ rest, readMark? '-' ('-' :: rest) = some rest := readMark?_self (by decide)
  have colon : ∀ rest, readMark? ':' (':' :: rest) = some rest := readMark?_self (by decide)
  have number : ∀ {n : Nat}, n < 100 → ∀ rest, readNumber? 2 (Text.padded 2 n ++ rest) = some (n, rest) :=
    fun h rest => readNumber?_padded (by decide) h rest
  have hsep' : sep = 'T' ∨ sep = 't' ∨ sep = ' ' := hsep.imp_right Or.inr
  have hzone : readZone? ['Z'] = some (0, []) := rfl
  have e : t = ⟨date.toDay * 86400 + (hour * 3600 + minute * 60 + min second 59 : Nat) - 0,
      if second = 60 then nanos + 1000000000 else nanos⟩ := by
    rw [Int.sub_zero, ← hseconds, ← ht]
  unfold read? dateText
  simp only [List.append_assoc, List.cons_append]
  rw [readYear?_yearText]
  dsimp only [Option.bind_eq_bind, Option.bind_some]
  rw [dash, Option.bind_some, number (show date.month < 100 by omega), Option.bind_some]
  dsimp only
  rw [dash, Option.bind_some, number (show date.day < 100 by omega), Option.bind_some]
  dsimp only
  rw [if_pos hsep', number (show hour < 100 by omega), Option.bind_some]
  dsimp only
  rw [colon, Option.bind_some, number (show minute < 100 by omega), Option.bind_some]
  dsimp only
  rw [colon, Option.bind_some, number (show second < 100 by omega), Option.bind_some]
  dsimp only
  rw [readFraction?_fractionText hnanos, Option.bind_some]
  dsimp only
  rw [hzone, Option.bind_some]
  dsimp only
  rw [if_pos ⟨Text.trimStart_nil, hvalid, hyear.1, hyear.2, hhour, hminute, hsecond, by decide⟩, ← e,
    if_pos hrange]

/-- A timestamp whose zone is universal time is read as the instant that was written. -/
theorem read?_write {t : Instant} (h : t.WellFormed) {style : TimestampStyle}
    (hsep : style.separator = 'T' ∨ style.separator = ' ') (hzone : style.zone = ['Z']) :
    read? (write style t) = some t := by
  obtain ⟨hrange, hnanos, hleap⟩ := h
  have hday := toDay_dateOfDay (t.seconds / 86400)
  unfold write clockText
  rw [hzone]
  simp only [List.append_assoc, List.cons_append]
  unfold Instant.secondOfDay Instant.isLeapSecond
  refine read?_parts (isValid_dateOfDay _) (yearOfDay_range hrange) (dateOfDay_month_le _)
    (dateOfDay_day_le _) hsep (by omega) (by omega) ?_ (Nat.mod_lt _ (by decide)) ?_ ?_ hrange
  · split <;> omega
  · rw [hday]
    by_cases h : 1000000000 ≤ t.nanos
    · have hlast := hleap h
      rw [if_pos (by simpa using h), Nat.min_eq_right (by omega)]
      omega
    · rw [if_neg (by simpa using h), Nat.min_eq_left (by omega)]
      omega
  · by_cases h : 1000000000 ≤ t.nanos
    · have hlast := hleap h
      have hone : (if decide (1000000000 ≤ t.nanos) = true then 1 else 0) = 1 :=
        if_pos (by simpa using h)
      rw [hone, if_pos (by omega)]
      omega
    · have hzero : (if decide (1000000000 ≤ t.nanos) = true then 1 else 0) = 0 :=
        if_neg (by simpa using h)
      rw [hzero, if_neg (by omega)]
      omega

/-- A message's timestamp is read as it was written. -/
theorem read?_text {t : Instant} (h : t.WellFormed) : read? t.text.toList = some t := by
  rw [Instant.text, String.toList_ofList]
  exact read?_write h (Or.inl rfl) rfl

/-- A column's timestamp is read as it was written. -/
theorem readColumn?_write {t : Instant} (h : t.WellFormed) :
    readColumn? (write .column t) = some t := by
  have e : write .column t ++ ['Z'] = write ⟨' ', ['Z']⟩ t := by
    simp only [write, TimestampStyle.column, List.append_nil]
  rw [readColumn?, e]
  exact read?_write h (Or.inr rfl) rfl

end Timestamp

end BurnAfterRead
