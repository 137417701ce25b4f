import BurnAfterRead.Proofs.Time.Millis

/-!
# Instants as numbers of nanoseconds

Outside leap seconds an instant is a number of nanoseconds. Instants come in the order of their numbers,
a span is added to the number, and the span between two instants is the difference of theirs. What is
within a leap second has no number of its own: it comes before the second that its number belongs to.
-/

namespace BurnAfterRead

/-- The milliseconds of a span are cut toward the past, unless it leads there. -/
theorem Span.millis_cases (s : Span) :
    0 ≤ s.nanos ∧ s.millis = s.nanos / 1000000 ∨ s.nanos < 0 ∧ s.millis ≤ 0 := by
  unfold millis
  by_cases h : 0 ≤ s.nanos
  · exact Or.inl ⟨h, Int.tdiv_eq_ediv_of_nonneg h⟩
  · have hpast : 0 ≤ (-s.nanos).tdiv 1000000 := Int.tdiv_nonneg (by omega) (by decide)
    rw [Int.neg_tdiv] at hpast
    exact Or.inr ⟨Int.not_le.1 h, by omega⟩

namespace Instant

variable {t u v : Instant}

theorem before_iff :
    t.before u = true ↔ t.seconds < u.seconds ∨ t.seconds = u.seconds ∧ t.nanos < u.nanos := by
  unfold before
  rw [Bool.or_eq_true, Bool.and_eq_true, decide_eq_true_iff, decide_eq_true_iff, decide_eq_true_iff]

theorem before_eq_false_iff : t.before u = false ↔ u.notAfter t = true := by
  rw [notAfter, Bool.not_eq_true']

theorem notAfter_eq_false_iff : t.notAfter u = false ↔ u.before t = true := by
  rw [notAfter, Bool.not_eq_false']

theorem before_of_before_of_notAfter (h : t.before u = true) (hle : u.notAfter v = true) :
    t.before v = true := by
  rw [before_iff] at h ⊢
  rw [notAfter_iff] at hle
  omega

theorem nanos_lt (h : t.isLeapSecond = false) : t.nanos < 1000000000 :=
  Nat.not_le.1 (of_decide_eq_false h)

theorem isLeapSecond_ofNanos (n : Int) : (ofNanos n).isLeapSecond = false := by
  refine decide_eq_false ?_
  unfold ofNanos
  dsimp only
  omega

theorem toNanos_ofNanos (n : Int) : (ofNanos n).toNanos = n := by
  unfold ofNanos toNanos
  dsimp only
  omega

theorem ofNanos_toNanos (h : t.isLeapSecond = false) : ofNanos t.toNanos = t := by
  have hnanos := nanos_lt h
  have hseconds : t.toNanos / 1000000000 = t.seconds := by
    unfold toNanos
    omega
  have hrest : (t.toNanos % 1000000000).toNat = t.nanos := by
    unfold toNanos
    omega
  unfold ofNanos
  rw [hseconds, hrest]

theorem notAfter_iff_toNanos (ht : t.isLeapSecond = false) (hu : u.isLeapSecond = false) :
    t.notAfter u = true ↔ t.toNanos ≤ u.toNanos := by
  have htn := nanos_lt ht
  have hun := nanos_lt hu
  rw [notAfter_iff]
  unfold toNanos
  omega

theorem before_iff_toNanos (ht : t.isLeapSecond = false) (hu : u.isLeapSecond = false) :
    t.before u = true ↔ t.toNanos < u.toNanos := by
  rw [← notAfter_eq_false_iff, ← Bool.not_eq_true, notAfter_iff_toNanos hu ht, Int.not_le]

theorem ofNanos_notAfter_ofNanos {m n : Int} :
    (ofNanos m).notAfter (ofNanos n) = true ↔ m ≤ n := by
  rw [notAfter_iff_toNanos (isLeapSecond_ofNanos m) (isLeapSecond_ofNanos n), toNanos_ofNanos,
    toNanos_ofNanos]

theorem plus_eq_ofNanos (h : t.isLeapSecond = false) (s : Span) :
    t.plus s = ofNanos (t.toNanos + s.nanos) := by
  unfold plus
  dsimp only
  rw [h, if_neg Bool.false_ne_true]

/-- What comes before an instant that a span back leads to comes before the instant. -/
theorem before_of_before_plus (hu : u.isLeapSecond = false) {s : Span} (hback : s.nanos ≤ 0)
    (h : t.before (u.plus s) = true) : t.before u = true := by
  refine before_of_before_of_notAfter h ?_
  rw [plus_eq_ofNanos hu, notAfter_iff_toNanos (isLeapSecond_ofNanos _) hu, toNanos_ofNanos]
  omega

theorem since_nanos (ht : t.isLeapSecond = false) (hu : u.isLeapSecond = false) :
    (t.since u).nanos = t.toNanos - u.toNanos := by
  unfold since toNanos
  rw [ht, hu]
  simp only [Bool.false_eq_true, and_false, if_false]
  omega

/-- The span between two instants in range can be counted in milliseconds of 64 bits. -/
theorem natAbs_since_le (ht : t.WellFormed) (hu : u.WellFormed) :
    (t.since u).nanos.natAbs ≤ Text.maxInt64 * Duration.nanosPerMilli := by
  have htrange := inRange_iff.1 ht.inRange
  have hurange := inRange_iff.1 hu.inRange
  have htn := ht.nanos
  have hun := hu.nanos
  have hlimit : Text.maxInt64 * Duration.nanosPerMilli = 9223372036854775807000000 := by decide
  unfold since
  dsimp only
  split
  · omega
  · split <;> omega

/-- From a leap second a span leads forward only to later seconds, and a second too far at most. -/
theorem since_of_leap (ht : t.isLeapSecond = false) (hu : u.isLeapSecond = true)
    (hpos : 0 < (t.since u).nanos) :
    u.seconds < t.seconds ∧ (t.since u).nanos ≤ t.toNanos - u.toNanos + 1000000000 := by
  have htn := nanos_lt ht
  have hun : 1000000000 ≤ u.nanos := of_decide_eq_true hu
  have hspan : (t.since u).nanos =
      (t.seconds - u.seconds + if t.secondOfDay > u.secondOfDay then 1 else 0) * 1000000000 +
        ((t.nanos : Int) - u.nanos) := by
    unfold since
    simp only [ht, hu, and_true, Bool.false_eq_true, and_false, if_false]
  unfold secondOfDay at hspan
  unfold toNanos
  split at hspan <;> omega

/-- A span that is no longer than the one between two instants does not lead past the later one, unless
that is within a leap second. -/
theorem plus_notAfter (ht : t.isLeapSecond = false) {s : Span} (hpos : 0 < s.nanos)
    (hle : s.nanos ≤ (t.since u).nanos) : (u.plus s).notAfter t = true := by
  have htn := nanos_lt ht
  cases hu : u.isLeapSecond with
  | false =>
    rw [since_nanos ht hu] at hle
    rw [plus_eq_ofNanos hu, ← ofNanos_toNanos ht, ofNanos_notAfter_ofNanos]
    omega
  | true =>
    obtain ⟨hlater, hspan⟩ := since_of_leap ht hu (Int.lt_of_lt_of_le hpos hle)
    have hun : 1000000000 ≤ u.nanos := of_decide_eq_true hu
    have hquot : 0 ≤ s.nanos.tdiv 1000000000 := Int.tdiv_nonneg (by omega) (by decide)
    have hparts : s.nanos.tdiv 1000000000 * 1000000000 + s.nanos.tmod 1000000000 = s.nanos :=
      Int.tdiv_mul_add_tmod _ _
    unfold plus
    dsimp only
    rw [if_pos hu]
    split
    · -- the span leaves the leap second
      rw [← ofNanos_toNanos ht, ofNanos_notAfter_ofNanos]
      unfold toNanos at hspan ⊢
      omega
    · rename_i hstays
      rw [if_neg (by omega), notAfter_iff]
      exact Or.inl hlater

namespace WholeMillis

theorem isLeapSecond (h : t.WholeMillis) : t.isLeapSecond = false :=
  decide_eq_false (Nat.not_le.2 h.nanos)

theorem toNanos (h : t.WholeMillis) : t.toNanos = t.millis * 1000000 := by
  have hwhole := h.whole
  unfold Instant.toNanos millis
  omega

end WholeMillis

end Instant

end BurnAfterRead
