import BurnAfterRead.Proofs.Time.Timestamp

/-!
# Instants of whole milliseconds

An instant that is a whole number of milliseconds is that number, and instants come in the order of
their numbers. So a store that keeps milliseconds loses nothing of it.
-/

namespace BurnAfterRead

namespace Instant

/-- A whole number of milliseconds, not within a leap second. -/
structure WholeMillis (t : Instant) : Prop where
  nanos : t.nanos < 1000000000
  whole : t.nanos % 1000000 = 0

instance (t : Instant) : Decidable t.WholeMillis :=
  decidable_of_iff (t.nanos < 1000000000 ∧ t.nanos % 1000000 = 0)
    ⟨fun ⟨nanos, whole⟩ => ⟨nanos, whole⟩, fun h => ⟨h.nanos, h.whole⟩⟩

theorem notAfter_iff {a b : Instant} :
    a.notAfter b = true ↔ a.seconds < b.seconds ∨ a.seconds = b.seconds ∧ a.nanos ≤ b.nanos := by
  unfold notAfter before
  rw [Bool.not_eq_true', Bool.or_eq_false_iff, Bool.and_eq_false_iff, decide_eq_false_iff_not,
    decide_eq_false_iff_not, decide_eq_false_iff_not]
  omega

theorem notAfter_refl (a : Instant) : a.notAfter a = true := by
  rw [notAfter_iff]
  omega

theorem notAfter_trans {a b c : Instant} (hab : a.notAfter b = true) (hbc : b.notAfter c = true) :
    a.notAfter c = true := by
  rw [notAfter_iff] at hab hbc ⊢
  omega

namespace WholeMillis

variable {t u : Instant}

theorem wellFormed (h : t.WholeMillis) (hrange : t.inRange = true) : t.WellFormed := by
  refine ⟨hrange, ?_, fun hleap => ?_⟩
  · have hnanos := h.nanos
    omega
  · exact absurd h.nanos (Nat.not_lt.2 hleap)

theorem notAfter_iff_millis (ht : t.WholeMillis) (hu : u.WholeMillis) :
    t.notAfter u = true ↔ t.millis ≤ u.millis := by
  obtain ⟨htn, htw⟩ := ht
  obtain ⟨hun, huw⟩ := hu
  rw [notAfter_iff]
  unfold millis
  omega

theorem ofMillis_millis (h : t.WholeMillis) : ofMillis t.millis = t := by
  obtain ⟨hnanos, hwhole⟩ := h
  have hseconds : t.millis * 1000000 / 1000000000 = t.seconds := by
    unfold millis
    omega
  have hrest : (t.millis * 1000000 % 1000000000).toNat = t.nanos := by
    unfold millis
    omega
  unfold ofMillis ofNanos
  rw [hseconds, hrest]

theorem ofMillis?_millis (h : t.WholeMillis) (hrange : t.inRange = true) :
    ofMillis? t.millis = some t := by
  unfold ofMillis?
  rw [h.ofMillis_millis, if_pos hrange]

theorem since_millis (ht : t.WholeMillis) (hu : u.WholeMillis) :
    (t.since u).millis = t.millis - u.millis := by
  obtain ⟨htn, htw⟩ := ht
  obtain ⟨hun, huw⟩ := hu
  have htleap : t.isLeapSecond = false := decide_eq_false (Nat.not_le.2 htn)
  have huleap : u.isLeapSecond = false := decide_eq_false (Nat.not_le.2 hun)
  have hspan : (t.since u).nanos = (t.millis - u.millis) * 1000000 := by
    unfold since
    rw [htleap, huleap]
    simp only [Bool.false_eq_true, and_false, if_false]
    unfold millis
    omega
  unfold Span.millis
  rw [hspan]
  exact Int.mul_tdiv_cancel _ (by decide)

end WholeMillis

end Instant

end BurnAfterRead
