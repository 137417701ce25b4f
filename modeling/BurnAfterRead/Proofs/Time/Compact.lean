import BurnAfterRead.Proofs.Time.Terms

/-!
# Durations are read as they were written

A duration is written as the terms of its parts: days, hours, minutes, seconds and milliseconds, those left
out of which there are none. Read again, the terms add up to its whole milliseconds, unless these are too
many for the reader. As texts are made of terms in one way only, durations with different milliseconds are
written differently, those that cannot be read too.
-/

namespace BurnAfterRead

namespace TimeUnit

/-- How many of a unit make the next larger one. -/
def perNext? : TimeUnit → Option Nat
  | day => none
  | hour => some 24
  | minute => some 60
  | second => some 60
  | milli => some 1000

/-- The units from the largest down. -/
def descending : List TimeUnit := [day, hour, minute, second, milli]

end TimeUnit

namespace TimeTerm

/-- The term of a number. -/
def ofCount (n : Nat) (u : TimeUnit) : TimeTerm where
  digits := Text.decimal n
  unit := u
  digits_ne_nil := Text.decimal_ne_nil n
  isDigit := fun _ => Text.isDigit_of_mem_decimal

theorem count_ofCount (n : Nat) (u : TimeUnit) : (ofCount n u).count = n :=
  Nat.ofDigitChars_toDigits (by decide) (by decide)

/-- The term of a number, if it is not zero. -/
def nonzero (n : Nat) (u : TimeUnit) : List TimeTerm := if n = 0 then [] else [ofCount n u]

theorem texts_append (ts ts' : List TimeTerm) : texts (ts ++ ts') = texts ts ++ texts ts' :=
  List.flatMap_append

theorem total_append (ts ts' : List TimeTerm) : total (ts ++ ts') = total ts + total ts' := by
  induction ts with
  | nil => exact (Nat.zero_add _).symm
  | cons t ts ih => rw [List.cons_append, total, total, ih, Nat.add_assoc]

theorem total_nonzero (n : Nat) (u : TimeUnit) : total (nonzero n u) = n * u.millis := by
  unfold nonzero
  split
  · rename_i hzero
    rw [hzero, Nat.zero_mul]
    rfl
  · show (ofCount n u).count * u.millis + 0 = n * u.millis
    rw [count_ofCount, Nat.add_zero]

theorem toList_term (n : Nat) (u : TimeUnit) :
    (Duration.term n (String.ofList u.letters)).toList = texts (nonzero n u) := by
  unfold Duration.term nonzero
  split
  · rfl
  · have hnumber : (toString n).toList = Text.decimal n := String.toList_ofList
    rw [String.toList_append, String.toList_ofList, hnumber]
    exact (List.append_nil _).symm

theorem of_mem_nonzero {n : Nat} {u : TimeUnit} {t : TimeTerm} (h : t ∈ nonzero n u) :
    n ≠ 0 ∧ t = ofCount n u := by
  unfold nonzero at h
  split at h
  · cases h
  · rename_i hne
    exact ⟨hne, List.mem_singleton.1 h⟩

theorem sublist_nonzero (n : Nat) (u : TimeUnit) : ((nonzero n u).map (·.unit)).Sublist [u] := by
  unfold nonzero
  split
  · exact List.nil_sublist _
  · exact List.Sublist.refl _

/-- Terms as durations are written in: each unit at most once, from the largest down, and each number one
that is not zero and makes less than a unit of the next kind. -/
structure IsCompact (ts : List TimeTerm) : Prop where
  descending : (ts.map (·.unit)).Sublist TimeUnit.descending
  decimal : ∀ t ∈ ts, t.digits = Text.decimal t.count
  positive : ∀ t ∈ ts, 0 < t.count
  below : ∀ t ∈ ts, ∀ n ∈ t.unit.perNext?, t.count < n

/-- The terms of some numbers with their units. -/
def ofCounts (counts : List (Nat × TimeUnit)) : List TimeTerm := counts.flatMap fun p => nonzero p.1 p.2

theorem ofCounts_cons (n : Nat) (u : TimeUnit) (counts : List (Nat × TimeUnit)) :
    ofCounts ((n, u) :: counts) = nonzero n u ++ ofCounts counts :=
  List.flatMap_cons

theorem units_ofCounts (counts : List (Nat × TimeUnit)) :
    ((ofCounts counts).map (·.unit)).Sublist (counts.map (·.2)) := by
  induction counts with
  | nil => exact List.Sublist.refl _
  | cons p counts ih =>
    rw [ofCounts_cons, List.map_append]
    exact (sublist_nonzero p.1 p.2).append ih

theorem isCompact_ofCounts {counts : List (Nat × TimeUnit)}
    (hunits : counts.map (·.2) = TimeUnit.descending)
    (hbelow : ∀ p ∈ counts, ∀ n ∈ p.2.perNext?, p.1 < n) : IsCompact (ofCounts counts) := by
  have hall : ∀ t ∈ ofCounts counts, ∃ p ∈ counts, p.1 ≠ 0 ∧ t = ofCount p.1 p.2 := by
    intro t ht
    obtain ⟨p, hp, ht⟩ := List.mem_flatMap.1 ht
    exact ⟨p, hp, of_mem_nonzero ht⟩
  constructor
  · rw [← hunits]
    exact units_ofCounts counts
  · intro t ht
    obtain ⟨p, -, -, rfl⟩ := hall t ht
    rw [count_ofCount]
    rfl
  · intro t ht
    obtain ⟨p, -, hne, rfl⟩ := hall t ht
    rw [count_ofCount]
    exact Nat.pos_of_ne_zero hne
  · intro t ht n hn
    obtain ⟨p, hp, -, rfl⟩ := hall t ht
    rw [count_ofCount]
    exact hbelow p hp n hn

end TimeTerm

open TimeTerm

namespace Duration

/-- How many days, hours, minutes, seconds and milliseconds a duration has. -/
def counts (d : Duration) : List (Nat × TimeUnit) :=
  [(d.millis / 86400000, .day), (d.millis / 3600000 % 24, .hour), (d.millis / 60000 % 60, .minute),
    (d.millis / 1000 % 60, .second), (d.millis % 1000, .milli)]

theorem total_counts (d : Duration) : total (ofCounts d.counts) = d.millis := by
  unfold counts
  simp only [ofCounts_cons, total_append, total_nonzero, TimeUnit.millis]
  show _ + (_ + (_ + (_ + (_ + 0)))) = d.millis
  omega

theorem isCompact_counts (d : Duration) : IsCompact (ofCounts d.counts) := by
  apply isCompact_ofCounts rfl
  unfold counts
  simp only [List.forall_mem_cons, TimeUnit.perNext?]
  refine ⟨?_, ?_, ?_, ?_, ?_, by simp⟩ <;> rintro n ⟨⟩
  all_goals exact Nat.mod_lt _ (by decide)

theorem toList_format {d : Duration} (h : d.millis ≠ 0) :
    (format d).toList = texts (ofCounts d.counts) := by
  unfold format counts
  dsimp only
  rw [if_neg h]
  simp only [ofCounts_cons, texts_append, String.toList_append, ← toList_term, List.append_assoc]
  show _ = _ ++ (_ ++ (_ ++ (_ ++ (_ ++ []))))
  rw [List.append_nil]
  rfl

theorem format_zero {d : Duration} (h : d.millis = 0) : format d = "0s" := by
  unfold format
  exact if_pos h

/-- What is written of a duration are terms of as many milliseconds. -/
theorem exists_format (d : Duration) :
    ∃ ts, ts ≠ [] ∧ (format d).toList = texts ts ∧ total ts = d.millis := by
  by_cases h : d.millis = 0
  · refine ⟨[ofCount 0 .second], List.cons_ne_nil _ _, ?_, ?_⟩
    · rw [format_zero h]
      rfl
    · rw [h]
      rfl
  · refine ⟨ofCounts d.counts, ?_, toList_format h, total_counts d⟩
    intro hnil
    apply h
    rw [← total_counts d, hnil]
    rfl

/-- Terms without anything around them are read as their sum, if it is not too large. -/
theorem parse_of_texts {s : String} {ts : List TimeTerm} (hne : ts ≠ []) (h : s.toList = texts ts)
    (d : Duration) : parse s = .ok d ↔ total ts ≤ Text.maxInt64 ∧ d = ofMillis (total ts) := by
  have hblank : ∀ c ∈ ([] : List Char), Text.isBlank c = true := by simp
  have halphanum : ∀ c ∈ texts ts, c.isAlphanum = true := fun c hc => isAlphanum_of_mem_texts hc
  have hread := readSignedMillis_append hblank halphanum hblank .absent
  rw [List.append_nil] at hread
  change readSignedMillis (texts ts) = _ at hread
  rw [parse_eq_ok_iff, h, hread]
  constructor
  · rintro ⟨n, hn, rfl⟩
    obtain ⟨n', hn', hsame⟩ := map_eq_ok_iff.1 hn
    obtain rfl : n = n' := Int.ofNat.inj hsame
    obtain ⟨hfits, rfl⟩ := (readMillis_texts hne n).1 hn'
    exact ⟨hfits, rfl⟩
  · rintro ⟨hfits, rfl⟩
    exact ⟨_, map_eq_ok_iff.2 ⟨_, (readMillis_texts hne _).2 ⟨hfits, rfl⟩, rfl⟩, rfl⟩

theorem millis_ofMillis (n : Nat) : (ofMillis n).millis = n :=
  Nat.mul_div_cancel n (by decide)

/-- What was read has no more than whole milliseconds, and no more of these than are read. -/
theorem of_parse {s : String} {d : Duration} (h : parse s = .ok d) :
    d.millis ≤ Text.maxInt64 ∧ d = ofMillis d.millis := by
  obtain ⟨n, hn, rfl⟩ := parse_eq_ok_iff.1 h
  rw [millis_ofMillis]
  exact ⟨(readSignedMillis_eq_ok_iff.1 hn).natAbs_le, rfl⟩

/-- A duration that was written is read with its whole milliseconds, if these are not too many for a number
of 64 bits with a sign, and is refused otherwise. So what was read once is read again after it was written.
It is written in compact terms, or as `0s`, and no other number of milliseconds is written so. -/
theorem reads_written (d : Duration) :
    (d.millis ≤ Text.maxInt64 → parse (format d) = .ok (ofMillis d.millis)) ∧
    (Text.maxInt64 < d.millis →
      ∃ fault : DurationFault, parse (format d) = .error (fault.toFailure (format d))) ∧
    (∀ s, parse s = .ok d → parse (format d) = .ok d) ∧
    (d.millis = 0 → format d = "0s") ∧
    (d.millis ≠ 0 → ∃ ts, IsCompact ts ∧ total ts = d.millis ∧ (format d).toList = texts ts) ∧
    ∀ d', d.millis ≠ d'.millis → format d ≠ format d' := by
  obtain ⟨ts, hne, htext, htotal⟩ := exists_format d
  have hread : ∀ d', parse (format d) = .ok d' ↔ d.millis ≤ Text.maxInt64 ∧ d' = ofMillis d.millis := by
    intro d'
    rw [parse_of_texts hne htext, htotal]
  refine ⟨fun h => (hread _).2 ⟨h, rfl⟩, fun h => ?_, fun s hs => ?_, format_zero, fun h => ?_,
    fun d' hd' hsame => ?_⟩
  · rcases parse_ok_or_error (format d) with ⟨d', hd'⟩ | herror
    · have hfits := ((hread d').1 hd').1
      omega
    · exact herror
  · exact (hread d).2 (of_parse hs)
  · exact ⟨ofCounts d.counts, isCompact_counts d, total_counts d, toList_format h⟩
  · obtain ⟨ts', -, htext', htotal'⟩ := exists_format d'
    apply hd'
    rw [← htotal, ← htotal', texts_injective (htext.symm.trans ((congrArg _ hsame).trans htext'))]

/-- The longest duration that is read again, with a part of a millisecond that is cut off, and the shortest
that is not. -/
theorem reads_written_up_to_limit :
    let longest : Duration := ⟨9223372036854775807999999⟩
    let tooLong : Duration := ofMillis 9223372036854775808
    format longest = "106751991167d7h12m55s807ms" ∧
    parse (format longest) = .ok (ofMillis 9223372036854775807) ∧
    (∃ fault : DurationFault, parse (format tooLong) = .error (fault.toFailure (format tooLong))) ∧
    format longest ≠ format tooLong := by
  intro longest tooLong
  have hmillis : longest.millis = 9223372036854775807 := by decide +kernel
  have hmore : tooLong.millis = 9223372036854775808 := millis_ofMillis _
  obtain ⟨hread, -, -, -, -, hinjective⟩ := reads_written longest
  obtain ⟨-, hrefused, -⟩ := reads_written tooLong
  rw [hmillis] at hread
  refine ⟨by decide +kernel, hread (by decide +kernel), hrefused ?_, hinjective tooLong ?_⟩
  · rw [hmore]
    decide +kernel
  · rw [hmillis, hmore]
    decide +kernel

end Duration

end BurnAfterRead
