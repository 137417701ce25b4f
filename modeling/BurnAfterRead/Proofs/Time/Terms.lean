import BurnAfterRead.Proofs.Text.Trim
import BurnAfterRead.Time.Duration

/-!
# The grammar of durations

A duration is written as terms, each a number with a unit. Where a term ends is seen from what follows:
its number ends at the first letter of the unit, and its unit at the first digit of the next term. So a
text is made of terms in one way at most, and the reader finds them. It adds their milliseconds up, and
since none of them is negative, what it refuses on the way as too large is too large in the end.
-/

namespace BurnAfterRead

/-- The units that lengths of time are counted in. -/
inductive TimeUnit where
  | day
  | hour
  | minute
  | second
  | milli
  deriving DecidableEq, Repr

namespace TimeUnit

def letters : TimeUnit → List Char
  | day => ['d']
  | hour => ['h']
  | minute => ['m']
  | second => ['s']
  | milli => ['m', 's']

def millis : TimeUnit → Nat
  | day => 86400000
  | hour => 3600000
  | minute => 60000
  | second => 1000
  | milli => 1

theorem unitMillis?_letters (u : TimeUnit) : unitMillis? u.letters = some u.millis := by
  cases u <;> rfl

theorem of_unitMillis? {cs : List Char} {size : Nat} (h : unitMillis? cs = some size) :
    ∃ u : TimeUnit, cs = u.letters ∧ size = u.millis := by
  unfold unitMillis? at h
  split at h
  · exact ⟨milli, rfl, (Option.some.inj h).symm⟩
  · exact ⟨second, rfl, (Option.some.inj h).symm⟩
  · exact ⟨minute, rfl, (Option.some.inj h).symm⟩
  · exact ⟨hour, rfl, (Option.some.inj h).symm⟩
  · exact ⟨day, rfl, (Option.some.inj h).symm⟩
  · cases h

theorem letters_injective {u v : TimeUnit} (h : u.letters = v.letters) : u = v := by
  cases u <;> cases v <;> first | rfl | cases h

theorem isAlpha_of_mem {u : TimeUnit} {c : Char} (h : c ∈ u.letters) : c.isAlpha = true := by
  have hall : u.letters.all Char.isAlpha = true := by cases u <;> decide
  exact List.all_eq_true.1 hall c h

theorem letters_ne_nil (u : TimeUnit) : u.letters ≠ [] := by
  cases u <;> exact List.cons_ne_nil _ _

theorem one_le_millis (u : TimeUnit) : 1 ≤ u.millis := by
  cases u <;> decide

end TimeUnit

/-- A number, written in one or more decimal digits, with a unit. -/
@[ext]
structure TimeTerm where
  digits : List Char
  unit : TimeUnit
  digits_ne_nil : digits ≠ []
  isDigit : ∀ c ∈ digits, c.isDigit = true

namespace TimeTerm

def text (t : TimeTerm) : List Char := t.digits ++ t.unit.letters

/-- How often the unit is counted. -/
def count (t : TimeTerm) : Nat := Text.digitsValue t.digits

def millis (t : TimeTerm) : Nat := t.count * t.unit.millis

/-- The text of some terms. -/
def texts (ts : List TimeTerm) : List Char := ts.flatMap text

/-- The milliseconds of some terms together. -/
def total : List TimeTerm → Nat
  | [] => 0
  | t :: ts => t.millis + total ts

theorem texts_cons (t : TimeTerm) (ts : List TimeTerm) :
    texts (t :: ts) = t.digits ++ (t.unit.letters ++ texts ts) := by
  unfold texts text
  rw [List.flatMap_cons, List.append_assoc]

theorem total_perm {ts ts' : List TimeTerm} (h : ts.Perm ts') : total ts = total ts' := by
  induction h with
  | nil => rfl
  | cons t _ ih => rw [total, total, ih]
  | swap t t' ts => exact Nat.add_left_comm _ _ _
  | trans _ _ ih ih' => exact ih.trans ih'

theorem count_le_millis (t : TimeTerm) : t.count ≤ t.millis :=
  Nat.le_mul_of_pos_right _ t.unit.one_le_millis

theorem millis_le_total {t : TimeTerm} {ts : List TimeTerm} (h : t ∈ ts) : t.millis ≤ total ts := by
  induction ts with
  | nil => cases h
  | cons t' ts ih =>
    rw [total]
    rcases List.mem_cons.1 h with rfl | h
    · exact Nat.le_add_right _ _
    · exact Nat.le_trans (ih h) (Nat.le_add_left _ _)

/-- The digits of a number end where its unit begins. -/
theorem span_digits (t : TimeTerm) (rest : List Char) :
    (t.digits ++ (t.unit.letters ++ rest)).takeWhile Char.isDigit = t.digits ∧
      (t.digits ++ (t.unit.letters ++ rest)).dropWhile Char.isDigit = t.unit.letters ++ rest := by
  cases hletters : t.unit.letters with
  | nil => exact absurd hletters t.unit.letters_ne_nil
  | cons c cs =>
    have hc : ¬c.isDigit = true := by
      rw [Text.isDigit_eq_false_of_isAlpha (TimeUnit.isAlpha_of_mem (hletters ▸ List.mem_cons_self))]
      exact Bool.false_ne_true
    rw [List.takeWhile_append_of_pos t.isDigit, List.dropWhile_append_of_pos t.isDigit, List.cons_append,
      List.takeWhile_cons_of_neg hc, List.dropWhile_cons_of_neg hc, List.append_nil]
    exact ⟨rfl, rfl⟩

/-- The letters of a unit end where the next term begins. -/
theorem span_letters (u : TimeUnit) (ts : List TimeTerm) :
    (u.letters ++ texts ts).takeWhile Char.isAlpha = u.letters ∧
      (u.letters ++ texts ts).dropWhile Char.isAlpha = texts ts := by
  have hletters : ∀ c ∈ u.letters, c.isAlpha = true := fun c => TimeUnit.isAlpha_of_mem
  rw [List.takeWhile_append_of_pos hletters, List.dropWhile_append_of_pos hletters]
  cases ts with
  | nil => exact ⟨List.append_nil _, rfl⟩
  | cons t ts =>
    rw [texts_cons]
    cases hdigits : t.digits with
    | nil => exact absurd hdigits t.digits_ne_nil
    | cons c cs =>
      have hc : ¬c.isAlpha = true := by
        intro halpha
        have hdigit := t.isDigit c (hdigits ▸ List.mem_cons_self)
        rw [Text.isDigit_eq_false_of_isAlpha halpha] at hdigit
        cases hdigit
      rw [List.cons_append, List.takeWhile_cons_of_neg hc, List.dropWhile_cons_of_neg hc,
        List.append_nil]
      exact ⟨rfl, rfl⟩

theorem texts_injective {ts ts' : List TimeTerm} (h : texts ts = texts ts') : ts = ts' := by
  induction ts generalizing ts' with
  | nil =>
    cases ts' with
    | nil => rfl
    | cons t' ts' =>
      rw [texts_cons] at h
      exact absurd (List.append_eq_nil_iff.1 h.symm).1 t'.digits_ne_nil
  | cons t ts ih =>
    cases ts' with
    | nil =>
      rw [texts_cons] at h
      exact absurd (List.append_eq_nil_iff.1 h).1 t.digits_ne_nil
    | cons t' ts' =>
      rw [texts_cons, texts_cons] at h
      obtain ⟨hdigits, hletters⟩ := t.span_digits (texts ts)
      obtain ⟨hdigits', hletters'⟩ := t'.span_digits (texts ts')
      rw [h, hdigits'] at hdigits
      rw [h, hletters'] at hletters
      obtain ⟨hunit, hrest⟩ := span_letters t.unit ts
      obtain ⟨hunit', hrest'⟩ := span_letters t'.unit ts'
      rw [← hletters, hunit'] at hunit
      rw [← hletters, hrest'] at hrest
      rw [TimeTerm.ext hdigits.symm (TimeUnit.letters_injective hunit).symm, ih hrest.symm]

end TimeTerm

open TimeTerm

/-- The reader takes the first term off, unless its number or the sum gets too large. -/
theorem readTerms_texts_cons (sum : Nat) (t : TimeTerm) (ts : List TimeTerm) :
    readTerms sum (texts (t :: ts)) =
      if t.count > Text.maxInt64 then .error .numberTooLarge
      else if sum + t.millis > Text.maxInt64 then .error .sumTooLarge
      else readTerms (sum + t.millis) (texts ts) := by
  obtain ⟨hdigits, hletters⟩ := t.span_digits (texts ts)
  obtain ⟨hunit, hrest⟩ := span_letters t.unit ts
  rw [readTerms, texts_cons]
  dsimp only
  rw [if_neg (fun h => t.digits_ne_nil (List.append_eq_nil_iff.1 h).1)]
  simp only [hdigits, hletters, hunit, hrest, t.digits_ne_nil, t.unit.letters_ne_nil,
    t.unit.unitMillis?_letters, dite_false, if_false]
  rfl

/-- Terms are read as their sum, if it is not too large. -/
theorem readTerms_texts {sum : Nat} (hsum : sum ≤ Text.maxInt64) (ts : List TimeTerm) (n : Nat) :
    readTerms sum (texts ts) = .ok n ↔ sum + total ts ≤ Text.maxInt64 ∧ n = sum + total ts := by
  induction ts generalizing sum with
  | nil =>
    have hread : readTerms sum (texts []) = .ok sum := by
      rw [readTerms]
      exact if_pos rfl
    rw [hread]
    constructor
    · intro h
      exact ⟨hsum, (Except.ok.inj h).symm⟩
    · intro h
      rw [h.2]
      rfl
  | cons t ts ih =>
    rw [readTerms_texts_cons, total, ← Nat.add_assoc]
    have hcount := t.count_le_millis
    split
    · constructor
      · intro h
        cases h
      · omega
    · split
      · constructor
        · intro h
          cases h
        · omega
      · exact ih (by omega)

/-- What is read as a sum consists of terms. -/
theorem exists_texts_of_readTerms {sum n : Nat} {cs : List Char} (h : readTerms sum cs = .ok n) :
    ∃ ts, cs = texts ts := by
  fun_induction readTerms sum cs with
  | case1 => exact ⟨[], rfl⟩
  | case7 sum cs _ digits tail hdigits unit _ _ size hsize _ _ ih =>
    obtain ⟨ts, hts⟩ := ih h
    obtain ⟨u, hletters, -⟩ := TimeUnit.of_unitMillis? hsize
    let t : TimeTerm := ⟨digits, u, hdigits, fun c hc => List.mem_takeWhile_imp hc⟩
    refine ⟨t :: ts, ?_⟩
    rw [texts_cons, ← hts]
    show cs = digits ++ (u.letters ++ tail.dropWhile Char.isAlpha)
    rw [← hletters]
    exact ((congrArg (digits ++ ·) List.takeWhile_append_dropWhile).trans
      List.takeWhile_append_dropWhile).symm
  | _ => cases h

/-- `Amounts body ms`: the text after the sign tells a length of so many milliseconds. It is a single `0`, or
one or more terms; each number, each length and their sum are numbers of 64 bits with a sign. -/
inductive Amounts : List Char → Nat → Prop where
  | zero : Amounts ['0'] 0
  | terms (ts : List TimeTerm) (ne_nil : ts ≠ [])
      (fits : ∀ t ∈ ts, t.count ≤ Text.maxInt64 ∧ t.millis ≤ Text.maxInt64)
      (sum_fits : total ts ≤ Text.maxInt64) : Amounts (texts ts) (total ts)

/-- Terms are more than a single `0`. -/
theorem two_le_length_texts {ts : List TimeTerm} (h : ts ≠ []) : 2 ≤ (texts ts).length := by
  cases ts with
  | nil => exact absurd rfl h
  | cons t ts =>
    have hdigits := List.length_pos_iff.2 t.digits_ne_nil
    have hletters := List.length_pos_iff.2 t.unit.letters_ne_nil
    rw [texts_cons, List.length_append, List.length_append]
    omega

theorem readMillis_texts {ts : List TimeTerm} (h : ts ≠ []) (n : Nat) :
    readMillis (texts ts) = .ok n ↔ total ts ≤ Text.maxInt64 ∧ n = total ts := by
  have hlen := two_le_length_texts h
  have hnil : texts ts ≠ [] := fun heq => by simp [heq] at hlen
  have hzero : texts ts ≠ ['0'] := fun heq => by simp [heq] at hlen
  unfold readMillis
  rw [if_neg hnil, if_neg hzero, readTerms_texts (Nat.zero_le _), Nat.zero_add]

theorem amounts_texts {ts : List TimeTerm} (h : ts ≠ []) (hsum : total ts ≤ Text.maxInt64) :
    Amounts (texts ts) (total ts) := by
  refine .terms ts h (fun t ht => ?_) hsum
  have hcount := t.count_le_millis
  have hmillis := millis_le_total ht
  omega

/-- What is read after the sign is what the grammar says. -/
theorem readMillis_eq_ok_iff {body : List Char} {n : Nat} : readMillis body = .ok n ↔ Amounts body n := by
  constructor
  · intro h
    have hread := h
    unfold readMillis at hread
    split at hread
    · cases hread
    · rename_i hnil
      split at hread
      · rename_i hzero
        rw [hzero, ← Except.ok.inj hread]
        exact .zero
      · obtain ⟨ts, rfl⟩ := exists_texts_of_readTerms hread
        have hne : ts ≠ [] := by
          rintro rfl
          exact hnil rfl
        obtain ⟨hsum, rfl⟩ := (readMillis_texts hne n).1 h
        exact amounts_texts hne hsum
  · intro h
    cases h with
    | zero => rfl
    | terms ts hne _ hsum => exact (readMillis_texts hne _).2 ⟨hsum, rfl⟩

/-- A sign in front of an amount, or none. -/
inductive Sign where
  | absent
  | plus
  | minus
  deriving DecidableEq, Repr

namespace Sign

def letters : Sign → List Char
  | absent => []
  | plus => ['+']
  | minus => ['-']

def apply : Sign → Nat → Int
  | minus, n => -n
  | _, n => n

theorem isBlank_of_mem {sign : Sign} {c : Char} (h : c ∈ sign.letters) : Text.isBlank c = false := by
  have hall : sign.letters.all (fun c => !Text.isBlank c) = true := by cases sign <;> decide
  have hc := List.all_eq_true.1 hall c h
  rw [Bool.not_eq_true'] at hc
  exact hc

end Sign

/-- `Spelled cs ms`: the text tells a signed length of so many milliseconds. It is an amount behind one sign at
most, and white space may stand around both. -/
inductive Spelled : List Char → Int → Prop where
  | intro {before body after : List Char} {n : Nat} (sign : Sign)
      (blank_before : ∀ c ∈ before, Text.isBlank c = true) (amount : Amounts body n)
      (blank_after : ∀ c ∈ after, Text.isBlank c = true) :
      Spelled (before ++ (sign.letters ++ body) ++ after) (sign.apply n)

theorem isAlphanum_of_mem_texts {ts : List TimeTerm} {c : Char} (h : c ∈ texts ts) :
    c.isAlphanum = true := by
  obtain ⟨t, -, hc⟩ := List.mem_flatMap.1 h
  rw [Char.isAlphanum, Bool.or_eq_true]
  rcases List.mem_append.1 hc with hc | hc
  · exact Or.inr (t.isDigit c hc)
  · exact Or.inl (TimeUnit.isAlpha_of_mem hc)

theorem Amounts.isAlphanum {body : List Char} {n : Nat} (h : Amounts body n) :
    ∀ c ∈ body, c.isAlphanum = true := by
  cases h with
  | zero => exact List.all_eq_true.1 (by decide)
  | terms ts _ _ _ => exact fun c => isAlphanum_of_mem_texts

theorem map_minus (x : Except DurationFault Nat) :
    (Except.map (fun ms : Int => -ms) do return ((← x : Nat) : Int)) = x.map Sign.minus.apply := by
  cases x <;> rfl

/-- White space around a sign and an amount is taken off, and the sign is found. -/
theorem readSignedMillis_append {before body after : List Char}
    (hbefore : ∀ c ∈ before, Text.isBlank c = true) (hbody : ∀ c ∈ body, c.isAlphanum = true)
    (hafter : ∀ c ∈ after, Text.isBlank c = true) (sign : Sign) :
    readSignedMillis (before ++ (sign.letters ++ body) ++ after) = (readMillis body).map sign.apply := by
  have hsolid : ∀ c ∈ sign.letters ++ body, Text.isBlank c = false := by
    intro c hc
    rcases List.mem_append.1 hc with hc | hc
    · exact Sign.isBlank_of_mem hc
    · exact Text.isBlank_of_isAlphanum (hbody c hc)
  unfold readSignedMillis
  rw [Text.trim_append hbefore hsolid hafter]
  cases sign with
  | plus => rfl
  | minus => exact map_minus _
  | absent =>
    cases body with
    | nil => rfl
    | cons c cs =>
      have hc := hbody c List.mem_cons_self
      rw [show Sign.absent.letters ++ c :: cs = c :: cs from rfl]
      split
      · rename_i heq
        rw [(List.cons.inj heq).1] at hc
        cases hc
      · rename_i heq
        rw [(List.cons.inj heq).1] at hc
        cases hc
      · rfl

theorem map_eq_ok_iff {ε α β : Type} {x : Except ε α} {f : α → β} {b : β} :
    x.map f = .ok b ↔ ∃ a, x = .ok a ∧ b = f a := by
  cases x with
  | error e =>
    constructor
    · intro h
      cases h
    · rintro ⟨a, h, -⟩
      cases h
  | ok a =>
    constructor
    · intro h
      exact ⟨a, rfl, (Except.ok.inj h).symm⟩
    · rintro ⟨a', h, rfl⟩
      rw [Except.ok.inj h]
      rfl

/-- A text is read as a signed length exactly if it is spelled as the grammar says. -/
theorem readSignedMillis_eq_ok_iff {cs : List Char} {ms : Int} :
    readSignedMillis cs = .ok ms ↔ Spelled cs ms := by
  constructor
  · intro h
    obtain ⟨before, after, hbefore, hafter, hcs⟩ := Text.exists_trim cs
    have hspelled : ∀ (sign : Sign) (body : List Char), Text.trim cs = sign.letters ++ body →
        (readMillis body).map sign.apply = .ok ms → Spelled cs ms := by
      intro sign body htrim hread
      obtain ⟨n, hn, rfl⟩ := map_eq_ok_iff.1 hread
      rw [hcs, htrim]
      exact .intro sign hbefore (readMillis_eq_ok_iff.1 hn) hafter
    unfold readSignedMillis at h
    split at h
    · rename_i body htrim
      exact hspelled .minus body htrim ((map_minus _).symm.trans h)
    · rename_i body htrim
      exact hspelled .plus body htrim h
    · exact hspelled .absent (Text.trim cs) rfl h
  · rintro ⟨sign, hbefore, hamount, hafter⟩
    rw [readSignedMillis_append hbefore hamount.isAlphanum hafter]
    exact map_eq_ok_iff.2 ⟨_, readMillis_eq_ok_iff.2 hamount, rfl⟩

theorem Amounts.le_maxInt64 {body : List Char} {n : Nat} (h : Amounts body n) : n ≤ Text.maxInt64 := by
  cases h with
  | zero => exact Nat.zero_le _
  | terms ts _ _ hsum => exact hsum

/-- Whatever is spelled is a number of 64 bits with a sign. -/
theorem Spelled.natAbs_le {cs : List Char} {ms : Int} (h : Spelled cs ms) :
    ms.natAbs ≤ Text.maxInt64 := by
  cases h with
  | intro sign _ amount _ =>
    have hle := amount.le_maxInt64
    cases sign <;> simpa [Sign.apply] using hle

/-- Terms may be read in any order. -/
theorem readMillis_perm {ts ts' : List TimeTerm} (h : ts.Perm ts') {n : Nat}
    (hread : readMillis (texts ts) = .ok n) : readMillis (texts ts') = .ok n := by
  by_cases hne : ts = []
  · subst hne
    rw [List.nil_perm.1 h]
    exact hread
  · have hne' : ts' ≠ [] := by
      rintro rfl
      exact hne h.eq_nil
    rw [readMillis_texts hne, total_perm h] at hread
    exact (readMillis_texts hne' n).2 hread

theorem readSignedMillis_perm {before after : List Char}
    (hbefore : ∀ c ∈ before, Text.isBlank c = true) (hafter : ∀ c ∈ after, Text.isBlank c = true)
    (sign : Sign) {ts ts' : List TimeTerm} (h : ts.Perm ts') {ms : Int}
    (hread : readSignedMillis (before ++ (sign.letters ++ texts ts) ++ after) = .ok ms) :
    readSignedMillis (before ++ (sign.letters ++ texts ts') ++ after) = .ok ms := by
  rw [readSignedMillis_append hbefore (fun c => isAlphanum_of_mem_texts) hafter] at hread ⊢
  obtain ⟨n, hn, rfl⟩ := map_eq_ok_iff.1 hread
  exact map_eq_ok_iff.2 ⟨n, readMillis_perm h hn, rfl⟩

namespace Span

theorem parse_eq_ok_iff {s : String} {v : Span} :
    parse s = .ok v ↔ ∃ ms, readSignedMillis s.toList = .ok ms ∧ v = ofMillis ms := by
  unfold parse
  cases readSignedMillis s.toList with
  | error fault =>
    constructor
    · intro h
      cases h
    · rintro ⟨ms, h, -⟩
      cases h
  | ok ms =>
    constructor
    · intro h
      exact ⟨ms, rfl, (Except.ok.inj h).symm⟩
    · rintro ⟨ms', h, rfl⟩
      rw [Except.ok.inj h]

theorem parse_ok_or_error (s : String) :
    (∃ v, parse s = .ok v) ∨ ∃ fault : DurationFault, parse s = .error (fault.toFailure s) := by
  unfold parse
  cases readSignedMillis s.toList with
  | error fault => exact Or.inr ⟨fault, rfl⟩
  | ok ms => exact Or.inl ⟨_, rfl⟩

end Span

namespace Duration

theorem parse_eq_ok_iff {s : String} {d : Duration} :
    parse s = .ok d ↔ ∃ n : Nat, readSignedMillis s.toList = .ok (n : Int) ∧ d = ofMillis n := by
  unfold parse
  cases readSignedMillis s.toList with
  | error fault =>
    constructor
    · intro h
      cases h
    · rintro ⟨n, h, -⟩
      cases h
  | ok ms =>
    dsimp only
    by_cases hneg : ms < 0
    · rw [if_pos hneg]
      constructor
      · intro h
        cases h
      · rintro ⟨n, h, -⟩
        have hms := Except.ok.inj h
        omega
    · rw [if_neg hneg]
      constructor
      · intro h
        refine ⟨ms.toNat, ?_, (Except.ok.inj h).symm⟩
        rw [Int.toNat_of_nonneg (by omega)]
      · rintro ⟨n, h, rfl⟩
        rw [Except.ok.inj h]
        rfl

/-- A length that is not negative is read with and without regard to signs, and as the same. -/
theorem parse_eq_ok_iff_span {s : String} {d : Duration} :
    parse s = .ok d ↔ Span.parse s = .ok ⟨d.nanos⟩ := by
  rw [parse_eq_ok_iff, Span.parse_eq_ok_iff]
  constructor
  · rintro ⟨n, hn, rfl⟩
    exact ⟨n, hn, rfl⟩
  · rintro ⟨ms, hms, hspan⟩
    have hnanos : (d.nanos : Int) = ms * 1000000 := congrArg Span.nanos hspan
    obtain ⟨nanos⟩ := d
    dsimp only at hnanos
    refine ⟨ms.toNat, ?_, ?_⟩
    · rw [hms, Int.toNat_of_nonneg (by omega)]
    · show Duration.mk nanos = ⟨ms.toNat * 1000000⟩
      rw [show nanos = ms.toNat * 1000000 by omega]

theorem parse_ok_or_error (s : String) :
    (∃ d, parse s = .ok d) ∨ ∃ fault : DurationFault, parse s = .error (fault.toFailure s) := by
  unfold parse
  cases readSignedMillis s.toList with
  | error fault => exact Or.inr ⟨fault, rfl⟩
  | ok ms =>
    dsimp only
    split
    · exact Or.inr ⟨.negative, rfl⟩
    · exact Or.inl ⟨_, rfl⟩

end Duration

/-- A text is read as a signed length exactly if it is spelled as the grammar says, and as the length that it
spells. The order of its terms does not matter. A length that is not negative is also read where no
sign is looked for, and no other text is. Whatever is not read is a fault of the request. -/
theorem parsed_iff_spelled (s : String) :
    (∀ v, Span.parse s = .ok v ↔ ∃ ms, Spelled s.toList ms ∧ v = .ofMillis ms) ∧
    (∀ before after sign ts ts', (∀ c ∈ before ++ after, Text.isBlank c = true) → List.Perm ts ts' →
      s.toList = before ++ (Sign.letters sign ++ texts ts) ++ after → ∀ v, Span.parse s = .ok v →
        Span.parse (.ofList (before ++ (Sign.letters sign ++ texts ts') ++ after)) = .ok v) ∧
    (∀ d, Duration.parse s = .ok d ↔ Span.parse s = .ok ⟨d.nanos⟩) ∧
    ((∃ v, Span.parse s = .ok v) ∨ ∃ fault, Span.parse s =
      .error (.invalidRequest ("invalid duration '" ++ s ++ "': " ++ DurationFault.reason fault))) ∧
    ((∃ d, Duration.parse s = .ok d) ∨ ∃ fault, Duration.parse s =
      .error (.invalidRequest ("invalid duration '" ++ s ++ "': " ++ DurationFault.reason fault))) := by
  refine ⟨fun v => ?_, fun before after sign ts ts' hblank hperm hs v hread => ?_,
    fun d => Duration.parse_eq_ok_iff_span, Span.parse_ok_or_error s, Duration.parse_ok_or_error s⟩
  · rw [Span.parse_eq_ok_iff]
    simp only [readSignedMillis_eq_ok_iff]
  · obtain ⟨ms, hms, rfl⟩ := Span.parse_eq_ok_iff.1 hread
    rw [hs] at hms
    have hbefore : ∀ c ∈ before, Text.isBlank c = true :=
      fun c hc => hblank c (List.mem_append_left _ hc)
    have hafter : ∀ c ∈ after, Text.isBlank c = true :=
      fun c hc => hblank c (List.mem_append_right _ hc)
    refine Span.parse_eq_ok_iff.2 ⟨ms, ?_, rfl⟩
    rw [String.toList_ofList]
    exact readSignedMillis_perm hbefore hafter sign hperm hms

/-- An hour and a half before, between an em space and a line feed, read in either order of its terms; where no
sign is looked for it is not read. -/
theorem parsed_iff_spelled_of_hour_and_half :
    Span.parse "\u2003-1h30m\n" = .ok (.ofMillis (-5400000)) ∧
      Span.parse "\u2003-30m1h\n" = .ok (.ofMillis (-5400000)) ∧
      ∀ d, Duration.parse "\u2003-1h30m\n" ≠ .ok d := by
  let hour : TimeTerm := ⟨['1'], .hour, by decide, List.all_eq_true.1 (by decide)⟩
  let half : TimeTerm := ⟨['3', '0'], .minute, by decide, List.all_eq_true.1 (by decide)⟩
  have htext : "\u2003-1h30m\n".toList =
      ['\u2003'] ++ (Sign.minus.letters ++ texts [hour, half]) ++ ['\n'] := by
    decide +kernel
  have hswapped : "\u2003-30m1h\n".toList =
      ['\u2003'] ++ (Sign.minus.letters ++ texts [half, hour]) ++ ['\n'] := by
    decide +kernel
  have htotal : total [hour, half] = 5400000 := by decide +kernel
  have hamount : Amounts (texts [hour, half]) 5400000 := by
    rw [← htotal]
    exact amounts_texts (List.cons_ne_nil _ _) (by decide +kernel)
  have hspelled : Spelled "\u2003-1h30m\n".toList (-5400000) := by
    rw [htext]
    exact .intro .minus (List.all_eq_true.1 (by decide)) hamount (List.all_eq_true.1 (by decide))
  obtain ⟨hparsed, hordered, hunsigned, -⟩ := parsed_iff_spelled "\u2003-1h30m\n"
  have hread := (hparsed _).2 ⟨_, hspelled, rfl⟩
  refine ⟨hread, ?_, ?_⟩
  · rw [← @String.ofList_toList "\u2003-30m1h\n", hswapped]
    exact hordered _ _ .minus _ _ (List.all_eq_true.1 (by decide)) (List.Perm.swap half hour []) htext _ hread
  · intro d hd
    have hspan := Except.ok.inj (hread.symm.trans ((hunsigned d).1 hd))
    have hnanos : (-5400000 : Int) * 1000000 = d.nanos := congrArg Span.nanos hspan
    omega

end BurnAfterRead
