import BurnAfterRead.Json.Reader
import Mathlib.Data.List.DropRight
import Mathlib.Data.List.TakeWhile

/-!
# The grammar of JSON, and what the reader's parts take

What a text, a number or a word looks like is said without a reader: each relation tells the characters
that stand there, and where it matters what they mean. For each of them, the part of the reader that is
meant for it takes such characters, and no others.
-/

namespace BurnAfterRead.Json

/-- If both parts go well, the whole does. -/
theorem bind_eq_ok_iff {α β : Type} {x : Except Fault α} {f : α → Except Fault β} {b : β} :
    x >>= f = .ok b ↔ ∃ a, x = .ok a ∧ f a = .ok b := by
  cases x with
  | error fault =>
    refine iff_of_false (fun h => nomatch h) ?_
    rintro ⟨a, h, -⟩
    cases h
  | ok a =>
    refine ⟨fun h => ⟨a, rfl, h⟩, ?_⟩
    rintro ⟨a', h, h'⟩
    cases h
    exact h'

/-! ## Blanks -/

/-- Blanks may stand before and after every part of a value. -/
def Blank (ws : List Char) : Prop := ∀ c ∈ ws, isSpace c = true

theorem skipSpace_append {ws : List Char} (h : Blank ws) (cs : List Char) :
    skipSpace (ws ++ cs) = skipSpace cs :=
  List.dropWhile_append_of_pos h

theorem skipSpace_cons {c : Char} (h : isSpace c = false) (cs : List Char) :
    skipSpace (c :: cs) = c :: cs :=
  List.dropWhile_cons_of_neg (by rw [h]; exact Bool.false_ne_true)

theorem exists_blank (cs : List Char) : ∃ ws, Blank ws ∧ cs = ws ++ skipSpace cs :=
  ⟨cs.takeWhile isSpace, fun _ h => List.mem_takeWhile_imp h, List.takeWhile_append_dropWhile.symm⟩

theorem skipSpace_skipSpace (cs : List Char) : skipSpace (skipSpace cs) = skipSpace cs :=
  List.dropWhile_idempotent _ _

theorem skipSpace_eq_nil_iff {cs : List Char} : skipSpace cs = [] ↔ Blank cs := List.dropWhile_eq_nil_iff

theorem skipSpace_append_cons {ws : List Char} (h : Blank ws) {c : Char} (hc : isSpace c = false)
    (rest : List Char) : skipSpace (ws ++ c :: rest) = c :: rest := by
  rw [skipSpace_append h, skipSpace_cons hc]

/-- A character that is no blank is found behind blanks only. -/
theorem skipSpace_eq_cons_iff {c : Char} {cs rest : List Char} (hc : isSpace c = false) :
    skipSpace cs = c :: rest ↔ ∃ ws, Blank ws ∧ cs = ws ++ c :: rest := by
  constructor
  · intro h
    obtain ⟨ws, hws, hcs⟩ := exists_blank cs
    exact ⟨ws, hws, by rw [hcs, h]⟩
  · rintro ⟨ws, hws, rfl⟩
    exact skipSpace_append_cons hws hc rest

/-! ## Texts -/

/-- Four hexadecimal digits, and the number that they stand for. -/
inductive HexUnit : List Char → Nat → Prop where
  | mk {a b c d : Char} {p q r s : Nat} (ha : Text.hexValue? a = some p) (hb : Text.hexValue? b = some q)
      (hc : Text.hexValue? c = some r) (hd : Text.hexValue? d = some s) :
      HexUnit [a, b, c, d] (((p * 16 + q) * 16 + r) * 16 + s)

/-- The digits of one escape, or of two that form one character. -/
inductive CodePoint : List Char → Char → Prop where
  | single {ds : List Char} {n : Nat} (h : HexUnit ds n) (low : isLowSurrogate n = false)
      (high : isHighSurrogate n = false) : CodePoint ds (Char.ofNat n)
  | pair {ds ds' : List Char} {n m : Nat} (h : HexUnit ds n) (high : isHighSurrogate n = true)
      (h' : HexUnit ds' m) (low : isLowSurrogate m = true) :
      CodePoint (ds ++ '\\' :: 'u' :: ds') (Char.ofNat (0x10000 + (n - 0xD800) * 0x400 + (m - 0xDC00)))

/-- A character of a text, and how it is written there. -/
inductive CharText : List Char → Char → Prop where
  | plain {c : Char} (quote : c ≠ '"') (slash : c ≠ '\\') (printable : 32 ≤ c.toNat) : CharText [c] c
  | letter {e c : Char} (h : simpleEscape? e = some c) : CharText ['\\', e] c
  | code {ds : List Char} {c : Char} (h : CodePoint ds c) : CharText ('\\' :: 'u' :: ds) c

/-- What stands between the quotes of a text, and the text. -/
inductive TextBody : List Char → List Char → Prop where
  | nil : TextBody [] []
  | cons {w raw cs : List Char} {c : Char} (h : CharText w c) (rest : TextBody raw cs) :
      TextBody (w ++ raw) (c :: cs)

/-- A character or an escape of a text that nobody reads: the escape may be half of a character. -/
inductive LooseChar : List Char → Prop where
  | plain {c : Char} (quote : c ≠ '"') (slash : c ≠ '\\') (printable : 32 ≤ c.toNat) : LooseChar [c]
  | letter {e c : Char} (h : simpleEscape? e = some c) : LooseChar ['\\', e]
  | code {ds : List Char} {n : Nat} (h : HexUnit ds n) : LooseChar ('\\' :: 'u' :: ds)

/-- What stands between the quotes of a text that nobody reads. -/
inductive LooseBody : List Char → Prop where
  | nil : LooseBody []
  | cons {w raw : List Char} (h : LooseChar w) (rest : LooseBody raw) : LooseBody (w ++ raw)

theorem readUnit?_eq_some_iff {cs rest : List Char} {n : Nat} :
    readUnit? cs = some (n, rest) ↔ ∃ ds, HexUnit ds n ∧ cs = ds ++ rest := by
  constructor
  · intro h
    unfold readUnit? at h
    split at h
    · rename_i a b c d more
      simp only [Option.bind_eq_bind, Option.bind_eq_some_iff] at h
      obtain ⟨p, hp, q, hq, r, hr, s, hs, h⟩ := h
      obtain ⟨rfl, rfl⟩ := Prod.mk.inj (Option.some.inj h)
      exact ⟨_, .mk hp hq hr hs, rfl⟩
    · cases h
  · rintro ⟨ds, ⟨ha, hb, hc, hd⟩, rfl⟩
    simp only [readUnit?, List.cons_append, List.nil_append, ha, hb, hc, hd, Option.bind_eq_bind,
      Option.bind_some]

theorem readCodePoint?_eq_some_iff {cs rest : List Char} {c : Char} :
    readCodePoint? cs = some (c, rest) ↔ ∃ ds, CodePoint ds c ∧ cs = ds ++ rest := by
  constructor
  · intro h
    simp only [readCodePoint?, Option.bind_eq_bind, Option.bind_eq_some_iff, Prod.exists] at h
    obtain ⟨n, more, hunit, h⟩ := h
    obtain ⟨ds, hds, rfl⟩ := readUnit?_eq_some_iff.1 hunit
    split at h
    · cases h
    rename_i hlow
    split at h
    · rename_i hhigh
      split at h
      · rename_i more
        simp only [Option.bind_eq_some_iff, Prod.exists] at h
        obtain ⟨m, more, hunit', h⟩ := h
        obtain ⟨ds', hds', rfl⟩ := readUnit?_eq_some_iff.1 hunit'
        split at h
        · rename_i hlow'
          obtain ⟨rfl, rfl⟩ := Prod.mk.inj (Option.some.inj h)
          exact ⟨_, .pair hds hhigh hds' hlow', by simp⟩
        · cases h
      · cases h
    · rename_i hhigh
      obtain ⟨rfl, rfl⟩ := Prod.mk.inj (Option.some.inj h)
      exact ⟨ds, .single hds (by simpa using hlow) (by simpa using hhigh), rfl⟩
  · rintro ⟨ds, h, rfl⟩
    cases h with
    | single h low high =>
      simp only [readCodePoint?, readUnit?_eq_some_iff.2 ⟨_, h, rfl⟩, Option.bind_eq_bind,
        Option.bind_some, low, high, Bool.false_eq_true, if_false]
    | @pair ds ds' n m h high h' low =>
      have hlow : isLowSurrogate n = false := by
        unfold isHighSurrogate at high
        unfold isLowSurrogate
        simp only [Bool.and_eq_true, decide_eq_true_eq] at high
        rw [decide_eq_false (by omega), Bool.false_and]
      have hunit : readUnit? (ds ++ '\\' :: 'u' :: ds' ++ rest) = some (n, '\\' :: 'u' :: (ds' ++ rest)) :=
        readUnit?_eq_some_iff.2 ⟨ds, h, by simp⟩
      simp only [readCodePoint?, hunit, readUnit?_eq_some_iff.2 ⟨_, h', rfl⟩, Option.bind_eq_bind,
        Option.bind_some, low, high, hlow, Bool.false_eq_true, if_false, if_true]

/-! ### Bytes that are not UTF-8 -/

theorem looseBody_unreadable : LooseBody unreadable := by
  have plain : LooseChar ['\ufffd'] := .plain (by decide) (by decide) (by decide)
  have half : LooseChar ['\\', 'u', 'd', '8', '0', '0'] := .code (.mk rfl rfl rfl rfl)
  exact .cons plain (.cons half (.cons plain .nil))

theorem HexUnit.not_mem {ds : List Char} {n : Nat} (h : HexUnit ds n) {c : Char}
    (hc : Text.hexValue? c = none) : c ∉ ds := by
  obtain ⟨ha, hb, hc', hd⟩ := h
  intro hmem
  simp only [List.mem_cons, List.not_mem_nil, or_false] at hmem
  obtain rfl | rfl | rfl | rfl := hmem <;> simp_all

/-- A character is written with the mark's first one only if it is that character. -/
theorem CharText.eq_singleton {w : List Char} {c : Char} (h : CharText w c) (hmem : '\ufffd' ∈ w) :
    w = ['\ufffd'] := by
  have hexNone : Text.hexValue? '\ufffd' = none := by decide
  cases h with
  | plain => rw [List.mem_singleton.1 hmem]
  | letter he =>
    simp only [List.mem_cons, List.not_mem_nil, or_false] at hmem
    obtain h | rfl := hmem
    · cases h
    · cases he
  | code hcode =>
    cases hcode with
    | single h => simp [h.not_mem hexNone] at hmem
    | pair h _ h' => simp [h.not_mem hexNone, h'.not_mem hexNone] at hmem

/-- An escape that is half of a character needs the other half. -/
theorem TextBody.ne_half {raw cs back : List Char} (h : TextBody raw cs) :
    raw ≠ '\\' :: 'u' :: 'd' :: '8' :: '0' :: '0' :: '\ufffd' :: back := by
  intro hraw
  cases h with
  | nil => cases hraw
  | cons h rest =>
    cases h with
    | plain _ slash => exact slash (List.cons.inj hraw).1
    | letter he =>
      obtain ⟨-, hraw⟩ := List.cons.inj hraw
      obtain ⟨rfl, -⟩ := List.cons.inj hraw
      cases he
    | code hcode =>
      obtain ⟨-, hraw⟩ := List.cons.inj hraw
      obtain ⟨-, hraw⟩ := List.cons.inj hraw
      have hread := readCodePoint?_eq_some_iff.2 ⟨_, hcode, hraw.symm⟩
      cases hread

/-- In a text that is read there is no mark; so every field is made of bytes that are UTF-8. -/
theorem TextBody.not_infix_unreadable {raw cs : List Char} (h : TextBody raw cs) :
    ¬unreadable <:+: raw := by
  induction h with
  | nil => exact fun h => absurd (List.infix_nil.1 h) (by decide)
  | @cons w raw cs c h rest ih =>
    rintro ⟨front, back, hwhole⟩
    rw [List.append_assoc] at hwhole
    rcases List.append_eq_append_iff.1 hwhole.symm with ⟨more, -, hraw⟩ | ⟨last, hw, hmark⟩
    · exact ih ⟨more, back, by rw [hraw, List.append_assoc]⟩
    · cases last with
      | nil => exact ih ⟨[], back, hmark⟩
      | cons x last =>
        -- The mark begins within the character, which therefore is the mark's first one.
        obtain ⟨rfl, hrest⟩ := List.cons.inj hmark
        have hlen := congrArg List.length
          (hw.symm.trans (h.eq_singleton (hw ▸ List.mem_append_right _ List.mem_cons_self)))
        rw [List.length_append, List.length_cons, List.length_singleton] at hlen
        obtain rfl : last = [] := List.length_eq_zero_iff.1 (by omega)
        exact rest.ne_half hrest.symm

theorem TextBody.length_le {raw cs : List Char} (h : TextBody raw cs) : cs.length ≤ raw.length := by
  induction h with
  | nil => exact Nat.le_refl 0
  | cons h _ ih =>
    rw [List.length_append, List.length_cons]
    cases h <;> simp only [List.length_cons] <;> omega

/-- Reading a text goes on behind its first character. -/
theorem readTextBody_char {w : List Char} {c : Char} (h : CharText w c) (fuel : Nat)
    (acc rest : List Char) :
    readTextBody (fuel + 1) acc (w ++ rest) = readTextBody fuel (c :: acc) rest := by
  cases h with
  | plain quote slash printable =>
    rw [List.singleton_append, readTextBody]
    · rw [if_neg (not_or.2 ⟨slash, Nat.not_lt.2 printable⟩)]
    · exact quote
    · exact fun _ h => absurd h slash
    · exact fun _ _ h => absurd h slash
  | @letter e _ h =>
    have hletter : e ≠ 'u' := by
      rintro rfl
      cases h
    rw [List.cons_append, List.singleton_append, readTextBody]
    · rw [h]
    · exact hletter
  | @code ds _ h =>
    rw [List.cons_append, List.cons_append, readTextBody]
    rw [readCodePoint?_eq_some_iff.2 ⟨ds, h, rfl⟩]

theorem readTextBody_append {raw cs : List Char} (h : TextBody raw cs) {fuel : Nat}
    (hfuel : cs.length < fuel) (acc rest : List Char) :
    readTextBody fuel acc (raw ++ '"' :: rest) = .ok (acc.reverse ++ cs, rest) := by
  induction h generalizing fuel acc with
  | nil =>
    obtain ⟨fuel, rfl⟩ := Nat.exists_eq_add_of_lt hfuel
    rw [List.append_nil]
    rfl
  | @cons w raw cs c h _ ih =>
    obtain ⟨fuel, rfl⟩ : ∃ k, fuel = k + 1 := ⟨fuel - 1, by omega⟩
    rw [List.append_assoc, readTextBody_char h, ih (by rw [List.length_cons] at hfuel; omega),
      List.reverse_cons, List.append_assoc, List.singleton_append]

theorem exists_textBody {fuel : Nat} {acc cs s rest : List Char}
    (h : readTextBody fuel acc cs = .ok (s, rest)) :
    ∃ raw t, TextBody raw t ∧ cs = raw ++ '"' :: rest ∧ s = acc.reverse ++ t := by
  fun_induction readTextBody fuel acc cs with
  | case1 => cases h
  | case2 => cases h
  | case3 =>
    cases h
    exact ⟨[], [], .nil, rfl, (List.append_nil _).symm⟩
  | case4 fuel acc more c rest' hread ih =>
    obtain ⟨raw, t, ht, rfl, rfl⟩ := ih h
    obtain ⟨ds, hds, rfl⟩ := readCodePoint?_eq_some_iff.1 hread
    exact ⟨_, _, .cons (.code hds) ht, by simp, by simp⟩
  | case5 => cases h
  | case6 fuel acc e more _ c hread ih =>
    obtain ⟨raw, t, ht, rfl, rfl⟩ := ih h
    exact ⟨_, _, .cons (.letter hread) ht, by simp, by simp⟩
  | case7 => cases h
  | case8 => cases h
  | case9 fuel acc c more hquote _ _ hplain ih =>
    obtain ⟨raw, t, ht, rfl, rfl⟩ := ih h
    obtain ⟨slash, printable⟩ := not_or.1 hplain
    exact ⟨_, _, .cons (.plain hquote slash (Nat.not_lt.1 printable)) ht, by simp, by simp⟩

/-- A text is read up to its closing quote, as what it stands for. -/
theorem readText_eq_ok_iff {cs s rest : List Char} :
    readText cs = .ok (s, rest) ↔ ∃ raw, TextBody raw s ∧ cs = raw ++ '"' :: rest := by
  constructor
  · intro h
    obtain ⟨raw, t, ht, hcs, rfl⟩ := exists_textBody h
    exact ⟨raw, ht, hcs⟩
  · rintro ⟨raw, h, rfl⟩
    have hlen := h.length_le
    unfold readText
    rw [readTextBody_append h (by rw [List.length_append, List.length_cons]; omega)]
    rfl

theorem LooseBody.skipText {raw : List Char} (h : LooseBody raw) {fuel : Nat}
    (hfuel : raw.length < fuel) (rest : List Char) : skipText fuel (raw ++ '"' :: rest) = .ok rest := by
  induction h generalizing fuel with
  | nil =>
    obtain ⟨fuel, rfl⟩ := Nat.exists_eq_add_of_lt hfuel
    rfl
  | @cons w raw h _ ih =>
    obtain ⟨fuel, rfl⟩ : ∃ k, fuel = k + 1 := ⟨fuel - 1, by omega⟩
    rw [List.length_append] at hfuel
    rw [List.append_assoc]
    cases h with
    | plain quote slash printable =>
      rw [List.singleton_append, Json.skipText]
      · rw [if_neg (not_or.2 ⟨slash, Nat.not_lt.2 printable⟩)]
        exact ih (by rw [List.length_singleton] at hfuel; omega)
      · exact quote
      · exact fun _ h => absurd h slash
      · exact fun _ _ h => absurd h slash
    | @letter e _ h =>
      have hletter : e ≠ 'u' := by
        rintro rfl
        cases h
      rw [List.cons_append, List.singleton_append, Json.skipText]
      · rw [h]
        exact ih (by simp only [List.length_cons] at hfuel; omega)
      · exact hletter
    | @code ds _ h =>
      rw [List.cons_append, List.cons_append, Json.skipText, readUnit?_eq_some_iff.2 ⟨ds, h, rfl⟩]
      exact ih (by simp only [List.length_cons] at hfuel; omega)

theorem exists_looseBody {fuel : Nat} {cs rest : List Char} (h : skipText fuel cs = .ok rest) :
    ∃ raw, LooseBody raw ∧ cs = raw ++ '"' :: rest := by
  fun_induction skipText fuel cs with
  | case1 => cases h
  | case2 => cases h
  | case3 =>
    cases h
    exact ⟨[], .nil, rfl⟩
  | case4 fuel more n rest' hread ih =>
    obtain ⟨raw, hraw, rfl⟩ := ih h
    obtain ⟨ds, hds, rfl⟩ := readUnit?_eq_some_iff.1 hread
    exact ⟨_, .cons (.code hds) hraw, by simp⟩
  | case5 => cases h
  | case6 fuel e more _ c hread ih =>
    obtain ⟨raw, hraw, rfl⟩ := ih h
    exact ⟨_, .cons (.letter hread) hraw, by simp⟩
  | case7 => cases h
  | case8 => cases h
  | case9 fuel c more hquote _ _ hplain ih =>
    obtain ⟨raw, hraw, rfl⟩ := ih h
    obtain ⟨slash, printable⟩ := not_or.1 hplain
    exact ⟨_, .cons (.plain hquote slash (Nat.not_lt.1 printable)) hraw, by simp⟩

theorem skipText_eq_ok_iff {cs rest : List Char} :
    skipText (cs.length + 1) cs = .ok rest ↔ ∃ raw, LooseBody raw ∧ cs = raw ++ '"' :: rest := by
  constructor
  · exact exists_looseBody
  · rintro ⟨raw, h, rfl⟩
    exact h.skipText (by rw [List.length_append]; omega) rest

/-! ## Numbers and words -/

def Digits (ds : List Char) : Prop := ds ≠ [] ∧ ∀ c ∈ ds, c.isDigit = true

/-- What may stand behind the digits of a number to tell its scale. -/
inductive Exponent : List Char → Prop where
  | absent : Exponent []
  | present {e : Char} {sign ds : List Char} (letter : e = 'e' ∨ e = 'E')
      (signed : sign = [] ∨ sign = ['+'] ∨ sign = ['-']) (digits : Digits ds) :
      Exponent (e :: (sign ++ ds))

/-- The digits in front of the point; only zero itself starts with a zero. -/
structure Whole (ds : List Char) : Prop where
  digits : Digits ds
  canonical : ¬(ds.length > 1 ∧ ds.head? = some '0')

/-- A number without its sign. -/
inductive Number : List Char → Prop where
  | whole {ds scale : List Char} (whole : Whole ds) (exponent : Exponent scale) : Number (ds ++ scale)
  | decimal {ds places scale : List Char} (whole : Whole ds) (digits : Digits places)
      (exponent : Exponent scale) : Number (ds ++ '.' :: (places ++ scale))

/-- No number goes on here. -/
def NumberEnds (cs : List Char) : Prop :=
  ∀ c ∈ cs.head?, c.isDigit = false ∧ c ≠ '.' ∧ c ≠ 'e' ∧ c ≠ 'E'

/-- Blanks end a number. -/
theorem numberEnds_append {ws : List Char} (h : Blank ws) {c : Char} {rest : List Char}
    (hc : NumberEnds (c :: rest)) : NumberEnds (ws ++ c :: rest) := by
  cases ws with
  | nil => exact hc
  | cons b ws =>
    rintro _ ⟨⟩
    have hb : isSpace b = true := h b List.mem_cons_self
    unfold isSpace at hb
    simp only [Bool.or_eq_true, decide_eq_true_eq] at hb
    rcases hb with ((rfl | rfl) | rfl) | rfl <;> decide

theorem digits_takeWhile {cs : List Char} (h : cs.takeWhile Char.isDigit ≠ []) :
    Digits (cs.takeWhile Char.isDigit) :=
  ⟨h, fun _ hc => List.mem_takeWhile_imp hc⟩

section Digits

variable {ds rest : List Char} (h : Digits ds) (ends : ∀ c ∈ rest.head?, c.isDigit = false)
include h ends

theorem takeWhile_digits : (ds ++ rest).takeWhile Char.isDigit = ds := by
  rw [List.takeWhile_append_of_pos h.2]
  cases rest with
  | nil => rw [List.takeWhile_nil, List.append_nil]
  | cons c rest =>
    rw [List.takeWhile_cons_of_neg (by rw [ends c rfl]; exact Bool.false_ne_true), List.append_nil]

theorem dropWhile_digits : (ds ++ rest).dropWhile Char.isDigit = rest := by
  rw [List.dropWhile_append_of_pos h.2]
  cases rest with
  | nil => rfl
  | cons c rest => rw [List.dropWhile_cons_of_neg (by rw [ends c rfl]; exact Bool.false_ne_true)]

end Digits

/-- Reads the digits of an exponent whose sign is known. -/
def readScale (digits : Nat) (exponent : Int) (negative : Bool) (cs : List Char) : Except Fault Numeral :=
  let ds := cs.takeWhile Char.isDigit
  if ds = [] then .error .malformed
  else
    let n : Int := Text.digitsValue ds
    .ok ⟨digits, exponent + (if negative then -n else n), cs.dropWhile Char.isDigit⟩

section Exponent

variable {digits : Nat} {exponent : Int} {n : Numeral}

variable (digits exponent) in
theorem exists_sign {e : Char} (letter : e = 'e' ∨ e = 'E') (tail : List Char) :
    ∃ sign t negative, (sign = [] ∨ sign = ['+'] ∨ sign = ['-']) ∧ tail = sign ++ t ∧
      readExponent digits exponent (e :: tail) = readScale digits exponent negative t := by
  unfold readExponent
  dsimp only
  rw [if_pos letter]
  split
  · exact ⟨['-'], _, true, Or.inr (Or.inr rfl), rfl, rfl⟩
  · exact ⟨['+'], _, false, Or.inr (Or.inl rfl), rfl, rfl⟩
  · exact ⟨[], _, false, Or.inl rfl, rfl, rfl⟩

theorem exists_exponent {cs : List Char} (h : readExponent digits exponent cs = .ok n) :
    ∃ ex, Exponent ex ∧ cs = ex ++ n.rest := by
  cases cs with
  | nil =>
    cases h
    exact ⟨[], .absent, rfl⟩
  | cons e tail =>
    by_cases letter : e = 'e' ∨ e = 'E'
    · obtain ⟨sign, t, negative, signed, rfl, hscale⟩ := exists_sign digits exponent letter tail
      rw [hscale] at h
      unfold readScale at h
      dsimp only at h
      split at h
      · cases h
      · rename_i hdigits
        cases h
        refine ⟨_, .present letter signed (digits_takeWhile hdigits), ?_⟩
        rw [List.cons_append, List.append_assoc, List.takeWhile_append_dropWhile]
    · unfold readExponent at h
      dsimp only at h
      rw [if_neg letter] at h
      cases h
      exact ⟨[], .absent, rfl⟩

variable (digits exponent) in
theorem readScale_append {ds rest : List Char} (h : Digits ds) (ends : NumberEnds rest)
    (negative : Bool) : ∃ n, readScale digits exponent negative (ds ++ rest) = .ok n ∧ n.rest = rest := by
  have hends : ∀ c ∈ rest.head?, c.isDigit = false := fun c hc => (ends c hc).1
  unfold readScale
  dsimp only
  rw [takeWhile_digits h hends, dropWhile_digits h hends, if_neg h.1]
  exact ⟨_, rfl, rfl⟩

variable (digits exponent) in
theorem readExponent_append {ex rest : List Char} (h : Exponent ex) (ends : NumberEnds rest) :
    ∃ n, readExponent digits exponent (ex ++ rest) = .ok n ∧ n.rest = rest := by
  cases h with
  | absent =>
    rw [List.nil_append]
    cases rest with
    | nil => exact ⟨_, rfl, rfl⟩
    | cons c rest =>
      obtain ⟨-, -, he, hE⟩ := ends c rfl
      unfold readExponent
      dsimp only
      rw [if_neg (not_or.2 ⟨he, hE⟩)]
      exact ⟨_, rfl, rfl⟩
  | @present e sign ds letter signed hdigits =>
    have hscale := readScale_append digits exponent hdigits ends
    unfold readExponent
    rw [List.cons_append, List.append_assoc]
    dsimp only
    rw [if_pos letter]
    rcases signed with rfl | rfl | rfl
    · -- The first digit is no sign.
      have hd : ∀ d ∈ (ds ++ rest).head?, d.isDigit = true := by
        obtain ⟨d, ds, rfl⟩ := List.exists_cons_of_ne_nil hdigits.1
        rintro _ ⟨⟩
        exact hdigits.2 d List.mem_cons_self
      rw [List.nil_append]
      split
      · rename_i t heq
        exact absurd (hd '-' (by rw [heq]; rfl)) (by decide)
      · rename_i t heq
        exact absurd (hd '+' (by rw [heq]; rfl)) (by decide)
      · exact hscale false
    · exact hscale false
    · exact hscale true

theorem Exponent.head {ex rest : List Char} (h : Exponent ex) (ends : NumberEnds rest) :
    ∀ c ∈ (ex ++ rest).head?, c.isDigit = false ∧ c ≠ '.' := by
  intro c hc
  cases h with
  | absent => exact ⟨(ends c hc).1, (ends c hc).2.1⟩
  | present letter =>
    obtain rfl := Option.some.inj hc
    rcases letter with rfl | rfl <;> decide

end Exponent

/-- Only digits are numbers, with a point and an exponent if need be. -/
theorem exists_number {cs rest : List Char} (h : skipNumber cs = .ok rest) :
    ∃ w, Number w ∧ cs = w ++ rest := by
  obtain ⟨n, hread, rfl⟩ : ∃ n, readNumber cs = .ok n ∧ n.rest = rest := by
    unfold skipNumber at h
    cases hread : readNumber cs with
    | error fault =>
      rw [hread] at h
      cases h
    | ok n =>
      rw [hread] at h
      exact ⟨n, rfl, Except.ok.inj h⟩
  have hcs : cs.takeWhile Char.isDigit ++ cs.dropWhile Char.isDigit = cs :=
    List.takeWhile_append_dropWhile
  unfold readNumber at hread
  dsimp only at hread
  split at hread
  · cases hread
  rename_i hwhole
  obtain ⟨hne, canonical⟩ := not_or.1 hwhole
  have whole : Whole (cs.takeWhile Char.isDigit) := ⟨digits_takeWhile hne, canonical⟩
  split at hread
  · rename_i more hpoint
    split at hread
    · cases hread
    · rename_i hplaces
      obtain ⟨ex, hex, hmore⟩ := exists_exponent hread
      refine ⟨_, .decimal whole (digits_takeWhile hplaces) hex, ?_⟩
      rw [List.append_assoc, List.cons_append, List.append_assoc, ← hmore,
        List.takeWhile_append_dropWhile, ← hpoint, hcs]
  · obtain ⟨ex, hex, hmore⟩ := exists_exponent hread
    refine ⟨_, .whole whole hex, ?_⟩
    rw [List.append_assoc, ← hmore, hcs]

theorem Number.skip {w rest : List Char} (h : Number w) (ends : NumberEnds rest) :
    skipNumber (w ++ rest) = .ok rest := by
  suffices ∃ n, readNumber (w ++ rest) = .ok n ∧ n.rest = rest by
    obtain ⟨n, hread, rfl⟩ := this
    unfold skipNumber
    rw [hread]
    rfl
  cases h with
  | @whole ds scale whole exponent =>
    have hhead := exponent.head ends
    have hends : ∀ c ∈ (scale ++ rest).head?, c.isDigit = false := fun c hc => (hhead c hc).1
    unfold readNumber
    dsimp only
    rw [List.append_assoc, takeWhile_digits whole.digits hends, dropWhile_digits whole.digits hends,
      if_neg (not_or.2 ⟨whole.digits.1, whole.canonical⟩)]
    split
    · rename_i more hpoint
      exact absurd rfl (hhead '.' (by rw [hpoint]; rfl)).2
    · exact readExponent_append _ _ exponent ends
  | @decimal ds places scale whole digits exponent =>
    have hends : ∀ c ∈ ('.' :: (places ++ (scale ++ rest))).head?, c.isDigit = false := by
      rintro _ ⟨⟩
      rfl
    have hends' : ∀ c ∈ (scale ++ rest).head?, c.isDigit = false :=
      fun c hc => (exponent.head ends c hc).1
    unfold readNumber
    dsimp only
    rw [List.append_assoc, List.cons_append, List.append_assoc, takeWhile_digits whole.digits hends,
      dropWhile_digits whole.digits hends, if_neg (not_or.2 ⟨whole.digits.1, whole.canonical⟩)]
    split
    · rename_i more hpoint
      obtain rfl := (List.cons.inj hpoint).2
      rw [takeWhile_digits digits hends', dropWhile_digits digits hends', if_neg digits.1]
      exact readExponent_append _ _ exponent ends
    · rename_i hother
      exact absurd rfl (hother _)

theorem Number.exists_digit {w : List Char} (h : Number w) : ∃ d rest, w = d :: rest ∧ d.isDigit = true := by
  have hdigits {ds more : List Char} (h : Digits ds) : ∃ d rest, ds ++ more = d :: rest ∧ d.isDigit = true := by
    obtain ⟨d, ds, rfl⟩ := List.exists_cons_of_ne_nil h.1
    exact ⟨d, _, rfl, h.2 d List.mem_cons_self⟩
  cases h with
  | whole whole => exact hdigits whole.digits
  | decimal whole => exact hdigits whole.digits

theorem isSpace_of_isDigit {c : Char} (h : c.isDigit = true) : isSpace c = false := by
  unfold isSpace
  simp only [Bool.or_eq_false_iff, decide_eq_false_iff_not]
  refine ⟨⟨⟨?_, ?_⟩, ?_⟩, ?_⟩ <;> rintro rfl <;> exact absurd h (by decide)

theorem skipWord_eq_ok_iff {word cs rest : List Char} : skipWord word cs = .ok rest ↔ cs = word ++ rest := by
  induction word generalizing cs with
  | nil =>
    rw [skipWord, Except.ok.injEq]
    rfl
  | cons w word ih =>
    cases cs with
    | nil => exact iff_of_false (fun h => nomatch h) (List.cons_ne_nil _ _).symm
    | cons c cs =>
      rw [skipWord]
      split
      · rename_i heq
        rw [ih, heq, List.cons_append, List.cons_inj_right]
      · rename_i hne
        refine iff_of_false (fun h => nomatch h) fun h => hne ?_
        exact (List.cons.inj h).1.symm

end BurnAfterRead.Json
