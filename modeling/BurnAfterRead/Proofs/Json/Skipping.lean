import BurnAfterRead.Proofs.Json.Grammar

/-!
# Values that nobody reads

A member that the reader does not know is skipped, whatever its value is. The reader keeps the brackets
that are open in a list; the grammar says with each bracket what stands in it up to the bracket that
closes it. What the reader skips is a value followed by the ends of all that is open, and it skips every
value that is followed by something else than a number's rest.
-/

namespace BurnAfterRead.Json

/-- A value, or what follows the first value within an open bracket, up to its end. -/
inductive Part where
  | value
  | rest (b : Bracket)

/-- A member's name, and the colon behind it. -/
inductive MemberName : List Char → Prop where
  | mk {raw ws : List Char} (text : LooseBody raw) (blank : Blank ws) :
      MemberName ('"' :: (raw ++ '"' :: (ws ++ [':'])))

def words : List (List Char) := [['n', 'u', 'l', 'l'], ['t', 'r', 'u', 'e'], ['f', 'a', 'l', 's', 'e']]

/-- What a part of a text may look like. -/
inductive IsPart : Part → List Char → Prop where
  | blank {ws w : List Char} (blank : Blank ws) (value : IsPart .value w) : IsPart .value (ws ++ w)
  | text {raw : List Char} (h : LooseBody raw) : IsPart .value ('"' :: (raw ++ ['"']))
  | number {w : List Char} (h : Number w) : IsPart .value w
  | negative {w : List Char} (h : Number w) : IsPart .value ('-' :: w)
  | word {w : List Char} (h : w ∈ words) : IsPart .value w
  | emptyArray {ws : List Char} (blank : Blank ws) : IsPart .value ('[' :: (ws ++ [']']))
  | array {w u : List Char} (value : IsPart .value w) (rest : IsPart (.rest .array) u) :
      IsPart .value ('[' :: (w ++ u))
  | emptyObject {ws : List Char} (blank : Blank ws) : IsPart .value ('{' :: (ws ++ ['}']))
  | object {ws key w u : List Char} (blank : Blank ws) (name : MemberName key)
      (value : IsPart .value w) (rest : IsPart (.rest .object) u) :
      IsPart .value ('{' :: (ws ++ (key ++ (w ++ u))))
  | endArray {ws : List Char} (blank : Blank ws) : IsPart (.rest .array) (ws ++ [']'])
  | element {ws w u : List Char} (blank : Blank ws) (value : IsPart .value w)
      (rest : IsPart (.rest .array) u) : IsPart (.rest .array) (ws ++ ',' :: (w ++ u))
  | endObject {ws : List Char} (blank : Blank ws) : IsPart (.rest .object) (ws ++ ['}'])
  | member {ws ws' key w u : List Char} (blank : Blank ws) (blank' : Blank ws')
      (name : MemberName key) (value : IsPart .value w) (rest : IsPart (.rest .object) u) :
      IsPart (.rest .object) (ws ++ ',' :: (ws' ++ (key ++ (w ++ u))))

/-- What closes all open brackets, the innermost first. -/
inductive Closes : List Bracket → List Char → Prop where
  | nil : Closes [] []
  | cons {b : Bracket} {frames : List Bracket} {u v : List Char} (rest : IsPart (.rest b) u)
      (outer : Closes frames v) : Closes (b :: frames) (u ++ v)

theorem skipName_eq_ok_iff {cs rest : List Char} :
    skipName cs = .ok rest ↔ ∃ key, MemberName key ∧ cs = key ++ rest := by
  constructor
  · intro h
    unfold skipName at h
    split at h
    · rename_i more
      obtain ⟨after, hskip, hrest⟩ := bind_eq_ok_iff.1 h
      obtain ⟨raw, hraw, rfl⟩ := skipText_eq_ok_iff.1 hskip
      split at hrest
      · rename_i hcolon
        obtain ⟨ws, hws, rfl⟩ := (skipSpace_eq_cons_iff (by decide)).1 hcolon
        cases hrest
        exact ⟨_, .mk hraw hws, by simp⟩
      · cases hrest
    · cases h
  · rintro ⟨key, ⟨hraw, hws⟩, rfl⟩
    simp only [List.cons_append, List.append_assoc, List.nil_append, skipName]
    rw [skipText_eq_ok_iff.2 ⟨_, hraw, rfl⟩]
    simp only [bind, Except.bind, skipSpace_append_cons hws (c := ':') rfl]

theorem skipName_skipSpace {ws key : List Char} (blank : Blank ws) (name : MemberName key)
    (rest : List Char) : skipName (skipSpace (ws ++ (key ++ rest))) = .ok rest := by
  refine skipName_eq_ok_iff.2 ⟨key, name, ?_⟩
  cases name
  exact skipSpace_append_cons blank rfl _

/-- In that many rounds, nothing is skipped but a value and then the ends of all that is open. -/
def SkipsValues (fuel : Nat) : Prop :=
  ∀ {frames : List Bracket} {cs rest : List Char}, skipValue fuel frames cs = .ok rest →
    ∃ w u, IsPart .value w ∧ Closes frames u ∧ cs = w ++ (u ++ rest)

/-- In that many rounds, nothing is skipped behind a value but the ends of all that is open. -/
def SkipsEnds (fuel : Nat) : Prop :=
  ∀ {frames : List Bracket} {cs rest : List Char}, skipTail fuel frames cs = .ok rest →
    ∃ u, Closes frames u ∧ cs = u ++ rest

section Sound

variable {fuel : Nat} {frames : List Bracket} {cs rest : List Char}

/-- A value without brackets is followed by the ends of what is open. -/
theorem SkipsEnds.leaf (ends : SkipsEnds fuel) {r : Except Fault (List Char)}
    (h : r >>= skipTail fuel frames = .ok rest)
    (hr : ∀ after, r = .ok after → ∃ w, IsPart .value w ∧ cs = w ++ after) :
    ∃ w u, IsPart .value w ∧ Closes frames u ∧ cs = w ++ (u ++ rest) := by
  obtain ⟨after, hafter, h⟩ := bind_eq_ok_iff.1 h
  obtain ⟨w, hw, rfl⟩ := hr after hafter
  obtain ⟨u, hu, rfl⟩ := ends h
  exact ⟨w, u, hw, hu, rfl⟩

theorem exists_word {word more after : List Char} {c : Char} (hmem : c :: word ∈ words)
    (h : skipWord word more = .ok after) : ∃ w, IsPart .value w ∧ c :: more = w ++ after :=
  ⟨_, .word hmem, by rw [skipWord_eq_ok_iff.1 h, List.cons_append]⟩

theorem SkipsValues.succ (values : SkipsValues fuel) (ends : SkipsEnds fuel) :
    SkipsValues (fuel + 1) := by
  intro frames cs rest h
  obtain ⟨ws, hws, hcs⟩ := exists_blank cs
  suffices ∃ w u, IsPart .value w ∧ Closes frames u ∧ skipSpace cs = w ++ (u ++ rest) by
    obtain ⟨w, u, hw, hu, hspace⟩ := this
    exact ⟨_, u, .blank hws hw, hu, by rw [List.append_assoc, ← hspace, ← hcs]⟩
  rw [skipValue] at h
  split at h
  · cases h
  · rename_i hspace
    rw [hspace]
    refine ends.leaf h fun after hskip => ?_
    obtain ⟨raw, hraw, rfl⟩ := skipText_eq_ok_iff.1 hskip
    exact ⟨_, .text hraw, by simp⟩
  · rename_i more hspace
    rw [hspace]
    split at h
    · rename_i after hempty
      obtain ⟨ws', hws', rfl⟩ := (skipSpace_eq_cons_iff (by decide)).1 hempty
      obtain ⟨u, hu, rfl⟩ := ends h
      exact ⟨_, u, .emptyArray hws', hu, by simp⟩
    · obtain ⟨ws', hws', hmore⟩ := exists_blank more
      obtain ⟨w, u, hw, hu, hvalues⟩ := values h
      cases hu with
      | @cons _ _ u v hrest houter =>
        refine ⟨_, v, .array (.blank hws' hw) hrest, houter, ?_⟩
        rw [hmore, hvalues]
        simp
  · rename_i more hspace
    rw [hspace]
    split at h
    · rename_i after hempty
      obtain ⟨ws', hws', rfl⟩ := (skipSpace_eq_cons_iff (by decide)).1 hempty
      obtain ⟨u, hu, rfl⟩ := ends h
      exact ⟨_, u, .emptyObject hws', hu, by simp⟩
    · obtain ⟨ws', hws', hmore⟩ := exists_blank more
      obtain ⟨after, hname, h⟩ := bind_eq_ok_iff.1 h
      obtain ⟨key, hkey, hmember⟩ := skipName_eq_ok_iff.1 hname
      obtain ⟨w, u, hw, hu, rfl⟩ := values h
      cases hu with
      | @cons _ _ u v hrest houter =>
        refine ⟨_, v, .object hws' hkey hw hrest, houter, ?_⟩
        rw [hmore, hmember]
        simp
  · rename_i hspace
    rw [hspace]
    refine ends.leaf h fun after hskip => ?_
    obtain ⟨w, hw, rfl⟩ := exists_number hskip
    exact ⟨_, .negative hw, rfl⟩
  · rename_i hspace
    rw [hspace]
    exact ends.leaf h fun _ => exists_word (by decide)
  · rename_i hspace
    rw [hspace]
    exact ends.leaf h fun _ => exists_word (by decide)
  · rename_i hspace
    rw [hspace]
    exact ends.leaf h fun _ => exists_word (by decide)
  · refine ends.leaf h fun after hskip => ?_
    obtain ⟨w, hw, hcs⟩ := exists_number hskip
    exact ⟨w, .number hw, hcs⟩

theorem SkipsEnds.array (values : SkipsValues fuel) (ends : SkipsEnds fuel)
    (h : skipTail (fuel + 1) (.array :: frames) cs = .ok rest) :
    ∃ u, Closes (.array :: frames) u ∧ cs = u ++ rest := by
  rw [skipTail] at h
  split at h
  · rename_i more hcomma
    obtain ⟨ws, hws, rfl⟩ := (skipSpace_eq_cons_iff (by decide)).1 hcomma
    obtain ⟨w, u, hw, hu, rfl⟩ := values h
    cases hu with
    | cons hrest houter => exact ⟨_, .cons (.element hws hw hrest) houter, by simp⟩
  · rename_i more hend
    obtain ⟨ws, hws, rfl⟩ := (skipSpace_eq_cons_iff (by decide)).1 hend
    obtain ⟨u, hu, rfl⟩ := ends h
    exact ⟨_, .cons (.endArray hws) hu, by simp⟩
  · cases h

theorem SkipsEnds.object (values : SkipsValues fuel) (ends : SkipsEnds fuel)
    (h : skipTail (fuel + 1) (.object :: frames) cs = .ok rest) :
    ∃ u, Closes (.object :: frames) u ∧ cs = u ++ rest := by
  rw [skipTail] at h
  split at h
  · rename_i more hcomma
    obtain ⟨ws, hws, rfl⟩ := (skipSpace_eq_cons_iff (by decide)).1 hcomma
    obtain ⟨ws', hws', hmore⟩ := exists_blank more
    obtain ⟨after, hname, h⟩ := bind_eq_ok_iff.1 h
    obtain ⟨key, hkey, hmember⟩ := skipName_eq_ok_iff.1 hname
    obtain ⟨w, u, hw, hu, rfl⟩ := values h
    cases hu with
    | cons hrest houter =>
      refine ⟨_, .cons (.member hws hws' hkey hw hrest) houter, ?_⟩
      rw [hmore, hmember]
      simp
  · rename_i more hend
    obtain ⟨ws, hws, rfl⟩ := (skipSpace_eq_cons_iff (by decide)).1 hend
    obtain ⟨u, hu, rfl⟩ := ends h
    exact ⟨_, .cons (.endObject hws) hu, by simp⟩
  · cases h

theorem SkipsEnds.succ (values : SkipsValues fuel) (ends : SkipsEnds fuel) : SkipsEnds (fuel + 1) := by
  intro frames cs rest h
  cases frames with
  | nil =>
    rw [skipTail] at h
    cases h
    exact ⟨[], .nil, rfl⟩
  | cons b frames =>
    cases b with
    | array => exact ends.array values h
    | object => exact ends.object values h

end Sound

/-- By induction on the rounds, for both halves of the reader at once. -/
theorem skipsValues_and_skipsEnds (fuel : Nat) : SkipsValues fuel ∧ SkipsEnds fuel := by
  induction fuel with
  | zero =>
    constructor
    · intro frames cs rest h
      rw [skipValue] at h
      cases h
    · intro frames cs rest h
      rw [skipTail] at h
      cases h
  | succ fuel ih =>
    obtain ⟨values, ends⟩ := ih
    exact ⟨values.succ ends, ends.succ values⟩

theorem skipValue_skipSpace (fuel : Nat) (frames : List Bracket) (cs : List Char) :
    skipValue fuel frames (skipSpace cs) = skipValue fuel frames cs := by
  cases fuel with
  | zero => rfl
  | succ fuel => rw [skipValue, skipValue, skipSpace_skipSpace]

section Step

variable {fuel : Nat} {frames : List Bracket} {cs rest : List Char}

attribute [local simp] skipValue skipTail bind Except.bind

theorem skipValue_text (h : skipText (cs.length + 1) cs = .ok rest) :
    skipValue (fuel + 1) frames ('"' :: cs) = skipTail fuel frames rest := by
  simp [skipSpace_cons (c := '"') rfl, h]

theorem skipValue_emptyArray (h : skipSpace cs = ']' :: rest) :
    skipValue (fuel + 1) frames ('[' :: cs) = skipTail fuel frames rest := by
  simp [skipSpace_cons (c := '[') rfl, h]

theorem skipValue_array (h : (skipSpace cs).head? ≠ some ']') :
    skipValue (fuel + 1) frames ('[' :: cs) = skipValue fuel (.array :: frames) cs := by
  rw [← skipValue_skipSpace fuel _ cs]
  simp only [skipValue, skipSpace_cons (c := '[') rfl]
  split
  · rename_i heq
    exact absurd (congrArg List.head? heq) h
  · rfl

theorem skipValue_emptyObject (h : skipSpace cs = '}' :: rest) :
    skipValue (fuel + 1) frames ('{' :: cs) = skipTail fuel frames rest := by
  simp [skipSpace_cons (c := '{') rfl, h]

theorem skipValue_object (h : skipName (skipSpace cs) = .ok rest) :
    skipValue (fuel + 1) frames ('{' :: cs) = skipValue fuel (.object :: frames) rest := by
  simp only [skipValue, skipSpace_cons (c := '{') rfl]
  split
  · rename_i heq
    rw [heq] at h
    cases h
  · simp only [h, bind, Except.bind]

theorem skipValue_negative (h : skipNumber cs = .ok rest) :
    skipValue (fuel + 1) frames ('-' :: cs) = skipTail fuel frames rest := by
  simp [skipSpace_cons (c := '-') rfl, h]

theorem skipValue_word {word : List Char} (hword : word ∈ words) (frames : List Bracket) :
    skipValue (fuel + 1) frames (word ++ rest) = skipTail fuel frames rest := by
  simp only [words, List.mem_cons, List.not_mem_nil, or_false] at hword
  rcases hword with rfl | rfl | rfl
  · simp only [skipValue, List.cons_append, skipSpace_cons (c := 'n') rfl,
      skipWord_eq_ok_iff.2 (show 'u' :: 'l' :: 'l' :: ([] ++ rest) = ['u', 'l', 'l'] ++ rest from rfl), bind,
      Except.bind]
  · simp only [skipValue, List.cons_append, skipSpace_cons (c := 't') rfl,
      skipWord_eq_ok_iff.2 (show 'r' :: 'u' :: 'e' :: ([] ++ rest) = ['r', 'u', 'e'] ++ rest from rfl), bind,
      Except.bind]
  · simp only [skipValue, List.cons_append, skipSpace_cons (c := 'f') rfl,
      skipWord_eq_ok_iff.2 (show 'a' :: 'l' :: 's' :: 'e' :: ([] ++ rest) = ['a', 'l', 's', 'e'] ++ rest from rfl),
      bind, Except.bind]

theorem skipValue_number {w : List Char} (h : Number w) (ends : NumberEnds rest)
    (frames : List Bracket) : skipValue (fuel + 1) frames (w ++ rest) = skipTail fuel frames rest := by
  have hskip := h.skip ends
  obtain ⟨d, more, rfl, hd⟩ := h.exists_digit
  rw [List.cons_append] at hskip ⊢
  have hfirst {c : Char} {after : List Char} (heq : d :: (more ++ rest) = c :: after)
      (hc : c.isDigit = false) : False := by
    rw [← (List.cons.inj heq).1, hd] at hc
    cases hc
  simp only [skipValue, skipSpace_cons (isSpace_of_isDigit hd)]
  split
  · rename_i heq
    cases heq
  iterate 7
    rename_i heq
    exact (hfirst heq rfl).elim
  · simp only [hskip, bind, Except.bind]

theorem skipTail_endArray (h : skipSpace cs = ']' :: rest) :
    skipTail (fuel + 1) (.array :: frames) cs = skipTail fuel frames rest := by
  simp [h]

theorem skipTail_element (h : skipSpace cs = ',' :: rest) :
    skipTail (fuel + 1) (.array :: frames) cs = skipValue fuel (.array :: frames) rest := by
  simp [h]

theorem skipTail_endObject (h : skipSpace cs = '}' :: rest) :
    skipTail (fuel + 1) (.object :: frames) cs = skipTail fuel frames rest := by
  simp [h]

theorem skipTail_member {more : List Char} (h : skipSpace cs = ',' :: more)
    (hname : skipName (skipSpace more) = .ok rest) :
    skipTail (fuel + 1) (.object :: frames) cs = skipValue fuel (.object :: frames) rest := by
  simp [h, hname]

end Step

/-- No value begins like the end of an array. -/
theorem IsPart.head {p : Part} {w : List Char} (h : IsPart p w) (hp : p = .value) (tail : List Char) :
    (skipSpace (w ++ tail)).head? ≠ some ']' := by
  induction h with
  | blank blank _ ih =>
    rw [List.append_assoc, skipSpace_append blank]
    exact ih hp
  | text => exact fun h => nomatch h
  | number h =>
    obtain ⟨d, more, rfl, hd⟩ := h.exists_digit
    rw [List.cons_append, skipSpace_cons (isSpace_of_isDigit hd), List.head?_cons]
    rintro ⟨⟩
    cases hd
  | negative => exact fun h => nomatch h
  | word h =>
    simp only [words, List.mem_cons, List.not_mem_nil, or_false] at h
    rcases h with rfl | rfl | rfl <;> exact fun h => nomatch h
  | emptyArray => exact fun h => nomatch h
  | array => exact fun h => nomatch h
  | emptyObject => exact fun h => nomatch h
  | object => exact fun h => nomatch h
  | endArray => cases hp
  | element => cases hp
  | endObject => cases hp
  | member => cases hp

/-- What follows a value within a bracket goes on with no number. -/
theorem IsPart.numberEnds {b : Bracket} {u : List Char} (h : IsPart (.rest b) u) (tail : List Char) :
    NumberEnds (u ++ tail) := by
  have hpunctuation {c : Char} {rest : List Char} (hc : c = ',' ∨ c = ']' ∨ c = '}') :
      NumberEnds (c :: rest) := by
    rintro _ ⟨⟩
    rcases hc with rfl | rfl | rfl <;> decide
  cases h with
  | endArray blank =>
    rw [List.append_assoc]
    exact numberEnds_append blank (hpunctuation (Or.inr (Or.inl rfl)))
  | element blank =>
    rw [List.append_assoc]
    exact numberEnds_append blank (hpunctuation (Or.inl rfl))
  | endObject blank =>
    rw [List.append_assoc]
    exact numberEnds_append blank (hpunctuation (Or.inr (Or.inr rfl)))
  | member blank =>
    rw [List.append_assoc]
    exact numberEnds_append blank (hpunctuation (Or.inl rfl))

/-- From `fuel` rounds on, the reader gets through the rest. -/
def GetsThrough (fuel : Nat) (frames : List Bracket) (tail rest : List Char) : Prop :=
  ∀ more ≥ fuel, skipTail more frames tail = .ok rest

/-- The reader skips what stands there, with a round for each character at most, and goes on behind it. -/
def Part.Skipped (p : Part) (w : List Char) : Prop :=
  ∀ {frames : List Bracket} {tail rest : List Char} {fuel : Nat}, GetsThrough fuel frames tail rest →
    match p with
    | .value => NumberEnds tail → ∀ more ≥ fuel + w.length, skipValue more frames (w ++ tail) = .ok rest
    | .rest b => GetsThrough (fuel + w.length) (b :: frames) (w ++ tail) rest

/-- One round is spent on a part that is not empty. -/
theorem exists_round {more fuel : Nat} {w : List Char} {c : Char} (h : more ≥ fuel + (c :: w).length) :
    ∃ k, more = k + 1 ∧ k ≥ fuel + w.length := by
  rw [List.length_cons] at h
  exact ⟨more - 1, by omega, by omega⟩

theorem IsPart.skipped {p : Part} {w : List Char} (h : IsPart p w) : p.Skipped w := by
  induction h with
  | @blank ws w blank _ ih =>
    intro frames tail rest fuel hrest ends more hmore
    rw [List.length_append] at hmore
    rw [List.append_assoc, ← skipValue_skipSpace, skipSpace_append blank, skipValue_skipSpace]
    exact ih hrest ends more (by omega)
  | @text raw h =>
    intro frames tail rest fuel hrest ends more hmore
    obtain ⟨more, rfl, hround⟩ := exists_round hmore
    simp only [List.cons_append, List.append_assoc, List.nil_append]
    rw [skipValue_text (skipText_eq_ok_iff.2 ⟨raw, h, rfl⟩)]
    exact hrest more (by omega)
  | @number w h =>
    intro frames tail rest fuel hrest ends more hmore
    obtain ⟨d, ds, hw, -⟩ := h.exists_digit
    rw [hw] at hmore
    obtain ⟨more, rfl, hround⟩ := exists_round hmore
    rw [skipValue_number h ends]
    exact hrest more (by omega)
  | @negative w h =>
    intro frames tail rest fuel hrest ends more hmore
    obtain ⟨more, rfl, hround⟩ := exists_round hmore
    rw [List.cons_append, skipValue_negative (h.skip ends)]
    exact hrest more (by omega)
  | @word w h =>
    intro frames tail rest fuel hrest ends more hmore
    have hlen : 0 < w.length := by
      simp only [words, List.mem_cons, List.not_mem_nil, or_false] at h
      rcases h with rfl | rfl | rfl <;> decide
    obtain ⟨more, rfl⟩ : ∃ k, more = k + 1 := ⟨more - 1, by omega⟩
    rw [skipValue_word h]
    exact hrest more (by omega)
  | @emptyArray ws blank =>
    intro frames tail rest fuel hrest ends more hmore
    obtain ⟨more, rfl, hround⟩ := exists_round hmore
    simp only [List.cons_append, List.append_assoc, List.nil_append]
    rw [skipValue_emptyArray (skipSpace_append_cons blank rfl tail)]
    exact hrest more (by omega)
  | @array w u hvalue hu ihw ihu =>
    intro frames tail rest fuel hrest ends more hmore
    obtain ⟨more, rfl, hround⟩ := exists_round hmore
    rw [List.length_append] at hround
    rw [List.cons_append, List.append_assoc, skipValue_array (hvalue.head rfl _)]
    exact ihw (ihu hrest) (hu.numberEnds tail) more (by omega)
  | @emptyObject ws blank =>
    intro frames tail rest fuel hrest ends more hmore
    obtain ⟨more, rfl, hround⟩ := exists_round hmore
    simp only [List.cons_append, List.append_assoc, List.nil_append]
    rw [skipValue_emptyObject (skipSpace_append_cons blank rfl tail)]
    exact hrest more (by omega)
  | @object ws key w u blank name hvalue hu ihw ihu =>
    intro frames tail rest fuel hrest ends more hmore
    obtain ⟨more, rfl, hround⟩ := exists_round hmore
    simp only [List.length_append] at hround
    simp only [List.cons_append, List.append_assoc]
    rw [skipValue_object (skipName_skipSpace blank name _)]
    exact ihw (ihu hrest) (hu.numberEnds tail) more (by omega)
  | @endArray ws blank =>
    intro frames tail rest fuel hrest more hmore
    obtain ⟨more, rfl⟩ : ∃ k, more = k + 1 :=
      ⟨more - 1, by rw [List.length_append, List.length_singleton] at hmore; omega⟩
    rw [List.append_assoc, List.singleton_append, skipTail_endArray (skipSpace_append_cons blank rfl tail)]
    exact hrest more (by rw [List.length_append, List.length_singleton] at hmore; omega)
  | @element ws w u blank hvalue hu ihw ihu =>
    intro frames tail rest fuel hrest more hmore
    simp only [List.length_append, List.length_cons] at hmore
    obtain ⟨more, rfl⟩ : ∃ k, more = k + 1 := ⟨more - 1, by omega⟩
    simp only [List.append_assoc, List.cons_append]
    rw [skipTail_element (skipSpace_append_cons blank rfl _)]
    exact ihw (ihu hrest) (hu.numberEnds tail) more (by omega)
  | @endObject ws blank =>
    intro frames tail rest fuel hrest more hmore
    obtain ⟨more, rfl⟩ : ∃ k, more = k + 1 :=
      ⟨more - 1, by rw [List.length_append, List.length_singleton] at hmore; omega⟩
    rw [List.append_assoc, List.singleton_append, skipTail_endObject (skipSpace_append_cons blank rfl tail)]
    exact hrest more (by rw [List.length_append, List.length_singleton] at hmore; omega)
  | @member ws ws' key w u blank blank' name hvalue hu ihw ihu =>
    intro frames tail rest fuel hrest more hmore
    simp only [List.length_append, List.length_cons] at hmore
    obtain ⟨more, rfl⟩ : ∃ k, more = k + 1 := ⟨more - 1, by omega⟩
    simp only [List.append_assoc, List.cons_append]
    rw [skipTail_member (skipSpace_append_cons blank rfl _) (skipName_skipSpace blank' name _)]
    exact ihw (ihu hrest) (hu.numberEnds tail) more (by omega)

/-- What is skipped is a value. -/
theorem exists_value {cs rest : List Char} (h : skipAny cs = .ok rest) :
    ∃ w, IsPart .value w ∧ cs = w ++ rest := by
  obtain ⟨w, u, hw, hu, rfl⟩ := (skipsValues_and_skipsEnds _).1 h
  cases hu
  exact ⟨w, hw, rfl⟩

/-- Every value is skipped, up to what follows it. -/
theorem skipAny_append {w rest : List Char} (h : IsPart .value w) (ends : NumberEnds rest) :
    skipAny (w ++ rest) = .ok rest := by
  have hrest : GetsThrough 1 [] rest rest := by
    intro more hmore
    obtain ⟨more, rfl⟩ := Nat.exists_eq_add_of_le' hmore
    rw [skipTail]
  exact h.skipped hrest ends _ (by rw [List.length_append]; omega)

end BurnAfterRead.Json
