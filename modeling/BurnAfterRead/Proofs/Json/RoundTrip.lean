import BurnAfterRead.Json.Reader
import BurnAfterRead.Json.Writer
import BurnAfterRead.Proofs.Text.Form

/-!
# Records are read back from their JSON

A text is read back from its quoted form, whatever characters it has: each escape that the writer
makes is one that the reader takes, for the character that it was made for, and a character that is
written as it is ends no text and starts no escape. An object of texts is read back member by member.
-/

namespace BurnAfterRead.Json

/-- What was written as UTF-8 has no marks in it. -/
theorem source_utf8 (s : String) : source (Crypto.utf8 s) = s.toList := by
  rw [source, Crypto.utf8_eq_flatMap, Text.lossyText_utf8]

theorem readUnit?_hexDigits {n : Nat} (h : n < 256) (rest : List Char) :
    readUnit? ('0' :: '0' :: Text.hexDigit (n / 16) :: Text.hexDigit (n % 16) :: rest) =
      some (n, rest) := by
  have hzero : Text.hexValue? '0' = some 0 := rfl
  have hhigh := Text.hexValue?_hexDigit (show n / 16 < 16 by omega)
  have hlow := Text.hexValue?_hexDigit (show n % 16 < 16 by omega)
  simp only [readUnit?, hzero, hhigh, hlow, Option.bind_eq_bind, Option.bind_some]
  congr 2
  omega

/-- The escape of a control character without a letter of its own. -/
theorem readCodePoint?_control {c : Char} (h : c.toNat < 32) (rest : List Char) :
    readCodePoint? ('0' :: '0' :: Text.hexDigit (c.toNat / 16) :: Text.hexDigit (c.toNat % 16) :: rest) =
      some (c, rest) := by
  have hlow : isLowSurrogate c.toNat = false := by
    unfold isLowSurrogate
    rw [decide_eq_false (by omega)]
    rfl
  have hhigh : isHighSurrogate c.toNat = false := by
    unfold isHighSurrogate
    rw [decide_eq_false (by omega)]
    rfl
  unfold readCodePoint?
  rw [readUnit?_hexDigits (by omega)]
  simp only [Option.bind_eq_bind, Option.bind_some, hlow, hhigh, Bool.false_eq_true, if_false,
    Char.ofNat_toNat]

/-- An escape has one letter, or tells the code of a control character. -/
theorem escape?_cases {c : Char} {e : List Char} (h : escape? c = some e) :
    (∃ letter, letter ≠ 'u' ∧ e = [letter] ∧ simpleEscape? letter = some c) ∨
      c.toNat < 32 ∧
        e = ['u', '0', '0', Text.hexDigit (c.toNat / 16), Text.hexDigit (c.toNat % 16)] := by
  unfold escape? at h
  iterate 7
    split at h
    · rename_i hc
      subst hc
      exact Or.inl ⟨_, by decide, (Option.some.inj h).symm, rfl⟩
  split at h
  · rename_i hc
    exact Or.inr ⟨hc, (Option.some.inj h).symm⟩
  · cases h

/-- An escape that was written for a character is read as that character. -/
theorem readTextBody_escape {c : Char} {e : List Char} (h : escape? c = some e) (fuel : Nat)
    (acc rest : List Char) :
    readTextBody (fuel + 1) acc ('\\' :: e ++ rest) = readTextBody fuel (c :: acc) rest := by
  rcases escape?_cases h with ⟨letter, hletter, rfl, hread⟩ | ⟨hc, rfl⟩
  · simp only [List.cons_append, List.nil_append]
    rw [readTextBody]
    · rw [hread]
    · exact hletter
  · have hread := readCodePoint?_control hc rest
    simp only [List.cons_append, List.nil_append, readTextBody, hread]

/-- Only the control characters, the quote and the backslash are escaped. -/
theorem escape?_eq_none_iff {c : Char} : escape? c = none ↔ 32 ≤ c.toNat ∧ c ≠ '"' ∧ c ≠ '\\' := by
  constructor
  · intro h
    refine ⟨Nat.le_of_not_lt fun hc => ?_, ?_, ?_⟩
    · unfold escape? at h
      iterate 7
        split at h
        · cases h
      cases h
    · rintro rfl
      cases h
    · rintro rfl
      cases h
  · rintro ⟨hcontrol, hquote, hslash⟩
    have hother : ∀ x : Char, x.toNat < 32 → c ≠ x := by
      rintro _ hx rfl
      omega
    unfold escape?
    rw [if_neg hquote, if_neg hslash, if_neg (hother '\n' (by decide)), if_neg (hother '\r' (by decide)),
      if_neg (hother '\t' (by decide)), if_neg (hother '\x08' (by decide)),
      if_neg (hother '\x0c' (by decide)), if_neg (by omega)]

theorem escaped_of_plain {cs : List Char} (h : ∀ c ∈ cs, escape? c = none) : escaped cs = cs := by
  induction cs with
  | nil => rfl
  | cons c cs ih =>
    rw [escaped, h c List.mem_cons_self]
    exact congrArg (c :: ·) (ih fun x hx => h x (List.mem_cons_of_mem c hx))

/-- A character that needs no escape is read as it is. -/
theorem readTextBody_plain {c : Char} (h : escape? c = none) (fuel : Nat) (acc rest : List Char) :
    readTextBody (fuel + 1) acc (c :: rest) = readTextBody fuel (c :: acc) rest := by
  obtain ⟨hcontrol, hquote, hslash⟩ := escape?_eq_none_iff.1 h
  rw [readTextBody]
  · rw [if_neg (not_or.2 ⟨hslash, Nat.not_lt.2 hcontrol⟩)]
  · exact hquote
  · intro rest' heq
    exact absurd heq hslash
  · intro e rest' heq
    exact absurd heq hslash

theorem readTextBody_escaped (cs acc rest : List Char) {fuel : Nat} (h : cs.length < fuel) :
    readTextBody fuel acc (escaped cs ++ '"' :: rest) = .ok (acc.reverse ++ cs, rest) := by
  induction cs generalizing acc fuel with
  | nil =>
    obtain ⟨fuel, rfl⟩ := Nat.exists_eq_add_of_lt h
    rw [List.append_nil]
    rfl
  | cons c cs ih =>
    obtain ⟨fuel, rfl⟩ : ∃ k, fuel = k + 1 := ⟨fuel - 1, by rw [List.length_cons] at h; omega⟩
    have hrest := ih (c :: acc) (show cs.length < fuel by rw [List.length_cons] at h; omega)
    rw [List.reverse_cons, List.append_assoc, List.singleton_append] at hrest
    rw [escaped]
    cases he : escape? c with
    | some e =>
      have hstep := readTextBody_escape he fuel acc (escaped cs ++ '"' :: rest)
      dsimp only
      rw [List.append_assoc, hstep, hrest]
    | none =>
      dsimp only
      rw [List.cons_append, readTextBody_plain he, hrest]

theorem length_le_escaped (cs : List Char) : cs.length ≤ (escaped cs).length := by
  induction cs with
  | nil => exact Nat.le_refl 0
  | cons c cs ih =>
    rw [escaped, List.length_cons]
    split
    · rw [List.length_append, List.length_cons]
      omega
    · rw [List.length_cons]
      omega

/-- A text is read back from what stands between its quotes. -/
theorem readText_escaped (cs rest : List Char) :
    readText (escaped cs ++ '"' :: rest) = .ok (cs, rest) := by
  have hlen := length_le_escaped cs
  unfold readText
  rw [readTextBody_escaped cs [] rest (by rw [List.length_append, List.length_cons]; omega)]
  rfl

theorem quote_append (cs rest : List Char) :
    quote cs ++ rest = '"' :: (escaped cs ++ '"' :: rest) := by
  simp only [quote, List.cons_append, List.append_assoc, List.nil_append]

theorem readField_quote (nullable : Bool) (cs rest : List Char) :
    readField nullable (quote cs ++ rest) = .ok (some (String.ofList cs), rest) := by
  have hspace : skipSpace (quote cs ++ rest) = '"' :: (escaped cs ++ '"' :: rest) := by
    rw [quote_append]
    rfl
  unfold readField
  rw [hspace]
  change (readText (escaped cs ++ '"' :: rest)).bind _ = _
  rw [readText_escaped]
  rfl

/-- The members of an object that holds texts only. -/
def textMembers (members : List (String × String)) : List (String × Scalar) :=
  members.map fun m => (m.1, .text m.2)

/-- The fields that are read from such an object. -/
def textFields (members : List (String × String)) : Fields :=
  members.map fun m => (m.1, some m.2)

theorem skipSpace_colon (rest : List Char) : skipSpace (':' :: rest) = ':' :: rest := rfl

theorem quote_member (name value rest : List Char) :
    quote name ++ ':' :: quote value ++ rest =
      '"' :: (escaped name ++ '"' :: ':' :: (quote value ++ rest)) := by
  rw [List.append_assoc, quote_append]
  rfl

section Members

variable {names : List String} {found : Fields} {name : String}

/-- Reading one member up to what follows its value. -/
theorem readMembers_quote (nullable : Bool) (hknown : names.contains name = true)
    (hnew : found.any (·.1 == name) = false) (fuel : Nat) (value : String) {rest more : List Char}
    (hspace : skipSpace rest = '}' :: more) :
    readMembers names nullable (fuel + 1) found
        (quote name.toList ++ ':' :: quote value.toList ++ rest) =
      .ok (found ++ [(name, some value)], more) := by
  rw [quote_member, readMembers]
  simp only [readText_escaped, String.ofList_toList, hknown, hnew, skipSpace_colon, readField_quote,
    hspace, Bool.and_false, Bool.false_eq_true, if_false, if_true, bind, Except.bind]

/-- Reading one member with another behind it. -/
theorem readMembers_quote_comma (nullable : Bool) (hknown : names.contains name = true)
    (hnew : found.any (·.1 == name) = false) (fuel : Nat) (value : String) {rest more : List Char}
    (hspace : skipSpace rest = ',' :: more) :
    readMembers names nullable (fuel + 1) found
        (quote name.toList ++ ':' :: quote value.toList ++ rest) =
      readMembers names nullable fuel (found ++ [(name, some value)]) (skipSpace more) := by
  rw [quote_member, readMembers]
  simp only [readText_escaped, String.ofList_toList, hknown, hnew, skipSpace_colon, readField_quote,
    hspace, Bool.and_false, Bool.false_eq_true, if_false, if_true, bind, Except.bind]

/-- The members that are written are read, in their order. -/
theorem readMembers_writeMembers (nullable : Bool) {members : List (String × String)}
    (hne : members ≠ []) (hknown : ∀ m ∈ members, names.contains m.1 = true)
    (hnew : (found.map (·.1) ++ members.map (·.1)).Nodup) {fuel : Nat} (hfuel : members.length ≤ fuel)
    (rest : List Char) :
    readMembers names nullable fuel found (writeMembers (textMembers members) ++ '}' :: rest) =
      .ok (found ++ textFields members, rest) := by
  induction members generalizing found fuel with
  | nil => exact absurd rfl hne
  | cons m members ih =>
    obtain ⟨name, value⟩ := m
    obtain ⟨fuel, rfl⟩ : ∃ k, fuel = k + 1 := ⟨fuel - 1, by rw [List.length_cons] at hfuel; omega⟩
    have hname : found.any (·.1 == name) = false := by
      rw [List.nodup_append] at hnew
      refine List.any_eq_false.2 fun f hf heq => ?_
      exact hnew.2.2 f.1 (List.mem_map_of_mem hf) name List.mem_cons_self (beq_iff_eq.1 heq)
    have hname' : names.contains name = true := hknown _ List.mem_cons_self
    cases members with
    | nil => exact readMembers_quote nullable hname' hname fuel value rfl
    | cons next members =>
      have hsplit : writeMembers (textMembers ((name, value) :: next :: members)) ++ '}' :: rest =
          quote name.toList ++ ':' :: quote value.toList ++
            ',' :: (writeMembers (textMembers (next :: members)) ++ '}' :: rest) := by
        simp only [textMembers, List.map_cons, writeMembers, Scalar.write, List.append_assoc,
          List.cons_append]
      have hspace : skipSpace (writeMembers (textMembers (next :: members)) ++ '}' :: rest) =
          writeMembers (textMembers (next :: members)) ++ '}' :: rest := by
        cases members <;> rfl
      have hnext : ((found ++ [(name, some value)]).map (·.1) ++
          (next :: members).map (·.1)).Nodup := by
        rw [List.map_append, List.append_assoc]
        exact hnew
      have hread := ih (List.cons_ne_nil _ _) (fun m hm => hknown m (List.mem_cons_of_mem _ hm)) hnext
        (show (next :: members).length ≤ fuel by rw [List.length_cons] at hfuel; omega)
      rw [hsplit, readMembers_quote_comma nullable hname' hname fuel value rfl, hspace, hread,
        List.append_assoc]
      rfl

end Members

theorem length_le_writeMembers (members : List (String × Scalar)) :
    members.length ≤ (writeMembers members).length := by
  fun_induction writeMembers members with
  | case1 => exact Nat.le_refl 0
  | case2 name value =>
    simp only [List.length_append, List.length_cons, List.length_nil]
    omega
  | case3 name value rest hne ih =>
    simp only [List.length_append, List.length_cons]
    omega

/-- An object of texts is read back, and what follows it is left. -/
theorem readRecord_writeObject {names : List String} (nullable : Bool)
    {members : List (String × String)} (hne : members ≠ [])
    (hknown : ∀ m ∈ members, names.contains m.1 = true) (nodup : (members.map (·.1)).Nodup)
    (rest : List Char) :
    readRecord names nullable (writeObject (textMembers members) ++ rest) =
      .ok (textFields members, rest) := by
  obtain ⟨⟨name, value⟩, members, rfl⟩ := List.exists_cons_of_ne_nil hne
  have hlen : (textMembers ((name, value) :: members)).length ≤
      (writeMembers (textMembers ((name, value) :: members))).length := length_le_writeMembers _
  have hquote : ∃ more, writeMembers (textMembers ((name, value) :: members)) ++ '}' :: rest =
      '"' :: more := by
    cases members <;> exact ⟨_, rfl⟩
  have hfuel : ((name, value) :: members).length ≤
      (writeMembers (textMembers ((name, value) :: members)) ++ '}' :: rest).length + 1 := by
    simp only [textMembers, List.length_map, List.length_append] at hlen ⊢
    omega
  have hnew : (([] : Fields).map (·.1) ++ ((name, value) :: members).map (·.1)).Nodup := nodup
  have hread := readMembers_writeMembers nullable hne hknown hnew hfuel rest
  obtain ⟨more, hmore⟩ := hquote
  have hobject : writeObject (textMembers ((name, value) :: members)) ++ rest = '{' :: '"' :: more := by
    rw [← hmore]
    simp only [writeObject, List.cons_append, List.append_assoc, List.nil_append]
  rw [hmore] at hread
  rw [hobject]
  exact hread

end BurnAfterRead.Json
