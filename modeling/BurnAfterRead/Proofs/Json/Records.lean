import BurnAfterRead.Proofs.Json.Skipping
import Mathlib.Data.List.Nodup

/-!
# The texts of records

A record is written as an object, or as an array of its fields in order. In an object each known name
occurs once at most and has a text, or `null` where that is allowed; other members have any name and any
value. The reader takes these texts with the fields that they tell, and no others.
-/

namespace BurnAfterRead.Json

/-- What a field may hold, with blanks in front. -/
inductive FieldText (nullable : Bool) : List Char → Option String → Prop where
  | text {ws raw s : List Char} (blank : Blank ws) (body : TextBody raw s) :
      FieldText nullable (ws ++ '"' :: (raw ++ ['"'])) (some (String.ofList s))
  | null {ws : List Char} (blank : Blank ws) (h : nullable = true) :
      FieldText nullable (ws ++ ['n', 'u', 'l', 'l']) none

/-- A member of an object, and the field that it tells, if its name is known. -/
inductive MemberText (names : List String) (nullable : Bool) : List Char → Fields → Prop where
  | known {raw name ws w : List Char} {value : Option String} (body : TextBody raw name)
      (known : names.contains (String.ofList name) = true) (blank : Blank ws)
      (field : FieldText nullable w value) :
      MemberText names nullable ('"' :: (raw ++ '"' :: (ws ++ ':' :: w))) [(String.ofList name, value)]
  | unknown {raw name ws w : List Char} (body : TextBody raw name)
      (unknown : names.contains (String.ofList name) = false) (blank : Blank ws)
      (value : IsPart .value w) : MemberText names nullable ('"' :: (raw ++ '"' :: (ws ++ ':' :: w))) []

/-- The members of an object from a name on, up to its end. -/
inductive MembersText (names : List String) (nullable : Bool) : List Char → Fields → Prop where
  | last {w ws : List Char} {fields : Fields} (member : MemberText names nullable w fields)
      (blank : Blank ws) : MembersText names nullable (w ++ (ws ++ ['}'])) fields
  | more {w ws ws' u : List Char} {fields others : Fields} (member : MemberText names nullable w fields)
      (blank : Blank ws) (blank' : Blank ws') (rest : MembersText names nullable u others) :
      MembersText names nullable (w ++ (ws ++ ',' :: (ws' ++ u))) (fields ++ others)

/-- The elements of an array, one for each name, up to its end; the first stands behind no comma. -/
inductive ElementsText (nullable : Bool) : Bool → List String → List Char → Fields → Prop where
  | last {first : Bool} {ws : List Char} (blank : Blank ws) : ElementsText nullable first [] (ws ++ [']']) []
  | first {name : String} {names : List String} {w u : List Char} {value : Option String} {fields : Fields}
      (field : FieldText nullable w value) (rest : ElementsText nullable false names u fields) :
      ElementsText nullable true (name :: names) (w ++ u) ((name, value) :: fields)
  | next {name : String} {names : List String} {ws w u : List Char} {value : Option String}
      {fields : Fields} (blank : Blank ws) (field : FieldText nullable w value)
      (rest : ElementsText nullable false names u fields) :
      ElementsText nullable false (name :: names) (ws ++ ',' :: (w ++ u)) ((name, value) :: fields)

/-- A record with the fields that it tells, and blanks in front. -/
inductive RecordText (names : List String) (nullable : Bool) : List Char → Fields → Prop where
  | empty {ws ws' : List Char} (blank : Blank ws) (blank' : Blank ws') :
      RecordText names nullable (ws ++ '{' :: (ws' ++ ['}'])) []
  | object {ws ws' w : List Char} {fields : Fields} (blank : Blank ws) (blank' : Blank ws')
      (members : MembersText names nullable w fields) (nodup : (fields.map (·.1)).Nodup) :
      RecordText names nullable (ws ++ '{' :: (ws' ++ w)) fields
  | array {ws w : List Char} {fields : Fields} (blank : Blank ws)
      (elements : ElementsText nullable true names w fields) :
      RecordText names nullable (ws ++ '[' :: w) fields

variable {names : List String} {nullable : Bool}

theorem readField_eq_ok_iff {cs rest : List Char} {value : Option String} :
    readField nullable cs = .ok (value, rest) ↔ ∃ w, FieldText nullable w value ∧ cs = w ++ rest := by
  constructor
  · intro h
    unfold readField at h
    split at h
    · cases h
    · rename_i hspace
      obtain ⟨ws, hws, rfl⟩ := (skipSpace_eq_cons_iff (by decide)).1 hspace
      obtain ⟨⟨s, after⟩, hread, hok⟩ := bind_eq_ok_iff.1 h
      obtain ⟨raw, hraw, rfl⟩ := readText_eq_ok_iff.1 hread
      cases hok
      exact ⟨_, .text hws hraw, by simp⟩
    · rename_i hspace
      obtain ⟨ws, hws, rfl⟩ := (skipSpace_eq_cons_iff (by decide)).1 hspace
      split at h
      · rename_i hnullable
        obtain ⟨after, hword, hok⟩ := bind_eq_ok_iff.1 h
        rw [skipWord_eq_ok_iff.1 hword]
        cases hok
        exact ⟨_, .null hws hnullable, by simp⟩
      · cases h
    · cases h
  · rintro ⟨w, h, rfl⟩
    cases h with
    | @text ws raw s blank body =>
      simp only [List.append_assoc, List.cons_append, List.nil_append]
      simp only [readField, skipSpace_append_cons blank (c := '"') rfl,
        readText_eq_ok_iff.2 ⟨raw, body, rfl⟩, bind, Except.bind]
    | @null ws blank h =>
      simp only [List.append_assoc, List.cons_append, List.nil_append]
      simp only [readField, skipSpace_append_cons blank (c := 'n') rfl, h, if_true,
        skipWord_eq_ok_iff.2 (show 'u' :: 'l' :: 'l' :: rest = ['u', 'l', 'l'] ++ rest from rfl), bind,
        Except.bind]

theorem readField_skipSpace (cs : List Char) :
    readField nullable (skipSpace cs) = readField nullable cs := by
  unfold readField
  rw [skipSpace_skipSpace]

/-- What the reader does behind a member. -/
def readBehind (names : List String) (nullable : Bool) (fuel : Nat) (found : Fields) (cs : List Char) :
    Except Fault (Fields × List Char) :=
  match skipSpace cs with
  | '}' :: rest => .ok (found, rest)
  | ',' :: rest => readMembers names nullable fuel found (skipSpace rest)
  | _ => .error .malformed

theorem nodup_concat {found : Fields} (nodup : (found.map (·.1)).Nodup) {name : String}
    (fresh : found.any (·.1 == name) = false) (value : Option String) :
    ((found ++ [(name, value)]).map (·.1)).Nodup := by
  rw [List.map_append, List.map_singleton]
  refine nodup.append (List.nodup_singleton _) ?_
  rw [List.disjoint_singleton]
  intro hmem
  obtain ⟨field, hfield, rfl⟩ := List.mem_map.1 hmem
  exact List.any_eq_false.1 fresh field hfield (beq_self_eq_true _)

/-- In that many rounds, only members that were described are read, and no name twice. -/
def ReadsMembers (names : List String) (nullable : Bool) (fuel : Nat) : Prop :=
  ∀ {found fields : Fields} {cs rest : List Char}, (found.map (·.1)).Nodup →
    readMembers names nullable fuel found cs = .ok (fields, rest) →
      ∃ w others, MembersText names nullable w others ∧ cs = w ++ rest ∧ fields = found ++ others ∧
        (fields.map (·.1)).Nodup

/-- Behind a member, the object ends, or another member follows. -/
theorem ReadsMembers.behind {fuel : Nat} (reads : ReadsMembers names nullable fuel)
    {found others fields : Fields} {w after rest : List Char} (member : MemberText names nullable w others)
    (nodup : ((found ++ others).map (·.1)).Nodup)
    (h : readBehind names nullable fuel (found ++ others) after = .ok (fields, rest)) :
    ∃ u others, MembersText names nullable u others ∧ w ++ after = u ++ rest ∧ fields = found ++ others ∧
      (fields.map (·.1)).Nodup := by
  unfold readBehind at h
  split at h
  · rename_i hend
    obtain ⟨ws, hws, rfl⟩ := (skipSpace_eq_cons_iff (by decide)).1 hend
    cases h
    exact ⟨_, _, .last member hws, by simp, rfl, nodup⟩
  · rename_i more hcomma
    obtain ⟨ws, hws, rfl⟩ := (skipSpace_eq_cons_iff (by decide)).1 hcomma
    obtain ⟨ws', hws', hmore⟩ := exists_blank more
    obtain ⟨u, others', hu, hcs, rfl, nodup'⟩ := reads nodup h
    refine ⟨_, _, .more member hws hws' hu, ?_, List.append_assoc _ _ _, nodup'⟩
    rw [hmore, hcs]
    simp
  · cases h

/-- A name is read, then the value of a field or one that is skipped, and then what stands behind. -/
theorem readsMembers (names : List String) (nullable : Bool) (fuel : Nat) :
    ReadsMembers names nullable fuel := by
  induction fuel with
  | zero =>
    intro found fields cs rest nodup h
    cases h
  | succ fuel ih =>
    intro found fields cs rest nodup h
    unfold readMembers at h
    split at h
    · obtain ⟨⟨name, after⟩, hname, hmember⟩ := bind_eq_ok_iff.1 h
      obtain ⟨raw, hraw, rfl⟩ := readText_eq_ok_iff.1 hname
      dsimp only at hmember
      split at hmember
      · cases hmember
      rename_i hnew
      split at hmember
      · rename_i more hcolon
        obtain ⟨ws, hws, rfl⟩ := (skipSpace_eq_cons_iff (by decide)).1 hcolon
        split at hmember
        · rename_i hknown
          obtain ⟨⟨value, after⟩, hfield, hok⟩ := bind_eq_ok_iff.1 hmember
          obtain ⟨w, hw, rfl⟩ := readField_eq_ok_iff.1 hfield
          have hfresh : found.any (·.1 == String.ofList name) = false := by
            rw [hknown, Bool.true_and] at hnew
            exact Bool.eq_false_iff.2 hnew
          obtain ⟨u, others, hu, hcs, hfields⟩ :=
            ih.behind (.known hraw hknown hws hw) (nodup_concat nodup hfresh _) hok
          exact ⟨u, others, hu, by simpa using hcs, hfields⟩
        · rename_i hunknown
          obtain ⟨after, hskip, hok⟩ := bind_eq_ok_iff.1 hmember
          obtain ⟨w, hw, rfl⟩ := exists_value hskip
          have hother : MemberText names nullable _ [] :=
            .unknown hraw (Bool.eq_false_iff.2 hunknown) hws hw
          obtain ⟨u, others, hu, hcs, hfields⟩ := ih.behind hother
            (by rw [List.append_nil]; exact nodup) (by rw [List.append_nil]; exact hok)
          exact ⟨u, others, hu, by simpa using hcs, hfields⟩
      · cases hmember
    · cases h

theorem MemberText.exists_quote {w : List Char} {fields : Fields}
    (h : MemberText names nullable w fields) : ∃ more, w = '"' :: more := by
  cases h <;> exact ⟨_, rfl⟩

theorem MembersText.exists_quote {u : List Char} {fields : Fields}
    (h : MembersText names nullable u fields) : ∃ more, u = '"' :: more := by
  cases h with
  | last member =>
    obtain ⟨more, rfl⟩ := member.exists_quote
    exact ⟨_, rfl⟩
  | more member =>
    obtain ⟨more, rfl⟩ := member.exists_quote
    exact ⟨_, rfl⟩

theorem MembersText.skipSpace {ws u : List Char} {fields : Fields} (blank : Blank ws)
    (h : MembersText names nullable u fields) (rest : List Char) :
    Json.skipSpace (ws ++ (u ++ rest)) = u ++ rest := by
  obtain ⟨more, rfl⟩ := h.exists_quote
  exact skipSpace_append_cons blank rfl _

theorem readMembers_append_member {w after : List Char} {found others : Fields}
    (h : MemberText names nullable w others) (nodup : ((found ++ others).map (·.1)).Nodup)
    (ends : NumberEnds after) (fuel : Nat) :
    readMembers names nullable (fuel + 1) found (w ++ after) =
      readBehind names nullable fuel (found ++ others) after := by
  cases h with
  | @known raw name ws w value body known blank field =>
    have hfresh : found.any (·.1 == String.ofList name) = false := by
      rw [List.map_append, List.map_singleton, List.nodup_append] at nodup
      refine List.any_eq_false.2 fun f hf heq => ?_
      exact nodup.2.2 f.1 (List.mem_map_of_mem hf) _ (List.mem_singleton_self _) (beq_iff_eq.1 heq)
    simp only [List.cons_append, List.append_assoc]
    simp only [readMembers, readText_eq_ok_iff.2 ⟨raw, body, rfl⟩, known, hfresh, Bool.and_false,
      skipSpace_append_cons blank (c := ':') rfl, readField_eq_ok_iff.2 ⟨w, field, rfl⟩, bind, Except.bind,
      Bool.false_eq_true, if_false, if_true]
    rfl
  | @unknown raw name ws w body unknown blank value =>
    simp only [List.cons_append, List.append_assoc, List.append_nil]
    simp only [readMembers, readText_eq_ok_iff.2 ⟨raw, body, rfl⟩, unknown, Bool.false_and,
      skipSpace_append_cons blank (c := ':') rfl, skipAny_append value ends, bind, Except.bind,
      Bool.false_eq_true, if_false]
    rfl

theorem readMembers_append {w rest : List Char} {found others : Fields}
    (h : MembersText names nullable w others) (nodup : ((found ++ others).map (·.1)).Nodup) {fuel : Nat}
    (hfuel : w.length ≤ fuel) :
    readMembers names nullable fuel found (w ++ rest) = .ok (found ++ others, rest) := by
  induction h generalizing found fuel with
  | @last w ws fields member blank =>
    have hends : NumberEnds (ws ++ '}' :: rest) :=
      numberEnds_append blank (by rintro _ ⟨⟩; decide)
    simp only [List.length_append, List.length_singleton] at hfuel
    obtain ⟨fuel, rfl⟩ : ∃ k, fuel = k + 1 := ⟨fuel - 1, by omega⟩
    simp only [List.append_assoc, List.singleton_append]
    rw [readMembers_append_member member nodup hends]
    simp only [readBehind, skipSpace_append_cons blank (c := '}') rfl]
  | @more w ws ws' u fields others member blank blank' hrest ih =>
    have hends : NumberEnds (ws ++ ',' :: (ws' ++ (u ++ rest))) :=
      numberEnds_append blank (by rintro _ ⟨⟩; decide)
    simp only [List.length_append, List.length_cons] at hfuel
    obtain ⟨fuel, rfl⟩ : ∃ k, fuel = k + 1 := ⟨fuel - 1, by omega⟩
    rw [← List.append_assoc] at nodup
    have hmember : ((found ++ fields).map (·.1)).Nodup := by
      rw [List.map_append] at nodup
      exact nodup.of_append_left
    simp only [List.append_assoc, List.cons_append]
    rw [readMembers_append_member member hmember hends]
    simp only [readBehind, skipSpace_append_cons blank (c := ',') rfl]
    rw [hrest.skipSpace blank', ih nodup (by omega), List.append_assoc]

/-- Only elements that were described are read, one for each name. -/
theorem exists_elements {first : Bool} {found fields : Fields} {cs rest : List Char}
    (h : readElements nullable names first found cs = .ok (fields, rest)) :
    ∃ w others, ElementsText nullable first names w others ∧ cs = w ++ rest ∧ fields = found ++ others := by
  induction names generalizing first found cs with
  | nil =>
    unfold readElements at h
    split at h
    · rename_i hend
      obtain ⟨ws, hws, rfl⟩ := (skipSpace_eq_cons_iff (by decide)).1 hend
      cases h
      exact ⟨_, [], .last hws, by simp, (List.append_nil _).symm⟩
    · cases h
  | cons name names ih =>
    unfold readElements at h
    split at h
    · cases h
    · cases h
    · rename_i c more _ hspace
      cases first with
      | true =>
        simp only [Bool.true_or, if_true, Bool.not_true, Bool.false_and, Bool.false_eq_true, if_false] at h
        obtain ⟨⟨value, after⟩, hfield, hrest⟩ := bind_eq_ok_iff.1 h
        rw [← hspace, readField_skipSpace] at hfield
        obtain ⟨w, hw, rfl⟩ := readField_eq_ok_iff.1 hfield
        obtain ⟨u, others, hu, rfl, rfl⟩ := ih hrest
        exact ⟨_, _, .first hw hu, by simp, by simp⟩
      | false =>
        simp only [Bool.false_or, decide_eq_true_eq, Bool.not_false, Bool.true_and, Bool.false_eq_true,
          if_false] at h
        split at h
        · rename_i hcomma
          subst hcomma
          obtain ⟨ws, hws, rfl⟩ := (skipSpace_eq_cons_iff (by decide)).1 hspace
          split at h
          · cases h
          · obtain ⟨⟨value, after⟩, hfield, hrest⟩ := bind_eq_ok_iff.1 h
            rw [readField_skipSpace] at hfield
            obtain ⟨w, hw, rfl⟩ := readField_eq_ok_iff.1 hfield
            obtain ⟨u, others, hu, rfl, rfl⟩ := ih hrest
            exact ⟨_, _, .next hws hw hu, by simp, by simp⟩
        · cases h

theorem FieldText.exists_head {w : List Char} {value : Option String} (h : FieldText nullable w value)
    (rest : List Char) : ∃ c more, skipSpace (w ++ rest) = c :: more ∧ c ≠ ']' := by
  cases h with
  | text blank =>
    rw [List.append_assoc, List.cons_append]
    exact ⟨_, _, skipSpace_append_cons blank rfl _, by decide⟩
  | null blank =>
    rw [List.append_assoc, List.cons_append]
    exact ⟨_, _, skipSpace_append_cons blank rfl _, by decide⟩

theorem readElements_append {first : Bool} {w rest : List Char} {found others : Fields}
    (h : ElementsText nullable first names w others) :
    readElements nullable names first found (w ++ rest) = .ok (found ++ others, rest) := by
  induction h generalizing found with
  | last blank =>
    rw [List.append_assoc, List.singleton_append, List.append_nil]
    simp only [readElements, skipSpace_append_cons blank (c := ']') rfl]
  | @first name names w u value fields field hrest ih =>
    obtain ⟨c, more, hspace, hc⟩ := field.exists_head (u ++ rest)
    have hfield : readField nullable (c :: more) = .ok (value, u ++ rest) := by
      rw [← hspace, readField_skipSpace]
      exact readField_eq_ok_iff.2 ⟨w, field, rfl⟩
    rw [List.append_assoc]
    unfold readElements
    simp only [hspace, Bool.true_or, if_true, Bool.not_true, Bool.false_and, Bool.false_eq_true, if_false,
      hfield, bind, Except.bind]
    rw [ih, List.append_assoc, List.singleton_append]
  | @next name names ws w u value fields blank field hrest ih =>
    obtain ⟨c, more, hspace, hc⟩ := field.exists_head (u ++ rest)
    have hfield : readField nullable (c :: more) = .ok (value, u ++ rest) := by
      rw [← hspace, readField_skipSpace]
      exact readField_eq_ok_iff.2 ⟨w, field, rfl⟩
    have hend : (some c = some ']') = False := eq_false fun h => hc (Option.some.inj h)
    simp only [List.append_assoc, List.cons_append]
    unfold readElements
    rw [skipSpace_append_cons blank (c := ',') rfl]
    split
    · rename_i heq
      cases heq
    · rename_i heq
      cases heq
    · rename_i heq
      obtain ⟨rfl, rfl⟩ := List.cons.inj heq
      simp only [hspace, List.head?_cons, hend, decide_false, decide_true, Bool.or_true, if_true,
        Bool.and_false, Bool.false_eq_true, if_false, hfield, bind, Except.bind]
      rw [ih, List.append_assoc, List.singleton_append]

/-- The reader takes the texts of records, with the fields that they tell, and no others. -/
theorem readRecord_eq_ok_iff {cs rest : List Char} {fields : Fields} :
    readRecord names nullable cs = .ok (fields, rest) ↔
      ∃ w, RecordText names nullable w fields ∧ cs = w ++ rest := by
  constructor
  · intro h
    unfold readRecord at h
    split at h
    · cases h
    · rename_i more hspace
      obtain ⟨ws, hws, rfl⟩ := (skipSpace_eq_cons_iff (by decide)).1 hspace
      split at h
      · rename_i hend
        obtain ⟨ws', hws', rfl⟩ := (skipSpace_eq_cons_iff (by decide)).1 hend
        cases h
        exact ⟨_, .empty hws hws', by simp⟩
      · obtain ⟨ws', hws', hmore⟩ := exists_blank more
        have hnil : (([] : Fields).map (·.1)).Nodup := List.nodup_nil
        obtain ⟨w, others, hw, hcs, rfl, nodup⟩ := readsMembers names nullable _ hnil h
        refine ⟨_, .object hws hws' hw nodup, ?_⟩
        rw [hmore, hcs]
        simp
    · rename_i hspace
      obtain ⟨ws, hws, rfl⟩ := (skipSpace_eq_cons_iff (by decide)).1 hspace
      obtain ⟨w, others, hw, rfl, rfl⟩ := exists_elements h
      exact ⟨_, .array hws hw, by simp⟩
    · cases h
  · rintro ⟨w, h, rfl⟩
    cases h with
    | empty blank blank' =>
      simp only [List.append_assoc, List.cons_append, List.nil_append]
      simp only [readRecord, skipSpace_append_cons blank (c := '{') rfl,
        skipSpace_append_cons blank' (c := '}') rfl]
    | @object ws ws' w fields blank blank' members nodup =>
      simp only [List.append_assoc, List.cons_append]
      simp only [readRecord, skipSpace_append_cons blank (c := '{') rfl, members.skipSpace blank']
      split
      · rename_i heq
        obtain ⟨more, rfl⟩ := members.exists_quote
        cases heq
      · exact @readMembers_append names nullable w rest [] fields members nodup _
          (by rw [List.length_append]; omega)
    | array blank elements =>
      simp only [List.append_assoc, List.cons_append]
      simp only [readRecord, skipSpace_append_cons blank (c := '[') rfl]
      exact readElements_append elements

end BurnAfterRead.Json
