import BurnAfterRead.Proofs.Crypto.Generator
import BurnAfterRead.Proofs.Http.ErrorReport
import BurnAfterRead.Proofs.Text.Form

/-!
# Random strings over HTTP

A query is a form whose pairs may ask for a length and for special characters, each by a name or by a short
form of it. The short form counts only where the name does not occur at all: a name with a value that cannot
be read stands for the default, whatever the short form says. Whatever the query is, the answer is a string
as it was asked for, as plain text or in a JSON object.
-/

namespace BurnAfterRead

namespace Http

section Parameters

variable {pairs : List (String × String)} {name short value : String} {query : List Char}

/-- The value of a name in a form: that of the last pair with this name. -/
def IsValueOf (pairs : List (String × String)) (name value : String) : Prop :=
  ∃ before after, pairs = before ++ (name, value) :: after ∧ ∀ pair ∈ after, pair.1 ≠ name

/-- The value that counts for a parameter: that of its name or, where no pair has this name, that of its
short form. -/
inductive Counts (pairs : List (String × String)) (name short : String) : String → Prop where
  | named {value : String} (h : IsValueOf pairs name value) : Counts pairs name short value
  | shortened {value : String} (missing : ∀ pair ∈ pairs, pair.1 ≠ name) (h : IsValueOf pairs short value) :
      Counts pairs name short value

/-- What a parameter says: what the value that counts for it reads as, or a default where no value counts or
the one that does cannot be read. -/
inductive Says {β : Type} (pairs : List (String × String)) (name short : String) (Reads : β → String → Prop)
    (default : β) : β → Prop where
  | read {value : String} {b : β} (counts : Counts pairs name short value) (reads : Reads b value) :
      Says pairs name short Reads default b
  | unread (h : ∀ value, Counts pairs name short value → ∀ b, ¬Reads b value) :
      Says pairs name short Reads default default

theorem lookup_reverse_eq_some_iff : pairs.reverse.lookup name = some value ↔ IsValueOf pairs name value := by
  have hreverse : ∀ before after : List (String × String),
      pairs.reverse = after.reverse ++ (name, value) :: before.reverse ↔
        pairs = before ++ (name, value) :: after := by
    intro before after
    rw [List.reverse_eq_iff, List.reverse_append, List.reverse_cons, List.reverse_reverse,
      List.reverse_reverse, List.append_assoc, List.singleton_append]
  simp only [List.lookup_eq_some_iff, bne_iff_ne]
  constructor
  · rintro ⟨after, before, hpairs, hafter⟩
    refine ⟨before.reverse, after.reverse, (hreverse _ _).1 ?_, fun pair hpair => ?_⟩
    · rw [hpairs, List.reverse_reverse, List.reverse_reverse]
    · exact (hafter pair (List.mem_reverse.1 hpair)).symm
  · rintro ⟨before, after, hpairs, hafter⟩
    refine ⟨after.reverse, before.reverse, (hreverse _ _).2 hpairs, fun pair hpair => ?_⟩
    exact (hafter pair (List.mem_reverse.1 hpair)).symm

theorem lookup_reverse_eq_none_iff : pairs.reverse.lookup name = none ↔ ∀ pair ∈ pairs, pair.1 ≠ name := by
  simp only [List.lookup_eq_none_iff, List.mem_reverse, bne_iff_ne]
  exact forall₂_congr fun pair _ => ne_comm

theorem parameter?_eq_some_iff :
    parameter? query name short = some value ↔ Counts (Text.formPairs query) name short value := by
  unfold parameter?
  dsimp only
  rw [Option.orElse_eq_orElse, Option.orElse_eq_or, Option.or_eq_some_iff, lookup_reverse_eq_some_iff,
    lookup_reverse_eq_none_iff, lookup_reverse_eq_some_iff]
  constructor
  · rintro (h | ⟨missing, h⟩)
    · exact .named h
    · exact .shortened missing h
  · rintro (h | ⟨missing, h⟩)
    · exact Or.inl h
    · exact Or.inr ⟨missing, h⟩

/-- A parameter says one thing: what the value that counts is read as, and else the default. -/
theorem says_iff {β : Type} {read? : String → Option β} {Reads : β → String → Prop}
    (hread : ∀ value b, read? value = some b ↔ Reads b value) {default b : β} :
    Says (Text.formPairs query) name short Reads default b ↔
      ((parameter? query name short).bind read?).getD default = b := by
  constructor
  · rintro (⟨counts, reads⟩ | hunread)
    · rw [parameter?_eq_some_iff.2 counts, Option.bind_some, (hread _ _).2 reads, Option.getD_some]
    · have hnone : (parameter? query name short).bind read? = none := by
        refine Option.eq_none_iff_forall_ne_some.2 fun b hb => ?_
        obtain ⟨value, hvalue, hreads⟩ := Option.bind_eq_some_iff.1 hb
        exact hunread value (parameter?_eq_some_iff.1 hvalue) b ((hread _ _).1 hreads)
      rw [hnone, Option.getD_none]
  · rintro rfl
    cases hread? : (parameter? query name short).bind read? with
    | some b =>
      obtain ⟨value, hvalue, hreads⟩ := Option.bind_eq_some_iff.1 hread?
      exact .read (parameter?_eq_some_iff.1 hvalue) ((hread _ _).1 hreads)
    | none =>
      refine .unread fun value counts b reads => ?_
      rw [parameter?_eq_some_iff.2 counts, Option.bind_some, (hread _ _).2 reads] at hread?
      cases hread?

end Parameters

/-- A length as 64 bits hold it: a numeral, with zeros or a plus sign in front or not. -/
def IsLength (n : Nat) (value : String) : Prop := Text.IsNumeral n value.toList ∧ n ≤ Text.maxUInt64

/-- What a form asks for: a string of a length, with special characters or without. -/
structure Wants (pairs : List (String × String)) (length : Nat) (special : Bool) : Prop where
  length : Says pairs "length" "l" IsLength 16 length
  special : Says pairs "specialCharacters" "sc" (fun b value => value = if b then "true" else "false")
    false special

theorem wants_iff {query : List Char} {length : Nat} {special : Bool} :
    Wants (Text.formPairs query) length special ↔
      ((parameter? query "length" "l").bind fun v => Text.readUpTo Text.maxUInt64 v.toList).getD 16 = length ∧
      ((parameter? query "specialCharacters" "sc").bind fun v => Text.readBool v.toList).getD false =
        special := by
  have hlength : ∀ value n, Text.readUpTo Text.maxUInt64 value.toList = some n ↔ IsLength n value :=
    fun _ _ => Text.readUpTo_eq_some_iff
  have hspecial : ∀ value b, Text.readBool value.toList = some b ↔ value = if b then "true" else "false" :=
    fun _ _ => Text.readBool_eq_some_iff.trans String.toList_inj
  rw [← says_iff hlength, ← says_iff hspecial]
  exact ⟨fun h => ⟨h.length, h.special⟩, fun h => ⟨h.1, h.2⟩⟩

theorem exists_wants (query : List Char) : ∃ length special, Wants (Text.formPairs query) length special :=
  ⟨_, _, wants_iff.2 ⟨rfl, rfl⟩⟩

theorem randomString_of_wants {query : List Char} {length : Nat} {special : Bool}
    (h : Wants (Text.formPairs query) length special) (letters : Nat → Nat) :
    randomString query letters = Crypto.generate length special letters := by
  obtain ⟨rfl, rfl⟩ := wants_iff.1 h
  rfl

/-- A client who accepts plain text. -/
def Request.AcceptsPlain (r : Request) : Prop :=
  ∃ accepted, r.headers.text? "accept" = some accepted ∧ "text/plain".toList <:+: accepted

theorem wantsPlainText_iff {r : Request} : wantsPlainText r.headers = true ↔ r.AcceptsPlain := by
  unfold wantsPlainText Request.AcceptsPlain
  cases r.headers.text? "accept" with
  | none => simp
  | some accepted => simp [Text.contains_iff_infix]

/-- The response shows a string in the form that the client accepts: as plain text, and else as the only
member of a JSON object. -/
structure Response.Shows (response : Response) (r : Request) (w : String) : Prop where
  plain : r.AcceptsPlain →
    response.contentType? = some (Crypto.utf8 "text/plain; charset=utf-8") ∧ response.body = w
  json : ¬r.AcceptsPlain → response.contentType? = some (Crypto.utf8 "application/json") ∧
    response.body = "\x7b\"value\":\"" ++ w ++ "\"\x7d"

theorem escape?_of_allowed {c : Char} {special : Bool}
    (h : c.isAlpha = true ∨ (special = true ∧ c ∈ "_-!?=()&%".toList)) : Json.escape? c = none := by
  obtain hletter | ⟨-, hspecial⟩ := h
  · have hrange := Text.isAlpha_iff.1 hletter
    refine Json.escape?_eq_none_iff.2 ⟨by omega, ?_, ?_⟩ <;> rintro rfl <;> exact absurd hrange (by decide)
  · have hall : ∀ c ∈ "_-!?=()&%".toList, (Json.escape? c).isNone = true := List.all_eq_true.1 (by decide)
    exact Option.isNone_iff_eq_none.1 (hall c hspecial)

/-- A text that needs no escapes stands between the quotes as it is. -/
theorem Response.body_json_value (status : Nat) {w : String} (h : ∀ c ∈ w.toList, Json.escape? c = none) :
    (json status [("value", .text w)]).body = "\x7b\"value\":\"" ++ w ++ "\"\x7d" := by
  have hquote : Json.quote w.toList = '"' :: w.toList ++ ['"'] := by
    rw [Json.quote, Json.escaped_of_plain h]
  refine String.toList_injective ?_
  unfold json
  rw [String.toList_ofList, Json.writeObject, Json.writeMembers, Json.Scalar.write, hquote]
  simp [Json.quote, Json.escaped, Json.escape?]

theorem shows_generate {r : Request} {letters : Nat → Nat} {length : Nat} {special : Bool}
    (h : Crypto.IsDisplay length special (randomString r.query letters)) :
    (generate r letters).Shows r (randomString r.query letters) := by
  unfold generate
  dsimp only
  constructor
  · intro hplain
    rw [if_pos (wantsPlainText_iff.2 hplain)]
    exact ⟨Headers.get?_singleton (by decide +kernel) _, rfl⟩
  · intro hjson
    rw [if_neg (wantsPlainText_iff.not.2 hjson)]
    refine ⟨Response.contentType?_json _ _, Response.body_json_value 200 fun c hc => ?_⟩
    exact escape?_of_allowed (h.allowed c hc)

/-- Unless the client asks for no body, what all answers have in common leaves alone what is shown. -/
theorem Response.Shows.dress {r : Request} (hmethod : r.method ≠ .head) (draws : Draws) {response : Response}
    {w : String} (h : response.Shows r w) : (r.dress draws response).Shows r w := by
  obtain ⟨htype, hbody⟩ := Request.dress_of_ne_head hmethod draws response
  constructor
  · intro hplain
    rw [htype, hbody]
    exact h.plain hplain
  · intro hjson
    rw [htype, hbody]
    exact h.json hjson

namespace Site

variable {α : Type} [TokenNumber α] {σ : Type}

theorem admits_of_unlimited {site : Site α} (h : site.limiter = none) (steady : Int) (r : Request) :
    site.Admits steady r := by
  intro route _
  unfold check
  rw [h]

theorem plan_generate {site : Site α} {steady : Int} {r : Request} (hadmits : site.Admits steady r)
    (hmethod : r.method = .get) (hpath : r.path = "/secret".toList) (draws : Draws) :
    site.plan steady draws r = .error (generate r draws.letters) := by
  have hroute : Route.ofPath? r.path = some .random := by
    rw [hpath]
    rfl
  rw [plan_of_admits hadmits hroute, hmethod]
  rfl

/-- What can be generated for a length is exactly the texts of this length, 512 at most, of ASCII letters and,
on request, special characters; each number that is drawn stands for a place in the alphabet, and each place
can be drawn. One who asks the site for a string, whatever the query, is answered one of the length and the
alphabet that the pairs of the query say, as plain text or as JSON, and the store is left alone. The pairs of
a query are those that are written in it. -/
theorem string_as_asked_for (site : Site α) (unlimited : site.limiter = none) (store : Store σ) (steady : Int)
    (now : Instant) (draws : Draws) {r : Request} (hmethod : r.method = .get)
    (hpath : r.path = "/secret".toList) (st : σ) :
    (∀ length special w, (∃ letters, Crypto.generate length special letters = w) ↔
      Crypto.IsDisplay (min length 512) special w) ∧
    (∀ length special letters, (Crypto.generate length special letters).toList =
      (List.range (min length 512)).map fun i =>
        (Crypto.alphabet special).get (Crypto.place special (letters i))) ∧
    (∀ special, Function.Surjective (Crypto.place special)) ∧
    ∃ length special w, Wants (Text.formPairs r.query) length special ∧
      (∀ pairs, Text.IsForm pairs r.query → Wants pairs length special) ∧
      Crypto.generate length special draws.letters = w ∧ Crypto.IsDisplay (min length 512) special w ∧
      (site.respond store steady now draws r st).1.status = 200 ∧
      (site.respond store steady now draws r st).1.Shows r w ∧
      (site.respond store steady now draws r st).2 = st := by
  refine ⟨fun _ _ _ => Crypto.exists_generate_iff, fun length special letters => ?_,
    Crypto.place_surjective, ?_⟩
  · rw [Crypto.toList_generate, List.map_map]
    rfl
  · obtain ⟨length, special, wants⟩ := exists_wants r.query
    have hstring := randomString_of_wants wants draws.letters
    have display : Crypto.IsDisplay (min length 512) special (randomString r.query draws.letters) :=
      Crypto.exists_generate_iff.1 ⟨draws.letters, hstring.symm⟩
    have hplan := plan_generate (site.admits_of_unlimited unlimited steady r) hmethod hpath draws
    refine ⟨length, special, _, wants, fun pairs hform => ?_, hstring.symm, display, ?_⟩
    · rwa [Text.formPairs_of_isForm hform] at wants
    · rw [respond_eq, hplan, carryOut]
      refine ⟨?_, (shows_generate display).dress (by rw [hmethod]; decide) draws, rfl⟩
      rw [Request.status_dress, status_generate]

/-- A length that cannot be read gives the default, also where its short form could be read. -/
theorem string_as_asked_for_of_misspelt_length :
    let site : Site Rat := ⟨⟨"service key", ⟨0⟩⟩, none⟩
    let draws : Draws := ⟨⟨Vector.replicate 12 0, 0⟩, fun i => 50 + i, 0⟩
    let r : Request :=
      { method := .get, path := "/secret".toList, query := "length=ten&l=8&sc=true".toList }
    let response := (site.respond Memory.store 0 ⟨0, 0⟩ draws r .empty).1
    site.limiter = none ∧ Wants (Text.formPairs r.query) 16 true ∧ response.status = 200 ∧
      response.body = "\x7b\"value\":\"YZ_-!?=()&%abcde\"\x7d" := by
  intro site draws r response
  obtain ⟨-, -, -, length, special, w, wants, -, hw, -, hstatus, shown, -⟩ :=
    site.string_as_asked_for rfl Memory.store 0 ⟨0, 0⟩ draws (r := r) rfl rfl .empty
  obtain ⟨hlength, hspecial⟩ := wants_iff.1 wants
  obtain rfl : 16 = length := Eq.trans (by decide +kernel) hlength
  obtain rfl : true = special := Eq.trans (by decide +kernel) hspecial
  have hplain : ¬r.AcceptsPlain := by
    rintro ⟨accepted, haccepted, -⟩
    cases haccepted
  refine ⟨rfl, wants, hstatus, ?_⟩
  rw [(shown.json hplain).2, ← hw]
  decide +kernel

end Site

end Http

end BurnAfterRead
