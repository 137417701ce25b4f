import BurnAfterRead.Proofs.Http.Plan
import BurnAfterRead.Proofs.Json.RoundTrip
import BurnAfterRead.Proofs.Store.Memory
import BurnAfterRead.Proofs.Text.Percent

/-!
# What clients write and read

An identifier can be written into a path as it is, and the path then names it. A passphrase in a header
is read back from its UTF-8 bytes if all its characters are visible ASCII, spaces or tabs. A header with
any other passphrase counts as missing. What a response holds is read back from its body.
-/

namespace BurnAfterRead

namespace Uuid

theorem mem_digits {count n : Nat} {c : Char} (h : c ∈ digits count n) :
    ∃ d < 16, c = Text.hexDigit d := by
  induction count generalizing n with
  | zero => cases h
  | succ count ih =>
    rcases List.mem_append.1 h with h | h
    · exact ih h
    · exact ⟨n % 16, Nat.mod_lt _ (by decide), List.mem_singleton.1 h⟩

theorem mem_hyphenate {lengths : List Nat} {cs : List Char} {c : Char} (h : c ∈ hyphenate lengths cs) :
    c = '-' ∨ c ∈ cs := by
  fun_induction hyphenate lengths cs with
  | case1 cs => exact Or.inr h
  | case2 n cs => exact Or.inr h
  | case3 n rest cs _ ih =>
    rcases List.mem_append.1 h with h | h
    · exact Or.inr (List.mem_of_mem_take h)
    · rcases List.mem_cons.1 h with h | h
      · exact Or.inl h
      · exact (ih h).imp_right List.mem_of_mem_drop

/-- An identifier has neither slashes nor percent signs. -/
theorem not_mem_text (u : Uuid) {c : Char} (h : c = '/' ∨ c = '%') : c ∉ u.text.toList := by
  intro hc
  unfold text at hc
  rw [String.toList_ofList] at hc
  have hdigits : ∀ d < 16, Text.hexDigit d ≠ '/' ∧ Text.hexDigit d ≠ '%' := by decide
  rcases mem_hyphenate hc with rfl | hc
  · exact absurd h (by decide)
  · obtain ⟨d, hd, rfl⟩ := mem_digits hc
    exact h.elim (hdigits d hd).1 (hdigits d hd).2

end Uuid

namespace Http

/-- The path of the secret of an identifier. -/
def secretPath (id : String) : List Char := "/secrets/".toList ++ id.toList

theorem length_secretPath (id : String) : (secretPath id).length = 9 + id.toList.length := by
  unfold secretPath
  rw [List.length_append]
  rfl

theorem ofPath?_secretPath {id : String} (hne : id ≠ "") (hslash : '/' ∉ id.toList) :
    Route.ofPath? (secretPath id) = some (.secret id.toList) := by
  have hcs : id.toList ≠ [] := by simpa using hne
  have hlong : ∀ path : List Char, path.length < 10 → secretPath id ≠ path := by
    intro path hlen heq
    have hpos := List.length_pos_iff.2 hcs
    rw [← heq, length_secretPath] at hlen
    omega
  have hhealth : secretPath id ≠ "/healthz".toList := hlong _ (by decide)
  have hrandom : secretPath id ≠ "/secret".toList := hlong _ (by decide)
  have hsecrets : secretPath id ≠ "/secrets".toList := hlong _ (by decide)
  have hafter : Text.after? "/secrets/".toList (secretPath id) = some id.toList := Text.after?_append _ _
  unfold Route.ofPath?
  rw [if_neg hhealth, if_neg hrandom, if_neg hsecrets, hafter]
  exact if_neg (not_or.2 ⟨hcs, hslash⟩)

/-- Where identifiers are universally unique ones, the path of a secret names it. -/
theorem Request.names_secretPath {r : Request} {chance : Chance}
    (h : r.path = secretPath chance.identifier) : r.Names chance.identifier := by
  have hslash := (Uuid.ofRandom chance.random).not_mem_text (Or.inl rfl)
  have hpercent := (Uuid.ofRandom chance.random).not_mem_text (Or.inr rfl)
  refine ⟨chance.identifier.toList, ?_, Text.percentText?_of_plain hpercent⟩
  rw [h]
  exact ofPath?_secretPath (Uuid.text_ofRandom_ne chance.random) hslash

/-- A character that headers hold as text: visible ASCII, a space or a tab. -/
def isHeaderChar (c : Char) : Bool := c.toNat = 9 || (32 ≤ c.toNat && c.toNat < 127)

/-- A byte that headers hold as text. -/
def isHeaderByte (b : UInt8) : Bool := b = 9 || (32 ≤ b && b < 127)

theorem isHeaderByte_ofNat {n : Nat} (h : n < 256) :
    isHeaderByte (UInt8.ofNat n) = (n = 9 || (32 ≤ n && n < 127)) := by
  have hbyte : (UInt8.ofNat n).toNat = n := UInt8.toNat_ofNat_of_lt' h
  unfold isHeaderByte
  rw [Bool.eq_iff_iff]
  simp only [Bool.or_eq_true, Bool.and_eq_true, decide_eq_true_eq, UInt8.le_iff_toNat_le,
    UInt8.lt_iff_toNat_lt, ← UInt8.toNat_inj, hbyte]
  rfl

/-- The first byte of a character that is not ASCII is no text for a header. -/
theorem all_isHeaderByte_cons {n : Nat} (hlow : 127 < n) (hhigh : n < 256) (bytes : List UInt8) :
    (UInt8.ofNat n :: bytes).all isHeaderByte = false := by
  rw [List.all_cons, isHeaderByte_ofNat hhigh]
  simp
  omega

/-- The bytes of a character are text for a header exactly if the character is. -/
theorem all_utf8EncodeChar (c : Char) :
    (String.utf8EncodeChar c).all isHeaderByte = isHeaderChar c := by
  unfold String.utf8EncodeChar isHeaderChar Char.toNat
  dsimp only
  generalize c.val.toNat = n
  have hlate : 127 < n → (n = 9 || (32 ≤ n && n < 127)) = false := by
    intro h
    simp
    omega
  split
  · rw [List.all_cons, List.all_nil, Bool.and_true, isHeaderByte_ofNat (by omega)]
  · rw [hlate (by omega)]
    split
    · exact all_isHeaderByte_cons (by omega) (by omega) _
    · split <;> exact all_isHeaderByte_cons (by omega) (by omega) _

/-- The character of the one byte of an ASCII character. -/
theorem map_utf8EncodeChar {c : Char} (h : isHeaderChar c = true) :
    (String.utf8EncodeChar c).map (fun b => Char.ofNat b.toNat) = [c] := by
  have hascii : c.val.toNat < 127 := by
    unfold isHeaderChar Char.toNat at h
    simp only [Bool.or_eq_true, Bool.and_eq_true, decide_eq_true_eq] at h
    omega
  have hbyte : c.val.toNat < UInt8.size := Nat.lt_trans hascii (by decide)
  unfold String.utf8EncodeChar
  dsimp only
  rw [if_pos (by omega), List.map_singleton, UInt8.toNat_ofNat_of_lt' hbyte]
  exact congrArg (fun c => [c]) (Char.ofNat_toNat c)

theorem text?_utf8 (s : String) :
    HeaderValue.text? (Crypto.utf8 s) = if s.toList.all isHeaderChar then some s.toList else none := by
  unfold HeaderValue.text?
  rw [Crypto.utf8_eq_flatMap]
  generalize s.toList = cs
  have hall : (cs.flatMap String.utf8EncodeChar).all isHeaderByte = cs.all isHeaderChar := by
    rw [List.all_flatMap]
    exact List.all_congr rfl all_utf8EncodeChar
  change (if (cs.flatMap String.utf8EncodeChar).all isHeaderByte then _ else _) = _
  rw [hall]
  split
  · rename_i h
    refine congrArg some ?_
    rw [List.map_flatMap]
    exact (List.flatMap_congr fun c hc => map_utf8EncodeChar (List.all_eq_true.1 h c hc)).trans
      (List.flatMap_singleton' cs)
  · rfl

/-- The only header is found under its name in lower case. -/
theorem Headers.get?_singleton {name : String} (h : name.toLower = name) (value : HeaderValue) :
    Headers.get? [(name, value)] name = some value := by
  unfold get?
  rw [List.find?_cons_of_pos (by rw [h]; exact beq_self_eq_true name)]
  rfl

/-- A passphrase in a header is read back, or counts as missing. -/
theorem passphrase?_of_get? {headers : Headers} {passphrase : String}
    (h : headers.get? "passphrase" = some (Crypto.utf8 passphrase)) :
    passphrase? headers = if passphrase.toList.all isHeaderChar then some passphrase else none := by
  unfold passphrase? Headers.text?
  rw [h, Option.bind_some, text?_utf8]
  split
  · rw [Option.map_some, String.ofList_toList]
  · rfl

/-- What a member of a response's JSON object holds, where it holds a text. -/
def Response.member? (response : Response) (name : String) : Option String :=
  match Json.readRecord ["id", "value", "expiresAt"] false response.body.toList with
  | .ok (fields, _) => fields.get name
  | .error _ => none

namespace Response

theorem member?_congr {response response' : Response} (h : response.body = response'.body)
    (name : String) : response.member? name = response'.member? name := by
  unfold member?
  rw [h]

/-- The members that are written into a response are read back from it. -/
theorem member?_json (status : Nat) {members : List (String × String)} (hne : members ≠ [])
    (hknown : ∀ m ∈ members, ["id", "value", "expiresAt"].contains m.1 = true)
    (nodup : (members.map (·.1)).Nodup) (name : String) :
    (json status (Json.textMembers members)).member? name = (Json.textFields members).get name := by
  have hread := Json.readRecord_writeObject false hne hknown nodup []
  rw [List.append_nil] at hread
  unfold member? json
  dsimp only
  rw [String.toList_ofList, hread]

theorem member?_created (id : String) (t : Instant) :
    (created id t).member? "id" = some id ∧ (created id t).member? "expiresAt" = some t.text := by
  have hread := member?_json 201 (List.cons_ne_nil ("id", id) [("expiresAt", t.text)]) (by simp) (by simp)
  exact ⟨hread "id", hread "expiresAt"⟩

theorem value_redeemed (id value : String) (t : Instant) :
    (redeemed id value t).member? "value" = some value :=
  member?_json 200 (List.cons_ne_nil ("id", id) [("value", value), ("expiresAt", t.text)]) (by simp)
    (by simp) "value"

end Response

end Http

end BurnAfterRead
