import BurnAfterRead.Proofs.Text.Percent

/-!
# Forms are read back

The first byte of a character tells how many follow it, so a text is read back from its UTF-8 bytes character
by character, and no mark is put in. A form may be written in many ways: most characters stand for themselves
or are written byte by byte, a space may be a plus sign, an equals sign with nothing behind it may be left
out. However its pairs are written, they are read as they were meant, in their order.
-/

namespace BurnAfterRead.Text

/-- A byte that follows the first one of a character. -/
def IsContinuation (b : UInt8) : Prop := 0x80 ≤ b.toNat ∧ b.toNat ≤ 0xbf

theorem utf8Prefix_go_tails {tails : List UInt8} (h : ∀ b ∈ tails, IsContinuation b) (rest : List UInt8) :
    utf8Prefix.go 0x80 0xbf tails.length (tails ++ rest) = tails.length := by
  induction tails with
  | nil => rfl
  | cons b tails ih =>
    have hb := h b List.mem_cons_self
    rw [List.length_cons, List.cons_append, utf8Prefix.go,
      if_pos ⟨UInt8.le_iff_toNat_le.2 hb.1, UInt8.le_iff_toNat_le.2 hb.2⟩,
      ih fun c hc => h c (List.mem_cons_of_mem b hc)]

/-- The second byte of a character has a narrower range behind some of the first ones. -/
theorem utf8Prefix_go_cons (low high : UInt8) {b : UInt8} (hlow : low.toNat ≤ b.toNat)
    (hhigh : b.toNat ≤ high.toNat) (tails : List UInt8) (h : ∀ b ∈ tails, IsContinuation b)
    (rest : List UInt8) :
    utf8Prefix.go low high (tails.length + 1) (b :: (tails ++ rest)) = tails.length + 1 := by
  rw [utf8Prefix.go, if_pos ⟨UInt8.le_iff_toNat_le.2 hlow, UInt8.le_iff_toNat_le.2 hhigh⟩,
    utf8Prefix_go_tails h]

theorem utf8Prefix_one {a : UInt8} (ha : a.toNat ≤ 0x7f) (rest : List UInt8) :
    utf8Prefix (a :: rest) = (1, true) := by
  have hlow : a < 0x80 := UInt8.lt_iff_toNat_lt.2 (Nat.lt_succ_of_le ha)
  exact if_pos hlow

theorem utf8Prefix_two {a b : UInt8} (ha : 0xc2 ≤ a.toNat ∧ a.toNat ≤ 0xdf) (hb : IsContinuation b)
    (rest : List UInt8) : utf8Prefix (a :: b :: rest) = (2, true) := by
  have hgo : utf8Prefix.go 0x80 0xbf 1 (b :: rest) = 1 :=
    utf8Prefix_go_cons 0x80 0xbf hb.1 hb.2 [] (by simp) rest
  simp only [utf8Prefix, UInt8.lt_iff_toNat_lt, hgo, UInt8.reduceToNat]
  rw [if_neg (by omega), if_neg (by omega), if_pos (by omega)]
  simp

theorem utf8Prefix_three {a b c : UInt8} (ha : 0xe0 ≤ a.toNat ∧ a.toNat ≤ 0xef) (hb : IsContinuation b)
    (he0 : a.toNat = 0xe0 → 0xa0 ≤ b.toNat) (hed : a.toNat = 0xed → b.toNat ≤ 0x9f) (hc : IsContinuation c)
    (rest : List UInt8) : utf8Prefix (a :: b :: c :: rest) = (3, true) := by
  have hgo : ∀ low high : UInt8, low.toNat ≤ b.toNat → b.toNat ≤ high.toNat →
      utf8Prefix.go low high 2 (b :: c :: rest) = 2 := fun low high hlow hhigh =>
    utf8Prefix_go_cons low high hlow hhigh [c] (by simpa using hc) rest
  obtain ⟨hlow, hhigh⟩ := hb
  simp only [utf8Prefix, UInt8.lt_iff_toNat_lt, ← UInt8.toNat_inj, UInt8.reduceToNat]
  rw [if_neg (by omega), if_neg (by omega), if_neg (by omega)]
  split
  · rename_i h
    rw [hgo 0xa0 0xbf (he0 h) hhigh]
    rfl
  split
  · rename_i h
    rw [hgo 0x80 0x9f hlow (hed h)]
    rfl
  · rw [if_pos (by omega), hgo 0x80 0xbf hlow hhigh]
    rfl

theorem utf8Prefix_four {a b c d : UInt8} (ha : 0xf0 ≤ a.toNat ∧ a.toNat ≤ 0xf4) (hb : IsContinuation b)
    (hf0 : a.toNat = 0xf0 → 0x90 ≤ b.toNat) (hf4 : a.toNat = 0xf4 → b.toNat ≤ 0x8f) (hc : IsContinuation c)
    (hd : IsContinuation d) (rest : List UInt8) : utf8Prefix (a :: b :: c :: d :: rest) = (4, true) := by
  have hgo : ∀ low high : UInt8, low.toNat ≤ b.toNat → b.toNat ≤ high.toNat →
      utf8Prefix.go low high 3 (b :: c :: d :: rest) = 3 := fun low high hlow hhigh =>
    utf8Prefix_go_cons low high hlow hhigh [c, d] (by simpa using ⟨hc, hd⟩) rest
  obtain ⟨hlow, hhigh⟩ := hb
  simp only [utf8Prefix, UInt8.lt_iff_toNat_lt, ← UInt8.toNat_inj, UInt8.reduceToNat]
  rw [if_neg (by omega), if_neg (by omega), if_neg (by omega), if_neg (by omega), if_neg (by omega),
    if_neg (by omega)]
  split
  · rename_i h
    rw [hgo 0x90 0xbf (hf0 h) hhigh]
    rfl
  split
  · rw [hgo 0x80 0xbf hlow hhigh]
    rfl
  · have h : a.toNat = 0xf4 := by omega
    rw [if_pos h, hgo 0x80 0x8f hlow (hf4 h)]
    rfl

/-- The bytes of a character are complete, whatever follows them. -/
theorem utf8Prefix_encode (c : Char) (rest : List UInt8) :
    utf8Prefix (String.utf8EncodeChar c ++ rest) = ((String.utf8EncodeChar c).length, true) := by
  have hvalid : c.val.toNat < 0xd800 ∨ (0xdfff < c.val.toNat ∧ c.val.toNat < 0x110000) := c.valid
  have hbyte : ∀ {n : Nat}, n < 256 → (UInt8.ofNat n).toNat = n := UInt8.toNat_ofNat_of_lt'
  have continuation : ∀ n : Nat, n < 64 → IsContinuation (UInt8.ofNat (n + 128)) := by
    intro n hn
    unfold IsContinuation
    rw [hbyte (by omega)]
    omega
  unfold String.utf8EncodeChar
  dsimp only
  generalize c.val.toNat = v at hvalid
  -- What bounds the second byte: no code that fewer bytes hold, no surrogate, none past the last character.
  split
  · exact utf8Prefix_one (by rw [hbyte] <;> omega) rest
  split
  · exact utf8Prefix_two (by rw [hbyte] <;> omega) (continuation _ (by omega)) rest
  split
  · refine utf8Prefix_three (by rw [hbyte] <;> omega) (continuation _ (by omega)) ?_ ?_
      (continuation _ (by omega)) rest
    · rw [hbyte (by omega), hbyte (by omega)]
      omega
    · rw [hbyte (by omega), hbyte (by omega)]
      omega
  · refine utf8Prefix_four (by rw [hbyte] <;> omega) (continuation _ (by omega)) ?_ ?_
      (continuation _ (by omega)) (continuation _ (by omega)) rest
    · rw [hbyte (by omega), hbyte (by omega)]
      omega
    · rw [hbyte (by omega), hbyte (by omega)]
      omega

theorem lossyText_go_encode (mark acc cs : List Char) {fuel : Nat}
    (h : (cs.flatMap String.utf8EncodeChar).length ≤ fuel) :
    lossyText.go mark fuel acc (cs.flatMap String.utf8EncodeChar) = acc.reverse ++ cs := by
  induction cs generalizing fuel acc with
  | nil => cases fuel <;> simp [lossyText.go]
  | cons c cs ih =>
    rw [List.flatMap_cons, List.length_append] at h
    have hsize : 0 < (String.utf8EncodeChar c).length := by
      rw [String.length_utf8EncodeChar]
      exact c.utf8Size_pos
    obtain ⟨fuel, rfl⟩ : ∃ k, fuel = k + 1 := ⟨fuel - 1, by omega⟩
    have hread : String.fromUTF8? ⟨(String.utf8EncodeChar c).toArray⟩ = some (String.ofList [c]) := by
      have hutf8 := Crypto.utf8Text?_utf8 (String.ofList [c])
      rwa [Crypto.utf8_ofList, List.flatMap_singleton] at hutf8
    rw [List.flatMap_cons, lossyText.go, utf8Prefix_encode]
    · dsimp only
      rw [Nat.max_eq_left (by omega), List.take_left, List.drop_left, if_pos rfl, hread, ih _ (by omega)]
      simp
    · intro hnil
      rw [(List.append_eq_nil_iff.1 hnil).1] at hsize
      exact Nat.lt_irrefl 0 hsize

/-- The bytes of a text are read as this text. -/
theorem lossyText_utf8 (mark cs : List Char) : lossyText mark (cs.flatMap String.utf8EncodeChar) = cs :=
  lossyText_go_encode mark [] cs (Nat.le_refl _)

/-- Bytes written with percent signs. The hexadecimal digits may have either case. -/
inductive Escapes : List UInt8 → List Char → Prop where
  | nil : Escapes [] []
  | cons {b : UInt8} {bytes : List UInt8} {high low : Char} {cs : List Char}
      (readHigh : hexValue? high = some (b.toNat / 16)) (readLow : hexValue? low = some (b.toNat % 16))
      (rest : Escapes bytes cs) : Escapes (b :: bytes) ('%' :: high :: low :: cs)

/-- A text as it is written in a form: a character may stand for itself if it is no sign of the form, a space
may be a plus sign, and any character may be written byte by byte. -/
inductive FormSpells : List Char → List Char → Prop where
  | nil : FormSpells [] []
  | plain {c : Char} {text cs : List Char} (hc : c ∉ ['%', '+', '&']) (rest : FormSpells text cs) :
      FormSpells (c :: text) (c :: cs)
  | space {text cs : List Char} (rest : FormSpells text cs) : FormSpells (' ' :: text) ('+' :: cs)
  | escaped {c : Char} {text e cs : List Char} (he : Escapes (String.utf8EncodeChar c) e)
      (rest : FormSpells text cs) : FormSpells (c :: text) (e ++ cs)

/-- A pair as it is written in a form. Where the value is empty, the equals sign may be left out. -/
inductive PairSpells : String × String → List Char → Prop where
  | full {name value : String} {n v : List Char} (hn : FormSpells name.toList n) (noEquals : '=' ∉ n)
      (hv : FormSpells value.toList v) : PairSpells (name, value) (n ++ '=' :: v)
  | bare {name : String} {n : List Char} (hn : FormSpells name.toList n) (noEquals : '=' ∉ n)
      (filled : n ≠ []) : PairSpells (name, "") n

/-- The pair that a part of a form is read as. -/
def formPair (part : List Char) : String × String :=
  match cutFirst '=' part with
  | some (name, value) => (formText name, formText value)
  | none => (formText part, "")

theorem formPairs_eq (cs : List Char) :
    formPairs cs = ((cs.splitOn '&').filter (· ≠ [])).map formPair := rfl

/-- What stands for a space in a form does. -/
def plusAsSpace (c : Char) : Char := if c = '+' then ' ' else c

theorem percentDecode_cons {c : Char} (h : c ≠ '%') (cs : List Char) :
    percentDecode (c :: cs) = String.utf8EncodeChar c ++ percentDecode cs := by
  rw [percentDecode, utf8Bytes_eq]
  exact fun _ _ _ heq => absurd heq h

namespace Escapes

variable {bytes : List UInt8} {e : List Char}

theorem decode (h : Escapes bytes e) (rest : List Char) :
    percentDecode (e ++ rest) = bytes ++ percentDecode rest := by
  induction h with
  | nil => rfl
  | @cons b bytes high low cs readHigh readLow _ ih =>
    have hb : b.toNat < 256 := b.toNat_lt
    have hbyte : UInt8.ofNat (16 * (b.toNat / 16) + b.toNat % 16) = b := by
      rw [Nat.div_add_mod]
      exact UInt8.ofNat_toNat
    simp only [List.cons_append, percentDecode, readHigh, readLow, hbyte, ih]

/-- No other sign than the percent sign and hexadecimal digits is in the text. -/
theorem not_mem (h : Escapes bytes e) {sign : Char} (hpercent : sign ≠ '%') (hdigit : hexValue? sign = none) :
    sign ∉ e := by
  induction h with
  | nil => exact List.not_mem_nil
  | cons readHigh readLow _ ih =>
    rw [List.mem_cons, List.mem_cons, List.mem_cons]
    rintro (rfl | rfl | rfl | hmem)
    · exact hpercent rfl
    · rw [hdigit] at readHigh
      cases readHigh
    · rw [hdigit] at readLow
      cases readLow
    · exact ih hmem

theorem map_plusAsSpace (h : Escapes bytes e) : e.map plusAsSpace = e := by
  refine (List.map_congr_left fun c hc => if_neg ?_).trans (List.map_id e)
  rintro rfl
  exact h.not_mem (by decide) (by decide) hc

end Escapes

namespace FormSpells

variable {text cs : List Char}

theorem decode (h : FormSpells text cs) :
    percentDecode (cs.map plusAsSpace) = text.flatMap String.utf8EncodeChar := by
  induction h with
  | nil => rw [List.map_nil, percentDecode, List.flatMap_nil]
  | @plain c text cs hc _ ih =>
    simp only [List.mem_cons, List.not_mem_nil, or_false, not_or] at hc
    have hsame : plusAsSpace c = c := if_neg hc.2.1
    rw [List.map_cons, hsame, percentDecode_cons hc.1, ih, List.flatMap_cons]
  | space _ ih =>
    rw [List.map_cons, List.flatMap_cons, ← ih]
    exact percentDecode_cons (by decide) _
  | escaped he _ ih =>
    rw [List.map_append, he.map_plusAsSpace, he.decode, ih, List.flatMap_cons]

theorem formText_eq (h : FormSpells text cs) : formText cs = String.ofList text := by
  unfold formText
  change String.ofList (lossyText ['\ufffd'] (percentDecode (cs.map plusAsSpace))) = _
  rw [h.decode, lossyText_utf8]

theorem not_mem_ampersand (h : FormSpells text cs) : '&' ∉ cs := by
  induction h with
  | nil => exact List.not_mem_nil
  | plain hc _ ih =>
    rw [List.mem_cons, not_or]
    refine ⟨?_, ih⟩
    rintro rfl
    exact hc (by decide)
  | space _ ih =>
    rw [List.mem_cons, not_or]
    exact ⟨by decide, ih⟩
  | escaped he _ ih =>
    rw [List.mem_append, not_or]
    exact ⟨he.not_mem (by decide) (by decide), ih⟩

end FormSpells

namespace PairSpells

variable {pair : String × String} {part : List Char}

theorem not_mem_ampersand (h : PairSpells pair part) : '&' ∉ part := by
  cases h with
  | full hn _ hv =>
    rw [List.mem_append, List.mem_cons, not_or, not_or]
    exact ⟨hn.not_mem_ampersand, by decide, hv.not_mem_ampersand⟩
  | bare hn => exact hn.not_mem_ampersand

theorem filled (h : PairSpells pair part) : part ≠ [] := by
  cases h with
  | full => simp
  | bare _ _ filled => exact filled

theorem formPair_eq (h : PairSpells pair part) : formPair part = pair := by
  unfold formPair
  cases h with
  | full hn noEquals hv =>
    rw [cutFirst_append noEquals]
    simp only [hn.formText_eq, hv.formText_eq, String.ofList_toList]
  | bare hn noEquals =>
    rw [cutFirst_eq_none noEquals]
    simp only [hn.formText_eq, String.ofList_toList]

end PairSpells

/-- A form as pairs are written in it, divided by ampersands. There may be more of these than it takes. -/
inductive IsForm : List (String × String) → List Char → Prop where
  | nil : IsForm [] []
  | last {pair : String × String} {part : List Char} (h : PairSpells pair part) : IsForm [pair] part
  | cons {pair : String × String} {pairs : List (String × String)} {part cs : List Char}
      (h : PairSpells pair part) (rest : IsForm pairs cs) : IsForm (pair :: pairs) (part ++ '&' :: cs)
  | skip {pairs : List (String × String)} {cs : List Char} (rest : IsForm pairs cs) :
      IsForm pairs ('&' :: cs)

theorem formPairs_append {part : List Char} (h : '&' ∉ part) (cs : List Char) :
    formPairs (part ++ '&' :: cs) = ([part].filter (· ≠ [])).map formPair ++ formPairs cs := by
  rw [formPairs_eq, List.splitOn_append_cons_self_of_not_mem h, ← List.singleton_append, List.filter_append,
    List.map_append, formPairs_eq]

/-- A form is read as the pairs that are written in it, in their order. -/
theorem formPairs_of_isForm {pairs : List (String × String)} {cs : List Char} (h : IsForm pairs cs) :
    formPairs cs = pairs := by
  have hpart : ∀ {pair part}, PairSpells pair part → ([part].filter (· ≠ [])).map formPair = [pair] := by
    intro pair part hpair
    rw [List.filter_cons_of_pos (by simpa using hpair.filled), List.filter_nil, List.map_singleton,
      hpair.formPair_eq]
  induction h with
  | nil => rfl
  | last hpair => rw [formPairs_eq, List.splitOn_eq_singleton hpair.not_mem_ampersand, hpart hpair]
  | cons hpair _ ih => rw [formPairs_append hpair.not_mem_ampersand, hpart hpair, ih, List.singleton_append]
  | @skip pairs cs _ ih => exact (formPairs_append List.not_mem_nil cs).trans ih

end BurnAfterRead.Text
