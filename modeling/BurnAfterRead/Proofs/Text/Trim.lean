import BurnAfterRead.Proofs.Text.Digits
import Mathlib.Data.List.TakeWhile

/-!
# White space taken off

A text is what is left of it between white space that is taken off. Letters and digits are no white
space, so a text of these stays whole, whatever white space stood around it.
-/

namespace BurnAfterRead.Text

theorem isAlpha_iff {c : Char} :
    c.isAlpha = true ↔ (65 ≤ c.toNat ∧ c.toNat ≤ 90) ∨ (97 ≤ c.toNat ∧ c.toNat ≤ 122) := by
  have halpha : c.isAlpha =
      (decide (65 ≤ c.val ∧ c.val ≤ 90) || (decide (97 ≤ c.val) && decide (c.val ≤ 122))) := rfl
  rw [halpha]
  simp only [Bool.or_eq_true, Bool.and_eq_true, decide_eq_true_eq, UInt32.le_iff_toNat_le]
  rfl

theorem isDigit_iff {c : Char} : c.isDigit = true ↔ 48 ≤ c.toNat ∧ c.toNat ≤ 57 := by
  have hdigit : c.isDigit = (decide (48 ≤ c.val) && decide (c.val ≤ 57)) := rfl
  rw [hdigit]
  simp only [Bool.and_eq_true, decide_eq_true_eq, UInt32.le_iff_toNat_le]
  rfl

theorem isDigit_eq_false_of_isAlpha {c : Char} (h : c.isAlpha = true) : c.isDigit = false := by
  rw [Bool.eq_false_iff]
  intro hdigit
  rw [isAlpha_iff] at h
  rw [isDigit_iff] at hdigit
  omega

theorem isBlank_of_isAlphanum {c : Char} (h : c.isAlphanum = true) : isBlank c = false := by
  have halphanum : c.isAlphanum = (c.isAlpha || c.isDigit) := rfl
  rw [halphanum, Bool.or_eq_true] at h
  rcases h with h | h
  · rw [isAlpha_iff] at h
    simp only [isBlank, Bool.or_eq_false_iff, Bool.and_eq_false_iff, decide_eq_false_iff_not,
      beq_eq_false_iff_ne, ne_eq]
    omega
  · exact isBlank_of_isDigit h

/-- What holds no character of a kind is left over when those of the kind are taken off around it. -/
theorem dropWhile_ends {kind : Char → Bool} {before core after : List Char}
    (hbefore : ∀ c ∈ before, kind c = true) (hcore : ∀ c ∈ core, kind c = false)
    (hafter : ∀ c ∈ after, kind c = true) :
    (((before ++ core ++ after).dropWhile kind).reverse.dropWhile kind).reverse = core := by
  rw [List.append_assoc, List.dropWhile_append_of_pos hbefore]
  cases core with
  | nil => rw [List.nil_append, List.dropWhile_eq_nil_iff.2 hafter, List.reverse_nil, List.dropWhile_nil,
      List.reverse_nil]
  | cons c core =>
    have hfirst := hcore c List.mem_cons_self
    rw [List.cons_append, List.dropWhile_cons_of_neg (by simp [hfirst]), ← List.cons_append,
      List.reverse_append,
      List.dropWhile_append_of_pos fun c hc => hafter c (List.mem_reverse.1 hc)]
    cases hlast : (c :: core).reverse with
    | nil => exact (List.reverse_eq_nil_iff.1 hlast).symm
    | cons last rest =>
      have hmem : last ∈ c :: core := List.mem_reverse.1 (hlast ▸ List.mem_cons_self)
      rw [List.dropWhile_cons_of_neg (by simp [hcore last hmem]), ← hlast, List.reverse_reverse]

/-- What has no white space in it is left over when the white space around it is taken off. -/
theorem trim_append {before core after : List Char} (hbefore : ∀ c ∈ before, isBlank c = true)
    (hcore : ∀ c ∈ core, isBlank c = false) (hafter : ∀ c ∈ after, isBlank c = true) :
    trim (before ++ core ++ after) = core :=
  dropWhile_ends hbefore hcore hafter

/-- What has no quotes, or whatever the mark is, is left over when those around it are taken off. -/
theorem trimMarks_append {mark : Char} {before core after : List Char} (hbefore : ∀ c ∈ before, c = mark)
    (hcore : mark ∉ core) (hafter : ∀ c ∈ after, c = mark) :
    trimMarks mark (before ++ core ++ after) = core := by
  refine dropWhile_ends (fun c hc => beq_iff_eq.2 (hbefore c hc)) (fun c hc => ?_)
    fun c hc => beq_iff_eq.2 (hafter c hc)
  rw [beq_eq_false_iff_ne]
  rintro rfl
  exact hcore hc

theorem exists_trim (cs : List Char) : ∃ before after, (∀ c ∈ before, isBlank c = true) ∧
    (∀ c ∈ after, isBlank c = true) ∧ cs = before ++ trim cs ++ after := by
  refine ⟨cs.takeWhile isBlank, ((trimStart cs).reverse.takeWhile isBlank).reverse,
    fun c hc => List.mem_takeWhile_imp hc, fun c hc => List.mem_takeWhile_imp (List.mem_reverse.1 hc), ?_⟩
  unfold trim trimEnd
  rw [List.append_assoc, ← List.reverse_append, List.takeWhile_append_dropWhile, List.reverse_reverse]
  exact List.takeWhile_append_dropWhile.symm

end BurnAfterRead.Text
