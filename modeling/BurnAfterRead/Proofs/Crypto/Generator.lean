import BurnAfterRead.Crypto.Generator
import BurnAfterRead.Proofs.Text.Trim
import Mathlib.Data.List.GetD
import Mathlib.Data.Set.List

/-!
# Which strings are generated

Every random number stands for a place in the alphabet, never one past its end, and every choice of places
is that of some numbers. So the strings that can come of a request are exactly those of the length asked for,
512 at most, over the ASCII letters and, on request, the special characters.
-/

namespace BurnAfterRead.Crypto

theorem mem_letters {c : Char} : c ∈ letters ↔ c.isAlpha = true := by
  constructor
  · have hletters : ∀ c ∈ letters, c.isAlpha = true := List.all_eq_true.1 (by decide +kernel)
    exact hletters c
  · intro h
    have capitals : ∀ n < 26, Char.ofNat (65 + n) ∈ letters := by decide +kernel
    have smalls : ∀ n < 26, Char.ofNat (97 + n) ∈ letters := by decide +kernel
    rw [← Char.ofNat_toNat c]
    obtain ⟨hlow, hhigh⟩ | ⟨hlow, hhigh⟩ := Text.isAlpha_iff.1 h
    · have hcode := capitals (c.toNat - 65) (by omega)
      rwa [Nat.add_sub_cancel' hlow] at hcode
    · have hcode := smalls (c.toNat - 97) (by omega)
      rwa [Nat.add_sub_cancel' hlow] at hcode

theorem mem_alphabet {special : Bool} {c : Char} :
    c ∈ alphabet special ↔ c.isAlpha = true ∨ (special = true ∧ c ∈ specialCharacters) := by
  unfold alphabet
  cases special with
  | false => simp only [Bool.false_eq_true, if_false, false_and, or_false, mem_letters]
  | true => simp only [if_true, true_and, List.mem_append, mem_letters]

theorem length_alphabet_pos (special : Bool) : 0 < (alphabet special).length := by
  cases special <;> decide +kernel

/-- The place in the alphabet that a random number stands for. -/
def place (special : Bool) (draw : Nat) : Fin (alphabet special).length :=
  ⟨draw % (alphabet special).length, Nat.mod_lt draw (length_alphabet_pos special)⟩

theorem place_val {special : Bool} (i : Fin (alphabet special).length) : place special i.val = i :=
  Fin.ext (Nat.mod_eq_of_lt i.isLt)

theorem place_surjective (special : Bool) : Function.Surjective (place special) :=
  fun i => ⟨i.val, place_val i⟩

/-- No random number is turned into the character that stands in for a missing one. -/
theorem pick_eq_get (special : Bool) (draw : Nat) :
    pick special draw = (alphabet special).get (place special draw) :=
  List.getD_eq_getElem _ 'a' (place special draw).isLt

theorem toList_generate (length : Nat) (special : Bool) (draws : Nat → Nat) :
    (generate length special draws).toList =
      ((List.range (min length 512)).map fun i => place special (draws i)).map (alphabet special).get := by
  unfold generate
  rw [String.toList_ofList, List.map_map]
  exact List.map_congr_left fun i _ => pick_eq_get special (draws i)

/-- Any places in the alphabet are those of some random numbers, of the places' own ones for instance. -/
theorem exists_draws {special : Bool} (places : List (Fin (alphabet special).length)) :
    ∃ draws : Nat → Nat, (List.range places.length).map (fun i => place special (draws i)) = places := by
  refine ⟨fun i => (places.map Fin.val).getD i 0, List.ext_getElem (by simp) fun i _ hi => ?_⟩
  have hval : (places.map Fin.val).getD i 0 = places[i].val := by
    rw [List.getD_eq_getElem _ 0 (by rwa [List.length_map]), List.getElem_map]
  rw [List.getElem_map, List.getElem_range]
  exact (congrArg (place special) hval).trans (place_val _)

/-- A text of `length` characters, each an ASCII letter or, if these are asked for, a special one. -/
structure IsDisplay (length : Nat) (special : Bool) (w : String) : Prop where
  length_eq : w.length = length
  allowed : ∀ c ∈ w.toList, c.isAlpha = true ∨ (special = true ∧ c ∈ "_-!?=()&%".toList)

/-- A text is spelt by places in the alphabet if its characters are allowed. -/
theorem exists_places {special : Bool} {cs : List Char}
    (h : ∀ c ∈ cs, c.isAlpha = true ∨ (special = true ∧ c ∈ "_-!?=()&%".toList)) :
    ∃ places : List (Fin (alphabet special).length), places.map (alphabet special).get = cs := by
  have hspelt : cs ∈ Set.range (List.map (alphabet special).get) := by
    rw [Set.range_list_map, Set.range_list_get]
    exact fun c hc => mem_alphabet.2 (h c hc)
  exact hspelt

/-- Nothing else than such a text is generated, and each of them can be. -/
theorem exists_generate_iff {length : Nat} {special : Bool} {w : String} :
    (∃ draws, generate length special draws = w) ↔ IsDisplay (min length 512) special w := by
  constructor
  · rintro ⟨draws, rfl⟩
    have hchars := toList_generate length special draws
    refine ⟨?_, fun c hc => mem_alphabet.1 ?_⟩
    · rw [← String.length_toList, hchars, List.length_map, List.length_map, List.length_range]
    · rw [hchars] at hc
      obtain ⟨i, -, rfl⟩ := List.mem_map.1 hc
      exact List.get_mem _ i
  · rintro ⟨hlength, hallowed⟩
    obtain ⟨places, hplaces⟩ := exists_places hallowed
    obtain ⟨draws, hdraws⟩ := exists_draws places
    have hcount : places.length = min length 512 := by
      rw [← hlength, ← String.length_toList, ← hplaces, List.length_map]
    refine ⟨draws, String.toList_injective ?_⟩
    rw [toList_generate, ← hcount, hdraws, hplaces]

end BurnAfterRead.Crypto
