import BurnAfterRead.Proofs.Text.Utf8
import BurnAfterRead.Text.Percent

/-!
# Texts with percent signs

A text without percent signs stands for itself. Where each percent sign has to begin an encoded byte, a
text with one stands for fewer bytes than it is written with.
-/

namespace BurnAfterRead.Text

theorem utf8Bytes_eq (c : Char) : utf8Bytes c = String.utf8EncodeChar c := by
  have hbytes := Crypto.utf8_ofList [c]
  rw [List.flatMap_singleton] at hbytes
  exact hbytes

/-- A text without percent signs stands for itself. -/
theorem percentDecode_of_plain {cs : List Char} (h : '%' ∉ cs) :
    percentDecode cs = cs.flatMap String.utf8EncodeChar := by
  fun_induction percentDecode cs with
  | case1 => rfl
  | case2 => exact absurd List.mem_cons_self h
  | case3 => exact absurd List.mem_cons_self h
  | case4 c rest _ ih =>
    rw [List.flatMap_cons, utf8Bytes_eq, ih fun hrest => h (List.mem_cons_of_mem _ hrest)]

theorem percentText?_of_plain {s : String} (h : '%' ∉ s.toList) : percentText? s.toList = some s := by
  unfold percentText?
  rw [percentDecode_of_plain h, ← Crypto.utf8_eq_flatMap]
  exact Crypto.utf8Text?_utf8 s

/-- The bytes of a text in which two hexadecimal digits follow each percent sign. -/
def percentOctets? : List Char → Option (List UInt8)
  | [] => some []
  | '%' :: h :: l :: rest => do
    let hi ← hexValue? h
    let lo ← hexValue? l
    let bytes ← percentOctets? rest
    some (UInt8.ofNat (16 * hi + lo) :: bytes)
  | c :: rest => if c = '%' then none else (percentOctets? rest).map (String.utf8EncodeChar c ++ ·)

theorem percentOctets?_of_plain {cs : List Char} (h : '%' ∉ cs) :
    percentOctets? cs = some (cs.flatMap String.utf8EncodeChar) := by
  fun_induction percentOctets? cs with
  | case1 => rfl
  | case2 => exact absurd List.mem_cons_self h
  | case3 => exact absurd List.mem_cons_self h
  | case4 c rest _ hc ih =>
    rw [ih fun hrest => h (List.mem_cons_of_mem _ hrest)]
    rfl

theorem ascii_of_hexValue? {c : Char} {n : Nat} (h : hexValue? c = some n) :
    c ≠ '%' ∧ (String.utf8EncodeChar c).length = 1 := by
  have hrange : 48 ≤ c.toNat ∧ c.toNat ≤ 102 := by
    unfold hexValue? at h
    dsimp only at h
    split at h
    · omega
    split at h
    · omega
    split at h
    · omega
    · cases h
  constructor
  · rintro rfl
    exact absurd hrange (by decide)
  · have hascii : c.val ≤ 127 := UInt32.le_iff_toNat_le.2 (Nat.le_trans hrange.2 (by decide))
    rw [String.length_utf8EncodeChar]
    exact if_pos hascii

/-- Three bytes are written for a byte with a percent sign, and as many as it has for any other text. -/
theorem length_percentOctets? {cs : List Char} {bytes : List UInt8} (h : percentOctets? cs = some bytes) :
    bytes.length + 2 * cs.count '%' = (cs.flatMap String.utf8EncodeChar).length := by
  fun_induction percentOctets? cs generalizing bytes with
  | case1 =>
    cases h
    rfl
  | case2 high low rest ih =>
    simp only [Option.bind_eq_bind, Option.bind_eq_some_iff, Option.some.injEq] at h
    obtain ⟨hi, hhi, lo, hlo, tail, htail, rfl⟩ := h
    obtain ⟨hhigh, lengthHigh⟩ := ascii_of_hexValue? hhi
    obtain ⟨hlow, lengthLow⟩ := ascii_of_hexValue? hlo
    have lengthPercent : (String.utf8EncodeChar '%').length = 1 := by decide
    have hrest := ih htail
    rw [List.count_cons_self, List.count_cons_of_ne hhigh, List.count_cons_of_ne hlow]
    simp only [List.flatMap_cons, List.length_append, List.length_cons]
    omega
  | case3 => cases h
  | case4 c rest _ hc ih =>
    obtain ⟨tail, htail, rfl⟩ := Option.map_eq_some_iff.1 h
    have hrest := ih htail
    rw [List.count_cons_of_ne hc, List.flatMap_cons, List.length_append, List.length_append]
    omega

/-- The text that a text with percent signs stands for, if each percent sign begins an encoded byte and the
bytes are UTF-8. -/
def percentEncoded? (cs : List Char) : Option String := (percentOctets? cs).bind Crypto.utf8Text?

theorem percentEncoded?_of_plain {s : String} (h : '%' ∉ s.toList) : percentEncoded? s.toList = some s := by
  unfold percentEncoded?
  rw [percentOctets?_of_plain h, Option.bind_some, ← Crypto.utf8_eq_flatMap]
  exact Crypto.utf8Text?_utf8 s

theorem toList_of_percentEncoded? {cs : List Char} {s : String} (h : percentEncoded? cs = some s)
    (hplain : '%' ∉ cs) : s.toList = cs := by
  have hread := percentEncoded?_of_plain (s := String.ofList cs) (by rwa [String.toList_ofList])
  rw [String.toList_ofList, h] at hread
  rw [Option.some.inj hread, String.toList_ofList]

/-- The text that is written is as long as the one it stands for, or longer if there is a percent sign. -/
theorem length_percentEncoded? {cs : List Char} {s : String} (h : percentEncoded? cs = some s) :
    (Crypto.utf8 s).length + 2 * cs.count '%' = (cs.flatMap String.utf8EncodeChar).length := by
  obtain ⟨bytes, hbytes, htext⟩ := Option.bind_eq_some_iff.1 h
  rw [Crypto.utf8_of_utf8Text? htext]
  exact length_percentOctets? hbytes

end BurnAfterRead.Text
