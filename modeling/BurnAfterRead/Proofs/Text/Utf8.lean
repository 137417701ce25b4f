import BurnAfterRead.Crypto.Token

/-!
# Texts as bytes

A text and its UTF-8 bytes determine each other, and a text of `n` characters has at most `4 * n`
bytes.
-/

namespace BurnAfterRead.Crypto

theorem toList_loop (b : ByteArray) (i : Nat) (acc : List UInt8) :
    ByteArray.toList.loop b i acc = acc.reverse ++ b.data.toList.drop i := by
  fun_induction ByteArray.toList.loop b i acc with
  | case1 i acc h ih =>
    have hlt : i < b.data.toList.length := by simpa using h
    rw [ih, List.drop_eq_getElem_cons hlt, List.reverse_cons, List.append_assoc]
    have e : b.get! i = b.data.toList[i] := getElem!_pos b.data i h
    rw [e]
    rfl
  | case2 i acc h =>
    have hle : b.data.toList.length ≤ i := by
      rw [Array.length_toList]
      exact Nat.le_of_not_lt h
    rw [List.drop_eq_nil_of_le hle, List.append_nil]

theorem toList_eq_data (b : ByteArray) : b.toList = b.data.toList := by
  unfold ByteArray.toList
  rw [toList_loop]
  simp

theorem utf8_eq (s : String) : utf8 s = s.toByteArray.data.toList := by
  rw [utf8, String.toUTF8_eq_toByteArray, toList_eq_data]

theorem utf8_ofList (cs : List Char) : utf8 (String.ofList cs) = cs.flatMap String.utf8EncodeChar := by
  rw [utf8_eq, String.toByteArray_ofList, List.utf8Encode, List.toList_data_toByteArray]

theorem utf8_eq_flatMap (s : String) : utf8 s = s.toList.flatMap String.utf8EncodeChar := by
  rw [← utf8_ofList, String.ofList_toList]

theorem utf8Text?_utf8 (s : String) : utf8Text? (utf8 s) = some s := by
  unfold utf8Text?
  have e : (⟨(utf8 s).toArray⟩ : ByteArray) = s.toByteArray := by rw [utf8_eq]
  rw [e, String.fromUTF8?, dif_pos s.isValidUTF8]
  rfl

theorem utf8_of_utf8Text? {bytes : List UInt8} {s : String} (h : utf8Text? bytes = some s) :
    utf8 s = bytes := by
  unfold utf8Text? String.fromUTF8? at h
  split at h
  · obtain rfl := Option.some.inj h
    rw [utf8_eq]
    rfl
  · cases h

theorem length_utf8_le (s : String) : (utf8 s).length ≤ 4 * s.length := by
  obtain ⟨cs, rfl⟩ := s.exists_eq_ofList
  rw [utf8_eq, String.length_ofList, String.toByteArray_ofList, List.utf8Encode,
    List.toList_data_toByteArray]
  induction cs with
  | nil => exact Nat.le_refl 0
  | cons c cs ih =>
    have hc := c.utf8Size_le_four
    have hlen := String.length_utf8EncodeChar c
    rw [List.flatMap_cons, List.length_append, List.length_cons]
    omega

end BurnAfterRead.Crypto
