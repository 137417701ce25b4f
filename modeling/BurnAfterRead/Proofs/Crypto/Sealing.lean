import BurnAfterRead.Proofs.Crypto.Aes
import BurnAfterRead.Proofs.Crypto.Token

/-!
# What is sealed, and nothing else, opens

The bytes that seal a plaintext are its nonce, the masked text and the tag, for a text of any length.
They open to the plaintext; and what opens to a plaintext is what seals it under some nonce. The tag is
checked against the masked text, and masking is its own inverse, so only one list of bytes under
each nonce opens to a given plaintext. Base64 texts are as strict, so tokens inherit both directions.

The same bytes may seal another plaintext under another key: `TwoKeys` is such a case.
-/

namespace BurnAfterRead.Crypto

namespace Gcm

theorem length_lock (cipher : Block → Block) (nonce text : List UInt8) :
    (lock cipher nonce text).length = text.length + 16 := by
  rw [lock, List.length_append, length_mask, length_tag]

theorem eq_lock_of_unlock {cipher : Block → Block} {nonce locked text : List UInt8}
    (h : unlock cipher nonce locked = some text) : locked = lock cipher nonce text := by
  unfold unlock at h
  obtain ⟨-, h⟩ := Option.ite_none_left_eq_some.1 h
  obtain ⟨htag, htext⟩ := Option.ite_none_right_eq_some.1 h
  obtain rfl := Option.some.inj htext
  rw [lock, mask_mask, ← htag, List.take_append_drop]

end Gcm

/-- The bytes that seal a plaintext under a raw key: nonce, masked text and tag. -/
def sealing (nonce : Nonce) (key plaintext : List UInt8) : List UInt8 :=
  nonce.toList ++ Gcm.lock (Aes.cipher (Block.ofBytes key)) nonce.toList plaintext

section

variable {nonce : Nonce} {key plaintext sealed : List UInt8}

/-- A block of zeros under a key and a nonce of zeros, as it stands among the mode's test vectors. -/
example :
    sealing (Vector.replicate 12 0) (List.replicate 16 0) (List.replicate 16 0) = List.replicate 12 0 ++
      [0x03, 0x88, 0xda, 0xce, 0x60, 0xb6, 0xa3, 0x92, 0xf3, 0x28, 0xc2, 0xb9, 0x71, 0xb2, 0xfe, 0x78,
        0xab, 0x6e, 0x47, 0xd4, 0x2c, 0xec, 0x13, 0xbd, 0xf5, 0x3a, 0x67, 0xb2, 0x12, 0x57, 0xbd, 0xdf] := by
  simp only [sealing, Aes.cipher_eq]
  decide +kernel

theorem length_sealing : (sealing nonce key plaintext).length = nonceLength + plaintext.length + 16 := by
  rw [sealing, List.length_append, nonce.length_toList, Gcm.length_lock, Nat.add_assoc]

theorem take_sealing : (sealing nonce key plaintext).take nonceLength = nonce.toList :=
  List.take_left' nonce.length_toList

theorem enclose_eq_ok_iff : enclose nonce key plaintext = .ok sealed ↔
    key.length = keyLength ∧ plaintext.length ≤ Gcm.maxText ∧ sealed = sealing nonce key plaintext := by
  unfold enclose
  by_cases hkey : key.length = keyLength
  · by_cases hlen : plaintext.length ≤ Gcm.maxText
    · rw [if_neg (by simpa using hkey), if_neg (by omega), Except.ok.injEq, eq_comm]
      exact ⟨fun h => ⟨hkey, hlen, h⟩, fun h => h.2.2⟩
    · rw [if_neg (by simpa using hkey), if_pos (by omega)]
      exact ⟨fun h => absurd h (by simp), fun h => absurd h.2.1 hlen⟩
  · rw [if_pos hkey]
    exact ⟨fun h => absurd h (by simp), fun h => absurd h.1 hkey⟩

theorem sealing_of_disclose (h : disclose key sealed = .ok plaintext) :
    key.length = keyLength ∧ plaintext.length ≤ Gcm.maxText ∧
      ∃ nonce, sealed = sealing nonce key plaintext := by
  unfold disclose at h
  split at h
  · exact absurd h (by simp)
  rename_i hshort
  split at h
  · exact absurd h (by simp)
  rename_i hlong
  split at h
  · rename_i text hunlock
    obtain rfl := Except.ok.inj h
    have hlock := Gcm.eq_lock_of_unlock hunlock
    have hlen := congrArg List.length hlock
    rw [Gcm.length_lock, List.length_drop] at hlen
    have hnonce : (sealed.take nonceLength).length = nonceLength := by
      rw [List.length_take]
      omega
    refine ⟨by omega, by omega, ⟨⟨(sealed.take nonceLength).toArray, by simpa using hnonce⟩, ?_⟩⟩
    change sealed = sealed.take nonceLength ++ Gcm.lock _ (sealed.take nonceLength) text
    rw [← hlock, List.take_append_drop]
  · exact absurd h (by simp)

theorem disclose_eq_ok_iff : disclose key sealed = .ok plaintext ↔
    key.length = keyLength ∧ plaintext.length ≤ Gcm.maxText ∧
      ∃ nonce, sealed = sealing nonce key plaintext := by
  constructor
  · exact sealing_of_disclose
  · rintro ⟨hkey, hlen, nonce, hsealed⟩
    exact disclose_enclose (enclose_eq_ok_iff.2 ⟨hkey, hlen, hsealed⟩)

end

section

variable {nonce : Nonce} {plaintext : List UInt8} {token key : String}

theorem encrypt_eq_ok_iff : encrypt nonce plaintext key = .ok token ↔
    plaintext.length ≤ Gcm.maxText ∧
      token = String.ofList (Text.Base64.encode (sealing nonce (cipherKey key) plaintext)) := by
  unfold encrypt
  constructor
  · intro h
    cases hsealed : enclose nonce (cipherKey key) plaintext with
    | error f =>
      rw [hsealed] at h
      exact absurd h (by simp [Except.map])
    | ok sealed =>
      rw [hsealed] at h
      obtain ⟨-, hlen, rfl⟩ := enclose_eq_ok_iff.1 hsealed
      exact ⟨hlen, (Except.ok.inj h).symm⟩
  · rintro ⟨hlen, rfl⟩
    rw [enclose_eq_ok_iff.2 ⟨length_cipherKey key, hlen, rfl⟩]
    rfl

theorem decode?_token (sealed : List UInt8) :
    Text.Base64.decode? (String.ofList (Text.Base64.encode sealed)).toList = some sealed := by
  rw [String.toList_ofList, Text.Base64.decode?_encode]

theorem decrypt_eq_ok_iff : decrypt token key = .ok plaintext ↔
    plaintext.length ≤ Gcm.maxText ∧
      ∃ nonce, token = String.ofList (Text.Base64.encode (sealing nonce (cipherKey key) plaintext)) := by
  constructor
  · intro h
    unfold decrypt at h
    split at h
    · rename_i sealed hdecode
      obtain ⟨-, hlen, nonce, rfl⟩ := sealing_of_disclose h
      refine ⟨hlen, nonce, ?_⟩
      rw [← Text.Base64.decode?_eq_some_iff.1 hdecode, String.ofList_toList]
    · exact absurd h (by simp)
  · rintro ⟨hlen, nonce, htoken⟩
    exact decrypt_encrypt (encrypt_eq_ok_iff.2 ⟨hlen, htoken⟩)

end

/-- A token opens under every key that seals some text to the same bytes. -/
theorem opening_of_sealing_eq {nonce nonce' : Nonce} {plaintext other : List UInt8} {sealKey key : String}
    (hlen : plaintext.length ≤ Gcm.maxText) (hother : other.length ≤ Gcm.maxText)
    (h : sealing nonce (cipherKey sealKey) plaintext = sealing nonce' (cipherKey key) other) :
    opening nonce plaintext sealKey key = .ok other := by
  have hseal : encrypt nonce plaintext sealKey = .ok _ := encrypt_eq_ok_iff.2 ⟨hlen, rfl⟩
  have hopen : encrypt nonce' other key = .ok _ := encrypt_eq_ok_iff.2 ⟨hother, rfl⟩
  rw [opening_of_encrypt hseal, h]
  exact decrypt_encrypt hopen

namespace TwoKeys

/-- A nonce under which two keys seal two texts to the same bytes. -/
def nonce : Nonce := #v[0, 0, 0, 0, 0, 0, 0, 0, 0x45, 0x86, 0x7c, 0x3f]

def alphaText : String := "attackzbuEMHtLDtHLNI_iMlF^iTGptf"

def bravoText : String := "/L'\x1c\x7dv]KngS5I~\x7dgvfG!SW.r6QpTT.t["

theorem sealing_eq :
    sealing nonce (cipherKey "alpha") (utf8 alphaText) =
      sealing nonce (cipherKey "bravo") (utf8 bravoText) := by
  simp only [sealing, Aes.cipher_eq]
  decide +kernel

/-- A token does not bind its key: it may open under another one, to a text that no one sealed. -/
theorem opening_eq : opening nonce (utf8 alphaText) "alpha" "bravo" = .ok (utf8 bravoText) :=
  opening_of_sealing_eq (by decide +kernel) (by decide +kernel) sealing_eq

end TwoKeys

/-- What is sealed has room for nonce, text and tag, and the nonce in front. -/
structure LaidOut (nonce : Nonce) (plaintext sealed : List UInt8) : Prop where
  length : sealed.length = nonceLength + plaintext.length + 16
  nonce_first : nonce.toList <+: sealed

theorem laidOut_sealing (nonce : Nonce) (key plaintext : List UInt8) :
    LaidOut nonce plaintext (sealing nonce key plaintext) :=
  ⟨length_sealing, List.prefix_append _ _⟩

/-- Every plaintext within the limit of the cipher, a last block of any length included, is sealed
under every key text and every raw key of the right length, and opens to itself. -/
theorem sealed_opens (nonce : Nonce) (plaintext : List UInt8) :
    (plaintext.length ≤ Gcm.maxText →
      (∀ key : String, ∃ token sealed, encrypt nonce plaintext key = .ok token ∧
        Text.Base64.decode? token.toList = some sealed ∧ LaidOut nonce plaintext sealed ∧
        decrypt token key = .ok plaintext) ∧
      (∀ key : List UInt8, key.length = keyLength → ∃ sealed,
        enclose nonce key plaintext = .ok sealed ∧ LaidOut nonce plaintext sealed ∧
        disclose key sealed = .ok plaintext)) ∧
    ∀ key : List UInt8, key.length ≠ keyLength →
      enclose nonce key plaintext = .error (.encryptionFailed "invalid key length: Invalid Length") := by
  refine ⟨fun hlen => ⟨fun key => ?_, fun key hkey => ?_⟩, fun key hkey => if_pos hkey⟩
  · have hseal : encrypt nonce plaintext key = .ok _ := encrypt_eq_ok_iff.2 ⟨hlen, rfl⟩
    exact ⟨_, _, hseal, decode?_token _, laidOut_sealing nonce _ plaintext, decrypt_encrypt hseal⟩
  · have hseal : enclose nonce key plaintext = .ok _ := enclose_eq_ok_iff.2 ⟨hkey, hlen, rfl⟩
    exact ⟨_, hseal, laidOut_sealing nonce key plaintext, disclose_enclose hseal⟩

/-- A text of one block and one byte. -/
theorem sealed_opens_of_partial_block :
    let nonce : Nonce := Vector.replicate nonceLength 7
    let plaintext : List UInt8 := List.replicate 17 120
    (∃ token sealed, encrypt nonce plaintext "sesame" = .ok token ∧
      Text.Base64.decode? token.toList = some sealed ∧ LaidOut nonce plaintext sealed ∧
      decrypt token "sesame" = .ok plaintext) ∧
    (∃ sealed, enclose nonce (List.replicate 16 1) plaintext = .ok sealed ∧
      LaidOut nonce plaintext sealed ∧ disclose (List.replicate 16 1) sealed = .ok plaintext) ∧
    enclose nonce (List.replicate 7 1) plaintext =
      .error (.encryptionFailed "invalid key length: Invalid Length") := by
  intro nonce plaintext
  have hlen : plaintext.length ≤ Gcm.maxText := by decide
  obtain ⟨htexts, hraw⟩ := (sealed_opens nonce plaintext).1 hlen
  refine ⟨htexts "sesame", hraw _ (by decide), ?_⟩
  exact (sealed_opens nonce plaintext).2 _ (by decide)

/-- Where there is one way to fail, failing is to give no plaintext. -/
theorem eq_error_iff {opened : Except Failure (List UInt8)}
    (h : ∀ f, opened = .error f → f = .decryptionFailed) (f : Failure) :
    opened = .error f ↔ f = .decryptionFailed ∧ ¬∃ plaintext, opened = .ok plaintext := by
  constructor
  · intro hf
    refine ⟨h f hf, ?_⟩
    rintro ⟨plaintext, hopened⟩
    rw [hopened] at hf
    exact absurd hf (by simp)
  · rintro ⟨rfl, hnone⟩
    cases opened with
    | ok plaintext => exact absurd ⟨plaintext, rfl⟩ hnone
    | error g => rw [h g rfl]

/-- Opening gives a plaintext for what seals it under the nonce in front, and one failure for every
other text or bytes, whatever is wrong with them. -/
theorem opens_iff_sealing (token key : String) (rawKey sealed : List UInt8) :
    (∀ plaintext, decrypt token key = .ok plaintext ↔ plaintext.length ≤ Gcm.maxText ∧
      ∃ nonce : Nonce,
        (Text.Base64.decode? token.toList).map (List.take nonceLength) = some nonce.toList ∧
        token = String.ofList (Text.Base64.encode (sealing nonce (cipherKey key) plaintext))) ∧
    (∀ f, decrypt token key = .error f ↔ f = .decryptionFailed ∧
      ¬∃ plaintext : List UInt8, plaintext.length ≤ Gcm.maxText ∧ ∃ nonce : Nonce,
        token = String.ofList (Text.Base64.encode (sealing nonce (cipherKey key) plaintext))) ∧
    (∀ plaintext, disclose rawKey sealed = .ok plaintext ↔
      rawKey.length = keyLength ∧ plaintext.length ≤ Gcm.maxText ∧ ∃ nonce : Nonce,
        sealed.take nonceLength = nonce.toList ∧ sealed = sealing nonce rawKey plaintext) ∧
    ∀ f, disclose rawKey sealed = .error f ↔ f = .decryptionFailed ∧
      ¬∃ plaintext : List UInt8, rawKey.length = keyLength ∧ plaintext.length ≤ Gcm.maxText ∧
        ∃ nonce : Nonce, sealed = sealing nonce rawKey plaintext := by
  refine ⟨fun plaintext => ?_, fun f => ?_, fun plaintext => ?_, fun f => ?_⟩
  · rw [decrypt_eq_ok_iff]
    constructor
    · rintro ⟨hlen, nonce, rfl⟩
      refine ⟨hlen, nonce, ?_, rfl⟩
      rw [decode?_token, Option.map_some, take_sealing]
    · rintro ⟨hlen, nonce, -, htoken⟩
      exact ⟨hlen, nonce, htoken⟩
  · rw [eq_error_iff (fun _ => decrypt_error)]
    simp only [decrypt_eq_ok_iff]
  · rw [disclose_eq_ok_iff]
    constructor
    · rintro ⟨hkey, hlen, nonce, rfl⟩
      exact ⟨hkey, hlen, nonce, take_sealing, rfl⟩
    · rintro ⟨hkey, hlen, nonce, -, hsealed⟩
      exact ⟨hkey, hlen, nonce, hsealed⟩
  · rw [eq_error_iff (fun _ => disclose_error)]
    simp only [disclose_eq_ok_iff]

end BurnAfterRead.Crypto
