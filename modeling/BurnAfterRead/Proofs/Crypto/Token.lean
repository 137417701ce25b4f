import BurnAfterRead.Proofs.Text.Base64
import BurnAfterRead.Proofs.Text.Utf8

/-!
# Tokens open under their key

What is sealed under a key opens under it, and gives the plaintext back: masking twice with one
keystream changes nothing, and the tag that is checked is the tag that was written. Under another
key a token is expected not to open. That is a promise of the cipher rather than a fact about all
keys, and there are tokens and keys that break it. So where a statement needs it, `Authentic` names it
for the token and the key in question; under the sealing key it always holds.
-/

namespace BurnAfterRead.Crypto

namespace Gcm

theorem unlock_lock (cipher : Block → Block) (nonce text : List UInt8) :
    unlock cipher nonce (lock cipher nonce text) = some text := by
  have hmask := length_mask cipher nonce text
  have htag := length_tag cipher nonce (mask cipher nonce text)
  have hlen : (lock cipher nonce text).length = text.length + 16 := by
    rw [lock, List.length_append, hmask, htag]
  have htake : (lock cipher nonce text).take ((lock cipher nonce text).length - 16) =
      mask cipher nonce text := by
    rw [hlen, Nat.add_sub_cancel, lock]
    exact List.take_left' hmask
  have hdrop : (lock cipher nonce text).drop ((lock cipher nonce text).length - 16) =
      tag cipher nonce (mask cipher nonce text) := by
    rw [hlen, Nat.add_sub_cancel, lock]
    exact List.drop_left' hmask
  unfold unlock
  rw [if_neg (by omega)]
  simp only [htake, hdrop, if_true, mask_mask]

end Gcm

theorem length_littleEndian (count n : Nat) : (Md5.littleEndian count n).length = count := by
  induction count generalizing n with
  | zero => rfl
  | succ count ih => simp [Md5.littleEndian, ih]

theorem length_cipherKey (key : String) : (cipherKey key).length = keyLength := by
  simp [cipherKey, Md5.digest, length_littleEndian, keyLength]

theorem disclose_enclose {nonce : Nonce} {key plaintext sealed : List UInt8}
    (h : enclose nonce key plaintext = .ok sealed) : disclose key sealed = .ok plaintext := by
  unfold enclose at h
  split at h
  · exact absurd h (by simp)
  rename_i hkey
  split at h
  · exact absurd h (by simp)
  rename_i hlen
  obtain rfl := Except.ok.inj h
  have hnonce : nonce.toList.length = nonceLength := nonce.length_toList
  have hlock : (Gcm.lock (Aes.cipher (Block.ofBytes key)) nonce.toList plaintext).length =
      plaintext.length + 16 := by
    rw [Gcm.lock, List.length_append, Gcm.length_mask, Gcm.length_tag]
  unfold disclose
  rw [List.length_append, hnonce, hlock, if_neg (by simp only [nonceLength]; omega),
    if_neg (by omega), List.take_left' hnonce, List.drop_left' hnonce, Gcm.unlock_lock]

theorem decrypt_encrypt {nonce : Nonce} {plaintext : List UInt8} {key token : String}
    (h : encrypt nonce plaintext key = .ok token) : decrypt token key = .ok plaintext := by
  unfold encrypt at h
  cases hs : enclose nonce (cipherKey key) plaintext with
  | error f => rw [hs] at h; exact absurd h (by simp [Except.map])
  | ok sealed =>
    rw [hs] at h
    obtain rfl := Except.ok.inj h
    unfold decrypt
    rw [String.toList_ofList, Text.Base64.decode?_encode]
    exact disclose_enclose hs

theorem disclose_error {key sealed : List UInt8} {f : Failure}
    (h : disclose key sealed = .error f) : f = .decryptionFailed := by
  unfold disclose at h
  split at h
  · exact (Except.error.inj h).symm
  · split at h
    · exact (Except.error.inj h).symm
    · split at h
      · exact absurd h (by simp)
      · exact (Except.error.inj h).symm

/-- There is one way for a token not to open. -/
theorem decrypt_error {token key : String} {f : Failure} (h : decrypt token key = .error f) :
    f = .decryptionFailed := by
  unfold decrypt at h
  split at h
  · exact disclose_error h
  · exact (Except.error.inj h).symm

/-- Every plaintext within the limit of the cipher can be sealed. -/
theorem exists_encrypt (nonce : Nonce) {plaintext : List UInt8} (key : String)
    (h : plaintext.length ≤ Gcm.maxText) : ∃ token, encrypt nonce plaintext key = .ok token := by
  unfold encrypt enclose
  rw [if_neg (by simp [length_cipherKey]), if_neg (by omega)]
  exact ⟨_, rfl⟩

/-- Under `key`, the token that seals a plaintext under `sealKey` opens to that plaintext or not at
all. -/
def Authentic (nonce : Nonce) (plaintext : List UInt8) (sealKey key : String) : Prop :=
  ∀ token text, encrypt nonce plaintext sealKey = .ok token → decrypt token key = .ok text →
    text = plaintext

/-- Under `key`, the token that seals a plaintext under `sealKey` does not open. -/
def Shut (nonce : Nonce) (plaintext : List UInt8) (sealKey key : String) : Prop :=
  ∀ token, encrypt nonce plaintext sealKey = .ok token → ∃ f, decrypt token key = .error f

theorem decrypt_congr {key key' : String} (h : cipherKey key = cipherKey key') (token : String) :
    decrypt token key = decrypt token key' := by
  unfold decrypt
  rw [h]

/-- Keys with the same cipher key as the sealing key open a token to its plaintext. -/
theorem authentic_of_cipherKey_eq {nonce : Nonce} {plaintext : List UInt8} {sealKey key : String}
    (h : cipherKey key = cipherKey sealKey) : Authentic nonce plaintext sealKey key := by
  intro token text hseal hopen
  rw [decrypt_congr h, decrypt_encrypt hseal] at hopen
  exact (Except.ok.inj hopen).symm

/-- What a key makes of the token that seals a plaintext. -/
def opening (nonce : Nonce) (plaintext : List UInt8) (sealKey key : String) :
    Except Failure (List UInt8) :=
  (encrypt nonce plaintext sealKey).bind fun token => decrypt token key

theorem opening_of_encrypt {nonce : Nonce} {plaintext : List UInt8} {sealKey token : String}
    (h : encrypt nonce plaintext sealKey = .ok token) (key : String) :
    opening nonce plaintext sealKey key = decrypt token key := by
  unfold opening
  rw [h]
  rfl

/-- Under `key`, two tokens that seal one plaintext under one key open to the same or fail alike. -/
def Alike (nonce nonce' : Nonce) (plaintext : List UInt8) (sealKey key : String) : Prop :=
  opening nonce plaintext sealKey key = opening nonce' plaintext sealKey key

/-- What is expected of the cipher: a key opens the tokens that were sealed under its own cipher key, and
no others. -/
theorem alike_of_promise {nonce nonce' : Nonce} {plaintext : List UInt8} {sealKey key : String}
    (hlen : plaintext.length ≤ Gcm.maxText)
    (h : cipherKey key = cipherKey sealKey ∨
      Shut nonce plaintext sealKey key ∧ Shut nonce' plaintext sealKey key) :
    Alike nonce nonce' plaintext sealKey key := by
  rcases h with hkey | ⟨hshut, hshut'⟩
  · have hopens : ∀ n : Nonce, opening n plaintext sealKey key = .ok plaintext := by
      intro n
      obtain ⟨token, htoken⟩ := exists_encrypt n sealKey hlen
      rw [opening_of_encrypt htoken, decrypt_congr hkey, decrypt_encrypt htoken]
    exact (hopens nonce).trans (hopens nonce').symm
  · have hfails : ∀ n : Nonce, Shut n plaintext sealKey key →
        opening n plaintext sealKey key = .error .decryptionFailed := by
      intro n hn
      obtain ⟨token, htoken⟩ := exists_encrypt n sealKey hlen
      obtain ⟨f, hf⟩ := hn token htoken
      obtain rfl := decrypt_error hf
      exact (opening_of_encrypt htoken key).trans hf
    exact (hfails nonce hshut).trans (hfails nonce' hshut').symm

end BurnAfterRead.Crypto
