import BurnAfterRead.Crypto.Gcm
import BurnAfterRead.Crypto.Md5
import BurnAfterRead.Failure
import BurnAfterRead.Text.Base64

/-!
# Encryption tokens

A token is the base64 text of a nonce, the masked plaintext and the tag. The cipher key of a token
is the MD5 digest of a key text. Reading a token has one way to fail, so nothing tells a wrong key
from a damaged token.
-/

namespace BurnAfterRead.Crypto

/-- Bytes of a nonce. -/
def nonceLength : Nat := 12

/-- The random bytes that no two tokens under one key share. -/
abbrev Nonce : Type := Vector UInt8 nonceLength

/-- Bytes of a cipher key. -/
def keyLength : Nat := 16

/-- The bytes of a text in UTF-8. -/
def utf8 (s : String) : List UInt8 := s.toUTF8.toList

/-- The text of some bytes in UTF-8, if they are well-formed. -/
def utf8Text? (bytes : List UInt8) : Option String := String.fromUTF8? ⟨bytes.toArray⟩

/-- The cipher key of a key text. -/
def cipherKey (key : String) : List UInt8 := Md5.digest (utf8 key)

/-- Seals a plaintext under a raw key: the nonce, then the masked text and its tag. -/
def enclose (nonce : Nonce) (key plaintext : List UInt8) : Except Failure (List UInt8) :=
  if key.length ≠ keyLength then .error (.encryptionFailed "invalid key length: Invalid Length")
  else if plaintext.length > Gcm.maxText then .error (.encryptionFailed "encryption error: aead::Error")
  else
    .ok (nonce.toList ++ Gcm.lock (Aes.cipher (Block.ofBytes key)) nonce.toList plaintext)

/-- Opens what `enclose` gives under the same key. -/
def disclose (key sealed : List UInt8) : Except Failure (List UInt8) :=
  if sealed.length < nonceLength ∨ key.length ≠ keyLength then .error .decryptionFailed
  else if sealed.length - nonceLength > Gcm.maxText + 16 then .error .decryptionFailed
  else
    match Gcm.unlock (Aes.cipher (Block.ofBytes key)) (sealed.take nonceLength)
        (sealed.drop nonceLength) with
    | some plaintext => .ok plaintext
    | none => .error .decryptionFailed

/-- The token of a plaintext under a key text. -/
def encrypt (nonce : Nonce) (plaintext : List UInt8) (key : String) : Except Failure String :=
  (enclose nonce (cipherKey key) plaintext).map fun sealed => String.ofList (Text.Base64.encode sealed)

/-- The plaintext of a token under a key text. -/
def decrypt (token key : String) : Except Failure (List UInt8) :=
  match Text.Base64.decode? token.toList with
  | some sealed => disclose (cipherKey key) sealed
  | none => .error .decryptionFailed

end BurnAfterRead.Crypto
