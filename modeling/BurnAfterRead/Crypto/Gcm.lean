import BurnAfterRead.Crypto.Aes

/-!
# Galois/counter mode

Authenticated encryption with a block cipher: the text is masked with the keystream of a counter,
and a tag over the masked text is appended. Nonces have twelve bytes, tags sixteen, and there is no
associated data. `unlock` takes exactly what `lock` gives under the same cipher and nonce.
-/

namespace BurnAfterRead.Crypto.Gcm

/-- An element of the field of 2¹²⁸ elements; the first bit is the constant term. -/
structure Element where
  hi : UInt64
  lo : UInt64
  deriving DecidableEq, Repr

namespace Element

def zero : Element := ⟨0, 0⟩

def add (x y : Element) : Element := ⟨x.hi ^^^ y.hi, x.lo ^^^ y.lo⟩

/-- Multiplies by the field's generator. -/
def shift (x : Element) : Element :=
  let hi := x.hi >>> 1
  let lo := (x.lo >>> 1) ||| (x.hi <<< 63)
  if x.lo &&& 1 = 0 then ⟨hi, lo⟩ else ⟨hi ^^^ 0xe100000000000000, lo⟩

/-- Adds up the products of `y` with the bits of a word, from the top, for `n` bits. -/
def mulWord (word : UInt64) : Nat → Element × Element → Element × Element
  | 0, s => s
  | n + 1, (sum, y) =>
    let sum := if (word >>> n.toUInt64) &&& 1 = 1 then sum.add y else sum
    mulWord word n (sum, y.shift)

def mul (x y : Element) : Element :=
  (mulWord x.lo 64 (mulWord x.hi 64 (zero, y))).1

/-- Reads a big-endian word. -/
def word (bytes : List UInt8) : UInt64 :=
  bytes.foldl (fun acc b => (acc <<< 8) ||| b.toUInt64) 0

def ofBlock (b : Block) : Element :=
  let bytes := b.toList
  ⟨word (bytes.take 8), word (bytes.drop 8)⟩

def toBlock (x : Element) : Block :=
  Vector.ofFn fun i =>
    let w := if i.val < 8 then x.hi else x.lo
    (w >>> (56 - 8 * (i.val % 8)).toUInt64).toUInt8

end Element

/-- The polynomial hash of some bytes, in blocks of sixteen, the last one filled up with zeros. -/
def hash (h : Element) (sum : Element) (bytes : List UInt8) : Element :=
  if bytes = [] then sum
  else hash h ((sum.add (Element.ofBlock (Block.ofBytes bytes))).mul h) (bytes.drop 16)
termination_by bytes.length
decreasing_by
  have := List.length_pos_iff.2 ‹¬bytes = []›
  simp only [List.length_drop]
  omega

/-- The block of a nonce and a counter. -/
def counterBlock (nonce : List UInt8) (n : Nat) : Block :=
  Block.ofBytes
    (nonce.take 12 ++
      [UInt8.ofNat (n / 16777216), UInt8.ofNat (n / 65536), UInt8.ofNat (n / 256), UInt8.ofNat n])

/-- The first `count` blocks of the keystream from counter `n` on. -/
def keystream (cipher : Block → Block) (nonce : List UInt8) (n : Nat) : Nat → List UInt8
  | 0 => []
  | count + 1 => (cipher (counterBlock nonce n)).toList ++ keystream cipher nonce (n + 1) count

/-- Masks a text with the keystream from counter 2 on; masking twice gives the text back. -/
def mask (cipher : Block → Block) (nonce text : List UInt8) : List UInt8 :=
  List.zipWith (· ^^^ ·) text (keystream cipher nonce 2 (text.length / 16 + 1))

/-- The tag of a masked text. -/
def tag (cipher : Block → Block) (nonce masked : List UInt8) : List UInt8 :=
  let h := Element.ofBlock (cipher (Block.ofBytes []))
  let sum := hash h .zero masked
  let lengths : Element := ⟨0, (masked.length * 8).toUInt64⟩
  (Block.add (((sum.add lengths).mul h).toBlock) (cipher (counterBlock nonce 1))).toList

/-- The masked text with its tag. -/
def lock (cipher : Block → Block) (nonce text : List UInt8) : List UInt8 :=
  let masked := mask cipher nonce text
  masked ++ tag cipher nonce masked

/-- The text of a masked text with its tag, if the tag is the right one. -/
def unlock (cipher : Block → Block) (nonce locked : List UInt8) : Option (List UInt8) :=
  if locked.length < 16 then none
  else
    let masked := locked.take (locked.length - 16)
    if locked.drop (locked.length - 16) = tag cipher nonce masked then
      some (mask cipher nonce masked)
    else none

/-- The longest text that may be locked: 2³⁶ bytes. -/
def maxText : Nat := 1 <<< 36

theorem length_keystream (cipher : Block → Block) (nonce : List UInt8) (n count : Nat) :
    (keystream cipher nonce n count).length = 16 * count := by
  induction count generalizing n with
  | zero => rfl
  | succ count ih => simp [keystream, ih]; omega

theorem length_mask (cipher : Block → Block) (nonce text : List UInt8) :
    (mask cipher nonce text).length = text.length := by
  simp only [mask, List.length_zipWith, length_keystream]
  omega

theorem length_tag (cipher : Block → Block) (nonce masked : List UInt8) :
    (tag cipher nonce masked).length = 16 := by
  simp [tag]

theorem zipWith_xor_cancel {text ks : List UInt8} (h : text.length ≤ ks.length) :
    List.zipWith (· ^^^ ·) (List.zipWith (· ^^^ ·) text ks) ks = text := by
  induction text generalizing ks with
  | nil => simp
  | cons a text ih =>
    cases ks with
    | nil => simp at h
    | cons k ks =>
      simp only [List.length_cons, Nat.add_le_add_iff_right] at h
      simp only [List.zipWith_cons_cons, List.cons.injEq]
      exact ⟨by rw [UInt8.xor_assoc, UInt8.xor_self, UInt8.xor_zero], ih h⟩

theorem mask_mask (cipher : Block → Block) (nonce text : List UInt8) :
    mask cipher nonce (mask cipher nonce text) = text := by
  have h := length_mask cipher nonce text
  rw [mask, h, mask]
  exact zipWith_xor_cancel (by rw [length_keystream]; omega)

end BurnAfterRead.Crypto.Gcm
