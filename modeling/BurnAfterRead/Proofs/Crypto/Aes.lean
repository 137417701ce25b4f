import BurnAfterRead.Crypto.Aes

/-!
# AES over numbers

The cipher once more, with numbers for bytes and lists of them for blocks. It gives the same blocks, and
works a fixed one out in a moment, for the table is one large number that is shifted to the entry.
-/

namespace BurnAfterRead.Crypto

namespace Block

/-- The bytes of a block as numbers. -/
def numbers (b : Block) : List Nat := b.toList.map UInt8.toNat

/-- The block of some numbers. -/
def ofNumbers (ns : List Nat) : Block := ofBytes (ns.map UInt8.ofNat)

theorem getD_numbers (b : Block) (i : Nat) : b.numbers.getD i 0 = (b.toArray.getD i 0).toNat := by
  unfold numbers
  rw [List.getD_eq_getElem?_getD, List.getElem?_map, Vector.getElem?_toList, Array.getD_eq_getD_getElem?,
    Vector.getElem?_toArray]
  cases b[i]? <;> rfl

theorem numbers_ofFn (f : Nat → UInt8) :
    numbers (Vector.ofFn fun i => f i.val) = (List.range 16).map fun i => (f i).toNat := by
  unfold numbers
  refine List.ext_getElem (by simp) fun i _ _ => ?_
  simp

theorem ofNumbers_numbers (b : Block) : ofNumbers b.numbers = b := by
  have hlist : b.numbers.map UInt8.ofNat = b.toList := by
    simp [numbers, Function.comp_def]
  unfold ofNumbers ofBytes
  rw [hlist]
  ext i hi
  simp

theorem numbers_add (a b : Block) :
    numbers (a.add b) = List.zipWith (· ^^^ ·) a.numbers b.numbers := by
  simp [numbers, add, List.map_zipWith, List.zipWith_map, UInt8.toNat_xor]

end Block

namespace Aes

/-- The entries of a table of bytes as the digits of one number, the first entry last. -/
def pack : List UInt8 → Nat
  | [] => 0
  | b :: bytes => 256 * pack bytes + b.toNat

theorem pack_shiftRight (bytes : List UInt8) (i : Nat) :
    pack bytes >>> (8 * i) % 256 = (bytes.getD i 0).toNat := by
  induction bytes generalizing i with
  | nil => simp [pack]
  | cons b bytes ih =>
    have hlt := b.toNat_lt
    cases i with
    | zero =>
      simp only [pack, Nat.mul_zero, Nat.shiftRight_zero, List.getD_cons_zero]
      omega
    | succ i =>
      have hdiv : pack (b :: bytes) >>> 8 = pack bytes := by
        rw [Nat.shiftRight_eq_div_pow, pack]
        omega
      rw [Nat.mul_succ, Nat.add_comm, Nat.shiftRight_add, hdiv, ih, List.getD_cons_succ]

namespace Numbers

def substitute (n : Nat) : Nat := pack substitution.toList >>> (8 * n) % 256

def double (n : Nat) : Nat := 2 * n % 256 ^^^ n / 128 * 27

def shiftRows (s : List Nat) : List Nat := (List.range 16).map fun i => s.getD (5 * i % 16) 0

def mixColumns (s : List Nat) : List Nat :=
  (List.range 16).map fun i =>
    let at_ (k : Nat) : Nat := s.getD (i / 4 * 4 + (i + k) % 4) 0
    double (at_ 0) ^^^ (double (at_ 1) ^^^ at_ 1) ^^^ at_ 2 ^^^ at_ 3

def nextKey (constant : Nat) (k : List Nat) : List Nat :=
  (List.range 16).map fun i =>
    let row := i % 4
    let head := substitute (k.getD (12 + (row + 1) % 4) 0) ^^^ (if row = 0 then constant else 0)
    (List.range (i / 4 + 1)).foldl (fun acc m => acc ^^^ k.getD (4 * m + row) 0) head

def roundKeys (k : List Nat) : List Nat → List (List Nat)
  | [] => []
  | c :: cs => let next := nextKey c k; next :: roundKeys next cs

def rounds (s : List Nat) : List (List Nat) → List Nat
  | [] => s
  | [last] => List.zipWith (· ^^^ ·) (shiftRows (s.map substitute)) last
  | k :: ks => rounds (List.zipWith (· ^^^ ·) (mixColumns (shiftRows (s.map substitute))) k) ks

def cipher (key block : List Nat) : List Nat :=
  rounds (List.zipWith (· ^^^ ·) block key) (roundKeys key (roundConstants.map UInt8.toNat))

end Numbers

theorem toNat_substitute (b : UInt8) : (substitute b).toNat = Numbers.substitute b.toNat := by
  unfold substitute Numbers.substitute
  rw [pack_shiftRight, Array.getD_eq_getD_getElem?, List.getD_eq_getElem?_getD, Array.getElem?_toList]

theorem toNat_double (b : UInt8) : (double b).toNat = Numbers.double b.toNat := by
  have hall : ∀ i : Fin 256, (double (UInt8.ofNat i)).toNat = Numbers.double i := by decide +kernel
  simpa using hall ⟨b.toNat, b.toNat_lt⟩

theorem numbers_substitute (s : Block) :
    Block.numbers (s.map substitute) = s.numbers.map Numbers.substitute := by
  simp only [Block.numbers, Vector.toList_map, List.map_map, Function.comp_def, toNat_substitute]

theorem numbers_shiftRows (s : Block) : Block.numbers (shiftRows s) = Numbers.shiftRows s.numbers := by
  have hrows : shiftRows s = Vector.ofFn fun i => s.toArray.getD (5 * i.val % 16) 0 := by
    ext i hi
    simp [shiftRows, Array.getD, Nat.mod_lt]
  rw [hrows, Block.numbers_ofFn fun i => s.toArray.getD (5 * i % 16) 0]
  simp only [Numbers.shiftRows, Block.getD_numbers]

theorem numbers_mixColumns (s : Block) : Block.numbers (mixColumns s) = Numbers.mixColumns s.numbers := by
  unfold mixColumns
  rw [Block.numbers_ofFn fun i => double (s.toArray.getD (i / 4 * 4 + (i + 0) % 4) 0) ^^^
    (double (s.toArray.getD (i / 4 * 4 + (i + 1) % 4) 0) ^^^ s.toArray.getD (i / 4 * 4 + (i + 1) % 4) 0) ^^^
    s.toArray.getD (i / 4 * 4 + (i + 2) % 4) 0 ^^^ s.toArray.getD (i / 4 * 4 + (i + 3) % 4) 0]
  simp only [Numbers.mixColumns, Block.getD_numbers, UInt8.toNat_xor, toNat_double]

theorem numbers_nextKey (c : UInt8) (k : Block) :
    Block.numbers (nextKey c k) = Numbers.nextKey c.toNat k.numbers := by
  have hfold : ∀ (f : Nat → UInt8) (ms : List Nat) (head : UInt8),
      (ms.foldl (fun acc m => acc ^^^ f m) head).toNat =
        ms.foldl (fun acc m => acc ^^^ (f m).toNat) head.toNat := by
    intro f ms
    induction ms with
    | nil => exact fun _ => rfl
    | cons m ms ih =>
      intro head
      rw [List.foldl_cons, List.foldl_cons, ih, UInt8.toNat_xor]
  unfold nextKey
  rw [Block.numbers_ofFn fun i =>
    (List.range (i / 4 + 1)).foldl (fun acc m => acc ^^^ k.toArray.getD (4 * m + i % 4) 0)
      (substitute (k.toArray.getD (12 + (i % 4 + 1) % 4) 0) ^^^ (if i % 4 = 0 then c else 0))]
  simp only [Numbers.nextKey, Block.getD_numbers, hfold, UInt8.toNat_xor, toNat_substitute,
    apply_ite UInt8.toNat, UInt8.toNat_zero]

theorem numbers_roundKeys (k : Block) (cs : List UInt8) :
    (roundKeys k cs).map Block.numbers = Numbers.roundKeys k.numbers (cs.map UInt8.toNat) := by
  induction cs generalizing k with
  | nil => rfl
  | cons c cs ih => simp only [roundKeys, List.map_cons, Numbers.roundKeys, ih, numbers_nextKey]

theorem numbers_rounds (s : Block) (keys : List Block) :
    Block.numbers (rounds s keys) = Numbers.rounds s.numbers (keys.map Block.numbers) := by
  fun_induction rounds s keys with
  | case1 s => rfl
  | case2 s last =>
    simp only [List.map_cons, List.map_nil, Numbers.rounds, Block.numbers_add, numbers_shiftRows,
      numbers_substitute]
  | case3 s k ks hks ih =>
    obtain ⟨last, more, rfl⟩ := List.exists_cons_of_ne_nil hks
    rw [ih]
    simp only [List.map_cons, Numbers.rounds, Block.numbers_add, numbers_mixColumns, numbers_shiftRows,
      numbers_substitute]

/-- Over numbers the cipher gives the same blocks. -/
theorem numbers_cipher (key block : Block) :
    Block.numbers (cipher key block) = Numbers.cipher key.numbers block.numbers := by
  unfold cipher Numbers.cipher
  rw [numbers_rounds, Block.numbers_add, numbers_roundKeys]

/-- The standard's example. -/
example :
    Block.numbers (cipher (Vector.ofFn fun i => UInt8.ofNat i) (Vector.ofFn fun i => UInt8.ofNat (17 * i))) =
      [0x69, 0xc4, 0xe0, 0xd8, 0x6a, 0x7b, 0x04, 0x30, 0xd8, 0xcd, 0xb7, 0x80, 0x70, 0xb4, 0xc5, 0x5a] := by
  rw [numbers_cipher]
  decide +kernel

theorem cipher_eq (key : Block) :
    cipher key = fun block => Block.ofNumbers (Numbers.cipher key.numbers block.numbers) := by
  funext block
  rw [← numbers_cipher, Block.ofNumbers_numbers]

end Aes

end BurnAfterRead.Crypto
