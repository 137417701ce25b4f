/-!
# MD5

The digest of a list of bytes: the message is padded to whole chunks of 64 bytes with its length in
bits at the end, and each chunk is stirred into four words in 64 steps.
-/

namespace BurnAfterRead.Crypto.Md5

/-- The whole part of 2³² · |sin i| for the steps i = 1, …, 64. -/
def sines : Array UInt32 :=
  #[
    0xd76aa478, 0xe8c7b756, 0x242070db, 0xc1bdceee, 0xf57c0faf, 0x4787c62a,
    0xa8304613, 0xfd469501, 0x698098d8, 0x8b44f7af, 0xffff5bb1, 0x895cd7be,
    0x6b901122, 0xfd987193, 0xa679438e, 0x49b40821, 0xf61e2562, 0xc040b340,
    0x265e5a51, 0xe9b6c7aa, 0xd62f105d, 0x02441453, 0xd8a1e681, 0xe7d3fbc8,
    0x21e1cde6, 0xc33707d6, 0xf4d50d87, 0x455a14ed, 0xa9e3e905, 0xfcefa3f8,
    0x676f02d9, 0x8d2a4c8a, 0xfffa3942, 0x8771f681, 0x6d9d6122, 0xfde5380c,
    0xa4beea44, 0x4bdecfa9, 0xf6bb4b60, 0xbebfbc70, 0x289b7ec6, 0xeaa127fa,
    0xd4ef3085, 0x04881d05, 0xd9d4d039, 0xe6db99e5, 0x1fa27cf8, 0xc4ac5665,
    0xf4292244, 0x432aff97, 0xab9423a7, 0xfc93a039, 0x655b59c3, 0x8f0ccc92,
    0xffeff47d, 0x85845dd1, 0x6fa87e4f, 0xfe2ce6e0, 0xa3014314, 0x4e0811a1,
    0xf7537e82, 0xbd3af235, 0x2ad7d2bb, 0xeb86d391]

/-- How far each step rotates; the steps of a round repeat four amounts. -/
def rotations : Array UInt32 :=
  #[7, 12, 17, 22, 5, 9, 14, 20, 4, 11, 16, 23, 6, 10, 15, 21]

/-- The running digest. -/
structure Words where
  a : UInt32
  b : UInt32
  c : UInt32
  d : UInt32
  deriving DecidableEq, Repr

def start : Words := ⟨0x67452301, 0xefcdab89, 0x98badcfe, 0x10325476⟩

def rotateLeft (x amount : UInt32) : UInt32 := (x <<< amount) ||| (x >>> (32 - amount))

/-- The function that step `i` mixes the words with. -/
def mix (i : Nat) (w : Words) : UInt32 :=
  if i < 16 then (w.b &&& w.c) ||| (~~~w.b &&& w.d)
  else if i < 32 then (w.d &&& w.b) ||| (~~~w.d &&& w.c)
  else if i < 48 then w.b ^^^ w.c ^^^ w.d
  else w.c ^^^ (w.b ||| ~~~w.d)

/-- The word of the chunk that step `i` reads. -/
def wordIndex (i : Nat) : Nat :=
  if i < 16 then i
  else if i < 32 then (5 * i + 1) % 16
  else if i < 48 then (3 * i + 5) % 16
  else 7 * i % 16

def step (chunk : Array UInt32) (w : Words) (i : Nat) : Words :=
  let f := mix i w + w.a + sines.getD i 0 + chunk.getD (wordIndex i) 0
  ⟨w.d, w.b + rotateLeft f (rotations.getD (i / 16 * 4 + i % 4) 0), w.b, w.c⟩

/-- Little-endian words of a list of bytes. -/
def words : List UInt8 → List UInt32
  | p :: q :: r :: s :: rest =>
    (p.toUInt32 ||| (q.toUInt32 <<< 8) ||| (r.toUInt32 <<< 16) ||| (s.toUInt32 <<< 24)) :: words rest
  | _ => []

/-- The low `count` bytes of a number, least first. -/
def littleEndian : Nat → Nat → List UInt8
  | 0, _ => []
  | count + 1, n => UInt8.ofNat (n % 256) :: littleEndian count (n / 256)

/-- The message with a one bit, zeros up to 8 bytes before a whole chunk, and its length in bits. -/
def pad (message : List UInt8) : List UInt8 :=
  let n := message.length
  message ++ [0x80] ++ List.replicate ((119 - n % 64) % 64) 0 ++ littleEndian 8 (n * 8)

/-- Stirs one chunk of 16 words into the digest. -/
def stir (w : Words) (chunk : Array UInt32) : Words :=
  let r := (List.range 64).foldl (step chunk) w
  ⟨w.a + r.a, w.b + r.b, w.c + r.c, w.d + r.d⟩

/-- Stirs `count` chunks of 16 words each. -/
def stirAll : Nat → Words → List UInt32 → Words
  | 0, w, _ => w
  | count + 1, w, ws => stirAll count (stir w (ws.take 16).toArray) (ws.drop 16)

/-- The 16 bytes of the digest. -/
def digest (message : List UInt8) : List UInt8 :=
  let ws := words (pad message)
  let w := stirAll (ws.length / 16) start ws
  [w.a, w.b, w.c, w.d].flatMap fun x => littleEndian 4 x.toNat

example : digest [] =
    [0xd4, 0x1d, 0x8c, 0xd9, 0x8f, 0x00, 0xb2, 0x04, 0xe9, 0x80, 0x09, 0x98, 0xec, 0xf8, 0x42, 0x7e] := by
  decide +kernel

end BurnAfterRead.Crypto.Md5
