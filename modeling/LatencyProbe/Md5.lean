/-!
# MD5

The digest of a text: it is padded to blocks of sixteen words, and each block is mixed into four
words of state in 64 steps. Four rounds of sixteen steps differ in how they combine three words of
the state, in which words of the block they take, and in the rotations.
-/

namespace LatencyProbe.Md5

/-- The constants of the 64 steps, `2 ^ 32` times the absolute sines of 1 to 64. -/
def sines : List UInt32 :=
  [0xd76aa478, 0xe8c7b756, 0x242070db, 0xc1bdceee, 0xf57c0faf, 0x4787c62a, 0xa8304613, 0xfd469501,
   0x698098d8, 0x8b44f7af, 0xffff5bb1, 0x895cd7be, 0x6b901122, 0xfd987193, 0xa679438e, 0x49b40821,
   0xf61e2562, 0xc040b340, 0x265e5a51, 0xe9b6c7aa, 0xd62f105d, 0x02441453, 0xd8a1e681, 0xe7d3fbc8,
   0x21e1cde6, 0xc33707d6, 0xf4d50d87, 0x455a14ed, 0xa9e3e905, 0xfcefa3f8, 0x676f02d9, 0x8d2a4c8a,
   0xfffa3942, 0x8771f681, 0x6d9d6122, 0xfde5380c, 0xa4beea44, 0x4bdecfa9, 0xf6bb4b60, 0xbebfbc70,
   0x289b7ec6, 0xeaa127fa, 0xd4ef3085, 0x04881d05, 0xd9d4d039, 0xe6db99e5, 0x1fa27cf8, 0xc4ac5665,
   0xf4292244, 0x432aff97, 0xab9423a7, 0xfc93a039, 0x655b59c3, 0x8f0ccc92, 0xffeff47d, 0x85845dd1,
   0x6fa87e4f, 0xfe2ce6e0, 0xa3014314, 0x4e0811a1, 0xf7537e82, 0xbd3af235, 0x2ad7d2bb, 0xeb86d391]

/-- The four words of state. -/
structure State where
  a : UInt32
  b : UInt32
  c : UInt32
  d : UInt32
  deriving DecidableEq, Repr

/-- The state before the first block. -/
def State.initial : State := ⟨0x67452301, 0xefcdab89, 0x98badcfe, 0x10325476⟩

/-- How a round combines three words of the state. -/
def combine (round : Nat) (s : State) : UInt32 :=
  match round with
  | 0 => (s.b &&& s.c) ||| (~~~s.b &&& s.d)
  | 1 => (s.d &&& s.b) ||| (~~~s.d &&& s.c)
  | 2 => s.b ^^^ s.c ^^^ s.d
  | _ => s.c ^^^ (s.b ||| ~~~s.d)

/-- Which word of the block a step takes. -/
def wordIndex (round step : Nat) : Nat :=
  match round with
  | 0 => step
  | 1 => (5 * step + 1) % 16
  | 2 => (3 * step + 5) % 16
  | _ => 7 * step % 16

/-- By how many bits a step rotates. -/
def rotation (round step : Nat) : UInt32 :=
  match round, step % 4 with
  | 0, 0 => 7 | 0, 1 => 12 | 0, 2 => 17 | 0, _ => 22
  | 1, 0 => 5 | 1, 1 => 9 | 1, 2 => 14 | 1, _ => 20
  | 2, 0 => 4 | 2, 1 => 11 | 2, 2 => 16 | 2, _ => 23
  | _, 0 => 6 | _, 1 => 10 | _, 2 => 15 | _, _ => 21

/-- A word rotated to the left. -/
def rotateLeft (x n : UInt32) : UInt32 := (x <<< n) ||| (x >>> (32 - n))

/-- One step on a block. -/
def State.step (block : List UInt32) (s : State) (i : Nat) : State :=
  let sum := s.a + combine (i / 16) s + sines.getD i 0 + block.getD (wordIndex (i / 16) i) 0
  ⟨s.d, s.b + rotateLeft sum (rotation (i / 16) i), s.b, s.c⟩

/-- The state after a block. -/
def State.mix (block : List UInt32) (s : State) : State :=
  let t := (List.range 64).foldl (State.step block) s
  ⟨s.a + t.a, s.b + t.b, s.c + t.c, s.d + t.d⟩

/-- The state after so many blocks of a text of words. -/
def State.mixAll : Nat → List UInt32 → State → State
  | 0, _, s => s
  | blocks + 1, words, s => mixAll blocks (words.drop 16) (s.mix (words.take 16))

/-- The words of a text of bytes, the lowest byte first. -/
def words : List UInt8 → List UInt32
  | a :: b :: c :: d :: rest =>
    (a.toUInt32 ||| (b.toUInt32 <<< 8) ||| (c.toUInt32 <<< 16) ||| (d.toUInt32 <<< 24)) ::
      words rest
  | _ => []

/-- So many bytes of a number, the lowest byte first. -/
def littleEndian : Nat → Nat → List UInt8
  | 0, _ => []
  | count + 1, n => UInt8.ofNat n :: littleEndian count (n / 256)

@[simp] theorem length_littleEndian (count n : Nat) : (littleEndian count n).length = count := by
  induction count generalizing n with
  | zero => rfl
  | succ count ih => simp [littleEndian, ih]

/-- The text with a one bit, as many zeros as a whole number of blocks needs, and its length in
bits. -/
def padded (bytes : List UInt8) : List UInt8 :=
  bytes ++ 0x80 :: (List.replicate ((119 - bytes.length % 64) % 64) 0 ++
    littleEndian 8 (8 * bytes.length))

/-- The sixteen bytes of the digest. -/
def digest (bytes : List UInt8) : List UInt8 :=
  let input := words (padded bytes)
  let s := State.mixAll (input.length / 16) input .initial
  [s.a, s.b, s.c, s.d].flatMap fun word => littleEndian 4 word.toNat

@[simp] theorem length_digest (bytes : List UInt8) : (digest bytes).length = 16 := by
  simp [digest]

end LatencyProbe.Md5
