import DemoPages.Text.Percent
import DemoPages.Text.Quoted

/-!
# The MD5 digest

The digest of a text is the state of four words left by its bytes in UTF-8, padded to whole
blocks of sixteen words; it is written as thirty-two hexadecimal digits.
-/

namespace DemoPages.Digest

/-- The constants added in the sixty-four steps. -/
def constants : List UInt32 :=
  [0xd76aa478, 0xe8c7b756, 0x242070db, 0xc1bdceee, 0xf57c0faf, 0x4787c62a, 0xa8304613, 0xfd469501,
    0x698098d8, 0x8b44f7af, 0xffff5bb1, 0x895cd7be, 0x6b901122, 0xfd987193, 0xa679438e, 0x49b40821,
    0xf61e2562, 0xc040b340, 0x265e5a51, 0xe9b6c7aa, 0xd62f105d, 0x02441453, 0xd8a1e681, 0xe7d3fbc8,
    0x21e1cde6, 0xc33707d6, 0xf4d50d87, 0x455a14ed, 0xa9e3e905, 0xfcefa3f8, 0x676f02d9, 0x8d2a4c8a,
    0xfffa3942, 0x8771f681, 0x6d9d6122, 0xfde5380c, 0xa4beea44, 0x4bdecfa9, 0xf6bb4b60, 0xbebfbc70,
    0x289b7ec6, 0xeaa127fa, 0xd4ef3085, 0x04881d05, 0xd9d4d039, 0xe6db99e5, 0x1fa27cf8, 0xc4ac5665,
    0xf4292244, 0x432aff97, 0xab9423a7, 0xfc93a039, 0x655b59c3, 0x8f0ccc92, 0xffeff47d, 0x85845dd1,
    0x6fa87e4f, 0xfe2ce6e0, 0xa3014314, 0x4e0811a1, 0xf7537e82, 0xbd3af235, 0x2ad7d2bb, 0xeb86d391]

/-- How far the sum is turned in the steps of each round of sixteen, four by four. -/
def turns : List (List UInt32) := [[7, 12, 17, 22], [5, 9, 14, 20], [4, 11, 16, 23], [6, 10, 15, 21]]

/-- The four words of the state. -/
structure State where
  a : UInt32
  b : UInt32
  c : UInt32
  d : UInt32
  deriving DecidableEq, Repr

/-- The state before the first block. -/
def State.initial : State := ⟨0x67452301, 0xefcdab89, 0x98badcfe, 0x10325476⟩

/-- The bits of `x`, turned left by `n`. -/
def turn (x n : UInt32) : UInt32 := (x <<< n) ||| (x >>> (32 - n))

/-- How the words of the state are mixed in step `i`, and which word of the block is added. -/
def mix (s : State) (i : Nat) : UInt32 × Nat :=
  match i / 16 with
  | 0 => ((s.b &&& s.c) ||| (~~~s.b &&& s.d), i % 16)
  | 1 => ((s.d &&& s.b) ||| (~~~s.d &&& s.c), (5 * i + 1) % 16)
  | 2 => (s.b ^^^ s.c ^^^ s.d, (3 * i + 5) % 16)
  | _ => (s.c ^^^ (s.b ||| ~~~s.d), 7 * i % 16)

/-- Step `i` with the constant `k`, on a block of sixteen words. -/
def step (block : List UInt32) (s : State) (i : Nat) (k : UInt32) : State :=
  let (f, w) := mix s i
  let sum := s.a + f + k + block.getD w 0
  let n := (turns.getD (i / 16) []).getD (i % 4) 0
  ⟨s.d, s.b + turn sum n, s.b, s.c⟩

/-- The sixty-four steps of a block, and the sum with the state before them. -/
def absorb (s : State) (block : List UInt32) : State :=
  let t := constants.zipIdx.foldl (fun t ki => step block t ki.2 ki.1) s
  ⟨s.a + t.a, s.b + t.b, s.c + t.c, s.d + t.d⟩

/-- The lowest `count` bytes of `n`, lowest first. -/
def littleEndian : (count : Nat) → Nat → List UInt8
  | 0, _ => []
  | count + 1, n => UInt8.ofNat (n % 256) :: littleEndian count (n / 256)

/-- Bytes, a one bit, zeros up to eight bytes before the end of a block, and the count of bits. -/
def pad (bytes : List UInt8) : List UInt8 :=
  bytes ++ 0x80 :: List.replicate ((119 - bytes.length % 64) % 64) 0 ++
    littleEndian 8 (8 * bytes.length)

/-- Four bytes to a word, lowest first. -/
def words : List UInt8 → List UInt32
  | a :: b :: c :: d :: r =>
    (a.toUInt32 ||| (b.toUInt32 <<< 8) ||| (c.toUInt32 <<< 16) ||| (d.toUInt32 <<< 24)) :: words r
  | _ => []

/-- Takes in up to `count` blocks of sixteen words. -/
def absorbAll : (count : Nat) → State → List UInt32 → State
  | 0, s, _ => s
  | count + 1, s, ws => absorbAll count (absorb s (ws.take 16)) (ws.drop 16)

/-- The state after all blocks of the padded bytes. -/
def digest (bytes : List UInt8) : State :=
  let ws := words (pad bytes)
  absorbAll (ws.length / 16) .initial ws

/-- The bytes of a state, in hexadecimal. -/
def State.hex (s : State) : List Char :=
  ([s.a, s.b, s.c, s.d].flatMap fun w => littleEndian 4 w.toNat).flatMap fun b => Text.hex 2 b.toNat

/-- The digest of a text, as thirty-two hexadecimal digits. -/
def md5 (s : String) : String := String.ofList (digest (Text.Percent.utf8 s.toList)).hex

end DemoPages.Digest
