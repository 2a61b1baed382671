import Tgvisd.Lib.BlockHash
import Tgvisd.Lib.Words

/-!
# MD5

The message digest of RFC 1321. Its steps are numbered from 0 to 63.
-/

namespace Tgvisd

namespace Md5

structure Registers where
  a : UInt32
  b : UInt32
  c : UInt32
  d : UInt32
  deriving DecidableEq, Repr

/-! ## A step -/

def f (x y z : UInt32) : UInt32 := x &&& y ||| ~~~x &&& z

def g (x y z : UInt32) : UInt32 := x &&& z ||| y &&& ~~~z

def h (x y z : UInt32) : UInt32 := x ^^^ y ^^^ z

def i (x y z : UInt32) : UInt32 := y ^^^ (x ||| ~~~z)

/-- The function of a step. -/
def auxiliary (t : ℕ) : UInt32 → UInt32 → UInt32 → UInt32 :=
  match t / 16 with
  | 0 => f
  | 1 => g
  | 2 => h
  | _ => i

/-- The word of the block that a step takes. -/
def wordIndex (t : ℕ) : ℕ :=
  match t / 16 with
  | 0 => t
  | 1 => (5 * t + 1) % 16
  | 2 => (3 * t + 5) % 16
  | _ => 7 * t % 16

/-- The integer part of `2 ^ 32` times the absolute value of the sine of `t + 1`. -/
def constants : List UInt32 :=
  [0xd76aa478, 0xe8c7b756, 0x242070db, 0xc1bdceee, 0xf57c0faf, 0x4787c62a, 0xa8304613, 0xfd469501,
    0x698098d8, 0x8b44f7af, 0xffff5bb1, 0x895cd7be, 0x6b901122, 0xfd987193, 0xa679438e, 0x49b40821,
    0xf61e2562, 0xc040b340, 0x265e5a51, 0xe9b6c7aa, 0xd62f105d, 0x02441453, 0xd8a1e681, 0xe7d3fbc8,
    0x21e1cde6, 0xc33707d6, 0xf4d50d87, 0x455a14ed, 0xa9e3e905, 0xfcefa3f8, 0x676f02d9, 0x8d2a4c8a,
    0xfffa3942, 0x8771f681, 0x6d9d6122, 0xfde5380c, 0xa4beea44, 0x4bdecfa9, 0xf6bb4b60, 0xbebfbc70,
    0x289b7ec6, 0xeaa127fa, 0xd4ef3085, 0x04881d05, 0xd9d4d039, 0xe6db99e5, 0x1fa27cf8, 0xc4ac5665,
    0xf4292244, 0x432aff97, 0xab9423a7, 0xfc93a039, 0x655b59c3, 0x8f0ccc92, 0xffeff47d, 0x85845dd1,
    0x6fa87e4f, 0xfe2ce6e0, 0xa3014314, 0x4e0811a1, 0xf7537e82, 0xbd3af235, 0x2ad7d2bb, 0xeb86d391]

/-- How far a step rotates, by its round and its place in a group of four. -/
def shift (t : ℕ) : UInt32 :=
  match t / 16, t % 4 with
  | 0, 0 => 7
  | 0, 1 => 12
  | 0, 2 => 17
  | 0, _ => 22
  | 1, 0 => 5
  | 1, 1 => 9
  | 1, 2 => 14
  | 1, _ => 20
  | 2, 0 => 4
  | 2, 1 => 11
  | 2, 2 => 16
  | 2, _ => 23
  | _, 0 => 6
  | _, 1 => 10
  | _, 2 => 15
  | _, _ => 21

def step (words : ℕ → UInt32) (r : Registers) (t : ℕ) : Registers where
  a := r.d
  b := r.b + Words.rotateLeft (r.a + auxiliary t r.b r.c r.d + words (wordIndex t) +
    constants.getD t 0) (shift t)
  c := r.b
  d := r.c

/-! ## The hash -/

def wordAt (block : List UInt8) (k : ℕ) : UInt32 :=
  UInt32.ofNat (Words.ofLittleEndian ((block.drop (4 * k)).take 4))

def add (first second : Registers) : Registers where
  a := first.a + second.a
  b := first.b + second.b
  c := first.c + second.c
  d := first.d + second.d

def compress (state : Registers) (block : List UInt8) : Registers :=
  add ((List.range 64).foldl (step (wordAt block)) state) state

/-- A bit, as few others as it takes, and the number of bits of the message. -/
def padding (length : ℕ) : List UInt8 :=
  0x80 :: (List.replicate ((119 - length % 64) % 64) 0 ++ Words.littleEndian 8 (8 * length))

def hash : BlockHash UInt8 Registers where
  size := 64
  size_pos := by decide
  initial := ⟨0x67452301, 0xefcdab89, 0x98badcfe, 0x10325476⟩
  compress := compress
  padding := padding

def output (state : Registers) : List UInt8 :=
  [state.a, state.b, state.c, state.d].flatMap fun word ↦ Words.littleEndian 4 word.toNat

def digest (message : List UInt8) : List UInt8 := output (hash.final message)

example : digest "abc".toUTF8.toList = [0x90, 0x01, 0x50, 0x98, 0x3c, 0xd2, 0x4f, 0xb0, 0xd6, 0x96,
    0x3f, 0x7d, 0x28, 0xe1, 0x7f, 0x72] := by decide +kernel

theorem length_digest (message : List UInt8) : (digest message).length = 16 := by
  simp [digest, output]

end Md5

end Tgvisd
