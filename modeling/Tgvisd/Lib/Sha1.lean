import Mathlib.Data.List.GetD
import Tgvisd.Lib.BlockHash
import Tgvisd.Lib.Words

/-!
# SHA-1

The secure hash of FIPS 180. Its steps are numbered from 0 to 79.
-/

namespace Tgvisd

namespace Sha1

structure State where
  a : UInt32
  b : UInt32
  c : UInt32
  d : UInt32
  e : UInt32
  deriving DecidableEq, Repr

/-! ## A step -/

def ch (x y z : UInt32) : UInt32 := x &&& y ^^^ ~~~x &&& z

def parity (x y z : UInt32) : UInt32 := x ^^^ y ^^^ z

def maj (x y z : UInt32) : UInt32 := x &&& y ^^^ x &&& z ^^^ y &&& z

/-- The function of a step. -/
def auxiliary (t : ℕ) : UInt32 → UInt32 → UInt32 → UInt32 :=
  match t / 20 with
  | 0 => ch
  | 1 => parity
  | 2 => maj
  | _ => parity

def constant (t : ℕ) : UInt32 :=
  match t / 20 with
  | 0 => 0x5a827999
  | 1 => 0x6ed9eba1
  | 2 => 0x8f1bbcdc
  | _ => 0xca62c1d6

/-- The words of the message schedule, as many as it has steps, or sixteen. -/
def scheduleTo (words : ℕ → UInt32) : ℕ → List UInt32
  | 0 => (List.range 16).map words
  | count + 1 =>
    let schedule := scheduleTo words count
    let t := count + 16
    schedule ++ [Words.rotateLeft (schedule.getD (t - 3) 0 ^^^ schedule.getD (t - 8) 0 ^^^
      schedule.getD (t - 14) 0 ^^^ schedule.getD (t - 16) 0) 1]

/-- The word of a step. -/
def schedule (words : ℕ → UInt32) (t : ℕ) : UInt32 := (scheduleTo words (t - 15)).getD t 0

def step (words : ℕ → UInt32) (s : State) (t : ℕ) : State where
  a := Words.rotateLeft s.a 5 + auxiliary t s.b s.c s.d + s.e + constant t + schedule words t
  b := s.a
  c := Words.rotateLeft s.b 30
  d := s.c
  e := s.d

/-! ## The hash -/

def wordAt (block : List UInt8) (k : ℕ) : UInt32 :=
  UInt32.ofNat (Words.ofBigEndian ((block.drop (4 * k)).take 4))

def add (first second : State) : State where
  a := first.a + second.a
  b := first.b + second.b
  c := first.c + second.c
  d := first.d + second.d
  e := first.e + second.e

def compress (state : State) (block : List UInt8) : State :=
  add state ((List.range 80).foldl (step (wordAt block)) state)

/-- A bit, as few others as it takes, and the number of bits of the message. -/
def padding (length : ℕ) : List UInt8 :=
  0x80 :: (List.replicate ((119 - length % 64) % 64) 0 ++ Words.bigEndian 8 (8 * length))

theorem blockSize_pos : 0 < 64 := by decide

def hash : BlockHash UInt8 State where
  size := 64
  size_pos := blockSize_pos
  initial := ⟨0x67452301, 0xefcdab89, 0x98badcfe, 0x10325476, 0xc3d2e1f0⟩
  compress := compress
  padding := padding

def output (state : State) : List UInt8 :=
  [state.a, state.b, state.c, state.d, state.e].flatMap fun word ↦
    Words.bigEndian 4 word.toNat

def digest (message : List UInt8) : List UInt8 := output (hash.final message)

example : digest "abc".toUTF8.toList = [0xa9, 0x99, 0x3e, 0x36, 0x47, 0x06, 0x81, 0x6a, 0xba, 0x3e,
    0x25, 0x71, 0x78, 0x50, 0xc2, 0x6c, 0x9c, 0xd0, 0xd8, 0x9d] := by decide +kernel

theorem length_digest (message : List UInt8) : (digest message).length = 20 := by
  simp [digest, output]

/-! ## The message schedule -/

section

variable {words : ℕ → UInt32} {count t : ℕ}

theorem length_scheduleTo (words : ℕ → UInt32) (count : ℕ) :
    (scheduleTo words count).length = count + 16 := by
  induction count with
  | zero => simp [scheduleTo]
  | succ count ih =>
    rw [scheduleTo, List.length_append, ih, List.length_singleton, add_right_comm]

/-- The words of a schedule do not depend on how many follow. -/
theorem getD_scheduleTo (ht : t < count + 16) :
    (scheduleTo words count).getD t 0 = schedule words t := by
  induction count with
  | zero =>
    have hfew : t - 15 = 0 := by omega
    rw [schedule, hfew]
  | succ count ih =>
    obtain hlt | rfl : t < count + 16 ∨ t = count + 16 := by omega
    · rw [scheduleTo, List.getD_append _ _ _ _ (by rw [length_scheduleTo]; exact hlt), ih hlt]
    · have hcount : count + 16 - 15 = count + 1 := by omega
      rw [schedule, hcount]

theorem schedule_of_lt (ht : t < 16) : schedule words t = words t := by
  have hfew : t - 15 = 0 := by omega
  rw [schedule, hfew, scheduleTo, List.getD_eq_getElem _ _ (by simpa using ht)]
  simp

theorem schedule_of_le (ht : 16 ≤ t) :
    schedule words t = Words.rotateLeft (schedule words (t - 3) ^^^ schedule words (t - 8) ^^^
      schedule words (t - 14) ^^^ schedule words (t - 16)) 1 := by
  obtain ⟨count, rfl⟩ := Nat.exists_eq_add_of_le' ht
  have hcount : count + 16 - 15 = count + 1 := by omega
  rw [schedule, hcount, scheduleTo, List.getD_append_right _ _ _ _
    (by rw [length_scheduleTo]), length_scheduleTo, Nat.sub_self, List.getD_cons_zero]
  rw [getD_scheduleTo (by omega), getD_scheduleTo (by omega), getD_scheduleTo (by omega),
    getD_scheduleTo (by omega)]

end

end Sha1

end Tgvisd
