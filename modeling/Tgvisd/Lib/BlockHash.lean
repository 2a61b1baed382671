import Mathlib.Data.List.Basic
import Mathlib.Algebra.Order.Ring.Nat

/-!
# Hashing in blocks

A message is padded to whole blocks, and a state is carried from block to block. A message that
comes in pieces can be hashed with the state after its whole blocks and the bytes behind them.
-/

namespace Tgvisd

universe u v

structure BlockHash (Byte : Type u) (State : Type v) where
  size : ℕ
  size_pos : 0 < size
  initial : State
  compress : State → List Byte → State
  /-- What is put behind a message of the given length. -/
  padding : ℕ → List Byte

namespace BlockHash

variable {Byte : Type u} {State : Type v} (hash : BlockHash Byte State)

/-- The state after so many blocks, and the bytes behind them. -/
def compressBlocks : ℕ → State → List Byte → State × List Byte
  | 0, state, message => (state, message)
  | count + 1, state, message =>
    compressBlocks count (hash.compress state (message.take hash.size)) (message.drop hash.size)

/-- The state after all whole blocks, and the bytes behind them. -/
def absorb (state : State) (message : List Byte) : State × List Byte :=
  hash.compressBlocks (message.length / hash.size) state message

/-- The state after the padded message. -/
def final (message : List Byte) : State :=
  (hash.absorb hash.initial (message ++ hash.padding message.length)).1

variable {hash} {state : State} {message block rest : List Byte}

theorem absorb_of_lt (hshort : message.length < hash.size) :
    hash.absorb state message = (state, message) := by
  rw [absorb, Nat.div_eq_of_lt hshort, compressBlocks]

theorem absorb_of_le (hlong : hash.size ≤ message.length) :
    hash.absorb state message =
      hash.absorb (hash.compress state (message.take hash.size)) (message.drop hash.size) := by
  have hcount : message.length / hash.size = (message.length - hash.size) / hash.size + 1 := by
    rw [← Nat.add_div_right _ hash.size_pos, Nat.sub_add_cancel hlong]
  rw [absorb, hcount, compressBlocks, absorb, List.length_drop]

theorem absorb_block (hblock : block.length = hash.size) :
    hash.absorb state (block ++ rest) = hash.absorb (hash.compress state block) rest := by
  rw [absorb_of_le (by simp [hblock]), List.take_left' hblock, List.drop_left' hblock]

theorem absorb_single (hblock : block.length = hash.size) :
    hash.absorb state block = (hash.compress state block, []) := by
  have hempty : ([] : List Byte).length < hash.size := hash.size_pos
  calc hash.absorb state block
      = hash.absorb state (block ++ []) := by rw [List.append_nil]
    _ = hash.absorb (hash.compress state block) [] := absorb_block hblock
    _ = (hash.compress state block, []) := absorb_of_lt hempty

variable (hash)

/-- By induction on the length: the whole blocks of a message are compressed one by one. -/
theorem length_absorb (state : State) (message : List Byte) :
    (hash.absorb state message).2.length = message.length % hash.size := by
  induction hlength : message.length using Nat.strong_induction_on generalizing state message with
  | _ length ih =>
    by_cases hshort : message.length < hash.size
    · rw [absorb_of_lt hshort, ← hlength, Nat.mod_eq_of_lt hshort]
    · have hle : hash.size ≤ message.length := Nat.le_of_not_lt hshort
      have hpos := hash.size_pos
      rw [absorb_of_le hle, ih (message.length - hash.size) (by omega) _ _ (by simp), ← hlength]
      exact (Nat.mod_eq_sub_mod hle).symm

theorem length_absorb_lt (state : State) (message : List Byte) :
    (hash.absorb state message).2.length < hash.size := by
  rw [length_absorb]
  exact Nat.mod_lt _ hash.size_pos

/-- The bytes behind the whole blocks are taken up with the next piece. -/
theorem absorb_append (state : State) (front back : List Byte) :
    hash.absorb state (front ++ back) =
      hash.absorb (hash.absorb state front).1 ((hash.absorb state front).2 ++ back) := by
  induction hlength : front.length using Nat.strong_induction_on generalizing state front with
  | _ length ih =>
    by_cases hshort : front.length < hash.size
    · rw [absorb_of_lt hshort]
    · have hle : hash.size ≤ front.length := Nat.le_of_not_lt hshort
      have hpos := hash.size_pos
      have hrest := ih (front.length - hash.size) (by omega)
        (hash.compress state (front.take hash.size)) (front.drop hash.size) (by simp)
      have hlong : hash.size ≤ (front ++ back).length := by
        rw [List.length_append]
        omega
      rw [absorb_of_le hlong,
        List.take_append_of_le_length hle, List.drop_append_of_le_length hle, hrest,
        absorb_of_le hle]

/-- Only the bytes that are left are needed for the end of the hash. -/
theorem final_eq (message : List Byte) :
    hash.final message = (hash.absorb (hash.absorb hash.initial message).1
      ((hash.absorb hash.initial message).2 ++ hash.padding message.length)).1 := by
  rw [final, absorb_append]

end BlockHash

end Tgvisd
