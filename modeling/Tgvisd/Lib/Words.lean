import Mathlib.Data.Nat.Digits.Defs
import Mathlib.Tactic.Ring
import Mathlib.Tactic.NormNum

/-!
# Words of 32 bits

The bytes of a number, with the low-order one first or last, words that are put together and taken
apart by shifts, and what their bits may be computed from.
-/

namespace Tgvisd

namespace Words

/-- So many bytes of a number, the low-order one first. -/
def littleEndian (count n : ℕ) : List UInt8 :=
  (List.range count).map fun k ↦ UInt8.ofNat (n / 256 ^ k)

def bigEndian (count n : ℕ) : List UInt8 := (littleEndian count n).reverse

/-- The number whose low-order byte is the first one. -/
def ofLittleEndian (bytes : List UInt8) : ℕ := Nat.ofDigits 256 (bytes.map UInt8.toNat)

def ofBigEndian (bytes : List UInt8) : ℕ := ofLittleEndian bytes.reverse

@[simp] theorem length_littleEndian (count n : ℕ) : (littleEndian count n).length = count := by
  simp [littleEndian]

@[simp] theorem length_bigEndian (count n : ℕ) : (bigEndian count n).length = count := by
  simp [bigEndian]

theorem littleEndian_add (low high n : ℕ) :
    littleEndian (low + high) n = littleEndian low n ++ littleEndian high (n / 256 ^ low) := by
  unfold littleEndian
  rw [List.range_add, List.map_append, List.map_map]
  congr 1
  apply List.map_congr_left
  intro k _
  rw [Function.comp_apply, pow_add, Nat.div_div_eq_div_mul]

theorem bigEndian_add (high low n : ℕ) :
    bigEndian (high + low) n = bigEndian high (n / 256 ^ low) ++ bigEndian low n := by
  unfold bigEndian
  rw [add_comm, littleEndian_add, List.reverse_append]

/-- Higher bytes do not matter. -/
theorem littleEndian_mod (count n : ℕ) : littleEndian count (n % 256 ^ count) =
    littleEndian count n := by
  unfold littleEndian
  apply List.map_congr_left
  intro k hk
  rw [List.mem_range] at hk
  obtain ⟨rest, rfl⟩ := Nat.exists_eq_add_of_lt hk
  have hpow : 256 ^ (k + rest + 1) = 256 ^ k * (256 ^ rest * 256) := by ring
  apply UInt8.toNat_inj.mp
  simp only [UInt8.toNat_ofNat']
  rw [hpow, Nat.mod_mul_right_div_self]
  exact Nat.mod_mul_left_mod _ _ _

theorem bigEndian_mod (count n : ℕ) : bigEndian count (n % 256 ^ count) = bigEndian count n := by
  unfold bigEndian
  rw [littleEndian_mod]

/-! ## Words of 32 bits -/

/-- `word`, `word >> 8` and so on, each as a byte. -/
theorem littleEndian_word (word : UInt32) : littleEndian 4 word.toNat =
    [word.toUInt8, (word >>> 8).toUInt8, (word >>> 16).toUInt8, (word >>> 24).toUInt8] := by
  have hbyte (k : ℕ) (shift : UInt32) (hshift : 256 ^ k = 2 ^ (shift.toNat % 32)) :
      UInt8.ofNat (word.toNat / 256 ^ k) = (word >>> shift).toUInt8 := by
    apply UInt8.toNat_inj.mp
    rw [UInt8.toNat_ofNat', UInt32.toNat_toUInt8, UInt32.toNat_shiftRight,
      Nat.shiftRight_eq_div_pow, hshift]
  have hfirst : UInt8.ofNat (word.toNat / 256 ^ 0) = word.toUInt8 := by
    apply UInt8.toNat_inj.mp
    simp
  simp only [littleEndian, List.range_succ, List.range_zero, List.nil_append, List.cons_append,
    List.map_cons, List.map_nil, hfirst, hbyte 1 8 rfl, hbyte 2 16 rfl, hbyte 3 24 rfl]

theorem bigEndian_word (word : UInt32) : bigEndian 4 word.toNat =
    [(word >>> 24).toUInt8, (word >>> 16).toUInt8, (word >>> 8).toUInt8, word.toUInt8] := by
  rw [bigEndian, littleEndian_word]
  rfl

/-- A number below the place of another. -/
theorem or_eq_add {low high shift : ℕ} (hlow : low < 2 ^ shift) :
    low ||| high * 2 ^ shift = high * 2 ^ shift + low := by
  rw [Nat.or_comm, ← Nat.shiftLeft_eq, ← Nat.shiftLeft_add_eq_or_of_lt hlow]

/-- The four bytes put in their places. -/
theorem ofLittleEndian_word (first second third fourth : UInt8) :
    UInt32.ofNat (ofLittleEndian [first, second, third, fourth]) =
      first.toUInt32 ||| second.toUInt32 <<< 8 ||| third.toUInt32 <<< 16 |||
        fourth.toUInt32 <<< 24 := by
  have hfirst := first.toNat_lt
  have hsecond := second.toNat_lt
  have hthird := third.toNat_lt
  have hfourth := fourth.toNat_lt
  apply UInt32.toNat_inj.mp
  have hshift (byte : UInt8) (shift : UInt32) (hshift : shift.toNat ≤ 24) :
      (byte.toUInt32 <<< shift).toNat = byte.toNat * 2 ^ shift.toNat := by
    have hbyte := byte.toNat_lt
    have hpow : 2 ^ shift.toNat ≤ 2 ^ 24 := Nat.pow_le_pow_right (by omega) hshift
    rw [UInt32.toNat_shiftLeft, UInt8.toNat_toUInt32, Nat.shiftLeft_eq,
      Nat.mod_eq_of_lt (show shift.toNat < 32 by omega), Nat.mod_eq_of_lt]
    calc byte.toNat * 2 ^ shift.toNat < 2 ^ 8 * 2 ^ shift.toNat :=
          Nat.mul_lt_mul_of_pos_right hbyte (by positivity)
      _ ≤ 2 ^ 8 * 2 ^ 24 := Nat.mul_le_mul_left _ hpow
      _ = 2 ^ 32 := by norm_num
  simp only [UInt32.toNat_or, hshift second 8 (by decide), hshift third 16 (by decide),
    hshift fourth 24 (by decide), UInt8.toNat_toUInt32, UInt32.toNat_ofNat']
  change _ = ((first.toNat ||| second.toNat * 2 ^ 8) ||| third.toNat * 2 ^ 16) |||
    fourth.toNat * 2 ^ 24
  have hlow : first.toNat ||| second.toNat * 2 ^ 8 = second.toNat * 2 ^ 8 + first.toNat :=
    or_eq_add hfirst
  have hmiddle : second.toNat * 2 ^ 8 + first.toNat ||| third.toNat * 2 ^ 16 =
      third.toNat * 2 ^ 16 + (second.toNat * 2 ^ 8 + first.toNat) := or_eq_add (by omega)
  rw [hlow, hmiddle, or_eq_add (by omega)]
  simp only [ofLittleEndian, List.map_cons, List.map_nil, Nat.ofDigits_cons, Nat.ofDigits_nil]
  omega

theorem ofBigEndian_word (first second third fourth : UInt8) :
    UInt32.ofNat (ofBigEndian [first, second, third, fourth]) =
      fourth.toUInt32 ||| third.toUInt32 <<< 8 ||| second.toUInt32 <<< 16 |||
        first.toUInt32 <<< 24 :=
  ofLittleEndian_word fourth third second first

/-! ## Bits -/

def rotateLeft (word count : UInt32) : UInt32 := word <<< count ||| word >>> (32 - count)

/-- Of two words, the bits that a third one selects. -/
def select (x y z : UInt32) : UInt32 := x &&& y ||| ~~~x &&& z

theorem eq_of_bits {first second : UInt32}
    (h : ∀ (k : ℕ) (hk : k < 32), first.toBitVec[k] = second.toBitVec[k]) : first = second :=
  UInt32.eq_of_toBitVec_eq (BitVec.eq_of_getElem_eq h)

theorem xor_and_xor (x y z : UInt32) : z ^^^ (x &&& (y ^^^ z)) = select x y z := by
  apply eq_of_bits
  intro k hk
  simp only [select, UInt32.toBitVec_xor, UInt32.toBitVec_and, UInt32.toBitVec_or,
    UInt32.toBitVec_not, BitVec.getElem_xor, BitVec.getElem_and, BitVec.getElem_or,
    BitVec.getElem_not]
  cases x.toBitVec[k] <;> cases z.toBitVec[k] <;> simp

theorem and_xor_not_and (x y z : UInt32) : x &&& y ^^^ ~~~x &&& z = select x y z := by
  apply eq_of_bits
  intro k hk
  simp only [select, UInt32.toBitVec_xor, UInt32.toBitVec_and, UInt32.toBitVec_or,
    UInt32.toBitVec_not, BitVec.getElem_xor, BitVec.getElem_and, BitVec.getElem_or,
    BitVec.getElem_not]
  cases x.toBitVec[k] <;> simp

/-- The bits that most of three words have. -/
theorem and_or_and_or (x y z : UInt32) :
    x &&& y ||| z &&& (x ||| y) = x &&& y ^^^ x &&& z ^^^ y &&& z := by
  apply eq_of_bits
  intro k hk
  simp only [UInt32.toBitVec_xor, UInt32.toBitVec_and, UInt32.toBitVec_or,
    BitVec.getElem_xor, BitVec.getElem_and, BitVec.getElem_or]
  cases x.toBitVec[k] <;> cases y.toBitVec[k] <;> simp

theorem and_allOnes (word : UInt32) : word &&& 0xffffffff = word :=
  UInt32.eq_of_toBitVec_eq BitVec.and_allOnes

end Words

end Tgvisd
