import Tgvisd.Lib.Block
import Tgvisd.Lib.Sha1

/-!
# `sha1_php.c`

The context keeps the state of the hash, the number of bits of the message so far, and a buffer for
a block that is not complete. The eighty words of a block are made in an array of sixteen.
Functions have no result where they would read or write outside a buffer, or read what was never
written.
-/

namespace Tgvisd.PhpSha1

open Sha1 (State)

/-- `PHP_SHA1_CTX`, with `count[0]` and `count[1]`. -/
structure Ctx where
  state : State
  count0 : UInt32
  count1 : UInt32
  buffer : Block UInt8

/-! ## `SHA1Transform` -/

def F (x y z : UInt32) : UInt32 := z ^^^ (x &&& (y ^^^ z))

def G (x y z : UInt32) : UInt32 := x ^^^ y ^^^ z

def H (x y z : UInt32) : UInt32 := x &&& y ||| z &&& (x ||| y)

def I (x y z : UInt32) : UInt32 := x ^^^ y ^^^ z

/-- `ROTATE_LEFT` -/
def rotateLeft (x n : UInt32) : UInt32 := x <<< n ||| x >>> (32 - n)

/-- `W(i)`: the word, and the array with it. -/
def W (x : List UInt32) (i : ℕ) : UInt32 × List UInt32 :=
  let tmp := x.getD ((i - 3) &&& 15) 0 ^^^ x.getD ((i - 8) &&& 15) 0 ^^^
    x.getD ((i - 14) &&& 15) 0 ^^^ x.getD (i &&& 15) 0
  (rotateLeft tmp 1, x.set (i &&& 15) (rotateLeft tmp 1))

/-- The last argument of line `i`: `x[i]`, then `W(i)`. -/
def word (x : List UInt32) (i : ℕ) : UInt32 × List UInt32 :=
  if i < 16 then (x.getD i 0, x) else W x i

/-- What `FF`, `GG`, `HH` and `II` do: the values that `e` and `b` get. -/
def transformation (f : UInt32 → UInt32 → UInt32 → UInt32) (t a b c d e w : UInt32) :
    UInt32 × UInt32 :=
  let e := e + (f b c d + w + t)
  let e := e + rotateLeft a 5
  let b := rotateLeft b 30
  (e, b)

def FF : UInt32 → UInt32 → UInt32 → UInt32 → UInt32 → UInt32 → UInt32 × UInt32 :=
  transformation F 0x5a827999

def GG : UInt32 → UInt32 → UInt32 → UInt32 → UInt32 → UInt32 → UInt32 × UInt32 :=
  transformation G 0x6ed9eba1

def HH : UInt32 → UInt32 → UInt32 → UInt32 → UInt32 → UInt32 → UInt32 × UInt32 :=
  transformation H 0x8f1bbcdc

def II : UInt32 → UInt32 → UInt32 → UInt32 → UInt32 → UInt32 → UInt32 × UInt32 :=
  transformation I 0xca62c1d6

/-- Five lines from line `i` on, after which the variables stand in the first order again. -/
def lines (ff : UInt32 → UInt32 → UInt32 → UInt32 → UInt32 → UInt32 → UInt32 × UInt32)
    (vars : State × List UInt32) (i : ℕ) : State × List UInt32 :=
  let (⟨a, b, c, d, e⟩, x) := vars
  let (w, x) := word x i
  let (e, b) := ff a b c d e w
  let (w, x) := word x (i + 1)
  let (d, a) := ff e a b c d w
  let (w, x) := word x (i + 2)
  let (c, e) := ff d e a b c w
  let (w, x) := word x (i + 3)
  let (b, d) := ff c d e a b w
  let (w, x) := word x (i + 4)
  let (a, c) := ff b c d e a w
  (⟨a, b, c, d, e⟩, x)

/-- `SHA1Decode`, for the sixteen words of a block. -/
def decode (input : List UInt8) : List UInt32 :=
  (List.range 16).map fun i ↦
    (input.getD (i * 4 + 3) 0).toUInt32 ||| (input.getD (i * 4 + 2) 0).toUInt32 <<< 8 |||
      (input.getD (i * 4 + 1) 0).toUInt32 <<< 16 ||| (input.getD (i * 4) 0).toUInt32 <<< 24

/-- The four rounds. -/
def rounds (state : State) (block : List UInt8) : State × List UInt32 :=
  let vars := (state, decode block)
  let vars := [0, 5, 10, 15].foldl (lines FF) vars
  let vars := [20, 25, 30, 35].foldl (lines GG) vars
  let vars := [40, 45, 50, 55].foldl (lines HH) vars
  [60, 65, 70, 75].foldl (lines II) vars

def transform (state : State) (block : List UInt8) : Option State :=
  if block.length < 64 then none
  else
    let (next, _) := rounds state block
    some ⟨state.a + next.a, state.b + next.b, state.c + next.c, state.d + next.d, state.e + next.e⟩

/-- A word of `SHA1Encode`. -/
def bytes (word : UInt32) : List UInt8 :=
  [(word >>> 24).toUInt8, (word >>> 16).toUInt8, (word >>> 8).toUInt8, word.toUInt8]

/-- The loop of `PHP_SHA1Update`, with at most `turns` turns. Its index has 32 bits. -/
def transformBlocks : ℕ → State → List UInt8 → UInt32 → Option (State × UInt32)
  | 0, _, _, _ => none
  | turns + 1, state, input, i => do
    if (i + 63).toNat < input.length then
      transformBlocks turns (← transform state (input.drop i.toNat)) input (i + 64)
    else
      return (state, i)

namespace Ctx

/-! ## The public functions -/

/-- `PHP_SHA1Init`, which leaves the buffer as it was. -/
def init (buffer : Block UInt8) : Ctx where
  count0 := 0
  count1 := 0
  state := ⟨0x67452301, 0xefcdab89, 0x98badcfe, 0x10325476, 0xc3d2e1f0⟩
  buffer := buffer

/-- `index`: the number of bytes modulo 64. -/
def index (ctx : Ctx) : UInt32 := (ctx.count0 >>> 3) &&& 0x3f

/-- `PHP_SHA1Update` -/
def update (ctx : Ctx) (input : List UInt8) : Option Ctx := do
  let index := ctx.index
  let inputLen := UInt32.ofNat input.length
  let count0 := ctx.count0 + inputLen <<< 3
  let count1 := if count0 < inputLen <<< 3 then ctx.count1 + 1 else ctx.count1
  let count1 := count1 + inputLen >>> 29
  let partLen := 64 - index
  if partLen.toNat ≤ input.length then
    let buffer ← ctx.buffer.storeAll index.toNat (input.take partLen.toNat)
    let state ← transform ctx.state (← buffer.loadAll 0 64)
    let (state, i) ← transformBlocks input.length state input partLen
    let buffer ← buffer.storeAll 0 (input.drop i.toNat)
    return { count0, count1, state, buffer }
  else
    let buffer ← ctx.buffer.storeAll index.toNat input
    return { ctx with count0, count1, buffer }

/-- `PADDING` -/
def padding : List UInt8 := 0x80 :: List.replicate 63 0

/-- `PHP_SHA1Final` -/
def final (ctx : Ctx) : Option (List UInt8) := do
  let bits := bytes ctx.count1 ++ bytes ctx.count0
  let index := ctx.index
  -- At most 64.
  let padLen := if index < 56 then 56 - index else 120 - index
  let ctx ← ctx.update (padding.take padLen.toNat)
  let ctx ← ctx.update bits
  return bytes ctx.state.a ++ bytes ctx.state.b ++ bytes ctx.state.c ++ bytes ctx.state.d ++
    bytes ctx.state.e

end Ctx

/-! ## The rounds -/

theorem F_eq (x y z : UInt32) : F x y z = Sha1.ch x y z := by
  rw [F, Words.xor_and_xor, Sha1.ch, Words.and_xor_not_and]

theorem H_eq (x y z : UInt32) : H x y z = Sha1.maj x y z := Words.and_or_and_or x y z

/-- The array before line `t`: the words of the sixteen lines from there on, while it has them all,
or of the sixteen lines before. -/
structure Window (words : ℕ → UInt32) (t : ℕ) (x : List UInt32) : Prop where
  length : x.length = 16
  getD : ∀ s < max t 16, max t 16 ≤ s + 16 → x.getD (s % 16) 0 = Sha1.schedule words s

theorem window_decode {block : List UInt8} (hblock : 64 ≤ block.length) :
    Window (Sha1.wordAt (block.take 64)) 0 (decode block) where
  length := by simp [decode]
  getD := by
    intro s hs _
    have hlt : s < 16 := by simpa using hs
    have hget (k : ℕ) (hk : k < 4) : block.getD (s * 4 + k) 0 = block[s * 4 + k] :=
      List.getD_eq_getElem _ _ (by omega)
    have hbytes : ((block.take 64).drop (4 * s)).take 4 =
        [block[s * 4], block[s * 4 + 1], block[s * 4 + 2], block[s * 4 + 3]] := by
      rw [List.drop_take, List.take_take, Nat.min_eq_left (by omega), mul_comm 4 s]
      rw [List.drop_eq_getElem_cons (by omega), List.drop_eq_getElem_cons (by omega),
        List.drop_eq_getElem_cons (by omega), List.drop_eq_getElem_cons (by omega)]
      rfl
    rw [Nat.mod_eq_of_lt hlt, Sha1.schedule_of_lt hlt, Sha1.wordAt, hbytes, Words.ofBigEndian_word,
      decode, List.getD_eq_getElem _ _ (by simpa using hlt), List.getElem_map, List.getElem_range]
    rw [hget 1 (by omega), hget 2 (by omega), hget 3 (by omega),
      List.getD_eq_getElem _ _ (by omega)]

theorem and_fifteen (n : ℕ) : n &&& 15 = n % 16 := Nat.and_two_pow_sub_one_eq_mod n 4

/-- The word of line `t` takes the place of the word of line `t - 16`. -/
theorem Window.word {words : ℕ → UInt32} {t : ℕ} {x : List UInt32} (h : Window words t x) :
    (word x t).1 = Sha1.schedule words t ∧ Window words (t + 1) (word x t).2 := by
  unfold PhpSha1.word
  by_cases hfirst : t < 16
  · rw [if_pos hfirst]
    have hmax : max (t + 1) 16 = max t 16 := by omega
    have hget := h.getD t (by omega) (by omega)
    rw [Nat.mod_eq_of_lt hfirst] at hget
    exact ⟨hget, h.length, by simpa only [hmax] using h.getD⟩
  · rw [if_neg hfirst]
    have hold (back : ℕ) (hback : back < 16) (hpos : 0 < back) :
        x.getD ((t - back) % 16) 0 = Sha1.schedule words (t - back) :=
      h.getD (t - back) (by omega) (by omega)
    have hlast : x.getD (t % 16) 0 = Sha1.schedule words (t - 16) := by
      rw [Nat.mod_eq_sub_mod (by omega)]
      exact h.getD (t - 16) (by omega) (by omega)
    have hnew : rotateLeft (x.getD ((t - 3) &&& 15) 0 ^^^ x.getD ((t - 8) &&& 15) 0 ^^^
        x.getD ((t - 14) &&& 15) 0 ^^^ x.getD (t &&& 15) 0) 1 = Sha1.schedule words t := by
      simp only [and_fifteen]
      rw [hold 3 (by decide) (by decide), hold 8 (by decide) (by decide),
        hold 14 (by decide) (by decide), hlast,
        Sha1.schedule_of_le (show 16 ≤ t by omega)]
      rfl
    simp only [W, hnew]
    refine ⟨trivial, by simpa using h.length, ?_⟩
    intro s hs hrecent
    rw [and_fifteen]
    obtain hsame | hother : s = t ∨ s < t ∧ t ≤ s + 15 := by omega
    · rw [hsame, List.getD_eq_getElem _ _ (by rw [List.length_set, h.length]; omega),
        List.getElem_set_self]
    · have hplace : t % 16 ≠ s % 16 := by omega
      have hget := h.getD s (by omega) (by omega)
      rwa [List.getD_eq_getElem?_getD, List.getElem?_set_ne hplace, ← List.getD_eq_getElem?_getD]

/-- A line, for variables whose order changes instead of the arguments'. -/
def line (f : UInt32 → UInt32 → UInt32 → UInt32) (k : UInt32) (vars : State × List UInt32)
    (t : ℕ) : State × List UInt32 :=
  let (s, x) := vars
  let (w, x) := word x t
  let (e, b) := transformation f k s.a s.b s.c s.d s.e w
  (⟨e, s.a, b, s.c, s.d⟩, x)

theorem lines_eq (f : UInt32 → UInt32 → UInt32 → UInt32) (k : UInt32)
    (vars : State × List UInt32) (i : ℕ) :
    lines (transformation f k) vars i = (List.range' i 5).foldl (line f k) vars := rfl

/-- A round has one function and one constant. -/
theorem round_eq {first t : ℕ} (hfirst : first % 20 = 0) (hle : first ≤ t) (hlt : t < first + 20) :
    Sha1.auxiliary t = Sha1.auxiliary first ∧ Sha1.constant t = Sha1.constant first := by
  have hround : t / 20 = first / 20 := by omega
  unfold Sha1.auxiliary Sha1.constant
  rw [hround]
  exact ⟨rfl, rfl⟩

section

variable {words : ℕ → UInt32} {f : UInt32 → UInt32 → UInt32 → UInt32} {k : UInt32} {t : ℕ}
  {vars : State × List UInt32}

/-- A line is a step. -/
theorem Window.line (h : Window words t vars.2) (hf : Sha1.auxiliary t = f)
    (hk : Sha1.constant t = k) :
    (line f k vars t).1 = Sha1.step words vars.1 t ∧ Window words (t + 1) (line f k vars t).2 := by
  obtain ⟨hword, hnext⟩ := h.word
  refine ⟨?_, hnext⟩
  subst hf hk
  simp only [PhpSha1.line, transformation, hword, Sha1.step, State.mk.injEq, and_true, true_and]
  exact ⟨by rw [rotateLeft, Words.rotateLeft]; ac_rfl, rfl⟩

/-- By induction on the lines: in a round, they are steps. -/
theorem Window.lines {count : ℕ} (h : Window words t vars.2)
    (hround : ∀ s, t ≤ s → s < t + count → Sha1.auxiliary s = f ∧ Sha1.constant s = k) :
    ((List.range' t count).foldl (PhpSha1.line f k) vars).1 =
        (List.range' t count).foldl (Sha1.step words) vars.1 ∧
      Window words (t + count) ((List.range' t count).foldl (PhpSha1.line f k) vars).2 := by
  induction count generalizing t vars with
  | zero => exact ⟨rfl, h⟩
  | succ count ih =>
    obtain ⟨hf, hk⟩ := hround t le_rfl (by omega)
    obtain ⟨hstep, hnext⟩ := h.line hf hk
    obtain ⟨hrest, hlast⟩ := ih hnext fun s hle hlt ↦ hround s (by omega) (by omega)
    rw [List.range'_succ, List.foldl_cons, List.foldl_cons, ← hstep]
    rw [add_right_comm] at hlast
    exact ⟨hrest, hlast⟩

theorem Window.round (first : ℕ) (hfirst : first % 20 = 0) (h : Window words first vars.2)
    (hf : Sha1.auxiliary first = f) (hk : Sha1.constant first = k) :
    let next := [first, first + 5, first + 10, first + 15].foldl
      (PhpSha1.lines (transformation f k)) vars
    next.1 = (List.range' first 20).foldl (Sha1.step words) vars.1 ∧
      Window words (first + 20) next.2 := by
  have hrange : List.range' first 20 = List.range' first 5 ++ List.range' (first + 5) 5 ++
      List.range' (first + 10) 5 ++ List.range' (first + 15) 5 := rfl
  have hlines : [first, first + 5, first + 10, first + 15].foldl
      (PhpSha1.lines (transformation f k)) vars =
        (List.range' first 20).foldl (PhpSha1.line f k) vars := by
    simp only [hrange, List.foldl_append, List.foldl_cons, List.foldl_nil, lines_eq]
  dsimp only
  rw [hlines]
  exact h.lines fun s hle hlt ↦ hf ▸ hk ▸ round_eq hfirst hle hlt

end

theorem rounds_eq {block : List UInt8} (hblock : 64 ≤ block.length) (state : State) :
    (rounds state block).1 =
      (List.range 80).foldl (Sha1.step (Sha1.wordAt (block.take 64))) state := by
  have hrange : List.range 80 = List.range' 0 20 ++ (List.range' 20 20 ++ (List.range' 40 20 ++
      List.range' 60 20)) := by decide
  have hdecode : Window (Sha1.wordAt (block.take 64)) 0 (state, decode block).2 :=
    window_decode hblock
  obtain ⟨h1, hx1⟩ := hdecode.round (f := F) (k := 0x5a827999) 0 rfl (funext₃ F_eq).symm rfl
  obtain ⟨h2, hx2⟩ := hx1.round (f := G) (k := 0x6ed9eba1) 20 rfl rfl rfl
  obtain ⟨h3, hx3⟩ := hx2.round (f := H) (k := 0x8f1bbcdc) 40 rfl (funext₃ H_eq).symm rfl
  obtain ⟨h4, -⟩ := hx3.round (f := I) (k := 0xca62c1d6) 60 rfl rfl rfl
  rw [h3, h2, h1, ← List.foldl_append, ← List.foldl_append, ← List.foldl_append, ← hrange] at h4
  exact h4

theorem transform_eq {block : List UInt8} (hblock : 64 ≤ block.length) (state : State) :
    transform state block = some (Sha1.compress state (block.take 64)) := by
  rw [transform, if_neg (by omega), Sha1.compress, ← rounds_eq hblock, Sha1.add]

/-- The index does not wrap around, since the length of the input is well below `2 ^ 32`. -/
theorem transformBlocks_eq {input : List UInt8} (hinput : input.length + 63 < 2 ^ 32) {turns : ℕ}
    (state : State) {i : UInt32} (hi : i.toNat ≤ input.length)
    (hturns : input.length < i.toNat + turns) :
    ∃ j, transformBlocks turns state input i =
        some ((Sha1.hash.absorb state (input.drop i.toNat)).1, j) ∧
      input.drop j.toNat = (Sha1.hash.absorb state (input.drop i.toNat)).2 := by
  induction turns generalizing state i with
  | zero => omega
  | succ turns ih =>
    have hguard : (i + 63).toNat = i.toNat + 63 := by
      rw [UInt32.toNat_add]
      exact Nat.mod_eq_of_lt (by change i.toNat + 63 < 2 ^ 32; omega)
    rw [transformBlocks, hguard]
    by_cases hlong : i.toNat + 63 < input.length
    · have hnext : (i + 64).toNat = i.toNat + 64 := by
        rw [UInt32.toNat_add]
        exact Nat.mod_eq_of_lt (by change i.toNat + 64 < 2 ^ 32; omega)
      have hblock : 64 ≤ (input.drop i.toNat).length := by
        rw [List.length_drop]
        omega
      obtain ⟨j, hblocks, hrest⟩ := ih (Sha1.compress state ((input.drop i.toNat).take 64))
        (i := i + 64) (by omega) (by omega)
      have habsorb : Sha1.hash.absorb state (input.drop i.toNat) =
          Sha1.hash.absorb (Sha1.compress state ((input.drop i.toNat).take 64))
            (input.drop (i + 64).toNat) := by
        rw [hnext, ← List.drop_drop]
        exact BlockHash.absorb_of_le hblock
      rw [if_pos hlong, transform_eq hblock, habsorb]
      exact ⟨j, hblocks, hrest⟩
    · have hshort : (input.drop i.toNat).length < Sha1.hash.size := by
        change _ < 64
        rw [List.length_drop]
        omega
      rw [if_neg hlong, BlockHash.absorb_of_lt hshort]
      exact ⟨i, rfl, rfl⟩

/-! ## The context -/

/-- The context after a message. -/
structure Ctx.Holds (ctx : Ctx) (message : List UInt8) : Prop where
  count : ctx.count0.toNat + 2 ^ 32 * ctx.count1.toNat = 8 * message.length % 2 ^ 64
  state : ctx.state = (Sha1.hash.absorb Sha1.hash.initial message).1
  size : ctx.buffer.size = 64
  begins : ctx.buffer.Begins (Sha1.hash.absorb Sha1.hash.initial message).2

section

variable {ctx : Ctx} {message input : List UInt8}

theorem Ctx.holds_init {buffer : Block UInt8} (hsize : buffer.size = 64) :
    (Ctx.init buffer).Holds [] := by
  have habsorb : Sha1.hash.absorb Sha1.hash.initial [] = (Sha1.hash.initial, []) :=
    BlockHash.absorb_of_lt (by decide)
  exact ⟨rfl, by rw [habsorb]; rfl, hsize, by rw [habsorb]; exact Block.begins_nil _⟩

theorem Ctx.Holds.index (h : ctx.Holds message) :
    ctx.index.toNat = message.length % 64 := by
  have hmask : ctx.index.toNat = ctx.count0.toNat / 2 ^ 3 % 2 ^ 6 := by
    rw [Ctx.index, UInt32.toNat_and, UInt32.toNat_shiftRight, Nat.shiftRight_eq_div_pow]
    exact Nat.and_two_pow_sub_one_eq_mod _ 6
  have hcount := h.count
  rw [hmask]
  omega

/-- The number of bits is counted in two words. -/
theorem Ctx.Holds.next_count (h : ctx.Holds message) {length : ℕ} (hlength : length < 2 ^ 32) :
    let count0 := ctx.count0 + UInt32.ofNat length <<< 3
    let count1 := (if count0 < UInt32.ofNat length <<< 3 then ctx.count1 + 1 else ctx.count1) +
      UInt32.ofNat length >>> 29
    count0.toNat + 2 ^ 32 * count1.toNat = 8 * (message.length + length) % 2 ^ 64 := by
  have hcount := h.count
  have hcount0 := ctx.count0.toNat_lt
  have hcount1 := ctx.count1.toNat_lt
  have hword : (UInt32.ofNat length).toNat = length := by
    rw [UInt32.toNat_ofNat']
    exact Nat.mod_eq_of_lt hlength
  have hlow : (UInt32.ofNat length <<< 3).toNat = 8 * length % 2 ^ 32 := by
    rw [UInt32.toNat_shiftLeft, hword, Nat.shiftLeft_eq, mul_comm]
    rfl
  have hhigh : (UInt32.ofNat length >>> 29).toNat = length / 2 ^ 29 := by
    rw [UInt32.toNat_shiftRight, hword, Nat.shiftRight_eq_div_pow]
    rfl
  have hsum : (ctx.count0 + UInt32.ofNat length <<< 3).toNat =
      (ctx.count0.toNat + 8 * length % 2 ^ 32) % 2 ^ 32 := by
    rw [UInt32.toNat_add, hlow]
  dsimp only
  rw [hsum, UInt32.toNat_add, hhigh]
  by_cases hcarry : ctx.count0 + UInt32.ofNat length <<< 3 < UInt32.ofNat length <<< 3
  · rw [if_pos hcarry, UInt32.toNat_add, UInt32.toNat_one]
    rw [UInt32.lt_iff_toNat_lt, hlow, hsum] at hcarry
    omega
  · rw [if_neg hcarry]
    rw [UInt32.lt_iff_toNat_lt, hlow, hsum] at hcarry
    omega

/-- Whatever the pieces are, if they are short enough for the index: after each of them the context
is that of the message so far. -/
theorem Ctx.Holds.update (h : ctx.Holds message) (hinput : input.length + 63 < 2 ^ 32) :
    ∃ next, ctx.update input = some next ∧ next.Holds (message ++ input) := by
  have hcount := h.next_count (show input.length < 2 ^ 32 by omega)
  have hlength := BlockHash.length_absorb Sha1.hash Sha1.hash.initial message
  have happend := BlockHash.absorb_append Sha1.hash Sha1.hash.initial message input
  have hindex := h.index
  change _ = message.length % 64 at hlength
  rw [← hlength] at hindex
  have hlt := BlockHash.length_absorb_lt Sha1.hash Sha1.hash.initial message
  change _ < 64 at hlt
  have hpart : (64 - ctx.index).toNat =
      64 - (Sha1.hash.absorb Sha1.hash.initial message).2.length := by
    have hle : ctx.index ≤ 64 := by
      rw [UInt32.le_iff_toNat_le, hindex]
      exact hlt.le
    rw [UInt32.toNat_sub_of_le _ _ hle, hindex]
    rfl
  rw [← List.length_append] at hcount
  unfold Ctx.update
  simp only [hindex, hpart, Option.bind_eq_bind, Option.pure_def]
  have hbegins := h.begins
  generalize (Sha1.hash.absorb Sha1.hash.initial message).2 = pending at *
  by_cases hshort : input.length < 64 - pending.length
  · obtain ⟨buffer, hstore, hnext, hsize⟩ := hbegins.storeAll input (by rw [h.size]; omega)
    have habsorb : Sha1.hash.absorb Sha1.hash.initial (message ++ input) =
        (ctx.state, pending ++ input) := by
      rw [happend, BlockHash.absorb_of_lt, h.state]
      change _ < 64
      rw [List.length_append]
      omega
    rw [if_neg (by omega), hstore]
    exact ⟨_, rfl, hcount, by rw [habsorb], hsize.trans h.size, by rw [habsorb]; exact hnext⟩
  · have htake : (input.take (64 - pending.length)).length = 64 - pending.length := by
      rw [List.length_take]
      omega
    obtain ⟨buffer, hstore, ⟨back, hcells⟩, hsize⟩ := hbegins.storeAll
      (input.take (64 - pending.length)) (by rw [h.size, htake]; omega)
    obtain ⟨block, hblockEq⟩ : ∃ block, block = pending ++ input.take (64 - pending.length) :=
      ⟨_, rfl⟩
    rw [← hblockEq] at hcells
    have hblock : block.length = 64 := by
      rw [hblockEq, List.length_append, htake]
      omega
    have hload : buffer.loadAll 0 64 = some block := by
      have hload := Block.loadAll_eq back
        (show buffer.cells = [] ++ block.map some ++ back by simpa using hcells)
      rwa [hblock] at hload
    have habsorb : Sha1.hash.absorb Sha1.hash.initial (message ++ input) =
        Sha1.hash.absorb (Sha1.compress ctx.state block)
          (input.drop (64 - ctx.index).toNat) := by
      rw [happend, ← h.state, hpart]
      nth_rewrite 1 [← List.take_append_drop (64 - pending.length) input]
      rw [← List.append_assoc, ← hblockEq]
      exact BlockHash.absorb_block hblock
    obtain ⟨j, hblocks, hrest⟩ := transformBlocks_eq hinput (Sha1.compress ctx.state block)
      (i := 64 - ctx.index) (by omega)
      (show input.length < (64 - ctx.index).toNat + input.length by omega)
    rw [← habsorb] at hblocks hrest
    have hfits := BlockHash.length_absorb_lt Sha1.hash Sha1.hash.initial (message ++ input)
    change _ < 64 at hfits
    obtain ⟨last, hlast, hkept, hlastSize⟩ := (Block.begins_nil buffer).storeAll
      (input.drop j.toNat) (by rw [hrest, hsize, h.size, List.length_nil]; omega)
    rw [if_pos (by omega), hstore, Option.bind_some, hload, Option.bind_some,
      transform_eq (by omega), List.take_of_length_le (by omega), Option.bind_some, hblocks,
      Option.bind_some]
    rw [List.nil_append, hrest] at hkept
    rw [List.length_nil] at hlast
    dsimp only
    rw [hlast]
    exact ⟨_, rfl, hcount, rfl, hlastSize.trans (hsize.trans h.size), hkept⟩

/-! ## The end of the message -/

theorem bytes_eq (word : UInt32) : bytes word = Words.bigEndian 4 word.toNat :=
  (Words.bigEndian_word word).symm

theorem Ctx.Holds.lengthBytes (h : ctx.Holds message) :
    bytes ctx.count1 ++ bytes ctx.count0 = Words.bigEndian 8 (8 * message.length) := by
  have hcount := h.count
  have hcount0 := ctx.count0.toNat_lt
  have hcount1 := ctx.count1.toNat_lt
  have hlow : ctx.count0.toNat = 8 * message.length % 256 ^ 4 := by omega
  have hhigh : ctx.count1.toNat = 8 * message.length / 256 ^ 4 % 256 ^ 4 := by omega
  rw [bytes_eq, bytes_eq, hlow, hhigh, Words.bigEndian_mod, Words.bigEndian_mod,
    ← Words.bigEndian_add]

theorem Ctx.Holds.padLen (h : ctx.Holds message) :
    (if ctx.index < 56 then 56 - ctx.index else 120 - ctx.index).toNat =
      (119 - message.length % 64) % 64 + 1 := by
  have hindex := h.index
  by_cases hfirst : ctx.index < 56
  · have hlt : ctx.index.toNat < 56 := hfirst
    rw [if_pos hfirst, UInt32.toNat_sub_of_le _ _ (UInt32.le_of_lt hfirst)]
    change 56 - ctx.index.toNat = _
    omega
  · have hge : 56 ≤ ctx.index.toNat := UInt32.not_lt.mp hfirst
    have hle : ctx.index ≤ 120 := by
      rw [UInt32.le_iff_toNat_le]
      change ctx.index.toNat ≤ 120
      omega
    rw [if_neg hfirst, UInt32.toNat_sub_of_le _ _ hle]
    change 120 - ctx.index.toNat = _
    omega

theorem Ctx.Holds.padding (h : ctx.Holds message) :
    padding.take (if ctx.index < 56 then 56 - ctx.index else 120 - ctx.index).toNat ++
      (bytes ctx.count1 ++ bytes ctx.count0) = Sha1.padding message.length := by
  rw [h.padLen, h.lengthBytes, Ctx.padding, List.take_succ_cons, List.take_replicate,
    Nat.min_eq_left (by omega), Sha1.padding, List.cons_append]

/-- The padding and the length are two more pieces. -/
theorem Ctx.Holds.final (h : ctx.Holds message) : ctx.final = some (Sha1.digest message) := by
  have hpadding := h.padding
  have hbitsLength : (bytes ctx.count1 ++ bytes ctx.count0).length = 8 := rfl
  obtain ⟨padded, hpad, hpadded⟩ := h.update (show (Ctx.padding.take
      (if ctx.index < 56 then 56 - ctx.index else 120 - ctx.index).toNat).length + 63 < 2 ^ 32 by
    rw [List.length_take, h.padLen]
    omega)
  obtain ⟨last, hbits, hlast⟩ := hpadded.update
    (show (bytes ctx.count1 ++ bytes ctx.count0).length + 63 < 2 ^ 32 by omega)
  rw [List.append_assoc, hpadding] at hlast
  have hstate : last.state = Sha1.hash.final message := hlast.state
  simp only [Ctx.final, hpad, hbits, Option.bind_eq_bind, Option.bind_some, Option.pure_def]
  rw [hstate]
  simp [Sha1.digest, Sha1.output, bytes_eq]

end

/-! ## Whole messages -/

/-- `PHP_SHA1Init`, a `PHP_SHA1Update` for every piece, and `PHP_SHA1Final`. -/
def digest (buffer : Block UInt8) (pieces : List (List UInt8)) : Option (List UInt8) := do
  let ctx ← pieces.foldlM Ctx.update (Ctx.init buffer)
  ctx.final

theorem Ctx.Holds.foldlM {ctx : Ctx} {message : List UInt8} (h : ctx.Holds message)
    {pieces : List (List UInt8)} (hpieces : ∀ piece ∈ pieces, piece.length + 63 < 2 ^ 32) :
    ∃ next, pieces.foldlM Ctx.update ctx = some next ∧ next.Holds (message ++ pieces.flatten) := by
  induction pieces generalizing ctx message with
  | nil => exact ⟨ctx, rfl, by simpa using h⟩
  | cons piece pieces ih =>
    rw [List.forall_mem_cons] at hpieces
    obtain ⟨middle, hupdate, hmiddle⟩ := h.update hpieces.1
    obtain ⟨next, hrest, hnext⟩ := ih hmiddle hpieces.2
    refine ⟨next, ?_, by simpa using hnext⟩
    rw [List.foldlM_cons, hupdate]
    exact hrest

theorem updates_final {buffer : Block UInt8} (hsize : buffer.size = 64)
    {pieces : List (List UInt8)} (hpieces : ∀ piece ∈ pieces, piece.length + 63 < 2 ^ 32) :
    ∃ ctx, pieces.foldlM Ctx.update (Ctx.init buffer) = some ctx ∧
      ctx.final = some (Sha1.digest pieces.flatten) := by
  obtain ⟨ctx, hupdates, hholds⟩ := (Ctx.holds_init hsize).foldlM hpieces
  rw [List.nil_append] at hholds
  exact ⟨ctx, hupdates, hholds.final⟩

/-- However a message comes in pieces that the 32 bits of the index can count: no access is outside
a buffer, and the digest is the SHA-1 of the message. -/
theorem digest_eq_sha1 (buffer : Block UInt8) (hsize : buffer.size = 64)
    (pieces : List (List UInt8)) (hpieces : ∀ piece ∈ pieces, piece.length + 63 < 2 ^ 32) :
    digest buffer pieces = some (Sha1.digest pieces.flatten) := by
  obtain ⟨ctx, hupdates, hfinal⟩ := updates_final hsize hpieces
  rw [digest, hupdates]
  exact hfinal

theorem digest_eq_sha1_abc : (Block.allocate 64 : Block UInt8).size = 64 ∧
    digest (Block.allocate 64) [[0x61], [0x62, 0x63]] = some (Sha1.digest [0x61, 0x62, 0x63]) :=
  ⟨Block.size_allocate 64,
    digest_eq_sha1 _ (Block.size_allocate 64) [[0x61], [0x62, 0x63]] (by decide)⟩

end Tgvisd.PhpSha1
