import Mathlib.Data.List.GetD
import Tgvisd.Lib.Block
import Tgvisd.Lib.Md5

/-!
# `md5_php.c`

The context keeps the state of the hash, the length of the message so far in 29 and 32 bits, and a
buffer for a block that is not complete. Functions have no result where they would read or write
outside a buffer, or read what was never written.
-/

namespace Tgvisd.PhpMd5

open Md5 (Registers)

/-- `PHP_MD5_CTX` without `block`, a copy of the words that the portable reads of a block make. -/
structure Ctx where
  lo : UInt32
  hi : UInt32
  registers : Registers
  buffer : Block UInt8

/-! ## `body` -/

def F (x y z : UInt32) : UInt32 := z ^^^ (x &&& (y ^^^ z))

def G (x y z : UInt32) : UInt32 := y ^^^ (z &&& (x ^^^ y))

def H (x y z : UInt32) : UInt32 := x ^^^ y ^^^ z

def I (x y z : UInt32) : UInt32 := y ^^^ (x ||| ~~~z)

/-- `STEP`: the value that `a` gets. -/
def step (f : UInt32 → UInt32 → UInt32 → UInt32) (a b c d x t s : UInt32) : UInt32 :=
  let a := a + (f b c d + x + t)
  let a := a <<< s ||| (a &&& 0xffffffff) >>> (32 - s)
  a + b

/-- `SET(n)`, and `GET(n)` likewise. -/
def set (ptr : List UInt8) (n : ℕ) : UInt32 :=
  (ptr.getD (n * 4) 0).toUInt32 ||| (ptr.getD (n * 4 + 1) 0).toUInt32 <<< 8 |||
    (ptr.getD (n * 4 + 2) 0).toUInt32 <<< 16 ||| (ptr.getD (n * 4 + 3) 0).toUInt32 <<< 24

/-- The last three arguments of a `STEP`, where the word is given by its number. -/
structure Line where
  n : ℕ
  t : UInt32
  s : UInt32
  deriving DecidableEq, Repr

/-- The lines of a round: the registers are handed to them in the orders `a, b, c, d` and
`d, a, b, c` and `c, d, a, b` and `b, c, d, a`. -/
def round (f : UInt32 → UInt32 → UInt32 → UInt32) (ptr : List UInt8) :
    List Line → Registers → Registers
  | first :: second :: third :: fourth :: lines, ⟨a, b, c, d⟩ =>
    let a := step f a b c d (set ptr first.n) first.t first.s
    let d := step f d a b c (set ptr second.n) second.t second.s
    let c := step f c d a b (set ptr third.n) third.t third.s
    let b := step f b c d a (set ptr fourth.n) fourth.t fourth.s
    round f ptr lines ⟨a, b, c, d⟩
  | _, registers => registers

def round1 : List Line :=
  [⟨0, 0xd76aa478, 7⟩, ⟨1, 0xe8c7b756, 12⟩, ⟨2, 0x242070db, 17⟩, ⟨3, 0xc1bdceee, 22⟩,
    ⟨4, 0xf57c0faf, 7⟩, ⟨5, 0x4787c62a, 12⟩, ⟨6, 0xa8304613, 17⟩, ⟨7, 0xfd469501, 22⟩,
    ⟨8, 0x698098d8, 7⟩, ⟨9, 0x8b44f7af, 12⟩, ⟨10, 0xffff5bb1, 17⟩, ⟨11, 0x895cd7be, 22⟩,
    ⟨12, 0x6b901122, 7⟩, ⟨13, 0xfd987193, 12⟩, ⟨14, 0xa679438e, 17⟩, ⟨15, 0x49b40821, 22⟩]

def round2 : List Line :=
  [⟨1, 0xf61e2562, 5⟩, ⟨6, 0xc040b340, 9⟩, ⟨11, 0x265e5a51, 14⟩, ⟨0, 0xe9b6c7aa, 20⟩,
    ⟨5, 0xd62f105d, 5⟩, ⟨10, 0x02441453, 9⟩, ⟨15, 0xd8a1e681, 14⟩, ⟨4, 0xe7d3fbc8, 20⟩,
    ⟨9, 0x21e1cde6, 5⟩, ⟨14, 0xc33707d6, 9⟩, ⟨3, 0xf4d50d87, 14⟩, ⟨8, 0x455a14ed, 20⟩,
    ⟨13, 0xa9e3e905, 5⟩, ⟨2, 0xfcefa3f8, 9⟩, ⟨7, 0x676f02d9, 14⟩, ⟨12, 0x8d2a4c8a, 20⟩]

def round3 : List Line :=
  [⟨5, 0xfffa3942, 4⟩, ⟨8, 0x8771f681, 11⟩, ⟨11, 0x6d9d6122, 16⟩, ⟨14, 0xfde5380c, 23⟩,
    ⟨1, 0xa4beea44, 4⟩, ⟨4, 0x4bdecfa9, 11⟩, ⟨7, 0xf6bb4b60, 16⟩, ⟨10, 0xbebfbc70, 23⟩,
    ⟨13, 0x289b7ec6, 4⟩, ⟨0, 0xeaa127fa, 11⟩, ⟨3, 0xd4ef3085, 16⟩, ⟨6, 0x04881d05, 23⟩,
    ⟨9, 0xd9d4d039, 4⟩, ⟨12, 0xe6db99e5, 11⟩, ⟨15, 0x1fa27cf8, 16⟩, ⟨2, 0xc4ac5665, 23⟩]

def round4 : List Line :=
  [⟨0, 0xf4292244, 6⟩, ⟨7, 0x432aff97, 10⟩, ⟨14, 0xab9423a7, 15⟩, ⟨5, 0xfc93a039, 21⟩,
    ⟨12, 0x655b59c3, 6⟩, ⟨3, 0x8f0ccc92, 10⟩, ⟨10, 0xffeff47d, 15⟩, ⟨1, 0x85845dd1, 21⟩,
    ⟨8, 0x6fa87e4f, 6⟩, ⟨15, 0xfe2ce6e0, 10⟩, ⟨6, 0xa3014314, 15⟩, ⟨13, 0x4e0811a1, 21⟩,
    ⟨4, 0xf7537e82, 6⟩, ⟨11, 0xbd3af235, 10⟩, ⟨2, 0x2ad7d2bb, 15⟩, ⟨9, 0xeb86d391, 21⟩]

/-- One turn of the loop, on the block at `ptr`. -/
def bodyBlock (registers : Registers) (ptr : List UInt8) : Registers :=
  let saved := registers
  let registers := round F ptr round1 registers
  let registers := round G ptr round2 registers
  let registers := round H ptr round3 registers
  let registers := round I ptr round4 registers
  ⟨registers.a + saved.a, registers.b + saved.b, registers.c + saved.c, registers.d + saved.d⟩

/-- The loop, with at most `turns` turns: the registers, and what `ptr` points to in the end. -/
def body : ℕ → Registers → List UInt8 → ℕ → Option (Registers × List UInt8)
  | 0, _, _, _ => none
  | turns + 1, registers, ptr, size =>
    if ptr.length < 64 ∨ size < 64 then none
    else
      let registers := bodyBlock registers ptr
      let ptr := ptr.drop 64
      let size := size - 64
      if size = 0 then some (registers, ptr) else body turns registers ptr size

/-- A register, the low-order byte first. -/
def bytes (word : UInt32) : List UInt8 :=
  [word.toUInt8, (word >>> 8).toUInt8, (word >>> 16).toUInt8, (word >>> 24).toUInt8]

namespace Ctx

/-- `body(ctx, ctx->buffer, 64)` -/
def bodyBuffer (ctx : Ctx) : Option Ctx := do
  let block ← ctx.buffer.loadAll 0 64
  let (registers, _) ← body 64 ctx.registers block 64
  return { ctx with registers }

/-! ## The public functions -/

/-- `PHP_MD5Init`, which leaves the buffer as it was. -/
def init (buffer : Block UInt8) : Ctx where
  registers := ⟨0x67452301, 0xefcdab89, 0x98badcfe, 0x10325476⟩
  lo := 0
  hi := 0
  buffer := buffer

/-- The end of `PHP_MD5Update`: whole blocks are taken from the data, and the rest is kept. -/
def updateBlocks (ctx : Ctx) (data : List UInt8) : Option Ctx := do
  let size := data.length
  let (ctx, data) ←
    if 64 ≤ size then do
      let (registers, data) ← body size ctx.registers data (size - size % 64)
      pure ({ ctx with registers }, data)
    else
      pure (ctx, data)
  return { ctx with buffer := ← ctx.buffer.storeAll 0 data }

/-- `PHP_MD5Update` -/
def update (ctx : Ctx) (data : List UInt8) : Option Ctx := do
  let size := data.length
  let savedLo := ctx.lo
  let lo := UInt32.ofNat ((savedLo.toNat + size) &&& 0x1fffffff)
  let hi := if lo < savedLo then ctx.hi + 1 else ctx.hi
  let hi := hi + UInt32.ofNat (size >>> 29)
  let ctx := { ctx with lo, hi }
  let used := (savedLo &&& 0x3f).toNat
  if used ≠ 0 then
    let free := 64 - used
    if size < free then
      return { ctx with buffer := ← ctx.buffer.storeAll used data }
    else
      let ctx := { ctx with buffer := ← ctx.buffer.storeAll used (data.take free) }
      updateBlocks (← ctx.bodyBuffer) (data.drop free)
  else
    updateBlocks ctx data

/-- The end of `PHP_MD5Final`, from the zeros before the length of the message on. -/
def finish (ctx : Ctx) (used free : ℕ) : Option (List UInt8) := do
  let buffer ← ctx.buffer.storeAll used (List.replicate (free - 8) 0)
  let lo := ctx.lo <<< 3
  let buffer ← buffer.storeAll 56 (bytes lo ++ bytes ctx.hi)
  let ctx ← { ctx with lo, buffer }.bodyBuffer
  return bytes ctx.registers.a ++ bytes ctx.registers.b ++ bytes ctx.registers.c ++
    bytes ctx.registers.d

/-- `PHP_MD5Final` -/
def final (ctx : Ctx) : Option (List UInt8) := do
  let used := (ctx.lo &&& 0x3f).toNat
  let ctx := { ctx with buffer := ← ctx.buffer.store used 0x80 }
  let used := used + 1
  let free := 64 - used
  if free < 8 then
    let ctx := { ctx with buffer := ← ctx.buffer.storeAll used (List.replicate free 0) }
    finish (← ctx.bodyBuffer) 0 64
  else
    finish ctx used free

end Ctx

/-! ## The rounds -/

theorem F_eq (x y z : UInt32) : F x y z = Md5.f x y z := Words.xor_and_xor x y z

theorem G_eq (x y z : UInt32) : G x y z = Md5.g x y z := by
  rw [G, Words.xor_and_xor, Words.select, Md5.g, UInt32.and_comm z x, UInt32.and_comm (~~~z) y]

theorem step_eq (f : UInt32 → UInt32 → UInt32 → UInt32) (a b c d x t s : UInt32) :
    step f a b c d x t s = b + Words.rotateLeft (a + f b c d + x + t) s := by
  simp only [step, Words.and_allOnes, Words.rotateLeft, UInt32.add_assoc, UInt32.add_comm _ b]

theorem set_eq {ptr : List UInt8} {n : ℕ} (hptr : n * 4 + 4 ≤ ptr.length) :
    set ptr n = UInt32.ofNat (Words.ofLittleEndian ((ptr.drop (4 * n)).take 4)) := by
  have hget (k : ℕ) (hk : k < 4) : ptr.getD (n * 4 + k) 0 = ptr[n * 4 + k] :=
    List.getD_eq_getElem _ _ (by omega)
  have hbytes : (ptr.drop (4 * n)).take 4 =
      [ptr[n * 4], ptr[n * 4 + 1], ptr[n * 4 + 2], ptr[n * 4 + 3]] := by
    rw [mul_comm 4 n]
    rw [List.drop_eq_getElem_cons (by omega), List.drop_eq_getElem_cons (by omega),
      List.drop_eq_getElem_cons (by omega), List.drop_eq_getElem_cons (by omega)]
    rfl
  rw [hbytes, Words.ofLittleEndian_word, set]
  rw [hget 1 (by omega), hget 2 (by omega), hget 3 (by omega), List.getD_eq_getElem _ _ (by omega)]

/-- A line, for registers whose orders change instead of the arguments'. -/
def lineStep (f : UInt32 → UInt32 → UInt32 → UInt32) (words : ℕ → UInt32) (r : Registers)
    (line : Line) : Registers where
  a := r.d
  b := step f r.a r.b r.c r.d (words line.n) line.t line.s
  c := r.b
  d := r.c

/-- After four lines the orders are the same again. -/
theorem round_eq (f : UInt32 → UInt32 → UInt32 → UInt32) (ptr : List UInt8) {lines : List Line}
    (hlines : lines.length % 4 = 0) (registers : Registers) :
    round f ptr lines registers = lines.foldl (lineStep f (set ptr)) registers := by
  fun_induction round f ptr lines registers with
  | case1 first second third fourth lines a b c d a' d' c' b' ih =>
    rw [List.length_cons, List.length_cons, List.length_cons, List.length_cons] at hlines
    rw [ih (by omega)]
    rfl
  | case2 lines registers hshort =>
    match lines with
    | [] => rfl
    | [_] | [_, _] | [_, _, _] => simp at hlines
    | first :: second :: third :: fourth :: rest =>
      exact (hshort _ _ _ _ _ _ _ _ _ rfl rfl).elim

/-- The line of a step. -/
def lineOf (t : ℕ) : Line := ⟨Md5.wordIndex t, Md5.constants.getD t 0, Md5.shift t⟩

theorem wordIndex_lt {t : ℕ} (ht : t < 64) : Md5.wordIndex t < 16 := by
  unfold Md5.wordIndex
  split <;> omega

theorem set_wordIndex {ptr : List UInt8} (hptr : 64 ≤ ptr.length) {t : ℕ} (ht : t < 64) :
    set ptr (Md5.wordIndex t) = Md5.wordAt (ptr.take 64) (Md5.wordIndex t) := by
  have hindex := wordIndex_lt ht
  rw [set_eq (by omega), Md5.wordAt, List.drop_take, List.take_take]
  rw [Nat.min_eq_left (show 4 ≤ 64 - 4 * Md5.wordIndex t by omega)]

/-- The sixteen lines of a round are steps. -/
theorem round_steps (f : UInt32 → UInt32 → UInt32 → UInt32) (k : ℕ) (lines : List Line)
    {ptr : List UInt8} (hptr : 64 ≤ ptr.length) (hk : k < 4)
    (hlines : lines = (List.range' (16 * k) 16).map lineOf)
    (hf : ∀ t, t / 16 = k → Md5.auxiliary t = f) (registers : Registers) :
    round f ptr lines registers =
      (List.range' (16 * k) 16).foldl (Md5.step (Md5.wordAt (ptr.take 64))) registers := by
  rw [round_eq f ptr (by simp [hlines]), hlines, List.foldl_map]
  apply List.foldl_ext
  intro r t ht
  have hrange := List.mem_range'_1.mp ht
  have hround : t / 16 = k := by omega
  simp only [lineStep, step_eq, lineOf, Md5.step, hf t hround,
    set_wordIndex hptr (show t < 64 by omega)]

theorem bodyBlock_eq {ptr : List UInt8} (hptr : 64 ≤ ptr.length) (registers : Registers) :
    bodyBlock registers ptr = Md5.compress registers (ptr.take 64) := by
  have hrange : List.range 64 = List.range' (16 * 0) 16 ++ List.range' (16 * 1) 16 ++
      List.range' (16 * 2) 16 ++ List.range' (16 * 3) 16 := by decide
  have h1 := round_steps F 0 round1 hptr (by decide) (by decide)
    (fun t ht ↦ by simp only [Md5.auxiliary, ht]; exact (funext₃ F_eq).symm)
  have h2 := round_steps G 1 round2 hptr (by decide) (by decide)
    (fun t ht ↦ by simp only [Md5.auxiliary, ht]; exact (funext₃ G_eq).symm)
  have h3 := round_steps H 2 round3 hptr (by decide) (by decide)
    (fun t ht ↦ by simp only [Md5.auxiliary, ht]; rfl)
  have h4 := round_steps I 3 round4 hptr (by decide) (by decide)
    (fun t ht ↦ by simp only [Md5.auxiliary, ht]; rfl)
  simp only [bodyBlock, h1, h2, h3, h4, Md5.compress, hrange, List.foldl_append, Md5.add]

/-- By induction on the blocks: the loop goes over them one by one. -/
theorem body_eq {turns : ℕ} (count : ℕ) (registers : Registers) {ptr : List UInt8}
    (hturns : count < turns) (hptr : 64 * (count + 1) ≤ ptr.length) :
    body turns registers ptr (64 * (count + 1)) =
      some (Md5.hash.compressBlocks (count + 1) registers ptr) := by
  induction count generalizing turns registers ptr with
  | zero =>
    obtain ⟨turns, rfl⟩ := Nat.exists_eq_add_of_lt hturns
    rw [Nat.zero_add, body, if_neg (by omega), if_pos (by omega), bodyBlock_eq (by omega)]
    rfl
  | succ count ih =>
    obtain ⟨turns, rfl⟩ := Nat.exists_eq_add_of_lt hturns
    have hnext : 64 * (count + 1) ≤ (ptr.drop 64).length := by
      rw [List.length_drop]
      omega
    have hrest := ih (bodyBlock registers ptr) (show count < count + 1 + turns by omega) hnext
    have hsize : 64 * (count + 1 + 1) - 64 = 64 * (count + 1) := by omega
    rw [body, if_neg (by omega), hsize, if_neg (by omega), hrest, bodyBlock_eq (by omega)]
    rfl

/-! ## The context -/

/-- The context after a message. -/
structure Ctx.Holds (ctx : Ctx) (message : List UInt8) : Prop where
  lo : ctx.lo.toNat = message.length % 2 ^ 29
  hi : ctx.hi.toNat = message.length / 2 ^ 29 % 2 ^ 32
  registers : ctx.registers = (Md5.hash.absorb Md5.hash.initial message).1
  size : ctx.buffer.size = 64
  begins : ctx.buffer.Begins (Md5.hash.absorb Md5.hash.initial message).2

section

variable {ctx : Ctx} {message data block : List UInt8}

theorem Ctx.holds_init {buffer : Block UInt8} (hsize : buffer.size = 64) :
    (Ctx.init buffer).Holds [] := by
  have habsorb : Md5.hash.absorb Md5.hash.initial [] = (Md5.hash.initial, []) :=
    BlockHash.absorb_of_lt (by decide)
  exact ⟨rfl, rfl, by rw [habsorb]; rfl, hsize, by rw [habsorb]; exact Block.begins_nil _⟩

theorem Ctx.Holds.used (h : ctx.Holds message) :
    (ctx.lo &&& 0x3f).toNat = (Md5.hash.absorb Md5.hash.initial message).2.length := by
  have hmask : (ctx.lo &&& 0x3f).toNat = ctx.lo.toNat % 2 ^ 6 := by
    rw [UInt32.toNat_and]
    exact Nat.and_two_pow_sub_one_eq_mod ctx.lo.toNat 6
  rw [hmask, h.lo, BlockHash.length_absorb]
  change _ = message.length % 64
  omega

theorem Ctx.bodyBuffer_eq (ctx : Ctx) (hbegins : ctx.buffer.Begins block)
    (hblock : block.length = 64) :
    ctx.bodyBuffer = some { ctx with registers := Md5.compress ctx.registers block } := by
  obtain ⟨back, hcells⟩ := hbegins
  have hload : ctx.buffer.loadAll 0 64 = some block := by
    have hload := Block.loadAll_eq back
      (show ctx.buffer.cells = [] ++ block.map some ++ back by simpa using hcells)
    rwa [hblock] at hload
  have hbody := body_eq 0 ctx.registers (show 0 < 64 by decide)
    (show 64 * (0 + 1) ≤ block.length by omega)
  have htake : block.take 64 = block := List.take_of_length_le (by omega)
  simp only [bodyBuffer, hload, Option.bind_eq_bind, Option.bind_some]
  rw [show 64 = 64 * (0 + 1) from rfl, hbody]
  simp only [BlockHash.compressBlocks, Option.bind_some, Option.pure_def]
  change some { ctx with registers := Md5.compress ctx.registers (block.take 64) } = _
  rw [htake]

/-- The rest behind the whole blocks is short enough for the buffer. -/
theorem Ctx.updateBlocks_eq {buffer : Block UInt8} (hsize : buffer.size = 64) (lo hi : UInt32)
    (registers : Registers) (data : List UInt8) :
    ∃ next : Block UInt8, (Ctx.mk lo hi registers buffer).updateBlocks data =
        some ⟨lo, hi, (Md5.hash.absorb registers data).1, next⟩ ∧
      next.size = 64 ∧ next.Begins (Md5.hash.absorb registers data).2 := by
  have hrest := BlockHash.length_absorb_lt Md5.hash registers data
  obtain ⟨next, hstore, hbegins, hnext⟩ :=
    (Block.begins_nil buffer).storeAll (Md5.hash.absorb registers data).2
      (by rw [List.length_nil, hsize]; change _ < 64 at hrest; omega)
  refine ⟨next, ?_, hnext.trans hsize, by simpa using hbegins⟩
  rw [List.length_nil] at hstore
  by_cases hlong : 64 ≤ data.length
  · have hcount : data.length / 64 = data.length / 64 - 1 + 1 := by omega
    have hbody := body_eq (data.length / 64 - 1) registers
      (show data.length / 64 - 1 < data.length by omega)
      (show 64 * (data.length / 64 - 1 + 1) ≤ data.length by omega)
    rw [← hcount] at hbody
    have hwhole : data.length - data.length % 64 = 64 * (data.length / 64) := by omega
    simp only [updateBlocks, if_pos hlong, hwhole, hbody, Option.bind_eq_bind, Option.bind_some,
      Option.pure_def]
    change (buffer.storeAll 0 (Md5.hash.absorb registers data).2).bind _ = _
    rw [hstore]
    rfl
  · have hshort : data.length < Md5.hash.size := by
      change data.length < 64
      omega
    rw [BlockHash.absorb_of_lt hshort] at hstore ⊢
    simp only [updateBlocks, if_neg hlong, Option.bind_eq_bind, Option.bind_some, Option.pure_def,
      hstore]

/-- The length of the message is counted in 29 and 32 bits. -/
theorem Ctx.Holds.count (h : ctx.Holds message) (size : ℕ) :
    let lo := UInt32.ofNat ((ctx.lo.toNat + size) &&& 0x1fffffff)
    let hi := (if lo < ctx.lo then ctx.hi + 1 else ctx.hi) + UInt32.ofNat (size >>> 29)
    lo.toNat = (message.length + size) % 2 ^ 29 ∧
      hi.toNat = (message.length + size) / 2 ^ 29 % 2 ^ 32 := by
  have hmask : (ctx.lo.toNat + size) &&& 0x1fffffff = (message.length + size) % 2 ^ 29 := by
    rw [show 0x1fffffff = 2 ^ 29 - 1 from rfl, Nat.and_two_pow_sub_one_eq_mod, h.lo,
      Nat.mod_add_mod]
  have hlo : (UInt32.ofNat ((message.length + size) % 2 ^ 29)).toNat =
      (message.length + size) % 2 ^ 29 := by
    rw [UInt32.toNat_ofNat']
    omega
  dsimp only
  rw [hmask]
  refine ⟨hlo, ?_⟩
  have hold := h.lo
  have hhi := h.hi
  rw [UInt32.toNat_add, UInt32.toNat_ofNat', Nat.shiftRight_eq_div_pow]
  by_cases hcarry : UInt32.ofNat ((message.length + size) % 2 ^ 29) < ctx.lo
  · rw [if_pos hcarry, UInt32.toNat_add, hhi]
    rw [UInt32.lt_iff_toNat_lt, hlo] at hcarry
    change ((message.length / 2 ^ 29 % 2 ^ 32 + 1) % 2 ^ 32 + _) % _ = _
    omega
  · rw [if_neg hcarry, hhi]
    rw [UInt32.lt_iff_toNat_lt, hlo] at hcarry
    omega

/-- Whatever the pieces are: after each of them the context is that of the message so far. -/
theorem Ctx.Holds.update (h : ctx.Holds message) (data : List UInt8) :
    ∃ next, ctx.update data = some next ∧ next.Holds (message ++ data) := by
  obtain ⟨hlo, hhi⟩ := h.count data.length
  have hlt := BlockHash.length_absorb_lt Md5.hash Md5.hash.initial message
  change (Md5.hash.absorb Md5.hash.initial message).2.length < 64 at hlt
  have happend := BlockHash.absorb_append Md5.hash Md5.hash.initial message data
  rw [← List.length_append] at hlo hhi
  unfold Ctx.update
  simp only [h.used, Option.bind_eq_bind, Option.pure_def]
  generalize hpending : (Md5.hash.absorb Md5.hash.initial message).2 = pending at *
  have hbegins := hpending ▸ h.begins
  by_cases hused : pending.length = 0
  · obtain rfl := List.length_eq_zero_iff.mp hused
    rw [if_neg (by simp)]
    obtain ⟨buffer, hblocks, hsize, hrest⟩ := Ctx.updateBlocks_eq h.size _ _ ctx.registers data
    refine ⟨_, hblocks, hlo, hhi, ?_, hsize, ?_⟩
    · rw [happend, List.nil_append, ← h.registers]
    · rw [happend, List.nil_append, ← h.registers]
      exact hrest
  · rw [if_pos hused]
    by_cases hshort : data.length < 64 - pending.length
    · rw [if_pos hshort]
      obtain ⟨buffer, hstore, hnext, hsize⟩ := hbegins.storeAll data (by rw [h.size]; omega)
      have habsorb : Md5.hash.absorb Md5.hash.initial (message ++ data) =
          (ctx.registers, pending ++ data) := by
        rw [happend, BlockHash.absorb_of_lt, h.registers]
        change _ < 64
        rw [List.length_append]
        omega
      rw [hstore]
      refine ⟨_, rfl, hlo, hhi, ?_, hsize.trans h.size, ?_⟩
      · rw [habsorb]
      · rw [habsorb]
        exact hnext
    · rw [if_neg hshort]
      have htake : (data.take (64 - pending.length)).length = 64 - pending.length := by
        rw [List.length_take]
        omega
      obtain ⟨buffer, hstore, hnext, hsize⟩ := hbegins.storeAll
        (data.take (64 - pending.length)) (by rw [h.size, htake]; omega)
      have hblock : (pending ++ data.take (64 - pending.length)).length = 64 := by
        rw [List.length_append, htake]
        omega
      have habsorb : Md5.hash.absorb Md5.hash.initial (message ++ data) =
          Md5.hash.absorb (Md5.compress ctx.registers (pending ++ data.take (64 - pending.length)))
            (data.drop (64 - pending.length)) := by
        rw [happend, ← h.registers]
        nth_rewrite 1 [← List.take_append_drop (64 - pending.length) data]
        rw [← List.append_assoc]
        exact BlockHash.absorb_block hblock
      rw [hstore, Option.bind_some, Ctx.bodyBuffer_eq _ hnext hblock, Option.bind_some]
      obtain ⟨last, hblocks, hlast, hrest⟩ := Ctx.updateBlocks_eq (hsize.trans h.size) _ _
        (Md5.compress ctx.registers (pending ++ data.take (64 - pending.length)))
        (data.drop (64 - pending.length))
      refine ⟨_, hblocks, hlo, hhi, ?_, hlast, ?_⟩
      · rw [habsorb]
      · rw [habsorb]
        exact hrest

/-! ## The end of the message -/

theorem bytes_eq (word : UInt32) : bytes word = Words.littleEndian 4 word.toNat :=
  (Words.littleEndian_word word).symm

theorem Ctx.Holds.lengthBytes (h : ctx.Holds message) :
    bytes (ctx.lo <<< 3) ++ bytes ctx.hi = Words.littleEndian 8 (8 * message.length) := by
  have hlo : (ctx.lo <<< 3).toNat = 8 * message.length % 256 ^ 4 := by
    rw [UInt32.toNat_shiftLeft, h.lo, Nat.shiftLeft_eq]
    change message.length % 2 ^ 29 * 2 ^ 3 % 2 ^ 32 = _
    omega
  have hhi : ctx.hi.toNat = 8 * message.length / 256 ^ 4 % 256 ^ 4 := by
    rw [h.hi]
    omega
  rw [bytes_eq, bytes_eq, hlo, hhi, Words.littleEndian_mod, Words.littleEndian_mod,
    ← Words.littleEndian_add]

/-- The last block ends with the length of the message. -/
theorem Ctx.finish_eq (ctx : Ctx) {front : List UInt8} (free : ℕ)
    (hbegins : ctx.buffer.Begins front) (hsize : ctx.buffer.size = 64)
    (hfront : front.length + (free - 8) = 56) :
    ctx.finish front.length free = some (Md5.output (Md5.compress ctx.registers
      (front ++ List.replicate (free - 8) (0 : UInt8) ++
        (bytes (ctx.lo <<< 3) ++ bytes ctx.hi)))) := by
  have hback : (bytes (ctx.lo <<< 3) ++ bytes ctx.hi).length = 8 := rfl
  obtain ⟨zeroed, hzeros, hbegins, hzeroed⟩ := hbegins.storeAll
    (List.replicate (free - 8) (0 : UInt8)) (by rw [List.length_replicate, hsize]; omega)
  have hlength : (front ++ List.replicate (free - 8) (0 : UInt8)).length = 56 := by
    rw [List.length_append, List.length_replicate, hfront]
  obtain ⟨last, hlast, hbegins, -⟩ := hbegins.storeAll
    (bytes (ctx.lo <<< 3) ++ bytes ctx.hi) (by rw [hlength, hback, hzeroed, hsize])
  have hblock : (front ++ List.replicate (free - 8) (0 : UInt8) ++
      (bytes (ctx.lo <<< 3) ++ bytes ctx.hi)).length = 64 := by
    rw [List.length_append, hlength, hback]
  rw [hlength] at hlast
  have hbody := Ctx.bodyBuffer_eq { ctx with lo := ctx.lo <<< 3, buffer := last }
    hbegins hblock
  simp only [Ctx.finish, hzeros, hlast, hbody, Option.bind_eq_bind, Option.bind_some,
    Option.pure_def]
  simp [Md5.output, bytes_eq]

/-- The padding takes the rest of a block, or more than a block. -/
theorem Ctx.Holds.final (h : ctx.Holds message) : ctx.final = some (Md5.digest message) := by
  have hlt := BlockHash.length_absorb_lt Md5.hash Md5.hash.initial message
  have hlength := BlockHash.length_absorb Md5.hash Md5.hash.initial message
  have hfinal := BlockHash.final_eq Md5.hash message
  have hbytes := h.lengthBytes
  have hback : (bytes (ctx.lo <<< 3) ++ bytes ctx.hi).length = 8 := rfl
  change _ < 64 at hlt
  change _ = message.length % 64 at hlength
  change _ = (BlockHash.absorb _ _ (_ ++ Md5.padding message.length)).1 at hfinal
  rw [← h.registers] at hfinal
  have hbegins := h.begins
  unfold Ctx.final
  simp only [h.used, Option.bind_eq_bind]
  generalize hpending : (Md5.hash.absorb Md5.hash.initial message).2 = pending at *
  obtain ⟨first, hfirst, hbegins, hsize⟩ := hbegins.storeAll [0x80] (by rw [h.size]; simp; omega)
  rw [h.size] at hsize
  have hstore : ctx.buffer.store pending.length 0x80 = some first := by
    simpa [Block.storeAll] using hfirst
  obtain ⟨marked, hmarked⟩ : ∃ marked, marked = pending ++ [(0x80 : UInt8)] := ⟨_, rfl⟩
  have hnext : marked.length = pending.length + 1 := by simp [hmarked]
  have hrest (rest : List UInt8) : pending ++ 0x80 :: rest = marked ++ rest := by simp [hmarked]
  rw [← hmarked] at hbegins
  rw [hstore, Option.bind_some, Md5.digest, hfinal, Md5.padding, ← hlength, ← hbytes, ← hnext,
    hrest]
  by_cases hfree : 64 - marked.length < 8
  · have hzeros : (119 - pending.length) % 64 = 64 - marked.length + 56 := by omega
    obtain ⟨second, hsecond, hfull, hsecondSize⟩ := hbegins.storeAll
      (List.replicate (64 - marked.length) (0 : UInt8))
        (by rw [List.length_replicate, hsize]; omega)
    have hblock : (marked ++ List.replicate (64 - marked.length) (0 : UInt8)).length =
        Md5.hash.size := by
      change _ = 64
      rw [List.length_append, List.length_replicate]
      omega
    have hlast : (List.replicate 56 (0 : UInt8) ++
        (bytes (ctx.lo <<< 3) ++ bytes ctx.hi)).length = Md5.hash.size := by
      rw [List.length_append, List.length_replicate, hback]
      rfl
    have hbody := Ctx.bodyBuffer_eq { ctx with buffer := second } hfull hblock
    have hfinish := Ctx.finish_eq { ctx with
      registers := Md5.compress ctx.registers
        (marked ++ List.replicate (64 - marked.length) (0 : UInt8))
      buffer := second } 64 (Block.begins_nil second) (hsecondSize.trans hsize) rfl
    rw [if_pos hfree, hzeros, hsecond, Option.bind_some, hbody, Option.bind_some,
      List.replicate_add, List.append_assoc, ← List.append_assoc marked,
      BlockHash.absorb_block hblock, BlockHash.absorb_single hlast]
    exact hfinish
  · have hzeros : (119 - pending.length) % 64 = 64 - marked.length - 8 := by omega
    have hblock : (marked ++ (List.replicate (64 - marked.length - 8) (0 : UInt8) ++
        (bytes (ctx.lo <<< 3) ++ bytes ctx.hi))).length = Md5.hash.size := by
      change _ = 64
      rw [List.length_append, List.length_append, List.length_replicate, hback]
      omega
    rw [if_neg hfree, hzeros, Ctx.finish_eq _ _ hbegins hsize (by omega),
      BlockHash.absorb_single hblock, List.append_assoc]
    rfl

end

/-! ## Whole messages -/

/-- `PHP_MD5Init`, a `PHP_MD5Update` for every piece, and `PHP_MD5Final`. -/
def digest (buffer : Block UInt8) (pieces : List (List UInt8)) : Option (List UInt8) := do
  let ctx ← pieces.foldlM Ctx.update (Ctx.init buffer)
  ctx.final

theorem Ctx.Holds.foldlM {ctx : Ctx} {message : List UInt8} (h : ctx.Holds message)
    (pieces : List (List UInt8)) :
    ∃ next, pieces.foldlM Ctx.update ctx = some next ∧ next.Holds (message ++ pieces.flatten) := by
  induction pieces generalizing ctx message with
  | nil => exact ⟨ctx, rfl, by simpa using h⟩
  | cons piece pieces ih =>
    obtain ⟨middle, hupdate, hmiddle⟩ := h.update piece
    obtain ⟨next, hrest, hnext⟩ := ih hmiddle
    refine ⟨next, ?_, by simpa using hnext⟩
    rw [List.foldlM_cons, hupdate]
    exact hrest

theorem updates_final {buffer : Block UInt8} (hsize : buffer.size = 64)
    (pieces : List (List UInt8)) : ∃ ctx, pieces.foldlM Ctx.update (Ctx.init buffer) = some ctx ∧
      ctx.final = some (Md5.digest pieces.flatten) := by
  obtain ⟨ctx, hupdates, hholds⟩ := (Ctx.holds_init hsize).foldlM pieces
  rw [List.nil_append] at hholds
  exact ⟨ctx, hupdates, hholds.final⟩

/-- However a message comes in pieces, and whatever its length: no access is outside a buffer, and
the digest is the MD5 of the message. -/
theorem digest_eq_md5 (buffer : Block UInt8) (hsize : buffer.size = 64)
    (pieces : List (List UInt8)) : digest buffer pieces = some (Md5.digest pieces.flatten) := by
  obtain ⟨ctx, hupdates, hfinal⟩ := updates_final hsize pieces
  rw [digest, hupdates]
  exact hfinal

theorem digest_eq_md5_abc : (Block.allocate 64 : Block UInt8).size = 64 ∧
    digest (Block.allocate 64) [[0x61], [0x62, 0x63]] = some (Md5.digest [0x61, 0x62, 0x63]) :=
  ⟨Block.size_allocate 64, digest_eq_md5 _ (Block.size_allocate 64) [[0x61], [0x62, 0x63]]⟩

end Tgvisd.PhpMd5
