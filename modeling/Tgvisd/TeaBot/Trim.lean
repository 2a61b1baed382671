import Mathlib.Data.List.DropRight
import Tgvisd.Lib.Block

/-!
# Trimming strings in place

`trim_len` terminates the string behind its last character and returns a pointer to its first one;
`trim_len_cpy` moves the rest to the front and terminates it there, but only if there was something
to move. The pointers are positions in a block of memory.
-/

namespace Tgvisd.TeaBot

/-- `HEQ(' ') || HEQ('\n') || HEQ('\r') || HEQ('\v')`, and `TEQ` likewise. -/
def isTrimmed (c : Char) : Bool := c = ' ' || c = '\n' || c = '\r' || c = '\x0b'

/-- The text without its longest leading and its longest trailing run of those characters. -/
def trimmed (text : List Char) : List Char := (text.dropWhile isTrimmed).rdropWhile isTrimmed

/-- The loop over `head`: the pointer, the length, and whether it has moved. -/
def skipHead (memory : Block Char) : ℕ → ℕ → Bool → Option (ℕ × ℕ × Bool)
  | head, 0, move => some (head, 0, move)
  | head, len + 1, move => do
    let c ← memory.load head
    if isTrimmed c then skipHead memory (head + 1) len true else return (head, len + 1, move)

/-- The loop over `tail`, likewise. -/
def skipTail (memory : Block Char) : ℕ → ℕ → Bool → Option (ℕ × ℕ × Bool)
  | tail, 0, move => some (tail, 0, move)
  | tail, len + 1, move => do
    let c ← memory.load tail
    if isTrimmed c then skipTail memory (tail - 1) len true else return (tail, len + 1, move)

/-- The memory afterwards, the pointer that is returned, and `*res_len`. -/
structure Trim where
  memory : Block Char
  result : ℕ
  resLen : ℕ

/-- `tail` is not read if `len` is 0. -/
def trimLen (memory : Block Char) (head len : ℕ) : Option Trim := do
  let tail := head + len - 1
  let (head, len, _) ← skipHead memory head len false
  let (tail, len, moveT) ← skipTail memory tail len false
  let memory ← if 0 < len ∧ moveT then memory.store (tail + 1) '\x00' else some memory
  return { memory, result := head, resLen := len }

def trimLenCpy (memory : Block Char) (head len : ℕ) : Option Trim := do
  let start := head
  let tail := head + len - 1
  let (head, len, moveH) ← skipHead memory head len false
  let (_, len, _) ← skipTail memory tail len false
  let memory ← if moveH then do
      let memory ← (if 0 < len then memory.move start head len else some memory)
      memory.store (start + len) '\x00'
    else some memory
  return { memory, result := start, resLen := len }

def strlen (memory : Block Char) (str : ℕ) : Option ℕ :=
  (memory.stringAt '\x00' str).map List.length

def trim (memory : Block Char) (str : ℕ) : Option Trim := do
  trimLen memory str (← strlen memory str)

def trimCpy (memory : Block Char) (str : ℕ) : Option Trim := do
  trimLenCpy memory str (← strlen memory str)

/-! ## The loops -/

section

variable {memory : Block Char} {front back : List (Option Char)} {text : List Char}

theorem skipHead_eq (hcells : memory.cells = front ++ text.map some ++ back) (move : Bool) :
    skipHead memory front.length text.length move =
      some (front.length + (text.takeWhile isTrimmed).length, (text.dropWhile isTrimmed).length,
        move || !(text.takeWhile isTrimmed).isEmpty) := by
  induction text generalizing front move with
  | nil => simp [skipHead]
  | cons c text ih =>
    have hfirst : memory.cells = front ++ some c :: (text.map some ++ back) := by
      simpa using hcells
    have hload := Block.load_eq hfirst
    by_cases hc : isTrimmed c = true
    · have hothers : memory.cells = front ++ [some c] ++ text.map some ++ back := by
        simpa using hcells
      have hrest := ih hothers true
      rw [List.length_append, List.length_singleton] at hrest
      simp [skipHead, hload, hc, hrest]
      omega
    · simp [skipHead, hload, hc]

theorem skipTail_eq (hcells : memory.cells = front ++ text.map some ++ back) (move : Bool) :
    skipTail memory (front.length + text.length - 1) text.length move =
      some (front.length + (text.rdropWhile isTrimmed).length - 1,
        (text.rdropWhile isTrimmed).length, move || !(text.rtakeWhile isTrimmed).isEmpty) := by
  induction text using List.reverseRecOn generalizing back move with
  | nil => simp [skipTail]
  | append_singleton text c ih =>
    have hload : memory.load (front.length + text.length) = some c := by
      have hlast : memory.cells = (front ++ text.map some) ++ some c :: back := by
        simpa using hcells
      simpa using Block.load_eq hlast
    by_cases hc : isTrimmed c = true
    · have hothers : memory.cells = front ++ text.map some ++ some c :: back := by
        simpa using hcells
      have hrest := ih hothers true
      simp [skipTail, hload, hc, hrest]
    · simp [skipTail, hload, hc]

end

/-! ## The parts of a text -/

/-- What is cut off in front. -/
def leading (text : List Char) : List Char := text.takeWhile isTrimmed

/-- What is cut off behind. -/
def trailing (text : List Char) : List Char := (text.dropWhile isTrimmed).rtakeWhile isTrimmed

theorem leading_trimmed_trailing (text : List Char) :
    leading text ++ trimmed text ++ trailing text = text := by
  calc leading text ++ trimmed text ++ trailing text
      = leading text ++ (trimmed text ++ trailing text) := List.append_assoc ..
    _ = leading text ++ text.dropWhile isTrimmed := by
        rw [trimmed, trailing, List.rdropWhile_append_rtakeWhile]
    _ = text := List.takeWhile_append_dropWhile

theorem length_eq (text : List Char) :
    (leading text).length + (trimmed text).length + (trailing text).length = text.length := by
  simpa [Nat.add_assoc] using congrArg List.length (leading_trimmed_trailing text)

theorem trailing_of_trimmed_eq_nil {text : List Char} (h : trimmed text = []) :
    trailing text = [] := by
  have hall := List.rdropWhile_eq_nil_iff.mp h
  cases hrest : text.dropWhile isTrimmed with
  | nil => simp [trailing, hrest]
  | cons c rest =>
    have hc : isTrimmed c = true := hall c (by simp [hrest])
    have hnot := List.head_dropWhile_not isTrimmed (l := text) (by simp [hrest])
    simp [hrest, hc] at hnot

/-- The text whose first character has been overwritten by a terminator. -/
def terminated : List Char → List Char
  | [] => []
  | _ :: text => '\x00' :: text

@[simp] theorem length_terminated (text : List Char) :
    (terminated text).length = text.length := by
  cases text <;> rfl

/-! ## What is left in memory -/

section

variable {memory : Block Char} {front back : List (Option Char)} {text : List Char}

theorem skipHead_leading (hcells : memory.cells = front ++ text.map some ++ back) :
    skipHead memory front.length text.length false =
      some (front.length + (leading text).length,
        (trimmed text).length + (trailing text).length, !(leading text).isEmpty) := by
  have hlength : (trimmed text).length + (trailing text).length =
      (text.dropWhile isTrimmed).length := by
    rw [trimmed, trailing, ← List.length_append, List.rdropWhile_append_rtakeWhile]
  rw [skipHead_eq hcells, hlength, leading, Bool.false_or]

theorem skipTail_trailing (hcells : memory.cells = front ++ text.map some ++ back) :
    skipTail memory (front.length + text.length - 1)
        ((trimmed text).length + (trailing text).length) false =
      some (front.length + (leading text).length + (trimmed text).length - 1,
        (trimmed text).length, !(trailing text).isEmpty) := by
  have hsplit : memory.cells = (front ++ (leading text).map some) ++
      (trimmed text ++ trailing text).map some ++ back := by
    rw [hcells]
    nth_rewrite 1 [← leading_trimmed_trailing text]
    simp
  have hrest : trimmed text ++ trailing text = text.dropWhile isTrimmed :=
    List.rdropWhile_append_rtakeWhile ..
  have hstart : (front ++ (leading text).map some).length +
      (trimmed text ++ trailing text).length - 1 = front.length + text.length - 1 := by
    have hlength := length_eq text
    simp only [List.length_append, List.length_map]
    omega
  calc skipTail memory (front.length + text.length - 1)
        ((trimmed text).length + (trailing text).length) false
      = skipTail memory ((front ++ (leading text).map some).length +
          (trimmed text ++ trailing text).length - 1)
            (trimmed text ++ trailing text).length false := by
        rw [hstart, List.length_append]
    _ = some ((front ++ (leading text).map some).length + (trimmed text).length - 1,
          (trimmed text).length, !(trailing text).isEmpty) := by
        rw [skipTail_eq hsplit, hrest, Bool.false_or, trimmed, trailing]
    _ = _ := by rw [List.length_append, List.length_map]

/-- The terminator overwrites the first of the characters that are cut off behind. -/
theorem trimLen_eq (hcells : memory.cells = front ++ text.map some ++ back) :
    trimLen memory front.length text.length = some
      { memory := ⟨front ++
          (leading text ++ trimmed text ++ terminated (trailing text)).map some ++ back⟩
        result := front.length + (leading text).length
        resLen := (trimmed text).length } := by
  have hparts := leading_trimmed_trailing text
  rw [trimLen]
  simp only [skipHead_leading hcells, skipTail_trailing hcells, Option.bind_eq_bind,
    Option.bind_some]
  cases htrailing : trailing text with
  | nil =>
    rw [htrailing, List.append_nil] at hparts
    have hmemory : memory = ⟨front ++ text.map some ++ back⟩ := Block.ext hcells
    simp [hmemory, hparts, terminated]
  | cons c rest =>
    have hpos : 0 < (trimmed text).length := by
      apply List.length_pos_iff.mpr
      intro hnil
      simp [trailing_of_trimmed_eq_nil hnil] at htrailing
    have hsplit : memory.cells = (front ++ (leading text ++ trimmed text).map some) ++
        some c :: (rest.map some ++ back) := by
      rw [hcells]
      nth_rewrite 1 [← hparts]
      simp [htrailing]
    have hposition : front.length + (leading text).length + (trimmed text).length - 1 + 1 =
        (front ++ (leading text ++ trimmed text).map some).length := by
      simp only [List.length_append, List.length_map]
      omega
    rw [if_pos ⟨hpos, rfl⟩, hposition, Block.store_eq hsplit]
    simp [terminated]

/-- `memmove(start, head, len)`, if `len` is positive. -/
theorem move_trimmed (hcells : memory.cells = front ++ text.map some ++ back) :
    (if 0 < (trimmed text).length then
      memory.move front.length (front.length + (leading text).length) (trimmed text).length
    else some memory) =
      some ⟨front ++ (trimmed text ++ text.drop (trimmed text).length).map some ++ back⟩ := by
  have hparts := leading_trimmed_trailing text
  have hlength := length_eq text
  have hload : memory.loadAll (front.length + (leading text).length) (trimmed text).length =
      some (trimmed text) := by
    have hsource : memory.cells = (front ++ (leading text).map some) ++
        (trimmed text).map some ++ ((trailing text).map some ++ back) := by
      rw [hcells]
      nth_rewrite 1 [← hparts]
      simp
    simpa using Block.loadAll_eq _ hsource
  have htarget : memory.cells = front ++ (text.take (trimmed text).length).map some ++
      ((text.drop (trimmed text).length).map some ++ back) := by
    rw [hcells, List.append_assoc, List.append_assoc, ← List.append_assoc (List.map some _),
      ← List.map_append, List.take_append_drop]
  have hmove := Block.move_eq hload htarget (by simp; omega)
  split_ifs with hpos
  · simp [hmove]
  · have hnil : trimmed text = [] := List.length_eq_zero_iff.mp (by omega)
    have hmemory : memory = ⟨front ++ text.map some ++ back⟩ := Block.ext hcells
    simp [hnil, hmemory]

/-- The rest is moved to the front and terminated there, if it was not there before. -/
theorem trimLenCpy_eq (hcells : memory.cells = front ++ text.map some ++ back) :
    trimLenCpy memory front.length text.length = some
      { memory := if leading text = [] then memory else
          ⟨front ++ (trimmed text ++ '\x00' ::
            text.drop ((trimmed text).length + 1)).map some ++ back⟩
        result := front.length
        resLen := (trimmed text).length } := by
  rw [trimLenCpy]
  simp only [skipHead_leading hcells, skipTail_trailing hcells, Option.bind_eq_bind,
    Option.bind_some]
  by_cases hleading : leading text = []
  · simp [hleading]
  · have hshort : (trimmed text).length < text.length := by
      have hlength := length_eq text
      have hpos := List.length_pos_iff.mpr hleading
      omega
    have hnext : (⟨front ++ (trimmed text ++ text.drop (trimmed text).length).map some ++ back⟩ :
        Block Char).cells = (front ++ (trimmed text).map some) ++
          some text[(trimmed text).length] ::
            ((text.drop ((trimmed text).length + 1)).map some ++ back) := by
      simp only [List.drop_eq_getElem_cons hshort, List.map_append, List.map_cons,
        List.append_assoc, List.cons_append]
    have hstore := Block.store_eq hnext '\x00'
    rw [List.length_append, List.length_map] at hstore
    have hmoved : (!(leading text).isEmpty) = true := by simpa using hleading
    rw [if_pos hmoved, move_trimmed hcells, Option.bind_some, hstore]
    simp [hleading]

end

/-! ## Both variants -/

/-- Both variants leave the trimmed text as a string. -/
structure BothTrim (memory : Block Char) (str : ℕ) (text : List Char) : Prop where
  trim : ∃ left, trim memory str = some left ∧
    left.memory.stringAt '\x00' left.result = some (trimmed text)
  trimCpy : ∃ left, trimCpy memory str = some left ∧
    left.memory.stringAt '\x00' left.result = some (trimmed text)

/-- Both variants write to the given range only. -/
structure BothStay (start length : ℕ) (memory : Block Char)
    (first second : Option Trim) : Prop where
  first : ∃ left, first = some left ∧ Block.AgreeOutside start length memory left.memory
  second : ∃ left, second = some left ∧ Block.AgreeOutside start length memory left.memory

/-- Both variants report the same length and the same bytes, those of the trimmed text. -/
structure BothReport (text : List Char) (first second : Option Trim) : Prop where
  first : ∃ left, first = some left ∧ left.resLen = (trimmed text).length ∧
    left.memory.loadAll left.result left.resLen = some (trimmed text)
  second : ∃ left, second = some left ∧ left.resLen = (trimmed text).length ∧
    left.memory.loadAll left.result left.resLen = some (trimmed text)

section

variable {memory : Block Char} {front back : List (Option Char)} {text : List Char}

theorem bothReport (hcells : memory.cells = front ++ text.map some ++ back) :
    BothReport text (trimLen memory front.length text.length)
      (trimLenCpy memory front.length text.length) where
  first := by
    refine ⟨_, trimLen_eq hcells, rfl, ?_⟩
    have hcells' : (⟨front ++ (leading text ++ trimmed text ++
          terminated (trailing text)).map some ++ back⟩ : Block Char).cells =
        front ++ (leading text).map some ++ (trimmed text).map some ++
          ((terminated (trailing text)).map some ++ back) := by simp
    simpa using Block.loadAll_eq _ hcells'
  second := by
    refine ⟨_, trimLenCpy_eq hcells, rfl, ?_⟩
    by_cases hleading : leading text = []
    · have hcells' : memory.cells = front ++ (trimmed text).map some ++
          ((trailing text).map some ++ back) := by
        rw [hcells]
        nth_rewrite 1 [← leading_trimmed_trailing text]
        simp [hleading]
      simpa [hleading] using Block.loadAll_eq _ hcells'
    · simp only [hleading, if_false]
      apply Block.loadAll_eq (('\x00' :: text.drop ((trimmed text).length + 1)).map some ++ back)
      simp

theorem bothStay (hcells : memory.cells = front ++ text.map some ++ back) :
    BothStay front.length text.length memory (trimLen memory front.length text.length)
      (trimLenCpy memory front.length text.length) := by
  have hlength := length_eq text
  have hmemory : memory = ⟨front ++ text.map some ++ back⟩ := Block.ext hcells
  constructor
  · refine ⟨_, trimLen_eq hcells, ?_⟩
    rw [hmemory]
    apply Block.agreeOutside_of_length_eq (by simp)
    simp only [List.length_map, List.length_append, length_terminated]
    omega
  · refine ⟨_, trimLenCpy_eq hcells, ?_⟩
    by_cases hleading : leading text = []
    · simpa [hleading] using Block.agreeOutside_refl front.length text.length memory
    · have hpos := List.length_pos_iff.mpr hleading
      simp only [hleading, if_false]
      rw [hmemory]
      apply Block.agreeOutside_of_length_eq (by simp)
      simp only [List.length_map, List.length_append, List.length_cons, List.length_drop]
      omega

end

/-! ## Strings -/

section

variable {memory : Block Char} {front back : List (Option Char)} {text : List Char}

theorem not_mem_trimmed (htext : '\x00' ∉ text) : '\x00' ∉ trimmed text := by
  intro hmem
  apply htext
  rw [← leading_trimmed_trailing text]
  simp [hmem]

theorem strlen_eq (hcells : memory.cells = front ++ text.map some ++ some '\x00' :: back)
    (htext : '\x00' ∉ text) : strlen memory front.length = some text.length := by
  simp [strlen, Block.stringAt_eq _ hcells htext]

theorem trim_eq (hcells : memory.cells = front ++ text.map some ++ some '\x00' :: back)
    (htext : '\x00' ∉ text) :
    trim memory front.length = trimLen memory front.length text.length := by
  simp [trim, strlen_eq hcells htext]

theorem trimCpy_eq (hcells : memory.cells = front ++ text.map some ++ some '\x00' :: back)
    (htext : '\x00' ∉ text) :
    trimCpy memory front.length = trimLenCpy memory front.length text.length := by
  simp [trimCpy, strlen_eq hcells htext]

/-- What `trim` returns is always the trimmed text. -/
theorem trim_stringAt (hcells : memory.cells = front ++ text.map some ++ some '\x00' :: back)
    (htext : '\x00' ∉ text) : ∃ left, trim memory front.length = some left ∧
      left.memory.stringAt '\x00' left.result = some (trimmed text) := by
  refine ⟨_, (trim_eq hcells htext).trans (trimLen_eq hcells), ?_⟩
  have hstart : front.length + (leading text).length =
      (front ++ (leading text).map some).length := by simp
  simp only [hstart]
  cases htrailing : trailing text with
  | nil =>
    apply Block.stringAt_eq back _ (not_mem_trimmed htext)
    simp [terminated]
  | cons c rest =>
    apply Block.stringAt_eq (rest.map some ++ some '\x00' :: back) _ (not_mem_trimmed htext)
    simp [terminated]

/-- What `trim_cpy` returns is the trimmed text, or the whole text if nothing was moved. -/
theorem trimCpy_stringAt (hcells : memory.cells = front ++ text.map some ++ some '\x00' :: back)
    (htext : '\x00' ∉ text) : ∃ left, trimCpy memory front.length = some left ∧
      left.memory.stringAt '\x00' left.result =
        some (if leading text = [] then text else trimmed text) := by
  refine ⟨_, (trimCpy_eq hcells htext).trans (trimLenCpy_eq hcells), ?_⟩
  by_cases hleading : leading text = []
  · simpa [hleading] using Block.stringAt_eq _ hcells htext
  · simp only [hleading, if_false]
    apply Block.stringAt_eq ((text.drop ((trimmed text).length + 1)).map some ++
      some '\x00' :: back) _ (not_mem_trimmed htext)
    simp

theorem bothTrim_iff_trailing
    (hcells : memory.cells = front ++ text.map some ++ some '\x00' :: back)
    (htext : '\x00' ∉ text) :
    BothTrim memory front.length text ↔ leading text ≠ [] ∨ trailing text = [] := by
  obtain ⟨left, hleft, hstring⟩ := trimCpy_stringAt hcells htext
  have hparts := leading_trimmed_trailing text
  constructor
  · intro h
    obtain ⟨same, hsame, htrimmed⟩ := h.trimCpy
    obtain rfl := Option.some.inj (hleft.symm.trans hsame)
    rw [hstring, Option.some.injEq] at htrimmed
    apply or_iff_not_imp_left.mpr
    intro hleading
    rw [not_not] at hleading
    rw [if_pos hleading] at htrimmed
    rw [hleading, List.nil_append] at hparts
    exact List.append_right_eq_self.mp (hparts.trans htrimmed)
  · intro h
    refine ⟨trim_stringAt hcells htext, left, hleft, ?_⟩
    rw [hstring, Option.some.injEq]
    by_cases hleading : leading text = []
    · have htrailing := h.resolve_left (not_not.mpr hleading)
      rw [hleading, htrailing, List.nil_append, List.append_nil] at hparts
      rw [if_pos hleading, hparts]
    · rw [if_neg hleading]

end

theorem leading_ne_nil_iff {text : List Char} :
    leading text ≠ [] ↔ ∃ c ∈ text.head?, isTrimmed c = true := by
  cases text with
  | nil => simp [leading]
  | cons c text => by_cases hc : isTrimmed c = true <;> simp [leading, hc]

theorem trailing_eq_nil_iff {text : List Char} (hleading : leading text = []) :
    trailing text = [] ↔ ∀ c ∈ text.getLast?, isTrimmed c = false := by
  have hrest : text.dropWhile isTrimmed = text := by
    have happend := List.takeWhile_append_dropWhile (p := isTrimmed) (l := text)
    rwa [← leading, hleading, List.nil_append] at happend
  rw [trailing, hrest, List.rtakeWhile_eq_nil_iff]
  cases text using List.reverseRecOn <;> simp

/-- The text begins with a character that is trimmed, or does not end with one. -/
def TrimsAlike (text : List Char) : Prop :=
  (∃ c ∈ text.head?, isTrimmed c = true) ∨ ∀ c ∈ text.getLast?, isTrimmed c = false

/-- The strings that the two variants leave are the trimmed text if and only if the text begins
with a character to trim or does not end with one; with an explicit length, for any text and memory
around it, they always report the same; and they write within the text only. -/
theorem bothTrim_iff (front back : List (Option Char)) (text : List Char) :
    ('\x00' ∉ text →
      let memory : Block Char := ⟨front ++ text.map some ++ some '\x00' :: back⟩
      (BothTrim memory front.length text ↔ TrimsAlike text) ∧
        BothStay front.length text.length memory (trim memory front.length)
          (trimCpy memory front.length)) ∧
      let memory : Block Char := ⟨front ++ text.map some ++ back⟩
      BothReport text (trimLen memory front.length text.length)
          (trimLenCpy memory front.length text.length) ∧
        BothStay front.length text.length memory (trimLen memory front.length text.length)
          (trimLenCpy memory front.length text.length) := by
  refine ⟨fun htext ↦ ⟨?_, ?_⟩, bothReport rfl, bothStay rfl⟩
  · rw [bothTrim_iff_trailing rfl htext, TrimsAlike, ← leading_ne_nil_iff]
    apply or_congr_right'
    intro hleading
    exact trailing_eq_nil_iff (not_not.mp hleading)
  · rw [trim_eq rfl htext, trimCpy_eq rfl htext]
    exact bothStay rfl

/-- `"a "`. -/
theorem not_bothTrim_trailingSpace :
    ¬ BothTrim ⟨['a', ' ', '\x00'].map some⟩ 0 ['a', ' '] := by
  rintro ⟨-, left, hleft, hstring⟩
  have hcopied : (trimCpy ⟨['a', ' ', '\x00'].map some⟩ 0).any
      (fun left ↦ left.memory.stringAt '\x00' left.result = some ['a', ' ']) = true := by
    decide
  simp only [hleft, Option.any_some, decide_eq_true_eq, hstring] at hcopied
  exact absurd hcopied (by decide)

end Tgvisd.TeaBot
