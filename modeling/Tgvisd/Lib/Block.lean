import Mathlib.Data.List.TakeWhile

/-!
# Memory blocks

A block is a row of cells; a cell that was never written has no value. An access outside the block,
or a read of a cell without a value, has no result. The rules for an access speak of the cells
before, at and after the place it touches.
-/

namespace Tgvisd

universe u

structure Block (Value : Type u) where
  cells : List (Option Value)
  deriving DecidableEq, Repr

namespace Block

variable {Value : Type u}

@[ext] theorem ext {first second : Block Value} (h : first.cells = second.cells) :
    first = second := by
  cases first
  cases second
  congr

def size (block : Block Value) : ℕ := block.cells.length

/-- A fresh block. -/
def allocate (size : ℕ) : Block Value := ⟨List.replicate size none⟩

/-- A block of another size with the same values, as far as it reaches. -/
def reallocate (block : Block Value) (size : ℕ) : Block Value :=
  ⟨block.cells.take size ++ List.replicate (size - block.size) none⟩

def load (block : Block Value) (position : ℕ) : Option Value := (block.cells[position]?).join

def store (block : Block Value) (position : ℕ) (value : Value) : Option (Block Value) :=
  if position < block.size then some ⟨block.cells.set position (some value)⟩ else none

/-- Read so many values from a position on. -/
def loadAll (block : Block Value) : ℕ → ℕ → Option (List Value)
  | _, 0 => some []
  | position, length + 1 => do
    let value ← block.load position
    let values ← block.loadAll (position + 1) length
    return value :: values

/-- Write the values one after the other from a position on. -/
def storeAll (block : Block Value) : ℕ → List Value → Option (Block Value)
  | _, [] => some block
  | position, value :: values => do
    let block ← block.store position value
    block.storeAll (position + 1) values

/-- Move values within the block; they are all read before the first is written. -/
def move (block : Block Value) (target source length : ℕ) : Option (Block Value) := do
  let values ← block.loadAll source length
  block.storeAll target values

/-- The values up to a terminator. -/
def untilTerminator [DecidableEq Value] (terminator : Value) :
    List (Option Value) → Option (List Value)
  | [] | none :: _ => none
  | some value :: cells =>
    if value = terminator then some [] else (untilTerminator terminator cells).map (value :: ·)

/-- The terminated string at a position. -/
def stringAt [DecidableEq Value] (terminator : Value) (block : Block Value) (position : ℕ) :
    Option (List Value) :=
  untilTerminator terminator (block.cells.drop position)

/-- Every cell outside the given range is the same in both. -/
def AgreeOutside (start length : ℕ) (first second : Block Value) : Prop :=
  ∀ position, position < start ∨ start + length ≤ position →
    first.cells[position]? = second.cells[position]?

/-! ## Sizes -/

@[simp] theorem size_mk (cells : List (Option Value)) :
    (⟨cells⟩ : Block Value).size = cells.length := rfl

@[simp] theorem size_allocate (size : ℕ) : (allocate size : Block Value).size = size := by
  simp [allocate]

@[simp] theorem size_reallocate (block : Block Value) (size : ℕ) :
    (block.reallocate size).size = size := by
  simp only [reallocate, size_mk, List.length_append, List.length_take, List.length_replicate]
  unfold Block.size
  omega

theorem size_store {block next : Block Value} {position : ℕ} {value : Value}
    (h : block.store position value = some next) : next.size = block.size := by
  simp only [store, Option.ite_none_right_eq_some, Option.some.injEq] at h
  rw [← h.2]
  simp [size]

theorem size_storeAll {block next : Block Value} {position : ℕ} {values : List Value}
    (h : block.storeAll position values = some next) : next.size = block.size := by
  induction values generalizing block position with
  | nil => rw [Option.some.inj h]
  | cons value values ih =>
    rw [storeAll, Option.bind_eq_bind, Option.bind_eq_some_iff] at h
    obtain ⟨middle, hfirst, hrest⟩ := h
    exact (ih hrest).trans (size_store hfirst)

/-! ## Accesses -/

section

variable {block : Block Value} {front back : List (Option Value)}

theorem load_eq {value : Value} (hcells : block.cells = front ++ some value :: back) :
    block.load front.length = some value := by
  simp [load, hcells]

theorem store_eq {cell : Option Value} (hcells : block.cells = front ++ cell :: back)
    (value : Value) : block.store front.length value = some ⟨front ++ some value :: back⟩ := by
  simp [store, size, hcells]

theorem loadAll_eq {values : List Value} (back : List (Option Value))
    (hcells : block.cells = front ++ values.map some ++ back) :
    block.loadAll front.length values.length = some values := by
  induction values generalizing front with
  | nil => rfl
  | cons value values ih =>
    have hfirst : block.cells = front ++ some value :: (values.map some ++ back) := by
      simpa using hcells
    have hothers : block.cells = front ++ [some value] ++ values.map some ++ back := by
      simpa using hcells
    have hload := load_eq hfirst
    have hrest := ih hothers
    rw [List.length_append, List.length_singleton] at hrest
    simp [loadAll, hload, hrest]

theorem storeAll_eq {cells : List (Option Value)} (hcells : block.cells = front ++ cells ++ back)
    {values : List Value} (hlength : cells.length = values.length) :
    block.storeAll front.length values = some ⟨front ++ values.map some ++ back⟩ := by
  induction values generalizing front cells block with
  | nil =>
    obtain rfl := List.length_eq_zero_iff.mp hlength
    simp only [storeAll, List.map_nil, Option.some.injEq]
    exact Block.ext hcells
  | cons value values ih =>
    obtain ⟨cell, rest, rfl⟩ := List.exists_cons_of_length_eq_add_one hlength
    have hstore : block.store front.length value =
        some ⟨front ++ some value :: (rest ++ back)⟩ := store_eq (by simpa using hcells) value
    have hothers : (⟨front ++ some value :: (rest ++ back)⟩ : Block Value).cells =
        front ++ [some value] ++ rest ++ back := by simp
    have hrest := ih hothers (by simpa using hlength)
    rw [List.length_append, List.length_singleton] at hrest
    simp [storeAll, hstore, hrest]

/-- Writes succeed as long as they stay within the block. -/
theorem storeAll_isSome_iff {block : Block Value} {position : ℕ} {values : List Value}
    (hvalues : values ≠ []) :
    (block.storeAll position values).isSome = true ↔ position + values.length ≤ block.size := by
  induction values generalizing position block with
  | nil => exact absurd rfl hvalues
  | cons value values ih =>
    by_cases hposition : position < block.size
    · have hstore : block.store position value =
          some ⟨block.cells.set position (some value)⟩ := if_pos hposition
      rw [storeAll, hstore, Option.bind_eq_bind, Option.bind_some]
      by_cases hlast : values = []
      · subst hlast
        simp only [storeAll, Option.isSome_some, List.length_singleton, true_iff]
        omega
      · rw [ih hlast, size_store hstore, List.length_cons]
        omega
    · have hstore : block.store position value = none := if_neg hposition
      simp only [storeAll, hstore, Option.bind_eq_bind, Option.bind_none, Option.isSome_none,
        Bool.false_eq_true, List.length_cons, false_iff]
      omega

theorem move_eq {cells : List (Option Value)} {values : List Value} {source : ℕ}
    (hload : block.loadAll source values.length = some values)
    (hcells : block.cells = front ++ cells ++ back) (hlength : cells.length = values.length) :
    block.move front.length source values.length = some ⟨front ++ values.map some ++ back⟩ := by
  simp [move, hload, storeAll_eq hcells hlength]

theorem stringAt_eq_takeWhile [DecidableEq Value] {terminator : Value} {values : List Value}
    (hcells : block.cells = front ++ values.map some ++ some terminator :: back) :
    block.stringAt terminator front.length = some (values.takeWhile (· ≠ terminator)) := by
  have hdrop : block.cells.drop front.length = values.map some ++ some terminator :: back := by
    simp [hcells]
  rw [stringAt, hdrop]
  clear hcells hdrop
  induction values with
  | nil => simp [untilTerminator]
  | cons value values ih =>
    by_cases hvalue : value = terminator
    · simp [untilTerminator, hvalue]
    · simp [untilTerminator, hvalue, ih]

theorem stringAt_eq [DecidableEq Value] {terminator : Value} {values : List Value}
    (back : List (Option Value))
    (hcells : block.cells = front ++ values.map some ++ some terminator :: back)
    (hvalues : terminator ∉ values) :
    block.stringAt terminator front.length = some values := by
  rw [stringAt_eq_takeWhile hcells, List.takeWhile_eq_self_iff.mpr]
  intro value hvalue
  simpa using ne_of_mem_of_not_mem hvalue hvalues

/-- A terminated string written at any position can be read there. -/
theorem storeAll_string [DecidableEq Value] {terminator : Value} {values : List Value}
    {position : ℕ} (hroom : position + values.length + 1 ≤ block.size)
    (hvalues : terminator ∉ values) :
    ∃ next, block.storeAll position (values ++ [terminator]) = some next ∧
      next.stringAt terminator position = some values := by
  have hposition : (block.cells.take position).length = position := by
    rw [List.length_take]
    exact Nat.min_eq_left (by unfold size at hroom; omega)
  have hcells : block.cells = block.cells.take position ++
      (block.cells.drop position).take (values.length + 1) ++
        (block.cells.drop position).drop (values.length + 1) := by
    rw [List.append_assoc, List.take_append_drop, List.take_append_drop]
  have hlength : ((block.cells.drop position).take (values.length + 1)).length =
      (values ++ [terminator]).length := by
    unfold size at hroom
    simp only [List.length_take, List.length_drop, List.length_append, List.length_singleton]
    omega
  have hstore := storeAll_eq hcells hlength
  rw [hposition] at hstore
  refine ⟨_, hstore, ?_⟩
  have hstored : (⟨block.cells.take position ++ (values ++ [terminator]).map some ++
        (block.cells.drop position).drop (values.length + 1)⟩ : Block Value).cells =
      block.cells.take position ++ values.map some ++
        some terminator :: (block.cells.drop position).drop (values.length + 1) := by simp
  have hstring := stringAt_eq _ hstored hvalues
  rwa [hposition] at hstring

theorem agreeOutside_refl (start length : ℕ) (block : Block Value) :
    AgreeOutside start length block block := fun _ _ ↦ rfl

theorem agreeOutside_of_length_eq {before after : List (Option Value)} {length : ℕ}
    (hbefore : before.length = length) (hafter : after.length = length) :
    AgreeOutside front.length length ⟨front ++ before ++ back⟩ ⟨front ++ after ++ back⟩ := by
  rintro position (hposition | hposition)
  · simp [List.getElem?_append, hposition, List.append_assoc]
  · have hfront : ¬ position < front.length := by omega
    have hbetween : ¬ position - front.length < length := by omega
    simp [List.getElem?_append, List.append_assoc, hfront, hbefore, hafter, hbetween]

end

/-! ## Texts written one behind the other -/

/-- The block begins with these values. -/
def Begins (block : Block Value) (values : List Value) : Prop :=
  ∃ back, block.cells = values.map some ++ back

section

variable {block : Block Value} {values : List Value}

theorem begins_nil (block : Block Value) : block.Begins [] := ⟨block.cells, rfl⟩

theorem Begins.of_append {more : List Value} (h : block.Begins (values ++ more)) :
    block.Begins values := by
  obtain ⟨back, hback⟩ := h
  exact ⟨more.map some ++ back, by simp [hback]⟩

theorem Begins.storeAll (h : block.Begins values) (more : List Value)
    (hroom : values.length + more.length ≤ block.size) :
    ∃ next, block.storeAll values.length more = some next ∧ next.Begins (values ++ more) ∧
      next.size = block.size := by
  obtain ⟨back, hback⟩ := h
  have hlength : values.length + back.length = block.size := by simp [size, hback]
  have hcells : block.cells = values.map some ++ back.take more.length ++
      back.drop more.length := by
    rw [List.append_assoc, List.take_append_drop, hback]
  have hmore : (back.take more.length).length = more.length := by
    rw [List.length_take]
    omega
  have hstore := storeAll_eq hcells hmore
  rw [List.length_map] at hstore
  refine ⟨_, hstore, ⟨back.drop more.length, by simp⟩, ?_⟩
  exact size_storeAll hstore

theorem Begins.store (h : block.Begins values) (value : Value)
    (hroom : values.length < block.size) :
    ∃ next, block.store values.length value = some next ∧ next.Begins (values ++ [value]) ∧
      next.size = block.size := by
  obtain ⟨next, hnext, hbegins, hsize⟩ := h.storeAll [value] hroom
  simp only [Block.storeAll, Option.bind_eq_bind, Option.bind_fun_some] at hnext
  exact ⟨next, hnext, hbegins, hsize⟩

theorem Begins.reallocate (h : block.Begins values) {size : ℕ} (hsize : values.length ≤ size) :
    (block.reallocate size).Begins values := by
  obtain ⟨back, hback⟩ := h
  have htake : block.cells.take size = values.map some ++ back.take (size - values.length) := by
    rw [hback, List.take_append, List.length_map, List.take_of_length_le]
    rwa [List.length_map]
  refine ⟨back.take (size - values.length) ++ List.replicate (size - block.size) none, ?_⟩
  rw [Block.reallocate, htake, List.append_assoc]

theorem Begins.stringAt [DecidableEq Value] {terminator : Value}
    (h : block.Begins (values ++ [terminator])) (hvalues : terminator ∉ values) :
    block.stringAt terminator 0 = some values := by
  obtain ⟨back, hback⟩ := h
  have hcells : block.cells = [] ++ values.map some ++ some terminator :: back := by
    simp [hback]
  exact stringAt_eq back hcells hvalues

end

end Block

end Tgvisd
