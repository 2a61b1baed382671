import Mathlib.Data.List.Basic
import Mathlib.Data.List.Nodup
import Mathlib.Data.Multiset.Bind

/-!
# Numbered tables

A table whose rows carry a number of their own, in the order of their insertion. A number that is
given to a new row is larger than all numbers of the table, so no number occurs twice, rows keep
their positions, and a reference to a row by its number can be replaced by the row's position. A
join on the number of a table finds one row, or none for a reference that leads nowhere.
-/

namespace Tgvisd

universe u v

structure Numbered (Row : Type u) where
  number : UInt64
  row : Row
  deriving DecidableEq, Repr

abbrev NumberedTable (Row : Type u) := List (Numbered Row)

namespace NumberedTable

variable {Row : Type u} {table : NumberedTable Row} {number other : UInt64} {row : Row}

def numbers (table : NumberedTable Row) : List UInt64 := table.map Numbered.number

def rows (table : NumberedTable Row) : List Row := table.map Numbered.row

/-- Where the row with a number stands. -/
def position (table : NumberedTable Row) (number : UInt64) : Nat := table.numbers.idxOf number

def rowAt (table : NumberedTable Row) (number : UInt64) : Option Row :=
  (table.find? fun entry ↦ entry.number = number).map Numbered.row

def insert (number : UInt64) (row : Row) (table : NumberedTable Row) : NumberedTable Row :=
  table ++ [⟨number, row⟩]

def update (number : UInt64) (change : Row → Row) (table : NumberedTable Row) :
    NumberedTable Row :=
  table.map fun entry ↦
    if entry.number = number then { entry with row := change entry.row } else entry

/-- Larger than every number that was given out. -/
def Fresh (number : UInt64) (table : NumberedTable Row) : Prop :=
  ∀ given ∈ table.numbers, given < number

instance : Decidable (Fresh number table) :=
  List.decidableBAll (fun given ↦ given < number) table.numbers

theorem Fresh.notMem (h : Fresh number table) : number ∉ table.numbers :=
  fun hmem ↦ absurd (h number hmem) (UInt64.lt_irrefl number)

/-- The numbers that the next row may get. -/
def Available (number : UInt64) (table : NumberedTable Row) : Prop :=
  0 < number ∧ number < 9223372036854775808 ∧ Fresh number table

instance : Decidable (Available number table) := inferInstanceAs (Decidable (_ ∧ _ ∧ _))

/-- All numbers were available when they were given out. -/
structure Sound (table : NumberedTable Row) : Prop where
  nodup : table.numbers.Nodup
  pos : ∀ number ∈ table.numbers, 0 < number
  lt : ∀ number ∈ table.numbers, number < 9223372036854775808

theorem sound_nil : Sound ([] : NumberedTable Row) := by
  constructor <;> simp [numbers]

theorem mem_numbers_iff : number ∈ table.numbers ↔ ∃ row, ⟨number, row⟩ ∈ table := by
  unfold numbers
  rw [List.mem_map]
  constructor
  · rintro ⟨⟨_, row⟩, hmem, rfl⟩
    exact ⟨row, hmem⟩
  · rintro ⟨row, hmem⟩
    exact ⟨_, hmem, rfl⟩

/-! ## Insertion -/

@[simp] theorem numbers_insert : (insert number row table).numbers = table.numbers ++ [number] := by
  simp [insert, numbers]

@[simp] theorem rows_insert : (insert number row table).rows = table.rows ++ [row] := by
  simp [insert, rows]

@[simp] theorem length_rows : table.rows.length = table.length := by simp [rows]

theorem mem_insert {entry : Numbered Row} :
    entry ∈ insert number row table ↔ entry ∈ table ∨ entry = ⟨number, row⟩ := by
  simp [insert]

theorem nodup_insert (hnodup : table.numbers.Nodup) (hfresh : number ∉ table.numbers) :
    (insert number row table).numbers.Nodup := by
  rw [numbers_insert, List.nodup_append]
  refine ⟨hnodup, List.nodup_singleton number, ?_⟩
  intro given hgiven new hnew heq
  rw [List.mem_singleton] at hnew
  exact hfresh (by rwa [← hnew, ← heq])

theorem Sound.insert (h : Sound table) (havailable : Available number table) :
    Sound (insert number row table) := by
  obtain ⟨hpos, hlt, hfresh⟩ := havailable
  constructor
  · exact nodup_insert h.nodup hfresh.notMem
  · intro given hgiven
    rw [numbers_insert, List.mem_append, List.mem_singleton] at hgiven
    obtain hgiven | rfl := hgiven
    · exact h.pos given hgiven
    · exact hpos
  · intro given hgiven
    rw [numbers_insert, List.mem_append, List.mem_singleton] at hgiven
    obtain hgiven | rfl := hgiven
    · exact h.lt given hgiven
    · exact hlt

theorem position_insert_of_mem (hmem : other ∈ table.numbers) :
    (insert number row table).position other = table.position other := by
  unfold position
  rw [numbers_insert, List.idxOf_append_of_mem hmem]

/-- A new row is the last one. -/
theorem position_insert_self (hfresh : number ∉ table.numbers) :
    (insert number row table).position number = table.rows.length := by
  unfold position
  rw [numbers_insert, List.idxOf_append_of_notMem hfresh]
  simp [numbers]

/-! ## References -/

theorem rowAt_insert_of_mem (hmem : other ∈ table.numbers) :
    (insert number row table).rowAt other = table.rowAt other := by
  obtain ⟨found, hfound⟩ := mem_numbers_iff.mp hmem
  have hsome : (table.find? fun entry ↦ entry.number = other).isSome := by
    rw [List.find?_isSome]
    exact ⟨_, hfound, by simp⟩
  obtain ⟨entry, hentry⟩ := Option.isSome_iff_exists.mp hsome
  simp [rowAt, insert, hentry]

theorem rowAt_insert_self (hfresh : number ∉ table.numbers) :
    (insert number row table).rowAt number = some row := by
  have hnone : (table.find? fun entry ↦ entry.number = number) = none := by
    rw [List.find?_eq_none]
    intro entry hentry heq
    exact hfresh (mem_numbers_iff.mpr ⟨entry.row, by simpa [← of_decide_eq_true heq] using hentry⟩)
  simp [rowAt, insert, hnone]

theorem mem_of_rowAt (h : table.rowAt number = some row) : ⟨number, row⟩ ∈ table := by
  obtain ⟨entry, hentry, rfl⟩ := Option.map_eq_some_iff.mp h
  have hnumber := List.find?_some hentry
  have hmem := List.mem_of_find?_eq_some hentry
  obtain rfl : entry.number = number := of_decide_eq_true hnumber
  exact hmem

theorem mem_numbers_of_rowAt (h : table.rowAt number = some row) : number ∈ table.numbers :=
  mem_numbers_iff.mpr ⟨row, mem_of_rowAt h⟩

/-- Numbers are keys. -/
theorem rowAt_of_mem (hnodup : table.numbers.Nodup) (hmem : ⟨number, row⟩ ∈ table) :
    table.rowAt number = some row := by
  induction table with
  | nil => simp at hmem
  | cons entry table ih =>
    rw [numbers, List.map_cons, List.nodup_cons] at hnodup
    obtain rfl | htail := List.mem_cons.mp hmem
    · simp [rowAt]
    · have hne : entry.number ≠ number := by
        rintro rfl
        exact hnodup.1 (mem_numbers_iff.mpr ⟨row, htail⟩)
      have hrest := ih hnodup.2 htail
      unfold rowAt at hrest ⊢
      rwa [List.find?_cons_of_neg (by simpa using hne)]

theorem exists_rowAt (hmem : number ∈ table.numbers) : ∃ row, table.rowAt number = some row := by
  obtain ⟨row, hrow⟩ := mem_numbers_iff.mp hmem
  unfold rowAt
  have hsome : (table.find? fun entry ↦ entry.number = number).isSome := by
    rw [List.find?_isSome]
    exact ⟨_, hrow, by simp⟩
  obtain ⟨entry, hentry⟩ := Option.isSome_iff_exists.mp hsome
  exact ⟨entry.row, by rw [hentry]; rfl⟩

/-- Where the rows have different keys, a key belongs to one number. -/
theorem number_unique {Key : Type v} {key : Row → Key} (hnodup : (table.rows.map key).Nodup)
    {first second : UInt64} {value : Key} (hfirst : (table.rowAt first).map key = some value)
    (hsecond : (table.rowAt second).map key = some value) : first = second := by
  obtain ⟨row, hrow, hkey⟩ := Option.map_eq_some_iff.mp hfirst
  obtain ⟨other, hother, hkey'⟩ := Option.map_eq_some_iff.mp hsecond
  have hentries : (table.map (key ∘ Numbered.row)).Nodup := by
    simpa [rows, List.map_map] using hnodup
  have heq := List.inj_on_of_nodup_map hentries (mem_of_rowAt hrow) (mem_of_rowAt hother)
    (hkey.trans hkey'.symm)
  exact congrArg Numbered.number heq

theorem getElem?_rows_position :
    table.rows[table.position number]? = table.rowAt number := by
  induction table with
  | nil => simp [rows, rowAt]
  | cons entry table ih =>
    by_cases hnumber : entry.number = number
    · subst hnumber
      simp [rows, rowAt, position, numbers]
    · have hposition : position (entry :: table) number = position table number + 1 := by
        simp [position, numbers, List.idxOf_cons_ne _ hnumber]
      have hrowAt : rowAt (entry :: table) number = rowAt table number := by
        unfold rowAt
        rw [List.find?_cons_of_neg (by simpa using hnumber)]
      rw [hposition, hrowAt, ← ih]
      rfl

/-- The first row with a property stands where its number says. -/
theorem findIdx?_of_find? (hnodup : table.numbers.Nodup) {property : Numbered Row → Bool}
    {entry : Numbered Row} (h : table.find? property = some entry) :
    table.findIdx? property = some (table.position entry.number) := by
  induction table with
  | nil => simp at h
  | cons first table ih =>
    rw [numbers, List.map_cons, List.nodup_cons] at hnodup
    cases hproperty : property first with
    | true =>
      rw [List.find?_cons_of_pos hproperty, Option.some.injEq] at h
      subst h
      simp [List.findIdx?_cons, hproperty, position, numbers]
    | false =>
      rw [List.find?_cons_of_neg (by simp [hproperty])] at h
      have hmem : entry.number ∈ numbers table :=
        mem_numbers_iff.mpr ⟨entry.row, List.mem_of_find?_eq_some h⟩
      have hne : first.number ≠ entry.number := fun heq ↦ hnodup.1 (heq ▸ hmem)
      have hposition : position (first :: table) entry.number =
          position table entry.number + 1 := by
        simp [position, numbers, List.idxOf_cons_ne _ hne]
      rw [List.findIdx?_cons, hproperty, hposition, ih hnodup.2 h]
      rfl

/-! ## Changes -/

@[simp] theorem numbers_update {change : Row → Row} :
    (update number change table).numbers = table.numbers := by
  unfold update numbers
  rw [List.map_map]
  apply List.map_congr_left
  intro entry _
  by_cases h : entry.number = number <;> simp [h]

@[simp] theorem position_update {change : Row → Row} :
    (update number change table).position other = table.position other := by
  simp [position]

theorem rows_update (hnodup : table.numbers.Nodup) {change : Row → Row} :
    (update number change table).rows = table.rows.modify (table.position number) change := by
  induction table with
  | nil => simp [update, rows]
  | cons entry table ih =>
    rw [numbers, List.map_cons, List.nodup_cons] at hnodup
    by_cases hnumber : entry.number = number
    · subst hnumber
      have hrest : update entry.number change table = table := by
        unfold update
        rw [List.map_congr_left (g := id), List.map_id]
        intro other hother
        have hne : other.number ≠ entry.number := by
          intro heq
          exact hnodup.1 (heq ▸ List.mem_map_of_mem hother)
        simp [hne]
      have hcons : update entry.number change (entry :: table) =
          { entry with row := change entry.row } :: update entry.number change table := by
        simp [update]
      rw [hcons, hrest]
      simp [rows, position, numbers]
    · have hcons : update number change (entry :: table) = entry :: update number change table := by
        simp [update, hnumber]
      have hposition : position (entry :: table) number = position table number + 1 := by
        simp [position, numbers, List.idxOf_cons_ne _ hnumber]
      have hrest := ih hnodup.2
      unfold rows at hrest ⊢
      rw [hcons, hposition, List.map_cons, List.map_cons, List.modify_succ_cons, hrest]

theorem Sound.update (h : Sound table) {change : Row → Row} :
    Sound (update number change table) :=
  ⟨by rw [numbers_update]; exact h.nodup, by rw [numbers_update]; exact h.pos,
    by rw [numbers_update]; exact h.lt⟩

theorem mem_update {change : Row → Row} {entry : Numbered Row}
    (h : entry ∈ update number change table) :
    ∃ old ∈ table, old.number = entry.number ∧
      (entry.row = old.row ∨ entry.row = change old.row) := by
  obtain ⟨old, hold, rfl⟩ := List.mem_map.mp h
  refine ⟨old, hold, ?_⟩
  by_cases hnumber : old.number = number <;> simp [hnumber]

/-! ## Joins -/

theorem rowAt_eq_none (hnumber : number ∉ table.numbers) : table.rowAt number = none := by
  cases hrow : table.rowAt number with
  | none => rfl
  | some row => exact absurd (mem_numbers_of_rowAt hrow) hnumber

/-- By induction on the table: only the row with the number takes part. -/
theorem bind_number {Shown : Type v} (hnodup : table.numbers.Nodup)
    (number : UInt64) (join : Row → Multiset Shown) :
    (table : Multiset (Numbered Row)).bind
        (fun entry ↦ if entry.number = number then join entry.row else 0) =
      (table.rowAt number).elim 0 join := by
  induction table with
  | nil => rfl
  | cons entry table ih =>
    rw [numbers, List.map_cons, List.nodup_cons] at hnodup
    rw [← Multiset.cons_coe, Multiset.cons_bind, ih hnodup.2]
    by_cases hnumber : entry.number = number
    · subst hnumber
      have hnone : rowAt table entry.number = none := rowAt_eq_none hnodup.1
      have hsome : rowAt (entry :: table) entry.number = some entry.row := by simp [rowAt]
      rw [if_pos rfl, hnone, hsome]
      exact add_zero _
    · have hrest : rowAt (entry :: table) number = rowAt table number := by
        unfold rowAt
        rw [List.find?_cons_of_neg (by simpa using hnumber)]
      rw [if_neg hnumber, zero_add, hrest]

end NumberedTable

end Tgvisd
