import Mathlib.Data.List.Basic

/-!
# Reading a stream by lines

`fgets` reads at most a buffer without its terminator, and nothing behind a newline. A program that
calls it until it returns nothing gets the stream in pieces; if no line is longer than the buffer
allows, the pieces are the lines.
-/

namespace Tgvisd.Lines

universe u

variable {Byte : Type u} [DecidableEq Byte] (newline : Byte)

/-- At most so many bytes, and nothing behind a newline; and what is left. -/
def next : ℕ → List Byte → List Byte × List Byte
  | 0, stream => ([], stream)
  | _ + 1, [] => ([], [])
  | limit + 1, byte :: stream =>
    if byte = newline then ([byte], stream)
    else (byte :: (next limit stream).1, (next limit stream).2)

/-- `fgets` with a buffer of the given size: what it reads, if anything, and what is left. -/
def fgets (size : ℕ) (stream : List Byte) : Option (List Byte × List Byte) :=
  if stream = [] then none else some (next newline (size - 1) stream)

/-- What so many calls read. -/
def readsIn (size : ℕ) : ℕ → List Byte → List (List Byte)
  | 0, _ => []
  | calls + 1, stream =>
    match fgets newline size stream with
    | none => []
    | some (piece, rest) => piece :: readsIn size calls rest

/-- What the calls read up to the one that reads nothing: no call but that one reads nothing, so
there are at most as many as there are bytes. -/
def reads (size : ℕ) (stream : List Byte) : List (List Byte) :=
  readsIn newline size stream.length stream

/-- The stream of the lines. -/
def written (lines : List (List Byte)) : List Byte := lines.flatMap fun line ↦ line ++ [newline]

variable {newline} {size limit calls : ℕ} {stream piece rest line : List Byte}

/-! ## One call -/

theorem next_append (limit : ℕ) (stream : List Byte) :
    (next newline limit stream).1 ++ (next newline limit stream).2 = stream := by
  induction limit generalizing stream with
  | zero => rfl
  | succ limit ih =>
    cases stream with
    | nil => rfl
    | cons byte stream =>
      rw [next]
      split
      · rfl
      · exact congrArg (byte :: ·) (ih stream)

theorem length_next_le (limit : ℕ) (stream : List Byte) :
    (next newline limit stream).1.length ≤ limit := by
  induction limit generalizing stream with
  | zero => simp [next]
  | succ limit ih =>
    cases stream with
    | nil => simp [next]
    | cons byte stream =>
      rw [next]
      split
      · simp
      · simpa using ih stream

theorem next_ne_nil (hlimit : 0 < limit) (hstream : stream ≠ []) :
    (next newline limit stream).1 ≠ [] := by
  obtain ⟨limit, rfl⟩ := Nat.exists_eq_add_of_lt hlimit
  obtain ⟨byte, stream, rfl⟩ := List.exists_cons_of_ne_nil hstream
  rw [Nat.zero_add, next]
  split <;> simp

theorem next_line (hline : newline ∉ line) (hlength : line.length < limit) :
    next newline limit (line ++ newline :: rest) = (line ++ [newline], rest) := by
  induction line generalizing limit with
  | nil =>
    obtain ⟨limit, rfl⟩ := Nat.exists_eq_add_of_lt hlength
    simp [next]
  | cons byte line ih =>
    cases limit with
    | zero => simp at hlength
    | succ limit =>
      rw [List.mem_cons, not_or] at hline
      obtain ⟨hbyte, hline⟩ := hline
      have hnext := ih hline (by simpa using hlength)
      simp [next, Ne.symm hbyte, hnext]

/-! ## All calls -/

theorem fgets_eq (hsize : 2 ≤ size) (hread : fgets newline size stream = some (piece, rest)) :
    piece ++ rest = stream ∧ piece ≠ [] ∧ piece.length < size := by
  simp only [fgets, Option.ite_none_left_eq_some, Option.some.injEq] at hread
  obtain ⟨hstream, hnext⟩ := hread
  have hlength : (next newline (size - 1) stream).1.length ≤ size - 1 := length_next_le _ _
  have hne : (next newline (size - 1) stream).1 ≠ [] := next_ne_nil (by omega) hstream
  have happend : (next newline (size - 1) stream).1 ++ (next newline (size - 1) stream).2 =
      stream := next_append _ _
  simp only [hnext] at happend hlength hne
  exact ⟨happend, hne, by omega⟩

theorem length_rest_lt (hsize : 2 ≤ size)
    (hread : fgets newline size stream = some (piece, rest)) : rest.length < stream.length := by
  obtain ⟨rfl, hne, -⟩ := fgets_eq hsize hread
  have hpos := List.length_pos_of_ne_nil hne
  rw [List.length_append]
  omega

theorem readsIn_nil (size calls : ℕ) : readsIn newline size calls [] = [] := by
  cases calls <;> rfl

/-- More calls than there are bytes read no more. -/
theorem readsIn_congr {calls' : ℕ} (hsize : 2 ≤ size) (hcalls : stream.length ≤ calls)
    (hcalls' : stream.length ≤ calls') :
    readsIn newline size calls stream = readsIn newline size calls' stream := by
  induction calls generalizing stream calls' with
  | zero =>
    obtain rfl := List.length_eq_zero_iff.mp (Nat.le_zero.mp hcalls)
    rw [readsIn_nil, readsIn_nil]
  | succ calls ih =>
    cases calls' with
    | zero =>
      obtain rfl := List.length_eq_zero_iff.mp (Nat.le_zero.mp hcalls')
      rw [readsIn_nil, readsIn_nil]
    | succ calls' =>
      rw [readsIn, readsIn]
      cases hread : fgets newline size stream with
      | none => rfl
      | some read =>
        have hrest := length_rest_lt hsize hread
        exact congrArg (read.1 :: ·) (ih (by omega) (by omega))

theorem reads_eq (hsize : 2 ≤ size) (hread : fgets newline size stream = some (piece, rest)) :
    reads newline size stream = piece :: reads newline size rest := by
  have hrest := length_rest_lt hsize hread
  obtain ⟨calls, hcalls⟩ : ∃ calls, stream.length = calls + 1 := ⟨stream.length - 1, by omega⟩
  rw [reads, hcalls, readsIn, hread]
  exact congrArg (piece :: ·) (readsIn_congr hsize (by omega) (Nat.le_refl _))

/-- Nothing is lost, and no piece is empty or longer than the buffer allows. -/
theorem reads_spec (hsize : 2 ≤ size) (stream : List Byte) :
    (reads newline size stream).flatten = stream ∧
      ∀ piece ∈ reads newline size stream, piece ≠ [] ∧ piece.length < size := by
  induction hlength : stream.length using Nat.strongRecOn generalizing stream with
  | _ length ih =>
    cases hread : fgets newline size stream with
    | none =>
      have hstream : stream = [] := by
        by_contra hne
        simp [fgets, hne] at hread
      subst hstream
      simp [reads, readsIn]
    | some read =>
      obtain ⟨happend, hne, hpiece⟩ := fgets_eq hsize hread
      have hrest := length_rest_lt hsize hread
      obtain ⟨hflatten, hpieces⟩ := ih read.2.length (by omega) read.2 rfl
      rw [reads_eq hsize hread, List.flatten_cons, hflatten, List.forall_mem_cons]
      exact ⟨happend, ⟨hne, hpiece⟩, hpieces⟩

/-! ## Lines -/

/-- A stream of lines that are short enough is read line by line. -/
theorem reads_written {lines : List (List Byte)} (hsize : 2 ≤ size)
    (hlines : ∀ line ∈ lines, newline ∉ line ∧ line.length + 2 ≤ size) :
    reads newline size (written newline lines) = lines.map fun line ↦ line ++ [newline] := by
  induction lines with
  | nil => rfl
  | cons line lines ih =>
    obtain ⟨⟨hnewline, hlength⟩, hlines⟩ := List.forall_mem_cons.mp hlines
    have hread : fgets newline size (written newline (line :: lines)) =
        some (line ++ [newline], written newline lines) := by
      have hnext : next newline (size - 1) (line ++ newline :: written newline lines) =
          (line ++ [newline], written newline lines) := next_line hnewline (by omega)
      simpa [fgets, written] using hnext
    rw [reads_eq hsize hread, ih hlines, List.map_cons]

end Tgvisd.Lines
