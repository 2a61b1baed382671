import Mathlib.Data.List.TakeWhile
import Tgvisd.Lib.Lines

/-!
# A process and its streams

What a process has printed, and what it has got from the C library and has not given back. A string
of C is what stands before the first terminator.
-/

namespace Tgvisd.Stdio

/-- What `errno` is after a failure. -/
structure Errno where
  code : ℕ
  ne_zero : code ≠ 0
  deriving DecidableEq, Repr

/-- What the names stand for: the bytes of a file, or the reason why it cannot be opened. -/
abbrev Files := List Char → Except Errno (List Char)

/-- The streams that have not been closed, and the blocks that have not been freed. -/
structure Process where
  stdout : List Char := []
  streams : ℕ := 0
  blocks : ℕ := 0
  deriving DecidableEq, Repr

abbrev Program := StateM Process

def printf (text : List Char) : Program Unit :=
  modify fun process ↦ { process with stdout := process.stdout ++ text }

/-- The stream stands for the bytes that it will give. -/
def fopen (files : Files) (name : List Char) : ExceptT Errno Program (List Char) :=
  match files name with
  | .error errno => throw errno
  | .ok content => do
    modify fun process ↦ { process with streams := process.streams + 1 }
    return content

def fclose : Program Unit :=
  modify fun process ↦ { process with streams := process.streams - 1 }

def free : Program Unit :=
  modify fun process ↦ { process with blocks := process.blocks - 1 }

/-- `snprintf` into a buffer of the given size. -/
def snprintf (size : ℕ) (text : List Char) : List Char := text.take (size - 1)

def cString (bytes : List Char) : List Char := bytes.takeWhile (· ≠ '\x00')

/-- `if (p[l - 1] == '\n') p[--l] = '\0';` -/
def cutNewline (text : List Char) : List Char :=
  if text.getLast? = some '\n' then text.dropLast else text

/-- A program goes on with a result, and stops at an error. -/
theorem run_bind {Error Value Next : Type} (program : ExceptT Error Program Value)
    (rest : Value → ExceptT Error Program Next) (process : Process) :
    (program >>= rest).run.run process = match program.run.run process with
      | (.ok value, next) => (rest value).run.run next
      | (.error err, next) => (.error err, next) := by
  simp only [ExceptT.run_bind, StateT.run_bind]
  rcases program.run.run process with ⟨_ | _, _⟩ <;> rfl

variable {text : List Char} {size : ℕ}

theorem snprintf_eq (h : text.length < size) : snprintf size text = text :=
  List.take_of_length_le (by omega)

theorem length_cString_le (bytes : List Char) : (cString bytes).length ≤ bytes.length :=
  (List.takeWhile_sublist _).length_le

theorem length_cutNewline_le (text : List Char) : (cutNewline text).length ≤ text.length := by
  unfold cutNewline
  split
  · rw [List.length_dropLast]
    omega
  · exact Nat.le_refl _

theorem cString_eq (h : '\x00' ∉ text) : cString text = text := by
  apply List.takeWhile_eq_self_iff.mpr
  intro c hc
  simpa using ne_of_mem_of_not_mem hc h

theorem cutNewline_append (text : List Char) : cutNewline (text ++ ['\n']) = text := by
  simp [cutNewline]

end Tgvisd.Stdio
