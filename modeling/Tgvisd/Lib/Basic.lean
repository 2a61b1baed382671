import Mathlib.Data.List.TakeWhile
import Mathlib.Logic.Basic

/-!
# Results and numerals

Inversion of a computation with exceptions, one statement after the other, and the decimal
notation of a number: a text that consists of digits, at least one.
-/

namespace Tgvisd

universe u v

theorem bind_eq_ok {ε : Type u} {α β : Type v} {first : Except ε α} {rest : α → Except ε β}
    {result : β} : (first >>= rest) = .ok result ↔
      ∃ middle, first = .ok middle ∧ rest middle = .ok result := by
  cases first <;> simp [bind, Except.bind]

theorem pure_eq_ok {ε : Type u} {α : Type v} {value result : α} :
    (pure value : Except ε α) = .ok result ↔ value = result := by
  simp [pure, Except.pure]

theorem bind_eq_error {ε : Type u} {α β : Type v} {first : Except ε α} {rest : α → Except ε β}
    {error : ε} : (first >>= rest) = .error error ↔
      first = .error error ∨ ∃ middle, first = .ok middle ∧ rest middle = .error error := by
  cases first <;> simp [bind, Except.bind]

namespace Decimal

def isDigit (c : Char) : Bool := '0' ≤ c ∧ c ≤ '9'

def digitValue (c : Char) : ℕ := c.toNat - '0'.toNat

/-- The value of a row of digits. -/
def value (digits : List Char) : ℕ := digits.foldl (fun n c ↦ 10 * n + digitValue c) 0

/-- The number whose decimal notation the text is. -/
def read (text : List Char) : Option ℕ :=
  if text ≠ [] ∧ text.all isDigit then some (value text) else none

theorem read_eq_some_iff {text : List Char} {n : ℕ} :
    read text = some n ↔ text ≠ [] ∧ (∀ c ∈ text, isDigit c = true) ∧ value text = n := by
  simp [read, and_assoc]

theorem takeWhile_isDigit {text : List Char} (h : ∀ c ∈ text, isDigit c = true) :
    text.takeWhile isDigit = text := List.takeWhile_eq_self_iff.mpr h

end Decimal

end Tgvisd
