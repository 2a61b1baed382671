import Mathlib.Data.List.Basic

/-!
# How a POSIX shell reads a line

Token recognition and quoting: a line is scanned into words, operators and the numbers in front of
redirections. Every character of a word is kept with what it is: plain, quoted, or active, that is
the beginning of an expansion, a substitution or a pattern. The tokens of a pipeline are then
grouped into its commands; other grammar is not read.
-/

namespace Tgvisd

namespace Shell

/-- A character of a word. -/
inductive Piece
  | plain (c : Char)
  | quoted (c : Char)
  | active (c : Char)
  deriving DecidableEq, Repr

abbrev Word := List Piece

/-- A word of characters that need no quoting. -/
def bare (text : List Char) : Word := text.map .plain

/-- A word that is the given text, character by character. -/
def verbatim (text : List Char) : Word := text.map .quoted

inductive Token
  | word (word : Word)
  | ioNumber (digits : Word)
  | operator (text : List Char)
  deriving DecidableEq, Repr

/-- Where the scanner is: between tokens, in a comment, in an operator, after a backslash (with the
word before it, if there is one), or in a word, outside quotes, inside single quotes, inside double
quotes and after a backslash there. -/
inductive Place
  | between
  | comment
  | operator (text : List Char)
  | escaped (word : Option Word)
  | plain (word : Word)
  | single (word : Word)
  | double (word : Word)
  | doubleEscaped (word : Word)
  deriving DecidableEq, Repr

def isBlank (c : Char) : Bool := c = ' ' || c = '\t'

def isOperatorStart (c : Char) : Bool := c ∈ ['|', '&', ';', '<', '>', '(', ')', '\n']

/-- The operators of more than one character. -/
def longOperators : List (List Char) :=
  [['&', '&'], ['|', '|'], [';', ';'], ['<', '<'], ['>', '>'], ['<', '&'], ['>', '&'], ['<', '>'],
    ['>', '|'], ['<', '<', '-']]

/-- Outside quotes. -/
def isActive (c : Char) : Bool := c ∈ ['$', '\x60', '*', '?', '[', '~']

/-- A character of a word, outside quotes. -/
def inWord (word : Word) (c : Char) : Place :=
  if c = '\'' then .single word
  else if c = '"' then .double word
  else if c = '\\' then .escaped (some word)
  else if isActive c then .plain (word ++ [.active c])
  else .plain (word ++ [.plain c])

/-- A character that does not belong to the token before it. -/
def start (c : Char) : Place :=
  if isBlank c then .between
  else if c = '#' then .comment
  else if isOperatorStart c then .operator [c]
  else if c = '\\' then .escaped none
  else inWord [] c

def isDigit : Piece → Bool
  | .plain c => '0' ≤ c ∧ c ≤ '9'
  | _ => false

/-- The token that a word is, by the character after it. -/
def delimited (word : Word) (c : Char) : Token :=
  if c ∈ ['<', '>'] ∧ word ≠ [] ∧ word.all isDigit then .ioNumber word else .word word

/-- The tokens that end before the character, and the place after it. -/
def step : Place → Char → List Token × Place
  | .between, c => ([], start c)
  | .comment, c => ([], if c = '\n' then .operator [c] else .comment)
  | .operator text, c =>
    if text ++ [c] ∈ longOperators then ([], .operator (text ++ [c]))
    else ([.operator text], start c)
  | .escaped word, c =>
    if c = '\n' then ([], word.elim .between .plain)
    else ([], .plain (word.getD [] ++ [.quoted c]))
  | .plain word, c =>
    if isBlank c || isOperatorStart c then ([delimited word c], start c) else ([], inWord word c)
  | .single word, c => ([], if c = '\'' then .plain word else .single (word ++ [.quoted c]))
  | .double word, c =>
    ([], if c = '"' then .plain word
      else if c = '\\' then .doubleEscaped word
      else if c ∈ ['$', '\x60'] then .double (word ++ [.active c])
      else .double (word ++ [.quoted c]))
  | .doubleEscaped word, c =>
    ([], if c = '\n' then .double word
      else if c ∈ ['$', '\x60', '"', '\\'] then .double (word ++ [.quoted c])
      else .double (word ++ [.quoted '\\', .quoted c]))

def scan : Place → List Char → List Token × Place
  | place, [] => ([], place)
  | place, c :: text =>
    let (first, next) := step place c
    let (rest, last) := scan next text
    (first ++ rest, last)

/-- The last token; quotes that are left open are an error. -/
def Place.finish : Place → Option (List Token)
  | .between | .comment => some []
  | .operator text => some [.operator text]
  | .plain word => some [.word word]
  | .escaped _ | .single _ | .double _ | .doubleEscaped _ => none

def tokens (text : List Char) : Option (List Token) :=
  let (front, place) := scan .between text
  place.finish.map (front ++ ·)

/-! ## Scanning -/

theorem scan_append (place : Place) (front back : List Char) :
    scan place (front ++ back) =
      ((scan place front).1 ++ (scan (scan place front).2 back).1,
        (scan (scan place front).2 back).2) := by
  induction front generalizing place with
  | nil => rfl
  | cons c front ih => simp [scan, ih, List.append_assoc]

/-- Inside single quotes a character stands for itself. -/
theorem scan_single {c : Char} (hc : c ≠ '\'') (word : Word) :
    scan (.single word) [c] = ([], .single (word ++ [.quoted c])) := by
  simp [scan, step, hc]

/-- A single quote: the quotes are closed, the character is escaped, and they are opened again. -/
theorem scan_single_reopened (word : Word) :
    scan (.single word) ['\'', '\\', '\'', '\''] =
      ([], .single (word ++ [.quoted '\''])) := by
  simp [scan, step, inWord, isBlank, isOperatorStart]

/-- A blank ends a word. -/
theorem scan_plain_blank (word : Word) (text : List Char) :
    scan (.plain word) (' ' :: text) =
      (.word word :: (scan .between text).1, (scan .between text).2) := by
  simp [scan, step, start, isBlank, delimited]

/-! ## Pipelines -/

structure Redirection where
  descriptor : Option Word
  operator : List Char
  target : Word
  deriving DecidableEq, Repr

structure Command where
  words : List Word
  redirections : List Redirection
  deriving DecidableEq, Repr

def isRedirection (operator : List Char) : Bool :=
  operator ∈ [['<'], ['>'], ['>', '>'], ['<', '&'], ['>', '&'], ['<', '>'], ['>', '|']]

/-- Add to the first command of a pipeline. -/
def withFirst (add : Command → Command) : List Command → List Command
  | [] => []
  | command :: commands => add command :: commands

def pipeline : List Token → Option (List Command)
  | [] => some [⟨[], []⟩]
  | .word word :: rest =>
    (pipeline rest).map (withFirst fun command ↦ { command with words := word :: command.words })
  | .ioNumber descriptor :: .operator operator :: .word target :: rest =>
    if isRedirection operator then
      (pipeline rest).map (withFirst fun command ↦ { command with
        redirections := ⟨some descriptor, operator, target⟩ :: command.redirections })
    else none
  | .operator operator :: .word target :: rest =>
    if operator = ['|'] then
      (pipeline (.word target :: rest)).map (⟨[], []⟩ :: ·)
    else if isRedirection operator then
      (pipeline rest).map (withFirst fun command ↦ { command with
        redirections := ⟨none, operator, target⟩ :: command.redirections })
    else none
  | _ => none

/-- The commands that the shell reads in a line. -/
def commands (line : List Char) : Option (List Command) := (tokens line).bind pipeline

/-- A line that breaks off inside single quotes, with no line before it: the shell reports an error
and runs nothing. -/
def BreaksOff (line : List Char) : Prop :=
  ∃ tokens word, scan .between line = (tokens, .single word) ∧ .operator ['\n'] ∉ tokens

example : commands "a \"$b\" c\\ d | e 2>&1".toList =
    some [⟨[bare ['a'], [.active '$', .quoted 'b'], [.plain 'c', .quoted ' ', .plain 'd']], []⟩,
      ⟨[bare ['e']], [⟨some (bare ['2']), ['>', '&'], bare ['1']⟩]⟩] := by decide

end Shell

end Tgvisd
