import Tgvisd.Lib.Block
import Tgvisd.Lib.Shell

/-!
# Shell commands from messages

`ShellExec` and `Sed` put a text that comes from a message into a line for the shell, escaped by
`escapeshellarg`, in a buffer whose size they compute from the length of the text.
-/

namespace Tgvisd.TeaBot

/-- `sizeof` of a string literal. -/
def sizeOf (literal : List Char) : ℕ := literal.length + 1

/-- What the loop of `escapeshellarg` writes for a character. -/
def escape (c : Char) : List Char := if c = '\'' then ['\'', '\\', '\'', c] else [c]

/-- What `escapeshellarg` writes to `cmd[0]`, `cmd[1]` and so on, up to the terminator. -/
def escaped (str : List Char) (len : ℕ) : List Char :=
  let l := if 0 < len then len else (str.takeWhile (· ≠ '\x00')).length
  '\'' :: (str.take l).flatMap escape ++ ['\'']

/-- The heap afterwards and `*res_len`. `alloc` is a buffer and a position in it, or null. -/
def escapeshellarg (alloc : Option (Block Char × ℕ)) (str : List Char) (len : ℕ) :
    Option (Block Char × ℕ) := do
  let l := if 0 < len then len else (str.takeWhile (· ≠ '\x00')).length
  let (heap, cmd) := alloc.getD (Block.allocate (l * 4 + 1), 0)
  let heap ← heap.storeAll cmd (escaped str len ++ ['\x00'])
  return (heap, (escaped str len).length)

/-- `" 2>&1"` -/
def bothOutputs : List Char := " 2>&1".toList

namespace ShellExec

/-- What `match` hands to `run`. -/
structure Module where
  cmd : List Char
  len : ℕ
  editMsg : Bool

def sudoers : List ℤ := [243692601]

/-- The test of the sender. -/
def Module.allow (module : Module) (isSelfMsg : Bool) (senderId : ℤ) : Option Module :=
  if isSelfMsg then some module
  else if senderId ∈ sudoers then some { module with editMsg := false }
  else none

/-- `ctext` is the text from its second character on. -/
def Module.match (text : List Char) (isSelfMsg : Bool) (senderId : ℤ) : Option Module :=
  let ctext := text.drop 1
  if text.length < 5 then
    none
  else if ctext.take 3 = "sh ".toList then
    Module.allow ⟨ctext.drop 3, text.length - 4, false⟩ isSelfMsg senderId
  else if ctext.take 4 = "shr ".toList then
    Module.allow ⟨ctext.drop 4, text.length - 5, true⟩ isSelfMsg senderId
  else
    none

def shellWrapStr : List Char := "exec /usr/bin/bash -c ".toList

/-- The writes of `run` to `wrapped_cmd`. -/
def Module.fill (module : Module) (heap : Block Char) : Option (Block Char) := do
  let heap ← heap.storeAll 0 shellWrapStr
  let compPtr := shellWrapStr.length
  let (heap, escapedLen) ← escapeshellarg (some (heap, compPtr)) module.cmd module.len
  let compPtr := compPtr + escapedLen
  heap.storeAll compPtr (bothOutputs ++ ['\x00'])

def Module.wrappedLen (module : Module) : ℕ :=
  sizeOf shellWrapStr + module.len * 4 + sizeOf bothOutputs

/-- The part of `run` before `shell_exec`. -/
def Module.wrap (module : Module) : Option (Block Char) :=
  module.fill (Block.allocate module.wrappedLen)

end ShellExec

namespace Sed

/-- What `match` hands to `run`. -/
structure Module where
  pat : List Char
  len : ℕ

def Module.match (text : List Char) : Option Module :=
  let ctext := text.drop 1
  if text.length < 6 then
    none
  else if ctext.take 4 ≠ "sed ".toList then
    none
  else
    some ⟨ctext.drop 4, text.length - 5⟩

def printCmd : List Char := "printf \"%s\" ".toList

def sedCmd : List Char := " | sed -r ".toList

/-- The writes of `run` to `heap`. -/
def Module.fill (module : Module) (repliedText : List Char) (heap : Block Char) :
    Option (Block Char) := do
  let heap ← heap.storeAll 0 printCmd
  let cmd := printCmd.length
  let (heap, escLen) ← escapeshellarg (some (heap, cmd)) repliedText repliedText.length
  let cmd := cmd + escLen
  let heap ← heap.storeAll cmd sedCmd
  let cmd := cmd + sedCmd.length
  let (heap, escLen) ← escapeshellarg (some (heap, cmd)) module.pat module.len
  let cmd := cmd + escLen
  heap.storeAll cmd (bothOutputs ++ ['\x00'])

def Module.alloc (module : Module) (repliedText : List Char) : ℕ :=
  (repliedText.length * 4 + 1) + (module.len * 4 + 4) +
    (sizeOf printCmd + sizeOf sedCmd + sizeOf bothOutputs)

/-- The part of `run` before `shell_exec`. -/
def Module.wrap (module : Module) (repliedText : List Char) : Option (Block Char) :=
  module.fill repliedText (Block.allocate (module.alloc repliedText))

end Sed

/-! ## The length of the escaped text -/

theorem escaped_eq (str : List Char) :
    escaped str str.length = '\'' :: str.flatMap escape ++ ['\''] := by
  cases str with
  | nil => rfl
  | cons c str => simp [escaped]

theorem length_flatMap_escape (str : List Char) :
    (str.flatMap escape).length = str.length + 3 * str.count '\'' := by
  induction str with
  | nil => rfl
  | cons c str ih =>
    rw [List.flatMap_cons, List.length_append, ih, List.length_cons, List.count_cons]
    by_cases hc : c = '\'' <;> simp [escape, hc] <;> omega

theorem length_escaped (str : List Char) :
    (escaped str str.length).length = str.length + 3 * str.count '\'' + 2 := by
  rw [escaped_eq]
  simp only [List.cons_append, List.length_cons, List.length_append, length_flatMap_escape,
    List.length_nil]

/-! ## What the modules write -/

/-- The escaped text behind what has been written so far; the terminator is overwritten next. -/
theorem escapeshellarg_begins {heap : Block Char} {written : List Char} (str : List Char) (len : ℕ)
    (h : heap.Begins written)
    (hroom : written.length + (escaped str len).length + 1 ≤ heap.size) :
    ∃ next, escapeshellarg (some (heap, written.length)) str len =
        some (next, (escaped str len).length) ∧
      next.Begins (written ++ escaped str len) ∧ next.size = heap.size := by
  obtain ⟨next, hnext, hbegins, hsize⟩ := h.storeAll (escaped str len ++ ['\x00'])
    (by simp only [List.length_append, List.length_singleton]; omega)
  refine ⟨next, by simp [escapeshellarg, hnext], ?_, hsize⟩
  rw [← List.append_assoc] at hbegins
  exact hbegins.of_append

namespace ShellExec

theorem Module.allow_eq {module allowed : Module} {isSelfMsg : Bool} {senderId : ℤ}
    (h : module.allow isSelfMsg senderId = some allowed) :
    allowed.cmd = module.cmd ∧ allowed.len = module.len := by
  unfold Module.allow at h
  split_ifs at h <;> (rw [← Option.some.inj h]; exact ⟨rfl, rfl⟩)

theorem Module.length_eq {text : List Char} {isSelfMsg : Bool} {senderId : ℤ} {module : Module}
    (h : Module.match text isSelfMsg senderId = some module) :
    module.len = module.cmd.length := by
  simp only [Module.match] at h
  split_ifs at h
  · obtain ⟨hcmd, hlen⟩ := Module.allow_eq h
    simp [hcmd, hlen]
  · obtain ⟨hcmd, hlen⟩ := Module.allow_eq h
    simp [hcmd, hlen]

/-- The line that `run` writes, without its terminator. -/
def Module.line (module : Module) : List Char :=
  shellWrapStr ++ escaped module.cmd module.len ++ bothOutputs

theorem Module.fill_begins (module : Module) {heap : Block Char}
    (hroom : module.line.length + 1 ≤ heap.size) :
    ∃ filled, module.fill heap = some filled ∧ filled.Begins (module.line ++ ['\x00']) := by
  simp only [Module.line, List.length_append] at hroom
  obtain ⟨first, hfirst, hbegins, hsize⟩ :=
    heap.begins_nil.storeAll shellWrapStr (by rw [List.length_nil]; omega)
  rw [List.nil_append] at hbegins
  obtain ⟨second, hsecond, hbegins, hsize'⟩ :=
    escapeshellarg_begins module.cmd module.len hbegins (by omega)
  obtain ⟨filled, hfilled, hbegins, -⟩ := hbegins.storeAll (bothOutputs ++ ['\x00'])
    (by simp only [List.length_append, List.length_singleton]; omega)
  rw [List.length_append] at hfilled
  refine ⟨filled, ?_, by simpa [Module.line] using hbegins⟩
  rw [List.length_nil] at hfirst
  simp only [Module.fill, hfirst, hsecond, Option.bind_eq_bind, Option.bind_some, hfilled]

/-- The writes stay within the buffer if and only if the line and its terminator fit. -/
theorem Module.fill_isSome_iff (module : Module) (heap : Block Char) :
    (module.fill heap).isSome = true ↔ module.line.length + 1 ≤ heap.size := by
  constructor
  · intro h
    obtain ⟨filled, hfilled⟩ := Option.isSome_iff_exists.mp h
    simp only [Module.fill, Option.bind_eq_bind, Option.bind_eq_some_iff, escapeshellarg,
      Option.getD_some, pure, Option.some.injEq] at hfilled
    obtain ⟨first, hfirst, -, ⟨second, hsecond, rfl⟩, hlast⟩ := hfilled
    have hfits := (Block.storeAll_isSome_iff (by simp)).mp (Option.isSome_of_eq_some hlast)
    rw [Block.size_storeAll hsecond, Block.size_storeAll hfirst] at hfits
    simp only [List.length_append, List.length_singleton] at hfits
    simp only [Module.line, List.length_append]
    omega
  · intro h
    obtain ⟨filled, hfilled, -⟩ := module.fill_begins h
    simp [hfilled]

end ShellExec

namespace Sed

theorem Module.length_eq {text : List Char} {module : Module}
    (h : Module.match text = some module) : module.len = module.pat.length := by
  simp only [Module.match] at h
  split_ifs at h
  rw [← Option.some.inj h]
  simp

/-- The line that `run` writes, without its terminator. -/
def Module.line (module : Module) (repliedText : List Char) : List Char :=
  printCmd ++ escaped repliedText repliedText.length ++ sedCmd ++
    escaped module.pat module.len ++ bothOutputs

theorem Module.fill_begins (module : Module) (repliedText : List Char) (heap : Block Char)
    (hroom : (module.line repliedText).length + 1 ≤ heap.size) :
    ∃ filled, module.fill repliedText heap = some filled ∧
      filled.Begins (module.line repliedText ++ ['\x00']) := by
  simp only [Module.line, List.length_append] at hroom
  obtain ⟨first, hfirst, hbegins, hsize⟩ :=
    heap.begins_nil.storeAll printCmd (by rw [List.length_nil]; omega)
  rw [List.nil_append] at hbegins
  obtain ⟨second, hsecond, hbegins, hsize⟩ := escapeshellarg_begins repliedText
    repliedText.length hbegins (by omega)
  obtain ⟨third, hthird, hbegins, hsize⟩ := hbegins.storeAll sedCmd
    (by simp only [List.length_append]; omega)
  obtain ⟨fourth, hfourth, hbegins, hsize⟩ := escapeshellarg_begins module.pat
    module.len hbegins (by simp only [List.length_append]; omega)
  obtain ⟨filled, hfilled, hbegins, -⟩ := hbegins.storeAll (bothOutputs ++ ['\x00'])
    (by simp only [List.length_append, List.length_singleton]; omega)
  simp only [List.length_append] at hthird hfourth hfilled
  refine ⟨filled, ?_, by simpa [Module.line] using hbegins⟩
  rw [List.length_nil] at hfirst
  simp only [Module.fill, hfirst, hsecond, hthird, hfourth, Option.bind_eq_bind,
    Option.bind_some, hfilled]

end Sed

/-! ## The room in the buffers -/

theorem count_lt_length_iff {str : List Char} :
    str.count '\'' < str.length ↔ ∃ c ∈ str, c ≠ '\'' := by
  calc str.count '\'' < str.length
      ↔ str.count '\'' ≠ str.length := List.count_le_length.lt_iff_ne
    _ ↔ ¬ ∀ c ∈ str, '\'' = c := not_congr List.count_eq_length
    _ ↔ ∃ c ∈ str, c ≠ '\'' := by simp [eq_comm]

theorem ShellExec.Module.wrap_isSome_iff {module : ShellExec.Module}
    (hlen : module.len = module.cmd.length) :
    module.wrap.isSome = true ↔ ∃ c ∈ module.cmd, c ≠ '\'' := by
  have hcommand : shellWrapStr.length = 22 := by decide
  have houtputs : bothOutputs.length = 5 := by decide
  have hle : module.cmd.count '\'' ≤ module.cmd.length := List.count_le_length
  rw [wrap, fill_isSome_iff, Block.size_allocate, line, wrappedLen, hlen, ← count_lt_length_iff]
  simp only [List.length_append, length_escaped, sizeOf, hcommand, houtputs]
  omega

theorem Sed.Module.wrap_isSome {module : Sed.Module} (hlen : module.len = module.pat.length)
    (repliedText : List Char) : (module.wrap repliedText).isSome = true := by
  have hprint : printCmd.length = 12 := by decide
  have hsed : sedCmd.length = 10 := by decide
  have houtputs : bothOutputs.length = 5 := by decide
  have hreplied : repliedText.count '\'' ≤ repliedText.length := List.count_le_length
  have hpat : module.pat.count '\'' ≤ module.pat.length := List.count_le_length
  obtain ⟨filled, hfilled, -⟩ := module.fill_begins repliedText
    (Block.allocate (module.alloc repliedText)) (by
      rw [Block.size_allocate, line, alloc, hlen]
      simp only [List.length_append, length_escaped, sizeOf, hprint, hsed, houtputs]
      omega)
  simp [wrap, hfilled]

/-- For every message: the writes of `ShellExec` stay within its buffer if and only if the command
has a character other than a single quote, and those of `Sed` always do. -/
theorem writesFit_iff (text : List Char) (isSelfMsg : Bool) (senderId : ℤ)
    (sedText repliedText : List Char) :
    (∀ module, ShellExec.Module.match text isSelfMsg senderId = some module →
      (module.wrap.isSome = true ↔ ∃ c ∈ module.cmd, c ≠ '\'')) ∧
    (∀ module, Sed.Module.match sedText = some module →
      (module.wrap repliedText).isSome = true) := by
  constructor
  · intro module hmatch
    exact ShellExec.Module.wrap_isSome_iff (ShellExec.Module.length_eq hmatch)
  · intro module hmatch
    exact Sed.Module.wrap_isSome (Sed.Module.length_eq hmatch) repliedText

/-- `"!shr "` and `"!sh '"`. -/
theorem not_writesFit_onlyQuotes :
    (∃ module, ShellExec.Module.match "!shr ".toList true 0 = some module ∧
      module.wrap.isSome = false) ∧
    (∃ module, ShellExec.Module.match "!sh '".toList true 0 = some module ∧
      module.wrap.isSome = false) :=
  ⟨⟨⟨[], 0, true⟩, rfl, by decide⟩, ⟨⟨['\''], 1, false⟩, rfl, by decide⟩⟩

/-! ## What the shell reads -/

theorem scan_escape (str : List Char) (word : Shell.Word) :
    Shell.scan (.single word) (str.flatMap escape) =
      ([], .single (word ++ Shell.verbatim str)) := by
  induction str generalizing word with
  | nil => simp [Shell.scan, Shell.verbatim]
  | cons c str ih =>
    have hfirst : Shell.scan (.single word) (escape c) = ([], .single (word ++ [.quoted c])) := by
      by_cases hc : c = '\''
      · rw [hc]
        exact Shell.scan_single_reopened word
      · rw [escape, if_neg hc]
        exact Shell.scan_single hc word
    simp [Shell.scan_append, hfirst, ih, Shell.verbatim]

/-- The escaped text is one word so far, all of it quoted. -/
theorem scan_escaped (str : List Char) :
    Shell.scan .between (escaped str str.length) = ([], .plain (Shell.verbatim str)) := by
  have hopen : Shell.step .between '\'' = ([], .single []) := by decide
  have hclose (word : Shell.Word) : Shell.scan (.single word) ['\''] = ([], .plain word) := by
    simp [Shell.scan, Shell.step]
  rw [escaped_eq, List.cons_append, Shell.scan, hopen]
  simp [Shell.scan_append, scan_escape, hclose]

theorem commands_escaped (str : List Char) :
    Shell.commands (escaped str str.length) = some [⟨[Shell.verbatim str], []⟩] := by
  simp [Shell.commands, Shell.tokens, scan_escaped, Shell.Place.finish, Shell.pipeline,
    Shell.withFirst]

/-- `2>&1` -/
def toBothOutputs : Shell.Redirection where
  descriptor := some (Shell.bare ['2'])
  operator := ['>', '&']
  target := Shell.bare ['1']

theorem scan_bothOutputs (word : Shell.Word) :
    Shell.scan (.plain word) bothOutputs =
      ([.word word, .ioNumber (Shell.bare ['2']), .operator ['>', '&']],
        .plain (Shell.bare ['1'])) := by
  have hrest : Shell.scan .between "2>&1".toList =
      ([.ioNumber (Shell.bare ['2']), .operator ['>', '&']], .plain (Shell.bare ['1'])) := by
    decide
  have hblank : bothOutputs = ' ' :: "2>&1".toList := by decide
  rw [hblank, Shell.scan_plain_blank, hrest]

theorem ShellExec.Module.commands_line {module : ShellExec.Module}
    (hlen : module.len = module.cmd.length) :
    Shell.commands module.line = some [⟨[Shell.bare "exec".toList,
      Shell.bare "/usr/bin/bash".toList, Shell.bare "-c".toList, Shell.verbatim module.cmd],
        [toBothOutputs]⟩] := by
  have hcommand : Shell.scan .between shellWrapStr = ([.word (Shell.bare "exec".toList),
      .word (Shell.bare "/usr/bin/bash".toList), .word (Shell.bare "-c".toList)], .between) := by
    decide
  rw [Shell.commands, Shell.tokens, line, hlen]
  simp only [Shell.scan_append, hcommand, scan_escaped, scan_bothOutputs]
  rfl

theorem Sed.Module.commands_line {module : Sed.Module} (hlen : module.len = module.pat.length)
    (repliedText : List Char) :
    Shell.commands (module.line repliedText) = some
      [⟨[Shell.bare "printf".toList, Shell.verbatim "%s".toList, Shell.verbatim repliedText], []⟩,
        ⟨[Shell.bare "sed".toList, Shell.bare "-r".toList, Shell.verbatim module.pat],
          [toBothOutputs]⟩] := by
  have hprint : Shell.scan .between printCmd = ([.word (Shell.bare "printf".toList),
      .word (Shell.verbatim "%s".toList)], .between) := by decide
  have hsed (word : Shell.Word) : Shell.scan (.plain word) sedCmd = ([.word word,
      .operator ['|'], .word (Shell.bare "sed".toList), .word (Shell.bare "-r".toList)],
        .between) := by
    have hrest : Shell.scan .between "| sed -r ".toList = ([.operator ['|'],
        .word (Shell.bare "sed".toList), .word (Shell.bare "-r".toList)], .between) := by decide
    have hblank : sedCmd = ' ' :: "| sed -r ".toList := by decide
    rw [hblank, Shell.scan_plain_blank, hrest]
  rw [Shell.commands, Shell.tokens, line, hlen]
  simp only [Shell.scan_append, hprint, hsed, scan_escaped, scan_bothOutputs]
  rfl

/-! ## Through the memory -/

theorem not_mem_escaped {str : List Char} (hstr : '\x00' ∉ str) :
    '\x00' ∉ escaped str str.length := by
  rw [escaped_eq]
  simp only [List.mem_append, List.mem_cons, List.mem_flatMap, not_or, not_exists, not_and]
  refine ⟨⟨by decide, fun c hc hmem ↦ ?_⟩, by decide, by simp⟩
  have hne : '\x00' ≠ c := fun h ↦ hstr (h ▸ hc)
  unfold escape at hmem
  split_ifs at hmem <;> simp [hne] at hmem

/-- In its own allocation, if the writes stay within it. -/
theorem escapeshellarg_null {str : List Char} (hstr : '\x00' ∉ str) {filled : Block Char} {n : ℕ}
    (hfilled : escapeshellarg none str str.length = some (filled, n)) :
    n = (escaped str str.length).length ∧
      filled.stringAt '\x00' 0 = some (escaped str str.length) := by
  simp only [escapeshellarg, Option.getD_none, Option.bind_eq_bind, Option.bind_eq_some_iff, pure,
    Option.some.injEq, Prod.mk.injEq] at hfilled
  obtain ⟨heap, hstore, rfl, rfl⟩ := hfilled
  have hroom := (Block.storeAll_isSome_iff (by simp)).mp (Option.isSome_of_eq_some hstore)
  rw [List.length_append, List.length_singleton, ← Nat.add_assoc] at hroom
  obtain ⟨next, hnext, hstring⟩ := Block.storeAll_string hroom (not_mem_escaped hstr)
  obtain rfl := Option.some.inj (hstore.symm.trans hnext)
  exact ⟨rfl, hstring⟩

/-- For all texts without a terminator inside, and wherever in memory there is room: the shell
reads what `escapeshellarg` leaves there as one word that is the text itself; and it reads what
`ShellExec` and `Sed` write as their fixed commands with the texts as one argument each. -/
theorem read_verbatim (str cmd pat repliedText : List Char) (editMsg : Bool)
    (hstr : '\x00' ∉ str) (hcmd : '\x00' ∉ cmd) (hpat : '\x00' ∉ pat)
    (hreplied : '\x00' ∉ repliedText) :
    (∀ heap alloc, alloc + (escaped str str.length).length + 1 ≤ heap.size →
      ∃ filled text, escapeshellarg (some (heap, alloc)) str str.length =
          some (filled, text.length) ∧
        filled.stringAt '\x00' alloc = some text ∧
        Shell.commands text = some [⟨[Shell.verbatim str], []⟩]) ∧
    (∀ filled n, escapeshellarg none str str.length = some (filled, n) →
      ∃ text, n = text.length ∧ filled.stringAt '\x00' 0 = some text ∧
        Shell.commands text = some [⟨[Shell.verbatim str], []⟩]) ∧
    (∀ heap, (ShellExec.Module.line ⟨cmd, cmd.length, editMsg⟩).length + 1 ≤ heap.size →
      ∃ filled text, ShellExec.Module.fill ⟨cmd, cmd.length, editMsg⟩ heap = some filled ∧
        filled.stringAt '\x00' 0 = some text ∧
        Shell.commands text = some [⟨[Shell.bare "exec".toList,
          Shell.bare "/usr/bin/bash".toList, Shell.bare "-c".toList, Shell.verbatim cmd],
            [toBothOutputs]⟩]) ∧
    (∀ heap, (Sed.Module.line ⟨pat, pat.length⟩ repliedText).length + 1 ≤ heap.size →
      ∃ filled text, Sed.Module.fill ⟨pat, pat.length⟩ repliedText heap = some filled ∧
        filled.stringAt '\x00' 0 = some text ∧
        Shell.commands text = some
          [⟨[Shell.bare "printf".toList, Shell.verbatim "%s".toList, Shell.verbatim repliedText],
            []⟩, ⟨[Shell.bare "sed".toList, Shell.bare "-r".toList, Shell.verbatim pat],
              [toBothOutputs]⟩]) := by
  have houtputs : '\x00' ∉ bothOutputs := by decide
  refine ⟨fun heap alloc hroom ↦ ?_, fun filled n hfilled ↦ ?_, fun heap hroom ↦ ?_,
    fun heap hroom ↦ ?_⟩
  · obtain ⟨filled, hfilled, hstring⟩ := Block.storeAll_string hroom (not_mem_escaped hstr)
    exact ⟨filled, _, by simp [escapeshellarg, hfilled], hstring, commands_escaped str⟩
  · obtain ⟨hlength, hstring⟩ := escapeshellarg_null hstr hfilled
    exact ⟨_, hlength, hstring, commands_escaped str⟩
  · obtain ⟨filled, hfilled, hbegins⟩ := ShellExec.Module.fill_begins _ hroom
    refine ⟨filled, _, hfilled, hbegins.stringAt ?_, ShellExec.Module.commands_line rfl⟩
    have hcommand : '\x00' ∉ ShellExec.shellWrapStr := by decide
    simp [ShellExec.Module.line, hcommand, not_mem_escaped hcmd, houtputs]
  · obtain ⟨filled, hfilled, hbegins⟩ := Sed.Module.fill_begins _ repliedText heap hroom
    refine ⟨filled, _, hfilled, hbegins.stringAt ?_, Sed.Module.commands_line rfl repliedText⟩
    have hprint : '\x00' ∉ Sed.printCmd := by decide
    have hsed : '\x00' ∉ Sed.sedCmd := by decide
    simp [Sed.Module.line, hprint, hsed, not_mem_escaped hpat, not_mem_escaped hreplied,
      houtputs]

/-- `a'b` in a buffer of ten bytes and in one of its own, the command `date`, and a pattern for the
text `it's`. -/
theorem read_verbatim_quote :
    (∃ filled text,
      escapeshellarg (some (Block.allocate 10, 1)) "a'b".toList 3 = some (filled, text.length) ∧
        filled.stringAt '\x00' 1 = some text ∧
        Shell.commands text = some [⟨[Shell.verbatim "a'b".toList], []⟩]) ∧
    (∃ filled text, escapeshellarg none "a'b".toList 3 = some (filled, text.length) ∧
        filled.stringAt '\x00' 0 = some text ∧
        Shell.commands text = some [⟨[Shell.verbatim "a'b".toList], []⟩]) ∧
    (∃ filled text,
      ShellExec.Module.fill ⟨"date".toList, 4, true⟩ (Block.allocate 50) = some filled ∧
        filled.stringAt '\x00' 0 = some text ∧
        Shell.commands text = some [⟨[Shell.bare "exec".toList,
          Shell.bare "/usr/bin/bash".toList, Shell.bare "-c".toList,
          Shell.verbatim "date".toList], [toBothOutputs]⟩]) ∧
    (∃ filled text,
      Sed.Module.fill ⟨"s/it/he/".toList, 8⟩ "it's".toList (Block.allocate 50) = some filled ∧
        filled.stringAt '\x00' 0 = some text ∧
        Shell.commands text = some
          [⟨[Shell.bare "printf".toList, Shell.verbatim "%s".toList,
              Shell.verbatim "it's".toList], []⟩,
            ⟨[Shell.bare "sed".toList, Shell.bare "-r".toList,
              Shell.verbatim "s/it/he/".toList], [toBothOutputs]⟩]) := by
  obtain ⟨hbuffer, hown, hexec, hsed⟩ := read_verbatim "a'b".toList "date".toList
    "s/it/he/".toList "it's".toList true (by decide) (by decide) (by decide) (by decide)
  refine ⟨hbuffer _ _ (by decide), ?_, hexec _ (by decide), hsed _ (by decide)⟩
  have hsome : (escapeshellarg none "a'b".toList 3).isSome = true := by decide
  obtain ⟨⟨filled, n⟩, hfilled⟩ := Option.isSome_iff_exists.mp hsome
  obtain ⟨text, rfl, hread⟩ := hown filled n hfilled
  exact ⟨filled, text, hfilled, hread⟩

end Tgvisd.TeaBot
