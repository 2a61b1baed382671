import Tgvisd.Main.Accounts
import Tgvisd.TeaBot.Trim

/-!
# The accounts of the bot

`load_account_list` reads a list of directories, one on a line, into an array that grows, and gives
up at the first account that it cannot load. The texts of an account are in arrays that are not
cleared before they are written.
-/

namespace Tgvisd.TeaBot

open Stdio Tgvisd.Configuration Accounts

/-! ## The program -/

structure Account where
  apiId : ℕ
  apiHash : Block Char
  dataPath : Block Char
  deriving DecidableEq, Repr

/-- A return value that is not 0, or an access outside of what may be accessed. -/
inductive Failure
  | returns (retval : ℤ)
  | badAccess
  deriving DecidableEq, Repr

abbrev Loading := ExceptT Failure Stdio.Program

def accessed {Value : Type} : Option Value → Loading Value
  | some value => return value
  | none => throw .badAccess

/-- What `trim` makes of the line in `con_bf`. -/
def trimmedLine (line : List Char) : Option (List Char) := do
  let conBf ← (Block.allocate 64).storeAll 0 (line ++ ['\x00'])
  let left ← trim conBf 0
  left.memory.stringAt '\x00' left.result

section

variable (strerror : Errno → List Char) (available : ℕ → Bool) (files : Files)

/-- A file of an account is opened, read with `fgets`, used and closed, also after `goto out`. -/
def readAccountFile {Value : Type} (name what : List Char)
    (use : List Char → Loading Value) : Loading Value := do
  let buf := snprintf 2048 name
  match ← (fopen files buf).run with
  | .error err =>
    printf ("Error: fopen(\"".toList ++ buf ++ "\"): ".toList ++ strerror err ++ ['\n'])
    throw (.returns (-1))
  | .ok handle =>
    match Lines.fgets '\n' 64 handle with
    | none =>
      printf ("Cannot read API ".toList ++ what ++ " from \"".toList ++ buf ++ "\"\n".toList)
      fclose
      throw (.returns (-22))
    | some (line, _) =>
      let value ← use line
      fclose
      return value

def loadAccount (dataPath : List Char) : Loading Account := do
  let path ← accessed (strncpy (Block.allocate 1024) dataPath 1023)
  let apiHash ← readAccountFile strerror files (dataPath ++ "/api_hash.txt".toList) "hash".toList
    fun line ↦ do
      let trimmed ← accessed (trimmedLine line)
      accessed (strncpy (Block.allocate 64) trimmed 63)
  let apiId ← readAccountFile strerror files (dataPath ++ "/api_id.txt".toList) "ID".toList
    fun line ↦ return toUint32 (strtoul (cString line))
  return { apiId, apiHash, dataPath := path }

end

/-! ## What the files say -/

def accountLine (files : Files) (name : List Char) : Except Failure (List Char) :=
  match files name with
  | .error _ => .error (.returns (-1))
  | .ok content =>
    match Lines.fgets '\n' 64 content with
    | none => .error (.returns (-22))
    | some (line, _) => .ok line

/-- An array of the given size with the text, terminators behind it, and a last place that has
never been written. -/
def field (size : ℕ) (text : List Char) : Block Char :=
  ⟨(text ++ List.replicate (size - 1 - text.length) '\x00').map some ++ [none]⟩

/-- The account that a directory describes, or why it cannot be loaded. -/
def accountIn (files : Files) (directory : List Char) : Except Failure Account := do
  let apiHash ← accountLine files (directory ++ "/api_hash.txt".toList)
  let apiId ← accountLine files (directory ++ "/api_id.txt".toList)
  return { apiId := toUint32 (strtoul (cString apiId))
           apiHash := field 64 (trimmed (cString apiHash))
           dataPath := field 1024 directory }

theorem strncpy_eq {text : List Char} {n : ℕ} (hlength : text.length ≤ n) :
    strncpy (Block.allocate (n + 1)) text n = some (field (n + 1) text) := by
  have htake : text.take n = text := List.take_of_length_le hlength
  have hcells : (Block.allocate (n + 1) : Block Char).cells =
      [] ++ List.replicate n none ++ [none] := by
    simp [Block.allocate, List.replicate_succ']
  have hvalues : (List.replicate n (none : Option Char)).length =
      (text ++ List.replicate (n - text.length) '\x00').length := by
    simp only [List.length_append, List.length_replicate]
    omega
  have hstore := Block.storeAll_eq hcells hvalues
  rw [strncpy, htake]
  simpa [field] using hstore

theorem cString_append (line : List Char) : ∃ rest,
    line ++ ['\x00'] = cString line ++ '\x00' :: rest := by
  induction line with
  | nil => exact ⟨[], rfl⟩
  | cons c line ih =>
    by_cases hc : c = '\x00'
    · exact ⟨line ++ ['\x00'], by simp [cString, hc]⟩
    · obtain ⟨rest, hrest⟩ := ih
      refine ⟨rest, ?_⟩
      simpa [cString, hc] using hrest

theorem not_mem_cString (line : List Char) : '\x00' ∉ cString line := by
  intro hmem
  simpa using List.mem_takeWhile_imp hmem

theorem trimmedLine_eq {line : List Char} (hlength : line.length < 64) :
    trimmedLine line = some (trimmed (cString line)) := by
  obtain ⟨memory, hmemory, ⟨back, hback⟩, -⟩ :=
    (Block.allocate 64 : Block Char).begins_nil.storeAll (line ++ ['\x00']) (by simp; omega)
  obtain ⟨rest, hrest⟩ := cString_append line
  have hcells : memory.cells = [] ++ (cString line).map some ++ some '\x00' ::
      (rest.map some ++ back) := by
    rw [hback, List.nil_append, hrest]
    simp
  obtain ⟨left, hleft, hstring⟩ := trim_stringAt hcells (not_mem_cString line)
  rw [List.length_nil] at hmemory hleft
  simp only [trimmedLine, hmemory, hleft, Option.bind_eq_bind, Option.bind_some, hstring]

theorem untilTerminator_open {text : List Char} (htext : '\x00' ∉ text) :
    Block.untilTerminator '\x00' (text.map some ++ [none]) = none := by
  induction text with
  | nil => rfl
  | cons c text ih =>
    rw [List.mem_cons, not_or] at htext
    simp [Block.untilTerminator, Ne.symm htext.1, ih htext.2]

/-- The array can be read as a string exactly if the text has left room for a terminator. -/
theorem stringAt_field {size : ℕ} {text : List Char} (htext : '\x00' ∉ text)
    (hlength : text.length < size) :
    (field size text).stringAt '\x00' 0 = if text.length + 1 < size then some text else none := by
  by_cases hroom : text.length + 1 < size
  · rw [if_pos hroom]
    obtain ⟨count, hcount⟩ : ∃ count, size - 1 - text.length = count + 1 :=
      ⟨size - 1 - text.length - 1, by omega⟩
    have hcells : (field size text).cells = [] ++ text.map some ++ some '\x00' ::
        ((List.replicate count '\x00').map some ++ [none]) := by
      simp [field, hcount, List.replicate_succ]
    exact Block.stringAt_eq _ hcells htext
  · rw [if_neg hroom]
    have hnone : size - 1 - text.length = 0 := by omega
    simpa [Block.stringAt, field, hnone] using untilTerminator_open htext

/-! ## Programs that give back what they take -/

/-- The program has the result, and leaves no stream open and no block allocated. -/
def Yields {Value : Type} (program : Loading Value) (value : Except Failure Value) : Prop :=
  ∀ process, (program.run.run process).1 = value ∧
    (program.run.run process).2.streams = process.streams ∧
    (program.run.run process).2.blocks = process.blocks

namespace Yields

variable {Value Next : Type} {program : Loading Value} {value : Except Failure Value}

theorem pure (value : Value) : Yields (return value) (.ok value) := fun _ ↦ ⟨rfl, rfl, rfl⟩

theorem throw (failure : Failure) : Yields (throw failure : Loading Value) (.error failure) :=
  fun _ ↦ ⟨rfl, rfl, rfl⟩

theorem accessed (value : Value) : Yields (accessed (some value)) (.ok value) := pure value

theorem bind_ok {result : Value} {rest : Value → Loading Next} {next : Except Failure Next}
    (h : Yields program (.ok result)) (hrest : Yields (rest result) next) :
    Yields (program >>= rest) next := by
  intro process
  obtain ⟨hvalue, hstreams, hblocks⟩ := h process
  rw [run_bind]
  cases hrun : program.run.run process with
  | mk outcome middle =>
    rw [hrun] at hvalue hstreams hblocks
    obtain rfl : outcome = .ok result := hvalue
    obtain ⟨hnext, hstreams', hblocks'⟩ := hrest middle
    exact ⟨hnext, hstreams'.trans hstreams, hblocks'.trans hblocks⟩

theorem bind_error {failure : Failure} (h : Yields program (.error failure))
    (rest : Value → Loading Next) : Yields (program >>= rest) (.error failure) := by
  intro process
  obtain ⟨hvalue, hstreams, hblocks⟩ := h process
  rw [run_bind]
  cases hrun : program.run.run process with
  | mk outcome middle =>
    rw [hrun] at hvalue hstreams hblocks
    obtain rfl : outcome = .error failure := hvalue
    exact ⟨rfl, hstreams, hblocks⟩

end Yields

/-! ## Loading an account -/

variable (strerror : Errno → List Char) (files : Files)

theorem length_accountLine {files : Files} {name line : List Char}
    (h : accountLine files name = .ok line) : line.length < 64 := by
  cases hfile : files name with
  | error err => simp [accountLine, hfile] at h
  | ok content =>
    cases hread : Lines.fgets '\n' 64 content with
    | none => simp [accountLine, hfile, hread] at h
    | some read =>
      obtain rfl : read.1 = line := by simpa [accountLine, hfile, hread] using h
      exact (Lines.fgets_eq (by decide) hread).2.2

/-- The stream is closed in every case. -/
theorem yields_readAccountFile {Value : Type} {name : List Char} (what : List Char)
    {use : List Char → Loading Value} {result : List Char → Value}
    (hname : name.length < 2048)
    (huse : ∀ line, line.length < 64 → use line = return result line) :
    Yields (readAccountFile strerror files name what use)
      ((accountLine files name).map result) := by
  intro process
  rw [readAccountFile, snprintf_eq hname, run_bind, fopen]
  cases hfile : files name with
  | error err =>
    rw [accountLine, hfile]
    exact ⟨rfl, rfl, rfl⟩
  | ok content =>
    rw [accountLine, hfile]
    have hopen : ((liftM (do
          modify fun process ↦ { process with streams := process.streams + 1 }
          return content : ExceptT Errno Stdio.Program (List Char)).run :
            Loading (Except Errno (List Char))).run.run process) =
        (.ok (.ok content), { process with streams := process.streams + 1 }) := rfl
    simp only [hopen]
    cases hread : Lines.fgets '\n' 64 content with
    | none => exact ⟨rfl, Nat.add_sub_cancel process.streams 1, rfl⟩
    | some read =>
      have hline : read.1.length < 64 := (Lines.fgets_eq (by decide) hread).2.2
      simp only [huse read.1 hline]
      exact ⟨rfl, Nat.add_sub_cancel process.streams 1, rfl⟩

theorem yields_loadAccount {directory : List Char} (hdirectory : directory.length ≤ 1022) :
    Yields (loadAccount strerror files directory) (accountIn files directory) := by
  have hpath : strncpy (Block.allocate 1024) directory 1023 = some (field 1024 directory) :=
    strncpy_eq (by omega)
  have huse (line : List Char) (hline : line.length < 64) :
      (do
        let trimmed ← accessed (trimmedLine line)
        accessed (strncpy (Block.allocate 64) trimmed 63) : Loading (Block Char)) =
      return field 64 (trimmed (cString line)) := by
    have hlength : (trimmed (cString line)).length ≤ 63 := by
      have hparts := length_eq (cString line)
      have hle := length_cString_le line
      omega
    rw [trimmedLine_eq hline, accessed, pure_bind, strncpy_eq hlength, accessed]
  have hnumber (line : List Char) (_ : line.length < 64) :
      (return toUint32 (strtoul (cString line)) : Loading ℕ) =
        return toUint32 (strtoul (cString line)) := rfl
  have hhashName : (directory ++ "/api_hash.txt".toList).length < 2048 := by simp; omega
  have hidName : (directory ++ "/api_id.txt".toList).length < 2048 := by simp; omega
  have hhash := yields_readAccountFile strerror files "hash".toList hhashName huse
  have hid := yields_readAccountFile strerror files "ID".toList hidName hnumber
  rw [loadAccount, hpath, accountIn]
  refine .bind_ok (.accessed (field 1024 directory)) ?_
  cases hline : accountLine files (directory ++ "/api_hash.txt".toList) with
  | error failure =>
    rw [hline] at hhash
    exact hhash.bind_error _
  | ok apiHash =>
    rw [hline] at hhash
    refine .bind_ok hhash ?_
    cases hline' : accountLine files (directory ++ "/api_id.txt".toList) with
    | error failure =>
      rw [hline'] at hid
      exact hid.bind_error _
    | ok apiId =>
      rw [hline'] at hid
      exact .bind_ok hid (.pure _)

/-! ## Loading the list -/

section

variable {available : ℕ → Bool}

end

/-- The accounts are added to those at the beginning of the array, which are counted. -/
def Loaded (done : List Account) :
    Except Failure (Block Account × ℕ) → Except Failure (List Account) → Prop
  | .ok (accList, nAcc), .ok accounts =>
    accList.Begins (done ++ accounts) ∧ nAcc = done.length + accounts.length
  | .error failure, .error failure' => failure = failure'
  | _, _ => False

theorem Loaded.cons {done : List Account} {acc : Account}
    {value : Except Failure (Block Account × ℕ)} {accounts : Except Failure (List Account)}
    (h : Loaded (done ++ [acc]) value accounts) :
    Loaded done value (do let accounts ← accounts; return acc :: accounts) := by
  cases value with
  | error failure =>
    cases accounts with
    | error failure' => exact h
    | ok accounts => exact h
  | ok loaded =>
    cases accounts with
    | error failure' => exact h
    | ok accounts =>
      obtain ⟨hbegins, hcount⟩ := h
      rw [List.append_assoc] at hbegins
      rw [List.length_append, List.length_singleton] at hcount
      exact ⟨hbegins, by rw [hcount, List.length_cons]; omega⟩

variable (available : ℕ → Bool)

section

variable {available} {files} {filename content : List Char} {process next : Process}

end

/-- A list of two directories; every directory has the files of an account. -/
def twoBots : Files := fun name ↦
  if name = "list".toList then .ok "one\ntwo\n".toList
  else if "/api_id.txt".toList.isSuffixOf name then .ok "123\n".toList
  else if "/api_hash.txt".toList.isSuffixOf name then .ok " abc \n".toList
  else .error EINVAL

/-- The directory of an account that has been loaded can be read as a string; its hash can be only
if it has left room for a terminator, since the last place of the array is never written. -/
theorem loadAccount_readable {directory : List Char} {account : Account} {process : Process}
    (hdirectory : directory.length ≤ 1022) (hterminated : '\x00' ∉ directory)
    (hload : ((loadAccount strerror files directory).run.run process).1 = .ok account) :
    ∃ line, accountLine files (directory ++ "/api_hash.txt".toList) = .ok line ∧
      account.dataPath.stringAt '\x00' 0 = some directory ∧
      account.apiHash.stringAt '\x00' 0 =
        if (trimmed (cString line)).length < 63 then some (trimmed (cString line)) else none := by
  obtain ⟨haccount, -⟩ := yields_loadAccount strerror files hdirectory process
  rw [hload, accountIn] at haccount
  cases hhash : accountLine files (directory ++ "/api_hash.txt".toList) with
  | error failure =>
    rw [hhash] at haccount
    cases haccount
  | ok line =>
    rw [hhash] at haccount
    cases hid : accountLine files (directory ++ "/api_id.txt".toList) with
    | error failure =>
      rw [hid] at haccount
      cases haccount
    | ok apiId =>
      rw [hid] at haccount
      have haccount : account = ⟨toUint32 (strtoul (cString apiId)),
          field 64 (trimmed (cString line)), field 1024 directory⟩ := Except.ok.inj haccount
      have hline := length_accountLine hhash
      have hparts := length_eq (cString line)
      have hle := length_cString_le line
      refine ⟨line, rfl, ?_, ?_⟩
      · rw [haccount, stringAt_field hterminated (by omega), if_pos (by omega)]
      · rw [haccount, stringAt_field (not_mem_trimmed (not_mem_cString line)) (by omega)]
        simp only [Nat.succ_lt_succ_iff]

theorem loadAccount_readable_twoBots : ∃ account,
    ((loadAccount (fun _ ↦ []) twoBots "one".toList).run.run {}).1 = .ok account ∧
      account.apiHash.stringAt '\x00' 0 = some "abc".toList := by
  have hdirectory : "one".toList.length ≤ 1022 := by decide
  have haccount : accountIn twoBots "one".toList =
      .ok ⟨123, field 64 "abc".toList, field 1024 "one".toList⟩ := rfl
  have hload := (yields_loadAccount (fun _ ↦ []) twoBots hdirectory {}).1.trans haccount
  obtain ⟨line, hline, -, hhash⟩ :=
    loadAccount_readable (fun _ ↦ []) twoBots hdirectory (by decide) hload
  have hread : accountLine twoBots ("one".toList ++ "/api_hash.txt".toList) =
      .ok " abc \n".toList := rfl
  obtain rfl : " abc \n".toList = line := Except.ok.inj (hread.symm.trans hline)
  exact ⟨_, hload, hhash.trans (by decide +kernel)⟩

end Tgvisd.TeaBot
