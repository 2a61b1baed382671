import Mathlib.Algebra.GroupWithZero.Nat
import Mathlib.Algebra.Order.BigOperators.Group.List
import Tgvisd.Lib.Stdio
import Tgvisd.Main.Configuration

/-!
# The accounts of the program

`main` reads a list of directories, one on a line, and loads the account of each; an account that
cannot be loaded is skipped, and the first one that can be is run. A directory has the files
`api_id.txt` and `api_hash.txt`.
-/

namespace Tgvisd.Accounts

open Stdio Tgvisd.Configuration

/-! ## The program -/

def EINVAL : Errno := ⟨22, by decide⟩

structure TgAccount where
  apiId : ℕ
  apiHash : List Char
  dataPath : List Char
  deriving DecidableEq, Repr

/-- An `unsigned long` has 64 bits. -/
def strtoul (text : List Char) : ℕ :=
  let (sign, digits) := sign (text.dropWhile isSpace)
  let value := Decimal.value (digits.takeWhile Decimal.isDigit)
  if value < 18446744073709551616 then (sign * value % 18446744073709551616).toNat
  else 18446744073709551615

section

variable (strerror : Errno → List Char) (files : Files)

/-- One of the two files of an account is opened, read with `fgets` and closed, but it is not closed
if nothing could be read. -/
def readLine (pbuf : List Char) : ExceptT Errno Stdio.Program (List Char) := do
  let handle ← tryCatch (fopen files pbuf) fun err ↦ do
    printf ("Error: fopen(\"".toList ++ pbuf ++ "\", \"rb\"): ".toList ++ strerror err ++ ['\n'])
    throw err
  match Lines.fgets '\n' 64 handle with
  | none =>
    printf ("Cannot read api_hash from \"".toList ++ pbuf ++ "\"\n".toList)
    throw EINVAL
  | some (line, _) =>
    fclose
    return line

/-- The sizes are those of `pbuf` and of `data_path`. -/
def loadTgAccount (accPath : List Char) : ExceptT Errno Stdio.Program TgAccount := do
  let apiId ← readLine strerror files (snprintf 1054 (accPath ++ "/api_id.txt".toList))
  let apiHash ← readLine strerror files (snprintf 1054 (accPath ++ "/api_hash.txt".toList))
  return { apiId := toUint32 (strtoul (cString apiId))
           apiHash := cutNewline (cString apiHash)
           dataPath := snprintf 1033 (accPath ++ "/data".toList) }

/-- The loop of `main`, over what `fgets` reads. -/
def loadAccounts : List (List Char) → List TgAccount → Stdio.Program (List TgAccount)
  | [], accounts => return accounts
  | pbuf :: rest, accounts => do
    let p := cString pbuf
    if p.length < 2 then
      loadAccounts rest accounts
    else
      let p := cutNewline p
      match ← (loadTgAccount strerror files p).run with
      | .error _ =>
        printf ("Skipping \"".toList ++ p ++ "\"...\n".toList)
        loadAccounts rest accounts
      | .ok acc => loadAccounts rest (accounts ++ [acc])

/-- What is returned, and the account that is run. -/
def runAccounts : List TgAccount → Stdio.Program (ℕ × Option TgAccount)
  | [] => return (EINVAL.code, none)
  | acc :: _ => do
    printf ("Starting daemon for data_path \"".toList ++ acc.dataPath ++ "\"...\n".toList)
    return (0, some acc)

def main : List (List Char) → Stdio.Program (ℕ × Option TgAccount)
  | [_, list] => do
    match ← (fopen files list).run with
    | .error err =>
      printf ("Error: fopen(\"".toList ++ list ++ "\", \"rb\"): ".toList ++ strerror err ++ ['\n'])
      return (err.code, none)
    | .ok handle =>
      let accounts ← loadAccounts strerror files (Lines.reads '\n' 1024 handle) []
      fclose
      runAccounts accounts
  | argv => do
    printf ("Usage: ".toList ++ argv.headD "(null)".toList ++ " <account_list_file>\n".toList)
    return (1, none)

end

/-! ## What the files say -/

/-- What can be read of the first line of a file. -/
def firstLine (files : Files) (name : List Char) : Option (List Char) :=
  match files name with
  | .error _ => none
  | .ok content => (Lines.fgets '\n' 64 content).map Prod.fst

/-- The account that a directory describes. -/
def described (files : Files) (directory : List Char) : Option TgAccount := do
  let apiId ← firstLine files (directory ++ "/api_id.txt".toList)
  let apiHash ← firstLine files (directory ++ "/api_hash.txt".toList)
  return { apiId := toUint32 (strtoul (cString apiId))
           apiHash := cutNewline (cString apiHash)
           dataPath := directory ++ "/data".toList }

/-- The streams that stay open after the file has been tried to read: that of an empty file. -/
def leftOpen (files : Files) (name : List Char) : ℕ :=
  match files name with
  | .ok [] => 1
  | _ => 0

/-- The streams that stay open after the account in a directory has been tried to load. -/
def abandoned (files : Files) (directory : List Char) : ℕ :=
  leftOpen files (directory ++ "/api_id.txt".toList) +
    if (firstLine files (directory ++ "/api_id.txt".toList)).isSome then
      leftOpen files (directory ++ "/api_hash.txt".toList)
    else 0

/-- The directories among the pieces of a list. -/
def directories (pieces : List (List Char)) : List (List Char) :=
  ((pieces.map cString).filter fun p ↦ 2 ≤ p.length).map cutNewline

/-- The directories of a list, and their accounts. -/
def listed (content : List Char) : List (List Char) := directories (Lines.reads '\n' 1024 content)

def listedAccounts (files : Files) (content : List Char) : List TgAccount :=
  (listed content).filterMap (described files)

/-! ## Loading an account -/

/-- What running a program has as its result, and how many streams are open then. -/
def Results {Value : Type} (outcome : Except Errno Value × Process) (value : Option Value)
    (streams : ℕ) : Prop :=
  outcome.1.toOption = value ∧ outcome.2.streams = streams

section

variable (strerror : Errno → List Char) (files : Files) (process : Process)

theorem results_readLine (name : List Char) :
    Results ((readLine strerror files name).run.run process) (firstLine files name)
      (process.streams + leftOpen files name) := by
  simp only [readLine, fopen, leftOpen, firstLine]
  cases hfile : files name with
  | error err => exact ⟨rfl, rfl⟩
  | ok content =>
    cases content with
    | nil => exact ⟨rfl, rfl⟩
    | cons c content => exact ⟨rfl, rfl⟩

variable {process}

/-- No name is cut off by a buffer. -/
theorem results_loadTgAccount {directory : List Char} (hdirectory : directory.length < 1024) :
    Results ((loadTgAccount strerror files directory).run.run process) (described files directory)
      (process.streams + abandoned files directory) := by
  have hid : snprintf 1054 (directory ++ "/api_id.txt".toList) =
      directory ++ "/api_id.txt".toList := snprintf_eq (by simp; omega)
  have hhash : snprintf 1054 (directory ++ "/api_hash.txt".toList) =
      directory ++ "/api_hash.txt".toList := snprintf_eq (by simp; omega)
  have hdata : snprintf 1033 (directory ++ "/data".toList) = directory ++ "/data".toList :=
    snprintf_eq (by simp; omega)
  rw [loadTgAccount, hid, hhash, hdata, run_bind]
  have hfirst := results_readLine strerror files process (directory ++ "/api_id.txt".toList)
  cases hrun : (readLine strerror files (directory ++ "/api_id.txt".toList)).run.run process with
  | mk result next =>
    rw [hrun] at hfirst
    obtain ⟨hline, hstreams⟩ := hfirst
    cases result with
    | error err =>
      have hnone : firstLine files (directory ++ "/api_id.txt".toList) = none := hline.symm
      refine ⟨by rw [described, hnone]; rfl, ?_⟩
      rw [abandoned, hnone]
      exact hstreams
    | ok apiId =>
      have hsome : firstLine files (directory ++ "/api_id.txt".toList) = some apiId := hline.symm
      simp only [run_bind]
      have hsecond := results_readLine strerror files next (directory ++ "/api_hash.txt".toList)
      cases hrest :
          (readLine strerror files (directory ++ "/api_hash.txt".toList)).run.run next with
      | mk result last =>
        rw [hrest] at hsecond
        obtain ⟨hline', hstreams'⟩ := hsecond
        have hsum : last.streams = process.streams + abandoned files directory := by
          rw [abandoned, hsome, Option.isSome_some, if_pos rfl, ← Nat.add_assoc, ← hstreams]
          exact hstreams'
        have hhashLine : result.toOption =
            firstLine files (directory ++ "/api_hash.txt".toList) := hline'
        cases result with
        | error err => exact ⟨by rw [described, hsome, ← hhashLine]; rfl, hsum⟩
        | ok apiHash => exact ⟨by rw [described, hsome, ← hhashLine]; rfl, hsum⟩

/-! ## Loading the accounts -/

/-- The loop passes over what is too short for a directory. -/
theorem run_loadAccounts {pieces : List (List Char)}
    (hpieces : ∀ piece ∈ pieces, piece.length < 1024) (accounts : List TgAccount)
    (process : Process) :
    ((loadAccounts strerror files pieces accounts).run process).1 =
        accounts ++ (directories pieces).filterMap (described files) ∧
      ((loadAccounts strerror files pieces accounts).run process).2.streams =
        process.streams + ((directories pieces).map (abandoned files)).sum := by
  induction pieces generalizing accounts process with
  | nil => exact ⟨(List.append_nil _).symm, rfl⟩
  | cons pbuf rest ih =>
    obtain ⟨hpbuf, hrest⟩ := List.forall_mem_cons.mp hpieces
    rw [loadAccounts]
    by_cases hshort : (cString pbuf).length < 2
    · have hskipped : directories (pbuf :: rest) = directories rest := by
        simp [directories, hshort]
      simp only [hshort, if_true, hskipped]
      exact ih hrest accounts process
    · have hkept : directories (pbuf :: rest) =
          cutNewline (cString pbuf) :: directories rest := by
        simp [directories, Nat.le_of_not_lt hshort]
      have hlength : (cutNewline (cString pbuf)).length < 1024 :=
        ((length_cutNewline_le _).trans (length_cString_le pbuf)).trans_lt hpbuf
      have hload : Results ((loadTgAccount strerror files
          (cutNewline (cString pbuf))).run.run process) _ _ :=
        results_loadTgAccount strerror files hlength
      rw [hkept, List.filterMap_cons, List.map_cons, List.sum_cons, ← Nat.add_assoc]
      simp only [hshort, if_false, StateT.run_bind]
      cases hrun : (loadTgAccount strerror files (cutNewline (cString pbuf))).run.run process with
      | mk result next =>
        rw [hrun] at hload
        obtain ⟨hresult, hstreams⟩ := hload
        have hdescribed : result.toOption = described files (cutNewline (cString pbuf)) := hresult
        have hnext : next.streams = process.streams +
            abandoned files (cutNewline (cString pbuf)) := hstreams
        rw [← hdescribed, ← hnext]
        cases result with
        | error err =>
          exact ih hrest accounts { next with stdout := next.stdout ++
            ("Skipping \"".toList ++ cutNewline (cString pbuf) ++ "\"...\n".toList) }
        | ok acc =>
          have hothers := ih hrest (accounts ++ [acc]) next
          rw [List.append_assoc] at hothers
          exact hothers

theorem run_runAccounts (accounts : List TgAccount) (process : Process) :
    ((runAccounts accounts).run process).1 =
        (if accounts = [] then EINVAL.code else 0, accounts.head?) ∧
      ((runAccounts accounts).run process).2.streams = process.streams := by
  cases accounts with
  | nil => exact ⟨rfl, rfl⟩
  | cons acc accounts => exact ⟨by simp [runAccounts, printf]; rfl, rfl⟩

/-- The program runs the first account of the list whose directory describes one, and fails if there
is none; and it leaves a stream open for every empty file that it has tried to read. -/
theorem main_runs {program list content : List Char} (hlist : files list = .ok content) :
    ((main strerror files [program, list]).run {}).1 =
        (if listedAccounts files content = [] then EINVAL.code else 0,
          (listedAccounts files content).head?) ∧
      ((main strerror files [program, list]).run {}).2.streams =
        ((listed content).map (abandoned files)).sum := by
  have hpieces (piece : List Char) (hpiece : piece ∈ Lines.reads '\n' 1024 content) :
      piece.length < 1024 := ((Lines.reads_spec (by decide) content).2 piece hpiece).2
  have hload := run_loadAccounts strerror files hpieces [] { streams := 1 }
  cases hrun : (loadAccounts strerror files (Lines.reads '\n' 1024 content) []).run
      { streams := 1 } with
  | mk loaded next =>
    have houtcome : (main strerror files [program, list]).run {} = (runAccounts loaded).run
        { next with streams := next.streams - 1 } := by
      calc (main strerror files [program, list]).run {}
          = (match (loadAccounts strerror files (Lines.reads '\n' 1024 content) []).run
                { streams := 1 } with
            | (loaded, next) => (runAccounts loaded).run
                { next with streams := next.streams - 1 }) := by
              simp only [main, fopen, hlist]
              rfl
        _ = _ := by rw [hrun]
    obtain ⟨hresult, hstreams⟩ := run_runAccounts loaded { next with streams := next.streams - 1 }
    rw [hrun, List.nil_append] at hload
    obtain ⟨hloaded, hnext⟩ := hload
    have haccounts : loaded = listedAccounts files content := hloaded
    rw [houtcome, hresult, hstreams, haccounts]
    refine ⟨rfl, ?_⟩
    have hsum : next.streams = 1 + ((listed content).map (abandoned files)).sum := hnext
    simp only [hsum]
    omega

end

/-- A directory without files, one with an empty file, and one with an account. -/
def oneAccount : Files := fun name ↦
  if name = "list".toList then .ok "none\n\nempty\nbot\n".toList
  else if name = "empty/api_id.txt".toList then .ok []
  else if name = "bot/api_id.txt".toList then .ok "123\n".toList
  else if name = "bot/api_hash.txt".toList then .ok "abc\n".toList
  else .error ⟨2, by decide⟩

theorem main_runs_oneAccount :
    ((main (fun _ ↦ []) oneAccount ["tgvisd".toList, "list".toList]).run {}).1 =
        (0, some ⟨123, "abc".toList, "bot/data".toList⟩) ∧
      ((main (fun _ ↦ []) oneAccount ["tgvisd".toList, "list".toList]).run {}).2.streams = 1 := by
  have hlist : oneAccount "list".toList = .ok "none\n\nempty\nbot\n".toList := rfl
  obtain ⟨hresult, hstreams⟩ := main_runs (fun _ ↦ []) oneAccount hlist
  exact ⟨hresult.trans (by decide +kernel), hstreams.trans (by decide +kernel)⟩

/-! ## Accounts that are installed -/

/-- The directory is a name that fits a line, and its files hold the account, each on a line. -/
structure Installed (files : Files) (directory : List Char) (account : TgAccount) : Prop where
  ne_nil : directory ≠ []
  oneLine : '\n' ∉ directory
  terminated : '\x00' ∉ directory
  length_le : directory.length ≤ 1022
  apiId : ∃ digits, files (directory ++ "/api_id.txt".toList) = .ok (digits ++ ['\n']) ∧
    Decimal.read digits = some account.apiId ∧ digits.length ≤ 62
  apiId_lt : account.apiId < 4294967296
  apiHash : files (directory ++ "/api_hash.txt".toList) = .ok (account.apiHash ++ ['\n'])
  apiHash_oneLine : '\n' ∉ account.apiHash
  apiHash_terminated : '\x00' ∉ account.apiHash
  apiHash_length_le : account.apiHash.length ≤ 62
  dataPath : account.dataPath = directory ++ "/data".toList

theorem not_mem_of_read {text : List Char} {number : ℕ} (h : Decimal.read text = some number)
    {c : Char} (hc : Decimal.isDigit c = false) : c ∉ text := by
  intro hmem
  rw [(Decimal.read_eq_some_iff.mp h).2.1 c hmem] at hc
  cases hc

theorem strtoul_line {text : List Char} {number : ℕ} (h : Decimal.read text = some number)
    (hsmall : number < 4294967296) : strtoul (text ++ ['\n']) = number := by
  obtain ⟨hne, hdigits, hvalue⟩ := Decimal.read_eq_some_iff.mp h
  have htake : (text ++ ['\n']).takeWhile Decimal.isDigit = text := by
    rw [List.takeWhile_append_of_pos hdigits]
    simp [Decimal.isDigit]
  obtain ⟨c, rest, rfl⟩ := List.exists_cons_of_ne_nil hne
  have hc : Decimal.isDigit c = true := hdigits c List.mem_cons_self
  rw [List.cons_append] at htake ⊢
  have hdrop : (c :: (rest ++ ['\n'])).dropWhile isSpace = c :: (rest ++ ['\n']) := by
    simp [isSpace_of_isDigit hc]
  simp only [strtoul, hdrop, sign_of_isDigit hc, htake, hvalue]
  rw [if_pos (by omega)]
  omega

variable {files : Files} {directory : List Char} {account : TgAccount}

theorem firstLine_eq {name line : List Char} (hfile : files name = .ok (line ++ ['\n']))
    (hline : '\n' ∉ line) (hlength : line.length ≤ 62) :
    firstLine files name = some (line ++ ['\n']) := by
  have hnext : Lines.next '\n' 63 (line ++ '\n' :: []) = (line ++ ['\n'], []) :=
    Lines.next_line hline (by omega)
  simp [firstLine, hfile, Lines.fgets, hnext]

theorem leftOpen_eq {name line : List Char} (hfile : files name = .ok (line ++ ['\n'])) :
    leftOpen files name = 0 := by
  rw [leftOpen, hfile]
  cases line <;> rfl

theorem Installed.described_eq (h : Installed files directory account) :
    described files directory = some account := by
  obtain ⟨digits, hfile, hread, hlength⟩ := h.apiId
  have hid := firstLine_eq hfile (not_mem_of_read hread rfl) hlength
  have hhash := firstLine_eq h.apiHash h.apiHash_oneLine h.apiHash_length_le
  have hterminated : '\x00' ∉ digits := not_mem_of_read hread rfl
  have hidString : cString (digits ++ ['\n']) = digits ++ ['\n'] :=
    cString_eq (by simp [hterminated])
  have hhashString : cString (account.apiHash ++ ['\n']) = account.apiHash ++ ['\n'] :=
    cString_eq (by simp [h.apiHash_terminated])
  have hsmall : toUint32 account.apiId = account.apiId := by
    have hlt := h.apiId_lt
    rw [toUint32]
    omega
  simp only [described, hid, hhash, hidString, hhashString, Option.bind_eq_bind, Option.bind_some,
    strtoul_line hread h.apiId_lt, hsmall, cutNewline_append, ← h.dataPath]
  rfl

theorem Installed.abandoned_eq (h : Installed files directory account) :
    abandoned files directory = 0 := by
  obtain ⟨digits, hfile, -⟩ := h.apiId
  rw [abandoned, leftOpen_eq hfile, leftOpen_eq h.apiHash, ite_self]

theorem Installed.fits (h : Installed files directory account) :
    '\n' ∉ directory ∧ directory.length + 2 ≤ 1024 := by
  have hlength := h.length_le
  exact ⟨h.oneLine, by omega⟩

theorem directories_written {lines : List (List Char)}
    (hlines : ∀ line ∈ lines, line ≠ [] ∧ '\x00' ∉ line) :
    directories (lines.map fun line ↦ line ++ ['\n']) = lines := by
  induction lines with
  | nil => rfl
  | cons line lines ih =>
    obtain ⟨⟨hne, hterminated⟩, hlines⟩ := List.forall_mem_cons.mp hlines
    have hstring : cString (line ++ ['\n']) = line ++ ['\n'] :=
      cString_eq (by simp [hterminated])
    have hpos := List.length_pos_of_ne_nil hne
    have hlength : 2 ≤ (line ++ ['\n']).length := by
      rw [List.length_append, List.length_singleton]
      omega
    have hrest := ih hlines
    unfold directories at hrest ⊢
    rw [List.map_cons, List.map_cons, hstring, List.filter_cons_of_pos (by simpa using hlength),
      List.map_cons, cutNewline_append, hrest]

/-- A list of accounts that are installed is read as it was written: all of them are loaded, in the
order of the list, and no stream stays open. -/
theorem loadAccounts_written (strerror : Errno → List Char)
    {entries : List (List Char × TgAccount)} (process : Process)
    (hentries : ∀ entry ∈ entries, Installed files entry.1 entry.2) :
    let content := Lines.written '\n' (entries.map Prod.fst)
    let outcome := (loadAccounts strerror files (Lines.reads '\n' 1024 content) []).run process
    outcome.1 = entries.map Prod.snd ∧ outcome.2.streams = process.streams := by
  intro content outcome
  have hdirectories : directories (Lines.reads '\n' 1024 content) = entries.map Prod.fst := by
    have hreads : Lines.reads '\n' 1024 content =
        (entries.map Prod.fst).map fun line ↦ line ++ ['\n'] := by
      apply Lines.reads_written (by decide)
      intro line hline
      obtain ⟨entry, hentry, rfl⟩ := List.mem_map.mp hline
      exact (hentries entry hentry).fits
    rw [hreads]
    apply directories_written
    intro line hline
    obtain ⟨entry, hentry, rfl⟩ := List.mem_map.mp hline
    exact ⟨(hentries entry hentry).ne_nil, (hentries entry hentry).terminated⟩
  have hpieces (piece : List Char) (hpiece : piece ∈ Lines.reads '\n' 1024 content) :
      piece.length < 1024 := ((Lines.reads_spec (by decide) content).2 piece hpiece).2
  obtain ⟨haccounts, hstreams⟩ := run_loadAccounts strerror files hpieces [] process
  rw [hdirectories] at haccounts hstreams
  constructor
  · calc outcome.1 = (entries.map Prod.fst).filterMap (described files) := haccounts
      _ = entries.filterMap fun entry ↦ some entry.2 := by
        rw [List.filterMap_map]
        exact List.filterMap_congr fun entry hentry ↦ (hentries entry hentry).described_eq
      _ = entries.map Prod.snd := congrFun List.filterMap_eq_map' entries
  · have hnone : ((entries.map Prod.fst).map (abandoned files)).sum = 0 := by
      rw [List.map_map]
      apply List.sum_eq_zero
      intro count hcount
      obtain ⟨entry, hentry, rfl⟩ := List.mem_map.mp hcount
      exact (hentries entry hentry).abandoned_eq
    rw [hnone] at hstreams
    exact hstreams

/-- Two directories with an account each. -/
def twoAccounts : Files := fun name ↦
  if name = "b/api_id.txt".toList then .ok "123\n".toList
  else if name = "b/api_hash.txt".toList then .ok "abc\n".toList
  else if name = "a/api_id.txt".toList then .ok "45\n".toList
  else if name = "a/api_hash.txt".toList then .ok "de\n".toList
  else .error ⟨2, by decide⟩

/-- The accounts come in the order of the list. -/
theorem loadAccounts_written_twoAccounts :
    let first : TgAccount := ⟨123, "abc".toList, "b/data".toList⟩
    let second : TgAccount := ⟨45, "de".toList, "a/data".toList⟩
    let outcome := (loadAccounts (fun _ ↦ []) twoAccounts (Lines.reads '\n' 1024 (Lines.written
      '\n' ["b".toList, "a".toList])) []).run {}
    Installed twoAccounts "b".toList first ∧ Installed twoAccounts "a".toList second ∧
      outcome.1 = [first, second] ∧ outcome.2.streams = 0 := by
  intro first second outcome
  have hfirst : Installed twoAccounts "b".toList first :=
    { ne_nil := by decide
      oneLine := by decide
      terminated := by decide
      length_le := by decide
      apiId := ⟨"123".toList, rfl, by decide, by decide⟩
      apiId_lt := by decide
      apiHash := rfl
      apiHash_oneLine := by decide
      apiHash_terminated := by decide
      apiHash_length_le := by decide
      dataPath := rfl }
  have hsecond : Installed twoAccounts "a".toList second :=
    { ne_nil := by decide
      oneLine := by decide
      terminated := by decide
      length_le := by decide
      apiId := ⟨"45".toList, rfl, by decide, by decide⟩
      apiId_lt := by decide
      apiHash := rfl
      apiHash_oneLine := by decide
      apiHash_terminated := by decide
      apiHash_length_le := by decide
      dataPath := rfl }
  have hentries (entry : List Char × TgAccount)
      (hentry : entry ∈ [("b".toList, first), ("a".toList, second)]) :
      Installed twoAccounts entry.1 entry.2 := by
    obtain rfl | hentry := List.mem_cons.mp hentry
    · exact hfirst
    · obtain rfl := List.mem_singleton.mp hentry
      exact hsecond
  exact ⟨hfirst, hsecond, loadAccounts_written (fun _ ↦ []) {} hentries⟩

end Tgvisd.Accounts
