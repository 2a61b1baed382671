import Tgvisd.Lib.Conduct
import Tgvisd.Lib.World
import Tgvisd.TeaBot.Response

/-!
# What a message can make the bot do

The commands that `popen` gets are strings in memory, which end at their first terminator. A text
with a terminator inside cuts the line within the quotes, so that the shell runs nothing;
otherwise the line is read as it was meant. Whatever else the bot asks for is told from the
message.
-/

namespace Tgvisd.TeaBot

/-! ## Memory -/

/-- The end of `shell_exec` stays within its buffer, and the text is never empty. -/
theorem readOutput_eq (output : List Char) :
    readOutput output = some (if trimmed (output.take 8096) = [] then ['~']
      else trimmed (output.take 8096)) := by
  have hlength : (output.take 8096).length ≤ 8096 := by
    rw [List.length_take]
    exact Nat.min_le_left 8096 output.length
  obtain ⟨memory, hmemory, ⟨back, hcells⟩, -⟩ :=
    (Block.allocate 8096).begins_nil.storeAll (output.take 8096)
      (by rwa [List.length_nil, Nat.zero_add, Block.size_allocate])
  have hout : memory.cells = [] ++ (output.take 8096).map some ++ back := by simpa using hcells
  have htrim := trimLen_eq hout
  rw [List.length_nil] at hmemory htrim
  simp only [readOutput, hmemory, htrim, Option.bind_eq_bind, Option.bind_some,
    List.length_eq_zero_iff]
  split
  · rfl
  · let trimmedMemory : Block Char := ⟨[] ++ (leading (output.take 8096) ++
        trimmed (output.take 8096) ++ terminated (trailing (output.take 8096))).map some ++ back⟩
    have htrimmed : trimmedMemory.cells = (leading (output.take 8096)).map some ++
        (trimmed (output.take 8096)).map some ++
          ((terminated (trailing (output.take 8096))).map some ++ back) := by
      simp [trimmedMemory]
    have hload := Block.loadAll_eq _ htrimmed
    rw [List.length_map] at hload
    rw [Nat.zero_add]
    exact hload

/-- The string in a block that begins with a terminated text. -/
theorem command_begins {heap : Block Char} {line : List Char}
    (h : heap.Begins (line ++ ['\x00'])) :
    command (some heap) = some (line.takeWhile (· ≠ '\x00')) := by
  obtain ⟨back, hcells⟩ := h
  have hfront : heap.cells = [] ++ line.map some ++ some '\x00' :: back := by simp [hcells]
  exact Block.stringAt_eq_takeWhile hfront

theorem ShellExec.Module.command_begins {module : ShellExec.Module}
    (hwrap : module.wrap.isSome = true) :
    command module.wrap = some (module.line.takeWhile (· ≠ '\x00')) := by
  have hfits := (module.fill_isSome_iff (Block.allocate module.wrappedLen)).mp hwrap
  obtain ⟨filled, hfilled, hbegins⟩ := module.fill_begins hfits
  rw [wrap, hfilled]
  exact TeaBot.command_begins hbegins

theorem ShellExec.Module.command_eq {module : ShellExec.Module} {cmd : List Char}
    (hcmd : command module.wrap = some cmd) : cmd = module.line.takeWhile (· ≠ '\x00') := by
  have hwrap : module.wrap.isSome = true := by
    by_contra hnone
    simp [Option.not_isSome_iff_eq_none.mp hnone, command] at hcmd
  exact Option.some.inj (hcmd.symm.trans (command_begins hwrap))

theorem Sed.Module.line_fits {module : Sed.Module} (hlen : module.len = module.pat.length)
    (repliedText : List Char) :
    (module.line repliedText).length + 1 ≤
      (Block.allocate (module.alloc repliedText) : Block Char).size := by
  have hprint : printCmd.length = 12 := by decide
  have hsed : sedCmd.length = 10 := by decide
  have houtputs : bothOutputs.length = 5 := by decide
  have hreplied : repliedText.count '\'' ≤ repliedText.length := List.count_le_length
  have hpat : module.pat.count '\'' ≤ module.pat.length := List.count_le_length
  rw [Block.size_allocate, line, alloc, hlen]
  simp only [List.length_append, length_escaped, sizeOf, hprint, hsed, houtputs]
  omega

theorem Sed.Module.command_wrap {module : Sed.Module} (hlen : module.len = module.pat.length)
    (repliedText : List Char) :
    command (module.wrap repliedText) =
      some ((module.line repliedText).takeWhile (· ≠ '\x00')) := by
  obtain ⟨filled, hfilled, hbegins⟩ := module.fill_begins repliedText
    (Block.allocate (module.alloc repliedText)) (module.line_fits hlen repliedText)
  rw [wrap, hfilled]
  exact command_begins hbegins

/-! ## What the shell makes of a command -/

/-- Up to a terminator inside it, an escaped text. -/
theorem takeWhile_escaped {str : List Char} (rest : List Char) (hstr : '\x00' ∈ str) :
    (str.flatMap escape ++ rest).takeWhile (· ≠ '\x00') =
      (str.takeWhile (· ≠ '\x00')).flatMap escape := by
  induction str with
  | nil => simp at hstr
  | cons c str ih =>
    by_cases hc : c = '\x00'
    · simp [hc, escape]
    · have hrest : '\x00' ∈ str := (List.mem_cons.mp hstr).resolve_left (Ne.symm hc)
      have hplain : ∀ d ∈ escape c, decide (d ≠ '\x00') = true := by
        intro d hd
        unfold escape at hd
        split_ifs at hd with hquote
        · simp only [List.mem_cons, List.not_mem_nil, or_false] at hd
          obtain rfl | rfl | rfl | rfl := hd <;> simp [hc]
        · simp only [List.mem_singleton] at hd
          simpa [hd] using hc
      rw [List.flatMap_cons, List.append_assoc, List.takeWhile_append_of_pos hplain, ih hrest]
      simp [hc]

/-- A line that ends inside an escaped text. -/
theorem breaksOff_escaped {front : List Char} {tokens : List Shell.Token}
    (hfront : Shell.scan .between front = (tokens, .between))
    (htokens : .operator ['\n'] ∉ tokens) (str : List Char) :
    Shell.BreaksOff (front ++ '\'' :: str.flatMap escape) := by
  have hopen : Shell.scan .between ('\'' :: str.flatMap escape) =
      ([], .single (Shell.verbatim str)) := by
    have hstep : Shell.step .between '\'' = ([], .single []) := by decide
    rw [Shell.scan, hstep]
    simp [scan_escape]
  refine ⟨tokens, Shell.verbatim str, ?_, htokens⟩
  simp [Shell.scan_append, hfront, hopen]

/-- Where the terminated text has its first terminator. -/
theorem takeWhile_front {front : List Char} (hfront : '\x00' ∉ front) (rest : List Char) :
    (front ++ rest).takeWhile (· ≠ '\x00') = front ++ rest.takeWhile (· ≠ '\x00') :=
  List.takeWhile_append_of_pos fun c hc ↦ by simpa using ne_of_mem_of_not_mem hc hfront

theorem takeWhile_text {text : List Char} (htext : '\x00' ∉ text) :
    text.takeWhile (· ≠ '\x00') = text := by
  simpa using takeWhile_front htext []

/-- A line whose first terminator is inside an escaped text breaks off there. -/
theorem takeWhile_line {front str : List Char} (rest : List Char) (hfront : '\x00' ∉ front)
    (hstr : '\x00' ∈ str) :
    (front ++ (escaped str str.length ++ rest)).takeWhile (· ≠ '\x00') =
      front ++ '\'' :: (str.takeWhile (· ≠ '\x00')).flatMap escape := by
  have hescaped := takeWhile_escaped ('\'' :: rest) hstr
  rw [takeWhile_front hfront, escaped_eq, List.cons_append, List.cons_append,
    List.takeWhile_cons_of_pos (by decide), List.append_assoc, List.singleton_append, hescaped]

theorem scan_shellWrapStr : Shell.scan .between ShellExec.shellWrapStr =
    ([.word (Shell.bare "exec".toList), .word (Shell.bare "/usr/bin/bash".toList),
      .word (Shell.bare "-c".toList)], .between) := by
  decide

theorem scan_printCmd : Shell.scan .between Sed.printCmd =
    ([.word (Shell.bare "printf".toList), .word (Shell.verbatim "%s".toList)], .between) := by
  decide

theorem scan_sedCmd (word : Shell.Word) : Shell.scan (.plain word) Sed.sedCmd =
    ([.word word, .operator ['|'], .word (Shell.bare "sed".toList),
      .word (Shell.bare "-r".toList)], .between) := by
  have hrest : Shell.scan .between "| sed -r ".toList = ([.operator ['|'],
      .word (Shell.bare "sed".toList), .word (Shell.bare "-r".toList)], .between) := by decide
  have hblank : Sed.sedCmd = ' ' :: "| sed -r ".toList := by decide
  rw [hblank, Shell.scan_plain_blank, hrest]

/-- The command line that the shell reads from `ShellExec`, unless it breaks off. -/
theorem ShellExec.Module.commands_eq {module : ShellExec.Module}
    (hlen : module.len = module.cmd.length) :
    Shell.commands (module.line.takeWhile (· ≠ '\x00')) =
        some [⟨[Shell.bare "exec".toList, Shell.bare "/usr/bin/bash".toList,
          Shell.bare "-c".toList, Shell.verbatim module.cmd], [toBothOutputs]⟩] ∨
      Shell.BreaksOff (module.line.takeWhile (· ≠ '\x00')) := by
  have hwrap : '\x00' ∉ shellWrapStr := by decide
  have houtputs : '\x00' ∉ bothOutputs := by decide
  by_cases hcmd : '\x00' ∈ module.cmd
  · have hline : module.line.takeWhile (· ≠ '\x00') =
        shellWrapStr ++ '\'' :: (module.cmd.takeWhile (· ≠ '\x00')).flatMap escape := by
      rw [line, hlen, List.append_assoc, takeWhile_line bothOutputs hwrap hcmd]
    rw [hline]
    exact .inr (breaksOff_escaped scan_shellWrapStr (by simp) _)
  · have hline : module.line.takeWhile (· ≠ '\x00') = module.line := by
      apply takeWhile_text
      rw [line, hlen]
      simp [hwrap, houtputs, not_mem_escaped hcmd]
    rw [hline]
    exact .inl (commands_line hlen)

/-- The command line that the shell reads from `Sed`, unless it breaks off. -/
theorem Sed.Module.commands_eq {module : Sed.Module} (hlen : module.len = module.pat.length)
    (repliedText : List Char) :
    Shell.commands ((module.line repliedText).takeWhile (· ≠ '\x00')) =
        some [⟨[Shell.bare "printf".toList, Shell.verbatim "%s".toList,
          Shell.verbatim repliedText], []⟩, ⟨[Shell.bare "sed".toList, Shell.bare "-r".toList,
            Shell.verbatim module.pat], [toBothOutputs]⟩] ∨
      Shell.BreaksOff ((module.line repliedText).takeWhile (· ≠ '\x00')) := by
  have hprint : '\x00' ∉ printCmd := by decide
  have hsed : '\x00' ∉ sedCmd := by decide
  have houtputs : '\x00' ∉ bothOutputs := by decide
  by_cases hreplied : '\x00' ∈ repliedText
  · have hline : (module.line repliedText).takeWhile (· ≠ '\x00') =
        printCmd ++ '\'' :: (repliedText.takeWhile (· ≠ '\x00')).flatMap escape := by
      rw [line, List.append_assoc, List.append_assoc, List.append_assoc,
        takeWhile_line _ hprint hreplied]
    rw [hline]
    exact .inr (breaksOff_escaped scan_printCmd (by simp) _)
  · have hfront : '\x00' ∉ printCmd ++ escaped repliedText repliedText.length ++ sedCmd := by
      simp [hprint, hsed, not_mem_escaped hreplied]
    by_cases hpat : '\x00' ∈ module.pat
    · have hline : (module.line repliedText).takeWhile (· ≠ '\x00') =
          (printCmd ++ escaped repliedText repliedText.length ++ sedCmd) ++
            '\'' :: (module.pat.takeWhile (· ≠ '\x00')).flatMap escape := by
        rw [line, hlen, List.append_assoc _ _ bothOutputs,
          takeWhile_line bothOutputs hfront hpat]
      obtain ⟨tokens, htokens, hlast⟩ : ∃ tokens, Shell.scan .between
          (printCmd ++ escaped repliedText repliedText.length ++ sedCmd) = (tokens, .between) ∧
            .operator ['\n'] ∉ tokens := by
        simp [Shell.scan_append, scan_printCmd, scan_escaped, scan_sedCmd]
      rw [hline]
      exact .inr (breaksOff_escaped htokens hlast _)
    · have hline : (module.line repliedText).takeWhile (· ≠ '\x00') =
          module.line repliedText := by
        apply takeWhile_text
        rw [line, hlen]
        simp [hprint, hsed, houtputs, not_mem_escaped hreplied, not_mem_escaped hpat]
      rw [hline]
      exact .inl (commands_line hlen repliedText)

/-! ## What a message can make the bot do -/

/-- The account itself, or a sudoer. -/
def Response.IsTrusted (response : Response) : Prop :=
  response.isSelfMsg = true ∨ response.senderId ∈ ShellExec.sudoers

/-- `date -u` -/
def dateCommand : Shell.Command := ⟨[Shell.bare "date".toList, Shell.bare "-u".toList], []⟩

/-- The commands that the shell may read. -/
inductive Response.MayRun (response : Response) : List Shell.Command → Prop
  | date : response.MayRun [dateCommand]
  | sed (pat repliedText : List Char) (text : response.text.drop 1 = "sed ".toList ++ pat) :
    response.MayRun [⟨[Shell.bare "printf".toList, Shell.verbatim "%s".toList,
      Shell.verbatim repliedText], []⟩, ⟨[Shell.bare "sed".toList, Shell.bare "-r".toList,
        Shell.verbatim pat], [toBothOutputs]⟩]
  | bash (cmd : List Char) (trusted : response.IsTrusted)
    (text : response.text.drop 1 = "sh ".toList ++ cmd ∨
      response.text.drop 1 = "shr ".toList ++ cmd) :
    response.MayRun [⟨[Shell.bare "exec".toList, Shell.bare "/usr/bin/bash".toList,
      Shell.bare "-c".toList, Shell.verbatim cmd], [toBothOutputs]⟩]

/-- The replies go to the chat of the message, and only a message of the account itself is
edited. -/
def Response.Allows (response : Response) : Request → Prop
  | .getMessage chatId messageId =>
    chatId = response.message.replyInChatId ∧ messageId = response.message.replyToMessageId
  | .sendMessage chatId replyToMessageId _ _ =>
    chatId = response.message.chatId ∧ (replyToMessageId = response.message.id ∨
      replyToMessageId = response.message.replyToMessageId)
  | .editMessageText chatId messageId _ _ =>
    response.isSelfMsg = true ∧ chatId = response.message.chatId ∧
      messageId = response.message.id
  | .popen cmd => (∃ commands, Shell.commands cmd = some commands ∧ response.MayRun commands) ∨
      Shell.BreaksOff cmd
  | .download url => url = KernelUpdate.url

section

variable {allowed : Request → Prop} {response : Response}

theorem asksOnly_inMemory {Value : Type} (result : Option Value) :
    AsksOnly allowed (inMemory result) := by
  cases result with
  | none => exact .stop _
  | some value => exact .pure value

theorem inMemory_some_bind {Value Next : Type} (value : Value) (next : Value → Bot Next) :
    inMemory (some value) >>= next = next value :=
  pure_bind value next

/-- Nothing is asked for after a bad access. -/
theorem asksOnly_stopped {Value Next : Type} (next : Value → Bot Next) :
    AsksOnly allowed (inMemory none >>= next) := by
  intro state exchanges ending hrun
  obtain ⟨rfl, -⟩ := Procedure.runs_stop_bind_iff.mp hrun
  simp

theorem asksOnly_liftExcept {Value : Type} (result : Except (List Char) Value) :
    AsksOnly allowed (liftExcept result) := by
  cases result with
  | error what => exact .throw what
  | ok value => exact .pure value

theorem asksOnly_shellExec {cmd : List Char} (hcmd : allowed (.popen cmd)) :
    AsksOnly allowed (shellExec cmd) := by
  refine .bind (.perform hcmd) fun outcome ↦ ?_
  cases outcome with
  | error strerror => exact .pure _
  | ok output => exact asksOnly_inMemory _

theorem asksOnly_checkRepliedMsg : AsksOnly response.Allows (checkRepliedMsg response) := by
  refine .bind (.perform ⟨rfl, rfl⟩) fun content ↦ ?_
  cases content with
  | none => exact .pure none
  | some content =>
    cases content with
    | text text => exact .pure (some text)
    | other => exact .pure none

theorem asksOnly_debug (libraries : Libraries) (hself : response.isSelfMsg = true) :
    AsksOnly response.Allows (Debug.match libraries response) :=
  .ite (.bind (.perform ⟨hself, rfl, rfl⟩) fun _ ↦ .pure true) (.pure false)

theorem asksOnly_kernelUpdate (libraries : Libraries) :
    AsksOnly response.Allows (KernelUpdate.match libraries response) := by
  have hdate : response.Allows (.popen "date -u".toList) :=
    .inl ⟨[dateCommand], by decide, .date⟩
  have hdescribe : AsksOnly response.Allows (KernelUpdate.describe libraries) := by
    refine .bind (.perform rfl) fun pieces ↦ .bind (asksOnly_inMemory _) fun outcome ↦ ?_
    cases outcome with
    | error what => exact .throw what
    | ok cr =>
      exact .bind (asksOnly_inMemory _) fun ret ↦ .bind (asksOnly_liftExcept _) fun releases ↦
        .bind (asksOnly_shellExec hdate) fun date ↦ .pure _
  refine .ite (.bind (.bind (.tryCatch hdescribe fun what ↦ .pure _) fun reply ↦ ?_)
    fun _ ↦ .pure true) (.pure false)
  exact .perform ⟨rfl, .inl rfl⟩

theorem asksOnly_mock (hself : response.isSelfMsg = true) :
    AsksOnly response.Allows (Mock.match response) := by
  refine .ite (.bind (.bind asksOnly_checkRepliedMsg fun replied ↦ ?_) fun _ ↦ .pure true)
    (.pure false)
  cases replied with
  | none => exact .pure ()
  | some repliedText => exact .perform ⟨hself, rfl, rfl⟩

/-- What follows the prefix of a text. -/
theorem append_drop_of_take {text keyword : List Char} {n : ℕ} (h : text.take n = keyword) :
    text = keyword ++ text.drop n := by
  rw [← h, List.take_append_drop]

theorem asksOnly_sed : AsksOnly response.Allows (Sed.match response) := by
  unfold Sed.match
  cases hmatch : Sed.Module.match response.text with
  | none => exact .pure false
  | some module =>
    refine .bind (.bind asksOnly_checkRepliedMsg fun replied ↦ ?_) fun _ ↦ .pure true
    cases replied with
    | none => exact .pure ()
    | some repliedText =>
      have hlen := Sed.Module.length_eq hmatch
      have htext : response.text.drop 1 = "sed ".toList ++ module.pat := by
        simp only [Sed.Module.match] at hmatch
        split_ifs at hmatch with hshort hkeyword
        rw [← Option.some.inj hmatch]
        exact append_drop_of_take (not_not.mp hkeyword)
      change AsksOnly response.Allows (inMemory (command (module.wrap repliedText)) >>= _)
      rw [Sed.Module.command_wrap hlen, inMemory_some_bind]
      refine .bind (asksOnly_shellExec ?_) fun output ↦ .perform ⟨rfl, .inr rfl⟩
      obtain hcommands | hbroken := Sed.Module.commands_eq hlen repliedText
      · exact .inl ⟨_, hcommands, .sed module.pat repliedText htext⟩
      · exact .inr hbroken

theorem ShellExec.Module.match_eq {text : List Char} {isSelfMsg : Bool} {senderId : ℤ}
    {module : ShellExec.Module}
    (h : ShellExec.Module.match text isSelfMsg senderId = some module) :
    (isSelfMsg = true ∨ senderId ∈ sudoers) ∧ (module.editMsg = true → isSelfMsg = true) ∧
      (text.drop 1 = "sh ".toList ++ module.cmd ∨ text.drop 1 = "shr ".toList ++ module.cmd) := by
  have hallow {asked : ShellExec.Module} (hasked : asked.allow isSelfMsg senderId = some module) :
      (isSelfMsg = true ∨ senderId ∈ sudoers) ∧ (module.editMsg = true → isSelfMsg = true) := by
    unfold allow at hasked
    split_ifs at hasked with hself hsudoer
    · exact ⟨.inl hself, fun _ ↦ hself⟩
    · simp [← Option.some.inj hasked, hsudoer]
  simp only [Module.match] at h
  split_ifs at h with hshort hsh hshr
  · obtain ⟨htrusted, hedit⟩ := hallow h
    rw [(Module.allow_eq h).1]
    exact ⟨htrusted, hedit, .inl (append_drop_of_take hsh)⟩
  · obtain ⟨htrusted, hedit⟩ := hallow h
    rw [(Module.allow_eq h).1]
    exact ⟨htrusted, hedit, .inr (append_drop_of_take hshr)⟩

theorem asksOnly_shell : AsksOnly response.Allows (ShellExec.match response) := by
  unfold ShellExec.match
  cases hmatch : ShellExec.Module.match response.text response.isSelfMsg response.senderId with
  | none => exact .pure false
  | some module =>
    obtain ⟨htrusted, hedit, htext⟩ := ShellExec.Module.match_eq hmatch
    refine .bind ?_ fun _ ↦ .pure true
    unfold ShellExec.Module.run
    cases hcommand : command module.wrap with
    | none => exact asksOnly_stopped _
    | some cmd =>
      rw [inMemory_some_bind]
      refine .bind (asksOnly_shellExec ?_) fun cmdOut ↦ ?_
      · rw [ShellExec.Module.command_eq hcommand]
        obtain hcommands | hbroken :=
          ShellExec.Module.commands_eq (ShellExec.Module.length_eq hmatch)
        · exact .inl ⟨_, hcommands, .bash module.cmd htrusted htext⟩
        · exact .inr hbroken
      · cases heditMsg : module.editMsg with
        | true => exact .perform ⟨hedit heditMsg, rfl, rfl⟩
        | false => exact .perform ⟨rfl, .inl rfl⟩

theorem asksOnly_firstMatch {modules : List (Bot Bool)}
    (h : ∀ module ∈ modules, AsksOnly allowed module) : AsksOnly allowed (firstMatch modules) := by
  induction modules with
  | nil => exact .pure ()
  | cons module modules ih =>
    rw [List.forall_mem_cons] at h
    refine .bind h.1 fun taken ↦ ?_
    cases taken with
    | true => exact .pure ()
    | false => exact ih h.2

theorem asksOnly_run (libraries : Libraries) :
    AsksOnly response.Allows (response.run libraries) := by
  unfold Response.run
  split
  · rename_i hself
    refine .ite (asksOnly_firstMatch ?_) (.pure ())
    simp only [List.forall_mem_cons, List.not_mem_nil, false_imp_iff, implies_true, and_true]
    exact ⟨asksOnly_debug libraries hself, asksOnly_kernelUpdate libraries, asksOnly_mock hself,
      asksOnly_sed, asksOnly_shell⟩
  · refine .ite (asksOnly_firstMatch ?_) (.pure ())
    simp only [List.forall_mem_cons, List.not_mem_nil, false_imp_iff, implies_true, and_true]
    exact ⟨asksOnly_kernelUpdate libraries, asksOnly_shell, asksOnly_sed⟩

end

/-- For every message, whoever it comes from, and whatever TDLib, the shell and the network
answer: only a text message makes the bot ask for anything; it replies only in the chat of the
message and edits only messages of its own account; and what the shell is given breaks off inside
quotes, or the shell reads in it `date -u`, a pipe from `printf` to `sed` in which the texts of the
messages are one quoted word each, or, if the sender is trusted, the `bash` that the message asks
for. -/
theorem updateNewMessage_asks (libraries : Libraries) (userId : ℤ) (message : Message)
    {exchanges : List (Sigma Answer)} {ending : Procedure.Ending Halt (List Char) Unit Unit}
    (hrun : (updateNewMessage libraries userId message).Runs () exchanges ending) :
    ∀ exchange ∈ exchanges, ∃ text, message.content = .text text ∧
      (Response.of userId message text).Allows exchange.1 := by
  intro exchange hexchange
  unfold updateNewMessage at hrun
  cases hcontent : message.content with
  | text text =>
    rw [hcontent] at hrun
    exact ⟨text, rfl, asksOnly_run libraries () exchanges ending hrun exchange hexchange⟩
  | other =>
    rw [hcontent] at hrun
    obtain ⟨rfl, -⟩ := Procedure.runs_pure_iff.mp hrun
    simp at hexchange

/-- A stranger replies `!sed s/o/0/` to `it's`, and the shell cannot be started. -/
def sedMessage : Message := ⟨10, 2, .user 3, .text "!sed s/o/0/".toList, 10, 1⟩

def noLibraries : Libraries := ⟨fun _ ↦ [], fun what ↦ .error what, fun _ ↦ []⟩

def sedAnswers (_ : Unit) : (request : Request) → Option (Answer request × Unit)
  | .getMessage _ _ => some (some (.text "it's".toList), ())
  | .sendMessage _ _ _ _ | .editMessageText _ _ _ _ => some ((), ())
  | .popen _ => some (.error "Cannot allocate memory".toList, ())
  | .download _ => none

def anyAnswer : Environment Answer Unit := fun _ _ _ _ ↦ True

theorem updateNewMessage_asks_sedMessage : ∃ exchanges ending,
    (updateNewMessage noLibraries 4 sedMessage).Runs () exchanges ending ∧
      exchanges.map Sigma.fst = [.getMessage 10 1,
        .popen "printf \"%s\" 'it'\\''s' | sed -r 's/o/0/' 2>&1".toList,
        .sendMessage 10 1 "Sed output:\nError: Cannot allocate memory".toList [⟨0, 11, .bold⟩]] ∧
      ∀ exchange ∈ exchanges, ∃ text, sedMessage.content = .text text ∧
        (Response.of 4 sedMessage text).Allows exchange.1 := by
  have htrace : ((updateNewMessage noLibraries 4 sedMessage).traceIn sedAnswers () ()).map
      (fun trace ↦ trace.1.map Sigma.fst) = some [.getMessage 10 1,
        .popen "printf \"%s\" 'it'\\''s' | sed -r 's/o/0/' 2>&1".toList,
        .sendMessage 10 1 "Sed output:\nError: Cannot allocate memory".toList
          [⟨0, 11, .bold⟩]] := by
    decide +kernel
  obtain ⟨⟨exchanges, ending, last⟩, hlast, hrequests⟩ := Option.map_eq_some_iff.mp htrace
  have hany (world : Unit) (request : Request) (response : Answer request × Unit)
      (_ : sedAnswers world request = some response) :
      anyAnswer world request response.1 response.2 := trivial
  have hrun := (Procedure.runs_of_traceIn hany hlast).1
  exact ⟨exchanges, ending, hrun, hrequests, updateNewMessage_asks _ _ _ hrun⟩

end Tgvisd.TeaBot
