import Tgvisd.Lib.Footprint
import Tgvisd.TeaBot.Authority

/-!
# One reply, and no bad access

A message is taken by one module at most, which starts at most one command and sends at most one
reply. The accesses to memory on the way are good, but for two: a trusted sender's command that
consists of single quotes overflows its buffer, and a response of the network without a body leaves
the output that is read then unwritten.
-/

namespace Tgvisd.TeaBot

/-! ## Counting -/

/-- How much each of the requests counts. -/
structure Weights (counted : Request → Bool) (shell reply : ℕ) : Prop where
  popen : ∀ cmd, (counted (.popen cmd)).toNat = shell
  sendMessage : ∀ chatId replyToMessageId text entities,
    (counted (.sendMessage chatId replyToMessageId text entities)).toNat = reply
  editMessageText : ∀ chatId messageId text entities,
    (counted (.editMessageText chatId messageId text entities)).toNat = reply
  getMessage : ∀ chatId messageId, (counted (.getMessage chatId messageId)).toNat = 0
  download : ∀ url, (counted (.download url)).toNat = 0

section

variable {counted : Request → Bool} {shell reply count : ℕ} {response : Response}

theorem atMost_ask {request : Request} (h : (counted request).toNat = count) :
    AtMost count counted (ask request) :=
  h ▸ .perform request

theorem atMost_inMemory {Value : Type} (result : Option Value) :
    AtMost 0 counted (inMemory result) := by
  cases result with
  | none => exact .stop _
  | some value => exact .pure value

theorem atMost_liftExcept {Value : Type} (result : Except (List Char) Value) :
    AtMost 0 counted (liftExcept result) := by
  cases result with
  | error what => exact .throw what
  | ok value => exact .pure value

theorem atMost_shellExec (h : Weights counted shell reply) (cmd : List Char) :
    AtMost shell counted (shellExec cmd) := by
  refine .bind_zero (atMost_ask (h.popen cmd)) fun outcome ↦ ?_
  cases outcome with
  | error strerror => exact .pure _
  | ok output => exact atMost_inMemory _

theorem atMost_checkRepliedMsg (h : Weights counted shell reply) :
    AtMost 0 counted (checkRepliedMsg response) := by
  refine .bind_zero (atMost_ask (h.getMessage _ _)) fun content ↦ ?_
  cases content with
  | none => exact .pure none
  | some content => cases content <;> exact .pure _

theorem atMost_describe (h : Weights counted shell reply) (libraries : Libraries) :
    AtMost shell counted (KernelUpdate.describe libraries) := by
  refine .zero_bind (atMost_ask (h.download _)) fun pieces ↦
    .zero_bind (atMost_inMemory _) fun outcome ↦ ?_
  cases outcome with
  | error what => exact .mono (.throw what) (Nat.zero_le shell)
  | ok cr =>
    exact .zero_bind (atMost_inMemory _) fun ret ↦ .zero_bind (atMost_liftExcept _) fun releases ↦
      .bind_zero (atMost_shellExec h _) fun date ↦ .pure _

/-- A module that either passes the message on or takes it. -/
inductive IsModule (count : ℕ) (counted : Request → Bool) : Bot Bool → Prop
  | passes : IsModule count counted (pure false)
  | takes (run : Bot Unit) (atMost : AtMost count counted run) :
    IsModule count counted (run >>= fun _ ↦ pure true)

theorem isModule_keyword {keyword text : List Char} {run : Bot Unit}
    (h : AtMost count counted run) :
    IsModule count counted (if hasKeyword keyword text then run >>= fun _ ↦ pure true
      else pure false) := by
  split
  · exact .takes run h
  · exact .passes

theorem isModule_debug (h : Weights counted shell reply) (libraries : Libraries) :
    IsModule (shell + reply) counted (Debug.match libraries response) :=
  isModule_keyword ((atMost_ask (h.editMessageText _ _ _ _)).mono (Nat.le_add_left reply shell))

theorem isModule_kernelUpdate (h : Weights counted shell reply) (libraries : Libraries) :
    IsModule (shell + reply) counted (KernelUpdate.match libraries response) := by
  refine isModule_keyword (.bind ?_ fun text ↦ atMost_ask (h.sendMessage _ _ _ _))
  exact .tryCatch (atMost_describe h libraries) fun what ↦ .pure _

theorem isModule_mock (h : Weights counted shell reply) :
    IsModule (shell + reply) counted (Mock.match response) := by
  refine isModule_keyword (.zero_bind (atMost_checkRepliedMsg h) fun replied ↦ ?_)
  cases replied with
  | none => exact .mono (.pure ()) (Nat.zero_le _)
  | some repliedText =>
    exact (atMost_ask (h.editMessageText _ _ _ _)).mono (Nat.le_add_left reply shell)

theorem isModule_shell (h : Weights counted shell reply) :
    IsModule (shell + reply) counted (ShellExec.match response) := by
  unfold ShellExec.match
  cases ShellExec.Module.match response.text response.isSelfMsg response.senderId with
  | none => exact .passes
  | some module =>
    refine .takes _ (.zero_bind (atMost_inMemory _) fun cmd ↦
      .bind (atMost_shellExec h cmd) fun cmdOut ↦ ?_)
    cases module.editMsg with
    | true => exact atMost_ask (h.editMessageText _ _ _ _)
    | false => exact atMost_ask (h.sendMessage _ _ _ _)

theorem isModule_sed (h : Weights counted shell reply) :
    IsModule (shell + reply) counted (Sed.match response) := by
  unfold Sed.match
  cases Sed.Module.match response.text with
  | none => exact .passes
  | some module =>
    refine .takes _ (.zero_bind (atMost_checkRepliedMsg h) fun replied ↦ ?_)
    cases replied with
    | none => exact .mono (.pure ()) (Nat.zero_le _)
    | some repliedText =>
      exact .zero_bind (atMost_inMemory _) fun cmd ↦ .bind (atMost_shellExec h cmd) fun output ↦
        atMost_ask (h.sendMessage _ _ _ _)

/-- By induction on the modules: the first one that takes the message is the only one. -/
theorem atMost_firstMatch {modules : List (Bot Bool)}
    (h : ∀ module ∈ modules, IsModule count counted module) :
    AtMost count counted (firstMatch modules) := by
  induction modules with
  | nil => exact .mono (.pure ()) (Nat.zero_le count)
  | cons module modules ih =>
    rw [List.forall_mem_cons] at h
    cases h.1 with
    | passes =>
      have hnext : firstMatch (pure false :: modules) = firstMatch modules :=
        pure_bind false _
      rw [hnext]
      exact ih h.2
    | takes run hrun =>
      have honly : firstMatch ((run >>= fun _ ↦ pure true) :: modules) =
          run >>= fun _ ↦ pure () := by
        rw [firstMatch, bind_assoc]
        rfl
      rw [honly]
      exact hrun.bind_zero fun _ ↦ .pure ()

theorem atMost_run (h : Weights counted shell reply) (libraries : Libraries) :
    AtMost (shell + reply) counted (response.run libraries) := by
  have hnone : AtMost (shell + reply) counted (pure () : Bot Unit) :=
    .mono (.pure ()) (Nat.zero_le _)
  unfold Response.run
  split
  · unfold Response.handleMyMessage
    split
    · apply atMost_firstMatch
      simp only [List.forall_mem_cons, List.not_mem_nil, false_imp_iff, implies_true, and_true]
      exact ⟨isModule_debug h libraries, isModule_kernelUpdate h libraries, isModule_mock h,
        isModule_sed h, isModule_shell h⟩
    · exact hnone
  · unfold Response.handleMessage
    split
    · apply atMost_firstMatch
      simp only [List.forall_mem_cons, List.not_mem_nil, false_imp_iff, implies_true, and_true]
      exact ⟨isModule_kernelUpdate h libraries, isModule_shell h, isModule_sed h⟩
    · exact hnone

end

/-! ## Bad accesses -/

/-- A response without a body, or one whose size a `size_t` cannot hold. -/
def Fatal : Sigma Answer → Prop
  | ⟨.download _, (chunks, res)⟩ => chunks = [] ∧ res = 0 ∨
    18446744073709551615 - 4096 ≤ (chunks.flatMap Chunk.ptr).length
  | _ => False

/-- The command of a trusted sender fills its buffer beyond the end. -/
def Response.Overflows (response : Response) : Prop :=
  ∃ module, ShellExec.Module.match response.text response.isSelfMsg response.senderId =
    some module ∧ ∀ c ∈ module.cmd, c = '\''

section

variable {response : Response}

theorem execute_of_not_fatal {url : List Char} {chunks : List Chunk} {res : ℕ}
    (h : ¬ Fatal ⟨.download url, (chunks, res)⟩) (curlEasyStrerror : ℕ → List Char) :
    ∃ outcome, TeaCurl.execute curlEasyStrerror {} chunks res = some outcome ∧
      ∀ cr, outcome = .ok cr → ∃ ret, cr.output.stringAt '\x00' 0 = some ret := by
  simp only [Fatal, not_or, not_and, not_le] at h
  obtain ⟨finish, hfinish, -, hcollected⟩ :=
    TeaCurl.filled_allocate.perform chunks (by simpa using h.2)
  by_cases hres : res = 0
  · subst hres
    refine ⟨.ok finish, TeaCurl.execute_eq hfinish, ?_⟩
    rintro cr ⟨⟩
    have hchunks : chunks ≠ [] := fun hnil ↦ h.1 hnil rfl
    exact ⟨_, (hcollected hchunks).string⟩
  · refine ⟨.error ("Curl error: ".toList ++ (curlEasyStrerror res).take 1011), ?_, by simp⟩
    simp only [TeaCurl.execute, hfinish, Option.bind_eq_bind, Option.bind_some, if_neg hres]
    rfl

theorem stopsAfter_shellExec (cmd : List Char) : StopsAfter Fatal (shellExec cmd) := by
  refine .bind (.perform _) fun outcome ↦ ?_
  cases outcome with
  | error strerror => exact .pure _
  | ok output =>
    change StopsAfter Fatal (inMemory (readOutput output))
    rw [readOutput_eq]
    exact .pure _

theorem stopsAfter_checkRepliedMsg : StopsAfter Fatal (checkRepliedMsg response) := by
  refine .bind (.perform _) fun content ↦ ?_
  cases content with
  | none => exact .pure none
  | some content => cases content <;> exact .pure _

theorem stopsAfter_liftExcept {Value : Type} (result : Except (List Char) Value) :
    StopsAfter Fatal (liftExcept result) := by
  cases result with
  | error what => exact .throw what
  | ok value => exact .pure value

theorem stopsAfter_describe (libraries : Libraries) :
    StopsAfter Fatal (KernelUpdate.describe libraries) := by
  refine .perform_bind fun pieces hpieces ↦ ?_
  obtain ⟨chunks, res⟩ := pieces
  obtain ⟨outcome, houtcome, hstring⟩ :=
    execute_of_not_fatal hpieces libraries.curlEasyStrerror
  change StopsAfter Fatal
    (inMemory (TeaCurl.execute libraries.curlEasyStrerror {} chunks res) >>= _)
  rw [houtcome, inMemory_some_bind]
  cases outcome with
  | error what => exact .throw what
  | ok cr =>
    obtain ⟨ret, hret⟩ := hstring cr rfl
    change StopsAfter Fatal (inMemory (cr.output.stringAt '\x00' 0) >>= _)
    rw [hret, inMemory_some_bind]
    exact .bind (stopsAfter_liftExcept _) fun releases ↦ .bind (stopsAfter_shellExec _) fun date ↦
      .pure _

theorem stopsAfter_keyword {keyword text : List Char} {run : Bot Unit}
    (h : StopsAfter Fatal run) :
    StopsAfter Fatal (if hasKeyword keyword text then run >>= fun _ ↦ pure true
      else pure false) := by
  split
  · exact .bind h fun _ ↦ .pure true
  · exact .pure false

theorem stopsAfter_debug (libraries : Libraries) :
    StopsAfter Fatal (Debug.match libraries response) :=
  stopsAfter_keyword (.perform _)

theorem stopsAfter_kernelUpdate (libraries : Libraries) :
    StopsAfter Fatal (KernelUpdate.match libraries response) :=
  stopsAfter_keyword (.bind (.tryCatch (stopsAfter_describe libraries) fun _ ↦ .pure _)
    fun _ ↦ .perform _)

theorem stopsAfter_mock : StopsAfter Fatal (Mock.match response) := by
  refine stopsAfter_keyword (.bind stopsAfter_checkRepliedMsg fun replied ↦ ?_)
  cases replied with
  | none => exact .pure ()
  | some repliedText => exact .perform _

theorem stopsAfter_sed : StopsAfter Fatal (Sed.match response) := by
  unfold Sed.match
  cases hmatch : Sed.Module.match response.text with
  | none => exact .pure false
  | some module =>
    refine .bind (.bind stopsAfter_checkRepliedMsg fun replied ↦ ?_) fun _ ↦ .pure true
    cases replied with
    | none => exact .pure ()
    | some repliedText =>
      change StopsAfter Fatal (inMemory (command (module.wrap repliedText)) >>= _)
      rw [Sed.Module.command_wrap (Sed.Module.length_eq hmatch), inMemory_some_bind]
      exact .bind (stopsAfter_shellExec _) fun output ↦ .perform _

theorem stopsAfter_shell (h : ¬ response.Overflows) :
    StopsAfter Fatal (ShellExec.match response) := by
  unfold ShellExec.match
  cases hmatch : ShellExec.Module.match response.text response.isSelfMsg response.senderId with
  | none => exact .pure false
  | some module =>
    refine .bind ?_ fun _ ↦ .pure true
    have hother : ∃ c ∈ module.cmd, c ≠ '\'' := by
      by_contra hquotes
      push Not at hquotes
      exact h ⟨module, hmatch, hquotes⟩
    have hwrap := (ShellExec.Module.wrap_isSome_iff (ShellExec.Module.length_eq hmatch)).mpr hother
    unfold ShellExec.Module.run
    rw [ShellExec.Module.command_begins hwrap, inMemory_some_bind]
    refine .bind (stopsAfter_shellExec _) fun cmdOut ↦ ?_
    cases module.editMsg with
    | true => exact .perform _
    | false => exact .perform _

theorem stopsAfter_firstMatch {modules : List (Bot Bool)}
    (h : ∀ module ∈ modules, StopsAfter Fatal module) : StopsAfter Fatal (firstMatch modules) := by
  induction modules with
  | nil => exact .pure ()
  | cons module modules ih =>
    rw [List.forall_mem_cons] at h
    refine .bind h.1 fun taken ↦ ?_
    cases taken with
    | true => exact .pure ()
    | false => exact ih h.2

theorem stopsAfter_run (h : ¬ response.Overflows) (libraries : Libraries) :
    StopsAfter Fatal (response.run libraries) := by
  unfold Response.run
  split
  · unfold Response.handleMyMessage
    split
    · apply stopsAfter_firstMatch
      simp only [List.forall_mem_cons, List.not_mem_nil, false_imp_iff, implies_true, and_true]
      exact ⟨stopsAfter_debug libraries, stopsAfter_kernelUpdate libraries, stopsAfter_mock,
        stopsAfter_sed, stopsAfter_shell h⟩
    · exact .pure ()
  · unfold Response.handleMessage
    split
    · apply stopsAfter_firstMatch
      simp only [List.forall_mem_cons, List.not_mem_nil, false_imp_iff, implies_true, and_true]
      exact ⟨stopsAfter_kernelUpdate libraries, stopsAfter_shell h, stopsAfter_sed⟩
    · exact .pure ()

end

/-! ## Whole runs -/

def Request.isReply : Request → Bool
  | .sendMessage _ _ _ _ | .editMessageText _ _ _ _ => true
  | _ => false

def Request.isCommand : Request → Bool
  | .popen _ => true
  | _ => false

/-- For every message and whatever is answered: at most one reply is sent and at most one command
started; and the bot accesses memory badly only after a command of a trusted sender that consists
of single quotes, or after a response of the network without a body or of about 2^64 bytes. -/
theorem updateNewMessage_once (libraries : Libraries) (userId : ℤ) (message : Message)
    {exchanges : List (Sigma Answer)} {ending : Procedure.Ending Halt (List Char) Unit Unit}
    (hrun : (updateNewMessage libraries userId message).Runs () exchanges ending) :
    exchanges.countP (fun exchange ↦ exchange.1.isReply) ≤ 1 ∧
      exchanges.countP (fun exchange ↦ exchange.1.isCommand) ≤ 1 ∧
      (ending = .halted .badAccess → (∃ exchange ∈ exchanges, Fatal exchange) ∨
        ∃ text, message.content = .text text ∧
          (Response.of userId message text).Overflows ∧
          (Response.of userId message text).IsTrusted) := by
  unfold updateNewMessage at hrun
  cases hcontent : message.content with
  | other =>
    rw [hcontent] at hrun
    obtain ⟨rfl, rfl⟩ := Procedure.runs_pure_iff.mp hrun
    simp
  | text text =>
    rw [hcontent] at hrun
    have hreply : Weights Request.isReply 0 1 :=
      ⟨fun _ ↦ rfl, fun _ _ _ _ ↦ rfl, fun _ _ _ _ ↦ rfl, fun _ _ ↦ rfl, fun _ ↦ rfl⟩
    have hcommand : Weights Request.isCommand 1 0 :=
      ⟨fun _ ↦ rfl, fun _ _ _ _ ↦ rfl, fun _ _ _ _ ↦ rfl, fun _ _ ↦ rfl, fun _ ↦ rfl⟩
    refine ⟨atMost_run hreply libraries () exchanges ending hrun,
      atMost_run hcommand libraries () exchanges ending hrun, ?_⟩
    rintro rfl
    by_cases hoverflows : (Response.of userId message text).Overflows
    · have hoverflows' := hoverflows
      obtain ⟨module, hmatch, -⟩ := hoverflows'
      exact .inr ⟨text, rfl, hoverflows, (ShellExec.Module.match_eq hmatch).1⟩
    · exact .inl (stopsAfter_run hoverflows libraries () exchanges .badAccess hrun)

theorem updateNewMessage_once_sedMessage : ∃ exchanges ending,
    (updateNewMessage noLibraries 4 sedMessage).Runs () exchanges ending ∧
      exchanges.countP (fun exchange ↦ exchange.1.isReply) ≤ 1 ∧
      exchanges.countP (fun exchange ↦ exchange.1.isCommand) ≤ 1 ∧
      (ending = .halted .badAccess → (∃ exchange ∈ exchanges, Fatal exchange) ∨
        ∃ text, sedMessage.content = .text text ∧
          (Response.of 4 sedMessage text).Overflows ∧
          (Response.of 4 sedMessage text).IsTrusted) := by
  have htrace : ((updateNewMessage noLibraries 4 sedMessage).traceIn sedAnswers () ()).isSome := by
    decide +kernel
  obtain ⟨⟨exchanges, ending, last⟩, hlast⟩ := Option.isSome_iff_exists.mp htrace
  have hany (world : Unit) (request : Request) (response : Answer request × Unit)
      (_ : sedAnswers world request = some response) :
      anyAnswer world request response.1 response.2 := trivial
  have hrun := (Procedure.runs_of_traceIn hany hlast).1
  exact ⟨exchanges, ending, hrun, updateNewMessage_once _ _ _ hrun⟩

end Tgvisd.TeaBot
