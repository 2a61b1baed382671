import Tgvisd.Td.SendQuerySync

/-!
# Shutting down

Three threads: the main thread constructs `Main`, runs `Main::run` and then its destructor, the
scraper thread runs `Scraper::run`, and the chat scraper thread asks TDLib for the chats with
`send_query_sync` and no timeout. Only the main thread calls `Td::loop()`, and it does so neither
while it joins the scraper thread nor before it has joined it. A stop request may arrive at any
point. The threads run on the concurrent client with its synchronous queries; the main thread is
its thread 0 and the chat scraper its thread 1.
-/

namespace Tgvisd

open TdApi

/-- The calls of `Td::loop()`: the two in `Main::run` and the one in `Td::close`. -/
inductive LoopSite
  | first
  | again
  | closing
  deriving DecidableEq, Repr

/-- The main thread: in the constructor, inside `loop()`, before `isReady_ = true`, before the
test of the stop flag, in the two joins of the destructor, and in `close()`. -/
inductive MainPc
  | constructing
  | loop (site : LoopSite) (received : Bool)
  | readying
  | testing
  | joiningLogger
  | joiningScraper
  | closing
  | sendingClose
  | exited
  deriving DecidableEq, Repr

def LoopSite.after : LoopSite → MainPc
  | .first => .readying
  | .again => .testing
  | .closing => .exited

/-- The scraper thread: not spawned, before the test of its waiting loop, in the constructor of
the chat scraper, and in the join of its thread. -/
inductive ScraperPc
  | notSpawned
  | testing
  | constructing
  | joining
  | exited
  deriving DecidableEq, Repr

/-- The chat scraper thread: not spawned, before `getChat`, inside `send_query_sync`, and before
the first use of the pointer that it returned. -/
inductive ChatPc
  | notSpawned
  | calling
  | inside (call : Nat)
  | printing (chats : Option Object)
  | exited
  deriving DecidableEq, Repr

structure Program where
  sync : SyncSystem
  main : MainPc := .constructing
  scraper : ScraperPc := .notSpawned
  chat : ChatPc := .notSpawned
  stopEventLoop : Bool := false
  isReady : Bool := false
  crashed : Bool := false

/-- A step of the main thread outside or inside the client, of the scraper thread (whose
constructor of the chat scraper may throw), of the chat scraper outside or inside the client, of
TDLib, or a stop request. -/
inductive ProgramLabel
  | main
  | mainClient (label : SyncLabel)
  | scraper (throws : Bool)
  | chat
  | chatClient (label : SyncLabel)
  | answer (serial : Nat) (object : Object)
  | update (object : Object)
  | stop
  deriving DecidableEq, Repr

/-- What the main thread does inside the client: at most one receipt per call of `loop()`, the
dispatch that follows it, and the query that `close()` sends. -/
def MainPc.permits : MainPc → SyncLabel → Bool
  | .loop _ received, .client .receive => !received
  | .loop _ _, .client (.draw 0) | .loop _ _, .client (.register 0)
  | .loop _ _, .client (.handOver 0) | .loop _ _, .callback => true
  | .sendingClose, .client (.draw 0) | .sendingClose, .client (.register 0)
  | .sendingClose, .client (.handOver 0) => true
  | _, _ => false

/-- A receipt is the one of its call of `loop()`. -/
def MainPc.afterClient : MainPc → SyncLabel → MainPc
  | .loop site _, .client .receive => .loop site true
  | main, _ => main

/-- The steps of thread 1 inside its call of `send_query_sync`. -/
def SyncLabel.isWaiter (call : Nat) : SyncLabel → Bool
  | .client (.draw 1) | .client (.register 1) | .client (.handOver 1) => true
  | .lock other | .test other | .endRound other | .leave other => other = call
  | _ => false

/-- `getChat(nullptr, max, 0, 300)`, whose list pointer stays null. -/
def getChatsFunction : Function := .getChats 9223372036854775807 0 300

namespace Program

def withTd (program : Program) (td : Td) : Program :=
  { program with sync := { program.sync with system := { program.sync.system with td := td } } }

/-- `loop()` returns: after a dispatch, after `restart()`, or on its timeout. -/
def loopReturn (program : Program) (site : LoopSite) (received : Bool) : Option Program :=
  if program.sync.system.stage 0 = .idle ∧ program.sync.running = none then
    if received then
      some { program with main := site.after }
    else if program.sync.system.td.needRestart then
      some { program.withTd program.sync.system.td.restart with main := site.after }
    else if program.sync.system.td.clientManager.isNone then
      some { program with crashed := true }
    else
      some { program with main := site.after }
  else
    none

/-- The main thread's next step outside the client. -/
def mainStep (program : Program) : Option Program :=
  match program.main with
  | .constructing => some { program with main := .loop .first false, scraper := .testing }
  | .loop site received => program.loopReturn site received
  | .readying => some { program with main := .testing, isReady := true }
  | .testing =>
    if program.stopEventLoop then
      some { program with main := .joiningLogger }
    else
      some { program with main := .loop .again false }
  -- the logger thread has an empty body
  | .joiningLogger => some { program with main := .joiningScraper }
  | .joiningScraper =>
    if program.scraper = .exited then some { program with main := .closing } else none
  | .closing =>
    (program.sync.client (.call 0 ⟨.close, none⟩)).map fun next ↦
      { program with sync := next, main := .sendingClose }
  | .sendingClose =>
    if program.sync.system.stage 0 = .idle then
      some { program with main := .loop .closing false }
    else
      none
  | .exited => none

/-- A step of the main thread inside the client; without a client `receive` is called on null. -/
def mainClient (program : Program) (label : SyncLabel) : Option Program :=
  if program.main.permits label then
    if label = .client .receive ∧ program.sync.system.td.clientManager.isNone then
      some { program with crashed := true }
    else
      (SyncSystem.step program.sync label).map fun next ↦
        { program with
          sync := next
          main := program.main.afterClient label }
  else
    none

/-- `Scraper::run`. Its waiting loop ends when the main thread is ready or a stop is requested,
and the chat scraper is run in either case. -/
def scraperStep (program : Program) (throws : Bool) : Option Program :=
  match program.scraper with
  | .testing =>
    if !program.isReady && !program.stopEventLoop then
      some program
    else
      some { program with scraper := .constructing }
  | .constructing =>
    if throws then
      some { program with scraper := .exited, stopEventLoop := true }
    else
      some { program with scraper := .joining, chat := .calling }
  | .joining =>
    if program.chat = .exited then some { program with scraper := .exited } else none
  | .notSpawned | .exited => none

/-- `ChatScraper::run`: the query, and the use of its result. -/
def chatStep (program : Program) : Option Program :=
  match program.chat with
  | .calling =>
    (program.sync.callSync 1 getChatsFunction .chats (-1)).map fun next ↦
      { program with sync := next, chat := .inside program.sync.nextCall }
  | .printing (some _) => some { program with chat := .exited }
  | .printing none => some { program with crashed := true }
  | .notSpawned | .inside _ | .exited => none

/-- A step of the chat scraper inside its call; it returns with the call's result. -/
def chatClient (program : Program) (label : SyncLabel) : Option Program :=
  match program.chat with
  | .inside call =>
    if label.isWaiter call then
      (SyncSystem.step program.sync label).map fun next ↦
        { program with
          sync := next
          chat :=
            if label = .leave call then
              .printing ((program.sync.frame call).bind Frame.retVal)
            else
              .inside call }
    else
      none
  | _ => none

def act (program : Program) : ProgramLabel → Option Program
  | .main => program.mainStep
  | .mainClient label => program.mainClient label
  | .scraper throws => program.scraperStep throws
  | .chat => program.chatStep
  | .chatClient label => program.chatClient label
  | .answer serial object =>
    (SyncSystem.step program.sync (.client (.answer serial object))).map fun next ↦
      { program with sync := next }
  | .update object =>
    (SyncSystem.step program.sync (.client (.update object))).map fun next ↦
      { program with sync := next }
  | .stop => some { program with stopEventLoop := true }

/-- A crash of any thread is the end of the process. -/
def step (program : Program) (label : ProgramLabel) : Option Program :=
  if program.crashed || program.sync.system.fault.isSome then none else program.act label

def machine : Machine Program ProgramLabel := ⟨step⟩

def start (config : Config) : Program where
  sync := SyncSystem.start config

/-! ## The circular wait -/

/-- The main thread waits for the scraper thread, which waits for the chat scraper, which waits
for a response: `finished` is false, and only `loop()` can run the callback that sets it. -/
def Stuck (program : Program) : Prop :=
  program.main = .joiningScraper ∧ ∃ call frame, program.chat = .inside call ∧
    program.sync.frame call = some frame ∧ frame.finished = false ∧
      (frame.pc = .testing ∨ frame.pc = .waiting)

end Program

/-- The main thread has left `Main::run`. -/
def MainPc.hasLeft : MainPc → Bool
  | .joiningLogger | .joiningScraper | .closing | .sendingClose | .loop .closing _
  | .exited => true
  | .constructing | .loop .first _ | .loop .again _ | .readying | .testing => false

namespace Program

/-- The chat scraper is inside its query and has not been answered. -/
def awaitsAnswer (program : Program) : Bool :=
  match program.chat with
  | .inside call =>
    match program.sync.frame call with
    | some frame => !frame.finished
    | none => true
  | _ => false

/-- The condition on a step: the main thread leaves `run()` only while the chat scraper waits for
no answer, and the chat scraper begins its query only before the main thread has left. -/
def meetsShutdown (program : Program) (label : ProgramLabel) : Bool :=
  match label with
  | .main => !(program.main = .testing && program.stopEventLoop && program.awaitsAnswer)
  | .chat => !(program.chat = .calling && program.main.hasLeft)
  | _ => true

/-! ## Runs that meet the condition -/

variable {program next : Program}

/-- A step of the client that begins no call does not take an answer back. -/
theorem awaitsAnswer_of_step {label : SyncLabel} {sync : SyncSystem}
    (hlabel : ∀ thread function returnId timeout,
      label ≠ .callSync thread function returnId timeout)
    (hstep : SyncSystem.step program.sync label = some sync)
    (hsync : next.sync = sync) (hchat : next.chat = program.chat)
    (hanswered : program.awaitsAnswer = false) : next.awaitsAnswer = false := by
  unfold awaitsAnswer at hanswered ⊢
  rw [hchat, hsync]
  cases hinside : program.chat with
  | inside call =>
    rw [hinside] at hanswered
    cases hframe : program.sync.frame call with
    | none => simp [hframe] at hanswered
    | some frame =>
      have hfinished : frame.finished = true := by simpa [hframe] using hanswered
      obtain ⟨kept, hkept, hkeeps⟩ := SyncSystem.step_keeps hlabel hframe hstep
      simp [hkept, hkeeps.finished hfinished]
  | notSpawned | calling | printing | exited => rfl

/-- Once the main thread has left, the chat scraper waits for no answer. -/
def Settled (program : Program) : Prop :=
  program.main.hasLeft = true → program.awaitsAnswer = false

theorem Settled.not_stuck (h : program.Settled) : ¬ program.Stuck := by
  rintro ⟨hmain, call, frame, hchat, hframe, hfinished, -⟩
  have hanswered := h (by rw [hmain]; rfl)
  simp [awaitsAnswer, hchat, hframe, hfinished] at hanswered

/-- The threads other than the main thread are where they were. -/
structure SameScrapers (program next : Program) : Prop where
  scraper : next.scraper = program.scraper
  chat : next.chat = program.chat
  frame : next.sync.frame = program.sync.frame

theorem loopReturn_spec {site : LoopSite} {received : Bool}
    (hstep : program.loopReturn site received = some next) :
    program.SameScrapers next ∧ (next.main = site.after ∨ next.main = program.main) := by
  unfold loopReturn at hstep
  split at hstep
  · split at hstep
    · rw [← Option.some.inj hstep]
      exact ⟨⟨rfl, rfl, rfl⟩, Or.inl rfl⟩
    · split at hstep
      · rw [← Option.some.inj hstep]
        exact ⟨⟨rfl, rfl, rfl⟩, Or.inl rfl⟩
      · split at hstep
        · rw [← Option.some.inj hstep]
          exact ⟨⟨rfl, rfl, rfl⟩, Or.inr rfl⟩
        · rw [← Option.some.inj hstep]
          exact ⟨⟨rfl, rfl, rfl⟩, Or.inl rfl⟩
  · simp at hstep

/-- What the main thread does outside the client: it spawns the scraper thread, or leaves the
other threads where they are; it leaves `run()` only on a stop request, and passes the second
join only when the scraper thread has exited. -/
theorem mainStep_spec (hstep : program.mainStep = some next) :
    (program.main = .constructing ∧ next.main.hasLeft = false ∧ next.scraper = .testing ∧
      next.chat = program.chat ∧ next.sync.frame = program.sync.frame) ∨
    (program.SameScrapers next ∧
      (next.main.hasLeft = true → program.main.hasLeft = true ∨
        (program.main = .testing ∧ program.stopEventLoop = true)) ∧
      (program.main = .joiningScraper → program.scraper = .exited)) := by
  cases hmain : program.main with
  | constructing =>
    simp only [mainStep, hmain] at hstep
    rw [← Option.some.inj hstep]
    exact Or.inl ⟨rfl, rfl, rfl, rfl, rfl⟩
  | loop site received =>
    simp only [mainStep, hmain] at hstep
    obtain ⟨hsame, hnext⟩ := loopReturn_spec hstep
    refine Or.inr ⟨hsame, ?_, nofun⟩
    rcases hnext with hnext | hnext <;> rw [hnext]
    · cases site <;> simp [LoopSite.after, MainPc.hasLeft]
    · rw [hmain]
      exact Or.inl
  | readying =>
    simp only [mainStep, hmain] at hstep
    rw [← Option.some.inj hstep]
    exact Or.inr ⟨⟨rfl, rfl, rfl⟩, nofun, nofun⟩
  | testing =>
    simp only [mainStep, hmain] at hstep
    split at hstep
    · rename_i hstop
      rw [← Option.some.inj hstep]
      exact Or.inr ⟨⟨rfl, rfl, rfl⟩, fun _ ↦ Or.inr ⟨rfl, hstop⟩, nofun⟩
    · rw [← Option.some.inj hstep]
      exact Or.inr ⟨⟨rfl, rfl, rfl⟩, nofun, nofun⟩
  | joiningLogger =>
    simp only [mainStep, hmain] at hstep
    rw [← Option.some.inj hstep]
    exact Or.inr ⟨⟨rfl, rfl, rfl⟩, fun _ ↦ Or.inl rfl, nofun⟩
  | joiningScraper =>
    simp only [mainStep, hmain] at hstep
    split at hstep
    · rename_i hexited
      rw [← Option.some.inj hstep]
      exact Or.inr ⟨⟨rfl, rfl, rfl⟩, fun _ ↦ Or.inl rfl, fun _ ↦ hexited⟩
    · simp at hstep
  | closing =>
    simp only [mainStep, hmain] at hstep
    obtain ⟨sync, hclient, rfl⟩ := Option.map_eq_some_iff.mp hstep
    exact Or.inr ⟨⟨rfl, rfl, SyncSystem.client_frame hclient⟩, fun _ ↦ Or.inl rfl, nofun⟩
  | sendingClose =>
    simp only [mainStep, hmain] at hstep
    split at hstep
    · rw [← Option.some.inj hstep]
      exact Or.inr ⟨⟨rfl, rfl, rfl⟩, fun _ ↦ Or.inl rfl, nofun⟩
    · simp at hstep
  | exited => simp [mainStep, hmain] at hstep

/-- The constructor is run once. -/
theorem mainStep_ne_constructing (hstep : program.mainStep = some next) :
    next.main ≠ .constructing := by
  cases hmain : program.main with
  | loop site received =>
    simp only [mainStep, hmain] at hstep
    rcases (loopReturn_spec hstep).2 with hnext | hnext
    · rw [hnext]
      cases site <;> simp [LoopSite.after]
    · simp [hnext, hmain]
  | closing =>
    simp only [mainStep, hmain] at hstep
    obtain ⟨sync, -, rfl⟩ := Option.map_eq_some_iff.mp hstep
    simp
  | exited => simp [mainStep, hmain] at hstep
  | testing | joiningScraper | sendingClose =>
    simp only [mainStep, hmain] at hstep
    split at hstep
    · rw [← Option.some.inj hstep]
      simp
    · first
      | (rw [← Option.some.inj hstep]; simp)
      | simp at hstep
  | constructing | readying | joiningLogger =>
    simp only [mainStep, hmain] at hstep
    rw [← Option.some.inj hstep]
    simp

theorem hasLeft_afterClient (main : MainPc) (label : SyncLabel) :
    (main.afterClient label).hasLeft = main.hasLeft := by
  unfold MainPc.afterClient
  split
  · rename_i site received
    cases site <;> rfl
  · rfl

theorem afterClient_ne_constructing {main : MainPc} {label : SyncLabel}
    (h : main ≠ .constructing) : main.afterClient label ≠ .constructing := by
  unfold MainPc.afterClient
  split
  · simp
  · exact h

theorem permits_constructing (label : SyncLabel) :
    MainPc.permits .constructing label = false := rfl

/-- A step of the main thread inside the client is none that begins a call. -/
theorem mainClient_spec {label : SyncLabel} (hstep : program.mainClient label = some next) :
    program.main.permits label = true ∧ next.scraper = program.scraper ∧
      next.chat = program.chat ∧ next.main.hasLeft = program.main.hasLeft ∧
      (next.sync = program.sync ∨ SyncSystem.step program.sync label = some next.sync) := by
  unfold mainClient at hstep
  split at hstep
  · rename_i hpermits
    refine ⟨hpermits, ?_⟩
    split at hstep
    · rw [← Option.some.inj hstep]
      exact ⟨rfl, rfl, rfl, Or.inl rfl⟩
    · obtain ⟨sync, hsync, rfl⟩ := Option.map_eq_some_iff.mp hstep
      exact ⟨rfl, rfl, hasLeft_afterClient program.main label, Or.inr hsync⟩
  · simp at hstep

theorem permits_callSync (main : MainPc) (thread : Nat) (function : Function)
    (returnId : ObjectId) (timeout : Int32) :
    main.permits (.callSync thread function returnId timeout) = false := by
  cases main <;> rfl

theorem scraperStep_spec {throws : Bool} (hstep : program.scraperStep throws = some next) :
    next.main = program.main ∧ next.sync = program.sync ∧
      (next.chat = program.chat ∧ (next.scraper = .exited → program.chat = .exited ∨
        program.scraper = .constructing) ∨
        program.scraper = .constructing ∧ next.chat = .calling ∧ next.scraper = .joining) := by
  unfold scraperStep at hstep
  split at hstep
  · split at hstep
    · rename_i hscraper _
      rw [← Option.some.inj hstep]
      exact ⟨rfl, rfl, Or.inl ⟨rfl, by simp [hscraper]⟩⟩
    · rw [← Option.some.inj hstep]
      exact ⟨rfl, rfl, Or.inl ⟨rfl, nofun⟩⟩
  · rename_i hscraper
    split at hstep
    · rw [← Option.some.inj hstep]
      exact ⟨rfl, rfl, Or.inl ⟨rfl, fun _ ↦ Or.inr hscraper⟩⟩
    · rw [← Option.some.inj hstep]
      exact ⟨rfl, rfl, Or.inr ⟨hscraper, rfl, rfl⟩⟩
  · split at hstep
    · rename_i hchat
      rw [← Option.some.inj hstep]
      exact ⟨rfl, rfl, Or.inl ⟨rfl, fun _ ↦ Or.inl hchat⟩⟩
    · simp at hstep
  · simp at hstep
  · simp at hstep

/-- Outside the client the chat scraper begins its one call, or is done with its result. -/
theorem chatStep_spec (hstep : program.chatStep = some next) :
    next.main = program.main ∧ next.scraper = program.scraper ∧
      ((program.chat = .calling ∧ next.chat = .inside program.sync.nextCall ∧
          program.sync.callSync 1 getChatsFunction .chats (-1) = some next.sync) ∨
        (∃ chats, program.chat = .printing chats ∧
          (next.chat = .exited ∨ next.chat = program.chat))) := by
  cases hchat : program.chat with
  | calling =>
    simp only [chatStep, hchat] at hstep
    obtain ⟨sync, hcall, rfl⟩ := Option.map_eq_some_iff.mp hstep
    exact ⟨rfl, rfl, Or.inl ⟨rfl, rfl, hcall⟩⟩
  | printing chats =>
    cases chats with
    | none =>
      simp only [chatStep, hchat] at hstep
      rw [← Option.some.inj hstep]
      exact ⟨rfl, rfl, Or.inr ⟨none, rfl, Or.inr rfl⟩⟩
    | some object =>
      simp only [chatStep, hchat] at hstep
      rw [← Option.some.inj hstep]
      exact ⟨rfl, rfl, Or.inr ⟨some object, rfl, Or.inl rfl⟩⟩
  | notSpawned => simp [chatStep, hchat] at hstep
  | inside call => simp [chatStep, hchat] at hstep
  | exited => simp [chatStep, hchat] at hstep

theorem chatClient_spec {label : SyncLabel} (hstep : program.chatClient label = some next) :
    next.main = program.main ∧ next.scraper = program.scraper ∧ ∃ call,
      program.chat = .inside call ∧ label.isWaiter call = true ∧
      SyncSystem.step program.sync label = some next.sync ∧
      (next.chat = .inside call ∧ label ≠ .leave call ∨
        ∃ chats, next.chat = .printing chats ∧ label = .leave call) := by
  unfold chatClient at hstep
  split at hstep
  · rename_i call hchat
    split at hstep
    · rename_i hwaiter
      obtain ⟨sync, hsync, rfl⟩ := Option.map_eq_some_iff.mp hstep
      refine ⟨rfl, rfl, call, hchat, hwaiter, hsync, ?_⟩
      by_cases hleave : label = .leave call
      · exact Or.inr ⟨_, if_pos hleave, hleave⟩
      · exact Or.inl ⟨if_neg hleave, hleave⟩
    · simp at hstep
  · simp at hstep

theorem awaitsAnswer_congr (hchat : next.chat = program.chat)
    (hframe : next.sync.frame = program.sync.frame) :
    next.awaitsAnswer = program.awaitsAnswer := by
  unfold awaitsAnswer
  rw [hchat, hframe]

theorem isWaiter_callSync (call thread : Nat) (function : Function) (returnId : ObjectId)
    (timeout : Int32) :
    SyncLabel.isWaiter call (.callSync thread function returnId timeout) = false := rfl

/-- The chat scraper begins its query while the main thread is still in `run()`. -/
theorem settled_of_chatStep (hguard : program.meetsShutdown .chat = true)
    (hstep : program.chatStep = some next) : next.Settled := by
  intro hleft
  obtain ⟨hmain, -, hchat⟩ := chatStep_spec hstep
  rcases hchat with ⟨hcalling, -, -⟩ | ⟨chats, hprinting, hnext⟩
  · rw [hmain] at hleft
    simp [meetsShutdown, hcalling, hleft] at hguard
  · rcases hnext with hnext | hnext
    · simp [awaitsAnswer, hnext]
    · simp [awaitsAnswer, hnext, hprinting]

theorem Settled.chatClient {label : SyncLabel} (h : program.Settled)
    (hstep : program.chatClient label = some next) : next.Settled := by
  intro hleft
  obtain ⟨hmain, -, call, hchat, hwaiter, hsync, hnext⟩ := chatClient_spec hstep
  rw [hmain] at hleft
  rcases hnext with ⟨hinside, -⟩ | ⟨chats, hprinting, -⟩
  · apply awaitsAnswer_of_step _ hsync rfl (hinside.trans hchat.symm) (h hleft)
    rintro thread function returnId timeout rfl
    simp [isWaiter_callSync] at hwaiter
  · simp [awaitsAnswer, hprinting]

theorem act_of_step {label : ProgramLabel} (hstep : machine.step program label = some next) :
    program.act label = some next := by
  change (if _ then none else program.act label) = some next at hstep
  split at hstep
  · simp at hstep
  · exact hstep

theorem Settled.step {label : ProgramLabel} (h : program.Settled)
    (hguard : program.meetsShutdown label = true)
    (hstep : machine.step program label = some next) : next.Settled := by
  replace hstep := act_of_step hstep
  cases label with
  | main =>
    intro hleft
    rcases mainStep_spec hstep with ⟨-, hnot, -⟩ | ⟨hsame, hleaves, -⟩
    · simp [hleft] at hnot
    · rw [awaitsAnswer_congr hsame.chat hsame.frame]
      rcases hleaves hleft with hbefore | ⟨htesting, hstop⟩
      · exact h hbefore
      · simpa [meetsShutdown, htesting, hstop] using hguard
  | mainClient label =>
    intro hleft
    obtain ⟨hpermits, -, hchat, hmain, hsync⟩ := mainClient_spec hstep
    rw [hmain] at hleft
    rcases hsync with hsync | hsync
    · rw [awaitsAnswer_congr hchat (congrArg SyncSystem.frame hsync)]
      exact h hleft
    · apply awaitsAnswer_of_step _ hsync rfl hchat (h hleft)
      rintro thread function returnId timeout rfl
      simp [permits_callSync] at hpermits
  | scraper throws =>
    intro hleft
    obtain ⟨hmain, hsync, hchat⟩ := scraperStep_spec hstep
    rw [hmain] at hleft
    rcases hchat with ⟨hchat, -⟩ | ⟨-, hcalling, -⟩
    · rw [awaitsAnswer_congr hchat (congrArg SyncSystem.frame hsync)]
      exact h hleft
    · simp [awaitsAnswer, hcalling]
  | chat => exact settled_of_chatStep hguard hstep
  | chatClient label => exact h.chatClient hstep
  | answer serial object =>
    obtain ⟨sync, hsync, rfl⟩ := Option.map_eq_some_iff.mp hstep
    exact fun hleft ↦ awaitsAnswer_of_step (by simp) hsync rfl rfl (h hleft)
  | update object =>
    obtain ⟨sync, hsync, rfl⟩ := Option.map_eq_some_iff.mp hstep
    exact fun hleft ↦ awaitsAnswer_of_step (by simp) hsync rfl rfl (h hleft)
  | stop =>
    rw [← Option.some.inj hstep]
    exact h

/-- No state is stuck in a run whose steps all meet the condition. -/
theorem never_stuck_of_meetsShutdown (config : Config) (labels : List ProgramLabel)
    (hguard : machine.EveryStep (fun program label _ ↦ program.meetsShutdown label = true)
      (start config) labels) :
    machine.Throughout (fun program ↦ ¬ program.Stuck) (start config) labels := by
  have hstart : (start config).Settled := nofun
  have hsettled : machine.Throughout Settled (start config) labels :=
    Machine.Throughout.of_guarded hstart (fun _ _ _ h hmeets hstep ↦ h.step hmeets hstep) hguard
  exact hsettled.mono fun _ h ↦ h.not_stuck

/-! ## A stuck program stays stuck -/

/-- The scraper thread waits for a chat scraper that it has spawned, and the chat scraper's call
has no timeout. -/
structure Patient (program : Program) : Prop where
  unspawned : program.main = .constructing → program.scraper = .notSpawned
  early : program.scraper = .notSpawned ∨ program.scraper = .testing ∨
    program.scraper = .constructing → program.chat = .notSpawned
  joining : program.chat ≠ .notSpawned → program.chat ≠ .exited → program.scraper = .joining
  timeout : ∀ call, program.chat = .inside call →
    ∃ frame, program.sync.frame call = some frame ∧ frame.timeout = -1

theorem patient_start (config : Config) : (start config).Patient :=
  ⟨fun _ ↦ rfl, fun _ ↦ rfl, fun h ↦ absurd rfl h, nofun⟩

theorem timeout_of_step {label : SyncLabel} {sync : SyncSystem} {call : Nat}
    (hlabel : ∀ thread function returnId timeout,
      label ≠ .callSync thread function returnId timeout)
    (hstep : SyncSystem.step program.sync label = some sync)
    (h : ∃ frame, program.sync.frame call = some frame ∧ frame.timeout = -1) :
    ∃ frame, sync.frame call = some frame ∧ frame.timeout = -1 := by
  obtain ⟨frame, hframe, htimeout⟩ := h
  obtain ⟨kept, hkept, hkeeps⟩ := SyncSystem.step_keeps hlabel hframe hstep
  exact ⟨kept, hkept, hkeeps.timeout.trans htimeout⟩

/-- Where the scraper threads stay as they are, a step of the client keeps them patient. -/
theorem Patient.client {label : SyncLabel} (h : program.Patient)
    (hlabel : ∀ thread function returnId timeout,
      label ≠ .callSync thread function returnId timeout)
    (hstep : SyncSystem.step program.sync label = some next.sync)
    (hmain : next.main = .constructing → program.main = .constructing)
    (hscraper : next.scraper = program.scraper) (hchat : next.chat = program.chat) :
    next.Patient := by
  refine ⟨?_, ?_, ?_, ?_⟩
  · rw [hscraper]
    exact fun hnext ↦ h.unspawned (hmain hnext)
  · rw [hscraper, hchat]
    exact h.early
  · rw [hscraper, hchat]
    exact h.joining
  · rw [hchat]
    exact fun call hinside ↦ timeout_of_step hlabel hstep (h.timeout call hinside)

theorem callSync_timeout {sync after : SyncSystem} {thread : Nat} {function : Function}
    {returnId : ObjectId} {timeout : Int32}
    (hcall : sync.callSync thread function returnId timeout = some after) :
    ∃ frame, after.frame sync.nextCall = some frame ∧ frame.timeout = timeout := by
  unfold SyncSystem.callSync at hcall
  split at hcall
  · split at hcall
    · rw [← Option.some.inj hcall]
      exact ⟨_, Function.update_self _ _ _, rfl⟩
    · simp at hcall
  · simp at hcall

theorem Patient.main (h : program.Patient) (hstep : program.mainStep = some next) :
    next.Patient := by
  have hne := mainStep_ne_constructing hstep
  rcases mainStep_spec hstep with ⟨hconstructing, -, hscraper, hchat, hframe⟩ | ⟨hsame, -, -⟩
  · have hnotSpawned := h.early (Or.inl (h.unspawned hconstructing))
    rw [hnotSpawned] at hchat
    refine ⟨fun hmain ↦ absurd hmain hne, fun _ ↦ hchat, fun h ↦ absurd hchat h, ?_⟩
    intro call hinside
    simp [hchat] at hinside
  · refine ⟨fun hmain ↦ absurd hmain hne, ?_, ?_, ?_⟩
    · rw [hsame.scraper, hsame.chat]
      exact h.early
    · rw [hsame.scraper, hsame.chat]
      exact h.joining
    · rw [hsame.chat, hsame.frame]
      exact h.timeout

theorem Patient.mainClient {label : SyncLabel} (h : program.Patient)
    (hstep : program.mainClient label = some next) : next.Patient := by
  have hlabel : ∀ thread function returnId timeout,
      label ≠ .callSync thread function returnId timeout := by
    rintro thread function returnId timeout rfl
    obtain ⟨hpermits, -⟩ := mainClient_spec hstep
    simp [permits_callSync] at hpermits
  have hmain : next.main ≠ .constructing := by
    unfold Program.mainClient at hstep
    split at hstep
    · rename_i hpermits
      have hne : program.main ≠ .constructing := by
        intro hmain
        simp [hmain, permits_constructing] at hpermits
      split at hstep
      · rw [← Option.some.inj hstep]
        exact hne
      · obtain ⟨sync, -, rfl⟩ := Option.map_eq_some_iff.mp hstep
        exact afterClient_ne_constructing hne
    · simp at hstep
  obtain ⟨-, hscraper, hchat, -, hsync⟩ := mainClient_spec hstep
  rcases hsync with hsync | hsync
  · refine ⟨fun h ↦ absurd h hmain, ?_, ?_, ?_⟩
    · rw [hscraper, hchat]
      exact h.early
    · rw [hscraper, hchat]
      exact h.joining
    · rw [hchat, hsync]
      exact h.timeout
  · exact h.client hlabel hsync (fun h ↦ absurd h hmain) hscraper hchat

theorem Patient.scraper {throws : Bool} (h : program.Patient)
    (hstep : program.scraperStep throws = some next) : next.Patient := by
  have hmain (hspawned : program.scraper ≠ .notSpawned) : program.main ≠ .constructing :=
    fun hmain ↦ hspawned (h.unspawned hmain)
  cases hscraper : program.scraper with
  | notSpawned => simp [scraperStep, hscraper] at hstep
  | exited => simp [scraperStep, hscraper] at hstep
  | testing =>
    have hchat := h.early (Or.inr (Or.inl hscraper))
    simp only [scraperStep, hscraper] at hstep
    split at hstep
    · exact Option.some.inj hstep ▸ h
    · rw [← Option.some.inj hstep]
      refine ⟨fun h ↦ absurd h (hmain (by simp [hscraper])), fun _ ↦ hchat,
        fun h ↦ absurd hchat h, ?_⟩
      intro call hinside
      exact h.timeout call hinside
  | constructing =>
    have hchat := h.early (Or.inr (Or.inr hscraper))
    simp only [scraperStep, hscraper] at hstep
    split at hstep
    · rw [← Option.some.inj hstep]
      refine ⟨fun h ↦ absurd h (hmain (by simp [hscraper])), fun _ ↦ hchat,
        fun h ↦ absurd hchat h, ?_⟩
      intro call hinside
      exact h.timeout call hinside
    · rw [← Option.some.inj hstep]
      refine ⟨fun h ↦ absurd h (hmain (by simp [hscraper])), by simp, fun _ _ ↦ rfl, ?_⟩
      intro call hinside
      simp at hinside
  | joining =>
    simp only [scraperStep, hscraper] at hstep
    split at hstep
    · rename_i hexited
      rw [← Option.some.inj hstep]
      refine ⟨fun h ↦ absurd h (hmain (by simp [hscraper])), by simp,
        fun _ h ↦ absurd hexited h, ?_⟩
      intro call hinside
      exact h.timeout call hinside
    · simp at hstep

theorem Patient.chat (h : program.Patient) (hstep : program.chatStep = some next) :
    next.Patient := by
  obtain ⟨hmain, hscraper, hchat⟩ := chatStep_spec hstep
  have hjoining : program.scraper = .joining := by
    apply h.joining
    · rcases hchat with ⟨hchat, -⟩ | ⟨chats, hchat, -⟩ <;> simp [hchat]
    · rcases hchat with ⟨hchat, -⟩ | ⟨chats, hchat, -⟩ <;> simp [hchat]
  refine ⟨?_, ?_, ?_, ?_⟩
  · rw [hmain, hscraper]
    exact h.unspawned
  · rw [hscraper, hjoining]
    simp
  · rw [hscraper]
    exact fun _ _ ↦ hjoining
  · intro call hinside
    rcases hchat with ⟨-, hnext, hcall⟩ | ⟨chats, hprinting, hnext | hnext⟩
    · obtain rfl := ChatPc.inside.inj (hnext.symm.trans hinside)
      exact callSync_timeout hcall
    · simp [hinside] at hnext
    · simp [hinside, hprinting] at hnext

theorem Patient.chatClient {label : SyncLabel} (h : program.Patient)
    (hstep : program.chatClient label = some next) : next.Patient := by
  obtain ⟨hmain, hscraper, call, hchat, hwaiter, hsync, hnext⟩ := chatClient_spec hstep
  have hlabel : ∀ thread function returnId timeout,
      label ≠ .callSync thread function returnId timeout := by
    rintro thread function returnId timeout rfl
    simp [isWaiter_callSync] at hwaiter
  have hjoining : program.scraper = .joining :=
    h.joining (by simp [hchat]) (by simp [hchat])
  refine ⟨?_, ?_, ?_, ?_⟩
  · rw [hmain, hscraper]
    exact h.unspawned
  · rw [hscraper, hjoining]
    simp
  · rw [hscraper]
    exact fun _ _ ↦ hjoining
  · intro other hinside
    rcases hnext with ⟨hnext, -⟩ | ⟨chats, hnext, -⟩
    · obtain rfl := ChatPc.inside.inj (hnext.symm.trans hinside)
      exact timeout_of_step hlabel hsync (h.timeout call hchat)
    · simp [hinside] at hnext

theorem Patient.step {label : ProgramLabel} (h : program.Patient)
    (hstep : machine.step program label = some next) : next.Patient := by
  replace hstep := act_of_step hstep
  cases label with
  | main => exact h.main hstep
  | mainClient label => exact h.mainClient hstep
  | scraper throws => exact h.scraper hstep
  | chat => exact h.chat hstep
  | chatClient label => exact h.chatClient hstep
  | answer serial object =>
    obtain ⟨sync, hsync, rfl⟩ := Option.map_eq_some_iff.mp hstep
    exact h.client (by simp) hsync id rfl rfl
  | update object =>
    obtain ⟨sync, hsync, rfl⟩ := Option.map_eq_some_iff.mp hstep
    exact h.client (by simp) hsync id rfl rfl
  | stop =>
    rw [← Option.some.inj hstep]
    exact ⟨h.unspawned, h.early, h.joining, h.timeout⟩

/-- The waiter's steps without an answer lead back to its test and its wait. -/
theorem waiting_of_step {label : SyncLabel} {sync after : SyncSystem} {call : Nat} {frame : Frame}
    (hframe : sync.frame call = some frame) (hfinished : frame.finished = false)
    (htimeout : frame.timeout = -1) (hpc : frame.pc = .testing ∨ frame.pc = .waiting)
    (hwaiter : label.isWaiter call = true) (hstep : SyncSystem.step sync label = some after) :
    label ≠ .leave call ∧ ∃ kept, after.frame call = some kept ∧ kept.finished = false ∧
      (kept.pc = .testing ∨ kept.pc = .waiting) := by
  unfold SyncSystem.step at hstep
  split at hstep
  · simp at hstep
  · cases label with
    | client label =>
      have hsame := SyncSystem.client_frame hstep
      exact ⟨by simp, frame, hsame ▸ hframe, hfinished, hpc⟩
    | callSync thread function returnId timeout => simp [isWaiter_callSync] at hwaiter
    | lock other =>
      obtain rfl : other = call := by simpa [SyncLabel.isWaiter] using hwaiter
      simp only [SyncSystem.lock, hframe] at hstep
      rcases hpc with hpc | hpc <;> simp [hpc] at hstep
    | test other =>
      obtain rfl : other = call := by simpa [SyncLabel.isWaiter] using hwaiter
      simp only [SyncSystem.test, hframe, hfinished] at hstep
      split at hstep
      · rw [← Option.some.inj hstep]
        exact ⟨by simp, _, Function.update_self _ _ _, rfl, Or.inr (by simp)⟩
      · simp at hstep
    | endRound other =>
      obtain rfl : other = call := by simpa [SyncLabel.isWaiter] using hwaiter
      have hnever : ({ frame with warnCounter := frame.warnCounter + 1 } : Frame).timedOut =
          false := by
        simp [Frame.timedOut, htimeout]
      simp only [SyncSystem.endRound, hframe, hnever] at hstep
      split at hstep
      · rw [← Option.some.inj hstep]
        exact ⟨by simp, _, Function.update_self _ _ _, hfinished, Or.inl (by simp)⟩
      · simp at hstep
    | leave other =>
      obtain rfl : other = call := by simpa [SyncLabel.isWaiter] using hwaiter
      simp only [SyncSystem.leave, hframe] at hstep
      rcases hpc with hpc | hpc <;> simp [hpc] at hstep
    | callback => simp [SyncLabel.isWaiter] at hwaiter

/-- The main thread joins, so that it runs no callback, and every other step goes round in the
chat scraper's wait. -/
theorem Stuck.step {label : ProgramLabel} (hstuck : program.Stuck) (h : program.Patient)
    (hstep : machine.step program label = some next) : next.Stuck := by
  obtain ⟨hmain, call, frame, hchat, hframe, hfinished, hpc⟩ := hstuck
  have hjoining : program.scraper = .joining := h.joining (by simp [hchat]) (by simp [hchat])
  replace hstep := act_of_step hstep
  cases label with
  | main => simp [act, mainStep, hmain, hjoining] at hstep
  | mainClient label =>
    obtain ⟨hpermits, -⟩ := mainClient_spec hstep
    rw [hmain] at hpermits
    simp [MainPc.permits] at hpermits
  | scraper throws => simp [act, scraperStep, hjoining, hchat] at hstep
  | chat => simp [act, chatStep, hchat] at hstep
  | chatClient label =>
    obtain ⟨hnextMain, -, other, hinside, hwaiter, hsync, hnext⟩ := chatClient_spec hstep
    obtain rfl := ChatPc.inside.inj (hchat.symm.trans hinside)
    obtain ⟨found, hfound, htimeout⟩ := h.timeout call hchat
    obtain rfl := Option.some.inj (hframe.symm.trans hfound)
    obtain ⟨hleave, kept, hkept, hkeptFinished, hkeptPc⟩ :=
      waiting_of_step hframe hfinished htimeout hpc hwaiter hsync
    rcases hnext with ⟨hnextChat, -⟩ | ⟨chats, -, hleaves⟩
    · exact ⟨hnextMain.trans hmain, call, kept, hnextChat, hkept, hkeptFinished, hkeptPc⟩
    · exact absurd hleaves hleave
  | answer serial object =>
    obtain ⟨sync, hsync, rfl⟩ := Option.map_eq_some_iff.mp hstep
    have hsame := SyncSystem.step_client_frame hsync
    exact ⟨hmain, call, frame, hchat, hsame ▸ hframe, hfinished, hpc⟩
  | update object =>
    obtain ⟨sync, hsync, rfl⟩ := Option.map_eq_some_iff.mp hstep
    have hsame := SyncSystem.step_client_frame hsync
    exact ⟨hmain, call, frame, hchat, hsame ▸ hframe, hfinished, hpc⟩
  | stop =>
    rw [← Option.some.inj hstep]
    exact ⟨hmain, call, frame, hchat, hframe, hfinished, hpc⟩

/-- Nothing gets a stuck program going again. -/
theorem stuck_forever {config : Config} {last : Program}
    (hreach : machine.Reaches (start config) program) (hstuck : program.Stuck)
    (hlast : machine.Reaches program last) : last.Stuck := by
  have hpatient : program.Patient :=
    hreach.invariant (patient_start config) fun _ _ _ h hstep ↦ h.step hstep
  have hboth : last.Stuck ∧ last.Patient := by
    apply hlast.invariant ⟨hstuck, hpatient⟩
    rintro state label after ⟨hstate, h⟩ hstep
    exact ⟨hstate.step h hstep, h.step hstep⟩
  exact hboth.1

/-- The chat scraper is spawned and waits for the chats when the stop request arrives. -/
def stopLabels : List ProgramLabel :=
  [.main, .main, .main, .scraper false, .scraper false, .chat, .chatClient (.client (.draw 1)),
    .chatClient (.client (.register 1)), .chatClient (.client (.handOver 1)),
    .chatClient (.lock 0), .chatClient (.test 0), .stop, .main, .main]

theorem stuck_after_stop :
    ¬ machine.Throughout (fun program ↦ ¬ program.Stuck) (start {}) stopLabels := by
  intro h
  exact h stopLabels [] _ rfl rfl ⟨rfl, 0, _, rfl, rfl, rfl, Or.inr rfl⟩

/-- The answer arrives before the stop request. -/
theorem never_stuck_of_early_answer :
    machine.Throughout (fun program ↦ ¬ program.Stuck) (start {})
      [.main, .main, .main, .scraper false, .scraper false, .chat,
        .chatClient (.client (.draw 1)), .chatClient (.client (.register 1)),
        .chatClient (.client (.handOver 1)), .chatClient (.lock 0), .chatClient (.test 0),
        .main, .answer 1 (.chats 0 []), .mainClient (.client .receive), .mainClient .callback,
        .mainClient .callback, .mainClient .callback, .main, .stop, .main, .main,
        .chatClient (.endRound 0), .chatClient (.test 0), .chatClient (.leave 0), .chat] := by
  apply never_stuck_of_meetsShutdown
  exact Machine.everyStep_iff_steps.mpr (by decide)

end Program

end Tgvisd
