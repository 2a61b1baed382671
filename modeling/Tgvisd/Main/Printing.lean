import Mathlib.Algebra.Order.Ring.Int
import Mathlib.Logic.Function.Basic
import Tgvisd.Lib.Machine

/-!
# Printing

Any number of threads print lines with a time stamp. `print_lock` is held for a whole line, and
`get_time_lock` while the static buffers of `localtime` and `asctime` are in use. `__panic` only
tries both locks, prints its report whether it has got them or not, and aborts the program. A call
of the C library that prints is one step, and so is every access to a lock or to a buffer.
-/

namespace Tgvisd.Printing

/-! ## Data -/

/-- A call of a function that prints a line: what it prints before the text, and the text that
`vprintf` makes of its arguments. -/
structure Line where
  label : List Char
  text : List Char
  deriving DecidableEq, Repr

def prNotice (text : List Char) : Line := ⟨[], text⟩

def prError (text : List Char) : Line := ⟨"Error: ".toList, text⟩

def prEmerg (text : List Char) : Line := ⟨"Emergency: ".toList, text⟩

def prDebug (text : List Char) : Line := ⟨"Debug: ".toList, text⟩

/-- In a function that prints a line: before it takes `print_lock`; in `get_time`, before it takes
`get_time_lock`, before `time`, `localtime`, `asctime` and `memcpy`, and before it releases the
lock; before the three parts of the line; and before it releases `print_lock`. -/
inductive Stage
  | locking
  | lockingTime
  | reading
  | converting
  | formatting
  | copying
  | unlockingTime
  | stamping
  | texting
  | ending
  | unlocking
  deriving DecidableEq, Repr

/-- In `__panic`: before the two attempts, and with so much left to print. -/
inductive PanicStage
  | tryingPrint (report : List (List Char))
  | tryingTime (report : List (List Char))
  | reporting (rest : List (List Char))
  deriving DecidableEq, Repr

/-- A thread outside the functions that print; in one that prints a line, with its `rawtime` and
its `buf`; and in `__panic`. -/
inductive Thread
  | idle
  | printing (line : Line) (stage : Stage) (rawtime : ℤ) (buf : List Char)
  | panicking (stage : PanicStage)
  deriving DecidableEq, Repr

/-- A line that has been printed, who printed it, and the time that was read for it. -/
structure Entry where
  thread : ℕ
  line : Line
  time : ℤ
  deriving DecidableEq, Repr

/-- The locks with their holders, the clock, the static buffers of `localtime` (as the time that it
stands for) and of `asctime`, and what has been printed. For the record: the calls that have begun,
and the lines of those that have returned. -/
structure State where
  printLock : Option ℕ := none
  getTimeLock : Option ℕ := none
  clock : ℤ := 0
  timeinfo : ℤ := 0
  timeChr : List Char := []
  stdout : List Char := []
  threads : ℕ → Thread := fun _ ↦ .idle
  calls : List (ℕ × Line) := []
  log : List Entry := []
  aborted : Bool := false

/-- A thread calls a function that prints a line, or `__panic`; a thread takes a step; and the clock
is at another time. -/
inductive Label
  | call (t : ℕ) (line : Line)
  | panic (t : ℕ) (file : List Char) (lineno : ℤ) (text : List Char)
  | step (t : ℕ)
  | time (now : ℤ)
  deriving DecidableEq, Repr

/-! ## Steps -/

/-- The stamp that `get_time` copies from the text of `asctime`, without its last character. The
text is not empty: it ends with a newline. -/
def stampOf (timeChr : List Char) : List Char := timeChr.take (min timeChr.length 32 - 1)

/-- The first part of a line. -/
def Line.stamped (line : Line) (buf : List Char) : List Char :=
  '[' :: buf ++ "] ".toList ++ line.label

def rule : List Char := "=======================================================\n".toList

/-- What `__panic` prints, call by call. -/
def panicReport (file : List Char) (lineno : ℤ) (text : List Char) : List (List Char) :=
  [rule, "Emergency: Panic - Not syncing: ".toList, text, ['\n'],
    "Panic at ".toList ++ file ++ ':' :: (toString lineno).toList ++ ['\n'], rule]

namespace State

def setThread (state : State) (t : ℕ) (thread : Thread) : State :=
  { state with threads := Function.update state.threads t thread }

def print (state : State) (text : List Char) : State :=
  { state with stdout := state.stdout ++ text }

def lineStep (asctime : ℤ → List Char) (state : State) (t : ℕ) (line : Line) (stage : Stage)
    (rawtime : ℤ) (buf : List Char) : Option State :=
  let goTo (state : State) (stage : Stage) : State :=
    state.setThread t (.printing line stage rawtime buf)
  match stage with
  | .locking =>
    if state.printLock = none then some (goTo { state with printLock := some t } .lockingTime)
    else none
  | .lockingTime =>
    if state.getTimeLock = none then some (goTo { state with getTimeLock := some t } .reading)
    else none
  | .reading => some (state.setThread t (.printing line .converting state.clock buf))
  | .converting => some (goTo { state with timeinfo := rawtime } .formatting)
  | .formatting => some (goTo { state with timeChr := asctime state.timeinfo } .copying)
  | .copying =>
    some (state.setThread t (.printing line .unlockingTime rawtime (stampOf state.timeChr)))
  | .unlockingTime => some (goTo { state with getTimeLock := none } .stamping)
  | .stamping => some (goTo (state.print (line.stamped buf)) .texting)
  | .texting => some (goTo (state.print line.text) .ending)
  | .ending => some (goTo (state.print ['\n']) .unlocking)
  | .unlocking => some { state.setThread t .idle with
      printLock := none, log := state.log ++ [⟨t, line, rawtime⟩] }

/-- `pthread_mutex_trylock`, whose result is not looked at. -/
def tryLock (lock : Option ℕ) (t : ℕ) : Option ℕ := if lock = none then some t else lock

/-- After the report, `fflush` and `abort`. -/
def panicStep (state : State) (t : ℕ) : PanicStage → State
  | .tryingPrint report =>
    { state with printLock := tryLock state.printLock t }.setThread t
      (.panicking (.tryingTime report))
  | .tryingTime report =>
    { state with getTimeLock := tryLock state.getTimeLock t }.setThread t
      (.panicking (.reporting report))
  | .reporting (text :: rest) => (state.print text).setThread t (.panicking (.reporting rest))
  | .reporting [] => { state with aborted := true }

def step (asctime : ℤ → List Char) (state : State) (label : Label) : Option State :=
  if state.aborted then
    none
  else
    match label with
    | .call t line =>
      if state.threads t = .idle then
        some { state.setThread t (.printing line .locking 0 []) with
          calls := state.calls ++ [(t, line)] }
      else
        none
    | .panic t file lineno text =>
      if state.threads t = .idle then
        some (state.setThread t (.panicking (.tryingPrint (panicReport file lineno text))))
      else
        none
    | .step t =>
      match state.threads t with
      | .idle => none
      | .printing line stage rawtime buf => state.lineStep asctime t line stage rawtime buf
      | .panicking stage => some (state.panicStep t stage)
    | .time now => some { state with clock := now }

end State

/-- The printing threads as a machine, for a given `asctime` of the local time. -/
def printing (asctime : ℤ → List Char) : Machine State Label := ⟨State.step asctime⟩

/-! ## What is printed -/

/-- The line as it should be read. -/
def Entry.render (asctime : ℤ → List Char) (entry : Entry) : List Char :=
  entry.line.stamped (stampOf (asctime entry.time)) ++ entry.line.text ++ ['\n']

/-- What a thread has printed of the line that it is printing. -/
def Thread.written : Thread → List Char
  | .printing line .texting _ buf => line.stamped buf
  | .printing line .ending _ buf => line.stamped buf ++ line.text
  | .printing line .unlocking _ buf => line.stamped buf ++ line.text ++ ['\n']
  | _ => []

/-- The call that the thread is in. -/
def Thread.current : Thread → List Line
  | .printing line _ _ _ => [line]
  | _ => []

/-- The line that is not finished yet. -/
def State.unfinished (state : State) : List Char :=
  (state.printLock.elim .idle state.threads).written

def State.callsOf (state : State) (t : ℕ) : List Line :=
  (state.calls.filter fun call ↦ call.1 = t).map Prod.snd

def State.linesOf (state : State) (t : ℕ) : List Line :=
  (state.log.filter fun entry ↦ entry.thread = t).map Entry.line

def Label.isPanic : Label → Bool
  | .panic _ _ _ _ => true
  | _ => false

/-! ## The locks and the buffers -/

def Stage.holdsTime : Stage → Bool
  | .reading | .converting | .formatting | .copying | .unlockingTime => true
  | _ => false

/-- What a thread in `get_time` and behind it relies on. -/
def Stage.Relies (asctime : ℤ → List Char) (state : State) (rawtime : ℤ) (buf : List Char) :
    Stage → Prop
  | .formatting => state.timeinfo = rawtime
  | .copying => state.timeChr = asctime rawtime
  | .unlockingTime | .stamping | .texting | .ending | .unlocking =>
    buf = stampOf (asctime rawtime)
  | _ => True

/-- A thread that prints a line holds the locks exactly where it should. -/
def Thread.Fits (asctime : ℤ → List Char) (state : State) (t : ℕ) : Thread → Prop
  | .idle | .panicking (.tryingPrint _) => state.printLock ≠ some t ∧ state.getTimeLock ≠ some t
  | .printing _ stage rawtime buf => (stage ≠ .locking ↔ state.printLock = some t) ∧
    (stage.holdsTime = true ↔ state.getTimeLock = some t) ∧
      stage.Relies asctime state rawtime buf
  | .panicking (.tryingTime _) => state.getTimeLock ≠ some t
  | .panicking (.reporting _) => True

def State.Sound (asctime : ℤ → List Char) (state : State) : Prop :=
  ∀ t, (state.threads t).Fits asctime state t

section

variable {asctime : ℤ → List Char} {state next : State} {t u : ℕ} {thread : Thread}

/-- Another thread may change the buffers only while it holds `get_time_lock`. -/
theorem Thread.Fits.frame (h : thread.Fits asctime state u)
    (hprint : next.printLock = some u ↔ state.printLock = some u)
    (htime : next.getTimeLock = some u ↔ state.getTimeLock = some u)
    (hbuffers : state.getTimeLock = some u →
      next.timeinfo = state.timeinfo ∧ next.timeChr = state.timeChr) :
    thread.Fits asctime next u := by
  cases thread with
  | idle => exact ⟨fun hlock ↦ h.1 (hprint.mp hlock), fun hlock ↦ h.2 (htime.mp hlock)⟩
  | printing line stage rawtime buf =>
    obtain ⟨hlocking, hholds, hrelies⟩ := h
    refine ⟨hlocking.trans hprint.symm, hholds.trans htime.symm, ?_⟩
    cases stage with
    | formatting => exact (hbuffers (hholds.mp rfl)).1.trans hrelies
    | copying => exact (hbuffers (hholds.mp rfl)).2.trans hrelies
    | _ => exact hrelies
  | panicking stage =>
    cases stage with
    | tryingPrint report =>
      exact ⟨fun hlock ↦ h.1 (hprint.mp hlock), fun hlock ↦ h.2 (htime.mp hlock)⟩
    | tryingTime report => exact fun hlock ↦ h (htime.mp hlock)
    | reporting rest => trivial

namespace State.Sound

theorem initial : Sound asctime {} := fun _ ↦ ⟨by simp, by simp⟩

/-- One thread moves, and the others see nothing of it. -/
theorem move (h : state.Sound asctime)
    (hthreads : next.threads = Function.update state.threads t thread)
    (hown : thread.Fits asctime next t)
    (hprint : ∀ u ≠ t, next.printLock = some u ↔ state.printLock = some u)
    (htime : ∀ u ≠ t, next.getTimeLock = some u ↔ state.getTimeLock = some u)
    (hbuffers : ∀ u ≠ t, state.getTimeLock = some u →
      next.timeinfo = state.timeinfo ∧ next.timeChr = state.timeChr) : next.Sound asctime := by
  intro u
  by_cases hu : u = t
  · subst hu
    simpa [hthreads] using hown
  · rw [hthreads, Function.update_of_ne hu]
    exact (h u).frame (hprint u hu) (htime u hu) (hbuffers u hu)

theorem lineStep {line : Line} {stage : Stage} {rawtime : ℤ} {buf : List Char}
    (h : state.Sound asctime) (hthread : state.threads t = .printing line stage rawtime buf)
    (hstep : state.lineStep asctime t line stage rawtime buf = some next) : next.Sound asctime := by
  have hown := h t
  rw [hthread] at hown
  obtain ⟨hprint, htime, hrelies⟩ := hown
  unfold State.lineStep at hstep
  cases stage with
  | locking =>
    simp only [Option.ite_none_right_eq_some, Option.some.injEq] at hstep
    obtain ⟨hfree, rfl⟩ := hstep
    refine h.move rfl ⟨by simp [setThread], htime, trivial⟩ ?_
      (fun _ _ ↦ Iff.rfl) fun _ _ _ ↦ ⟨rfl, rfl⟩
    intro u hu
    simp [setThread, hfree, Ne.symm hu]
  | lockingTime =>
    simp only [Option.ite_none_right_eq_some, Option.some.injEq] at hstep
    obtain ⟨hfree, rfl⟩ := hstep
    refine h.move rfl ⟨by simpa [setThread] using hprint, by simp [setThread, Stage.holdsTime],
      trivial⟩ (fun _ _ ↦ Iff.rfl) ?_ fun _ _ _ ↦ ⟨rfl, rfl⟩
    intro u hu
    simp [setThread, hfree, Ne.symm hu]
  | reading =>
    obtain rfl := Option.some.inj hstep
    exact h.move rfl ⟨by simpa [setThread] using hprint, htime,
      trivial⟩ (fun _ _ ↦ Iff.rfl) (fun _ _ ↦ Iff.rfl) fun _ _ _ ↦ ⟨rfl, rfl⟩
  | converting =>
    obtain rfl := Option.some.inj hstep
    have hholds := htime.mp rfl
    refine h.move rfl ⟨by simpa [setThread] using hprint, htime, rfl⟩
      (fun _ _ ↦ Iff.rfl) (fun _ _ ↦ Iff.rfl) ?_
    intro u hu hother
    exact absurd (Option.some.inj (hother.symm.trans hholds)) hu
  | formatting =>
    obtain rfl := Option.some.inj hstep
    have hholds := htime.mp rfl
    refine h.move rfl ⟨by simpa [setThread] using hprint, htime,
      congrArg asctime hrelies⟩ (fun _ _ ↦ Iff.rfl) (fun _ _ ↦ Iff.rfl) ?_
    intro u hu hother
    exact absurd (Option.some.inj (hother.symm.trans hholds)) hu
  | copying =>
    obtain rfl := Option.some.inj hstep
    exact h.move rfl ⟨by simpa [setThread] using hprint, htime,
      congrArg stampOf hrelies⟩ (fun _ _ ↦ Iff.rfl) (fun _ _ ↦ Iff.rfl) fun _ _ _ ↦ ⟨rfl, rfl⟩
  | unlockingTime =>
    obtain rfl := Option.some.inj hstep
    have hholds := htime.mp rfl
    refine h.move rfl ⟨by simpa [setThread] using hprint, by simp [setThread, Stage.holdsTime],
      hrelies⟩ (fun _ _ ↦ Iff.rfl) ?_ fun _ _ _ ↦ ⟨rfl, rfl⟩
    intro u hu
    simp [setThread, hholds, Ne.symm hu]
  | stamping | texting | ending =>
    obtain rfl := Option.some.inj hstep
    exact h.move rfl ⟨by simpa [setThread, print] using hprint,
      htime, hrelies⟩
      (fun _ _ ↦ Iff.rfl) (fun _ _ ↦ Iff.rfl) fun _ _ _ ↦ ⟨rfl, rfl⟩
  | unlocking =>
    obtain rfl := Option.some.inj hstep
    have hholds : state.printLock = some t := hprint.mp (by simp)
    refine h.move rfl ⟨by simp, by simpa [setThread, Stage.holdsTime] using htime⟩ ?_
      (fun _ _ ↦ Iff.rfl) fun _ _ _ ↦ ⟨rfl, rfl⟩
    intro u hu
    simp [hholds, Ne.symm hu]

theorem panicStep {stage : PanicStage} (h : state.Sound asctime)
    (hthread : state.threads t = .panicking stage) : (state.panicStep t stage).Sound asctime := by
  have hown := h t
  rw [hthread] at hown
  have hother (lock : Option ℕ) (u : ℕ) (hu : u ≠ t) : tryLock lock t = some u ↔ lock = some u := by
    unfold tryLock
    split
    · rename_i hfree
      simp [hfree, Ne.symm hu]
    · exact Iff.rfl
  cases stage with
  | tryingPrint report =>
    exact h.move rfl hown.2 (hother state.printLock) (fun _ _ ↦ Iff.rfl) fun _ _ _ ↦ ⟨rfl, rfl⟩
  | tryingTime report =>
    exact h.move rfl trivial (fun _ _ ↦ Iff.rfl) (hother state.getTimeLock) fun _ _ _ ↦ ⟨rfl, rfl⟩
  | reporting rest =>
    cases rest with
    | nil => exact fun u ↦ (h u).frame Iff.rfl Iff.rfl fun _ ↦ ⟨rfl, rfl⟩
    | cons text rest =>
      exact h.move rfl trivial (fun _ _ ↦ Iff.rfl) (fun _ _ ↦ Iff.rfl) fun _ _ _ ↦ ⟨rfl, rfl⟩

theorem step {label : Label} (h : state.Sound asctime)
    (hstep : (printing asctime).step state label = some next) : next.Sound asctime := by
  simp only [printing, State.step] at hstep
  split at hstep
  · cases hstep
  · cases label with
    | call t line =>
      simp only [Option.ite_none_right_eq_some, Option.some.injEq] at hstep
      obtain ⟨hidle, rfl⟩ := hstep
      have hown := h t
      rw [hidle] at hown
      exact h.move rfl ⟨by simpa [setThread] using hown.1,
        by simpa [setThread, Stage.holdsTime] using hown.2, trivial⟩
        (fun _ _ ↦ Iff.rfl) (fun _ _ ↦ Iff.rfl) fun _ _ _ ↦ ⟨rfl, rfl⟩
    | panic t file lineno text =>
      simp only [Option.ite_none_right_eq_some, Option.some.injEq] at hstep
      obtain ⟨hidle, rfl⟩ := hstep
      have hown := h t
      rw [hidle] at hown
      exact h.move rfl hown (fun _ _ ↦ Iff.rfl) (fun _ _ ↦ Iff.rfl) fun _ _ _ ↦ ⟨rfl, rfl⟩
    | step t =>
      cases hthread : state.threads t with
      | idle => simp [hthread] at hstep
      | printing line stage rawtime buf =>
        simp only [hthread] at hstep
        exact h.lineStep hthread hstep
      | panicking stage =>
        simp only [hthread, Option.some.injEq] at hstep
        exact hstep ▸ h.panicStep hthread
    | time now =>
      obtain rfl := Option.some.inj hstep
      exact fun u ↦ (h u).frame Iff.rfl Iff.rfl fun _ ↦ ⟨rfl, rfl⟩

end State.Sound

end

end Tgvisd.Printing
