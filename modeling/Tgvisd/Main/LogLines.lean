import Tgvisd.Main.Printing

/-!
# Log lines

As long as nobody panics, what has been printed is the lines of the calls that have returned, whole
and in the order in which they got `print_lock`, and a part of the line that is being printed. A
call takes eleven steps, and the threads never deadlock.
-/

namespace Tgvisd.Printing

variable {asctime : ℤ → List Char} {state next : State} {t : ℕ} {line : Line} {stage : Stage}
  {rawtime : ℤ} {buf : List Char}

/-- The steps that a call has before it at the stage. -/
def Stage.left : Stage → ℕ
  | .locking => 11
  | .lockingTime => 10
  | .reading => 9
  | .converting => 8
  | .formatting => 7
  | .copying => 6
  | .unlockingTime => 5
  | .stamping => 4
  | .texting => 3
  | .ending => 2
  | .unlocking => 1

def Thread.left : Thread → ℕ
  | .printing _ stage _ _ => stage.left
  | _ => 0

namespace State

/-- What a step does in a function that prints a line: it goes on in the call, or returns. -/
inductive Goes (state : State) (t : ℕ) (line : Line) (stage : Stage) (rawtime : ℤ)
    (next : State) : Prop
  | on (stage' : Stage) (rawtime' : ℤ) (buf' : List Char)
    (threads : next.threads =
      Function.update state.threads t (.printing line stage' rawtime' buf'))
    (left : stage.left = stage'.left + 1) (calls : next.calls = state.calls)
    (log : next.log = state.log) (aborted : next.aborted = state.aborted)
  | back (threads : next.threads = Function.update state.threads t .idle)
    (left : stage.left = 1) (calls : next.calls = state.calls)
    (log : next.log = state.log ++ [⟨t, line, rawtime⟩]) (aborted : next.aborted = state.aborted)

theorem goes_lineStep (hstep : state.lineStep asctime t line stage rawtime buf = some next) :
    state.Goes t line stage rawtime next := by
  unfold lineStep at hstep
  cases stage with
  | locking | lockingTime =>
    simp only [Option.ite_none_right_eq_some, Option.some.injEq] at hstep
    obtain ⟨-, rfl⟩ := hstep
    exact .on _ _ _ rfl rfl rfl rfl rfl
  | unlocking =>
    obtain rfl := Option.some.inj hstep
    exact .back rfl rfl rfl rfl rfl
  | _ =>
    obtain rfl := Option.some.inj hstep
    exact .on _ _ _ rfl rfl rfl rfl rfl

/-! ## Every call has its line -/

/-- The calls of a thread are those that have their lines, and the one that it is in. -/
def Accounted (state : State) : Prop :=
  ∀ t, state.callsOf t = state.linesOf t ++ (state.threads t).current

theorem Accounted.goes (h : state.Accounted)
    (hthread : state.threads t = .printing line stage rawtime buf)
    (hgoes : state.Goes t line stage rawtime next) : next.Accounted := by
  intro u
  have hu := h u
  cases hgoes with
  | on stage' rawtime' buf' hthreads hleft hcalls hlog =>
    by_cases hut : u = t
    · subst hut
      simpa [callsOf, linesOf, hcalls, hlog, hthreads, hthread, Thread.current] using hu
    · simpa [callsOf, linesOf, hcalls, hlog, hthreads, hut] using hu
  | back hthreads hleft hcalls hlog =>
    by_cases hut : u = t
    · subst hut
      simpa [callsOf, linesOf, hcalls, hlog, hthreads, hthread, Thread.current] using hu
    · simpa [callsOf, linesOf, hcalls, hlog, hthreads, hut, Ne.symm hut] using hu

theorem Accounted.call (h : state.Accounted) (hidle : state.threads t = .idle) (line : Line) :
    ({ state.setThread t (.printing line .locking 0 []) with
      calls := state.calls ++ [(t, line)] } : State).Accounted := by
  intro u
  have hu := h u
  by_cases hut : u = t
  · subst hut
    simpa [callsOf, linesOf, setThread, hidle, Thread.current] using hu
  · simpa [callsOf, linesOf, setThread, hut, Ne.symm hut] using hu

/-! ## Whole lines -/

def Quiet (state : State) : Prop := ∀ t stage, state.threads t ≠ .panicking stage

def Printed (asctime : ℤ → List Char) (state : State) : Prop :=
  state.stdout = state.log.flatMap (Entry.render asctime) ++ state.unfinished

theorem unfinished_eq (hlock : state.printLock = some t) :
    state.unfinished = (state.threads t).written := by
  rw [unfinished, hlock]
  rfl

theorem unfinished_free (hlock : state.printLock = none) : state.unfinished = [] := by
  rw [unfinished, hlock]
  rfl

/-- A thread that does not hold `print_lock` does not change the unfinished line. -/
theorem unfinished_setThread (hlock : state.printLock ≠ some t) (thread : Thread) :
    (state.setThread t thread).unfinished = state.unfinished := by
  cases hholder : state.printLock with
  | none =>
    have hnext : (state.setThread t thread).printLock = none := hholder
    rw [unfinished_free hholder, unfinished_free hnext]
  | some u =>
    have hu : u ≠ t := by
      rintro rfl
      exact hlock hholder
    have hnext : (state.setThread t thread).printLock = some u := hholder
    rw [unfinished_eq hholder, unfinished_eq hnext]
    simp [setThread, hu]

/-- The holder of `print_lock` prints a piece of its line, or nothing. -/
theorem Printed.on (h : state.Printed asctime) (hlock : state.printLock = some t)
    (hnext : next.printLock = some t) (hlog : next.log = state.log) {text : List Char}
    (hstdout : next.stdout = state.stdout ++ text)
    (hwritten : (next.threads t).written = (state.threads t).written ++ text) :
    next.Printed asctime := by
  unfold Printed at h ⊢
  rw [hstdout, h, hlog, unfinished_eq hlock, unfinished_eq hnext, hwritten, List.append_assoc]

theorem Printed.lineStep (h : state.Printed asctime) (hsound : state.Sound asctime)
    (hthread : state.threads t = .printing line stage rawtime buf)
    (hstep : state.lineStep asctime t line stage rawtime buf = some next) :
    next.Printed asctime := by
  have hown := hsound t
  rw [hthread] at hown
  obtain ⟨hprint, -, hrelies⟩ := hown
  unfold State.lineStep at hstep
  cases stage with
  | locking =>
    simp only [Option.ite_none_right_eq_some, Option.some.injEq] at hstep
    obtain ⟨hfree, rfl⟩ := hstep
    unfold Printed at h ⊢
    rw [unfinished_free hfree] at h
    rw [unfinished_eq (t := t) rfl]
    simpa [setThread, Thread.written] using h
  | lockingTime =>
    simp only [Option.ite_none_right_eq_some, Option.some.injEq] at hstep
    obtain ⟨-, rfl⟩ := hstep
    have hlock := hprint.mp (by simp)
    exact h.on hlock hlock rfl (List.append_nil _).symm
      (by simp [setThread, hthread, Thread.written])
  | unlocking =>
    obtain rfl := Option.some.inj hstep
    have hlock := hprint.mp (by simp)
    have hbuf : buf = stampOf (asctime rawtime) := hrelies
    unfold Printed at h ⊢
    rw [unfinished_eq hlock, hthread] at h
    rw [unfinished_free rfl]
    simpa [setThread, Thread.written, Entry.render, hbuf] using h
  | stamping | texting | ending =>
    obtain rfl := Option.some.inj hstep
    have hlock := hprint.mp (by simp)
    exact h.on hlock hlock rfl rfl (by simp [setThread, print, hthread, Thread.written])
  | _ =>
    obtain rfl := Option.some.inj hstep
    have hlock := hprint.mp (by simp)
    exact h.on hlock hlock rfl (List.append_nil _).symm
      (by simp [setThread, hthread, Thread.written])

end State

/-! ## The order of the stamps -/

def Stage.hasRead : Stage → Bool
  | .locking | .lockingTime | .reading => false
  | _ => true

/-- The time that the thread has read for its line. -/
def Thread.readTime : Thread → Option ℤ
  | .printing _ stage rawtime _ => if stage.hasRead then some rawtime else none
  | _ => none

namespace State

/-- The stamps are in order, and the one that is being printed comes after them. -/
structure Timed (state : State) : Prop where
  sorted : state.log.Pairwise fun first second ↦ first.time ≤ second.time
  past : ∀ entry ∈ state.log, entry.time ≤ state.clock
  read : ∀ t time, (state.threads t).readTime = some time →
    time ≤ state.clock ∧ ∀ entry ∈ state.log, entry.time ≤ time

theorem Timed.initial : Timed {} :=
  ⟨List.Pairwise.nil, by simp, by simp [Thread.readTime]⟩

theorem Sound.holds_of_readTime {time : ℤ} (h : state.Sound asctime)
    (hread : (state.threads t).readTime = some time) : state.printLock = some t := by
  have hown := h t
  cases hthread : state.threads t with
  | printing line stage rawtime buf =>
    rw [hthread] at hown hread
    apply hown.1.mp
    rintro rfl
    simp [Thread.readTime, Stage.hasRead] at hread
  | idle => simp [hthread, Thread.readTime] at hread
  | panicking stage => simp [hthread, Thread.readTime] at hread

theorem Timed.lineStep (h : state.Timed) (hsound : state.Sound asctime)
    (hthread : state.threads t = .printing line stage rawtime buf)
    (hstep : state.lineStep asctime t line stage rawtime buf = some next) : next.Timed := by
  have hown := hsound t
  rw [hthread] at hown
  obtain ⟨hprint, -, -⟩ := hown
  unfold State.lineStep at hstep
  -- A step that leaves the log and the clock alone, and reads no other time.
  have hon (thread : Thread) (hthreads : next.threads = Function.update state.threads t thread)
      (hlog : next.log = state.log) (hclock : next.clock = state.clock)
      (hread : ∀ time, thread.readTime = some time →
        (state.threads t).readTime = some time ∨ time = state.clock) : next.Timed := by
    refine ⟨hlog ▸ h.sorted, hlog ▸ hclock ▸ h.past, ?_⟩
    intro u time hu
    rw [hlog, hclock]
    by_cases hut : u = t
    · subst hut
      rw [hthreads, Function.update_self] at hu
      obtain hold | rfl := hread time hu
      · exact h.read u time hold
      · exact ⟨le_rfl, h.past⟩
    · rw [hthreads, Function.update_of_ne hut] at hu
      exact h.read u time hu
  cases stage with
  | locking | lockingTime =>
    simp only [Option.ite_none_right_eq_some, Option.some.injEq] at hstep
    obtain ⟨-, rfl⟩ := hstep
    exact hon _ rfl rfl rfl (by simp [Thread.readTime, Stage.hasRead])
  | reading =>
    obtain rfl := Option.some.inj hstep
    exact hon _ rfl rfl rfl (by simp [Thread.readTime, Stage.hasRead])
  | unlocking =>
    obtain rfl := Option.some.inj hstep
    have hlock := hprint.mp (by simp)
    have hread : (state.threads t).readTime = some rawtime := by
      simp [hthread, Thread.readTime, Stage.hasRead]
    obtain ⟨hpast, hlast⟩ := h.read t rawtime hread
    refine ⟨?_, ?_, ?_⟩
    · refine List.pairwise_append.mpr ⟨h.sorted, List.pairwise_singleton _ _, ?_⟩
      intro entry hentry last hmem
      rw [List.mem_singleton.mp hmem]
      exact hlast entry hentry
    · intro entry hentry
      obtain hold | hnew := List.mem_append.mp hentry
      · exact h.past entry hold
      · rw [List.mem_singleton.mp hnew]
        exact hpast
    · intro u time hu
      by_cases hut : u = t
      · simp [setThread, hut, Thread.readTime] at hu
      · have hholder := hsound.holds_of_readTime (t := u) (by simpa [setThread, hut] using hu)
        exact absurd (Option.some.inj (hholder.symm.trans hlock)) hut
  | _ =>
    obtain rfl := Option.some.inj hstep
    exact hon _ rfl rfl rfl (by simp [hthread, Thread.readTime, Stage.hasRead])

/-! ## Whole runs -/

/-- What holds in every state of a run without a panic. -/
structure Orderly (asctime : ℤ → List Char) (state : State) : Prop where
  running : state.aborted = false
  sound : state.Sound asctime
  quiet : state.Quiet
  printed : state.Printed asctime
  accounted : state.Accounted

theorem Quiet.update {thread : Thread} (h : state.Quiet)
    (hthreads : next.threads = Function.update state.threads t thread)
    (hthread : ∀ stage, thread ≠ .panicking stage) : next.Quiet := by
  intro u stage
  by_cases hu : u = t
  · simpa [hthreads, hu] using hthread stage
  · simpa [hthreads, hu] using h u stage

theorem Orderly.initial : Orderly asctime {} where
  running := rfl
  sound := Sound.initial
  quiet _ _ := by simp
  printed := rfl
  accounted _ := rfl

theorem Orderly.step {label : Label} (h : state.Orderly asctime) (hlabel : label.isPanic = false)
    (hstep : (printing asctime).step state label = some next) : next.Orderly asctime := by
  have hsound := h.sound.step hstep
  simp only [printing, State.step] at hstep
  split at hstep
  · cases hstep
  · cases label with
    | panic t file lineno text => simp [Label.isPanic] at hlabel
    | call t line =>
      simp only [Option.ite_none_right_eq_some, Option.some.injEq] at hstep
      obtain ⟨hidle, rfl⟩ := hstep
      have hown := h.sound t
      rw [hidle] at hown
      refine ⟨h.running, hsound, h.quiet.update rfl (by simp), ?_, h.accounted.call hidle line⟩
      exact h.printed.trans (congrArg _ (unfinished_setThread hown.1 _).symm)
    | step t =>
      cases hthread : state.threads t with
      | idle => simp [hthread] at hstep
      | panicking stage => exact absurd hthread (h.quiet t stage)
      | printing line stage rawtime buf =>
        simp only [hthread] at hstep
        have hgoes := goes_lineStep hstep
        have hprinted := h.printed.lineStep h.sound hthread hstep
        have haccounted := h.accounted.goes hthread hgoes
        cases hgoes with
        | on stage' rawtime' buf' hthreads hleft hcalls hlog haborted =>
          exact ⟨haborted.trans h.running, hsound, h.quiet.update hthreads (by simp), hprinted,
            haccounted⟩
        | back hthreads hleft hcalls hlog haborted =>
          exact ⟨haborted.trans h.running, hsound, h.quiet.update hthreads (by simp), hprinted,
            haccounted⟩
    | time now =>
      obtain rfl := Option.some.inj hstep
      exact ⟨h.running, hsound, h.quiet, h.printed, h.accounted⟩

theorem Timed.step {label : Label} (h : state.Timed) (horderly : state.Orderly asctime)
    (hclock : state.clock ≤ next.clock) (hlabel : label.isPanic = false)
    (hstep : (printing asctime).step state label = some next) : next.Timed := by
  simp only [printing, State.step] at hstep
  split at hstep
  · cases hstep
  · cases label with
    | panic t file lineno text => simp [Label.isPanic] at hlabel
    | call t line =>
      simp only [Option.ite_none_right_eq_some, Option.some.injEq] at hstep
      obtain ⟨-, rfl⟩ := hstep
      refine ⟨h.sorted, h.past, ?_⟩
      intro u time hu
      by_cases hut : u = t
      · simp [setThread, hut, Thread.readTime, Stage.hasRead] at hu
      · exact h.read u time (by simpa [setThread, hut] using hu)
    | step t =>
      cases hthread : state.threads t with
      | idle => simp [hthread] at hstep
      | panicking stage => exact absurd hthread (horderly.quiet t stage)
      | printing line stage rawtime buf =>
        simp only [hthread] at hstep
        exact h.lineStep horderly.sound hthread hstep
    | time now =>
      obtain rfl := Option.some.inj hstep
      refine ⟨h.sorted, fun entry hentry ↦ (h.past entry hentry).trans hclock, ?_⟩
      intro u time hu
      obtain ⟨hpast, hlast⟩ := h.read u time hu
      exact ⟨hpast.trans hclock, hlast⟩

/-! ## No call is stuck -/

/-- A step of a thread is one step of its call, and a call has eleven. -/
theorem left_step {label : Label} (hquiet : state.Quiet) (hlabel : label.isPanic = false)
    (hstep : (printing asctime).step state label = some next) (t : ℕ) :
    [label].count (.step t) + (next.threads t).left + 11 * (state.callsOf t).length =
      (state.threads t).left + 11 * (next.callsOf t).length := by
  simp only [printing, State.step] at hstep
  split at hstep
  · cases hstep
  · cases label with
    | panic u file lineno text => simp [Label.isPanic] at hlabel
    | time now =>
      obtain rfl := Option.some.inj hstep
      simp [callsOf]
    | call u line =>
      simp only [Option.ite_none_right_eq_some, Option.some.injEq] at hstep
      obtain ⟨hidle, rfl⟩ := hstep
      by_cases hut : u = t
      · subst hut
        simp [callsOf, setThread, hidle, Thread.left, Stage.left]
        omega
      · simp [callsOf, setThread, hut, Ne.symm hut]
    | step u =>
      cases hthread : state.threads u with
      | idle => simp [hthread] at hstep
      | panicking stage => exact absurd hthread (hquiet u stage)
      | printing line stage rawtime buf =>
        simp only [hthread] at hstep
        by_cases hut : u = t
        · subst hut
          cases goes_lineStep hstep with
          | on stage' rawtime' buf' hthreads hleft hcalls =>
            simp [callsOf, hcalls, hthreads, hthread, Thread.left, hleft, Nat.add_comm]
          | back hthreads hleft hcalls =>
            simp [callsOf, hcalls, hthreads, hthread, Thread.left, hleft]
        · have hcount : [Label.step u].count (.step t) = 0 := by simp [hut]
          cases goes_lineStep hstep with
          | on stage' rawtime' buf' hthreads hleft hcalls =>
            simp [callsOf, hcalls, hthreads, hcount, Ne.symm hut]
          | back hthreads hleft hcalls =>
            simp [callsOf, hcalls, hthreads, hcount, Ne.symm hut]

theorem left_run {labels : List Label} (h : state.Orderly asctime)
    (hlabels : ∀ label ∈ labels, label.isPanic = false)
    (hrun : (printing asctime).run state labels = some next) (t : ℕ) :
    labels.count (.step t) + (next.threads t).left + 11 * (state.callsOf t).length =
      (state.threads t).left + 11 * (next.callsOf t).length := by
  induction labels generalizing state with
  | nil =>
    obtain rfl := Option.some.inj hrun
    simp
  | cons label labels ih =>
    rw [Machine.run_cons, Option.bind_eq_some_iff] at hrun
    obtain ⟨middle, hmiddle, hrest⟩ := hrun
    obtain ⟨hlabel, hlabels⟩ := List.forall_mem_cons.mp hlabels
    have hfirst := left_step h.quiet hlabel hmiddle t
    have hlast := ih (h.step hlabel hmiddle) hlabels hrest
    have hcount : (label :: labels).count (.step t) =
        [label].count (.step t) + labels.count (.step t) := by
      rw [← List.singleton_append, List.count_append]
    omega

/-- Behind both locks nothing has to be waited for. -/
theorem isSome_lineStep (hprint : stage ≠ .locking) (htime : stage ≠ .lockingTime) :
    (state.lineStep asctime t line stage rawtime buf).isSome = true := by
  cases stage with
  | locking => exact absurd rfl hprint
  | lockingTime => exact absurd rfl htime
  | _ => rfl

theorem left_eq_zero_iff (h : state.Quiet) : (state.threads t).left = 0 ↔
    state.threads t = .idle := by
  cases hthread : state.threads t with
  | idle => simp [Thread.left]
  | panicking stage => exact absurd hthread (h t stage)
  | printing line stage rawtime buf => cases stage <;> simp [Thread.left, Stage.left]

theorem step_of_printing (h : state.Orderly asctime)
    (hthread : state.threads t = .printing line stage rawtime buf) :
    (printing asctime).step state (.step t) = state.lineStep asctime t line stage rawtime buf := by
  simp [printing, State.step, h.running, hthread]

/-- `get_time_lock` is free when the holder of `print_lock` asks for it. -/
theorem Orderly.getTimeLock_free (h : state.Orderly asctime)
    (hthread : state.threads t = .printing line .lockingTime rawtime buf) :
    state.getTimeLock = none := by
  by_contra hheld
  obtain ⟨u, hu⟩ := Option.ne_none_iff_exists'.mp hheld
  have hown := h.sound t
  have hother := h.sound u
  rw [hthread] at hown
  cases hthread' : state.threads u with
  | idle =>
    rw [hthread'] at hother
    exact hother.2 hu
  | panicking stage => exact h.quiet u stage hthread'
  | printing line' stage' rawtime' buf' =>
    rw [hthread'] at hother
    have hholds := hother.2.1.mpr hu
    have hlock : state.printLock = some u := by
      apply hother.1.mp
      rintro rfl
      cases hholds
    have hut : u = t := Option.some.inj (hlock.symm.trans (hown.1.mp (by simp)))
    subst hut
    cases hown.2.1.mpr hu

/-- The holder of `print_lock` can go on. -/
theorem Orderly.holder_steps (h : state.Orderly asctime) (hlock : state.printLock = some t) :
    ((printing asctime).step state (.step t)).isSome = true := by
  have hown := h.sound t
  cases hthread : state.threads t with
  | idle =>
    rw [hthread] at hown
    exact absurd hlock hown.1
  | panicking stage => exact absurd hthread (h.quiet t stage)
  | printing line stage rawtime buf =>
    rw [hthread] at hown
    rw [step_of_printing h hthread]
    by_cases htime : stage = .lockingTime
    · subst htime
      simp [lineStep, h.getTimeLock_free hthread]
    · exact isSome_lineStep (hown.1.mpr hlock) htime

theorem Orderly.exists_step (h : state.Orderly asctime) (hbusy : state.threads t ≠ .idle) :
    ∃ u, ((printing asctime).step state (.step u)).isSome = true := by
  cases hlock : state.printLock with
  | some u => exact ⟨u, h.holder_steps hlock⟩
  | none =>
    have hown := h.sound t
    cases hthread : state.threads t with
    | idle => exact absurd hthread hbusy
    | panicking stage => exact absurd hthread (h.quiet t stage)
    | printing line stage rawtime buf =>
      refine ⟨t, ?_⟩
      rw [hthread] at hown
      rw [step_of_printing h hthread]
      have hstage : stage = .locking := by
        by_contra hne
        simp [hown.1.mp hne] at hlock
      simp [hstage, lineStep, hlock]

end State

variable {labels : List Label}

theorem orderly_throughout (hlabels : ∀ label ∈ labels, label.isPanic = false) :
    (printing asctime).Throughout (State.Orderly asctime) {} labels :=
  .of_guarded State.Orderly.initial (fun _ _ _ h hlabel hstep ↦ h.step hlabel hstep)
    (Machine.everyStep_of_forall_mem hlabels)

/-- Without a panic, what has been printed is the lines of the calls that have returned, each of
them whole, and the beginning of at most one other; every thread has its lines in the order of its
calls; and if the clock is never set back, the stamps are in order. -/
theorem lines_whole (hlabels : ∀ label ∈ labels, label.isPanic = false)
    (hrun : (printing asctime).run {} labels = some state) :
    state.stdout = state.log.flatMap (Entry.render asctime) ++ state.unfinished ∧
      (∀ t, state.callsOf t = state.linesOf t ++ (state.threads t).current) ∧
      ((printing asctime).EveryStep (fun state _ next ↦ state.clock ≤ next.clock) {} labels →
        state.log.Pairwise fun first second ↦ first.time ≤ second.time) := by
  have horderly := (orderly_throughout hlabels).last hrun
  refine ⟨horderly.printed, horderly.accounted, ?_⟩
  intro hclock
  have hboth : (printing asctime).Throughout
      (fun state ↦ state.Orderly asctime ∧ state.Timed) {} labels := by
    refine .of_guarded ⟨State.Orderly.initial, State.Timed.initial⟩ ?_
      ((Machine.everyStep_of_forall_mem hlabels).and hclock)
    rintro state label next ⟨horderly, htimed⟩ ⟨hlabel, hle⟩ hstep
    exact ⟨horderly.step hlabel hstep, htimed.step horderly hle hlabel hstep⟩
  exact (hboth.last hrun).2.sorted

/-- Without a panic, a call takes eleven steps and no more under any schedule, and as long as a
thread is in a call some thread can take a step. -/
theorem calls_return (hlabels : ∀ label ∈ labels, label.isPanic = false)
    (hrun : (printing asctime).run {} labels = some state) :
    (∀ t, labels.count (.step t) ≤ 11 * (state.callsOf t).length ∧
      (labels.count (.step t) = 11 * (state.callsOf t).length ↔ state.threads t = .idle)) ∧
      ((∃ t, state.threads t ≠ .idle) →
        ∃ t, ((printing asctime).step state (.step t)).isSome = true) := by
  have horderly := (orderly_throughout hlabels).last hrun
  constructor
  · intro t
    have hleft := State.left_run State.Orderly.initial hlabels hrun t
    have hinitial : 11 * ((({} : State).callsOf t).length) = 0 := rfl
    have hidle : (({} : State).threads t).left = 0 := rfl
    rw [← State.left_eq_zero_iff horderly.quiet]
    omega
  · rintro ⟨t, hbusy⟩
    exact horderly.exists_step hbusy

/-- Thread 1 waits while thread 0 prints, and reads the time after it. -/
def twoThreads : List Label :=
  [.call 0 (prError ['a']), .call 1 (prNotice ['b']), .time 1] ++ List.replicate 11 (.step 0) ++
    [.time 2] ++ List.replicate 10 (.step 1)

def twoStamps (time : ℤ) : List Char := if time = 1 then "one\n".toList else "two\n".toList

theorem lines_whole_twoThreads : ∃ state, (printing twoStamps).run {} twoThreads = some state ∧
    state.stdout = state.log.flatMap (Entry.render twoStamps) ++ state.unfinished ∧
      state.stdout = "[one] Error: a\n[two] b\n".toList ∧
      state.log.Pairwise fun first second ↦ first.time ≤ second.time := by
  have hlabels : ∀ label ∈ twoThreads, label.isPanic = false := by decide
  have hstdout : ((printing twoStamps).run {} twoThreads).map State.stdout =
      some "[one] Error: a\n[two] b\n".toList := by decide +kernel
  obtain ⟨state, hrun, hstate⟩ := Option.map_eq_some_iff.mp hstdout
  obtain ⟨hprinted, -, hsorted⟩ := lines_whole hlabels hrun
  refine ⟨state, hrun, hprinted, hstate, hsorted ?_⟩
  rw [Machine.everyStep_iff_steps]
  have hclock : ((printing twoStamps).steps {} twoThreads).all
      (fun taken ↦ decide (taken.1.clock ≤ taken.2.2.clock)) = true := by decide +kernel
  intro taken htaken
  exact of_decide_eq_true (List.all_eq_true.mp hclock taken htaken)

theorem calls_return_twoThreads : ∃ state, (printing twoStamps).run {} twoThreads = some state ∧
    state.threads 0 = .idle ∧
      ∃ t, ((printing twoStamps).step state (.step t)).isSome = true := by
  have hlabels : ∀ label ∈ twoThreads, label.isPanic = false := by decide
  have hthreads : ((printing twoStamps).run {} twoThreads).map
      (fun state ↦ ((state.callsOf 0).length, decide (state.threads 1 = .idle))) =
        some (1, false) := by decide +kernel
  obtain ⟨state, hrun, hstate⟩ := Option.map_eq_some_iff.mp hthreads
  simp only [Prod.mk.injEq, decide_eq_false_iff_not] at hstate
  obtain ⟨hpaced, hsteps⟩ := calls_return hlabels hrun
  refine ⟨state, hrun, (hpaced 0).2.mp ?_, hsteps ⟨1, hstate.2⟩⟩
  rw [hstate.1]
  decide

end Tgvisd.Printing
