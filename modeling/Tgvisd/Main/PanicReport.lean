import Tgvisd.Main.LogLines

/-!
# The panic report

A thread in `__panic` never waits: whoever holds the locks, its own steps print the whole report and
abort the program. If `print_lock` was free when it tried to take it, the report is also the last
thing printed, in one piece, whatever the threads that do not panic are doing.
-/

namespace Tgvisd.Printing

variable {asctime : ℤ → List Char} {state next : State} {t : ℕ} {report : List (List Char)}

/-- What a thread in `__panic` has still to print. -/
def PanicStage.rest : PanicStage → List (List Char)
  | .tryingPrint report | .tryingTime report => report
  | .reporting rest => rest

namespace State

/-! ## The panicking thread alone -/

theorem step_of_panicking {stage : PanicStage} (hrunning : state.aborted = false)
    (hthread : state.threads t = .panicking stage) :
    (printing asctime).step state (.step t) = some (state.panicStep t stage) := by
  simp [printing, State.step, hrunning, hthread]

/-- The steps of the thread alone end the program, and this is what has been printed then. -/
def Ends (asctime : ℤ → List Char) (t : ℕ) (stdout : List Char) (state : State) : Prop :=
  ∃ turns final, (printing asctime).run state (List.replicate turns (.step t)) = some final ∧
    final.aborted = true ∧ final.stdout = stdout

theorem Ends.of_panicStep {stage : PanicStage} {stdout : List Char}
    (hrunning : state.aborted = false) (hthread : state.threads t = .panicking stage)
    (h : (state.panicStep t stage).Ends asctime t stdout) : state.Ends asctime t stdout := by
  obtain ⟨turns, final, hrun, hfinal⟩ := h
  refine ⟨turns + 1, final, ?_, hfinal⟩
  rw [List.replicate_succ, Machine.run_cons, step_of_panicking hrunning hthread]
  exact hrun

theorem ends_of_reporting (hrunning : state.aborted = false)
    (hthread : state.threads t = .panicking (.reporting report)) :
    state.Ends asctime t (state.stdout ++ report.flatten) := by
  induction report generalizing state with
  | nil =>
    apply Ends.of_panicStep hrunning hthread
    exact ⟨0, _, rfl, rfl, (List.append_nil _).symm⟩
  | cons text rest ih =>
    apply Ends.of_panicStep hrunning hthread
    have hrest : state.stdout ++ (text :: rest).flatten =
        (state.panicStep t (.reporting (text :: rest))).stdout ++ rest.flatten := by
      simp [panicStep, setThread, print]
    rw [hrest]
    exact ih hrunning (by simp [panicStep, setThread])

theorem ends_of_tryingTime (hrunning : state.aborted = false)
    (hthread : state.threads t = .panicking (.tryingTime report)) :
    state.Ends asctime t (state.stdout ++ report.flatten) := by
  have hnext : (state.panicStep t (.tryingTime report)).threads t =
      .panicking (.reporting report) := by simp [panicStep, setThread]
  exact .of_panicStep hrunning hthread (ends_of_reporting hrunning hnext)

/-- Whoever holds the locks, the panicking thread ends the program. -/
theorem ends_of_panicking {stage : PanicStage} (hrunning : state.aborted = false)
    (hthread : state.threads t = .panicking stage) :
    state.Ends asctime t (state.stdout ++ stage.rest.flatten) := by
  cases stage with
  | tryingPrint report =>
    have hnext : (state.panicStep t (.tryingPrint report)).threads t =
        .panicking (.tryingTime report) := by simp [panicStep, setThread]
    exact .of_panicStep hrunning hthread (ends_of_tryingTime hrunning hnext)
  | tryingTime report => exact ends_of_tryingTime hrunning hthread
  | reporting rest => exact ends_of_reporting hrunning hthread

/-! ## The others -/

/-- The thread has `print_lock` and is the only one that panics. -/
structure Reporting (asctime : ℤ → List Char) (t : ℕ) (report : List (List Char))
    (before : List Char) (state : State) : Prop where
  sound : state.Sound asctime
  lock : state.printLock = some t
  alone : ∀ u ≠ t, ∀ stage, state.threads u ≠ .panicking stage
  printed : ∃ printed stage, state.threads t = .panicking stage ∧
    (∀ report, stage ≠ .tryingPrint report) ∧ report = printed ++ stage.rest ∧
      state.stdout = before ++ printed.flatten ∧ (state.aborted = true → stage.rest = [])

theorem Reporting.initial
    (hsound : (state.panicStep t (.tryingPrint report)).Sound asctime)
    (hrunning : state.aborted = false) (hfree : state.printLock = none)
    (halone : ∀ u ≠ t, ∀ stage, state.threads u ≠ .panicking stage) :
    (state.panicStep t (.tryingPrint report)).Reporting asctime t report state.stdout where
  sound := hsound
  lock := by simp [panicStep, setThread, tryLock, hfree]
  alone := by
    intro u hu stage
    simpa [panicStep, setThread, hu] using halone u hu stage
  printed := by
    refine ⟨[], .tryingTime report, by simp [panicStep, setThread], by simp, rfl, ?_, ?_⟩
    · simp [panicStep, setThread]
    · intro haborted
      simp [panicStep, setThread, hrunning] at haborted

/-- Another thread that prints a line waits for `print_lock`. -/
theorem Reporting.stuck {before : List Char} (h : state.Reporting asctime t report before)
    {u : ℕ} (hu : u ≠ t) : (printing asctime).step state (.step u) = none := by
  have hother := h.sound u
  cases haborted : state.aborted with
  | true => simp [printing, State.step, haborted]
  | false =>
    cases hthread : state.threads u with
    | idle => simp [printing, State.step, hthread]
    | panicking stage => exact absurd hthread (h.alone u hu stage)
    | printing line stage rawtime buf =>
      rw [hthread] at hother
      have hstage : stage = .locking := by
        by_contra hne
        have hlock : some t = some u := h.lock.symm.trans (hother.1.mp hne)
        exact hu (Option.some.inj hlock).symm
      simp [printing, State.step, hthread, hstage, lineStep, h.lock]

theorem Reporting.step {before : List Char} {label : Label}
    (h : state.Reporting asctime t report before) (hlabel : label.isPanic = false)
    (hstep : (printing asctime).step state label = some next) :
    next.Reporting asctime t report before := by
  have hsound := h.sound.step hstep
  obtain ⟨printed, stage, hthread, htried, hreport, hstdout, hend⟩ := h.printed
  have hrunning : state.aborted = false := by
    by_contra haborted
    simp [printing, State.step, haborted] at hstep
  cases label with
  | panic u file lineno text => simp [Label.isPanic] at hlabel
  | time now =>
    obtain rfl : { state with clock := now } = next := by
      simpa [printing, State.step, hrunning] using hstep
    exact ⟨hsound, h.lock, h.alone, printed, stage, hthread, htried, hreport, hstdout, hend⟩
  | call u line =>
    simp only [printing, State.step, hrunning, Bool.false_eq_true, if_false,
      Option.ite_none_right_eq_some, Option.some.injEq] at hstep
    obtain ⟨hidle, rfl⟩ := hstep
    have hut : t ≠ u := by
      rintro rfl
      simp [hthread] at hidle
    refine ⟨hsound, h.lock, ?_, printed, stage, by simp [setThread, hut, hthread], htried, hreport,
      hstdout, hend⟩
    intro v hv stage'
    by_cases hvu : v = u
    · simp [setThread, hvu]
    · simpa [setThread, hvu] using h.alone v hv stage'
  | step u =>
    by_cases hut : u = t
    · subst hut
      rw [step_of_panicking hrunning hthread] at hstep
      obtain rfl := Option.some.inj hstep
      have halone (thread : Thread) (v : ℕ) (hv : v ≠ u) (stage' : PanicStage) :
          Function.update state.threads u thread v ≠ .panicking stage' := by
        rw [Function.update_of_ne hv]
        exact h.alone v hv stage'
      cases stage with
      | tryingPrint report' => exact absurd rfl (htried report')
      | tryingTime report' =>
        exact ⟨hsound, h.lock, halone _, printed, .reporting report',
          by simp [panicStep, setThread], by simp, hreport, hstdout, hend⟩
      | reporting rest =>
        cases rest with
        | nil =>
          exact ⟨hsound, h.lock, h.alone, printed, .reporting [], hthread, by simp, hreport,
            hstdout, fun _ ↦ rfl⟩
        | cons text rest =>
          refine ⟨hsound, h.lock, halone _, printed ++ [text], .reporting rest,
            by simp [panicStep, setThread], by simp, by simpa [PanicStage.rest] using hreport,
            ?_, ?_⟩
          · simp [panicStep, setThread, print, hstdout]
          · intro haborted
            exact absurd haborted (by simp [panicStep, setThread, print, hrunning])
    · rw [h.stuck hut] at hstep
      cases hstep

end State

variable {labels rest : List Label}

theorem sound_of_run (hrun : (printing asctime).run {} labels = some state) :
    state.Sound asctime :=
  Machine.Reaches.invariant ⟨labels, hrun⟩ State.Sound.initial fun _ _ _ h hstep ↦ h.step hstep

/-- A panic that finds `print_lock` free, and no other panic: what is printed from then on is the
report and nothing else, however the threads are scheduled; the program does not end before the
report does; and as long as it has not ended, the steps of the panicking thread end it. -/
theorem report_whole (hrun : (printing asctime).run {} labels = some state)
    (hthread : state.threads t = .panicking (.tryingPrint report))
    (hfree : state.printLock = none)
    (halone : ∀ u ≠ t, ∀ stage, state.threads u ≠ .panicking stage)
    (hlabels : ∀ label ∈ rest, label.isPanic = false)
    (hrest : (printing asctime).run state (.step t :: rest) = some next) :
    (∃ printed, printed <+: report ∧ next.stdout = state.stdout ++ printed.flatten) ∧
      (next.aborted = true → next.stdout = state.stdout ++ report.flatten) ∧
      (next.aborted = false → next.Ends asctime t (state.stdout ++ report.flatten)) := by
  rw [Machine.run_cons, Option.bind_eq_some_iff] at hrest
  obtain ⟨tried, htried, hrest⟩ := hrest
  have hrunning : state.aborted = false := by
    by_contra haborted
    simp [printing, State.step, haborted] at htried
  have hsound := (sound_of_run hrun).step htried
  rw [State.step_of_panicking hrunning hthread] at htried
  obtain rfl := Option.some.inj htried
  have hstart := State.Reporting.initial hsound hrunning hfree halone
  have hall : (printing asctime).Throughout (State.Reporting asctime t report state.stdout)
      (state.panicStep t (.tryingPrint report)) rest :=
    .of_guarded hstart (fun _ _ _ h hlabel hstep ↦ h.step hlabel hstep)
      (Machine.everyStep_of_forall_mem hlabels)
  obtain ⟨printed, stage, hpanicking, -, hreport, hstdout, hend⟩ := (hall.last hrest).printed
  refine ⟨⟨printed, ⟨stage.rest, hreport.symm⟩, hstdout⟩, ?_, ?_⟩
  · intro haborted
    rw [hstdout, hreport, hend haborted, List.append_nil]
  · intro hnot
    have hends : next.Ends asctime t (next.stdout ++ stage.rest.flatten) :=
      State.ends_of_panicking hnot hpanicking
    rwa [hstdout, List.append_assoc, ← List.flatten_append, ← hreport] at hends

/-- Thread 1 asks for `print_lock` when thread 0 has it for its report. -/
def latePrint : List Label := .call 1 (prNotice ['b']) :: List.replicate 8 (.step 0)

theorem report_whole_latePrint : ∃ state next,
    (printing twoStamps).run {} [.panic 0 ['f'] 7 ['x']] = some state ∧
      (printing twoStamps).run state (.step 0 :: latePrint) = some next ∧
      next.stdout = (panicReport ['f'] 7 ['x']).flatten := by
  let report := panicReport ['f'] 7 ['x']
  let state : State := ({} : State).setThread 0 (.panicking (.tryingPrint report))
  have hrun : (printing twoStamps).run {} [.panic 0 ['f'] 7 ['x']] = some state := rfl
  have hends : ((printing twoStamps).run state (.step 0 :: latePrint)).map State.aborted =
      some true := by decide +kernel
  obtain ⟨next, hrest, haborted⟩ := Option.map_eq_some_iff.mp hends
  have halone (u : ℕ) (hu : u ≠ 0) (stage : PanicStage) :
      state.threads u ≠ .panicking stage := by
    simp [state, State.setThread, hu]
  have hthread : state.threads 0 = .panicking (.tryingPrint report) := rfl
  obtain ⟨-, hwhole, -⟩ := report_whole hrun hthread rfl halone (by decide) hrest
  exact ⟨state, next, hrun, hrest, hwhole haborted⟩

end Tgvisd.Printing
