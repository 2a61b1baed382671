import Tgvisd.Main.PoolSteps

/-!
# Closing the worker pool

`~Main` sets `stopUpdate_` and closes the workers one by one, while they may still be at work. All
goes well as long as `close` meets no worker that has yet to wake up for its update, and no worker
handles a command of `Shell` after `stopUpdate_`; each of the two ends in a failed assertion.
-/

namespace Tgvisd.WorkerPool

/-- No assertion has failed; an update that was sent to a worker has been handled by it or is
pending there; a pending update has a thread to handle it, or before the shutdown the dispatcher is
about to spawn one; and none is left when the pool is gone. -/
structure State.Served (state : State) : Prop where
  fault : state.fault = none
  accepted : ∀ delivery ∈ state.sent,
    delivery ∈ state.handled ∨ state.IsPending delivery.1 delivery.2
  attended : ∀ w, (state.workers w).hasUpdate = true → (state.workers w).thread.isOver = true →
    state.stopUpdate = false ∧ (state.main.view w).isReviving = true
  finished : state.main = .exited → state.sent ⊆ state.handled

theorem MainThread.isClosing_of_isReviving {main : MainThread} {w : ℕ}
    (h : (main.view w).isReviving = true) : main.isClosing = false := by
  cases main with
  | closing i => simp [view, View.isReviving] at h
  | joiningClosed v =>
    by_cases hw : w = v <;> simp [view, View.isReviving, hw] at h
  | unloading => simp [view, View.isReviving] at h
  | exited => simp [view, View.isReviving] at h
  | _ => rfl

namespace Sound

variable {sizes : Sizes} {state next : State}

theorem attended (h : Sound sizes state) {w : ℕ} (hupdate : (state.workers w).hasUpdate = true)
    (hover : (state.workers w).thread.isOver = true) :
    state.stopUpdate = false ∧ (state.main.view w).isReviving = true := by
  have hreviving := (h.fits w).pending hupdate hover
  exact ⟨h.controlled.stopUpdate.trans (MainThread.isClosing_of_isReviving hreviving), hreviving⟩

theorem served (h : Sound sizes state) : state.Served where
  fault := h.fault
  accepted delivery hdelivery := (h.accounted.sent delivery.1 delivery.2).mp hdelivery
  attended _ := h.attended
  finished hmain := by
    intro delivery hdelivery
    have hstop := h.controlled.stopUpdate
    rw [hmain] at hstop
    apply ((h.accounted.sent delivery.1 delivery.2).mp hdelivery).resolve_right
    intro hpending
    have habsent := h.controlled.absent delivery.1 (by simp [hmain, MainThread.living])
    have hrunning := (h.attended hpending.1 (by simp [habsent, Thread.isOver])).1
    simp [hrunning, MainThread.isClosing] at hstop

end Sound

/-! ## Against the guard -/

section

variable {sizes : Sizes} {state : State}

/-- A worker that leaves its loop with an update fails the assertion at the end of `runWorker`. -/
theorem State.exitLoop_of_hasUpdate {w : ℕ} (hupdate : (state.workers w).hasUpdate = true) :
    state.exitLoop w = .error .exitsWithoutUpdate := by
  simp [State.exitLoop, assertThat, hupdate, bind, Except.bind]

theorem pool_step_worker {w : ℕ} {outcome : Except Assertion State} (hfault : state.fault = none)
    (hstep : state.workerStep sizes w = some outcome) :
    (pool sizes).step state (.worker w) = some (state.settle outcome) := by
  simp [pool, State.step, hfault, State.attempt, hstep]

/-- The worker has an update, but will see the stop flag first. -/
structure Worker.Doomed (worker : Worker) : Prop where
  hasUpdate : worker.hasUpdate = true
  stopEventLoop : worker.stopEventLoop = true
  isOnline : worker.isOnline = true

theorem Worker.Doomed.workerStep_ready {w : ℕ} (h : (state.workers w).Doomed)
    (hthread : (state.workers w).thread = .ready) :
    state.workerStep sizes w = some (.error .exitsWithoutUpdate) := by
  simp [State.workerStep, hthread, State.enterLoop, State.exitLoop_of_hasUpdate h.hasUpdate,
    h.stopEventLoop, h.isOnline, assertThat, bind, Except.bind]

theorem Worker.Doomed.workerStep_waiting {w timeoutCounter : ℕ} (h : (state.workers w).Doomed)
    (hthread : (state.workers w).thread = .waiting timeoutCounter) :
    state.workerStep sizes w = some (.error .exitsWithoutUpdate) := by
  simp [State.workerStep, hthread, State.wake, State.exitLoop_of_hasUpdate h.hasUpdate,
    h.stopEventLoop, h.hasUpdate]

theorem Worker.Doomed.exists_fault {w : ℕ} (h : (state.workers w).Doomed)
    (hfault : state.fault = none)
    (hthread : (state.workers w).thread = .online ∨ (state.workers w).thread = .ready ∨
      ∃ timeoutCounter, (state.workers w).thread = .waiting timeoutCounter) :
    ∃ labels last, (pool sizes).run state labels = some last ∧ last.fault.isSome = true := by
  obtain hthread | hthread | ⟨timeoutCounter, hthread⟩ := hthread
  · let woken := state.setWorker w { state.workers w with thread := .ready }
    have honline : state.workerStep sizes w = some (.ok woken) := by
      simp [State.workerStep, hthread, woken]
    have hdoomed : (woken.workers w).Doomed := by
      constructor <;> simp [woken, h.hasUpdate, h.stopEventLoop, h.isOnline]
    have hready : woken.workerStep sizes w = some (.error .exitsWithoutUpdate) :=
      hdoomed.workerStep_ready (by simp [woken])
    refine ⟨[.worker w, .worker w], woken.settle (.error .exitsWithoutUpdate), ?_, rfl⟩
    simp [pool_step_worker hfault honline, State.settle,
      pool_step_worker (show woken.fault = none from hfault) hready]
  · refine ⟨[.worker w], state.settle (.error .exitsWithoutUpdate), ?_, rfl⟩
    simp [pool_step_worker hfault (h.workerStep_ready hthread)]
  · refine ⟨[.worker w], state.settle (.error .exitsWithoutUpdate), ?_, rfl⟩
    simp [pool_step_worker hfault (h.workerStep_waiting hthread)]

end

namespace Sound

variable {sizes : Sizes} {state next : State}

/-- A command of `Shell` handled after the shutdown began. -/
theorem fault_of_command {w : ℕ} (h : Sound sizes state)
    (hthread : (state.workers w).thread = .handling) (hstop : state.stopUpdate = true)
    (hcommand : (state.workers w).update.isShellCommand = true)
    (hstep : (pool sizes).step state (.worker w) = some next) : next.fault.isSome = true := by
  have hloaded : state.module_ = true := by
    rw [h.controlled.module_]
    cases hmain : state.main with
    | loading | exited =>
      have habsent := h.controlled.absent w (by simp [hmain, MainThread.living])
      simp [habsent] at hthread
    | _ => rfl
  have hfail : state.workerStep sizes w = some (.error .updatesRunning) := by
    simp [State.workerStep, hthread, State.handleUpdate, State.dispatchEnumerate, State.incRef,
      hcommand, hstop, hloaded, assertThat, bind, Except.bind]
  rw [pool_step_worker h.fault hfail, Option.some.injEq] at hstep
  exact hstep ▸ rfl

/-- The close of a worker that has yet to wake up for its update. -/
theorem exists_fault_of_close {w : ℕ} (h : Sound sizes state)
    (hmain : state.main = .closing (w + 1)) (hthread : (state.workers w).thread ≠ .absent)
    (hupdate : (state.workers w).hasUpdate = true)
    (hhandling : (state.workers w).thread ≠ .handling)
    (hstep : (pool sizes).step state .main = some next) :
    ∃ labels last, (pool sizes).run next labels = some last ∧ last.fault.isSome = true := by
  have hfits := h.fits w
  have hview : state.main.view w = .elsewhere := by simp [hmain, MainThread.view]
  have hover : (state.workers w).thread.isOver = false := by
    by_contra hover
    have hreviving := (h.attended hupdate (by simpa using hover)).2
    simp [hview, View.isReviving] at hreviving
  have hstarting : (state.workers w).thread.isStarting = false := by
    by_contra hstarting
    have hawaiting := hfits.starting (by simpa using hstarting)
    simp [hview, View.isAwaiting] at hawaiting
  have hnext : next = { state.setWorker w { state.workers w with stopEventLoop := true } with
      main := .joiningClosed w } := by
    simpa [pool, State.step, State.attempt, State.mainStep, State.closeStep, State.settle, h.fault,
      hmain, hthread, eq_comm] using hstep
  have hlate : (state.workers w).thread = .online ∨ (state.workers w).thread = .ready ∨
      ∃ timeoutCounter, (state.workers w).thread = .waiting timeoutCounter := by
    cases hplace : (state.workers w).thread with
    | putting => simp [hfits.putting hplace] at hupdate
    | handling => exact absurd hplace hhandling
    | _ => simp_all [Thread.isOver, Thread.isStarting]
  have honline : (state.workers w).isOnline = true := by
    rw [hfits.isOnline]
    obtain hplace | hplace | ⟨timeoutCounter, hplace⟩ := hlate <;> simp [hplace, Thread.isUp]
  have hdoomed : (next.workers w).Doomed := by
    constructor <;> simp [hnext, hupdate, honline]
  have hfault : next.fault = none := by
    rw [hnext]
    exact h.fault
  exact hdoomed.exists_fault hfault (by simpa [hnext] using hlate)

theorem exists_fault (h : Sound sizes state) {label : Label}
    (hagainst : state.respects label = false)
    (hstep : (pool sizes).step state label = some next) :
    ∃ labels last, (pool sizes).run next labels = some last ∧ last.fault.isSome = true := by
  cases label with
  | main =>
    cases hmain : state.main with
    | closing i =>
      cases i with
      | zero => simp [State.respects, hmain] at hagainst
      | succ w =>
        have hclose : ((state.workers w).thread ≠ .absent ∧ (state.workers w).hasUpdate = true) ∧
            (state.workers w).thread ≠ .handling := by
          simpa [State.respects, hmain] using hagainst
        exact h.exists_fault_of_close hmain hclose.1.1 hclose.1.2 hclose.2 hstep
    | _ => simp [State.respects, hmain] at hagainst
  | worker w =>
    have hcommand : ((state.workers w).thread = .handling ∧ state.stopUpdate = true) ∧
        (state.workers w).update.isShellCommand = true := by
      simpa [State.respects] using hagainst
    exact ⟨[], next, rfl, h.fault_of_command hcommand.1.1 hcommand.1.2 hcommand.2 hstep⟩
  | _ => simp [State.respects] at hagainst

end Sound

/-- The guard is exact, for every number of processors: a run whose steps all meet it serves every
update that was sent, up to the end of the pool; and where such a run goes on with a step against
it, an assertion can fail. -/
theorem served_exactly (hardware_concurrency : ℕ) :
    (∀ labels, (pool (.ofHardware hardware_concurrency)).EveryStep
        (fun state label _ ↦ state.respects label = true) initial labels →
      (pool (.ofHardware hardware_concurrency)).Throughout State.Served initial labels) ∧
    (∀ labels state label next, (pool (.ofHardware hardware_concurrency)).EveryStep
        (fun state label _ ↦ state.respects label = true) initial labels →
      (pool (.ofHardware hardware_concurrency)).run initial labels = some state →
      state.respects label = false →
      (pool (.ofHardware hardware_concurrency)).step state label = some next →
        ∃ more last, (pool (.ofHardware hardware_concurrency)).run next more = some last ∧
          last.fault.isSome = true) := by
  have hsound (labels : List Label) (hguard : (pool (.ofHardware hardware_concurrency)).EveryStep
      (fun state label _ ↦ state.respects label = true) initial labels) :
      (pool (.ofHardware hardware_concurrency)).Throughout
        (Sound (.ofHardware hardware_concurrency)) initial labels :=
    Machine.Throughout.of_guarded (sound_initial _) (fun _ _ _ h hmeets hstep ↦ h.step hmeets hstep)
      hguard
  constructor
  · intro labels hguard
    exact (hsound labels hguard).mono fun _ h ↦ h.served
  · intro labels state label next hguard hrun hagainst hstep
    exact ((hsound labels hguard).last hrun).exists_fault hagainst hstep

/-- With one processor: a worker is asleep when its update is sent, and `~Main` closes it before it
wakes up; or it wakes up in time, and the update is a command of `Shell`. -/
theorem not_served_closedEarly :
    ¬ (pool (.ofHardware 1)).Throughout State.Served initial
      ([.main, .main, .main, .main, .main, .worker 0, .worker 0, .worker 0, .main, .worker 0] ++
        List.replicate 203 .main ++ [.arrive (some (.text ['h', 'i'])), .main, .main, .main, .main,
          .shutdown] ++ List.replicate 100 .main ++ [.worker 0]) ∧
    ¬ (pool (.ofHardware 1)).Throughout State.Served initial
      ([.main, .main, .main, .main, .main, .worker 0, .worker 0, .worker 0, .main, .worker 0] ++
        List.replicate 203 .main ++ [.arrive (some (.text ['/', 's', 'h', ' ', 'l', 's'])), .main,
          .main, .main, .main, .shutdown, .worker 0, .worker 0]) := by
  have hfails {labels : List Label}
      (hrun : (((pool (.ofHardware 1)).run initial labels).any (·.fault.isSome)) = true) :
      ¬ (pool (.ofHardware 1)).Throughout State.Served initial labels := by
    intro hserved
    cases hlast : (pool (.ofHardware 1)).run initial labels with
    | none => simp [hlast] at hrun
    | some last => simp [hlast, (hserved.last hlast).fault] at hrun
  exact ⟨hfails (by decide +kernel), hfails (by decide +kernel)⟩

end Tgvisd.WorkerPool
