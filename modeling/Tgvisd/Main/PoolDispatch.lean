import Tgvisd.Lib.Basic
import Tgvisd.Lib.Fairness
import Tgvisd.Main.PoolSteps

/-!
# Dispatching updates

Before the destructor begins, no assertion fails, every index of the pool is in one place, and
under weak fairness of the threads an update for which a worker was taken is handled exactly
once. A rank counts how far its worker is from handling it; the thread that is to move next is
the dispatcher's as long as it holds the worker or has to give it a new thread, and otherwise the
worker's own.
-/

namespace Tgvisd.WorkerPool

/-! ## What a step leaves as it is -/

theorem assertThat_eq_ok {assertion : Assertion} {condition : Bool} {result : Unit} :
    assertThat assertion condition = .ok result ↔ condition = true := by
  cases condition <;> simp [assertThat]

/-- A worker's thread changes its worker and the stacks, and adds to what was handled. -/
structure State.Turns (w : ℕ) (before after : State) : Prop where
  workers : ∀ v, v ≠ w → after.workers v = before.workers v
  main : after.main = before.main
  stopUpdate : after.stopUpdate = before.stopUpdate
  sent : after.sent = before.sent
  handled : before.handled ⊆ after.handled

namespace State

variable {sizes : Sizes} {state next : State} {w : ℕ}

theorem turns_setWorker (state : State) (w : ℕ) (worker : Worker) :
    state.Turns w (state.setWorker w worker) where
  workers v hv := by simp [hv]
  main := rfl
  stopUpdate := rfl
  sent := rfl
  handled := List.Subset.refl _

theorem turns_exitLoop (h : state.exitLoop w = .ok next) : state.Turns w next := by
  simp only [exitLoop, bind_eq_ok, pure_eq_ok, assertThat_eq_ok] at h
  obtain ⟨-, -, -, -, rfl⟩ := h
  exact turns_setWorker ..

theorem turns_enterLoop (h : state.enterLoop w = .ok next) : state.Turns w next := by
  simp only [enterLoop] at h
  split_ifs at h
  · exact turns_exitLoop h
  · exact pure_eq_ok.mp h ▸ turns_setWorker ..
  · exact pure_eq_ok.mp h ▸ turns_setWorker ..

theorem turns_wake (h : state.wake w = .ok next) : state.Turns w next := by
  simp only [wake] at h
  split_ifs at h
  · exact turns_exitLoop h
  · simp only [bind_eq_ok, pure_eq_ok] at h
    obtain ⟨-, -, rfl⟩ := h
    exact turns_setWorker ..

theorem turns_handleUpdate (h : state.handleUpdate w = .ok next) : state.Turns w next := by
  simp only [handleUpdate, bind_eq_ok, pure_eq_ok] at h
  obtain ⟨-, -, -, -, -, -, rfl⟩ := h
  exact { turns_setWorker state w _ with handled := List.subset_append_left _ _ }

theorem turns_putBack (h : state.putBack sizes w = .ok next) : state.Turns w next := by
  simp only [putBack] at h
  split_ifs at h
  · obtain ⟨middle, hput, henter⟩ := bind_eq_ok.mp h
    simp only [putPrimaryWorker, bind_eq_ok, pure_eq_ok] at hput
    obtain ⟨-, -, -, -, -, -, rfl⟩ := hput
    have hturns := turns_enterLoop henter
    exact ⟨hturns.workers, hturns.main, hturns.stopUpdate, hturns.sent, hturns.handled⟩
  · obtain ⟨middle, hput, henter⟩ := bind_eq_ok.mp h
    simp only [putExtraWorker, bind_eq_ok, pure_eq_ok] at hput
    obtain ⟨-, -, -, -, -, -, rfl⟩ := hput
    have hturns := turns_enterLoop henter
    exact ⟨hturns.workers, hturns.main, hturns.stopUpdate, hturns.sent, hturns.handled⟩

theorem turns_workerStep (h : state.workerStep sizes w = some (.ok next)) :
    state.Turns w next := by
  unfold workerStep at h
  cases hthread : (state.workers w).thread <;>
    simp only [hthread, Option.some.injEq, Option.ite_none_right_eq_some, reduceCtorEq,
      Except.ok.injEq] at h
  case created => exact h ▸ turns_setWorker ..
  case started => exact h ▸ turns_setWorker ..
  case online => exact h ▸ turns_setWorker ..
  case ready =>
    obtain ⟨-, -, henter⟩ := bind_eq_ok.mp h
    exact turns_enterLoop henter
  case waiting => exact turns_wake h.2
  case handling => exact turns_handleUpdate h
  case putting => exact turns_putBack h
  case leaving =>
    simp only [bind_eq_ok, pure_eq_ok] at h
    obtain ⟨-, -, -, -, rfl⟩ := h
    exact turns_setWorker ..

theorem turns_timeoutStep (h : state.timeoutStep sizes w = some (.ok next)) :
    state.Turns w next := by
  unfold timeoutStep at h
  cases hthread : (state.workers w).thread with
  | waiting timeoutCounter =>
    simp only [hthread, Option.ite_none_left_eq_some] at h
    obtain ⟨-, h⟩ := h
    split_ifs at h
    · rw [Option.some.injEq, Except.ok.injEq] at h
      exact h ▸ ⟨fun _ _ ↦ rfl, rfl, rfl, rfl, List.Subset.refl _⟩
    · rw [Option.some.injEq, Except.ok.injEq] at h
      exact h ▸ turns_setWorker ..
    · have hturns := turns_exitLoop (Option.some.inj h)
      exact ⟨fun v hv ↦ (hturns.workers v hv).trans (by simp [hv]), hturns.main,
        hturns.stopUpdate, hturns.sent, hturns.handled⟩
  | _ => simp [hthread] at h

end State

/-- The main thread only changes workers that it has turned to, and only takes idle ones. -/
structure State.Advances (before after : State) : Prop where
  workers : ∀ v, after.workers v = before.workers v ∨ before.main.holds v = true ∨
    (∃ site, before.main.view v = .spawning site .joining ∨
      before.main.view v = .spawning site .creating) ∨ before.main.isClosing = true
  holds : ∀ v, after.main.holds v = true → before.main.holds v = true ∨
    v ∈ before.primaryWorkerStack ∨ v ∈ before.extraWorkerStack
  stopUpdate : after.stopUpdate = before.stopUpdate
  sent : before.sent ⊆ after.sent
  handled : after.handled = before.handled

namespace State

variable {sizes : Sizes} {state next : State} {w : ℕ}

theorem advances_setMain {main : MainThread} (hholds : ∀ v, main.holds v = true →
    state.main.holds v = true ∨ v ∈ state.primaryWorkerStack ∨ v ∈ state.extraWorkerStack)
    {constructed gModuleRefCount : ℕ} {primaryWorkerStack extraWorkerStack : List ℕ}
    {gModule module_ : Bool} :
    state.Advances { state with
      main, constructed, gModuleRefCount, gModule, module_, primaryWorkerStack,
      extraWorkerStack } :=
  ⟨fun _ ↦ .inl rfl, hholds, rfl, List.Subset.refl _, rfl⟩

theorem advances_spawnStep {site : SpawnSite} {stage : SpawnStage}
    (hmain : state.main = .spawning site w stage)
    (h : state.spawnStep site w stage = some (.ok next)) : state.Advances next := by
  have hother {worker : Worker} {main : MainThread} (hholds : ∀ v, main.holds v = false)
      (hstage : stage = .joining ∨ stage = .creating) :
      state.Advances { state.setWorker w worker with main } := by
    refine ⟨fun v ↦ ?_, fun v hv ↦ ?_, rfl, List.Subset.refl _, rfl⟩
    · by_cases hv : v = w
      · subst hv
        refine .inr (.inr (.inl ⟨site, ?_⟩))
        rw [hmain, MainThread.view_spawning_self]
        rcases hstage with rfl | rfl
        · exact .inl rfl
        · exact .inr rfl
      · exact .inl (by simp [hv])
    · simp [hholds v] at hv
  have hafter (v : ℕ) : (site.after w).holds v = false := by cases site <;> rfl
  cases stage with
  | checking =>
    simp only [spawnStep, Option.some.injEq, bind_eq_ok] at h
    obtain ⟨-, -, h⟩ := h
    split_ifs at h
    · exact pure_eq_ok.mp h ▸ advances_setMain (by simp [hafter])
    · exact pure_eq_ok.mp h ▸ advances_setMain (by simp [MainThread.holds])
  | reaping =>
    simp only [spawnStep] at h
    split_ifs at h
    · rw [Option.some.injEq, Except.ok.injEq] at h
      exact h ▸ advances_setMain (by simp [MainThread.holds])
    · simp only [Option.some.injEq, bind_eq_ok, pure_eq_ok] at h
      obtain ⟨-, -, rfl⟩ := h
      exact advances_setMain (by simp [MainThread.holds])
  | joining =>
    simp only [spawnStep, Option.ite_none_right_eq_some, Option.some.injEq, Except.ok.injEq] at h
    exact h.2 ▸ hother (fun _ ↦ rfl) (.inl rfl)
  | creating =>
    simp only [spawnStep, Option.some.injEq, bind_eq_ok, pure_eq_ok] at h
    obtain ⟨-, -, rfl⟩ := h
    exact hother (fun _ ↦ rfl) (.inr rfl)
  | awaiting =>
    simp only [spawnStep, Option.ite_none_right_eq_some, Option.some.injEq, Except.ok.injEq] at h
    exact h.2 ▸ advances_setMain (by simp [hafter])

/-- `gModule`, its counter and `module_` are what it changes. -/
theorem advances_toggleGlobalModule {sw : Bool} {toggled : State} {main : MainThread}
    (hholds : ∀ v, main.holds v = false) (h : state.toggleGlobalModule sw = .ok toggled) :
    state.Advances { toggled with main } := by
  unfold toggleGlobalModule at h
  split_ifs at h <;> simp only [bind_eq_ok, pure_eq_ok] at h
  · obtain ⟨-, -, rfl⟩ := h
    exact advances_setMain (by simp [hholds])
  · obtain ⟨-, -, rfl⟩ := h
    exact advances_setMain (by simp [hholds])
  · obtain ⟨-, -, rfl⟩ := h
    exact advances_setMain (by simp [hholds])

theorem advances_constructStep (sizes : Sizes) (state : State) (i : ℕ) :
    state.Advances (state.constructStep sizes i) := by
  unfold constructStep
  split_ifs
  · exact advances_setMain (by simp [MainThread.holds])
  · exact advances_setMain (by simp [MainThread.holds])
  · exact advances_setMain (by simp [MainThread.holds])

theorem advances_fillPrimaryStep {i : ℕ} (h : state.fillPrimaryStep sizes i = .ok next) :
    state.Advances next := by
  cases i with
  | zero => exact pure_eq_ok.mp h ▸ advances_setMain (by simp [MainThread.holds])
  | succ i =>
    simp only [fillPrimaryStep, putPrimaryWorker, bind_eq_ok, pure_eq_ok] at h
    obtain ⟨-, -, -, ⟨-, -, -, -, -, -, rfl⟩, rfl⟩ := h
    exact advances_setMain (by simp [MainThread.holds])

theorem advances_fillExtraStep {i : ℕ} (h : state.fillExtraStep sizes i = .ok next) :
    state.Advances next := by
  unfold fillExtraStep at h
  split_ifs at h
  · simp only [putExtraWorker, bind_eq_ok, pure_eq_ok] at h
    obtain ⟨-, -, -, ⟨-, -, -, -, -, -, rfl⟩, rfl⟩ := h
    exact advances_setMain (by simp [MainThread.holds])
  · exact pure_eq_ok.mp h ▸ advances_setMain (by simp [MainThread.holds])

/-- The worker that is taken was on the stack. -/
theorem advances_getPrimaryWorker {taken : State} {update : Update}
    (h : state.getPrimaryWorker = some (w, taken)) :
    state.Advances { taken with main := .asserting update w } := by
  unfold getPrimaryWorker at h
  cases hstack : state.primaryWorkerStack with
  | nil => simp [hstack] at h
  | cons top rest =>
    rw [hstack, Option.some.injEq, Prod.mk.injEq] at h
    obtain ⟨rfl, rfl⟩ := h
    exact advances_setMain (by simp [MainThread.holds, hstack])

theorem advances_getExtraWorker {taken : State} {update : Update}
    (h : state.getExtraWorker = some (w, taken)) :
    state.Advances { taken with main := .asserting update w } := by
  unfold getExtraWorker at h
  cases hstack : state.extraWorkerStack with
  | nil => simp [hstack] at h
  | cons top rest =>
    rw [hstack, Option.some.injEq, Prod.mk.injEq] at h
    obtain ⟨rfl, rfl⟩ := h
    exact advances_setMain (by simp [MainThread.holds, hstack])

theorem advances_assertStep {update : Update} (hmain : state.main = .asserting update w)
    (h : state.assertStep update w = .ok next) : state.Advances next := by
  simp only [assertStep, bind_eq_ok, pure_eq_ok] at h
  obtain ⟨-, -, -, -, rfl⟩ := h
  exact advances_setMain (by simp [hmain, MainThread.holds])

theorem advances_sendUpdate {update : Update} (hmain : state.main = .sending update w) :
    state.Advances (state.sendUpdate update w) := by
  refine ⟨fun v ↦ ?_, by simp [MainThread.holds, sendUpdate], rfl, List.subset_append_left _ _,
    rfl⟩
  by_cases hv : v = w
  · exact .inr (.inl (by simp [hmain, MainThread.holds, hv]))
  · exact .inl (by simp [sendUpdate, hv])

/-- In the destructor any worker may change. -/
theorem advances_of_isClosing {main : MainThread} {worker : Worker}
    (hclosing : state.main.isClosing = true) (hholds : ∀ v, main.holds v = false) :
    state.Advances { state.setWorker w worker with main } :=
  ⟨fun _ ↦ .inr (.inr (.inr hclosing)), by simp [hholds], rfl, List.Subset.refl _, rfl⟩

theorem advances_closeStep {i : ℕ} (hmain : state.main = .closing i) :
    state.Advances (state.closeStep i) := by
  have hclosing : state.main.isClosing = true := by simp [hmain, MainThread.isClosing]
  cases i with
  | zero => exact advances_setMain (by simp [MainThread.holds])
  | succ w =>
    simp only [closeStep]
    split_ifs
    · exact advances_setMain (by simp [MainThread.holds])
    · exact advances_of_isClosing hclosing fun _ ↦ rfl

theorem advances_mainStep (h : state.mainStep sizes = some (.ok next)) : state.Advances next := by
  cases hmain : state.main with
  | spawning site w stage =>
    simp only [mainStep, hmain] at h
    exact advances_spawnStep hmain h
  | loading =>
    simp only [mainStep, hmain, Option.some.injEq, bind_eq_ok, pure_eq_ok] at h
    obtain ⟨toggled, htoggled, rfl⟩ := h
    exact advances_toggleGlobalModule (fun _ ↦ rfl) htoggled
  | constructing i =>
    simp only [mainStep, hmain, Option.some.injEq, Except.ok.injEq] at h
    exact h ▸ advances_constructStep sizes state i
  | fillingPrimary i =>
    simp only [mainStep, hmain, Option.some.injEq] at h
    exact advances_fillPrimaryStep h
  | fillingExtra i =>
    simp only [mainStep, hmain, Option.some.injEq] at h
    exact advances_fillExtraStep h
  | counting =>
    simp only [mainStep, hmain, Option.some.injEq, bind_eq_ok, pure_eq_ok] at h
    obtain ⟨-, -, -, -, rfl⟩ := h
    exact advances_setMain (by simp [MainThread.holds])
  | idle => simp [mainStep, hmain] at h
  | takingPrimary update =>
    simp only [mainStep, hmain] at h
    split at h <;> rw [Option.some.injEq, Except.ok.injEq] at h <;> subst h
    · next htaken => exact advances_getPrimaryWorker htaken
    · exact advances_setMain (by simp [MainThread.holds])
  | takingExtra update =>
    simp only [mainStep, hmain] at h
    split at h <;> rw [Option.some.injEq, Except.ok.injEq] at h <;> subst h
    · next htaken => exact advances_getExtraWorker htaken
    · exact advances_setMain (by simp [MainThread.holds])
  | asserting update w =>
    simp only [mainStep, hmain, Option.some.injEq] at h
    exact advances_assertStep hmain h
  | sending update w =>
    simp only [mainStep, hmain, Option.ite_none_left_eq_some, Option.some.injEq,
      Except.ok.injEq] at h
    exact h.2 ▸ advances_sendUpdate hmain
  | testing w =>
    simp only [mainStep, hmain] at h
    split_ifs at h <;> rw [Option.some.injEq, Except.ok.injEq] at h <;> subst h
    · exact advances_setMain (by simp [MainThread.holds])
    · exact advances_setMain (by simp [MainThread.holds])
  | closing i =>
    simp only [mainStep, hmain, Option.some.injEq, Except.ok.injEq] at h
    exact h ▸ advances_closeStep hmain
  | joiningClosed w =>
    simp only [mainStep, hmain, Option.ite_none_right_eq_some, Option.some.injEq,
      Except.ok.injEq] at h
    have hclosing : state.main.isClosing = true := by simp [hmain, MainThread.isClosing]
    exact h.2 ▸ advances_of_isClosing hclosing fun _ ↦ rfl
  | unloading =>
    simp only [mainStep, hmain, Option.some.injEq, bind_eq_ok, pure_eq_ok] at h
    obtain ⟨-, -, toggled, htoggled, rfl⟩ := h
    exact advances_toggleGlobalModule (fun _ ↦ rfl) htoggled
  | exited => simp [mainStep, hmain] at h

end State

/-! ## How far an update is from being handled -/

def SpawnStage.distance : SpawnStage → ℕ
  | .checking => 4
  | .reaping => 3
  | .joining => 2
  | .creating => 1
  | .awaiting => 0

def View.distance : View → ℕ
  | .testing => 5
  | .spawning _ stage => stage.distance
  | _ => 0

/-- For a pending update: a thread on its way to it, or one that has to be replaced first. -/
def Thread.distance (view : View) : Thread → ℕ
  | .putting => 0
  | .handling => 1
  | .waiting _ => 2
  | .ready => 3
  | .online => 4
  | .started => 5
  | .created => 6
  | .absent | .finished => 7 + 2 * view.distance
  | .leaving => 8 + 2 * view.distance

def MainThread.distance : MainThread → ℕ
  | .asserting _ _ => 20
  | _ => 19

namespace State

/-- The number of steps of the helper to the handling of worker `w`'s update, at most. -/
def distance (state : State) (w : ℕ) : ℕ :=
  if state.main.holds w then
    state.main.distance
  else
    (state.workers w).thread.distance (state.main.view w)

/-- The thread that brings worker `w`'s update nearer to being handled. -/
def helper (state : State) (w : ℕ) : Agent :=
  if state.main.holds w then
    .main
  else
    match (state.workers w).thread with
    | .absent | .finished => .main
    | _ => .worker w

/-- The update was sent to the worker, or the dispatcher is about to send it. -/
def HasTaken (state : State) (update : Update) (w : ℕ) : Prop :=
  state.main = .asserting update w ∨ state.main = .sending update w ∨ (w, update) ∈ state.sent

/-- A worker was taken for the update and has not handled it. -/
structure Owes (sizes : Sizes) (update : Update) (w : ℕ) (state : State) : Prop where
  sound : Sound sizes state
  isOpen : state.stopUpdate = false
  taken : state.HasTaken update w
  unhandled : (w, update) ∉ state.handled

end State

namespace State.Owes

variable {sizes : Sizes} {state : State} {update : Update} {w : ℕ}

theorem isClosing (h : state.Owes sizes update w) : state.main.isClosing = false :=
  h.sound.controlled.stopUpdate.symm.trans h.isOpen

theorem pending (h : state.Owes sizes update w) (hholds : state.main.holds w = false) :
    state.IsPending w update := by
  rcases h.taken with hmain | hmain | hsent
  · simp [hmain, MainThread.holds] at hholds
  · simp [hmain, MainThread.holds] at hholds
  · rcases (h.sound.accounted.sent w update).mp hsent with hhandled | hpending
    · exact absurd hhandled h.unhandled
    · exact hpending

end State.Owes

theorem MainThread.cases_of_isReviving {main : MainThread} {w : ℕ}
    (h : (main.view w).isReviving = true) : main = .testing w ∨
      ∃ stage, main = .spawning .dispatch w stage ∧ stage ≠ .awaiting := by
  cases main with
  | testing v =>
    by_cases hv : w = v
    · exact .inl (by rw [hv])
    · simp [MainThread.view, hv, View.isReviving] at h
  | spawning site v stage =>
    by_cases hv : w = v
    · subst hv
      cases site with
      | setup => simp [View.isReviving] at h
      | dispatch => exact .inr ⟨stage, rfl, by simpa [View.isReviving] using h⟩
    · simp [MainThread.view, hv, View.isReviving] at h
  | joiningClosed v =>
    by_cases hv : w = v
    · simp [MainThread.view, hv, View.isReviving] at h
    · simp [MainThread.view, hv, View.isReviving] at h
  | _ => simp [MainThread.view, View.isReviving] at h

namespace State.Owes

variable {sizes : Sizes} {state : State} {update : Update} {w : ℕ}

/-- The main thread can go on giving a worker a new thread once the old one has ended. -/
theorem mainStep_isSome (h : state.Owes sizes update w)
    (hthread : (state.workers w).thread = .absent ∨ (state.workers w).thread = .finished)
    (hreviving : (state.main.view w).isReviving = true) :
    (state.mainStep sizes).isSome = true := by
  rcases MainThread.cases_of_isReviving hreviving with hmain | ⟨stage, hmain, hstage⟩
  · simp only [State.mainStep, hmain]
    split_ifs
    · rfl
    · rfl
  · have hpermits := (h.sound.fits w).spawning .dispatch stage (by simp [hmain])
    cases stage with
    | checking => simp [State.mainStep, hmain, State.spawnStep]
    | reaping =>
      simp only [State.mainStep, hmain, State.spawnStep]
      split_ifs
      · rfl
      · rfl
    | joining =>
      have hfinished : (state.workers w).thread = .finished := by
        rcases hthread with hthread | hthread
        · simp [SpawnStage.permits, hthread] at hpermits
        · exact hthread
      simp [State.mainStep, hmain, State.spawnStep, hfinished]
    | creating => simp [State.mainStep, hmain, State.spawnStep]
    | awaiting => exact absurd rfl hstage

theorem enabled_of_isSome (h : state.Owes sizes update w) {label : Label} {agent : Agent}
    (hagent : label.agent = some agent) (hattempt : (state.attempt sizes label).isSome = true) :
    (pool sizes).Enabled Label.agent agent state := by
  obtain ⟨outcome, houtcome⟩ := Option.isSome_iff_exists.mp hattempt
  refine ⟨label, state.settle outcome, hagent, ?_⟩
  simp [pool, State.step, h.sound.fault, houtcome]

theorem enabled (h : state.Owes sizes update w) :
    (pool sizes).Enabled Label.agent (state.helper w) state := by
  have hmain {agent : Agent} (hagent : agent = .main)
      (hstep : (state.mainStep sizes).isSome = true) :
      (pool sizes).Enabled Label.agent agent state :=
    h.enabled_of_isSome (hagent ▸ rfl : Label.agent .main = some agent) hstep
  cases hholds : state.main.holds w with
  | true =>
    have hbusy := h.sound.isBusy_of_holds hholds
    apply hmain (by simp [State.helper, hholds])
    cases hcase : state.main with
    | asserting other v => simp [State.mainStep, hcase]
    | sending other v =>
      obtain rfl : w = v := by simpa [hcase, MainThread.holds, eq_comm] using hholds
      have hmutex : (state.workers w).thread.holdsMutex = false := by
        have hhandling := (h.sound.fits w).handling
        cases hthread : (state.workers w).thread <;>
          simp_all [Worker.isBusy, Thread.holdsMutex]
      simp [State.mainStep, hcase, hmutex]
    | _ => simp [hcase, MainThread.holds] at hholds
  | false =>
    have hupdate := (h.pending hholds).1
    have hreviving := (h.sound.fits w).pending hupdate
    have hworker (hstep : (state.workerStep sizes w).isSome = true) :
        (pool sizes).Enabled Label.agent (.worker w) state :=
      h.enabled_of_isSome (rfl : Label.agent (.worker w) = _) hstep
    simp only [State.helper, hholds]
    cases hthread : (state.workers w).thread with
    | absent =>
      exact hmain rfl (h.mainStep_isSome (.inl hthread)
        (hreviving (by simp [hthread, Thread.isOver])))
    | finished =>
      exact hmain rfl (h.mainStep_isSome (.inr hthread)
        (hreviving (by simp [hthread, Thread.isOver])))
    | _ => exact hworker (by simp [State.workerStep, hthread, hupdate])

/-! ## Every step brings it nearer or leaves it alone -/

theorem running (h : state.Owes sizes update w)
    (hup : (state.workers w).thread.isUp = true) : (state.workers w).stopEventLoop = false := by
  apply (h.sound.fits w).running (.inl hup)
  have hclosing := h.isClosing
  cases hmain : state.main with
  | testing v =>
    simp only [MainThread.view]
    split_ifs <;> simp
  | spawning site v stage =>
    simp only [MainThread.view]
    split_ifs <;> simp
  | joiningClosed v => simp [hmain, MainThread.isClosing] at hclosing
  | _ => simp [MainThread.view]

/-- The worker's own step. -/
theorem distance_workerStep (h : state.Owes sizes update w) {next : State}
    (hstep : state.workerStep sizes w = some (.ok next)) (hholds : state.main.holds w = false)
    (hunhandled : (w, update) ∉ next.handled) : next.distance w < state.distance w := by
  have hturns := State.turns_workerStep hstep
  obtain ⟨hupdate, hsame⟩ := h.pending hholds
  have hrunning := h.running
  have hview : next.main.view w = state.main.view w := by rw [hturns.main]
  simp only [State.distance, hturns.main, hholds]
  unfold State.workerStep at hstep
  cases hthread : (state.workers w).thread with
  | absent => simp [hthread] at hstep
  | finished => simp [hthread] at hstep
  | created =>
    simp only [hthread, Option.some.injEq, Except.ok.injEq] at hstep
    simp [← hstep, Thread.distance]
  | started =>
    simp only [hthread, Option.some.injEq, Except.ok.injEq] at hstep
    simp [← hstep, Thread.distance]
  | online =>
    simp only [hthread, Option.some.injEq, Except.ok.injEq] at hstep
    simp [← hstep, Thread.distance]
  | ready =>
    have hstop := hrunning (by simp [hthread, Thread.isUp])
    simp only [hthread, Option.some.injEq, bind_eq_ok] at hstep
    obtain ⟨-, -, henter⟩ := hstep
    simp only [State.enterLoop, hstop, hupdate, Bool.false_eq_true, if_false, if_true,
      pure_eq_ok] at henter
    simp [← henter, Thread.distance]
  | waiting timeoutCounter =>
    have hstop := hrunning (by simp [hthread, Thread.isUp])
    simp only [hthread, Option.ite_none_right_eq_some, Option.some.injEq] at hstep
    obtain ⟨-, hwake⟩ := hstep
    simp only [State.wake, hstop, Bool.false_eq_true, if_false, bind_eq_ok, pure_eq_ok] at hwake
    obtain ⟨-, -, rfl⟩ := hwake
    simp [Thread.distance]
  | handling =>
    simp only [hthread, Option.some.injEq, State.handleUpdate, bind_eq_ok, pure_eq_ok] at hstep
    obtain ⟨-, -, -, -, -, -, rfl⟩ := hstep
    simp [hsame] at hunhandled
  | putting => simp [(h.sound.fits w).putting hthread] at hupdate
  | leaving =>
    simp only [hthread, Option.some.injEq, bind_eq_ok, pure_eq_ok] at hstep
    obtain ⟨-, -, -, -, rfl⟩ := hstep
    simp [Thread.distance]

theorem distance_le (state : State) (w : ℕ) (hmain : state.main = .testing w) :
    state.distance w ≤ 18 := by
  simp only [State.distance, hmain, MainThread.holds, MainThread.view_testing_self]
  cases (state.workers w).thread <;> simp [Thread.distance, View.distance]

/-- The dispatcher goes on with the worker that it holds. -/
theorem distance_sends {next : State}
    (hstep : state.mainStep sizes = some (.ok next)) (hholds : state.main.holds w = true) :
    next.distance w < state.distance w := by
  cases hmain : state.main with
  | asserting other v =>
    obtain rfl : w = v := by simpa [hmain, MainThread.holds, eq_comm] using hholds
    simp only [State.mainStep, hmain, Option.some.injEq, State.assertStep, bind_eq_ok,
      pure_eq_ok] at hstep
    obtain ⟨-, -, -, -, rfl⟩ := hstep
    simp [State.distance, hmain, MainThread.holds, MainThread.distance]
  | sending other v =>
    obtain rfl : w = v := by simpa [hmain, MainThread.holds, eq_comm] using hholds
    simp only [State.mainStep, hmain, Option.ite_none_left_eq_some, Option.some.injEq,
      Except.ok.injEq] at hstep
    obtain ⟨-, rfl⟩ := hstep
    have hle := distance_le (state.sendUpdate other w) w rfl
    have hbefore : state.distance w = 19 := by
      simp [State.distance, hmain, MainThread.holds, MainThread.distance]
    omega
  | _ => simp [hmain, MainThread.holds] at hholds

/-- The main thread goes on giving the worker a new thread. -/
theorem distance_revives (h : state.Owes sizes update w) {next : State}
    (hstep : state.mainStep sizes = some (.ok next))
    (hover : (state.workers w).thread.isOver = true)
    (hreviving : (state.main.view w).isReviving = true) : next.distance w < state.distance w := by
  have hfits := h.sound.fits w
  have honline : (state.workers w).isOnline = false := by
    rw [hfits.isOnline]
    cases hthread : (state.workers w).thread <;> simp_all [Thread.isOver, Thread.isUp]
  -- the thread stays, and the main thread gets nearer to replacing it
  have hnearer {main : MainThread} {view : View} (hholds : state.main.holds w = false)
      (hview : state.main.view w = view) (hnext : main.holds w = false)
      (hdistance : (main.view w).distance < view.distance) :
      State.distance { state with main } w < state.distance w := by
    simp only [State.distance, hholds, hnext, hview]
    cases hthread : (state.workers w).thread <;> simp_all [Thread.isOver, Thread.distance]
  rcases MainThread.cases_of_isReviving hreviving with hmain | ⟨stage, hmain, hstage⟩
  · simp only [State.mainStep, hmain, honline, Bool.false_eq_true, if_false, Option.some.injEq,
      Except.ok.injEq] at hstep
    subst hstep
    exact hnearer (by simp [hmain, MainThread.holds]) (by rw [hmain, MainThread.view_testing_self])
      rfl (by simp [View.distance, SpawnStage.distance])
  · simp only [State.mainStep, hmain] at hstep
    have hholds : state.main.holds w = false := by simp [hmain, MainThread.holds]
    have hview : state.main.view w = .spawning .dispatch stage := by simp [hmain]
    have hpermits := hfits.spawning .dispatch stage hview
    cases stage with
    | checking =>
      simp only [State.spawnStep, honline, Option.some.injEq, bind_eq_ok, pure_eq_ok,
        Bool.false_eq_true, if_false] at hstep
      obtain ⟨-, -, rfl⟩ := hstep
      exact hnearer hholds hview rfl (by simp [View.distance, SpawnStage.distance])
    | reaping =>
      simp only [State.spawnStep] at hstep
      split_ifs at hstep
      · rw [Option.some.injEq, Except.ok.injEq] at hstep
        exact hstep ▸ hnearer hholds hview rfl (by simp [View.distance, SpawnStage.distance])
      · simp only [Option.some.injEq, bind_eq_ok, pure_eq_ok] at hstep
        obtain ⟨-, -, rfl⟩ := hstep
        exact hnearer hholds hview rfl (by simp [View.distance, SpawnStage.distance])
    | joining =>
      simp only [State.spawnStep, Option.ite_none_right_eq_some, Option.some.injEq,
        Except.ok.injEq] at hstep
      obtain ⟨hthread, rfl⟩ := hstep
      simp [State.distance, hmain, hthread, MainThread.holds, Thread.distance, View.distance,
        SpawnStage.distance]
    | creating =>
      have hthread : (state.workers w).thread = .absent := by
        simpa [SpawnStage.permits] using hpermits
      simp only [State.spawnStep, Option.some.injEq, bind_eq_ok, pure_eq_ok] at hstep
      obtain ⟨-, -, rfl⟩ := hstep
      simp [State.distance, hmain, hthread, MainThread.holds, Thread.distance, View.distance,
        SpawnStage.distance]
    | awaiting => exact absurd rfl hstage

/-- The main thread does something else. -/
theorem same_mainStep (h : state.Owes sizes update w) {next : State}
    (hstep : state.mainStep sizes = some (.ok next)) (hholds : state.main.holds w = false)
    (hover : (state.workers w).thread.isOver = false) :
    next.distance w = state.distance w ∧ next.helper w = state.helper w ∧
      state.helper w = .worker w := by
  have hadvances := State.advances_mainStep hstep
  obtain ⟨hupdate, -⟩ := h.pending hholds
  have hbusy : (state.workers w).isBusy = true := by simp [Worker.isBusy, hupdate]
  have hworker : next.workers w = state.workers w := by
    rcases hadvances.workers w with hsame | hheld | ⟨site, hview⟩ | hclosing
    · exact hsame
    · simp [hheld] at hholds
    · rcases hview with hview | hview
      · exact absurd ((h.sound.fits w).permits_of_not_isOver hover hview) (by simp)
      · exact absurd ((h.sound.fits w).permits_of_not_isOver hover hview) (by simp)
    · simp [h.isClosing] at hclosing
  have hplaces := h.sound.placed.places_le w
  simp only [State.places, hbusy, Bool.toNat_true] at hplaces
  have hnext : next.main.holds w = false := by
    by_contra htaken
    rcases hadvances.holds w (by simpa using htaken) with hheld | hmem | hmem
    · simp [hheld] at hholds
    · have hcount := List.count_pos_iff.mpr hmem
      omega
    · have hcount := List.count_pos_iff.mpr hmem
      omega
  simp only [State.distance, State.helper, hholds, hnext, hworker]
  cases hthread : (state.workers w).thread <;> simp_all [Thread.isOver, Thread.distance]

/-- A step of the main thread. -/
theorem near_mainStep (h : state.Owes sizes update w) {next : State}
    (hstep : state.mainStep sizes = some (.ok next)) : next.distance w < state.distance w ∨
      Agent.main ≠ state.helper w ∧ next.distance w = state.distance w ∧
        next.helper w = state.helper w := by
  cases hholds : state.main.holds w with
  | true => exact .inl (distance_sends hstep hholds)
  | false =>
    cases hover : (state.workers w).thread.isOver with
    | true =>
      have hreviving := (h.sound.fits w).pending (h.pending hholds).1 hover
      exact .inl (h.distance_revives hstep hover hreviving)
    | false =>
      obtain ⟨hdistance, hhelper, hworker⟩ := h.same_mainStep hstep hholds hover
      exact .inr ⟨by simp [hworker], hdistance, hhelper⟩

end State.Owes

/-- A step that changes neither the worker nor the main thread. -/
theorem State.Turns.same {state next : State} {v w : ℕ} (h : State.Turns v state next)
    (hw : w ≠ v ∨ state.main.holds w = true) :
    next.distance w = state.distance w ∧ next.helper w = state.helper w := by
  rcases hw with hw | hholds
  · simp [State.distance, State.helper, h.main, h.workers w hw]
  · simp [State.distance, State.helper, h.main, hholds]

/-! ## Steps before the destructor -/

theorem Sound.attempt_of_step {sizes : Sizes} {state next : State} {label : Label}
    (h : Sound sizes state) (hrespects : state.respects label = true)
    (hstep : (pool sizes).step state label = some next) :
    state.attempt sizes label = some (.ok next) := by
  obtain ⟨outcome, hattempt, rfl⟩ : ∃ outcome, state.attempt sizes label = some outcome ∧
      state.settle outcome = next := by
    simpa [pool, State.step, h.fault, Option.map_eq_some_iff] using hstep
  obtain ⟨next, rfl, -⟩ := h.attempt hrespects hattempt
  exact hattempt

theorem respects_of_open {sizes : Sizes} {state : State} (h : Sound sizes state)
    (hopen : state.stopUpdate = false) (label : Label) : state.respects label = true := by
  have hclosing := h.controlled.stopUpdate.symm.trans hopen
  cases label with
  | main =>
    cases hmain : state.main with
    | closing i => simp [hmain, MainThread.isClosing] at hclosing
    | _ => simp [State.respects, hmain]
  | worker w => simp [State.respects, hopen]
  | _ => rfl

/-- Before the destructor: the invariant, without a shutdown. -/
structure State.Open (sizes : Sizes) (state : State) : Prop where
  sound : Sound sizes state
  isOpen : state.stopUpdate = false

theorem open_initial (sizes : Sizes) : initial.Open sizes := ⟨sound_initial sizes, rfl⟩

theorem stopUpdate_of_attempt {sizes : Sizes} {state next : State} {label : Label}
    (hlabel : label ≠ .shutdown) (hattempt : state.attempt sizes label = some (.ok next)) :
    next.stopUpdate = state.stopUpdate := by
  cases label with
  | main => exact (State.advances_mainStep hattempt).stopUpdate
  | arrive content =>
    simp only [State.attempt, State.arriveStep, Option.ite_none_right_eq_some, Option.some.injEq,
      Except.ok.injEq] at hattempt
    rw [← hattempt.2]
  | worker w => exact (State.turns_workerStep hattempt).stopUpdate
  | timeout w => exact (State.turns_timeoutStep hattempt).stopUpdate
  | shutdown => exact absurd rfl hlabel

namespace State

variable {sizes : Sizes} {state next : State} {label : Label} {update : Update} {w : ℕ}

theorem Open.step (h : state.Open sizes) (hlabel : label ≠ .shutdown)
    (hstep : (pool sizes).step state label = some next) : next.Open sizes := by
  have hrespects := respects_of_open h.sound h.isOpen label
  have hattempt := h.sound.attempt_of_step hrespects hstep
  exact ⟨h.sound.step hrespects hstep, (stopUpdate_of_attempt hlabel hattempt).trans h.isOpen⟩

theorem sent_of_attempt (hattempt : state.attempt sizes label = some (.ok next)) :
    state.sent ⊆ next.sent := by
  cases label with
  | main => exact (State.advances_mainStep hattempt).sent
  | arrive content =>
    simp only [State.attempt, State.arriveStep, Option.ite_none_right_eq_some, Option.some.injEq,
      Except.ok.injEq] at hattempt
    rw [← hattempt.2]
    exact List.Subset.refl _
  | worker w => exact (State.turns_workerStep hattempt).sent ▸ List.Subset.refl _
  | timeout w => exact (State.turns_timeoutStep hattempt).sent ▸ List.Subset.refl _
  | shutdown =>
    simp only [State.attempt, State.shutdownStep, Option.ite_none_right_eq_some,
      Option.some.injEq, Except.ok.injEq] at hattempt
    rw [← hattempt.2]
    exact List.Subset.refl _

theorem handled_of_attempt (hattempt : state.attempt sizes label = some (.ok next)) :
    state.handled ⊆ next.handled := by
  cases label with
  | main => exact (State.advances_mainStep hattempt).handled ▸ List.Subset.refl _
  | arrive content =>
    simp only [State.attempt, State.arriveStep, Option.ite_none_right_eq_some, Option.some.injEq,
      Except.ok.injEq] at hattempt
    rw [← hattempt.2]
    exact List.Subset.refl _
  | worker w => exact (State.turns_workerStep hattempt).handled
  | timeout w => exact (State.turns_timeoutStep hattempt).handled
  | shutdown =>
    simp only [State.attempt, State.shutdownStep, Option.ite_none_right_eq_some,
      Option.some.injEq, Except.ok.injEq] at hattempt
    rw [← hattempt.2]
    exact List.Subset.refl _

/-- A taken worker gets its update. -/
theorem HasTaken.attempt (h : state.HasTaken update w)
    (hattempt : state.attempt sizes label = some (.ok next)) : next.HasTaken update w := by
  rcases h with hmain | hmain | hsent
  · cases label with
    | main =>
      simp only [State.attempt, mainStep, hmain, Option.some.injEq, assertStep, bind_eq_ok,
        pure_eq_ok] at hattempt
      obtain ⟨-, -, -, -, rfl⟩ := hattempt
      exact .inr (.inl rfl)
    | arrive content => simp [State.attempt, arriveStep, hmain] at hattempt
    | worker v => exact .inl ((turns_workerStep hattempt).main.trans hmain)
    | timeout v => exact .inl ((turns_timeoutStep hattempt).main.trans hmain)
    | shutdown => simp [State.attempt, shutdownStep, hmain] at hattempt
  · cases label with
    | main =>
      simp only [State.attempt, mainStep, hmain, Option.ite_none_left_eq_some, Option.some.injEq,
        Except.ok.injEq] at hattempt
      obtain ⟨-, rfl⟩ := hattempt
      exact .inr (.inr (List.mem_append_right _ (List.mem_singleton_self _)))
    | arrive content => simp [State.attempt, arriveStep, hmain] at hattempt
    | worker v => exact .inr (.inl ((turns_workerStep hattempt).main.trans hmain))
    | timeout v => exact .inr (.inl ((turns_timeoutStep hattempt).main.trans hmain))
    | shutdown => simp [State.attempt, shutdownStep, hmain] at hattempt
  · exact .inr (.inr (sent_of_attempt hattempt hsent))

/-- The step lemma of the progress rule. -/
theorem Owes.step (h : state.Owes sizes update w) (hlabel : label ≠ .shutdown)
    (hstep : (pool sizes).step state label = some next) :
    (w, update) ∈ next.handled ∨ next.Owes sizes update w ∧
      (next.distance w < state.distance w ∨ label.agent ≠ some (state.helper w) ∧
        next.distance w = state.distance w ∧ next.helper w = state.helper w) := by
  have hopen : state.Open sizes := ⟨h.sound, h.isOpen⟩
  have hnext := hopen.step hlabel hstep
  have hattempt := h.sound.attempt_of_step (respects_of_open h.sound h.isOpen label) hstep
  by_cases hhandled : (w, update) ∈ next.handled
  · exact .inl hhandled
  refine .inr ⟨⟨hnext.sound, hnext.isOpen, h.taken.attempt hattempt, hhandled⟩, ?_⟩
  cases label with
  | main =>
    rcases h.near_mainStep hattempt with hnear | ⟨hother, hsame⟩
    · exact .inl hnear
    · exact .inr ⟨fun hagent ↦ hother (Option.some.inj hagent), hsame⟩
  | arrive content =>
    simp only [State.attempt, State.arriveStep, Option.ite_none_right_eq_some, Option.some.injEq,
      Except.ok.injEq] at hattempt
    obtain ⟨hmain, rfl⟩ := hattempt
    refine .inr ⟨by simp [Label.agent], ?_⟩
    simp [State.distance, State.helper, hmain, h.isOpen, MainThread.holds, MainThread.view]
  | worker v =>
    have hturns := turns_workerStep hattempt
    cases hholds : state.main.holds w with
    | true =>
      exact .inr ⟨by simp [Label.agent, State.helper, hholds], hturns.same (.inr hholds)⟩
    | false =>
      by_cases hv : w = v
      · subst hv
        exact .inl (h.distance_workerStep hattempt hholds hhandled)
      · refine .inr ⟨?_, hturns.same (.inl hv)⟩
        simp only [Label.agent, State.helper, hholds]
        cases (state.workers w).thread <;> simp [Ne.symm hv]
  | timeout v =>
    have hturns := turns_timeoutStep hattempt
    refine .inr ⟨by simp [Label.agent], ?_⟩
    cases hholds : state.main.holds w with
    | true => exact hturns.same (.inr hholds)
    | false =>
      have hv : w ≠ v := by
        rintro rfl
        have hupdate := (h.pending hholds).1
        cases hthread : (state.workers w).thread <;>
          simp [State.attempt, State.timeoutStep, hthread, hupdate] at hattempt
      exact hturns.same (.inl hv)
  | shutdown => exact absurd rfl hlabel

end State

/-! ## The pool before the destructor -/

/-- The stack that a worker puts itself on, and the other one. -/
def State.ownStack (sizes : Sizes) (state : State) (w : ℕ) : List ℕ :=
  if sizes.isPrimaryWorker w then state.primaryWorkerStack else state.extraWorkerStack

def State.otherStack (sizes : Sizes) (state : State) (w : ℕ) : List ℕ :=
  if sizes.isPrimaryWorker w then state.extraWorkerStack else state.primaryWorkerStack

/-- A worker is in one place: once on its own stack, held by the dispatcher, or busy with an
update. -/
structure State.InOnePlace (sizes : Sizes) (state : State) (w : ℕ) : Prop where
  once : (state.ownStack sizes w).count w + (state.main.holds w).toNat +
    (state.workers w).isBusy.toNat = 1
  other : w ∉ state.otherStack sizes w

/-- No assertion has failed, every worker is in one place once the constructor is done, and no
update was handled that was not sent, or twice. -/
structure State.Orderly (sizes : Sizes) (state : State) : Prop where
  fault : state.fault = none
  inOnePlace : state.main.isSetup = false → ∀ w, w < sizes.maxWorkerNum →
    state.InOnePlace sizes w
  sent : state.handled ⊆ state.sent
  once : (state.handled.map Prod.snd).Nodup

theorem Sound.inOnePlace {sizes : Sizes} {state : State} (h : Sound sizes state)
    (hsetup : state.main.isSetup = false) {w : ℕ} (hw : w < sizes.maxWorkerNum) :
    state.InOnePlace sizes w := by
  have hstocked : state.main.hasStocked sizes w = true := by
    cases hmain : state.main with
    | spawning site v stage =>
      cases site <;> simp_all [MainThread.isSetup, MainThread.hasStocked]
    | _ => simp_all [MainThread.isSetup, MainThread.hasStocked]
  have honce := h.placed.once w
  simp only [State.places, hstocked, Bool.toNat_true] at honce
  cases hkind : sizes.isPrimaryWorker w with
  | true =>
    have hother : w ∉ state.extraWorkerStack := by
      intro hmem
      have hge := h.placed.extra w hmem
      simp only [Sizes.isPrimaryWorker, decide_eq_true_eq] at hkind
      omega
    have hcount := List.count_eq_zero.mpr hother
    constructor
    · simp only [State.ownStack, hkind, if_true]
      omega
    · simpa [State.otherStack, hkind] using hother
  | false =>
    have hother : w ∉ state.primaryWorkerStack := by
      intro hmem
      have hlt := h.placed.primary w hmem
      simp only [Sizes.isPrimaryWorker, decide_eq_false_iff_not] at hkind
      omega
    have hcount := List.count_eq_zero.mpr hother
    constructor
    · simp only [State.ownStack, hkind, Bool.false_eq_true, if_false]
      omega
    · simpa [State.otherStack, hkind] using hother

theorem Sound.orderly {sizes : Sizes} {state : State} (h : Sound sizes state) :
    state.Orderly sizes where
  fault := h.fault
  inOnePlace hsetup _ := h.inOnePlace hsetup
  sent delivery hdelivery := (h.accounted.sent delivery.1 delivery.2).mpr (.inl hdelivery)
  once := by
    have hsent : state.handled ⊆ state.sent :=
      fun delivery hdelivery ↦ (h.accounted.sent delivery.1 delivery.2).mpr (.inl hdelivery)
    apply h.accounted.handled.map_on
    intro first hfirst second hsecond hsame
    exact List.inj_on_of_nodup_map h.accounted.serials (hsent hfirst) (hsent hsecond)
      (congrArg Update.serial hsame)

theorem handled_of_step {sizes : Sizes} {state next : State} {label : Label}
    (hstep : (pool sizes).step state label = some next) : state.handled ⊆ next.handled := by
  simp only [pool, State.step, Option.ite_none_left_eq_some, Option.map_eq_some_iff] at hstep
  obtain ⟨-, outcome, hattempt, rfl⟩ := hstep
  cases outcome with
  | ok next => exact State.handled_of_attempt hattempt
  | error assertion => exact List.Subset.refl _

section

variable {sizes : Sizes} {execution : (pool sizes).Execution}

theorem open_of_execution (hstart : execution.state 0 = initial)
    (hopen : ∀ n, execution.label n ≠ some .shutdown) (n : ℕ) :
    (execution.state n).Open sizes := by
  apply execution.invariant (hstart ▸ open_initial sizes)
  intro k label next h hlabel hstep
  exact h.step (fun heq ↦ hopen k (heq ▸ hlabel)) hstep

theorem progress (hopen : ∀ n, execution.label n ≠ some .shutdown) (update : Update) (w : ℕ) :
    execution.Progress Label.agent (State.Owes sizes update w)
      (fun state ↦ (w, update) ∈ state.handled) (fun state ↦ state.distance w)
      (fun state ↦ state.helper w) where
  enabled _ h := h.enabled
  step n _ _ h hlabel hstep := h.step (fun heq ↦ hopen n (heq ▸ hlabel)) hstep

theorem eventually_handled (hstart : execution.state 0 = initial)
    (hopen : ∀ n, execution.label n ≠ some .shutdown)
    (hfair : execution.WeaklyFair Label.agent) {n : ℕ} {update : Update} {w : ℕ}
    (htaken : (execution.state n).HasTaken update w) :
    ∃ m, n ≤ m ∧ (w, update) ∈ (execution.state m).handled := by
  by_cases hhandled : (w, update) ∈ (execution.state n).handled
  · exact ⟨n, Nat.le_refl n, hhandled⟩
  · have h := open_of_execution hstart hopen n
    exact (progress hopen update w).eventually hfair ⟨h.sound, h.isOpen, htaken, hhandled⟩

end

/-- The pool before any `close`, for every number of processors and every interleaving: all is in
order at any time, and if no thread is held up for ever, then an update for which a worker was
taken is handled exactly once from some time on. -/
theorem orderly_and_handled_once (hardware_concurrency : ℕ)
    (execution : (pool (.ofHardware hardware_concurrency)).Execution)
    (hstart : execution.state 0 = initial)
    (hopen : ∀ n, execution.label n ≠ some .shutdown) :
    (∀ n, (execution.state n).Orderly (.ofHardware hardware_concurrency)) ∧
      (execution.WeaklyFair Label.agent → ∀ n update w, (execution.state n).HasTaken update w →
        ∃ m, n ≤ m ∧ ∀ k, m ≤ k →
          ((execution.state k).handled.map Prod.snd).count update = 1) := by
  have horderly (n : ℕ) : (execution.state n).Orderly (.ofHardware hardware_concurrency) :=
    (open_of_execution hstart hopen n).sound.orderly
  refine ⟨horderly, fun hfair n update w htaken ↦ ?_⟩
  obtain ⟨m, hle, hhandled⟩ := eventually_handled hstart hopen hfair htaken
  refine ⟨m, hle, fun k hk ↦ List.count_eq_one_of_mem (horderly k).once ?_⟩
  have hlater : (w, update) ∈ (execution.state k).handled :=
    execution.stable (fun _ _ _ hmem hstep ↦ handled_of_step hstep hmem) hk hhandled
  exact List.mem_map_of_mem hlater

/-- With one processor: the constructor with its one primary worker, and the rounds of its loops
after that. -/
def setup : List Label :=
  [.main, .main, .main, .main, .main, .worker 0, .worker 0, .worker 0, .main, .worker 0] ++
    List.replicate 203 .main

/-- An update arrives, is sent to the primary worker and handled by it. -/
def oneUpdate : List Label :=
  setup ++ [.arrive none, .main, .main, .main, .main, .worker 0, .worker 0, .worker 0]

/-- The thread of the worker cannot move. -/
def Worker.isQuiet (worker : Worker) : Bool :=
  match worker.thread with
  | .absent | .finished => true
  | .waiting _ => !(worker.hasUpdate || worker.stopEventLoop)
  | _ => false

theorem oneUpdate_runs : ∃ finish, (pool (.ofHardware 1)).run initial oneUpdate = some finish ∧
    finish.main = .idle ∧ ∀ w, w < 100 → (finish.workers w).isQuiet = true := by
  have hrun : ((pool (.ofHardware 1)).run initial oneUpdate).any (fun state ↦
      state.main = .idle ∧ ∀ w, w < 100 → (state.workers w).isQuiet = true) = true := by
    decide +kernel
  cases hfinish : (pool (.ofHardware 1)).run initial oneUpdate with
  | none => simp [hfinish] at hrun
  | some finish => exact ⟨finish, rfl, by simpa [hfinish] using hrun⟩

theorem not_enabled_of_isQuiet {sizes : Sizes} {state : State} (hmain : state.main = .idle)
    (hworkers : ∀ w, (state.workers w).isQuiet = true) (agent : Agent) :
    ¬ (pool sizes).Enabled Label.agent agent state := by
  rintro ⟨label, next, hagent, hstep⟩
  simp only [pool, State.step, Option.ite_none_left_eq_some, Option.map_eq_some_iff] at hstep
  obtain ⟨-, outcome, hattempt, -⟩ := hstep
  cases label with
  | main => simp [State.attempt, State.mainStep, hmain] at hattempt
  | worker w =>
    have hquiet := hworkers w
    unfold Worker.isQuiet at hquiet
    cases hthread : (state.workers w).thread <;>
      simp_all [State.attempt, State.workerStep]
  | _ => simp [Label.agent] at hagent

theorem orderly_and_handled_once_oneUpdate :
    ∃ execution : (pool (.ofHardware 1)).Execution, execution.state 0 = initial ∧
      execution.WeaklyFair Label.agent ∧ (execution.state 215).HasTaken ⟨0, none⟩ 0 ∧
      ∃ m, 215 ≤ m ∧ ∀ k, m ≤ k →
        ((execution.state k).handled.map Prod.snd).count ⟨0, none⟩ = 1 := by
  obtain ⟨finish, hrun, hmain, hquiet⟩ := oneUpdate_runs
  have hstart : (Machine.Execution.ofRun hrun).state 0 = initial := rfl
  have hopen (n : ℕ) : (Machine.Execution.ofRun hrun).label n ≠ some .shutdown := by
    intro hlabel
    have hmem : Label.shutdown ∈ oneUpdate := List.mem_of_getElem? hlabel
    exact absurd hmem (by decide +kernel)
  have hfinish : finish.Open (.ofHardware 1) := by
    obtain ⟨n, hlast⟩ := Machine.Execution.ofRun_state hrun
    exact hlast ▸ open_of_execution hstart hopen n
  have hworkers (w : ℕ) : (finish.workers w).isQuiet = true := by
    by_cases hw : w < 100
    · exact hquiet w hw
    · have habsent := hfinish.sound.controlled.absent w (by rw [hmain]; exact Nat.le_of_not_lt hw)
      simp [Worker.isQuiet, habsent]
  have hfair : (Machine.Execution.ofRun hrun).WeaklyFair Label.agent :=
    Machine.Execution.ofRun_weaklyFair hrun (not_enabled_of_isQuiet hmain hworkers)
  have htaken : ((Machine.Execution.ofRun hrun).state 215).HasTaken ⟨0, none⟩ 0 := by
    left
    change ((pool (.ofHardware 1)).stateAfter initial oneUpdate 215).main = _
    decide +kernel
  exact ⟨Machine.Execution.ofRun hrun, hstart, hfair, htaken,
    (orderly_and_handled_once 1 (Machine.Execution.ofRun hrun) hstart hopen).2 hfair 215
      ⟨0, none⟩ 0 htaken⟩

end Tgvisd.WorkerPool
