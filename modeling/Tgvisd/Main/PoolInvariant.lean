import Mathlib.Data.List.Nodup
import Mathlib.Data.List.Perm.Subperm
import Mathlib.Data.List.Range
import Mathlib.Data.Bool.Basic
import Tgvisd.Main.WorkerPool

/-!
# The invariant of the worker pool

One invariant over all workers: the flags of a worker agree with where its thread and the main
thread are, every index is in one place, and the record of what was sent and handled agrees with
the pending updates. Every step keeps it, unless `close` sets the stop flag of a worker whose
update is pending, or a worker handles a command of `Shell` after `stopUpdate_` was set.
-/

namespace Tgvisd.WorkerPool

/-! ## A worker and the main thread -/

/-- What the main thread is doing with a given worker. -/
inductive View
  | elsewhere
  | testing
  | spawning (site : SpawnSite) (stage : SpawnStage)
  | joiningClosed
  deriving DecidableEq, Repr

def MainThread.view : MainThread → ℕ → View
  | .testing w, v => if v = w then .testing else .elsewhere
  | .spawning site w stage, v => if v = w then .spawning site stage else .elsewhere
  | .joiningClosed w, v => if v = w then .joiningClosed else .elsewhere
  | _, _ => .elsewhere

/-- The thread has ended or is about to, or there is none. -/
def Thread.isOver : Thread → Bool
  | .absent | .leaving | .finished => true
  | _ => false

/-- The thread is between its first steps and the end of `runWorker`. -/
def Thread.isUp : Thread → Bool
  | .online | .ready | .waiting _ | .handling | .putting => true
  | _ => false

/-- The thread has not set its flags yet. -/
def Thread.isStarting : Thread → Bool
  | .created | .started => true
  | _ => false

/-- Where the thread can be at a stage of `spawn`. -/
def SpawnStage.permits : SpawnStage → Thread → Bool
  | .checking, thread | .reaping, thread => thread.isOver
  | .joining, thread => thread = .leaving || thread = .finished
  | .creating, thread => thread = .absent
  | .awaiting, _ => true

/-- A pending update at a worker without a thread is about to get one. -/
def View.isReviving : View → Bool
  | .testing => true
  | .spawning .dispatch stage => stage ≠ .awaiting
  | _ => false

def View.isAwaiting : View → Bool
  | .spawning _ .awaiting => true
  | _ => false

/-- The flags of a worker agree with its thread and with what the main thread is doing to it. -/
structure Fits (view : View) (worker : Worker) : Prop where
  isOnline : worker.isOnline = worker.thread.isUp
  stopped : worker.thread.isOver = true ∨ worker.thread = .created → worker.stopEventLoop = true
  running : worker.thread.isUp = true ∨ worker.thread = .started →
    view ≠ .joiningClosed → worker.stopEventLoop = false
  handling : worker.thread = .handling → worker.hasUpdate = true
  putting : worker.thread = .putting → worker.hasUpdate = false
  starting : worker.thread.isStarting = true → view.isAwaiting = true
  spawning : ∀ site stage, view = .spawning site stage → stage.permits worker.thread = true
  pending : worker.hasUpdate = true → worker.thread.isOver = true → view.isReviving = true
  closed : view = .joiningClosed → worker.stopEventLoop = true
  unhurried : view = .joiningClosed → worker.hasUpdate = true → worker.thread = .handling

/-! ## The places of an index -/

/-- The dispatcher has taken the worker and not sent it the update. -/
def MainThread.holds : MainThread → ℕ → Bool
  | .asserting _ w, v | .sending _ w, v => v = w
  | _, _ => false

def Worker.isBusy (worker : Worker) : Bool := worker.hasUpdate || worker.thread = .putting

def State.places (state : State) (w : ℕ) : ℕ :=
  state.primaryWorkerStack.count w + state.extraWorkerStack.count w +
    (state.main.holds w).toNat + (state.workers w).isBusy.toNat

/-- The worker has been put on its stack for the first time. -/
def MainThread.hasStocked (sizes : Sizes) : MainThread → ℕ → Bool
  | .loading, _ | .constructing _, _ | .spawning .setup _ _, _ => false
  | .fillingPrimary i, w => i ≤ w ∧ w < sizes.hardwareConcurrency
  | .fillingExtra i, w => w < sizes.hardwareConcurrency ∨ i ≤ w ∧ w < sizes.maxWorkerNum
  | _, w => w < sizes.maxWorkerNum

/-- The main thread is in `spawnThreads`, or before it. -/
def MainThread.isSetup : MainThread → Bool
  | .loading | .constructing _ | .spawning .setup _ _ | .fillingPrimary _ | .fillingExtra _
  | .counting => true
  | _ => false

structure Placed (sizes : Sizes) (state : State) : Prop where
  once : ∀ w, state.places w = (state.main.hasStocked sizes w).toNat
  quiet : state.main.isSetup = true → ∀ w, (state.workers w).isBusy = false
  primary : ∀ w ∈ state.primaryWorkerStack, w < sizes.hardwareConcurrency
  extra : ∀ w ∈ state.extraWorkerStack, sizes.hardwareConcurrency ≤ w

/-! ## The main thread -/

/-- How many workers have been constructed. -/
def MainThread.constructed (sizes : Sizes) : MainThread → ℕ
  | .loading => 0
  | .constructing i => i
  | .spawning .setup w _ => w + 1
  | _ => sizes.maxWorkerNum

/-- How many workers can have a thread: they are spawned from the first one on and destroyed from
the last one on. -/
def MainThread.living (sizes : Sizes) : MainThread → ℕ
  | .loading | .unloading | .exited => 0
  | .constructing i | .closing i => i
  | .spawning .setup w _ | .joiningClosed w => w + 1
  | _ => sizes.maxWorkerNum

/-- The module is loaded. -/
def MainThread.isLoaded : MainThread → Bool
  | .loading | .exited => false
  | _ => true

/-- The main thread is in `Main::~Main`. -/
def MainThread.isClosing : MainThread → Bool
  | .closing _ | .joiningClosed _ | .unloading | .exited => true
  | _ => false

def MainThread.InRange (sizes : Sizes) : MainThread → Prop
  | .constructing i => i ≤ sizes.maxWorkerNum
  | .spawning .setup w _ => w < sizes.hardwareConcurrency
  | .fillingPrimary i => i ≤ sizes.hardwareConcurrency
  | .fillingExtra i => sizes.hardwareConcurrency ≤ i ∧ i ≤ sizes.maxWorkerNum
  | .spawning .dispatch w _ | .asserting _ w | .sending _ w | .testing w | .joiningClosed w =>
    w < sizes.maxWorkerNum
  | .closing i => i ≤ sizes.maxWorkerNum
  | _ => True

structure Controlled (sizes : Sizes) (state : State) : Prop where
  inRange : state.main.InRange sizes
  constructed : state.constructed = state.main.constructed sizes
  module_ : state.module_ = state.main.isLoaded
  gModule : state.gModule = state.main.isLoaded
  gModuleRefCount : state.gModuleRefCount = state.main.isLoaded.toNat
  stopUpdate : state.stopUpdate = state.main.isClosing
  absent : ∀ w, state.main.living sizes ≤ w → (state.workers w).thread = .absent

/-! ## The record -/

/-- The update that the dispatcher has not sent yet. -/
def MainThread.carried : MainThread → Option Update
  | .takingPrimary update | .takingExtra update | .asserting update _ | .sending update _ =>
    some update
  | _ => none

def State.IsPending (state : State) (w : ℕ) (update : Update) : Prop :=
  (state.workers w).hasUpdate = true ∧ (state.workers w).update = update

structure Accounted (state : State) : Prop where
  sent : ∀ w update, (w, update) ∈ state.sent ↔
    (w, update) ∈ state.handled ∨ state.IsPending w update
  handled : state.handled.Nodup
  pending : ∀ w update, state.IsPending w update → (w, update) ∉ state.handled
  serials : (state.sent.map fun delivery ↦ delivery.2.serial).Nodup
  arrived : ∀ delivery ∈ state.sent, delivery.2.serial < state.arrivals
  carried : ∀ update, state.main.carried = some update → update.serial < state.arrivals ∧
    ∀ delivery ∈ state.sent, delivery.2.serial < update.serial

/-- The invariant. -/
structure Sound (sizes : Sizes) (state : State) : Prop where
  fault : state.fault = none
  fits : ∀ w, Fits (state.main.view w) (state.workers w)
  placed : Placed sizes state
  controlled : Controlled sizes state
  accounted : Accounted state

theorem sound_initial (sizes : Sizes) : Sound sizes initial where
  fault := rfl
  fits w := by constructor <;> simp [initial, MainThread.view, Thread.isUp, Thread.isOver,
    Thread.isStarting]
  placed := by constructor <;> simp [initial, State.places, MainThread.hasStocked,
    MainThread.holds, Worker.isBusy]
  controlled := by constructor <;> simp [initial, MainThread.InRange, MainThread.constructed,
    MainThread.isLoaded, MainThread.isClosing, MainThread.living]
  accounted := by constructor <;> simp [initial, State.IsPending, MainThread.carried]

/-! ## Steps that leave the record alone -/

/-- The main thread moves on without constructing a worker, touching the module or taking an
update. -/
structure MainThread.Moves (sizes : Sizes) (before after : MainThread) : Prop where
  inRange : after.InRange sizes
  constructed : after.constructed sizes = before.constructed sizes
  isLoaded : after.isLoaded = before.isLoaded
  isClosing : after.isClosing = before.isClosing
  carried : ∀ update, after.carried = some update → before.carried = some update

/-- It leaves every index in its place. -/
structure MainThread.SamePlaces (sizes : Sizes) (before after : MainThread) : Prop where
  holds : after.holds = before.holds
  hasStocked : after.hasStocked sizes = before.hasStocked sizes
  isSetup : after.isSetup = true → before.isSetup = true

structure MainThread.Stays (sizes : Sizes) (before after : MainThread) : Prop where
  moves : before.Moves sizes after
  samePlaces : before.SamePlaces sizes after

theorem MainThread.Stays.refl {sizes : Sizes} {main : MainThread} (h : main.InRange sizes) :
    main.Stays sizes main := ⟨⟨h, rfl, rfl, rfl, fun _ ↦ id⟩, rfl, rfl, id⟩

/-- The worker's pending update stays what it is. -/
structure Worker.Keeps (before after : Worker) : Prop where
  hasUpdate : after.hasUpdate = before.hasUpdate
  update : after.update = before.update

namespace State

variable {sizes : Sizes} {state : State} {w : ℕ} {worker : Worker} {main : MainThread}

@[simp]
theorem setWorker_workers : (state.setWorker w worker).workers =
    Function.update state.workers w worker := rfl

@[simp]
theorem setWorker_primaryWorkerStack :
    (state.setWorker w worker).primaryWorkerStack = state.primaryWorkerStack := rfl

@[simp]
theorem setWorker_extraWorkerStack :
    (state.setWorker w worker).extraWorkerStack = state.extraWorkerStack := rfl

@[simp]
theorem setWorker_main : (state.setWorker w worker).main = state.main := rfl

theorem setWorker_self : state.setWorker w (state.workers w) = state := by
  simp [setWorker]

theorem isPending_update (hkeeps : (state.workers w).Keeps worker) (v : ℕ) (update : Update) :
    ((Function.update state.workers w worker v).hasUpdate = true ∧
      (Function.update state.workers w worker v).update = update) ↔ state.IsPending v update := by
  by_cases h : v = w
  · subst h
    simp [IsPending, hkeeps.hasUpdate, hkeeps.update]
  · simp [IsPending, h]

theorem isBusy_update (hbusy : worker.isBusy = (state.workers w).isBusy) (v : ℕ) :
    (Function.update state.workers w worker v).isBusy = (state.workers v).isBusy := by
  by_cases h : v = w
  · subst h
    simpa using hbusy
  · simp [h]

end State

theorem Placed.of_samePlaces {sizes : Sizes} {state next : State} (h : Placed sizes state)
    (hsame : state.main.SamePlaces sizes next.main)
    (hbusy : ∀ w, (next.workers w).isBusy = (state.workers w).isBusy)
    (hprimary : next.primaryWorkerStack = state.primaryWorkerStack)
    (hextra : next.extraWorkerStack = state.extraWorkerStack) : Placed sizes next := by
  constructor
  · intro w
    have honce := h.once w
    simpa [State.places, hbusy, hprimary, hextra, hsame.holds, hsame.hasStocked] using honce
  · intro hsetup w
    rw [hbusy]
    exact h.quiet (hsame.isSetup hsetup) w
  · rw [hprimary]
    exact h.primary
  · rw [hextra]
    exact h.extra

namespace Sound

variable {sizes : Sizes} {state : State} {w : ℕ} {worker : Worker} {main : MainThread}

theorem fits_update (h : Sound sizes state) (hview : ∀ v, v ≠ w → main.view v = state.main.view v)
    (hfits : Fits (main.view w) worker) (v : ℕ) :
    Fits (main.view v) (Function.update state.workers w worker v) := by
  by_cases hv : v = w
  · subst hv
    simpa using hfits
  · simpa [hv, hview v hv] using h.fits v

/-- The main thread moves on, a worker changes, and so do the stacks. -/
theorem change (h : Sound sizes state) {primaryWorkerStack extraWorkerStack : List ℕ}
    (hmoves : state.main.Moves sizes main)
    (hview : ∀ v, v ≠ w → main.view v = state.main.view v) (hfits : Fits (main.view w) worker)
    (hkeeps : (state.workers w).Keeps worker)
    (hliving : ∀ v, v ≠ w → main.living sizes ≤ v → state.main.living sizes ≤ v)
    (habsent : main.living sizes ≤ w → worker.thread = .absent)
    (hplaced : Placed sizes
      { state.setWorker w worker with main, primaryWorkerStack, extraWorkerStack }) :
    Sound sizes { state.setWorker w worker with main, primaryWorkerStack, extraWorkerStack } where
  fault := h.fault
  fits := h.fits_update hview hfits
  placed := hplaced
  controlled := by
    constructor
    · exact hmoves.inRange
    · exact h.controlled.constructed.trans hmoves.constructed.symm
    · exact h.controlled.module_.trans hmoves.isLoaded.symm
    · exact h.controlled.gModule.trans hmoves.isLoaded.symm
    · rw [hmoves.isLoaded]
      exact h.controlled.gModuleRefCount
    · exact h.controlled.stopUpdate.trans hmoves.isClosing.symm
    · intro v hv
      by_cases hvw : v = w
      · subst hvw
        simpa using habsent hv
      · simpa [hvw] using h.controlled.absent v (hliving v hvw hv)
  accounted := by
    constructor
    · intro v update
      exact (h.accounted.sent v update).trans
        (or_congr_right (State.isPending_update hkeeps v update).symm)
    · exact h.accounted.handled
    · intro v update hpending
      exact h.accounted.pending v update ((State.isPending_update hkeeps v update).mp hpending)
    · exact h.accounted.serials
    · exact h.accounted.arrived
    · exact fun update hcarried ↦ h.accounted.carried update (hmoves.carried update hcarried)

/-- The main thread moves on and does something to one worker, as to its own thread. -/
theorem move (h : Sound sizes state) (hstays : state.main.Stays sizes main)
    (hview : ∀ v, v ≠ w → main.view v = state.main.view v) (hfits : Fits (main.view w) worker)
    (hkeeps : (state.workers w).Keeps worker)
    (hbusy : worker.isBusy = (state.workers w).isBusy)
    (hliving : ∀ v, v ≠ w → main.living sizes ≤ v → state.main.living sizes ≤ v)
    (habsent : main.living sizes ≤ w → worker.thread = .absent) :
    Sound sizes { state.setWorker w worker with main } := by
  apply h.change hstays.moves hview hfits hkeeps hliving habsent
  exact h.placed.of_samePlaces hstays.samePlaces (State.isBusy_update hbusy) rfl rfl

theorem setMain (h : Sound sizes state) (hstays : state.main.Stays sizes main)
    (hview : main.view = state.main.view)
    (hliving : main.living sizes = state.main.living sizes) :
    Sound sizes { state with main } := by
  have hnext : Sound sizes { state.setWorker 0 (state.workers 0) with main } := by
    apply h.move hstays (fun v _ ↦ congrFun hview v) (hview ▸ h.fits 0) _ rfl
    · exact fun _ _ ↦ hliving ▸ id
    · exact hliving ▸ h.controlled.absent 0
    · exact ⟨rfl, rfl⟩
  rwa [State.setWorker_self] at hnext

/-- A worker's thread moves on without touching its pending update. -/
theorem setWorker (h : Sound sizes state) (hfits : Fits (state.main.view w) worker)
    (hkeeps : (state.workers w).Keeps worker)
    (hbusy : worker.isBusy = (state.workers w).isBusy)
    (hthread : (state.workers w).thread ≠ .absent) : Sound sizes (state.setWorker w worker) :=
  h.move (.refl h.controlled.inRange) (fun _ _ ↦ rfl) hfits hkeeps hbusy
    (fun _ _ ↦ id) (fun habsent ↦ absurd (h.controlled.absent w habsent) hthread)

end Sound

/-! ## A worker's own steps -/

namespace Fits

variable {view : View} {worker : Worker}

/-- A running worker that is looked at by `spawn` is being waited for. -/
theorem permits_of_not_isOver (h : Fits view worker) (hup : worker.thread.isOver = false)
    {site : SpawnSite} {stage : SpawnStage} (hview : view = .spawning site stage) :
    stage = .awaiting := by
  have hpermits := h.spawning site stage hview
  cases stage with
  | checking => simp [SpawnStage.permits, hup] at hpermits
  | reaping => simp [SpawnStage.permits, hup] at hpermits
  | joining =>
    rcases worker with ⟨thread, _, _, _, _⟩
    cases thread <;> simp_all [SpawnStage.permits, Thread.isOver]
  | creating =>
    rcases worker with ⟨thread, _, _, _, _⟩
    cases thread <;> simp_all [SpawnStage.permits, Thread.isOver]
  | awaiting => rfl

/-- The thread leaves the loop. -/
theorem exit (h : Fits view worker) (hup : worker.thread.isUp = true)
    (hupdate : worker.hasUpdate = false) :
    Fits view { worker with isOnline := false, stopEventLoop := true, thread := .leaving } := by
  have hover : worker.thread.isOver = false := by
    cases hthread : worker.thread <;> simp_all [Thread.isUp, Thread.isOver]
  constructor
  case spawning =>
    intro site stage hview
    rw [h.permits_of_not_isOver hover hview]
    rfl
  all_goals simp [Thread.isUp, Thread.isStarting, hupdate]

/-- The thread goes from one place to another between its first steps and its last. -/
theorem goOn (h : Fits view worker) {thread : Thread} {hasUpdate : Bool}
    (hup : worker.thread.isUp = true) (hnext : thread.isUp = true)
    (hhandling : thread = .handling → hasUpdate = true)
    (hputting : thread = .putting → hasUpdate = false)
    (hunhurried : view = .joiningClosed → hasUpdate = true → thread = .handling) :
    Fits view { worker with thread, hasUpdate } := by
  have hover : worker.thread.isOver = false := by
    cases hthread : worker.thread <;> simp_all [Thread.isUp, Thread.isOver]
  constructor
  case spawning =>
    intro site stage hview
    rw [h.permits_of_not_isOver hover hview]
    rfl
  case isOnline => exact h.isOnline.trans (hup.trans hnext.symm)
  case running => exact fun _ ↦ h.running (.inl hup)
  case closed => exact h.closed
  all_goals cases thread <;> simp_all [Thread.isUp, Thread.isOver, Thread.isStarting]

theorem start (h : Fits view worker) (hthread : worker.thread = .created) :
    Fits view { worker with stopEventLoop := false, thread := .started } := by
  have hview := h.starting (by simp [hthread, Thread.isStarting])
  have honline := h.isOnline
  constructor
  case spawning =>
    intro site stage hspawning
    rw [h.permits_of_not_isOver (by simp [hthread, Thread.isOver]) hspawning]
    rfl
  all_goals
    cases view <;> simp_all [Thread.isUp, Thread.isOver, Thread.isStarting, View.isAwaiting]

theorem goOnline (h : Fits view worker) (hthread : worker.thread = .started) :
    Fits view { worker with isOnline := true, thread := .online } := by
  have hview := h.starting (by simp [hthread, Thread.isStarting])
  have hstop := h.running (.inr hthread)
  constructor
  case spawning =>
    intro site stage hspawning
    rw [h.permits_of_not_isOver (by simp [hthread, Thread.isOver]) hspawning]
    rfl
  all_goals
    cases view <;> simp_all [Thread.isUp, Thread.isOver, Thread.isStarting, View.isAwaiting]

theorem finish (h : Fits view worker) (hthread : worker.thread = .leaving) :
    Fits view { worker with thread := .finished } := by
  have hover : worker.thread.isOver = true := by simp [hthread, Thread.isOver]
  constructor
  case isOnline => simpa [hthread, Thread.isUp] using h.isOnline
  case stopped => exact fun _ ↦ h.stopped (.inl hover)
  case spawning =>
    intro site stage hspawning
    have hpermits := h.spawning site stage hspawning
    cases stage <;> simp_all [SpawnStage.permits, Thread.isOver]
  case pending => exact fun hupdate _ ↦ h.pending hupdate hover
  case closed => exact h.closed
  case unhurried =>
    intro hview hupdate
    simpa [hthread] using h.unhurried hview hupdate
  all_goals simp [Thread.isUp, Thread.isStarting]

end Fits

/-- The step succeeds, and keeps the invariant. -/
def Succeeds (sizes : Sizes) (outcome : Except Assertion State) : Prop :=
  ∃ next, outcome = .ok next ∧ Sound sizes next

theorem Succeeds.of_eq {sizes : Sizes} {outcome : Except Assertion State} {next : State}
    (houtcome : outcome = .ok next) (hnext : Sound sizes next) : Succeeds sizes outcome :=
  ⟨next, houtcome, hnext⟩

@[simp]
theorem assertThat_true (assertion : Assertion) : assertThat assertion true = .ok () := rfl

namespace Sound

variable {sizes : Sizes} {state : State} {w : ℕ}

theorem thread_ne_absent {worker : Worker} (hup : worker.thread.isUp = true) :
    worker.thread ≠ .absent := by
  intro h
  simp [h, Thread.isUp] at hup

/-- A worker that leaves its loop. -/
theorem leave (h : Sound sizes state) (hup : (state.workers w).thread.isUp = true)
    (hbusy : (state.workers w).isBusy = false) :
    Sound sizes (state.setWorker w
      { state.workers w with isOnline := false, stopEventLoop := true, thread := .leaving }) := by
  obtain ⟨hupdate, -⟩ : (state.workers w).hasUpdate = false ∧ _ := by
    simpa [Worker.isBusy] using hbusy
  apply h.setWorker ((h.fits w).exit hup hupdate) _ _ (thread_ne_absent hup)
  · exact ⟨rfl, rfl⟩
  · rw [hbusy]
    simp [Worker.isBusy, hupdate]

theorem exitLoop (h : Sound sizes state) (hup : (state.workers w).thread.isUp = true)
    (hbusy : (state.workers w).isBusy = false)
    (hstop : (state.workers w).stopEventLoop = true) : Succeeds sizes (state.exitLoop w) := by
  obtain ⟨hupdate, -⟩ : (state.workers w).hasUpdate = false ∧ _ := by
    simpa [Worker.isBusy] using hbusy
  refine .of_eq ?_ (h.leave hup hbusy)
  rw [← hstop]
  simp [State.exitLoop, hupdate, hstop, pure, bind, Except.bind, Except.pure]

/-- A worker that waits or begins to wait. -/
theorem wait (h : Sound sizes state) (hup : (state.workers w).thread.isUp = true)
    (hbusy : (state.workers w).isBusy = false) (timeoutCounter : ℕ) :
    Sound sizes (state.setWorker w
      { state.workers w with thread := .waiting timeoutCounter }) := by
  obtain ⟨hupdate, -⟩ : (state.workers w).hasUpdate = false ∧ _ := by
    simpa [Worker.isBusy] using hbusy
  apply h.setWorker _ _ _ (thread_ne_absent hup)
  · apply (h.fits w).goOn hup <;> simp [Thread.isUp, hupdate]
  · exact ⟨rfl, rfl⟩
  · rw [hbusy]
    simp [Worker.isBusy, hupdate]

/-- A worker that begins to handle its update. -/
theorem handling (h : Sound sizes state) (hup : (state.workers w).thread.isUp = true)
    (hupdate : (state.workers w).hasUpdate = true) :
    Sound sizes (state.setWorker w { state.workers w with thread := .handling }) := by
  apply h.setWorker _ _ _ (thread_ne_absent hup)
  · apply (h.fits w).goOn hup <;> simp [Thread.isUp, hupdate]
  · exact ⟨rfl, rfl⟩
  · simp [Worker.isBusy, hupdate]

/-- A worker that is not handling an update has none when it finds the stop flag set. -/
theorem isBusy_of_stopEventLoop (h : Sound sizes state)
    (hup : (state.workers w).thread.isUp = true)
    (hthread : (state.workers w).thread ≠ .handling ∧ (state.workers w).thread ≠ .putting)
    (hstop : (state.workers w).stopEventLoop = true) : (state.workers w).isBusy = false := by
  have hview : state.main.view w = .joiningClosed := by
    by_contra hother
    simp [(h.fits w).running (.inl hup) hother] at hstop
  have hupdate : (state.workers w).hasUpdate = false := by
    by_contra hpending
    exact hthread.1 ((h.fits w).unhurried hview (by simpa using hpending))
  simp [Worker.isBusy, hupdate, hthread.2]

theorem enterLoop (h : Sound sizes state) (hup : (state.workers w).thread.isUp = true)
    (hthread : (state.workers w).thread ≠ .handling ∧ (state.workers w).thread ≠ .putting) :
    Succeeds sizes (state.enterLoop w) := by
  cases hstop : (state.workers w).stopEventLoop with
  | true =>
    obtain ⟨next, hnext, hsound⟩ :=
      h.exitLoop hup (h.isBusy_of_stopEventLoop hup hthread hstop) hstop
    refine .of_eq ?_ hsound
    simp [State.enterLoop, hstop, hnext]
  | false =>
    cases hupdate : (state.workers w).hasUpdate with
    | true =>
      refine .of_eq ?_ (h.handling hup hupdate)
      simp [State.enterLoop, hstop, hupdate, pure, Except.pure]
    | false =>
      have hbusy : (state.workers w).isBusy = false := by
        simp [Worker.isBusy, hupdate, hthread.2]
      refine .of_eq ?_ (h.wait hup hbusy 0)
      simp [State.enterLoop, hstop, hupdate, pure, Except.pure]

theorem wake (h : Sound sizes state) {timeoutCounter : ℕ}
    (hthread : (state.workers w).thread = .waiting timeoutCounter)
    (hwoken : (state.workers w).hasUpdate || (state.workers w).stopEventLoop) :
    Succeeds sizes (state.wake w) := by
  have hup : (state.workers w).thread.isUp = true := by simp [hthread, Thread.isUp]
  cases hstop : (state.workers w).stopEventLoop with
  | true =>
    have hbusy := h.isBusy_of_stopEventLoop hup (by simp [hthread]) hstop
    obtain ⟨next, hnext, hsound⟩ := h.exitLoop hup hbusy hstop
    refine .of_eq ?_ hsound
    simp [State.wake, hstop, hnext]
  | false =>
    have hupdate : (state.workers w).hasUpdate = true := by simpa [hstop] using hwoken
    refine .of_eq ?_ (h.handling hup hupdate)
    simp [State.wake, hstop, hupdate, pure, bind, Except.pure, Except.bind]

end Sound

/-! ### Handling -/

theorem State.isPending_handled {state : State} {w v : ℕ} {update : Update} {worker : Worker}
    (hworker : worker.hasUpdate = false) :
    ((Function.update state.workers w worker v).hasUpdate = true ∧
      (Function.update state.workers w worker v).update = update) ↔
      v ≠ w ∧ state.IsPending v update := by
  by_cases hv : v = w
  · subst hv
    simp [hworker]
  · simp [hv, State.IsPending]

namespace Sound

variable {sizes : Sizes} {state : State} {w : ℕ}

/-- A worker with a thread is one of those that are constructed and not destroyed. -/
theorem lt_living (h : Sound sizes state) (hthread : (state.workers w).thread ≠ .absent) :
    w < state.main.living sizes := by
  by_contra hge
  exact hthread (h.controlled.absent w (by omega))

theorem module_of_thread (h : Sound sizes state) (hthread : (state.workers w).thread ≠ .absent) :
    state.module_ = true := by
  have hliving := h.lt_living hthread
  rw [h.controlled.module_]
  cases hmain : state.main <;> simp_all [MainThread.living, MainThread.isLoaded]

/-- Handling is the only step that adds to the record of what was handled. -/
theorem handled (h : Sound sizes state) (hthread : (state.workers w).thread = .handling) :
    Sound sizes { state.setWorker w
      { state.workers w with hasUpdate := false, thread := .putting } with
        handled := state.handled ++ [(w, (state.workers w).update)] } := by
  have hup : (state.workers w).thread.isUp = true := by simp [hthread, Thread.isUp]
  have hupdate : (state.workers w).hasUpdate = true := (h.fits w).handling hthread
  have hpending : state.IsPending w (state.workers w).update := ⟨hupdate, rfl⟩
  have hfits : Fits (state.main.view w)
      { state.workers w with hasUpdate := false, thread := .putting } :=
    (h.fits w).goOn hup rfl (by simp) (by simp) (by simp)
  constructor
  · exact h.fault
  · exact h.fits_update (fun _ _ ↦ rfl) hfits
  · apply h.placed.of_samePlaces
    · exact ⟨rfl, rfl, id⟩
    · apply State.isBusy_update
      simp [Worker.isBusy, hupdate]
    · rfl
    · rfl
  · constructor
    · exact h.controlled.inRange
    · exact h.controlled.constructed
    · exact h.controlled.module_
    · exact h.controlled.gModule
    · exact h.controlled.gModuleRefCount
    · exact h.controlled.stopUpdate
    · intro v habsent
      have hv : v ≠ w := by
        rintro rfl
        simp [h.controlled.absent v habsent] at hthread
      simpa [hv] using h.controlled.absent v habsent
  · constructor
    · intro v update
      refine (h.accounted.sent v update).trans ?_
      simp only [State.IsPending, State.setWorker_workers, State.isPending_handled, List.mem_append,
        List.mem_singleton, Prod.mk.injEq, or_assoc]
      apply or_congr_right
      by_cases hv : v = w
      · subst hv
        simp [hupdate, eq_comm]
      · simp [hv]
    · rw [List.nodup_append]
      refine ⟨h.accounted.handled, List.nodup_singleton _, ?_⟩
      intro delivery hdelivery other hother heq
      rw [heq, List.mem_singleton.mp hother] at hdelivery
      exact h.accounted.pending w _ hpending hdelivery
    · intro v update hnext
      obtain ⟨hv, hother⟩ := (State.isPending_handled rfl).mp hnext
      simpa [hv] using h.accounted.pending v update hother
    · exact h.accounted.serials
    · exact h.accounted.arrived
    · exact h.accounted.carried

theorem handleUpdate (h : Sound sizes state) (hthread : (state.workers w).thread = .handling)
    (hcommand : state.stopUpdate = true → (state.workers w).update.isShellCommand = false) :
    Succeeds sizes (state.handleUpdate w) := by
  have hmodule := h.module_of_thread (w := w) (by simp [hthread])
  have hdispatch : state.dispatchEnumerate (state.workers w).update = .ok () := by
    unfold State.dispatchEnumerate State.incRef
    cases hstop : state.stopUpdate with
    | true => simp [hcommand hstop]
    | false => simp
  refine .of_eq ?_ (h.handled hthread)
  simp [State.handleUpdate, hmodule, hdispatch, pure, bind, Except.pure, Except.bind]

end Sound

/-! ### Putting a worker back -/

theorem MainThread.lt_of_hasStocked {sizes : Sizes} {main : MainThread} {w : ℕ}
    (h : main.hasStocked sizes w = true) : w < sizes.maxWorkerNum := by
  have hle := sizes.primary_le
  cases main with
  | spawning site v stage =>
    cases site with
    | setup => simp [MainThread.hasStocked] at h
    | dispatch => simpa [MainThread.hasStocked] using h
  | fillingPrimary i =>
    simp only [MainThread.hasStocked, decide_eq_true_eq] at h
    omega
  | fillingExtra i =>
    simp only [MainThread.hasStocked, decide_eq_true_eq] at h
    omega
  | loading => simp [MainThread.hasStocked] at h
  | constructing i => simp [MainThread.hasStocked] at h
  | _ => simpa [MainThread.hasStocked] using h

namespace Placed

variable {sizes : Sizes} {state : State}

theorem places_le (h : Placed sizes state) (w : ℕ) : state.places w ≤ 1 := by
  rw [h.once]
  exact Bool.toNat_le _

theorem lt_of_places (h : Placed sizes state) {w : ℕ} (hplaces : 0 < state.places w) :
    w < sizes.maxWorkerNum := by
  rw [h.once] at hplaces
  cases hstocked : state.main.hasStocked sizes w with
  | false => simp [hstocked] at hplaces
  | true => exact MainThread.lt_of_hasStocked hstocked

theorem nodup_primary (h : Placed sizes state) : state.primaryWorkerStack.Nodup := by
  rw [List.nodup_iff_count_le_one]
  intro w
  have hle := h.places_le w
  unfold State.places at hle
  omega

theorem nodup_extra (h : Placed sizes state) : state.extraWorkerStack.Nodup := by
  rw [List.nodup_iff_count_le_one]
  intro w
  have hle := h.places_le w
  unfold State.places at hle
  omega

theorem length_primary_le (h : Placed sizes state) :
    state.primaryWorkerStack.length ≤ sizes.hardwareConcurrency := by
  have hsubset : state.primaryWorkerStack ⊆ List.range sizes.hardwareConcurrency := by
    intro w hw
    exact List.mem_range.mpr (h.primary w hw)
  simpa using (List.subperm_of_subset h.nodup_primary hsubset).length_le

theorem lt_of_mem_extra (h : Placed sizes state) {w : ℕ} (hw : w ∈ state.extraWorkerStack) :
    w < sizes.maxWorkerNum := by
  apply h.lt_of_places
  have hcount := List.count_pos_iff.mpr hw
  unfold State.places
  omega

theorem length_extra_le (h : Placed sizes state) :
    state.extraWorkerStack.length ≤ sizes.maxWorkerNum - sizes.hardwareConcurrency := by
  have hsubset : state.extraWorkerStack ⊆
      List.range' sizes.hardwareConcurrency (sizes.maxWorkerNum - sizes.hardwareConcurrency) := by
    intro w hw
    have hlower := h.extra w hw
    have hupper := h.lt_of_mem_extra hw
    rw [List.mem_range'_1]
    omega
  simpa using (List.subperm_of_subset h.nodup_extra hsubset).length_le

end Placed

namespace Sound

variable {sizes : Sizes} {state : State} {w : ℕ}

theorem living_le_constructed (h : Sound sizes state) :
    state.main.living sizes ≤ state.constructed := by
  have hrange := h.controlled.inRange
  rw [h.controlled.constructed]
  cases hmain : state.main with
  | spawning site w stage =>
    cases site <;> simp_all [MainThread.living, MainThread.constructed]
  | joiningClosed v =>
    rw [hmain] at hrange
    exact Nat.succ_le_of_lt hrange
  | _ => simp_all [MainThread.living, MainThread.constructed, MainThread.InRange]

theorem getIndex_of_thread (h : Sound sizes state)
    (hthread : (state.workers w).thread ≠ .absent) : state.getIndex w = w := by
  have hliving := h.lt_living hthread
  have hle := h.living_le_constructed
  unfold State.getIndex
  rw [if_pos (by omega)]

theorem putPrimaryWorker_eq (h : Sound sizes state)
    (hupdate : (state.workers w).hasUpdate = false) (hindex : state.getIndex w = w)
    (hprimary : w < sizes.hardwareConcurrency) :
    state.putPrimaryWorker sizes w =
      .ok { state with primaryWorkerStack := w :: state.primaryWorkerStack } := by
  simp [State.putPrimaryWorker, hupdate, hindex, hprimary, h.placed.length_primary_le, pure, bind,
    Except.pure, Except.bind]

theorem putExtraWorker_eq (h : Sound sizes state)
    (hupdate : (state.workers w).hasUpdate = false) (hindex : state.getIndex w = w)
    (hextra : sizes.hardwareConcurrency ≤ w) :
    state.putExtraWorker sizes w =
      .ok { state with extraWorkerStack := w :: state.extraWorkerStack } := by
  simp [State.putExtraWorker, hupdate, hindex, hextra, h.placed.length_extra_le, pure, bind,
    Except.pure, Except.bind]

theorem count_push (stack : List ℕ) (v w : ℕ) :
    (w :: stack).count v = stack.count v + if v = w then 1 else 0 := by
  rw [List.count_cons]
  simp [@eq_comm _ v w]

/-- A worker that has put itself back is as good as one that is before `runWorker`. -/
theorem returned (h : Sound sizes state) (hthread : (state.workers w).thread = .putting)
    (primaryWorkerStack extraWorkerStack : List ℕ)
    (hcount : ∀ v, primaryWorkerStack.count v + extraWorkerStack.count v =
      state.primaryWorkerStack.count v + state.extraWorkerStack.count v + if v = w then 1 else 0)
    (hprimary : ∀ v ∈ primaryWorkerStack, v < sizes.hardwareConcurrency)
    (hextra : ∀ v ∈ extraWorkerStack, sizes.hardwareConcurrency ≤ v) :
    Sound sizes { state.setWorker w { state.workers w with thread := .ready } with
      primaryWorkerStack, extraWorkerStack } := by
  have hup : (state.workers w).thread.isUp = true := by simp [hthread, Thread.isUp]
  have hupdate := (h.fits w).putting hthread
  apply h.change (MainThread.Stays.refl h.controlled.inRange).moves (fun _ _ ↦ rfl)
  · apply (h.fits w).goOn hup <;> simp [Thread.isUp, hupdate]
  · exact ⟨rfl, rfl⟩
  · exact fun _ _ ↦ id
  · intro habsent
    simp [h.controlled.absent w habsent] at hthread
  · constructor
    · intro v
      have honce := h.placed.once v
      have hcountAt := hcount v
      by_cases hv : v = w
      · subst hv
        simp [State.places, State.setWorker, Worker.isBusy, hthread, hupdate] at honce hcountAt ⊢
        omega
      · simp [State.places, State.setWorker, hv] at honce hcountAt ⊢
        omega
    · intro hsetup
      have hquiet := h.placed.quiet hsetup w
      simp [Worker.isBusy, hthread] at hquiet
    · exact hprimary
    · exact hextra

theorem enterLoop_setThread (state : State) (w : ℕ) (thread : Thread) :
    (state.setWorker w { state.workers w with thread }).enterLoop w = state.enterLoop w := by
  simp [State.enterLoop, State.exitLoop, State.setWorker]

theorem putBack (h : Sound sizes state) (hthread : (state.workers w).thread = .putting) :
    Succeeds sizes (state.putBack sizes w) := by
  have hupdate := (h.fits w).putting hthread
  have hindex := h.getIndex_of_thread (w := w) (by simp [hthread])
  cases hkind : sizes.isPrimaryWorker w with
  | true =>
    have hprimary : w < sizes.hardwareConcurrency := by simpa [Sizes.isPrimaryWorker] using hkind
    have hsound : Sound sizes { state.setWorker w { state.workers w with thread := .ready } with
        primaryWorkerStack := w :: state.primaryWorkerStack } := by
      apply h.returned hthread (w :: state.primaryWorkerStack) state.extraWorkerStack
      · intro v
        rw [count_push]
        omega
      · exact List.forall_mem_cons.mpr ⟨hprimary, h.placed.primary⟩
      · exact h.placed.extra
    obtain ⟨next, hnext, hsound⟩ := hsound.enterLoop (w := w) (by simp [Thread.isUp]) (by simp)
    refine .of_eq ?_ hsound
    rw [← hnext]
    simp only [State.putBack, hkind, h.putPrimaryWorker_eq hupdate hindex hprimary]
    exact (enterLoop_setThread
      { state with primaryWorkerStack := w :: state.primaryWorkerStack } w .ready).symm
  | false =>
    have hextra : sizes.hardwareConcurrency ≤ w := by simpa [Sizes.isPrimaryWorker] using hkind
    have hsound : Sound sizes { state.setWorker w { state.workers w with thread := .ready } with
        extraWorkerStack := w :: state.extraWorkerStack } := by
      apply h.returned hthread state.primaryWorkerStack (w :: state.extraWorkerStack)
      · intro v
        rw [count_push]
        omega
      · exact h.placed.primary
      · exact List.forall_mem_cons.mpr ⟨hextra, h.placed.extra⟩
    obtain ⟨next, hnext, hsound⟩ := hsound.enterLoop (w := w) (by simp [Thread.isUp]) (by simp)
    refine .of_eq ?_ hsound
    rw [← hnext]
    simp only [State.putBack, hkind, h.putExtraWorker_eq hupdate hindex hextra]
    exact (enterLoop_setThread
      { state with extraWorkerStack := w :: state.extraWorkerStack } w .ready).symm

/-! ### All steps of a worker's thread -/

theorem workerStep (h : Sound sizes state)
    (hcommand : (state.workers w).thread = .handling → state.stopUpdate = true →
      (state.workers w).update.isShellCommand = false)
    {outcome : Except Assertion State} (hstep : state.workerStep sizes w = some outcome) :
    Succeeds sizes outcome := by
  unfold State.workerStep at hstep
  cases hthread : (state.workers w).thread with
  | absent => simp [hthread] at hstep
  | finished => simp [hthread] at hstep
  | created =>
    simp only [hthread, Option.some.injEq] at hstep
    refine .of_eq hstep.symm
      (h.setWorker ((h.fits w).start hthread) ⟨rfl, rfl⟩ ?_ (by simp [hthread]))
    simp [Worker.isBusy, hthread]
  | started =>
    simp only [hthread, Option.some.injEq] at hstep
    refine .of_eq hstep.symm
      (h.setWorker ((h.fits w).goOnline hthread) ⟨rfl, rfl⟩ ?_ (by simp [hthread]))
    simp [Worker.isBusy, hthread]
  | online =>
    simp only [hthread, Option.some.injEq] at hstep
    have hup : (state.workers w).thread.isUp = true := by simp [hthread, Thread.isUp]
    have hunhurried (hview : state.main.view w = .joiningClosed) :
        (state.workers w).hasUpdate = true → False := by
      intro hupdate
      simpa [hthread] using (h.fits w).unhurried hview hupdate
    refine .of_eq hstep.symm (h.setWorker ?_ ⟨rfl, rfl⟩ ?_ (by simp [hthread]))
    · exact (h.fits w).goOn hup rfl (by simp) (by simp)
        fun hview hupdate ↦ (hunhurried hview hupdate).elim
    · simp [Worker.isBusy, hthread]
  | ready =>
    have hup : (state.workers w).thread.isUp = true := by simp [hthread, Thread.isUp]
    have honline := (h.fits w).isOnline.trans hup
    obtain ⟨next, hnext, hsound⟩ := h.enterLoop hup (by simp [hthread])
    refine .of_eq ?_ hsound
    simpa [hthread, honline, hnext, bind, Except.bind, eq_comm] using hstep
  | waiting timeoutCounter =>
    simp only [hthread, Option.ite_none_right_eq_some, Option.some.injEq] at hstep
    exact hstep.2 ▸ h.wake hthread hstep.1
  | handling =>
    simp only [hthread, Option.some.injEq] at hstep
    exact hstep ▸ h.handleUpdate hthread (hcommand hthread)
  | putting =>
    simp only [hthread, Option.some.injEq] at hstep
    exact hstep ▸ h.putBack hthread
  | leaving =>
    have honline : (state.workers w).isOnline = false := by
      simpa [hthread, Thread.isUp] using (h.fits w).isOnline
    have hstop := (h.fits w).stopped (.inl (by simp [hthread, Thread.isOver]))
    refine .of_eq ?_
      (h.setWorker ((h.fits w).finish hthread) ⟨rfl, rfl⟩ ?_ (by simp [hthread]))
    · simpa [hthread, honline, hstop, pure, bind, Except.pure, Except.bind, eq_comm] using hstep
    · simp [Worker.isBusy, hthread]

theorem timeoutStep (h : Sound sizes state) {outcome : Except Assertion State}
    (hstep : state.timeoutStep sizes w = some outcome) : Succeeds sizes outcome := by
  unfold State.timeoutStep at hstep
  cases hthread : (state.workers w).thread with
  | waiting timeoutCounter =>
    have hup : (state.workers w).thread.isUp = true := by simp [hthread, Thread.isUp]
    simp only [hthread, Option.ite_none_left_eq_some, Bool.or_eq_true, not_or] at hstep
    obtain ⟨⟨hupdate, hstop⟩, hstep⟩ := hstep
    have hbusy : (state.workers w).isBusy = false := by simp [Worker.isBusy, hupdate, hthread]
    split_ifs at hstep with hkind hcounter
    · exact .of_eq (Option.some.inj hstep).symm h
    · exact .of_eq (Option.some.inj hstep).symm (h.wait hup hbusy (timeoutCounter + 1))
    · refine .of_eq ?_ (h.leave hup hbusy)
      rw [← Option.some.inj hstep]
      simp [State.exitLoop, State.setWorker, hupdate, pure, bind, Except.pure, Except.bind]
  | _ => simp [hthread] at hstep

end Sound

end Tgvisd.WorkerPool
