import Tgvisd.Main.PoolInvariant

/-!
# The steps of the main thread

Every step of the main thread keeps the invariant of the pool: of `spawnThreads`, of the
dispatcher, of `Worker::spawn` for both, and of the destructor, as long as `close` does not set
the stop flag of a worker with a pending update. With the steps of the workers this gives the
invariant of all runs.
-/

namespace Tgvisd.WorkerPool

/-! ## Views -/

namespace MainThread

@[simp]
theorem view_testing_self (w : ℕ) : (testing w).view w = .testing := by simp [view]

@[simp]
theorem view_spawning_self (site : SpawnSite) (w : ℕ) (stage : SpawnStage) :
    (spawning site w stage).view w = .spawning site stage := by simp [view]

@[simp]
theorem view_joiningClosed_self (w : ℕ) : (joiningClosed w).view w = .joiningClosed := by
  simp [view]

end MainThread

namespace Fits

variable {worker : Worker}

/-- The main thread turns to a worker without a thread, or with an old one. -/
theorem look {view : View} (h : Fits view worker)
    (hover : worker.thread.isOver = true) {site : SpawnSite} {stage : SpawnStage}
    (hpermits : stage.permits worker.thread = true)
    (hreviving : view.isReviving = true → (View.spawning site stage).isReviving = true) :
    Fits (.spawning site stage) worker := by
  constructor
  case isOnline => exact h.isOnline
  case stopped => exact h.stopped
  case handling => exact h.handling
  case putting => exact h.putting
  case spawning =>
    intro site' stage' hspawning
    obtain ⟨rfl, rfl⟩ := View.spawning.inj hspawning
    exact hpermits
  case pending => exact fun hupdate hover ↦ hreviving (h.pending hupdate hover)
  all_goals cases hthread : worker.thread <;>
    simp_all [Thread.isOver, Thread.isUp, Thread.isStarting]

/-- The main thread turns away from a running worker. -/
theorem lookAway {view : View} (h : Fits view worker) (hview : view ≠ .joiningClosed)
    (hup : worker.thread.isUp = true) : Fits .elsewhere worker := by
  constructor
  case isOnline => exact h.isOnline
  case stopped => exact h.stopped
  case running => exact fun hrunning _ ↦ h.running hrunning hview
  case handling => exact h.handling
  case putting => exact h.putting
  all_goals cases hthread : worker.thread <;>
    simp_all [Thread.isOver, Thread.isUp, Thread.isStarting]

/-- A worker that the main thread finds offline has no running thread. -/
theorem isOver_of_offline {view : View} (h : Fits view worker) (hview : view.isAwaiting = false)
    (honline : worker.isOnline = false) : worker.thread.isOver = true := by
  have hup : worker.thread.isUp = false := h.isOnline.symm.trans honline
  have hstarting : worker.thread.isStarting ≠ true := by
    intro hstarting
    simp [h.starting hstarting] at hview
  cases hthread : worker.thread <;> simp_all [Thread.isOver, Thread.isUp, Thread.isStarting]

/-- An idle worker is sent an update. -/
theorem send (h : Fits .elsewhere worker) (hputting : worker.thread ≠ .putting)
    (update : Update) : Fits .testing { worker with update, hasUpdate := true } := by
  constructor
  case isOnline => exact h.isOnline
  case stopped => exact h.stopped
  case running => exact fun hrunning _ ↦ h.running hrunning (by simp)
  case putting => exact fun hthread ↦ absurd hthread hputting
  case starting =>
    intro hstarting
    simpa [View.isAwaiting] using h.starting hstarting
  all_goals simp [View.isReviving]

/-- `spawn` joins the old thread. -/
theorem join {site : SpawnSite} (h : Fits (.spawning site .joining) worker)
    (hthread : worker.thread = .finished) :
    Fits (.spawning site .creating) { worker with thread := .absent } := by
  have hover : worker.thread.isOver = true := by simp [hthread, Thread.isOver]
  have honline : worker.isOnline = false := by simpa [hthread, Thread.isUp] using h.isOnline
  constructor
  case stopped => exact fun _ ↦ h.stopped (.inl hover)
  case pending =>
    intro hupdate _
    cases site with
    | setup => simpa [View.isReviving] using h.pending hupdate hover
    | dispatch => rfl
  all_goals simp [Thread.isUp, Thread.isStarting, SpawnStage.permits, honline]

/-- `doSpawn` creates a thread. -/
theorem create {site : SpawnSite} (h : Fits (.spawning site .creating) worker) :
    Fits (.spawning site .awaiting) { worker with thread := .created } := by
  have hthread : worker.thread = .absent := by
    simpa [SpawnStage.permits] using h.spawning site .creating rfl
  have hstop := h.stopped (.inl (by simp [hthread, Thread.isOver]))
  have honline : worker.isOnline = false := by simpa [hthread, Thread.isUp] using h.isOnline
  constructor <;>
    simp [Thread.isUp, Thread.isOver, Thread.isStarting, View.isAwaiting, SpawnStage.permits,
      honline, hstop]

/-- `close` sets the stop flag of a worker. -/
theorem close (h : Fits .elsewhere worker)
    (hunhurried : worker.hasUpdate = true → worker.thread = .handling) :
    Fits .joiningClosed { worker with stopEventLoop := true } := by
  constructor
  case isOnline => exact h.isOnline
  case handling => exact h.handling
  case putting => exact h.putting
  case starting =>
    intro hstarting
    simpa [View.isAwaiting] using h.starting hstarting
  case pending =>
    intro hupdate hover
    simpa [View.isReviving] using h.pending hupdate hover
  case unhurried => exact fun _ ↦ hunhurried
  all_goals simp

/-- `close` joins the thread. -/
theorem joinClosed (h : Fits .joiningClosed worker) (hthread : worker.thread = .finished) :
    Fits .elsewhere { worker with thread := .absent } := by
  have honline : worker.isOnline = false := by simpa [hthread, Thread.isUp] using h.isOnline
  have hupdate : worker.hasUpdate = false := by
    by_contra hpending
    simpa [hthread] using h.unhurried rfl (by simpa using hpending)
  constructor <;>
    simp [Thread.isUp, Thread.isStarting, honline, hupdate, h.closed rfl]

end Fits

namespace Sound

variable {sizes : Sizes} {state : State} {main : MainThread} {w : ℕ}

/-! ## `Worker::spawn` -/

/-- The main thread turns to or away from a worker and leaves it as it is. -/
theorem turn (h : Sound sizes state) (hstays : state.main.Stays sizes main)
    (hview : ∀ v, v ≠ w → main.view v = state.main.view v)
    (hfits : Fits (main.view w) (state.workers w))
    (hliving : ∀ v, main.living sizes ≤ v → state.main.living sizes ≤ v) :
    Sound sizes { state with main } := by
  have hnext : Sound sizes { state.setWorker w (state.workers w) with main } := by
    apply h.move hstays hview hfits _ rfl
    · exact fun v _ ↦ hliving v
    · exact fun habsent ↦ h.controlled.absent w (hliving w habsent)
    · exact ⟨rfl, rfl⟩
  rwa [State.setWorker_self] at hnext

/-- Between two stages of `spawn`, the main thread does nothing else. -/
theorem stays_spawning {site : SpawnSite} {stage next : SpawnStage}
    (hrange : (MainThread.spawning site w stage).InRange sizes) :
    (MainThread.spawning site w stage).Stays sizes (.spawning site w next) := by
  cases site with
  | setup => exact ⟨⟨hrange, rfl, rfl, rfl, fun _ ↦ id⟩, rfl, rfl, id⟩
  | dispatch => exact ⟨⟨hrange, rfl, rfl, rfl, fun _ ↦ id⟩, rfl, rfl, id⟩

theorem living_spawning (site : SpawnSite) (stage next : SpawnStage) :
    (MainThread.spawning site w next).living sizes =
      (MainThread.spawning site w stage).living sizes := by
  cases site <;> rfl

theorem lt_living_spawning {site : SpawnSite} {stage : SpawnStage} (next : SpawnStage)
    (hrange : (MainThread.spawning site w stage).InRange sizes) :
    w < (MainThread.spawning site w next).living sizes := by
  cases site with
  | setup => exact Nat.lt_succ_self w
  | dispatch => exact hrange

theorem view_spawning_of_ne {site : SpawnSite} {stage next : SpawnStage} {v : ℕ} (hv : v ≠ w) :
    (MainThread.spawning site w next).view v = (MainThread.spawning site w stage).view v := by
  simp [MainThread.view, hv]

theorem spawned (h : Sound sizes state) {site : SpawnSite} {stage : SpawnStage}
    (hmain : state.main = .spawning site w stage)
    (hup : (state.workers w).thread.isUp = true) :
    Sound sizes { state with main := site.after w } := by
  have hfits := h.fits w
  have hrange := h.controlled.inRange
  rw [hmain] at hfits hrange
  have haway := hfits.lookAway (by simp) hup
  have hle := sizes.primary_le
  cases site with
  | setup =>
    apply h.turn (w := w)
    · rw [hmain]
      have hnext : w + 1 ≤ sizes.maxWorkerNum := Nat.lt_of_lt_of_le hrange hle
      exact ⟨⟨hnext, rfl, rfl, rfl, by simp [SpawnSite.after, MainThread.carried]⟩, rfl, rfl,
        fun _ ↦ rfl⟩
    · intro v hv
      simp [hmain, SpawnSite.after, MainThread.view, hv]
    · exact haway
    · rw [hmain]
      exact fun _ ↦ id
  | dispatch =>
    apply h.turn (w := w)
    · rw [hmain]
      exact ⟨⟨trivial, rfl, rfl, rfl, by simp [SpawnSite.after, MainThread.carried]⟩, rfl, rfl,
        by simp [SpawnSite.after, MainThread.isSetup]⟩
    · intro v hv
      simp [hmain, SpawnSite.after, MainThread.view, hv]
    · exact haway
    · rw [hmain]
      exact fun _ ↦ id

/-- `spawn` goes on to its next stage, doing something to its worker or not. -/
theorem spawning (h : Sound sizes state) {site : SpawnSite} {stage next : SpawnStage}
    {worker : Worker} (hmain : state.main = .spawning site w stage)
    (hfits : Fits (.spawning site next) worker) (hkeeps : (state.workers w).Keeps worker)
    (hbusy : worker.isBusy = (state.workers w).isBusy) :
    Sound sizes { state.setWorker w worker with main := .spawning site w next } := by
  have hrange := h.controlled.inRange
  rw [hmain] at hrange
  apply h.move (hmain ▸ stays_spawning hrange) _ _ hkeeps hbusy
  · intro v _ hle
    rwa [hmain, ← living_spawning site stage next]
  · intro hle
    have hlt := lt_living_spawning next hrange
    omega
  · intro v hv
    rw [hmain]
    exact view_spawning_of_ne hv
  · simpa using hfits

theorem spawning_same (h : Sound sizes state) {site : SpawnSite} {stage next : SpawnStage}
    (hmain : state.main = .spawning site w stage)
    (hfits : Fits (.spawning site next) (state.workers w)) :
    Sound sizes { state with main := .spawning site w next } := by
  have hnext := h.spawning hmain hfits ⟨rfl, rfl⟩ rfl
  rwa [State.setWorker_self] at hnext

theorem lt_constructed_of_spawning (h : Sound sizes state) {site : SpawnSite} {stage : SpawnStage}
    (hmain : state.main = .spawning site w stage) : w < state.constructed := by
  have hrange := h.controlled.inRange
  rw [h.controlled.constructed]
  rw [hmain] at hrange ⊢
  cases site with
  | setup => exact Nat.lt_succ_self w
  | dispatch => exact hrange

theorem spawnStep (h : Sound sizes state) {site : SpawnSite} {stage : SpawnStage}
    (hmain : state.main = .spawning site w stage) {outcome : Except Assertion State}
    (hstep : state.spawnStep site w stage = some outcome) : Succeeds sizes outcome := by
  have hfits := h.fits w
  rw [hmain, MainThread.view_spawning_self] at hfits
  have hpermits := hfits.spawning site stage rfl
  cases stage with
  | checking =>
    have honline : (state.workers w).isOnline = false := by
      rw [hfits.isOnline]
      cases hthread : (state.workers w).thread <;>
        simp_all [SpawnStage.permits, Thread.isOver, Thread.isUp]
    have hnext : Fits (.spawning site .reaping) (state.workers w) :=
      hfits.look hpermits hpermits (by cases site <;> simp [View.isReviving])
    refine .of_eq ?_ (h.spawning_same hmain hnext)
    simpa [State.spawnStep, h.lt_constructed_of_spawning hmain, honline, pure, bind, Except.pure,
      Except.bind, eq_comm] using hstep
  | reaping =>
    by_cases hthread : (state.workers w).thread = .absent
    · have hnext : Fits (.spawning site .creating) (state.workers w) :=
        hfits.look hpermits (by simp [SpawnStage.permits, hthread])
          (by cases site <;> simp [View.isReviving])
      refine .of_eq ?_ (h.spawning_same hmain hnext)
      simpa [State.spawnStep, hthread, eq_comm] using hstep
    · have hstop := hfits.stopped (.inl hpermits)
      have hold : SpawnStage.joining.permits (state.workers w).thread = true := by
        cases hcase : (state.workers w).thread <;> simp_all [SpawnStage.permits, Thread.isOver]
      have hnext : Fits (.spawning site .joining) (state.workers w) :=
        hfits.look hpermits hold (by cases site <;> simp [View.isReviving])
      refine .of_eq ?_ (h.spawning_same hmain hnext)
      simpa [State.spawnStep, hthread, hstop, pure, bind, Except.pure, Except.bind, eq_comm]
        using hstep
  | joining =>
    by_cases hthread : (state.workers w).thread = .finished
    · refine .of_eq ?_ (h.spawning hmain (hfits.join hthread) ⟨rfl, rfl⟩ ?_)
      · simpa [State.spawnStep, hthread, eq_comm] using hstep
      · simp [Worker.isBusy, hthread]
    · simp [State.spawnStep, hthread] at hstep
  | creating =>
    have hthread : (state.workers w).thread = .absent := by
      simpa [SpawnStage.permits] using hpermits
    have honline : (state.workers w).isOnline = false := by
      simpa [hthread, Thread.isUp] using hfits.isOnline
    refine .of_eq ?_ (h.spawning hmain hfits.create ⟨rfl, rfl⟩ ?_)
    · simpa [State.spawnStep, honline, pure, bind, Except.pure, Except.bind, eq_comm] using hstep
    · simp [Worker.isBusy, hthread]
  | awaiting =>
    simp only [State.spawnStep, Option.ite_none_right_eq_some, Option.some.injEq,
      Bool.and_eq_true] at hstep
    obtain ⟨⟨honline, -⟩, rfl⟩ := hstep
    exact .of_eq rfl (h.spawned hmain (hfits.isOnline.symm.trans honline))

end Sound

/-! ## The beginning and the end -/

/-- The workers, the stacks and the record are as before. -/
structure State.Agrees (before after : State) : Prop where
  fault : after.fault = before.fault
  workers : after.workers = before.workers
  primary : after.primaryWorkerStack = before.primaryWorkerStack
  extra : after.extraWorkerStack = before.extraWorkerStack
  sent : after.sent = before.sent
  handled : after.handled = before.handled

namespace Sound

variable {sizes : Sizes} {state next : State}

/-- A step of the main thread that only concerns itself, the module and the next update. -/
theorem alone (h : Sound sizes state) (hagrees : state.Agrees next)
    (hfits : ∀ w, Fits (next.main.view w) (state.workers w))
    (hsame : state.main.SamePlaces sizes next.main) (harrivals : state.arrivals ≤ next.arrivals)
    (hcarried : ∀ update, next.main.carried = some update → update.serial < next.arrivals ∧
      ∀ delivery ∈ state.sent, delivery.2.serial < update.serial)
    (hcontrolled : Controlled sizes next) : Sound sizes next where
  fault := hagrees.fault.trans h.fault
  fits w := by
    rw [hagrees.workers]
    exact hfits w
  placed := by
    apply h.placed.of_samePlaces hsame _ hagrees.primary hagrees.extra
    intro w
    rw [hagrees.workers]
  controlled := hcontrolled
  accounted := by
    have hpending : next.IsPending = state.IsPending := by
      unfold State.IsPending
      rw [hagrees.workers]
    constructor
    · rw [hpending, hagrees.sent, hagrees.handled]
      exact h.accounted.sent
    · rw [hagrees.handled]
      exact h.accounted.handled
    · rw [hpending, hagrees.handled]
      exact h.accounted.pending
    · rw [hagrees.sent]
      exact h.accounted.serials
    · rw [hagrees.sent]
      intro delivery hdelivery
      exact Nat.lt_of_lt_of_le (h.accounted.arrived delivery hdelivery) harrivals
    · rw [hagrees.sent]
      exact hcarried

theorem loading (h : Sound sizes state) (hmain : state.main = .loading) :
    Sound sizes { state with
      gModule := true, gModuleRefCount := 1, module_ := true, main := .constructing 0 } := by
  obtain ⟨-, hconstructed, -, -, -, hstop, habsent⟩ := h.controlled
  have hfits := h.fits
  rw [hmain] at hconstructed hstop habsent hfits
  apply h.alone
  · exact ⟨rfl, rfl, rfl, rfl, rfl, rfl⟩
  · exact hfits
  · rw [hmain]
    exact ⟨rfl, rfl, id⟩
  · exact Nat.le_refl _
  · simp [MainThread.carried]
  · exact ⟨Nat.zero_le _, hconstructed, rfl, rfl, rfl, hstop, habsent⟩

/-- A worker is constructed, and spawned if it is a primary one. -/
theorem constructing (h : Sound sizes state) {i : ℕ} (hmain : state.main = .constructing i)
    {main : MainThread} (hnext : main = .constructing (i + 1) ∧ i < sizes.maxWorkerNum ∨
      main = .spawning .setup i .checking ∧ i < sizes.hardwareConcurrency) :
    Sound sizes { state.construct i with main } := by
  obtain ⟨-, -, hloaded, hmodule, hcount, hstop, habsent⟩ := h.controlled
  have hfits := h.fits
  rw [hmain] at hloaded hmodule hcount hstop habsent hfits
  have hrest (w : ℕ) (hw : i + 1 ≤ w) : (state.workers w).thread = .absent :=
    habsent w (Nat.le_of_succ_le hw)
  have hagrees : state.Agrees { state.construct i with main } := ⟨rfl, rfl, rfl, rfl, rfl, rfl⟩
  rcases hnext with ⟨rfl, hi⟩ | ⟨rfl, hi⟩
  · apply h.alone hagrees hfits (hmain ▸ ⟨rfl, rfl, id⟩) (Nat.le_refl _)
    · simp [MainThread.carried]
    · exact ⟨hi, rfl, hloaded, hmodule, hcount, hstop, hrest⟩
  · apply h.alone hagrees _ (hmain ▸ ⟨rfl, rfl, fun _ ↦ rfl⟩) (Nat.le_refl _)
    · simp [MainThread.carried]
    · exact ⟨hi, rfl, hloaded, hmodule, hcount, hstop, hrest⟩
    · intro w
      by_cases hw : w = i
      · subst hw
        have hthread := habsent w (Nat.le_refl _)
        rw [MainThread.view_spawning_self]
        apply (hfits w).look <;>
          simp [hthread, Thread.isOver, SpawnStage.permits, MainThread.view, View.isReviving]
      · simpa [MainThread.view, hw] using hfits w

theorem unloading (h : Sound sizes state) (hmain : state.main = .unloading) :
    Sound sizes { state with
      gModule := false, gModuleRefCount := 0, module_ := false, main := .exited } := by
  obtain ⟨-, hconstructed, -, -, -, hstop, habsent⟩ := h.controlled
  have hfits := h.fits
  rw [hmain] at hconstructed hstop habsent hfits
  apply h.alone
  · exact ⟨rfl, rfl, rfl, rfl, rfl, rfl⟩
  · exact hfits
  · rw [hmain]
    exact ⟨rfl, rfl, id⟩
  · exact Nat.le_refl _
  · simp [MainThread.carried]
  · exact ⟨trivial, hconstructed, rfl, rfl, rfl, hstop, habsent⟩

theorem arriving (h : Sound sizes state) (hmain : state.main = .idle) (content : Option Content) :
    Sound sizes { state with
      arrivals := state.arrivals + 1, main := .takingPrimary ⟨state.arrivals, content⟩ } := by
  obtain ⟨-, hconstructed, hloaded, hmodule, hcount, hstop, habsent⟩ := h.controlled
  have hfits := h.fits
  rw [hmain] at hconstructed hloaded hmodule hcount hstop habsent hfits
  apply h.alone
  · exact ⟨rfl, rfl, rfl, rfl, rfl, rfl⟩
  · exact hfits
  · rw [hmain]
    exact ⟨rfl, rfl, id⟩
  · exact Nat.le_succ _
  · intro update hcarried
    obtain rfl := Option.some.inj hcarried
    exact ⟨Nat.lt_succ_self _, h.accounted.arrived⟩
  · exact ⟨trivial, hconstructed, hloaded, hmodule, hcount, hstop, habsent⟩

theorem shuttingDown (h : Sound sizes state) (hmain : state.main = .idle) :
    Sound sizes { state with stopUpdate := true, main := .closing sizes.maxWorkerNum } := by
  obtain ⟨-, hconstructed, hloaded, hmodule, hcount, -, habsent⟩ := h.controlled
  have hfits := h.fits
  rw [hmain] at hconstructed hloaded hmodule hcount habsent hfits
  apply h.alone
  · exact ⟨rfl, rfl, rfl, rfl, rfl, rfl⟩
  · exact hfits
  · rw [hmain]
    exact ⟨rfl, rfl, id⟩
  · exact Nat.le_refl _
  · simp [MainThread.carried]
  · exact ⟨Nat.le_refl _, hconstructed, hloaded, hmodule, hcount, rfl, habsent⟩

/-! ## Filling the stacks -/

/-- The main thread moves on and the stacks change. -/
theorem restock (h : Sound sizes state) {main : MainThread}
    (primaryWorkerStack extraWorkerStack : List ℕ) (hmoves : state.main.Moves sizes main)
    (hview : main.view = state.main.view)
    (hliving : main.living sizes = state.main.living sizes)
    (hsetup : main.isSetup = true → state.main.isSetup = true)
    (honce : ∀ w, primaryWorkerStack.count w + extraWorkerStack.count w + (main.holds w).toNat +
      (state.workers w).isBusy.toNat = (main.hasStocked sizes w).toNat)
    (hprimary : ∀ w ∈ primaryWorkerStack, w < sizes.hardwareConcurrency)
    (hextra : ∀ w ∈ extraWorkerStack, sizes.hardwareConcurrency ≤ w) :
    Sound sizes { state with main, primaryWorkerStack, extraWorkerStack } := by
  have hnext : Sound sizes { state.setWorker 0 (state.workers 0) with
      main, primaryWorkerStack, extraWorkerStack } := by
    apply h.change hmoves (fun w _ ↦ congrFun hview w) (hview ▸ h.fits 0)
    · exact ⟨rfl, rfl⟩
    · exact fun _ _ ↦ hliving ▸ id
    · exact hliving ▸ h.controlled.absent 0
    · rw [State.setWorker_self]
      exact ⟨honce, fun hnext ↦ h.placed.quiet (hsetup hnext), hprimary, hextra⟩
  rwa [State.setWorker_self] at hnext

theorem getIndex_of_lt (h : Sound sizes state) {w : ℕ} (hw : w < sizes.maxWorkerNum)
    (hconstructed : state.main.constructed sizes = sizes.maxWorkerNum) : state.getIndex w = w := by
  unfold State.getIndex
  rw [h.controlled.constructed, hconstructed, if_pos hw]

theorem hasUpdate_of_quiet (h : Sound sizes state) (hsetup : state.main.isSetup = true) (w : ℕ) :
    (state.workers w).hasUpdate = false := by
  have hquiet := h.placed.quiet hsetup w
  simp only [Worker.isBusy, Bool.or_eq_false_iff] at hquiet
  exact hquiet.1

theorem fillPrimaryStep (h : Sound sizes state) {i : ℕ} (hmain : state.main = .fillingPrimary i) :
    Succeeds sizes (state.fillPrimaryStep sizes i) := by
  have hrange := h.controlled.inRange
  have hle := sizes.primary_le
  rw [hmain] at hrange
  cases i with
  | zero =>
    refine .of_eq rfl (h.setMain ?_ ?_ ?_)
    · rw [hmain]
      refine ⟨⟨⟨hle, Nat.le_refl _⟩, rfl, rfl, rfl, by simp [MainThread.carried]⟩, rfl, ?_,
        fun _ ↦ rfl⟩
      funext w
      simp only [MainThread.hasStocked, decide_eq_decide]
      omega
    · rw [hmain]
      rfl
    · rw [hmain]
      rfl
  | succ i =>
    have hi : i < sizes.hardwareConcurrency := hrange
    have hsetup : state.main.isSetup = true := by simp [hmain, MainThread.isSetup]
    have hindex : state.getIndex i = i := h.getIndex_of_lt (by omega) (hmain ▸ rfl)
    have hput := h.putPrimaryWorker_eq (h.hasUpdate_of_quiet hsetup i) hindex hi
    have hnext : Sound sizes { state with
        main := .fillingPrimary i, primaryWorkerStack := i :: state.primaryWorkerStack } := by
      apply h.restock (i :: state.primaryWorkerStack) state.extraWorkerStack
      · rw [hmain]
        exact ⟨Nat.le_of_lt hi, rfl, rfl, rfl, by simp [MainThread.carried]⟩
      · rw [hmain]
        rfl
      · rw [hmain]
        rfl
      · exact fun _ ↦ hsetup
      · intro w
        have honce := h.placed.once w
        simp only [State.places, hmain, MainThread.holds, MainThread.hasStocked] at honce ⊢
        rw [count_push]
        by_cases hw : w = i
        · subst hw
          have hbefore : decide (w + 1 ≤ w ∧ w < sizes.hardwareConcurrency) = false := by simp
          have hafter : decide (w ≤ w ∧ w < sizes.hardwareConcurrency) = true := by simp [hi]
          rw [hbefore] at honce
          rw [hafter, if_pos rfl]
          simp only [Bool.toNat_false, Bool.toNat_true] at honce ⊢
          omega
        · have hiff : i ≤ w ↔ i + 1 ≤ w := by omega
          simp [hw, hiff] at honce ⊢
          omega
      · exact List.forall_mem_cons.mpr ⟨hi, h.placed.primary⟩
      · exact h.placed.extra
    refine .of_eq ?_ hnext
    simp [State.fillPrimaryStep, hindex, hput, pure, bind, Except.pure, Except.bind]

theorem fillExtraStep (h : Sound sizes state) {i : ℕ} (hmain : state.main = .fillingExtra i) :
    Succeeds sizes (state.fillExtraStep sizes i) := by
  have hrange := h.controlled.inRange
  rw [hmain] at hrange
  obtain ⟨hlower, hupper⟩ := hrange
  by_cases hi : sizes.hardwareConcurrency < i
  · obtain ⟨i, rfl⟩ := Nat.exists_eq_succ_of_ne_zero (Nat.ne_of_gt (Nat.zero_lt_of_lt hi))
    have hprimary : sizes.hardwareConcurrency ≤ i := Nat.lt_succ_iff.mp hi
    have hsetup : state.main.isSetup = true := by simp [hmain, MainThread.isSetup]
    have hindex : state.getIndex i = i := h.getIndex_of_lt hupper (hmain ▸ rfl)
    have hput := h.putExtraWorker_eq (h.hasUpdate_of_quiet hsetup i) hindex hprimary
    have hnext : Sound sizes { state with
        main := .fillingExtra i, extraWorkerStack := i :: state.extraWorkerStack } := by
      apply h.restock state.primaryWorkerStack (i :: state.extraWorkerStack)
      · rw [hmain]
        exact ⟨⟨hprimary, Nat.le_of_succ_le hupper⟩, rfl, rfl, rfl, by simp [MainThread.carried]⟩
      · rw [hmain]
        rfl
      · rw [hmain]
        rfl
      · exact fun _ ↦ hsetup
      · intro w
        have honce := h.placed.once w
        simp only [State.places, hmain, MainThread.holds, MainThread.hasStocked] at honce ⊢
        rw [count_push]
        by_cases hw : w = i
        · subst hw
          have hbefore : decide (w < sizes.hardwareConcurrency ∨
              w + 1 ≤ w ∧ w < sizes.maxWorkerNum) = false := by simp [hprimary]
          have hafter : decide (w < sizes.hardwareConcurrency ∨
              w ≤ w ∧ w < sizes.maxWorkerNum) = true := by simp [Nat.lt_of_succ_le hupper]
          rw [Nat.succ_eq_add_one, hbefore] at honce
          rw [hafter, if_pos rfl]
          simp only [Bool.toNat_false, Bool.toNat_true] at honce ⊢
          omega
        · have hiff : i ≤ w ↔ i + 1 ≤ w := by omega
          simp [hw, hiff] at honce ⊢
          omega
      · exact h.placed.primary
      · exact List.forall_mem_cons.mpr ⟨hprimary, h.placed.extra⟩
    refine .of_eq ?_ hnext
    simp [State.fillExtraStep, Nat.lt_succ_iff.mpr hprimary, hindex, hput, pure, bind, Except.pure,
      Except.bind]
  · have hi : i = sizes.hardwareConcurrency := by omega
    have hnext : Sound sizes { state with main := .counting } := by
      apply h.setMain
      · rw [hmain, hi]
        refine ⟨⟨trivial, rfl, rfl, rfl, by simp [MainThread.carried]⟩, rfl, ?_, fun _ ↦ rfl⟩
        funext w
        have hle := sizes.primary_le
        simp only [MainThread.hasStocked, decide_eq_decide]
        omega
      · rw [hmain]
        rfl
      · rw [hmain]
        rfl
    refine .of_eq ?_ hnext
    simp [State.fillExtraStep, hi, pure, Except.pure]

/-- After the last round both stacks are full. -/
theorem counting (h : Sound sizes state) (hmain : state.main = .counting)
    {outcome : Except Assertion State} (hstep : state.mainStep sizes = some outcome) :
    Succeeds sizes outcome := by
  have hcount (w : ℕ) (hw : w < sizes.maxWorkerNum) :
      state.primaryWorkerStack.count w + state.extraWorkerStack.count w = 1 := by
    have honce := h.placed.once w
    have hquiet := h.placed.quiet (by simp [hmain, MainThread.isSetup]) w
    simpa [State.places, hmain, MainThread.holds, MainThread.hasStocked, hquiet, hw] using honce
  have hle := sizes.primary_le
  have hprimary : List.range sizes.hardwareConcurrency ⊆ state.primaryWorkerStack := by
    intro w hw
    have hlt := List.mem_range.mp hw
    have hone := hcount w (by omega)
    have hextra : state.extraWorkerStack.count w = 0 := by
      rw [List.count_eq_zero]
      intro hmem
      have hge := h.placed.extra w hmem
      omega
    exact List.count_pos_iff.mp (by omega)
  have hextra : List.range' sizes.hardwareConcurrency
      (sizes.maxWorkerNum - sizes.hardwareConcurrency) ⊆ state.extraWorkerStack := by
    intro w hw
    rw [List.mem_range'_1] at hw
    have hone := hcount w (by omega)
    have hprimary : state.primaryWorkerStack.count w = 0 := by
      rw [List.count_eq_zero]
      intro hmem
      have hlt := h.placed.primary w hmem
      omega
    exact List.count_pos_iff.mp (by omega)
  have hprimaryLength := (List.subperm_of_subset List.nodup_range hprimary).length_le
  have hextraLength := (List.subperm_of_subset List.nodup_range' hextra).length_le
  rw [List.length_range] at hprimaryLength
  rw [List.length_range'] at hextraLength
  have hprimaryFull := Nat.le_antisymm h.placed.length_primary_le hprimaryLength
  have hextraFull := Nat.le_antisymm h.placed.length_extra_le hextraLength
  have hnext : Sound sizes { state with main := .idle } := by
    apply h.setMain
    · rw [hmain]
      exact ⟨⟨trivial, rfl, rfl, rfl, by simp [MainThread.carried]⟩, rfl, rfl,
        by simp [MainThread.isSetup]⟩
    · rw [hmain]
      rfl
    · rw [hmain]
      rfl
  refine .of_eq ?_ hnext
  simpa [State.mainStep, hmain, hprimaryFull, hextraFull, pure, bind, Except.pure, Except.bind,
    eq_comm] using hstep

/-! ## The dispatcher -/

/-- An idle worker is taken from one of the stacks. -/
theorem take (h : Sound sizes state) {update : Update} {w : ℕ}
    (hmain : state.main = .takingPrimary update ∨ state.main = .takingExtra update)
    (primaryWorkerStack extraWorkerStack : List ℕ)
    (hcount : ∀ v, primaryWorkerStack.count v + extraWorkerStack.count v +
      (if v = w then 1 else 0) =
        state.primaryWorkerStack.count v + state.extraWorkerStack.count v)
    (hprimary : ∀ v ∈ primaryWorkerStack, v ∈ state.primaryWorkerStack)
    (hextra : ∀ v ∈ extraWorkerStack, v ∈ state.extraWorkerStack) :
    Sound sizes { state with
      main := .asserting update w, primaryWorkerStack, extraWorkerStack } := by
  have hw : w < sizes.maxWorkerNum := by
    apply h.placed.lt_of_places
    have hcountAt := hcount w
    rw [if_pos rfl] at hcountAt
    unfold State.places
    omega
  apply h.restock primaryWorkerStack extraWorkerStack
  · rcases hmain with hmain | hmain
    · exact hmain ▸ ⟨hw, rfl, rfl, rfl, fun _ ↦ id⟩
    · exact hmain ▸ ⟨hw, rfl, rfl, rfl, fun _ ↦ id⟩
  · rcases hmain with hmain | hmain
    · exact hmain ▸ rfl
    · exact hmain ▸ rfl
  · rcases hmain with hmain | hmain
    · exact hmain ▸ rfl
    · exact hmain ▸ rfl
  · simp [MainThread.isSetup]
  · intro v
    have honce := h.placed.once v
    have hcountAt := hcount v
    have hbefore : (state.main.holds v).toNat = 0 ∧
        state.main.hasStocked sizes v = decide (v < sizes.maxWorkerNum) := by
      rcases hmain with hmain | hmain
      · simp [hmain, MainThread.holds, MainThread.hasStocked]
      · simp [hmain, MainThread.holds, MainThread.hasStocked]
    have hholds : ((MainThread.asserting update w).holds v).toNat = if v = w then 1 else 0 := by
      by_cases hv : v = w
      · simp [MainThread.holds, hv]
      · simp [MainThread.holds, hv]
    rw [hholds]
    simp only [State.places, hbefore] at honce
    simp only [MainThread.hasStocked]
    omega
  · exact fun v hv ↦ h.placed.primary v (hprimary v hv)
  · exact fun v hv ↦ h.placed.extra v (hextra v hv)

theorem takingPrimary (h : Sound sizes state) {update : Update}
    (hmain : state.main = .takingPrimary update) {outcome : Except Assertion State}
    (hstep : state.mainStep sizes = some outcome) : Succeeds sizes outcome := by
  cases hstack : state.primaryWorkerStack with
  | nil =>
    have hnext : Sound sizes { state with main := .takingExtra update } := by
      apply h.setMain
      · exact hmain ▸ ⟨⟨trivial, rfl, rfl, rfl, fun _ ↦ id⟩, rfl, rfl, id⟩
      · exact hmain ▸ rfl
      · exact hmain ▸ rfl
    refine .of_eq ?_ hnext
    simpa [State.mainStep, hmain, State.getPrimaryWorker, hstack, eq_comm] using hstep
  | cons w rest =>
    have hnext : Sound sizes { state with
        main := .asserting update w, primaryWorkerStack := rest } := by
      apply h.take (.inl hmain) rest state.extraWorkerStack
      · intro v
        rw [hstack, count_push]
        omega
      · intro v hv
        rw [hstack]
        exact List.mem_cons_of_mem w hv
      · exact fun _ ↦ id
    refine .of_eq ?_ hnext
    simpa [State.mainStep, hmain, State.getPrimaryWorker, hstack, eq_comm] using hstep

theorem takingExtra (h : Sound sizes state) {update : Update}
    (hmain : state.main = .takingExtra update) {outcome : Except Assertion State}
    (hstep : state.mainStep sizes = some outcome) : Succeeds sizes outcome := by
  cases hstack : state.extraWorkerStack with
  | nil =>
    have hnext : Sound sizes { state with main := .idle } := by
      apply h.setMain
      · exact hmain ▸ ⟨⟨trivial, rfl, rfl, rfl, by simp [MainThread.carried]⟩, rfl, rfl, id⟩
      · exact hmain ▸ rfl
      · exact hmain ▸ rfl
    refine .of_eq ?_ hnext
    simpa [State.mainStep, hmain, State.getExtraWorker, hstack, eq_comm] using hstep
  | cons w rest =>
    have hnext : Sound sizes { state with
        main := .asserting update w, extraWorkerStack := rest } := by
      apply h.take (.inr hmain) state.primaryWorkerStack rest
      · intro v
        rw [hstack, count_push]
        omega
      · exact fun _ ↦ id
      · intro v hv
        rw [hstack]
        exact List.mem_cons_of_mem w hv
    refine .of_eq ?_ hnext
    simpa [State.mainStep, hmain, State.getExtraWorker, hstack, eq_comm] using hstep

/-- A worker that the dispatcher holds has nothing to do. -/
theorem isBusy_of_holds (h : Sound sizes state) {w : ℕ} (hholds : state.main.holds w = true) :
    (state.workers w).isBusy = false := by
  have hle := h.placed.places_le w
  simp only [State.places, hholds, Bool.toNat_true] at hle
  cases hbusy : (state.workers w).isBusy with
  | true =>
    rw [hbusy, Bool.toNat_true] at hle
    omega
  | false => rfl

theorem asserting (h : Sound sizes state) {update : Update} {w : ℕ}
    (hmain : state.main = .asserting update w) : Succeeds sizes (state.assertStep update w) := by
  have hrange := h.controlled.inRange
  have hconstructed := h.controlled.constructed
  rw [hmain] at hrange hconstructed
  have hlt : w < state.constructed := hconstructed ▸ hrange
  have hbusy := h.isBusy_of_holds (w := w) (by simp [hmain, MainThread.holds])
  have hupdate : (state.workers w).hasUpdate = false := by
    simp only [Worker.isBusy, Bool.or_eq_false_iff] at hbusy
    exact hbusy.1
  have hnext : Sound sizes { state with main := .sending update w } := by
    apply h.setMain
    · exact hmain ▸ ⟨⟨hrange, rfl, rfl, rfl, fun _ ↦ id⟩, rfl, rfl, id⟩
    · exact hmain ▸ rfl
    · exact hmain ▸ rfl
  refine .of_eq ?_ hnext
  simp [State.assertStep, hlt, hupdate, pure, bind, Except.pure, Except.bind]

@[simp]
theorem sendUpdate_main (state : State) (update : Update) (w : ℕ) :
    (state.sendUpdate update w).main = .testing w := rfl

/-- `sendUpdate` is the only step that adds to the record of what was sent. -/
theorem sending (h : Sound sizes state) {update : Update} {w : ℕ}
    (hmain : state.main = .sending update w) : Sound sizes (state.sendUpdate update w) := by
  have hbusy := h.isBusy_of_holds (w := w) (by simp [hmain, MainThread.holds])
  obtain ⟨hupdate, hputting⟩ : (state.workers w).hasUpdate = false ∧
      (state.workers w).thread ≠ .putting := by
    simpa [Worker.isBusy] using hbusy
  have hfits := h.fits w
  rw [hmain] at hfits
  have hcarried := h.accounted.carried update (by rw [hmain]; rfl)
  have hpending (v : ℕ) (other : Update) :
      (state.sendUpdate update w).IsPending v other ↔
        v = w ∧ other = update ∨ state.IsPending v other := by
    by_cases hv : v = w
    · subst hv
      simp [State.sendUpdate, State.IsPending, hupdate, eq_comm]
    · simp [State.sendUpdate, State.IsPending, hv]
  have hnew (v : ℕ) : (v, update) ∉ state.sent :=
    fun hmem ↦ absurd (hcarried.2 _ hmem) (Nat.lt_irrefl _)
  constructor
  · exact h.fault
  · apply h.fits_update
    · intro v hv
      simp [hmain, MainThread.view, hv]
    · rw [sendUpdate_main, MainThread.view_testing_self]
      exact hfits.send hputting update
  · constructor
    · intro v
      have honce := h.placed.once v
      by_cases hv : v = w
      · subst hv
        simp [State.places, State.sendUpdate, Worker.isBusy, MainThread.holds, hmain,
          MainThread.hasStocked, hupdate, hputting] at honce ⊢
        omega
      · simpa [State.places, State.sendUpdate, MainThread.holds, hmain, MainThread.hasStocked,
          hv, Ne.symm hv, eq_comm] using honce
    · simp [State.sendUpdate, MainThread.isSetup]
    · exact h.placed.primary
    · exact h.placed.extra
  · obtain ⟨hrange, hconstructed, hloaded, hmodule, hcount, hstop, habsent⟩ := h.controlled
    rw [hmain] at hrange hconstructed hloaded hmodule hcount hstop habsent
    refine ⟨hrange, hconstructed, hloaded, hmodule, hcount, hstop, ?_⟩
    intro v hv
    have hvw : v ≠ w := Nat.ne_of_gt (Nat.lt_of_lt_of_le hrange hv)
    simpa [State.sendUpdate, hvw] using habsent v hv
  · constructor
    · intro v other
      rw [hpending]
      simp only [State.sendUpdate, List.mem_append, List.mem_singleton, Prod.mk.injEq]
      rw [h.accounted.sent v other]
      exact ⟨fun hmem ↦ by tauto, fun hmem ↦ by tauto⟩
    · exact h.accounted.handled
    · intro v other hnext hmem
      rcases (hpending v other).mp hnext with ⟨rfl, rfl⟩ | hold
      · exact hnew v ((h.accounted.sent v other).mpr (.inl hmem))
      · exact h.accounted.pending v other hold hmem
    · simp only [State.sendUpdate, List.map_append, List.map_cons, List.map_nil]
      rw [List.nodup_append]
      refine ⟨h.accounted.serials, List.nodup_singleton _, ?_⟩
      intro serial hserial other hother
      obtain ⟨delivery, hdelivery, rfl⟩ := List.mem_map.mp hserial
      rw [List.mem_singleton.mp hother]
      exact Nat.ne_of_lt (hcarried.2 delivery hdelivery)
    · intro delivery hdelivery
      rcases List.mem_append.mp hdelivery with hold | hlast
      · exact h.accounted.arrived delivery hold
      · rw [List.mem_singleton.mp hlast]
        exact hcarried.1
    · simp [State.sendUpdate, MainThread.carried]

theorem testing (h : Sound sizes state) {w : ℕ} (hmain : state.main = .testing w)
    {outcome : Except Assertion State} (hstep : state.mainStep sizes = some outcome) :
    Succeeds sizes outcome := by
  have hrange := h.controlled.inRange
  have hfits := h.fits w
  rw [hmain] at hrange hfits
  rw [MainThread.view_testing_self] at hfits
  cases honline : (state.workers w).isOnline with
  | true =>
    have hnext : Sound sizes { state with main := .idle } := by
      apply h.turn (w := w)
      · exact hmain ▸ ⟨⟨trivial, rfl, rfl, rfl, by simp [MainThread.carried]⟩, rfl, rfl, id⟩
      · intro v hv
        simp [hmain, MainThread.view, hv]
      · exact hfits.lookAway (by simp) (hfits.isOnline.symm.trans honline)
      · rw [hmain]
        exact fun _ ↦ id
    refine .of_eq ?_ hnext
    simpa [State.mainStep, hmain, honline, eq_comm] using hstep
  | false =>
    have hover := hfits.isOver_of_offline rfl honline
    have hnext : Sound sizes { state with main := .spawning .dispatch w .checking } := by
      apply h.turn (w := w)
      · exact hmain ▸ ⟨⟨hrange, rfl, rfl, rfl, by simp [MainThread.carried]⟩, rfl, rfl, id⟩
      · intro v hv
        simp [hmain, MainThread.view, hv]
      · rw [MainThread.view_spawning_self]
        exact hfits.look hover hover fun _ ↦ rfl
      · rw [hmain]
        exact fun _ ↦ id
    refine .of_eq ?_ hnext
    simpa [State.mainStep, hmain, honline, eq_comm] using hstep

/-! ## The destructor -/

theorem closing (h : Sound sizes state) {i : ℕ} (hmain : state.main = .closing i)
    (hunhurried : ∀ w, i = w + 1 → (state.workers w).thread ≠ .absent →
      (state.workers w).hasUpdate = true → (state.workers w).thread = .handling) :
    Sound sizes (state.closeStep i) := by
  have hrange := h.controlled.inRange
  have habsent := h.controlled.absent
  rw [hmain] at hrange habsent
  cases i with
  | zero =>
    apply h.setMain
    · exact hmain ▸ ⟨⟨trivial, rfl, rfl, rfl, by simp [MainThread.carried]⟩, rfl, rfl, id⟩
    · exact hmain ▸ rfl
    · exact hmain ▸ rfl
  | succ w =>
    have hfits := h.fits w
    rw [hmain] at hfits
    by_cases hthread : (state.workers w).thread = .absent
    · have hnext : Sound sizes
          { state.setWorker w (state.workers w) with main := .closing w } := by
        apply h.move
        · exact hmain ▸ ⟨⟨Nat.le_of_succ_le hrange, rfl, rfl, rfl, by simp [MainThread.carried]⟩,
            rfl, rfl, id⟩
        · intro v hv
          rw [hmain]
          rfl
        · exact hfits
        · exact ⟨rfl, rfl⟩
        · rfl
        · intro v hv hle
          rw [hmain]
          exact Nat.lt_of_le_of_ne hle (Ne.symm hv)
        · exact fun _ ↦ hthread
      rw [State.setWorker_self] at hnext
      simpa [State.closeStep, hthread] using hnext
    · simp only [State.closeStep, hthread, if_false]
      apply h.move
      · exact hmain ▸ ⟨⟨hrange, rfl, rfl, rfl, by simp [MainThread.carried]⟩, rfl, rfl, id⟩
      · intro v hv
        simp [hmain, MainThread.view, hv]
      · rw [MainThread.view_joiningClosed_self]
        exact hfits.close (hunhurried w rfl hthread)
      · exact ⟨rfl, rfl⟩
      · rfl
      · intro v _
        rw [hmain]
        exact id
      · intro hle
        exact absurd hle (Nat.not_succ_le_self w)

theorem joiningClosed (h : Sound sizes state) {w : ℕ} (hmain : state.main = .joiningClosed w)
    (hthread : (state.workers w).thread = .finished) :
    Sound sizes { state.setWorker w { state.workers w with thread := .absent } with
      main := .closing w } := by
  have hrange := h.controlled.inRange
  have hfits := h.fits w
  rw [hmain] at hrange hfits
  rw [MainThread.view_joiningClosed_self] at hfits
  apply h.move
  · exact hmain ▸ ⟨⟨Nat.le_of_lt hrange, rfl, rfl, rfl, by simp [MainThread.carried]⟩, rfl, rfl, id⟩
  · intro v hv
    simp [hmain, MainThread.view, hv]
  · exact hfits.joinClosed hthread
  · exact ⟨rfl, rfl⟩
  · simp [Worker.isBusy, hthread]
  · intro v hv hle
    rw [hmain]
    exact Nat.lt_of_le_of_ne hle (Ne.symm hv)
  · exact fun _ ↦ rfl

/-! ## All steps -/

end Sound

/-- `close` sets the stop flag of a worker only if it has no pending update, or is handling it
already; and a worker handles a command of `Shell` only before `stopUpdate_` is set. -/
def State.respects (state : State) : Label → Bool
  | .main =>
    match state.main with
    | .closing (w + 1) =>
      (state.workers w).thread = .absent || !(state.workers w).hasUpdate ||
        (state.workers w).thread = .handling
    | _ => true
  | .worker w =>
    !((state.workers w).thread = .handling && state.stopUpdate &&
      (state.workers w).update.isShellCommand)
  | _ => true

namespace Sound

variable {sizes : Sizes} {state next : State} {label : Label}

theorem constructStep (h : Sound sizes state) {i : ℕ} (hmain : state.main = .constructing i) :
    Sound sizes (state.constructStep sizes i) := by
  have hrange := h.controlled.inRange
  rw [hmain] at hrange
  unfold State.constructStep
  split_ifs with hi hkind
  · exact h.constructing hmain (.inr ⟨rfl, by simpa [Sizes.isPrimaryWorker] using hkind⟩)
  · exact h.constructing hmain (.inl ⟨rfl, hi⟩)
  · have hlast : i = sizes.maxWorkerNum := Nat.le_antisymm hrange (Nat.le_of_not_lt hi)
    apply h.setMain
    · rw [hmain, hlast]
      refine ⟨⟨Nat.le_refl _, rfl, rfl, rfl, by simp [MainThread.carried]⟩, rfl, ?_, fun _ ↦ rfl⟩
      funext w
      simp only [MainThread.hasStocked, decide_eq_false_iff_not]
      omega
    · rw [hmain]
      rfl
    · rw [hmain, hlast]
      rfl

theorem mainStep (h : Sound sizes state) (hrespects : state.respects .main = true)
    {outcome : Except Assertion State} (hstep : state.mainStep sizes = some outcome) :
    Succeeds sizes outcome := by
  cases hmain : state.main with
  | loading =>
    have hmodule := h.controlled.gModule
    have hcount := h.controlled.gModuleRefCount
    rw [hmain] at hmodule hcount
    refine .of_eq ?_ (h.loading hmain)
    simpa [State.mainStep, hmain, State.toggleGlobalModule, MainThread.isLoaded, hmodule, hcount,
      pure, bind, Except.pure, Except.bind, eq_comm] using hstep
  | constructing i =>
    simp only [State.mainStep, hmain, Option.some.injEq] at hstep
    exact hstep ▸ .of_eq rfl (h.constructStep hmain)
  | spawning site w stage =>
    simp only [State.mainStep, hmain] at hstep
    exact h.spawnStep hmain hstep
  | fillingPrimary i =>
    simp only [State.mainStep, hmain, Option.some.injEq] at hstep
    exact hstep ▸ h.fillPrimaryStep hmain
  | fillingExtra i =>
    simp only [State.mainStep, hmain, Option.some.injEq] at hstep
    exact hstep ▸ h.fillExtraStep hmain
  | counting => exact h.counting hmain hstep
  | idle => simp [State.mainStep, hmain] at hstep
  | takingPrimary update => exact h.takingPrimary hmain hstep
  | takingExtra update => exact h.takingExtra hmain hstep
  | asserting update w =>
    simp only [State.mainStep, hmain, Option.some.injEq] at hstep
    exact hstep ▸ h.asserting hmain
  | sending update w =>
    simp only [State.mainStep, hmain, Option.ite_none_left_eq_some, Option.some.injEq] at hstep
    exact hstep.2 ▸ .of_eq rfl (h.sending hmain)
  | testing w => exact h.testing hmain hstep
  | closing i =>
    simp only [State.mainStep, hmain, Option.some.injEq] at hstep
    refine hstep ▸ .of_eq rfl (h.closing hmain ?_)
    rintro w rfl hthread hupdate
    simpa [State.respects, hmain, hthread, hupdate] using hrespects
  | joiningClosed w =>
    simp only [State.mainStep, hmain, Option.ite_none_right_eq_some, Option.some.injEq] at hstep
    exact hstep.2 ▸ .of_eq rfl (h.joiningClosed hmain hstep.1)
  | unloading =>
    have hstop := h.controlled.stopUpdate
    have hmodule := h.controlled.gModule
    have hcount := h.controlled.gModuleRefCount
    rw [hmain] at hstop hmodule hcount
    refine .of_eq ?_ (h.unloading hmain)
    simpa [State.mainStep, hmain, State.toggleGlobalModule, MainThread.isLoaded,
      MainThread.isClosing, hstop, hmodule, hcount, pure, bind, Except.pure, Except.bind, eq_comm]
      using hstep
  | exited => simp [State.mainStep, hmain] at hstep

theorem attempt (h : Sound sizes state) (hrespects : state.respects label = true)
    {outcome : Except Assertion State} (hattempt : state.attempt sizes label = some outcome) :
    Succeeds sizes outcome := by
  cases label with
  | main => exact h.mainStep hrespects hattempt
  | arrive content =>
    simp only [State.attempt, State.arriveStep, Option.ite_none_right_eq_some,
      Option.some.injEq] at hattempt
    obtain ⟨hmain, rfl⟩ := hattempt
    have hstop := h.controlled.stopUpdate
    rw [hmain] at hstop
    refine .of_eq ?_ (h.arriving hmain content)
    simp [hstop, MainThread.isClosing]
  | worker w =>
    apply h.workerStep _ hattempt
    intro hthread hstop
    simpa [State.respects, hthread, hstop] using hrespects
  | timeout w => exact h.timeoutStep hattempt
  | shutdown =>
    simp only [State.attempt, State.shutdownStep, Option.ite_none_right_eq_some,
      Option.some.injEq] at hattempt
    exact hattempt.2 ▸ .of_eq rfl (h.shuttingDown hattempt.1)

/-- The step lemma. -/
theorem step (h : Sound sizes state) (hrespects : state.respects label = true)
    (hstep : (pool sizes).step state label = some next) : Sound sizes next := by
  obtain ⟨outcome, hattempt, rfl⟩ : ∃ outcome, state.attempt sizes label = some outcome ∧
      state.settle outcome = next := by
    simpa [pool, State.step, h.fault, Option.map_eq_some_iff] using hstep
  obtain ⟨next, rfl, hsound⟩ := h.attempt hrespects hattempt
  exact hsound

end Sound

end Tgvisd.WorkerPool
