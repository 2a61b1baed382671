import Tgvisd.Lib.Counting
import Tgvisd.Main.WorkerPool

/-!
# Lifetimes of `Main` and `Module`

Any number of `Main` objects are constructed and destroyed, each by a thread of its own. They share
one `Module`, which the first of them constructs and the last one deletes. A `Main` starts the
history scraper in a detached thread, and its workers start another one for every command of
`Shell`; all of them hold a reference, and `~Main` waits until `myRef_` is zero. `decRef` is two
steps: after the first one the waiting destructor may go on, and the second one still uses the
`Main`. A region under `gModuleMutex` is one step. A failed assertion ends the program.
-/

namespace Tgvisd.Lifetimes

open WorkerPool (Assertion assertThat Update)

/-! ## Data -/

/-- The thread that owns a `Main`: before the constructor and before `toggleGlobalModule(1)`,
`spawnThreads` and `initPreloadModules`; in `run`; in `delete[] workers_`; in
`waitForPreloadedModulesToBeUnloaded`, before the test of `myRef_` and in `wait_for`; before
`toggleGlobalModule(0)` and before `td_.close()`; and after the destructor. -/
inductive Owner
  | unborn
  | loading
  | spawning
  | preloading
  | running
  | joining
  | testing
  | waiting
  | unloading
  | closing
  | destroyed
  deriving DecidableEq, Repr

/-- The modules are numbered in the order of their construction; `dispatching` lists those in
whose `dispatchEnumerate` the workers are. -/
structure Main where
  owner : Owner := .unborn
  module_ : Option ℕ := none
  stopUpdate : Bool := false
  myRef : ℤ := 0
  dispatching : List ℕ := []
  deriving DecidableEq, Repr

/-- A detached thread, of `HistoryScraper` or of `Shell`: at work for its `Main`, and inside
`decRef` before `notify_all`. -/
inductive Thread
  | unborn
  | working (i : ℕ)
  | notifying (i : ℕ)
  | finished
  deriving DecidableEq, Repr

/-- The global module, the objects and the threads. For the record: how many modules have been
constructed, and which were deleted. -/
structure State where
  mains : ℕ → Main := fun _ ↦ {}
  threads : ℕ → Thread := fun _ ↦ .unborn
  spawned : ℕ := 0
  gModule : Option ℕ := none
  gModuleRefCount : ℕ := 0
  constructed : ℕ := 0
  deleted : List ℕ := []
  fault : Option Assertion := none

/-- A step of the thread that owns a `Main`, a worker that begins to dispatch an update or ends
it, and the two steps of `decRef` in a detached thread. -/
inductive Label
  | owner (i : ℕ)
  | dispatch (i : ℕ)
  | handle (i : ℕ) (module : ℕ) (update : Update)
  | decRef (t : ℕ)
  | notify (t : ℕ)
  deriving DecidableEq, Repr

namespace State

def setMain (state : State) (i : ℕ) (main : Main) : State :=
  { state with mains := Function.update state.mains i main }

def setThread (state : State) (t : ℕ) (thread : Thread) : State :=
  { state with threads := Function.update state.threads t thread }

/-! ## Steps -/

/-- `gModuleRefCount` has 32 bits. -/
def toggleGlobalModule (state : State) (i : ℕ) (sw : Bool) : Except Assertion State :=
  let main := state.mains i
  if sw then
    match state.gModule with
    | none => do
      assertThat .moduleUnreferenced (state.gModuleRefCount = 0)
      let gModule := some state.constructed
      return { state.setMain i { main with module_ := gModule } with
        gModule
        gModuleRefCount := (state.gModuleRefCount + 1) % 4294967296
        constructed := state.constructed + 1 }
    | some module => do
      assertThat .moduleReferenced (0 < state.gModuleRefCount)
      return { state.setMain i { main with module_ := some module } with
        gModuleRefCount := (state.gModuleRefCount + 1) % 4294967296 }
  else
    match state.gModule with
    | none => throw .moduleLoaded
    | some module =>
      let gModuleRefCount := (state.gModuleRefCount + 4294967295) % 4294967296
      let unloaded := { state.setMain i { main with module_ := none } with gModuleRefCount }
      if gModuleRefCount = 0 then
        return { unloaded with gModule := none, deleted := module :: state.deleted }
      else
        return unloaded

/-- `incRef` and the thread that it is for; `myRef_` is a signed integer of 32 bits. -/
def spawn (state : State) (i : ℕ) : Except Assertion State := do
  let main := state.mains i
  assertThat .updatesRunning (main.stopUpdate = false)
  return { (state.setMain i { main with myRef := (main.myRef + 1).bmod 4294967296 }).setThread
    state.spawned (.working i) with spawned := state.spawned + 1 }

def moveTo (state : State) (i : ℕ) (owner : Owner) : State :=
  state.setMain i { state.mains i with owner }

/-- The constructor, `run` up to a signal, and the destructor. In `initPreloadModules`, the
reference, the detached thread and the return of the constructor are one step. The wait ends when
`myRef_` is zero or after three seconds. -/
def ownerStep (state : State) (i : ℕ) : Option (Except Assertion State) :=
  match (state.mains i).owner with
  | .unborn => some (.ok (state.moveTo i .loading))
  | .loading => some do
    let state ← state.toggleGlobalModule i true
    return state.moveTo i .spawning
  | .spawning => some (.ok (state.moveTo i .preloading))
  | .preloading => some do
    let state ← state.spawn i
    return state.moveTo i .running
  | .running => some (.ok
    (state.setMain i { state.mains i with stopUpdate := true, owner := .joining }))
  | .joining =>
    if (state.mains i).dispatching = [] then some (.ok (state.moveTo i .testing)) else none
  | .testing => some do
    assertThat .updatesStopped (state.mains i).stopUpdate
    if 0 < (state.mains i).myRef then
      return state.moveTo i .waiting
    else
      return state.moveTo i .unloading
  | .waiting => some (.ok (state.moveTo i .testing))
  | .unloading => some do
    let state ← state.toggleGlobalModule i false
    return state.moveTo i .closing
  | .closing => some (.ok (state.moveTo i .destroyed))
  | .destroyed => none

/-- A worker takes an update, which it can do until it is joined. -/
def dispatchStep (state : State) (i : ℕ) : Option (Except Assertion State) :=
  let main := state.mains i
  if main.owner = .running ∨ main.owner = .joining then
    match main.module_ with
    | none => some (.error .modulePresent)
    | some module =>
      some (.ok (state.setMain i { main with dispatching := module :: main.dispatching }))
  else
    none

/-- The rest of `dispatchEnumerate`. -/
def handleStep (state : State) (i module : ℕ) (update : Update) :
    Option (Except Assertion State) :=
  if module ∈ (state.mains i).dispatching then some do
    let state ← if update.isShellCommand then state.spawn i else pure state
    let main := state.mains i
    return state.setMain i { main with dispatching := main.dispatching.erase module }
  else
    none

/-- `atomic_fetch_sub` in `decRef`. -/
def decRefStep (state : State) (t : ℕ) : Option (Except Assertion State) :=
  match state.threads t with
  | .working i =>
    let main := state.mains i
    some (.ok ((state.setMain i { main with myRef := (main.myRef - 1).bmod 4294967296 }).setThread
      t (.notifying i)))
  | _ => none

/-- `notify_all` in `decRef`. -/
def notifyStep (state : State) (t : ℕ) : Option (Except Assertion State) :=
  match state.threads t with
  | .notifying _ => some (.ok (state.setThread t .finished))
  | _ => none

def attempt (state : State) : Label → Option (Except Assertion State)
  | .owner i => state.ownerStep i
  | .dispatch i => state.dispatchStep i
  | .handle i module update => state.handleStep i module update
  | .decRef t => state.decRefStep t
  | .notify t => state.notifyStep t

/-- A step that fails an assertion leaves the state as it was, with the failure on record. -/
def settle (state : State) : Except Assertion State → State
  | .ok next => next
  | .error assertion => { state with fault := some assertion }

def step (state : State) (label : Label) : Option State :=
  if state.fault.isSome then none else (state.attempt label).map state.settle

end State

/-- The program as a machine. -/
def machine : Machine State Label := ⟨State.step⟩

namespace State

variable {state next : State} {i t : ℕ}

section

variable (state : State) (i t : ℕ) (main : Main) (thread : Thread)

@[simp] theorem setMain_mains : (state.setMain i main).mains = Function.update state.mains i main :=
  rfl
@[simp] theorem setMain_threads : (state.setMain i main).threads = state.threads := rfl
@[simp] theorem setMain_gModule : (state.setMain i main).gModule = state.gModule := rfl
@[simp] theorem setMain_gModuleRefCount :
    (state.setMain i main).gModuleRefCount = state.gModuleRefCount := rfl
@[simp] theorem setMain_constructed :
    (state.setMain i main).constructed = state.constructed := rfl
@[simp] theorem setMain_deleted : (state.setMain i main).deleted = state.deleted := rfl
@[simp] theorem setMain_spawned : (state.setMain i main).spawned = state.spawned := rfl
@[simp] theorem setMain_fault : (state.setMain i main).fault = state.fault := rfl
@[simp] theorem setThread_mains : (state.setThread t thread).mains = state.mains := rfl
@[simp] theorem setThread_threads :
    (state.setThread t thread).threads = Function.update state.threads t thread := rfl
@[simp] theorem setThread_fault : (state.setThread t thread).fault = state.fault := rfl

end

/-! ## The module -/

theorem toggle_on_new (state : State) (hmodule : state.gModule = none)
    (hzero : state.gModuleRefCount = 0) :
    state.toggleGlobalModule i true = .ok
      { state.setMain i { state.mains i with module_ := some state.constructed } with
        gModule := some state.constructed
        gModuleRefCount := (state.gModuleRefCount + 1) % 4294967296
        constructed := state.constructed + 1 } := by
  simp [toggleGlobalModule, hmodule, hzero, assertThat, bind, Except.bind, pure, Except.pure]

theorem toggle_on_shared {module : ℕ} (state : State) (hmodule : state.gModule = some module)
    (hcount : 0 < state.gModuleRefCount) :
    state.toggleGlobalModule i true = .ok
      { state.setMain i { state.mains i with module_ := some module } with
        gModuleRefCount := (state.gModuleRefCount + 1) % 4294967296 } := by
  simp [toggleGlobalModule, hmodule, hcount, assertThat, bind, Except.bind, pure, Except.pure]

/-- What one `Main` sees of the global module. -/
def view (state : State) (i : ℕ) : Bool × ℕ × Bool :=
  (state.gModule.isSome, state.gModuleRefCount, (state.mains i).module_.isSome)

/-- Below the range of the counter, a `Main` sees what the only `Main` of a worker pool does. -/
theorem toggleGlobalModule_view (state : State) (pool : WorkerPool.State) (sw : Bool)
    (hview : state.view i = (pool.gModule, pool.gModuleRefCount, pool.module_))
    (hrange : pool.gModuleRefCount + 1 < 4294967296)
    (hloaded : pool.gModule = true → 0 < pool.gModuleRefCount) :
    (state.toggleGlobalModule i sw).map (fun next ↦ next.view i) =
      (pool.toggleGlobalModule sw).map fun next ↦
        (next.gModule, next.gModuleRefCount, next.module_) := by
  simp only [view, Prod.mk.injEq] at hview
  obtain ⟨hmodule, hcount, -⟩ := hview
  have hwrap : (pool.gModuleRefCount + 1) % 4294967296 = pool.gModuleRefCount + 1 :=
    Nat.mod_eq_of_lt hrange
  cases hg : state.gModule with
  | none =>
    rw [hg] at hmodule
    cases sw <;>
      by_cases hzero : pool.gModuleRefCount = 0 <;>
        simp [toggleGlobalModule, WorkerPool.State.toggleGlobalModule, hg, hcount, ← hmodule,
          hzero, assertThat, view, bind, Except.bind, pure, Except.pure, throw, throwThe,
          MonadExceptOf.throw, Except.map]
  | some module =>
    rw [hg] at hmodule
    have hpos := hloaded hmodule.symm
    have hback : (pool.gModuleRefCount + 4294967295) % 4294967296 = pool.gModuleRefCount - 1 := by
      omega
    cases sw
    · by_cases hlast : pool.gModuleRefCount - 1 = 0 <;>
        simp [toggleGlobalModule, WorkerPool.State.toggleGlobalModule, hg, hcount, ← hmodule,
          hback, hlast, assertThat, view, bind, Except.bind, pure, Except.pure, Except.map]
    · simp [toggleGlobalModule, WorkerPool.State.toggleGlobalModule, hg, hcount, ← hmodule,
        hwrap, hpos, assertThat, view, bind, Except.bind, pure, Except.pure, Except.map]

theorem toggle_on_mains (htoggle : state.toggleGlobalModule i true = .ok next) :
    ∃ module, next.mains =
      Function.update state.mains i { state.mains i with module_ := some module } ∧
        next.threads = state.threads ∧ next.spawned = state.spawned ∧ next.fault = state.fault := by
  cases hmodule : state.gModule with
  | none =>
    by_cases hzero : state.gModuleRefCount = 0
    · rw [state.toggle_on_new hmodule hzero, Except.ok.injEq] at htoggle
      exact ⟨state.constructed, by simp [← htoggle], by simp [← htoggle], by simp [← htoggle],
        by simp [← htoggle]⟩
    · simp [toggleGlobalModule, hmodule, hzero, assertThat, bind, Except.bind] at htoggle
  | some module =>
    by_cases hcount : 0 < state.gModuleRefCount
    · rw [state.toggle_on_shared hmodule hcount, Except.ok.injEq] at htoggle
      exact ⟨module, by simp [← htoggle], by simp [← htoggle], by simp [← htoggle],
        by simp [← htoggle]⟩
    · simp [toggleGlobalModule, hmodule, hcount, assertThat, bind, Except.bind] at htoggle

theorem toggle_off_mains (htoggle : state.toggleGlobalModule i false = .ok next) :
    next.mains = Function.update state.mains i { state.mains i with module_ := none } ∧
      next.threads = state.threads ∧ next.spawned = state.spawned ∧ next.fault = state.fault := by
  simp only [toggleGlobalModule, Bool.false_eq_true, if_false] at htoggle
  cases hmodule : state.gModule with
  | none => simp [hmodule, throw, throwThe, MonadExceptOf.throw] at htoggle
  | some module =>
    simp only [hmodule, pure, Except.pure] at htoggle
    split at htoggle <;>
      · rw [Except.ok.injEq] at htoggle
        exact ⟨by simp [← htoggle], by simp [← htoggle], by simp [← htoggle], by simp [← htoggle]⟩

/-- The `Main`s that hold the module hold the same one, it exists while they do, and every other
module that was constructed has been deleted, once. -/
structure Balanced (state : State) : Prop where
  counted : ∃ count ≤ 4294967296, Counts (fun i ↦ (state.mains i).module_.isSome = true) count ∧
    state.gModuleRefCount = count % 4294967296
  shared : ∀ i module, (state.mains i).module_ = some module → state.gModule = some module
  held : ∀ module, state.gModule = some module → ∃ i, (state.mains i).module_ = some module
  deleted_nodup : state.deleted.Nodup
  deleted_iff : ∀ module,
    module ∈ state.deleted ↔ module < state.constructed ∧ state.gModule ≠ some module
  gModule_lt : ∀ module, state.gModule = some module → module < state.constructed

namespace Balanced

theorem initial : Balanced {} where
  counted := ⟨0, by decide, Counts.of_none (by simp), rfl⟩
  shared := by simp
  held := by simp
  deleted_nodup := List.nodup_nil
  deleted_iff := by simp
  gModule_lt := by simp

theorem setMain (h : state.Balanced) {main : Main}
    (hmodule : main.module_ = (state.mains i).module_) : (state.setMain i main).Balanced := by
  have hsame (j : ℕ) : ((state.setMain i main).mains j).module_ = (state.mains j).module_ := by
    by_cases hj : j = i
    · subst hj
      simpa using hmodule
    · simp [hj]
  obtain ⟨count, hle, hcounts, hcount⟩ := h.counted
  refine ⟨⟨count, hle, hcounts.of_iff fun j ↦ by rw [hsame], hcount⟩, ?_, ?_, h.deleted_nodup,
    h.deleted_iff, h.gModule_lt⟩
  · intro j module hj
    exact h.shared j module ((hsame j).symm.trans hj)
  · intro module hmodule
    obtain ⟨j, hj⟩ := h.held module hmodule
    exact ⟨j, (hsame j).trans hj⟩

/-- The threads do not matter to the module. -/
theorem withThreads (h : state.Balanced) (threads : ℕ → Thread) (spawned : ℕ) :
    Balanced { state with threads, spawned } :=
  ⟨h.counted, h.shared, h.held, h.deleted_nodup, h.deleted_iff, h.gModule_lt⟩

theorem withFault (h : state.Balanced) (fault : Option Assertion) :
    Balanced { state with fault } :=
  ⟨h.counted, h.shared, h.held, h.deleted_nodup, h.deleted_iff, h.gModule_lt⟩

theorem gModule_eq_none_iff (h : state.Balanced) :
    state.gModule = none ↔ ∀ i, (state.mains i).module_ = none := by
  constructor
  · intro hnone i
    by_contra hsome
    obtain ⟨module, hmodule⟩ := Option.ne_none_iff_exists'.mp hsome
    simp [h.shared i module hmodule] at hnone
  · intro hnone
    by_contra hsome
    obtain ⟨module, hmodule⟩ := Option.ne_none_iff_exists'.mp hsome
    obtain ⟨i, hi⟩ := h.held module hmodule
    simp [hnone i] at hi

theorem load_new (h : state.Balanced) (hmodule : state.gModule = none) :
    Balanced { state.setMain i { state.mains i with module_ := some state.constructed } with
      gModule := some state.constructed
      gModuleRefCount := (state.gModuleRefCount + 1) % 4294967296
      constructed := state.constructed + 1 } := by
  have hnone := h.gModule_eq_none_iff.mp hmodule
  obtain ⟨count, hle, hcounts, hcount⟩ := h.counted
  have hzero : count = 0 := hcounts.eq_zero_iff.mpr (by simp [hnone])
  subst hzero
  refine ⟨⟨1, by decide, hcounts.acquire (a := i) (by simp [hnone]) ?_, by simp [hcount]⟩,
    ?_, ?_, h.deleted_nodup, ?_, ?_⟩
  · intro j
    by_cases hj : j = i <;> simp [hj, hnone]
  · intro j module hj
    by_cases hij : j = i
    · simpa [hij] using hj
    · simp [hij, hnone] at hj
  · intro module hloaded
    exact ⟨i, by simpa using hloaded⟩
  · intro module
    have hiff := h.deleted_iff module
    simp only [hmodule, ne_eq, reduceCtorEq, not_false_eq_true, and_true] at hiff
    simp only [setMain_deleted, hiff, ne_eq, Option.some.injEq]
    omega
  · intro module hloaded
    rw [Option.some.injEq] at hloaded
    exact hloaded ▸ Nat.lt_succ_self state.constructed

theorem load_shared {module : ℕ} (h : state.Balanced) (hfree : (state.mains i).module_ = none)
    (hmodule : state.gModule = some module) (hcount : 0 < state.gModuleRefCount) :
    Balanced { state.setMain i { state.mains i with module_ := some module } with
      gModuleRefCount := (state.gModuleRefCount + 1) % 4294967296 } := by
  obtain ⟨count, hle, hcounts, hrefs⟩ := h.counted
  refine ⟨⟨count + 1, by omega, hcounts.acquire (a := i) (by simp [hfree]) ?_, by simp [hrefs]⟩,
    ?_, ?_, h.deleted_nodup, h.deleted_iff, h.gModule_lt⟩
  · intro j
    by_cases hj : j = i <;> simp [hj]
  · intro j other hj
    by_cases hij : j = i
    · have hother : module = other := by simpa [hij] using hj
      exact hother ▸ hmodule
    · exact h.shared j other (by simpa [hij] using hj)
  · intro other hother
    have heq : module = other := Option.some.inj (hmodule.symm.trans hother)
    exact ⟨i, by simp [heq]⟩

theorem toggle_on (h : state.Balanced) (hfree : (state.mains i).module_ = none)
    (htoggle : state.toggleGlobalModule i true = .ok next) : next.Balanced := by
  cases hmodule : state.gModule with
  | none =>
    by_cases hzero : state.gModuleRefCount = 0
    · rw [state.toggle_on_new hmodule hzero, Except.ok.injEq] at htoggle
      exact htoggle ▸ h.load_new hmodule
    · simp [toggleGlobalModule, hmodule, hzero, assertThat, bind, Except.bind] at htoggle
  | some module =>
    by_cases hcount : 0 < state.gModuleRefCount
    · rw [state.toggle_on_shared hmodule hcount, Except.ok.injEq] at htoggle
      exact htoggle ▸ h.load_shared hfree hmodule hcount
    · simp [toggleGlobalModule, hmodule, hcount, assertThat, bind, Except.bind] at htoggle

/-- Loading the module fails when as many `Main`s hold it as the counter can tell apart. -/
theorem toggle_on_error {assertion : Assertion} (h : state.Balanced)
    (htoggle : state.toggleGlobalModule i true = .error assertion) :
    assertion = .moduleReferenced ∧
      Counts (fun i ↦ (state.mains i).module_.isSome = true) 4294967296 := by
  obtain ⟨count, hle, hcounts, hrefs⟩ := h.counted
  cases hmodule : state.gModule with
  | none =>
    have hnone := h.gModule_eq_none_iff.mp hmodule
    have hzero : count = 0 := hcounts.eq_zero_iff.mpr (by simp [hnone])
    rw [state.toggle_on_new hmodule (by simp [hrefs, hzero])] at htoggle
    cases htoggle
  | some module =>
    by_cases hrefCount : 0 < state.gModuleRefCount
    · rw [state.toggle_on_shared hmodule hrefCount] at htoggle
      cases htoggle
    · obtain ⟨j, hj⟩ := h.held module hmodule
      have hpos : 0 < count := hcounts.pos (a := j) (by simp [hj])
      have hcount : count = 4294967296 := by omega
      have hassertion : Assertion.moduleReferenced = assertion := by
        simpa [toggleGlobalModule, hmodule, hrefCount, assertThat, bind, Except.bind] using htoggle
      exact ⟨hassertion.symm, hcount ▸ hcounts⟩

/-! A `Main` gives the module up. -/

theorem unload_last {module : ℕ} (h : state.Balanced) (hmodule : state.gModule = some module)
    (hlast : ∀ j ≠ i, (state.mains j).module_ = none) :
    Balanced { state.setMain i { state.mains i with module_ := none } with
      gModuleRefCount := 0, gModule := none, deleted := module :: state.deleted } := by
  have hnone (j : ℕ) :
      (Function.update state.mains i { state.mains i with module_ := none } j).module_ = none := by
    by_cases hj : j = i
    · simp [hj]
    · simpa [hj] using hlast j hj
  refine ⟨⟨0, by decide, Counts.of_none fun j ↦ by simp [hnone j], rfl⟩, ?_, by simp, ?_, ?_,
    by simp⟩
  · intro j other hj
    simp [hnone j] at hj
  · refine List.nodup_cons.mpr ⟨fun hmem ↦ ?_, h.deleted_nodup⟩
    exact ((h.deleted_iff module).mp hmem).2 hmodule
  · intro other
    have hiff := h.deleted_iff other
    have hlt := h.gModule_lt module hmodule
    simp only [hmodule, ne_eq, Option.some.injEq] at hiff
    simp only [List.mem_cons, hiff, setMain_constructed, ne_eq, reduceCtorEq, not_false_eq_true,
      and_true]
    grind

theorem unload_shared {rest : ℕ} (h : state.Balanced) (hle : rest ≤ 4294967296)
    (hrest : Counts (fun j ↦ (state.mains j).module_.isSome = true ∧ j ≠ i) rest)
    (hpos : 0 < rest) :
    Balanced { state.setMain i { state.mains i with module_ := none } with
      gModuleRefCount := rest % 4294967296 } := by
  refine ⟨⟨rest, hle, hrest.of_iff fun j ↦ ?_, rfl⟩, ?_, ?_, h.deleted_nodup, h.deleted_iff,
    h.gModule_lt⟩
  · by_cases hj : j = i <;> simp [hj]
  · intro j other hj
    by_cases hij : j = i
    · simp [hij] at hj
    · exact h.shared j other (by simpa [hij] using hj)
  · intro other hother
    have hexists : ∃ j, (state.mains j).module_.isSome = true ∧ j ≠ i := by
      by_contra hnone
      have hzero : rest = 0 := hrest.eq_zero_iff.mpr fun j hj ↦ hnone ⟨j, hj⟩
      omega
    obtain ⟨j, hj, hne⟩ := hexists
    obtain ⟨held, hheld⟩ := Option.isSome_iff_exists.mp hj
    have heq : held = other := Option.some.inj ((h.shared j held hheld).symm.trans hother)
    exact ⟨j, by simpa [hne, heq] using hheld⟩

theorem toggle_off {module : ℕ} (h : state.Balanced)
    (hheld : (state.mains i).module_ = some module) :
    ∃ next, state.toggleGlobalModule i false = .ok next ∧ next.Balanced := by
  have hmodule := h.shared i module hheld
  obtain ⟨count, hle, hcounts, hrefs⟩ := h.counted
  obtain ⟨rest, hsucc, hrest⟩ := hcounts.release (a := i) (by simp [hheld]) fun j ↦ Iff.rfl
  have hcount : (state.gModuleRefCount + 4294967295) % 4294967296 = rest % 4294967296 := by omega
  have hlt : rest % 4294967296 = rest := by omega
  simp only [toggleGlobalModule, Bool.false_eq_true, if_false, hmodule, hcount, hlt]
  by_cases hzero : rest = 0
  · rw [if_pos hzero, hzero]
    refine ⟨_, rfl, h.unload_last hmodule ?_⟩
    intro j hj
    have hnone := hrest.eq_zero_iff.mp hzero j
    simpa [hj] using hnone
  · rw [if_neg hzero]
    have hshared := h.unload_shared (by omega) hrest (Nat.pos_of_ne_zero hzero)
    rw [hlt] at hshared
    exact ⟨_, rfl, hshared⟩

end Balanced

end State

/-! ## What a `Main` looks like -/

/-- From the end of `toggleGlobalModule(1)` to that of `toggleGlobalModule(0)`. -/
def Owner.holdsModule : Owner → Bool
  | .unborn | .loading | .closing | .destroyed => false
  | _ => true

def Owner.isStopping : Owner → Bool
  | .joining | .testing | .waiting | .unloading | .closing | .destroyed => true
  | _ => false

/-- The workers can be at work. -/
def Owner.hasWorkers : Owner → Bool
  | .running | .joining => true
  | _ => false

structure Main.Fits (main : Main) : Prop where
  holdsModule : main.module_.isSome = main.owner.holdsModule
  stopUpdate : main.stopUpdate = main.owner.isStopping
  hasWorkers : main.dispatching ≠ [] → main.owner.hasWorkers = true
  dispatching : ∀ module ∈ main.dispatching, main.module_ = some module

theorem Main.Fits.withOwner {main : Main} {owner : Owner} (h : main.Fits)
    (hholds : main.owner.holdsModule = owner.holdsModule)
    (hstop : main.owner.isStopping = owner.isStopping)
    (hworkers : main.dispatching ≠ [] → owner.hasWorkers = true) : { main with owner }.Fits where
  holdsModule := h.holdsModule.trans hholds
  stopUpdate := h.stopUpdate.trans hstop
  hasWorkers := hworkers
  dispatching := h.dispatching

/-- A `Main` without workers at work. -/
theorem Main.Fits.idle {main : Main} (h : main.Fits) (hworkers : main.owner.hasWorkers = false) :
    main.dispatching = [] := by
  by_contra hne
  simp [h.hasWorkers hne] at hworkers

namespace State

variable {state next : State} {i t : ℕ}

structure Sound (state : State) : Prop where
  balanced : state.Balanced
  fits : ∀ i, (state.mains i).Fits
  fault : ∀ assertion, state.fault = some assertion → assertion = .updatesRunning ∨
    assertion = .moduleReferenced ∧
      Counts (fun i ↦ (state.mains i).module_.isSome = true) 4294967296

theorem fits_setMain {main : Main} (h : ∀ i, (state.mains i).Fits) (hmain : main.Fits) (j : ℕ) :
    ((state.setMain i main).mains j).Fits := by
  by_cases hj : j = i
  · subst hj
    simpa using hmain
  · simpa [hj] using h j

theorem spawn_eq_ok (hspawn : state.spawn i = .ok next) :
    (state.mains i).stopUpdate = false ∧
      next = { (state.setMain i { state.mains i with
        myRef := ((state.mains i).myRef + 1).bmod 4294967296 }).setThread
          state.spawned (.working i) with spawned := state.spawned + 1 } := by
  cases hstop : (state.mains i).stopUpdate with
  | false =>
    refine ⟨rfl, ?_⟩
    simpa [spawn, hstop, assertThat, bind, Except.bind, pure, Except.pure, eq_comm] using hspawn
  | true => simp [spawn, hstop, assertThat, bind, Except.bind] at hspawn

theorem spawn_eq_error {assertion : Assertion} (hspawn : state.spawn i = .error assertion) :
    assertion = .updatesRunning := by
  cases hstop : (state.mains i).stopUpdate with
  | false => simp [spawn, hstop, assertThat, bind, Except.bind, pure, Except.pure] at hspawn
  | true => simpa [spawn, hstop, assertThat, bind, Except.bind, eq_comm] using hspawn

namespace Sound

theorem initial : Sound {} where
  balanced := Balanced.initial
  fits _ := ⟨rfl, rfl, by simp, by simp⟩
  fault := by simp

/-- A step that is not about the module. -/
theorem setMain (h : state.Sound) {main : Main} (hmodule : main.module_ = (state.mains i).module_)
    (hmain : main.Fits) (threads : ℕ → Thread) (spawned : ℕ) (hfault : state.fault = none) :
    Sound { state.setMain i main with threads, spawned } where
  balanced := (h.balanced.setMain hmodule).withThreads threads spawned
  fits := fits_setMain h.fits hmain
  fault := by simp [hfault]

theorem moveTo (h : state.Sound) {owner : Owner} (hfault : state.fault = none)
    (hmain : { state.mains i with owner }.Fits) : (state.moveTo i owner).Sound := by
  refine h.setMain (i := i) ?_ hmain state.threads state.spawned hfault
  rfl

theorem failed (h : state.Sound) {assertion : Assertion}
    (hassertion : assertion = .updatesRunning ∨ assertion = .moduleReferenced ∧
      Counts (fun i ↦ (state.mains i).module_.isSome = true) 4294967296) :
    Sound { state with fault := some assertion } where
  balanced := h.balanced.withFault _
  fits := h.fits
  fault _ hother := Option.some.inj hother ▸ hassertion

theorem spawn (h : state.Sound) (hfault : state.fault = none) (hspawn : state.spawn i = .ok next) :
    next.Sound := by
  obtain ⟨-, rfl⟩ := spawn_eq_ok hspawn
  have hfits := h.fits i
  have hcounted : { state.mains i with
      myRef := ((state.mains i).myRef + 1).bmod 4294967296 }.Fits :=
    ⟨hfits.holdsModule, hfits.stopUpdate, hfits.hasWorkers, hfits.dispatching⟩
  refine h.setMain (i := i) ?_ hcounted _ _ hfault
  rfl

theorem load (h : state.Sound) (hfault : state.fault = none)
    (howner : (state.mains i).owner = .loading)
    (htoggle : state.toggleGlobalModule i true = .ok next) : (next.moveTo i .spawning).Sound := by
  have hfits := h.fits i
  have hfree : (state.mains i).module_ = none := by
    simpa [howner, Owner.holdsModule] using hfits.holdsModule
  have hidle := hfits.idle (by rw [howner]; rfl)
  obtain ⟨module, hmains, hnext⟩ := toggle_on_mains htoggle
  have hbalanced : (next.moveTo i .spawning).Balanced :=
    (h.balanced.toggle_on hfree htoggle).setMain rfl
  refine ⟨hbalanced, ?_, by simp [State.moveTo, hnext, hfault]⟩
  intro j
  have hloaded : { state.mains i with module_ := some module, owner := .spawning }.Fits :=
    ⟨rfl, by simp [hfits.stopUpdate, howner, Owner.isStopping], by simp [hidle], by simp [hidle]⟩
  have hj := fits_setMain (i := i) h.fits hloaded j
  simpa [State.moveTo, hmains] using hj

theorem unload (h : state.Sound) (hfault : state.fault = none)
    (howner : (state.mains i).owner = .unloading) :
    ∃ next, state.toggleGlobalModule i false = .ok next ∧ (next.moveTo i .closing).Sound := by
  have hfits := h.fits i
  have hheld : (state.mains i).module_.isSome = true := by
    rw [hfits.holdsModule, howner]
    rfl
  obtain ⟨module, hmodule⟩ := Option.isSome_iff_exists.mp hheld
  have hidle := hfits.idle (by rw [howner]; rfl)
  obtain ⟨next, htoggle, hbalanced⟩ := h.balanced.toggle_off hmodule
  obtain ⟨hmains, hnext⟩ := toggle_off_mains htoggle
  have hmoved : (next.moveTo i .closing).Balanced := hbalanced.setMain rfl
  refine ⟨next, htoggle, hmoved, ?_, by simp [State.moveTo, hnext, hfault]⟩
  intro j
  have hunloaded : { state.mains i with module_ := none, owner := .closing }.Fits :=
    ⟨rfl, by simp [hfits.stopUpdate, howner, Owner.isStopping], by simp [hidle], by simp [hidle]⟩
  have hj := fits_setMain (i := i) h.fits hunloaded j
  simpa [State.moveTo, hmains] using hj

theorem ownerStep {outcome : Except Assertion State} (h : state.Sound) (hfault : state.fault = none)
    (hstep : state.ownerStep i = some outcome) : (state.settle outcome).Sound := by
  have hfits := h.fits i
  unfold State.ownerStep at hstep
  cases howner : (state.mains i).owner with
  | unborn | spawning | waiting | closing =>
    simp only [howner, Option.some.injEq] at hstep
    subst hstep
    have hidle := hfits.idle (by rw [howner]; rfl)
    exact h.moveTo hfault (hfits.withOwner (by rw [howner]; rfl) (by rw [howner]; rfl)
      (by simp [hidle]))
  | loading =>
    simp only [howner, Option.some.injEq] at hstep
    subst hstep
    cases htoggle : state.toggleGlobalModule i true with
    | error assertion => exact h.failed (.inr (h.balanced.toggle_on_error htoggle))
    | ok next => exact h.load hfault howner htoggle
  | preloading =>
    simp only [howner, Option.some.injEq] at hstep
    subst hstep
    cases hspawn : state.spawn i with
    | error assertion => exact h.failed (.inl (spawn_eq_error hspawn))
    | ok next =>
      have hsound := h.spawn hfault hspawn
      obtain ⟨-, rfl⟩ := spawn_eq_ok hspawn
      refine hsound.moveTo (by simpa using hfault) ((hsound.fits i).withOwner ?_ ?_ fun _ ↦ rfl)
      · simp [howner, Owner.holdsModule]
      · simp [howner, Owner.isStopping]
  | running =>
    simp only [howner, Option.some.injEq] at hstep
    subst hstep
    have hstopped : { state.mains i with stopUpdate := true, owner := .joining }.Fits :=
      ⟨by simp [hfits.holdsModule, howner, Owner.holdsModule], rfl, fun _ ↦ rfl,
        hfits.dispatching⟩
    refine h.setMain (i := i) ?_ hstopped state.threads state.spawned hfault
    rfl
  | joining =>
    simp only [howner] at hstep
    split at hstep
    · rename_i hidle
      rw [Option.some.injEq] at hstep
      subst hstep
      exact h.moveTo hfault (hfits.withOwner (by rw [howner]; rfl) (by rw [howner]; rfl)
        (by simp [hidle]))
    · cases hstep
  | testing =>
    have hidle := hfits.idle (by rw [howner]; rfl)
    have hstop : (state.mains i).stopUpdate = true := by
      rw [hfits.stopUpdate, howner]
      rfl
    simp only [howner, hstop, assertThat, bind, Except.bind, if_true, pure, Except.pure,
      Option.some.injEq] at hstep
    subst hstep
    split
    · exact h.moveTo hfault (hfits.withOwner (by rw [howner]; rfl) (by rw [howner]; rfl)
        (by simp [hidle]))
    · exact h.moveTo hfault (hfits.withOwner (by rw [howner]; rfl) (by rw [howner]; rfl)
        (by simp [hidle]))
  | unloading =>
    simp only [howner, Option.some.injEq] at hstep
    subst hstep
    obtain ⟨next, htoggle, hsound⟩ := h.unload hfault howner
    simpa [htoggle, bind, Except.bind, pure, Except.pure, settle] using hsound
  | destroyed => simp [howner] at hstep

theorem dispatchStep {outcome : Except Assertion State} (h : state.Sound)
    (hfault : state.fault = none) (hstep : state.dispatchStep i = some outcome) :
    (state.settle outcome).Sound := by
  have hfits := h.fits i
  simp only [State.dispatchStep] at hstep
  split at hstep
  · rename_i howner
    have hworkers : (state.mains i).owner.hasWorkers = true := by
      obtain howner | howner := howner <;> simp [howner, Owner.hasWorkers]
    have hheld : (state.mains i).module_.isSome = true := by
      rw [hfits.holdsModule]
      obtain howner | howner := howner <;> simp [howner, Owner.holdsModule]
    obtain ⟨module, hmodule⟩ := Option.isSome_iff_exists.mp hheld
    simp only [hmodule, Option.some.injEq] at hstep
    subst hstep
    have hdispatching : { state.mains i with
        module_ := some module, dispatching := module :: (state.mains i).dispatching }.Fits := by
      refine ⟨hmodule ▸ hfits.holdsModule, hfits.stopUpdate, fun _ ↦ hworkers, ?_⟩
      exact List.forall_mem_cons.mpr ⟨rfl, fun other hother ↦
        hmodule.symm.trans (hfits.dispatching other hother)⟩
    exact h.setMain (i := i) hmodule.symm hdispatching state.threads state.spawned hfault
  · cases hstep

/-- A worker is done with a module. -/
theorem erase {module : ℕ} (h : state.Sound) (hfault : state.fault = none) :
    (state.setMain i { state.mains i with
      dispatching := (state.mains i).dispatching.erase module }).Sound := by
  have hfits := h.fits i
  have herased : { state.mains i with
      dispatching := (state.mains i).dispatching.erase module }.Fits := by
    refine ⟨hfits.holdsModule, hfits.stopUpdate, fun hne ↦ hfits.hasWorkers ?_, ?_⟩
    · intro hnil
      simp [hnil] at hne
    · intro other hother
      exact hfits.dispatching other (List.mem_of_mem_erase hother)
  refine h.setMain (i := i) ?_ herased state.threads state.spawned hfault
  rfl

theorem handleStep {module : ℕ} {update : Update} {outcome : Except Assertion State}
    (h : state.Sound) (hfault : state.fault = none)
    (hstep : state.handleStep i module update = some outcome) : (state.settle outcome).Sound := by
  simp only [State.handleStep] at hstep
  split at hstep
  · rw [Option.some.injEq] at hstep
    subst hstep
    split
    · cases hspawn : state.spawn i with
      | error assertion => exact h.failed (.inl (spawn_eq_error hspawn))
      | ok next =>
        have hsound := h.spawn hfault hspawn
        obtain ⟨-, rfl⟩ := spawn_eq_ok hspawn
        exact hsound.erase hfault
    · exact h.erase hfault
  · cases hstep

theorem decRefStep {outcome : Except Assertion State} (h : state.Sound)
    (hfault : state.fault = none) (hstep : state.decRefStep t = some outcome) :
    (state.settle outcome).Sound := by
  simp only [State.decRefStep] at hstep
  split at hstep
  · rename_i i _
    rw [Option.some.injEq] at hstep
    subst hstep
    have hfits := h.fits i
    have hcounted : { state.mains i with
        myRef := ((state.mains i).myRef - 1).bmod 4294967296 }.Fits :=
      ⟨hfits.holdsModule, hfits.stopUpdate, hfits.hasWorkers, hfits.dispatching⟩
    refine h.setMain (i := i) ?_ hcounted _ state.spawned hfault
    rfl
  · cases hstep

theorem notifyStep {outcome : Except Assertion State} (h : state.Sound)
    (hstep : state.notifyStep t = some outcome) : (state.settle outcome).Sound := by
  simp only [State.notifyStep] at hstep
  split at hstep
  · rw [Option.some.injEq] at hstep
    subst hstep
    exact ⟨h.balanced.withThreads _ state.spawned, h.fits, h.fault⟩
  · cases hstep

end Sound

/-- A step goes on from a state without failures. -/
theorem step_eq_some {label : Label} (hstep : machine.step state label = some next) :
    state.fault = none ∧
      ∃ outcome, state.attempt label = some outcome ∧ next = state.settle outcome := by
  cases hfault : state.fault with
  | none =>
    simp only [machine, step, hfault, Option.isSome_none, Bool.false_eq_true, if_false,
      Option.map_eq_some_iff] at hstep
    obtain ⟨outcome, hattempt, hnext⟩ := hstep
    exact ⟨rfl, outcome, hattempt, hnext.symm⟩
  | some assertion => simp [machine, step, hfault] at hstep

theorem Sound.step {label : Label} (h : state.Sound)
    (hstep : machine.step state label = some next) : next.Sound := by
  obtain ⟨hfault, outcome, hattempt, rfl⟩ := step_eq_some hstep
  cases label with
  | owner i => exact h.ownerStep hfault hattempt
  | dispatch i => exact h.dispatchStep hfault hattempt
  | handle i module update => exact h.handleStep hfault hattempt
  | decRef t => exact h.decRefStep hfault hattempt
  | notify t => exact h.notifyStep hattempt

theorem sound_of_reaches (hreach : machine.Reaches {} state) : state.Sound :=
  hreach.invariant Sound.initial fun _ _ _ h hstep ↦ h.step hstep

end State

/-- In every reachable state the global module exists exactly as long as a `Main` holds it; all
that hold it hold the same one; a worker inside `dispatchEnumerate` and a constructor before
`initPreloadModules` use the one that exists; every module is deleted once; and the assertions
about it fail only when 2^32 `Main`s hold it at once. -/
theorem module_lives_while_held {state : State} (hreach : machine.Reaches {} state) :
    state.Balanced ∧
      (∀ i, ∀ module ∈ (state.mains i).dispatching, state.gModule = some module) ∧
      (∀ i, (state.mains i).owner = .preloading →
        ∃ module, (state.mains i).module_ = some module ∧ state.gModule = some module) ∧
      (∀ assertion, state.fault = some assertion → assertion = .updatesRunning ∨
        assertion = .moduleReferenced ∧
          Counts (fun i ↦ (state.mains i).module_.isSome = true) 4294967296) := by
  have hsound := State.sound_of_reaches hreach
  refine ⟨hsound.balanced, ?_, ?_, hsound.fault⟩
  · intro i module hmodule
    exact hsound.balanced.shared i module ((hsound.fits i).dispatching module hmodule)
  · intro i howner
    have hheld : (state.mains i).module_.isSome = true := by
      rw [(hsound.fits i).holdsModule, howner]
      rfl
    obtain ⟨module, hmodule⟩ := Option.isSome_iff_exists.mp hheld
    exact ⟨module, hmodule, hsound.balanced.shared i module hmodule⟩

/-- The second `Main` shares the module of the first, which outlives it; the third constructs a
new one when both are gone, and a worker of the fourth dispatches an update to it. -/
def fourMains : List Label :=
  List.replicate 4 (.owner 0) ++ List.replicate 4 (.owner 1) ++
    [.dispatch 1, .decRef 0, .notify 0] ++ List.replicate 4 (.owner 0) ++
      [.handle 1 0 ⟨0, none⟩, .decRef 1, .notify 1] ++
        List.replicate 5 (.owner 1) ++ List.replicate 3 (.owner 2) ++
          List.replicate 4 (.owner 3) ++ [.dispatch 3]

theorem module_lives_while_held_fourMains :
    ∃ state, machine.run {} fourMains = some state ∧
      (state.gModule, state.deleted, state.constructed) = (some 1, [0], 2) ∧
      ((state.mains 2).owner, (state.mains 3).dispatching) = (.preloading, [1]) ∧
      state.Balanced ∧
      (∀ module ∈ (state.mains 3).dispatching, state.gModule = some module) ∧
      (∃ module, (state.mains 2).module_ = some module ∧ state.gModule = some module) ∧
      (∀ assertion, state.fault = some assertion → assertion = .updatesRunning ∨
        assertion = .moduleReferenced ∧
          Counts (fun i ↦ (state.mains i).module_.isSome = true) 4294967296) := by
  have hrun : (machine.run {} fourMains).map
      (fun state ↦ ((state.gModule, state.deleted, state.constructed),
        ((state.mains 2).owner, (state.mains 3).dispatching))) =
          some ((some 1, [0], 2), (.preloading, [1])) := by
    decide +kernel
  obtain ⟨state, hstate, hviews⟩ := Option.map_eq_some_iff.mp hrun
  obtain ⟨hmodules, howners⟩ := Prod.mk.inj hviews
  obtain ⟨hbalanced, hdispatching, hpreloading, hfault⟩ :=
    module_lives_while_held ⟨fourMains, hstate⟩
  exact ⟨state, hstate, hmodules, howners, hbalanced, hdispatching 3,
    hpreloading 2 (Prod.mk.inj howners).1, hfault⟩

end Tgvisd.Lifetimes
