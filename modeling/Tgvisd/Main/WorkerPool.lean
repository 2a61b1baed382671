import Mathlib.Logic.Function.Basic
import Tgvisd.Lib.Machine

/-!
# The worker pool

`Main` spawns a pool of workers and keeps the indices of the idle ones on two stacks. The main
thread constructs the pool, dispatches the updates that arrive (the body of `updateNewMessage`),
and destroys the pool in the end; each worker has a thread of its own, which may end and be
spawned again. A region under `updateMutex_` or under a mutex of a stack is one step, except that
a worker which handles an update gives the others a chance to run before and after it puts itself
back, although it holds its mutex all along. What is read or written outside these regions
(`isOnline_` in `spawn`, the flags that a new thread sets, `stopEventLoop_` in `close`) is a step
of its own. A failed assertion ends the program.
-/

namespace Tgvisd.WorkerPool

/-! ## Data -/

/-- The content of a message: a text, or something that is not a text. -/
inductive Content
  | text (text : List Char)
  | other
  deriving DecidableEq, Repr

/-- `updateNewMessage`, with a number that tells the updates apart. -/
structure Update where
  serial : ℕ
  content : Option Content
  deriving DecidableEq, Repr

/-- Where a worker's thread is: `thread_` is null; before its writes of `stopEventLoop_` and of
`isOnline_`; before it has seen `thread_`; before `runWorker`; in `waitForEvent`; before the
dispatch of an update and before `putPrimaryWorker` or `putExtraWorker`, with the mutex held;
after `runWorker`; and at its end, not yet joined. -/
inductive Thread
  | absent
  | created
  | started
  | online
  | ready
  | waiting (timeoutCounter : ℕ)
  | handling
  | putting
  | leaving
  | finished
  deriving DecidableEq, Repr

structure Worker where
  thread : Thread := .absent
  isOnline : Bool := false
  hasUpdate : Bool := false
  stopEventLoop : Bool := true
  update : Update := ⟨0, none⟩
  deriving DecidableEq, Repr

/-- Who calls `Worker::spawn`: `spawnThreads` or the dispatcher. -/
inductive SpawnSite
  | setup
  | dispatch
  deriving DecidableEq, Repr

/-- Inside `Worker::spawn`: before the test of `isOnline_`, before the test of `thread_`, in the
join of the old thread, before the new one, and in the wait for it. -/
inductive SpawnStage
  | checking
  | reaping
  | joining
  | creating
  | awaiting
  deriving DecidableEq, Repr

/-- The main thread: in `Main::Main` and `spawnThreads`, between two updates, in the dispatcher,
and in `Main::~Main`. -/
inductive MainThread
  | loading
  | constructing (i : ℕ)
  | spawning (site : SpawnSite) (w : ℕ) (stage : SpawnStage)
  | fillingPrimary (i : ℕ)
  | fillingExtra (i : ℕ)
  | counting
  | idle
  | takingPrimary (update : Update)
  | takingExtra (update : Update)
  | asserting (update : Update) (w : ℕ)
  | sending (update : Update) (w : ℕ)
  | testing (w : ℕ)
  | closing (i : ℕ)
  | joiningClosed (w : ℕ)
  | unloading
  | exited
  deriving DecidableEq, Repr

/-- The assertions of `Worker` and `Main`. -/
inductive Assertion
  | moduleUnreferenced
  | moduleReferenced
  | moduleLoaded
  | constructed
  | deadThreadStopped
  | spawnsOffline
  | runsOnline
  | exitsWithoutUpdate
  | exitsStopped
  | endsOffline
  | endsStopped
  | modulePresent
  | wokenByUpdate
  | updateHandled
  | putsWithoutUpdate
  | stackHasRoom
  | indexInRange
  | sendsWithoutUpdate
  | indexed
  | primaryStackFull
  | extraStackFull
  | updatesRunning
  | updatesStopped
  deriving DecidableEq, Repr

/-- `hardwareConcurrency_` and `maxWorkerNum_`. -/
structure Sizes where
  hardwareConcurrency : ℕ
  maxWorkerNum : ℕ
  primary_le : hardwareConcurrency ≤ maxWorkerNum

/-- The sizes that `spawnThreads` computes from `std::thread::hardware_concurrency()`; no machine
has so many threads that the product would wrap around. -/
def Sizes.ofHardware (hardware_concurrency : ℕ) : Sizes where
  hardwareConcurrency := if hardware_concurrency = 0 then 2 else hardware_concurrency
  maxWorkerNum := (if hardware_concurrency = 0 then 2 else hardware_concurrency) * 100
  primary_le := Nat.le_mul_of_pos_right _ (by decide)

def Sizes.isPrimaryWorker (sizes : Sizes) (w : ℕ) : Bool := w < sizes.hardwareConcurrency

/-- The state of the program. The first `constructed` workers have been given their main, index,
mutex and condition variable. For the record: how many updates have arrived, which were sent to
which worker, and which were handled by which worker. -/
structure State where
  workers : ℕ → Worker := fun _ ↦ {}
  constructed : ℕ := 0
  primaryWorkerStack : List ℕ := []
  extraWorkerStack : List ℕ := []
  main : MainThread := .loading
  stopUpdate : Bool := false
  gModule : Bool := false
  gModuleRefCount : ℕ := 0
  module_ : Bool := false
  arrivals : ℕ := 0
  sent : List (ℕ × Update) := []
  handled : List (ℕ × Update) := []
  fault : Option Assertion := none

def initial : State := {}

/-- A step of the main thread, the arrival of an update, a step of a worker's thread, a timeout
of its wait, and the end of `Main::run`. -/
inductive Label
  | main
  | arrive (content : Option Content)
  | worker (w : ℕ)
  | timeout (w : ℕ)
  | shutdown
  deriving DecidableEq, Repr

def assertThat (assertion : Assertion) (condition : Bool) : Except Assertion Unit :=
  if condition then .ok () else .error assertion

namespace State

def setWorker (state : State) (w : ℕ) (worker : Worker) : State :=
  { state with workers := Function.update state.workers w worker }

/-- `Worker::getIndex`; `idx_` is `~0` before `__construct`. -/
def getIndex (state : State) (w : ℕ) : ℕ := if w < state.constructed then w else 4294967295

/-- `Worker::__construct`. -/
def construct (state : State) (i : ℕ) : State := { state with constructed := i + 1 }

/-! ## `Main` -/

def toggleGlobalModule (state : State) (sw : Bool) : Except Assertion State :=
  if sw then
    if state.gModule then do
      assertThat .moduleReferenced (0 < state.gModuleRefCount)
      return { state with gModuleRefCount := state.gModuleRefCount + 1, module_ := true }
    else do
      assertThat .moduleUnreferenced (state.gModuleRefCount = 0)
      return { state with
        gModule := true, gModuleRefCount := state.gModuleRefCount + 1, module_ := true }
  else do
    assertThat .moduleLoaded state.gModule
    return { state with
      gModule := state.gModuleRefCount - 1 ≠ 0
      gModuleRefCount := state.gModuleRefCount - 1
      module_ := false }

def putPrimaryWorker (sizes : Sizes) (state : State) (w : ℕ) : Except Assertion State := do
  assertThat .putsWithoutUpdate ((state.workers w).hasUpdate = false)
  assertThat .stackHasRoom (state.primaryWorkerStack.length ≤ sizes.hardwareConcurrency)
  assertThat .indexInRange (state.getIndex w < sizes.hardwareConcurrency)
  return { state with primaryWorkerStack := state.getIndex w :: state.primaryWorkerStack }

def putExtraWorker (sizes : Sizes) (state : State) (w : ℕ) : Except Assertion State := do
  assertThat .putsWithoutUpdate ((state.workers w).hasUpdate = false)
  assertThat .stackHasRoom
    (state.extraWorkerStack.length ≤ sizes.maxWorkerNum - sizes.hardwareConcurrency)
  assertThat .indexInRange (sizes.hardwareConcurrency ≤ state.getIndex w)
  return { state with extraWorkerStack := state.getIndex w :: state.extraWorkerStack }

def getPrimaryWorker (state : State) : Option (ℕ × State) :=
  match state.primaryWorkerStack with
  | [] => none
  | w :: rest => some (w, { state with primaryWorkerStack := rest })

def getExtraWorker (state : State) : Option (ℕ × State) :=
  match state.extraWorkerStack with
  | [] => none
  | w :: rest => some (w, { state with extraWorkerStack := rest })

def incRef (state : State) : Except Assertion Unit :=
  assertThat .updatesRunning (state.stopUpdate = false)

end State

/-- The tests of `Shell::handleUpdate`: `!sh`, `/sh`, `~sh` or `.sh`, and a space. -/
def Update.isShellCommand (update : Update) : Bool :=
  match update.content with
  | some (.text (c :: 's' :: 'h' :: space :: _)) =>
    c ∈ ['!', '/', '~', '.'] && space ∈ [' ', '\t', '\n', '\x0b', '\x0c', '\r']
  | _ => false

/-- `Module::dispatchEnumerate`, whose only module is `Shell`: a command takes a reference to
`main` for a thread of its own. -/
def State.dispatchEnumerate (state : State) (update : Update) : Except Assertion Unit :=
  if update.isShellCommand then state.incRef else .ok ()

/-! ## `Worker`, in its own thread -/

namespace State

/-- The end of `runWorker`. -/
def exitLoop (state : State) (w : ℕ) : Except Assertion State := do
  let worker := { state.workers w with isOnline := false, thread := .leaving }
  assertThat .exitsWithoutUpdate (worker.hasUpdate = false)
  assertThat .exitsStopped (worker.stopEventLoop = true)
  return state.setWorker w worker

/-- The test of the loop and the first test of `wait_for`. -/
def enterLoop (state : State) (w : ℕ) : Except Assertion State :=
  let worker := state.workers w
  if worker.stopEventLoop then
    state.exitLoop w
  else if worker.hasUpdate then
    return state.setWorker w { worker with thread := .handling }
  else
    return state.setWorker w { worker with thread := .waiting 0 }

/-- After `waitForEvent` has returned true. -/
def wake (state : State) (w : ℕ) : Except Assertion State :=
  let worker := state.workers w
  if worker.stopEventLoop then
    state.exitLoop w
  else do
    assertThat .wokenByUpdate worker.hasUpdate
    return state.setWorker w { worker with thread := .handling }

def handleUpdate (state : State) (w : ℕ) : Except Assertion State := do
  let worker := state.workers w
  assertThat .modulePresent state.module_
  state.dispatchEnumerate worker.update
  let worker := { worker with hasUpdate := false, thread := .putting }
  assertThat .updateHandled (worker.hasUpdate = false)
  return { state.setWorker w worker with handled := state.handled ++ [(w, worker.update)] }

/-- `putPrimaryWorker(this)` or `putExtraWorker(this)`, and back to the test of the loop. -/
def putBack (sizes : Sizes) (state : State) (w : ℕ) : Except Assertion State := do
  let state ← if sizes.isPrimaryWorker w then
      state.putPrimaryWorker sizes w
    else
      state.putExtraWorker sizes w
  state.enterLoop w

/-- The next step of worker `w`'s thread, if there is one; a waiting one moves when it finds
`hasUpdate_` or `stopEventLoop_` set. -/
def workerStep (sizes : Sizes) (state : State) (w : ℕ) : Option (Except Assertion State) :=
  let worker := state.workers w
  match worker.thread with
  | .absent | .finished => none
  | .created => some <| .ok <|
    state.setWorker w { worker with stopEventLoop := false, thread := .started }
  | .started => some <| .ok <| state.setWorker w { worker with isOnline := true, thread := .online }
  | .online => some <| .ok <| state.setWorker w { worker with thread := .ready }
  | .ready => some do
    assertThat .runsOnline worker.isOnline
    state.enterLoop w
  | .waiting _ => if worker.hasUpdate || worker.stopEventLoop then some (state.wake w) else none
  | .handling => some (state.handleUpdate w)
  | .putting => some (state.putBack sizes w)
  | .leaving => some do
    assertThat .endsOffline (worker.isOnline = false)
    assertThat .endsStopped worker.stopEventLoop
    return state.setWorker w { worker with thread := .finished }

/-- `waitForEvent` returns false: a primary worker goes on waiting, an extra one at most 20
times. -/
def timeoutStep (sizes : Sizes) (state : State) (w : ℕ) : Option (Except Assertion State) :=
  let worker := state.workers w
  match worker.thread with
  | .waiting timeoutCounter =>
    if worker.hasUpdate || worker.stopEventLoop then
      none
    else if sizes.isPrimaryWorker w then
      some (.ok state)
    else if timeoutCounter + 1 < 20 then
      some <| .ok <| state.setWorker w { worker with thread := .waiting (timeoutCounter + 1) }
    else
      some ((state.setWorker w { worker with stopEventLoop := true }).exitLoop w)
  | _ => none

end State

/-! ## The main thread -/

/-- Where `spawn` returns to. -/
def SpawnSite.after : SpawnSite → ℕ → MainThread
  | .setup, w => .constructing (w + 1)
  | .dispatch, _ => .idle

/-- The thread holds its worker's `updateMutex_`. -/
def Thread.holdsMutex : Thread → Bool
  | .handling | .putting => true
  | _ => false

namespace State

def spawnStep (state : State) (site : SpawnSite) (w : ℕ) (stage : SpawnStage) :
    Option (Except Assertion State) :=
  let worker := state.workers w
  match stage with
  | .checking => some do
    assertThat .constructed (w < state.constructed)
    if worker.isOnline then
      return { state with main := site.after w }
    else
      return { state with main := .spawning site w .reaping }
  | .reaping =>
    if worker.thread = .absent then
      some (.ok { state with main := .spawning site w .creating })
    else some do
      assertThat .deadThreadStopped worker.stopEventLoop
      return { state with main := .spawning site w .joining }
  | .joining =>
    if worker.thread = .finished then
      some <| .ok { state.setWorker w { worker with thread := .absent } with
        main := .spawning site w .creating }
    else
      none
  | .creating => some do
    assertThat .spawnsOffline (worker.isOnline = false)
    return { state.setWorker w { worker with thread := .created } with
      main := .spawning site w .awaiting }
  | .awaiting =>
    if worker.isOnline && !worker.thread.holdsMutex then
      some (.ok { state with main := site.after w })
    else
      none

/-- One round of the first loop of `spawnThreads`. -/
def constructStep (sizes : Sizes) (state : State) (i : ℕ) : State :=
  if i < sizes.maxWorkerNum then
    if sizes.isPrimaryWorker i then
      { state.construct i with main := .spawning .setup i .checking }
    else
      { state.construct i with main := .constructing (i + 1) }
  else
    { state with main := .fillingPrimary sizes.hardwareConcurrency }

/-- One round of the second loop of `spawnThreads`, `for (size_t i = hc; i--;)`. -/
def fillPrimaryStep (sizes : Sizes) (state : State) : ℕ → Except Assertion State
  | 0 => return { state with main := .fillingExtra sizes.maxWorkerNum }
  | i + 1 => do
    assertThat .indexed (state.getIndex i = i)
    let state ← state.putPrimaryWorker sizes i
    return { state with main := .fillingPrimary i }

/-- One round of the third loop of `spawnThreads`, `for (size_t i = maxWorkerNum_; i-- > hc;)`. -/
def fillExtraStep (sizes : Sizes) (state : State) (i : ℕ) : Except Assertion State :=
  if sizes.hardwareConcurrency < i then do
    assertThat .indexed (state.getIndex (i - 1) = i - 1)
    let state ← state.putExtraWorker sizes (i - 1)
    return { state with main := .fillingExtra (i - 1) }
  else
    return { state with main := .counting }

/-- The unlocked part of `Worker::sendUpdate`. -/
def assertStep (state : State) (update : Update) (w : ℕ) : Except Assertion State := do
  assertThat .constructed (w < state.constructed)
  assertThat .sendsWithoutUpdate ((state.workers w).hasUpdate = false)
  return { state with main := .sending update w }

/-- The locked part of `Worker::sendUpdate`. -/
def sendUpdate (state : State) (update : Update) (w : ℕ) : State :=
  { state.setWorker w { state.workers w with update, hasUpdate := true } with
    main := .testing w, sent := state.sent ++ [(w, update)] }

/-- One round of `delete[] workers_`, which destroys the last worker first: `~Worker` and
`close`, up to the join. -/
def closeStep (state : State) : ℕ → State
  | 0 => { state with main := .unloading }
  | w + 1 =>
    if (state.workers w).thread = .absent then
      { state with main := .closing w }
    else
      { state.setWorker w { state.workers w with stopEventLoop := true } with
        main := .joiningClosed w }

/-- The next step of the main thread. -/
def mainStep (sizes : Sizes) (state : State) : Option (Except Assertion State) :=
  match state.main with
  | .loading => some do
    let state ← state.toggleGlobalModule true
    return { state with main := .constructing 0 }
  | .constructing i => some (.ok (state.constructStep sizes i))
  | .spawning site w stage => state.spawnStep site w stage
  | .fillingPrimary i => some (state.fillPrimaryStep sizes i)
  | .fillingExtra i => some (state.fillExtraStep sizes i)
  | .counting => some do
    assertThat .primaryStackFull (state.primaryWorkerStack.length = sizes.hardwareConcurrency)
    assertThat .extraStackFull
      (state.extraWorkerStack.length = sizes.maxWorkerNum - sizes.hardwareConcurrency)
    return { state with main := .idle }
  | .idle => none
  | .takingPrimary update =>
    match state.getPrimaryWorker with
    | some (w, state) => some (.ok { state with main := .asserting update w })
    | none => some (.ok { state with main := .takingExtra update })
  | .takingExtra update =>
    match state.getExtraWorker with
    | some (w, state) => some (.ok { state with main := .asserting update w })
    | none => some (.ok { state with main := .idle })
  | .asserting update w => some (state.assertStep update w)
  | .sending update w =>
    if (state.workers w).thread.holdsMutex then none else some (.ok (state.sendUpdate update w))
  | .testing w =>
    if (state.workers w).isOnline then
      some (.ok { state with main := .idle })
    else
      some (.ok { state with main := .spawning .dispatch w .checking })
  | .closing i => some (.ok (state.closeStep i))
  | .joiningClosed w =>
    if (state.workers w).thread = .finished then
      some <| .ok { state.setWorker w { state.workers w with thread := .absent } with
        main := .closing w }
    else
      none
  | .unloading => some do
    assertThat .updatesStopped state.stopUpdate
    let state ← state.toggleGlobalModule false
    return { state with main := .exited }
  | .exited => none

/-- `updateNewMessage` up to its test of `stopUpdate_`. -/
def arriveStep (state : State) (content : Option Content) : Option (Except Assertion State) :=
  if state.main = .idle then
    some <| .ok { state with
      arrivals := state.arrivals + 1
      main := if state.stopUpdate then .idle else .takingPrimary ⟨state.arrivals, content⟩ }
  else
    none

/-- `stopUpdate_ = true` at the end of `Main::run` and in `~Main`. -/
def shutdownStep (sizes : Sizes) (state : State) : Option (Except Assertion State) :=
  if state.main = .idle then
    some (.ok { state with stopUpdate := true, main := .closing sizes.maxWorkerNum })
  else
    none

def attempt (sizes : Sizes) (state : State) : Label → Option (Except Assertion State)
  | .main => state.mainStep sizes
  | .arrive content => state.arriveStep content
  | .worker w => state.workerStep sizes w
  | .timeout w => state.timeoutStep sizes w
  | .shutdown => state.shutdownStep sizes

/-- A step that fails an assertion leaves the state as it was, with the failure on record. -/
def settle (state : State) : Except Assertion State → State
  | .ok next => next
  | .error assertion => { state with fault := some assertion }

def step (sizes : Sizes) (state : State) (label : Label) : Option State :=
  if state.fault.isSome then none else (state.attempt sizes label).map state.settle

end State

/-- The pool as a machine. -/
def pool (sizes : Sizes) : Machine State Label := ⟨State.step sizes⟩

/-- The threads whose steps the labels are; arrivals, timeouts and the shutdown belong to the
environment. -/
inductive Agent
  | main
  | worker (w : ℕ)
  deriving DecidableEq, Repr

def Label.agent : Label → Option Agent
  | .main => some .main
  | .worker w => some (.worker w)
  | _ => none

end Tgvisd.WorkerPool
