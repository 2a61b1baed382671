import Tgvisd.Td.Concurrent

/-!
# Synchronous queries

`send_query_sync` stores a callback that refers to its own local variables, and waits in rounds
of one second until the callback has run or the timeout is reached. The calls of any number of
threads run beside `loop()`, which runs the callbacks step by step. A callback stays in
`handlers_` when its call is over, and it takes no lock: it can be dispatched after the call has
returned, and the call can return while it is under way.
-/

namespace Tgvisd

open TdApi

/-- Where a call is: still in `send_query`, before `lock.lock()`, before the test of the loop,
inside `wait_for`, out of the loop, or returned. -/
inductive WaiterPc
  | sending
  | testing
  | waiting
  | leaving
  | returned
  deriving DecidableEq, Repr

/-- The local variables of one call, its arguments and the type it expects. -/
structure Frame where
  thread : Nat
  returnId : ObjectId
  timeout : Int32
  pc : WaiterPc := .sending
  finished : Bool := false
  retVal : Option Object := none
  warnCounter : UInt32 := 0
  deriving DecidableEq, Repr

/-- The steps of the callback that are still to come. -/
inductive CallbackPc
  | entered (object : Object)
  | out
  | notifying
  deriving DecidableEq, Repr

/-- The client with the calls of `send_query_sync`, the call that each thread is in, and the
callback that `loop()` is running. A callback step that touches a frame that is gone is noted. -/
structure SyncSystem where
  system : System
  frame : Nat → Option Frame := fun _ ↦ none
  inside : Nat → Option Nat := fun _ ↦ none
  nextCall : Nat := 0
  running : Option (Nat × CallbackPc) := none
  dangling : Bool := false

inductive SyncLabel
  | client (label : Label)
  | callSync (thread : Nat) (function : Function) (returnId : ObjectId) (timeout : Int32)
  | lock (call : Nat)
  | test (call : Nat)
  | endRound (call : Nat)
  | leave (call : Nat)
  | callback
  deriving DecidableEq, Repr

/-- The thread that takes the step, where it is one of the threads that send queries. -/
def Label.thread : Label → Option Nat
  | .call thread _ | .draw thread | .register thread | .handOver thread => some thread
  | .receive => some 0
  | .answer _ _ | .update _ => none

/-- The callback that the next receipt will run, and its argument. -/
def System.nextCallback (system : System) : Option (Nat × Object) :=
  match system.inbox with
  | [] => none
  | event :: _ =>
    match event.response.object, system.td.handlers.lookup event.response.requestId with
    | some object, some entry =>
      match entry.handler with
      | .sync call => if event.response.requestId = 0 then none else some (call, object)
      | .getMe | .authentication _ | .user _ => none
    | _, _ => none

/-- `timeout > 0 && (uint32_t) timeout <= warnCounter` -/
def Frame.timedOut (frame : Frame) : Bool :=
  0 < frame.timeout && frame.timeout.toUInt32 ≤ frame.warnCounter

namespace SyncSystem

def setFrame (sync : SyncSystem) (call : Nat) (frame : Frame) : SyncSystem :=
  { sync with frame := Function.update sync.frame call (some frame) }

/-- The call has not returned, so that its local variables are there. -/
def isAlive (sync : SyncSystem) (call : Nat) : Bool :=
  match sync.frame call with
  | some frame => frame.pc ≠ .returned
  | none => false

/-- A thread that waits takes no other step, and `loop()` waits for the callback it runs. -/
def isFree (sync : SyncSystem) (label : Label) : Bool :=
  match label with
  | .call thread query =>
    sync.inside thread = none && (thread ≠ 0 || sync.running = none) &&
      match query.handler with
      | some (.sync _) => false
      | _ => true
  | _ => label.thread ≠ some 0 || sync.running = none

def client (sync : SyncSystem) (label : Label) : Option SyncSystem :=
  if sync.isFree label then
    match System.step sync.system label with
    | some next =>
      some { sync with
        system := next
        running :=
          if label = .receive then
            sync.system.nextCallback.map fun (call, object) ↦ (call, .entered object)
          else
            sync.running }
    | none => none
  else
    none

/-- The call's frame is set up and its `send_query` begins. -/
def callSync (sync : SyncSystem) (thread : Nat) (function : Function) (returnId : ObjectId)
    (timeout : Int32) : Option SyncSystem :=
  if thread ≠ 0 ∧ sync.inside thread = none then
    match sync.system.call thread ⟨function, some (.sync sync.nextCall)⟩ with
    | some next =>
      some { sync.setFrame sync.nextCall
          { thread := thread, returnId := returnId, timeout := timeout } with
        system := next
        inside := Function.update sync.inside thread (some sync.nextCall)
        nextCall := sync.nextCall + 1 }
    | none => none
  else
    none

/-- `send_query` has returned, and the waiter takes its own lock. -/
def lock (sync : SyncSystem) (call : Nat) : Option SyncSystem :=
  match sync.frame call with
  | some frame =>
    if frame.pc = .sending ∧ sync.system.stage frame.thread = .idle then
      some (sync.setFrame call { frame with pc := .testing })
    else
      none
  | none => none

/-- `while (!finished)` -/
def test (sync : SyncSystem) (call : Nat) : Option SyncSystem :=
  match sync.frame call with
  | some frame =>
    if frame.pc = .testing then
      some (sync.setFrame call
        { frame with pc := if frame.finished then .leaving else .waiting })
    else
      none
  | none => none

/-- `wait_for` returns, because of `finished` or after its second, and the counter is checked. -/
def endRound (sync : SyncSystem) (call : Nat) : Option SyncSystem :=
  match sync.frame call with
  | some frame =>
    if frame.pc = .waiting then
      let counted := { frame with warnCounter := frame.warnCounter + 1 }
      some (sync.setFrame call
        { counted with pc := if counted.timedOut then .leaving else .testing })
    else
      none
  | none => none

/-- `return retVal`, which ends the lifetime of the local variables. -/
def leave (sync : SyncSystem) (call : Nat) : Option SyncSystem :=
  match sync.frame call with
  | some frame =>
    if frame.pc = .leaving then
      some { sync.setFrame call { frame with pc := .returned } with
        inside := Function.update sync.inside frame.thread none }
    else
      none
  | none => none

/-- A write to the call's local variables; there is nothing to write to once it has returned. -/
def touch (sync : SyncSystem) (call : Nat) (write : Frame → Frame) : SyncSystem :=
  match sync.frame call with
  | some frame =>
    if frame.pc = .returned then
      { sync with dangling := true }
    else
      sync.setFrame call (write frame)
  | none => { sync with dangling := true }

/-- The type that the call's template parameter names. -/
def returnId (sync : SyncSystem) (call : Nat) : Option ObjectId :=
  (sync.frame call).map Frame.returnId

/-- The next step of the callback: the object is kept if it has the right type, `finished` is
set, and the waiter is notified. -/
def callback (sync : SyncSystem) : Option SyncSystem :=
  match sync.running with
  | some (call, .entered object) =>
    let next := { sync with running := some (call, .out) }
    if object.getId = .error then
      some next
    else if some object.getId ≠ sync.returnId call then
      some next
    else
      some (next.touch call fun frame ↦ { frame with retVal := some object })
  | some (call, .out) =>
    some ({ sync with running := some (call, .notifying) }.touch call fun frame ↦
      { frame with finished := true })
  | some (call, .notifying) => some ({ sync with running := none }.touch call id)
  | none => none

def step (sync : SyncSystem) (label : SyncLabel) : Option SyncSystem :=
  if sync.system.fault.isSome then
    none
  else
    match label with
    | .client label => sync.client label
    | .callSync thread function returnId timeout =>
      sync.callSync thread function returnId timeout
    | .lock call => sync.lock call
    | .test call => sync.test call
    | .endRound call => sync.endRound call
    | .leave call => sync.leave call
    | .callback => sync.callback

def machine : Machine SyncSystem SyncLabel := ⟨step⟩

def start (config : Config) : SyncSystem where
  system := System.start config

/-- The condition on a step: `loop()` receives the answer to a call only before the call has
returned, and a call returns only while its callback is not under way. -/
def respectsFrames (sync : SyncSystem) (label : SyncLabel) : Bool :=
  match label with
  | .client .receive =>
    match sync.system.nextCallback with
    | some (call, _) => sync.isAlive call
    | none => true
  | .leave call =>
    match sync.running with
    | some (runningCall, _) => runningCall ≠ call
    | none => true
  | _ => true

/-! ## Frames and the callback that refers to them -/

variable {sync next : SyncSystem} {call : Nat}

theorem isAlive_iff : sync.isAlive call = true ↔
    ∃ frame, sync.frame call = some frame ∧ frame.pc ≠ .returned := by
  unfold isAlive
  cases sync.frame call <;> simp

theorem isAlive_setFrame {other : Nat} {frame : Frame} (hpc : frame.pc ≠ .returned)
    (h : sync.isAlive other = true) : (sync.setFrame call frame).isAlive other = true := by
  rw [isAlive_iff] at h ⊢
  by_cases hsame : other = call
  · subst hsame
    exact ⟨frame, Function.update_self _ _ _, hpc⟩
  · obtain ⟨old, hold, hold'⟩ := h
    exact ⟨old, (Function.update_of_ne hsame _ _).trans hold, hold'⟩

theorem touch_of_alive (write : Frame → Frame) (h : sync.isAlive call = true) :
    ∃ frame, sync.frame call = some frame ∧ frame.pc ≠ .returned ∧
      sync.touch call write = sync.setFrame call (write frame) := by
  obtain ⟨frame, hframe, hpc⟩ := isAlive_iff.mp h
  refine ⟨frame, hframe, hpc, ?_⟩
  unfold touch
  simp [hframe, hpc]

theorem touch_of_gone (write : Frame → Frame) (h : sync.isAlive call = false) :
    sync.touch call write = { sync with dangling := true } := by
  unfold touch
  unfold isAlive at h
  cases hframe : sync.frame call with
  | none => rfl
  | some frame =>
    have hpc : frame.pc = .returned := by simpa [hframe] using h
    simp [hpc]

/-- No write has missed its frame, and the callback under way still has one. -/
structure Tethered (sync : SyncSystem) : Prop where
  intact : sync.dangling = false
  running : ∀ call pc, sync.running = some (call, pc) → sync.isAlive call = true

theorem Tethered.setFrame {frame : Frame} (h : sync.Tethered) (hpc : frame.pc ≠ .returned) :
    (sync.setFrame call frame).Tethered :=
  ⟨h.intact, fun other pc hrunning ↦ isAlive_setFrame hpc (h.running other pc hrunning)⟩

theorem Tethered.client {label : Label} (h : sync.Tethered)
    (hguard : sync.respectsFrames (.client label) = true)
    (hstep : sync.client label = some next) : next.Tethered := by
  unfold SyncSystem.client at hstep
  split at hstep
  · split at hstep
    · rename_i system hsystem
      rw [Option.some.injEq] at hstep
      subst hstep
      refine ⟨h.intact, ?_⟩
      intro running pc hrunning
      by_cases hreceive : label = .receive
      · subst hreceive
        cases hcallback : sync.system.nextCallback with
        | none => simp [hcallback] at hrunning
        | some entered =>
          obtain ⟨entering, object⟩ := entered
          simp only [hcallback, if_true, Option.map_some, Option.some.injEq,
            Prod.mk.injEq] at hrunning
          obtain ⟨rfl, -⟩ := hrunning
          have halive : sync.isAlive entering = true := by
            simpa [respectsFrames, hcallback] using hguard
          exact halive
      · simp only [hreceive, if_false] at hrunning
        exact h.running running pc hrunning
    · simp at hstep
  · simp at hstep

theorem Tethered.callSync {thread : Nat} {function : Function} {returnId : ObjectId}
    {timeout : Int32} (h : sync.Tethered)
    (hstep : sync.callSync thread function returnId timeout = some next) : next.Tethered := by
  unfold SyncSystem.callSync at hstep
  split at hstep
  · split at hstep
    · rw [Option.some.injEq] at hstep
      subst hstep
      have hframe : (sync.setFrame sync.nextCall
          { thread := thread, returnId := returnId, timeout := timeout }).Tethered :=
        h.setFrame (show WaiterPc.sending ≠ .returned by decide)
      exact ⟨hframe.intact, hframe.running⟩
    · simp at hstep
  · simp at hstep

/-- The waiter's own steps before it returns. -/
theorem Tethered.waiter (h : sync.Tethered)
    (hstep : sync.lock call = some next ∨ sync.test call = some next ∨
      sync.endRound call = some next) : next.Tethered := by
  unfold SyncSystem.lock SyncSystem.test SyncSystem.endRound at hstep
  cases hframe : sync.frame call with
  | none => simp [hframe] at hstep
  | some frame =>
    simp only [hframe] at hstep
    rcases hstep with hstep | hstep | hstep <;> split at hstep
    · obtain rfl := Option.some.inj hstep
      exact h.setFrame (by simp)
    · simp at hstep
    · obtain rfl := Option.some.inj hstep
      refine h.setFrame ?_
      by_cases hfinished : frame.finished = true <;> simp [hfinished]
    · simp at hstep
    · obtain rfl := Option.some.inj hstep
      refine h.setFrame ?_
      split <;> simp
    · simp at hstep

/-- Another call's return does not touch the frame that the callback refers to. -/
theorem Tethered.leave (h : sync.Tethered) (hguard : sync.respectsFrames (.leave call) = true)
    (hstep : sync.leave call = some next) : next.Tethered := by
  unfold SyncSystem.leave at hstep
  cases hframe : sync.frame call with
  | none => simp [hframe] at hstep
  | some frame =>
    simp only [hframe] at hstep
    split at hstep
    · obtain rfl := Option.some.inj hstep
      refine ⟨h.intact, ?_⟩
      intro running pc hrunning
      have hsome : sync.running = some (running, pc) := hrunning
      have hne : running ≠ call := by simpa [respectsFrames, hsome] using hguard
      obtain ⟨other, hother, hpc⟩ := isAlive_iff.mp (h.running running pc hsome)
      exact isAlive_iff.mpr ⟨other, (Function.update_of_ne hne _ _).trans hother, hpc⟩
    · simp at hstep

theorem Tethered.touch (h : sync.Tethered) (halive : sync.isAlive call = true)
    (write : Frame → Frame) (hwrite : ∀ frame, (write frame).pc = frame.pc) :
    (sync.touch call write).Tethered := by
  obtain ⟨frame, -, hpc, htouch⟩ := touch_of_alive write halive
  rw [htouch]
  apply h.setFrame
  rw [hwrite]
  exact hpc

/-- Going on with the callback leaves the frames alone. -/
theorem Tethered.advance {pc : CallbackPc} (h : sync.Tethered)
    (hrunning : sync.running = some (call, pc)) (reached : CallbackPc) :
    Tethered { sync with running := some (call, reached) } := by
  refine ⟨h.intact, ?_⟩
  intro other otherPc hother
  obtain ⟨rfl, -⟩ := Prod.mk.injEq .. ▸ Option.some.inj hother
  exact h.running call pc hrunning

theorem Tethered.callback (h : sync.Tethered) (hstep : sync.callback = some next) :
    next.Tethered := by
  unfold SyncSystem.callback at hstep
  cases hrunning : sync.running with
  | none => simp [hrunning] at hstep
  | some running =>
    obtain ⟨call, pc⟩ := running
    have halive := h.running call pc hrunning
    have hentered := h.advance hrunning
    rw [hrunning] at hstep
    cases pc with
    | entered object =>
      simp only at hstep
      split at hstep
      · exact Option.some.inj hstep ▸ hentered .out
      · split at hstep
        · exact Option.some.inj hstep ▸ hentered .out
        · rw [← Option.some.inj hstep]
          exact (hentered .out).touch halive _ fun _ ↦ rfl
    | out =>
      rw [← Option.some.inj hstep]
      exact (hentered .notifying).touch halive _ fun _ ↦ rfl
    | notifying =>
      have hidle : Tethered { sync with running := none } :=
        ⟨h.intact, fun call pc hnone ↦ absurd hnone (by simp)⟩
      rw [← Option.some.inj hstep]
      exact hidle.touch halive _ fun _ ↦ rfl

theorem Tethered.step {label : SyncLabel} (h : sync.Tethered)
    (hguard : sync.respectsFrames label = true)
    (hstep : machine.step sync label = some next) : next.Tethered := by
  change (if sync.system.fault.isSome = true then none else _) = some next at hstep
  split at hstep
  · simp at hstep
  · cases label with
    | client label => exact h.client hguard hstep
    | callSync thread function returnId timeout => exact h.callSync hstep
    | lock call => exact h.waiter (Or.inl hstep)
    | test call => exact h.waiter (Or.inr (Or.inl hstep))
    | endRound call => exact h.waiter (Or.inr (Or.inr hstep))
    | leave call => exact h.leave hguard hstep
    | callback => exact h.callback hstep

/-! ## The condition is exact -/

theorem step_of_running {label : SyncLabel} (hfault : sync.system.fault = none) :
    machine.step sync label = match label with
      | .client label => sync.client label
      | .callSync thread function returnId timeout =>
        sync.callSync thread function returnId timeout
      | .lock call => sync.lock call
      | .test call => sync.test call
      | .endRound call => sync.endRound call
      | .leave call => sync.leave call
      | .callback => sync.callback :=
  if_neg (by simp [hfault])

theorem run_callback (hfault : sync.system.fault = none) (hcallback : sync.callback = some next) :
    machine.run sync [.callback] = some next := by
  rw [Machine.run_cons, step_of_running hfault]
  simp [hcallback]

/-- The callback's first step, where there is no frame to write to. -/
theorem callback_entered {object : Object} (hgone : sync.isAlive call = false)
    (hrunning : sync.running = some (call, .entered object)) :
    ∃ next, sync.callback = some next ∧ next.running = some (call, .out) ∧
      next.system = sync.system ∧ next.frame = sync.frame := by
  have htouch : ({ sync with running := some (call, .out) } : SyncSystem).touch call
      (fun frame ↦ { frame with retVal := some object }) =
      { sync with running := some (call, .out), dangling := true } := touch_of_gone _ hgone
  unfold callback
  rw [hrunning]
  simp only
  split
  · exact ⟨_, rfl, rfl, rfl, rfl⟩
  · split
    · exact ⟨_, rfl, rfl, rfl, rfl⟩
    · exact ⟨_, rfl, by rw [htouch], by rw [htouch], by rw [htouch]⟩

/-- A callback without a frame is going to write to it. -/
theorem exists_dangling {pc : CallbackPc} (hfault : sync.system.fault = none)
    (hgone : sync.isAlive call = false) (hrunning : sync.running = some (call, pc)) :
    ∃ labels last, machine.run sync labels = some last ∧ last.dangling = true := by
  have hout {sync : SyncSystem} (hfault : sync.system.fault = none)
      (hgone : sync.isAlive call = false) (hrunning : sync.running = some (call, .out)) :
      ∃ labels last, machine.run sync labels = some last ∧ last.dangling = true := by
    have hcallback : sync.callback =
        some { sync with running := some (call, .notifying), dangling := true } := by
      unfold callback
      rw [hrunning]
      exact congrArg some (touch_of_gone _ hgone)
    exact ⟨[.callback], _, run_callback hfault hcallback, rfl⟩
  cases pc with
  | entered object =>
    obtain ⟨next, hcallback, hnextRunning, hsystem, hframe⟩ := callback_entered hgone hrunning
    have hnextGone : next.isAlive call = false := by
      unfold isAlive at hgone ⊢
      rw [hframe]
      exact hgone
    obtain ⟨labels, last, hrun, hdangling⟩ := hout (hsystem ▸ hfault) hnextGone hnextRunning
    exact ⟨[.callback] ++ labels, last,
      Machine.run_append_eq (run_callback hfault hcallback) hrun, hdangling⟩
  | out => exact hout hfault hgone hrunning
  | notifying =>
    have hcallback : sync.callback = some { sync with running := none, dangling := true } := by
      unfold callback
      rw [hrunning]
      exact congrArg some (touch_of_gone _ hgone)
    exact ⟨[.callback], _, run_callback hfault hcallback, rfl⟩

end SyncSystem

/-- Receiving the answer to a synchronous query does not crash. -/
theorem System.receive_fault {system next : System} {call : Nat} {object : Object}
    (hcallback : system.nextCallback = some (call, object))
    (hstep : system.receive = some next) : next.fault = system.fault := by
  unfold System.nextCallback at hcallback
  unfold System.receive at hstep
  split at hstep
  · cases hinbox : system.inbox with
    | nil => simp [hinbox] at hstep
    | cons event inbox =>
      rw [hinbox] at hcallback hstep
      simp only at hcallback hstep
      split at hcallback
      · rename_i answer entry hobject hentry
        split at hcallback
        · rename_i stored hhandler
          split at hcallback
          · simp at hcallback
          · rename_i hid
            rw [Td.processResponse_of_lookup hobject hid hentry, hhandler] at hstep
            rw [← Option.some.inj hstep]
            rfl
        all_goals simp at hcallback
      · simp at hcallback
  · simp at hstep

namespace SyncSystem

variable {sync next : SyncSystem}

/-- The callback of a call that has returned is dispatched. -/
theorem gone_of_receive (hfault : sync.system.fault = none)
    (hstep : sync.client .receive = some next)
    (hguard : sync.respectsFrames (.client .receive) = false) :
    next.system.fault = none ∧ ∃ call pc, next.running = some (call, pc) ∧
      next.isAlive call = false := by
  cases hcallback : sync.system.nextCallback with
  | none => simp [respectsFrames, hcallback] at hguard
  | some entering =>
    obtain ⟨call, object⟩ := entering
    have hgone : sync.isAlive call = false := by
      simpa [respectsFrames, hcallback] using hguard
    simp only [client] at hstep
    split at hstep
    · split at hstep
      · rename_i system hsystem
        have hreceive : sync.system.receive = some system := by
          rw [← hsystem]
          exact (if_neg (by simp [hfault])).symm
        rw [← Option.some.inj hstep]
        refine ⟨(System.receive_fault hcallback hreceive).trans hfault, call,
          .entered object, ?_, hgone⟩
        simp [hcallback]
      · simp at hstep
    · simp at hstep

/-- The call returns under its callback. -/
theorem gone_of_leave (hfault : sync.system.fault = none) (hstep : sync.leave call = some next)
    (hguard : sync.respectsFrames (.leave call) = false) :
    next.system.fault = none ∧ ∃ call pc, next.running = some (call, pc) ∧
      next.isAlive call = false := by
  cases hrunning : sync.running with
  | none => simp [respectsFrames, hrunning] at hguard
  | some running =>
    obtain ⟨runningCall, pc⟩ := running
    obtain rfl : runningCall = call := by simpa [respectsFrames, hrunning] using hguard
    simp only [leave] at hstep
    split at hstep
    · rename_i frame hframe
      split at hstep
      · rw [← Option.some.inj hstep]
        refine ⟨hfault, runningCall, pc, hrunning, ?_⟩
        simp [isAlive, setFrame]
      · simp at hstep
    · simp at hstep

/-- A step against the condition leaves a callback under way whose frame is gone. -/
theorem exists_gone {label : SyncLabel} (hstep : machine.step sync label = some next)
    (hguard : sync.respectsFrames label = false) :
    next.system.fault = none ∧ ∃ call pc, next.running = some (call, pc) ∧
      next.isAlive call = false := by
  have hfault : sync.system.fault = none := by
    by_contra hsome
    obtain ⟨fault, hfault⟩ := Option.ne_none_iff_exists'.mp hsome
    simp [machine, step, hfault] at hstep
  rw [step_of_running hfault] at hstep
  cases label with
  | client inner =>
    cases inner with
    | receive => exact gone_of_receive hfault hstep hguard
    | _ => simp [respectsFrames] at hguard
  | leave call => exact gone_of_leave hfault hstep hguard
  | _ => simp [respectsFrames] at hguard

/-- No callback step misses its frame in a run whose steps all meet the condition; and a step
against the condition, wherever it is taken, leads to such a callback step. -/
theorem intact_exactly (config : Config) :
    (∀ labels, machine.EveryStep (fun sync label _ ↦ sync.respectsFrames label = true)
        (start config) labels →
      machine.Throughout (fun sync ↦ sync.dangling = false) (start config) labels) ∧
    (∀ sync label next, machine.step sync label = some next →
      sync.respectsFrames label = false →
        ∃ labels last, machine.run next labels = some last ∧ last.dangling = true) := by
  constructor
  · intro labels hguard
    have hstart : (start config).Tethered := ⟨rfl, fun _ _ hrunning ↦ by simp [start] at hrunning⟩
    have htethered : machine.Throughout Tethered (start config) labels :=
      Machine.Throughout.of_guarded hstart (fun _ _ _ h hmeets hstep ↦ h.step hmeets hstep) hguard
    exact htethered.mono fun _ h ↦ h.intact
  · intro sync label next hstep hguard
    obtain ⟨hfault, call, pc, hrunning, hgone⟩ := exists_gone hstep hguard
    exact exists_dangling hfault hgone hrunning

end SyncSystem

/-! ## What a frame keeps -/

/-- A frame keeps its timeout, and `finished` is never reset. -/
structure Frame.Keeps (before after : Frame) : Prop where
  timeout : after.timeout = before.timeout
  finished : before.finished = true → after.finished = true

theorem Frame.keeps_refl (frame : Frame) : frame.Keeps frame := ⟨rfl, id⟩

namespace SyncSystem

variable {sync next : SyncSystem}

theorem setFrame_keeps {call other : Nat} {frame after : Frame}
    (hframe : sync.frame call = some frame) (hafter : other = call → frame.Keeps after) :
    ∃ kept, (sync.setFrame other after).frame call = some kept ∧ frame.Keeps kept := by
  by_cases hsame : call = other
  · subst hsame
    exact ⟨after, Function.update_self _ _ _, hafter rfl⟩
  · exact ⟨frame, (Function.update_of_ne hsame _ _).trans hframe, frame.keeps_refl⟩

theorem touch_keeps {call other : Nat} {frame : Frame} (write : Frame → Frame)
    (hframe : sync.frame call = some frame) (hwrite : ∀ frame : Frame, frame.Keeps (write frame)) :
    ∃ kept, (sync.touch other write).frame call = some kept ∧ frame.Keeps kept := by
  unfold touch
  cases hother : sync.frame other with
  | none => exact ⟨frame, hframe, frame.keeps_refl⟩
  | some found =>
    simp only
    split
    · exact ⟨frame, hframe, frame.keeps_refl⟩
    · apply setFrame_keeps hframe
      rintro rfl
      obtain rfl := Option.some.inj (hother.symm.trans hframe)
      exact hwrite found

/-- The waiter's own steps change its frame's place and counter only. -/
theorem waiter_keeps {call other : Nat} {frame : Frame} (hframe : sync.frame call = some frame)
    (hstep : sync.lock other = some next ∨ sync.test other = some next ∨
      sync.endRound other = some next ∨ sync.leave other = some next) :
    ∃ kept, next.frame call = some kept ∧ frame.Keeps kept := by
  unfold lock test endRound leave at hstep
  cases hother : sync.frame other with
  | none => simp [hother] at hstep
  | some found =>
    have hfound : other = call → found = frame := by
      rintro rfl
      exact Option.some.inj (hother.symm.trans hframe)
    simp only [hother] at hstep
    rcases hstep with hstep | hstep | hstep | hstep <;> split at hstep
    · obtain rfl := Option.some.inj hstep
      exact setFrame_keeps hframe fun hsame ↦ hfound hsame ▸ ⟨rfl, id⟩
    · simp at hstep
    · obtain rfl := Option.some.inj hstep
      exact setFrame_keeps hframe fun hsame ↦ hfound hsame ▸ ⟨rfl, id⟩
    · simp at hstep
    · obtain rfl := Option.some.inj hstep
      exact setFrame_keeps hframe fun hsame ↦ hfound hsame ▸ ⟨rfl, id⟩
    · simp at hstep
    · obtain rfl := Option.some.inj hstep
      exact setFrame_keeps hframe fun hsame ↦ hfound hsame ▸ ⟨rfl, id⟩
    · simp at hstep

theorem callback_keeps {call : Nat} {frame : Frame} (hframe : sync.frame call = some frame)
    (hstep : sync.callback = some next) :
    ∃ kept, next.frame call = some kept ∧ frame.Keeps kept := by
  unfold SyncSystem.callback at hstep
  split at hstep
  · split at hstep
    · rw [← Option.some.inj hstep]
      exact ⟨frame, hframe, frame.keeps_refl⟩
    · split at hstep
      · rw [← Option.some.inj hstep]
        exact ⟨frame, hframe, frame.keeps_refl⟩
      · rw [← Option.some.inj hstep]
        exact touch_keeps _ hframe fun _ ↦ ⟨rfl, id⟩
  · rw [← Option.some.inj hstep]
    exact touch_keeps _ hframe fun _ ↦ ⟨rfl, fun _ ↦ rfl⟩
  · rw [← Option.some.inj hstep]
    exact touch_keeps _ hframe fun _ ↦ ⟨rfl, id⟩
  · simp at hstep

theorem client_frame {label : Label} (hstep : sync.client label = some next) :
    next.frame = sync.frame := by
  unfold SyncSystem.client at hstep
  split at hstep
  · split at hstep
    · rw [← Option.some.inj hstep]
    · simp at hstep
  · simp at hstep

theorem step_client_frame {label : Label}
    (hstep : SyncSystem.step sync (.client label) = some next) : next.frame = sync.frame := by
  unfold SyncSystem.step at hstep
  split at hstep
  · simp at hstep
  · exact client_frame hstep

/-- A step that begins no call keeps every frame. -/
theorem step_keeps {label : SyncLabel} {call : Nat} {frame : Frame}
    (hlabel : ∀ thread function returnId timeout,
      label ≠ .callSync thread function returnId timeout)
    (hframe : sync.frame call = some frame) (hstep : SyncSystem.step sync label = some next) :
    ∃ kept, next.frame call = some kept ∧ frame.Keeps kept := by
  unfold SyncSystem.step at hstep
  split at hstep
  · simp at hstep
  · cases label with
    | client label => exact ⟨frame, client_frame hstep ▸ hframe, frame.keeps_refl⟩
    | callSync thread function returnId timeout =>
      exact absurd rfl (hlabel thread function returnId timeout)
    | lock other => exact waiter_keeps hframe (Or.inl hstep)
    | test other => exact waiter_keeps hframe (Or.inr (Or.inl hstep))
    | endRound other => exact waiter_keeps hframe (Or.inr (Or.inr (Or.inl hstep)))
    | leave other => exact waiter_keeps hframe (Or.inr (Or.inr (Or.inr hstep)))
    | callback => exact callback_keeps hframe hstep

/-- The call gives up after its only round and the answer comes then; or the answer comes in time
and the call returns before the callback notifies it. -/
theorem dangling_after_timeout_and_at_notify :
    ¬ machine.Throughout (fun sync ↦ sync.dangling = false) (start {})
      [.callSync 1 .getMe .user 1, .client (.draw 1), .client (.register 1),
        .client (.handOver 1), .lock 0, .test 0, .endRound 0, .leave 0,
        .client (.answer 1 (.user { id := 7 })), .client .receive, .callback] ∧
    ¬ machine.Throughout (fun sync ↦ sync.dangling = false) (start {})
      [.callSync 1 .getMe .user (-1), .client (.draw 1), .client (.register 1),
        .client (.handOver 1), .lock 0, .client (.answer 1 (.user { id := 7 })),
        .client .receive, .callback, .callback, .test 0, .leave 0, .callback] := by
  rw [Machine.throughout_iff_visits, Machine.throughout_iff_visits]
  decide

end SyncSystem

end Tgvisd
