import Tgvisd.Td.SendQuerySync

/-!
# One synchronous call

A single call of `send_query_sync` beside the loop thread, which may run its callback at any moment
before the call returns, in one step. A round of the wait ends because `finished` is set or because
its second is over. The steps of the waiter are those it takes in the system of all calls.
-/

namespace Tgvisd

open TdApi

namespace Frame

/-- `send_query` has returned. -/
def lock (frame : Frame) : Option Frame :=
  if frame.pc = .sending then some { frame with pc := .testing } else none

/-- `while (!finished)` -/
def test (frame : Frame) : Option Frame :=
  if frame.pc = .testing then
    some { frame with pc := if frame.finished then .leaving else .waiting }
  else
    none

/-- The end of a round. -/
def endRound (frame : Frame) : Option Frame :=
  if frame.pc = .waiting then
    let counted := { frame with warnCounter := frame.warnCounter + 1 }
    some { counted with pc := if counted.timedOut then .leaving else .testing }
  else
    none

/-- `return retVal` -/
def leave (frame : Frame) : Option Frame :=
  if frame.pc = .leaving then some { frame with pc := .returned } else none

/-- All writes of the callback. -/
def callback (frame : Frame) (object : Object) : Frame :=
  if object.getId = .error then { frame with finished := true }
  else if object.getId ≠ frame.returnId then { frame with finished := true }
  else { frame with retVal := some object, finished := true }

section

variable (frame : Frame) (object : Object)

@[simp] theorem callback_returnId : (frame.callback object).returnId = frame.returnId := by
  unfold callback
  split_ifs <;> rfl

@[simp] theorem callback_timeout : (frame.callback object).timeout = frame.timeout := by
  unfold callback
  split_ifs <;> rfl

@[simp] theorem callback_pc : (frame.callback object).pc = frame.pc := by
  unfold callback
  split_ifs <;> rfl

@[simp] theorem callback_warnCounter :
    (frame.callback object).warnCounter = frame.warnCounter := by
  unfold callback
  split_ifs <;> rfl

@[simp] theorem callback_finished : (frame.callback object).finished = true := by
  unfold callback
  split_ifs <;> rfl

end

end Frame

/-! ## The steps in the system of all calls -/

namespace SyncSystem

variable (sync : SyncSystem) (call : Nat)

theorem test_eq : sync.test call =
    (sync.frame call).bind fun frame ↦ frame.test.map (sync.setFrame call) := by
  unfold test Frame.test
  cases sync.frame call with
  | none => rfl
  | some frame => by_cases hpc : frame.pc = .testing <;> simp [hpc]

theorem endRound_eq : sync.endRound call =
    (sync.frame call).bind fun frame ↦ frame.endRound.map (sync.setFrame call) := by
  unfold endRound Frame.endRound
  cases sync.frame call with
  | none => rfl
  | some frame => by_cases hpc : frame.pc = .waiting <;> simp [hpc]

theorem lock_eq (hidle : ∀ frame, sync.frame call = some frame →
      sync.system.stage frame.thread = .idle) :
    sync.lock call = (sync.frame call).bind fun frame ↦ frame.lock.map (sync.setFrame call) := by
  unfold lock Frame.lock
  cases hframe : sync.frame call with
  | none => rfl
  | some frame => by_cases hpc : frame.pc = .sending <;> simp [hpc, hidle frame hframe]

theorem leave_eq : sync.leave call =
    (sync.frame call).bind fun frame ↦ frame.leave.map fun next ↦
      { sync.setFrame call next with
        inside := Function.update sync.inside frame.thread none } := by
  unfold leave Frame.leave
  cases sync.frame call with
  | none => rfl
  | some frame => by_cases hpc : frame.pc = .leaving <;> simp [hpc]

variable {sync call}

/-- The steps of a callback, taken at once while the call is alive. -/
theorem callback_run {frame : Frame} {object : Object} (hfault : sync.system.fault = none)
    (hframe : sync.frame call = some frame) (hpc : frame.pc ≠ .returned)
    (hrunning : sync.running = some (call, .entered object)) :
    machine.run sync [.callback, .callback, .callback] =
      some { sync.setFrame call (frame.callback object) with running := none } := by
  have hid : sync.returnId call = some frame.returnId := by simp [returnId, hframe]
  by_cases herror : object.getId = .error
  · simp [machine, step, hfault, callback, hrunning, herror, touch, hframe, hpc, setFrame,
      Frame.callback]
  · by_cases hreturn : object.getId = frame.returnId
    · have hkept : frame.returnId ≠ .error := hreturn ▸ herror
      simp [machine, step, hfault, callback, hrunning, hkept, hid, hreturn, touch, hframe, hpc,
        setFrame, Frame.callback]
    · simp [machine, step, hfault, callback, hrunning, herror, hid, hreturn, touch, hframe, hpc,
        setFrame, Frame.callback]

end SyncSystem

/-! ## The call and its callback -/

/-- The call's frame and, for the record, what the callback was given and how many rounds of the
wait have ended. -/
structure SyncCall where
  frame : Frame
  response : Option Object := none
  rounds : ℕ := 0
  deriving DecidableEq, Repr

inductive SyncCallLabel
  | lock
  | test
  | woken
  | limit
  | leave
  | callback (object : Object)
  deriving DecidableEq, Repr

namespace SyncCall

def ofFrame (call : SyncCall) (frame : Frame) : SyncCall := { call with frame }

/-- The callback stays in `handlers_`. It runs at most once because a query has one response, and
what it does after the call has returned is no step of the call. -/
def step (call : SyncCall) : SyncCallLabel → Option SyncCall
  | .lock => call.frame.lock.map call.ofFrame
  | .test => call.frame.test.map call.ofFrame
  | .woken =>
    if call.frame.finished then
      call.frame.endRound.map fun frame ↦ { call with frame, rounds := call.rounds + 1 }
    else
      none
  | .limit => call.frame.endRound.map fun frame ↦ { call with frame, rounds := call.rounds + 1 }
  | .leave => call.frame.leave.map call.ofFrame
  | .callback object =>
    if call.response = none ∧ call.frame.pc ≠ .returned then
      some { call with frame := call.frame.callback object, response := some object }
    else
      none

def machine : Machine SyncCall SyncCallLabel := ⟨step⟩

def start (thread : Nat) (returnId : ObjectId) (timeout : Int32) : SyncCall where
  frame := { thread, returnId, timeout }

/-- The object is what the call is for. -/
def Fits (returnId : ObjectId) (object : Object) : Bool :=
  object.getId ≠ .error ∧ object.getId = returnId

/-! ## The invariant -/

/-- The local variables agree with what has happened; a positive timeout bounds the rounds, and
without one the loop is left only after the callback. -/
structure Tracks (returnId : ObjectId) (timeout : Int32) (call : SyncCall) : Prop where
  hasReturnId : call.frame.returnId = returnId
  hasTimeout : call.frame.timeout = timeout
  finished : call.frame.finished = call.response.isSome
  retVal : call.frame.retVal = call.response.filter (Fits returnId)
  warnCounter : call.frame.warnCounter = UInt32.ofNat call.rounds
  rounds : 0 < timeout → call.rounds ≤ timeout.toNatClampNeg
  more : 0 < timeout → call.frame.pc = .sending ∨ call.frame.pc = .testing ∨
    call.frame.pc = .waiting → call.rounds < timeout.toNatClampNeg
  leaving : call.frame.pc = .leaving ∨ call.frame.pc = .returned →
    call.frame.finished = true ∨ 0 < timeout

/-- The test of the timeout at the end of a round. -/
theorem timedOut_iff {frame : Frame} {rounds : ℕ} (hpositive : 0 < frame.timeout)
    (hbound : rounds < frame.timeout.toNatClampNeg)
    (hcounter : frame.warnCounter = UInt32.ofNat rounds) :
    ({ frame with warnCounter := frame.warnCounter + 1 } : Frame).timedOut = true ↔
      frame.timeout.toNatClampNeg = rounds + 1 := by
  have hlimit := Int32.toNatClampNeg_lt frame.timeout
  have hcount : (UInt32.ofNat rounds + 1).toNat = rounds + 1 := by
    rw [UInt32.toNat_add, UInt32.toNat_ofNat_of_lt' (by simp [UInt32.size]; omega)]
    exact Nat.mod_eq_of_lt (by simp; omega)
  simp only [Frame.timedOut, hpositive, decide_true, Bool.true_and, decide_eq_true_eq,
    UInt32.le_iff_toNat_le, Int32.toNat_toUInt32_of_le (Int32.le_of_lt hpositive), hcounter, hcount]
  omega

namespace Tracks

variable {returnId : ObjectId} {timeout : Int32} {call : SyncCall}

theorem endRound (h : call.Tracks returnId timeout) {frame : Frame}
    (hround : call.frame.endRound = some frame) :
    ({ call with frame, rounds := call.rounds + 1 } : SyncCall).Tracks returnId timeout := by
  simp only [Frame.endRound, Option.ite_none_right_eq_some, Option.some.injEq] at hround
  obtain ⟨hpc, rfl⟩ := hround
  have hbound (hpositive : 0 < timeout) : call.rounds < timeout.toNatClampNeg :=
    h.more hpositive (.inr (.inr hpc))
  constructor
  · exact h.hasReturnId
  · exact h.hasTimeout
  · exact h.finished
  · exact h.retVal
  · simp [h.warnCounter, UInt32.ofNat_add]
  · exact hbound
  · intro hpositive hloop
    have htimedOut := timedOut_iff (h.hasTimeout ▸ hpositive) (h.hasTimeout ▸ hbound hpositive)
      h.warnCounter
    have hrunning : ¬ call.frame.timeout.toNatClampNeg = call.rounds + 1 := by
      rw [← htimedOut]
      intro hover
      simp [hover] at hloop
    rw [h.hasTimeout] at hrunning
    have hlt := hbound hpositive
    change call.rounds + 1 < timeout.toNatClampNeg
    omega
  · intro hleft
    right
    rw [← h.hasTimeout]
    by_contra hnot
    simp [Frame.timedOut, hnot] at hleft

theorem callback (h : call.Tracks returnId timeout) (hnone : call.response = none)
    (object : Object) :
    ({ call with frame := call.frame.callback object, response := some object } :
      SyncCall).Tracks returnId timeout := by
  have hempty : call.frame.retVal = none := by simpa [hnone] using h.retVal
  constructor
  · simpa using h.hasReturnId
  · simpa using h.hasTimeout
  · simp
  · have hid := h.hasReturnId
    unfold Frame.callback
    split_ifs with herror hother
    · simp [hempty, Option.filter, Fits, herror]
    · simp [hempty, Option.filter, Fits, hid ▸ hother]
    · have hsame : object.getId = returnId := hid ▸ not_not.mp hother
      simp [Option.filter, Fits, hsame ▸ herror, hsame]
  · simpa using h.warnCounter
  · exact h.rounds
  · simpa using h.more
  · intro _
    exact .inl (call.frame.callback_finished object)

theorem lock (h : call.Tracks returnId timeout) {frame : Frame}
    (hlock : call.frame.lock = some frame) : (call.ofFrame frame).Tracks returnId timeout := by
  simp only [Frame.lock, Option.ite_none_right_eq_some, Option.some.injEq] at hlock
  obtain ⟨hpc, rfl⟩ := hlock
  exact ⟨h.hasReturnId, h.hasTimeout, h.finished, h.retVal, h.warnCounter, h.rounds,
    fun hpositive _ ↦ h.more hpositive (.inl hpc), fun hleft ↦ by simp [ofFrame] at hleft⟩

theorem test (h : call.Tracks returnId timeout) {frame : Frame}
    (htest : call.frame.test = some frame) : (call.ofFrame frame).Tracks returnId timeout := by
  simp only [Frame.test, Option.ite_none_right_eq_some, Option.some.injEq] at htest
  obtain ⟨hpc, rfl⟩ := htest
  refine ⟨h.hasReturnId, h.hasTimeout, h.finished, h.retVal, h.warnCounter, h.rounds,
    fun hpositive _ ↦ h.more hpositive (.inr (.inl hpc)), fun hleft ↦ .inl ?_⟩
  by_contra hnot
  simp only [Bool.not_eq_true] at hnot
  have hwaiting : call.frame.finished = false := hnot
  simp [ofFrame, hwaiting] at hleft

theorem leave (h : call.Tracks returnId timeout) {frame : Frame}
    (hleave : call.frame.leave = some frame) : (call.ofFrame frame).Tracks returnId timeout := by
  simp only [Frame.leave, Option.ite_none_right_eq_some, Option.some.injEq] at hleave
  obtain ⟨hpc, rfl⟩ := hleave
  exact ⟨h.hasReturnId, h.hasTimeout, h.finished, h.retVal, h.warnCounter, h.rounds,
    fun _ hloop ↦ by simp [ofFrame] at hloop, fun _ ↦ h.leaving (.inl hpc)⟩

/-- The step lemma. -/
theorem step (h : call.Tracks returnId timeout) {label : SyncCallLabel} {next : SyncCall}
    (hstep : call.step label = some next) : next.Tracks returnId timeout := by
  cases label with
  | lock =>
    obtain ⟨frame, hframe, rfl⟩ := Option.map_eq_some_iff.mp hstep
    exact h.lock hframe
  | test =>
    obtain ⟨frame, hframe, rfl⟩ := Option.map_eq_some_iff.mp hstep
    exact h.test hframe
  | woken =>
    simp only [SyncCall.step, Option.ite_none_right_eq_some, Option.map_eq_some_iff] at hstep
    obtain ⟨-, frame, hframe, rfl⟩ := hstep
    exact h.endRound hframe
  | limit =>
    obtain ⟨frame, hframe, rfl⟩ := Option.map_eq_some_iff.mp hstep
    exact h.endRound hframe
  | leave =>
    obtain ⟨frame, hframe, rfl⟩ := Option.map_eq_some_iff.mp hstep
    exact h.leave hframe
  | callback object =>
    simp only [SyncCall.step, Option.ite_none_right_eq_some, Option.some.injEq] at hstep
    obtain ⟨⟨hnone, -⟩, rfl⟩ := hstep
    exact h.callback hnone object

end Tracks

/-! ## After the callback -/

/-- The rounds that have ended and the one that is under way. -/
def begun (call : SyncCall) : ℕ := call.rounds + if call.frame.pc = .waiting then 1 else 0

/-- The callback has run with this object, and no round has begun since then. -/
structure Answered (object : Object) (begun : ℕ) (call : SyncCall) : Prop where
  response : call.response = some object
  finished : call.frame.finished = true
  begun_le : call.begun ≤ begun

theorem Answered.endRound {object : Object} {begun : ℕ} {call : SyncCall}
    (h : call.Answered object begun) {frame : Frame} (hround : call.frame.endRound = some frame) :
    ({ call with frame, rounds := call.rounds + 1 } : SyncCall).Answered object begun := by
  have hbegun := h.begun_le
  simp only [Frame.endRound, Option.ite_none_right_eq_some, Option.some.injEq] at hround
  obtain ⟨hpc, rfl⟩ := hround
  have hleft (timedOut : Bool) :
      (if timedOut = true then WaiterPc.leaving else .testing) ≠ .waiting := by
    cases timedOut <;> decide
  refine ⟨h.response, h.finished, ?_⟩
  rw [SyncCall.begun, if_pos hpc] at hbegun
  simp only [SyncCall.begun, hleft, if_false]
  exact hbegun

/-- The waiter leaves the loop at its next test. -/
theorem Answered.step {object : Object} {begun : ℕ} {call next : SyncCall}
    (h : call.Answered object begun) {label : SyncCallLabel}
    (hstep : call.step label = some next) : next.Answered object begun := by
  have hbegun := h.begun_le
  unfold SyncCall.begun at hbegun
  cases label with
  | lock =>
    obtain ⟨frame, hframe, rfl⟩ := Option.map_eq_some_iff.mp hstep
    simp only [Frame.lock, Option.ite_none_right_eq_some, Option.some.injEq] at hframe
    obtain ⟨hpc, rfl⟩ := hframe
    exact ⟨h.response, h.finished, by simp_all [SyncCall.begun, ofFrame]⟩
  | test =>
    obtain ⟨frame, hframe, rfl⟩ := Option.map_eq_some_iff.mp hstep
    simp only [Frame.test, Option.ite_none_right_eq_some, Option.some.injEq] at hframe
    obtain ⟨hpc, rfl⟩ := hframe
    exact ⟨h.response, h.finished, by simp_all [SyncCall.begun, ofFrame, h.finished]⟩
  | woken =>
    simp only [SyncCall.step, Option.ite_none_right_eq_some, Option.map_eq_some_iff] at hstep
    obtain ⟨-, frame, hframe, rfl⟩ := hstep
    exact h.endRound hframe
  | limit =>
    obtain ⟨frame, hframe, rfl⟩ := Option.map_eq_some_iff.mp hstep
    exact h.endRound hframe
  | leave =>
    obtain ⟨frame, hframe, rfl⟩ := Option.map_eq_some_iff.mp hstep
    simp only [Frame.leave, Option.ite_none_right_eq_some, Option.some.injEq] at hframe
    obtain ⟨hpc, rfl⟩ := hframe
    exact ⟨h.response, h.finished, by simp_all [SyncCall.begun, ofFrame]⟩
  | callback other =>
    simp [SyncCall.step, h.response] at hstep

/-! ## What the call returns -/

/-- Until it has returned, the waiter can always take a step of its own. -/
theorem exists_step {call : SyncCall} (hpc : call.frame.pc ≠ .returned) :
    ∃ label, (∀ object, label ≠ .callback object) ∧ (call.step label).isSome = true := by
  cases hplace : call.frame.pc with
  | sending => exact ⟨.lock, by simp, by simp [step, Frame.lock, hplace]⟩
  | testing => exact ⟨.test, by simp, by simp [step, Frame.test, hplace]⟩
  | waiting => exact ⟨.limit, by simp, by simp [step, Frame.endRound, hplace]⟩
  | leaving => exact ⟨.leave, by simp, by simp [step, Frame.leave, hplace]⟩
  | returned => exact absurd hplace hpc

end SyncCall

end Tgvisd
