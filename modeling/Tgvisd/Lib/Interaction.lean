import Mathlib.Data.List.Basic

/-!
# Interactions

A program that asks its environment and goes on with the answer, as the tree of all that it may
do. Nothing is said about the environment: a run is the list of the exchanges that took place,
and every list of answers belongs to some run. On top of the trees stand procedures, which keep a
state, may raise an exception and may be stopped for good (by a crash, say).
-/

namespace Tgvisd

universe u v w x

inductive Interaction {Request : Type u} (Answer : Request → Type v) (Halt : Type w)
    (Value : Type x) where
  | done (value : Value)
  | halt (reason : Halt)
  | ask (request : Request) (resume : Answer request → Interaction Answer Halt Value)

namespace Interaction

variable {Request : Type u} {Answer : Request → Type v} {Halt : Type w} {Value Next : Type x}

def bind : Interaction Answer Halt Value → (Value → Interaction Answer Halt Next) →
    Interaction Answer Halt Next
  | done value, next => next value
  | halt reason, _ => halt reason
  | ask request resume, next => ask request fun answer ↦ (resume answer).bind next

instance : Monad (Interaction Answer Halt) where
  pure := done
  bind := bind

theorem done_bind (value : Value) (next : Value → Interaction Answer Halt Next) :
    (done value : Interaction Answer Halt Value) >>= next = next value := rfl

theorem halt_bind (reason : Halt) (next : Value → Interaction Answer Halt Next) :
    (halt reason : Interaction Answer Halt Value) >>= next = halt reason := rfl

theorem ask_bind (request : Request) (resume : Answer request → Interaction Answer Halt Value)
    (next : Value → Interaction Answer Halt Next) :
    ask request resume >>= next = ask request fun answer ↦ resume answer >>= next := rfl

theorem bind_done (program : Interaction Answer Halt Value) : program >>= done = program := by
  induction program with
  | done value => rfl
  | halt reason => rfl
  | ask request resume ih =>
    rw [ask_bind]
    congr 1
    funext answer
    exact ih answer

theorem bind_assoc {Last : Type x} (program : Interaction Answer Halt Value)
    (next : Value → Interaction Answer Halt Next) (last : Next → Interaction Answer Halt Last) :
    program >>= next >>= last = program >>= fun value ↦ next value >>= last := by
  induction program with
  | done value => rfl
  | halt reason => rfl
  | ask request resume ih =>
    simp only [ask_bind]
    congr 1
    funext answer
    exact ih answer

instance : LawfulMonad (Interaction Answer Halt) :=
  LawfulMonad.mk' _ bind_done (fun _ _ ↦ rfl) bind_assoc

/-- The runs of a program: what it asked and was answered, and how it ended. -/
inductive Runs : Interaction Answer Halt Value → List (Sigma Answer) → Except Halt Value → Prop
  | done (value : Value) : Runs (done value) [] (.ok value)
  | halt (reason : Halt) : Runs (halt reason) [] (.error reason)
  | ask {request : Request} {resume : Answer request → Interaction Answer Halt Value}
      (answer : Answer request) {exchanges : List (Sigma Answer)} {outcome : Except Halt Value}
      (h : Runs (resume answer) exchanges outcome) :
      Runs (ask request resume) (⟨request, answer⟩ :: exchanges) outcome

variable {program : Interaction Answer Halt Value} {exchanges : List (Sigma Answer)}

theorem runs_done_iff {value : Value} {outcome : Except Halt Value} :
    (done value : Interaction Answer Halt Value).Runs exchanges outcome ↔
      exchanges = [] ∧ outcome = .ok value := by
  constructor
  · rintro ⟨⟩
    exact ⟨rfl, rfl⟩
  · rintro ⟨rfl, rfl⟩
    exact .done value

theorem runs_halt_iff {reason : Halt} {outcome : Except Halt Value} :
    (halt reason : Interaction Answer Halt Value).Runs exchanges outcome ↔
      exchanges = [] ∧ outcome = .error reason := by
  constructor
  · rintro ⟨⟩
    exact ⟨rfl, rfl⟩
  · rintro ⟨rfl, rfl⟩
    exact .halt reason

theorem runs_ask_iff {request : Request}
    {resume : Answer request → Interaction Answer Halt Value} {outcome : Except Halt Value} :
    (ask request resume).Runs exchanges outcome ↔
      ∃ answer rest, exchanges = ⟨request, answer⟩ :: rest ∧ (resume answer).Runs rest outcome := by
  constructor
  · rintro (_ | _ | ⟨answer, h⟩)
    exact ⟨answer, _, rfl, h⟩
  · rintro ⟨answer, rest, rfl, h⟩
    exact .ask answer h

/-- A run of two programs in sequence is a run of the first that halts, or a run of the first and
one of the second. -/
theorem runs_bind_iff {next : Value → Interaction Answer Halt Next} {outcome : Except Halt Next} :
    (program >>= next).Runs exchanges outcome ↔
      (∃ reason, program.Runs exchanges (.error reason) ∧ outcome = .error reason) ∨
      ∃ front back value, exchanges = front ++ back ∧ program.Runs front (.ok value) ∧
        (next value).Runs back outcome := by
  induction program generalizing exchanges with
  | done value => simp [done_bind, runs_done_iff]
  | halt reason => simp [halt_bind, runs_halt_iff]
  | ask request resume ih =>
    simp only [ask_bind, runs_ask_iff, ih]
    constructor
    · rintro ⟨answer, rest, rfl, ⟨reason, hhalt, rfl⟩ | ⟨front, back, value, rfl, hfront, hback⟩⟩
      · exact .inl ⟨reason, ⟨answer, rest, rfl, hhalt⟩, rfl⟩
      · exact .inr ⟨_ :: front, back, value, rfl, ⟨answer, front, rfl, hfront⟩, hback⟩
    · rintro (⟨reason, ⟨answer, rest, rfl, hhalt⟩, rfl⟩ |
        ⟨_, back, value, rfl, ⟨answer, front, rfl, hfront⟩, hback⟩)
      · exact ⟨answer, rest, rfl, .inl ⟨reason, hhalt, rfl⟩⟩
      · exact ⟨answer, front ++ back, rfl, .inr ⟨front, back, value, rfl, hfront, hback⟩⟩

end Interaction

/-! ## Procedures -/

/-- A program with a state of its own that survives its exceptions. -/
abbrev Procedure {Request : Type u} (Answer : Request → Type v) (Halt : Type w)
    (Error State : Type x) :=
  ExceptT Error (StateT State (Interaction Answer Halt))

namespace Procedure

variable {Request : Type u} {Answer : Request → Type v} {Halt : Type w}
  {Error State Value Next : Type x}

def perform {Answer : Request → Type x} (request : Request) :
    Procedure Answer Halt Error State (Answer request) :=
  ExceptT.lift (StateT.lift (.ask request .done))

/-- Stops the whole program; no handler is run. -/
def stop (reason : Halt) : Procedure Answer Halt Error State Value :=
  ExceptT.lift (StateT.lift (.halt reason))

def runFrom (procedure : Procedure Answer Halt Error State Value) (state : State) :
    Interaction Answer Halt (Except Error Value × State) :=
  (ExceptT.run procedure).run state

/-- How a run ends. -/
inductive Ending (Halt : Type w) (Error State Value : Type x)
  | returned (value : Value) (state : State)
  | raised (error : Error) (state : State)
  | halted (reason : Halt)

def Ending.toExcept : Ending Halt Error State Value → Except Halt (Except Error Value × State)
  | .returned value state => .ok (.ok value, state)
  | .raised error state => .ok (.error error, state)
  | .halted reason => .error reason

def Runs (procedure : Procedure Answer Halt Error State Value) (state : State)
    (exchanges : List (Sigma Answer)) (ending : Ending Halt Error State Value) : Prop :=
  (procedure.runFrom state).Runs exchanges ending.toExcept

variable {procedure : Procedure Answer Halt Error State Value} {state : State}
  {exchanges : List (Sigma Answer)} {ending : Ending Halt Error State Value}

theorem runs_pure_iff {value : Value} :
    (pure value : Procedure Answer Halt Error State Value).Runs state exchanges ending ↔
      exchanges = [] ∧ ending = .returned value state := by
  unfold Runs
  rw [show (pure value : Procedure Answer Halt Error State Value).runFrom state =
    .done (.ok value, state) from rfl, Interaction.runs_done_iff]
  cases ending <;> simp [Ending.toExcept]

theorem runs_throw_iff {error : Error} :
    (throw error : Procedure Answer Halt Error State Value).Runs state exchanges ending ↔
      exchanges = [] ∧ ending = .raised error state := by
  unfold Runs
  rw [show (throw error : Procedure Answer Halt Error State Value).runFrom state =
    .done (.error error, state) from rfl, Interaction.runs_done_iff]
  cases ending <;> simp [Ending.toExcept]

theorem runs_stop_iff {reason : Halt} :
    (stop reason : Procedure Answer Halt Error State Value).Runs state exchanges ending ↔
      exchanges = [] ∧ ending = .halted reason := by
  unfold Runs
  rw [show (stop reason : Procedure Answer Halt Error State Value).runFrom state =
    .halt reason from rfl, Interaction.runs_halt_iff]
  cases ending <;> simp [Ending.toExcept]

theorem runs_perform_iff {Answer : Request → Type x} {request : Request}
    {exchanges : List (Sigma Answer)} {ending : Ending Halt Error State (Answer request)} :
    (perform request : Procedure Answer Halt Error State (Answer request)).Runs state exchanges
        ending ↔
      ∃ answer, exchanges = [⟨request, answer⟩] ∧ ending = .returned answer state := by
  unfold Runs
  rw [show (perform request : Procedure Answer Halt Error State (Answer request)).runFrom state =
    .ask request fun answer ↦ .done (.ok answer, state) from rfl, Interaction.runs_ask_iff]
  simp only [Interaction.runs_done_iff]
  constructor
  · rintro ⟨answer, rest, rfl, rfl, hending⟩
    cases ending <;> simp_all [Ending.toExcept]
  · rintro ⟨answer, rfl, rfl⟩
    exact ⟨answer, [], rfl, rfl, rfl⟩

theorem runs_get_iff {ending : Ending Halt Error State State} :
    (get : Procedure Answer Halt Error State State).Runs state exchanges ending ↔
      exchanges = [] ∧ ending = .returned state state := by
  unfold Runs
  rw [show (get : Procedure Answer Halt Error State State).runFrom state =
    .done (.ok state, state) from rfl, Interaction.runs_done_iff]
  cases ending <;> simp [Ending.toExcept]

theorem runs_set_iff {new : State} {ending : Ending Halt Error State PUnit} :
    (set new : Procedure Answer Halt Error State PUnit).Runs state exchanges ending ↔
      exchanges = [] ∧ ending = .returned ⟨⟩ new := by
  unfold Runs
  rw [show (set new : Procedure Answer Halt Error State PUnit).runFrom state =
    .done (.ok ⟨⟩, new) from rfl, Interaction.runs_done_iff]
  cases ending <;> simp [Ending.toExcept]

theorem runFrom_bind (next : Value → Procedure Answer Halt Error State Next) :
    (procedure >>= next).runFrom state = procedure.runFrom state >>= fun
      | (.ok value, state) => (next value).runFrom state
      | (.error error, state) => .done (.error error, state) := by
  unfold runFrom
  rw [ExceptT.run_bind, StateT.run_bind]
  congr 1
  funext result
  obtain ⟨value | error, state⟩ := result <;> rfl

theorem runFrom_tryCatch (handler : Error → Procedure Answer Halt Error State Value) :
    (tryCatch procedure handler).runFrom state = procedure.runFrom state >>= fun
      | (.ok value, state) => .done (.ok value, state)
      | (.error error, state) => (handler error).runFrom state := by
  change (procedure.run.run state >>= _) = _
  unfold runFrom
  congr 1
  funext result
  obtain ⟨error | value, state⟩ := result <;> rfl

theorem runs_bind_iff {next : Value → Procedure Answer Halt Error State Next}
    {ending : Ending Halt Error State Next} :
    (procedure >>= next).Runs state exchanges ending ↔
      (∃ reason, procedure.Runs state exchanges (.halted reason) ∧ ending = .halted reason) ∨
      (∃ error after, procedure.Runs state exchanges (.raised error after) ∧
        ending = .raised error after) ∨
      ∃ front back value middle, exchanges = front ++ back ∧
        procedure.Runs state front (.returned value middle) ∧
        (next value).Runs middle back ending := by
  unfold Runs
  rw [runFrom_bind, Interaction.runs_bind_iff]
  constructor
  · rintro (⟨reason, hhalt, hending⟩ | ⟨front, back, ⟨error | value, middle⟩, rfl, hfront, hback⟩)
    · cases ending with
      | halted other =>
        obtain rfl := Except.error.inj hending
        exact .inl ⟨other, hhalt, rfl⟩
      | _ => simp [Ending.toExcept] at hending
    · obtain ⟨rfl, hending⟩ := Interaction.runs_done_iff.mp hback
      rw [List.append_nil]
      refine .inr (.inl ⟨error, middle, hfront, ?_⟩)
      cases ending <;> simp_all [Ending.toExcept]
    · exact .inr (.inr ⟨front, back, value, middle, rfl, hfront, hback⟩)
  · rintro (⟨reason, hhalt, rfl⟩ | ⟨error, after, hraise, rfl⟩ |
      ⟨front, back, value, middle, rfl, hfront, hback⟩)
    · exact .inl ⟨reason, hhalt, rfl⟩
    · refine .inr ⟨exchanges, [], _, (List.append_nil _).symm, hraise, ?_⟩
      exact Interaction.runs_done_iff.mpr ⟨rfl, rfl⟩
    · exact .inr ⟨front, back, _, rfl, hfront, hback⟩

theorem runs_bind_returned {next : Value → Procedure Answer Halt Error State Next} {value : Next}
    {after : State} (h : (procedure >>= next).Runs state exchanges (.returned value after)) :
    ∃ front back first middle, exchanges = front ++ back ∧
      procedure.Runs state front (.returned first middle) ∧
      (next first).Runs middle back (.returned value after) := by
  obtain ⟨reason, -, hending⟩ | ⟨error, raised, -, hending⟩ | hnext := runs_bind_iff.mp h
  · simp at hending
  · simp at hending
  · exact hnext

theorem runs_perform_bind_iff {Answer : Request → Type x} {request : Request}
    {next : Answer request → Procedure Answer Halt Error State Value}
    {exchanges : List (Sigma Answer)} {ending : Ending Halt Error State Value} :
    (perform request >>= next).Runs state exchanges ending ↔
      ∃ answer back, exchanges = ⟨request, answer⟩ :: back ∧
        (next answer).Runs state back ending := by
  rw [runs_bind_iff]
  simp only [runs_perform_iff]
  constructor
  · rintro (⟨reason, ⟨answer, -, hending⟩, -⟩ | ⟨error, after, ⟨answer, -, hending⟩, -⟩ |
      ⟨front, back, value, middle, rfl, ⟨answer, rfl, hending⟩, hback⟩)
    · simp at hending
    · simp at hending
    · obtain ⟨rfl, rfl⟩ := Ending.returned.inj hending
      exact ⟨value, back, rfl, hback⟩
  · rintro ⟨answer, back, rfl, hback⟩
    exact .inr (.inr ⟨[_], back, answer, state, rfl, ⟨answer, rfl, rfl⟩, hback⟩)

theorem runs_stop_bind_iff {next : Value → Procedure Answer Halt Error State Next} {reason : Halt}
    {ending : Ending Halt Error State Next} :
    (stop reason >>= next).Runs state exchanges ending ↔
      exchanges = [] ∧ ending = .halted reason := by
  rw [runs_bind_iff]
  simp only [runs_stop_iff]
  constructor
  · rintro (⟨_, ⟨rfl, hending⟩, rfl⟩ | ⟨error, after, ⟨-, hending⟩, -⟩ |
      ⟨front, back, value, middle, -, ⟨-, hending⟩, -⟩)
    · obtain rfl := Ending.halted.inj hending
      exact ⟨rfl, rfl⟩
    · simp at hending
    · simp at hending
  · rintro ⟨rfl, rfl⟩
    exact .inl ⟨reason, ⟨rfl, rfl⟩, rfl⟩

theorem runs_throw_bind_iff {next : Value → Procedure Answer Halt Error State Next}
    {error : Error} {ending : Ending Halt Error State Next} :
    (throw error >>= next).Runs state exchanges ending ↔
      exchanges = [] ∧ ending = .raised error state := by
  rw [runs_bind_iff]
  simp only [runs_throw_iff]
  constructor
  · rintro (⟨reason, ⟨-, hending⟩, -⟩ | ⟨_, _, ⟨rfl, hending⟩, rfl⟩ |
      ⟨front, back, value, middle, -, ⟨-, hending⟩, -⟩)
    · simp at hending
    · obtain ⟨rfl, rfl⟩ := Ending.raised.inj hending
      exact ⟨rfl, rfl⟩
    · simp at hending
  · rintro ⟨rfl, rfl⟩
    exact .inr (.inl ⟨error, state, ⟨rfl, rfl⟩, rfl⟩)

theorem runs_tryCatch_iff {handler : Error → Procedure Answer Halt Error State Value} :
    (tryCatch procedure handler).Runs state exchanges ending ↔
      (∃ reason, procedure.Runs state exchanges (.halted reason) ∧ ending = .halted reason) ∨
      (∃ value after, procedure.Runs state exchanges (.returned value after) ∧
        ending = .returned value after) ∨
      ∃ front back error middle, exchanges = front ++ back ∧
        procedure.Runs state front (.raised error middle) ∧
        (handler error).Runs middle back ending := by
  unfold Runs
  rw [runFrom_tryCatch, Interaction.runs_bind_iff]
  constructor
  · rintro (⟨reason, hhalt, hending⟩ | ⟨front, back, ⟨error | value, middle⟩, rfl, hfront, hback⟩)
    · cases ending with
      | halted other =>
        obtain rfl := Except.error.inj hending
        exact .inl ⟨other, hhalt, rfl⟩
      | _ => simp [Ending.toExcept] at hending
    · exact .inr (.inr ⟨front, back, error, middle, rfl, hfront, hback⟩)
    · obtain ⟨rfl, hending⟩ := Interaction.runs_done_iff.mp hback
      rw [List.append_nil]
      refine .inr (.inl ⟨value, middle, hfront, ?_⟩)
      cases ending <;> simp_all [Ending.toExcept]
  · rintro (⟨reason, hhalt, rfl⟩ | ⟨value, after, hreturn, rfl⟩ |
      ⟨front, back, error, middle, rfl, hfront, hback⟩)
    · exact .inl ⟨reason, hhalt, rfl⟩
    · refine .inr ⟨exchanges, [], _, (List.append_nil _).symm, hreturn, ?_⟩
      exact Interaction.runs_done_iff.mpr ⟨rfl, rfl⟩
    · exact .inr ⟨front, back, _, rfl, hfront, hback⟩

/-- A handler that only raises again does nothing. -/
theorem runs_tryCatch_throw_iff :
    (tryCatch procedure throw).Runs state exchanges ending ↔
      procedure.Runs state exchanges ending := by
  rw [runs_tryCatch_iff]
  constructor
  · rintro (⟨reason, hrun, rfl⟩ | ⟨value, after, hrun, rfl⟩ |
      ⟨front, back, error, middle, rfl, hrun, hback⟩)
    · exact hrun
    · exact hrun
    · obtain ⟨rfl, rfl⟩ := runs_throw_iff.mp hback
      rwa [List.append_nil]
  · intro hrun
    cases ending with
    | halted reason => exact .inl ⟨reason, hrun, rfl⟩
    | returned value after => exact .inr (.inl ⟨value, after, hrun, rfl⟩)
    | raised error after =>
      exact .inr (.inr ⟨exchanges, [], error, after, (List.append_nil _).symm, hrun,
        runs_throw_iff.mpr ⟨rfl, rfl⟩⟩)

end Procedure

end Tgvisd
