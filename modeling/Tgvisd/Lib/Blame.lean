import Tgvisd.Lib.Interaction

/-!
# Blame

When a procedure faults exactly in the runs in which a blamed exchange took place. An exception
may come between the blamed exchange and the fault; exceptions are raised right after a failed
exchange, so the runs that they end are told by their last exchange. A procedure is exact if all
its runs are of this form, and safe if it moreover has no blamed exchange and never halts. Both
are proved along the structure of the procedure.
-/

namespace Tgvisd

universe u v w x

/-- The last exchange has the property. -/
def EndsIn {Exchange : Type u} (property : Exchange → Prop) (exchanges : List Exchange) : Prop :=
  ∃ exchange ∈ exchanges.getLast?, property exchange

section EndsIn

variable {Exchange : Type u} {property : Exchange → Prop} {front back : List Exchange}

theorem not_endsIn_nil : ¬ EndsIn property ([] : List Exchange) := by
  rintro ⟨_, hlast, -⟩
  simp at hlast

theorem endsIn_append (hback : back ≠ []) :
    EndsIn property (front ++ back) ↔ EndsIn property back := by
  unfold EndsIn
  rw [List.getLast?_append_of_ne_nil front hback]

theorem EndsIn.append (h : EndsIn property back) : EndsIn property (front ++ back) := by
  have hback : back ≠ [] := by
    rintro rfl
    exact not_endsIn_nil h
  exact (endsIn_append hback).mpr h

@[simp] theorem endsIn_singleton {exchange : Exchange} :
    EndsIn property [exchange] ↔ property exchange := by
  simp [EndsIn]

end EndsIn

/-- The exchanges that are to blame for the fault, and those after which an exception is
raised. -/
structure Blame {Request : Type u} (Answer : Request → Type v) (Halt : Type w) where
  blamed : Sigma Answer → Prop
  failed : Sigma Answer → Prop
  fault : Halt

namespace Blame

variable {Request : Type u} {Answer : Request → Type x} {Halt : Type w}
  {Error State Value Next : Type x}

variable (blame : Blame Answer Halt)

def Spares (exchanges : List (Sigma Answer)) : Prop :=
  ∀ exchange ∈ exchanges, ¬ blame.blamed exchange

/-- How a run with these exchanges may end. -/
def Settles (exchanges : List (Sigma Answer)) : Procedure.Ending Halt Error State Value → Prop
  | .returned _ _ => blame.Spares exchanges
  | .raised _ _ => EndsIn blame.failed exchanges
  | .halted reason =>
    (reason = blame.fault → ¬ blame.Spares exchanges ∧ ¬ EndsIn blame.failed exchanges) ∧
      (reason ≠ blame.fault → blame.Spares exchanges)

def Exact (procedure : Procedure Answer Halt Error State Value) : Prop :=
  ∀ state exchanges ending, procedure.Runs state exchanges ending →
    blame.Settles exchanges ending

/-- No run contains a blamed exchange, and none halts; exceptions follow failed exchanges. -/
def Safe (procedure : Procedure Answer Halt Error State Value) : Prop :=
  ∀ state exchanges ending, procedure.Runs state exchanges ending →
    blame.Spares exchanges ∧
      match ending with
      | .returned _ _ => True
      | .raised _ _ => EndsIn blame.failed exchanges
      | .halted _ => False

/-- A run that returns has an exchange, and its last one has not failed. -/
def Lands (procedure : Procedure Answer Halt Error State Value) : Prop :=
  ∀ state exchanges value after, procedure.Runs state exchanges (.returned value after) →
    exchanges ≠ [] ∧ ¬ EndsIn blame.failed exchanges

/-- A run that returns has not ended in a failed exchange. -/
def Clean (procedure : Procedure Answer Halt Error State Value) : Prop :=
  ∀ state exchanges value after, procedure.Runs state exchanges (.returned value after) →
    ¬ EndsIn blame.failed exchanges

variable {blame} {procedure : Procedure Answer Halt Error State Value} {state : State}
  {front back exchanges : List (Sigma Answer)}

/-- Exactly the blamed exchanges that no exception follows lead to the fault. -/
theorem Exact.halted_iff {ending : Procedure.Ending Halt Error State Value}
    (h : blame.Exact procedure) (hrun : procedure.Runs state exchanges ending) :
    ending ≠ .halted blame.fault ↔
      blame.Spares exchanges ∨ EndsIn blame.failed exchanges := by
  have hsettles := h _ _ _ hrun
  cases ending with
  | returned value after =>
    have hspares : blame.Spares exchanges := hsettles
    simp [hspares]
  | raised error after =>
    have hfailed : EndsIn blame.failed exchanges := hsettles
    simp [hfailed]
  | halted reason =>
    by_cases hreason : reason = blame.fault
    · have hblamed := hsettles.1 hreason
      simp [hreason, hblamed.1, hblamed.2]
    · have hspares := hsettles.2 hreason
      simp [hreason, hspares]

theorem spares_nil : blame.Spares [] := by simp [Spares]

theorem spares_append : blame.Spares (front ++ back) ↔ blame.Spares front ∧ blame.Spares back := by
  simp only [Spares, List.mem_append]
  constructor
  · intro h
    exact ⟨fun exchange hmem ↦ h exchange (.inl hmem), fun exchange hmem ↦ h exchange (.inr hmem)⟩
  · rintro ⟨hfront, hback⟩ exchange (hmem | hmem)
    · exact hfront exchange hmem
    · exact hback exchange hmem

theorem spares_singleton {exchange : Sigma Answer} :
    blame.Spares [exchange] ↔ ¬ blame.blamed exchange := by
  simp [Spares]

/-- Exchanges that are not to blame may come before. -/
theorem Settles.append {ending : Procedure.Ending Halt Error State Value}
    (hfront : blame.Spares front) (hback : blame.Settles back ending) :
    blame.Settles (front ++ back) ending := by
  cases ending with
  | returned value after => exact spares_append.mpr ⟨hfront, hback⟩
  | raised error after => exact EndsIn.append hback
  | halted reason =>
    constructor
    · intro hreason
      obtain ⟨hblamed, hfailed⟩ := hback.1 hreason
      have hne : back ≠ [] := by
        rintro rfl
        exact hblamed spares_nil
      refine ⟨fun hspares ↦ hblamed (spares_append.mp hspares).2, ?_⟩
      rwa [endsIn_append hne]
    · intro hreason
      exact spares_append.mpr ⟨hfront, hback.2 hreason⟩

/-! ## Safe procedures -/

theorem Safe.pure (value : Value) :
    blame.Safe (pure value : Procedure Answer Halt Error State Value) := by
  intro state exchanges ending hrun
  obtain ⟨rfl, rfl⟩ := Procedure.runs_pure_iff.mp hrun
  exact ⟨spares_nil, trivial⟩

theorem Safe.get : blame.Safe (get : Procedure Answer Halt Error State State) := by
  intro state exchanges ending hrun
  obtain ⟨rfl, rfl⟩ := Procedure.runs_get_iff.mp hrun
  exact ⟨spares_nil, trivial⟩

theorem Safe.set (new : State) :
    blame.Safe (set new : Procedure Answer Halt Error State PUnit) := by
  intro state exchanges ending hrun
  obtain ⟨rfl, rfl⟩ := Procedure.runs_set_iff.mp hrun
  exact ⟨spares_nil, trivial⟩

theorem Safe.perform {request : Request} (h : ∀ answer, ¬ blame.blamed ⟨request, answer⟩) :
    blame.Safe (Procedure.perform request :
      Procedure Answer Halt Error State (Answer request)) := by
  intro state exchanges ending hrun
  obtain ⟨answer, rfl, rfl⟩ := Procedure.runs_perform_iff.mp hrun
  exact ⟨spares_singleton.mpr (h answer), trivial⟩

theorem Safe.bind {next : Value → Procedure Answer Halt Error State Next}
    (h : blame.Safe procedure) (hnext : ∀ value, blame.Safe (next value)) :
    blame.Safe (procedure >>= next) := by
  intro state exchanges ending hrun
  obtain ⟨reason, hfirst, rfl⟩ | ⟨error, after, hfirst, rfl⟩ |
    ⟨front, back, value, middle, rfl, hfront, hback⟩ := Procedure.runs_bind_iff.mp hrun
  · exact absurd (h _ _ _ hfirst).2 not_false
  · exact h _ _ _ hfirst
  · obtain ⟨hspares, hending⟩ := hnext value _ _ _ hback
    refine ⟨spares_append.mpr ⟨(h _ _ _ hfront).1, hspares⟩, ?_⟩
    cases ending with
    | returned value after => trivial
    | raised error after => exact EndsIn.append hending
    | halted reason => exact hending

theorem Safe.ite {condition : Prop} [Decidable condition]
    {other : Procedure Answer Halt Error State Value} (h : blame.Safe procedure)
    (hother : blame.Safe other) : blame.Safe (if condition then procedure else other) := by
  split
  · exact h
  · exact hother

theorem Safe.tryCatch {handler : Error → Procedure Answer Halt Error State Value}
    (h : blame.Safe procedure) (hhandler : ∀ error, blame.Safe (handler error)) :
    blame.Safe (tryCatch procedure handler) := by
  intro state exchanges ending hrun
  obtain ⟨reason, hfirst, rfl⟩ | ⟨value, after, hfirst, rfl⟩ |
    ⟨front, back, error, middle, rfl, hfront, hback⟩ := Procedure.runs_tryCatch_iff.mp hrun
  · exact absurd (h _ _ _ hfirst).2 not_false
  · exact h _ _ _ hfirst
  · obtain ⟨hspares, hending⟩ := hhandler error _ _ _ hback
    refine ⟨spares_append.mpr ⟨(h _ _ _ hfront).1, hspares⟩, ?_⟩
    cases ending with
    | returned value after => trivial
    | raised error after => exact EndsIn.append hending
    | halted reason => exact hending

theorem Safe.tryCatch_throw (h : blame.Safe procedure) :
    blame.Safe (tryCatchThe Error procedure throw) :=
  fun _ _ _ hrun ↦ h _ _ _ (Procedure.runs_tryCatch_throw_iff.mp hrun)

/-! ## Exact procedures -/

theorem Safe.exact (h : blame.Safe procedure) : blame.Exact procedure := by
  intro state exchanges ending hrun
  obtain ⟨hspares, hending⟩ := h _ _ _ hrun
  cases ending with
  | returned value after => exact hspares
  | raised error after => exact hending
  | halted reason => exact absurd hending not_false

theorem Exact.stop {reason : Halt} (hreason : reason ≠ blame.fault) :
    blame.Exact (Procedure.stop reason : Procedure Answer Halt Error State Value) := by
  intro state exchanges ending hrun
  obtain ⟨rfl, rfl⟩ := Procedure.runs_stop_iff.mp hrun
  exact ⟨fun hfault ↦ absurd hfault hreason, fun _ ↦ spares_nil⟩

theorem Exact.bind {next : Value → Procedure Answer Halt Error State Next}
    (h : blame.Exact procedure) (hnext : ∀ value, blame.Exact (next value)) :
    blame.Exact (procedure >>= next) := by
  intro state exchanges ending hrun
  obtain ⟨reason, hfirst, rfl⟩ | ⟨error, after, hfirst, rfl⟩ |
    ⟨front, back, value, middle, rfl, hfront, hback⟩ := Procedure.runs_bind_iff.mp hrun
  · exact h _ _ _ hfirst
  · exact h _ _ _ hfirst
  · exact Settles.append (h _ _ _ hfront) (hnext value _ _ _ hback)

theorem Exact.ite {condition : Prop} [Decidable condition]
    {other : Procedure Answer Halt Error State Value} (h : blame.Exact procedure)
    (hother : blame.Exact other) : blame.Exact (if condition then procedure else other) := by
  split
  · exact h
  · exact hother

/-! ## How a run that returns ends -/

theorem Clean.pure (value : Value) :
    blame.Clean (pure value : Procedure Answer Halt Error State Value) := by
  intro state exchanges found after hrun
  obtain ⟨rfl, -⟩ := Procedure.runs_pure_iff.mp hrun
  exact not_endsIn_nil

theorem Clean.get : blame.Clean (get : Procedure Answer Halt Error State State) := by
  intro state exchanges found after hrun
  obtain ⟨rfl, -⟩ := Procedure.runs_get_iff.mp hrun
  exact not_endsIn_nil

theorem Clean.set (new : State) :
    blame.Clean (set new : Procedure Answer Halt Error State PUnit) := by
  intro state exchanges found after hrun
  obtain ⟨rfl, -⟩ := Procedure.runs_set_iff.mp hrun
  exact not_endsIn_nil

theorem Clean.ite {condition : Prop} [Decidable condition]
    {other : Procedure Answer Halt Error State Value} (h : blame.Clean procedure)
    (hother : blame.Clean other) : blame.Clean (if condition then procedure else other) := by
  split
  · exact h
  · exact hother

theorem Clean.bind {next : Value → Procedure Answer Halt Error State Next}
    (h : blame.Clean procedure) (hnext : ∀ value, blame.Clean (next value)) :
    blame.Clean (procedure >>= next) := by
  intro state exchanges value after hrun
  obtain ⟨front, back, first, middle, rfl, hfront, hback⟩ := Procedure.runs_bind_returned hrun
  by_cases hne : back = []
  · rw [hne, List.append_nil]
    exact h _ _ _ _ hfront
  · rw [endsIn_append hne]
    exact hnext first _ _ _ _ hback

theorem Lands.clean (h : blame.Lands procedure) : blame.Clean procedure :=
  fun _ _ _ _ hrun ↦ (h _ _ _ _ hrun).2

/-- What comes last decides. -/
theorem Lands.after {next : Value → Procedure Answer Halt Error State Next}
    (hnext : ∀ value, blame.Lands (next value)) : blame.Lands (procedure >>= next) := by
  intro state exchanges value after hrun
  obtain ⟨front, back, first, middle, rfl, -, hback⟩ := Procedure.runs_bind_returned hrun
  obtain ⟨hne, hfailed⟩ := hnext first _ _ _ _ hback
  refine ⟨by simp [hne], ?_⟩
  rwa [endsIn_append hne]

theorem Lands.bind {next : Value → Procedure Answer Halt Error State Next}
    (h : blame.Lands procedure) (hnext : ∀ value, blame.Clean (next value)) :
    blame.Lands (procedure >>= next) := by
  intro state exchanges value after hrun
  refine ⟨?_, h.clean.bind hnext _ _ _ _ hrun⟩
  obtain ⟨front, back, first, middle, rfl, hfront, -⟩ := Procedure.runs_bind_returned hrun
  simp [(h _ _ _ _ hfront).1]

end Blame

end Tgvisd
