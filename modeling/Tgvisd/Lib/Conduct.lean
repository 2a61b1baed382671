import Tgvisd.Lib.Interaction

/-!
# Conduct

What a procedure may ask for, and which answers it can live with. A procedure is dutiful if it
asks only for what it may, and returns whenever all answers are lucky ones; it is tame if it
asks only for what it may and is never stopped, so that a handler gets its chance. What is asked
for can also be told apart from how the procedure ends.
-/

namespace Tgvisd

universe u v w x

structure Conduct {Request : Type u} (Answer : Request → Type v) where
  asks : Request → Prop
  lucky : Sigma Answer → Prop

namespace Conduct

variable {Request : Type u} {Answer : Request → Type x} {Halt : Type w}
  {Error State Value Next : Type x}

variable (conduct : Conduct Answer)

def Asks (exchanges : List (Sigma Answer)) : Prop :=
  ∀ exchange ∈ exchanges, conduct.asks exchange.1

def Lucky (exchanges : List (Sigma Answer)) : Prop :=
  ∀ exchange ∈ exchanges, conduct.lucky exchange

def Dutiful (procedure : Procedure Answer Halt Error State Value) : Prop :=
  ∀ state exchanges ending, procedure.Runs state exchanges ending → conduct.Asks exchanges ∧
    (conduct.Lucky exchanges → ∃ value after, ending = .returned value after)

def Tame (procedure : Procedure Answer Halt Error State Value) : Prop :=
  ∀ state exchanges ending, procedure.Runs state exchanges ending → conduct.Asks exchanges ∧
    ∀ reason, ending ≠ .halted reason

variable {conduct} {other : Conduct Answer}
  {procedure : Procedure Answer Halt Error State Value} {front back : List (Sigma Answer)}

theorem asks_nil : conduct.Asks [] := by simp [Asks]

theorem asks_cons {exchange : Sigma Answer} :
    conduct.Asks (exchange :: back) ↔ conduct.asks exchange.1 ∧ conduct.Asks back := by
  simp [Asks]

theorem asks_append :
    conduct.Asks (front ++ back) ↔ conduct.Asks front ∧ conduct.Asks back := by
  simp only [Asks, List.forall_mem_append]

theorem lucky_cons {exchange : Sigma Answer} :
    conduct.Lucky (exchange :: back) ↔ conduct.lucky exchange ∧ conduct.Lucky back := by
  simp [Lucky]

theorem lucky_append :
    conduct.Lucky (front ++ back) ↔ conduct.Lucky front ∧ conduct.Lucky back := by
  simp only [Lucky, List.forall_mem_append]

/-- More may be asked, and less be expected of the answers. -/
theorem Dutiful.mono (h : conduct.Dutiful procedure)
    (hasks : ∀ request, conduct.asks request → other.asks request)
    (hlucky : ∀ exchange, other.lucky exchange → conduct.lucky exchange) :
    other.Dutiful procedure := by
  intro state exchanges ending hrun
  obtain ⟨hallowed, hreturns⟩ := h _ _ _ hrun
  constructor
  · exact fun exchange hmem ↦ hasks _ (hallowed exchange hmem)
  · exact fun hall ↦ hreturns fun exchange hmem ↦ hlucky _ (hall exchange hmem)

theorem Dutiful.pure (value : Value) :
    conduct.Dutiful (pure value : Procedure Answer Halt Error State Value) := by
  intro state exchanges ending hrun
  obtain ⟨rfl, rfl⟩ := Procedure.runs_pure_iff.mp hrun
  exact ⟨asks_nil, fun _ ↦ ⟨value, state, rfl⟩⟩

theorem Dutiful.get : conduct.Dutiful (get : Procedure Answer Halt Error State State) := by
  intro state exchanges ending hrun
  obtain ⟨rfl, rfl⟩ := Procedure.runs_get_iff.mp hrun
  exact ⟨asks_nil, fun _ ↦ ⟨state, state, rfl⟩⟩

theorem Dutiful.set (new : State) :
    conduct.Dutiful (set new : Procedure Answer Halt Error State PUnit) := by
  intro state exchanges ending hrun
  obtain ⟨rfl, rfl⟩ := Procedure.runs_set_iff.mp hrun
  exact ⟨asks_nil, fun _ ↦ ⟨_, new, rfl⟩⟩

theorem Dutiful.perform {request : Request} (h : conduct.asks request) :
    conduct.Dutiful (Procedure.perform request :
      Procedure Answer Halt Error State (Answer request)) := by
  intro state exchanges ending hrun
  obtain ⟨answer, rfl, rfl⟩ := Procedure.runs_perform_iff.mp hrun
  exact ⟨asks_cons.mpr ⟨h, asks_nil⟩, fun _ ↦ ⟨answer, state, rfl⟩⟩

theorem Dutiful.bind {next : Value → Procedure Answer Halt Error State Next}
    (h : conduct.Dutiful procedure) (hnext : ∀ value, conduct.Dutiful (next value)) :
    conduct.Dutiful (procedure >>= next) := by
  intro state exchanges ending hrun
  obtain ⟨reason, hfirst, rfl⟩ | ⟨error, after, hfirst, rfl⟩ |
    ⟨front, back, value, middle, rfl, hfront, hback⟩ := Procedure.runs_bind_iff.mp hrun
  · obtain ⟨hasks, hreturns⟩ := h _ _ _ hfirst
    refine ⟨hasks, fun hlucky ↦ ?_⟩
    obtain ⟨value, after, hending⟩ := hreturns hlucky
    simp at hending
  · obtain ⟨hasks, hreturns⟩ := h _ _ _ hfirst
    refine ⟨hasks, fun hlucky ↦ ?_⟩
    obtain ⟨value, after, hending⟩ := hreturns hlucky
    simp at hending
  · obtain ⟨hasks, hreturns⟩ := hnext value _ _ _ hback
    exact ⟨asks_append.mpr ⟨(h _ _ _ hfront).1, hasks⟩,
      fun hlucky ↦ hreturns (lucky_append.mp hlucky).2⟩

/-- If all answers are lucky, the first part returns. -/
theorem Dutiful.runs_bind {next : Value → Procedure Answer Halt Error State Next}
    (h : conduct.Dutiful procedure) {state : State} {exchanges : List (Sigma Answer)}
    {ending : Procedure.Ending Halt Error State Next}
    (hrun : (procedure >>= next).Runs state exchanges ending) (hlucky : conduct.Lucky exchanges) :
    ∃ front back value middle, exchanges = front ++ back ∧
      procedure.Runs state front (.returned value middle) ∧
        (next value).Runs middle back ending := by
  obtain ⟨reason, hfirst, -⟩ | ⟨error, after, hfirst, -⟩ |
    ⟨front, back, value, middle, rfl, hfront, hback⟩ := Procedure.runs_bind_iff.mp hrun
  · obtain ⟨value, after, hending⟩ := (h _ _ _ hfirst).2 hlucky
    simp at hending
  · obtain ⟨value, after, hending⟩ := (h _ _ _ hfirst).2 hlucky
    simp at hending
  · exact ⟨front, back, value, middle, rfl, hfront, hback⟩

theorem Dutiful.ite {condition : Prop} [Decidable condition]
    {alternative : Procedure Answer Halt Error State Value} (h : conduct.Dutiful procedure)
    (hother : conduct.Dutiful alternative) :
    conduct.Dutiful (if condition then procedure else alternative) := by
  split
  · exact h
  · exact hother

/-- Whatever the procedure raises, its handler is dutiful. -/
theorem Tame.tryCatch {handler : Error → Procedure Answer Halt Error State Value}
    (h : conduct.Tame procedure) (hhandler : ∀ error, conduct.Dutiful (handler error)) :
    conduct.Dutiful (tryCatch procedure handler) := by
  intro state exchanges ending hrun
  obtain ⟨reason, hfirst, rfl⟩ | ⟨value, after, hfirst, rfl⟩ |
    ⟨front, back, error, middle, rfl, hfront, hback⟩ := Procedure.runs_tryCatch_iff.mp hrun
  · exact absurd rfl ((h _ _ _ hfirst).2 reason)
  · exact ⟨(h _ _ _ hfirst).1, fun _ ↦ ⟨value, after, rfl⟩⟩
  · obtain ⟨hasks, hreturns⟩ := hhandler error _ _ _ hback
    exact ⟨asks_append.mpr ⟨(h _ _ _ hfront).1, hasks⟩,
      fun hlucky ↦ hreturns (lucky_append.mp hlucky).2⟩

theorem Dutiful.tryCatch_throw (h : conduct.Dutiful procedure) :
    conduct.Dutiful (tryCatchThe Error procedure throw) :=
  fun _ _ _ hrun ↦ h _ _ _ (Procedure.runs_tryCatch_throw_iff.mp hrun)

/-! ## Tame procedures -/

theorem Tame.pure (value : Value) :
    conduct.Tame (pure value : Procedure Answer Halt Error State Value) := by
  intro state exchanges ending hrun
  obtain ⟨rfl, rfl⟩ := Procedure.runs_pure_iff.mp hrun
  exact ⟨asks_nil, by simp⟩

theorem Tame.throw (error : Error) :
    conduct.Tame (throw error : Procedure Answer Halt Error State Value) := by
  intro state exchanges ending hrun
  obtain ⟨rfl, rfl⟩ := Procedure.runs_throw_iff.mp hrun
  exact ⟨asks_nil, by simp⟩

theorem Tame.perform {request : Request} (h : conduct.asks request) :
    conduct.Tame (Procedure.perform request :
      Procedure Answer Halt Error State (Answer request)) := by
  intro state exchanges ending hrun
  obtain ⟨answer, rfl, rfl⟩ := Procedure.runs_perform_iff.mp hrun
  exact ⟨asks_cons.mpr ⟨h, asks_nil⟩, by simp⟩

theorem Tame.bind {next : Value → Procedure Answer Halt Error State Next}
    (h : conduct.Tame procedure) (hnext : ∀ value, conduct.Tame (next value)) :
    conduct.Tame (procedure >>= next) := by
  intro state exchanges ending hrun
  obtain ⟨reason, hfirst, rfl⟩ | ⟨error, after, hfirst, rfl⟩ |
    ⟨front, back, value, middle, rfl, hfront, hback⟩ := Procedure.runs_bind_iff.mp hrun
  · exact absurd rfl ((h _ _ _ hfirst).2 reason)
  · exact ⟨(h _ _ _ hfirst).1, by simp⟩
  · obtain ⟨hasks, hending⟩ := hnext value _ _ _ hback
    exact ⟨asks_append.mpr ⟨(h _ _ _ hfront).1, hasks⟩, hending⟩

end Conduct

/-! ## Asking only -/

/-- The requests of every run are allowed, however it ends. -/
def AsksOnly {Request : Type u} {Answer : Request → Type x} {Halt : Type w}
    {Error State Value : Type x} (allowed : Request → Prop)
    (procedure : Procedure Answer Halt Error State Value) : Prop :=
  ∀ state exchanges ending, procedure.Runs state exchanges ending →
    ∀ exchange ∈ exchanges, allowed exchange.1

namespace AsksOnly

variable {Request : Type u} {Answer : Request → Type x} {Halt : Type w}
  {Error State Value Next : Type x} {allowed : Request → Prop}
  {procedure : Procedure Answer Halt Error State Value}

theorem pure (value : Value) :
    AsksOnly allowed (pure value : Procedure Answer Halt Error State Value) := by
  intro state exchanges ending hrun
  obtain ⟨rfl, -⟩ := Procedure.runs_pure_iff.mp hrun
  simp

theorem throw (error : Error) :
    AsksOnly allowed (throw error : Procedure Answer Halt Error State Value) := by
  intro state exchanges ending hrun
  obtain ⟨rfl, -⟩ := Procedure.runs_throw_iff.mp hrun
  simp

theorem stop (reason : Halt) :
    AsksOnly allowed (Procedure.stop reason : Procedure Answer Halt Error State Value) := by
  intro state exchanges ending hrun
  obtain ⟨rfl, -⟩ := Procedure.runs_stop_iff.mp hrun
  simp

theorem get : AsksOnly allowed (get : Procedure Answer Halt Error State State) := by
  intro state exchanges ending hrun
  obtain ⟨rfl, -⟩ := Procedure.runs_get_iff.mp hrun
  simp

theorem set (new : State) :
    AsksOnly allowed (set new : Procedure Answer Halt Error State PUnit) := by
  intro state exchanges ending hrun
  obtain ⟨rfl, -⟩ := Procedure.runs_set_iff.mp hrun
  simp

theorem perform {request : Request} (h : allowed request) :
    AsksOnly allowed (Procedure.perform request :
      Procedure Answer Halt Error State (Answer request)) := by
  intro state exchanges ending hrun
  obtain ⟨answer, rfl, -⟩ := Procedure.runs_perform_iff.mp hrun
  simpa using h

theorem bind {next : Value → Procedure Answer Halt Error State Next}
    (h : AsksOnly allowed procedure) (hnext : ∀ value, AsksOnly allowed (next value)) :
    AsksOnly allowed (procedure >>= next) := by
  intro state exchanges ending hrun
  obtain ⟨reason, hfirst, -⟩ | ⟨error, after, hfirst, -⟩ |
    ⟨front, back, value, middle, rfl, hfront, hback⟩ := Procedure.runs_bind_iff.mp hrun
  · exact h _ _ _ hfirst
  · exact h _ _ _ hfirst
  · rw [List.forall_mem_append]
    exact ⟨h _ _ _ hfront, hnext value _ _ _ hback⟩

theorem tryCatch {handler : Error → Procedure Answer Halt Error State Value}
    (h : AsksOnly allowed procedure) (hhandler : ∀ error, AsksOnly allowed (handler error)) :
    AsksOnly allowed (tryCatch procedure handler) := by
  intro state exchanges ending hrun
  obtain ⟨reason, hfirst, -⟩ | ⟨value, after, hfirst, -⟩ |
    ⟨front, back, error, middle, rfl, hfront, hback⟩ := Procedure.runs_tryCatch_iff.mp hrun
  · exact h _ _ _ hfirst
  · exact h _ _ _ hfirst
  · rw [List.forall_mem_append]
    exact ⟨h _ _ _ hfront, hhandler error _ _ _ hback⟩

theorem ite {condition : Prop} [Decidable condition]
    {alternative : Procedure Answer Halt Error State Value} (h : AsksOnly allowed procedure)
    (hother : AsksOnly allowed alternative) :
    AsksOnly allowed (if condition then procedure else alternative) := by
  split
  · exact h
  · exact hother

end AsksOnly

end Tgvisd
