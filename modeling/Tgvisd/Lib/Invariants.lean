import Tgvisd.Lib.World

/-!
# Invariants of a procedure

A property of the world that holds after every answer that a procedure gets if it held before the
procedure, wherever the procedure is stopped and however it ends.
-/

namespace Tgvisd

universe u v w x y

namespace Procedure

variable {Request : Type u} {Answer : Request → Type v} {Halt : Type w}
  {Error State Value Next : Type x} {World : Type y}

def Maintains (environment : Environment Answer World) (invariant : World → Prop)
    (procedure : Procedure Answer Halt Error State Value) : Prop :=
  ∀ state world, invariant world →
    procedure.Ensures environment invariant state (fun _ last ↦ invariant last) world

variable {environment : Environment Answer World} {invariant : World → Prop}
  {procedure : Procedure Answer Halt Error State Value}

theorem Maintains.visits (h : Maintains environment invariant procedure) {state : State}
    {world last : World} (hworld : invariant world)
    (hvisits : procedure.Visits environment state world last) : invariant last := by
  obtain rfl | hlast := (h state world hworld).visits hvisits
  · exact hworld
  · exact hlast

theorem ensures_perform {Answer : Request → Type x} {environment : Environment Answer World}
    {always : World → Prop} {request : Request} {state : State} {world : World}
    {post : Ending Halt Error State (Answer request) → World → Prop}
    (h : ∀ answer next, environment world request answer next →
      always next ∧ post (.returned answer state) next) :
    (perform request : Procedure Answer Halt Error State (Answer request)).Ensures environment
      always state post world := h

/-- By induction on the program: what every answer keeps is an invariant. -/
theorem Maintains.of_forall
    (h : ∀ world request answer next, environment world request answer next → invariant world →
      invariant next) : Maintains environment invariant procedure := by
  intro state world hworld
  unfold Ensures
  generalize procedure.runFrom state = program
  induction program generalizing world with
  | done value => exact hworld
  | halt reason => exact hworld
  | ask request resume ih =>
    intro answer next hanswer
    have hnext := h world request answer next hanswer hworld
    exact ⟨hnext, ih answer next hnext⟩

theorem Maintains.pure (value : Value) :
    Maintains environment invariant (pure value : Procedure Answer Halt Error State Value) :=
  fun _ _ hworld ↦ hworld

theorem Maintains.throw (error : Error) :
    Maintains environment invariant (throw error : Procedure Answer Halt Error State Value) :=
  fun _ _ hworld ↦ hworld

theorem Maintains.stop (reason : Halt) :
    Maintains environment invariant (stop reason : Procedure Answer Halt Error State Value) :=
  fun _ _ hworld ↦ hworld

theorem Maintains.get :
    Maintains environment invariant (get : Procedure Answer Halt Error State State) :=
  fun _ _ hworld ↦ hworld

theorem Maintains.set (new : State) :
    Maintains environment invariant (set new : Procedure Answer Halt Error State PUnit) :=
  fun _ _ hworld ↦ hworld

theorem Maintains.perform {Answer : Request → Type x} {environment : Environment Answer World}
    {request : Request}
    (h : ∀ world answer next, environment world request answer next → invariant world →
      invariant next) :
    Maintains environment invariant (Procedure.perform request :
      Procedure Answer Halt Error State (Answer request)) := by
  intro state world hworld answer next hanswer
  exact ⟨h world answer next hanswer hworld, h world answer next hanswer hworld⟩

theorem Maintains.bind {next : Value → Procedure Answer Halt Error State Next}
    (h : Maintains environment invariant procedure)
    (hnext : ∀ value, Maintains environment invariant (next value)) :
    Maintains environment invariant (procedure >>= next) := by
  intro state world hworld
  apply ensures_bind_iff.mpr
  apply (h state world hworld).mono fun _ hlast ↦ hlast
  intro ending last hlast
  cases ending with
  | returned value after => exact hnext value after last hlast
  | raised error after => exact hlast
  | halted reason => exact hlast

theorem Maintains.tryCatch {handler : Error → Procedure Answer Halt Error State Value}
    (h : Maintains environment invariant procedure)
    (hhandler : ∀ error, Maintains environment invariant (handler error)) :
    Maintains environment invariant (tryCatch procedure handler) := by
  intro state world hworld
  apply ensures_tryCatch_iff.mpr
  apply (h state world hworld).mono fun _ hlast ↦ hlast
  intro ending last hlast
  cases ending with
  | returned value after => exact hlast
  | raised error after => exact hhandler error after last hlast
  | halted reason => exact hlast

/-- A stronger property of the world that the procedure starts in. -/
theorem Maintains.ensures_bind {strong : World → Prop}
    {next : Value → Procedure Answer Halt Error State Next}
    (h : Maintains environment strong procedure) (hweaken : ∀ world, strong world → invariant world)
    (hnext : ∀ value state world, strong world →
      (next value).Ensures environment invariant state (fun _ last ↦ invariant last) world)
    {state : State} {world : World} (hworld : strong world) :
    (procedure >>= next).Ensures environment invariant state (fun _ last ↦ invariant last)
      world := by
  apply ensures_bind_iff.mpr
  apply (h state world hworld).mono hweaken
  intro ending last hlast
  cases ending with
  | returned value after => exact hnext value after last hlast
  | raised error after => exact hweaken last hlast
  | halted reason => exact hweaken last hlast

theorem Maintains.ite {condition : Prop} [Decidable condition]
    {alternative : Procedure Answer Halt Error State Value}
    (h : Maintains environment invariant procedure)
    (hother : Maintains environment invariant alternative) :
    Maintains environment invariant (if condition then procedure else alternative) := by
  split
  · exact h
  · exact hother

end Procedure

end Tgvisd
