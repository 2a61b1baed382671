import Mathlib.Data.List.Basic

/-!
# Machines with labelled steps

A machine takes labelled steps; a label that is not enabled in a state has no successor there.
Nondeterminism (which thread moves, what arrives) is resolved by the label, so a run is a list of
labels and concrete runs can be evaluated. The rules below reduce a statement about every state
of a run, or about every step of it, to one step: the plain invariant rule, the rule for runs
whose steps all meet a guard, and the exact form of the latter, where breaking the guard is the
only way to break the property.
-/

namespace Tgvisd

universe u v

structure Machine (State : Type u) (Label : Type v) where
  step : State → Label → Option State

namespace Machine

variable {State : Type u} {Label : Type v} (machine : Machine State Label)

/-- Take the steps of a list in order, stopping at the first label that is not enabled. -/
def run : State → List Label → Option State
  | state, [] => some state
  | state, label :: labels => (machine.step state label).bind fun next ↦ run next labels

def Reaches (start finish : State) : Prop := ∃ labels, machine.run start labels = some finish

/-- Every state that the run visits has the property. -/
def Throughout (property : State → Prop) (start : State) (labels : List Label) : Prop :=
  ∀ before after state, labels = before ++ after →
    machine.run start before = some state → property state

/-- Every step that the run takes has the property: the state before it, its label and the state
after it. -/
def EveryStep (property : State → Label → State → Prop) (start : State) (labels : List Label) :
    Prop :=
  ∀ before label after state next, labels = before ++ label :: after →
    machine.run start before = some state → machine.step state label = some next →
      property state label next

variable {machine}

@[simp] theorem run_nil (state : State) : machine.run state [] = some state := rfl

@[simp] theorem run_cons (state : State) (label : Label) (labels : List Label) :
    machine.run state (label :: labels) =
      (machine.step state label).bind fun next ↦ machine.run next labels := rfl

theorem run_append (start : State) (front back : List Label) :
    machine.run start (front ++ back) =
      (machine.run start front).bind fun middle ↦ machine.run middle back := by
  induction front generalizing start with
  | nil => rfl
  | cons label front ih =>
    cases hstep : machine.step start label with
    | none => simp [hstep]
    | some next => simpa [hstep] using ih next

theorem run_append_eq {start middle finish : State} {front back : List Label}
    (hfront : machine.run start front = some middle)
    (hback : machine.run middle back = some finish) :
    machine.run start (front ++ back) = some finish := by
  rw [run_append, hfront]
  exact hback

/-! ## Reachability -/

theorem Reaches.refl (state : State) : machine.Reaches state state := ⟨[], rfl⟩

theorem Reaches.trans {start middle finish : State} (hfirst : machine.Reaches start middle)
    (hsecond : machine.Reaches middle finish) : machine.Reaches start finish := by
  obtain ⟨front, hfront⟩ := hfirst
  obtain ⟨back, hback⟩ := hsecond
  exact ⟨front ++ back, run_append_eq hfront hback⟩

theorem Reaches.step {start state next : State} {label : Label}
    (hreach : machine.Reaches start state) (hstep : machine.step state label = some next) :
    machine.Reaches start next :=
  hreach.trans ⟨[label], by simp [hstep]⟩

/-- The invariant rule. -/
theorem Reaches.invariant {invariant : State → Prop} {start finish : State}
    (hreach : machine.Reaches start finish) (hstart : invariant start)
    (hstep : ∀ state label next, invariant state → machine.step state label = some next →
      invariant next) : invariant finish := by
  obtain ⟨labels, hrun⟩ := hreach
  induction labels generalizing start with
  | nil =>
    rw [run_nil, Option.some.injEq] at hrun
    exact hrun ▸ hstart
  | cons label labels ih =>
    rw [run_cons, Option.bind_eq_some_iff] at hrun
    obtain ⟨next, hnext, hrest⟩ := hrun
    exact ih (hstep start label next hstart hnext) hrest

/-! ## Unfolding a run at its first step -/

theorem throughout_nil {property : State → Prop} {start : State} :
    machine.Throughout property start [] ↔ property start := by
  constructor
  · intro h
    exact h [] [] start rfl rfl
  · intro h before after state hsplit hrun
    obtain ⟨rfl, rfl⟩ := List.append_eq_nil_iff.mp hsplit.symm
    rw [run_nil, Option.some.injEq] at hrun
    exact hrun ▸ h

theorem throughout_cons {property : State → Prop} {start : State} {label : Label}
    {labels : List Label} :
    machine.Throughout property start (label :: labels) ↔
      property start ∧ ∀ next, machine.step start label = some next →
        machine.Throughout property next labels := by
  constructor
  · intro h
    refine ⟨h [] _ start rfl rfl, ?_⟩
    intro next hnext before after state hsplit hrun
    exact h (label :: before) after state (by rw [hsplit]; rfl) (by simpa [hnext] using hrun)
  · rintro ⟨hstart, hrest⟩ before after state hsplit hrun
    cases before with
    | nil =>
      rw [run_nil, Option.some.injEq] at hrun
      exact hrun ▸ hstart
    | cons first before =>
      rw [List.cons_append, List.cons.injEq] at hsplit
      obtain ⟨rfl, hsplit⟩ := hsplit
      rw [run_cons, Option.bind_eq_some_iff] at hrun
      obtain ⟨next, hnext, hrun⟩ := hrun
      exact hrest next hnext before after state hsplit hrun

theorem everyStep_nil {property : State → Label → State → Prop} {start : State} :
    machine.EveryStep property start [] := by
  intro before label after state next hsplit
  simp at hsplit

theorem everyStep_cons {property : State → Label → State → Prop} {start : State} {label : Label}
    {labels : List Label} :
    machine.EveryStep property start (label :: labels) ↔
      ∀ next, machine.step start label = some next →
        property start label next ∧ machine.EveryStep property next labels := by
  constructor
  · intro h next hnext
    refine ⟨h [] label labels start next rfl rfl hnext, ?_⟩
    intro before label' after state next' hsplit hrun hstep
    exact h (label :: before) label' after state next' (by rw [hsplit]; rfl)
      (by simpa [hnext] using hrun) hstep
  · intro h before label' after state next' hsplit hrun hstep
    cases before with
    | nil =>
      rw [List.nil_append, List.cons.injEq] at hsplit
      obtain ⟨rfl, -⟩ := hsplit
      rw [run_nil, Option.some.injEq] at hrun
      subst hrun
      exact (h next' hstep).1
    | cons first before =>
      rw [List.cons_append, List.cons.injEq] at hsplit
      obtain ⟨rfl, hsplit⟩ := hsplit
      rw [run_cons, Option.bind_eq_some_iff] at hrun
      obtain ⟨next, hnext, hrun⟩ := hrun
      exact (h next hnext).2 before label' after state next' hsplit hrun hstep

/-! ## Rules for runs -/

theorem Throughout.mono {first second : State → Prop} {start : State} {labels : List Label}
    (h : machine.Throughout first start labels) (himp : ∀ state, first state → second state) :
    machine.Throughout second start labels :=
  fun before after state hsplit hrun ↦ himp state (h before after state hsplit hrun)

/-- The last state of a run has what all its states have. -/
theorem Throughout.last {property : State → Prop} {start finish : State} {labels : List Label}
    (h : machine.Throughout property start labels) (hrun : machine.run start labels = some finish) :
    property finish :=
  h labels [] finish (List.append_nil labels).symm hrun

/-- A property of all states of a run holds after each of its steps. -/
theorem Throughout.everyStep {property : State → Prop} {start : State} {labels : List Label}
    (h : machine.Throughout property start labels) :
    machine.EveryStep (fun _ _ next ↦ property next) start labels := by
  intro before label after state next hsplit hrun hstep
  refine h (before ++ [label]) after next (by rw [hsplit, List.append_assoc]; rfl) ?_
  exact run_append_eq hrun (by simp [hstep])

/-- A property of all states of a run holds before each of its steps. -/
theorem Throughout.everyStep_before {property : State → Prop} {start : State}
    {labels : List Label} (h : machine.Throughout property start labels) :
    machine.EveryStep (fun state _ _ ↦ property state) start labels :=
  fun before label after state _ hsplit hrun _ ↦ h before (label :: after) state hsplit hrun

theorem EveryStep.and {first second : State → Label → State → Prop} {start : State}
    {labels : List Label} (hfirst : machine.EveryStep first start labels)
    (hsecond : machine.EveryStep second start labels) :
    machine.EveryStep (fun state label next ↦ first state label next ∧ second state label next)
      start labels :=
  fun before label after state next hsplit hrun hstep ↦
    ⟨hfirst before label after state next hsplit hrun hstep,
      hsecond before label after state next hsplit hrun hstep⟩

/-- Where the guard keeps the invariant, a run whose steps all meet the guard stays in it. -/
theorem Throughout.of_guarded {invariant : State → Prop} {guard : State → Label → State → Prop}
    {start : State} {labels : List Label} (hstart : invariant start)
    (hkeep : ∀ state label next, invariant state → guard state label next →
      machine.step state label = some next → invariant next)
    (hguard : machine.EveryStep guard start labels) :
    machine.Throughout invariant start labels := by
  induction labels generalizing start with
  | nil => exact throughout_nil.mpr hstart
  | cons label labels ih =>
    refine throughout_cons.mpr ⟨hstart, fun next hnext ↦ ?_⟩
    obtain ⟨hfirst, hrest⟩ := everyStep_cons.mp hguard next hnext
    exact ih (hkeep start label next hstart hfirst hnext) hrest

/-- If moreover every step against the guard breaks the property, the guard is exact. What the
steps of the run are known to satisfy may be assumed. -/
theorem throughout_iff_everyStep {invariant property : State → Prop}
    {known guard : State → Label → State → Prop} {start : State} {labels : List Label}
    (hstart : invariant start) (hproperty : ∀ state, invariant state → property state)
    (hkeep : ∀ state label next, invariant state → known state label next →
      guard state label next → machine.step state label = some next → invariant next)
    (hbreak : ∀ state label next, invariant state → known state label next →
      ¬ guard state label next → machine.step state label = some next → ¬ property next)
    (hknown : machine.EveryStep known start labels) :
    machine.Throughout property start labels ↔ machine.EveryStep guard start labels := by
  constructor
  · intro h
    induction labels generalizing start with
    | nil => exact everyStep_nil
    | cons label labels ih =>
      refine everyStep_cons.mpr fun next hnext ↦ ?_
      obtain ⟨hfirst, hrestKnown⟩ := everyStep_cons.mp hknown next hnext
      have hrest := (throughout_cons.mp h).2 next hnext
      have hnextProperty : property next := hrest [] labels next rfl rfl
      have hguard : guard start label next := by
        by_contra hnot
        exact hbreak start label next hstart hfirst hnot hnext hnextProperty
      exact ⟨hguard, ih (hkeep start label next hstart hfirst hguard hnext) hrestKnown hrest⟩
  · intro h
    have hkeep' (state : State) (label : Label) (next : State) (hinvariant : invariant state)
        (hboth : known state label next ∧ guard state label next)
        (hstep : machine.step state label = some next) : invariant next :=
      hkeep state label next hinvariant hboth.1 hboth.2 hstep
    exact (Throughout.of_guarded hstart hkeep' (hknown.and h)).mono hproperty

/-! ## Runs that are evaluated -/

/-- The states that the run visits. -/
def visits (machine : Machine State Label) : State → List Label → List State
  | state, [] => [state]
  | state, label :: labels =>
    state :: match machine.step state label with
      | some next => machine.visits next labels
      | none => []

theorem throughout_iff_visits {property : State → Prop} {start : State} {labels : List Label} :
    machine.Throughout property start labels ↔
      ∀ state ∈ machine.visits start labels, property state := by
  induction labels generalizing start with
  | nil => simp [visits, throughout_nil]
  | cons label labels ih =>
    rw [throughout_cons, visits, List.forall_mem_cons]
    apply and_congr_right
    intro _
    cases hstep : machine.step start label with
    | none => simp
    | some next => simp [ih]

/-- The steps that the run takes. -/
def steps (machine : Machine State Label) : State → List Label → List (State × Label × State)
  | _, [] => []
  | state, label :: labels =>
    match machine.step state label with
    | some next => (state, label, next) :: machine.steps next labels
    | none => []

theorem everyStep_iff_steps {property : State → Label → State → Prop} {start : State}
    {labels : List Label} : machine.EveryStep property start labels ↔
      ∀ taken ∈ machine.steps start labels, property taken.1 taken.2.1 taken.2.2 := by
  induction labels generalizing start with
  | nil => simp [steps, everyStep_nil]
  | cons label labels ih =>
    rw [everyStep_cons, steps]
    cases hstep : machine.step start label with
    | none => simp
    | some next => simp [ih]

/-- Labels that are all of a kind. -/
theorem everyStep_of_forall_mem {guard : Label → Prop} {start : State} {labels : List Label}
    (h : ∀ label ∈ labels, guard label) :
    machine.EveryStep (fun _ label _ ↦ guard label) start labels := by
  intro before label after state next hsplit hrun hstep
  exact h label (by simp [hsplit])

theorem everyStep_true {start : State} {labels : List Label} :
    machine.EveryStep (fun _ _ _ ↦ True) start labels :=
  fun _ _ _ _ _ _ _ _ ↦ trivial

end Machine

end Tgvisd
