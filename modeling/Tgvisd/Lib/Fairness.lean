import Mathlib.Data.Nat.Init
import Tgvisd.Lib.Machine

/-!
# Fair executions

An execution of a machine goes on for ever; where nothing happens it stutters, so every run is
the beginning of one. Some labels are the steps of agents (threads, say), the others those of the
environment, which nothing obliges to act. Weak fairness obliges the agents: one that stays
enabled eventually moves. The progress rule turns this into a response: something that is owed is
done eventually, if at each point a helpful agent is enabled whose steps lower a rank, and if no
other step raises the rank or takes the help away.
-/

namespace Tgvisd

universe u v w

namespace Machine

variable {State : Type u} {Label : Type v} {Agent : Type w}

/-- What `label` does between two states; `none` is a stutter. -/
def Follows (machine : Machine State Label) (state : State) (label : Option Label)
    (next : State) : Prop :=
  match label with
  | none => next = state
  | some label => machine.step state label = some next

structure Execution (machine : Machine State Label) where
  state : ℕ → State
  label : ℕ → Option Label
  follows : ∀ n, machine.Follows (state n) (label n) (state (n + 1))

/-- The agent has a step to take. -/
def Enabled (machine : Machine State Label) (agentOf : Label → Option Agent) (agent : Agent)
    (state : State) : Prop :=
  ∃ label next, agentOf label = some agent ∧ machine.step state label = some next

namespace Execution

variable {machine : Machine State Label} {agentOf : Label → Option Agent}

/-- Weak fairness: an agent that is enabled from some position on moves at or after it. -/
def WeaklyFair (execution : machine.Execution) (agentOf : Label → Option Agent) : Prop :=
  ∀ agent n, (∀ m, n ≤ m → machine.Enabled agentOf agent (execution.state m)) →
    ∃ m label, n ≤ m ∧ execution.label m = some label ∧ agentOf label = some agent

theorem step_of_label {execution : machine.Execution} {n : ℕ} {label : Label}
    (hlabel : execution.label n = some label) :
    machine.step (execution.state n) label = some (execution.state (n + 1)) := by
  have hfollows := execution.follows n
  rw [hlabel] at hfollows
  exact hfollows

theorem state_of_stutter {execution : machine.Execution} {n : ℕ}
    (hlabel : execution.label n = none) : execution.state (n + 1) = execution.state n := by
  have hfollows := execution.follows n
  rw [hlabel] at hfollows
  exact hfollows

/-- The invariant rule; a step may be assumed to be one that the execution takes. -/
theorem invariant {invariant : State → Prop} (execution : machine.Execution)
    (hstart : invariant (execution.state 0))
    (hstep : ∀ n label next, invariant (execution.state n) → execution.label n = some label →
      machine.step (execution.state n) label = some next → invariant next) (n : ℕ) :
    invariant (execution.state n) := by
  induction n with
  | zero => exact hstart
  | succ n ih =>
    cases hlabel : execution.label n with
    | none =>
      rw [state_of_stutter hlabel]
      exact ih
    | some label => exact hstep n label _ ih hlabel (step_of_label hlabel)

/-- What steps keep, every later state has. -/
theorem stable {kept : State → Prop} (execution : machine.Execution)
    (hstep : ∀ state label next, kept state → machine.step state label = some next → kept next)
    {n m : ℕ} (hle : n ≤ m) (h : kept (execution.state n)) : kept (execution.state m) := by
  induction m, hle using Nat.le_induction with
  | base => exact h
  | succ m _ ih =>
    cases hlabel : execution.label m with
    | none =>
      rw [state_of_stutter hlabel]
      exact ih
    | some label => exact hstep _ label _ ih (step_of_label hlabel)

/-! ## Progress -/

/-- Why what is owed is done eventually: in every state that owes it the helpful agent can move,
its moves do it or lower the rank, and the moves of others do it, lower the rank, or leave the
rank and the helpful agent as they are. -/
structure Progress (execution : machine.Execution) (agentOf : Label → Option Agent)
    (owed done : State → Prop) (rank : State → ℕ) (helpful : State → Agent) : Prop where
  enabled : ∀ n, owed (execution.state n) →
    machine.Enabled agentOf (helpful (execution.state n)) (execution.state n)
  step : ∀ n label next, owed (execution.state n) → execution.label n = some label →
    machine.step (execution.state n) label = some next →
      done next ∨ owed next ∧ (rank next < rank (execution.state n) ∨
        agentOf label ≠ some (helpful (execution.state n)) ∧
          rank next = rank (execution.state n) ∧ helpful next = helpful (execution.state n))

variable {execution : machine.Execution} {owed done : State → Prop} {rank : State → ℕ}
  {helpful : State → Agent}

/-- One position of an execution that owes: it is done next, or still owed with a lower rank, or
nothing has changed and the helpful agent has not moved. -/
theorem Progress.next (h : execution.Progress agentOf owed done rank helpful) {n : ℕ}
    (howed : owed (execution.state n)) :
    done (execution.state (n + 1)) ∨ owed (execution.state (n + 1)) ∧
      (rank (execution.state (n + 1)) < rank (execution.state n) ∨
        (∀ label, execution.label n = some label →
          agentOf label ≠ some (helpful (execution.state n))) ∧
        rank (execution.state (n + 1)) = rank (execution.state n) ∧
        helpful (execution.state (n + 1)) = helpful (execution.state n)) := by
  cases hlabel : execution.label n with
  | none => simp [state_of_stutter hlabel, howed]
  | some label =>
    rcases h.step n label _ howed hlabel (step_of_label hlabel) with hdone | ⟨hnext, hmove⟩
    · exact .inl hdone
    · refine .inr ⟨hnext, hmove.imp_right fun hsame ↦ ⟨?_, hsame.2⟩⟩
      intro other hother
      rw [Option.some.injEq] at hother
      exact hother ▸ hsame.1

/-- As long as it is not done and the rank has not dropped, all stays as it is. -/
theorem Progress.waits (h : execution.Progress agentOf owed done rank helpful) {n m : ℕ}
    (howed : owed (execution.state n)) (hdone : ∀ k, n ≤ k → ¬ done (execution.state k))
    (hrank : ∀ k, n ≤ k → owed (execution.state k) →
      rank (execution.state n) ≤ rank (execution.state k)) (hle : n ≤ m) :
    owed (execution.state m) ∧ rank (execution.state m) = rank (execution.state n) ∧
      helpful (execution.state m) = helpful (execution.state n) := by
  induction m, hle using Nat.le_induction with
  | base => exact ⟨howed, rfl, rfl⟩
  | succ m hle ih =>
    obtain ⟨howedAt, hrankAt, hhelpfulAt⟩ := ih
    rcases h.next howedAt with hdoneNext | ⟨howedNext, hdrop | ⟨-, hsameRank, hsameHelpful⟩⟩
    · exact absurd hdoneNext (hdone (m + 1) (by omega))
    · have hbound := hrank (m + 1) (by omega) howedNext
      omega
    · exact ⟨howedNext, hsameRank.trans hrankAt, hsameHelpful.trans hhelpfulAt⟩

/-- The progress rule: under weak fairness what is owed is done eventually. By induction on the
rank; at a fixed rank the helpful agent would stay enabled without ever moving. -/
theorem Progress.eventually (h : execution.Progress agentOf owed done rank helpful)
    (hfair : execution.WeaklyFair agentOf) {n : ℕ} (howed : owed (execution.state n)) :
    ∃ m, n ≤ m ∧ done (execution.state m) := by
  induction hsize : rank (execution.state n) using Nat.strong_induction_on generalizing n with
  | _ size ih =>
    subst hsize
    by_contra hnever
    have hdone (k : ℕ) (hle : n ≤ k) (hdone : done (execution.state k)) : False :=
      hnever ⟨k, hle, hdone⟩
    have hrank (k : ℕ) (hle : n ≤ k) (howedAt : owed (execution.state k)) :
        rank (execution.state n) ≤ rank (execution.state k) := by
      by_contra hdrop
      obtain ⟨m, hlater, hdoneAt⟩ := ih _ (by omega) howedAt rfl
      exact hdone m (by omega) hdoneAt
    have henabled (m : ℕ) (hle : n ≤ m) :
        machine.Enabled agentOf (helpful (execution.state n)) (execution.state m) := by
      obtain ⟨howedAt, -, hhelpful⟩ := h.waits howed hdone hrank hle
      exact hhelpful ▸ h.enabled m howedAt
    obtain ⟨m, label, hle, hlabel, hagent⟩ := hfair _ n henabled
    obtain ⟨howedAt, hrankAt, hhelpful⟩ := h.waits howed hdone hrank hle
    rcases h.next howedAt with hdoneNext | ⟨howedNext, hdrop | ⟨hother, -, -⟩⟩
    · exact hdone (m + 1) (by omega) hdoneNext
    · have hbound := hrank (m + 1) (by omega) howedNext
      omega
    · exact hother label hlabel (hhelpful ▸ hagent)

end Execution

/-! ## Runs as executions -/

/-- The state after so many labels of a run; after the last one it stays. -/
def stateAfter (machine : Machine State Label) : State → List Label → ℕ → State
  | state, _, 0 => state
  | state, [], _ + 1 => state
  | state, label :: labels, n + 1 =>
    match machine.step state label with
    | some next => machine.stateAfter next labels n
    | none => state

variable {machine : Machine State Label} {agentOf : Label → Option Agent} {start finish : State}
  {labels : List Label}

@[simp]
theorem stateAfter_zero : machine.stateAfter start labels 0 = start := by
  cases labels <;> rfl

@[simp]
theorem stateAfter_nil (n : ℕ) : machine.stateAfter start [] n = start := by
  cases n <;> rfl

theorem follows_stateAfter (hrun : machine.run start labels = some finish) (n : ℕ) :
    machine.Follows (machine.stateAfter start labels n) labels[n]?
      (machine.stateAfter start labels (n + 1)) := by
  induction labels generalizing start n with
  | nil => simp [Follows]
  | cons label labels ih =>
    rw [run_cons, Option.bind_eq_some_iff] at hrun
    obtain ⟨next, hnext, hrest⟩ := hrun
    cases n with
    | zero => simp [Follows, stateAfter, hnext]
    | succ n => simpa [stateAfter, hnext] using ih hrest n

theorem stateAfter_of_length_le (hrun : machine.run start labels = some finish) {n : ℕ}
    (hle : labels.length ≤ n) : machine.stateAfter start labels n = finish := by
  induction labels generalizing start n with
  | nil =>
    rw [run_nil, Option.some.injEq] at hrun
    rw [stateAfter_nil, hrun]
  | cons label labels ih =>
    rw [run_cons, Option.bind_eq_some_iff] at hrun
    obtain ⟨next, hnext, hrest⟩ := hrun
    cases n with
    | zero => simp at hle
    | succ n => simpa [stateAfter, hnext] using ih hrest (by simpa using hle)

/-- The execution that takes the steps of a run and then stutters. -/
def Execution.ofRun (hrun : machine.run start labels = some finish) : machine.Execution where
  state := machine.stateAfter start labels
  label n := labels[n]?
  follows := follows_stateAfter hrun

theorem Execution.ofRun_state (hrun : machine.run start labels = some finish) :
    ∃ n, (Execution.ofRun hrun).state n = finish :=
  ⟨labels.length, stateAfter_of_length_le hrun (Nat.le_refl _)⟩

/-- It is fair when no agent can move after the run. -/
theorem Execution.ofRun_weaklyFair (hrun : machine.run start labels = some finish)
    (hquiet : ∀ agent, ¬ machine.Enabled agentOf agent finish) :
    (Execution.ofRun hrun).WeaklyFair agentOf := by
  intro agent n henabled
  have hlast : (Execution.ofRun hrun).state (n + labels.length) = finish :=
    stateAfter_of_length_le hrun (by omega)
  exact absurd (hlast ▸ henabled _ (by omega)) (hquiet agent)

end Machine

end Tgvisd
