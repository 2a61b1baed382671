import Tgvisd.Lib.Interaction

/-!
# Footprints

How often a procedure asks for something, and which answers can have stopped it. Both are read off
every run, however it ends, and follow the shape of the procedure.
-/

namespace Tgvisd

universe u v w x

/-- No run asks for such a request more often. -/
def AtMost {Request : Type u} {Answer : Request → Type x} {Halt : Type w}
    {Error State Value : Type x} (count : ℕ) (counted : Request → Bool)
    (procedure : Procedure Answer Halt Error State Value) : Prop :=
  ∀ state exchanges ending, procedure.Runs state exchanges ending →
    exchanges.countP (fun exchange ↦ counted exchange.1) ≤ count

/-- A run that is stopped has had such an answer before. -/
def StopsAfter {Request : Type u} {Answer : Request → Type x} {Halt : Type w}
    {Error State Value : Type x} (fatal : Sigma Answer → Prop)
    (procedure : Procedure Answer Halt Error State Value) : Prop :=
  ∀ state exchanges reason, procedure.Runs state exchanges (.halted reason) →
    ∃ exchange ∈ exchanges, fatal exchange

variable {Request : Type u} {Answer : Request → Type x} {Halt : Type w}
  {Error State Value Next : Type x}

namespace AtMost

variable {count more : ℕ} {counted : Request → Bool}
  {procedure : Procedure Answer Halt Error State Value}

theorem mono (h : AtMost count counted procedure) (hle : count ≤ more) :
    AtMost more counted procedure :=
  fun state exchanges ending hrun ↦ Nat.le_trans (h state exchanges ending hrun) hle

theorem pure (value : Value) :
    AtMost 0 counted (pure value : Procedure Answer Halt Error State Value) := by
  intro state exchanges ending hrun
  obtain ⟨rfl, -⟩ := Procedure.runs_pure_iff.mp hrun
  exact Nat.le_refl 0

theorem throw (error : Error) :
    AtMost 0 counted (throw error : Procedure Answer Halt Error State Value) := by
  intro state exchanges ending hrun
  obtain ⟨rfl, -⟩ := Procedure.runs_throw_iff.mp hrun
  exact Nat.le_refl 0

theorem stop (reason : Halt) :
    AtMost 0 counted (Procedure.stop reason : Procedure Answer Halt Error State Value) := by
  intro state exchanges ending hrun
  obtain ⟨rfl, -⟩ := Procedure.runs_stop_iff.mp hrun
  exact Nat.le_refl 0

theorem perform (request : Request) :
    AtMost (counted request).toNat counted (Procedure.perform request :
      Procedure Answer Halt Error State (Answer request)) := by
  intro state exchanges ending hrun
  obtain ⟨answer, rfl, -⟩ := Procedure.runs_perform_iff.mp hrun
  cases hcounted : counted request <;> simp [hcounted]

theorem bind {next : Value → Procedure Answer Halt Error State Next}
    (h : AtMost count counted procedure) (hnext : ∀ value, AtMost more counted (next value)) :
    AtMost (count + more) counted (procedure >>= next) := by
  intro state exchanges ending hrun
  obtain ⟨reason, hfirst, -⟩ | ⟨error, after, hfirst, -⟩ |
    ⟨front, back, value, middle, rfl, hfront, hback⟩ := Procedure.runs_bind_iff.mp hrun
  · exact Nat.le_trans (h _ _ _ hfirst) (Nat.le_add_right count more)
  · exact Nat.le_trans (h _ _ _ hfirst) (Nat.le_add_right count more)
  · rw [List.countP_append]
    exact Nat.add_le_add (h _ _ _ hfront) (hnext value _ _ _ hback)

/-- Nothing is counted behind it. -/
theorem bind_zero {next : Value → Procedure Answer Halt Error State Next}
    (h : AtMost count counted procedure) (hnext : ∀ value, AtMost 0 counted (next value)) :
    AtMost count counted (procedure >>= next) :=
  h.bind hnext

/-- Nothing is counted before it. -/
theorem zero_bind {next : Value → Procedure Answer Halt Error State Next}
    (h : AtMost 0 counted procedure) (hnext : ∀ value, AtMost count counted (next value)) :
    AtMost count counted (procedure >>= next) :=
  (h.bind hnext).mono (Nat.le_of_eq (Nat.zero_add count))

theorem tryCatch {handler : Error → Procedure Answer Halt Error State Value}
    (h : AtMost count counted procedure) (hhandler : ∀ error, AtMost more counted (handler error)) :
    AtMost (count + more) counted (tryCatch procedure handler) := by
  intro state exchanges ending hrun
  obtain ⟨reason, hfirst, -⟩ | ⟨value, after, hfirst, -⟩ |
    ⟨front, back, error, middle, rfl, hfront, hback⟩ := Procedure.runs_tryCatch_iff.mp hrun
  · exact Nat.le_trans (h _ _ _ hfirst) (Nat.le_add_right count more)
  · exact Nat.le_trans (h _ _ _ hfirst) (Nat.le_add_right count more)
  · rw [List.countP_append]
    exact Nat.add_le_add (h _ _ _ hfront) (hhandler error _ _ _ hback)

end AtMost

namespace StopsAfter

variable {fatal : Sigma Answer → Prop} {procedure : Procedure Answer Halt Error State Value}

theorem pure (value : Value) :
    StopsAfter fatal (pure value : Procedure Answer Halt Error State Value) := by
  intro state exchanges reason hrun
  simp [Procedure.runs_pure_iff] at hrun

theorem throw (error : Error) :
    StopsAfter fatal (throw error : Procedure Answer Halt Error State Value) := by
  intro state exchanges reason hrun
  simp [Procedure.runs_throw_iff] at hrun

theorem perform (request : Request) :
    StopsAfter fatal (Procedure.perform request :
      Procedure Answer Halt Error State (Answer request)) := by
  intro state exchanges reason hrun
  simp [Procedure.runs_perform_iff] at hrun

theorem bind {next : Value → Procedure Answer Halt Error State Next}
    (h : StopsAfter fatal procedure) (hnext : ∀ value, StopsAfter fatal (next value)) :
    StopsAfter fatal (procedure >>= next) := by
  intro state exchanges reason hrun
  obtain ⟨other, hfirst, -⟩ | ⟨error, after, -, hending⟩ |
    ⟨front, back, value, middle, rfl, hfront, hback⟩ := Procedure.runs_bind_iff.mp hrun
  · exact h _ _ _ hfirst
  · simp at hending
  · obtain ⟨exchange, hmem, hfatal⟩ := hnext value _ _ _ hback
    exact ⟨exchange, List.mem_append_right front hmem, hfatal⟩

/-- What comes after an answer matters only if the answer is not fatal by itself. -/
theorem perform_bind {request : Request}
    {next : Answer request → Procedure Answer Halt Error State Value}
    (hnext : ∀ answer, ¬ fatal ⟨request, answer⟩ → StopsAfter fatal (next answer)) :
    StopsAfter fatal (Procedure.perform request >>= next) := by
  intro state exchanges reason hrun
  obtain ⟨answer, back, rfl, hback⟩ := Procedure.runs_perform_bind_iff.mp hrun
  by_cases hfatal : fatal ⟨request, answer⟩
  · exact ⟨_, List.mem_cons_self, hfatal⟩
  · obtain ⟨exchange, hmem, hexchange⟩ := hnext answer hfatal _ _ _ hback
    exact ⟨exchange, List.mem_cons_of_mem _ hmem, hexchange⟩

theorem tryCatch {handler : Error → Procedure Answer Halt Error State Value}
    (h : StopsAfter fatal procedure) (hhandler : ∀ error, StopsAfter fatal (handler error)) :
    StopsAfter fatal (tryCatch procedure handler) := by
  intro state exchanges reason hrun
  obtain ⟨other, hfirst, -⟩ | ⟨value, after, -, hending⟩ |
    ⟨front, back, error, middle, rfl, hfront, hback⟩ := Procedure.runs_tryCatch_iff.mp hrun
  · exact h _ _ _ hfirst
  · simp at hending
  · obtain ⟨exchange, hmem, hfatal⟩ := hhandler error _ _ _ hback
    exact ⟨exchange, List.mem_append_right front hmem, hfatal⟩

end StopsAfter

end Tgvisd
