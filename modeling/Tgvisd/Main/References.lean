import Tgvisd.Main.Lifetimes

/-!
# References to `Main`

`myRef_` counts the detached threads that are at work for a `Main`, so `~Main` does not get past
its wait while one of them is. A thread in the middle of `decRef` is no longer counted, and its
`notify_all` may find the `Main` destroyed; nothing else can.
-/

namespace Tgvisd.Lifetimes

open WorkerPool (Assertion assertThat Update)

/-- The detached threads of the `Main` may be at work. -/
def Owner.awaits : Owner → Bool
  | .running | .joining | .testing | .waiting => true
  | _ => false

namespace State

variable {state next : State} {i t : ℕ} {main : Main}

/-- The step changes one `Main`, but not its count, and no thread. -/
structure Moves (state : State) (i : ℕ) (main : Main) (next : State) : Prop where
  mains : next.mains = Function.update state.mains i main
  threads : next.threads = state.threads
  spawned : next.spawned = state.spawned
  myRef : main.myRef = (state.mains i).myRef

/-- What a step does to the detached threads and to the `Main`s that they work for. -/
inductive Effect (state : State) : Label → State → Prop
  | fail (label : Label) (assertion : Assertion) :
    Effect state label { state with fault := some assertion }
  | walk (label : Label) (i : ℕ) (main : Main) (next : State)
    (moves : state.Moves i main next) (alive : main.owner ≠ .destroyed)
    (awaits : (state.mains i).owner.awaits = true → main.owner.awaits = true) :
    Effect state label next
  | leave (i : ℕ) (main : Main) (next : State) (moves : state.Moves i main next)
    (alive : main.owner ≠ .destroyed) (unreferenced : ¬ 0 < (state.mains i).myRef) :
    Effect state (.owner i) next
  | destroy (i : ℕ) (main : Main) (next : State) (moves : state.Moves i main next)
    (closing : (state.mains i).owner = .closing) (destroyed : main.owner = .destroyed) :
    Effect state (.owner i) next
  | spawn (label : Label) (i : ℕ) (main : Main) (next : State)
    (mains : next.mains = Function.update state.mains i main)
    (threads : next.threads = Function.update state.threads state.spawned (.working i))
    (spawned : next.spawned = state.spawned + 1)
    (myRef : main.myRef = ((state.mains i).myRef + 1).bmod 4294967296)
    (awaits : main.owner.awaits = true) : Effect state label next
  | decRef (t i : ℕ) (working : state.threads t = .working i) :
    Effect state (.decRef t) ((state.setMain i { state.mains i with
      myRef := ((state.mains i).myRef - 1).bmod 4294967296 }).setThread t (.notifying i))
  | notify (t i : ℕ) (notifying : state.threads t = .notifying i) :
    Effect state (.notify t) (state.setThread t .finished)

theorem moves_setMain (hmyRef : main.myRef = (state.mains i).myRef) :
    state.Moves i main (state.setMain i main) :=
  ⟨rfl, rfl, rfl, hmyRef⟩

theorem moves_moveTo {middle : State} {owner : Owner} (hmoves : state.Moves i main middle) :
    state.Moves i { main with owner } (middle.moveTo i owner) where
  mains := by simp [moveTo, hmoves.mains]
  threads := hmoves.threads
  spawned := hmoves.spawned
  myRef := hmoves.myRef

theorem Moves.of_toggle_on (htoggle : state.toggleGlobalModule i true = .ok next) :
    ∃ module, state.Moves i { state.mains i with module_ := some module } next := by
  obtain ⟨module, hmains, hthreads, hspawned, -⟩ := toggle_on_mains htoggle
  exact ⟨module, hmains, hthreads, hspawned, rfl⟩

theorem Moves.of_toggle_off (htoggle : state.toggleGlobalModule i false = .ok next) :
    state.Moves i { state.mains i with module_ := none } next := by
  obtain ⟨hmains, hthreads, hspawned, -⟩ := toggle_off_mains htoggle
  exact ⟨hmains, hthreads, hspawned, rfl⟩

/-- The step of an owner that only goes on. -/
theorem effect_moveTo {owner : Owner} (alive : owner ≠ .destroyed)
    (awaits : (state.mains i).owner.awaits = true → owner.awaits = true) :
    state.Effect (.owner i) (state.moveTo i owner) := by
  refine .walk _ i { state.mains i with owner } _ (moves_setMain ?_) alive awaits
  rfl

theorem effect_ownerStep {outcome : Except Assertion State}
    (hstep : state.ownerStep i = some outcome) :
    state.Effect (.owner i) (state.settle outcome) := by
  unfold ownerStep at hstep
  cases howner : (state.mains i).owner with
  | unborn | spawning | waiting =>
    simp only [howner, Option.some.injEq] at hstep
    subst hstep
    exact effect_moveTo (by simp) (by simp [howner, Owner.awaits])
  | loading =>
    simp only [howner, Option.some.injEq] at hstep
    subst hstep
    cases htoggle : state.toggleGlobalModule i true with
    | error assertion => exact .fail _ assertion
    | ok next =>
      obtain ⟨module, hmoves⟩ := Moves.of_toggle_on htoggle
      exact .walk _ i _ _ (moves_moveTo hmoves) (by simp) (by simp [howner, Owner.awaits])
  | preloading =>
    simp only [howner, Option.some.injEq] at hstep
    subst hstep
    cases hspawn : state.spawn i with
    | error assertion => exact .fail _ assertion
    | ok next =>
      obtain ⟨-, rfl⟩ := spawn_eq_ok hspawn
      exact .spawn _ i { state.mains i with
        myRef := ((state.mains i).myRef + 1).bmod 4294967296, owner := .running } _
        (by simp [settle, moveTo, bind, Except.bind, pure, Except.pure]) rfl rfl rfl rfl
  | running =>
    simp only [howner, Option.some.injEq] at hstep
    subst hstep
    refine .walk _ i { state.mains i with stopUpdate := true, owner := .joining } _
      (moves_setMain ?_) (by simp) fun _ ↦ rfl
    rfl
  | joining =>
    simp only [howner] at hstep
    split at hstep
    · rw [Option.some.injEq] at hstep
      subst hstep
      exact effect_moveTo (by simp) fun _ ↦ rfl
    · cases hstep
  | testing =>
    simp only [howner, Option.some.injEq] at hstep
    subst hstep
    cases hstop : (state.mains i).stopUpdate with
    | false =>
      simpa [hstop, assertThat, bind, Except.bind, settle] using
        Effect.fail (.owner i) Assertion.updatesStopped
    | true =>
      simp only [assertThat, bind, Except.bind, if_true, pure, Except.pure]
      by_cases href : 0 < (state.mains i).myRef
      · rw [if_pos href]
        exact effect_moveTo (by simp) fun _ ↦ rfl
      · rw [if_neg href]
        refine .leave i { state.mains i with owner := .unloading } _ (moves_setMain ?_) (by simp)
          href
        rfl
  | unloading =>
    simp only [howner, Option.some.injEq] at hstep
    subst hstep
    cases htoggle : state.toggleGlobalModule i false with
    | error assertion => exact .fail _ assertion
    | ok next =>
      exact .walk _ i _ _ (moves_moveTo (Moves.of_toggle_off htoggle)) (by simp)
        (by simp [howner, Owner.awaits])
  | closing =>
    simp only [howner, Option.some.injEq] at hstep
    subst hstep
    refine .destroy i { state.mains i with owner := .destroyed } _ (moves_setMain ?_) howner rfl
    rfl
  | destroyed => simp [howner] at hstep

theorem effect_dispatchStep {outcome : Except Assertion State}
    (hstep : state.dispatchStep i = some outcome) :
    state.Effect (.dispatch i) (state.settle outcome) := by
  simp only [dispatchStep] at hstep
  split at hstep
  · rename_i howner
    have halive : (state.mains i).owner ≠ .destroyed := by
      obtain howner | howner := howner <;> simp [howner]
    cases hmodule : (state.mains i).module_ with
    | none =>
      simp only [hmodule, Option.some.injEq] at hstep
      subst hstep
      exact .fail _ _
    | some module =>
      simp only [hmodule, Option.some.injEq] at hstep
      subst hstep
      exact .walk _ i _ _ (moves_setMain rfl) halive id
  · cases hstep

theorem effect_handleStep {module : ℕ} {update : Update} {outcome : Except Assertion State}
    (hsound : state.Sound) (hstep : state.handleStep i module update = some outcome) :
    state.Effect (.handle i module update) (state.settle outcome) := by
  simp only [handleStep] at hstep
  split at hstep
  · rename_i hmodule
    have hworkers := (hsound.fits i).hasWorkers (List.ne_nil_of_mem hmodule)
    have halive : (state.mains i).owner ≠ .destroyed := by
      intro howner
      simp [howner, Owner.hasWorkers] at hworkers
    have hawaits : (state.mains i).owner.awaits = true := by
      cases howner : (state.mains i).owner <;>
        simp_all [Owner.hasWorkers, Owner.awaits]
    rw [Option.some.injEq] at hstep
    subst hstep
    split
    · cases hspawn : state.spawn i with
      | error assertion => exact .fail _ assertion
      | ok next =>
        obtain ⟨-, rfl⟩ := spawn_eq_ok hspawn
        exact .spawn _ i { state.mains i with
          myRef := ((state.mains i).myRef + 1).bmod 4294967296
          dispatching := (state.mains i).dispatching.erase module } _
          (by simp [settle, bind, Except.bind, pure, Except.pure]) rfl rfl rfl hawaits
    · refine .walk _ i { state.mains i with
        dispatching := (state.mains i).dispatching.erase module } _ (moves_setMain ?_) halive id
      rfl
  · cases hstep

theorem effect_decRefStep {outcome : Except Assertion State}
    (hstep : state.decRefStep t = some outcome) :
    state.Effect (.decRef t) (state.settle outcome) := by
  unfold decRefStep at hstep
  cases hthread : state.threads t with
  | working i =>
    simp only [hthread, Option.some.injEq] at hstep
    exact hstep ▸ .decRef t i hthread
  | unborn | notifying | finished => simp [hthread] at hstep

theorem effect_notifyStep {outcome : Except Assertion State}
    (hstep : state.notifyStep t = some outcome) :
    state.Effect (.notify t) (state.settle outcome) := by
  unfold notifyStep at hstep
  cases hthread : state.threads t with
  | notifying i =>
    simp only [hthread, Option.some.injEq] at hstep
    exact hstep ▸ .notify t i hthread
  | unborn | working | finished => simp [hthread] at hstep

theorem effect_of_step {label : Label} (hsound : state.Sound)
    (hstep : machine.step state label = some next) : state.Effect label next := by
  obtain ⟨-, outcome, hattempt, rfl⟩ := step_eq_some hstep
  cases label with
  | owner i => exact effect_ownerStep hattempt
  | dispatch i => exact effect_dispatchStep hattempt
  | handle i module update => exact effect_handleStep hsound hattempt
  | decRef t => exact effect_decRefStep hattempt
  | notify t => exact effect_notifyStep hattempt

/-! ## The count -/

/-- `myRef_` is the number of the threads at work for the `Main`, and while there are any the
destructor is not past its wait. -/
structure Referenced (state : State) : Prop where
  unborn : ∀ t, state.spawned ≤ t → state.threads t = .unborn
  awaited : ∀ t i, state.threads t = .working i → (state.mains i).owner.awaits = true
  counted : ∀ i, ∃ count : ℕ, Counts (fun t ↦ state.threads t = .working i) count ∧
    (state.mains i).myRef = count ∧ count < 2147483648

/-- No counter is at `INT32_MAX`, so that `incRef` does not overflow. -/
def InRange (state : State) : Prop := ∀ i, (state.mains i).myRef < 2147483647

namespace Referenced

theorem initial : Referenced {} where
  unborn _ _ := rfl
  awaited := by simp
  counted _ := ⟨0, Counts.of_none (by simp), rfl, by decide⟩

theorem moves (h : state.Referenced) (hmoves : state.Moves i main next)
    (hawaits : ∀ t, state.threads t = .working i → main.owner.awaits = true) :
    next.Referenced := by
  refine ⟨?_, ?_, ?_⟩
  · intro t ht
    rw [hmoves.threads]
    exact h.unborn t (hmoves.spawned ▸ ht)
  · intro t j ht
    rw [hmoves.threads] at ht
    by_cases hj : j = i
    · subst hj
      simpa [hmoves.mains] using hawaits t ht
    · simpa [hmoves.mains, hj] using h.awaited t j ht
  · intro j
    rw [hmoves.threads]
    by_cases hj : j = i
    · subst hj
      simpa [hmoves.mains, hmoves.myRef] using h.counted j
    · simpa [hmoves.mains, hj] using h.counted j

/-- Beyond the wait, nothing is at work. -/
theorem unreferenced (h : state.Referenced) (href : ¬ 0 < (state.mains i).myRef) (t : ℕ) :
    state.threads t ≠ .working i := by
  obtain ⟨count, hcounts, hmyRef, -⟩ := h.counted i
  have hzero : count = 0 := by omega
  exact hcounts.eq_zero_iff.mp hzero t

theorem bmod_count {count : ℕ} (hcount : count < 2147483648) :
    (count : ℤ).bmod 4294967296 = count := by
  rw [Int.bmod_eq_of_le] <;> omega

theorem spawn (h : state.Referenced) (hrange : state.InRange)
    (hmains : next.mains = Function.update state.mains i main)
    (hthreads : next.threads = Function.update state.threads state.spawned (.working i))
    (hspawned : next.spawned = state.spawned + 1)
    (hmyRef : main.myRef = ((state.mains i).myRef + 1).bmod 4294967296)
    (hawaits : main.owner.awaits = true) : next.Referenced := by
  have hfresh := h.unborn state.spawned le_rfl
  refine ⟨?_, ?_, ?_⟩
  · intro t ht
    have hne : t ≠ state.spawned := by omega
    simpa [hthreads, hne] using h.unborn t (by omega)
  · intro t j ht
    by_cases hj : j = i
    · subst hj
      simpa [hmains] using hawaits
    · by_cases hnew : t = state.spawned
      · simp [hthreads, hnew, Ne.symm hj] at ht
      · simpa [hmains, hj] using h.awaited t j (by simpa [hthreads, hnew] using ht)
  · intro j
    obtain ⟨count, hcounts, hcount, hlt⟩ := h.counted j
    by_cases hj : j = i
    · subst hj
      have hbelow := hrange j
      refine ⟨count + 1, hcounts.acquire (a := state.spawned) (by simp [hfresh]) ?_, ?_, by omega⟩
      · intro t
        by_cases hnew : t = state.spawned <;> simp [hthreads, hnew]
      · have hsum : (state.mains j).myRef + 1 = ((count + 1 : ℕ) : ℤ) := by simp [hcount]
        simp only [hmains, Function.update_self, hmyRef, hsum]
        exact bmod_count (by omega)
    · refine ⟨count, hcounts.of_iff ?_, by simpa [hmains, hj] using hcount, hlt⟩
      intro t
      by_cases hnew : t = state.spawned
      · simp [hthreads, hnew, hfresh, Ne.symm hj]
      · simp [hthreads, hnew]

theorem decRef (h : state.Referenced) (hworking : state.threads t = .working i) :
    ((state.setMain i { state.mains i with
      myRef := ((state.mains i).myRef - 1).bmod 4294967296 }).setThread t
        (.notifying i)).Referenced := by
  refine ⟨?_, ?_, ?_⟩
  · intro u hu
    have hne : u ≠ t := by
      rintro rfl
      simp [h.unborn u hu] at hworking
    simpa [hne] using h.unborn u hu
  · intro u j hu
    by_cases hut : u = t
    · simp [hut] at hu
    · have hawaits := h.awaited u j (by simpa [hut] using hu)
      by_cases hj : j = i
      · subst hj
        simpa using hawaits
      · simpa [hj] using hawaits
  · intro j
    obtain ⟨count, hcounts, hcount, hlt⟩ := h.counted j
    by_cases hj : j = i
    · subst hj
      obtain ⟨rest, hsucc, hrest⟩ := hcounts.release (a := t) hworking fun u ↦ Iff.rfl
      refine ⟨rest, hrest.of_iff ?_, ?_, by omega⟩
      · intro u
        by_cases hu : u = t <;> simp [hu]
      · have hdifference : (state.mains j).myRef - 1 = (rest : ℤ) := by omega
        simp only [setThread_mains, setMain_mains, Function.update_self, hdifference]
        exact bmod_count (by omega)
    · refine ⟨count, hcounts.of_iff ?_, by simpa [hj] using hcount, hlt⟩
      intro u
      by_cases hu : u = t
      · simp [hu, hworking, Ne.symm hj]
      · simp [hu]

theorem notify (h : state.Referenced) (hnotifying : state.threads t = .notifying i) :
    (state.setThread t .finished).Referenced := by
  have hiff (u j : ℕ) : (state.setThread t .finished).threads u = .working j ↔
      state.threads u = .working j := by
    by_cases hu : u = t <;> simp [hu, hnotifying]
  refine ⟨?_, ?_, ?_⟩
  · intro u hu
    have hne : u ≠ t := by
      rintro rfl
      simp [h.unborn u hu] at hnotifying
    simpa [hne] using h.unborn u hu
  · intro u j hu
    exact h.awaited u j ((hiff u j).mp hu)
  · intro j
    obtain ⟨count, hcounts, hcount⟩ := h.counted j
    exact ⟨count, hcounts.of_iff fun u ↦ hiff u j, hcount⟩

theorem myRef_le {label : Label} (h : state.Referenced) (hrange : state.InRange)
    (heffect : state.Effect label next) (j : ℕ) :
    (next.mains j).myRef ≤ (state.mains j).myRef + 1 := by
  obtain ⟨count, -, hcount, hlt⟩ := h.counted j
  have hbelow := hrange j
  have hmoves {i : ℕ} {main : Main} (hmoves : state.Moves i main next) :
      (next.mains j).myRef ≤ (state.mains j).myRef + 1 := by
    by_cases hj : j = i
    · subst hj
      simp [hmoves.mains, hmoves.myRef]
    · simp [hmoves.mains, hj]
  cases heffect with
  | fail _ assertion => exact Int.le_add_one le_rfl
  | walk _ i main _ moves => exact hmoves moves
  | leave i main _ moves => exact hmoves moves
  | destroy i main _ moves => exact hmoves moves
  | spawn _ i main _ hmains _ _ hmyRef =>
    by_cases hj : j = i
    · subst hj
      have hsum : (state.mains j).myRef + 1 = ((count + 1 : ℕ) : ℤ) := by simp [hcount]
      rw [hmains, Function.update_self, hmyRef, hsum]
      exact le_of_eq (bmod_count (by omega))
    · simp [hmains, hj]
  | decRef t i hworking =>
    by_cases hj : j = i
    · subst hj
      simp only [setThread_mains, setMain_mains, Function.update_self]
      rw [Int.bmod_eq_of_le] <;> omega
    · simp [hj]
  | notify t i hnotifying => exact Int.le_add_one le_rfl

theorem effect {label : Label} (h : state.Referenced) (hrange : state.InRange)
    (heffect : state.Effect label next) : next.Referenced := by
  cases heffect with
  | fail _ assertion => exact ⟨h.unborn, h.awaited, h.counted⟩
  | walk _ i main _ hmoves _ hawaits =>
    exact h.moves hmoves fun t ht ↦ hawaits (h.awaited t i ht)
  | leave i main _ hmoves _ hnone =>
    exact h.moves hmoves fun t ht ↦ absurd ht (h.unreferenced hnone t)
  | destroy i main _ hmoves hclosing =>
    refine h.moves hmoves fun t ht ↦ ?_
    have hawaits := h.awaited t i ht
    simp [hclosing, Owner.awaits] at hawaits
  | spawn _ i main _ hmains hthreads hspawned hmyRef hawaits =>
    exact h.spawn hrange hmains hthreads hspawned hmyRef hawaits
  | decRef t i hworking => exact h.decRef hworking
  | notify t i hnotifying => exact h.notify hnotifying

end Referenced

/-! ## Threads that use a destroyed `Main` -/

/-- The next step of the thread uses a `Main` that has been destroyed. -/
def Dangling (state : State) (t : ℕ) : Prop :=
  ∃ i, (state.mains i).owner = .destroyed ∧
    (state.threads t = .working i ∨ state.threads t = .notifying i)

/-- The last step of the destructor comes after the `notify_all` of every `decRef` that has
begun. -/
def AwaitsNotify (state : State) (label : Label) (_ : State) : Prop :=
  ∀ i, label = .owner i → (state.mains i).owner = .closing →
    ∀ t, state.threads t ≠ .notifying i

theorem Moves.owner_of_ne {j : ℕ} (hmoves : state.Moves i main next) (hj : j ≠ i) :
    (next.mains j).owner = (state.mains j).owner := by
  simp [hmoves.mains, hj]

theorem Moves.owner_self (hmoves : state.Moves i main next) :
    (next.mains i).owner = main.owner := by
  simp [hmoves.mains]

/-- A thread is left dangling by the destruction of its `Main` in the middle of `decRef` only. -/
theorem dangling_of_effect {label : Label} (h : state.Referenced)
    (heffect : state.Effect label next) (hdangling : next.Dangling t) :
    state.Dangling t ∨ ∃ i, label = .owner i ∧ (state.mains i).owner = .closing ∧
      state.threads t = .notifying i := by
  obtain ⟨j, hdestroyed, hthread⟩ := hdangling
  have hkept {i : ℕ} {main : Main} (hmoves : state.Moves i main next) (hj : j ≠ i) :
      state.Dangling t :=
    ⟨j, (hmoves.owner_of_ne hj).symm.trans hdestroyed, hmoves.threads ▸ hthread⟩
  cases heffect with
  | fail _ assertion => exact .inl ⟨j, hdestroyed, hthread⟩
  | walk _ i main _ hmoves halive =>
    refine .inl (hkept hmoves ?_)
    rintro rfl
    exact halive (hmoves.owner_self.symm.trans hdestroyed)
  | leave i main _ hmoves halive =>
    refine .inl (hkept hmoves ?_)
    rintro rfl
    exact halive (hmoves.owner_self.symm.trans hdestroyed)
  | destroy i main _ hmoves hclosing =>
    by_cases hj : j = i
    · subst hj
      rw [hmoves.threads] at hthread
      refine .inr ⟨j, rfl, hclosing, hthread.resolve_left fun hworking ↦ ?_⟩
      have hawaits := h.awaited t j hworking
      simp [hclosing, Owner.awaits] at hawaits
    · exact .inl (hkept hmoves hj)
  | spawn _ i main _ hmains hthreads _ _ hawaits =>
    have hj : j ≠ i := by
      rintro rfl
      simp [hmains] at hdestroyed
      simp [hdestroyed, Owner.awaits] at hawaits
    have hnew : t ≠ state.spawned := by
      rintro rfl
      simp [hthreads, Ne.symm hj] at hthread
    exact .inl ⟨j, by simpa [hmains, hj] using hdestroyed, by simpa [hthreads, hnew] using hthread⟩
  | decRef u i hworking =>
    have hawaits := h.awaited u i hworking
    have hold : (state.mains j).owner = .destroyed := by
      by_cases hj : j = i
      · subst hj
        simpa using hdestroyed
      · simpa [hj] using hdestroyed
    refine .inl ⟨j, hold, ?_⟩
    by_cases hu : t = u
    · subst hu
      have hj : i = j := by simpa using hthread
      exact .inl (hj ▸ hworking)
    · simpa [hu] using hthread
  | notify u i hnotifying =>
    have hu : t ≠ u := by
      rintro rfl
      simp at hthread
    exact .inl ⟨j, hdestroyed, by simpa [hu] using hthread⟩

end State

/-! ## Whole runs -/

variable {labels : List Label}

theorem sound_and_referenced
    (hrange : machine.EveryStep (fun state _ _ ↦ state.InRange) {} labels) :
    machine.Throughout (fun state ↦ state.Sound ∧ state.Referenced) {} labels := by
  refine Machine.Throughout.of_guarded ⟨.initial, .initial⟩ ?_ hrange
  intro state label next h hinRange hstep
  exact ⟨h.1.step hstep, h.2.effect hinRange (State.effect_of_step h.1 hstep)⟩

/-- A run that is too short to overflow a counter. -/
theorem inRange_of_length {start : State} {bound : ℕ} (hsound : start.Sound)
    (href : start.Referenced) (hbound : ∀ i, (start.mains i).myRef ≤ bound)
    (hlength : bound + labels.length ≤ 2147483647) :
    machine.EveryStep (fun state _ _ ↦ state.InRange) start labels := by
  induction labels generalizing start bound with
  | nil => exact Machine.everyStep_nil
  | cons label labels ih =>
    rw [List.length_cons] at hlength
    have hrange : start.InRange := fun i ↦ lt_of_le_of_lt (hbound i) (by omega)
    refine Machine.everyStep_cons.mpr fun next hstep ↦ ⟨hrange, ?_⟩
    have heffect := State.effect_of_step hsound hstep
    refine ih (hsound.step hstep) (href.effect hrange heffect) ?_
      (show bound + 1 + labels.length ≤ 2147483647 by omega)
    intro i
    have hnext := href.myRef_le hrange heffect i
    have hold := hbound i
    push_cast
    omega

theorem inRange_of_length_initial (hlength : labels.length ≤ 2147483647) :
    machine.EveryStep (fun state _ _ ↦ state.InRange) {} labels :=
  inRange_of_length State.Sound.initial State.Referenced.initial (fun _ ↦ le_rfl)
    (by simpa using hlength)

/-- A detached thread is at work only for a `Main` that has been constructed and whose destructor
is not past its wait, and the destructor gets past the wait exactly when no thread is at work for
its `Main`. -/
theorem destructor_waits
    (hrange : machine.EveryStep (fun state _ _ ↦ state.InRange) {} labels) :
    machine.Throughout (fun state ↦ ∀ t i, state.threads t = .working i →
        (state.mains i).owner.awaits = true) {} labels ∧
      machine.EveryStep (fun state label next ↦ ∀ i, label = .owner i →
        (state.mains i).owner = .testing →
          ((next.mains i).owner = .unloading ↔ ∀ t, state.threads t ≠ .working i)) {} labels := by
  have hall := sound_and_referenced hrange
  refine ⟨hall.mono fun state h ↦ h.2.awaited, ?_⟩
  intro before label after state next hsplit hrun hstep i hlabel howner
  obtain ⟨hsound, href⟩ := hall before (label :: after) state hsplit hrun
  obtain ⟨count, hcounts, hcount, -⟩ := href.counted i
  have hstop : (state.mains i).stopUpdate = true := by
    rw [(hsound.fits i).stopUpdate, howner]
    rfl
  obtain ⟨-, outcome, hattempt, rfl⟩ := State.step_eq_some hstep
  simp only [hlabel, State.attempt, State.ownerStep, howner, hstop, assertThat, bind, Except.bind,
    if_true, pure, Except.pure, Option.some.injEq] at hattempt
  rw [← hcounts.eq_zero_iff, ← hattempt]
  by_cases hpos : 0 < (state.mains i).myRef
  · rw [if_pos hpos]
    simp only [State.settle, State.moveTo, State.setMain_mains, Function.update_self, reduceCtorEq,
      false_iff]
    omega
  · rw [if_neg hpos]
    simp only [State.settle, State.moveTo, State.setMain_mains, Function.update_self, true_iff]
    omega

/-- The destructor times out in its wait and ends before the scraper's `notify_all`. -/
def lateNotify : List Label :=
  List.replicate 7 (.owner 0) ++ [.decRef 0] ++ List.replicate 4 (.owner 0)

theorem destructor_waits_lateNotify :
    machine.Throughout (fun state ↦ ∀ t i, state.threads t = .working i →
        (state.mains i).owner.awaits = true) {} lateNotify ∧
      machine.EveryStep (fun state label next ↦ ∀ i, label = .owner i →
        (state.mains i).owner = .testing →
          ((next.mains i).owner = .unloading ↔ ∀ t, state.threads t ≠ .working i)) {} lateNotify :=
  destructor_waits (inRange_of_length_initial (by decide))

/-- No thread uses a destroyed `Main`, exactly if no destructor ends between the two steps of a
`decRef` on its `Main`. -/
theorem undangling_iff
    (hrange : machine.EveryStep (fun state _ _ ↦ state.InRange) {} labels) :
    machine.Throughout (fun state ↦ ∀ t, ¬ state.Dangling t) {} labels ↔
      machine.EveryStep State.AwaitsNotify {} labels := by
  have hknown := hrange.and (sound_and_referenced hrange).everyStep_before
  refine Machine.throughout_iff_everyStep (by simp [State.Dangling])
    (fun state (h : ∀ t, ¬ state.Dangling t) ↦ h) ?_ ?_ hknown
  · rintro state label next h ⟨-, hsound, href⟩ hguard hstep t hdangling
    have heffect := State.effect_of_step hsound hstep
    obtain hold | ⟨i, hlabel, hclosing, hthread⟩ := State.dangling_of_effect href heffect hdangling
    · exact h t hold
    · exact hguard i hlabel hclosing t hthread
  · rintro state label next - ⟨-, hsound, href⟩ hguard hstep hundangling
    apply hguard
    rintro i rfl hclosing t hthread
    obtain ⟨-, outcome, hattempt, rfl⟩ := State.step_eq_some hstep
    simp only [State.attempt, State.ownerStep, hclosing, Option.some.injEq] at hattempt
    refine hundangling t ⟨i, ?_, .inr ?_⟩
    · simp [← hattempt, State.settle, State.moveTo]
    · simpa [← hattempt, State.settle, State.moveTo] using hthread

theorem undangling_iff_lateNotify :
    ¬ machine.Throughout (fun state ↦ ∀ t, ¬ state.Dangling t) {} lateNotify := by
  rw [undangling_iff (inRange_of_length_initial (by decide))]
  intro h
  have hclosing : (machine.run {} (lateNotify.take 11)).map
      (fun state ↦ ((state.mains 0).owner, state.threads 0,
        (machine.step state (.owner 0)).isSome)) = some (.closing, .notifying 0, true) := by
    decide +kernel
  obtain ⟨state, hrun, hstate⟩ := Option.map_eq_some_iff.mp hclosing
  simp only [Prod.mk.injEq] at hstate
  obtain ⟨howner, hthread, hstep⟩ := hstate
  obtain ⟨next, hnext⟩ := Option.isSome_iff_exists.mp hstep
  exact h (lateNotify.take 11) (.owner 0) [] state next rfl hrun hnext 0 rfl howner 0 hthread

end Tgvisd.Lifetimes
