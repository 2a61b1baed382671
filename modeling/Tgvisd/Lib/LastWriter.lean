import Tgvisd.Lib.UnorderedMap

/-!
# Caches of last writes

A cache that is filled by events, each of which writes at most one key, holds for every key the
value of the last event that wrote it. A cache whose keys are narrowed on the way in holds the
same as long as no two written keys are narrowed to one.
-/

namespace Tgvisd.LastWriter

universe u v w

variable {Event : Type u} {Key : Type v} {Value : Type w} [DecidableEq Key]

/-- What one event writes under a key. -/
def written (writes : Event → Option (Key × Value)) (event : Event) (key : Key) : Option Value :=
  match writes event with
  | some (writtenKey, value) => if writtenKey = key then some value else none
  | none => none

/-- The value of the last event that writes the key. -/
def latest (writes : Event → Option (Key × Value)) : List Event → Key → Option Value
  | [], _ => none
  | event :: events, key => (latest writes events key).or (written writes event key)

def insertWrite (writes : Event → Option (Key × Value)) (cache : UnorderedMap Key Value)
    (event : Event) : UnorderedMap Key Value :=
  match writes event with
  | some (key, value) => cache.insert key value
  | none => cache

variable {writes : Event → Option (Key × Value)}

theorem written_of_some {event : Event} {key : Key} {value : Value}
    (h : writes event = some (key, value)) : written writes event key = some value := by
  simp [written, h]

theorem written_eq_some {event : Event} {key : Key} {value : Value} :
    written writes event key = some value ↔ writes event = some (key, value) := by
  unfold written
  cases hwrites : writes event with
  | none => simp
  | some write =>
    obtain ⟨writtenKey, writtenValue⟩ := write
    by_cases hkey : writtenKey = key <;> simp [hkey]

theorem lookup_insertWrite (cache : UnorderedMap Key Value) (event : Event) (key : Key) :
    (insertWrite writes cache event).lookup key =
      (written writes event key).or (cache.lookup key) := by
  unfold insertWrite written
  cases hwrites : writes event with
  | none => rfl
  | some write =>
    obtain ⟨writtenKey, value⟩ := write
    by_cases hkey : writtenKey = key
    · subst hkey
      simp
    · simp [hkey, AList.lookup_insert_ne (Ne.symm hkey)]

/-- A cache that all events have been written to. -/
theorem lookup_foldl_insertWrite (cache : UnorderedMap Key Value) (events : List Event)
    (key : Key) : (events.foldl (insertWrite writes) cache).lookup key =
      (latest writes events key).or (cache.lookup key) := by
  induction events generalizing cache with
  | nil => rfl
  | cons event events ih =>
    rw [List.foldl_cons, ih, lookup_insertWrite, latest, Option.or_assoc]

theorem exists_of_latest {events : List Event} {key : Key} {value : Value}
    (h : latest writes events key = some value) :
    ∃ event ∈ events, writes event = some (key, value) := by
  induction events with
  | nil => simp [latest] at h
  | cons event events ih =>
    rcases Option.or_eq_some_iff.mp h with hlater | ⟨-, hnow⟩
    · obtain ⟨later, hmem, hwrites⟩ := ih hlater
      exact ⟨later, List.mem_cons_of_mem event hmem, hwrites⟩
    · exact ⟨event, List.mem_cons_self, written_eq_some.mp hnow⟩

theorem latest_isSome_of_mem {events : List Event} {event : Event} {key : Key} {value : Value}
    (hmem : event ∈ events) (hwrites : writes event = some (key, value)) :
    (latest writes events key).isSome = true := by
  induction events with
  | nil => simp at hmem
  | cons head events ih =>
    rw [latest, Option.isSome_or, Bool.or_eq_true]
    rcases List.mem_cons.mp hmem with rfl | htail
    · right
      rw [written_of_some hwrites]
      rfl
    · exact Or.inl (ih htail)

/-! ## Narrowed keys -/

section Narrow

variable {Narrowed : Type v} [DecidableEq Narrowed] (narrow : Key → Narrowed)

/-- The writes of a cache that narrows the keys. -/
def narrowed (writes : Event → Option (Key × Value)) (event : Event) : Option (Narrowed × Value) :=
  (writes event).map fun write ↦ (narrow write.1, write.2)

/-- No two keys that the events write are narrowed to one. -/
def NarrowsApart (writes : Event → Option (Key × Value)) (events : List Event) : Prop :=
  ∀ first ∈ events, ∀ second ∈ events, ∀ firstKey firstValue secondKey secondValue,
    writes first = some (firstKey, firstValue) → writes second = some (secondKey, secondValue) →
      narrow firstKey = narrow secondKey → firstKey = secondKey

variable {narrow}

theorem latest_narrowed_of_apart {events : List Event} {key : Key} {value : Value}
    (hapart : NarrowsApart narrow writes events) (h : latest writes events key = some value) :
    latest (narrowed narrow writes) events (narrow key) = some value := by
  obtain ⟨source, hsource, hsourceWrites⟩ := exists_of_latest h
  -- the key is written by `source`, so that only writes of the key itself are narrowed to it
  have hsame (event : Event) (hmem : event ∈ events) :
      written (narrowed narrow writes) event (narrow key) = written writes event key := by
    unfold written narrowed
    cases hwrites : writes event with
    | none => rfl
    | some write =>
      obtain ⟨writtenKey, writtenValue⟩ := write
      by_cases hkey : writtenKey = key
      · simp [hkey]
      · have hne : narrow writtenKey ≠ narrow key := by
          intro heq
          exact hkey (hapart event hmem source hsource _ _ _ _ hwrites hsourceWrites heq)
        simp [hkey, hne]
  have hlatest (rest : List Event) (hsub : ∀ event ∈ rest, event ∈ events) :
      latest (narrowed narrow writes) rest (narrow key) = latest writes rest key := by
    induction rest with
    | nil => rfl
    | cons event rest ih =>
      rw [latest, latest, ih fun later hmem ↦ hsub later (List.mem_cons_of_mem event hmem),
        hsame event (hsub event List.mem_cons_self)]
  exact (hlatest events fun _ hmem ↦ hmem).trans h

end Narrow

end Tgvisd.LastWriter
