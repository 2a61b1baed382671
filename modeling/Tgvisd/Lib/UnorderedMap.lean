import Mathlib.Data.List.AList

/-!
# Unordered maps

`std::unordered_map` as an association list without duplicate keys. `AList.insert` is
`insert_or_assign` (and assignment through `operator[]`), `AList.lookup` is `find`. What is added
here is `emplace`, which keeps the value that is already stored under a key.
-/

namespace Tgvisd

universe u v

abbrev UnorderedMap (Key : Type u) (Value : Type v) := AList fun _ : Key ↦ Value

namespace UnorderedMap

variable {Key : Type u} {Value : Type v} [DecidableEq Key]

/-- Insertion only takes place if the key is not there yet. -/
def emplace (key : Key) (value : Value) (map : UnorderedMap Key Value) : UnorderedMap Key Value :=
  if key ∈ map then map else map.insert key value

theorem emplace_of_mem {key : Key} {map : UnorderedMap Key Value} (value : Value)
    (h : key ∈ map) : emplace key value map = map := if_pos h

theorem emplace_of_notMem {key : Key} {map : UnorderedMap Key Value} (value : Value)
    (h : key ∉ map) : emplace key value map = map.insert key value := if_neg h

@[simp] theorem mem_emplace {key other : Key} {value : Value} {map : UnorderedMap Key Value} :
    other ∈ emplace key value map ↔ other = key ∨ other ∈ map := by
  by_cases h : key ∈ map
  · rw [emplace_of_mem value h]
    constructor
    · exact Or.inr
    · rintro (rfl | hother)
      · exact h
      · exact hother
  · rw [emplace_of_notMem value h, AList.mem_insert]

@[simp] theorem lookup_emplace_ne {key other : Key} {value : Value}
    {map : UnorderedMap Key Value} (hne : other ≠ key) :
    (emplace key value map).lookup other = map.lookup other := by
  unfold emplace
  split
  · rfl
  · exact AList.lookup_insert_ne hne

theorem lookup_emplace_of_notMem {key : Key} {value : Value} {map : UnorderedMap Key Value}
    (h : key ∉ map) : (emplace key value map).lookup key = some value := by
  rw [emplace_of_notMem value h, AList.lookup_insert]

/-- What is stored stays. -/
theorem lookup_emplace_of_eq_some {key other : Key} {value found : Value}
    {map : UnorderedMap Key Value} (h : map.lookup other = some found) :
    (emplace key value map).lookup other = some found := by
  by_cases hkey : other = key
  · subst hkey
    have hmem : other ∈ map := AList.lookup_isSome.mp (by rw [h]; rfl)
    rw [emplace_of_mem value hmem, h]
  · rw [lookup_emplace_ne hkey, h]

/-- What an emplaced map finds was there before, or is the new value under the new key. -/
theorem lookup_emplace_eq_some {key other : Key} {value found : Value}
    {map : UnorderedMap Key Value} (h : (emplace key value map).lookup other = some found) :
    map.lookup other = some found ∨ (key ∉ map ∧ other = key ∧ found = value) := by
  by_cases hmem : key ∈ map
  · rw [emplace_of_mem value hmem] at h
    exact Or.inl h
  · by_cases hkey : other = key
    · subst hkey
      rw [lookup_emplace_of_notMem hmem, Option.some.injEq] at h
      exact Or.inr ⟨hmem, rfl, h.symm⟩
    · rw [lookup_emplace_ne hkey] at h
      exact Or.inl h

end UnorderedMap

end Tgvisd
