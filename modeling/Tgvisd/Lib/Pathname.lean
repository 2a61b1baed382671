import Mathlib.Data.List.DropRight

/-!
# Pathnames

A pathname is the directory up to the last slash and the component behind it. The extension of a
component is the text behind its last dot, unless that dot is its first character.
-/

namespace Tgvisd

namespace Pathname

/-- The directory, with its slash. -/
def directory (path : List Char) : List Char := path.rdropWhile (· ≠ '/')

def lastComponent (path : List Char) : List Char := path.rtakeWhile (· ≠ '/')

def extension (component : List Char) : List Char :=
  if '.' ∈ component.tail then component.rtakeWhile (· ≠ '.') else []

/-- A name in the directory other than itself and its parent. -/
def DirectChild (parent path : List Char) : Prop :=
  directory path = parent ∧ lastComponent path ∉ [[], ['.'], ['.', '.']]

variable {path parent component front back : List Char}

theorem directory_append_lastComponent (path : List Char) :
    directory path ++ lastComponent path = path :=
  List.rdropWhile_append_rtakeWhile

theorem slash_notMem_lastComponent : '/' ∉ lastComponent path := by
  intro hmem
  simpa using List.mem_rtakeWhile_imp hmem

theorem directory_slash (path : List Char) (h : directory path ≠ []) :
    (directory path).getLast h = '/' := by
  have hlast := List.rdropWhile_last_not (fun c ↦ decide (c ≠ '/')) path h
  exact of_not_not fun hne ↦ hlast (decide_eq_true hne)

/-- The characters behind the last one of a kind. -/
theorem rtakeWhile_append_cons {char : Char} (h : char ∉ back) :
    (front ++ char :: back).rtakeWhile (· ≠ char) = back := by
  have hreverse : (front ++ char :: back).reverse = back.reverse ++ char :: front.reverse := by
    simp
  rw [List.rtakeWhile, hreverse, List.takeWhile_append_of_pos]
  · simp
  · intro c hmem
    exact decide_eq_true fun hc ↦ h (hc ▸ List.mem_reverse.mp hmem)

theorem rdropWhile_append_cons {char : Char} (h : char ∉ back) :
    (front ++ char :: back).rdropWhile (· ≠ char) = front ++ [char] := by
  have hsplit := List.rdropWhile_append_rtakeWhile (p := fun c ↦ decide (c ≠ char))
    (l := front ++ char :: back)
  rw [rtakeWhile_append_cons h] at hsplit
  exact List.append_cancel_right (hsplit.trans (by simp))

theorem directChild_append (hcomponent : '/' ∉ component) (hlength : 2 < component.length) :
    DirectChild (parent ++ ['/']) (parent ++ '/' :: component) := by
  constructor
  · exact rdropWhile_append_cons hcomponent
  · rw [lastComponent, rtakeWhile_append_cons hcomponent]
    intro hmem
    simp only [List.mem_cons, List.not_mem_nil, or_false] at hmem
    obtain rfl | rfl | rfl := hmem <;> simp at hlength

theorem exists_last {char : Char} {text : List Char} (h : char ∈ text) :
    ∃ front back, text = front ++ char :: back ∧ char ∉ back := by
  obtain ⟨back, front, hreverse, hback⟩ := List.eq_append_cons_of_mem (List.mem_reverse.mpr h)
  refine ⟨front.reverse, back.reverse, ?_, by simpa using hback⟩
  simpa using congrArg List.reverse hreverse

theorem extension_append_cons (h : '.' ∉ back) :
    extension (front ++ '.' :: back) = if front = [] then [] else back := by
  unfold extension
  rw [rtakeWhile_append_cons h]
  cases front with
  | nil => simp [h]
  | cons first front => simp

theorem extension_eq_nil (h : '.' ∉ component) : extension component = [] :=
  if_neg fun hmem ↦ h (List.mem_of_mem_tail hmem)

theorem slash_notMem_extension (h : '/' ∉ component) : '/' ∉ extension component := by
  unfold extension
  split_ifs
  · exact fun hmem ↦ h ((List.rtakeWhile_suffix _ _).subset hmem)
  · exact List.not_mem_nil

/-- The extension of a path taken as one component is that of its last component, when the last
dot is in the component, but not first behind a directory; or when there is none at all, but for
a first character of the path. -/
theorem extension_path_iff :
    extension path = extension (lastComponent path) ↔
      '.' ∈ (lastComponent path).tail ∨
      '.' ∉ lastComponent path ∧ '.' ∉ (directory path).tail ∨
      '.' ∈ lastComponent path ∧ (directory path = [] ∨ lastComponent path = ['.']) := by
  have hpath := directory_append_lastComponent path
  have hslash := directory_slash path
  generalize directory path = front at *
  generalize lastComponent path = component at *
  subst hpath
  by_cases hdot : '.' ∈ component
  · obtain ⟨first, rest, rfl, hrest⟩ := exists_last hdot
    rw [← List.append_assoc, extension_append_cons hrest, extension_append_cons hrest]
    cases first with
    | nil => cases front <;> cases rest <;> simp_all
    | cons char first => simp
  · rw [extension_eq_nil hdot]
    by_cases hfront : '.' ∈ front
    · obtain ⟨first, rest, rfl, hrest⟩ := exists_last hfront
      have hback : '.' ∉ rest ++ component := by simp [hrest, hdot]
      have hcomponent : rest ++ component ≠ [] := by
        intro hnil
        obtain ⟨rfl, rfl⟩ := List.append_eq_nil_iff.mp hnil
        simpa using hslash (by simp)
      rw [List.append_assoc, List.cons_append, extension_append_cons hback]
      have htail : '.' ∉ component.tail := fun hmem ↦ hdot (List.mem_of_mem_tail hmem)
      cases first with
      | nil => simp [hdot, hrest]
      | cons char first => simp [hdot, htail, hcomponent]
    · rw [extension_eq_nil (by simp [hfront, hdot])]
      have htail : '.' ∉ front.tail := fun hmem ↦ hfront (List.mem_of_mem_tail hmem)
      simp [hdot, htail]

end Pathname

end Tgvisd
