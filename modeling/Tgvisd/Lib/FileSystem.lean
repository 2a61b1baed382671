import Mathlib.Logic.Function.Basic

/-!
# Files and their names

A directory entry refers to a node, which is a file with a content or a directory; the entries of
one file are its hard links. `rename` and `link` have the effects of the calls of these names on
files: two names of one file are left as they are by `rename`, and a name that exists is not
given again by `link`.
-/

namespace Tgvisd

inductive Node (Content : Type)
  | file (content : Content)
  | directory

structure FileSystem (Entry Inode Content : Type) where
  inodeAt : Entry → Option Inode
  node : Inode → Node Content

namespace FileSystem

variable {Entry Inode Content : Type}

/-- The entry is that of a file with the content. -/
def Holds (fs : FileSystem Entry Inode Content) (entry : Entry) (content : Content) : Prop :=
  ∃ inode, fs.inodeAt entry = some inode ∧ fs.node inode = .file content

def isDirectory (fs : FileSystem Entry Inode Content) (entry : Entry) : Bool :=
  match (fs.inodeAt entry).map fs.node with
  | some .directory => true
  | _ => false

/-- A call succeeds with its effect; it may always fail and then leaves everything as it is. -/
def Calls (fs : FileSystem Entry Inode Content) (effect : Option (FileSystem Entry Inode Content))
    (failed : Bool) (next : FileSystem Entry Inode Content) : Prop :=
  if failed then next = fs else effect = some next

theorem Holds.unique {fs : FileSystem Entry Inode Content} {entry : Entry}
    {content other : Content} (h : fs.Holds entry content) (hother : fs.Holds entry other) :
    content = other := by
  obtain ⟨inode, hinode, hnode⟩ := h
  obtain ⟨inode', hinode', hnode'⟩ := hother
  obtain rfl : inode = inode' := Option.some.inj (hinode.symm.trans hinode')
  exact Node.file.inj (hnode.symm.trans hnode')

theorem Holds.not_isDirectory {fs : FileSystem Entry Inode Content} {entry : Entry}
    {content : Content} (h : fs.Holds entry content) : fs.isDirectory entry = false := by
  obtain ⟨inode, hinode, hnode⟩ := h
  simp [isDirectory, hinode, hnode]

variable [DecidableEq Entry]

def refer (fs : FileSystem Entry Inode Content) (entry : Entry) (inode : Option Inode) :
    FileSystem Entry Inode Content :=
  { fs with inodeAt := Function.update fs.inodeAt entry inode }

/-- What the call leaves if it succeeds, and nothing if it must fail. -/
def link (fs : FileSystem Entry Inode Content) (old new : Entry) :
    Option (FileSystem Entry Inode Content) :=
  if fs.isDirectory old ∨ (fs.inodeAt new).isSome then none
  else (fs.inodeAt old).map fun inode ↦ fs.refer new (some inode)

@[inherit_doc link]
def rename [DecidableEq Inode] (fs : FileSystem Entry Inode Content) (old new : Entry) :
    Option (FileSystem Entry Inode Content) :=
  if fs.isDirectory old ∨ fs.isDirectory new then none
  else (fs.inodeAt old).map fun inode ↦
    if fs.inodeAt new = some inode then fs
    else (fs.refer new (some inode)).refer old none

section

variable {fs moved last : FileSystem Entry Inode Content} {old new entry full : Entry}
  {inode : Inode} {content : Content} {failed renameFailed linkFailed : Bool}

theorem inodeAt_refer_self (target : Option Inode) :
    (fs.refer entry target).inodeAt entry = target := by
  simp [refer]

theorem inodeAt_refer_of_ne (h : entry ≠ new) (target : Option Inode) :
    (fs.refer new target).inodeAt entry = fs.inodeAt entry := by
  simp [refer, h]

/-- A link over a name that exists changes nothing. -/
theorem calls_link_exists (hexists : fs.inodeAt new = some inode)
    (hcall : fs.Calls (fs.link old new) failed moved) : moved = fs := by
  cases failed with
  | true => exact hcall
  | false => simp [Calls, link, hexists] at hcall

theorem calls_link (hheld : fs.inodeAt old = some inode)
    (hcall : fs.Calls (fs.link old new) failed moved) :
    failed = true ∧ moved = fs ∨ failed = false ∧ moved = fs.refer new (some inode) := by
  cases failed with
  | true => exact .inl ⟨rfl, hcall⟩
  | false =>
    simp only [Calls, link, hheld, Bool.false_eq_true, if_false, Option.ite_none_left_eq_some,
      Option.map_some, Option.some_inj] at hcall
    exact .inr ⟨rfl, hcall.2.symm⟩

/-- A file that is renamed and linked back has both names; the other names are as before. -/
theorem holds_renamed_linked (hinode : fs.inodeAt old = some inode)
    (hnode : fs.node inode = .file content) :
    (((fs.refer new (some inode)).refer old none).refer old (some inode)).Holds full content ↔
      full = new ∨ fs.Holds full content := by
  by_cases hold : full = old
  · subst hold
    have hheld : fs.Holds full content := ⟨inode, hinode, hnode⟩
    simp only [hheld, or_true, iff_true]
    exact ⟨inode, inodeAt_refer_self _, hnode⟩
  · by_cases hnew : full = new
    · subst hnew
      simp only [true_or, iff_true]
      refine ⟨inode, ?_, hnode⟩
      rw [inodeAt_refer_of_ne hold, inodeAt_refer_of_ne hold, inodeAt_refer_self]
    · unfold Holds
      rw [inodeAt_refer_of_ne hold, inodeAt_refer_of_ne hold, inodeAt_refer_of_ne hnew]
      simp [hnew, refer]

theorem calls_link_absent (hheld : fs.Holds old content) (habsent : fs.inodeAt new = none) :
    fs.Calls (fs.link old new) false (fs.refer new (fs.inodeAt old)) := by
  have hfile := hheld.not_isDirectory
  obtain ⟨inode, hinode, hnode⟩ := hheld
  simp [Calls, link, hfile, hinode, habsent]

variable [DecidableEq Inode]

/-- A file that is renamed keeps its names if the new one is among them already, and else has the
new name for the old one. -/
theorem calls_rename (hheld : fs.inodeAt old = some inode)
    (hcall : fs.Calls (fs.rename old new) failed moved) :
    (failed = true ∨ fs.inodeAt new = some inode) ∧ moved = fs ∨
      failed = false ∧ fs.inodeAt new ≠ some inode ∧
        moved = (fs.refer new (some inode)).refer old none := by
  cases failed with
  | true => exact .inl ⟨.inl rfl, hcall⟩
  | false =>
    simp only [Calls, rename, hheld, Bool.false_eq_true, if_false, Option.ite_none_left_eq_some,
      Option.map_some, Option.some_inj] at hcall
    obtain ⟨-, hmoved⟩ := hcall
    by_cases hsame : fs.inodeAt new = some inode
    · rw [if_pos hsame] at hmoved
      exact .inl ⟨.inr hsame, hmoved.symm⟩
    · rw [if_neg hsame] at hmoved
      exact .inr ⟨rfl, hsame, hmoved.symm⟩

/-- A file may be given a name that does not exist. -/
theorem calls_rename_absent (hheld : fs.Holds old content) (habsent : fs.inodeAt new = none) :
    fs.Calls (fs.rename old new) false ((fs.refer new (fs.inodeAt old)).refer old none) := by
  have hdirectory : fs.isDirectory new = false := by simp [isDirectory, habsent]
  have hfile := hheld.not_isDirectory
  obtain ⟨inode, hinode, hnode⟩ := hheld
  simp [Calls, rename, hdirectory, hfile, hinode, habsent]

/-- A file is renamed and linked back. Its content is found under its old name and under a name
`full`, which may be the new one, if `full` had it before and the rename did nothing, or if both
calls did something and `full` is the new name or had the content before. -/
theorem rename_link_iff (hheld : fs.Holds old content)
    (hrename : fs.Calls (fs.rename old new) renameFailed moved)
    (hlink : moved.Calls (moved.link new old) linkFailed last) :
    last.Holds full content ∧ last.Holds old content ↔
      (renameFailed = true ∨ fs.inodeAt new = fs.inodeAt old) ∧ fs.Holds full content ∨
      renameFailed = false ∧ fs.inodeAt new ≠ fs.inodeAt old ∧ linkFailed = false ∧
        (full = new ∨ fs.Holds full content) := by
  have hheld' := hheld
  obtain ⟨inode, hinode, hnode⟩ := hheld
  rw [hinode]
  obtain ⟨hstays, rfl⟩ | ⟨hrenamed, hdiffers, rfl⟩ := calls_rename hinode hrename
  · obtain rfl := calls_link_exists hinode hlink
    have hnot : ¬ (renameFailed = false ∧ last.inodeAt new ≠ some inode) := by
      rintro ⟨hrenamed, hdiffers⟩
      simp [hrenamed, hdiffers] at hstays
    simp only [hheld', and_true, hstays, true_and]
    grind
  · have hne : new ≠ old := fun heq ↦ hdiffers (heq ▸ hinode)
    have hmoved : ((fs.refer new (some inode)).refer old none).inodeAt new = some inode := by
      rw [inodeAt_refer_of_ne hne, inodeAt_refer_self]
    obtain ⟨hlinkFailed, rfl⟩ | ⟨hlinked, rfl⟩ := calls_link hmoved hlink
    · have hlost : ¬ ((fs.refer new (some inode)).refer old none).Holds old content := by
        rintro ⟨other, hother, -⟩
        rw [inodeAt_refer_self] at hother
        simp at hother
      simp [hlost, hrenamed, hdiffers, hlinkFailed]
    · rw [holds_renamed_linked hinode hnode, holds_renamed_linked hinode hnode]
      simp [hheld', hrenamed, hdiffers, hlinked]

end

end FileSystem

end Tgvisd
