import Tgvisd.HistoryScraper.Messages
import Tgvisd.Lib.Pathname

/-!
# The names of stored files

`get_filename_ext` is written for a file name, and `resolveFile` hands it a whole path: it
yields the extension of the path taken as one component.
-/

namespace Tgvisd.HistoryScraper

open Pathname

/-! ## The extension -/

section

variable {char : Char} {text front back : List Char}

theorem strrchr_eq_none (h : char ∉ text) : strrchr char text = none := by
  induction text with
  | nil => rfl
  | cons first rest ih =>
    have hne : first ≠ char := fun heq ↦ h (heq ▸ List.mem_cons_self)
    simp only [strrchr, ih fun hmem ↦ h (List.mem_cons_of_mem _ hmem), if_neg hne]

theorem strrchr_append_cons (h : char ∉ back) :
    strrchr char (front ++ char :: back) = some front.length := by
  induction front with
  | nil => simp [strrchr, strrchr_eq_none h]
  | cons first front ih => simp [strrchr, ih]

end

theorem getFilenameExt_toList (filename : String) :
    (getFilenameExt filename).toList = extension filename.toList := by
  unfold getFilenameExt
  by_cases hdot : '.' ∈ filename.toList
  · obtain ⟨front, back, hsplit, hback⟩ := exists_last hdot
    rw [hsplit, strrchr_append_cons hback, extension_append_cons hback]
    cases front with
    | nil => rfl
    | cons first front => simp
  · rw [strrchr_eq_none hdot, extension_eq_nil hdot]
    rfl

/-! ## The name -/

theorem makeDigestEx_length (digest : List UInt8) :
    (makeDigestEx digest).toList.length = 2 * digest.length := by
  simp [makeDigestEx, mul_comm]

theorem mem_makeDigestEx {digest : List UInt8} {char : Char}
    (h : char ∈ (makeDigestEx digest).toList) : char ∈ hexits := by
  have hexit (position : ℕ) : hexits.getD position '0' ∈ hexits := by
    rw [List.getD_eq_getElem?_getD]
    cases hget : hexits[position]? with
    | none => decide
    | some exit => exact List.mem_of_getElem? hget
  simp only [makeDigestEx, String.toList_ofList, List.mem_flatMap, List.mem_cons, List.not_mem_nil,
    or_false] at h
  obtain ⟨byte, -, rfl | rfl⟩ := h
  · exact hexit _
  · exact hexit _

/-- The name behind the directory, before it is cut to the size of the buffer. -/
def nameInFiles (md5Dg sha1Dg fileExt : String) : List Char :=
  md5Dg.toList ++ '_' :: (sha1Dg.toList ++ '.' :: fileExt.toList)

theorem newFn_toList (md5Dg sha1Dg fileExt : String) :
    (newFn md5Dg sha1Dg fileExt).toList =
      "storage/files".toList ++ '/' :: (nameInFiles md5Dg sha1Dg fileExt).take 1009 := by
  simp [newFn, nameInFiles, String.toList_append]

/-- The file is stored in the directory itself, under a name without slashes. -/
theorem directChild_newFn {md5Buf sha1Buf : List UInt8} {ext : String}
    (hmd5 : md5Buf.length = 16) (hext : '/' ∉ ext.toList) :
    DirectChild "storage/files/".toList
      (newFn (makeDigestEx md5Buf) (makeDigestEx sha1Buf) ext).toList := by
  have hexit : '/' ∉ hexits := by decide
  rw [newFn_toList]
  apply directChild_append
  · intro hmem
    have hname := List.mem_of_mem_take hmem
    simp only [nameInFiles, List.mem_append, List.mem_cons] at hname
    obtain hname | hname | hname | hname | hname := hname
    · exact hexit (mem_makeDigestEx hname)
    · simp at hname
    · exact hexit (mem_makeDigestEx hname)
    · simp at hname
    · exact hext hname
  · simp only [List.length_take, nameInFiles, List.length_append, makeDigestEx_length, hmd5]
    omega

/-- The buffer of 1024 bytes holds the name if the extension has at most 935 of them. -/
theorem newFn_eq {md5Buf sha1Buf : List UInt8} {ext : String} (hmd5 : md5Buf.length = 16)
    (hsha1 : sha1Buf.length = 20) (hext : ext.toList.length ≤ 935) :
    newFn (makeDigestEx md5Buf) (makeDigestEx sha1Buf) ext =
      "storage/files/" ++ makeDigestEx md5Buf ++ "_" ++ makeDigestEx sha1Buf ++ "." ++ ext := by
  unfold newFn
  rw [List.take_of_length_le, String.ofList_toList]
  simp only [String.toList_append, List.length_append, makeDigestEx_length, hmd5, hsha1]
  simp
  omega

/-- The extension is that of the file's own name, and then the file is stored directly under
`storage/files` with a name that no directory of the path bears on, exactly when the last dot of
the path is in the file's name, but not first in it behind a directory; or when there is no dot
at all but for a first character of the path. -/
theorem storedName_lawful_iff (path : String) :
    ((getFilenameExt path).toList = extension (lastComponent path.toList) ∧
      '/' ∉ (getFilenameExt path).toList ∧
      ∀ md5Buf sha1Buf : List UInt8, md5Buf.length = 16 → sha1Buf.length = 20 →
        DirectChild "storage/files/".toList (newFn (makeDigestEx md5Buf) (makeDigestEx sha1Buf)
          (getFilenameExt path)).toList ∧
        newFn (makeDigestEx md5Buf) (makeDigestEx sha1Buf) (getFilenameExt path) =
          newFn (makeDigestEx md5Buf) (makeDigestEx sha1Buf)
            (String.ofList (extension (lastComponent path.toList)))) ↔
      '.' ∈ (lastComponent path.toList).tail ∨
      '.' ∉ lastComponent path.toList ∧ '.' ∉ (directory path.toList).tail ∨
      '.' ∈ lastComponent path.toList ∧
        (directory path.toList = [] ∨ lastComponent path.toList = ['.']) := by
  rw [← extension_path_iff, ← getFilenameExt_toList]
  constructor
  · rintro ⟨hext, -⟩
    exact hext
  · intro hext
    have hslash : '/' ∉ (getFilenameExt path).toList := by
      rw [hext]
      exact slash_notMem_extension slash_notMem_lastComponent
    refine ⟨hext, hslash, ?_⟩
    intro md5Buf sha1Buf hmd5 _
    refine ⟨directChild_newFn hmd5 hslash, ?_⟩
    rw [← hext, String.ofList_toList]

/-- A dot in the name of a directory, none in that of the file. -/
theorem storedName_directory :
    (getFilenameExt "/home/user/.tgvisd/files/README").toList ≠
      extension (lastComponent "/home/user/.tgvisd/files/README".toList) ∧
    '/' ∈ (getFilenameExt "/home/user/.tgvisd/files/README").toList ∧
    directory (newFn (makeDigestEx (List.replicate 16 0)) (makeDigestEx (List.replicate 20 0))
      (getFilenameExt "/home/user/.tgvisd/files/README")).toList ≠ "storage/files/".toList := by
  refine ⟨by decide, by decide, ?_⟩
  rw [newFn_toList, nameInFiles]
  decide +kernel

end Tgvisd.HistoryScraper
