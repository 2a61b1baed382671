import Tgvisd.Ext.Md5
import Tgvisd.Ext.Sha1
import Tgvisd.HistoryScraper.StoredFiles

/-!
# The digests of files

`md5_file` and `sha1_file` read a file through a buffer, and `resolveFile` makes the file's name of
what they return. Two names are the same only if both digests are.
-/

namespace Tgvisd.HistoryScraper

/-! ## Hashing a file -/

/-- `md5_file`, on a stack where the context's buffer may contain anything. Without chunks, `fopen`
has failed. -/
def md5File (buffer : Block UInt8) : Option (List (List UInt8)) → Option (List UInt8)
  | none => none
  | some chunks => PhpMd5.digest buffer chunks

def sha1File (buffer : Block UInt8) : Option (List (List UInt8)) → Option (List UInt8)
  | none => none
  | some chunks => PhpSha1.digest buffer chunks

/-- Files are sequences of bytes, which have their MD5 and SHA-1. -/
def phpDisk {Entry : Type} (entry : String → Entry) : Disk Entry (List UInt8) where
  entry := entry
  md5 := Md5.digest
  sha1 := Sha1.digest

section

variable {Entry Inode : Type} {entry : String → Entry}
  {fs : FileSystem Entry Inode (List UInt8)} {path : String} {content : List UInt8}
  {buffer : Block UInt8}

end

/-! ## The digits of a digest -/

theorem hexits_inj {first second : ℕ} (hfirst : first < 16) (hsecond : second < 16)
    (h : hexits.getD first '0' = hexits.getD second '0') : first = second := by
  have hnodup : hexits.Nodup := by decide
  have hlength : hexits.length = 16 := by decide
  rw [List.getD_eq_getElem _ _ (by omega), List.getD_eq_getElem _ _ (by omega)] at h
  exact (hnodup.getElem_inj_iff).mp h

/-- By induction on one of the digests: two digits tell a byte. -/
theorem makeDigestEx_inj {first second : List UInt8}
    (h : makeDigestEx first = makeDigestEx second) : first = second := by
  have htoList := congrArg String.toList h
  simp only [makeDigestEx, String.toList_ofList] at htoList
  induction first generalizing second with
  | nil =>
    cases second with
    | nil => rfl
    | cons other others => simp at htoList
  | cons byte bytes ih =>
    cases second with
    | nil => simp at htoList
    | cons other others =>
      simp only [List.flatMap_cons, List.cons_append, List.nil_append, List.cons.injEq] at htoList
      obtain ⟨hhigh, hlow, hrest⟩ := htoList
      have hbyte := byte.toNat_lt
      have hother := other.toNat_lt
      have hquotient := hexits_inj (by omega) (by omega) hhigh
      have hremainder := hexits_inj (by omega) (by omega) hlow
      have heq : byte = other := UInt8.toNat_inj.mp (by omega)
      rw [heq, ih (by simp only [makeDigestEx, hrest]) hrest]

/-! ## The name of a file -/

theorem newFn_toList_digests {md5Buf sha1Buf : List UInt8} (ext : String)
    (hmd5 : md5Buf.length = 16) (hsha1 : sha1Buf.length = 20) :
    (newFn (makeDigestEx md5Buf) (makeDigestEx sha1Buf) ext).toList =
      "storage/files/".toList ++ ((makeDigestEx md5Buf).toList ++
        '_' :: ((makeDigestEx sha1Buf).toList ++ '.' :: ext.toList.take 935)) := by
  have hmd5Dg := makeDigestEx_length md5Buf
  have hsha1Dg := makeDigestEx_length sha1Buf
  have hslash : "storage/files/".toList = "storage/files".toList ++ ['/'] := by decide
  rw [newFn_toList, nameInFiles, hslash, List.append_assoc, List.singleton_append]
  rw [List.take_append, List.take_of_length_le (by omega), hmd5Dg, hmd5]
  rw [List.take_succ_cons, List.take_append, List.take_of_length_le (by omega), hsha1Dg, hsha1]
  rfl

/-- Names tell the digests, and the extension as far as it fits. -/
theorem newFn_eq_iff {md5Buf md5Buf' sha1Buf sha1Buf' : List UInt8} {ext ext' : String}
    (hmd5 : md5Buf.length = 16) (hmd5' : md5Buf'.length = 16) (hsha1 : sha1Buf.length = 20)
    (hsha1' : sha1Buf'.length = 20) :
    newFn (makeDigestEx md5Buf) (makeDigestEx sha1Buf) ext =
        newFn (makeDigestEx md5Buf') (makeDigestEx sha1Buf') ext' ↔
      md5Buf = md5Buf' ∧ sha1Buf = sha1Buf' ∧
        ext.toList.take 935 = ext'.toList.take 935 := by
  rw [← String.toList_inj, newFn_toList_digests ext hmd5 hsha1,
    newFn_toList_digests ext' hmd5' hsha1', List.append_cancel_left_eq]
  constructor
  · intro h
    obtain ⟨hfirst, hrest⟩ := List.append_inj h (by
      rw [makeDigestEx_length, makeDigestEx_length, hmd5, hmd5'])
    obtain ⟨hsecond, hlast⟩ := List.append_inj (List.cons.inj hrest).2 (by
      rw [makeDigestEx_length, makeDigestEx_length, hsha1, hsha1'])
    exact ⟨makeDigestEx_inj (String.toList_inj.mp hfirst),
      makeDigestEx_inj (String.toList_inj.mp hsecond), (List.cons.inj hlast).2⟩
  · rintro ⟨rfl, rfl, hext⟩
    rw [hext]

/-- Files share a name exactly if they share both digests and what fits of the extension. -/
theorem storedName_eq_iff {Entry : Type} (entry : String → Entry) (path path' : String)
    (content content' : List UInt8) :
    (phpDisk entry).storedName path content = (phpDisk entry).storedName path' content' ↔
      Md5.digest content = Md5.digest content' ∧ Sha1.digest content = Sha1.digest content' ∧
        (getFilenameExt path).toList.take 935 = (getFilenameExt path').toList.take 935 :=
  newFn_eq_iff (Md5.length_digest content) (Md5.length_digest content')
    (Sha1.length_digest content) (Sha1.length_digest content')

end Tgvisd.HistoryScraper
