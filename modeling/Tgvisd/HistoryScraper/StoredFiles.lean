import Tgvisd.HistoryScraper.FileNames
import Tgvisd.HistoryScraper.Files
import Tgvisd.Lib.FileSystem

/-!
# Files on disk

`resolveFile` renames a downloaded file to its digests and links it back to its old path, and
inserts the row of the file whatever comes of the two calls.
-/

namespace Tgvisd.HistoryScraper

open TdApi Scrape

/-- What the names of files refer to, and the digests of their contents. -/
structure Disk (Entry Content : Type) where
  entry : String → Entry
  md5 : Content → List UInt8
  sha1 : Content → List UInt8

namespace Disk

variable {Entry Inode Content : Type} (disk : Disk Entry Content)

def md5Dg (content : Content) : String := makeDigestEx (disk.md5 content)

def sha1Dg (content : Content) : String := makeDigestEx (disk.sha1 content)

/-- `storage/files/<md5>_<sha1>.<ext>` -/
def fullName (path : String) (content : Content) : String :=
  "storage/files/" ++ disk.md5Dg content ++ "_" ++ disk.sha1Dg content ++ "." ++
    getFilenameExt path

/-- The name that `resolveFile` uses, which is cut to the size of its buffer. -/
def storedName (path : String) (content : Content) : String :=
  newFn (disk.md5Dg content) (disk.sha1Dg content) (getFilenameExt path)

theorem storedName_eq_fullName {path : String} {content : Content}
    (hmd5 : (disk.md5 content).length = 16) (hsha1 : (disk.sha1 content).length = 20)
    (hext : (getFilenameExt path).toList.length ≤ 935) :
    disk.storedName path content = disk.fullName path content :=
  newFn_eq hmd5 hsha1 hext

/-- A file that is hashed exists; reading it may fail. -/
def Hashes (digest : Content → List UInt8) (fs : FileSystem Entry Inode Content) (path : String)
    (answer : Option (List UInt8)) : Prop :=
  ∀ buf ∈ answer, ∃ content, fs.Holds (disk.entry path) content ∧ buf = digest content

theorem hashes_some (digest : Content → List UInt8) {fs : FileSystem Entry Inode Content}
    {path : String} {content : Content} (h : fs.Holds (disk.entry path) content) :
    disk.Hashes digest fs path (some (digest content)) :=
  fun _ hbuf ↦ ⟨content, h, (Option.some.inj hbuf).symm⟩

/-- The exchanges of a file from its first digest on, if it has the content. -/
def storing (path : String) (content : Content) (renameFailed linkFailed : Bool)
    (back : List Exchange) : List Exchange :=
  ⟨.md5File path, some (disk.md5 content)⟩ ::
  ⟨.sha1File path, some (disk.sha1 content)⟩ ::
  ⟨.rename path (disk.storedName path content), renameFailed⟩ ::
  ⟨.link (disk.storedName path content) path, linkFailed⟩ :: back

variable [DecidableEq Entry] [DecidableEq Inode]

/-- TDLib may do anything to the files while it answers a query. -/
def Responds : Environment Request.Answer (FileSystem Entry Inode Content)
  | _, .sendQuerySync _ _ _, _, _ => True
  | fs, .md5File path, answer, next => disk.Hashes disk.md5 fs path answer ∧ next = fs
  | fs, .sha1File path, answer, next => disk.Hashes disk.sha1 fs path answer ∧ next = fs
  | fs, .rename old new, failed, next =>
    fs.Calls (fs.rename (disk.entry old) (disk.entry new)) failed next
  | fs, .link old new, failed, next =>
    fs.Calls (fs.link (disk.entry old) (disk.entry new)) failed next
  | fs, _, _, next => next = fs

/-- A run downloads a file to `path` and then stores it: it hashes the content that the file has
in `hashed`, and goes on to `last`. -/
structure Stores (exchanges : List Exchange) (hashed last : FileSystem Entry Inode Content)
    (path : String) (content : Content) (renameFailed linkFailed : Bool) : Prop where
  run : ∃ function answer back,
    exchanges = ⟨.sendQuerySync function .file 30, answer⟩ ::
      disk.storing path content renameFailed linkFailed back ∧
    (answer.bind Object.asFile).map File.localPath = some path ∧
    Follows disk.Responds hashed (disk.storing path content renameFailed linkFailed back) last
  holds : hashed.Holds (disk.entry path) content

variable {disk} {exchanges : List Exchange} {hashed last : FileSystem Entry Inode Content}
  {path : String} {content : Content} {renameFailed linkFailed : Bool}

/-- The download may leave the files as they are. -/
theorem Stores.follows
    (h : disk.Stores exchanges hashed last path content renameFailed linkFailed) :
    Follows disk.Responds hashed exchanges last := by
  obtain ⟨function, answer, back, rfl, -, hfollows⟩ := h.run
  exact .cons trivial hfollows

end Disk

/-! ## The rest of the run -/

/-- Requests that leave the files as they are. -/
def leavesFiles : Request → Bool
  | .sendQuerySync _ _ _ | .rename _ _ | .link _ _ => false
  | _ => true

/-- The row of a file. -/
theorem asksOnly_insertFile {allowed : Request → Prop} (parameters : String → List Parameter)
    (htime : allowed .time)
    (hprepare : ∀ sql, allowed (.prepare sql))
    (hinsert : ∀ parameters, allowed (.execute .insertFile parameters))
    (hlast : allowed (.execute .selectLastInsertId [])) :
    AsksOnly allowed (tryCatch
      (do
        let dateNow ← Worker.getDateNow
        prepare .insertFile
        let _ ← execute .insertFile (parameters dateNow)
        Worker.lastInsertId) throw) := by
  apply AsksOnly.tryCatch
  · exact (asksOnly_getDateNow htime).bind fun _ ↦ (asksOnly_prepare (hprepare _)).bind fun _ ↦
      (asksOnly_execute (hinsert _)).bind fun _ ↦ asksOnly_lastInsertId (hprepare _) hlast
  · exact fun _ ↦ .throw _

section

variable {Entry Inode Content : Type} [DecidableEq Entry] [DecidableEq Inode]
  {disk : Disk Entry Content} {fs last : FileSystem Entry Inode Content}
  {exchanges : List Exchange}

theorem follows_leavesFiles (hleaves : ∀ exchange ∈ exchanges, leavesFiles exchange.1 = true)
    (hfollows : Follows disk.Responds fs exchanges last) : last = fs := by
  induction hfollows with
  | nil fs => rfl
  | @cons fs next last request answer exchanges hanswer _ ih =>
    obtain ⟨hrequest, hexchanges⟩ := List.forall_mem_cons.mp hleaves
    rw [ih hexchanges]
    cases request with
    | md5File path => exact hanswer.2
    | sha1File path => exact hanswer.2
    | sendQuerySync function returnId timeout => simp [leavesFiles] at hrequest
    | rename old new => simp [leavesFiles] at hrequest
    | link old new => simp [leavesFiles] at hrequest
    | _ => exact hanswer

/-! ## The run -/

/-- Before the file is stored, it was downloaded and hashed. -/
theorem runs_resolveFile {file : File} {worker after : Worker} {fileId : UInt64}
    (hrun : (Worker.resolveFile file).Runs worker exchanges (.returned fileId after))
    (hid : fileId ≠ 0) :
    ∃ function answer downloaded md5Buf sha1Buf back, exchanges =
      ⟨.sendQuerySync function .file 30, answer⟩ ::
      ⟨.md5File downloaded.localPath, some md5Buf⟩ ::
      ⟨.sha1File downloaded.localPath, some sha1Buf⟩ :: back ∧
      answer.bind Object.asFile = some downloaded ∧
      (Worker.storeFile file downloaded md5Buf sha1Buf).Runs worker back
        (.returned fileId after) := by
  have hzero {exchanges : List Exchange} :
      ¬ (pure 0 : Scrape Worker UInt64).Runs worker exchanges (.returned fileId after) := by
    intro hpure
    obtain ⟨-, hending⟩ := Procedure.runs_pure_iff.mp hpure
    simp [hid] at hending
  obtain ⟨answer, rest, rfl, hrest⟩ := (runs_sendQuerySync_bind_iff (by decide)).mp hrun
  rw [filePointer_eq] at hrest
  cases hfile : answer.bind Object.asFile with
  | none =>
    rw [hfile] at hrest
    exact absurd hrest hzero
  | some downloaded =>
    rw [hfile] at hrest
    dsimp only at hrest
    by_cases hpath : downloaded.localPath = ""
    · rw [if_pos hpath] at hrest
      exact absurd hrest hzero
    · rw [if_neg hpath] at hrest
      obtain ⟨md5Buf, rest, rfl, hmd5⟩ := Procedure.runs_perform_bind_iff.mp hrest
      cases md5Buf with
      | none => exact absurd hmd5 hzero
      | some md5Buf =>
        obtain ⟨sha1Buf, back, rfl, hsha1⟩ := Procedure.runs_perform_bind_iff.mp hmd5
        cases sha1Buf with
        | none => exact absurd hsha1 hzero
        | some sha1Buf => exact ⟨_, answer, downloaded, md5Buf, sha1Buf, back, rfl, hfile, hsha1⟩

omit [DecidableEq Entry] in
/-- The row of the file follows both calls, whatever comes of them. -/
theorem leavesFiles_of_stores {file : File} {worker after : Worker} {fileId : UInt64}
    {function : Function} {answer : Option Object} {path : String} {content : Content}
    {renameFailed linkFailed : Bool} {row : List Exchange}
    (hrun : (Worker.resolveFile file).Runs worker (⟨.sendQuerySync function .file 30, answer⟩ ::
      disk.storing path content renameFailed linkFailed row) (.returned fileId after))
    (hid : fileId ≠ 0) : ∀ exchange ∈ row, leavesFiles exchange.1 = true := by
  obtain ⟨_, _, downloaded, md5Buf, sha1Buf, back, hexchanges, -, hstore⟩ :=
    runs_resolveFile hrun hid
  obtain ⟨_, rest, rfl, hrenamed⟩ := Procedure.runs_perform_bind_iff.mp hstore
  obtain ⟨_, stored, rfl, hlinked⟩ := Procedure.runs_perform_bind_iff.mp hrenamed
  have hrow : row = stored := by
    have hhashed := (List.cons.inj (List.cons.inj hexchanges).2).2
    exact (List.cons.inj (List.cons.inj (List.cons.inj hhashed).2).2).2
  subst hrow
  exact @asksOnly_insertFile (fun request ↦ leavesFiles request = true) _ rfl (fun _ ↦ rfl)
    (fun _ ↦ rfl) rfl _ _ _ hlinked

theorem exists_stores {file : File} {worker after : Worker} {fileId : UInt64}
    (hrun : (Worker.resolveFile file).Runs worker exchanges (.returned fileId after))
    (hid : fileId ≠ 0) (hfollows : Follows disk.Responds fs exchanges last) :
    ∃ hashed path content renameFailed linkFailed,
      disk.Stores exchanges hashed last path content renameFailed linkFailed := by
  obtain ⟨function, answer, downloaded, md5Buf, sha1Buf, back, rfl, hfile, hstore⟩ :=
    runs_resolveFile hrun hid
  obtain ⟨renameFailed, rest, rfl, hrenamed⟩ := Procedure.runs_perform_bind_iff.mp hstore
  obtain ⟨linkFailed, row, rfl, -⟩ := Procedure.runs_perform_bind_iff.mp hrenamed
  obtain ⟨hashed, -, hfollowsStoring⟩ := follows_cons_iff.mp hfollows
  obtain ⟨same, ⟨hmd5, rfl⟩, hfollowsSha1⟩ := follows_cons_iff.mp hfollowsStoring
  obtain ⟨_, ⟨hsha1, rfl⟩, -⟩ := follows_cons_iff.mp hfollowsSha1
  obtain ⟨content, hholds, rfl⟩ := hmd5 md5Buf rfl
  obtain ⟨content', hholds', rfl⟩ := hsha1 sha1Buf rfl
  obtain rfl := hholds.unique hholds'
  refine ⟨_, downloaded.localPath, content, renameFailed, linkFailed, ?_, hholds⟩
  exact ⟨function, answer, row, rfl, by rw [hfile, Option.map_some], hfollowsStoring⟩

/-- When a file got its row, it was hashed and stored under the name made of its digests; and this
name and its old path both have the content that was hashed if and only if either the full name had
it before and `rename` failed or found two names of one file, or both calls took effect and the
full name is the one they were called with or had the content before. -/
theorem resolveFile_keeps_iff {file : File} {worker after : Worker} {fileId : UInt64}
    (hrun : (Worker.resolveFile file).Runs worker exchanges (.returned fileId after))
    (hid : fileId ≠ 0) (hfollows : Follows disk.Responds fs exchanges last) :
    (∃ hashed path content renameFailed linkFailed,
      disk.Stores exchanges hashed last path content renameFailed linkFailed) ∧
    ∀ hashed path content renameFailed linkFailed,
      disk.Stores exchanges hashed last path content renameFailed linkFailed →
      (last.Holds (disk.entry (disk.fullName path content)) content ∧
          last.Holds (disk.entry path) content ↔
        (renameFailed = true ∨ hashed.inodeAt (disk.entry (disk.storedName path content)) =
            hashed.inodeAt (disk.entry path)) ∧
          hashed.Holds (disk.entry (disk.fullName path content)) content ∨
        renameFailed = false ∧ hashed.inodeAt (disk.entry (disk.storedName path content)) ≠
            hashed.inodeAt (disk.entry path) ∧ linkFailed = false ∧
          (disk.entry (disk.fullName path content) = disk.entry (disk.storedName path content) ∨
            hashed.Holds (disk.entry (disk.fullName path content)) content)) := by
  refine ⟨exists_stores hrun hid hfollows, ?_⟩
  rintro hashed path content renameFailed linkFailed
    ⟨⟨function, answer, row, rfl, -, hstoring⟩, hholds⟩
  obtain ⟨_, ⟨-, rfl⟩, hfollowsSha1⟩ := follows_cons_iff.mp hstoring
  obtain ⟨_, ⟨-, rfl⟩, hfollowsRename⟩ := follows_cons_iff.mp hfollowsSha1
  obtain ⟨moved, hrename, hfollowsLink⟩ := follows_cons_iff.mp hfollowsRename
  obtain ⟨linked, hlink, hfollowsRow⟩ := follows_cons_iff.mp hfollowsLink
  obtain rfl := follows_leavesFiles (leavesFiles_of_stores hrun hid) hfollowsRow
  exact FileSystem.rename_link_iff hholds hrename hlink

end

/-! ## Runs with an empty file -/

def emptyDisk : Disk String Unit where
  entry := id
  md5 _ := [0xd4, 0x1d, 0x8c, 0xd9, 0x8f, 0x00, 0xb2, 0x04, 0xe9, 0x80, 0x09, 0x98, 0xec, 0xf8,
    0x42, 0x7e]
  sha1 _ := [0xda, 0x39, 0xa3, 0xee, 0x5e, 0x6b, 0x4b, 0x0d, 0x32, 0x55, 0xbf, 0xef, 0x95, 0x60,
    0x18, 0x90, 0xaf, 0xd8, 0x07, 0x09]

def emptyFile : File := { id := 1, localPath := "/data/documents/a.txt" }

def emptyFileName : String := emptyDisk.storedName emptyFile.localPath ()

def downloadedFiles : FileSystem String ℕ Unit where
  inodeAt path := if path = emptyFile.localPath then some 0 else none
  node _ := .file ()

def emptyRun (renameFailed linkFailed : Bool) : List Exchange :=
  ⟨.sendQuerySync (.downloadFile 1 32 0 0 true) .file 30, some (.file emptyFile)⟩ ::
  emptyDisk.storing emptyFile.localPath () renameFailed linkFailed
    [⟨.time, (0 : Int)⟩, ⟨.prepare .insertFile, .ok ()⟩,
      ⟨.execute .insertFile [.string "", .string "", .bytes (emptyDisk.md5 ()),
        .bytes (emptyDisk.sha1 ()), .string (getFilenameExt emptyFile.localPath), paramUint 0,
        .string (getDateByUnixTM 0)], .ok none⟩,
      ⟨.prepare .selectLastInsertId, .ok ()⟩,
      ⟨.execute .selectLastInsertId [], .ok (some { id := 1 })⟩]

theorem runs_emptyRun (renameFailed linkFailed : Bool) :
    (Worker.resolveFile { id := 1 }).Runs {} (emptyRun renameFailed linkFailed)
      (.returned 1 {}) :=
  .ask _ (.ask _ (.ask _ (.ask _ (.ask _ (.ask _ (.ask _ (.ask _ (.ask _ (.ask _ (.done _))))))))))

section

variable {renameFailed linkFailed : Bool} {moved last : FileSystem String ℕ Unit}

theorem holds_downloadedFiles : downloadedFiles.Holds emptyFile.localPath () := ⟨0, rfl, rfl⟩

theorem stores_emptyRun (hrename : downloadedFiles.Calls
      (downloadedFiles.rename emptyFile.localPath emptyFileName) renameFailed moved)
    (hlink : moved.Calls (moved.link emptyFileName emptyFile.localPath) linkFailed last) :
    emptyDisk.Stores (emptyRun renameFailed linkFailed) downloadedFiles last emptyFile.localPath ()
      renameFailed linkFailed := by
  have hmd5 := emptyDisk.hashes_some emptyDisk.md5 holds_downloadedFiles
  have hsha1 := emptyDisk.hashes_some emptyDisk.sha1 holds_downloadedFiles
  refine ⟨⟨_, _, _, rfl, rfl, ?_⟩, holds_downloadedFiles⟩
  exact .cons ⟨hmd5, rfl⟩ (.cons ⟨hsha1, rfl⟩ (.cons hrename (.cons hlink
    (.cons rfl (.cons rfl (.cons rfl (.cons rfl (.cons rfl (.nil last)))))))))

/-- One of them is an absolute path. -/
theorem emptyFileName_ne : emptyFileName ≠ emptyFile.localPath := by
  intro heq
  have hfirst := congrArg (fun path ↦ path.toList.head?) heq
  simp only [emptyFileName, Disk.storedName, newFn_toList] at hfirst
  exact absurd hfirst (by decide)

theorem inodeAt_emptyFileName : downloadedFiles.inodeAt emptyFileName = none := by
  simp [downloadedFiles, emptyFileName_ne]

/-- After the file got the name, which is free. -/
def movedFiles : FileSystem String ℕ Unit :=
  (downloadedFiles.refer emptyFileName (some 0)).refer emptyFile.localPath none

theorem rename_downloadedFiles : downloadedFiles.Calls
    (downloadedFiles.rename emptyFile.localPath emptyFileName) false movedFiles :=
  FileSystem.calls_rename_absent holds_downloadedFiles inodeAt_emptyFileName

theorem holds_movedFiles : movedFiles.Holds emptyFileName () := by
  refine ⟨0, ?_, rfl⟩
  rw [movedFiles, FileSystem.inodeAt_refer_of_ne emptyFileName_ne, FileSystem.inodeAt_refer_self]

theorem inodeAt_movedFiles : movedFiles.inodeAt emptyFile.localPath = none :=
  FileSystem.inodeAt_refer_self none

end

/-- Both calls take effect, and both names have the content. -/
theorem resolveFile_keeps_renamed : ∃ last : FileSystem String ℕ Unit,
    (∃ hashed path content renameFailed linkFailed,
      emptyDisk.Stores (emptyRun false false) hashed last path content renameFailed linkFailed) ∧
    last.Holds (emptyDisk.fullName emptyFile.localPath ()) () ∧
      last.Holds emptyFile.localPath () := by
  have hlinked := FileSystem.calls_link_absent holds_movedFiles inodeAt_movedFiles
  have hstores := stores_emptyRun rename_downloadedFiles hlinked
  obtain ⟨hexists, hkeeps⟩ :=
    resolveFile_keeps_iff (runs_emptyRun false false) (by decide) hstores.follows
  have hname : emptyDisk.fullName emptyFile.localPath () = emptyFileName :=
    (emptyDisk.storedName_eq_fullName rfl rfl (by decide)).symm
  refine ⟨_, hexists, (hkeeps _ _ _ _ _ hstores).mpr (.inr ⟨rfl, ?_, rfl, .inl hname⟩)⟩
  change downloadedFiles.inodeAt emptyFileName ≠ downloadedFiles.inodeAt emptyFile.localPath
  rw [inodeAt_emptyFileName]
  simp [downloadedFiles]

/-- The row is inserted after both calls failed, and after `link` did. -/
theorem not_kept_failed :
    ((Worker.resolveFile { id := 1 }).Runs {} (emptyRun true true) (.returned 1 {}) ∧
      emptyDisk.Stores (emptyRun true true) downloadedFiles downloadedFiles emptyFile.localPath ()
        true true ∧
      ¬ downloadedFiles.Holds (emptyDisk.fullName emptyFile.localPath ()) ()) ∧
    (Worker.resolveFile { id := 1 }).Runs {} (emptyRun false true) (.returned 1 {}) ∧
    ∃ last, emptyDisk.Stores (emptyRun false true) downloadedFiles last emptyFile.localPath ()
      false true ∧ ¬ last.Holds emptyFile.localPath () := by
  refine ⟨⟨runs_emptyRun true true, stores_emptyRun rfl rfl, ?_⟩, runs_emptyRun false true, _,
    stores_emptyRun rename_downloadedFiles rfl, ?_⟩
  · rintro ⟨inode, hinode, -⟩
    rw [← emptyDisk.storedName_eq_fullName rfl rfl (by decide)] at hinode
    have habsent := inodeAt_emptyFileName.symm.trans hinode
    simp at habsent
  · rintro ⟨inode, hinode, -⟩
    rw [inodeAt_movedFiles] at hinode
    simp at hinode

end Tgvisd.HistoryScraper
