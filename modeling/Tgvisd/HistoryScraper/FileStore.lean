import Tgvisd.HistoryScraper.Digests
import Tgvisd.HistoryScraper.FileRows
import Tgvisd.HistoryScraper.WholeRuns

/-!
# The store of files

What runs of the scraper leave under `storage/files`, and what they leave open.
-/

namespace Tgvisd.HistoryScraper

open TdApi Scrape Procedure

/-! ## Contents under their digests -/

section

variable {Entry Inode : Type} {entry : String → Entry}

/-- The part of a name between the directory and the extension. -/
def digestsOf (name : String) : List Char := (name.toList.drop 14).take 73

theorem digestsOf_storedName_iff {path path' : String} {content content' : List UInt8} :
    digestsOf ((phpDisk entry).storedName path content) =
        digestsOf ((phpDisk entry).storedName path' content') ↔
      Md5.digest content = Md5.digest content' ∧ Sha1.digest content = Sha1.digest content' := by
  have hmd5 (content : List UInt8) := makeDigestEx_length (Md5.digest content)
  have hsha1 (content : List UInt8) := makeDigestEx_length (Sha1.digest content)
  simp only [Md5.length_digest] at hmd5
  simp only [Sha1.length_digest] at hsha1
  have hdigests (path : String) (content : List UInt8) :
      digestsOf ((phpDisk entry).storedName path content) =
        (makeDigestEx (Md5.digest content)).toList ++
          '_' :: (makeDigestEx (Sha1.digest content)).toList := by
    have hname := newFn_toList_digests (getFilenameExt path) (Md5.length_digest content)
      (Sha1.length_digest content)
    change ((newFn (makeDigestEx (Md5.digest content)) (makeDigestEx (Sha1.digest content))
      (getFilenameExt path)).toList.drop 14).take 73 = _
    rw [hname, List.drop_left' (by decide), ← List.cons_append, ← List.append_assoc,
      List.take_left' (by rw [List.length_append, List.length_cons, hmd5, hsha1])]
  rw [hdigests, hdigests]
  constructor
  · intro h
    obtain ⟨hfirst, hrest⟩ := List.append_inj h (by rw [hmd5, hmd5])
    exact ⟨makeDigestEx_inj (String.toList_inj.mp hfirst),
      makeDigestEx_inj (String.toList_inj.mp (List.cons.inj hrest).2)⟩
  · rintro ⟨hfirst, hsecond⟩
    rw [hfirst, hsecond]

/-- Names with different digests are names of different directory entries. -/
def Separates (entry : String → Entry) : Prop :=
  ∀ path content path' content',
    entry ((phpDisk entry).storedName path content) =
        entry ((phpDisk entry).storedName path' content') →
      digestsOf ((phpDisk entry).storedName path content) =
        digestsOf ((phpDisk entry).storedName path' content')

variable [DecidableEq Entry] [DecidableEq Inode]

/-- What is found under a name has the digests that the name is made of. -/
def ContentAddressed (entry : String → Entry) (fs : FileSystem Entry Inode (List UInt8)) : Prop :=
  ∀ path content held, fs.Holds (entry ((phpDisk entry).storedName path content)) held →
    Md5.digest held = Md5.digest content ∧ Sha1.digest held = Sha1.digest content

variable {fs moved next : FileSystem Entry Inode (List UInt8)} {path : String}
  {content : List UInt8} {failed : Bool}

/-- A file gets the name made of its own digests. -/
theorem ContentAddressed.rename (hentry : Separates entry) (h : ContentAddressed entry fs)
    (hholds : fs.Holds (entry path) content)
    (hrename : fs.Calls (fs.rename (entry path)
      (entry ((phpDisk entry).storedName path content))) failed moved) :
    ContentAddressed entry moved := by
  obtain ⟨inode, hinode, hnode⟩ := hholds
  obtain ⟨-, rfl⟩ | ⟨-, -, rfl⟩ := FileSystem.calls_rename hinode hrename
  · exact h
  · rintro path' content' held ⟨inode', hinode', hnode'⟩
    by_cases hold : entry ((phpDisk entry).storedName path' content') = entry path
    · rw [hold, FileSystem.inodeAt_refer_self] at hinode'
      simp at hinode'
    · rw [FileSystem.inodeAt_refer_of_ne hold] at hinode'
      by_cases hnew : entry ((phpDisk entry).storedName path' content') =
          entry ((phpDisk entry).storedName path content)
      · rw [hnew, FileSystem.inodeAt_refer_self] at hinode'
        obtain rfl := Option.some.inj hinode'
        obtain rfl : content = held := by
          have hsame := hnode.symm.trans hnode'
          simpa using hsame
        obtain ⟨hmd5, hsha1⟩ := digestsOf_storedName_iff.mp (hentry _ _ _ _ hnew)
        exact ⟨hmd5.symm, hsha1.symm⟩
      · rw [FileSystem.inodeAt_refer_of_ne hnew] at hinode'
        exact h path' content' held ⟨inode', hinode', hnode'⟩

omit [DecidableEq Inode] in
/-- The old path gets a content with the digests that it had before. -/
theorem ContentAddressed.link (hbefore : ContentAddressed entry fs)
    (hholds : fs.Holds (entry path) content) (h : ContentAddressed entry moved)
    (hlink : moved.Calls (moved.link (entry ((phpDisk entry).storedName path content))
      (entry path)) failed next) :
    ContentAddressed entry next := by
  cases hnew : moved.inodeAt (entry ((phpDisk entry).storedName path content)) with
  | none =>
    cases failed with
    | true =>
      rw [FileSystem.Calls, if_pos rfl] at hlink
      rwa [hlink]
    | false => simp [FileSystem.Calls, FileSystem.link, hnew] at hlink
  | some inode =>
    obtain ⟨-, rfl⟩ | ⟨-, rfl⟩ := FileSystem.calls_link hnew hlink
    · exact h
    · rintro path' content' held ⟨inode', hinode', hnode'⟩
      by_cases hold : entry ((phpDisk entry).storedName path' content') = entry path
      · rw [hold, FileSystem.inodeAt_refer_self] at hinode'
        obtain rfl := Option.some.inj hinode'
        obtain ⟨hmd5, hsha1⟩ := h path content held ⟨inode, hnew, hnode'⟩
        rw [← hold] at hholds
        obtain ⟨hmd5', hsha1'⟩ := hbefore path' content' content hholds
        exact ⟨hmd5.trans hmd5', hsha1.trans hsha1'⟩
      · rw [FileSystem.inodeAt_refer_of_ne hold] at hinode'
        exact h path' content' held ⟨inode', hinode', hnode'⟩

end

/-! ## A run with one file -/

/-- The answers to all but the requests that concern files. -/
def quietAnswer : (request : Request) → request.Answer
  | .sendQuerySync (.getUser userId) _ _ => some (.user { id := userId })
  | .sendQuerySync (.getChat chatId) _ _ => some (.chat { id := chatId, title := "" })
  | .sendQuerySync (.getChatEventLog _ _ 0 _) _ _ => some (.chatEvents deletedSticker)
  | .sendQuerySync (.getChatEventLog _ _ _ _) _ _ => none
  | .sendQuerySync (.downloadFile _ _ _ _ _) _ _ => some (.file emptyFile)
  | .sendQuerySync _ _ _ => some (.chats 0 [])
  | .sleep _ => ()
  | .getenv name => some name
  | .time => (0 : Int)
  | .connect _ _ _ _ _ => .ok ()
  | .prepare _ => .ok ()
  | .execute .selectLastInsertId _ => .ok (some { id := 1 })
  | .execute _ _ => .ok none
  | .md5File _ => some (Md5.digest [])
  | .sha1File _ => some (Sha1.digest [])
  | .rename _ _ => false
  | .link _ _ => false

abbrev Files := FileSystem String ℕ (List UInt8)

/-- A call takes effect if it can. -/
def called (fs : Files) : Option Files → Option (Bool × Files)
  | some next => some (false, next)
  | none => some (true, fs)

/-- The handles that `md5_file` and `sha1_file` have opened, and the rows of `gw_files` that the
server has accepted. -/
structure Usage where
  opened : ℕ
  rows : ℕ
  deriving DecidableEq, Repr

/-- `fopen` may fail at any time, and must fail if the process has all the handles that it may. -/
def Usage.Opens (limit : ℕ) (usage : Usage) (answer : Option (List UInt8)) (next : Usage) : Prop :=
  match answer with
  | some _ => usage.opened < limit ∧ next = { usage with opened := usage.opened + 1 }
  | none => next = usage

/-- No call of `fclose` is among the requests. -/
def RespondsWithin (limit : ℕ) : Environment Request.Answer Usage
  | usage, .md5File _, answer, next => usage.Opens limit answer next
  | usage, .sha1File _, answer, next => usage.Opens limit answer next
  | usage, .execute .insertFile _, answer, next =>
    match (answer : Except String (Option Row)) with
    | .ok _ => next = { usage with rows := usage.rows + 1 }
    | .error _ => next = usage
  | usage, _, _, next => next = usage

def Usage.Bounded (limit spare : ℕ) (usage : Usage) : Prop :=
  2 * usage.rows + spare ≤ usage.opened ∧ usage.opened ≤ limit

variable {limit spare : ℕ} {usage next : Usage}

theorem Usage.Bounded.weaken (h : usage.Bounded limit (spare + 1)) : usage.Bounded limit spare :=
  ⟨by have hrows := h.1; omega, h.2⟩

theorem Usage.Bounded.opens (h : usage.Bounded limit spare) (buf : List UInt8)
    (hopens : usage.Opens limit (some buf) next) : next.Bounded limit (spare + 1) := by
  obtain ⟨hlimit, rfl⟩ := hopens
  exact ⟨Nat.succ_le_succ h.1, hlimit⟩

theorem bystander_bounded :
    Bystander (RespondsWithin limit) (Usage.Bounded limit spare) := by
  intro usage request answer next hrequest hanswer h
  cases request with
  | md5File path => simp [storesFiles] at hrequest
  | sha1File path => simp [storesFiles] at hrequest
  | execute sql parameters =>
    cases sql with
    | insertFile => simp [storesFiles] at hrequest
    | _ =>
      obtain rfl : next = usage := hanswer
      exact h
  | _ =>
    obtain rfl : next = usage := hanswer
    exact h

/-- Both digests open a handle. -/
theorem maintains_resolveFile_bounded (file : File) :
    Maintains (RespondsWithin limit) (Usage.Bounded limit 0) (Worker.resolveFile file) := by
  apply (maintains_sendQuerySync bystander_bounded).bind
  rintro (_ | downloaded)
  · exact .pure _
  apply Maintains.ite (.pure _)
  intro worker usage h
  apply ensures_bind_iff.mpr
  apply ensures_perform
  intro md5Buf first hfirst
  cases (md5Buf : Option (List UInt8)) with
  | none =>
    obtain rfl : first = usage := hfirst
    exact ⟨h, h⟩
  | some md5Buf =>
    have hone := h.opens md5Buf hfirst
    refine ⟨hone.weaken, ?_⟩
    apply ensures_bind_iff.mpr
    apply ensures_perform
    intro sha1Buf second hsecond
    cases (sha1Buf : Option (List UInt8)) with
    | none =>
      obtain rfl : second = first := hsecond
      exact ⟨hone.weaken, hone.weaken⟩
    | some sha1Buf =>
      have htwo := hone.opens sha1Buf hsecond
      refine ⟨htwo.weaken.weaken, ?_⟩
      apply ensures_bind_iff.mpr
      apply ensures_perform
      rintro renameFailed _ rfl
      refine ⟨htwo.weaken.weaken, ?_⟩
      apply ensures_bind_iff.mpr
      apply ensures_perform
      rintro linkFailed _ rfl
      refine ⟨htwo.weaken.weaken, ?_⟩
      apply Worker.ensures_insertFile bystander_bounded bystander_bounded
        (fun _ hworld ↦ hworld.weaken.weaken) _ _ htwo
      intro usage parameters answer next hanswer hworld
      cases (answer : Except String (Option Row)) with
      | ok row =>
        obtain rfl : next = { usage with rows := usage.rows + 1 } := hanswer
        have hrows := hworld.1
        exact ⟨by simp only; omega, hworld.2⟩
      | error error =>
        obtain rfl : next = usage := hanswer
        exact hworld.weaken.weaken

/-- Wherever a run is stopped, and whatever it was answered: two handles have stayed open for every
row of `gw_files`, so that a process has no more than half as many rows as it may have handles. -/
theorem rows_le_of_visits (rounds : ℕ) (worker : Worker) {last : Usage}
    (hvisits : (Worker.run rounds).Visits (RespondsWithin limit) worker ⟨0, 0⟩ last) :
    2 * last.rows ≤ last.opened ∧ last.opened ≤ limit :=
  (Worker.maintains_run bystander_bounded maintains_resolveFile_bounded rounds).visits
    (⟨le_rfl, Nat.zero_le limit⟩ : Usage.Bounded limit 0 ⟨0, 0⟩) hvisits

/-- The answers of a process that opens files while it may. -/
def respondUsage (limit : ℕ) : Usage → (request : Request) → Option (request.Answer × Usage)
  | usage, .md5File _ => some (opening usage (Md5.digest []))
  | usage, .sha1File _ => some (opening usage (Sha1.digest []))
  | usage, .execute .insertFile _ => some (.ok none, { usage with rows := usage.rows + 1 })
  | usage, request => some (quietAnswer request, usage)
where
  opening (usage : Usage) (digest : List UInt8) : Option (List UInt8) × Usage :=
    if usage.opened < limit then (some digest, { usage with opened := usage.opened + 1 })
    else (none, usage)

theorem opens_opening (usage : Usage) (digest : List UInt8) :
    usage.Opens limit (respondUsage.opening limit usage digest).1
      (respondUsage.opening limit usage digest).2 := by
  unfold respondUsage.opening
  split
  · next hlimit => exact ⟨hlimit, rfl⟩
  · exact rfl

theorem respondsWithin_of_respondUsage (usage : Usage) (request : Request)
    (response : request.Answer × Usage) (h : respondUsage limit usage request = some response) :
    RespondsWithin limit usage request response.1 response.2 := by
  cases request with
  | md5File path =>
    obtain rfl := Option.some.inj h
    exact opens_opening _ _
  | sha1File path =>
    obtain rfl := Option.some.inj h
    exact opens_opening _ _
  | execute sql parameters =>
    cases sql <;>
    · obtain rfl := Option.some.inj h
      rfl
  | _ =>
    obtain rfl := Option.some.inj h
    rfl

/-- A row and its two handles. -/
theorem rows_le_of_visits_oneFile : ∃ last,
    (Worker.run 2).Visits (RespondsWithin 1024) {} ⟨0, 0⟩ last ∧ last.rows = 1 ∧
      2 * last.rows ≤ last.opened ∧ last.opened ≤ 1024 := by
  have hrows : ((Worker.run 2).runIn (respondUsage 1024) {} ⟨0, 0⟩).map
      (fun last ↦ last.2.rows) = some 1 := by decide +kernel
  obtain ⟨⟨ending, last⟩, hrun, hlast⟩ := Option.map_eq_some_iff.mp hrows
  have hvisits := (Procedure.ends_of_runIn respondsWithin_of_respondUsage hrun).visits
  exact ⟨last, hvisits, hlast, rows_le_of_visits 2 {} hvisits⟩

end Tgvisd.HistoryScraper
