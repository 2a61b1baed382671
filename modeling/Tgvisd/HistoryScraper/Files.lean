import Tgvisd.HistoryScraper.MessageRows
import Tgvisd.HistoryScraper.Tracking

/-!
# Files that are not resolved

`resolveFile` returns 0 when a file cannot be downloaded, found or hashed, and
`insertMsgDataFile` binds its result as the reference to `gw_files`. No row has the number 0.
-/

namespace Tgvisd.HistoryScraper

open TdApi Scrape

/-! ## Exchanges -/

/-- The statements that insert a file, or data with a file. -/
def insertsFile : Sql → Bool
  | .insertFile | .insertGroupMessageData => true
  | _ => false

/-- The steps of `resolveFile` that may fail, and the statement that takes its result. -/
def concernsFile : Request → Bool
  | .sendQuerySync (.downloadFile _ _ _ _ _) _ _ => true
  | .md5File _ | .sha1File _ => true
  | .execute sql _ => insertsFile sql
  | _ => false

def downloads : Exchange → Bool
  | ⟨.sendQuerySync (.downloadFile _ _ _ _ _) _ _, _⟩ => true
  | _ => false

/-- No file, a file without a local path, one that cannot be hashed, or a row that `gw_files` has
no room for. -/
def failsFile : Exchange → Bool
  | ⟨.sendQuerySync (.downloadFile _ _ _ _ _) _ _, answer⟩ =>
    match (answer : Option Object).bind Object.asFile with
    | some downloaded => downloaded.localPath = ""
    | none => true
  | ⟨.md5File _, answer⟩ => (answer : Option (List UInt8)).isNone
  | ⟨.sha1File _, answer⟩ => (answer : Option (List UInt8)).isNone
  | ⟨.execute .insertFile [.string tgFileId, .string tgUniqId, .bytes md5Sum, .bytes sha1Sum,
      .string ext, .uint size, .string _], _⟩ =>
    ¬ GwFile.Fits ⟨tgFileId, tgUniqId, md5Sum, sha1Sum, ext, size⟩
  | _ => false

/-- The row of data with a file that an exchange has inserted. -/
def fileRowOf : Exchange → Option (GwGroupMessageData UInt64 UInt64)
  | ⟨.execute .insertGroupMessageData [.uint msgId, .string text, textEntities, .uint file,
      .string isEdited, .string tgDate, .string _], answer⟩ =>
    if isError (answer : Except String (Option Row)) then none
    else do
      let textEntities ← nullable textEntities
      let isEdited ← enumFlag isEdited
      some ⟨msgId, text, textEntities, some file, isEdited, tgDate⟩
  | _ => none

def storesFileRow (exchange : Exchange) : Bool := (fileRowOf exchange).isSome

/-- A row of a file, or of data with a file, is refused. -/
def refusesFileRow : Exchange → Bool
  | ⟨.execute .insertFile _, answer⟩ => isError (answer : Except String (Option Row))
  | ⟨.execute .insertGroupMessageData _, answer⟩ => isError (answer : Except String (Option Row))
  | _ => false

/-- Every step of `resolveFile` succeeds, whenever it is called. -/
def FilesResolved (exchanges : List Exchange) : Prop :=
  ∀ exchange ∈ exchanges, failsFile exchange = false

instance (exchanges : List Exchange) : Decidable (FilesResolved exchanges) :=
  inferInstanceAs (Decidable (∀ exchange ∈ exchanges, _))

/-- A row of data with a file is accepted, and refers to a row of `gw_files`. -/
def StoresFileRow (db : Database) :
    (request : Request) → request.Answer → Database → Prop
  | .execute .insertGroupMessageData parameters, answer, next =>
    answer = .ok none ∧ ∃ number data fileId, parameters[0]? = some (.uint data.msgId) ∧
      parameters[3]? = some (.uint fileId) ∧ data.file = some fileId ∧
      fileId ∈ NumberedTable.numbers db.working.files ∧
      next.working.data = NumberedTable.insert number data db.working.data
  | _, _, _ => True

/-- The rows of data that refer to a file. -/
def Tables.fileRows (tables : Tables) : List (GwGroupMessageData UInt64 UInt64) :=
  (NumberedTable.rows tables.data).filter fun row ↦ row.file.isSome

/-- No exception: the rounds that a run is given may come to an end first. -/
def GoesOn (ending : Ending Worker Unit) : Prop :=
  (∃ after, ending = .returned () after) ∨ ending = .halted .cutOff

/-- Every file of a message that is processed gets its row of data, and every such row refers to
a row of `gw_files`. If nothing else fails, the run goes on to its end, and these rows are
committed. -/
structure FileRowsStored (setting : Setting) (db : Database) (exchanges : List Exchange)
    (ending : Ending Worker Unit) (last : Database) : Prop where
  complete : exchanges.countP downloads = exchanges.countP storesFileRow
  refers : Follows (fun db request answer next ↦
    Database.Responds setting db request answer next ∧ StoresFileRow db request answer next)
      db exchanges last
  goesOn : (∀ exchange ∈ exchanges, concernsFile exchange.1 = false → unlucky exchange = false) →
    GoesOn ending ∧
      last.committed.fileRows = db.committed.fileRows ++ exchanges.filterMap fileRowOf

/-- What is told of the exchanges of a run and of its ending. -/
structure HandlesFiles {Value : Type} (exchanges : List Exchange)
    (ending : Ending Worker Value) : Prop where
  complete : FilesResolved exchanges → exchanges.countP downloads = exchanges.countP storesFileRow
  accepted : FilesResolved exchanges → ∀ exchange ∈ exchanges, refusesFileRow exchange = false
  missing : ¬ FilesResolved exchanges →
    exchanges.countP downloads ≠ exchanges.countP storesFileRow
  raised : ¬ FilesResolved exchanges → ∃ error after, ending = .raised error after

section

variable {front back exchanges : List Exchange}

theorem filesResolved_append :
    FilesResolved (front ++ back) ↔ FilesResolved front ∧ FilesResolved back :=
  List.forall_mem_append

theorem filesResolved_cons {exchange : Exchange} :
    FilesResolved (exchange :: back) ↔ failsFile exchange = false ∧ FilesResolved back :=
  List.forall_mem_cons

/-- Requests that do not concern files. -/
theorem unconcerned {exchange : Exchange} (h : concernsFile exchange.1 = false) :
    downloads exchange = false ∧ failsFile exchange = false ∧ storesFileRow exchange = false ∧
      refusesFileRow exchange = false := by
  obtain ⟨request, answer⟩ := exchange
  cases request with
  | sendQuerySync function returnId timeout =>
    cases function <;> first | exact ⟨rfl, rfl, rfl, rfl⟩ | simp [concernsFile] at h
  | execute sql parameters =>
    cases sql <;> first | exact ⟨rfl, rfl, rfl, rfl⟩ | simp [concernsFile, insertsFile] at h
  | md5File path => simp [concernsFile] at h
  | sha1File path => simp [concernsFile] at h
  | _ => exact ⟨rfl, rfl, rfl, rfl⟩

variable {Value Next : Type}

theorem HandlesFiles.of_unconcerned {ending : Ending Worker Value}
    (h : ∀ exchange ∈ exchanges, concernsFile exchange.1 = false) :
    HandlesFiles exchanges ending := by
  have hresolved : FilesResolved exchanges :=
    fun exchange hmem ↦ (unconcerned (h exchange hmem)).2.1
  have hcount : exchanges.countP downloads = exchanges.countP storesFileRow := by
    apply List.countP_congr
    intro exchange hmem
    obtain ⟨hdownloads, -, hstores, -⟩ := unconcerned (h exchange hmem)
    rw [hdownloads, hstores]
  constructor
  · exact fun _ ↦ hcount
  · exact fun _ exchange hmem ↦ (unconcerned (h exchange hmem)).2.2.2
  · exact fun hnot ↦ absurd hresolved hnot
  · exact fun hnot ↦ absurd hresolved hnot

/-- A run that returns has resolved its files. -/
theorem HandlesFiles.resolved {value : Value} {after : Worker}
    (h : HandlesFiles exchanges (.returned value after)) : FilesResolved exchanges := by
  by_contra hnot
  obtain ⟨error, final, hending⟩ := h.raised hnot
  simp at hending

theorem HandlesFiles.append {value : Value} {middle : Worker} {ending : Ending Worker Next}
    (hfront : HandlesFiles front (.returned value middle)) (hback : HandlesFiles back ending) :
    HandlesFiles (front ++ back) ending := by
  have hresolved := hfront.resolved
  have hcount := hfront.complete hresolved
  have hiff : FilesResolved (front ++ back) ↔ FilesResolved back := by
    rw [filesResolved_append]
    exact and_iff_right hresolved
  constructor
  · intro hall
    rw [List.countP_append, List.countP_append, hcount, hback.complete (hiff.mp hall)]
  · intro hall
    rw [List.forall_mem_append]
    exact ⟨hfront.accepted hresolved, hback.accepted (hiff.mp hall)⟩
  · intro hnot
    have hmissing := hback.missing fun hall ↦ hnot (hiff.mpr hall)
    rw [List.countP_append, List.countP_append, hcount]
    omega
  · exact fun hnot ↦ hback.raised fun hall ↦ hnot (hiff.mpr hall)

end

/-! ## What does not concern files -/

section

variable {allowed : Request → Prop} {State Value : Type}

theorem asksOnly_orThrow (answer : Except String Value) :
    AsksOnly allowed (orThrow answer : Scrape State Value) := by
  cases answer with
  | ok value => exact .pure value
  | error error => exact .throw error

theorem asksOnly_prepare {sql : Sql} (h : allowed (.prepare sql)) :
    AsksOnly allowed (prepare sql : Scrape State Unit) :=
  (AsksOnly.perform h).bind fun _ ↦ asksOnly_orThrow _

theorem asksOnly_execute {sql : Sql} {parameters : List Parameter}
    (h : allowed (.execute sql parameters)) :
    AsksOnly allowed (execute sql parameters : Scrape State (Option Row)) :=
  (AsksOnly.perform h).bind fun _ ↦ asksOnly_orThrow _

theorem asksOnly_getDateNow (h : allowed .time) : AsksOnly allowed Worker.getDateNow :=
  (AsksOnly.perform h).bind fun _ ↦ .pure _

theorem asksOnly_lastInsertId (hprepare : allowed (.prepare .selectLastInsertId))
    (hexecute : allowed (.execute .selectLastInsertId [])) :
    AsksOnly allowed Worker.lastInsertId := by
  apply (asksOnly_prepare hprepare).bind
  intro _
  apply (asksOnly_execute hexecute).bind
  rintro (_ | row)
  · exact .pure _
  · exact .pure _

end

abbrev Fileless {State Value : Type} (procedure : Scrape State Value) : Prop :=
  AsksOnly (fun request ↦ concernsFile request = false) procedure

section

variable {State Value : Type}

theorem fileless_ask {request : Request} (h : concernsFile request = false) :
    Fileless (ask request : Scrape State request.Answer) :=
  AsksOnly.perform h

theorem fileless_prepare (sql : Sql) : Fileless (prepare sql : Scrape State Unit) :=
  asksOnly_prepare rfl

theorem fileless_execute {sql : Sql} (parameters : List Parameter)
    (hsql : insertsFile sql = false) :
    Fileless (execute sql parameters : Scrape State (Option Row)) :=
  asksOnly_execute hsql

theorem fileless_executeText {sql : Sql} (hsql : insertsFile sql = false) :
    Fileless (executeText sql : Scrape State Unit) :=
  (fileless_prepare sql).bind fun _ ↦ (fileless_execute _ hsql).bind fun _ ↦ .pure _

theorem fileless_sendQuerySync {cast : Object → Option Value} {function : Function}
    {returnId : ObjectId} {timeout : Int32}
    (h : concernsFile (.sendQuerySync function returnId timeout) = false) :
    Fileless (sendQuerySync cast function returnId timeout : Scrape State (Option Value)) := by
  apply (fileless_ask h).bind
  intro answer
  cases (answer : Option Object) with
  | some object => exact .pure _
  | none => exact .ite (.pure _) (.stop _)

theorem fileless_onlyIf {condition : Bool} {action : Scrape State Unit} (h : Fileless action) :
    Fileless (onlyIf condition action) := .ite h (.pure _)

end

namespace Worker

theorem fileless_get : Fileless (get : Scrape Worker Worker) := AsksOnly.get

theorem fileless_getDateNow : Fileless getDateNow := asksOnly_getDateNow rfl

/-- A query for a row. -/
theorem fileless_selectRow {sql : Sql} {parameters : List Parameter} {Value : Type}
    {found : Row → Value} {missing : Value} (hsql : insertsFile sql = false) :
    Fileless (do
      prepare sql
      match ← execute sql parameters with
      | some row => pure (found row)
      | none => pure missing : Scrape Worker Value) := by
  apply (fileless_prepare _).bind
  intro _
  apply (fileless_execute _ hsql).bind
  rintro (_ | row)
  · exact .pure _
  · exact .pure _

theorem fileless_lastInsertId : Fileless lastInsertId := asksOnly_lastInsertId rfl rfl

theorem fileless_insertRow {insert : Sql} {parameters : String → List Parameter}
    (hsql : insertsFile insert = false) : Fileless (insertRow insert parameters) := by
  apply (fileless_prepare _).bind
  intro _
  apply AsksOnly.bind
  · apply AsksOnly.tryCatch
    · exact fileless_getDateNow.bind fun _ ↦ (fileless_execute _ hsql).bind fun _ ↦ .pure _
    · exact fun _ ↦ .pure _
  · exact fun _ ↦ .ite fileless_lastInsertId (.pure _)

theorem fileless_resolveRow {Value : Type} {insert fetch : Scrape Worker UInt64}
    {keep : UInt64 → Scrape Worker Value} {asIs : Value} (hinsert : Fileless insert)
    (hfetch : Fileless fetch) (hkeep : ∀ number, Fileless (keep number)) :
    Fileless (resolveRow insert fetch keep asIs) :=
  hinsert.bind fun _ ↦ .ite (hkeep _) (hfetch.bind fun _ ↦ .ite (hkeep _) (.pure _))

theorem fileless_resolveUser (user : User) : Fileless (resolveUser user) := by
  apply fileless_get.bind
  intro worker
  split
  · exact .pure _
  · apply fileless_resolveRow (fileless_insertRow rfl) (fileless_selectRow rfl)
    exact fun _ ↦ fileless_get.bind fun _ ↦ (AsksOnly.set _).bind fun _ ↦ .pure _

theorem fileless_resolveGroup (chat : Chat) : Fileless (resolveGroup chat) := by
  apply fileless_get.bind
  intro worker
  split
  · exact .pure _
  · apply fileless_resolveRow (fileless_insertRow rfl) (fileless_selectRow rfl)
    exact fun _ ↦ fileless_get.bind fun _ ↦ (AsksOnly.set _).bind fun _ ↦ .pure _

theorem fileless_insertMsgDataText (dbMsgId : UInt64) (msg : Message) (text : FormattedText)
    (isEdited : Bool) : Fileless (insertMsgDataText dbMsgId msg text isEdited) :=
  (fileless_prepare _).bind fun _ ↦ fileless_getDateNow.bind fun _ ↦
    (fileless_execute _ rfl).bind fun _ ↦ .pure _

theorem fileless_executeForward (dbMsgId : UInt64) (fwd : MessageForwardInfo) (origType : String)
    (origId : Parameter) (origText : String) :
    Fileless (executeForward dbMsgId fwd origType origId origText) :=
  (fileless_execute _ rfl).bind fun _ ↦ .pure _

theorem fileless_saveForwardInfoIfAny (dbMsgId : UInt64) (msg : Message) :
    Fileless (saveForwardInfoIfAny dbMsgId msg) := by
  unfold saveForwardInfoIfAny
  cases msg.forwardInfo with
  | none => exact .pure _
  | some fwd =>
    dsimp only
    unfold saveForwardInfo
    cases fwd.origin with
    | messageForwardOriginChannel authorSignature =>
      exact (fileless_prepare _).bind fun _ ↦
        .tryCatch (fileless_executeForward _ _ _ _ _) fun _ ↦ .throw _
    | other => exact .pure _
    | _ => exact (fileless_prepare _).bind fun _ ↦ fileless_executeForward _ _ _ _ _

theorem fileless_updateMessage {sql : Sql} (dbMsgId dbGroupId : UInt64)
    (hsql : insertsFile sql = false) : Fileless (updateMessage sql dbMsgId dbGroupId) :=
  fileless_getDateNow.bind fun _ ↦ (fileless_prepare _).bind fun _ ↦
    (fileless_execute _ hsql).bind fun _ ↦ .pure _

theorem fileless_trackEventId (eventId : Int) : Fileless (trackEventId eventId) := by
  apply AsksOnly.tryCatch
  · exact (fileless_prepare _).bind fun _ ↦ (fileless_execute _ rfl).bind fun _ ↦ .pure _
  · exact fun _ ↦ .pure _

end Worker

/-! ## Resolving a file -/

section

variable {setting : Setting} {committed : Tables} {worker : Worker} {db last : Database}
  {store : Store} {exchanges : List Exchange}

section

variable {Value Next : Type} {ending : Ending Worker Next}

/-- On a server that does not fail for other reasons than the tables', a statement can be
prepared. -/
theorem runs_prepare_bind {sql : Sql} {next : Unit → Scrape Worker Next}
    (hreliable : setting.mayFail = false)
    (hrun : (prepare sql >>= next).Runs worker exchanges ending)
    (hfollows : Follows (Database.Responds setting) db exchanges last) :
    ∃ back, exchanges = ⟨.prepare sql, .ok ()⟩ :: back ∧ (next ()).Runs worker back ending ∧
      Follows (Database.Responds setting) db back last := by
  obtain ⟨answer, back, rfl, hback⟩ := Procedure.runs_perform_bind_iff.mp
    (bind_assoc (ask (.prepare sql)) orThrow next ▸ hrun)
  obtain ⟨middle, ⟨hanswer, hsame⟩, hbackFollows⟩ := follows_cons_iff.mp hfollows
  obtain rfl : middle = db := hsame
  obtain rfl : answer = .ok () := by simpa [hreliable] using hanswer
  exact ⟨back, rfl, hback, hbackFollows⟩

theorem runs_getDateNow_bind {next : String → Scrape Worker Next}
    (hrun : (Worker.getDateNow >>= next).Runs worker exchanges ending)
    (hfollows : Follows (Database.Responds setting) db exchanges last) :
    ∃ (epochNow : Int) (back : List Exchange), exchanges = ⟨.time, epochNow⟩ :: back ∧
      (next (getDateByUnixTM epochNow)).Runs worker back ending ∧
      Follows (Database.Responds setting) db back last := by
  obtain ⟨epochNow, back, rfl, hback⟩ := Procedure.runs_perform_bind_iff.mp
    (bind_assoc (ask .time) _ next ▸ hrun)
  obtain ⟨middle, hsame, hbackFollows⟩ := follows_cons_iff.mp hfollows
  obtain rfl : middle = db := hsame
  exact ⟨epochNow, back, rfl, hback, hbackFollows⟩

/-- The error of a statement is thrown. -/
theorem runs_execute_bind {sql : Sql} {parameters : List Parameter}
    {next : Option Row → Scrape Worker Next}
    (hrun : (execute sql parameters >>= next).Runs worker exchanges ending)
    (hfollows : Follows (Database.Responds setting) db exchanges last) :
    ∃ (answer : Except String (Option Row)) (middle : Database) (back : List Exchange),
      exchanges = ⟨.execute sql parameters, answer⟩ :: back ∧
      Database.Responds setting db (.execute sql parameters) answer middle ∧
      Follows (Database.Responds setting) middle back last ∧
      ((∃ row, answer = .ok row ∧ (next row).Runs worker back ending) ∨
        ∃ error, answer = .error error ∧ back = [] ∧ ending = .raised error worker) := by
  obtain ⟨answer, back, rfl, hback⟩ := Procedure.runs_perform_bind_iff.mp
    (bind_assoc (ask (.execute sql parameters)) orThrow next ▸ hrun)
  obtain ⟨middle, hanswer, hbackFollows⟩ := follows_cons_iff.mp hfollows
  refine ⟨answer, middle, back, rfl, hanswer, hbackFollows, ?_⟩
  cases (answer : Except String (Option Row)) with
  | ok row => exact .inl ⟨row, rfl, hback⟩
  | error error => exact .inr ⟨error, rfl, Procedure.runs_throw_bind_iff.mp hback⟩

end

/-- The number of the row that was inserted last. -/
theorem runs_lastInsertId {ending : Ending Worker UInt64} (hreliable : setting.mayFail = false)
    (hrun : Worker.lastInsertId.Runs worker exchanges ending)
    (hfollows : Follows (Database.Responds setting) db exchanges last) :
    exchanges = [⟨.prepare .selectLastInsertId, .ok ()⟩,
        ⟨.execute .selectLastInsertId [], .ok (some { id := db.lastInsertId })⟩] ∧
      ending = .returned db.lastInsertId worker ∧ last = db := by
  obtain ⟨rest, rfl, hrest, hafter⟩ := runs_prepare_bind hreliable hrun hfollows
  obtain ⟨answer, middle, back, rfl, hanswer, hlast, hback⟩ := runs_execute_bind hrest hafter
  obtain ⟨rfl, rfl⟩ | ⟨-, hsql, -⟩ := hanswer
  · obtain ⟨row, hrow, hback⟩ | ⟨error, herror, -⟩ := hback
    · obtain rfl := Except.ok.inj hrow
      obtain ⟨rfl, rfl⟩ := Procedure.runs_pure_iff.mp hback
      exact ⟨rfl, rfl, follows_nil_iff.mp hlast⟩
    · simp at herror
  · simp at hsql

/-- The row of a file that was downloaded and hashed. -/
def rowOf (file downloaded : File) (md5Buf sha1Buf : List UInt8) : GwFile :=
  ⟨file.remoteId, file.remoteUniqueId, md5Buf, sha1Buf, getFilenameExt downloaded.localPath,
    UInt64.ofInt downloaded.localDownloadedSize⟩

/-- The row is accepted if it fits. -/
theorem responds_insertFile (row : GwFile) {dateNow : String}
    {answer : Except String (Option Row)} {next : Database}
    (hresponds : Database.Responds setting db (.execute .insertFile [.string row.tgFileId,
      .string row.tgUniqId, .bytes row.md5Sum, .bytes row.sha1Sum, .string row.ext,
      .uint row.size, .string dateNow]) answer next) :
    (row.Fits → answer = .ok none ∧ next.lastInsertId ∈ NumberedTable.numbers next.working.files ∧
      next.working.messages = db.working.messages) ∧
    (¬ row.Fits → ∃ error, answer = .error error) := by
  obtain ⟨number, -, hresult⟩ | ⟨-, hsql, -⟩ := hresponds
  · simp only [Tables.apply, Tables.insertFile] at hresult
    by_cases hfits : row.Fits
    · rw [if_pos hfits] at hresult
      obtain ⟨rfl, rfl⟩ := hresult
      refine ⟨fun _ ↦ ⟨rfl, ?_, rfl⟩, fun hnot ↦ absurd hfits hnot⟩
      simp [Database.write, numbersItsRow, NumberedTable.numbers_insert]
    · rw [if_neg hfits] at hresult
      exact ⟨fun hfits' ↦ absurd hfits' hfits, fun _ ↦ hresult.1⟩
  · simp at hsql

/-- On a server that does not fail for other reasons than the tables', a file that was downloaded
and hashed gets its row if the row fits; otherwise the database error is thrown. -/
theorem resolves_storeFile {file downloaded : File} {md5Buf sha1Buf : List UInt8}
    {ending : Ending Worker UInt64} (hreliable : setting.mayFail = false)
    (hrun : (Worker.storeFile file downloaded md5Buf sha1Buf).Runs worker exchanges ending)
    (hfollows : Follows (Database.Responds setting) db exchanges last) :
    exchanges.countP downloads = 0 ∧ exchanges.countP storesFileRow = 0 ∧
    ((FilesResolved exchanges ∧ (∀ exchange ∈ exchanges, refusesFileRow exchange = false) ∧
        ∃ fileId, ending = .returned fileId worker ∧
          fileId ∈ NumberedTable.numbers last.working.files ∧
          last.working.messages = db.working.messages) ∨
      (¬ FilesResolved exchanges ∧ ∃ error, ending = .raised error worker)) := by
  obtain ⟨renamed, linking, rfl, hlinking⟩ := Procedure.runs_perform_bind_iff.mp hrun
  obtain ⟨next, hrenamed, hlinks⟩ := follows_cons_iff.mp hfollows
  obtain rfl : next = db := hrenamed
  obtain ⟨linked, inserting, rfl, hinserting⟩ := Procedure.runs_perform_bind_iff.mp hlinking
  obtain ⟨start, hlinked, hinserts⟩ := follows_cons_iff.mp hlinks
  obtain rfl : start = next := hlinked
  obtain ⟨epochNow, preparing, rfl, hpreparing, hprepares⟩ :=
    runs_getDateNow_bind (Procedure.runs_tryCatch_throw_iff.mp hinserting) hinserts
  obtain ⟨executing, rfl, hexecuting, hexecutes⟩ :=
    runs_prepare_bind hreliable hpreparing hprepares
  obtain ⟨answer, middle, back, rfl, hanswer, hasks, hback⟩ :=
    runs_execute_bind hexecuting hexecutes
  obtain ⟨hfits, hlong⟩ : _ ∧ _ :=
    responds_insertFile (rowOf file downloaded md5Buf sha1Buf) hanswer
  by_cases hrow : (rowOf file downloaded md5Buf sha1Buf).Fits
  · obtain ⟨rfl, hnumber, hmessages⟩ := hfits hrow
    obtain ⟨row, -, hreturns⟩ | ⟨error, herror, -⟩ := hback
    · obtain ⟨rfl, rfl, rfl⟩ := runs_lastInsertId hreliable hreturns hasks
      refine ⟨rfl, rfl, .inl ⟨?_, ?_, _, rfl, hnumber, hmessages⟩⟩
      · simpa [FilesResolved, failsFile, rowOf, paramUint] using hrow
      · simp [refusesFileRow, isError]
    · simp at herror
  · obtain ⟨error, rfl⟩ := hlong hrow
    obtain ⟨row, hrow, -⟩ | ⟨_, herror, rfl, rfl⟩ := hback
    · simp at hrow
    · refine ⟨rfl, rfl, .inr ⟨fun hall ↦ hrow ?_, _, rfl⟩⟩
      simpa [FilesResolved, failsFile, rowOf, paramUint] using hall

/-- The result of `downloadFile`. -/
theorem filePointer_eq (answer : Option Object) :
    (answer.bind (retVal .file)).bind Object.asFile = answer.bind Object.asFile := by
  cases answer with
  | none => rfl
  | some object => cases object <;> rfl

/-- A step before the row fails and the result is 0, or the file is stored. -/
inductive Resolves (setting : Setting) (file : File) (worker : Worker) (db : Database) :
    List Exchange → Ending Worker UInt64 → Database → Prop
  | fails {exchanges : List Exchange} (hfails : ¬ FilesResolved exchanges)
      (hdownloads : exchanges.countP downloads = 1)
      (hstores : exchanges.countP storesFileRow = 0) :
      Resolves setting file worker db exchanges (.returned 0 worker) db
  | stores {front back : List Exchange} {ending : Ending Worker UInt64} {last : Database}
      {downloaded : File} {md5Buf sha1Buf : List UInt8} (hresolved : FilesResolved front)
      (hdownloads : front.countP downloads = 1) (hstores : front.countP storesFileRow = 0)
      (haccepted : ∀ exchange ∈ front, refusesFileRow exchange = false)
      (hrun : (Worker.storeFile file downloaded md5Buf sha1Buf).Runs worker back ending)
      (hfollows : Follows (Database.Responds setting) db back last) :
      Resolves setting file worker db (front ++ back) ending last

/-- The exits of the function, one after the other. -/
theorem resolves_of_runs {file : File} {ending : Ending Worker UInt64}
    (hrun : (Worker.resolveFile file).Runs worker exchanges ending)
    (hfollows : Follows (Database.Responds setting) db exchanges last) :
    Resolves setting file worker db exchanges ending last := by
  obtain ⟨answer, rest, rfl, hrest⟩ := (runs_sendQuerySync_bind_iff (by decide)).mp hrun
  obtain ⟨next, hsame, hdownloaded⟩ := follows_cons_iff.mp hfollows
  obtain rfl : next = db := hsame
  rw [filePointer_eq] at hrest
  cases hfile : answer.bind Object.asFile with
  | none =>
    rw [hfile] at hrest
    obtain ⟨rfl, rfl⟩ := Procedure.runs_pure_iff.mp hrest
    obtain rfl := follows_nil_iff.mp hdownloaded
    refine .fails (fun hall ↦ ?_) rfl rfl
    have hfalse := (filesResolved_cons.mp hall).1
    simp [failsFile, hfile] at hfalse
  | some downloaded =>
    rw [hfile] at hrest
    dsimp only at hrest
    by_cases hpath : downloaded.localPath = ""
    · rw [if_pos hpath] at hrest
      obtain ⟨rfl, rfl⟩ := Procedure.runs_pure_iff.mp hrest
      obtain rfl := follows_nil_iff.mp hdownloaded
      refine .fails (fun hall ↦ ?_) rfl rfl
      have hfalse := (filesResolved_cons.mp hall).1
      simp [failsFile, hfile, hpath] at hfalse
    · rw [if_neg hpath] at hrest
      obtain ⟨md5Buf, back, rfl, hmd5⟩ := Procedure.runs_perform_bind_iff.mp hrest
      obtain ⟨after, hsame, hhashed⟩ := follows_cons_iff.mp hdownloaded
      obtain rfl : after = next := hsame
      cases md5Buf with
      | none =>
        obtain ⟨rfl, rfl⟩ := Procedure.runs_pure_iff.mp hmd5
        obtain rfl := follows_nil_iff.mp hhashed
        refine .fails (fun hall ↦ ?_) rfl rfl
        have hfalse := (filesResolved_cons.mp (filesResolved_cons.mp hall).2).1
        simp [failsFile] at hfalse
      | some md5Buf =>
        obtain ⟨sha1Buf, storing, rfl, hsha1⟩ := Procedure.runs_perform_bind_iff.mp hmd5
        obtain ⟨final, hsame, hstoring⟩ := follows_cons_iff.mp hhashed
        obtain rfl : final = after := hsame
        cases sha1Buf with
        | none =>
          obtain ⟨rfl, rfl⟩ := Procedure.runs_pure_iff.mp hsha1
          obtain rfl := follows_nil_iff.mp hstoring
          refine .fails (fun hall ↦ ?_) rfl rfl
          have htail := (filesResolved_cons.mp (filesResolved_cons.mp hall).2).2
          have hfalse := (filesResolved_cons.mp htail).1
          simp [failsFile] at hfalse
        | some sha1Buf =>
          change Resolves setting file worker final ([_, _, _] ++ storing) ending last
          apply Resolves.stores _ rfl rfl (by simp [refusesFileRow]) hsha1 hstoring
          simp [FilesResolved, failsFile, hfile, hpath]

/-- What `resolveFile` leaves: its result is the number of a row exactly if no step failed, and an
exception is thrown only where the row does not fit. -/
structure ResolvesFile (exchanges : List Exchange) (worker : Worker) (db : Database)
    (ending : Ending Worker UInt64) (last : Database) : Prop where
  downloads : exchanges.countP downloads = 1
  stores : exchanges.countP storesFileRow = 0
  outcome : (∃ fileId, ending = .returned fileId worker ∧
      (FilesResolved exchanges → ∀ exchange ∈ exchanges, refusesFileRow exchange = false) ∧
      (FilesResolved exchanges ↔ fileId ∈ NumberedTable.numbers last.working.files) ∧
      last.working.messages = db.working.messages) ∨
    (¬ FilesResolved exchanges ∧ ∃ error, ending = .raised error worker)

theorem resolvesFile_of_runs {file : File} {ending : Ending Worker UInt64}
    (hreliable : setting.mayFail = false) (h : Represents committed worker db store)
    (hrun : (Worker.resolveFile file).Runs worker exchanges ending)
    (hfollows : Follows (Database.Responds setting) db exchanges last) :
    ResolvesFile exchanges worker db ending last := by
  cases resolves_of_runs hrun hfollows with
  | fails hfails hdownloads hstores =>
    have hzero : (0 : UInt64) ∉ NumberedTable.numbers db.working.files :=
      fun hmem ↦ absurd (h.valid.files.pos 0 hmem) (by decide)
    refine ⟨hdownloads, hstores, .inl ⟨0, rfl, fun hall ↦ absurd hall hfails, ?_, rfl⟩⟩
    exact iff_of_false hfails hzero
  | stores hresolved hdownloads hstores haccepted hstoring hafter =>
    rename_i front back downloaded md5Buf sha1Buf
    obtain ⟨hnone, hkept, houtcome⟩ := resolves_storeFile hreliable hstoring hafter
    refine ⟨?_, ?_, ?_⟩
    · rw [List.countP_append, hdownloads, hnone]
    · rw [List.countP_append, hstores, hkept]
    · rw [filesResolved_append, List.forall_mem_append]
      obtain ⟨hback, hbackAccepted, fileId, rfl, hfile, hmessages⟩ | ⟨hback, error, rfl⟩ := houtcome
      · refine .inl ⟨fileId, rfl, fun _ ↦ ⟨haccepted, hbackAccepted⟩, ?_, hmessages⟩
        exact iff_of_true ⟨hresolved, hback⟩ hfile
      · exact .inr ⟨fun hall ↦ hback hall.2, error, rfl⟩

/-! ## The row of data -/

variable {dbMsgId fileId : UInt64} {msg : Message} {isEdited : Bool} {text : String}
  {textEntities : Parameter} {entities : Option String}

/-- The row is accepted if the file is stored, and refused otherwise. -/
theorem isError_insertGroupMessageData {tgDate dateNow : String}
    {answer : Except String (Option Row)} {next : Database}
    (hentities : nullable textEntities = some entities)
    (hmessage : dbMsgId ∈ NumberedTable.numbers db.working.messages)
    (hresponds : Database.Responds setting db (.execute .insertGroupMessageData [.uint dbMsgId,
      .string text, textEntities, .uint fileId, Worker.flag isEdited, .string tgDate,
      .string dateNow]) answer next) :
    isError answer = true ↔ fileId ∉ NumberedTable.numbers db.working.files := by
  obtain ⟨number, -, hresult⟩ | ⟨-, hsql, -⟩ := hresponds
  · rw [Tables.apply_insertGroupMessageData hentities] at hresult
    unfold Tables.insertGroupMessageData at hresult
    by_cases hfile : fileId ∈ NumberedTable.numbers db.working.files
    · rw [if_pos (by simp [hmessage, hfile])] at hresult
      rw [hresult.1]
      simp [isError, hfile]
    · rw [if_neg (by simp [hfile])] at hresult
      obtain ⟨⟨error, rfl⟩, -⟩ := hresult
      simp [isError, hfile]
  · simp at hsql

/-- The exchanges after `resolveFile`. -/
theorem runs_insertion {sql : Sql} {parameters : String → List Parameter} {next : Database}
    {ending : Ending Worker Unit} (hreliable : setting.mayFail = false)
    (hrun : (do
      prepare sql
      let dateNow ← Worker.getDateNow
      let _ ← execute sql (parameters dateNow)
      pure () : Scrape Worker Unit).Runs worker exchanges ending)
    (hfollows : Follows (Database.Responds setting) next exchanges last) :
    ∃ (epochNow : Int) (answer : Except String (Option Row)), exchanges =
        [⟨.prepare sql, .ok ()⟩, ⟨.time, epochNow⟩,
          ⟨.execute sql (parameters (getDateByUnixTM epochNow)), answer⟩] ∧
      ending = endingOf (answer.map fun _ ↦ ()) worker ∧
      Database.Responds setting next
        (.execute sql (parameters (getDateByUnixTM epochNow))) answer last := by
  obtain ⟨dating, rfl, hdating, hprepared⟩ := runs_prepare_bind hreliable hrun hfollows
  obtain ⟨epochNow, executing, rfl, hexecuting, hdated⟩ := runs_getDateNow_bind hdating hprepared
  obtain ⟨answer, middle, back, rfl, hanswer, hlast, hback⟩ :=
    runs_execute_bind hexecuting hdated
  obtain ⟨row, rfl, hback⟩ | ⟨error, rfl, rfl, rfl⟩ := hback
  · obtain ⟨rfl, rfl⟩ := Procedure.runs_pure_iff.mp hback
    obtain rfl := follows_nil_iff.mp hlast
    exact ⟨epochNow, .ok row, rfl, rfl, hanswer⟩
  · obtain rfl := follows_nil_iff.mp hlast
    exact ⟨epochNow, .error error, rfl, rfl, hanswer⟩

theorem storesFileRow_insertion {dateNow : String} {answer : Except String (Option Row)}
    (hentities : nullable textEntities = some entities) :
    storesFileRow ⟨.execute .insertGroupMessageData [.uint dbMsgId, .string text, textEntities,
      .uint fileId, Worker.flag isEdited, Worker.msgDate msg isEdited, .string dateNow], answer⟩ =
        !isError answer := by
  cases isEdited <;> cases answer <;>
    simp [storesFileRow, fileRowOf, isError, hentities, Worker.flag, Worker.msgDate, enumFlag]

/-- After the file: the insertion decides. -/
theorem handlesFiles_insertion {front : List Exchange} {ending : Ending Worker Unit}
    {next : Database} (hreliable : setting.mayFail = false)
    (hentities : nullable textEntities = some entities)
    (hmessage : dbMsgId ∈ NumberedTable.numbers next.working.messages)
    (hdownloads : front.countP downloads = 1) (hstores : front.countP storesFileRow = 0)
    (haccepted : FilesResolved front → ∀ exchange ∈ front, refusesFileRow exchange = false)
    (hfile : FilesResolved front ↔ fileId ∈ NumberedTable.numbers next.working.files)
    (hrun : (do
      prepare .insertGroupMessageData
      let dateNow ← Worker.getDateNow
      let _ ← execute .insertGroupMessageData [.uint dbMsgId, .string text, textEntities,
        .uint fileId, Worker.flag isEdited, Worker.msgDate msg isEdited, .string dateNow]
      pure () : Scrape Worker Unit).Runs worker exchanges ending)
    (hfollows : Follows (Database.Responds setting) next exchanges last) :
    HandlesFiles (front ++ exchanges) ending := by
  obtain ⟨epochNow, answer, rfl, rfl, hresponds⟩ := runs_insertion hreliable hrun hfollows
  have hiff := isError_insertGroupMessageData hentities hmessage hresponds
  have hresolved : FilesResolved (front ++ [⟨.prepare .insertGroupMessageData, .ok ()⟩,
      ⟨.time, epochNow⟩, ⟨.execute .insertGroupMessageData [.uint dbMsgId, .string text,
        textEntities, .uint fileId, Worker.flag isEdited, Worker.msgDate msg isEdited,
        .string (getDateByUnixTM epochNow)], answer⟩]) ↔ isError answer = false := by
    rw [filesResolved_append, hfile, ← Bool.not_eq_true, hiff, not_not]
    simp [FilesResolved, failsFile]
  have hothers : storesFileRow ⟨.prepare .insertGroupMessageData, .ok ()⟩ = false ∧
      storesFileRow ⟨.time, epochNow⟩ = false := ⟨rfl, rfl⟩
  constructor
  · intro hall
    have haccept := hresolved.mp hall
    simp [List.countP_append, hdownloads, hstores, downloads,
      storesFileRow_insertion hentities, haccept, hothers]
  · intro hall
    have haccept := hresolved.mp hall
    rw [List.forall_mem_append]
    exact ⟨haccepted (filesResolved_append.mp hall).1, by simp [refusesFileRow, haccept]⟩
  · intro hnot
    have hrefuse : isError answer = true := by simpa using fun h ↦ hnot (hresolved.mpr h)
    simp [List.countP_append, hdownloads, hstores, downloads,
      storesFileRow_insertion hentities, hrefuse, hothers]
  · intro hnot
    cases answer with
    | ok row => exact absurd (hresolved.mpr rfl) hnot
    | error error => exact ⟨error, worker, rfl⟩

end

end Tgvisd.HistoryScraper
