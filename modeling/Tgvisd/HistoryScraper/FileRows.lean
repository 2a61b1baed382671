import Tgvisd.HistoryScraper.Files

/-!
# Rows of data with files

A run in which every file is resolved stores a row of data for each of them, and commits it with
its event. Where a file is not resolved, the insertion of its row throws.
-/

namespace Tgvisd.HistoryScraper

open TdApi Scrape

section

variable {setting : Setting} {committed : Tables} {worker : Worker} {db last : Database}
  {store : Store} {exchanges : List Exchange} {dbMsgId fileId : UInt64} {msg : Message}
  {isEdited : Bool} {text : String} {textEntities : Parameter} {entities : Option String}

/-! ## Runs of the scraper -/

/-- Every run from here on tells by its exchanges and its ending how it fared with its files. -/
def Handles (setting : Setting) {Value : Type} (procedure : Scrape Worker Value)
    (worker : Worker) (db : Database) : Prop :=
  ∀ exchanges ending last, procedure.Runs worker exchanges ending →
    Follows (Database.Responds setting) db exchanges last → HandlesFiles exchanges ending

theorem handles_of_fileless {Value : Type} {procedure : Scrape Worker Value}
    (h : Fileless procedure) : Handles setting procedure worker db :=
  fun _ _ _ hrun _ ↦ .of_unconcerned (h _ _ _ hrun)

theorem HandlesFiles.raised_congr {Value Next : Type} {error : String} {after : Worker}
    (h : HandlesFiles exchanges (.raised error after : Ending Worker Value)) :
    HandlesFiles exchanges (.raised error after : Ending Worker Next) :=
  ⟨h.complete, h.accepted, h.missing, fun _ ↦ ⟨error, after, rfl⟩⟩

theorem HandlesFiles.halted_congr {Value Next : Type} {reason : Halt}
    (h : HandlesFiles exchanges (.halted reason : Ending Worker Value)) :
    HandlesFiles exchanges (.halted reason : Ending Worker Next) := by
  refine ⟨h.complete, h.accepted, h.missing, fun hnot ↦ ?_⟩
  obtain ⟨error, after, hending⟩ := h.raised hnot
  simp at hending

/-- What comes next starts where the first part may return. -/
theorem handles_bind {Value Next : Type} {always : Database → Prop}
    {procedure : Scrape Worker Value} {next : Value → Scrape Worker Next}
    (h : Handles setting procedure worker db)
    (hkeeps : Keeps setting always procedure worker db fun value after middle ↦
      Handles setting (next value) after middle) :
    Handles setting (procedure >>= next) worker db := by
  intro exchanges ending last hrun hfollows
  obtain ⟨reason, hfirst, rfl⟩ | ⟨error, after, hfirst, rfl⟩ |
    ⟨front, back, value, middle, rfl, hfront, hback⟩ := Procedure.runs_bind_iff.mp hrun
  · exact (h _ _ _ hfirst hfollows).halted_congr
  · exact (h _ _ _ hfirst hfollows).raised_congr
  · obtain ⟨between, hbefore, hafter⟩ := follows_append_iff.mp hfollows
    have hnext := Procedure.Ensures.ends hkeeps (hfront.ends hbefore)
    exact (h _ _ _ hfront hbefore).append (hnext _ _ _ hback hafter)

theorem handles_bind_of_forall {Value Next : Type} {procedure : Scrape Worker Value}
    {next : Value → Scrape Worker Next} (h : Handles setting procedure worker db)
    (hnext : ∀ value after middle, Handles setting (next value) after middle) :
    Handles setting (procedure >>= next) worker db := by
  have hkeeps : Keeps setting (fun _ ↦ True) procedure worker db fun value after middle ↦
      Handles setting (next value) after middle := by
    apply Interaction.ensures_of_forall
    · exact fun _ _ ↦ trivial
    · rintro (reason | ⟨error | value, after⟩) last hends
      · trivial
      · trivial
      · exact hnext value after last
  exact handles_bind h hkeeps

/-- A null pointer is dereferenced. -/
theorem handles_dereference_none {Value Next : Type} {next : Value → Scrape Worker Next} :
    Handles setting (dereference none >>= next) worker db := by
  intro exchanges ending last hrun _
  obtain ⟨rfl, rfl⟩ := Procedure.runs_stop_bind_iff.mp hrun
  exact .of_unconcerned (by simp)

theorem handles_dereference_some {Value Next : Type} {value : Value}
    {next : Value → Scrape Worker Next} (h : Handles setting (next value) worker db) :
    Handles setting (dereference (some value) >>= next) worker db := h

theorem handles_onlyIf {condition : Bool} {action : Scrape Worker Unit}
    (h : condition = true → Handles setting action worker db) :
    Handles setting (onlyIf condition action) worker db := by
  cases condition with
  | true => exact h rfl
  | false => exact handles_of_fileless (.pure _)

namespace Worker

theorem handles_insertMsgDataFile {file : File} (hreliable : setting.mayFail = false)
    (hentities : nullable textEntities = some entities)
    (h : Represents committed worker db store)
    (hmessage : dbMsgId ∈ NumberedTable.numbers db.working.messages) :
    Handles setting (insertMsgDataFile dbMsgId msg text textEntities file isEdited) worker db := by
  intro exchanges ending last hrun hfollows
  obtain ⟨reason, hfirst, rfl⟩ | ⟨error, after, hfirst, rfl⟩ |
    ⟨front, back, fileId, middle, rfl, hfront, hback⟩ := Procedure.runs_bind_iff.mp hrun
  · obtain ⟨-, -, ⟨fileId, hending, -⟩ | ⟨-, error, hending⟩⟩ :=
      resolvesFile_of_runs hreliable h hfirst hfollows
    · simp at hending
    · simp at hending
  · obtain ⟨hdownloads, hstores, ⟨fileId, hending, -⟩ | ⟨hnot, -⟩⟩ :=
      resolvesFile_of_runs hreliable h hfirst hfollows
    · simp at hending
    · refine ⟨fun hall ↦ absurd hall hnot, fun hall ↦ absurd hall hnot, fun _ ↦ ?_,
        fun _ ↦ ⟨error, after, rfl⟩⟩
      rw [hdownloads, hstores]
      decide
  · obtain ⟨between, hbefore, hafter⟩ := follows_append_iff.mp hfollows
    obtain ⟨hdownloads, hstores, ⟨found, hending, haccepted, hfile, hmessages⟩ |
      ⟨-, error, hending⟩⟩ := resolvesFile_of_runs hreliable h hfront hbefore
    · obtain ⟨rfl, rfl⟩ := Procedure.Ending.returned.inj hending
      apply handlesFiles_insertion hreliable hentities _ hdownloads hstores haccepted hfile hback
        hafter
      rw [hmessages]
      exact hmessage
    · simp at hending

/-- The cases are the kinds of content. -/
theorem handles_insertMsgData (hreliable : setting.mayFail = false)
    (h : Represents committed worker db store)
    (hmessage : dbMsgId ∈ NumberedTable.numbers db.working.messages) :
    Handles setting (insertMsgData dbMsgId msg isEdited) worker db := by
  unfold insertMsgData
  cases msg.content with
  | messageText text => exact handles_of_fileless (fileless_insertMsgDataText _ _ _ _)
  | messagePhoto sizes caption =>
    dsimp only [insertMsgDataPhoto]
    cases takenFile sizes with
    | none => exact handles_of_fileless (.pure _)
    | some file =>
      exact handles_insertMsgDataFile hreliable (Tables.nullable_textEntities caption) h hmessage
  | messageSticker sticker emoji => exact handles_insertMsgDataFile hreliable rfl h hmessage
  | messageVideo file caption | messageAnimation file caption | messageDocument file caption
    | messageAudio file caption =>
    exact handles_insertMsgDataFile hreliable (Tables.nullable_textEntities caption) h hmessage
  | messageChatJoinByLink | other => exact handles_of_fileless (.pure _)

variable {user : User} {chat : Chat} {dbUserId dbGroupId : UInt64} {type : String}

theorem handles_insertMessage (hreliable : setting.mayFail = false)
    (h : Represents committed worker db store) :
    Handles setting (insertMessage msg type dbUserId dbGroupId isEdited false) worker db := by
  apply handles_bind (handles_of_fileless fileless_getDateNow)
  apply transacts_getDateNow h.committed
  intro dateNow
  apply handles_bind (handles_of_fileless (fileless_prepare _))
  apply transacts_prepare h.committed
  apply handles_bind (handles_of_fileless (fileless_execute _ rfl))
  apply transacts_execute rfl h.committed h.inTransaction
  intro number tables row hnumber happly
  rw [Tables.apply_insertGroupMessage] at happly
  obtain ⟨after, hinsert, hafter⟩ := Option.map_eq_some_iff.mp happly
  obtain ⟨rfl, -⟩ := Prod.mk.inj hafter
  obtain ⟨hbecomes, hmessage, -⟩ := h.valid.insertGroupMessage hnumber hinsert
  have hwritten := h.write .insertGroupMessage number hbecomes
  apply handles_bind (handles_of_fileless fileless_lastInsertId)
  apply transacts_lastInsertId hwritten.committed
  apply handles_bind (handles_of_fileless (fileless_saveForwardInfoIfAny _ _))
  apply transacts_saveForwardInfoIfAny hwritten hmessage
  intro next hnext hmessages
  have hkept : number ∈ NumberedTable.numbers next.working.messages := hmessages ▸ hmessage
  apply handles_bind (handles_insertMsgData hreliable hnext hkept)
  apply transacts_insertMsgData hnext
  exact fun _ _ _ _ ↦ handles_of_fileless (.pure _)

theorem handles_editMessage {row : Row} (hreliable : setting.mayFail = false)
    (h : Represents committed worker db store)
    (hselect : db.working.selectGroupMessage (UInt64.ofInt msg.id) (Int64.ofInt msg.chatId) =
      some row)
    (hgroup : db.working.tgGroupIdOf dbGroupId = some (Int64.ofInt msg.chatId)) :
    Handles setting (editMessage msg row.id dbGroupId
      (row.hasEditedMsg.toList.head? = some '1') isEdited) worker db := by
  obtain ⟨-, -, message, hrow, hrowGroup, -⟩ := h.valid.selectGroupMessage hselect
  have hmessage := NumberedTable.mem_numbers_of_rowAt hrow
  have hdata {next : Database} {stored : Store} (hnext : Represents committed worker next stored)
      (hkept : row.id ∈ NumberedTable.numbers next.working.messages) :
      Handles setting (do
        onlyIf isEdited (insertMsgData row.id msg isEdited)
        pure row.id) worker next := by
    apply handles_bind (handles_onlyIf fun _ ↦ handles_insertMsgData hreliable hnext hkept)
    apply keeps_onlyIf
    · exact fun _ ↦ transacts_insertMsgData hnext fun _ _ _ _ ↦ handles_of_fileless (.pure _)
    · exact fun _ ↦ handles_of_fileless (.pure _)
  apply handles_bind (handles_of_fileless (fileless_onlyIf (fileless_updateMessage _ _ rfl)))
  apply keeps_onlyIf
  · intro _
    apply transacts_updateHasEditedMsg h hrow hrowGroup hgroup
    exact fun next hnext hnumbers ↦ hdata hnext (hnumbers ▸ hmessage)
  · exact fun _ ↦ hdata h hmessage

theorem handles_resolveMessage (hreliable : setting.mayFail = false)
    (h : Represents committed worker db store)
    (huser : dbUserId ≠ 0 → db.working.tgUserIdOf dbUserId = some (UInt64.ofInt user.id))
    (hgroup : db.working.tgGroupIdOf dbGroupId = some (Int64.ofInt chat.id))
    (hchat : chat.id = msg.chatId) :
    Handles setting (resolveMessage msg dbUserId dbGroupId isEdited false) worker db := by
  unfold resolveMessage
  cases msgType msg.content with
  | none => exact handles_of_fileless (.pure _)
  | some type =>
    apply handles_bind (handles_of_fileless (fileless_selectRow rfl))
    apply keeps_bind
    apply transacts_prepare h.committed
    apply keeps_bind
    apply transacts_execute rfl h.committed h.inTransaction
    intro number tables found _ happly
    obtain ⟨rfl, hselect⟩ := Prod.mk.inj (Option.some.inj happly)
    rw [Tables.toInt64_ofInt] at hselect
    rw [Database.write_working number h.inTransaction rfl]
    cases found with
    | some row =>
      have hpos := (h.valid.selectGroupMessage hselect).1
      apply keeps_pure
      dsimp only
      rw [if_pos (UInt64.pos_iff_ne_zero.mp hpos)]
      apply handles_bind (handles_editMessage hreliable h hselect (hchat ▸ hgroup))
      apply transacts_editMessage h hselect (hchat ▸ hgroup)
      exact fun _ _ _ _ _ _ ↦ handles_of_fileless (.pure _)
    | none =>
      apply keeps_pure
      dsimp only
      rw [if_neg (by simp)]
      apply handles_bind (handles_insertMessage hreliable h)
      apply transacts_insertMessage h huser hgroup
      exact fun _ _ _ _ _ ↦ handles_of_fileless (.pure _)

theorem handles_processMessage (hreliable : setting.mayFail = false)
    (h : Represents committed worker db store) :
    Handles setting (processMessage msg isEdited false) worker db := by
  unfold processMessage
  cases msg.sender with
  | messageSenderChat chatId => exact handles_of_fileless (.pure _)
  | messageSenderUser userId =>
    apply handles_bind (handles_of_fileless (fileless_sendQuerySync rfl))
    apply transacts_getUser h.committed
    · intro user _
      apply handles_bind (handles_of_fileless (fileless_sendQuerySync rfl))
      apply transacts_getChat h.committed
      · intro chat hchatId
        apply handles_dereference_some
        apply handles_bind (handles_of_fileless (fileless_resolveUser _))
        apply transacts_resolveUser h
        intro dbUserId after next hnext _ huser
        apply handles_dereference_some
        apply handles_bind (handles_of_fileless (fileless_resolveGroup _))
        apply transacts_resolveGroup hnext
        intro dbGroupId pointed last middle hmiddle hextends hgroup
        have hkept := fun hnonzero ↦ hextends.users _ _ (huser hnonzero)
        exact handles_resolveMessage hreliable hmiddle hkept hgroup hchatId
      · apply handles_dereference_some
        apply handles_bind (handles_of_fileless (fileless_resolveUser _))
        apply transacts_resolveUser h
        intro dbUserId after next _ _ _
        exact handles_dereference_none
    · apply handles_bind (handles_of_fileless (fileless_sendQuerySync rfl))
      apply transacts_getChat h.committed
      · intro chat _
        exact handles_dereference_none
      · exact handles_dereference_none

/-- One transaction. -/
theorem handles_storeEvent {eventId : Int} {store : Scrape Worker Unit}
    (h : Settled worker db) (hvalid : db.committed.Valid)
    (hstore : ∀ next,
      Represents db.committed worker next (db.committed.canonical.track eventId) →
      Handles setting store worker next) :
    Handles setting (storeEvent eventId store) worker db := by
  have hstart := h.startTransaction hvalid
  refine handles_bind (handles_of_fileless (fileless_executeText rfl))
    (?_ : Keeps setting (fun _ ↦ True) _ _ _ _)
  apply keeps_executeText .startTransaction db.startTransaction (by simp)
    (fun _ _ hanswer ↦ hanswer) trivial trivial
  apply handles_bind (handles_of_fileless (fileless_trackEventId _))
  apply transacts_trackEventId hstart
  · intro _ next hnext
    rw [if_pos rfl]
    apply handles_bind_of_forall (hstore next hnext)
    exact fun _ _ _ ↦ handles_of_fileless (fileless_executeText rfl)
  · intro _ next _
    rw [if_neg (by simp)]
    exact handles_of_fileless (fileless_executeText rfl)

theorem handles_processEvent {ev : ChatEvent} (hreliable : setting.mayFail = false)
    (h : Settled worker db) (hvalid : db.committed.Valid) :
    Handles setting (processEvent ev) worker db := by
  unfold processEvent
  cases ev.action with
  | chatEventMessageDeleted msg =>
    apply handles_storeEvent h hvalid
    exact fun next hnext ↦ handles_processMessage hreliable hnext
  | chatEventMessageEdited oldMessage newMessage =>
    apply handles_storeEvent h hvalid
    intro next hnext
    apply handles_bind (handles_processMessage hreliable hnext)
    apply transacts_processMessage hnext
    exact fun _ _ _ _ hmiddle ↦ handles_processMessage hreliable hmiddle
  | other => exact handles_of_fileless (.pure _)

/-- By induction on the page. -/
theorem handles_processEvents {i : Nat} {least : Int} {events : List ChatEvent}
    (hreliable : setting.mayFail = false) (h : Settled worker db)
    (hvalid : db.committed.Valid) :
    Handles setting (processEvents i least events) worker db ∧
      Keeps setting (fun _ ↦ True) (processEvents i least events) worker db fun _ after next ↦
        Settled after next ∧ next.committed.Valid := by
  induction events generalizing i least worker db with
  | nil => exact ⟨handles_of_fileless (.pure _), keeps_pure ⟨h, hvalid⟩⟩
  | cons ev events ih =>
    have hsettles := settles_processEvent setting ev h hvalid
    constructor
    · apply handles_bind (handles_processEvent hreliable h hvalid)
      apply hsettles.mono
      exact fun _ _ _ hnext ↦ (ih hnext.1 hnext.2).1
    · apply keeps_bind
      apply hsettles.mono
      exact fun _ _ _ hnext ↦ (ih hnext.1 hnext.2).2

/-- By induction on the rounds. -/
theorem handles_gatherFrom {chatId minEv : Int} {rounds : Nat}
    (hreliable : setting.mayFail = false) (h : Settled worker db)
    (hvalid : db.committed.Valid) :
    Handles setting (gatherFrom chatId rounds minEv) worker db := by
  induction rounds generalizing minEv worker db with
  | zero =>
    unfold gatherFrom
    split
    · exact handles_of_fileless (.pure _)
    · exact handles_of_fileless (.stop _)
  | succ rounds ih =>
    unfold gatherFrom
    split
    · exact handles_of_fileless (.pure _)
    · refine handles_bind (handles_of_fileless (fileless_sendQuerySync rfl))
        (?_ : Keeps setting (fun _ ↦ True) _ _ _ _)
      apply keeps_sendQuerySync (fun _ ↦ True) trivial
      · exact fun answer next hresponds ↦ ⟨hresponds.2, fun _ _ _ _ ↦ trivial⟩
      · intro events _
        obtain ⟨hhandles, hsettles⟩ := handles_processEvents hreliable h hvalid
        apply handles_bind hhandles
        apply hsettles.mono
        exact fun _ _ _ hnext ↦ ih hnext.1 hnext.2
      · exact handles_of_fileless (.pure _)

end Worker

/-! ## Rows with files -/

/-- What is accepted satisfies the foreign key. -/
theorem data_of_apply {tables after : Tables} {schema : Schema} {number : UInt64}
    {parameters : List Parameter} {row : Option Row}
    (happly : tables.apply schema number .insertGroupMessageData parameters = some (after, row)) :
    row = none ∧ ∃ data fileId, parameters[0]? = some (.uint data.msgId) ∧
      parameters[3]? = some (.uint fileId) ∧ data.file = some fileId ∧
      tables.insertGroupMessageData number data = some after := by
  unfold Tables.apply at happly
  split at happly <;> try contradiction
  next msgId text textEntities fileId isEdited tgDate dateNow _ =>
    obtain ⟨entities, -, happly⟩ := Option.bind_eq_some_iff.mp happly
    obtain ⟨mark, -, happly⟩ := Option.bind_eq_some_iff.mp happly
    obtain ⟨final, hinsert, hfinal⟩ := Option.map_eq_some_iff.mp happly
    obtain ⟨rfl, rfl⟩ := Prod.mk.inj hfinal
    exact ⟨rfl, _, fileId, rfl, rfl, rfl, hinsert⟩

theorem storesFileRow_of_responds {request : Request} {answer : request.Answer} {next : Database}
    (hresponds : Database.Responds setting db request answer next)
    (haccepted : refusesFileRow ⟨request, answer⟩ = false) :
    StoresFileRow db request answer next := by
  unfold StoresFileRow
  split
  · next parameters answer =>
    obtain ⟨number, -, hresult⟩ | ⟨-, hsql, -⟩ := hresponds
    · cases happly : db.working.apply setting.schema number .insertGroupMessageData parameters with
      | none =>
        rw [happly] at hresult
        obtain ⟨⟨error, rfl⟩, -⟩ := hresult
        simp [refusesFileRow, isError] at haccepted
      | some result =>
        obtain ⟨after, row⟩ := result
        rw [happly] at hresult
        obtain ⟨rfl, data, fileId, hmsgId, hfileId, hfile, hinsert⟩ := data_of_apply happly
        obtain ⟨rfl, rfl⟩ := hresult
        refine ⟨rfl, number, data, fileId, hmsgId, hfileId, hfile, ?_, ?_⟩
        · exact (Tables.refs_of_insertGroupMessageData hinsert).2 fileId hfile
        · rw [working_write]
          unfold Tables.insertGroupMessageData at hinsert
          split at hinsert
          · rw [← Option.some.inj hinsert]
          · simp at hinsert
    · simp at hsql
  · trivial

theorem follows_storing (hfollows : Follows (Database.Responds setting) db exchanges last)
    (haccepted : ∀ exchange ∈ exchanges, refusesFileRow exchange = false) :
    Follows (fun db request answer next ↦
      Database.Responds setting db request answer next ∧ StoresFileRow db request answer next)
      db exchanges last := by
  induction hfollows with
  | nil world => exact .nil world
  | cons hanswer _ ih =>
    rw [List.forall_mem_cons] at haccepted
    exact .cons ⟨hanswer, storesFileRow_of_responds hanswer haccepted.1⟩ (ih haccepted.2)

end

/-! ## Committed rows -/

section

variable {setting : Setting} {worker after : Worker} {db last : Database}
  {exchanges : List Exchange} {ending : Ending Worker Unit}

/-- The statements that begin or end a transaction, and a new connection. -/
def settles : Request → Bool
  | .execute .startTransaction _ | .execute .rollback _ | .execute .commit _ => true
  | .connect _ _ _ _ _ => true
  | _ => false

theorem data_eq_of_guarded {condition : Prop} [Decidable condition] {tables changed next : Tables}
    (h : (if condition then some changed else none) = some next)
    (hchanged : changed.data = tables.data) : next.data = tables.data := by
  split at h
  · rw [← Option.some.inj h, hchanged]
  · simp at h

theorem data_eq_of_refused {condition : Prop} [Decidable condition] {tables changed next : Tables}
    (h : (if condition then none else some changed) = some next)
    (hchanged : changed.data = tables.data) : next.data = tables.data := by
  split at h
  · simp at h
  · rw [← Option.some.inj h, hchanged]

/-- Only the two statements for data insert data. -/
theorem data_eq_of_apply {tables next : Tables} {schema : Schema} {number : UInt64} {sql : Sql}
    {parameters : List Parameter} {row : Option Row} (htext : sql ≠ .insertGroupMessageDataText)
    (hfile : sql ≠ .insertGroupMessageData)
    (h : tables.apply schema number sql parameters = some (next, row)) :
    next.data = tables.data := by
  have hmap {result : Option Tables} (h : result.map (·, (none : Option Row)) = some (next, row)) :
      result = some next := by
    obtain ⟨found, rfl, heq⟩ := Option.map_eq_some_iff.mp h
    rw [(Prod.mk.inj heq).1]
  have hquery {found : Option Row} (h : some (tables, found) = some (next, row)) :
      next.data = tables.data := by
    rw [(Prod.mk.inj (Option.some.inj h)).1]
  unfold Tables.apply at h
  split at h
  · exact data_eq_of_refused (hmap h) rfl
  · exact data_eq_of_refused (hmap h) rfl
  · exact hquery h
  · exact data_eq_of_refused (hmap h) rfl
  · exact hquery h
  · obtain ⟨isForwardedMsg, -, h⟩ := Option.bind_eq_some_iff.mp h
    obtain ⟨isDeleted, -, h⟩ := Option.bind_eq_some_iff.mp h
    exact data_eq_of_guarded (hmap h) rfl
  · exact hquery h
  · rw [← (Prod.mk.inj (Option.some.inj h)).1]
    rfl
  · exact data_eq_of_guarded (hmap h) rfl
  · exact absurd rfl htext
  · exact absurd rfl hfile
  · exact data_eq_of_guarded (hmap h) rfl
  · simp at h

theorem fileRows_of_textRow {tables next : Tables} {schema : Schema} {number : UInt64}
    {parameters : List Parameter} {row : Option Row}
    (h : tables.apply schema number .insertGroupMessageDataText parameters = some (next, row)) :
    next.fileRows = tables.fileRows := by
  unfold Tables.apply at h
  split at h <;> try contradiction
  next msgId text textEntities isEdited tgDate dateNow _ =>
    obtain ⟨entities, -, h⟩ := Option.bind_eq_some_iff.mp h
    obtain ⟨mark, -, h⟩ := Option.bind_eq_some_iff.mp h
    obtain ⟨final, hinsert, hfinal⟩ := Option.map_eq_some_iff.mp h
    obtain ⟨rfl, -⟩ := Prod.mk.inj hfinal
    unfold Tables.insertGroupMessageData at hinsert
    split at hinsert
    · obtain rfl := Option.some.inj hinsert
      simp [Tables.fileRows]
    · simp at hinsert

theorem fileRows_of_fileRow {tables next : Tables} {schema : Schema} {number : UInt64}
    {parameters : List Parameter} {row : Option Row}
    (h : tables.apply schema number .insertGroupMessageData parameters = some (next, row)) :
    next.fileRows = tables.fileRows ++
      (fileRowOf ⟨.execute .insertGroupMessageData parameters, .ok row⟩).toList := by
  unfold Tables.apply at h
  split at h <;> try contradiction
  next msgId text textEntities fileId isEdited tgDate dateNow _ =>
    obtain ⟨entities, hentities, h⟩ := Option.bind_eq_some_iff.mp h
    obtain ⟨mark, hmark, h⟩ := Option.bind_eq_some_iff.mp h
    obtain ⟨final, hinsert, hfinal⟩ := Option.map_eq_some_iff.mp h
    obtain ⟨rfl, -⟩ := Prod.mk.inj hfinal
    unfold Tables.insertGroupMessageData at hinsert
    split at hinsert
    · obtain rfl := Option.some.inj hinsert
      simp [Tables.fileRows, fileRowOf, isError, hentities, hmark]
    · simp at hinsert

theorem settles_of_asks {request : Request} (h : messageConduct.asks request) :
    settles request = false := by
  obtain ⟨-, henclosing⟩ := h
  unfold settles
  split
  · simp [isEnclosing, enclosesEvent] at henclosing
  · simp [isEnclosing, enclosesEvent] at henclosing
  · simp [isEnclosing, enclosesEvent] at henclosing
  · simp [isEnclosing] at henclosing
  · rfl

theorem fileRowOf_error {sql : Sql} {parameters : List Parameter} {error : String} :
    fileRowOf ⟨.execute sql parameters, .error error⟩ = none := by
  unfold fileRowOf
  split
  · next heq =>
    cases heq
    simp [isError]
  · rfl

theorem fileRowOf_of_ne {sql : Sql} {parameters : List Parameter}
    {answer : Except String (Option Row)} (hsql : sql ≠ .insertGroupMessageData) :
    fileRowOf ⟨.execute sql parameters, answer⟩ = none := by
  cases sql <;> first | rfl | exact absurd rfl hsql

/-- A row with a file is there when an exchange tells it, until a transaction ends. -/
theorem fileRows_of_responds {request : Request} {answer : request.Answer} {next : Database}
    (hreliable : setting.mayFail = false) (hrequest : settles request = false)
    (hresponds : Database.Responds setting db request answer next) :
    next.working.fileRows = db.working.fileRows ++ (fileRowOf ⟨request, answer⟩).toList := by
  have hsame {exchange : Exchange} (hnext : next = db) (hnone : fileRowOf exchange = none) :
      next.working.fileRows = db.working.fileRows ++ (fileRowOf exchange).toList := by
    rw [hnext, hnone]
    exact (List.append_nil _).symm
  cases request with
  | execute sql parameters =>
    obtain hexecutes | ⟨hfail, -⟩ := hresponds
    · cases hsettles : concernsTables sql with
      | false =>
        cases sql with
        | selectLastInsertId =>
          obtain ⟨-, hnext⟩ := hexecutes
          exact hsame hnext rfl
        | startTransaction | rollback | commit => simp [settles] at hrequest
        | _ => simp [concernsTables] at hsettles
      | true =>
        obtain ⟨number, -, hresult⟩ := (Database.executes_iff hsettles).mp hexecutes
        cases happly : db.working.apply setting.schema number sql parameters with
        | none =>
          rw [happly] at hresult
          obtain ⟨⟨error, rfl⟩, hnext⟩ := hresult
          exact hsame hnext fileRowOf_error
        | some result =>
          obtain ⟨tables, row⟩ := result
          rw [happly] at hresult
          obtain ⟨rfl, rfl⟩ := hresult
          rw [working_write]
          by_cases htext : sql = .insertGroupMessageDataText
          · subst htext
            rw [fileRows_of_textRow happly]
            exact (List.append_nil _).symm
          · by_cases hfile : sql = .insertGroupMessageData
            · subst hfile
              exact fileRows_of_fileRow happly
            · have hdata := data_eq_of_apply htext hfile happly
              rw [Tables.fileRows, hdata, fileRowOf_of_ne hfile]
              exact (List.append_nil _).symm
    · simp [hreliable] at hfail
  | prepare sql => exact hsame hresponds.2 rfl
  | sendQuerySync function returnId timeout => exact hsame (eq_of_sendQuerySync hresponds) rfl
  | connect host port user pass database => simp [settles] at hrequest
  | _ => exact hsame hresponds rfl

theorem filterMap_fileRowOf_cons (exchange : Exchange) (rest : List Exchange) :
    (exchange :: rest).filterMap fileRowOf =
      (fileRowOf exchange).toList ++ rest.filterMap fileRowOf := by
  rw [List.filterMap_cons]
  cases fileRowOf exchange <;> rfl

theorem fileRows_of_follows (hreliable : setting.mayFail = false)
    (hfollows : Follows (Database.Responds setting) db exchanges last)
    (h : ∀ exchange ∈ exchanges, settles exchange.1 = false) :
    last.working.fileRows = db.working.fileRows ++ exchanges.filterMap fileRowOf := by
  induction hfollows with
  | nil world => exact (List.append_nil _).symm
  | cons hanswer _ ih =>
    rw [List.forall_mem_cons] at h
    rw [ih h.2, fileRows_of_responds hreliable h.1 hanswer, filterMap_fileRowOf_cons,
      List.append_assoc]

theorem filterMap_fileRowOf_transaction {tracked : Bool} {begun ended : Option Row}
    {tracking storing : List Exchange} :
    (transaction tracked begun ended tracking storing).filterMap fileRowOf =
      tracking.filterMap fileRowOf ++ storing.filterMap fileRowOf := by
  have hended : [⟨.prepare (if tracked then .commit else .rollback), .ok ()⟩,
      ⟨.execute (if tracked then .commit else .rollback) [], .ok ended⟩].filterMap fileRowOf =
        [] := by
    cases tracked <;> rfl
  unfold transaction
  rw [List.filterMap_append, List.filterMap_append, List.filterMap_append, hended, List.append_nil]
  rfl

theorem TracksBy.fileless {eventId : Int} {tracked : Bool}
    (h : TracksBy eventId exchanges tracked) :
    (∀ exchange ∈ exchanges, settles exchange.1 = false) ∧
      exchanges.filterMap fileRowOf = [] := by
  obtain ⟨error, rfl, rfl⟩ | ⟨answer, rfl, rfl⟩ := h
  · exact ⟨by simp [settles], rfl⟩
  · exact ⟨by simp [settles], rfl⟩

/-- A transaction commits the rows that it inserts; a skipped event inserts none. -/
theorem fileRows_storeEvent {eventId : Int} {store : Scrape Worker Unit}
    (hreliable : setting.mayFail = false) (h : Settled worker db) (hvalid : db.committed.Valid)
    (hdutiful : messageConduct.Dutiful store)
    (hrun : (Worker.storeEvent eventId store).Runs worker exchanges (.returned () after))
    (hfollows : Follows (Database.Responds setting) db exchanges last) :
    last.committed.fileRows = db.committed.fileRows ++ exchanges.filterMap fileRowOf := by
  obtain ⟨tracked, begun, ended, tracking, storing, rfl, htrack, hstoring⟩ :=
    runs_storeEvent_returned hrun
  obtain ⟨started, hstarted, hfollows⟩ := follows_append_iff.mp hfollows
  obtain ⟨-, rfl⟩ := follows_executeText (by simp) hstarted
  obtain ⟨middle, htracking, hfollows⟩ := follows_append_iff.mp hfollows
  obtain ⟨stored, hstored, hfollows⟩ := follows_append_iff.mp hfollows
  obtain ⟨hsettles, hnone⟩ := (runs_trackEventId_returned htrack).1.fileless
  have hmiddle : middle.working.fileRows = db.committed.fileRows := by
    rw [fileRows_of_follows hreliable htracking hsettles, hnone, List.append_nil,
      Database.startTransaction, h.working]
  cases tracked with
  | false =>
    obtain ⟨rfl, rfl⟩ := hstoring
    obtain rfl := follows_nil_iff.mp hstored
    obtain ⟨-, rfl⟩ : _ ∧ last = stored.abandon := follows_executeText (by simp) hfollows
    obtain ⟨hcommitted, -⟩ := (responds_trackEventId h hvalid htrack htracking).2 rfl
    rw [filterMap_fileRowOf_transaction, hnone, Database.abandon, hcommitted]
    exact (List.append_nil _).symm
  | true =>
    obtain ⟨-, rfl⟩ : _ ∧ last = stored.commit := follows_executeText (by simp) hfollows
    have hasks := (hdutiful _ _ _ hstoring).1
    have hrows := fileRows_of_follows hreliable hstored fun exchange hmem ↦
      settles_of_asks (hasks exchange hmem)
    rw [filterMap_fileRowOf_transaction, hnone, List.nil_append, ← hmiddle]
    exact hrows

theorem fileRows_processEvent {ev : ChatEvent} (hreliable : setting.mayFail = false)
    (h : Settled worker db) (hvalid : db.committed.Valid)
    (hrun : (Worker.processEvent ev).Runs worker exchanges (.returned () after))
    (hfollows : Follows (Database.Responds setting) db exchanges last) :
    last.committed.fileRows = db.committed.fileRows ++ exchanges.filterMap fileRowOf := by
  unfold Worker.processEvent at hrun
  cases haction : ev.action with
  | chatEventMessageDeleted msg =>
    rw [haction] at hrun
    exact fileRows_storeEvent hreliable h hvalid (Worker.dutiful_processMessage _ _ _) hrun hfollows
  | chatEventMessageEdited oldMessage newMessage =>
    rw [haction] at hrun
    apply fileRows_storeEvent hreliable h hvalid _ hrun hfollows
    exact (Worker.dutiful_processMessage _ _ _).bind fun _ ↦
      Worker.dutiful_processMessage _ _ _
  | other =>
    rw [haction] at hrun
    obtain ⟨rfl, -⟩ := Procedure.runs_pure_iff.mp hrun
    obtain rfl := follows_nil_iff.mp hfollows
    exact (List.append_nil _).symm

/-- By induction on the page. -/
theorem fileRows_processEvents {i : Nat} {least next : Int} {events : List ChatEvent}
    (hreliable : setting.mayFail = false) (h : Settled worker db) (hvalid : db.committed.Valid)
    (hrun : (Worker.processEvents i least events).Runs worker exchanges (.returned next after))
    (hfollows : Follows (Database.Responds setting) db exchanges last) :
    Settled after last ∧ last.committed.Valid ∧
      last.committed.fileRows = db.committed.fileRows ++ exchanges.filterMap fileRowOf := by
  induction events generalizing i least worker db exchanges with
  | nil =>
    obtain ⟨rfl, hending⟩ := Procedure.runs_pure_iff.mp hrun
    obtain ⟨rfl, rfl⟩ := Procedure.Ending.returned.inj hending
    obtain rfl := follows_nil_iff.mp hfollows
    exact ⟨h, hvalid, (List.append_nil _).symm⟩
  | cons ev events ih =>
    obtain ⟨front, back, _, middle, rfl, hfront, hback⟩ := Procedure.runs_bind_returned hrun
    obtain ⟨between, hfirst, hrest⟩ := follows_append_iff.mp hfollows
    obtain ⟨hsettled, hnext⟩ :=
      Procedure.Ensures.ends (settles_processEvent setting ev h hvalid) (hfront.ends hfirst)
    obtain ⟨hafter, hlast, hrows⟩ := ih hsettled hnext hback hrest
    refine ⟨hafter, hlast, ?_⟩
    rw [hrows, fileRows_processEvent hreliable h hvalid hfront hfirst, List.filterMap_append,
      List.append_assoc]

theorem goesOn_pure (hrun : (pure () : Scrape Worker Unit).Runs worker exchanges ending)
    (hfollows : Follows (Database.Responds setting) db exchanges last) :
    GoesOn ending ∧
      last.committed.fileRows = db.committed.fileRows ++ exchanges.filterMap fileRowOf := by
  obtain ⟨rfl, rfl⟩ := Procedure.runs_pure_iff.mp hrun
  obtain rfl := follows_nil_iff.mp hfollows
  exact ⟨.inl ⟨worker, rfl⟩, (List.append_nil _).symm⟩

/-- By induction on the rounds: every page is processed to its end. -/
theorem goesOn_gatherFrom {chatId minEv : Int} {rounds : Nat}
    (hreliable : setting.mayFail = false) (h : Settled worker db) (hvalid : db.committed.Valid)
    (hrun : (Worker.gatherFrom chatId rounds minEv).Runs worker exchanges ending)
    (hfollows : Follows (Database.Responds setting) db exchanges last)
    (hlucky : pageConduct.Lucky exchanges) :
    GoesOn ending ∧
      last.committed.fileRows = db.committed.fileRows ++ exchanges.filterMap fileRowOf := by
  induction rounds generalizing minEv worker db exchanges with
  | zero =>
    unfold Worker.gatherFrom at hrun
    split at hrun
    · exact goesOn_pure hrun hfollows
    · obtain ⟨rfl, rfl⟩ := Procedure.runs_stop_iff.mp hrun
      obtain rfl := follows_nil_iff.mp hfollows
      exact ⟨.inr rfl, (List.append_nil _).symm⟩
  | succ rounds ih =>
    unfold Worker.gatherFrom at hrun
    split at hrun
    · exact goesOn_pure hrun hfollows
    · obtain ⟨answer, rest, rfl, hrest⟩ := (runs_sendQuerySync_bind_iff (by decide)).mp hrun
      obtain ⟨next, hanswer, hnext⟩ := follows_cons_iff.mp hfollows
      obtain rfl : next = db := hanswer.2
      rw [Conduct.lucky_cons] at hlucky
      rw [eventPage_eq] at hrest
      rw [filterMap_fileRowOf_cons]
      change _ ∧ _ = _ ++ ([] ++ _)
      rw [List.nil_append]
      cases hpage : answer.bind Object.asChatEvents with
      | none =>
        rw [hpage] at hrest
        exact goesOn_pure hrest hnext
      | some page =>
        rw [hpage] at hrest
        have hhanded : (Worker.processChatEventLog page >>= fun next ↦
          Worker.gatherFrom chatId rounds next).Runs worker rest ending := hrest
        obtain ⟨front, back, least, middle, rfl, hprocess, hback⟩ :=
          (Worker.dutiful_processChatEventLog page).runs_bind hhanded hlucky.2
        obtain ⟨between, hfirst, hsecond⟩ := follows_append_iff.mp hnext
        obtain ⟨hsettled, hmiddle, hrows⟩ :=
          fileRows_processEvents hreliable h hvalid hprocess hfirst
        rw [Conduct.lucky_append] at hlucky
        obtain ⟨hgoesOn, hall⟩ := ih hsettled hmiddle hback hsecond hlucky.2.2
        refine ⟨hgoesOn, ?_⟩
        rw [hall, hrows, List.filterMap_append, List.append_assoc]

end

/-- An answer is a lucky one unless it concerns a file. -/
theorem lucky_of_accepted {exchanges : List Exchange}
    (haccepted : ∀ exchange ∈ exchanges, refusesFileRow exchange = false)
    (hothers : ∀ exchange ∈ exchanges, concernsFile exchange.1 = false → unlucky exchange = false) :
    pageConduct.Lucky exchanges := by
  rintro ⟨request, answer⟩ hmem
  cases hconcerns : concernsFile request with
  | false => exact hothers _ hmem hconcerns
  | true =>
    have haccept := haccepted _ hmem
    change unlucky ⟨request, answer⟩ = false
    cases request with
    | sendQuerySync function returnId timeout =>
      cases function <;> first | rfl | simp [concernsFile] at hconcerns
    | execute sql parameters =>
      cases sql with
      | insertFile | insertGroupMessageData =>
        have herror : isError (answer : Except String (Option Row)) = false := haccept
        simp [unlucky, refused, failed, herror]
      | _ => simp [concernsFile, insertsFile] at hconcerns
    | md5File path => rfl
    | sha1File path => rfl
    | _ => simp [concernsFile] at hconcerns

/-- The rows of data with files are stored exactly if no step of `resolveFile` failed, in every
run over any log; otherwise the run ends with an exception. -/
theorem fileRowsStored_iff (schema : Schema) (worker : Worker) (db last : Database)
    (chatId : Int) (rounds : Nat) (exchanges : List Exchange) (ending : Ending Worker Unit)
    (hsettled : Settled worker db) (hvalid : db.committed.Valid)
    (hrun : (Worker.gatherChatEventLog chatId rounds).Runs worker exchanges ending)
    (hfollows : Follows (Database.Responds (.reliable schema)) db exchanges last) :
    (FileRowsStored (.reliable schema) db exchanges ending last ↔ FilesResolved exchanges) ∧
      (¬ FilesResolved exchanges → ∃ error after, ending = .raised error after) := by
  have hhandles : HandlesFiles exchanges ending :=
    Worker.handles_gatherFrom rfl hsettled hvalid _ _ _ hrun hfollows
  refine ⟨⟨fun hstored ↦ ?_, fun hresolved ↦ ?_⟩, hhandles.raised⟩
  · by_contra hnot
    exact hhandles.missing hnot hstored.complete
  · have haccepted := hhandles.accepted hresolved
    refine ⟨hhandles.complete hresolved, follows_storing hfollows haccepted, fun hothers ↦ ?_⟩
    exact goesOn_gatherFrom rfl hsettled hvalid hrun hfollows (lucky_of_accepted haccepted hothers)

/-- A sticker, and then the deletion of a text. -/
def deletedSticker : List ChatEvent :=
  [⟨1, .chatEventMessageDeleted { textMessage 5242880 "" with
      content := .messageSticker { id := 1 } "" }⟩,
    ⟨2, .chatEventMessageDeleted (textMessage 6291456 "next")⟩]

def stickerReplies (file : Option File) : Replies where
  eventLog minEv := if minEv = 0 then some deletedSticker else none
  file := file

def isRaised {Value : Type} : Ending Worker Value → Bool
  | .raised _ _ => true
  | _ => false

/-- With the file, the run goes on, and the row that refers to it is committed. -/
theorem fileRowsStored_deletedSticker : ∃ exchanges ending last,
    (Worker.gatherChatEventLog (-42) 2).Runs {} exchanges ending ∧
    Follows (Database.Responds (.reliable .complete)) {} exchanges last ∧
    FileRowsStored (.reliable .complete) {} exchanges ending last ∧ GoesOn ending ∧
    last.committed.tracked = [1, 2] ∧
    last.committed.fileRows.map GwGroupMessageData.file = [some 1] := by
  obtain ⟨exchanges, ending, last, hruns, hfollows, hseen⟩ : ∃ exchanges ending last,
      (Worker.gatherChatEventLog (-42) 2).Runs {} exchanges ending ∧
      Follows (Database.Responds (.reliable .complete)) {} exchanges last ∧
      (decide (FilesResolved exchanges), decide (∀ exchange ∈ exchanges, unlucky exchange = false),
        last.committed.tracked, last.committed.fileRows.map GwGroupMessageData.file) =
          (true, true, [1, 2], [some 1]) :=
    exists_runs_of_traceIn (stickerReplies (some { id := 1, localPath := "sticker.webp" }))
      (fun _ ↦ trivial) (by decide +kernel)
  simp only [Prod.mk.injEq, decide_eq_true_eq] at hseen
  obtain ⟨hresolved, hlucky, htracked, hrows⟩ := hseen
  have hstored := (fileRowsStored_iff .complete {} {} last (-42) 2 exchanges ending settled_empty
    Tables.valid_empty hruns hfollows).1.mpr hresolved
  have hgoesOn := (hstored.goesOn fun exchange hmem _ ↦ hlucky exchange hmem).1
  exact ⟨exchanges, ending, last, hruns, hfollows, hstored, hgoesOn, htracked, hrows⟩

/-- Without it, the row of the sticker's data is refused, and the scraper stops. -/
theorem not_fileRowsStored_deletedSticker : ∃ exchanges ending last,
    (Worker.gatherChatEventLog (-42) 2).Runs {} exchanges ending ∧
    Follows (Database.Responds (.reliable .complete)) {} exchanges last ∧
    isRaised ending = true ∧ last.working.data.rows = [] ∧ last.committed.tracked = [] ∧
    ¬ FileRowsStored (.reliable .complete) {} exchanges ending last := by
  obtain ⟨exchanges, ending, last, hruns, hfollows, hseen⟩ : ∃ exchanges ending last,
      (Worker.gatherChatEventLog (-42) 2).Runs {} exchanges ending ∧
      Follows (Database.Responds (.reliable .complete)) {} exchanges last ∧
      (isRaised ending, last.working.data.rows, last.committed.tracked, exchanges.countP downloads,
        exchanges.countP storesFileRow) = (true, [], [], 1, 0) :=
    exists_runs_of_traceIn (stickerReplies none) (fun _ ↦ trivial) (by decide +kernel)
  simp only [Prod.mk.injEq] at hseen
  obtain ⟨hraised, hdata, htracked, hdownloads, hstores⟩ := hseen
  refine ⟨exchanges, ending, last, hruns, hfollows, hraised, hdata, htracked, fun hstored ↦ ?_⟩
  have hcomplete := hstored.complete
  rw [hdownloads, hstores] at hcomplete
  exact absurd hcomplete (by decide)

end Tgvisd.HistoryScraper
