import Tgvisd.HistoryScraper.Transactions

/-!
# Users, groups and messages as stores

The functions of the worker, one after the other: a run that returns leaves the tables that stand
for the next store, and maps that agree with the tables.
-/

namespace Tgvisd.HistoryScraper

open TdApi Scrape

/-- The numbers in the worker's maps are those of the rows. -/
structure Worker.Agrees (worker : Worker) (tables : Tables) : Prop where
  users : ∀ tgUserId userId, worker.userTgToDb.lookup tgUserId = some userId →
    tables.tgUserIdOf userId = some (UInt64.ofInt tgUserId)
  groups : ∀ tgGroupId groupId, worker.groupTgToDb.lookup tgGroupId = some groupId →
    tables.tgGroupIdOf groupId = some (Int64.ofInt tgGroupId)

theorem Worker.agrees_empty (tables : Tables) : ({} : Worker).Agrees tables := by
  constructor <;> intro _ _ h <;> simp at h

theorem Worker.Agrees.extends {worker : Worker} {before after : Tables}
    (h : worker.Agrees before) (hextends : before.Extends after) : worker.Agrees after :=
  ⟨fun tgUserId userId hlookup ↦ hextends.users _ _ (h.users tgUserId userId hlookup),
    fun tgGroupId groupId hlookup ↦ hextends.groups _ _ (h.groups tgGroupId groupId hlookup)⟩

/-- Within a transaction, the working tables stand for a store. -/
structure Represents (committed : Tables) (worker : Worker) (db : Database) (store : Store) :
    Prop where
  committed : db.committed = committed
  inTransaction : db.inTransaction = true
  valid : db.working.Valid
  canonical : db.working.canonical = store
  agrees : worker.Agrees db.working

variable {setting : Setting} {committed : Tables} {worker : Worker} {db : Database} {store : Store}

theorem Represents.write (h : Represents committed worker db store) (sql : Sql) (number : UInt64)
    {tables : Tables} {next : Store} (hbecomes : db.working.Becomes tables next) :
    Represents committed worker (db.write sql number tables) next := by
  rw [Database.write_of_inTransaction number tables h.inTransaction]
  exact ⟨h.committed, h.inTransaction, hbecomes.valid, hbecomes.canonical,
    h.agrees.extends hbecomes.extends⟩

/-- The row of a message's data refers to the message by its position. -/
theorem Represents.insertGroupMessageData (h : Represents committed worker db store) (sql : Sql)
    {number : UInt64} {tables : Tables} {data : GwGroupMessageData UInt64 UInt64}
    (hinsert : db.working.insertGroupMessageData number data = some tables) :
    Represents committed worker (db.write sql number tables)
      (store.addData (db.working.canonicalData data)) := by
  rw [← h.canonical]
  exact h.write sql number (h.valid.insertGroupMessageData hinsert)

theorem working_write (db : Database) (sql : Sql) (number : UInt64) (tables : Tables) :
    (db.write sql number tables).working = tables := rfl

namespace Worker

theorem transacts_getDateNow {returns : String → Worker → Database → Prop}
    (hcommitted : db.committed = committed) (h : ∀ dateNow, returns dateNow worker db) :
    Transacts setting committed getDateNow worker db returns := by
  apply ensures_getDateNow hcommitted
  exact h

theorem transacts_lastInsertId {returns : UInt64 → Worker → Database → Prop}
    (hcommitted : db.committed = committed) (h : returns db.lastInsertId worker db) :
    Transacts setting committed lastInsertId worker db returns := by
  apply keeps_bind
  apply transacts_prepare hcommitted
  apply keeps_bind
  apply keeps_bind
  apply transacts_ask
  rintro _ _ (⟨rfl, rfl⟩ | ⟨-, hsql, -⟩)
  · exact ⟨hcommitted, keeps_pure (keeps_pure h)⟩
  · simp at hsql

/-- The insertion succeeds, or its error is handled. -/
theorem transacts_insertRow {insert : Sql} {parameters : String → List Parameter}
    {returns : UInt64 → Worker → Database → Prop} (hsql : isReliable insert = true)
    (hnumbers : numbersItsRow insert = true) (hcommitted : db.committed = committed)
    (hopen : db.inTransaction = true)
    (hok : ∀ dateNow number tables row, db.working.MayNumber insert number →
      db.working.apply setting.schema number insert (parameters dateNow) = some (tables, row) →
        returns number worker (db.write insert number tables))
    (hfail : ∀ dateNow number, db.working.MayNumber insert number →
      db.working.apply setting.schema number insert (parameters dateNow) = none →
        returns 0 worker db) :
    Transacts setting committed (insertRow insert parameters) worker db returns := by
  apply keeps_bind
  apply transacts_prepare hcommitted
  apply keeps_bind
  apply Procedure.ensures_tryCatch_iff.mpr
  apply Procedure.ensures_bind_iff.mpr
  apply ensures_getDateNow hcommitted
  intro dateNow
  dsimp only
  apply Procedure.ensures_bind_iff.mpr
  apply ensures_execute hsql hcommitted
  · intro number tables row hnumber happly
    have hwritten : (db.write insert number tables).committed = committed := by
      rw [Database.write_of_inTransaction number tables hopen]
      exact hcommitted
    refine ⟨hwritten, transacts_lastInsertId hwritten ?_⟩
    have hlast : (db.write insert number tables).lastInsertId = number := by
      simp [Database.write, hnumbers]
    rw [hlast]
    exact hok dateNow number tables row hnumber happly
  · intro number error hnumber happly
    exact hfail dateNow number hnumber happly

theorem transacts_fetchRow {select : Sql} {parameters : List Parameter}
    {returns : UInt64 → Worker → Database → Prop} (hsql : isReliable select = true)
    (hnumbers : numbersItsRow select = false) (hcommitted : db.committed = committed)
    (hopen : db.inTransaction = true) {found : Option Row}
    (hselect : ∀ number, db.working.apply setting.schema number select parameters =
      some (db.working, found))
    (h : returns ((found.map Row.id).getD 0) worker db) :
    Transacts setting committed (fetchRow select parameters) worker db returns := by
  apply keeps_bind
  apply transacts_prepare hcommitted
  apply keeps_bind
  apply transacts_execute hsql hcommitted hopen
  intro number tables row _ happly
  rw [hselect number] at happly
  obtain ⟨rfl, rfl⟩ := Prod.mk.inj (Option.some.inj happly)
  rw [Database.write_working number hopen hnumbers]
  cases found with
  | some row => exact keeps_pure h
  | none => exact keeps_pure h

/-! ## Users -/

theorem Agrees.insertUser {tables : Tables} (h : worker.Agrees tables) {user : User}
    {userId : UInt64} (huser : tables.tgUserIdOf userId = some (UInt64.ofInt user.id))
    (userMap : UnorderedMap UInt64 User) :
    ({ worker with userTgToDb := worker.userTgToDb.insert user.id userId, userMap := userMap } :
      Worker).Agrees tables := by
  constructor
  · intro tgUserId found hlookup
    by_cases heq : tgUserId = user.id
    · subst heq
      rw [AList.lookup_insert] at hlookup
      rw [← Option.some.inj hlookup]
      exact huser
    · rw [AList.lookup_insert_ne heq] at hlookup
      exact h.users tgUserId found hlookup
  · exact h.groups

theorem transacts_keepUser {user : User} {userId : UInt64}
    {returns : UInt64 × User → Worker → Database → Prop}
    (h : Represents committed worker db store)
    (huser : db.working.tgUserIdOf userId = some (UInt64.ofInt user.id))
    (hreturns : ∀ after, Represents committed after db store → returns (userId, user) after db) :
    Transacts setting committed (keepUser user userId) worker db returns := by
  apply keeps_bind
  apply keeps_get
  apply keeps_bind
  apply keeps_set
  apply keeps_pure
  apply hreturns
  exact ⟨h.committed, h.inTransaction, h.valid, h.canonical, h.agrees.insertUser huser _⟩

/-- The exits of `resolveUser`: the id is known, or the row is new, or it is there and the query
finds it or not. -/
theorem transacts_resolveUser_exits {user : User}
    {returns : UInt64 × User → Worker → Database → Prop}
    (h : Represents committed worker db store)
    (hcached : ∀ userId, worker.userTgToDb.lookup user.id = some userId →
      returns (userId, user) worker db)
    (hinserted : worker.userTgToDb.lookup user.id = none → ∀ number tables,
      NumberedTable.Available number db.working.users →
      db.working.insertUser number
        ⟨UInt64.ofInt user.id, user.username, user.firstName, user.lastName⟩ = some tables →
      Transacts setting committed (keepUser user number) worker (db.write .insertUser number tables)
        returns)
    (hfetched : worker.userTgToDb.lookup user.id = none → ∀ number, db.working.insertUser number
        ⟨UInt64.ofInt user.id, user.username, user.firstName, user.lastName⟩ = none →
      (∀ row, db.working.selectUser (Int64.ofInt user.id) = some row →
        Transacts setting committed (keepUser user row.id) worker db returns) ∧
      (db.working.selectUser (Int64.ofInt user.id) = none → returns (0, user) worker db)) :
    Transacts setting committed (resolveUser user) worker db returns := by
  apply keeps_bind
  apply keeps_get
  cases hlookup : worker.userTgToDb.lookup user.id with
  | some userId => exact keeps_pure (hcached userId hlookup)
  | none =>
    apply keeps_bind
    apply transacts_insertRow rfl rfl h.committed h.inTransaction
    · intro dateNow number tables row hnumber happly
      obtain ⟨after, hinsert, hafter⟩ := Option.map_eq_some_iff.mp happly
      obtain ⟨rfl, rfl⟩ := Prod.mk.inj hafter
      rw [if_pos (UInt64.pos_iff_ne_zero.mp hnumber.1)]
      exact hinserted hlookup number after hnumber hinsert
    · intro dateNow number hnumber happly
      obtain ⟨hfound, hmissed⟩ := hfetched hlookup number (Option.map_eq_none_iff.mp happly)
      rw [if_neg (by simp)]
      apply keeps_bind
      apply transacts_fetchRow rfl rfl h.committed h.inTransaction (fun _ ↦ rfl)
      cases hselect : db.working.selectUser (Int64.ofInt user.id) with
      | some row =>
        obtain ⟨hpos, -⟩ := h.valid.selectUser hselect
        rw [Option.map_some, Option.getD_some, if_pos (UInt64.pos_iff_ne_zero.mp hpos)]
        exact hfound row hselect
      | none =>
        rw [if_neg (by simp)]
        exact keeps_pure (hmissed hselect)

/-- The store has the user's row. The result is its number, or 0 if the row was there and the
query for a negative id did not find it. -/
theorem transacts_resolveUser {user : User} {returns : UInt64 × User → Worker → Database → Prop}
    (h : Represents committed worker db store)
    (hreturns : ∀ userId after next, Represents committed after next (store.addUser user) →
      db.working.Extends next.working →
      (userId ≠ 0 → next.working.tgUserIdOf userId = some (UInt64.ofInt user.id)) →
      returns (userId, user) after next) :
    Transacts setting committed (resolveUser user) worker db returns := by
  apply transacts_resolveUser_exits h
  · intro userId hlookup
    have huser := h.agrees.users user.id userId hlookup
    apply hreturns userId worker db _ (.refl _) (fun _ ↦ huser)
    rw [← h.canonical, Tables.addUser_of_tgUserIdOf huser]
    exact ⟨h.committed, h.inTransaction, h.valid, rfl, h.agrees⟩
  · intro _ number tables hnumber hinsert
    obtain ⟨hbecomes, huser⟩ := h.valid.insertUser hnumber hinsert
    rw [← Tables.addUser_of_insertUser_eq_some hinsert, h.canonical] at hbecomes
    apply transacts_keepUser (h.write _ _ hbecomes) huser
    intro after hafter
    exact hreturns number after _ hafter hbecomes.extends fun _ ↦ huser
  · intro _ number hinsert
    have hsame : store.addUser user = store := by
      rw [← h.canonical, Tables.addUser_of_insertUser_eq_none hinsert]
    rw [hsame] at hreturns
    constructor
    · intro row hselect
      obtain ⟨-, huser⟩ := h.valid.selectUser hselect
      apply transacts_keepUser h huser
      intro after hafter
      exact hreturns row.id after db hafter (.refl _) fun _ ↦ huser
    · intro _
      exact hreturns 0 worker db h (.refl _) fun hnot ↦ absurd rfl hnot

/-! ## Groups -/

theorem Agrees.insertGroup {tables : Tables} (h : worker.Agrees tables) {chat : Chat}
    {groupId : UInt64} (hgroup : tables.tgGroupIdOf groupId = some (Int64.ofInt chat.id))
    (groupMap : UnorderedMap Int Chat) :
    ({ worker with
        groupTgToDb := worker.groupTgToDb.insert chat.id groupId
        groupMap := groupMap } : Worker).Agrees tables := by
  constructor
  · exact h.users
  · intro tgGroupId found hlookup
    by_cases heq : tgGroupId = chat.id
    · subst heq
      rw [AList.lookup_insert] at hlookup
      rw [← Option.some.inj hlookup]
      exact hgroup
    · rw [AList.lookup_insert_ne heq] at hlookup
      exact h.groups tgGroupId found hlookup

theorem transacts_keepGroup {chat : Chat} {groupId : UInt64}
    {returns : UInt64 × Chat → Worker → Database → Prop}
    (h : Represents committed worker db store)
    (hgroup : db.working.tgGroupIdOf groupId = some (Int64.ofInt chat.id))
    (hreturns : ∀ pointed after, Represents committed after db store →
      returns (groupId, pointed) after db) :
    Transacts setting committed (keepGroup chat groupId) worker db returns := by
  apply keeps_bind
  apply keeps_get
  apply keeps_bind
  apply keeps_set
  apply keeps_pure
  apply hreturns
  exact ⟨h.committed, h.inTransaction, h.valid, h.canonical, h.agrees.insertGroup hgroup _⟩

/-- The exits of `resolveGroup`: the id is known, or the row is new, or the query finds it. -/
theorem transacts_resolveGroup_exits {chat : Chat}
    {returns : UInt64 × Chat → Worker → Database → Prop}
    (h : Represents committed worker db store)
    (hcached : ∀ groupId, worker.groupTgToDb.lookup chat.id = some groupId →
      returns (groupId, chat) worker db)
    (hinserted : worker.groupTgToDb.lookup chat.id = none → ∀ number tables,
      NumberedTable.Available number db.working.groups →
      db.working.insertGroup number ⟨Int64.ofInt chat.id, "GNUWeeb", chat.title⟩ = some tables →
      Transacts setting committed (keepGroup chat number) worker
        (db.write .insertGroup number tables) returns)
    (hfetched : worker.groupTgToDb.lookup chat.id = none → ∀ number row,
      db.working.insertGroup number ⟨Int64.ofInt chat.id, "GNUWeeb", chat.title⟩ = none →
      db.working.selectGroup (Int64.ofInt chat.id) = some row →
      Transacts setting committed (keepGroup chat row.id) worker db returns) :
    Transacts setting committed (resolveGroup chat) worker db returns := by
  apply keeps_bind
  apply keeps_get
  cases hlookup : worker.groupTgToDb.lookup chat.id with
  | some groupId => exact keeps_pure (hcached groupId hlookup)
  | none =>
    apply keeps_bind
    apply transacts_insertRow rfl rfl h.committed h.inTransaction
    · intro dateNow number tables row hnumber happly
      obtain ⟨after, hinsert, hafter⟩ := Option.map_eq_some_iff.mp happly
      obtain ⟨rfl, rfl⟩ := Prod.mk.inj hafter
      rw [if_pos (UInt64.pos_iff_ne_zero.mp hnumber.1)]
      exact hinserted hlookup number after hnumber hinsert
    · intro dateNow number hnumber happly
      have hinsert := Option.map_eq_none_iff.mp happly
      obtain ⟨row, hselect⟩ := Tables.selectGroup_of_insertGroup_eq_none hinsert
      obtain ⟨hpos, -⟩ := h.valid.selectGroup hselect
      have hfetch (number : UInt64) : db.working.apply setting.schema number .selectGroup
          [paramSint chat.id] = some (db.working, some row) :=
        congrArg (fun found ↦ some (db.working, found)) hselect
      rw [if_neg (by simp)]
      apply keeps_bind
      apply transacts_fetchRow rfl rfl h.committed h.inTransaction hfetch
      rw [Option.map_some, Option.getD_some, if_pos (UInt64.pos_iff_ne_zero.mp hpos)]
      exact hfetched hlookup number row hinsert hselect

/-- The result is the number of the group's row. -/
theorem transacts_resolveGroup {chat : Chat} {returns : UInt64 × Chat → Worker → Database → Prop}
    (h : Represents committed worker db store)
    (hreturns : ∀ groupId pointed after next,
      Represents committed after next (store.addGroup chat) →
      db.working.Extends next.working →
      next.working.tgGroupIdOf groupId = some (Int64.ofInt chat.id) →
      returns (groupId, pointed) after next) :
    Transacts setting committed (resolveGroup chat) worker db returns := by
  apply transacts_resolveGroup_exits h
  · intro groupId hlookup
    have hgroup := h.agrees.groups chat.id groupId hlookup
    apply hreturns groupId chat worker db _ (.refl _) hgroup
    rw [← h.canonical, Tables.addGroup_of_tgGroupIdOf hgroup]
    exact ⟨h.committed, h.inTransaction, h.valid, rfl, h.agrees⟩
  · intro _ number tables hnumber hinsert
    obtain ⟨hbecomes, hgroup⟩ := h.valid.insertGroup hnumber hinsert
    rw [← Tables.addGroup_of_insertGroup_eq_some hinsert, h.canonical] at hbecomes
    apply transacts_keepGroup (h.write _ _ hbecomes) hgroup
    intro pointed after hafter
    exact hreturns number pointed after _ hafter hbecomes.extends hgroup
  · intro _ number row hinsert hselect
    have hsame : store.addGroup chat = store := by
      rw [← h.canonical, Tables.addGroup_of_insertGroup_eq_none hinsert]
    rw [hsame] at hreturns
    obtain ⟨-, hgroup⟩ := h.valid.selectGroup hselect
    apply transacts_keepGroup h hgroup
    intro pointed after hafter
    exact hreturns row.id pointed after db hafter (.refl _) hgroup

/-! ## Files and data -/

/-- The result is 0, or the number of a new row. -/
theorem transacts_resolveFile {file : File} {returns : UInt64 → Worker → Database → Prop}
    (h : Represents committed worker db store) (hnone : returns 0 worker db)
    (hsome : ∀ downloaded md5Sum sha1Sum number next,
      Represents committed worker next
        (store.addFile (fileRow file downloaded md5Sum sha1Sum)) →
      next.working.messages = db.working.messages →
      NumberedTable.position next.working.files number = store.files.length →
      returns number worker next) :
    Transacts setting committed (resolveFile file) worker db returns := by
  apply keeps_bind
  apply keeps_sendQuerySync (fun _ ↦ True) h.committed
  · rintro answer _ rfl
    exact ⟨rfl, fun _ _ _ _ ↦ trivial⟩
  · intro downloaded _
    dsimp only
    split
    · exact keeps_pure hnone
    · apply keeps_bind
      apply transacts_ask
      rintro md5Buf _ rfl
      refine ⟨h.committed, ?_⟩
      cases (md5Buf : Option (List UInt8)) with
      | none => exact keeps_pure hnone
      | some md5Buf =>
        apply keeps_bind
        apply transacts_ask
        rintro sha1Buf _ rfl
        refine ⟨h.committed, ?_⟩
        cases (sha1Buf : Option (List UInt8)) with
        | none => exact keeps_pure hnone
        | some sha1Buf =>
          apply keeps_bind
          apply transacts_ask
          rintro _ _ rfl
          refine ⟨h.committed, ?_⟩
          apply keeps_bind
          apply transacts_ask
          rintro _ _ rfl
          refine ⟨h.committed, ?_⟩
          apply keeps_tryCatch_throw
          apply keeps_bind
          apply transacts_getDateNow h.committed
          intro dateNow
          apply keeps_bind
          apply transacts_prepare h.committed
          apply keeps_bind
          apply transacts_execute rfl h.committed h.inTransaction
          intro number tables row hnumber happly
          obtain ⟨inserted, hinsert, hinserted⟩ := Option.map_eq_some_iff.mp happly
          obtain ⟨rfl, -⟩ := Prod.mk.inj hinserted
          obtain ⟨hbecomes, hmessages, hposition⟩ := h.valid.insertFile hnumber hinsert
          rw [h.canonical] at hbecomes hposition
          have hnext := h.write .insertFile number hbecomes
          apply transacts_lastInsertId hnext.committed
          exact hsome downloaded md5Buf sha1Buf number _ hnext hmessages hposition
  · exact keeps_pure hnone

variable {dbMsgId : UInt64} {msg : Message} {isEdited : Bool}

theorem transacts_insertMsgDataText {text : FormattedText}
    {returns : Unit → Worker → Database → Prop} (h : Represents committed worker db store)
    (hreturns : ∀ next, Represents committed worker next
      (store.addData (dataRow (NumberedTable.position db.working.messages dbMsgId) msg isEdited
        text.text (entitiesText text) none)) → returns () worker next) :
    Transacts setting committed (insertMsgDataText dbMsgId msg text isEdited) worker db
      returns := by
  apply keeps_bind
  apply transacts_prepare h.committed
  apply keeps_bind
  apply transacts_getDateNow h.committed
  intro dateNow
  apply keeps_bind
  apply transacts_execute rfl h.committed h.inTransaction
  intro number tables row _ happly
  unfold msgDate at happly
  rw [Tables.apply_insertGroupMessageDataText (Tables.nullable_textEntities text)] at happly
  obtain ⟨after, hinsert, hafter⟩ := Option.map_eq_some_iff.mp happly
  obtain ⟨rfl, -⟩ := Prod.mk.inj hafter
  exact keeps_pure (hreturns _ (h.insertGroupMessageData _ hinsert))

theorem transacts_insertMsgDataFile {text : String} {textEntities : Parameter}
    {entities : Option String} {file : File} {returns : Unit → Worker → Database → Prop}
    (hentities : nullable textEntities = some entities) (h : Represents committed worker db store)
    (hreturns : ∀ next after,
      AddsFile (NumberedTable.position db.working.messages dbMsgId) msg isEdited text entities file
        store after → Represents committed worker next after → returns () worker next) :
    Transacts setting committed (insertMsgDataFile dbMsgId msg text textEntities file isEdited)
      worker db returns := by
  apply keeps_bind
  apply transacts_resolveFile h
  · -- no row of `gw_files` has the number 0
    apply keeps_bind
    apply transacts_prepare h.committed
    apply keeps_bind
    apply transacts_getDateNow h.committed
    intro dateNow
    apply keeps_bind
    apply transacts_execute rfl h.committed h.inTransaction
    intro number tables row _ happly
    unfold msgDate at happly
    rw [Tables.apply_insertGroupMessageData hentities] at happly
    obtain ⟨after, hinsert, -⟩ := Option.map_eq_some_iff.mp happly
    have hrefs := Tables.refs_of_insertGroupMessageData hinsert
    exact absurd (h.valid.files.pos 0 (hrefs.2 0 rfl)) (by decide)
  · intro downloaded md5Sum sha1Sum fileId middle hmiddle hmessages hposition
    apply keeps_bind
    apply transacts_prepare hmiddle.committed
    apply keeps_bind
    apply transacts_getDateNow hmiddle.committed
    intro dateNow
    apply keeps_bind
    apply transacts_execute rfl hmiddle.committed hmiddle.inTransaction
    intro number tables row _ happly
    unfold msgDate at happly
    rw [Tables.apply_insertGroupMessageData hentities] at happly
    obtain ⟨after, hinsert, hafter⟩ := Option.map_eq_some_iff.mp happly
    obtain ⟨rfl, -⟩ := Prod.mk.inj hafter
    refine keeps_pure (hreturns _ _ ⟨downloaded, md5Sum, sha1Sum, rfl⟩ ?_)
    have hnext := hmiddle.insertGroupMessageData .insertGroupMessageData hinsert
    simpa only [dataRow, Tables.canonicalData, hmessages, Option.map_some, hposition] using hnext

/-- The cases are the kinds of content. -/
theorem transacts_insertMsgData {returns : Unit → Worker → Database → Prop}
    (h : Represents committed worker db store)
    (hreturns : ∀ next after,
      AddsData (NumberedTable.position db.working.messages dbMsgId) msg isEdited store after →
        Represents committed worker next after → returns () worker next) :
    Transacts setting committed (insertMsgData dbMsgId msg isEdited) worker db returns := by
  unfold insertMsgData
  unfold AddsData at hreturns
  cases hcontent : msg.content with
  | messageText text =>
    rw [hcontent] at hreturns
    exact transacts_insertMsgDataText h fun next hnext ↦ hreturns next _ rfl hnext
  | messagePhoto sizes caption =>
    rw [hcontent] at hreturns
    dsimp only [insertMsgDataPhoto] at hreturns ⊢
    cases htaken : takenFile sizes with
    | none =>
      rw [htaken] at hreturns
      exact keeps_pure (hreturns db store rfl h)
    | some file =>
      rw [htaken] at hreturns
      exact transacts_insertMsgDataFile (Tables.nullable_textEntities caption) h hreturns
  | messageVideo file caption =>
    rw [hcontent] at hreturns
    exact transacts_insertMsgDataFile (Tables.nullable_textEntities caption) h hreturns
  | messageSticker sticker emoji =>
    rw [hcontent] at hreturns
    exact transacts_insertMsgDataFile rfl h hreturns
  | messageAnimation file caption =>
    rw [hcontent] at hreturns
    exact transacts_insertMsgDataFile (Tables.nullable_textEntities caption) h hreturns
  | messageDocument file caption =>
    rw [hcontent] at hreturns
    exact transacts_insertMsgDataFile (Tables.nullable_textEntities caption) h hreturns
  | messageAudio file caption =>
    rw [hcontent] at hreturns
    exact transacts_insertMsgDataFile (Tables.nullable_textEntities caption) h hreturns
  | messageChatJoinByLink =>
    rw [hcontent] at hreturns
    exact keeps_pure (hreturns db store rfl h)
  | other =>
    rw [hcontent] at hreturns
    exact keeps_pure (hreturns db store rfl h)

/-! ## Messages -/

theorem transacts_executeForward {fwd : MessageForwardInfo} {origType origText : String}
    {origId : UInt64} {returns : Unit → Worker → Database → Prop}
    (h : Represents committed worker db store)
    (hmessage : dbMsgId ∈ NumberedTable.numbers db.working.messages)
    (hreturns : ∀ next, Represents committed worker next
        (store.addForwards [forwardRow (NumberedTable.position db.working.messages dbMsgId) fwd
          origType origId origText]) →
      next.working.messages = db.working.messages → returns () worker next) :
    Transacts setting committed (executeForward dbMsgId fwd origType (.uint origId) origText)
      worker db returns := by
  apply keeps_bind
  apply transacts_execute rfl h.committed h.inTransaction
  intro number tables row _ happly
  obtain ⟨after, hinsert, hafter⟩ := Option.map_eq_some_iff.mp happly
  obtain ⟨rfl, -⟩ := Prod.mk.inj hafter
  obtain ⟨hbecomes, hmessages⟩ := h.valid.insertGroupMessageForward hmessage hinsert
  rw [h.canonical] at hbecomes
  exact keeps_pure (hreturns _ (h.write _ _ hbecomes) hmessages)

theorem transacts_saveForwardInfo {fwd : MessageForwardInfo}
    {returns : Unit → Worker → Database → Prop} (h : Represents committed worker db store)
    (hmessage : dbMsgId ∈ NumberedTable.numbers db.working.messages)
    (hreturns : ∀ next, Represents committed worker next
        (store.addForwards
          (originRows (NumberedTable.position db.working.messages dbMsgId) fwd)) →
      next.working.messages = db.working.messages → returns () worker next) :
    Transacts setting committed (saveForwardInfo dbMsgId fwd) worker db returns := by
  unfold saveForwardInfo
  unfold originRows at hreturns
  cases horigin : fwd.origin with
  | messageForwardOriginUser senderUserId =>
    rw [horigin] at hreturns
    apply keeps_bind
    apply transacts_prepare h.committed
    exact transacts_executeForward h hmessage hreturns
  | messageForwardOriginHiddenUser senderName =>
    rw [horigin] at hreturns
    apply keeps_bind
    apply transacts_prepare h.committed
    exact transacts_executeForward h hmessage hreturns
  | messageForwardOriginChannel authorSignature =>
    rw [horigin] at hreturns
    apply keeps_bind
    apply transacts_prepare h.committed
    apply keeps_tryCatch_throw
    exact transacts_executeForward h hmessage hreturns
  | messageForwardOriginChat senderChatId authorSignature =>
    rw [horigin] at hreturns
    apply keeps_bind
    apply transacts_prepare h.committed
    exact transacts_executeForward h hmessage hreturns
  | other =>
    rw [horigin] at hreturns
    refine keeps_pure (hreturns db ?_ rfl)
    simpa only [Store.addForwards, List.append_nil] using h

theorem transacts_saveForwardInfoIfAny {returns : Unit → Worker → Database → Prop}
    (h : Represents committed worker db store)
    (hmessage : dbMsgId ∈ NumberedTable.numbers db.working.messages)
    (hreturns : ∀ next, Represents committed worker next
        (store.addForwards
          (forwardRows (NumberedTable.position db.working.messages dbMsgId) msg)) →
      next.working.messages = db.working.messages → returns () worker next) :
    Transacts setting committed (saveForwardInfoIfAny dbMsgId msg) worker db returns := by
  unfold saveForwardInfoIfAny
  unfold forwardRows at hreturns
  cases hinfo : msg.forwardInfo with
  | some fwd =>
    rw [hinfo] at hreturns
    exact transacts_saveForwardInfo h hmessage hreturns
  | none =>
    rw [hinfo] at hreturns
    refine keeps_pure (hreturns db ?_ rfl)
    simpa only [Store.addForwards, List.append_nil] using h

variable {user : User} {chat : Chat} {dbUserId dbGroupId : UInt64} {type : String}

/-- The foreign keys make sure that the user was found. -/
theorem transacts_insertMessage {returns : UInt64 → Worker → Database → Prop}
    (h : Represents committed worker db store)
    (huser : dbUserId ≠ 0 → db.working.tgUserIdOf dbUserId = some (UInt64.ofInt user.id))
    (hgroup : db.working.tgGroupIdOf dbGroupId = some (Int64.ofInt chat.id))
    (hreturns : ∀ found next after,
      AddsData store.messages.length msg isEdited
        ((store.addMessage (messageRow msg type user chat)).addForwards
          (forwardRows store.messages.length msg)) after →
      Represents committed worker next after → returns found worker next) :
    Transacts setting committed (insertMessage msg type dbUserId dbGroupId isEdited false) worker
      db returns := by
  apply keeps_bind
  apply transacts_getDateNow h.committed
  intro dateNow
  apply keeps_bind
  apply transacts_prepare h.committed
  apply keeps_bind
  apply transacts_execute rfl h.committed h.inTransaction
  intro number tables row hnumber happly
  rw [Tables.apply_insertGroupMessage] at happly
  obtain ⟨after, hinsert, hafter⟩ := Option.map_eq_some_iff.mp happly
  obtain ⟨rfl, -⟩ := Prod.mk.inj hafter
  have hrefs := Tables.refs_of_insertGroupMessage hinsert
  have huserId := huser (UInt64.pos_iff_ne_zero.mp (h.valid.users.pos _ hrefs.2))
  obtain ⟨hbecomes, hmessage, hposition⟩ := h.valid.insertGroupMessage hnumber hinsert
  have hrow : db.working.canonicalMessage ⟨dbGroupId, dbUserId,
      UInt64.ofInt msg.id >>> 20, UInt64.ofInt msg.replyToMessageId >>> 20, type,
      false, msg.forwardInfo.isSome, false⟩ = messageRow msg type user chat := by
    simp [Tables.canonicalMessage, hgroup, huserId, messageRow]
  rw [hrow, h.canonical] at hbecomes
  rw [h.canonical] at hposition
  have hwritten := h.write .insertGroupMessage number hbecomes
  apply keeps_bind
  apply transacts_lastInsertId hwritten.committed
  apply keeps_bind
  apply transacts_saveForwardInfoIfAny hwritten hmessage
  intro next hnext hmessages
  apply keeps_bind
  apply transacts_insertMsgData hnext
  intro last final hdata hlast
  apply keeps_pure
  have hlastInsertId : (db.write .insertGroupMessage number after).lastInsertId = number := rfl
  rw [hmessages, hlastInsertId, working_write, hposition] at hdata
  exact hreturns _ last final hdata hlast

theorem transacts_updateHasEditedMsg {message : GwGroupMessage UInt64 UInt64} {tgGroupId : Int64}
    {returns : Unit → Worker → Database → Prop} (h : Represents committed worker db store)
    (hmessage : NumberedTable.rowAt db.working.messages dbMsgId = some message)
    (hrowGroup : db.working.tgGroupIdOf message.groupId = some tgGroupId)
    (hgroup : db.working.tgGroupIdOf dbGroupId = some tgGroupId)
    (hreturns : ∀ next, Represents committed worker next
        (store.markEdited (NumberedTable.position db.working.messages dbMsgId)) →
      NumberedTable.numbers next.working.messages = NumberedTable.numbers db.working.messages →
      returns () worker next) :
    Transacts setting committed (setHasEditedToTrue dbMsgId dbGroupId) worker db returns := by
  apply keeps_bind
  apply transacts_getDateNow h.committed
  intro dateNow
  apply keeps_bind
  apply transacts_prepare h.committed
  apply keeps_bind
  apply transacts_execute rfl h.committed h.inTransaction
  intro number tables row _ happly
  obtain ⟨rfl, -⟩ := Prod.mk.inj (Option.some.inj happly)
  have hlt := h.valid.groups.lt dbGroupId (Tables.mem_numbers_of_tgGroupIdOf hgroup)
  have hbecomes := h.valid.updateHasEditedMsg dbMsgId dbGroupId.toInt64
    fun found hfound ↦ by
      rw [hmessage, Option.some.injEq] at hfound
      rw [← hfound, h.valid.groupId_unique hrowGroup hgroup]
      exact Tables.signedEq_toInt64 dbGroupId hlt
  rw [h.canonical] at hbecomes
  apply keeps_pure
  apply hreturns _ (h.write _ _ hbecomes)
  rw [working_write, Tables.messages_updateHasEditedMsg, NumberedTable.numbers_update]

/-- What is found is marked, unless it is marked already, and gets another row of data. -/
theorem transacts_editMessage {row : Row} {returns : UInt64 → Worker → Database → Prop}
    (h : Represents committed worker db store)
    (hselect : db.working.selectGroupMessage (UInt64.ofInt msg.id) (Int64.ofInt msg.chatId) =
      some row)
    (hgroup : db.working.tgGroupIdOf dbGroupId = some (Int64.ofInt msg.chatId))
    (hreturns : ∀ position next after,
      store.find (UInt64.ofInt msg.id) (Int64.ofInt msg.chatId) = some position →
      (if isEdited then AddsData position msg isEdited (store.markEdited position) after
        else after = store) →
      Represents committed worker next after → returns row.id worker next) :
    Transacts setting committed (editMessage msg row.id dbGroupId
      (row.hasEditedMsg.toList.head? = some '1') isEdited) worker db returns := by
  obtain ⟨-, hfind, message, hmessage, hrowGroup, hedited⟩ := h.valid.selectGroupMessage hselect
  rw [h.canonical] at hfind
  cases isEdited with
  | false =>
    apply keeps_bind
    apply keeps_onlyIf (by simp)
    intro _
    apply keeps_bind
    apply keeps_onlyIf (by simp)
    intro _
    exact keeps_pure (hreturns _ db store hfind (by simp) h)
  | true =>
    have hdata {next : Database} (hnext : Represents committed worker next
          (store.markEdited (NumberedTable.position db.working.messages row.id)))
        (hposition : NumberedTable.position next.working.messages row.id =
          NumberedTable.position db.working.messages row.id) :
        Transacts setting committed (do
          onlyIf true (insertMsgData row.id msg true)
          pure row.id) worker next returns := by
      apply keeps_bind
      apply keeps_onlyIf
      · intro _
        apply transacts_insertMsgData hnext
        intro last after hadds hlast
        rw [hposition] at hadds
        exact keeps_pure (hreturns _ last after hfind (by simpa using hadds) hlast)
      · simp
    apply keeps_bind
    apply keeps_onlyIf
    · intro _
      exact transacts_updateHasEditedMsg h hmessage hrowGroup hgroup fun next hnext hnumbers ↦
        hdata hnext (congrArg (List.idxOf row.id) hnumbers)
    · intro hmarked
      have hmark : message.hasEditedMsg = true := by
        cases hflag : message.hasEditedMsg with
        | true => rfl
        | false =>
          rw [hedited, hflag] at hmarked
          simp at hmarked
      refine hdata ?_ rfl
      rw [← h.canonical, Tables.markEdited_of_edited hmessage hmark]
      exact ⟨h.committed, h.inTransaction, h.valid, rfl, h.agrees⟩

theorem transacts_resolveMessage {returns : Unit → Worker → Database → Prop}
    (h : Represents committed worker db store)
    (huser : dbUserId ≠ 0 → db.working.tgUserIdOf dbUserId = some (UInt64.ofInt user.id))
    (hgroup : db.working.tgGroupIdOf dbGroupId = some (Int64.ofInt chat.id))
    (hchat : chat.id = msg.chatId)
    (hreturns : ∀ next after, Saves msg user chat isEdited store after →
      Represents committed worker next after → returns () worker next) :
    Transacts setting committed (resolveMessage msg dbUserId dbGroupId isEdited false) worker db
      returns := by
  unfold resolveMessage
  unfold Saves at hreturns
  cases htype : msgType msg.content with
  | none =>
    rw [htype] at hreturns
    exact keeps_pure (hreturns db store rfl h)
  | some type =>
    rw [htype] at hreturns
    dsimp only at hreturns ⊢
    apply keeps_bind
    apply keeps_bind
    apply transacts_prepare h.committed
    apply keeps_bind
    apply transacts_execute rfl h.committed h.inTransaction
    intro number tables found _ happly
    obtain ⟨rfl, hselect⟩ := Prod.mk.inj (Option.some.inj happly)
    rw [Tables.toInt64_ofInt] at hselect
    rw [Database.write_working number h.inTransaction rfl]
    cases found with
    | some row =>
      have hpos := (h.valid.selectGroupMessage hselect).1
      apply keeps_pure
      apply keeps_bind
      dsimp only
      rw [if_pos (UInt64.pos_iff_ne_zero.mp hpos)]
      apply transacts_editMessage h hselect (hchat ▸ hgroup)
      intro position next after hfind hafter hnext
      apply keeps_onlyIf (by simp)
      intro _
      rw [hfind] at hreturns
      exact hreturns next after hafter hnext
    | none =>
      have hfind := h.valid.find_of_selectGroupMessage_eq_none hselect
      rw [h.canonical] at hfind
      apply keeps_pure
      apply keeps_bind
      dsimp only
      rw [if_neg (by simp)]
      apply transacts_insertMessage h huser hgroup
      intro dbMsgId next after hafter hnext
      apply keeps_onlyIf (by simp)
      intro _
      rw [hfind] at hreturns
      exact hreturns next after hafter hnext

theorem transacts_getUser {userId : Int} {returns : Option User → Worker → Database → Prop}
    (hcommitted : db.committed = committed)
    (hsome : ∀ user, user.id = userId → returns (some user) worker db)
    (hnone : returns none worker db) :
    Transacts setting committed (getUser userId) worker db returns := by
  apply keeps_sendQuerySync (fun user ↦ user.id = userId) hcommitted
  · rintro answer _ ⟨hid, rfl⟩
    refine ⟨rfl, fun object user hobject hcast ↦ hid user ?_⟩
    cases object with
    | user found => rw [hobject, Option.some.inj hcast]
    | _ => simp [Object.asUser] at hcast
  · exact hsome
  · exact hnone

theorem transacts_getChat {chatId : Int} {returns : Option Chat → Worker → Database → Prop}
    (hcommitted : db.committed = committed)
    (hsome : ∀ chat, chat.id = chatId → returns (some chat) worker db)
    (hnone : returns none worker db) :
    Transacts setting committed (getChat chatId) worker db returns := by
  apply keeps_sendQuerySync (fun chat ↦ chat.id = chatId) hcommitted
  · rintro answer _ ⟨hid, rfl⟩
    refine ⟨rfl, fun object chat hobject hcast ↦ hid chat ?_⟩
    cases object with
    | chat found => rw [hobject, Option.some.inj hcast]
    | _ => simp [Object.asChat] at hcast
  · exact hsome
  · exact hnone

theorem transacts_processMessage {returns : Unit → Worker → Database → Prop}
    (h : Represents committed worker db store)
    (hreturns : ∀ after next final, Stores msg isEdited store final →
      Represents committed after next final → returns () after next) :
    Transacts setting committed (processMessage msg isEdited false) worker db returns := by
  unfold processMessage
  unfold Stores at hreturns
  cases hsender : msg.sender with
  | messageSenderChat chatId =>
    rw [hsender] at hreturns
    exact keeps_pure (hreturns worker db store rfl h)
  | messageSenderUser userId =>
    rw [hsender] at hreturns
    dsimp only at hreturns ⊢
    apply keeps_bind
    apply transacts_getUser h.committed
    · intro user huserId
      apply keeps_bind
      apply transacts_getChat h.committed
      · intro chat hchatId
        apply keeps_bind
        apply keeps_pure
        apply keeps_bind
        apply transacts_resolveUser h
        intro dbUserId after next hnext hextends huser
        apply keeps_bind
        apply keeps_pure
        apply keeps_bind
        apply transacts_resolveGroup hnext
        intro dbGroupId pointed last middle hmiddle hextends' hgroup
        dsimp only
        apply transacts_resolveMessage hmiddle _ hgroup hchatId
        · intro final stored hsaves hfinal
          exact hreturns last final stored ⟨user, chat, huserId, hchatId, hsaves⟩ hfinal
        · exact fun hnonzero ↦ hextends'.users _ _ (huser hnonzero)
      · apply keeps_bind
        apply keeps_pure
        apply keeps_bind
        apply transacts_resolveUser h
        intro dbUserId after next _ _ _
        exact keeps_stop
    · apply keeps_bind
      apply transacts_getChat h.committed
      · exact fun _ _ ↦ keeps_stop
      · exact keeps_stop

end Worker

end Tgvisd.HistoryScraper
