import Tgvisd.Lib.Numbered
import Tgvisd.Lib.World
import Tgvisd.Scrapers.Environment

/-!
# The database

The tables of the scraper and what its statements do to them. The columns `created_at` and
`updated_at`, which no statement reads, are left out, and so are the columns that are always at
their defaults. A statement fails on a duplicate key, on a reference to a row that does not exist,
where the schema does not fit it, and where a text of a file is too long for its column; names and
messages are kept short by Telegram. Numbers that are given to new rows grow, with gaps, and stay
below `2 ^ 63`. A query without an order delivers the row with the least number first.
-/

namespace Tgvisd.HistoryScraper

open TdApi

/-! ## Tables -/

/-- `gw_users` -/
structure GwUser where
  tgUserId : UInt64
  username : String
  firstName : String
  lastName : String
  deriving DecidableEq, Repr

/-- `gw_groups` -/
structure GwGroup where
  tgGroupId : Int64
  username : String
  name : String
  deriving DecidableEq, Repr

/-- `gw_group_messages`, over the types of its references. -/
structure GwGroupMessage (Group User : Type) where
  groupId : Group
  userId : User
  tgMsgId : UInt64
  replyToTgMsgId : UInt64
  msgType : String
  hasEditedMsg : Bool
  isForwardedMsg : Bool
  isDeleted : Bool
  deriving DecidableEq, Repr

/-- `gw_group_message_data` -/
structure GwGroupMessageData (Message File : Type) where
  msgId : Message
  text : String
  textEntities : Option String
  file : Option File
  isEdited : Bool
  tgDate : String
  deriving DecidableEq, Repr

/-- `gw_group_message_forward` -/
structure GwGroupMessageForward (Message : Type) where
  msgId : Message
  originType : String
  origDate : String
  pasAt : String
  origId : UInt64
  originText : String
  fromChatId : UInt64
  fromMsgId : UInt64
  deriving DecidableEq, Repr

/-- `gw_files` -/
structure GwFile where
  tgFileId : String
  tgUniqId : String
  md5Sum : List UInt8
  sha1Sum : List UInt8
  ext : String
  size : UInt64
  deriving DecidableEq, Repr

/-- The characters of a text, of which each `Char` is a byte in UTF-8: the bytes that continue a
character do not count. -/
def characters (text : String) : ℕ :=
  text.toList.countP fun byte ↦ byte.toNat < 0x80 || 0xc0 ≤ byte.toNat

/-- `varchar(255)`, `varchar(255)` and `varchar(32)` -/
def GwFile.Fits (file : GwFile) : Prop :=
  characters file.tgFileId ≤ 255 ∧ characters file.tgUniqId ≤ 255 ∧ characters file.ext ≤ 32

instance (file : GwFile) : Decidable file.Fits := inferInstanceAs (Decidable (_ ∧ _ ∧ _))

structure Tables where
  users : NumberedTable GwUser := []
  groups : NumberedTable GwGroup := []
  messages : NumberedTable (GwGroupMessage UInt64 UInt64) := []
  data : NumberedTable (GwGroupMessageData UInt64 UInt64) := []
  forwards : List (GwGroupMessageForward UInt64) := []
  files : NumberedTable GwFile := []
  /-- `track_event_id` -/
  tracked : List UInt64 := []
  deriving DecidableEq, Repr

/-- What the statements need beyond the schema that the repository holds: the column `is_deleted`
of `gw_group_messages`, and the table `gw_group_message_forward`. -/
structure Schema where
  isDeletedColumn : Bool
  forwardTable : Bool
  deriving DecidableEq, Repr

/-- `database.sql` -/
def Schema.dump : Schema := ⟨false, false⟩

def Schema.complete : Schema := ⟨true, true⟩

/-! ## Statements -/

/-- The value of an `enum('0','1')` column. -/
def enumFlag : String → Option Bool
  | "0" => some false
  | "1" => some true
  | _ => none

/-- The value of a text column that may be null. -/
def nullable : Parameter → Option (Option String)
  | .null => some none
  | .string value => some (some value)
  | _ => none

/-- An unsigned column equals a signed value. -/
def signedEq (column : UInt64) (value : Int64) : Bool := value.toInt = column.toNat

/-- `has_edited_msg = '1'` where the group is the given one. -/
def GwGroupMessage.edited {User : Type} (groupId : Int64) (message : GwGroupMessage UInt64 User) :
    GwGroupMessage UInt64 User :=
  { message with hasEditedMsg := message.hasEditedMsg || signedEq message.groupId groupId }

namespace Tables

variable (tables : Tables)

def tgGroupIdOf (groupId : UInt64) : Option Int64 :=
  (NumberedTable.rowAt tables.groups groupId).map GwGroup.tgGroupId

def insertTrackEventId (eventId : UInt64) : Option Tables :=
  if eventId ∈ tables.tracked then none
  else some { tables with tracked := tables.tracked ++ [eventId] }

def insertUser (number : UInt64) (user : GwUser) : Option Tables :=
  if ∃ entry ∈ tables.users, entry.row.tgUserId = user.tgUserId then none
  else some { tables with users := .insert number user tables.users }

def selectUser (tgUserId : Int64) : Option Row :=
  (tables.users.find? fun entry ↦ signedEq entry.row.tgUserId tgUserId).map fun entry ↦
    { id := entry.number }

def insertGroup (number : UInt64) (group : GwGroup) : Option Tables :=
  if ∃ entry ∈ tables.groups, entry.row.tgGroupId = group.tgGroupId then none
  else some { tables with groups := .insert number group tables.groups }

def selectGroup (tgGroupId : Int64) : Option Row :=
  (tables.groups.find? fun entry ↦ entry.row.tgGroupId = tgGroupId).map fun entry ↦
    { id := entry.number }

def insertGroupMessage (schema : Schema) (number : UInt64)
    (message : GwGroupMessage UInt64 UInt64) : Option Tables :=
  if schema.isDeletedColumn ∧ message.groupId ∈ NumberedTable.numbers tables.groups ∧
      message.userId ∈ NumberedTable.numbers tables.users then
    some { tables with messages := .insert number message tables.messages }
  else none

/-- The join with `gw_groups`. -/
def selectGroupMessage (tgMsgId : UInt64) (tgGroupId : Int64) : Option Row :=
  (tables.messages.find? fun entry ↦
      entry.row.tgMsgId = tgMsgId ∧ tables.tgGroupIdOf entry.row.groupId = some tgGroupId).map
    fun entry ↦ { id := entry.number, hasEditedMsg := if entry.row.hasEditedMsg then "1" else "0" }

/-- The number is the primary key, so that the limit of one row is void. -/
def updateHasEditedMsg (number : UInt64) (groupId : Int64) : Tables :=
  { tables with messages := .update number (GwGroupMessage.edited groupId) tables.messages }

def insertGroupMessageForward (schema : Schema) (forward : GwGroupMessageForward UInt64) :
    Option Tables :=
  if schema.forwardTable then some { tables with forwards := tables.forwards ++ [forward] }
  else none

/-- A reference that may be null is looked up; the numbers themselves are not enumerated. -/
instance (priority := 2000) (file : Option UInt64) (numbers : List UInt64) :
    Decidable (∀ number ∈ file, number ∈ numbers) := Option.decidableForallMem file

def insertGroupMessageData (number : UInt64) (data : GwGroupMessageData UInt64 UInt64) :
    Option Tables :=
  if data.msgId ∈ NumberedTable.numbers tables.messages ∧
      ∀ file ∈ data.file, file ∈ NumberedTable.numbers tables.files then
    some { tables with data := .insert number data tables.data }
  else none

def insertFile (number : UInt64) (file : GwFile) : Option Tables :=
  if file.Fits then some { tables with files := .insert number file tables.files } else none

/-- The tables and the row that a statement leaves, or nothing for an error. The statements that
concern the whole connection are not among them. -/
def apply (schema : Schema) (number : UInt64) :
    Sql → List Parameter → Option (Tables × Option Row)
  | .insertTrackEventId, [.uint eventId] => (tables.insertTrackEventId eventId).map (·, none)
  | .insertUser, [.uint tgUserId, .string username, .string firstName, .string lastName,
      .string _] =>
    (tables.insertUser number ⟨tgUserId, username, firstName, lastName⟩).map (·, none)
  | .selectUser, [.sint tgUserId] => some (tables, tables.selectUser tgUserId)
  | .insertGroup, [.sint tgGroupId, .string username, .string name, .string _] =>
    (tables.insertGroup number ⟨tgGroupId, username, name⟩).map (·, none)
  | .selectGroup, [.sint tgGroupId] => some (tables, tables.selectGroup tgGroupId)
  | .insertGroupMessage, [.uint groupId, .uint userId, .uint tgMsgId, .uint replyToTgMsgId,
      .string msgType, .string isForwardedMsg, .string isDeleted, .string _] => do
    let isForwardedMsg ← enumFlag isForwardedMsg
    let isDeleted ← enumFlag isDeleted
    (tables.insertGroupMessage schema number
      ⟨groupId, userId, tgMsgId, replyToTgMsgId, msgType, false, isForwardedMsg, isDeleted⟩).map
      (·, none)
  | .selectGroupMessage, [.uint tgMsgId, .sint tgGroupId] =>
    some (tables, tables.selectGroupMessage tgMsgId tgGroupId)
  | .updateHasEditedMsg, [.string _, .uint msgId, .sint groupId] =>
    some (tables.updateHasEditedMsg msgId groupId, none)
  | .insertGroupMessageForward, [.uint msgId, .string originType, .string origDate,
      .string pasAt, .uint origId, .string originText, .uint fromChatId, .uint fromMsgId] =>
    (tables.insertGroupMessageForward schema
      ⟨msgId, originType, origDate, pasAt, origId, originText, fromChatId, fromMsgId⟩).map
      (·, none)
  | .insertGroupMessageDataText, [.uint msgId, .string text, textEntities, .string isEdited,
      .string tgDate, .string _] => do
    let textEntities ← nullable textEntities
    let isEdited ← enumFlag isEdited
    (tables.insertGroupMessageData number
      ⟨msgId, text, textEntities, none, isEdited, tgDate⟩).map (·, none)
  | .insertGroupMessageData, [.uint msgId, .string text, textEntities, .uint file,
      .string isEdited, .string tgDate, .string _] => do
    let textEntities ← nullable textEntities
    let isEdited ← enumFlag isEdited
    (tables.insertGroupMessageData number
      ⟨msgId, text, textEntities, some file, isEdited, tgDate⟩).map (·, none)
  | .insertFile, [.string tgFileId, .string tgUniqId, .bytes md5Sum, .bytes sha1Sum, .string ext,
      .uint size, .string _] =>
    (tables.insertFile number ⟨tgFileId, tgUniqId, md5Sum, sha1Sum, ext, size⟩).map (·, none)
  -- `updateIsDeleted` is not well-formed
  | _, _ => none

/-- The number of the row that a statement inserts. -/
def MayNumber (sql : Sql) (number : UInt64) : Prop :=
  match sql with
  | .insertUser => NumberedTable.Available number tables.users
  | .insertGroup => NumberedTable.Available number tables.groups
  | .insertGroupMessage => NumberedTable.Available number tables.messages
  | .insertGroupMessageDataText => NumberedTable.Available number tables.data
  | .insertGroupMessageData => NumberedTable.Available number tables.data
  | .insertFile => NumberedTable.Available number tables.files
  | _ => True

end Tables

/-- `AUTO_INCREMENT` -/
def numbersItsRow : Sql → Bool
  | .insertUser | .insertGroup | .insertGroupMessage | .insertGroupMessageDataText
  | .insertGroupMessageData | .insertFile => true
  | _ => false

/-- What the scraper works with: the schema, a server on which an `INSERT` into `track_event_id`
may fail for other reasons than a duplicate key (a lock that is not granted in time, or a deadlock
or a lost connection, which end the transaction; preparing a statement may then fail, too), and
the pages that TDLib may deliver for a cursor, where `none` stands for a failed query. -/
structure Setting where
  schema : Schema
  mayFail : Bool
  eventLog : Int → Option (List ChatEvent) → Prop

/-! ## Transactions -/

/-- The server with the scraper's connection. Outside a transaction every statement commits. -/
structure Database where
  committed : Tables := {}
  working : Tables := {}
  inTransaction : Bool := false
  lastInsertId : UInt64 := 0
  deriving DecidableEq, Repr

namespace Database

variable (db : Database)

/-- A transaction that is still open is committed. -/
def startTransaction : Database :=
  { db with committed := db.working, inTransaction := true }

def commit : Database := { db with committed := db.working, inTransaction := false }

/-- `ROLLBACK`, or the end of the connection. -/
def abandon : Database := { db with working := db.committed, inTransaction := false }

def write (sql : Sql) (number : UInt64) (tables : Tables) : Database :=
  { db with
    working := tables
    committed := if db.inTransaction then db.committed else tables
    lastInsertId := if numbersItsRow sql then number else db.lastInsertId }

/-- The answer to a statement. -/
def Executes (schema : Schema) (sql : Sql) (parameters : List Parameter)
    (answer : Except String (Option Row)) (next : Database) : Prop :=
  match sql with
  | .startTransaction => answer = .ok none ∧ next = db.startTransaction
  | .rollback => answer = .ok none ∧ next = db.abandon
  | .commit => answer = .ok none ∧ next = db.commit
  | .selectLastInsertId => answer = .ok (some { id := db.lastInsertId }) ∧ next = db
  | sql => ∃ number, db.working.MayNumber sql number ∧
    match db.working.apply schema number sql parameters with
    | some (tables, row) => answer = .ok row ∧ next = db.write sql number tables
    | none => (∃ error, answer = .error error) ∧ next = db

/-- TDLib answers `getUser` and `getChat` by the object with the id that it was asked for, or by
none. What is not a statement does not touch the tables. -/
def Responds (setting : Setting) : Environment Request.Answer Database
  | db, .execute sql parameters, answer, next =>
    db.Executes setting.schema sql parameters answer next ∨
      (setting.mayFail = true ∧ sql = .insertTrackEventId ∧ (∃ error, answer = .error error) ∧
        (next = db ∨ next = db.abandon))
  | db, .prepare _, answer, next =>
    (answer = .ok () ∨ (setting.mayFail = true ∧ ∃ error, answer = .error error)) ∧ next = db
  | db, .connect _ _ _ _ _, answer, next =>
    (answer = .ok () ∧ next = { db.abandon with lastInsertId := 0 }) ∨
      ((∃ error, answer = .error error) ∧ next = db)
  | db, .sendQuerySync (.getUser userId) _ _, answer, next =>
    (∀ user, answer = some (.user user) → user.id = userId) ∧ next = db
  | db, .sendQuerySync (.getChat chatId) _ _, answer, next =>
    (∀ chat, answer = some (.chat chat) → chat.id = chatId) ∧ next = db
  | db, .sendQuerySync (.getChatEventLog _ _ fromEventId _) _ _, answer, next =>
    setting.eventLog fromEventId ((answer : Option Object).bind Object.asChatEvents) ∧ next = db
  | db, _, _, next => next = db

end Database

end Tgvisd.HistoryScraper
