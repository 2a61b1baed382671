import Tgvisd.Lib.Interaction
import Tgvisd.Td.SendQuerySync

/-!
# The environment of the scrapers

What the scrapers ask for outside their own memory: TDLib through `send_query_sync`, the database,
the file system, the clock and the environment variables. A C string is a `String` whose
characters are its bytes. Binding the parameters of a statement, executing it, fetching its first
row and reading the columns always stand together under the same handler, so they are one
exchange; preparing it is another.
-/

namespace Tgvisd

open TdApi

/-- The texts of the statements, under the name of what they do and of their table. -/
inductive Sql
  | startTransaction
  | rollback
  | commit
  /-- `INSERT INTO track_event_id VALUES (?)` -/
  | insertTrackEventId
  /-- `SELECT LAST_INSERT_ID()` -/
  | selectLastInsertId
  /-- `INSERT INTO gw_users (tg_user_id, username, first_name, last_name, is_bot, created_at,
  updated_at) VALUES (?, ?, ?, ?, '0', ?, NULL)` -/
  | insertUser
  /-- `SELECT id FROM gw_users WHERE tg_user_id = ?` -/
  | selectUser
  /-- `INSERT INTO gw_groups (tg_group_id, username, name, link, created_at, updated_at) VALUES
  (?, ?, ?, NULL, ?, NULL)` -/
  | insertGroup
  /-- `SELECT id FROM gw_groups WHERE tg_group_id = ?` -/
  | selectGroup
  /-- `INSERT INTO gw_group_message_forward (msg_id, origin_type, orig_date, pas_at, orig_id,
  origin_text, from_chat_id, from_msg_id) VALUES (?, ?, ?, ?, ?, ?, ?, ?)` -/
  | insertGroupMessageForward
  /-- `UPDATE gw_group_messages SET has_edited_msg = '1', updated_at = ? WHERE id = ? AND
  group_id = ? LIMIT 1` -/
  | updateHasEditedMsg
  /-- `UPDATE gw_group_messages SET is_deleted = '1' updated_at = ? WHERE id = ? AND
  group_id = ? LIMIT 1`, without a comma between the two assignments -/
  | updateIsDeleted
  /-- `SELECT a.id, a.has_edited_msg FROM gw_group_messages AS a INNER JOIN gw_groups AS b ON
  b.id = a.group_id WHERE a.tg_msg_id = ? AND b.tg_group_id = ?` -/
  | selectGroupMessage
  /-- `INSERT INTO gw_group_messages (group_id, user_id, tg_msg_id, reply_to_tg_msg_id, msg_type,
  has_edited_msg, is_forwarded_msg, is_deleted, created_at, updated_at) VALUES (?, ?, ?, ?, ?,
  '0', ?, ?, ?, NULL)` -/
  | insertGroupMessage
  /-- `INSERT INTO gw_group_message_data (msg_id, text, text_entities, file, is_edited, tg_date,
  created_at) VALUES (?, ?, ?, NULL, ?, ?, ?)` -/
  | insertGroupMessageDataText
  /-- The same with a parameter for `file`. -/
  | insertGroupMessageData
  /-- `INSERT INTO gw_files (tg_file_id, tg_uniq_id, md5_sum, sha1_sum, ext, size, created_at)
  VALUES (?, ?, ?, ?, ?, ?, ?)` -/
  | insertFile
  deriving DecidableEq, Repr

/-- `PARAM_NULL`, `PARAM_UINT`, `PARAM_SINT`, `PARAM_STRING` and `PARAM_BYTES`. -/
inductive Parameter
  | null
  | uint (value : UInt64)
  | sint (value : Int64)
  | string (value : String)
  | bytes (value : List UInt8)
  deriving DecidableEq, Repr

/-- The columns that are read from a row. -/
structure Row where
  id : UInt64
  hasEditedMsg : String := ""
  deriving DecidableEq, Repr

/-- `INT` arguments become 64-bit values in the variable argument list. -/
def paramUint (value : Int) : Parameter := .uint (UInt64.ofInt value)

def paramSint (value : Int) : Parameter := .sint (Int64.ofInt value)

inductive Request
  | sendQuerySync (function : Function) (returnId : ObjectId) (timeout : Int32)
  | sleep (seconds : Nat)
  | getenv (name : String)
  | time
  | connect (host : String) (port : UInt16) (user pass database : String)
  | prepare (sql : Sql)
  | execute (sql : Sql) (parameters : List Parameter)
  | md5File (path : String)
  | sha1File (path : String)
  | rename (oldPath newPath : String)
  | link (oldPath newPath : String)
  deriving DecidableEq, Repr

/-- TDLib delivers an object, or nothing before the timeout. The database may throw its error as
an `std::string`. A digest is missing if the file cannot be opened; `rename` and `link` tell
whether they failed. -/
abbrev Request.Answer : Request → Type
  | .sendQuerySync _ _ _ => Option Object
  | .sleep _ => Unit
  | .getenv _ => Option String
  | .time => Int
  | .connect _ _ _ _ _ => Except String Unit
  | .prepare _ => Except String Unit
  | .execute _ _ => Except String (Option Row)
  | .md5File _ => Option (List UInt8)
  | .sha1File _ => Option (List UInt8)
  | .rename _ _ => Bool
  | .link _ _ => Bool

/-- What ends a scraper for good: the use of a null pointer, `abort()`, a query without a timeout
that is never answered, and the bound that is put on a loop to look at a part of its run. -/
inductive Halt
  | nullDereference
  | abort
  | waitsForever
  | cutOff
  deriving DecidableEq, Repr

/-! ## The types of the answers -/

namespace TdApi.Object

def asUser : Object → Option User
  | .user answer => some answer
  | _ => none

def asChat : Object → Option Chat
  | .chat answer => some answer
  | _ => none

/-- The total count and the ids. -/
def asChats : Object → Option (Int × List Int)
  | .chats totalCount chatIds => some (totalCount, chatIds)
  | _ => none

def asChatEvents : Object → Option (List ChatEvent)
  | .chatEvents events => some events
  | _ => none

def asFile : Object → Option File
  | .file answer => some answer
  | _ => none

end TdApi.Object

/-! ## The code of a scraper -/

abbrev Exchange := Sigma Request.Answer

/-- The code of a scraper, with its own variables; it throws `std::string`. -/
abbrev Scrape (State Value : Type) := Procedure Request.Answer Halt String State Value

abbrev Scrape.Ending (State Value : Type) := Procedure.Ending Halt String State Value

namespace Scrape

variable {State Value : Type}

/-- The callback of `send_query_sync` keeps an object of the type that is asked for. -/
def retVal (returnId : ObjectId) (object : Object) : Option Object :=
  if object.getId = .error then
    none
  else if object.getId ≠ returnId then
    none
  else
    some object

def ask (request : Request) : Scrape State request.Answer := Procedure.perform request

/-- The pointer is null for a failed query; `cast` is `move_tl_object_as`. -/
def sendQuerySync (cast : Object → Option Value) (function : Function) (returnId : ObjectId)
    (timeout : Int32) : Scrape State (Option Value) := do
  let answer ← ask (.sendQuerySync function returnId timeout)
  match (answer : Option Object) with
  | some object => pure ((retVal returnId object).bind cast)
  | none => if 0 < timeout then pure none else Procedure.stop .waitsForever

/-- The use of a pointer that `send_query_sync` returned. -/
def dereference : Option Value → Scrape State Value
  | some value => pure value
  | none => Procedure.stop .nullDereference

/-- A database error is thrown. -/
def orThrow : Except String Value → Scrape State Value
  | .ok value => pure value
  | .error error => throw error

def prepare (sql : Sql) : Scrape State Unit := do
  orThrow (← ask (.prepare sql))

def execute (sql : Sql) (parameters : List Parameter) : Scrape State (Option Row) := do
  orThrow (← ask (.execute sql parameters))

/-- `if (condition) action;` -/
def onlyIf (condition : Bool) (action : Scrape State Unit) : Scrape State Unit :=
  if condition then action else pure ()

/-- `db_->prepare(sql)->execute()` -/
def executeText (sql : Sql) : Scrape State Unit := do
  prepare sql
  let _ ← execute sql []

end Scrape

end Tgvisd
