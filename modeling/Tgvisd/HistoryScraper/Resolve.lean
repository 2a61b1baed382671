import Tgvisd.HistoryScraper.Date
import Tgvisd.Lib.UnorderedMap
import Tgvisd.Scrapers.Environment

/-!
# Users and groups

The worker's queries to TDLib and the rows of `gw_users` and `gw_groups`: a user or a group is
looked up in the worker's maps, else inserted, else (when the insertion fails) fetched.
-/

namespace Tgvisd.HistoryScraper

open TdApi

/-- The maps of a `Worker`, keyed as they are in the source. -/
structure Worker where
  userTgToDb : UnorderedMap Int UInt64 := ∅
  groupTgToDb : UnorderedMap Int UInt64 := ∅
  userMap : UnorderedMap UInt64 User := ∅
  groupMap : UnorderedMap Int Chat := ∅

namespace Worker

open Scrape

/-! ## Queries -/

def getChats : Scrape Worker (Option (Int × List Int)) :=
  sendQuerySync Object.asChats (.getChats 9223372036854775807 0 100) .chats (-1)

def getUser (userId : Int) : Scrape Worker (Option User) :=
  sendQuerySync Object.asUser (.getUser userId) .user 30

def getChat (chatId : Int) : Scrape Worker (Option Chat) :=
  sendQuerySync Object.asChat (.getChat chatId) .chat 30

def downloadFile (fileId : Int) : Scrape Worker (Option File) :=
  sendQuerySync Object.asFile (.downloadFile fileId 32 0 0 true) .file 30

/-! ## Rows -/

def getDateNow : Scrape Worker String := do
  let epochNow ← ask .time
  pure (getDateByUnixTM epochNow)

def lastInsertId : Scrape Worker UInt64 := do
  prepare .selectLastInsertId
  match ← execute .selectLastInsertId [] with
  | some row => pure row.id
  | none => pure 0

/-- The id of a new row, or 0 if the insertion throws. -/
def insertRow (insert : Sql) (parameters : String → List Parameter) : Scrape Worker UInt64 := do
  prepare insert
  let inserted ← tryCatch
    (do
      let dateNow ← getDateNow
      let _ ← execute insert (parameters dateNow)
      pure true)
    (fun _ ↦ pure false)
  if inserted then lastInsertId else pure 0

/-- The label `do_fetch`: the id of a row, or 0. -/
def fetchRow (select : Sql) (parameters : List Parameter) : Scrape Worker UInt64 := do
  prepare select
  match ← execute select parameters with
  | some row => pure row.id
  | none => pure 0

/-- What `resolveUser` and `resolveGroup` do for an object that is not in their maps. `keep` is
the label `out`, and `asIs` the result at `out_no_move`. -/
def resolveRow {Value : Type} (insert fetch : Scrape Worker UInt64)
    (keep : UInt64 → Scrape Worker Value) (asIs : Value) : Scrape Worker Value := do
  let inserted ← insert
  if inserted ≠ 0 then
    keep inserted
  else
    let fetched ← fetch
    if fetched ≠ 0 then keep fetched else pure asIs

/-- The user is moved into the map and looked up there. -/
def keepUser (user : User) (ret : UInt64) : Scrape Worker (UInt64 × User) := do
  let worker ← get
  set { worker with
    userTgToDb := worker.userTgToDb.insert user.id ret
    userMap := worker.userMap.insert ret user }
  pure (ret, user)

/-- The row's id, and the object that `user_p` points to. -/
def resolveUser (user : User) : Scrape Worker (UInt64 × User) := do
  match (← get).userTgToDb.lookup user.id with
  | some ret => pure (ret, user)
  | none =>
    resolveRow
      (insertRow .insertUser fun dateNow ↦ [paramUint user.id, .string user.username,
        .string user.firstName, .string user.lastName, .string dateNow])
      (fetchRow .selectUser [paramSint user.id])
      (keepUser user) (0, user)

/-- The chat is stored under its own id but looked up under the row's; `operator[]` makes an
empty chat where there is none. -/
def keepGroup (chat : Chat) (ret : UInt64) : Scrape Worker (UInt64 × Chat) := do
  let worker ← get
  let stored := worker.groupMap.insert chat.id chat
  let empty : Chat := { id := 0, title := "" }
  let key := ret.toInt64.toInt
  set { worker with
    groupTgToDb := worker.groupTgToDb.insert chat.id ret
    groupMap := UnorderedMap.emplace key empty stored }
  pure (ret, (stored.lookup key).getD empty)

/-- The row's id, and the object that `chat_p` points to. -/
def resolveGroup (chat : Chat) : Scrape Worker (UInt64 × Chat) := do
  match (← get).groupTgToDb.lookup chat.id with
  | some ret => pure (ret, chat)
  | none =>
    resolveRow
      (insertRow .insertGroup fun dateNow ↦ [paramSint chat.id, .string "GNUWeeb",
        .string chat.title, .string dateNow])
      (fetchRow .selectGroup [paramSint chat.id])
      (keepGroup chat) (0, chat)

end Worker

end Tgvisd.HistoryScraper
