import Tgvisd.HistoryScraper.Messages

/-!
# The event log

`Worker::run` walks a chat's event log from its newest event to its oldest, page by page. An
event that deletes or edits a message is stored in a transaction of its own, which starts by
entering the event's id into `track_event_id`; if that fails, the event is skipped.
-/

namespace Tgvisd.HistoryScraper.Worker

open TdApi Scrape

def trackEventId (eventId : Int) : Scrape Worker Bool :=
  tryCatch
    (do
      prepare .insertTrackEventId
      let _ ← execute .insertTrackEventId [paramUint eventId]
      pure true)
    (fun _ ↦ pure false)

/-- One transaction, whose messages are stored by `store`. -/
def storeEvent (eventId : Int) (store : Scrape Worker Unit) : Scrape Worker Unit := do
  executeText .startTransaction
  if ← trackEventId eventId then
    store
    executeText .commit
  else
    executeText .rollback

/-- The body of the loop over a page, after the minimum has been updated. -/
def processEvent (ev : ChatEvent) : Scrape Worker Unit :=
  match ev.action with
  | .chatEventMessageDeleted msg => storeEvent ev.id (processMessage msg false false)
  | .chatEventMessageEdited oldMessage newMessage =>
    storeEvent ev.id do
      processMessage oldMessage false false
      processMessage newMessage true false
  | .other => pure ()

def processEvents : Nat → Int → List ChatEvent → Scrape Worker Int
  | _, minEvent, [] => pure minEvent
  | i, minEvent, ev :: events => do
    let minEvent := if i = 0 then ev.id else if ev.id < minEvent then ev.id else minEvent
    processEvent ev
    processEvents (i + 1) minEvent events

/-- The least id of the page, or -1 for an empty page. -/
def processChatEventLog (events : List ChatEvent) : Scrape Worker Int :=
  processEvents 0 (-1) events

def getChatEventLog (chatId fromEventId : Int) : Scrape Worker (Option (List ChatEvent)) :=
  sendQuerySync Object.asChatEvents (.getChatEventLog chatId "" fromEventId 100) .chatEvents 30

/-- The loop, cut off after a number of rounds. -/
def gatherFrom (chatId : Int) : Nat → Int → Scrape Worker Unit
  | rounds, minEv =>
    if minEv = -1 then
      pure ()
    else
      match rounds with
      | 0 => Procedure.stop .cutOff
      | rounds + 1 => do
        match ← getChatEventLog chatId minEv with
        | none => pure ()
        | some events => gatherFrom chatId rounds (← processChatEventLog events)

def gatherChatEventLog (chatId : Int) (rounds : Nat) : Scrape Worker Unit :=
  gatherFrom chatId rounds 0

def requireEnv (name : String) : Scrape Worker String := do
  match (← ask (.getenv name) : Option String) with
  | some value => pure value
  | none => Procedure.stop .abort

/-- `strncpy` into a field of `size` bytes, the last of which stays zero. -/
def field (size : Nat) (value : String) : String := String.ofList (value.toList.take (size - 1))

def createDB (dbhost dbuser dbpass dbname : String) : Scrape Worker Unit := do
  orThrow (← ask (.connect (field 128 dbhost) 33060 (field 64 dbuser) (field 64 dbpass)
    (field 64 dbname)))

def run (rounds : Nat) : Scrape Worker Unit := do
  let dbhost ← requireEnv "DB_HOST"
  let dbuser ← requireEnv "DB_USER"
  let dbpass ← requireEnv "DB_PASS"
  let dbname ← requireEnv "DB_NAME"
  let _ ← ask (.sleep 2)
  let _ ← getChats
  let _ ← ask (.sleep 2)
  createDB dbhost dbuser dbpass dbname
  gatherChatEventLog (-1001483770714) rounds

end Tgvisd.HistoryScraper.Worker
