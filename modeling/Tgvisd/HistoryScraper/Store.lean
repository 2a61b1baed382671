import Tgvisd.HistoryScraper.Database
import Tgvisd.HistoryScraper.EventLog

/-!
# What the events leave

The content of the tables without the numbers of the rows: a message refers to its group and its
user by their Telegram ids, and all else by the positions of the rows. On this level an event is
stored in one step. What TDLib tells on the way (users, chats, files) is left open.
-/

namespace Tgvisd.HistoryScraper

open TdApi

structure Store where
  users : List GwUser := []
  groups : List GwGroup := []
  messages : List (GwGroupMessage Int64 UInt64) := []
  data : List (GwGroupMessageData Nat Nat) := []
  forwards : List (GwGroupMessageForward Nat) := []
  files : List GwFile := []
  tracked : List UInt64 := []
  deriving DecidableEq, Repr

/-! ## From tables to stores -/

namespace Tables

variable (tables : Tables)

def tgUserIdOf (userId : UInt64) : Option UInt64 :=
  (NumberedTable.rowAt tables.users userId).map GwUser.tgUserId

def canonicalMessage (message : GwGroupMessage UInt64 UInt64) : GwGroupMessage Int64 UInt64 :=
  { message with
    groupId := (tables.tgGroupIdOf message.groupId).getD 0
    userId := (tables.tgUserIdOf message.userId).getD 0 }

def canonicalData (data : GwGroupMessageData UInt64 UInt64) : GwGroupMessageData Nat Nat :=
  { data with
    msgId := NumberedTable.position tables.messages data.msgId
    file := data.file.map (NumberedTable.position tables.files) }

def canonicalForward (forward : GwGroupMessageForward UInt64) : GwGroupMessageForward Nat :=
  { forward with msgId := NumberedTable.position tables.messages forward.msgId }

def canonical : Store where
  users := NumberedTable.rows tables.users
  groups := NumberedTable.rows tables.groups
  messages := (NumberedTable.rows tables.messages).map tables.canonicalMessage
  data := (NumberedTable.rows tables.data).map tables.canonicalData
  forwards := tables.forwards.map tables.canonicalForward
  files := NumberedTable.rows tables.files
  tracked := tables.tracked

end Tables

/-! ## Storing a message -/

namespace Store

variable (store : Store)

def track (eventId : Int) : Store :=
  { store with tracked := store.tracked ++ [UInt64.ofInt eventId] }

def addUser (user : User) : Store :=
  if ∃ row ∈ store.users, row.tgUserId = UInt64.ofInt user.id then store
  else
    { store with
      users := store.users ++ [⟨UInt64.ofInt user.id, user.username, user.firstName,
        user.lastName⟩] }

def addGroup (chat : Chat) : Store :=
  if ∃ row ∈ store.groups, row.tgGroupId = Int64.ofInt chat.id then store
  else { store with groups := store.groups ++ [⟨Int64.ofInt chat.id, "GNUWeeb", chat.title⟩] }

/-- Where the first row of a message stands. -/
def find (tgMsgId : UInt64) (tgGroupId : Int64) : Option Nat :=
  store.messages.findIdx? fun row ↦ row.tgMsgId = tgMsgId ∧ row.groupId = tgGroupId

def addMessage (row : GwGroupMessage Int64 UInt64) : Store :=
  { store with messages := store.messages ++ [row] }

def markEdited (position : Nat) : Store :=
  { store with
    messages := store.messages.modify position fun row ↦ { row with hasEditedMsg := true } }

def addData (row : GwGroupMessageData Nat Nat) : Store :=
  { store with data := store.data ++ [row] }

def addForwards (rows : List (GwGroupMessageForward Nat)) : Store :=
  { store with forwards := store.forwards ++ rows }

def addFile (row : GwFile) : Store := { store with files := store.files ++ [row] }

end Store

/-- The row of a message when it is inserted. -/
def messageRow (msg : Message) (msgType : String) (user : User) (chat : Chat) :
    GwGroupMessage Int64 UInt64 where
  groupId := Int64.ofInt chat.id
  userId := UInt64.ofInt user.id
  tgMsgId := UInt64.ofInt msg.id >>> 20
  replyToTgMsgId := UInt64.ofInt msg.replyToMessageId >>> 20
  msgType := msgType
  hasEditedMsg := false
  isForwardedMsg := msg.forwardInfo.isSome
  isDeleted := false

def forwardRow (position : Nat) (fwd : MessageForwardInfo) (originType : String)
    (origId : UInt64) (originText : String) : GwGroupMessageForward Nat where
  msgId := position
  originType := originType
  origDate := getDateByUnixTM fwd.date
  pasAt := fwd.publicServiceAnnouncementType
  origId := origId
  originText := originText
  fromChatId := UInt64.ofInt fwd.fromChatId
  fromMsgId := UInt64.ofInt fwd.fromMessageId

/-- None for an origin that the scraper does not know. -/
def originRows (position : Nat) (fwd : MessageForwardInfo) : List (GwGroupMessageForward Nat) :=
  match fwd.origin with
  | .messageForwardOriginUser senderUserId =>
    [forwardRow position fwd "user" (UInt64.ofInt senderUserId) ""]
  | .messageForwardOriginHiddenUser senderName =>
    [forwardRow position fwd "hidden_user" (UInt64.ofInt 0) senderName]
  | .messageForwardOriginChannel authorSignature =>
    [forwardRow position fwd "channel" (UInt64.ofInt 0) authorSignature]
  | .messageForwardOriginChat senderChatId authorSignature =>
    [forwardRow position fwd "chat" (UInt64.ofInt senderChatId) authorSignature]
  | .other => []

def forwardRows (position : Nat) (msg : Message) : List (GwGroupMessageForward Nat) :=
  match msg.forwardInfo with
  | some fwd => originRows position fwd
  | none => []

def entitiesText (text : FormattedText) : Option String :=
  if 0 < text.entityCount then some text.entitiesToString else none

def dataRow (position : Nat) (msg : Message) (isEdited : Bool) (text : String)
    (textEntities : Option String) (file : Option Nat) : GwGroupMessageData Nat Nat where
  msgId := position
  text := text
  textEntities := textEntities
  file := file
  isEdited := isEdited
  tgDate := getDateByUnixTM (if isEdited then msg.editDate else msg.date)

/-- The row of a file, with what was found when it was downloaded. -/
def fileRow (file downloaded : File) (md5Sum sha1Sum : List UInt8) : GwFile where
  tgFileId := file.remoteId
  tgUniqId := file.remoteUniqueId
  md5Sum := md5Sum
  sha1Sum := sha1Sum
  ext := getFilenameExt downloaded.localPath
  size := UInt64.ofInt downloaded.localDownloadedSize

/-- A file and the data that refers to it. -/
def AddsFile (position : Nat) (msg : Message) (isEdited : Bool) (text : String)
    (textEntities : Option String) (file : File) (before after : Store) : Prop :=
  ∃ downloaded md5Sum sha1Sum, after =
    (before.addFile (fileRow file downloaded md5Sum sha1Sum)).addData
      (dataRow position msg isEdited text textEntities (some before.files.length))

/-- The content of a message whose row stands at a position. -/
def AddsData (position : Nat) (msg : Message) (isEdited : Bool) (before after : Store) : Prop :=
  match msg.content with
  | .messageText text =>
    after = before.addData (dataRow position msg isEdited text.text (entitiesText text) none)
  | .messagePhoto sizes caption =>
    match Worker.takenFile sizes with
    | some file =>
      AddsFile position msg isEdited caption.text (entitiesText caption) file before after
    | none => after = before
  | .messageSticker sticker emoji => AddsFile position msg isEdited emoji none sticker before after
  | .messageVideo file caption | .messageAnimation file caption
  | .messageDocument file caption | .messageAudio file caption =>
    AddsFile position msg isEdited caption.text (entitiesText caption) file before after
  | .messageChatJoinByLink | .other => after = before

/-- A message of a user, after the rows of the user and of the group have been found. -/
def Saves (msg : Message) (user : User) (chat : Chat) (isEdited : Bool) (before after : Store) :
    Prop :=
  match Worker.msgType msg.content with
  | none => after = before
  | some msgType =>
    match before.find (UInt64.ofInt msg.id) (Int64.ofInt msg.chatId) with
    | some position =>
      if isEdited then AddsData position msg isEdited (before.markEdited position) after
      else after = before
    | none =>
      AddsData before.messages.length msg isEdited
        ((before.addMessage (messageRow msg msgType user chat)).addForwards
          (forwardRows before.messages.length msg)) after

def Stores (msg : Message) (isEdited : Bool) (before after : Store) : Prop :=
  match msg.sender with
  | .messageSenderChat _ => after = before
  | .messageSenderUser userId =>
    ∃ user chat, user.id = userId ∧ chat.id = msg.chatId ∧
      Saves msg user chat isEdited ((before.addUser user).addGroup chat) after

/-! ## Storing events -/

/-- The transaction of an event that was not tracked. -/
def StoresEvent (ev : ChatEvent) (before after : Store) : Prop :=
  match ev.action with
  | .chatEventMessageDeleted msg => Stores msg false (before.track ev.id) after
  | .chatEventMessageEdited oldMessage newMessage =>
    ∃ middle, Stores oldMessage false (before.track ev.id) middle ∧
      Stores newMessage true middle after
  | .other => False

/-- The events were stored one after the other, starting from empty tables. -/
inductive Replays : List ChatEvent → Store → Prop
  | nil : Replays [] {}
  | snoc {events : List ChatEvent} {ev : ChatEvent} {before after : Store}
      (hevents : Replays events before) (hnew : UInt64.ofInt ev.id ∉ before.tracked)
      (hstores : StoresEvent ev before after) : Replays (events ++ [ev]) after

end Tgvisd.HistoryScraper
