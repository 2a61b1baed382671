import Tgvisd.HistoryScraper.Resolve

/-!
# Messages

The rows that a message leaves: its own in `gw_group_messages`, one in `gw_group_message_data`
for its content, one in `gw_group_message_forward` if it was forwarded, and one in `gw_files` for
its file, which is downloaded, hashed and renamed to its digests.
-/

namespace Tgvisd.HistoryScraper

open TdApi

/-! ## Files -/

/-- The position of the last occurrence of a character. -/
def strrchr (char : Char) : List Char → Option Nat
  | [] => none
  | first :: rest =>
    match strrchr char rest with
    | some position => some (position + 1)
    | none => if first = char then some 0 else none

def getFilenameExt (filename : String) : String :=
  match strrchr '.' filename.toList with
  | none => ""
  | some 0 => ""
  | some dot => String.ofList (filename.toList.drop (dot + 1))

def hexits : List Char := "0123456789abcdef".toList

def makeDigestEx (digest : List UInt8) : String :=
  String.ofList (digest.flatMap fun byte ↦
    [hexits.getD (byte.toNat / 16) '0', hexits.getD (byte.toNat % 16) '0'])

/-- `snprintf(new_fn, 1024, "storage/files/%s_%s.%s", ...)`, where a `Char` stands for a byte. -/
def newFn (md5Dg sha1Dg fileExt : String) : String :=
  String.ofList (("storage/files/" ++ md5Dg ++ "_" ++ sha1Dg ++ "." ++ fileExt).toList.take 1023)

namespace Worker

open Scrape

/-- The row of a file that was downloaded and hashed. `rename` and `link` may fail; the database
error is printed and thrown again. -/
def storeFile (file downloaded : File) (md5Buf sha1Buf : List UInt8) : Scrape Worker UInt64 := do
  let fileExt := getFilenameExt downloaded.localPath
  let newFn := newFn (makeDigestEx md5Buf) (makeDigestEx sha1Buf) fileExt
  let _ ← ask (.rename downloaded.localPath newFn)
  let _ ← ask (.link newFn downloaded.localPath)
  tryCatch
    (do
      let dateNow ← getDateNow
      prepare .insertFile
      let _ ← execute .insertFile [.string file.remoteId, .string file.remoteUniqueId,
        .bytes md5Buf, .bytes sha1Buf, .string fileExt,
        paramUint downloaded.localDownloadedSize, .string dateNow]
      lastInsertId)
    throw

def resolveFile (file : File) : Scrape Worker UInt64 := do
  match ← downloadFile file.id with
  | none => pure 0
  | some downloaded =>
    if downloaded.localPath = "" then
      pure 0
    else
      match (← ask (.md5File downloaded.localPath) : Option (List UInt8)) with
      | none => pure 0
      | some md5Buf =>
        match (← ask (.sha1File downloaded.localPath) : Option (List UInt8)) with
        | none => pure 0
        | some sha1Buf => storeFile file downloaded md5Buf sha1Buf

/-! ## The content of a message -/

/-- `text_entities`: null for a text without entities. -/
def textEntities (text : FormattedText) : Parameter :=
  if 0 < text.entityCount then .string text.entitiesToString else .null

def flag (value : Bool) : Parameter := .string (if value then "1" else "0")

/-- The date of the version that the message object holds. -/
def msgDate (msg : Message) (isEdited : Bool) : Parameter :=
  .string (getDateByUnixTM (if isEdited then msg.editDate else msg.date))

def insertMsgDataText (dbMsgId : UInt64) (msg : Message) (text : FormattedText)
    (isEdited : Bool) : Scrape Worker Unit := do
  prepare .insertGroupMessageDataText
  let dateNow ← getDateNow
  let _ ← execute .insertGroupMessageDataText [.uint dbMsgId, .string text.text,
    textEntities text, flag isEdited, msgDate msg isEdited, .string dateNow]

def insertMsgDataFile (dbMsgId : UInt64) (msg : Message) (text : String)
    (textEntities : Parameter) (file : File) (isEdited : Bool) : Scrape Worker Unit := do
  let fileId ← resolveFile file
  prepare .insertGroupMessageData
  let dateNow ← getDateNow
  let _ ← execute .insertGroupMessageData [.uint dbMsgId, .string text, textEntities,
    .uint fileId, flag isEdited, msgDate msg isEdited, .string dateNow]

/-- What the four kinds of content with one file and a caption have in common. -/
def insertMsgDataCaptioned (dbMsgId : UInt64) (msg : Message) (file : File)
    (caption : FormattedText) (isEdited : Bool) : Scrape Worker Unit :=
  insertMsgDataFile dbMsgId msg caption.text (textEntities caption) file isEdited

def insertMsgDataDocument (dbMsgId : UInt64) (msg : Message) (document : File)
    (caption : FormattedText) (isEdited : Bool) : Scrape Worker Unit :=
  insertMsgDataCaptioned dbMsgId msg document caption isEdited

def insertMsgDataAudio (dbMsgId : UInt64) (msg : Message) (audio : File)
    (caption : FormattedText) (isEdited : Bool) : Scrape Worker Unit :=
  insertMsgDataCaptioned dbMsgId msg audio caption isEdited

def insertMsgDataVideo (dbMsgId : UInt64) (msg : Message) (video : File)
    (caption : FormattedText) (isEdited : Bool) : Scrape Worker Unit :=
  insertMsgDataCaptioned dbMsgId msg video caption isEdited

def insertMsgDataAnimation (dbMsgId : UInt64) (msg : Message) (animation : File)
    (caption : FormattedText) (isEdited : Bool) : Scrape Worker Unit :=
  insertMsgDataCaptioned dbMsgId msg animation caption isEdited

def insertMsgDataSticker (dbMsgId : UInt64) (msg : Message) (sticker : File) (emoji : String)
    (isEdited : Bool) : Scrape Worker Unit :=
  insertMsgDataFile dbMsgId msg emoji .null sticker isEdited

/-- The first of the largest photos. -/
def takenFile (photos : List File) : Option File :=
  photos.foldl (fun taken photo ↦
    match taken with
    | none => some photo
    | some file => if file.size < photo.size then some photo else some file) none

def insertMsgDataPhoto (dbMsgId : UInt64) (msg : Message) (sizes : List File)
    (caption : FormattedText) (isEdited : Bool) : Scrape Worker Unit :=
  match takenFile sizes with
  | none => pure ()
  | some file => insertMsgDataCaptioned dbMsgId msg file caption isEdited

def insertMsgData (dbMsgId : UInt64) (msg : Message) (isEdited : Bool) : Scrape Worker Unit :=
  match msg.content with
  | .messageText text => insertMsgDataText dbMsgId msg text isEdited
  | .messagePhoto sizes caption => insertMsgDataPhoto dbMsgId msg sizes caption isEdited
  | .messageVideo video caption => insertMsgDataVideo dbMsgId msg video caption isEdited
  | .messageSticker sticker emoji => insertMsgDataSticker dbMsgId msg sticker emoji isEdited
  | .messageAnimation animation caption =>
    insertMsgDataAnimation dbMsgId msg animation caption isEdited
  | .messageDocument document caption =>
    insertMsgDataDocument dbMsgId msg document caption isEdited
  | .messageAudio audio caption => insertMsgDataAudio dbMsgId msg audio caption isEdited
  | .messageChatJoinByLink | .other => pure ()

/-! ## The message itself -/

def executeForward (dbMsgId : UInt64) (fwd : MessageForwardInfo) (origType : String)
    (origId : Parameter) (origText : String) : Scrape Worker Unit := do
  let _ ← execute .insertGroupMessageForward [.uint dbMsgId, .string origType,
    .string (getDateByUnixTM fwd.date), .string fwd.publicServiceAnnouncementType, origId,
    .string origText, paramUint fwd.fromChatId, paramUint fwd.fromMessageId]

def saveForwardInfo (dbMsgId : UInt64) (fwd : MessageForwardInfo) : Scrape Worker Unit := do
  match fwd.origin with
  | .messageForwardOriginUser senderUserId =>
    prepare .insertGroupMessageForward
    executeForward dbMsgId fwd "user" (paramUint senderUserId) ""
  | .messageForwardOriginHiddenUser senderName =>
    prepare .insertGroupMessageForward
    executeForward dbMsgId fwd "hidden_user" (paramUint 0) senderName
  | .messageForwardOriginChannel authorSignature =>
    prepare .insertGroupMessageForward
    -- the error is printed and thrown again
    tryCatch (executeForward dbMsgId fwd "channel" (paramUint 0) authorSignature) throw
  | .messageForwardOriginChat senderChatId authorSignature =>
    prepare .insertGroupMessageForward
    executeForward dbMsgId fwd "chat" (paramUint senderChatId) authorSignature
  | .other => pure ()

def saveForwardInfoIfAny (dbMsgId : UInt64) (msg : Message) : Scrape Worker Unit :=
  match msg.forwardInfo with
  | some fwd => saveForwardInfo dbMsgId fwd
  | none => pure ()

/-- Both updates of a message's row. -/
def updateMessage (sql : Sql) (dbMsgId dbGroupId : UInt64) : Scrape Worker Unit := do
  let dateNow ← getDateNow
  prepare sql
  let _ ← execute sql [.string dateNow, .uint dbMsgId, .sint dbGroupId.toInt64]

def setHasEditedToTrue (dbMsgId dbGroupId : UInt64) : Scrape Worker Unit :=
  updateMessage .updateHasEditedMsg dbMsgId dbGroupId

def setIsDeletedToTrue (dbMsgId dbGroupId : UInt64) : Scrape Worker Unit :=
  updateMessage .updateIsDeleted dbMsgId dbGroupId

/-- The row's id, or 0, and whether it is marked as edited. -/
def getDBMsgIdIfExists (tgMsgId chatId : UInt64) : Scrape Worker (UInt64 × Bool) := do
  prepare .selectGroupMessage
  match ← execute .selectGroupMessage [.uint tgMsgId, .sint chatId.toInt64] with
  | some row => pure (row.id, row.hasEditedMsg.toList.head? = some '1')
  | none => pure (0, false)

def msgType : MessageContent → Option String
  | .messageText _ => some "text"
  | .messagePhoto _ _ => some "photo"
  | .messageVideo _ _ => some "video"
  | .messageSticker _ _ => some "sticker"
  | .messageAnimation _ _ => some "animation"
  | .messageDocument _ _ => some "document"
  | .messageAudio _ _ => some "audio"
  | .messageChatJoinByLink => some "join"
  | .other => none

/-- The row of a message that was not found. -/
def insertMessage (msg : Message) (msgType : String) (dbUserId dbGroupId : UInt64)
    (isEdited isDeleted : Bool) : Scrape Worker UInt64 := do
  let dateNow ← getDateNow
  prepare .insertGroupMessage
  let _ ← execute .insertGroupMessage [.uint dbGroupId, .uint dbUserId,
    -- `PARAM_UINT` casts before the shift
    .uint (UInt64.ofInt msg.id >>> 20), .uint (UInt64.ofInt msg.replyToMessageId >>> 20),
    .string msgType, flag msg.forwardInfo.isSome, flag isDeleted, .string dateNow]
  let dbMsgId ← lastInsertId
  saveForwardInfoIfAny dbMsgId msg
  insertMsgData dbMsgId msg isEdited
  pure dbMsgId

/-- A message that was found is only touched by an edit. -/
def editMessage (msg : Message) (dbMsgId dbGroupId : UInt64) (hasEditedMsg isEdited : Bool) :
    Scrape Worker UInt64 := do
  onlyIf (isEdited && !hasEditedMsg) (setHasEditedToTrue dbMsgId dbGroupId)
  onlyIf isEdited (insertMsgData dbMsgId msg isEdited)
  pure dbMsgId

/-- The last step is at the label `out_delete_chk`. -/
def resolveMessage (msg : Message) (dbUserId dbGroupId : UInt64) (isEdited isDeleted : Bool) :
    Scrape Worker Unit :=
  match msgType msg.content with
  | none => pure ()
  | some msgType => do
    let found ← getDBMsgIdIfExists (UInt64.ofInt msg.id) (UInt64.ofInt msg.chatId)
    let dbMsgId ← (
      if found.1 ≠ 0 then
        editMessage msg found.1 dbGroupId found.2 isEdited
      else
        insertMessage msg msgType dbUserId dbGroupId isEdited isDeleted)
    onlyIf isDeleted (setIsDeletedToTrue dbMsgId dbGroupId)

/-- Both queries are sent before either answer is used. -/
def processMessage (msg : Message) (isEdited isDeleted : Bool) : Scrape Worker Unit :=
  match msg.sender with
  | .messageSenderChat _ => pure ()
  | .messageSenderUser userId => do
    let user ← getUser userId
    let chat ← getChat msg.chatId
    let (dbUserId, _) ← resolveUser (← dereference user)
    let (dbGroupId, _) ← resolveGroup (← dereference chat)
    resolveMessage msg dbUserId dbGroupId isEdited isDeleted

end Worker

end Tgvisd.HistoryScraper
