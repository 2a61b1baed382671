/-!
# The td_api objects

The objects that TDLib hands to the program and the functions the program requests of it, as far
as the program reads or writes them. TDLib numbers are C++ integers of at most 64 bits; they are
kept as integers, and a conversion to a narrower type is written where the program makes it.
A pointer that an object owns is never null in an object TDLib delivers, so it is not an option
here; the program's own moves can empty it, which `CallbackArgument` in the client model shows.
-/

namespace Tgvisd.TdApi

/-! ## Objects -/

inductive AuthorizationState
  | waitTdlibParameters
  | waitEncryptionKey
  | waitPhoneNumber
  | waitCode
  | waitRegistration
  | waitPassword
  | waitOtherDeviceConfirmation (link : String)
  | ready
  | loggingOut
  | closing
  | closed
  deriving DecidableEq, Repr

structure User where
  id : Int
  username : String := ""
  firstName : String := ""
  lastName : String := ""
  deriving DecidableEq, Repr

structure Chat where
  id : Int
  title : String
  deriving DecidableEq, Repr

structure File where
  id : Int
  size : Int := 0
  remoteId : String := ""
  remoteUniqueId : String := ""
  localPath : String := ""
  localDownloadedSize : Int := 0
  deriving DecidableEq, Repr

/-- A text with its entities, which the program only counts and prints with `to_string`. -/
structure FormattedText where
  text : String
  entityCount : Nat := 0
  entitiesToString : String := ""
  deriving DecidableEq, Repr

inductive MessageContent
  | messageText (text : FormattedText)
  | messagePhoto (sizes : List File) (caption : FormattedText)
  | messageVideo (video : File) (caption : FormattedText)
  | messageSticker (sticker : File) (emoji : String)
  | messageAnimation (animation : File) (caption : FormattedText)
  | messageDocument (document : File) (caption : FormattedText)
  | messageAudio (audio : File) (caption : FormattedText)
  | messageChatJoinByLink
  | other
  deriving DecidableEq, Repr

inductive MessageSender
  | messageSenderUser (userId : Int)
  | messageSenderChat (chatId : Int)
  deriving DecidableEq, Repr

inductive MessageForwardOrigin
  | messageForwardOriginUser (senderUserId : Int)
  | messageForwardOriginHiddenUser (senderName : String)
  | messageForwardOriginChannel (authorSignature : String)
  | messageForwardOriginChat (senderChatId : Int) (authorSignature : String)
  | other
  deriving DecidableEq, Repr

structure MessageForwardInfo where
  origin : MessageForwardOrigin
  date : Int
  publicServiceAnnouncementType : String
  fromChatId : Int
  fromMessageId : Int
  deriving DecidableEq, Repr

structure Message where
  id : Int
  sender : MessageSender
  chatId : Int
  date : Int := 0
  editDate : Int := 0
  forwardInfo : Option MessageForwardInfo := none
  replyToMessageId : Int := 0
  content : MessageContent
  deriving DecidableEq, Repr

inductive ChatEventAction
  | chatEventMessageDeleted (message : Message)
  | chatEventMessageEdited (oldMessage newMessage : Message)
  | other
  deriving DecidableEq, Repr

structure ChatEvent where
  id : Int
  action : ChatEventAction
  deriving DecidableEq, Repr

/-- What TDLib may deliver, as an update or as the answer to a query. -/
inductive Object
  | updateAuthorizationState (authorizationState : AuthorizationState)
  | updateNewChat (chat : Chat)
  | updateChatTitle (chatId : Int) (title : String)
  | updateUser (user : User)
  | updateNewMessage (message : Message)
  | user (user : User)
  | chat (chat : Chat)
  | chats (totalCount : Int) (chatIds : List Int)
  | chatEvents (events : List ChatEvent)
  | file (file : File)
  | error (code : Int) (message : String)
  | other (constructorId : Int)
  deriving DecidableEq, Repr

/-- The constructor identifiers (`ID`) that the program compares `get_id()` with. -/
inductive ObjectId
  | updateAuthorizationState
  | updateNewChat
  | updateChatTitle
  | updateUser
  | updateNewMessage
  | user
  | chat
  | chats
  | chatEvents
  | file
  | error
  | other (constructorId : Int)
  deriving DecidableEq, Repr

def Object.getId : Object → ObjectId
  | .updateAuthorizationState _ => .updateAuthorizationState
  | .updateNewChat _ => .updateNewChat
  | .updateChatTitle _ _ => .updateChatTitle
  | .updateUser _ => .updateUser
  | .updateNewMessage _ => .updateNewMessage
  | .user _ => .user
  | .chat _ => .chat
  | .chats _ _ => .chats
  | .chatEvents _ => .chatEvents
  | .file _ => .file
  | .error _ _ => .error
  | .other constructorId => .other constructorId

/-! ## Functions -/

structure TdlibParameters where
  useMessageDatabase : Bool
  useSecretChats : Bool
  apiId : UInt32
  apiHash : String
  databaseDirectory : String
  systemLanguageCode : String
  deviceModel : String
  applicationVersion : String
  enableStorageOptimizer : Bool
  deriving DecidableEq, Repr

inductive Function
  | getOption (name : String)
  | close
  | getMe
  | setTdlibParameters (parameters : TdlibParameters)
  | checkDatabaseEncryptionKey (encryptionKey : String)
  | setAuthenticationPhoneNumber (phoneNumber : String)
  | checkAuthenticationCode (code : String)
  | registerUser (firstName lastName : String)
  | checkAuthenticationPassword (password : String)
  | getChats (offsetOrder offsetChatId : Int) (limit : Int)
  | getUser (userId : Int)
  | getChat (chatId : Int)
  | getChatEventLog (chatId : Int) (query : String) (fromEventId : Int) (limit : Int)
  | downloadFile (fileId priority offset limit : Int) (synchronous : Bool)
  | other (constructorId : Int)
  deriving DecidableEq, Repr

end Tgvisd.TdApi
