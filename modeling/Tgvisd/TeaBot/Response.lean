import Tgvisd.Lib.Interaction
import Tgvisd.TeaBot.Curl
import Tgvisd.TeaBot.Escape
import Tgvisd.TeaBot.Trim

/-!
# What the bot does with a message

Every text message gets a thread of its own, which runs `Response::run`: the message goes to
`MyMessage` if it comes from the account itself and to `Message` otherwise, and there to the first
module whose keyword it has. A thread asks TDLib, the shell and the network; nothing is said about
their answers. An access outside a block of memory, or to a cell that was never written, stops the
thread. The names of senders and chats, which nothing reads, are left out.
-/

namespace Tgvisd.TeaBot

/-! ## Messages and requests -/

inductive Sender
  | user (userId : ℤ)
  | chat (chatId : ℤ)
  deriving DecidableEq, Repr

inductive Content
  | text (text : List Char)
  | other
  deriving DecidableEq, Repr

structure Message where
  chatId : ℤ
  id : ℤ
  sender : Sender
  content : Content
  replyInChatId : ℤ
  replyToMessageId : ℤ
  deriving DecidableEq, Repr

inductive EntityType
  | preCode
  | bold
  deriving DecidableEq, Repr

structure TextEntity where
  offset : ℕ
  length : ℕ
  type : EntityType
  deriving DecidableEq, Repr

/-- The queries to TDLib, `popen`, and the request that `TeaCurl` makes. -/
inductive Request
  | getMessage (chatId messageId : ℤ)
  | sendMessage (chatId replyToMessageId : ℤ) (text : List Char) (entities : List TextEntity)
  | editMessageText (chatId messageId : ℤ) (text : List Char) (entities : List TextEntity)
  | popen (cmd : List Char)
  | download (url : List Char)
  deriving DecidableEq, Repr

/-- The content of the message, or null for an error; the output, or the text of `errno`; and the
pieces that libcurl hands over before it returns the code. -/
def Answer : Request → Type
  | .getMessage _ _ => Option Content
  | .sendMessage _ _ _ _ | .editMessageText _ _ _ _ => Unit
  | .popen _ => Except (List Char) (List Char)
  | .download _ => List Chunk × ℕ

inductive Halt
  | badAccess
  deriving DecidableEq, Repr

abbrev Bot := Procedure Answer Halt (List Char) Unit

def ask (request : Request) : Bot (Answer request) := Procedure.perform request

def getMessage (chatId messageId : ℤ) : Bot (Option Content) := ask (.getMessage chatId messageId)

def sendMessage (chatId replyToMessageId : ℤ) (text : List Char) (entities : List TextEntity) :
    Bot Unit :=
  ask (.sendMessage chatId replyToMessageId text entities)

def editMessageText (chatId messageId : ℤ) (text : List Char) (entities : List TextEntity) :
    Bot Unit :=
  ask (.editMessageText chatId messageId text entities)

def popen (cmd : List Char) : Bot (Except (List Char) (List Char)) := ask (.popen cmd)

def download (url : List Char) : Bot (List Chunk × ℕ) := ask (.download url)

/-- The versions in `releases.json`, with the defaults of `value`. -/
structure Releases where
  latestStable : List Char
  latest : List Char
  moniker : List Char

/-- What other libraries compute: the texts of the codes of libcurl, `json::parse` with the
accesses to its result, which may throw, and `to_string` of the update. -/
structure Libraries where
  curlEasyStrerror : ℕ → List Char
  parse : List Char → Except (List Char) Releases
  toString : Message → List Char

/-! ## `helpers.cpp` -/

/-- The end of `shell_exec`, on what `fread` leaves in `out`. -/
def readOutput (output : List Char) : Option (List Char) := do
  let out := output.take 8096
  let memory ← (Block.allocate 8096).storeAll 0 out
  let trim ← trimLen memory 0 out.length
  if trim.resLen = 0 then
    return ['~']
  else
    trim.memory.loadAll trim.result trim.resLen

/-- A computation in memory. -/
def inMemory {Value : Type} : Option Value → Bot Value
  | some value => pure value
  | none => Procedure.stop .badAccess

/-- A computation that may throw. -/
def liftExcept {Value : Type} : Except (List Char) Value → Bot Value
  | .ok value => pure value
  | .error what => throw what

def shellExec (cmd : List Char) : Bot (List Char) := do
  match ← popen cmd with
  | .error strerror => return "Error: ".toList ++ strerror.take 8088
  | .ok output => inMemory (readOutput output)

def tolower (x : Char) : Char := if 'A' ≤ x ∧ x ≤ 'Z' then Char.ofNat (x.toNat + 32) else x

def toupper (x : Char) : Char := if 'a' ≤ x ∧ x ≤ 'z' then Char.ofNat (x.toNat - 32) else x

/-- The loop of `mock_string`. -/
def mockFrom (c : Bool) : List Char → List Char
  | [] => []
  | x :: str => (if c then tolower x else toupper x) :: mockFrom (!c) str

def mockString (str : List Char) : List Char := mockFrom true str

/-! ## The modules -/

/-- What `Response::run` sets. -/
structure Response where
  message : Message
  text : List Char
  senderId : ℤ
  isSelfMsg : Bool

/-- The tests of `Debug`, `KernelUpdate` and `Mock`: a character and the keyword. -/
def hasKeyword (keyword : List Char) (text : List Char) : Bool :=
  !(text.length < keyword.length + 1) && (text.drop 1).take keyword.length == keyword

/-- `check_replied_msg` of `Sed` and of `Mock`: the text of the message that this one replies to. -/
def checkRepliedMsg (response : Response) : Bot (Option (List Char)) := do
  match ← getMessage response.message.replyInChatId
      response.message.replyToMessageId with
  | some (.text text) => return some text
  | some .other | none => return none

def Debug.run (libraries : Libraries) (response : Response) : Bot Unit :=
  editMessageText response.message.chatId response.message.id
    (libraries.toString response.message) []

def Debug.match (libraries : Libraries) (response : Response) : Bot Bool :=
  if hasKeyword "debug".toList response.text then do
    Debug.run libraries response
    return true
  else
    return false

def KernelUpdate.url : List Char := "https://www.kernel.org/releases.json".toList

/-- The reply if nothing throws. -/
def KernelUpdate.describe (libraries : Libraries) : Bot (List Char) := do
  let (chunks, res) ← download KernelUpdate.url
  match ← inMemory (TeaCurl.execute libraries.curlEasyStrerror {} chunks res) with
  | .error what => throw what
  | .ok cr =>
    let ret ← inMemory (cr.output.stringAt '\x00' 0)
    let releases ← liftExcept (libraries.parse ret)
    let date ← shellExec "date -u".toList
    return "[Linux Kernel Release Info]\n".toList ++
      "Latest stable: ".toList ++ releases.latestStable ++ "\n".toList ++
      "Latest release: ".toList ++ releases.latest ++ " (".toList ++ releases.moniker ++
      ")\n".toList ++ "Scraped at: ".toList ++ date ++ "\n\n".toList ++
      "See detailed info here: https://www.kernel.org/releases.json".toList

def KernelUpdate.run (libraries : Libraries) (response : Response) : Bot Unit := do
  let reply ← tryCatch (KernelUpdate.describe libraries) fun what ↦ return "Error: ".toList ++ what
  sendMessage response.message.chatId response.message.id reply []

def KernelUpdate.match (libraries : Libraries) (response : Response) : Bot Bool :=
  if hasKeyword "kernel".toList response.text then do
    KernelUpdate.run libraries response
    return true
  else
    return false

def Mock.run (response : Response) : Bot Unit := do
  match ← checkRepliedMsg response with
  | none => return
  | some repliedText =>
    editMessageText response.message.chatId response.message.id (mockString repliedText) []

def Mock.match (response : Response) : Bot Bool :=
  if hasKeyword "mock".toList response.text then do
    Mock.run response
    return true
  else
    return false

/-- What `popen` gets: the string that begins with the first byte of a block. -/
def command (heap : Option (Block Char)) : Option (List Char) := do
  (← heap).stringAt '\x00' 0

def ShellExec.Module.run (module : ShellExec.Module) (response : Response) : Bot Unit := do
  let cmdOut ← shellExec (← inMemory (command module.wrap))
  let entities := [TextEntity.mk 0 cmdOut.length .preCode]
  if module.editMsg then
    editMessageText response.message.chatId response.message.id cmdOut entities
  else
    sendMessage response.message.chatId response.message.id cmdOut entities

def ShellExec.match (response : Response) : Bot Bool :=
  match ShellExec.Module.match response.text response.isSelfMsg response.senderId with
  | none => return false
  | some module => do
    module.run response
    return true

def Sed.Module.run (module : Sed.Module) (response : Response) : Bot Unit := do
  match ← checkRepliedMsg response with
  | none => return
  | some repliedText =>
    let cmd ← inMemory (command (module.wrap repliedText))
    let reply := "Sed output:\n".toList ++ (← shellExec cmd)
    sendMessage response.message.chatId response.message.replyToMessageId reply [⟨0, 11, .bold⟩]

def Sed.match (response : Response) : Bot Bool :=
  match Sed.Module.match response.text with
  | none => return false
  | some module => do
    module.run response
    return true

/-! ## The dispatch -/

/-- `is_cmd_format` of `Message` and of `MyMessage`. -/
def isCmdFormat (text : List Char) : Bool :=
  !(text.length < 2) && text.head? ∈ [some '!', some '/', some '.']

/-- Ask the modules in order until one of them takes the message. -/
def firstMatch : List (Bot Bool) → Bot Unit
  | [] => pure ()
  | module :: modules => do
    if ← module then
      return
    else
      firstMatch modules

namespace Response

/-- `Message::handle_text_message` -/
def handleMessage (libraries : Libraries) (response : Response) : Bot Unit :=
  if isCmdFormat response.text then
    firstMatch [KernelUpdate.match libraries response, ShellExec.match response,
      Sed.match response]
  else
    pure ()

/-- `MyMessage::handle_text_message` -/
def handleMyMessage (libraries : Libraries) (response : Response) : Bot Unit :=
  if isCmdFormat response.text then
    firstMatch [Debug.match libraries response, KernelUpdate.match libraries response,
      Mock.match response, Sed.match response, ShellExec.match response]
  else
    pure ()

/-- `Response::run`; `get_user_id` is an `int32_t`. -/
def of (userId : ℤ) (message : Message) (text : List Char) : Response :=
  let senderId := match message.sender with
    | .user userId => userId
    | .chat chatId => chatId
  { message, text, senderId, isSelfMsg := userId.bmod 4294967296 = senderId }

def run (libraries : Libraries) (response : Response) : Bot Unit :=
  if response.isSelfMsg then
    response.handleMyMessage libraries
  else
    response.handleMessage libraries

end Response

/-- `TeaBot::updateNewMessage` and the thread that it starts. -/
def updateNewMessage (libraries : Libraries) (userId : ℤ) (message : Message) : Bot Unit :=
  match message.content with
  | .text text => (Response.of userId message text).run libraries
  | .other => pure ()

end Tgvisd.TeaBot
