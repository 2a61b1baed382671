import Tgvisd.Td.Api
import Tgvisd.Lib.UnorderedMap

/-!
# The Td client

The class `Td`: its fields, the queries it sends, the dispatch of what TDLib returns and the
authorization state machine. Every branch of the dispatch ends with at most one `send_query` and
one callback; `Reaction` holds the object as the branch leaves it together with these two
remaining calls, so that the loop thread's own `send_query` can also be interleaved with those of
other threads. A null pointer that is dereferenced ends the run in a `Crash`.

TDLib stands outside: what `receive` returns is a list of responses (an empty response is a
timeout), and standard input is a list of lines.
-/

namespace Tgvisd

open TdApi

/-- The functions that `handlers_` stores. The callback of `send_query_sync` is known by the call
it belongs to, a caller's own function by a number. -/
inductive Handler
  | getMe
  | authentication (id : UInt64)
  | sync (call : Nat)
  | user (tag : Nat)
  deriving DecidableEq, Repr

structure Query where
  function : Function
  handler : Option Handler := none
  deriving DecidableEq, Repr

/-- A stored handler, with the query it was registered for (counted in ids drawn) and the number
of authorization updates processed until then; the program reads only `handler`. -/
structure Entry where
  handler : Handler
  owner : Nat
  epoch : Nat
  deriving DecidableEq, Repr

/-- The functions registered by the program's own code, each known by a number. -/
structure Callback where
  updateAuthorizationState : Option Nat := none
  updateNewChat : Option Nat := none
  updateChatTitle : Option Nat := none
  updateUser : Option Nat := none
  updateNewMessage : Option Nat := none
  deriving DecidableEq, Repr

/-- An update as a callback sees it; a pointer that was moved away is null. -/
inductive CallbackArgument
  | updateAuthorizationState (authorizationState : Option AuthorizationState)
  | updateNewChat (chat : Option Chat)
  | updateChatTitle (chatId : Int) (title : String)
  | updateUser (user : Option User)
  | updateNewMessage (message : Option Message)
  deriving DecidableEq, Repr

/-- What the object did with queries and authorization states, for statements about runs. -/
inductive Action
  | emplaced (queryId : UInt64) (function : Function) (entry : Entry) (inserted : Bool)
  | authorized (state : AuthorizationState)
  | ranAuthorization (state : AuthorizationState)
  | invoked (queryId : UInt64) (entry : Entry) (object : Object)
  deriving DecidableEq, Repr

/-- Bookkeeping that no function of the program reads: the number of ids drawn, the number of
authorization updates processed, the actions and the callback invocations, both newest first. -/
structure Ghost where
  drawn : Nat := 0
  epoch : Nat := 0
  log : List Action := []
  calls : List (Nat × CallbackArgument) := []

/-- The queries handed over, with client and request id, newest first. -/
structure ClientManager where
  requests : List (Int × UInt64 × Function) := []

structure Td where
  apiId : UInt32
  apiHash : String
  dataPath : String
  callback : Callback := {}
  closed : Bool := false
  needRestart : Bool := false
  isAuthorized : Bool := false
  userId : Int := 0
  clientId : Int := 0
  currentQueryId : UInt64 := 0
  authenticationQueryId : UInt64 := 0
  clientManager : Option ClientManager := none
  authorizationState : Option AuthorizationState := none
  chatTitle : UnorderedMap Int String := ∅
  handlers : UnorderedMap UInt64 Entry := ∅
  users : UnorderedMap Int32 User := ∅
  stdin : List String := []
  ghost : Ghost := {}

inductive Fault
  | nullClientManager
  | nullAuthorizationState
  deriving DecidableEq, Repr

/-- A null dereference, and the object at that moment. -/
structure Crash where
  fault : Fault
  td : Td

structure Response where
  requestId : UInt64 := 0
  object : Option Object := none
  deriving DecidableEq, Repr

/-- A branch's result: the object, then the query it sends and the callback it runs. -/
structure Reaction where
  td : Td
  query : Option Query := none
  callback : Option CallbackArgument := none

namespace Td

def record (td : Td) (action : Action) : Td :=
  { td with ghost := { td.ghost with log := action :: td.ghost.log } }

/-! ## Sending a query -/

/-- `atomic_fetch_add(&current_query_id_, 1)` -/
def nextQueryId (td : Td) : UInt64 × Td :=
  (td.currentQueryId,
    { td with
      currentQueryId := td.currentQueryId + 1
      ghost := { td.ghost with drawn := td.ghost.drawn + 1 } })

/-- The query's handler, if it has one, goes into `handlers_`. -/
def register (td : Td) (queryId : UInt64) (owner : Nat) (query : Query) : Td :=
  match query.handler with
  | none => td
  | some handler =>
    let entry := { handler := handler, owner := owner, epoch := td.ghost.epoch }
    { td.record (.emplaced queryId query.function entry (queryId ∉ td.handlers)) with
      handlers := td.handlers.emplace queryId entry }

/-- `client_manager_->send` -/
def handOver (td : Td) (queryId : UInt64) (function : Function) : Except Crash Td :=
  match td.clientManager with
  | none => .error ⟨.nullClientManager, td⟩
  | some manager =>
    .ok { td with clientManager := some ⟨(td.clientId, queryId, function) :: manager.requests⟩ }

def sendQuery (td : Td) (query : Query) : Except Crash Td :=
  let owner := td.ghost.drawn
  let (queryId, td) := td.nextQueryId
  (td.register queryId owner query).handOver queryId query.function

/-! ## The authorization state machine -/

/-- `std::getline(std::cin, ..)`; at the end of the input the string stays empty. -/
def getline (td : Td) : String × Td :=
  (td.stdin.headD "", { td with stdin := td.stdin.tail })

def createAuthenticationQueryHandler (td : Td) : Handler :=
  .authentication td.authenticationQueryId

/-- The six states that ask TDLib for something send it with the same kind of handler. -/
def sendAuthenticationQuery (td : Td) (function : Function) : Reaction where
  td := td
  query := some ⟨function, some td.createAuthenticationQueryHandler⟩

def asReady (td : Td) : Reaction where
  td := { td with isAuthorized := true }
  query := some ⟨.getMe, some .getMe⟩

/-- The handler of `getMe`: the account's own user id. -/
def asReadyCallback (td : Td) (object : Object) : Td :=
  match object with
  | .user user => { td with userId := user.id }
  | _ => td

def asLoggingOut (td : Td) : Reaction where
  td := { td with isAuthorized := false }

def asClosing (td : Td) : Reaction where
  td := td

def asClosed (td : Td) : Reaction where
  td := { td with closed := true, needRestart := true, isAuthorized := false }

def asWaitCode (td : Td) : Reaction :=
  let (code, td) := td.getline
  td.sendAuthenticationQuery (.checkAuthenticationCode code)

def asWaitRegis (td : Td) : Reaction :=
  let (firstName, td) := td.getline
  let (lastName, td) := td.getline
  td.sendAuthenticationQuery (.registerUser firstName lastName)

def asWaitPass (td : Td) : Reaction :=
  let (password, td) := td.getline
  td.sendAuthenticationQuery (.checkAuthenticationPassword password)

/-- The link is only printed. -/
def asWaitOdc (td : Td) : Reaction where
  td := td

def asWaitPn (td : Td) : Reaction :=
  let (phoneNumber, td) := td.getline
  td.sendAuthenticationQuery (.setAuthenticationPhoneNumber phoneNumber)

def asWaitEk (td : Td) : Reaction :=
  td.sendAuthenticationQuery (.checkDatabaseEncryptionKey "")

def asWaitTp (td : Td) : Reaction :=
  td.sendAuthenticationQuery (.setTdlibParameters
    { useMessageDatabase := true
      useSecretChats := false
      apiId := td.apiId
      apiHash := td.apiHash
      databaseDirectory := td.dataPath
      systemLanguageCode := "en"
      deviceModel := "Desktop"
      applicationVersion := "1.0"
      enableStorageOptimizer := true })

/-- The branch that `downcast_call` takes in `on_authorization_state_update`. -/
def authorizationBranch (td : Td) : AuthorizationState → Reaction
  | .ready => td.asReady
  | .loggingOut => td.asLoggingOut
  | .closing => td.asClosing
  | .closed => td.asClosed
  | .waitCode => td.asWaitCode
  | .waitRegistration => td.asWaitRegis
  | .waitPassword => td.asWaitPass
  | .waitOtherDeviceConfirmation _ => td.asWaitOdc
  | .waitPhoneNumber => td.asWaitPn
  | .waitEncryptionKey => td.asWaitEk
  | .waitTdlibParameters => td.asWaitTp

def onAuthorizationStateUpdate (td : Td) : Except Crash Reaction :=
  match td.authorizationState with
  | none => .error ⟨.nullAuthorizationState, td⟩
  | some state => .ok ((td.record (.ranAuthorization state)).authorizationBranch state)

def checkAuthenticationError (td : Td) (object : Object) : Except Crash Reaction :=
  if object.getId = .error then td.onAuthorizationStateUpdate else .ok { td := td }

/-! ## Dispatch -/

def uAuth (td : Td) (authorizationState : AuthorizationState) : Except Crash Reaction := do
  let td := { td.record (.authorized authorizationState) with
    authorizationState := some authorizationState }
  let td := { td with ghost := { td.ghost with epoch := td.ghost.epoch + 1 } }
  let reaction ← td.onAuthorizationStateUpdate
  -- `std::move` left the update with a null pointer
  return { reaction with callback := some (.updateAuthorizationState none) }

def uNewChat (td : Td) (chat : Chat) : Reaction where
  td := { td with chatTitle := td.chatTitle.insert chat.id chat.title }
  callback := some (.updateNewChat (some chat))

def uChatTitle (td : Td) (chatId : Int) (title : String) : Reaction where
  td := { td with chatTitle := td.chatTitle.insert chatId title }
  callback := some (.updateChatTitle chatId title)

/-- The key of `users_` is an `int32_t`; the user object is moved into the map. -/
def uUser (td : Td) (user : User) : Reaction where
  td := { td with users := td.users.insert (Int32.ofInt user.id) user }
  callback := some (.updateUser none)

def uNewMsg (td : Td) (message : Message) : Reaction where
  td := td
  callback := some (.updateNewMessage (some message))

def processUpdate (td : Td) : Object → Except Crash Reaction
  | .updateAuthorizationState authorizationState => td.uAuth authorizationState
  | .updateNewChat chat => .ok (td.uNewChat chat)
  | .updateChatTitle chatId title => .ok (td.uChatTitle chatId title)
  | .updateUser user => .ok (td.uUser user)
  | .updateNewMessage message => .ok (td.uNewMsg message)
  | _ => .ok { td := td }

/-- Run a stored handler. What a caller's own function does with the object is the caller's, and
the callback of `send_query_sync` only writes to the caller's frame. -/
def invoke (td : Td) (handler : Handler) (object : Object) : Except Crash Reaction :=
  match handler with
  | .getMe => .ok { td := td.asReadyCallback object }
  | .authentication id =>
    if id = td.authenticationQueryId then td.checkAuthenticationError object else .ok { td := td }
  | .sync _ | .user _ => .ok { td := td }

def processResponse (td : Td) (response : Response) : Except Crash Reaction :=
  match response.object with
  | none => .ok { td := td }
  | some object =>
    if response.requestId = 0 then
      td.processUpdate object
    else
      -- the entry stays in `handlers_`
      match td.handlers.lookup response.requestId with
      | some entry => (td.record (.invoked response.requestId entry object)).invoke
          entry.handler object
      | none => .ok { td := td }

end Td

/-- The overload of `Callback::execute` for the argument's type. -/
def Callback.select (callback : Callback) : CallbackArgument → Option Nat
  | .updateAuthorizationState _ => callback.updateAuthorizationState
  | .updateNewChat _ => callback.updateNewChat
  | .updateChatTitle _ _ => callback.updateChatTitle
  | .updateUser _ => callback.updateUser
  | .updateNewMessage _ => callback.updateNewMessage

namespace Td

/-- `callback.execute(update)`: nothing happens where no function is registered. -/
def execute (td : Td) (argument : CallbackArgument) : Td :=
  match td.callback.select argument with
  | some tag =>
    { td with ghost := { td.ghost with calls := (tag, argument) :: td.ghost.calls } }
  | none => td

def sendOption (td : Td) : Option Query → Except Crash Td
  | none => .ok td
  | some query => td.sendQuery query

def executeOption (td : Td) : Option CallbackArgument → Td
  | none => td
  | some argument => td.execute argument

end Td

/-- The two calls that a branch ends with. -/
def Reaction.finish (reaction : Reaction) : Except Crash Td := do
  let td ← reaction.td.sendOption reaction.query
  return td.executeOption reaction.callback

namespace Td

/-! ## The public functions -/

/-- `client_manager_->receive`; past the end of the list it only times out. -/
def receive (td : Td) (_timeout : Int) (inbox : List Response) :
    Except Crash (Response × List Response) :=
  match td.clientManager with
  | none => .error ⟨.nullClientManager, td⟩
  | some _ => .ok (inbox.headD {}, inbox.tail)

def restart (td : Td) : Td :=
  { td with
    clientManager := none
    closed := false
    needRestart := false
    isAuthorized := false
    currentQueryId := 0
    authenticationQueryId := 0 }

def loop (td : Td) (timeout : Int) (inbox : List Response) : Except Crash (Td × List Response) :=
  if td.needRestart then
    .ok (td.restart, inbox)
  else if !td.isAuthorized then do
    let (response, inbox) ← td.receive 10 inbox
    let reaction ← td.processResponse response
    return (← reaction.finish, inbox)
  else do
    let (response, inbox) ← td.receive timeout inbox
    if response.object.isNone then
      return (td, inbox)
    let reaction ← td.processResponse response
    return (← reaction.finish, inbox)

def close (td : Td) (inbox : List Response) : Except Crash (Td × List Response) := do
  let td ← td.sendQuery ⟨.close, none⟩
  td.loop 5 inbox

/-- The constructor, for the client id that `create_client_id` returns; the callbacks are
assigned by the caller before the first `loop`. -/
def construct (apiId : UInt32) (apiHash dataPath : String) (clientId : Int) (callback : Callback)
    (stdin : List String) : Except Crash Td :=
  sendQuery
    { apiId := apiId, apiHash := apiHash, dataPath := dataPath, callback := callback
      clientId := clientId, clientManager := some {}, stdin := stdin }
    ⟨.getOption "version", none⟩

end Td

end Tgvisd
