import Tgvisd.Td.Client

/-!
# What a dispatch can do

Most of the object's fields play no part in the question which handler runs for which response.
`Core` keeps those that do. One statement for each function says what it makes of the core: what
`sendQuery` leaves behind on a live client, which query an authorization state ends with, and the
four things that processing a response can amount to. The statements about runs use these and do
not unfold the client.
-/

namespace Tgvisd

open TdApi

/-- The part of the object that decides which handler runs for a response. -/
structure Core where
  currentQueryId : UInt64
  authenticationQueryId : UInt64
  authorizationState : Option AuthorizationState
  handlers : UnorderedMap UInt64 Entry
  drawn : Nat
  epoch : Nat
  log : List Action

namespace Core

def record (core : Core) (action : Action) : Core :=
  { core with log := action :: core.log }

def entry (core : Core) (handler : Handler) : Entry where
  handler := handler
  owner := core.drawn
  epoch := core.epoch

/-- A query is sent: an id is drawn, and a handler is stored under it. -/
def send (core : Core) (query : Query) : Core :=
  match query.handler with
  | none => { core with currentQueryId := core.currentQueryId + 1, drawn := core.drawn + 1 }
  | some handler =>
    { core with
      currentQueryId := core.currentQueryId + 1
      drawn := core.drawn + 1
      handlers := core.handlers.emplace core.currentQueryId (core.entry handler)
      log := .emplaced core.currentQueryId query.function (core.entry handler)
        (core.currentQueryId ∉ core.handlers) :: core.log }

def sendOption (core : Core) (query : Option Query) : Core :=
  match query with
  | none => core
  | some query => core.send query

@[simp] theorem sendOption_some (core : Core) (query : Query) :
    core.sendOption (some query) = core.send query := rfl

/-- A new authorization state is stored and its branch begins. -/
def enter (core : Core) (state : AuthorizationState) : Core :=
  { core with
    authorizationState := some state
    epoch := core.epoch + 1
    log := .ranAuthorization state :: .authorized state :: core.log }

/-- An error answer that the stored authentication handler takes for its own. -/
def Retries (core : Core) (entry : Entry) (object : Object) : Prop :=
  entry.handler = .authentication core.authenticationQueryId ∧ object.getId = .error

instance (core : Core) (entry : Entry) (object : Object) : Decidable (core.Retries entry object) :=
  inferInstanceAs (Decidable (_ ∧ _))

end Core

namespace Td

def core (td : Td) : Core where
  currentQueryId := td.currentQueryId
  authenticationQueryId := td.authenticationQueryId
  authorizationState := td.authorizationState
  handlers := td.handlers
  drawn := td.ghost.drawn
  epoch := td.ghost.epoch
  log := td.ghost.log

@[simp] theorem record_core (td : Td) (action : Action) :
    (td.record action).core = td.core.record action := rfl

@[simp] theorem record_clientManager (td : Td) (action : Action) :
    (td.record action).clientManager = td.clientManager := rfl

@[simp] theorem executeOption_core (td : Td) (callback : Option CallbackArgument) :
    (td.executeOption callback).core = td.core := by
  unfold executeOption execute
  split
  · rfl
  · split <;> rfl

@[simp] theorem executeOption_clientManager (td : Td) (callback : Option CallbackArgument) :
    (td.executeOption callback).clientManager = td.clientManager := by
  unfold executeOption execute
  split
  · rfl
  · split <;> rfl

/-! ## Sending -/

theorem register_core (td : Td) (query : Query) :
    (td.nextQueryId.2.register td.currentQueryId td.ghost.drawn query).core =
      td.core.send query := by
  obtain ⟨function, handler⟩ := query
  cases handler <;> rfl

@[simp] theorem register_clientManager (td : Td) (queryId : UInt64) (owner : Nat) (query : Query) :
    (td.register queryId owner query).clientManager = td.clientManager := by
  obtain ⟨function, handler⟩ := query
  cases handler <;> rfl

@[simp] theorem register_needRestart (td : Td) (queryId : UInt64) (owner : Nat) (query : Query) :
    (td.register queryId owner query).needRestart = td.needRestart := by
  obtain ⟨function, handler⟩ := query
  cases handler <;> rfl

theorem handOver_of_live {td : Td} {manager : ClientManager} (queryId : UInt64)
    (function : Function) (hlive : td.clientManager = some manager) :
    td.handOver queryId function = .ok { td with
      clientManager := some ⟨(td.clientId, queryId, function) :: manager.requests⟩ } := by
  unfold handOver
  rw [hlive]

theorem handOver_of_dead {td : Td} (queryId : UInt64) (function : Function)
    (hdead : td.clientManager = none) :
    td.handOver queryId function = .error ⟨.nullClientManager, td⟩ := by
  unfold handOver
  rw [hdead]

/-- On a live client a query is drawn, registered and handed over. -/
theorem sendQuery_of_live {td : Td} (query : Query) (hlive : td.clientManager.isSome = true) :
    ∃ sent, td.sendQuery query = .ok sent ∧ sent.core = td.core.send query ∧
      sent.clientManager.isSome = true ∧ sent.needRestart = td.needRestart := by
  obtain ⟨manager, hmanager⟩ := Option.isSome_iff_exists.mp hlive
  have hregistered :
      (td.nextQueryId.2.register td.currentQueryId td.ghost.drawn query).clientManager =
        some manager := by
    rw [register_clientManager]
    exact hmanager
  refine ⟨_, handOver_of_live _ _ hregistered, td.register_core query, rfl, ?_⟩
  exact register_needRestart _ _ _ _

/-- On a dead client the id is drawn and the handler stored before the null dereference. -/
theorem sendQuery_of_dead {td : Td} (query : Query) (hdead : td.clientManager = none) :
    ∃ last, td.sendQuery query = .error ⟨.nullClientManager, last⟩ ∧
      last.core = td.core.send query ∧ last.clientManager = none := by
  have hregistered :
      (td.nextQueryId.2.register td.currentQueryId td.ghost.drawn query).clientManager = none := by
    rw [register_clientManager]
    exact hdead
  exact ⟨_, handOver_of_dead _ _ hregistered, td.register_core query, hregistered⟩

end Td

/-! ## Authorization states -/

/-- A function that answers the authorization state it is sent in. -/
def TdApi.AuthorizationState.requests : AuthorizationState → Function → Bool
  | .waitTdlibParameters, .setTdlibParameters _ => true
  | .waitEncryptionKey, .checkDatabaseEncryptionKey _ => true
  | .waitPhoneNumber, .setAuthenticationPhoneNumber _ => true
  | .waitCode, .checkAuthenticationCode _ => true
  | .waitRegistration, .registerUser _ _ => true
  | .waitPassword, .checkAuthenticationPassword _ => true
  | _, _ => false

/-- The states that ask TDLib for something. -/
def TdApi.AuthorizationState.isRequesting : AuthorizationState → Bool
  | .waitTdlibParameters | .waitEncryptionKey | .waitPhoneNumber | .waitCode
  | .waitRegistration | .waitPassword => true
  | _ => false

/-- What an authorization state's branch sends: its own authentication query, `getMe`, or
nothing. -/
inductive BranchQuery (authenticationQueryId : UInt64) : AuthorizationState → Option Query → Prop
  | requesting {state : AuthorizationState} {function : Function}
      (hstate : state.isRequesting = true) (hfunction : state.requests function = true) :
      BranchQuery authenticationQueryId state
        (some ⟨function, some (.authentication authenticationQueryId)⟩)
  | ready : BranchQuery authenticationQueryId .ready (some ⟨.getMe, some .getMe⟩)
  | silent {state : AuthorizationState} (hstate : state.isRequesting = false) :
      BranchQuery authenticationQueryId state none

namespace Td

section Branch

variable (td : Td) (state : AuthorizationState)

@[simp] theorem authorizationBranch_core : (td.authorizationBranch state).td.core = td.core := by
  cases state <;> rfl

@[simp] theorem authorizationBranch_clientManager :
    (td.authorizationBranch state).td.clientManager = td.clientManager := by
  cases state <;> rfl

theorem authorizationBranch_query {id : UInt64} (hid : td.authenticationQueryId = id) :
    BranchQuery id state (td.authorizationBranch state).query := by
  subst hid
  cases state with
  | waitTdlibParameters => exact .requesting rfl rfl
  | waitEncryptionKey => exact .requesting rfl rfl
  | waitPhoneNumber => exact .requesting rfl rfl
  | waitCode => exact .requesting rfl rfl
  | waitRegistration => exact .requesting rfl rfl
  | waitPassword => exact .requesting rfl rfl
  | waitOtherDeviceConfirmation link => exact .silent rfl
  | ready => exact .ready
  | loggingOut => exact .silent rfl
  | closing => exact .silent rfl
  | closed => exact .silent rfl

end Branch

theorem onAuthorizationStateUpdate_of_some {td : Td} {state : AuthorizationState}
    (hstate : td.authorizationState = some state) :
    td.onAuthorizationStateUpdate =
      .ok ((td.record (.ranAuthorization state)).authorizationBranch state) := by
  unfold onAuthorizationStateUpdate
  rw [hstate]

/-! ## Responses -/

theorem asReadyCallback_eq (td : Td) (object : Object) :
    ∃ userId, td.asReadyCallback object = { td with userId := userId } := by
  cases object with
  | user user => exact ⟨user.id, rfl⟩
  | _ => exact ⟨td.userId, rfl⟩

/-- A handler that has no reason to retry changes at most the user id. -/
theorem invoke_of_not_retries {td : Td} {entry : Entry} {object : Object}
    (hquiet : ¬ td.core.Retries entry object) :
    ∃ userId, td.invoke entry.handler object = .ok { td := { td with userId := userId } } := by
  cases hhandler : entry.handler with
  | getMe =>
    obtain ⟨userId, huser⟩ := td.asReadyCallback_eq object
    exact ⟨userId, by rw [← huser]; rfl⟩
  | sync call => exact ⟨td.userId, rfl⟩
  | user tag => exact ⟨td.userId, rfl⟩
  | authentication id =>
    refine ⟨td.userId, ?_⟩
    by_cases hcurrent : id = td.authenticationQueryId
    · have herror : object.getId ≠ .error := by
        intro herror
        exact hquiet ⟨by rw [hhandler, hcurrent]; rfl, herror⟩
      simp [invoke, hcurrent, checkAuthenticationError, herror]
    · simp [invoke, hcurrent]

theorem invoke_of_retries {td : Td} {entry : Entry} {object : Object}
    (hretry : td.core.Retries entry object) :
    td.invoke entry.handler object = td.onAuthorizationStateUpdate := by
  obtain ⟨hself, herror⟩ := hretry
  rw [hself]
  simp [invoke, core, checkAuthenticationError, herror]

/-- A response for a stored handler runs that handler. -/
theorem processResponse_of_lookup {td : Td} {response : Response} {object : Object}
    {entry : Entry} (hobject : response.object = some object) (hid : response.requestId ≠ 0)
    (hentry : td.handlers.lookup response.requestId = some entry) :
    td.processResponse response =
      (td.record (.invoked response.requestId entry object)).invoke entry.handler object := by
  unfold processResponse
  rw [hobject]
  simp [hid, hentry]

end Td

/-- The four things that processing a response can amount to: the core afterwards and the query
that is then sent. -/
inductive Dispatches (core : Core) (response : Response) : Core → Option Query → Prop
  /-- A timeout, an update that at most changes the caches, or an answer without a handler. -/
  | quiet (hquiet : ∀ object, response.object = some object →
      (response.requestId = 0 ∧ object.getId ≠ .updateAuthorizationState) ∨
      (response.requestId ≠ 0 ∧ core.handlers.lookup response.requestId = none)) :
      Dispatches core response core none
  | authorized {state : AuthorizationState} {query : Option Query}
      (hobject : response.object = some (.updateAuthorizationState state))
      (hid : response.requestId = 0)
      (hquery : BranchQuery core.authenticationQueryId state query) :
      Dispatches core response (core.enter state) query
  /-- A handler that sends nothing. -/
  | invoked {object : Object} {entry : Entry}
      (hobject : response.object = some object) (hid : response.requestId ≠ 0)
      (hentry : core.handlers.lookup response.requestId = some entry)
      (hquiet : ¬ core.Retries entry object) :
      Dispatches core response (core.record (.invoked response.requestId entry object)) none
  /-- An authentication handler that runs the state's branch again. -/
  | retried {object : Object} {entry : Entry} {state : AuthorizationState} {query : Option Query}
      (hobject : response.object = some object) (hid : response.requestId ≠ 0)
      (hentry : core.handlers.lookup response.requestId = some entry)
      (hretry : core.Retries entry object) (hstate : core.authorizationState = some state)
      (hquery : BranchQuery core.authenticationQueryId state query) :
      Dispatches core response
        ((core.record (.invoked response.requestId entry object)).record
          (.ranAuthorization state)) query

/-- Authentication handlers are only registered once an authorization state is known. -/
def Core.StateKnown (core : Core) : Prop :=
  ∀ queryId entry id, core.handlers.lookup queryId = some entry →
    entry.handler = .authentication id → core.authorizationState ≠ none

namespace Td

theorem processUpdate_dispatches {td : Td} {response : Response} {object : Object}
    (hobject : response.object = some object) (hid : response.requestId = 0) :
    ∃ reaction, td.processUpdate object = .ok reaction ∧
      reaction.td.clientManager = td.clientManager ∧
      Dispatches td.core response reaction.td.core reaction.query := by
  cases object with
  | updateAuthorizationState state =>
    refine ⟨_, rfl, by simp, ?_⟩
    simp only [authorizationBranch_core]
    exact .authorized hobject hid (authorizationBranch_query _ state rfl)
  | _ =>
    refine ⟨_, rfl, rfl, .quiet ?_⟩
    rintro object hsome
    obtain rfl := Option.some.inj (hobject.symm.trans hsome)
    exact Or.inl ⟨hid, nofun⟩

theorem processEntry_dispatches {td : Td} {response : Response} {object : Object} {entry : Entry}
    (hknown : td.core.StateKnown) (hobject : response.object = some object)
    (hid : response.requestId ≠ 0)
    (hentry : td.handlers.lookup response.requestId = some entry) :
    ∃ reaction, td.processResponse response = .ok reaction ∧
      reaction.td.clientManager = td.clientManager ∧
      Dispatches td.core response reaction.td.core reaction.query := by
  rw [processResponse_of_lookup hobject hid hentry]
  by_cases hretry : td.core.Retries entry object
  · obtain ⟨state, hstate⟩ : ∃ state, td.authorizationState = some state :=
      Option.ne_none_iff_exists'.mp (hknown _ entry _ hentry hretry.1)
    have hrun := onAuthorizationStateUpdate_of_some
      (show (td.record (.invoked response.requestId entry object)).authorizationState =
        some state from hstate)
    have hretryRecorded :
        (td.record (.invoked response.requestId entry object)).core.Retries entry object := hretry
    refine ⟨_, (invoke_of_retries hretryRecorded).trans hrun, by simp, ?_⟩
    simp only [authorizationBranch_core, record_core]
    exact .retried hobject hid hentry hretry hstate (authorizationBranch_query _ state rfl)
  · have hquietRecorded :
        ¬ (td.record (.invoked response.requestId entry object)).core.Retries entry object :=
      hretry
    obtain ⟨userId, hinvoke⟩ := invoke_of_not_retries hquietRecorded
    exact ⟨_, hinvoke, rfl, .invoked hobject hid hentry hretry⟩

/-- While authentication handlers imply a known state, a dispatch does not crash. -/
theorem processResponse_dispatches {td : Td} (response : Response)
    (hknown : td.core.StateKnown) :
    ∃ reaction, td.processResponse response = .ok reaction ∧
      reaction.td.clientManager = td.clientManager ∧
      Dispatches td.core response reaction.td.core reaction.query := by
  cases hobject : response.object with
  | none =>
    refine ⟨{ td := td }, by simp [processResponse, hobject], rfl, .quiet ?_⟩
    simp [hobject]
  | some object =>
    by_cases hid : response.requestId = 0
    · have hupdate : td.processResponse response = td.processUpdate object := by
        simp [processResponse, hobject, hid]
      rw [hupdate]
      exact processUpdate_dispatches hobject hid
    · cases hentry : td.handlers.lookup response.requestId with
      | none =>
        refine ⟨{ td := td }, by simp [processResponse, hobject, hid, hentry], rfl, .quiet ?_⟩
        exact fun _ _ ↦ Or.inr ⟨hid, hentry⟩
      | some entry => exact processEntry_dispatches hknown hobject hid hentry

end Td

end Tgvisd
