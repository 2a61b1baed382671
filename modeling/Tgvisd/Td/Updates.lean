import Tgvisd.Lib.LastWriter
import Tgvisd.Td.Session

/-!
# Updates, caches and callbacks

`process_update` writes what an update brings to a cache and hands the update to the callback
registered for its type. `Caches` is the part of the object that takes part in this. Two of the
five branches move the object out of the update before the callback sees it, and the keys of
`users_` are narrower than user ids; these are the only ways in which caches and callbacks can
miss what was delivered.
-/

namespace Tgvisd

open TdApi LastWriter

/-! ## What an update delivers -/

def chatTitleWrite : Object → Option (Int × String)
  | .updateNewChat chat => some (chat.id, chat.title)
  | .updateChatTitle chatId title => some (chatId, title)
  | _ => none

def userWrite : Object → Option (Int × TdApi.User)
  | .updateUser user => some (user.id, user)
  | _ => none

def authorizationWrite : Object → Option (Unit × AuthorizationState)
  | .updateAuthorizationState state => some ((), state)
  | _ => none

/-- The update as TDLib delivers it. -/
def deliveredArgument : Object → Option CallbackArgument
  | .updateAuthorizationState state => some (.updateAuthorizationState (some state))
  | .updateNewChat chat => some (.updateNewChat (some chat))
  | .updateChatTitle chatId title => some (.updateChatTitle chatId title)
  | .updateUser user => some (.updateUser (some user))
  | .updateNewMessage message => some (.updateNewMessage (some message))
  | _ => none

/-- The update as `process_update` hands it on, after its moves. -/
def handedArgument : Object → Option CallbackArgument
  | .updateAuthorizationState _ => some (.updateAuthorizationState none)
  | .updateUser _ => some (.updateUser none)
  | object => deliveredArgument object

/-- The invocation of the function that is registered for the argument's type, if there is one. -/
def Callback.call (callback : Callback) (argument : CallbackArgument) :
    Option (Nat × CallbackArgument) :=
  (callback.select argument).map fun tag ↦ (tag, argument)

def Callback.deliveredCall (callback : Callback) (object : Object) :
    Option (Nat × CallbackArgument) := (deliveredArgument object).bind callback.call

def Callback.handedCall (callback : Callback) (object : Object) :
    Option (Nat × CallbackArgument) := (handedArgument object).bind callback.call

/-! ## The caches -/

structure Caches where
  callback : Callback
  authorizationState : Option AuthorizationState
  chatTitle : UnorderedMap Int String
  users : UnorderedMap Int32 TdApi.User
  calls : List (Nat × CallbackArgument)

/-- What one update makes of the caches. -/
def Caches.update (caches : Caches) (object : Object) : Caches where
  callback := caches.callback
  authorizationState := (written authorizationWrite object ()).or caches.authorizationState
  chatTitle := insertWrite chatTitleWrite caches.chatTitle object
  users := insertWrite (narrowed Int32.ofInt userWrite) caches.users object
  calls := (caches.callback.handedCall object).toList ++ caches.calls

namespace Td

def caches (td : Td) : Caches where
  callback := td.callback
  authorizationState := td.authorizationState
  chatTitle := td.chatTitle
  users := td.users
  calls := td.ghost.calls

theorem caches_of_sendQuery {td sent : Td} {query : Query} (h : td.sendQuery query = .ok sent) :
    sent.caches = td.caches := by
  obtain ⟨function, handler⟩ := query
  unfold sendQuery handOver at h
  cases handler <;>
    (simp only [register, record, nextQueryId] at h
     split at h
     · simp at h
     · simp only [Except.ok.injEq] at h
       subst h
       rfl)

@[simp] theorem authorizationBranch_caches (td : Td) (state : AuthorizationState) :
    (td.authorizationBranch state).td.caches = td.caches := by
  cases state <;> rfl

/-- `execute` adds at most the one invocation. -/
theorem executeOption_caches (td : Td) (callback : Option CallbackArgument) :
    (td.executeOption callback).caches =
      { td.caches with calls := (callback.bind td.callback.call).toList ++ td.ghost.calls } := by
  cases callback with
  | none => rfl
  | some argument =>
    unfold executeOption execute
    simp only [Option.bind_some, Callback.call]
    cases td.callback.select argument <;> rfl

/-- `process_update` and the two calls that its branch ends with. -/
def update (td : Td) (object : Object) : Except Crash Td := do
  let reaction ← td.processUpdate object
  reaction.finish

/-- The updates of a list, one after the other. -/
def updates : Td → List Object → Except Crash Td
  | td, [] => .ok td
  | td, object :: objects => do
    let td ← td.update object
    td.updates objects

/-- A branch's own query does not touch the caches. -/
theorem finish_caches {reaction : Reaction} {td : Td} (h : reaction.finish = .ok td) :
    td.caches = { reaction.td.caches with
      calls := (reaction.callback.bind reaction.td.callback.call).toList ++
        reaction.td.ghost.calls } := by
  obtain ⟨before, query, callback⟩ := reaction
  cases query with
  | none =>
    have htd : before.executeOption callback = td := Except.ok.inj h
    rw [← htd]
    exact before.executeOption_caches callback
  | some query =>
    cases hsend : before.sendQuery query with
    | error crash => simp [Reaction.finish, sendOption, hsend, bind, Except.bind] at h
    | ok sent =>
      have htd : sent.executeOption callback = td := by
        simpa [Reaction.finish, sendOption, hsend, bind, Except.bind, pure, Except.pure] using h
      have hcaches := caches_of_sendQuery hsend
      have hfunctions : sent.callback = before.callback := congrArg Caches.callback hcaches
      have hcalls : sent.ghost.calls = before.ghost.calls := congrArg Caches.calls hcaches
      rw [← htd, executeOption_caches, hcaches, hfunctions, hcalls]

/-- The reaction to an update: its callback, and the caches before that callback runs. -/
theorem processUpdate_caches (td : Td) (object : Object) :
    ∃ reaction, td.processUpdate object = .ok reaction ∧
      reaction.td.clientManager = td.clientManager ∧
      reaction.callback = handedArgument object ∧
      reaction.td.caches = { td.caches.update object with calls := td.ghost.calls } := by
  cases object with
  | updateAuthorizationState state =>
    refine ⟨_, rfl, authorizationBranch_clientManager _ state, rfl, ?_⟩
    simp only [authorizationBranch_caches]
    rfl
  | _ => exact ⟨_, rfl, rfl, rfl, rfl⟩

theorem update_of_live {td : Td} (object : Object) (hlive : td.clientManager.isSome = true) :
    ∃ next, td.update object = .ok next ∧ next.clientManager.isSome = true ∧
      next.caches = td.caches.update object := by
  obtain ⟨reaction, hprocess, hmanager, hcallback, hcaches⟩ := td.processUpdate_caches object
  obtain ⟨next, hfinish, -, hnextLive⟩ := finish_of_live (hmanager ▸ hlive)
  refine ⟨next, ?_, hnextLive, ?_⟩
  · unfold update
    rw [hprocess]
    exact hfinish
  · have hfunctions : reaction.td.callback = td.callback := congrArg Caches.callback hcaches
    have hcalls : reaction.td.ghost.calls = td.ghost.calls := congrArg Caches.calls hcaches
    rw [finish_caches hfinish, hcallback, hcaches, hfunctions, hcalls]
    rfl

/-- A list of updates does to the caches what it does to them alone. -/
theorem updates_of_live {td : Td} (objects : List Object)
    (hlive : td.clientManager.isSome = true) :
    ∃ next, td.updates objects = .ok next ∧
      next.caches = objects.foldl Caches.update td.caches := by
  induction objects generalizing td with
  | nil => exact ⟨td, rfl, rfl⟩
  | cons object objects ih =>
    obtain ⟨next, hupdate, hnextLive, hcaches⟩ := update_of_live object hlive
    obtain ⟨last, hupdates, hlast⟩ := ih hnextLive
    refine ⟨last, ?_, ?_⟩
    · simp only [updates, hupdate]
      exact hupdates
    · rw [hlast, hcaches]
      rfl

end Td

/-! ## Last writers -/

namespace Caches

variable (caches : Caches) (objects : List Object)

theorem foldl_callback : (objects.foldl update caches).callback = caches.callback := by
  induction objects generalizing caches with
  | nil => rfl
  | cons object objects ih => exact ih (caches.update object)

theorem foldl_chatTitle : (objects.foldl update caches).chatTitle =
    objects.foldl (insertWrite chatTitleWrite) caches.chatTitle :=
  (List.foldl_hom Caches.chatTitle fun _ _ ↦ rfl).symm

theorem foldl_users : (objects.foldl update caches).users =
    objects.foldl (insertWrite (narrowed Int32.ofInt userWrite)) caches.users :=
  (List.foldl_hom Caches.users fun _ _ ↦ rfl).symm

theorem foldl_authorizationState : (objects.foldl update caches).authorizationState =
    (latest authorizationWrite objects ()).or caches.authorizationState := by
  induction objects generalizing caches with
  | nil => rfl
  | cons object objects ih =>
    rw [List.foldl_cons, ih, latest, Option.or_assoc]
    rfl

theorem foldl_calls : (objects.foldl update caches).calls =
    (objects.filterMap caches.callback.handedCall).reverse ++ caches.calls := by
  induction objects generalizing caches with
  | nil => rfl
  | cons object objects ih =>
    have hcallback : (caches.update object).callback = caches.callback := rfl
    have hcalls : (caches.update object).calls =
        (caches.callback.handedCall object).toList ++ caches.calls := rfl
    rw [List.foldl_cons, ih, hcallback, hcalls, List.filterMap_cons]
    cases caches.callback.handedCall object <;> simp

end Caches

/-- Every cache holds what was delivered last, and every registered function has seen each update
of its type once and as TDLib delivered it. -/
structure Caches.Delivered (caches : Caches) (delivered : List Object) : Prop where
  chatTitle : ∀ chatId title, latest chatTitleWrite delivered chatId = some title →
    caches.chatTitle.lookup chatId = some title
  users : ∀ userId user, latest userWrite delivered userId = some user →
    caches.users.lookup (Int32.ofInt userId) = some user
  authorizationState : ∀ state, latest authorizationWrite delivered () = some state →
    caches.authorizationState = some state
  calls : caches.calls = (delivered.filterMap caches.callback.deliveredCall).reverse

/-- What the updates must avoid: a registered function that would see an emptied update, and two
user ids with one key. -/
structure Callback.SeesAll (callback : Callback) (delivered : List Object) : Prop where
  updateAuthorizationState : ∀ state, .updateAuthorizationState state ∈ delivered →
    callback.updateAuthorizationState = none
  updateUser : ∀ user, .updateUser user ∈ delivered → callback.updateUser = none
  apart : ∀ first second, .updateUser first ∈ delivered → .updateUser second ∈ delivered →
    Int32.ofInt first.id = Int32.ofInt second.id → first.id = second.id

theorem userWrite_eq_some {object : Object} {userId : Int} {user : TdApi.User} :
    userWrite object = some (userId, user) ↔ object = .updateUser user ∧ userId = user.id := by
  cases object with
  | updateUser other =>
    simp only [userWrite, Option.some.injEq, Prod.mk.injEq, Object.updateUser.injEq]
    constructor
    · rintro ⟨rfl, rfl⟩
      exact ⟨rfl, rfl⟩
    · rintro ⟨rfl, rfl⟩
      exact ⟨rfl, rfl⟩
  | _ => simp [userWrite]

/-- An update is handed on as it was delivered unless its object was moved away. -/
theorem Callback.SeesAll.handedCall {callback : Callback} {delivered : List Object}
    (h : callback.SeesAll delivered) {object : Object} (hmem : object ∈ delivered) :
    callback.handedCall object = callback.deliveredCall object := by
  cases object with
  | updateAuthorizationState state =>
    simp [Callback.handedCall, Callback.deliveredCall, handedArgument, deliveredArgument,
      Callback.call, Callback.select, h.updateAuthorizationState state hmem]
  | updateUser user =>
    simp [Callback.handedCall, Callback.deliveredCall, handedArgument, deliveredArgument,
      Callback.call, Callback.select, h.updateUser user hmem]
  | _ => rfl

theorem Callback.SeesAll.narrowsApart {callback : Callback} {delivered : List Object}
    (h : callback.SeesAll delivered) : NarrowsApart Int32.ofInt userWrite delivered := by
  intro first hfirst second hsecond firstId firstUser secondId secondUser hwritesFirst hwritesSecond
  obtain ⟨rfl, rfl⟩ := userWrite_eq_some.mp hwritesFirst
  obtain ⟨rfl, rfl⟩ := userWrite_eq_some.mp hwritesSecond
  exact h.apart firstUser secondUser hfirst hsecond

/-- Two partial functions that agree on where they are defined are told apart by what a list of
arguments is mapped to. -/
theorem eq_of_filterMap_eq {α β : Type} {first second : α → Option β} {list : List α}
    (hdefined : ∀ element ∈ list, (first element).isSome = (second element).isSome)
    (h : list.filterMap first = list.filterMap second) :
    ∀ element ∈ list, first element = second element := by
  induction list with
  | nil => simp
  | cons head tail ih =>
    have hhead := hdefined head List.mem_cons_self
    have htail := fun element hmem ↦ hdefined element (List.mem_cons_of_mem head hmem)
    intro element hmem
    cases hfirst : first head with
    | none =>
      have hsecond : second head = none := by simpa [hfirst] using hhead.symm
      rw [List.filterMap_cons_none hfirst, List.filterMap_cons_none hsecond] at h
      rcases List.mem_cons.mp hmem with rfl | hmem
      · rw [hfirst, hsecond]
      · exact ih htail h element hmem
    | some value =>
      obtain ⟨other, hsecond⟩ : ∃ other, second head = some other :=
        Option.isSome_iff_exists.mp (by rw [← hhead, hfirst]; rfl)
      rw [List.filterMap_cons_some hfirst, List.filterMap_cons_some hsecond,
        List.cons.injEq] at h
      rcases List.mem_cons.mp hmem with rfl | hmem
      · rw [hfirst, hsecond, h.1]
      · exact ih htail h.2 element hmem

theorem handedCall_isSome (callback : Callback) (object : Object) :
    (callback.handedCall object).isSome = (callback.deliveredCall object).isSome := by
  cases object with
  | updateAuthorizationState state =>
    simp [Callback.handedCall, Callback.deliveredCall, handedArgument, deliveredArgument,
      Callback.call, Callback.select]
  | updateUser user =>
    simp [Callback.handedCall, Callback.deliveredCall, handedArgument, deliveredArgument,
      Callback.call, Callback.select]
  | _ => rfl

namespace Caches

def empty (callback : Callback) : Caches where
  callback := callback
  authorizationState := none
  chatTitle := ∅
  users := ∅
  calls := []

variable {callback : Callback} {objects : List Object}

theorem delivered_of_seesAll (h : callback.SeesAll objects) :
    (objects.foldl update (empty callback)).Delivered objects := by
  refine ⟨?_, ?_, ?_, ?_⟩
  · intro chatId title hlatest
    rw [foldl_chatTitle, lookup_foldl_insertWrite, hlatest]
    rfl
  · intro userId user hlatest
    rw [foldl_users, lookup_foldl_insertWrite, latest_narrowed_of_apart h.narrowsApart hlatest]
    rfl
  · intro state hlatest
    rw [foldl_authorizationState, hlatest]
    rfl
  · rw [foldl_calls, foldl_callback]
    have hsame : objects.filterMap callback.handedCall =
        objects.filterMap callback.deliveredCall :=
      List.filterMap_congr fun object hmem ↦ h.handedCall hmem
    simp [empty, hsame]

/-- Where all invocations are the delivered ones, every single one is. -/
theorem Delivered.handedCall (h : (objects.foldl update (empty callback)).Delivered objects)
    {object : Object} (hmem : object ∈ objects) :
    callback.handedCall object = callback.deliveredCall object := by
  have hcalls := h.calls
  rw [foldl_calls, foldl_callback] at hcalls
  have hlists : objects.filterMap callback.handedCall =
      objects.filterMap callback.deliveredCall :=
    List.reverse_injective (by simpa [empty] using hcalls)
  exact eq_of_filterMap_eq (fun other _ ↦ handedCall_isSome callback other) hlists object hmem

/-- The key of a delivered user finds this user's latest object. -/
theorem Delivered.exists_user {caches : Caches} (h : caches.Delivered objects)
    {user : TdApi.User} (hmem : .updateUser user ∈ objects) :
    ∃ found, caches.users.lookup (Int32.ofInt user.id) = some found ∧ found.id = user.id := by
  have hwrites : userWrite (.updateUser user) = some (user.id, user) := rfl
  obtain ⟨found, hlatest⟩ := Option.isSome_iff_exists.mp (latest_isSome_of_mem hmem hwrites)
  obtain ⟨source, -, hsource⟩ := exists_of_latest hlatest
  exact ⟨found, h.users user.id found hlatest, (userWrite_eq_some.mp hsource).2.symm⟩

theorem Delivered.seesAll (h : (objects.foldl update (empty callback)).Delivered objects) :
    callback.SeesAll objects := by
  refine ⟨?_, ?_, ?_⟩
  · intro state hmem
    have hcall := h.handedCall hmem
    cases htag : callback.updateAuthorizationState with
    | none => rfl
    | some tag =>
      simp [Callback.handedCall, Callback.deliveredCall, handedArgument, deliveredArgument,
        Callback.call, Callback.select, htag] at hcall
  · intro user hmem
    have hcall := h.handedCall hmem
    cases htag : callback.updateUser with
    | none => rfl
    | some tag =>
      simp [Callback.handedCall, Callback.deliveredCall, handedArgument, deliveredArgument,
        Callback.call, Callback.select, htag] at hcall
  · intro first second hfirst hsecond hkey
    obtain ⟨firstFound, hlookupFirst, hfirstId⟩ := h.exists_user hfirst
    obtain ⟨secondFound, hlookupSecond, hsecondId⟩ := h.exists_user hsecond
    rw [hkey, hlookupSecond, Option.some.injEq] at hlookupFirst
    rw [← hfirstId, ← hsecondId, hlookupFirst]

end Caches

namespace Session

/-- After each update of the sequence, the caches and the registered functions have what was
delivered. -/
def UpdatesDelivered (config : Config) (objects : List Object) : Prop :=
  ∀ delivered rest, objects = delivered ++ rest →
    ∃ td, (start config).td.updates delivered = .ok td ∧ td.caches.Delivered delivered

/-- The caches and the registered functions have all that was delivered exactly when no
registered function was due to see an emptied update and no two user ids shared a key. -/
theorem updatesDelivered_iff (config : Config) (objects : List Object) :
    UpdatesDelivered config objects ↔ config.callback.SeesAll objects := by
  have hrun (delivered : List Object) : ∃ td, (start config).td.updates delivered = .ok td ∧
      td.caches = delivered.foldl Caches.update (Caches.empty config.callback) :=
    Td.updates_of_live delivered rfl
  constructor
  · intro h
    obtain ⟨td, htd, hdelivered⟩ := h objects [] (List.append_nil objects).symm
    obtain ⟨last, hlast, hcaches⟩ := hrun objects
    obtain rfl := Except.ok.inj (htd.symm.trans hlast)
    rw [hcaches] at hdelivered
    exact hdelivered.seesAll
  · rintro h delivered rest rfl
    obtain ⟨td, htd, hcaches⟩ := hrun delivered
    refine ⟨td, htd, ?_⟩
    rw [hcaches]
    apply Caches.delivered_of_seesAll
    have hsub {object : Object} (hmem : object ∈ delivered) : object ∈ delivered ++ rest :=
      List.mem_append_left rest hmem
    refine ⟨?_, ?_, ?_⟩
    · intro state hmem
      exact h.updateAuthorizationState state (hsub hmem)
    · intro user hmem
      exact h.updateUser user (hsub hmem)
    · intro first second hfirst hsecond
      exact h.apart first second (hsub hfirst) (hsub hsecond)

/-- A function that is registered for users sees an update without a user. -/
theorem not_updatesDelivered_to_updateUser :
    ¬ UpdatesDelivered { callback := { updateUser := some 0 } } [.updateUser { id := 7 }] := by
  intro h
  obtain ⟨td, htd, hdelivered⟩ := h [.updateUser { id := 7 }] [] rfl
  obtain rfl := Except.ok.inj htd
  exact absurd hdelivered.calls (by decide)

end Session

end Tgvisd
