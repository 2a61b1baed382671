import Tgvisd.Td.Lifetime

/-!
# Authentication queries and their answers

An authentication handler runs the state machine again when its query failed, provided that the
id it captured is still `authentication_query_id_`. No function of the client changes that id, so
the guard never turns an answer away: an error that arrives after the state has moved on repeats
the request of the state reached since.
-/

namespace Tgvisd

open TdApi

def Handler.isAuthentication : Handler → Bool
  | .authentication _ => true
  | .getMe | .sync _ | .user _ => false

/-- An answer that makes an authentication handler try again. -/
def Entry.failsWith (entry : Entry) (object : Object) : Bool :=
  entry.handler.isAuthentication && object.getId = .error

/-! ## What the actions say about the authorization states -/

namespace Authentication

/-- The number of authorization updates among the actions. -/
def epochOf : List Action → Nat
  | [] => 0
  | .authorized _ :: log => epochOf log + 1
  | .emplaced _ _ _ _ :: log | .ranAuthorization _ :: log | .invoked _ _ _ :: log => epochOf log

/-- The state that the update of this number brought. -/
def entered : List Action → Nat → Option AuthorizationState
  | [], _ => none
  | .authorized state :: log, epoch =>
    if epoch = epochOf log + 1 then some state else entered log epoch
  | .emplaced _ _ _ _ :: log, epoch | .ranAuthorization _ :: log, epoch
  | .invoked _ _ _ :: log, epoch => entered log epoch

/-- The authentication queries sent in this epoch. -/
def requestCount : List Action → Nat → Nat
  | [], _ => 0
  | .emplaced _ _ entry _ :: log, epoch =>
    requestCount log epoch +
      if entry.handler.isAuthentication && entry.epoch = epoch then 1 else 0
  | .authorized _ :: log, epoch | .ranAuthorization _ :: log, epoch
  | .invoked _ _ _ :: log, epoch => requestCount log epoch

/-- The error answers in this epoch to authentication queries of the same epoch. -/
def failureCount : List Action → Nat → Nat
  | [], _ => 0
  | .invoked _ entry object :: log, epoch =>
    failureCount log epoch +
      if entry.failsWith object && entry.epoch = epoch && epochOf log = epoch then 1 else 0
  | .authorized _ :: log, epoch | .ranAuthorization _ :: log, epoch
  | .emplaced _ _ _ _ :: log, epoch => failureCount log epoch

/-- Where an answer runs the state machine, its query was sent for the present state. -/
def RunsFresh (log : List Action) : Prop :=
  ∀ newer older state queryId entry object,
    log = newer ++ .ranAuthorization state :: .invoked queryId entry object :: older →
      entry.epoch = epochOf older

/-- An authentication query was sent for a state that asks for it. -/
def Matching (log : List Action) : Prop :=
  ∀ queryId function entry inserted, .emplaced queryId function entry inserted ∈ log →
    entry.handler.isAuthentication = true →
      ∃ state, entered log entry.epoch = some state ∧ state.requests function = true

/-- An answer to a query of an earlier state does not run the state machine again, and each
state's request is sent once when the state is entered and once more per error answer to a
request made in that same state. -/
structure RequestsOnce (log : List Action) : Prop where
  fresh : RunsFresh log
  matching : Matching log
  counted : ∀ epoch state, entered log epoch = some state →
    requestCount log epoch = if state.isRequesting then failureCount log epoch + 1 else 0

theorem entered_eq_none {log : List Action} {epoch : Nat} (h : epochOf log < epoch) :
    entered log epoch = none := by
  induction log with
  | nil => rfl
  | cons action log ih =>
    cases action with
    | authorized state =>
      have hlater : epochOf log + 1 < epoch := h
      have hne : epoch ≠ epochOf log + 1 := by omega
      simp only [entered, hne, if_false]
      exact ih (by omega)
    | emplaced => exact ih h
    | ranAuthorization => exact ih h
    | invoked => exact ih h

theorem le_of_entered {log : List Action} {epoch : Nat} {state : AuthorizationState}
    (h : entered log epoch = some state) : epoch ≤ epochOf log := by
  by_contra hnot
  rw [entered_eq_none (Nat.lt_of_not_le hnot)] at h
  exact Option.some_ne_none state h.symm

/-- A request for a state that is known matches it. -/
theorem requestCount_eq_zero {log : List Action} {epoch : Nat}
    (h : ∀ queryId function entry inserted, .emplaced queryId function entry inserted ∈ log →
      entry.handler.isAuthentication = true → entry.epoch ≠ epoch) :
    requestCount log epoch = 0 := by
  induction log with
  | nil => rfl
  | cons action log ih =>
    have htail : requestCount log epoch = 0 :=
      ih fun queryId function entry inserted hmem ↦
        h queryId function entry inserted (List.mem_cons_of_mem action hmem)
    cases action with
    | emplaced queryId function entry inserted =>
      have hhead := h queryId function entry inserted List.mem_cons_self
      have hnot : (entry.handler.isAuthentication && decide (entry.epoch = epoch)) = false := by
        simpa using hhead
      simp [requestCount, htail, hnot]
    | authorized => exact htail
    | ranAuthorization => exact htail
    | invoked => exact htail

theorem failureCount_eq_zero {log : List Action} {epoch : Nat} (h : epochOf log < epoch) :
    failureCount log epoch = 0 := by
  induction log with
  | nil => rfl
  | cons action log ih =>
    cases action with
    | invoked queryId entry object =>
      have hlater : epochOf log < epoch := h
      have hne : epochOf log ≠ epoch := Nat.ne_of_lt hlater
      simp [failureCount, ih hlater, hne]
    | authorized =>
      have hlater : epochOf log + 1 < epoch := h
      exact ih (by omega)
    | ranAuthorization => exact ih h
    | emplaced => exact ih h

/-- No request has been sent for a state that is yet to come. -/
theorem RequestsOnce.requestCount_of_lt {log : List Action} {epoch : Nat} (h : RequestsOnce log)
    (hlt : epochOf log < epoch) : requestCount log epoch = 0 := by
  apply requestCount_eq_zero
  intro queryId function entry inserted hmem hauthentication
  obtain ⟨state, hstate, -⟩ := h.matching queryId function entry inserted hmem hauthentication
  have hle := le_of_entered hstate
  omega

/-! ## What each action does to them -/

theorem entered_cons {log : List Action} {epoch : Nat} (action : Action)
    (h : epoch ≤ epochOf log) : entered (action :: log) epoch = entered log epoch := by
  cases action with
  | authorized state =>
    have hne : epoch ≠ epochOf log + 1 := by omega
    simp [entered, hne]
  | emplaced | ranAuthorization | invoked => rfl

theorem RunsFresh.cons {log : List Action} {action : Action} (h : RunsFresh log)
    (haction : ∀ state queryId entry object older, action = .ranAuthorization state →
      log = .invoked queryId entry object :: older → entry.epoch = epochOf older) :
    RunsFresh (action :: log) := by
  intro newer older state queryId entry object hsplit
  cases newer with
  | nil =>
    rw [List.nil_append, List.cons.injEq] at hsplit
    exact haction state queryId entry object older hsplit.1 hsplit.2
  | cons head newer =>
    rw [List.cons_append, List.cons.injEq] at hsplit
    exact h newer older state queryId entry object hsplit.2

theorem Matching.cons {log : List Action} {action : Action} (h : Matching log)
    (haction : ∀ queryId function entry inserted,
      action = .emplaced queryId function entry inserted →
      entry.handler.isAuthentication = true →
        ∃ state, entered log entry.epoch = some state ∧ state.requests function = true) :
    Matching (action :: log) := by
  intro queryId function entry inserted hmem hauthentication
  have hold : ∃ state, entered log entry.epoch = some state ∧ state.requests function = true := by
    rcases List.mem_cons.mp hmem with hnew | hmem
    · exact haction queryId function entry inserted hnew.symm hauthentication
    · exact h queryId function entry inserted hmem hauthentication
  obtain ⟨state, hstate, hrequests⟩ := hold
  exact ⟨state, (entered_cons action (le_of_entered hstate)).trans hstate, hrequests⟩

/-- An action that has no part in authentication. -/
def IsOther : Action → Prop
  | .emplaced _ _ entry _ => entry.handler.isAuthentication = false
  | .invoked _ entry object => entry.failsWith object = false
  | .authorized _ | .ranAuthorization _ => False

theorem RequestsOnce.other {log : List Action} {action : Action} (h : RequestsOnce log)
    (hother : IsOther action) : RequestsOnce (action :: log) := by
  cases action with
  | authorized state => exact hother.elim
  | ranAuthorization state => exact hother.elim
  | emplaced queryId function entry inserted =>
    have hquiet : entry.handler.isAuthentication = false := hother
    refine ⟨h.fresh.cons (by simp), h.matching.cons ?_, ?_⟩
    · rintro _ _ _ _ ⟨⟩ hauthentication
      simp [hquiet] at hauthentication
    · intro epoch state hstate
      simpa [requestCount, failureCount, hquiet] using h.counted epoch state hstate
  | invoked queryId entry object =>
    have hquiet : entry.failsWith object = false := hother
    refine ⟨h.fresh.cons (by simp), h.matching.cons (by simp), ?_⟩
    intro epoch state hstate
    simpa [requestCount, failureCount, hquiet] using h.counted epoch state hstate

/-- A state that asks for nothing is entered. -/
theorem RequestsOnce.enter_silent {log : List Action} {state : AuthorizationState}
    (h : RequestsOnce log) (hsilent : state.isRequesting = false) :
    RequestsOnce (.ranAuthorization state :: .authorized state :: log) := by
  refine ⟨(h.fresh.cons (by simp)).cons (by simp), (h.matching.cons (by simp)).cons (by simp), ?_⟩
  intro epoch reached hreached
  by_cases hepoch : epoch = epochOf log + 1
  · subst hepoch
    simp only [entered, if_true, Option.some.injEq] at hreached
    subst hreached
    simpa [requestCount, hsilent] using h.requestCount_of_lt (Nat.lt_succ_self _)
  · simp only [entered, hepoch, if_false] at hreached
    exact h.counted epoch reached hreached

/-- A state is entered, and its request is sent. -/
theorem RequestsOnce.enter_requesting {log : List Action} {state : AuthorizationState}
    {queryId : UInt64} {function : Function} {entry : Entry} {inserted : Bool}
    (h : RequestsOnce log) (hrequesting : state.isRequesting = true)
    (hauthentication : entry.handler.isAuthentication = true)
    (hepoch : entry.epoch = epochOf log + 1) (hrequests : state.requests function = true) :
    RequestsOnce (.emplaced queryId function entry inserted ::
      .ranAuthorization state :: .authorized state :: log) := by
  refine ⟨((h.fresh.cons (by simp)).cons (by simp)).cons (by simp),
    ((h.matching.cons (by simp)).cons (by simp)).cons ?_, ?_⟩
  · rintro _ _ _ _ ⟨⟩ -
    exact ⟨state, by simp [entered, hepoch], hrequests⟩
  · intro epoch reached hreached
    by_cases hsame : epoch = epochOf log + 1
    · subst hsame
      simp only [entered, if_true, Option.some.injEq] at hreached
      subst hreached
      have hrequestCount := h.requestCount_of_lt (Nat.lt_succ_self (epochOf log))
      have hfailureCount := failureCount_eq_zero (Nat.lt_succ_self (epochOf log))
      simp [requestCount, failureCount, hrequesting, hauthentication, hepoch, hrequestCount,
        hfailureCount]
    · simp only [entered, hsame, if_false] at hreached
      have hother : entry.epoch ≠ epoch := by omega
      simpa [requestCount, failureCount, hother] using h.counted epoch reached hreached

/-- A request of the present state fails, and the request is sent again. -/
theorem RequestsOnce.retry {log : List Action} {state : AuthorizationState}
    {queryId answered : UInt64} {function : Function} {entry failed : Entry} {inserted : Bool}
    {object : Object} (h : RequestsOnce log) (hfails : failed.failsWith object = true)
    (hfailed : failed.epoch = epochOf log) (hstate : entered log (epochOf log) = some state)
    (hrequesting : state.isRequesting = true)
    (hauthentication : entry.handler.isAuthentication = true)
    (hepoch : entry.epoch = epochOf log) (hrequests : state.requests function = true) :
    RequestsOnce (.emplaced queryId function entry inserted ::
      .ranAuthorization state :: .invoked answered failed object :: log) := by
  refine ⟨((h.fresh.cons (by simp)).cons ?_).cons (by simp),
    ((h.matching.cons (by simp)).cons (by simp)).cons ?_, ?_⟩
  · rintro _ _ _ _ _ - ⟨⟩
    exact hfailed
  · rintro _ _ _ _ ⟨⟩ -
    exact ⟨state, by simpa [entered, hepoch] using hstate, hrequests⟩
  · intro epoch reached hreached
    have hold := h.counted epoch reached hreached
    by_cases hsame : epochOf log = epoch
    · subst hsame
      obtain rfl := Option.some.inj (hstate.symm.trans hreached)
      simp [requestCount, failureCount, hrequesting, hauthentication, hepoch, hfails, hfailed]
        at hold ⊢
      omega
    · simpa [requestCount, failureCount, hepoch, hsame] using hold

end Authentication

/-! ## The guard that never changes -/

open Authentication

namespace Core

/-- The stored authentication handlers all captured the id that never changes, and those of the
present epoch belong to a state that asks for something. -/
structure Tracked (core : Core) : Prop where
  idle : core.authenticationQueryId = 0
  epoch : core.epoch = epochOf core.log
  state : core.authorizationState = entered core.log core.epoch
  handlers : ∀ queryId entry id, core.handlers.lookup queryId = some entry →
    entry.handler = .authentication id → id = 0 ∧ entry.epoch ≤ core.epoch ∧
      (entry.epoch = core.epoch →
        ∃ state, core.authorizationState = some state ∧ state.isRequesting = true)

theorem Tracked.record {core : Core} {action : Action} (h : core.Tracked)
    (haction : ∀ state, action ≠ .authorized state) : (core.record action).Tracked := by
  cases action with
  | authorized state => exact absurd rfl (haction state)
  | emplaced | ranAuthorization | invoked => exact ⟨h.idle, h.epoch, h.state, h.handlers⟩

theorem Tracked.enter {core : Core} (h : core.Tracked) (state : AuthorizationState) :
    (core.enter state).Tracked := by
  have hepoch : core.epoch + 1 = epochOf core.log + 1 := congrArg (· + 1) h.epoch
  refine ⟨h.idle, hepoch, ?_, ?_⟩
  · simp [Core.enter, entered, h.epoch]
  · intro queryId entry id hlookup hhandler
    obtain ⟨hid, hle, -⟩ := h.handlers queryId entry id hlookup hhandler
    refine ⟨hid, Nat.le_succ_of_le hle, ?_⟩
    intro hsame
    exact absurd hsame (Nat.ne_of_lt (Nat.lt_succ_of_le hle))

theorem Tracked.send {core : Core} {query : Query} (h : core.Tracked)
    (hquery : ∀ id, query.handler = some (.authentication id) → id = 0 ∧
      ∃ state, core.authorizationState = some state ∧ state.isRequesting = true) :
    (core.send query).Tracked := by
  obtain ⟨function, handler⟩ := query
  cases handler with
  | none => exact ⟨h.idle, h.epoch, h.state, h.handlers⟩
  | some handler =>
    refine ⟨h.idle, h.epoch, h.state, ?_⟩
    intro queryId entry id hlookup hhandler
    rcases UnorderedMap.lookup_emplace_eq_some hlookup with hold | ⟨-, -, rfl⟩
    · exact h.handlers queryId entry id hold hhandler
    · obtain ⟨hid, hstate⟩ := hquery id (congrArg some hhandler)
      exact ⟨hid, Nat.le_refl _, fun _ ↦ hstate⟩

/-- An error answer to an authentication query of an earlier state. -/
def receivesStale (core : Core) (response : Response) : Bool :=
  match response.object, core.handlers.lookup response.requestId with
  | some object, some entry =>
    response.requestId ≠ 0 && entry.failsWith object && entry.epoch < core.epoch
  | _, _ => false

/-- The guard inside the handler compares 0 with 0. -/
theorem Tracked.retries_iff {core : Core} {queryId : UInt64} {entry : Entry} {object : Object}
    (h : core.Tracked) (hentry : core.handlers.lookup queryId = some entry) :
    core.Retries entry object ↔ entry.failsWith object = true := by
  unfold Core.Retries Entry.failsWith
  rw [h.idle, Bool.and_eq_true, decide_eq_true_eq]
  constructor
  · rintro ⟨hhandler, herror⟩
    exact ⟨by rw [hhandler]; rfl, herror⟩
  · rintro ⟨hauthentication, herror⟩
    refine ⟨?_, herror⟩
    cases hhandler : entry.handler with
    | authentication id => rw [(h.handlers queryId entry id hentry hhandler).1]
    | getMe => simp [hhandler, Handler.isAuthentication] at hauthentication
    | sync call => simp [hhandler, Handler.isAuthentication] at hauthentication
    | user tag => simp [hhandler, Handler.isAuthentication] at hauthentication

/-- The actions keep the states' requests in order and the core agrees with them. -/
structure Authenticating (core : Core) : Prop where
  tracked : core.Tracked
  once : RequestsOnce core.log

theorem requestsOnce_send_other {core : Core} {query : Query} (h : RequestsOnce core.log)
    (hquery : ∀ handler, query.handler = some handler → handler.isAuthentication = false) :
    RequestsOnce (core.send query).log := by
  obtain ⟨function, handler⟩ := query
  cases handler with
  | none => exact h
  | some handler => exact h.other (hquery handler rfl)

theorem Authenticating.send_other {core : Core} {query : Query} (h : core.Authenticating)
    (hquery : ∀ handler, query.handler = some handler → handler.isAuthentication = false) :
    (core.send query).Authenticating := by
  refine ⟨h.tracked.send ?_, requestsOnce_send_other h.once hquery⟩
  intro id hhandler
  have hnot : false = true := (hquery _ hhandler).symm
  exact absurd hnot (by decide)

theorem Authenticating.enter {core : Core} {state : AuthorizationState} {query : Option Query}
    (h : core.Authenticating) (hquery : BranchQuery core.authenticationQueryId state query) :
    ((core.enter state).sendOption query).Authenticating := by
  have htracked := h.tracked.enter state
  cases hquery with
  | silent hsilent => exact ⟨htracked, h.once.enter_silent hsilent⟩
  | ready =>
    have hentered : (core.enter .ready).Authenticating := ⟨htracked, h.once.enter_silent rfl⟩
    rw [sendOption_some]
    apply hentered.send_other
    rintro handler ⟨⟩
    rfl
  | requesting hrequesting hrequests =>
    rw [sendOption_some]
    refine ⟨htracked.send ?_, ?_⟩
    · rintro id ⟨⟩
      exact ⟨h.tracked.idle, state, rfl, hrequesting⟩
    · exact h.once.enter_requesting hrequesting rfl (congrArg (· + 1) h.tracked.epoch) hrequests

/-- A failed request of the present state is sent again. -/
theorem Authenticating.retry {core : Core} {queryId : UInt64} {entry : Entry} {object : Object}
    {state : AuthorizationState} {query : Option Query} (h : core.Authenticating)
    (hentry : core.handlers.lookup queryId = some entry)
    (hfails : entry.failsWith object = true) (hfresh : ¬ entry.epoch < core.epoch)
    (hstate : core.authorizationState = some state)
    (hquery : BranchQuery core.authenticationQueryId state query) :
    (((core.record (.invoked queryId entry object)).record
      (.ranAuthorization state)).sendOption query).Authenticating := by
  obtain ⟨hhandler, -⟩ := (h.tracked.retries_iff hentry).mpr hfails
  obtain ⟨-, hle, hrequesting⟩ := h.tracked.handlers queryId entry _ hentry hhandler
  have hsame : entry.epoch = core.epoch := Nat.le_antisymm hle (Nat.le_of_not_lt hfresh)
  obtain ⟨reached, hreached, hasks⟩ := hrequesting hsame
  obtain rfl := Option.some.inj (hstate.symm.trans hreached)
  cases hquery with
  | silent hsilent => simp [hsilent] at hasks
  | ready => simp [AuthorizationState.isRequesting] at hasks
  | requesting _ hrequests =>
    rw [sendOption_some]
    refine ⟨((h.tracked.record (by simp)).record (by simp)).send ?_, ?_⟩
    · rintro id ⟨⟩
      exact ⟨h.tracked.idle, state, hstate, hasks⟩
    · have hentered : entered core.log (epochOf core.log) = some state := by
        rw [← h.tracked.epoch, ← h.tracked.state, hstate]
      exact h.once.retry hfails (hsame.trans h.tracked.epoch) hentered hasks rfl
        h.tracked.epoch hrequests

theorem Authenticating.dispatches {core next : Core} {response : Response} {query : Option Query}
    (h : core.Authenticating) (hdispatch : Dispatches core response next query)
    (hfresh : core.receivesStale response = false) :
    (next.sendOption query).Authenticating := by
  cases hdispatch with
  | quiet => exact h
  | authorized _ _ hquery => exact h.enter hquery
  | invoked hobject hid hentry hquiet =>
    refine ⟨h.tracked.record (by simp), h.once.other ?_⟩
    rw [h.tracked.retries_iff hentry] at hquiet
    exact eq_false_of_ne_true hquiet
  | retried hobject hid hentry hretry hstate hquery =>
    have hfails := (h.tracked.retries_iff hentry).mp hretry
    apply h.retry hentry hfails _ hstate hquery
    simpa [receivesStale, hobject, hentry, hid, hfails] using hfresh

/-- A stale error answer runs the state machine again. -/
theorem Authenticating.not_requestsOnce {core next : Core} {response : Response}
    {query : Option Query} (h : core.Authenticating)
    (hdispatch : Dispatches core response next query)
    (hstale : core.receivesStale response = true) :
    ¬ RequestsOnce (next.sendOption query).log := by
  unfold receivesStale at hstale
  split at hstale
  · rename_i object entry hobject hentry
    simp only [Bool.and_eq_true, decide_eq_true_eq] at hstale
    obtain ⟨⟨hid, hfails⟩, hearlier⟩ := hstale
    have hretry := (h.tracked.retries_iff hentry).mpr hfails
    cases hdispatch with
    | quiet hquiet =>
      rcases hquiet object hobject with ⟨hzero, -⟩ | ⟨-, hnone⟩
      · exact absurd hzero hid
      · simp [hentry] at hnone
    | authorized _ hzero => exact absurd hzero hid
    | invoked hsome _ hlookup hquiet =>
      obtain rfl := Option.some.inj (hobject.symm.trans hsome)
      obtain rfl := Option.some.inj (hentry.symm.trans hlookup)
      exact absurd hretry hquiet
    | retried hsome _ hlookup _ _ hquery =>
      obtain rfl := Option.some.inj (hobject.symm.trans hsome)
      obtain rfl := Option.some.inj (hentry.symm.trans hlookup)
      intro honce
      have hsame : entry.epoch = epochOf core.log := by
        cases hquery with
        | silent => exact honce.fresh [] _ _ _ _ _ rfl
        | ready => exact honce.fresh [_] _ _ _ _ _ rfl
        | requesting => exact honce.fresh [_] _ _ _ _ _ rfl
      rw [hsame, h.tracked.epoch] at hearlier
      exact absurd hearlier (Nat.lt_irrefl _)
  · exact absurd hstale (by decide)

end Core

/-! ## Runs -/

theorem Call.query_handler_other {call : Call} {query : Query} {handler : Handler}
    (hquery : call.query = some query) (hhandler : query.handler = some handler) :
    handler.isAuthentication = false := by
  cases call with
  | loop timeout => simp [Call.query] at hquery
  | close =>
    obtain rfl := Option.some.inj hquery
    simp at hhandler
  | sendQuery function tag =>
    obtain rfl := Option.some.inj hquery
    cases tag with
    | none => simp at hhandler
    | some tag =>
      obtain rfl := Option.some.inj hhandler
      rfl

namespace Session

/-- The call receives an error answer to an authentication query of an earlier state. -/
def receivesStale (session : Session) (call : Call) : Bool :=
  match session.received call with
  | some response => session.td.core.receivesStale response
  | none => false

theorem Moves.authenticating {session : Session} {call : Call} {core : Core}
    (hmoves : session.Moves call core) (h : session.td.core.Authenticating)
    (hfresh : session.receivesStale call = false) : core.Authenticating := by
  unfold receivesStale at hfresh
  cases hmoves with
  | @sent function handler =>
    exact h.send_other fun _ ↦ @Call.query_handler_other (.sendQuery function handler) _ _ rfl
  | looped hreceived hdispatch =>
    rw [hreceived] at hfresh
    exact h.dispatches hdispatch hfresh
  | closed hreceived hdispatch =>
    rw [hreceived] at hfresh
    exact (h.send_other (by simp)).dispatches hdispatch hfresh

theorem Moves.not_requestsOnce {session : Session} {call : Call} {core : Core}
    (hmoves : session.Moves call core) (h : session.td.core.Authenticating)
    (hstale : session.receivesStale call = true) : ¬ RequestsOnce core.log := by
  unfold receivesStale at hstale
  cases hmoves with
  | sent => simp [received, Call.runsLoop] at hstale
  | looped hreceived hdispatch =>
    rw [hreceived] at hstale
    exact h.not_requestsOnce hdispatch hstale
  | closed hreceived hdispatch =>
    rw [hreceived] at hstale
    exact (h.send_other (by simp)).not_requestsOnce hdispatch hstale

/-- A session in which every state's request has been sent as often as it should. -/
structure Requesting (session : Session) : Prop where
  once : RequestsOnce session.td.ghost.log
  phase : (session.Live ∧ session.td.core.Tracked) ∨ session.Dead ∨ session.fault ≠ none

theorem requesting_start (config : Config) : (start config).Requesting := by
  have honce : RequestsOnce [] := by
    refine ⟨?_, nofun, nofun⟩
    intro newer older state queryId entry object hsplit
    simp at hsplit
  refine ⟨honce, Or.inl ⟨live_start config, rfl, rfl, rfl, ?_⟩⟩
  intro queryId entry id hlookup
  simp [start_eq, Td.core] at hlookup

theorem Requesting.step {session next : Session} {call : Call} (h : session.Requesting)
    (hfresh : session.receivesStale call = false)
    (hstep : machine.step session call = some next) : next.Requesting := by
  rcases h.phase with ⟨hlive, htracked⟩ | hdead | hfault
  · cases hrestarts : session.restarts call with
    | false =>
      obtain ⟨hnextLive, -, hmoves⟩ := hlive.step hrestarts hstep
      have hnext := hmoves.authenticating ⟨htracked, h.once⟩ hfresh
      exact ⟨hnext.once, Or.inl ⟨hnextLive, hnext.tracked⟩⟩
    | true =>
      obtain ⟨hnextDead, -, -, hlog⟩ := hlive.restart hrestarts hstep
      exact ⟨hlog ▸ h.once, Or.inr (Or.inl hnextDead)⟩
  · obtain ⟨hnextFault, -, hcore⟩ := hdead.step hstep
    have hlog : next.td.ghost.log = (session.td.core.sendOption call.query).log :=
      congrArg Core.log hcore
    refine ⟨?_, Or.inr (Or.inr (by simp [hnextFault]))⟩
    rw [hlog]
    cases hquery : call.query with
    | none => exact h.once
    | some query =>
      exact Core.requestsOnce_send_other h.once fun _ ↦ Call.query_handler_other hquery
  · obtain ⟨fault, hsome⟩ := Option.ne_none_iff_exists'.mp hfault
    simp [step_of_fault hsome] at hstep

theorem Requesting.not_once {session next : Session} {call : Call} (h : session.Requesting)
    (hstale : session.receivesStale call = true)
    (hstep : machine.step session call = some next) : ¬ RequestsOnce next.td.ghost.log := by
  have hreceived : session.received call ≠ none := by
    intro hnone
    simp [receivesStale, hnone] at hstale
  rcases h.phase with ⟨hlive, htracked⟩ | hdead | hfault
  · have hrestarts : session.restarts call = false := by
      by_contra hrestart
      apply hreceived
      simp only [restarts, Bool.not_eq_false, Bool.and_eq_true] at hrestart
      simp [received, hrestart.2]
    obtain ⟨-, -, hmoves⟩ := hlive.step hrestarts hstep
    exact hmoves.not_requestsOnce ⟨htracked, h.once⟩ hstale
  · exact absurd (by simp [received, hdead.client]) hreceived
  · obtain ⟨fault, hsome⟩ := Option.ne_none_iff_exists'.mp hfault
    simp [step_of_fault hsome] at hstep

/-- No answer to an earlier state's query runs the state machine, and every state's request is
sent once on entry and once per error answer to a request of that state. -/
def AuthenticatesOnce (config : Config) (calls : List Call) : Prop :=
  machine.Throughout (fun session ↦ RequestsOnce session.td.ghost.log) (start config) calls

/-- The requests are in order exactly in the runs that receive no error answer to an
authentication query of an earlier state. -/
theorem authenticatesOnce_iff (config : Config) (calls : List Call) :
    AuthenticatesOnce config calls ↔
      machine.EveryStep (fun session call _ ↦ session.receivesStale call = false)
        (start config) calls := by
  refine Machine.throughout_iff_everyStep (requesting_start config) (fun session h ↦ h.once)
    ?_ ?_ Machine.everyStep_true
  · intro session call next h _ hfresh hstep
    exact h.step hfresh hstep
  · intro session call next h _ hstale hstep
    exact h.not_once (eq_true_of_ne_false hstale) hstep

/-- The phone number is asked for, the code state overtakes the answer, and the error answer for
the phone number sends another code. -/
theorem not_authenticatesOnce_after_stale_error :
    ¬ AuthenticatesOnce
      { stdin := ["+62", "11111", "22222"]
        inbox := [⟨0, some (.updateAuthorizationState .waitPhoneNumber)⟩,
          ⟨0, some (.updateAuthorizationState .waitCode)⟩,
          ⟨1, some (.error 400 "PHONE_NUMBER_INVALID")⟩] }
      [.loop 1, .loop 1, .loop 1] := by
  intro h
  have hlast : RequestsOnce _ := h _ [] _ (List.append_nil _).symm rfl
  exact absurd (hlast.fresh [_] _ _ _ _ _ rfl) (by decide)

end Session

end Tgvisd
