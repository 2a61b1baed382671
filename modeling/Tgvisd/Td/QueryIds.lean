import Tgvisd.Lib.Counting
import Tgvisd.Td.Lifetime

/-!
# Query ids and stored handlers

The constructor's own query uses up id 0, so that the ids drawn later are non-zero and distinct
until the counter wraps. `restart()` sets the counter back to 0 and keeps the stored handlers:
the next query with a handler then draws the id that is reserved for updates. The second part is
about the other end of a handler's life: a dispatched handler is never removed.
-/

namespace Tgvisd

open TdApi

/-! ## Ids -/

/-- Every query that was sent with a handler drew a non-zero id that was not in use, and the
answer under this id runs the handler that this query brought. -/
def Td.IdsFresh (td : Td) : Prop :=
  ∀ queryId function entry inserted, .emplaced queryId function entry inserted ∈ td.ghost.log →
    queryId ≠ 0 ∧ inserted = true ∧
      ∀ object, td.processResponse ⟨queryId, some object⟩ =
        (td.record (.invoked queryId entry object)).invoke entry.handler object

namespace Core

/-- Every query that brought a handler finds it under its id. -/
def Stored (core : Core) : Prop :=
  ∀ queryId function entry inserted, .emplaced queryId function entry inserted ∈ core.log →
    queryId ≠ 0 ∧ inserted = true ∧ core.handlers.lookup queryId = some entry

/-- The counter is the number of ids drawn, and every key was drawn by the entry's own query. -/
structure Numbered (core : Core) : Prop where
  counter : core.currentQueryId = UInt64.ofNat core.drawn
  started : 0 < core.drawn
  keys : ∀ queryId entry, core.handlers.lookup queryId = some entry →
    queryId = UInt64.ofNat entry.owner ∧ entry.owner < core.drawn
  stored : core.Stored

/-- While the counter has not wrapped, the next id is not a key. -/
theorem Numbered.next_fresh {core : Core} (h : core.Numbered) (hlt : core.drawn < 2 ^ 64) :
    core.currentQueryId ≠ 0 ∧ core.currentQueryId ∉ core.handlers := by
  rw [h.counter]
  refine ⟨WrappingCounter.ofNat_ne_zero h.started hlt, ?_⟩
  intro hmem
  obtain ⟨entry, hentry⟩ := Option.isSome_iff_exists.mp (AList.lookup_isSome.mpr hmem)
  obtain ⟨hkey, howner⟩ := h.keys _ entry hentry
  have hsame := WrappingCounter.ofNat_inj_of_lt hlt (Nat.lt_trans howner hlt) hkey
  omega

theorem Numbered.send {core : Core} {query : Query} (h : core.Numbered)
    (hbound : (core.send query).drawn ≤ 2 ^ 64) : (core.send query).Numbered := by
  obtain ⟨function, handler⟩ := query
  have hcounter : core.currentQueryId + 1 = UInt64.ofNat (core.drawn + 1) := by
    rw [h.counter, WrappingCounter.ofNat_succ]
  cases handler with
  | none =>
    refine ⟨hcounter, Nat.succ_pos _, ?_, h.stored⟩
    intro queryId entry hlookup
    obtain ⟨hkey, howner⟩ := h.keys queryId entry hlookup
    exact ⟨hkey, Nat.lt_succ_of_lt howner⟩
  | some handler =>
    obtain ⟨hnonzero, hfresh⟩ := h.next_fresh (Nat.lt_of_succ_le hbound)
    have hlookup : (core.handlers.emplace core.currentQueryId (core.entry handler)).lookup
        core.currentQueryId = some (core.entry handler) :=
      UnorderedMap.lookup_emplace_of_notMem hfresh
    refine ⟨hcounter, Nat.succ_pos _, ?_, ?_⟩
    · intro queryId entry hentry
      rcases UnorderedMap.lookup_emplace_eq_some hentry with hold | ⟨-, rfl, rfl⟩
      · obtain ⟨hkey, howner⟩ := h.keys queryId entry hold
        exact ⟨hkey, Nat.lt_succ_of_lt howner⟩
      · exact ⟨h.counter, Nat.lt_succ_self _⟩
    · intro queryId function' entry inserted hmem
      rcases List.mem_cons.mp hmem with hnew | hold
      · simp only [Action.emplaced.injEq] at hnew
        obtain ⟨rfl, -, rfl, rfl⟩ := hnew
        exact ⟨hnonzero, by simpa using hfresh, hlookup⟩
      · obtain ⟨hne, hinserted, hstored⟩ := h.stored queryId function' entry inserted hold
        have hother : queryId ≠ core.currentQueryId := by
          rintro rfl
          exact hfresh (AList.lookup_isSome.mp (by rw [hstored]; rfl))
        exact ⟨hne, hinserted, (UnorderedMap.lookup_emplace_ne hother).trans hstored⟩

theorem Numbered.record {core : Core} {action : Action} (h : core.Numbered)
    (haction : ∀ queryId function entry inserted,
      action ≠ .emplaced queryId function entry inserted) : (core.record action).Numbered := by
  refine ⟨h.counter, h.started, h.keys, ?_⟩
  intro queryId function entry inserted hmem
  rcases List.mem_cons.mp hmem with hnew | hold
  · exact absurd hnew.symm (haction queryId function entry inserted)
  · exact h.stored queryId function entry inserted hold

theorem Numbered.enter {core : Core} {state : AuthorizationState} (h : core.Numbered) :
    (core.enter state).Numbered := by
  have hrecorded : ((core.record (.authorized state)).record (.ranAuthorization state)).Numbered :=
    (h.record (by simp)).record (by simp)
  exact ⟨hrecorded.counter, hrecorded.started, hrecorded.keys, hrecorded.stored⟩

theorem Numbered.sendOption {core : Core} {query : Option Query} (h : core.Numbered)
    (hbound : (core.sendOption query).drawn ≤ 2 ^ 64) : (core.sendOption query).Numbered := by
  cases query with
  | none => exact h
  | some query => exact h.send hbound

theorem Numbered.dispatches {core next : Core} {response : Response} {query : Option Query}
    (h : core.Numbered) (hdispatch : Dispatches core response next query)
    (hbound : (next.sendOption query).drawn ≤ 2 ^ 64) : (next.sendOption query).Numbered := by
  apply Numbered.sendOption _ hbound
  cases hdispatch with
  | quiet => exact h
  | authorized => exact h.enter
  | invoked => exact h.record (by simp)
  | retried => exact (h.record (by simp)).record (by simp)

theorem drawn_le_sendOption (core : Core) (query : Option Query) :
    core.drawn ≤ (core.sendOption query).drawn := by
  cases query with
  | none => exact le_rfl
  | some query =>
    obtain ⟨function, handler⟩ := query
    cases handler <;> exact Nat.le_succ _

end Core

theorem Dispatches.drawn_eq {core next : Core} {response : Response} {query : Option Query}
    (h : Dispatches core response next query) : next.drawn = core.drawn := by
  cases h <;> rfl

/-- Where every handler is stored under its own id, every answer runs the handler of its query. -/
theorem Core.Stored.idsFresh {td : Td} (h : td.core.Stored) : td.IdsFresh := by
  intro queryId function entry inserted hmem
  obtain ⟨hne, hinserted, hstored⟩ := h queryId function entry inserted hmem
  refine ⟨hne, hinserted, ?_⟩
  intro object
  exact Td.processResponse_of_lookup rfl hne hstored

namespace Session

theorem Moves.numbered {session : Session} {call : Call} {core : Core}
    (hmoves : session.Moves call core) (h : session.td.core.Numbered)
    (hbound : core.drawn ≤ 2 ^ 64) : core.Numbered := by
  cases hmoves with
  | sent => exact h.send hbound
  | looped _ hdispatch => exact h.dispatches hdispatch hbound
  | closed _ hdispatch =>
    apply (h.send _).dispatches hdispatch hbound
    rw [← hdispatch.drawn_eq]
    exact Nat.le_trans (Core.drawn_le_sendOption _ _) hbound

theorem numbered_start (config : Config) : (start config).td.core.Numbered := by
  rw [start_eq]
  have hempty (queryId : UInt64) :
      (∅ : UnorderedMap UInt64 Entry).lookup queryId = none := AList.lookup_empty queryId
  refine ⟨rfl, Nat.one_pos, ?_, nofun⟩
  intro queryId entry hlookup
  simp [Td.core, hempty] at hlookup

/-- A session whose handlers are all stored under ids of their own: while the client lives the
counter says which ids are free; once it is gone no more handlers may come. -/
structure Numbering (session : Session) : Prop where
  stored : session.td.core.Stored
  phase : (session.Live ∧ session.restarted = false ∧ session.td.core.Numbered) ∨
    (session.Dead ∧ session.restarted = true) ∨ session.fault ≠ none

theorem numbering_start (config : Config) : (start config).Numbering :=
  ⟨(numbered_start config).stored, Or.inl ⟨live_start config, rfl, numbered_start config⟩⟩

theorem SameHandlers.stored {session next : Session} (hsame : session.SameHandlers next)
    (h : session.td.core.Stored) : next.td.core.Stored := by
  intro queryId function entry inserted hmem
  have hlookup : next.td.core.handlers = session.td.core.handlers := hsame.1
  have hlog : next.td.core.log = session.td.core.log := hsame.2
  rw [hlookup]
  exact h queryId function entry inserted (hlog ▸ hmem)

/-- A call that brings no handler leaves the stored handlers and the actions alone. -/
theorem sendOption_query_of_carries_none {call : Call} (core : Core)
    (hcarries : call.carriesHandler = false) :
    (core.sendOption call.query).handlers = core.handlers ∧
      (core.sendOption call.query).log = core.log := by
  cases call with
  | loop timeout => exact ⟨rfl, rfl⟩
  | close => exact ⟨rfl, rfl⟩
  | sendQuery function handler =>
    cases handler with
    | none => exact ⟨rfl, rfl⟩
    | some tag => simp [Call.carriesHandler] at hcarries

/-- After a `restart()` only calls without a handler keep the ids in order. -/
theorem Numbering.step {session next : Session} {call : Call} (h : session.Numbering)
    (hbound : next.td.ghost.drawn ≤ 2 ^ 64)
    (hguard : session.restarted = true → call.carriesHandler = false)
    (hstep : machine.step session call = some next) : next.Numbering := by
  rcases h.phase with ⟨hlive, hrestarted, hnumbered⟩ | ⟨hdead, hrestarted⟩ | hfault
  · cases hrestarts : session.restarts call with
    | false =>
      obtain ⟨hnextLive, hsame, hmoves⟩ := hlive.step hrestarts hstep
      have hnext : next.td.core.Numbered := hmoves.numbered hnumbered hbound
      exact ⟨hnext.stored, Or.inl ⟨hnextLive, hsame.trans hrestarted, hnext⟩⟩
    | true =>
      obtain ⟨hnextDead, hnextRestarted, hsame⟩ := hlive.restart hrestarts hstep
      exact ⟨hsame.stored h.stored, Or.inr (Or.inl ⟨hnextDead, hnextRestarted⟩)⟩
  · obtain ⟨hnextFault, -, hcore⟩ := hdead.step hstep
    obtain ⟨hhandlers, hlog⟩ :=
      sendOption_query_of_carries_none session.td.core (hguard hrestarted)
    have hsame : session.SameHandlers next :=
      ⟨(congrArg Core.handlers hcore).trans hhandlers, (congrArg Core.log hcore).trans hlog⟩
    exact ⟨hsame.stored h.stored, Or.inr (Or.inr (by simp [hnextFault]))⟩
  · obtain ⟨fault, hsome⟩ := Option.ne_none_iff_exists'.mp hfault
    simp [step_of_fault hsome] at hstep

/-- The first handler that comes after a `restart()` gets the id reserved for updates. -/
theorem Dead.not_idsFresh_of_carries {session next : Session} {call : Call} (hdead : session.Dead)
    (hcarries : call.carriesHandler = true) (hstep : machine.step session call = some next) :
    ¬ next.td.IdsFresh := by
  obtain ⟨-, -, hcore⟩ := hdead.step hstep
  cases call with
  | loop timeout => simp [Call.carriesHandler] at hcarries
  | close => simp [Call.carriesHandler] at hcarries
  | sendQuery function handler =>
    cases handler with
    | none => simp [Call.carriesHandler] at hcarries
    | some tag =>
      intro hfresh
      have hlog : next.td.ghost.log = _ := congrArg Core.log hcore
      have hmem : .emplaced session.td.currentQueryId function
          (session.td.core.entry (.user tag)) (session.td.currentQueryId ∉ session.td.handlers) ∈
            next.td.ghost.log := by
        rw [hlog]
        exact List.mem_cons_self
      exact (hfresh _ _ _ _ hmem).1 hdead.counter

/-- Every id drawn for a handler is non-zero and new, and the answers go where they belong. -/
def IdsFresh (config : Config) (calls : List Call) : Prop :=
  machine.Throughout (fun session ↦ session.td.IdsFresh) (start config) calls

/-- Until the counter wraps, the ids are fresh exactly in the runs that send no query with a
handler after a `restart()`. -/
theorem idsFresh_iff (config : Config) (calls : List Call)
    (hbound : machine.Throughout (fun session ↦ session.td.ghost.drawn ≤ 2 ^ 64)
      (start config) calls) :
    IdsFresh config calls ↔
      machine.EveryStep
        (fun session call _ ↦ session.restarted = true → call.carriesHandler = false)
        (start config) calls := by
  refine Machine.throughout_iff_everyStep (numbering_start config)
    (fun session h ↦ h.stored.idsFresh) ?_ ?_ hbound.everyStep
  · intro session call next h hdrawn hguard hstep
    exact h.step hdrawn hguard hstep
  · intro session call next h hdrawn hguard hstep
    rw [Classical.not_imp, Bool.not_eq_false] at hguard
    obtain ⟨hrestarted, hcarries⟩ := hguard
    rcases h.phase with ⟨-, hnot, -⟩ | ⟨hdead, -⟩ | hfault
    · simp [hrestarted] at hnot
    · exact hdead.not_idsFresh_of_carries hcarries hstep
    · obtain ⟨fault, hsome⟩ := Option.ne_none_iff_exists'.mp hfault
      simp [step_of_fault hsome] at hstep

theorem idsFresh_iff_one_query :
    IdsFresh {} [.sendQuery .getMe (some 0)] ↔
      machine.EveryStep
        (fun session call _ ↦ session.restarted = true → call.carriesHandler = false)
        (start {}) [.sendQuery .getMe (some 0)] := by
  apply idsFresh_iff
  refine Machine.throughout_cons.mpr ⟨by decide, ?_⟩
  intro next hnext
  obtain rfl := Option.some.inj hnext
  exact Machine.throughout_nil.mpr (by decide)

/-- TDLib reports that it has closed, the next `loop` restarts, and the query that follows stores
its handler under id 0. -/
theorem not_idsFresh_after_restart :
    ¬ IdsFresh { inbox := [⟨0, some (.updateAuthorizationState .closed)⟩] }
      [.loop 1, .loop 1, .sendQuery .getMe (some 0)] := by
  intro h
  have hlast := h _ [] _ (List.append_nil _).symm rfl
  exact (hlast 0 .getMe _ true List.mem_cons_self).1 rfl

/-! ## Handlers that stay -/

/-- The ids under which a handler was sent and no response has been dispatched since. -/
def awaits : List Action → UInt64 → Bool
  | [], _ => false
  | .emplaced queryId _ _ _ :: log, id => id = queryId || awaits log id
  | .invoked queryId _ _ :: log, id => id ≠ queryId && awaits log id
  | .authorized _ :: log, id => awaits log id
  | .ranAuthorization _ :: log, id => awaits log id

end Session

namespace Core

/-- The stored handlers are those of the queries whose response has not been dispatched. -/
def Awaited (core : Core) : Prop :=
  ∀ queryId, queryId ∈ core.handlers ↔ Session.awaits core.log queryId = true

theorem Awaited.send {core : Core} (h : core.Awaited) (query : Query) :
    (core.send query).Awaited := by
  obtain ⟨function, handler⟩ := query
  cases handler with
  | none => exact h
  | some handler =>
    intro queryId
    simp only [Core.send, UnorderedMap.mem_emplace, Session.awaits, Bool.or_eq_true,
      decide_eq_true_eq, h queryId]

theorem Awaited.sendOption {core : Core} (h : core.Awaited) (query : Option Query) :
    (core.sendOption query).Awaited := by
  cases query with
  | none => exact h
  | some query => exact h.send query

end Core

/-- The response runs a stored handler. -/
def Response.runsHandler (response : Response) (handlers : UnorderedMap UInt64 Entry) : Bool :=
  response.object.isSome && response.requestId ≠ 0 && response.requestId ∈ handlers

namespace Core

theorem runsHandler_of_lookup {core : Core} {response : Response} {object : Object} {entry : Entry}
    (hobject : response.object = some object) (hid : response.requestId ≠ 0)
    (hentry : core.handlers.lookup response.requestId = some entry) :
    response.runsHandler core.handlers = true := by
  have hmem : response.requestId ∈ core.handlers :=
    AList.lookup_isSome.mp (Option.isSome_iff_exists.mpr ⟨entry, hentry⟩)
  simp [Response.runsHandler, hobject, hid, hmem]

/-- A dispatch that runs no stored handler keeps the two in step. -/
theorem Awaited.dispatches {core next : Core} {response : Response} {query : Option Query}
    (h : core.Awaited) (hdispatch : Dispatches core response next query)
    (hquiet : response.runsHandler core.handlers = false) : (next.sendOption query).Awaited := by
  cases hdispatch with
  | quiet => exact h
  | authorized =>
    apply Awaited.sendOption
    exact h
  | invoked hobject hid hentry => simp [runsHandler_of_lookup hobject hid hentry] at hquiet
  | retried hobject hid hentry => simp [runsHandler_of_lookup hobject hid hentry] at hquiet

/-- A handler that has run and is stored still. -/
def Leaked (core : Core) (queryId : UInt64) : Prop :=
  queryId ∈ core.handlers ∧ Session.awaits core.log queryId = false

theorem Leaked.not_awaited {core : Core} {queryId : UInt64} (h : core.Leaked queryId) :
    ¬ core.Awaited := by
  intro hawaited
  have hpending : Session.awaits core.log queryId = true := (hawaited queryId).mp h.1
  simp [h.2] at hpending

/-- As long as the counter does not wrap, the next query does not take over a leaked id. -/
theorem Leaked.sendOption {core : Core} {queryId : UInt64} {query : Option Query}
    (h : core.Leaked queryId) (hnumbered : core.Numbered)
    (hbound : (core.sendOption query).drawn ≤ 2 ^ 64) :
    (core.sendOption query).Leaked queryId := by
  rcases query with _ | ⟨function, _ | handler⟩
  · exact h
  · exact h
  · have hother : queryId ≠ core.currentQueryId := by
      rintro rfl
      exact (hnumbered.next_fresh (Nat.lt_of_succ_le hbound)).2 h.1
    refine ⟨UnorderedMap.mem_emplace.mpr (Or.inr h.1), ?_⟩
    simp [Core.sendOption, Core.send, Session.awaits, hother, h.2]

/-- A stored handler that runs is leaked. -/
theorem Numbered.leaked {core next : Core} {response : Response} {query : Option Query}
    (h : core.Numbered) (hdispatch : Dispatches core response next query)
    (hruns : response.runsHandler core.handlers = true)
    (hbound : (next.sendOption query).drawn ≤ 2 ^ 64) :
    (next.sendOption query).Leaked response.requestId := by
  simp only [Response.runsHandler, Bool.and_eq_true, decide_eq_true_eq] at hruns
  obtain ⟨⟨hobject, hid⟩, hmem⟩ := hruns
  cases hdispatch with
  | quiet hquiet =>
    obtain ⟨object, hsome⟩ := Option.isSome_iff_exists.mp hobject
    rcases hquiet object hsome with ⟨hzero, -⟩ | ⟨-, hnone⟩
    · exact absurd hzero hid
    · exact absurd hmem (AList.lookup_eq_none.mp hnone)
  | authorized _ hzero => exact absurd hzero hid
  | invoked =>
    refine Leaked.sendOption ⟨hmem, ?_⟩ (h.record (by simp)) hbound
    simp [Core.record, Session.awaits]
  | retried =>
    refine Leaked.sendOption ⟨hmem, ?_⟩ ((h.record (by simp)).record (by simp)) hbound
    simp [Core.record, Session.awaits]

end Core

namespace Session

/-- The call receives the response to a stored handler. -/
def runsHandler (session : Session) (call : Call) : Bool :=
  match session.received call with
  | some response => response.runsHandler session.td.handlers
  | none => false

theorem Moves.awaited {session : Session} {call : Call} {core : Core}
    (hmoves : session.Moves call core) (h : session.td.core.Awaited)
    (hquiet : session.runsHandler call = false) : core.Awaited := by
  unfold runsHandler at hquiet
  cases hmoves with
  | sent => exact h.send _
  | looped hreceived hdispatch =>
    rw [hreceived] at hquiet
    exact h.dispatches hdispatch hquiet
  | closed hreceived hdispatch =>
    rw [hreceived] at hquiet
    exact (h.send _).dispatches hdispatch hquiet

theorem Moves.leaked {session : Session} {call : Call} {core : Core}
    (hmoves : session.Moves call core) (h : session.td.core.Numbered)
    (hruns : session.runsHandler call = true) (hbound : core.drawn ≤ 2 ^ 64) :
    ∃ queryId, core.Leaked queryId := by
  unfold runsHandler at hruns
  cases hmoves with
  | sent => simp [received, Call.runsLoop] at hruns
  | looped hreceived hdispatch =>
    rw [hreceived] at hruns
    exact ⟨_, h.leaked hdispatch hruns hbound⟩
  | closed hreceived hdispatch =>
    rw [hreceived] at hruns
    have hsent : (session.td.core.send ⟨.close, none⟩).Numbered := by
      apply h.send
      rw [← hdispatch.drawn_eq]
      exact Nat.le_trans (Core.drawn_le_sendOption _ _) hbound
    exact ⟨_, hsent.leaked hdispatch hruns hbound⟩

/-- The keys of `handlers_` are the ids of the queries whose response is still awaited. -/
def HandlersAwaited (config : Config) (calls : List Call) : Prop :=
  machine.Throughout (fun session ↦ session.td.core.Awaited) (start config) calls

theorem awaited_start (config : Config) : (start config).td.core.Awaited := by
  rw [start_eq]
  intro queryId
  simp [Td.core, awaits]

/-- Without a restart the stored handlers are the awaited ones in the runs that dispatch no
response to a handler; until the counter wraps, in no others. -/
theorem handlersAwaited_iff (config : Config) (calls : List Call)
    (hrun : machine.EveryStep (fun session call _ ↦ session.restarts call = false)
      (start config) calls) :
    (machine.EveryStep (fun session call _ ↦ session.runsHandler call = false)
      (start config) calls → HandlersAwaited config calls) ∧
    (machine.Throughout (fun session ↦ session.td.ghost.drawn ≤ 2 ^ 64) (start config) calls →
      HandlersAwaited config calls →
        machine.EveryStep (fun session call _ ↦ session.runsHandler call = false)
          (start config) calls) := by
  constructor
  · intro hquiet
    let invariant (session : Session) : Prop := session.Live ∧ session.td.core.Awaited
    have hkeep (session : Session) (call : Call) (next : Session) (h : invariant session)
        (hboth : session.restarts call = false ∧ session.runsHandler call = false)
        (hstep : machine.step session call = some next) : invariant next := by
      obtain ⟨hnextLive, -, hmoves⟩ := h.1.step hboth.1 hstep
      exact ⟨hnextLive, hmoves.awaited h.2 hboth.2⟩
    have hinvariant : machine.Throughout invariant (start config) calls :=
      Machine.Throughout.of_guarded ⟨live_start config, awaited_start config⟩ hkeep
        (hrun.and hquiet)
    exact hinvariant.mono fun session h ↦ h.2
  · intro hbound
    let invariant (session : Session) : Prop :=
      session.Live ∧ session.td.core.Numbered ∧ session.td.core.Awaited
    have hstart : invariant (start config) :=
      ⟨live_start config, numbered_start config, awaited_start config⟩
    refine (Machine.throughout_iff_everyStep hstart (fun session h ↦ h.2.2) ?_ ?_
      (hrun.and hbound.everyStep)).mp
    · rintro session call next ⟨hlive, hnumbered, hawaited⟩ ⟨hrestarts, hdrawn⟩ hquiet hstep
      obtain ⟨hnextLive, -, hmoves⟩ := hlive.step hrestarts hstep
      exact ⟨hnextLive, hmoves.numbered hnumbered hdrawn, hmoves.awaited hawaited hquiet⟩
    · rintro session call next ⟨hlive, hnumbered, -⟩ ⟨hrestarts, hdrawn⟩ hruns hstep
      obtain ⟨-, -, hmoves⟩ := hlive.step hrestarts hstep
      obtain ⟨queryId, hleaked⟩ := hmoves.leaked hnumbered (eq_true_of_ne_false hruns) hdrawn
      exact hleaked.not_awaited

theorem handlersAwaited_of_one_query :
    (machine.EveryStep (fun session call _ ↦ session.runsHandler call = false)
      (start {}) [.sendQuery .getMe (some 0)] →
        HandlersAwaited {} [.sendQuery .getMe (some 0)]) ∧
    (machine.Throughout (fun session ↦ session.td.ghost.drawn ≤ 2 ^ 64) (start {})
        [.sendQuery .getMe (some 0)] →
      HandlersAwaited {} [.sendQuery .getMe (some 0)] →
        machine.EveryStep (fun session call _ ↦ session.runsHandler call = false)
          (start {}) [.sendQuery .getMe (some 0)]) := by
  apply handlersAwaited_iff
  exact Machine.everyStep_cons.mpr fun next _ ↦ ⟨rfl, Machine.everyStep_nil⟩

/-- A query is answered without any restart, and its handler is still there. -/
theorem not_handlersAwaited_after_answer :
    machine.EveryStep (fun session call _ ↦ session.restarts call = false)
      (start { inbox := [⟨1, some (.user { id := 7 })⟩] })
      [.sendQuery .getMe (some 0), .loop 1] ∧
    ¬ HandlersAwaited { inbox := [⟨1, some (.user { id := 7 })⟩] }
      [.sendQuery .getMe (some 0), .loop 1] := by
  constructor
  · refine Machine.everyStep_cons.mpr fun next hnext ↦ ⟨rfl, ?_⟩
    obtain rfl := Option.some.inj hnext
    exact Machine.everyStep_cons.mpr fun last _ ↦ ⟨rfl, Machine.everyStep_nil⟩
  intro h
  have hlast := h _ [] _ (List.append_nil _).symm rfl
  exact absurd ((hlast 1).mp (by decide)) (by decide)

end Session

end Tgvisd
