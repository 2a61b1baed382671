import Tgvisd.Lib.Machine
import Tgvisd.Td.Dispatch

/-!
# Runs of the client

A session is the object together with what TDLib will return from `receive`. Its calls are the
public functions, in any order and number; a crash ends the run. The list of responses is
arbitrary, with empty responses for timeouts, so a statement about all sessions covers whatever
TDLib delivers. A function that the caller registered may itself call `send_query`: the dispatch
runs it last, so such a call is the session's next one.
-/

namespace Tgvisd

open TdApi

/-! ## Dispatch on a live client -/

namespace Core

theorem StateKnown.send {core : Core} {query : Query} (hknown : core.StateKnown)
    (hstate : ∀ id, query.handler = some (.authentication id) → core.authorizationState ≠ none) :
    (core.send query).StateKnown := by
  obtain ⟨function, handler⟩ := query
  cases handler with
  | none => exact hknown
  | some handler =>
    intro queryId entry id hlookup hentry
    rcases UnorderedMap.lookup_emplace_eq_some hlookup with hold | ⟨-, -, rfl⟩
    · exact hknown queryId entry id hold hentry
    · exact hstate id (congrArg some hentry)

theorem StateKnown.dispatches {core next : Core} {response : Response} {query : Option Query}
    (hknown : core.StateKnown) (h : Dispatches core response next query) :
    (next.sendOption query).StateKnown := by
  have hbranch {core : Core} {state : AuthorizationState} {authenticationQueryId : UInt64}
      (hknown : core.StateKnown) (hstate : core.authorizationState = some state)
      (hquery : BranchQuery authenticationQueryId state query) :
      (core.sendOption query).StateKnown := by
    cases query with
    | none => exact hknown
    | some query => exact hknown.send fun _ _ ↦ by simp [hstate]
  cases h with
  | quiet => exact hknown
  | invoked => exact hknown
  | authorized hobject hid hquery =>
    refine hbranch ?_ rfl hquery
    intro queryId entry id _ _
    exact Option.some_ne_none _
  | retried hobject hid hentry hretry hstate hquery => exact hbranch hknown hstate hquery

end Core

namespace Td

theorem finish_of_live {reaction : Reaction}
    (hlive : reaction.td.clientManager.isSome = true) :
    ∃ td, reaction.finish = .ok td ∧ td.core = reaction.td.core.sendOption reaction.query ∧
      td.clientManager.isSome = true := by
  obtain ⟨td, query, callback⟩ := reaction
  cases query with
  | none =>
    exact ⟨td.executeOption callback, rfl, executeOption_core td callback,
      by rw [executeOption_clientManager]; exact hlive⟩
  | some query =>
    obtain ⟨sent, hsend, hcore, hsentLive, -⟩ := sendQuery_of_live query hlive
    refine ⟨sent.executeOption callback, ?_, ?_, ?_⟩
    · simp only [Reaction.finish, sendOption, hsend]
      rfl
    · rw [executeOption_core, hcore]
      rfl
    · rw [executeOption_clientManager]
      exact hsentLive

/-- A response is processed and the branch's last two calls are made. -/
def respond (td : Td) (response : Response) : Except Crash Td := do
  let reaction ← td.processResponse response
  reaction.finish

theorem respond_of_live {td : Td} (response : Response)
    (hlive : td.clientManager.isSome = true) (hknown : td.core.StateKnown) :
    ∃ next core query, td.respond response = .ok next ∧ Dispatches td.core response core query ∧
      next.core = core.sendOption query ∧ next.clientManager.isSome = true := by
  obtain ⟨reaction, hok, hmanager, hdispatch⟩ := processResponse_dispatches response hknown
  obtain ⟨next, hfinish, hcore, hnextLive⟩ := finish_of_live (hmanager ▸ hlive)
  refine ⟨next, _, _, ?_, hdispatch, hcore, hnextLive⟩
  unfold respond
  rw [hok]
  exact hfinish

/-- On a live client `loop` processes one response, whichever of its two branches it takes. -/
theorem loop_of_live {td : Td} {timeout : Int} {inbox : List Response}
    (hlive : td.clientManager.isSome = true) (hrestart : td.needRestart = false) :
    td.loop timeout inbox = (td.respond (inbox.headD {})).map fun next ↦ (next, inbox.tail) := by
  obtain ⟨manager, hmanager⟩ := Option.isSome_iff_exists.mp hlive
  have hreceive (timeout : Int) :
      td.receive timeout inbox = .ok (inbox.headD {}, inbox.tail) := by
    unfold receive
    rw [hmanager]
  generalize inbox.headD {} = response at hreceive ⊢
  have htail : (do
        let reaction ← td.processResponse response
        return (← reaction.finish, inbox.tail)) =
      (td.respond response).map fun next ↦ (next, inbox.tail) := by
    unfold respond
    cases td.processResponse response with
    | error crash => rfl
    | ok reaction => cases hfinish : reaction.finish <;> simp [bind, Except.bind, hfinish] <;> rfl
  unfold loop
  rw [hrestart, ← htail]
  cases hauthorized : td.isAuthorized with
  | false =>
    simp only [Bool.false_eq_true, if_false, Bool.not_false, if_true, hreceive]
    rfl
  | true =>
    simp only [Bool.false_eq_true, if_false, Bool.not_true, hreceive]
    cases hobject : response.object with
    | none =>
      simp [bind, Except.bind, pure, Except.pure, processResponse, hobject, Reaction.finish,
        sendOption, executeOption]
    | some object => simp [bind, Except.bind, hobject]

end Td

/-! ## Sessions -/

/-- What a run starts from: the constructor's arguments, the id TDLib creates, the registered
callbacks, the lines of standard input and what TDLib will return. -/
structure Config where
  apiId : UInt32 := 0
  apiHash : String := ""
  dataPath : String := ""
  clientId : Int := 1
  callback : Callback := {}
  stdin : List String := []
  inbox : List Response := []

structure Session where
  td : Td
  inbox : List Response
  fault : Option Fault := none
  /-- A call has executed `restart()`. -/
  restarted : Bool := false

/-- A call of a public function; a caller's own handler is known by a number. -/
inductive Call
  | loop (timeout : Int)
  | sendQuery (function : Function) (handler : Option Nat)
  | close
  deriving DecidableEq, Repr

def Call.runsLoop : Call → Bool
  | .loop _ | .close => true
  | .sendQuery _ _ => false

/-- The query that the call itself sends. -/
def Call.query : Call → Option Query
  | .loop _ => none
  | .sendQuery function handler => some ⟨function, handler.map .user⟩
  | .close => some ⟨.close, none⟩

/-- The call sends a query with a handler. -/
def Call.carriesHandler : Call → Bool
  | .sendQuery _ handler => handler.isSome
  | .loop _ | .close => false

namespace Session

/-- The call executes `restart()`. -/
def restarts (session : Session) (call : Call) : Bool :=
  call.runsLoop && session.td.needRestart

/-- The response that the call receives, if it gets as far as `receive`. -/
def received (session : Session) (call : Call) : Option Response :=
  if call.runsLoop && !session.td.needRestart && session.td.clientManager.isSome then
    some (session.inbox.headD {})
  else
    none

def settle (session : Session) : Except Crash (Td × List Response) → Session
  | .ok (td, inbox) => { session with td := td, inbox := inbox }
  | .error crash => { session with td := crash.td, fault := some crash.fault }

def perform (session : Session) : Call → Except Crash (Td × List Response)
  | .loop timeout => session.td.loop timeout session.inbox
  | .sendQuery function handler => do
    let td ← session.td.sendQuery ⟨function, handler.map .user⟩
    return (td, session.inbox)
  | .close => session.td.close session.inbox

def step (session : Session) (call : Call) : Option Session :=
  if session.fault.isSome then
    none
  else
    some { session.settle (session.perform call) with
      restarted := session.restarted || session.restarts call }

def machine : Machine Session Call := ⟨step⟩

def start (config : Config) : Session :=
  match Td.construct config.apiId config.apiHash config.dataPath config.clientId config.callback
    config.stdin with
  | .ok td => { td := td, inbox := config.inbox }
  | .error crash => { td := crash.td, inbox := config.inbox, fault := some crash.fault }

theorem start_eq (config : Config) : start config =
    { td :=
        { apiId := config.apiId
          apiHash := config.apiHash
          dataPath := config.dataPath
          callback := config.callback
          clientId := config.clientId
          currentQueryId := 1
          clientManager := some ⟨[(config.clientId, 0, .getOption "version")]⟩
          stdin := config.stdin
          ghost := { drawn := 1 } }
      inbox := config.inbox } := rfl

/-! ## What a call does while no restart has been executed -/

/-- The client is alive and no dispatch can crash. -/
structure Live (session : Session) : Prop where
  fault : session.fault = none
  client : session.td.clientManager.isSome = true
  known : session.td.core.StateKnown

theorem live_start (config : Config) : (start config).Live := by
  rw [start_eq]
  refine ⟨rfl, rfl, ?_⟩
  intro queryId entry id hlookup
  exact absurd hlookup (by simp [Td.core])

/-- What a call that executes no `restart()` makes of the core. -/
inductive Moves (session : Session) : Call → Core → Prop
  | sent {function : Function} {handler : Option Nat} :
      Moves session (.sendQuery function handler)
        (session.td.core.send ⟨function, handler.map .user⟩)
  | looped {timeout : Int} {response : Response} {core : Core} {query : Option Query}
      (hreceived : session.received (.loop timeout) = some response)
      (hdispatch : Dispatches session.td.core response core query) :
      Moves session (.loop timeout) (core.sendOption query)
  | closed {response : Response} {core : Core} {query : Option Query}
      (hreceived : session.received .close = some response)
      (hdispatch : Dispatches (session.td.core.send ⟨.close, none⟩) response core query) :
      Moves session .close (core.sendOption query)

theorem step_of_ok {session : Session} {call : Call} {td : Td} {inbox : List Response}
    (hfault : session.fault = none) (hperform : session.perform call = .ok (td, inbox)) :
    machine.step session call = some
      { td := td, inbox := inbox, fault := none
        restarted := session.restarted || session.restarts call } := by
  simp [machine, step, settle, hfault, hperform]

theorem step_of_error {session : Session} {call : Call} {crash : Crash}
    (hfault : session.fault = none) (hperform : session.perform call = .error crash) :
    machine.step session call = some
      { td := crash.td, inbox := session.inbox, fault := some crash.fault
        restarted := session.restarted || session.restarts call } := by
  simp [machine, step, settle, hfault, hperform]

theorem step_of_fault {session : Session} {call : Call} {fault : Fault}
    (hfault : session.fault = some fault) : machine.step session call = none := by
  simp [machine, step, hfault]

/-- While the client lives, a call that executes no `restart()` returns. -/
theorem Live.perform {session : Session} {call : Call} (hlive : session.Live)
    (hrestarts : session.restarts call = false) :
    ∃ td inbox, session.perform call = .ok (td, inbox) ∧ td.clientManager.isSome = true ∧
      td.core.StateKnown ∧ session.Moves call td.core := by
  cases call with
  | sendQuery function handler =>
    obtain ⟨sent, hsend, hcore, hsentLive, -⟩ :=
      Td.sendQuery_of_live ⟨function, handler.map .user⟩ hlive.client
    refine ⟨sent, session.inbox, ?_, hsentLive, ?_⟩
    · simp only [Session.perform, hsend]
      rfl
    · rw [hcore]
      exact ⟨hlive.known.send (by cases handler <;> simp), .sent⟩
  | loop timeout =>
    have hrun : session.td.needRestart = false := hrestarts
    obtain ⟨td, core, query, hrespond, hdispatch, hcore, htdLive⟩ :=
      Td.respond_of_live (session.inbox.headD {}) hlive.client hlive.known
    refine ⟨td, session.inbox.tail, ?_, htdLive, ?_⟩
    · simp only [Session.perform, Td.loop_of_live hlive.client hrun, hrespond]
      rfl
    · rw [hcore]
      exact ⟨hlive.known.dispatches hdispatch,
        .looped (by simp [received, Call.runsLoop, hrun, hlive.client]) hdispatch⟩
  | close =>
    have hrun : session.td.needRestart = false := hrestarts
    obtain ⟨sent, hsend, hsentCore, hsentLive, hsentRestart⟩ :=
      Td.sendQuery_of_live ⟨.close, none⟩ hlive.client
    have hsentKnown : sent.core.StateKnown := by
      rw [hsentCore]
      exact hlive.known.send (by simp)
    obtain ⟨td, core, query, hrespond, hdispatch, hcore, htdLive⟩ :=
      Td.respond_of_live (session.inbox.headD {}) hsentLive hsentKnown
    refine ⟨td, session.inbox.tail, ?_, htdLive, ?_⟩
    · simp only [Session.perform, Td.close, hsend]
      change sent.loop 5 session.inbox = _
      rw [Td.loop_of_live hsentLive (hsentRestart.trans hrun), hrespond]
      rfl
    · rw [hcore]
      refine ⟨hsentKnown.dispatches hdispatch, ?_⟩
      rw [hsentCore] at hdispatch
      exact .closed (by simp [received, Call.runsLoop, hrun, hlive.client]) hdispatch

theorem Live.step {session next : Session} {call : Call} (hlive : session.Live)
    (hrestarts : session.restarts call = false)
    (hstep : machine.step session call = some next) :
    next.Live ∧ next.restarted = session.restarted ∧ session.Moves call next.td.core := by
  obtain ⟨td, inbox, hperform, hclient, hknown, hmoves⟩ := hlive.perform hrestarts
  rw [step_of_ok hlive.fault hperform, hrestarts, Bool.or_false, Option.some.injEq] at hstep
  subst hstep
  exact ⟨⟨rfl, hclient, hknown⟩, rfl, hmoves⟩

end Session

end Tgvisd
