import Tgvisd.Td.Session

/-!
# The lifetime of the TDLib client

The constructor creates the client and `restart()` destroys it; nothing creates another one. A
run is therefore in one of three phases: the client lives, `restart()` has been executed and the
next call crashes, or it has crashed. The second part is about `close()`, which asks TDLib to
close and then calls `loop` once, so that it processes one event of the queue and no more.
-/

namespace Tgvisd

open TdApi

namespace Session

/-- The client is gone, nothing will ask for another `restart()`, and the counter is back at 0. -/
structure Dead (session : Session) : Prop where
  fault : session.fault = none
  client : session.td.clientManager = none
  needRestart : session.td.needRestart = false
  counter : session.td.currentQueryId = 0

/-- The three phases of a run. -/
inductive Phase (session : Session) : Prop
  | live (hlive : session.Live) (hrestarted : session.restarted = false)
  | dead (hdead : session.Dead) (hrestarted : session.restarted = true)
  | crashed (hfault : session.fault = some .nullClientManager)
      (hclient : session.td.clientManager = none)

/-- The stored handlers and the actions so far are what they were. -/
def SameHandlers (session next : Session) : Prop :=
  next.td.handlers = session.td.handlers ∧ next.td.ghost.log = session.td.ghost.log

/-- The first `restart()` is the end of the client; the call that executes it still returns. -/
theorem Live.perform_restart {session : Session} {call : Call} (hlive : session.Live)
    (hrestarts : session.restarts call = true) :
    ∃ td : Td, session.perform call = .ok (td.restart, session.inbox) ∧
      td.handlers = session.td.handlers ∧ td.ghost.log = session.td.ghost.log := by
  cases call with
  | sendQuery function handler => simp [restarts, Call.runsLoop] at hrestarts
  | loop timeout =>
    have hrun : session.td.needRestart = true := by simpa [restarts, Call.runsLoop] using hrestarts
    refine ⟨session.td, ?_, rfl, rfl⟩
    simp [Session.perform, Td.loop, hrun]
  | close =>
    have hrun : session.td.needRestart = true := by simpa [restarts, Call.runsLoop] using hrestarts
    obtain ⟨sent, hsend, hcore, -, hsentRestart⟩ :=
      Td.sendQuery_of_live ⟨.close, none⟩ hlive.client
    refine ⟨sent, ?_, congrArg Core.handlers hcore, congrArg Core.log hcore⟩
    simp only [Session.perform, Td.close, hsend]
    change sent.loop 5 session.inbox = _
    simp [Td.loop, hsentRestart, hrun]

theorem Live.restart {session next : Session} {call : Call} (hlive : session.Live)
    (hrestarts : session.restarts call = true)
    (hstep : machine.step session call = some next) :
    next.Dead ∧ next.restarted = true ∧ session.SameHandlers next := by
  obtain ⟨td, hperform, hsame⟩ := hlive.perform_restart hrestarts
  rw [step_of_ok hlive.fault hperform, hrestarts, Bool.or_true, Option.some.injEq] at hstep
  subst hstep
  exact ⟨⟨rfl, rfl, rfl, rfl⟩, rfl, hsame⟩

/-- Every call on a dead client dereferences the null pointer; its own query has drawn an id and
stored its handler by then. -/
theorem Dead.perform {session : Session} (call : Call) (hdead : session.Dead) :
    ∃ td, session.perform call = .error ⟨.nullClientManager, td⟩ ∧ td.clientManager = none ∧
      td.core = session.td.core.sendOption call.query := by
  cases call with
  | sendQuery function handler =>
    obtain ⟨last, hsend, hcore, hlast⟩ :=
      Td.sendQuery_of_dead ⟨function, handler.map .user⟩ hdead.client
    exact ⟨last, by simp only [Session.perform, hsend]; rfl, hlast, hcore⟩
  | loop timeout =>
    have hreceive (timeout : Int) : session.td.receive timeout session.inbox =
        .error ⟨.nullClientManager, session.td⟩ := by
      unfold Td.receive
      rw [hdead.client]
    refine ⟨session.td, ?_, hdead.client, rfl⟩
    simp only [Session.perform, Td.loop, hdead.needRestart, hreceive]
    cases session.td.isAuthorized <;> rfl
  | close =>
    obtain ⟨last, hsend, hcore, hlast⟩ := Td.sendQuery_of_dead ⟨.close, none⟩ hdead.client
    exact ⟨last, by simp only [Session.perform, Td.close, hsend]; rfl, hlast, hcore⟩

theorem Dead.step {session next : Session} {call : Call} (hdead : session.Dead)
    (hstep : machine.step session call = some next) :
    next.fault = some .nullClientManager ∧ next.td.clientManager = none ∧
      next.td.core = session.td.core.sendOption call.query := by
  obtain ⟨td, hperform, hclient, hcore⟩ := hdead.perform call
  rw [step_of_error hdead.fault hperform, Option.some.injEq] at hstep
  subst hstep
  exact ⟨rfl, hclient, hcore⟩

theorem Phase.step {session next : Session} {call : Call} (hphase : session.Phase)
    (hstep : machine.step session call = some next) : next.Phase := by
  cases hphase with
  | live hlive hrestarted =>
    cases hrestarts : session.restarts call with
    | false =>
      obtain ⟨hnextLive, hsame, -⟩ := hlive.step hrestarts hstep
      exact .live hnextLive (hsame.trans hrestarted)
    | true =>
      obtain ⟨hnextDead, hnextRestarted, -⟩ := hlive.restart hrestarts hstep
      exact .dead hnextDead hnextRestarted
  | dead hdead _ =>
    obtain ⟨hfault, hclient, -⟩ := hdead.step hstep
    exact .crashed hfault hclient
  | crashed hfault _ => simp [step_of_fault hfault] at hstep

theorem Phase.of_reaches {config : Config} {session : Session}
    (hreach : machine.Reaches (start config) session) : session.Phase :=
  hreach.invariant (.live (live_start config) rfl) fun _ _ _ hphase hstep ↦ hphase.step hstep

/-! ## The client pointer -/

/-- `client_manager_` is non-null whenever a call of the run dereferences it. -/
def ClientNonNull (config : Config) (calls : List Call) : Prop :=
  machine.Throughout (fun session ↦ session.fault ≠ some .nullClientManager) (start config) calls

/-- The client pointer is good exactly in the runs that make no call after the one that executed
`restart()`. -/
theorem clientNonNull_iff (config : Config) (calls : List Call) :
    ClientNonNull config calls ↔
      machine.EveryStep (fun session _ _ ↦ session.restarted = false) (start config) calls := by
  let invariant (session : Session) : Prop :=
    (session.Live ∧ session.restarted = false) ∨ (session.Dead ∧ session.restarted = true)
  have hstart : invariant (start config) := Or.inl ⟨live_start config, rfl⟩
  refine Machine.throughout_iff_everyStep hstart ?_ ?_ ?_ Machine.everyStep_true
  · rintro session (⟨hlive, -⟩ | ⟨hdead, -⟩)
    · simp [hlive.fault]
    · simp [hdead.fault]
  · rintro session call next (⟨hlive, hrestarted⟩ | ⟨-, hrestarted⟩) - hguard hstep
    · cases hrestarts : session.restarts call with
      | false =>
        obtain ⟨hnextLive, hsame, -⟩ := hlive.step hrestarts hstep
        exact Or.inl ⟨hnextLive, hsame.trans hrestarted⟩
      | true =>
        obtain ⟨hnextDead, hnextRestarted, -⟩ := hlive.restart hrestarts hstep
        exact Or.inr ⟨hnextDead, hnextRestarted⟩
    · simp [hrestarted] at hguard
  · rintro session call next (⟨-, hrestarted⟩ | ⟨hdead, -⟩) - hguard hstep
    · exact absurd hrestarted hguard
    · simpa using (hdead.step hstep).1

/-- TDLib reports that it has closed; the next `loop` restarts and the one after it crashes. -/
theorem not_clientNonNull_after_closed :
    ¬ ClientNonNull
      { inbox := [⟨0, some (.updateAuthorizationState .closed)⟩] }
      [.loop 1, .loop 1, .loop 1] := by
  intro h
  exact h _ [] _ (List.append_nil _).symm rfl rfl

/-! ## Closing -/

/-- What TDLib delivers after the close query: whatever is pending, then its two last states. -/
def closingQueue (backlog : List Response) : List Response :=
  backlog ++ [⟨0, some (.updateAuthorizationState .closing)⟩,
    ⟨0, some (.updateAuthorizationState .closed)⟩]

/-- `close()` returns, and the whole queue up to the final state has been processed. -/
def CloseReachesClosed (session : Session) (backlog : List Response) : Prop :=
  ∃ td, session.td.close (closingQueue backlog) = .ok (td, [])

/-- `loop` takes at most one event. -/
theorem loop_inbox {td next : Td} {timeout : Int} {inbox rest : List Response}
    (h : td.loop timeout inbox = .ok (next, rest)) : rest = inbox ∨ rest = inbox.tail := by
  unfold Td.loop at h
  split at h
  · simp only [Except.ok.injEq, Prod.mk.injEq] at h
    exact Or.inl h.2.symm
  · cases hmanager : td.clientManager with
    | none => simp [Td.receive, hmanager, bind, Except.bind] at h
    | some manager =>
      simp only [Td.receive, hmanager, bind, Except.bind, pure, Except.pure] at h
      refine Or.inr ?_
      repeat' split at h
      all_goals simp_all

theorem close_inbox {td next : Td} {inbox rest : List Response}
    (h : td.close inbox = .ok (next, rest)) : rest = inbox ∨ rest = inbox.tail := by
  cases hsend : td.sendQuery ⟨.close, none⟩ with
  | error crash => simp [Td.close, hsend, bind, Except.bind] at h
  | ok sent =>
    simp only [Td.close, hsend] at h
    exact loop_inbox h

/-- While the client lives, `close()` returns. -/
theorem Live.close_returns {session : Session} (hlive : session.Live) (inbox : List Response) :
    ∃ td rest, session.td.close inbox = .ok (td, rest) := by
  have hclosing : ({ session with inbox := inbox } : Session).Live :=
    ⟨hlive.fault, hlive.client, hlive.known⟩
  cases hrestarts : ({ session with inbox := inbox } : Session).restarts .close with
  | false =>
    obtain ⟨td, rest, hperform, -⟩ := hclosing.perform hrestarts
    exact ⟨td, rest, hperform⟩
  | true =>
    obtain ⟨td, hperform, -⟩ := hclosing.perform_restart hrestarts
    exact ⟨td.restart, inbox, hperform⟩

theorem closingQueue_rest_ne_nil {backlog rest : List Response}
    (hrest : rest = closingQueue backlog ∨ rest = (closingQueue backlog).tail) : rest ≠ [] := by
  have hlength : (closingQueue backlog).length = backlog.length + 2 := by simp [closingQueue]
  intro hnil
  rcases hrest with rfl | rfl
  · simp [hnil] at hlength
  · have htail := List.length_tail (l := closingQueue backlog)
    simp [hnil, hlength] at htail

/-- From every reachable state with a live client `close()` returns before it has processed the
final state. -/
theorem close_returns_before_closed {config : Config} {session : Session}
    (hreach : machine.Reaches (start config) session)
    (hclient : session.td.clientManager.isSome = true) (backlog : List Response) :
    (∃ td rest, session.td.close (closingQueue backlog) = .ok (td, rest)) ∧
      ¬ CloseReachesClosed session backlog := by
  have hlive : session.Live := by
    cases Phase.of_reaches hreach with
    | live hlive _ => exact hlive
    | dead hdead _ => simp [hdead.client] at hclient
    | crashed _ hnone => simp [hnone] at hclient
  refine ⟨hlive.close_returns _, ?_⟩
  rintro ⟨td, hclose⟩
  exact closingQueue_rest_ne_nil (close_inbox hclose) rfl

/-- The account is logged in, and the title of a chat is still to be delivered. -/
theorem close_returns_before_closed_ready : ∃ session,
    machine.run (start { inbox := [⟨0, some (.updateAuthorizationState .ready)⟩] }) [.loop 1] =
        some session ∧
      session.td.isAuthorized = true ∧
      (∃ td rest, session.td.close (closingQueue [⟨0, some (.updateChatTitle 5 "title")⟩]) =
        .ok (td, rest)) ∧
      ¬ CloseReachesClosed session [⟨0, some (.updateChatTitle 5 "title")⟩] :=
  ⟨_, rfl, rfl, close_returns_before_closed ⟨[.loop 1], rfl⟩ rfl _⟩

/-- One call of `loop` processes the Closing state and leaves the Closed state in the queue. -/
theorem not_closeReachesClosed_at_start : ¬ CloseReachesClosed (start {}) [] := by
  rintro ⟨td, hclose⟩
  have hrest : ((start {}).td.close (closingQueue [])).map Prod.snd =
      .ok [⟨0, some (.updateAuthorizationState .closed)⟩] := rfl
  rw [hclose] at hrest
  simp [Except.map] at hrest

end Session

end Tgvisd
