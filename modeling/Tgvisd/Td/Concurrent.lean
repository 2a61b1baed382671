import Mathlib.Data.List.Perm.Basic
import Tgvisd.Lib.Counting
import Tgvisd.Td.Session

/-!
# Concurrent queries

Any number of threads call `send_query` while one of them, thread 0, runs `loop()`. A call goes
through three steps: it draws an id, it registers its handler, and it hands the query to TDLib.
Each of them is one step of the system, and so is each event that `loop()` receives; a dispatch
that ends with a query of its own sends it in the same three steps. TDLib answers a query it was
handed at most once, in any order, and under its request id; it delivers updates under id 0. The
system covers the time between the construction and the first `restart()`.
-/

namespace Tgvisd

open TdApi

/-- A query with the number of its draw and the id it drew. -/
structure Sent where
  serial : Nat
  queryId : UInt64
  query : Query
  deriving DecidableEq, Repr

/-- How far a thread has come with its call of `send_query`. -/
inductive Stage
  | idle
  | calling (query : Query)
  | drawn (sent : Sent)
  | registered (sent : Sent)
  deriving DecidableEq, Repr

inductive Event
  | update (object : Object)
  | answer (sent : Sent) (object : Object)
  deriving DecidableEq, Repr

def Event.response : Event → Response
  | .update object => ⟨0, some object⟩
  | .answer sent object => ⟨sent.queryId, some object⟩

/-- The queries that were handed over, those of them that TDLib still owes an answer, what it has
delivered, and the answers that `loop()` has received, newest first. The callback is the one that
the dispatch runs after its own query. -/
structure System where
  td : Td
  stage : Nat → Stage := fun _ ↦ .idle
  callback : Option CallbackArgument := none
  handedOver : List Sent := []
  outstanding : List Sent := []
  inbox : List Event := []
  received : List (Sent × Object) := []
  fault : Option Fault := none

/-- A step of the system: those of a thread inside `send_query`, those of TDLib, and the receipt
of one event. -/
inductive Label
  | call (thread : Nat) (query : Query)
  | draw (thread : Nat)
  | register (thread : Nat)
  | handOver (thread : Nat)
  | answer (serial : Nat) (object : Object)
  | update (object : Object)
  | receive
  deriving DecidableEq, Repr

/-- A query that the program's other code may send: the client's own handlers are its own. -/
def Query.isCallers (query : Query) : Bool :=
  match query.handler with
  | some .getMe | some (.authentication _) => false
  | none | some (.sync _) | some (.user _) => true

def Event.receipt : Event → Option (Sent × Object)
  | .update _ => none
  | .answer sent object => some (sent, object)

namespace System

def setStage (system : System) (thread : Nat) (stage : Stage) : System :=
  { system with stage := Function.update system.stage thread stage }

/-- The end of a dispatch: its query is sent by the loop thread, and its callback runs then. -/
def react (system : System) (reaction : Reaction) : System :=
  match reaction.query with
  | none => { system with td := reaction.td.executeOption reaction.callback }
  | some query =>
    { system.setStage 0 (.calling query) with td := reaction.td, callback := reaction.callback }

def call (system : System) (thread : Nat) (query : Query) : Option System :=
  if system.stage thread = .idle ∧ query.isCallers then
    some (system.setStage thread (.calling query))
  else
    none

def draw (system : System) (thread : Nat) : Option System :=
  match system.stage thread with
  | .calling query =>
    let (queryId, td) := system.td.nextQueryId
    some { system.setStage thread (.drawn ⟨system.td.ghost.drawn, queryId, query⟩) with td := td }
  | _ => none

def register (system : System) (thread : Nat) : Option System :=
  match system.stage thread with
  | .drawn sent =>
    some { system.setStage thread (.registered sent) with
      td := system.td.register sent.queryId sent.serial sent.query }
  | _ => none

/-- The query is handed over; where the loop thread does so, the callback of its dispatch runs. -/
def handOver (system : System) (thread : Nat) : Option System :=
  match system.stage thread with
  | .registered sent =>
    match system.td.handOver sent.queryId sent.query.function with
    | .error crash => some { system with td := crash.td, fault := some crash.fault }
    | .ok td =>
      some { system.setStage thread .idle with
        td := td.executeOption (if thread = 0 then system.callback else none)
        callback := if thread = 0 then none else system.callback
        handedOver := sent :: system.handedOver
        outstanding := sent :: system.outstanding }
  | _ => none

/-- TDLib answers a query that it was handed; an id of 0 is for updates only. -/
def answer (system : System) (serial : Nat) (object : Object) : Option System :=
  match system.outstanding.find? fun sent ↦ sent.serial = serial ∧ sent.queryId ≠ 0 with
  | some sent =>
    some { system with
      outstanding := system.outstanding.erase sent
      inbox := system.inbox ++ [.answer sent object] }
  | none => none

def receive (system : System) : Option System :=
  if system.stage 0 = .idle ∧ system.td.needRestart = false then
    match system.inbox with
    | [] => none
    | event :: inbox =>
      let system := { system with
        inbox := inbox
        received := event.receipt.toList ++ system.received }
      match system.td.processResponse event.response with
      | .error crash => some { system with td := crash.td, fault := some crash.fault }
      | .ok reaction => some (system.react reaction)
  else
    none

def step (system : System) (label : Label) : Option System :=
  if system.fault.isSome then
    none
  else
    match label with
    | .call thread query => system.call thread query
    | .draw thread => system.draw thread
    | .register thread => system.register thread
    | .handOver thread => system.handOver thread
    | .answer serial object => system.answer serial object
    | .update object => some { system with inbox := system.inbox ++ [.update object] }
    | .receive => system.receive

def machine : Machine System Label := ⟨step⟩

/-- The constructed object, with its own query handed over. -/
def start (config : Config) : System where
  td := (Session.start config).td
  handedOver := [⟨0, 0, ⟨.getOption "version", none⟩⟩]
  outstanding := [⟨0, 0, ⟨.getOption "version", none⟩⟩]

end System

/-! ## What it means that answers and handlers correspond -/

def Action.invocation : Action → Option (Nat × Handler × Object)
  | .invoked _ entry object => some (entry.owner, entry.handler, object)
  | .emplaced _ _ _ _ | .authorized _ | .ranAuthorization _ => none

/-- The invocation that an answer is due to cause. -/
def dueInvocation (receipt : Sent × Object) : Option (Nat × Handler × Object) :=
  receipt.1.query.handler.map fun handler ↦ (receipt.1.serial, handler, receipt.2)

def System.invocations (system : System) : List (Nat × Handler × Object) :=
  system.td.ghost.log.filterMap Action.invocation

/-- The handlers that have run are those of the answers that were received, each with its answer
and in the same order; no query's handler ran twice, or before the query was handed over. -/
structure System.Correlated (system : System) : Prop where
  running : system.fault = none
  exact : system.invocations = system.received.filterMap dueInvocation
  once : (system.invocations.map Prod.fst).Nodup
  handedOver : ∀ invocation ∈ system.invocations,
    ∃ sent ∈ system.handedOver, sent.serial = invocation.1

end Tgvisd
