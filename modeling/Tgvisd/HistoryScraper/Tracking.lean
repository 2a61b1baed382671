import Tgvisd.HistoryScraper.Duties
import Tgvisd.HistoryScraper.Histories

/-!
# Failures of the insertion into `track_event_id`

`trackEventId` takes every exception for a duplicate key, so that an event is skipped, too, when
its insertion fails for another reason. The exchanges of a run tell which events come to hand,
which of them are skipped, and which ids the table holds meanwhile.
-/

namespace Tgvisd.HistoryScraper

open TdApi Scrape

/-! ## Exchanges -/

/-- The id that an exchange has entered into `track_event_id`. -/
def insertedId : Exchange → Option UInt64
  | ⟨.execute .insertTrackEventId [.uint eventId], answer⟩ =>
    if isError (answer : Except String (Option Row)) then none else some eventId
  | _ => none

/-- The events of a page that TDLib has returned. -/
def returnedEvents : Exchange → List ChatEvent
  | ⟨.sendQuerySync (.getChatEventLog _ _ _ _) _ _, answer⟩ =>
    ((answer : Option Object).bind Object.asChatEvents).getD []
  | _ => []

/-- The insertion of an event's id fails, or its preparation. -/
def failsToTrack : Exchange → Bool
  | ⟨.prepare .insertTrackEventId, answer⟩ => isError (answer : Except String Unit)
  | ⟨.execute .insertTrackEventId _, answer⟩ => isError (answer : Except String (Option Row))
  | _ => false

/-- An event is skipped. -/
def rollsBack : Exchange → Bool
  | ⟨.execute .rollback _, _⟩ => true
  | _ => false

/-- An event is done with. -/
def endsEvent : Exchange → Bool
  | ⟨.execute .commit _, _⟩ | ⟨.execute .rollback _, _⟩ => true
  | _ => false

/-- How far a run has come: the returned events that delete or edit a message and are not done
with yet, of which the first is the one at hand, and the ids that are tracked. -/
structure Ledger where
  pending : List ChatEvent
  tracked : List UInt64

namespace Ledger

def record (ledger : Ledger) (exchange : Exchange) : Ledger where
  pending := (if endsEvent exchange then ledger.pending.tail else ledger.pending) ++
    (returnedEvents exchange).filter isStored
  tracked := ledger.tracked ++ (insertedId exchange).toList

def after (ledger : Ledger) (exchanges : List Exchange) : Ledger := exchanges.foldl record ledger

/-- The event at hand is tracked already. -/
def isTracked (ledger : Ledger) : Bool :=
  ledger.pending.head?.any fun ev ↦ UInt64.ofInt ev.id ∈ ledger.tracked

/-- Exchanges of the kind concern only events that are tracked already. -/
def OnlyTracked (kind : Exchange → Bool) : Ledger → List Exchange → Prop
  | _, [] => True
  | ledger, exchange :: rest =>
    (kind exchange = true → ledger.isTracked = true) ∧
      OnlyTracked kind (ledger.record exchange) rest

instance decidableOnlyTracked (kind : Exchange → Bool) : (ledger : Ledger) →
    (exchanges : List Exchange) → Decidable (ledger.OnlyTracked kind exchanges)
  | _, [] => .isTrue trivial
  | ledger, exchange :: rest =>
    have := decidableOnlyTracked kind (ledger.record exchange) rest
    inferInstanceAs (Decidable (_ ∧ _))

variable {ledger : Ledger} {kind : Exchange → Bool} {front back exchanges : List Exchange}

theorem after_append : ledger.after (front ++ back) = (ledger.after front).after back :=
  List.foldl_append

theorem onlyTracked_append :
    ledger.OnlyTracked kind (front ++ back) ↔
      ledger.OnlyTracked kind front ∧ (ledger.after front).OnlyTracked kind back := by
  induction front generalizing ledger with
  | nil => simp [OnlyTracked, after]
  | cons exchange front ih =>
    simp only [List.cons_append, OnlyTracked, ih, and_assoc]
    rfl

end Ledger

section

variable {Value : Type} {worker after : Worker} {exchanges : List Exchange}

/-- A database operation throws its error. -/
def endingOf (answer : Except String Value) (worker : Worker) : Ending Worker Value :=
  match answer with
  | .ok value => .returned value worker
  | .error error => .raised error worker

theorem runs_orThrow_iff {answer : Except String Value} {ending : Ending Worker Value} :
    (orThrow answer).Runs worker exchanges ending ↔
      exchanges = [] ∧ ending = endingOf answer worker := by
  cases answer with
  | ok value => exact Procedure.runs_pure_iff
  | error error => exact Procedure.runs_throw_iff

theorem runs_prepare_iff {sql : Sql} {ending : Ending Worker Unit} :
    (prepare sql).Runs worker exchanges ending ↔
      ∃ answer : Except String Unit, exchanges = [⟨.prepare sql, answer⟩] ∧
        ending = endingOf answer worker := by
  unfold prepare ask
  rw [Procedure.runs_perform_bind_iff]
  apply exists_congr
  intro answer
  simp only [runs_orThrow_iff]
  constructor
  · rintro ⟨back, rfl, rfl, rfl⟩
    exact ⟨rfl, rfl⟩
  · rintro ⟨rfl, rfl⟩
    exact ⟨[], rfl, rfl, rfl⟩

theorem runs_execute_iff {sql : Sql} {parameters : List Parameter}
    {ending : Ending Worker (Option Row)} :
    (execute sql parameters).Runs worker exchanges ending ↔
      ∃ answer : Except String (Option Row), exchanges = [⟨.execute sql parameters, answer⟩] ∧
        ending = endingOf answer worker := by
  unfold execute ask
  rw [Procedure.runs_perform_bind_iff]
  apply exists_congr
  intro answer
  simp only [runs_orThrow_iff]
  constructor
  · rintro ⟨back, rfl, rfl, rfl⟩
    exact ⟨rfl, rfl⟩
  · rintro ⟨rfl, rfl⟩
    exact ⟨[], rfl, rfl, rfl⟩

theorem endingOf_eq_returned_iff {answer : Except String Value} {value : Value} :
    Procedure.Ending.returned value after = endingOf answer worker ↔
      answer = .ok value ∧ after = worker := by
  cases answer <;> simp [endingOf, eq_comm]

theorem runs_executeText_returned {sql : Sql}
    (h : (executeText sql : Scrape Worker Unit).Runs worker exchanges (.returned () after)) :
    (∃ row, exchanges = [⟨.prepare sql, .ok ()⟩, ⟨.execute sql [], .ok row⟩]) ∧
      after = worker := by
  obtain ⟨front, back, _, middle, rfl, hfront, hback⟩ := Procedure.runs_bind_returned h
  obtain ⟨prepared, rfl, hprepared⟩ := runs_prepare_iff.mp hfront
  obtain ⟨rfl, rfl⟩ := endingOf_eq_returned_iff.mp hprepared
  obtain ⟨first, second, row, last, rfl, hfirst, hsecond⟩ := Procedure.runs_bind_returned hback
  obtain ⟨executed, rfl, hexecuted⟩ := runs_execute_iff.mp hfirst
  obtain ⟨rfl, rfl⟩ := endingOf_eq_returned_iff.mp hexecuted
  obtain ⟨rfl, hending⟩ := Procedure.runs_pure_iff.mp hsecond
  exact ⟨⟨row, rfl⟩, (Procedure.Ending.returned.inj hending).2⟩

/-- The exchanges of an insertion, and whether it succeeded. -/
def TracksBy (eventId : Int) (exchanges : List Exchange) (tracked : Bool) : Prop :=
  (∃ error, exchanges = [⟨.prepare .insertTrackEventId, .error error⟩] ∧ tracked = false) ∨
  ∃ answer : Except String (Option Row),
    exchanges = [⟨.prepare .insertTrackEventId, .ok ()⟩,
      ⟨.execute .insertTrackEventId [paramUint eventId], answer⟩] ∧ tracked = !isError answer

/-- Any error is taken for a duplicate. -/
theorem runs_trackEventId_returned {eventId : Int} {tracked : Bool}
    (h : (Worker.trackEventId eventId).Runs worker exchanges (.returned tracked after)) :
    TracksBy eventId exchanges tracked ∧ after = worker := by
  obtain ⟨reason, -, hending⟩ | ⟨value, final, hrun, hending⟩ |
    ⟨front, back, error, middle, rfl, hrun, hhandler⟩ := Procedure.runs_tryCatch_iff.mp h
  · simp at hending
  · obtain ⟨rfl, rfl⟩ := Procedure.Ending.returned.inj hending
    obtain ⟨begin, rest, _, begun, rfl, hprepare, hrest⟩ := Procedure.runs_bind_returned hrun
    obtain ⟨prepared, rfl, hprepared⟩ := runs_prepare_iff.mp hprepare
    obtain ⟨rfl, rfl⟩ := endingOf_eq_returned_iff.mp hprepared
    obtain ⟨first, second, row, last, rfl, hexecute, hlast⟩ := Procedure.runs_bind_returned hrest
    obtain ⟨executed, rfl, hexecuted⟩ := runs_execute_iff.mp hexecute
    obtain ⟨rfl, rfl⟩ := endingOf_eq_returned_iff.mp hexecuted
    obtain ⟨rfl, hreturned⟩ := Procedure.runs_pure_iff.mp hlast
    obtain ⟨rfl, rfl⟩ := Procedure.Ending.returned.inj hreturned
    exact ⟨.inr ⟨.ok row, rfl, rfl⟩, rfl⟩
  · obtain ⟨rfl, hending⟩ := Procedure.runs_pure_iff.mp hhandler
    obtain ⟨rfl, rfl⟩ := Procedure.Ending.returned.inj hending
    rw [List.append_nil]
    obtain ⟨reason, -, hraised⟩ | ⟨raised, final, hprepare, hraised⟩ |
      ⟨begin, rest, _, begun, rfl, hprepare, hrest⟩ := Procedure.runs_bind_iff.mp hrun
    · simp at hraised
    · obtain ⟨rfl, rfl⟩ := Procedure.Ending.raised.inj hraised
      obtain ⟨prepared, rfl, hprepared⟩ := runs_prepare_iff.mp hprepare
      cases prepared with
      | ok value => simp [endingOf] at hprepared
      | error found => exact ⟨.inl ⟨found, rfl, rfl⟩, (Procedure.Ending.raised.inj hprepared).2⟩
    · obtain ⟨prepared, rfl, hprepared⟩ := runs_prepare_iff.mp hprepare
      obtain ⟨rfl, rfl⟩ := endingOf_eq_returned_iff.mp hprepared
      obtain ⟨reason, -, hraised⟩ | ⟨raised, final, hexecute, hraised⟩ |
        ⟨first, second, row, last, rfl, -, hlast⟩ := Procedure.runs_bind_iff.mp hrest
      · simp at hraised
      · obtain ⟨rfl, rfl⟩ := Procedure.Ending.raised.inj hraised
        obtain ⟨executed, rfl, hexecuted⟩ := runs_execute_iff.mp hexecute
        cases executed with
        | ok value => simp [endingOf] at hexecuted
        | error found =>
          exact ⟨.inr ⟨.error found, rfl, rfl⟩, (Procedure.Ending.raised.inj hexecuted).2⟩
      · obtain ⟨-, hreturned⟩ := Procedure.runs_pure_iff.mp hlast
        simp at hreturned

end

/-! ## The table of tracked ids -/

section

variable {setting : Setting} {worker after : Worker} {db last : Database}
  {done : List ChatEvent} {exchanges : List Exchange}

theorem follows_executeText {sql : Sql} {row : Option Row} (hsql : sql ≠ .insertTrackEventId)
    (h : Follows (Database.Responds setting) db
      [⟨.prepare sql, .ok ()⟩, ⟨.execute sql [], .ok row⟩] last) :
    db.Executes setting.schema sql [] (.ok row) last := by
  obtain ⟨next, ⟨-, rfl⟩, hrest⟩ := follows_cons_iff.mp h
  obtain ⟨final, hexecutes, hnil⟩ := follows_cons_iff.mp hrest
  obtain rfl := follows_nil_iff.mp hnil
  obtain hexecutes | ⟨-, htrack, -⟩ := hexecutes
  · exact hexecutes
  · exact absurd htrack hsql

/-- From one world between two events to another, and from one ledger to another: the ledger is
right, the events that are skipped are those whose insertion failed, and all events are tracked if
none of them was skipped for another reason than a duplicate. -/
structure Advances (setting : Setting) (events : List ChatEvent) (start : Ledger) (db : Database)
    (exchanges : List Exchange) (finish : Ledger) (after : Worker) (last : Database) : Prop where
  settled : Settled after last
  valid : last.committed.Valid
  grows : db.committed.tracked <+: last.committed.tracked
  ledger : start.after exchanges = finish
  skipped : start.OnlyTracked rollsBack exchanges ↔ start.OnlyTracked failsToTrack exchanges
  complete : start.OnlyTracked failsToTrack exchanges → ∀ ev ∈ events, isStored ev = true →
    UInt64.ofInt ev.id ∈ last.committed.tracked
  reliable : setting.mayFail = false → start.OnlyTracked failsToTrack exchanges

variable {start between finish : Ledger}

theorem Advances.refl (h : Settled worker db) (hvalid : db.committed.Valid) :
    Advances setting [] start db [] start worker db :=
  ⟨h, hvalid, List.prefix_rfl, rfl, .rfl, fun _ _ hev ↦ absurd hev List.not_mem_nil,
    fun _ ↦ trivial⟩

theorem Advances.append {front back : List ChatEvent} {first rest : List Exchange}
    {middle final : Worker} {next : Database}
    (hfront : Advances setting front start db first between middle next)
    (hback : Advances setting back between next rest finish final last) :
    Advances setting (front ++ back) start db (first ++ rest) finish final last := by
  refine ⟨hback.settled, hback.valid, hfront.grows.trans hback.grows, ?_, ?_, ?_, ?_⟩
  · rw [Ledger.after_append, hfront.ledger, hback.ledger]
  · rw [Ledger.onlyTracked_append, Ledger.onlyTracked_append, hfront.ledger, hfront.skipped,
      hback.skipped]
  · rw [Ledger.onlyTracked_append, hfront.ledger]
    rintro ⟨hfirst, hrest⟩ ev hev hstored
    obtain hev | hev := List.mem_append.mp hev
    · exact hback.grows.subset (hfront.complete hfirst ev hev hstored)
    · exact hback.complete hrest ev hev hstored
  · intro hreliable
    rw [Ledger.onlyTracked_append, hfront.ledger]
    exact ⟨hfront.reliable hreliable, hback.reliable hreliable⟩

/-- The id is entered, unless the insertion fails. -/
theorem responds_trackEventId {eventId : Int} {tracked : Bool} (h : Settled worker db)
    (hvalid : db.committed.Valid)
    (hrun : (Worker.trackEventId eventId).Runs worker exchanges (.returned tracked after))
    (hfollows : Follows (Database.Responds setting) db.startTransaction exchanges last) :
    (tracked = true →
        Represents db.committed after last (db.committed.canonical.track eventId)) ∧
      (tracked = false → last.committed = db.committed ∧
        (setting.mayFail = false → UInt64.ofInt eventId ∈ db.committed.tracked)) := by
  have hkeeps : Transacts setting db.committed (Worker.trackEventId eventId) worker
      db.startTransaction fun tracked after next ↦
        (tracked = true →
          Represents db.committed after next (db.committed.canonical.track eventId)) ∧
        (tracked = false → next.committed = db.committed ∧
          (setting.mayFail = false → UInt64.ofInt eventId ∈ db.committed.tracked)) := by
    apply transacts_trackEventId (h.startTransaction hvalid)
    · exact fun _ next hnext ↦ ⟨fun _ ↦ hnext, by simp⟩
    · rintro hskip next hnext
      refine ⟨by simp, fun _ ↦ ⟨hnext, fun hreliable ↦ ?_⟩⟩
      obtain hmem | hfail := hskip
      · exact hmem
      · simp [hreliable] at hfail
  exact Procedure.Ensures.ends hkeeps (hrun.ends hfollows)

/-- The transaction of an event, which is stored or skipped. -/
def transaction (stored : Bool) (begun ended : Option Row) (tracking storing : List Exchange) :
    List Exchange :=
  [⟨.prepare .startTransaction, .ok ()⟩, ⟨.execute .startTransaction [], .ok begun⟩] ++
    (tracking ++ (storing ++
      [⟨.prepare (if stored then .commit else .rollback), .ok ()⟩,
        ⟨.execute (if stored then .commit else .rollback) [], .ok ended⟩]))

theorem runs_storeEvent_returned {eventId : Int} {store : Scrape Worker Unit}
    (h : (Worker.storeEvent eventId store).Runs worker exchanges (.returned () after)) :
    ∃ tracked begun ended tracking storing,
      exchanges = transaction tracked begun ended tracking storing ∧
      (Worker.trackEventId eventId).Runs worker tracking (.returned tracked worker) ∧
      if tracked then store.Runs worker storing (.returned () after)
      else storing = [] ∧ after = worker := by
  obtain ⟨starting, back, _, worker₁, rfl, hstart, hback⟩ := Procedure.runs_bind_returned h
  obtain ⟨⟨begun, rfl⟩, rfl⟩ := runs_executeText_returned hstart
  obtain ⟨tracking, rest, tracked, worker₂, rfl, htrack, hrest⟩ :=
    Procedure.runs_bind_returned hback
  obtain ⟨-, rfl⟩ := runs_trackEventId_returned htrack
  cases tracked with
  | false =>
    obtain ⟨⟨ended, rfl⟩, rfl⟩ := runs_executeText_returned hrest
    exact ⟨false, begun, ended, tracking, [], rfl, htrack, rfl, rfl⟩
  | true =>
    obtain ⟨storing, committing, _, worker₃, rfl, hstoring, hcommitting⟩ :=
      Procedure.runs_bind_returned hrest
    obtain ⟨⟨ended, rfl⟩, rfl⟩ := runs_executeText_returned hcommitting
    exact ⟨true, begun, ended, tracking, storing, rfl, htrack, hstoring⟩

section

variable {ev : ChatEvent} {rest : List ChatEvent} {ids : List UInt64} {tracked : Bool}
  {tracking storing : List Exchange}

end

theorem eventPage_eq (answer : Option Object) :
    (answer.bind (retVal .chatEvents)).bind Object.asChatEvents =
      answer.bind Object.asChatEvents := by
  cases answer with
  | none => rfl
  | some object => cases object <;> rfl

/-- A page comes to hand. -/
theorem Advances.query {chatId minEv : Int} {answer : Option Object} {events : List ChatEvent}
    (h : Advances setting events
      ⟨((answer.bind Object.asChatEvents).getD []).filter isStored, db.committed.tracked⟩ db
      exchanges finish after last) :
    Advances setting events ⟨[], db.committed.tracked⟩ db
      (⟨.sendQuerySync (.getChatEventLog chatId "" minEv 100) .chatEvents 30, answer⟩ :: exchanges)
      finish after last := by
  have hrecord : Ledger.record ⟨[], db.committed.tracked⟩
      ⟨.sendQuerySync (.getChatEventLog chatId "" minEv 100) .chatEvents 30, answer⟩ =
        ⟨((answer.bind Object.asChatEvents).getD []).filter isStored, db.committed.tracked⟩ := by
    simp [Ledger.record, endsEvent, returnedEvents, insertedId]
  refine ⟨h.settled, h.valid, h.grows, ?_, ?_, ?_, ?_⟩
  · exact (congrArg (Ledger.after · exchanges) hrecord).trans h.ledger
  · simp only [Ledger.OnlyTracked, hrecord, rollsBack, failsToTrack, h.skipped]
  · simp only [Ledger.OnlyTracked, hrecord]
    exact fun hskipped ↦ h.complete hskipped.2
  · intro hreliable
    simp only [Ledger.OnlyTracked, hrecord]
    exact ⟨by simp [failsToTrack], h.reliable hreliable⟩

end

/-! ## Runs of the loop -/

end Tgvisd.HistoryScraper
