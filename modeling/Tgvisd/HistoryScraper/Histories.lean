import Tgvisd.HistoryScraper.Pages
import Tgvisd.HistoryScraper.Simulation

/-!
# Runs that are started again

The scraper walks the event log from its newest event. It may die in any world that it visits, by
an exception or from outside; the server then abandons what was not committed, and another run
starts on the same database with empty maps.
-/

namespace Tgvisd.HistoryScraper

open TdApi Scrape

/-- The pages that `gatherChatEventLog` may get from a cursor on. -/
inductive Walks (eventLog : Int → Option (List ChatEvent) → Prop) :
    Int → List (List ChatEvent) → Prop
  | done : Walks eventLog (-1) []
  | refused {minEv : Int} (hgoing : minEv ≠ -1) (hlog : eventLog minEv none) :
      Walks eventLog minEv []
  | page {minEv : Int} {page : List ChatEvent} {pages : List (List ChatEvent)}
      (hgoing : minEv ≠ -1) (hlog : eventLog minEv (some page))
      (hpages : Walks eventLog (minEvent 0 (-1) page) pages) : Walks eventLog minEv (page :: pages)

/-- TDLib may deliver the event. -/
def Delivered (setting : Setting) (ev : ChatEvent) : Prop :=
  ∃ fromEventId page, setting.eventLog fromEventId (some page) ∧ ev ∈ page

variable {setting : Setting} {worker : Worker} {db : Database} {done : List ChatEvent}

theorem keeps_getChatEventLog {always : Database → Prop} {chatId fromEventId : Int}
    {returns : Option (List ChatEvent) → Worker → Database → Prop} (halways : always db)
    (hreturns : ∀ page, setting.eventLog fromEventId page → returns page worker db) :
    Keeps setting always (Worker.getChatEventLog chatId fromEventId) worker db returns := by
  apply keeps_bind
  apply ensures_ask
  rintro answer _ ⟨hlog, rfl⟩
  refine ⟨halways, ?_⟩
  cases (answer : Option Object) with
  | none => exact hreturns none hlog
  | some object =>
    apply keeps_pure
    cases object with
    | chatEvents events => exact hreturns (some events) hlog
    | error code message => exact hreturns none hlog
    | _ => exact hreturns none hlog

/-- By induction on the rounds. -/
theorem keeps_gatherFrom {always : Database → Prop} {chatId minEv : Int} {rounds : Nat}
    {returns : Unit → Worker → Database → Prop} (h : Settled worker db)
    (hholds : Holds done db.committed)
    (halways : ∀ events next, (∀ ev ∈ events, Delivered setting ev) →
      Progress setting done events next.committed → always next)
    (hreturns : ∀ pages after next, Walks setting.eventLog minEv pages → Settled after next →
      Progress setting done pages.flatten next.committed → returns () after next) :
    Keeps setting always (Worker.gatherFrom chatId rounds minEv) worker db returns := by
  induction rounds generalizing minEv worker db done with
  | zero =>
    unfold Worker.gatherFrom
    split
    · next hdone => exact keeps_pure (hreturns [] worker db (hdone ▸ .done) h hholds.progress)
    · exact keeps_stop
  | succ rounds ih =>
    unfold Worker.gatherFrom
    split
    · next hdone => exact keeps_pure (hreturns [] worker db (hdone ▸ .done) h hholds.progress)
    · next hgoing =>
      apply keeps_bind
      apply keeps_getChatEventLog (halways [] db (by simp) hholds.progress)
      intro page hlog
      cases page with
      | none => exact keeps_pure (hreturns [] worker db (.refused hgoing hlog) h hholds.progress)
      | some page =>
        have hdelivered (ev : ChatEvent) (hev : ev ∈ page) : Delivered setting ev :=
          ⟨minEv, page, hlog, hev⟩
        apply keeps_bind
        apply keeps_processChatEventLog h hholds
        · intro front next hfront hprogress
          exact halways front next (fun ev hev ↦ hdelivered ev (hfront.subset hev)) hprogress
        · rintro after next hsettled ⟨stored, hselects, hnext⟩
          apply ih hsettled hnext
          · intro events last hevents hprogress
            apply halways (page ++ events) last
            · intro ev hev
              obtain hev | hev := List.mem_append.mp hev
              · exact hdelivered ev hev
              · exact hevents ev hev
            · exact .append hselects hprogress
          · intro pages final last hpages hfinal hprogress
            apply hreturns (page :: pages) final last (.page hgoing hlog hpages) hfinal
            rw [List.flatten_cons]
            exact .append hselects hprogress

/-! ## Whole runs -/

/-- The tables hold what some of the delivered events leave. -/
def Replayed (setting : Setting) (tables : Tables) : Prop :=
  ∃ events, (∀ ev ∈ events, Delivered setting ev) ∧ Holds events tables

theorem Replayed.progress {events : List ChatEvent} {tables : Tables}
    (hdone : ∀ ev ∈ done, Delivered setting ev) (hevents : ∀ ev ∈ events, Delivered setting ev)
    (h : Progress setting done events tables) : Replayed setting tables := by
  obtain ⟨stored, hselects, hholds⟩ := h
  refine ⟨done ++ stored, fun ev hev ↦ ?_, hholds⟩
  obtain hev | hev := List.mem_append.mp hev
  · exact hdone ev hev
  · exact hevents ev (hselects.sublist.subset hev)

theorem keeps_requireEnv {always : Database → Prop} {name : String}
    {returns : String → Worker → Database → Prop} (halways : always db)
    (hreturns : ∀ value, returns value worker db) :
    Keeps setting always (Worker.requireEnv name) worker db returns := by
  apply keeps_bind
  apply ensures_ask
  rintro answer _ rfl
  refine ⟨halways, ?_⟩
  cases (answer : Option String) with
  | none => exact keeps_stop
  | some value => exact keeps_pure (hreturns value)

theorem keeps_gatherChatEventLog {chatId : Int} {rounds : Nat} (h : Settled worker db)
    (hreplayed : Replayed setting db.committed) :
    Keeps setting (fun next ↦ Replayed setting next.committed)
      (Worker.gatherChatEventLog chatId rounds) worker db fun _ after next ↦
        Settled after next := by
  obtain ⟨done, hdone, hholds⟩ := hreplayed
  apply keeps_gatherFrom h hholds
  · exact fun events next hevents hprogress ↦ .progress hdone hevents hprogress
  · exact fun pages after next _ hsettled _ ↦ hsettled

/-- A new connection, after which the walk begins. -/
theorem keeps_createDB {dbhost dbuser dbpass dbname : String}
    {returns : Unit → Worker → Database → Prop} (h : Settled worker db)
    (hreplayed : Replayed setting db.committed)
    (hreturns : ∀ next, Settled worker next → Replayed setting next.committed →
      returns () worker next) :
    Keeps setting (fun next ↦ Replayed setting next.committed)
      (Worker.createDB dbhost dbuser dbpass dbname) worker db returns := by
  apply keeps_bind
  apply ensures_ask
  rintro _ _ (⟨rfl, rfl⟩ | ⟨⟨error, rfl⟩, rfl⟩)
  · exact ⟨hreplayed, keeps_pure (hreturns _ ⟨rfl, rfl, h.agrees⟩ hreplayed)⟩
  · exact ⟨hreplayed, keeps_throw⟩

/-- A run that starts with empty maps. -/
theorem keeps_run {rounds : Nat} (h : Settled {} db) (hreplayed : Replayed setting db.committed) :
    Keeps setting (fun next ↦ Replayed setting next.committed) (Worker.run rounds) {} db
      fun _ after next ↦ Settled after next := by
  apply keeps_bind
  apply keeps_requireEnv hreplayed
  intro dbhost
  apply keeps_bind
  apply keeps_requireEnv hreplayed
  intro dbuser
  apply keeps_bind
  apply keeps_requireEnv hreplayed
  intro dbpass
  apply keeps_bind
  apply keeps_requireEnv hreplayed
  intro dbname
  have hconnect : Keeps setting (fun next ↦ Replayed setting next.committed) (do
      let _ ← ask (.sleep 2)
      Worker.createDB dbhost dbuser dbpass dbname
      Worker.gatherChatEventLog (-1001483770714) rounds) {} db
      fun _ after next ↦ Settled after next := by
    apply keeps_bind
    apply ensures_ask
    rintro _ _ rfl
    refine ⟨hreplayed, ?_⟩
    apply keeps_bind
    apply keeps_createDB h hreplayed
    exact fun next hsettled hnext ↦ keeps_gatherChatEventLog hsettled hnext
  apply keeps_bind
  apply ensures_ask
  rintro _ _ rfl
  refine ⟨hreplayed, ?_⟩
  apply keeps_bind
  apply keeps_sendQuerySync (fun _ ↦ True) hreplayed
  · rintro answer _ rfl
    exact ⟨rfl, fun _ _ _ _ ↦ trivial⟩
  · exact fun _ _ ↦ hconnect
  · exact hconnect

/-- The database between runs: a run was stopped somewhere, and the server rolls back what it has
not committed. -/
inductive Reachable (setting : Setting) : Database → Prop
  | empty : Reachable setting {}
  | rerun {db last : Database} (rounds : Nat) (h : Reachable setting db)
      (hvisits : (Worker.run rounds).Visits (Database.Responds setting) {} db last) :
      Reachable setting last.abandon

theorem replayed_of_visits {rounds : Nat} {last : Database} (h : Settled {} db)
    (hreplayed : Replayed setting db.committed)
    (hvisits : (Worker.run rounds).Visits (Database.Responds setting) {} db last) :
    Replayed setting last.committed := by
  obtain rfl | hlast := Procedure.Ensures.visits (keeps_run h hreplayed) hvisits
  · exact hreplayed
  · exact hlast

theorem Reachable.settled (h : Reachable setting db) :
    Settled {} db ∧ Replayed setting db.committed := by
  induction h with
  | empty => exact ⟨settled_empty, [], by simp, holds_nil⟩
  | rerun rounds _ hvisits ih =>
    have hlast := replayed_of_visits ih.1 ih.2 hvisits
    exact ⟨⟨rfl, rfl, Worker.agrees_empty _⟩, hlast⟩

/-- An event that is met: it is skipped if it is tracked, and in every world on the way either
nothing has been committed or the whole event. -/
theorem visits_processEvent {ev : ChatEvent} {last : Database} (h : Settled worker db)
    (hholds : Holds done db.committed)
    (hvisits : (Worker.processEvent ev).Visits (Database.Responds setting) worker db last) :
    last.committed = db.committed ∨
      (UInt64.ofInt ev.id ∉ db.committed.tracked ∧
        StoresEvent ev db.committed.canonical last.committed.canonical) := by
  have hkeeps : Keeps setting (fun next ↦ next.committed = db.committed ∨
      (UInt64.ofInt ev.id ∉ db.committed.tracked ∧
        StoresEvent ev db.committed.canonical next.committed.canonical))
      (Worker.processEvent ev) worker db fun _ _ _ ↦ True := by
    apply keeps_processEvent h hholds.valid
    · exact fun next hnext ↦ .inl hnext
    · exact fun _ _ _ _ ↦ trivial
    · exact fun _ hnew after next _ _ hstores ↦ ⟨.inr ⟨hnew, hstores⟩, trivial⟩
  obtain rfl | hlast := Procedure.Ensures.visits hkeeps hvisits
  · exact .inl rfl
  · exact hlast

/-- In every world of every history, the committed tables are what the tracked events leave, each
of them stored once and completely, in the order of `track_event_id`. An event that is met changes
nothing if it is tracked, and it is committed as a whole or not at all. -/
theorem committed_replays (setting : Setting) :
    (∀ db rounds last, Reachable setting db →
      (Worker.run rounds).Visits (Database.Responds setting) {} db last →
      ∃ events, (∀ ev ∈ events, Delivered setting ev) ∧
        eventIds events = last.committed.tracked ∧ (eventIds events).Nodup ∧
        Replays events last.committed.canonical) ∧
    ∀ worker db done ev last, Settled worker db → Holds done db.committed →
      (Worker.processEvent ev).Visits (Database.Responds setting) worker db last →
      last.committed = db.committed ∨
        (UInt64.ofInt ev.id ∉ db.committed.tracked ∧
          StoresEvent ev db.committed.canonical last.committed.canonical) := by
  constructor
  · intro db rounds last hreach hvisits
    obtain ⟨hsettled, hreplayed⟩ := hreach.settled
    obtain ⟨events, hdelivered, hholds⟩ := replayed_of_visits hsettled hreplayed hvisits
    exact ⟨events, hdelivered, hholds.tracked.symm, hholds.replays.nodup, hholds.replays⟩
  · intro worker db done ev last hsettled hholds hvisits
    exact visits_processEvent hsettled hholds hvisits

/-- Two pages that overlap: a message was edited and then deleted. -/
def overlappingPages : Replies where
  eventLog fromEventId :=
    let edited := textMessage (5 * 1048576) "new"
    let older : ChatEvent :=
      ⟨1, .chatEventMessageEdited (textMessage (5 * 1048576) "old") edited⟩
    let newer : ChatEvent := ⟨2, .chatEventMessageDeleted edited⟩
    if fromEventId = 0 then some [newer]
    else if fromEventId = 2 then some [newer, older]
    else none

theorem committed_replays_overlappingPages : ∃ last events,
    (Worker.run 3).Visits (Database.Responds (overlappingPages.setting .complete)) {} {} last ∧
      last.committed.messages.length = 3 ∧ eventIds events = [2, 1] ∧
      Replays events last.committed.canonical := by
  have hruns : ((Worker.run 3).runIn (Database.respond .complete overlappingPages) {}
      {}).isSome := by decide +kernel
  obtain ⟨⟨ending, last⟩, hrun⟩ := Option.isSome_iff_exists.mp hruns
  have hvisits := (Procedure.ends_of_runIn Database.responds_of_respond hrun).visits
  have hlast : ((Worker.run 3).runIn (Database.respond .complete overlappingPages) {} {}).map
      (fun result ↦ (result.2.committed.messages.length, result.2.committed.tracked)) =
        some (3, [2, 1]) := by decide +kernel
  rw [hrun, Option.map_some, Option.some.injEq, Prod.mk.injEq] at hlast
  obtain ⟨events, -, hids, -, hreplays⟩ :=
    (committed_replays (overlappingPages.setting .complete)).1 {} 3 last .empty hvisits
  exact ⟨last, events, hvisits, hlast.1, hids.trans hlast.2, hreplays⟩

end Tgvisd.HistoryScraper
