import Tgvisd.HistoryScraper.Refinement

/-!
# Events as transactions

Between two events the worker has no transaction open. An event is stored as a whole by one
commit, or not at all; what a list of events leaves are the events that delete or edit a message,
each id once.
-/

namespace Tgvisd.HistoryScraper

open TdApi Scrape

/-- Between two events. -/
structure Settled (worker : Worker) (db : Database) : Prop where
  inTransaction : db.inTransaction = false
  working : db.working = db.committed
  agrees : worker.Agrees db.committed

/-- The tables hold what the events leave. -/
structure Holds (events : List ChatEvent) (tables : Tables) : Prop where
  valid : tables.Valid
  replays : Replays events tables.canonical

theorem holds_nil : Holds [] {} := ⟨Tables.valid_empty, .nil⟩

theorem settled_empty : Settled {} {} := ⟨rfl, rfl, Worker.agrees_empty _⟩

/-- The kinds of events that are stored. -/
def isStored (ev : ChatEvent) : Bool :=
  match ev.action with
  | .chatEventMessageDeleted _ | .chatEventMessageEdited _ _ => true
  | .other => false

/-- The events of a list that are stored, given the ids that are tracked before. -/
def newEvents : List UInt64 → List ChatEvent → List ChatEvent
  | _, [] => []
  | tracked, ev :: events =>
    if isStored ev ∧ UInt64.ofInt ev.id ∉ tracked then
      ev :: newEvents (tracked ++ [UInt64.ofInt ev.id]) events
    else
      newEvents tracked events

section

variable {setting : Setting} {committed : Tables} {worker : Worker} {db : Database} {store : Store}

theorem Keeps.mono_always {always other : Database → Prop} {Value : Type}
    {procedure : Scrape Worker Value} {returns : Value → Worker → Database → Prop}
    (h : Keeps setting other procedure worker db returns)
    (himp : ∀ next, other next → always next) :
    Keeps setting always procedure worker db returns :=
  Procedure.Ensures.mono h himp fun _ _ hpost ↦ hpost

theorem Settled.startTransaction (h : Settled worker db) (hvalid : db.committed.Valid) :
    Represents db.committed worker db.startTransaction db.committed.canonical := by
  constructor
  · exact h.working
  · rfl
  · rw [Database.startTransaction, h.working]
    exact hvalid
  · rw [Database.startTransaction, h.working]
  · rw [Database.startTransaction, h.working]
    exact h.agrees

theorem Represents.commit (h : Represents committed worker db store) : Settled worker db.commit :=
  ⟨rfl, rfl, h.agrees⟩

theorem keeps_executeText {always : Database → Prop} (sql : Sql) (next : Database)
    {returns : Unit → Worker → Database → Prop}
    (hsql : sql ≠ .insertTrackEventId)
    (hexecutes : ∀ answer after, db.Executes setting.schema sql [] answer after →
      answer = .ok none ∧ after = next)
    (halways : always db) (hnext : always next) (h : returns () worker next) :
    Keeps setting always (executeText sql) worker db returns := by
  apply keeps_bind
  apply ensures_prepare halways _ fun _ _ ↦ trivial
  apply keeps_bind
  apply keeps_bind
  apply ensures_ask
  rintro answer after (hanswer | ⟨-, htrack, -⟩)
  · obtain ⟨rfl, rfl⟩ := hexecutes answer after hanswer
    exact ⟨hnext, keeps_pure (keeps_pure h)⟩
  · exact absurd htrack hsql

theorem settled_abandon (hcommitted : db.committed = committed)
    (hagrees : worker.Agrees committed) : Settled worker db.abandon :=
  ⟨rfl, rfl, hcommitted.symm ▸ hagrees⟩

/-- The result is false for an id that is tracked, and perhaps where the insertion may fail. -/
theorem transacts_trackEventId {eventId : Int} {returns : Bool → Worker → Database → Prop}
    (h : Represents committed worker db store)
    (hnew : UInt64.ofInt eventId ∉ store.tracked → ∀ next,
      Represents committed worker next (store.track eventId) → returns true worker next)
    (hold : UInt64.ofInt eventId ∈ store.tracked ∨ setting.mayFail = true → ∀ next,
      next.committed = committed → returns false worker next) :
    Transacts setting committed (Worker.trackEventId eventId) worker db returns := by
  have htracked : db.working.tracked = store.tracked := by rw [← h.canonical]; rfl
  apply Procedure.ensures_tryCatch_iff.mpr
  apply Procedure.ensures_bind_iff.mpr
  apply ensures_prepare h.committed _ fun hfail _ ↦ hold (.inr hfail) db h.committed
  apply Procedure.ensures_bind_iff.mpr
  apply Procedure.ensures_bind_iff.mpr
  apply ensures_ask
  rintro answer next (hexecutes | ⟨hfail, -, ⟨error, rfl⟩, hnext⟩)
  · obtain ⟨number, -, hresult⟩ := hexecutes
    unfold Tables.apply at hresult
    cases hinsert : db.working.insertTrackEventId (UInt64.ofInt eventId) with
    | some after =>
      simp only [paramUint, hinsert, Option.map_some] at hresult
      obtain ⟨rfl, rfl⟩ := hresult
      obtain ⟨hbecomes, hfresh⟩ := h.valid.insertTrackEventId hinsert
      have hstore : { db.working.canonical with
          tracked := db.working.tracked ++ [UInt64.ofInt eventId] } = store.track eventId := by
        rw [h.canonical, htracked]
        rfl
      rw [hstore] at hbecomes
      have hnext := h.write .insertTrackEventId number hbecomes
      exact ⟨hnext.committed, hnew (htracked ▸ hfresh) _ hnext⟩
    | none =>
      simp only [paramUint, hinsert, Option.map_none] at hresult
      obtain ⟨⟨error, rfl⟩, rfl⟩ := hresult
      have hmem : UInt64.ofInt eventId ∈ store.tracked := by
        unfold Tables.insertTrackEventId at hinsert
        split at hinsert
        · next hmem => exact htracked ▸ hmem
        · simp at hinsert
      exact ⟨h.committed, hold (.inl hmem) _ h.committed⟩
  · have hcommitted : next.committed = committed := by
      obtain rfl | rfl := hnext
      · exact h.committed
      · exact h.committed
    exact ⟨hcommitted, hold (.inr hfail) next hcommitted⟩

/-- One transaction: the event is skipped, or all that `store` does is committed at once. -/
theorem keeps_storeEvent {always : Database → Prop} {eventId : Int}
    {store : Scrape Worker Unit} {returns : Unit → Worker → Database → Prop}
    (h : Settled worker db) (hvalid : db.committed.Valid)
    (halways : ∀ next, next.committed = db.committed → always next)
    (hold : UInt64.ofInt eventId ∈ db.committed.tracked ∨ setting.mayFail = true → ∀ next,
      Settled worker next → next.committed = db.committed → returns () worker next)
    (hnew : UInt64.ofInt eventId ∉ db.committed.tracked → ∀ next,
      Represents db.committed worker next (db.committed.canonical.track eventId) →
      Transacts setting db.committed store worker next fun _ after middle ↦
        ∃ final, Represents db.committed after middle final ∧
          ∀ last, Settled after last → last.committed = middle.working →
            always last ∧ returns () after last) :
    Keeps setting always (Worker.storeEvent eventId store) worker db returns := by
  have hstart := h.startTransaction hvalid
  apply keeps_bind
  apply keeps_executeText .startTransaction db.startTransaction (by simp)
    (fun _ _ hanswer ↦ hanswer) (halways db rfl) (halways _ hstart.committed)
  apply keeps_bind
  apply Keeps.mono_always _ halways
  apply transacts_trackEventId hstart
  · intro hfresh next hnext
    rw [if_pos rfl]
    apply keeps_bind
    apply Keeps.mono_always _ halways
    apply Keeps.mono (hnew hfresh next hnext)
    rintro _ after middle ⟨final, hmiddle, hlast⟩
    obtain ⟨hcommit, hreturns⟩ := hlast middle.commit hmiddle.commit rfl
    exact keeps_executeText .commit _ (by simp) (fun _ _ hanswer ↦ hanswer)
      (halways middle hmiddle.committed) hcommit hreturns
  · intro hskip next hcommitted
    rw [if_neg (by simp)]
    exact keeps_executeText .rollback _ (by simp) (fun _ _ hanswer ↦ hanswer)
      (halways next hcommitted) (halways next.abandon hcommitted)
      (hold hskip _ (settled_abandon hcommitted h.agrees) hcommitted)

/-- An event leaves nothing new, or it is stored. -/
theorem keeps_processEvent {always : Database → Prop} {ev : ChatEvent}
    {returns : Unit → Worker → Database → Prop} (h : Settled worker db)
    (hvalid : db.committed.Valid)
    (halways : ∀ next, next.committed = db.committed → always next)
    (hold : isStored ev = false ∨ UInt64.ofInt ev.id ∈ db.committed.tracked ∨
        setting.mayFail = true → ∀ next,
      Settled worker next → next.committed = db.committed → returns () worker next)
    (hnew : isStored ev = true → UInt64.ofInt ev.id ∉ db.committed.tracked → ∀ after next,
      Settled after next → next.committed.Valid →
      StoresEvent ev db.committed.canonical next.committed.canonical →
      always next ∧ returns () after next) :
    Keeps setting always (Worker.processEvent ev) worker db returns := by
  unfold Worker.processEvent
  unfold isStored at hold hnew
  unfold StoresEvent at hnew
  cases haction : ev.action with
  | chatEventMessageDeleted msg =>
    rw [haction] at hnew
    apply keeps_storeEvent h hvalid halways fun hskip ↦ hold (.inr hskip)
    intro hfresh next hnext
    apply Worker.transacts_processMessage hnext
    intro after middle final hstores hmiddle
    refine ⟨final, hmiddle, fun last hsettled hlast ↦ ?_⟩
    apply hnew rfl hfresh after last hsettled (hlast ▸ hmiddle.valid)
    rw [hlast, hmiddle.canonical]
    exact hstores
  | chatEventMessageEdited oldMessage newMessage =>
    rw [haction] at hnew
    apply keeps_storeEvent h hvalid halways fun hskip ↦ hold (.inr hskip)
    intro hfresh next hnext
    apply keeps_bind
    apply Worker.transacts_processMessage hnext
    intro after middle final hfirst hmiddle
    apply Worker.transacts_processMessage hmiddle
    intro after' middle' final' hsecond hmiddle'
    refine ⟨final', hmiddle', fun last hsettled hlast ↦ ?_⟩
    apply hnew rfl hfresh after' last hsettled (hlast ▸ hmiddle'.valid)
    rw [hlast, hmiddle'.canonical]
    exact ⟨final, hfirst, hsecond⟩
  | other =>
    rw [haction] at hold
    exact keeps_pure (hold (.inl rfl) db h rfl)

theorem settles_processEvent (setting : Setting) (ev : ChatEvent) (h : Settled worker db)
    (hvalid : db.committed.Valid) :
    Keeps setting (fun _ ↦ True) (Worker.processEvent ev) worker db fun _ after next ↦
      Settled after next ∧ next.committed.Valid := by
  apply keeps_processEvent h hvalid
  · exact fun _ _ ↦ trivial
  · exact fun _ next hsettled hcommitted ↦ ⟨hsettled, hcommitted ▸ hvalid⟩
  · exact fun _ _ after next hsettled hnext _ ↦ ⟨trivial, hsettled, hnext⟩

end

end Tgvisd.HistoryScraper
