import Tgvisd.HistoryScraper.Commits

/-!
# Pages of the event log

What a page leaves, and a sequence of pages: the transactions of its events, one after the other,
where each id is stored at the first event that carries it.
-/

namespace Tgvisd.HistoryScraper

open TdApi Scrape

/-! ## The events that are stored -/

def eventIds (events : List ChatEvent) : List UInt64 := events.map fun ev ↦ UInt64.ofInt ev.id

@[simp] theorem eventIds_nil : eventIds [] = [] := rfl

@[simp] theorem eventIds_append (front back : List ChatEvent) :
    eventIds (front ++ back) = eventIds front ++ eventIds back := List.map_append

@[simp] theorem eventIds_singleton (ev : ChatEvent) : eventIds [ev] = [UInt64.ofInt ev.id] := rfl

theorem newEvents_append (tracked : List UInt64) (front back : List ChatEvent) :
    newEvents tracked (front ++ back) =
      newEvents tracked front ++
        newEvents (tracked ++ eventIds (newEvents tracked front)) back := by
  induction front generalizing tracked with
  | nil => simp [newEvents]
  | cons ev front ih =>
    rw [List.cons_append]
    by_cases hnew : isStored ev = true ∧ UInt64.ofInt ev.id ∉ tracked
    · simp [newEvents, hnew, ih, eventIds]
    · simp [newEvents, hnew, ih]

/-- Some of the events were stored; all that are new, unless the server fails. -/
structure Selects (setting : Setting) (tracked : List UInt64) (events stored : List ChatEvent) :
    Prop where
  sublist : stored.Sublist events
  new : setting.mayFail = false → stored = newEvents tracked events

theorem Selects.nil (setting : Setting) (tracked : List UInt64) :
    Selects setting tracked [] [] := ⟨.slnil, fun _ ↦ rfl⟩

theorem Selects.append {setting : Setting} {tracked : List UInt64}
    {front back first rest : List ChatEvent} (hfirst : Selects setting tracked front first)
    (hrest : Selects setting (tracked ++ eventIds first) back rest) :
    Selects setting tracked (front ++ back) (first ++ rest) := by
  constructor
  · exact hfirst.sublist.append hrest.sublist
  · intro hreliable
    have hnew := hfirst.new hreliable
    rw [newEvents_append, ← hnew, hrest.new hreliable]

/-! ## The ids in the store -/

theorem AddsFile.tracked {position : Nat} {msg : Message} {isEdited : Bool} {text : String}
    {textEntities : Option String} {file : File} {before after : Store}
    (h : AddsFile position msg isEdited text textEntities file before after) :
    after.tracked = before.tracked := by
  obtain ⟨downloaded, md5Sum, sha1Sum, rfl⟩ := h
  rfl

theorem AddsData.tracked {position : Nat} {msg : Message} {isEdited : Bool}
    {before after : Store} (h : AddsData position msg isEdited before after) :
    after.tracked = before.tracked := by
  unfold AddsData at h
  cases hcontent : msg.content with
  | messageText text =>
    rw [hcontent] at h
    rw [h]
    rfl
  | messagePhoto sizes caption =>
    simp only [hcontent] at h
    split at h
    · exact AddsFile.tracked h
    · rw [h]
  | messageVideo file caption | messageSticker file emoji | messageAnimation file caption
  | messageDocument file caption | messageAudio file caption =>
    rw [hcontent] at h
    exact AddsFile.tracked h
  | messageChatJoinByLink | other =>
    rw [hcontent] at h
    rw [h]

theorem Saves.tracked {msg : Message} {user : User} {chat : Chat} {isEdited : Bool}
    {before after : Store} (h : Saves msg user chat isEdited before after) :
    after.tracked = before.tracked := by
  unfold Saves at h
  split at h
  · rw [h]
  · split at h
    · split at h
      · exact h.tracked
      · rw [h]
    · exact h.tracked

theorem tracked_addUser (store : Store) (user : User) :
    (store.addUser user).tracked = store.tracked := by
  unfold Store.addUser
  split <;> rfl

theorem tracked_addGroup (store : Store) (chat : Chat) :
    (store.addGroup chat).tracked = store.tracked := by
  unfold Store.addGroup
  split <;> rfl

theorem Stores.tracked {msg : Message} {isEdited : Bool} {before after : Store}
    (h : Stores msg isEdited before after) : after.tracked = before.tracked := by
  unfold Stores at h
  split at h
  · rw [h]
  · obtain ⟨user, chat, -, -, hsaves⟩ := h
    rw [hsaves.tracked, tracked_addGroup, tracked_addUser]

theorem StoresEvent.tracked {ev : ChatEvent} {before after : Store}
    (h : StoresEvent ev before after) :
    after.tracked = before.tracked ++ [UInt64.ofInt ev.id] := by
  unfold StoresEvent at h
  split at h
  · exact h.tracked
  · obtain ⟨middle, hfirst, hsecond⟩ := h
    exact hsecond.tracked.trans hfirst.tracked
  · exact h.elim

theorem StoresEvent.isStored {ev : ChatEvent} {before after : Store}
    (h : StoresEvent ev before after) : isStored ev = true := by
  unfold StoresEvent at h
  unfold HistoryScraper.isStored
  split at h <;> simp_all

/-- The ids that are tracked are those of the stored events, in their order. -/
theorem Replays.tracked {events : List ChatEvent} {store : Store} (h : Replays events store) :
    store.tracked = eventIds events := by
  induction h with
  | nil => rfl
  | snoc _ _ hstores ih => rw [hstores.tracked, ih, eventIds_append, eventIds_singleton]

theorem Replays.nodup {events : List ChatEvent} {store : Store} (h : Replays events store) :
    (eventIds events).Nodup := by
  induction h with
  | nil => exact List.nodup_nil
  | snoc hevents hnew _ ih =>
    rw [eventIds_append, eventIds_singleton]
    exact Tables.nodup_append_singleton ih (hevents.tracked ▸ hnew)

theorem Holds.tracked {events : List ChatEvent} {tables : Tables} (h : Holds events tables) :
    tables.tracked = eventIds events := h.replays.tracked

/-! ## Progress -/

/-- From the tables that some events have left, further events were met. -/
def Progress (setting : Setting) (done events : List ChatEvent) (tables : Tables) : Prop :=
  ∃ stored, Selects setting (eventIds done) events stored ∧ Holds (done ++ stored) tables

variable {setting : Setting} {worker : Worker} {db : Database} {done events : List ChatEvent}
  {ev : ChatEvent}

theorem Holds.progress {tables : Tables} (h : Holds done tables) :
    Progress setting done [] tables :=
  ⟨[], .nil setting _, by rwa [List.append_nil]⟩

theorem Progress.append {front stored : List ChatEvent} {tables : Tables}
    (hfront : Selects setting (eventIds done) front stored)
    (hback : Progress setting (done ++ stored) events tables) :
    Progress setting done (front ++ events) tables := by
  obtain ⟨rest, hselects, hholds⟩ := hback
  rw [eventIds_append] at hselects
  exact ⟨stored ++ rest, hfront.append hselects, by rwa [← List.append_assoc]⟩

/-- What is committed while an event is processed is what was committed before, or the whole
event. -/
theorem keeps_event {always : Database → Prop} {returns : Unit → Worker → Database → Prop}
    (h : Settled worker db) (hholds : Holds done db.committed)
    (halways : ∀ front stored next, front <+: [ev] →
      Selects setting (eventIds done) front stored → Holds (done ++ stored) next.committed →
      always next)
    (hreturns : ∀ stored after next, Selects setting (eventIds done) [ev] stored →
      Settled after next → Holds (done ++ stored) next.committed → returns () after next) :
    Keeps setting always (Worker.processEvent ev) worker db returns := by
  have hsame (next : Database) (hcommitted : next.committed = db.committed) :
      Holds (done ++ []) next.committed := by
    rwa [List.append_nil, hcommitted]
  apply keeps_processEvent h hholds.valid
  · intro next hcommitted
    exact halways [] [] next List.nil_prefix (.nil setting _) (hsame next hcommitted)
  · intro hold next hsettled hcommitted
    refine hreturns [] worker next ⟨List.nil_sublist _, fun hreliable ↦ ?_⟩ hsettled
      (hsame next hcommitted)
    rw [hholds.tracked, hreliable] at hold
    unfold newEvents
    rw [if_neg, newEvents]
    rintro ⟨hstored, hnew⟩
    obtain hnot | hmem | hfail := hold
    · rw [hstored] at hnot
      simp at hnot
    · exact hnew hmem
    · simp at hfail
  · intro hstored hnew after next hsettled hvalid hstores
    rw [hholds.tracked] at hnew
    have hselects : Selects setting (eventIds done) [ev] [ev] := by
      refine ⟨.refl _, fun _ ↦ ?_⟩
      simp [newEvents, hstored, hnew]
    have hnext : Holds (done ++ [ev]) next.committed := by
      refine ⟨hvalid, .snoc hholds.replays ?_ hstores⟩
      rwa [hholds.replays.tracked]
    exact ⟨halways [ev] [ev] next (List.prefix_refl _) hselects hnext,
      hreturns [ev] after next hselects hsettled hnext⟩

/-! ## Pages -/

/-- The minimum that `processChatEventLog` keeps. -/
def minEvent : Nat → Int → List ChatEvent → Int
  | _, least, [] => least
  | i, least, ev :: events =>
    minEvent (i + 1) (if i = 0 then ev.id else if ev.id < least then ev.id else least) events

/-- By induction on the page. -/
theorem keeps_processEvents {always : Database → Prop}
    {returns : Int → Worker → Database → Prop} {i : Nat} {least : Int}
    (h : Settled worker db) (hholds : Holds done db.committed)
    (halways : ∀ front next, front <+: events → Progress setting done front next.committed →
      always next)
    (hreturns : ∀ after next, Settled after next → Progress setting done events next.committed →
      returns (minEvent i least events) after next) :
    Keeps setting always (Worker.processEvents i least events) worker db returns := by
  induction events generalizing i least worker db done with
  | nil => exact keeps_pure (hreturns worker db h hholds.progress)
  | cons ev events ih =>
    apply keeps_bind
    apply keeps_event h hholds
    · intro front stored next hfront hselects hnext
      apply halways front next _ ⟨stored, hselects, hnext⟩
      exact hfront.trans ⟨events, rfl⟩
    · intro stored after next hselects hsettled hnext
      apply ih hsettled hnext
      · intro front last hfront hprogress
        exact halways (ev :: front) last ((List.prefix_cons_inj ev).mpr hfront)
          (Progress.append hselects hprogress)
      · intro final last hfinal hprogress
        exact hreturns final last hfinal (Progress.append hselects hprogress)

theorem keeps_processChatEventLog {always : Database → Prop}
    {returns : Int → Worker → Database → Prop} (h : Settled worker db)
    (hholds : Holds done db.committed)
    (halways : ∀ front next, front <+: events → Progress setting done front next.committed →
      always next)
    (hreturns : ∀ after next, Settled after next → Progress setting done events next.committed →
      returns (minEvent 0 (-1) events) after next) :
    Keeps setting always (Worker.processChatEventLog events) worker db returns :=
  keeps_processEvents h hholds halways hreturns

namespace Worker

/-- A sequence of pages, in the order in which they arrive. -/
def processPages : List (List ChatEvent) → Scrape Worker Unit
  | [] => pure ()
  | page :: pages => do
    let _ ← processChatEventLog page
    processPages pages

end Worker

theorem keeps_processPages {always : Database → Prop} {returns : Unit → Worker → Database → Prop}
    {pages : List (List ChatEvent)} (h : Settled worker db) (hholds : Holds done db.committed)
    (halways : ∀ front next, front <+: pages.flatten →
      Progress setting done front next.committed → always next)
    (hreturns : ∀ after next, Settled after next →
      Progress setting done pages.flatten next.committed → returns () after next) :
    Keeps setting always (Worker.processPages pages) worker db returns := by
  induction pages generalizing worker db done with
  | nil => exact keeps_pure (hreturns worker db h hholds.progress)
  | cons page pages ih =>
    rw [List.flatten_cons] at halways hreturns
    apply keeps_bind
    apply keeps_processChatEventLog h hholds
    · intro front next hfront hprogress
      exact halways front next (hfront.trans ⟨_, rfl⟩) hprogress
    · rintro after next hsettled ⟨stored, hselects, hnext⟩
      apply ih hsettled hnext
      · intro front last hfront hprogress
        exact halways (page ++ front) last ((List.prefix_append_right_inj page).mpr hfront)
          (.append hselects hprogress)
      · intro final last hfinal hprogress
        exact hreturns final last hfinal (.append hselects hprogress)

end Tgvisd.HistoryScraper
