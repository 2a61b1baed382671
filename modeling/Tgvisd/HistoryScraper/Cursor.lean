import Tgvisd.HistoryScraper.Duties
import Tgvisd.HistoryScraper.Histories

/-!
# The cursor

The walk through the event log keeps the least id of the last page and asks for what is older.
Against a server that always delivers some newest part of what it is asked for, each page takes
its events off the newest end of what is left, so that the walk comes to an end after it has met
every event once.
-/

namespace Tgvisd.HistoryScraper

open TdApi Scrape

/-! ## The server -/

/-- The event log of a chat, from the newest event to the oldest. -/
structure ChatLog where
  events : List ChatEvent
  descends : events.Pairwise fun newer older ↦ older.id < newer.id
  positive : ∀ ev ∈ events, 0 < ev.id

namespace ChatLog

variable (log : ChatLog)

/-- The events that a cursor asks for. -/
def below (fromEventId : Int) : List ChatEvent :=
  if fromEventId = 0 then log.events else log.events.filter fun ev ↦ ev.id < fromEventId

/-- Some newest events of those that are asked for, in any order; none only if none is left. -/
def Serves (fromEventId : Int) (page : List ChatEvent) : Prop :=
  ∃ newest, newest <+: log.below fromEventId ∧ newest.length ≤ 100 ∧
    (newest = [] → log.below fromEventId = []) ∧ page.Perm newest

/-- An exchange in which the server does what it should. -/
def Answers : Exchange → Prop
  | ⟨.sendQuerySync (.getChatEventLog _ _ fromEventId _) _ _, answer⟩ =>
    ∃ page, (answer : Option Object) = some (.chatEvents page) ∧ log.Serves fromEventId page
  | _ => True

end ChatLog

/-! ## The least id of a page -/

theorem minEvent_succ_le (i : Nat) (least : Int) (events : List ChatEvent) :
    minEvent (i + 1) least events ≤ least ∧
      ∀ ev ∈ events, minEvent (i + 1) least events ≤ ev.id := by
  induction events generalizing i least with
  | nil => simp [minEvent]
  | cons ev events ih =>
    have hnext := ih (i + 1) (if ev.id < least then ev.id else least)
    rw [minEvent, if_neg (Nat.succ_ne_zero i)]
    constructor
    · grind
    · intro other hother
      grind

theorem minEvent_succ_mem (i : Nat) (least : Int) (events : List ChatEvent) :
    minEvent (i + 1) least events = least ∨
      ∃ ev ∈ events, minEvent (i + 1) least events = ev.id := by
  induction events generalizing i least with
  | nil => exact .inl rfl
  | cons ev events ih =>
    have hnext := ih (i + 1) (if ev.id < least then ev.id else least)
    rw [minEvent, if_neg (Nat.succ_ne_zero i)]
    grind

theorem minEvent_le {page : List ChatEvent} {ev : ChatEvent} (hev : ev ∈ page) :
    minEvent 0 (-1) page ≤ ev.id := by
  cases page with
  | nil => simp at hev
  | cons first page =>
    have hle := minEvent_succ_le 0 first.id page
    rw [minEvent, if_pos rfl]
    obtain rfl | hrest := List.mem_cons.mp hev
    · exact hle.1
    · exact hle.2 ev hrest

theorem exists_minEvent {page : List ChatEvent} (h : page ≠ []) :
    ∃ ev ∈ page, minEvent 0 (-1) page = ev.id := by
  cases page with
  | nil => exact absurd rfl h
  | cons first page =>
    rw [minEvent, if_pos rfl]
    obtain hfirst | ⟨ev, hev, heq⟩ := minEvent_succ_mem 0 first.id page
    · exact ⟨first, List.mem_cons_self, hfirst⟩
    · exact ⟨ev, List.mem_cons_of_mem first hev, heq⟩

/-! ## What is left -/

namespace ChatLog

variable {log : ChatLog} {fromEventId : Int} {page newest : List ChatEvent}

theorem below_neg_one : log.below (-1) = [] := by
  unfold below
  rw [if_neg (by omega), List.filter_eq_nil_iff]
  intro ev hev
  have hpos := log.positive ev hev
  simp only [decide_eq_true_eq]
  omega

theorem below_sublist (log : ChatLog) (fromEventId : Int) :
    (log.below fromEventId).Sublist log.events := by
  unfold below
  split
  · exact .refl _
  · exact List.filter_sublist

theorem descends_below (log : ChatLog) (fromEventId : Int) :
    (log.below fromEventId).Pairwise fun newer older ↦ older.id < newer.id :=
  log.descends.sublist (below_sublist log fromEventId)

/-- A smaller cursor asks for a part of it. -/
theorem below_below {next : Int} (hnext : next ≠ 0) (hle : fromEventId ≠ 0 → next ≤ fromEventId) :
    (log.below fromEventId).filter (fun ev ↦ ev.id < next) = log.below next := by
  unfold below
  rw [if_neg hnext]
  split
  · rfl
  · next hfrom =>
    rw [List.filter_filter]
    apply List.filter_congr
    intro ev _
    have hnext := hle hfrom
    simp only [Bool.and_eq_decide, decide_eq_true_eq, decide_eq_decide]
    omega

theorem lt_of_mem_below {ev : ChatEvent} (hev : ev ∈ log.below fromEventId)
    (hfrom : fromEventId ≠ 0) : ev.id < fromEventId := by
  unfold below at hev
  rw [if_neg hfrom] at hev
  exact of_decide_eq_true (List.mem_filter.mp hev).2

/-- The page comes off the newest end of what is left. -/
theorem below_eq_append (hleading : newest <+: log.below fromEventId)
    (hempty : newest = [] → log.below fromEventId = []) (hperm : page.Perm newest) :
    log.below fromEventId = newest ++ log.below (minEvent 0 (-1) page) := by
  by_cases hpage : page = []
  · have hnewest : newest = [] := by rwa [hpage, List.nil_perm] at hperm
    rw [hempty hnewest, hnewest, hpage]
    exact below_neg_one.symm
  · obtain ⟨rest, hrest⟩ := hleading
    obtain ⟨least, hleast, heq⟩ := exists_minEvent hpage
    have hleastMem : least ∈ newest := hperm.subset hleast
    have hbelow : least ∈ log.below fromEventId := by
      rw [← hrest]
      exact List.mem_append_left rest hleastMem
    have hpos := log.positive least ((below_sublist log fromEventId).subset hbelow)
    have hnext : log.below (minEvent 0 (-1) page) = rest := by
      rw [← below_below (by omega) (fun hfrom ↦ ?_), ← hrest, List.filter_append]
      · have hdescends := descends_below log fromEventId
        rw [← hrest, List.pairwise_append] at hdescends
        have hfront : newest.filter (fun ev ↦ ev.id < minEvent 0 (-1) page) = [] := by
          rw [List.filter_eq_nil_iff]
          intro ev hev
          have hle := minEvent_le (hperm.symm.subset hev)
          simp only [decide_eq_true_eq]
          omega
        have hback : rest.filter (fun ev ↦ ev.id < minEvent 0 (-1) page) = rest := by
          rw [List.filter_eq_self]
          intro ev hev
          have hlt := hdescends.2.2 least hleastMem ev hev
          simp only [decide_eq_true_eq]
          omega
        rw [hfront, hback, List.nil_append]
      · have hlt := lt_of_mem_below hbelow hfrom
        omega
    rw [hnext, hrest]

theorem Serves.below_perm (h : log.Serves fromEventId page) :
    (log.below fromEventId).Perm (page ++ log.below (minEvent 0 (-1) page)) := by
  obtain ⟨newest, hleading, -, hempty, hperm⟩ := h
  calc
    log.below fromEventId = newest ++ log.below (minEvent 0 (-1) page) :=
      below_eq_append hleading hempty hperm
    _ |>.Perm (page ++ log.below (minEvent 0 (-1) page)) := hperm.symm.append_right _

end ChatLog

/-! ## The walk -/

def pageQuery (chatId fromEventId : Int) : Request :=
  .sendQuerySync (.getChatEventLog chatId "" fromEventId 100) .chatEvents 30

/-- A run of `gatherChatEventLog` from a cursor on, with the pages that are handed to
`processChatEventLog` one after the other. -/
inductive Rounds (chatId : Int) :
    Int → Worker → List (List ChatEvent) → List Exchange → Worker → Prop
  | done (worker : Worker) : Rounds chatId (-1) worker [] [] worker
  | page {minEv next : Int} {worker middle after : Worker} {page : List ChatEvent}
      {pages : List (List ChatEvent)} {front back : List Exchange}
      (hgoing : minEv ≠ -1)
      (hprocess : (Worker.processChatEventLog page).Runs worker front (.returned next middle))
      (hrounds : Rounds chatId next middle pages back after) :
      Rounds chatId minEv worker (page :: pages)
        (⟨pageQuery chatId minEv, some (.chatEvents page)⟩ :: front ++ back) after

/-- The cursor that a page leaves. -/
theorem minEvent_of_runs_processEvents {worker after : Worker} {exchanges : List Exchange}
    {i : Nat} {least next : Int} {events : List ChatEvent}
    (h : (Worker.processEvents i least events).Runs worker exchanges (.returned next after)) :
    next = minEvent i least events := by
  induction events generalizing i least worker exchanges with
  | nil =>
    obtain ⟨-, hending⟩ := Procedure.runs_pure_iff.mp h
    exact (Procedure.Ending.returned.inj hending).1
  | cons ev events ih =>
    obtain ⟨front, back, _, middle, rfl, -, hrest⟩ := Procedure.runs_bind_returned h
    exact ih hrest

/-- By induction on the rounds: each page leaves less. -/
theorem rounds_of_runs_gatherFrom {log : ChatLog} {chatId minEv : Int} {rounds : Nat}
    {worker : Worker} {exchanges : List Exchange} {ending : Ending Worker Unit}
    (henough : minEv = -1 ∨ (log.below minEv).length < rounds)
    (hrun : (Worker.gatherFrom chatId rounds minEv).Runs worker exchanges ending)
    (hanswers : ∀ exchange ∈ exchanges, log.Answers exchange)
    (hlucky : pageConduct.Lucky exchanges) :
    ∃ pages after, ending = .returned () after ∧
      Rounds chatId minEv worker pages exchanges after ∧
      pages.flatten.Perm (log.below minEv) := by
  induction rounds generalizing minEv worker exchanges with
  | zero =>
    have hdone : minEv = -1 := by omega
    unfold Worker.gatherFrom at hrun
    rw [if_pos hdone] at hrun
    obtain ⟨rfl, rfl⟩ := Procedure.runs_pure_iff.mp hrun
    rw [hdone, ChatLog.below_neg_one]
    exact ⟨[], worker, rfl, .done worker, .nil⟩
  | succ rounds ih =>
    unfold Worker.gatherFrom at hrun
    by_cases hdone : minEv = -1
    · rw [if_pos hdone] at hrun
      obtain ⟨rfl, rfl⟩ := Procedure.runs_pure_iff.mp hrun
      rw [hdone, ChatLog.below_neg_one]
      exact ⟨[], worker, rfl, .done worker, .nil⟩
    · rw [if_neg hdone] at hrun
      obtain ⟨answer, rest, rfl, hrest⟩ := (runs_sendQuerySync_bind_iff (by decide)).mp hrun
      rw [List.forall_mem_cons] at hanswers
      rw [Conduct.lucky_cons] at hlucky
      obtain ⟨page, rfl, hserves⟩ : ∃ page, answer = some (.chatEvents page) ∧
        log.Serves minEv page := hanswers.1
      have hhanded : (Worker.processChatEventLog page >>= fun next ↦
          Worker.gatherFrom chatId rounds next).Runs worker rest ending := hrest
      obtain ⟨front, back, next, middle, rfl, hprocess, hback⟩ :=
        (Worker.dutiful_processChatEventLog page).runs_bind hhanded hlucky.2
      obtain rfl := minEvent_of_runs_processEvents hprocess
      rw [List.forall_mem_append] at hanswers
      rw [Conduct.lucky_append] at hlucky
      have hperm := hserves.below_perm
      have hlength := hperm.length_eq
      rw [List.length_append] at hlength
      have hnext : minEvent 0 (-1) page = -1 ∨
          (log.below (minEvent 0 (-1) page)).length < rounds := by
        cases page with
        | nil => exact .inl rfl
        | cons first page =>
          rw [List.length_cons] at hlength
          omega
      obtain ⟨pages, after, rfl, hrounds, hpages⟩ := ih hnext hback hanswers.2.2 hlucky.2.2
      exact ⟨page :: pages, after, rfl, .page hdone hprocess hrounds,
        (hpages.append_left page).trans hperm.symm⟩

/-- The walk comes to an end, and every event of the log is in exactly one of the pages that are
processed, once. -/
theorem rounds_of_runs_gatherChatEventLog (log : ChatLog) (chatId : Int) (extra : Nat)
    (worker : Worker) (exchanges : List Exchange) (ending : Ending Worker Unit)
    (hrun : (Worker.gatherChatEventLog chatId (log.events.length + 1 + extra)).Runs worker
      exchanges ending)
    (hanswers : ∀ exchange ∈ exchanges, log.Answers exchange)
    (hlucky : ∀ exchange ∈ exchanges, unlucky exchange = false) :
    ∃ pages after, ending = .returned () after ∧ Rounds chatId 0 worker pages exchanges after ∧
      pages.flatten.Perm log.events := by
  apply rounds_of_runs_gatherFrom (.inr _) hrun hanswers hlucky
  have hbelow : log.below 0 = log.events := if_pos rfl
  rw [hbelow]
  omega

/-- Three events, of which the middle one deletes a message. -/
def shortLog : ChatLog where
  events := [⟨9, .other⟩, ⟨7, .chatEventMessageDeleted (textMessage 1048576 "gone")⟩, ⟨4, .other⟩]
  descends := by simp
  positive := by simp

/-- Two events come out of order, and the deletion has been tracked before. -/
def shortWalk : List Exchange :=
  [⟨pageQuery 5 0, some (.chatEvents
      [⟨7, .chatEventMessageDeleted (textMessage 1048576 "gone")⟩, ⟨9, .other⟩])⟩,
    ⟨.prepare .startTransaction, .ok ()⟩, ⟨.execute .startTransaction [], .ok none⟩,
    ⟨.prepare .insertTrackEventId, .ok ()⟩,
    ⟨.execute .insertTrackEventId [.uint 7], .error "Duplicate entry '7' for key 'id'"⟩,
    ⟨.prepare .rollback, .ok ()⟩, ⟨.execute .rollback [], .ok none⟩,
    ⟨pageQuery 5 7, some (.chatEvents [⟨4, .other⟩])⟩,
    ⟨pageQuery 5 4, some (.chatEvents [])⟩]

theorem answers_shortWalk : ∀ exchange ∈ shortWalk, shortLog.Answers exchange := by
  simp only [shortWalk, List.forall_mem_cons, ChatLog.Answers, pageQuery]
  refine ⟨⟨_, rfl, ?_⟩, trivial, trivial, trivial, trivial, trivial, trivial, ⟨_, rfl, ?_⟩,
    ⟨_, rfl, ?_⟩, by simp⟩
  · exact ⟨shortLog.events.take 2, List.take_prefix 2 _, by decide, by simp [shortLog], .swap _ _ _⟩
  · exact ⟨[⟨4, .other⟩], by simp [ChatLog.below, shortLog], by simp, by simp, .refl _⟩
  · exact ⟨[], by simp [ChatLog.below, shortLog], by simp, by simp [ChatLog.below, shortLog],
      .refl _⟩

theorem rounds_shortWalk : ∃ pages after, Rounds 5 0 {} pages shortWalk after ∧
    pages.flatten.Perm shortLog.events := by
  have hrun : (Worker.gatherChatEventLog 5 (shortLog.events.length + 1 + 0)).Runs {} shortWalk
      (.returned () {}) := by
    unfold shortWalk
    change Interaction.Runs _ _ _
    repeat apply Interaction.Runs.ask
    exact .done _
  obtain ⟨pages, after, -, hrounds, hpages⟩ := rounds_of_runs_gatherChatEventLog shortLog 5 0 {}
    shortWalk (.returned () {}) hrun answers_shortWalk (by decide)
  exact ⟨pages, after, hrounds, hpages⟩

end Tgvisd.HistoryScraper
