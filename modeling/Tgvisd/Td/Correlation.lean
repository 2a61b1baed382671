import Tgvisd.Td.Concurrent

/-!
# Answers reach the handlers of their queries

The ids that were drawn are the numbers of the draws, so that until the counter wraps an id tells
its query. The invariant follows every query from its draw to its answer: a thread in flight has
a number that no other query has, a registered handler is stored under its query's id and stays
there, and what was handed over is outstanding, in the inbox or received.
-/

namespace Tgvisd

open TdApi

namespace Core

def draw (core : Core) : Core :=
  { core with currentQueryId := core.currentQueryId + 1, drawn := core.drawn + 1 }

/-- The second step of a call: the handler goes into `handlers_`. -/
def file (core : Core) (sent : Sent) : Core :=
  match sent.query.handler with
  | none => core
  | some handler =>
    { core with
      handlers := core.handlers.emplace sent.queryId ⟨handler, sent.serial, core.epoch⟩
      log := .emplaced sent.queryId sent.query.function ⟨handler, sent.serial, core.epoch⟩
        (sent.queryId ∉ core.handlers) :: core.log }

/-- No stored handler belongs to the query of this number. -/
def Unowned (core : Core) (serial : Nat) : Prop :=
  ∀ queryId entry, core.handlers.lookup queryId = some entry → entry.owner ≠ serial

/-- The query's handler, if it has one, is stored under its id; if it has none, no handler is
stored for it. -/
def Filed (core : Core) (sent : Sent) : Prop :=
  match sent.query.handler with
  | some handler => ∃ entry, core.handlers.lookup sent.queryId = some entry ∧
      entry.handler = handler ∧ entry.owner = sent.serial
  | none => core.Unowned sent.serial

/-- The counter is the number of draws, and every key was drawn by the entry's own query. -/
structure Keyed (core : Core) : Prop where
  counter : core.currentQueryId = UInt64.ofNat core.drawn
  started : 0 < core.drawn
  keys : ∀ queryId entry, core.handlers.lookup queryId = some entry →
    queryId = UInt64.ofNat entry.owner ∧ entry.owner < core.drawn

theorem Keyed.congr {core next : Core} (h : core.Keyed) (hhandlers : next.handlers = core.handlers)
    (hdrawn : next.drawn = core.drawn) (hcounter : next.currentQueryId = core.currentQueryId) :
    next.Keyed := by
  refine ⟨?_, ?_, ?_⟩
  · rw [hcounter, hdrawn]
    exact h.counter
  · rw [hdrawn]
    exact h.started
  · rw [hhandlers, hdrawn]
    exact h.keys

theorem Keyed.draw {core : Core} (h : core.Keyed) : core.draw.Keyed := by
  refine ⟨?_, Nat.succ_pos _, ?_⟩
  · calc core.currentQueryId + 1 = UInt64.ofNat core.drawn + 1 := by rw [h.counter]
      _ = UInt64.ofNat (core.drawn + 1) := WrappingCounter.ofNat_succ core.drawn
  · intro queryId entry hlookup
    obtain ⟨hkey, howner⟩ := h.keys queryId entry hlookup
    exact ⟨hkey, Nat.lt_succ_of_lt howner⟩

theorem Keyed.file {core : Core} {sent : Sent} (h : core.Keyed)
    (hid : sent.queryId = UInt64.ofNat sent.serial) (hserial : sent.serial < core.drawn) :
    (core.file sent).Keyed := by
  unfold Core.file
  split
  · exact h
  · refine ⟨h.counter, h.started, ?_⟩
    intro queryId entry hlookup
    rcases UnorderedMap.lookup_emplace_eq_some hlookup with hold | ⟨-, rfl, rfl⟩
    · exact h.keys queryId entry hold
    · exact ⟨hid, hserial⟩

/-- While the counter has not wrapped, a key belongs to the query that drew it. -/
theorem Keyed.owner_eq {core : Core} {queryId : UInt64} {entry : Entry} {serial : Nat}
    (h : core.Keyed) (hbound : core.drawn ≤ 2 ^ 64)
    (hlookup : core.handlers.lookup queryId = some entry)
    (hid : queryId = UInt64.ofNat serial) (hserial : serial < core.drawn) :
    entry.owner = serial := by
  obtain ⟨hkey, howner⟩ := h.keys queryId entry hlookup
  exact WrappingCounter.ofNat_inj_of_lt (Nat.lt_of_lt_of_le howner hbound)
    (Nat.lt_of_lt_of_le hserial hbound) (hkey.symm.trans hid)

/-- A handler that is registered under a new id is stored. -/
theorem Keyed.filed {core : Core} {sent : Sent} (h : core.Keyed) (hbound : core.drawn ≤ 2 ^ 64)
    (hid : sent.queryId = UInt64.ofNat sent.serial) (hserial : sent.serial < core.drawn)
    (hunowned : core.Unowned sent.serial) : (core.file sent).Filed sent := by
  unfold Core.file Core.Filed
  cases hhandler : sent.query.handler with
  | none => exact hunowned
  | some handler =>
    have hfresh : sent.queryId ∉ core.handlers := by
      intro hmem
      obtain ⟨entry, hentry⟩ := Option.isSome_iff_exists.mp (AList.lookup_isSome.mpr hmem)
      exact hunowned _ entry hentry (h.owner_eq hbound hentry hid hserial)
    exact ⟨_, UnorderedMap.lookup_emplace_of_notMem hfresh, rfl, rfl⟩

theorem Unowned.file {core : Core} {sent : Sent} {serial : Nat} (h : core.Unowned serial)
    (hne : sent.serial ≠ serial) : (core.file sent).Unowned serial := by
  unfold Core.file
  split
  · exact h
  · intro queryId entry hlookup
    rcases UnorderedMap.lookup_emplace_eq_some hlookup with hold | ⟨-, -, rfl⟩
    · exact h queryId entry hold
    · exact hne

/-- Another query's registration does not touch a filed one. -/
theorem Filed.file {core : Core} {sent other : Sent} (h : core.Filed other)
    (hne : sent.serial ≠ other.serial) : (core.file sent).Filed other := by
  cases hhandler : other.query.handler with
  | none =>
    have hunowned : core.Unowned other.serial := by simpa [Core.Filed, hhandler] using h
    simpa [Core.Filed, hhandler] using hunowned.file hne
  | some handler =>
    simp only [Core.Filed, hhandler] at h ⊢
    obtain ⟨entry, hlookup, hentry, howner⟩ := h
    refine ⟨entry, ?_, hentry, howner⟩
    unfold Core.file
    split
    · exact hlookup
    · exact UnorderedMap.lookup_emplace_of_eq_some hlookup

/-- The handlers that the answers' dispatches ran. -/
def invocations (core : Core) : List (Nat × Handler × Object) :=
  core.log.filterMap Action.invocation

theorem file_invocations (core : Core) (sent : Sent) :
    (core.file sent).invocations = core.invocations := by
  unfold Core.file
  split <;> rfl

end Core

/-! ## The dispatch of one event -/

/-- An answer runs the handler that is stored for its query, and nothing where there is none. -/
theorem Dispatches.invocations_answer {core next : Core} {sent : Sent} {object : Object}
    {query : Option Query} (h : core.Keyed) (hbound : core.drawn ≤ 2 ^ 64)
    (hid : sent.queryId = UInt64.ofNat sent.serial) (hserial : sent.serial < core.drawn)
    (hnonzero : sent.queryId ≠ 0) (hfiled : core.Filed sent)
    (hdispatch : Dispatches core ⟨sent.queryId, some object⟩ next query) :
    next.invocations = (dueInvocation (sent, object)).toList ++ core.invocations := by
  have hfound {entry : Entry} (hlookup : core.handlers.lookup sent.queryId = some entry) :
      dueInvocation (sent, object) = some (entry.owner, entry.handler, object) := by
    have howner := h.owner_eq hbound hlookup hid hserial
    cases hhandler : sent.query.handler with
    | none =>
      simp only [Core.Filed, hhandler] at hfiled
      exact absurd howner (hfiled _ entry hlookup)
    | some handler =>
      simp only [Core.Filed, hhandler] at hfiled
      obtain ⟨stored, hstored, hself, -⟩ := hfiled
      obtain rfl := Option.some.inj (hlookup.symm.trans hstored)
      simp [dueInvocation, hhandler, hself, howner]
  cases hdispatch with
  | quiet hquiet =>
    rcases hquiet object rfl with ⟨hzero, -⟩ | ⟨-, hnone⟩
    · exact absurd hzero hnonzero
    · have hhandler : sent.query.handler = none := by
        by_contra hsome
        obtain ⟨handler, hhandler⟩ := Option.ne_none_iff_exists'.mp hsome
        simp only [Core.Filed, hhandler] at hfiled
        obtain ⟨entry, hlookup, -⟩ := hfiled
        exact absurd (hlookup.symm.trans hnone) (Option.some_ne_none entry)
      simp [dueInvocation, hhandler]
  | authorized _ hzero => exact absurd hzero hnonzero
  | invoked hobject _ hentry =>
    obtain rfl := Option.some.inj hobject
    rw [hfound hentry]
    rfl
  | retried hobject _ hentry =>
    obtain rfl := Option.some.inj hobject
    rw [hfound hentry]
    rfl

theorem Dispatches.invocations_update {core next : Core} {object : Object} {query : Option Query}
    (hdispatch : Dispatches core ⟨0, some object⟩ next query) :
    next.invocations = core.invocations := by
  cases hdispatch with
  | quiet => rfl
  | authorized => rfl
  | invoked _ hnonzero => exact absurd rfl hnonzero
  | retried _ hnonzero => exact absurd rfl hnonzero

/-- A dispatch leaves the counter and the stored handlers alone. -/
theorem Dispatches.handlers_eq {core next : Core} {response : Response} {query : Option Query}
    (hdispatch : Dispatches core response next query) :
    next.handlers = core.handlers ∧ next.drawn = core.drawn ∧
      next.currentQueryId = core.currentQueryId := by
  cases hdispatch <;> exact ⟨rfl, rfl, rfl⟩

/-! ## Queries in flight -/

/-- The query that a thread is sending, once it has drawn its id. -/
def Stage.sent : Stage → Option Sent
  | .idle | .calling _ => none
  | .drawn sent | .registered sent => some sent

def Stage.query : Stage → Option Query
  | .idle => none
  | .calling query => some query
  | .drawn sent | .registered sent => some sent.query

section

variable {core next : Core} {sent : Sent}

theorem Core.Unowned.congr {serial : Nat} (h : core.Unowned serial)
    (hhandlers : next.handlers = core.handlers) : next.Unowned serial := by
  unfold Core.Unowned
  rw [hhandlers]
  exact h

theorem Core.Filed.congr (h : core.Filed sent) (hhandlers : next.handlers = core.handlers) :
    next.Filed sent := by
  unfold Core.Filed Core.Unowned at h ⊢
  rw [hhandlers]
  exact h

end

/-- Each thread in flight has a number of its own, which no query has that was handed over. -/
structure Flights (stage : Nat → Stage) (core : Core) (handedOver : List Sent) : Prop where
  own : ∀ thread sent, (stage thread).sent = some sent →
    sent.queryId = UInt64.ofNat sent.serial ∧ sent.serial < core.drawn ∧
      ∀ other ∈ handedOver, other.serial ≠ sent.serial
  apart : ∀ first second sent other, (stage first).sent = some sent →
    (stage second).sent = some other → sent.serial = other.serial → first = second
  drawn : ∀ thread sent, stage thread = .drawn sent → core.Unowned sent.serial
  registered : ∀ thread sent, stage thread = .registered sent → core.Filed sent

/-- What was handed over is filed, and its numbers are distinct. -/
structure Handed (core : Core) (handedOver : List Sent) : Prop where
  own : ∀ sent ∈ handedOver, sent.queryId = UInt64.ofNat sent.serial ∧ sent.serial < core.drawn
  filed : ∀ sent ∈ handedOver, core.Filed sent
  distinct : (handedOver.map Sent.serial).Nodup

namespace Flights

variable {stage : Nat → Stage} {core : Core} {handedOver : List Sent}

/-- Nothing changes for the threads in flight when another one is about to draw, or is done. -/
theorem land (h : Flights stage core handedOver) (thread : Nat) {landed : Stage}
    (hlanded : landed.sent = none) :
    Flights (Function.update stage thread landed) core handedOver := by
  have hold {other : Nat} {sent : Sent}
      (hother : (Function.update stage thread landed other).sent = some sent) :
      Function.update stage thread landed other = stage other := by
    by_cases hsame : other = thread
    · subst hsame
      simp [hlanded] at hother
    · exact Function.update_of_ne hsame _ _
  refine ⟨?_, ?_, ?_, ?_⟩
  · intro other sent hother
    rw [hold hother] at hother
    exact h.own other sent hother
  · intro first second sent other hfirst hsecond hserial
    rw [hold hfirst] at hfirst
    rw [hold hsecond] at hsecond
    exact h.apart first second sent other hfirst hsecond hserial
  · intro other sent hother
    rw [hold (by rw [hother]; rfl)] at hother
    exact h.drawn other sent hother
  · intro other sent hother
    rw [hold (by rw [hother]; rfl)] at hother
    exact h.registered other sent hother

theorem congr (h : Flights stage core handedOver) {next : Core}
    (hhandlers : next.handlers = core.handlers) (hdrawn : next.drawn = core.drawn) :
    Flights stage next handedOver := by
  refine ⟨?_, h.apart, ?_, ?_⟩
  · rw [hdrawn]
    exact h.own
  · intro thread sent hstage
    exact (h.drawn thread sent hstage).congr hhandlers
  · intro thread sent hstage
    exact (h.registered thread sent hstage).congr hhandlers

/-- A thread draws a number that no query had before. -/
theorem draw (h : Flights stage core handedOver) (hkeyed : core.Keyed)
    (hhanded : Handed core handedOver) (thread : Nat) (query : Query) :
    Flights (Function.update stage thread (.drawn ⟨core.drawn, core.currentQueryId, query⟩))
      core.draw handedOver := by
  have hcases {other : Nat} {sent : Sent}
      (hother : (Function.update stage thread (.drawn ⟨core.drawn, core.currentQueryId, query⟩)
        other).sent = some sent) :
      (other = thread ∧ sent = ⟨core.drawn, core.currentQueryId, query⟩) ∨
        (other ≠ thread ∧ (stage other).sent = some sent) := by
    by_cases hsame : other = thread
    · subst hsame
      rw [Function.update_self] at hother
      exact Or.inl ⟨rfl, (Option.some.inj hother).symm⟩
    · rw [Function.update_of_ne hsame] at hother
      exact Or.inr ⟨hsame, hother⟩
  refine ⟨?_, ?_, ?_, ?_⟩
  · intro other sent hother
    rcases hcases hother with ⟨rfl, rfl⟩ | ⟨-, hold⟩
    · refine ⟨hkeyed.counter, Nat.lt_succ_self _, ?_⟩
      intro earlier hmem
      exact Nat.ne_of_lt (hhanded.own earlier hmem).2
    · obtain ⟨hid, hserial, hother⟩ := h.own other sent hold
      exact ⟨hid, Nat.lt_succ_of_lt hserial, hother⟩
  · intro first second sent other hfirst hsecond hserial
    rcases hcases hfirst with ⟨hfirstThread, rfl⟩ | ⟨-, hfirstOld⟩ <;>
      rcases hcases hsecond with ⟨hsecondThread, rfl⟩ | ⟨-, hsecondOld⟩
    · exact hfirstThread.trans hsecondThread.symm
    · have hlt := (h.own second other hsecondOld).2.1
      exact absurd hserial.symm (Nat.ne_of_lt hlt)
    · have hlt := (h.own first sent hfirstOld).2.1
      exact absurd hserial (Nat.ne_of_lt hlt)
    · exact h.apart first second sent other hfirstOld hsecondOld hserial
  · intro other sent hother
    rcases hcases (by rw [hother]; rfl) with ⟨rfl, rfl⟩ | ⟨hne, -⟩
    · intro queryId entry hlookup
      exact Nat.ne_of_lt (hkeyed.keys queryId entry hlookup).2
    · rw [Function.update_of_ne hne] at hother
      exact (h.drawn other sent hother).congr rfl
  · intro other sent hother
    have hne : other ≠ thread := by
      rintro rfl
      simp at hother
    rw [Function.update_of_ne hne] at hother
    exact (h.registered other sent hother).congr rfl

/-- A thread registers its handler; the numbers of the others are different ones. -/
theorem file (h : Flights stage core handedOver) (hkeyed : core.Keyed)
    (hbound : core.drawn ≤ 2 ^ 64) {thread : Nat} {sent : Sent}
    (hstage : stage thread = .drawn sent) :
    Flights (Function.update stage thread (.registered sent)) (core.file sent) handedOver := by
  obtain ⟨hid, hserial, hhanded⟩ := h.own thread sent (by rw [hstage]; rfl)
  have hdrawn : (core.file sent).drawn = core.drawn := by
    unfold Core.file
    split <;> rfl
  have hsents (other : Nat) : (Function.update stage thread (.registered sent) other).sent =
      (stage other).sent := by
    by_cases hsame : other = thread
    · subst hsame
      rw [Function.update_self, hstage]
      rfl
    · rw [Function.update_of_ne hsame]
  have hserials {other : Nat} {flying : Sent} (hne : other ≠ thread)
      (hother : (stage other).sent = some flying) : sent.serial ≠ flying.serial := by
    intro hsame
    exact hne (h.apart other thread flying sent hother (by rw [hstage]; rfl) hsame.symm)
  refine ⟨?_, ?_, ?_, ?_⟩
  · intro other flying hother
    rw [hsents] at hother
    rw [hdrawn]
    exact h.own other flying hother
  · intro first second one other hfirst hsecond
    rw [hsents] at hfirst hsecond
    exact h.apart first second one other hfirst hsecond
  · intro other flying hother
    have hne : other ≠ thread := by
      rintro rfl
      simp at hother
    rw [Function.update_of_ne hne] at hother
    exact (h.drawn other flying hother).file (hserials hne (by rw [hother]; rfl))
  · intro other flying hother
    by_cases hsame : other = thread
    · subst hsame
      rw [Function.update_self, Stage.registered.injEq] at hother
      subst hother
      exact hkeyed.filed hbound hid hserial (h.drawn other sent hstage)
    · rw [Function.update_of_ne hsame] at hother
      exact (h.registered other flying hother).file (hserials hsame (by rw [hother]; rfl))

/-- A thread hands its query over; the others in flight have different numbers. -/
theorem handOver (h : Flights stage core handedOver) {thread : Nat} {sent : Sent}
    (hstage : stage thread = .registered sent) :
    Flights (Function.update stage thread .idle) core (sent :: handedOver) := by
  have hlanded := h.land thread (show Stage.idle.sent = none from rfl)
  refine ⟨?_, hlanded.apart, hlanded.drawn, hlanded.registered⟩
  intro other flying hother
  obtain ⟨hid, hserial, hhanded⟩ := hlanded.own other flying hother
  refine ⟨hid, hserial, ?_⟩
  intro handed hmem
  rcases List.mem_cons.mp hmem with rfl | hmem
  · intro hsame
    have hne : other ≠ thread := by
      rintro rfl
      simp [Stage.sent] at hother
    rw [Function.update_of_ne hne] at hother
    exact hne (h.apart other thread flying handed hother (by rw [hstage]; rfl) hsame.symm)
  · exact hhanded handed hmem

end Flights

namespace Handed

variable {core : Core} {handedOver : List Sent}

theorem congr (h : Handed core handedOver) {next : Core}
    (hhandlers : next.handlers = core.handlers) (hdrawn : core.drawn ≤ next.drawn) :
    Handed next handedOver := by
  refine ⟨?_, ?_, h.distinct⟩
  · intro sent hmem
    obtain ⟨hid, hserial⟩ := h.own sent hmem
    exact ⟨hid, Nat.lt_of_lt_of_le hserial hdrawn⟩
  · intro sent hmem
    exact (h.filed sent hmem).congr hhandlers

theorem file (h : Handed core handedOver) {sent : Sent}
    (hother : ∀ other ∈ handedOver, other.serial ≠ sent.serial) :
    Handed (core.file sent) handedOver := by
  have hdrawn : (core.file sent).drawn = core.drawn := by
    unfold Core.file
    split <;> rfl
  refine ⟨?_, ?_, h.distinct⟩
  · rw [hdrawn]
    exact h.own
  · intro other hmem
    exact (h.filed other hmem).file (hother other hmem).symm

theorem handOver (h : Handed core handedOver) {sent : Sent}
    (hid : sent.queryId = UInt64.ofNat sent.serial) (hserial : sent.serial < core.drawn)
    (hother : ∀ other ∈ handedOver, other.serial ≠ sent.serial) (hfiled : core.Filed sent) :
    Handed core (sent :: handedOver) := by
  refine ⟨?_, ?_, ?_⟩
  · intro other hmem
    rcases List.mem_cons.mp hmem with rfl | hmem
    · exact ⟨hid, hserial⟩
    · exact h.own other hmem
  · intro other hmem
    rcases List.mem_cons.mp hmem with rfl | hmem
    · exact hfiled
    · exact h.filed other hmem
  · rw [List.map_cons, List.nodup_cons]
    refine ⟨?_, h.distinct⟩
    intro hmem
    obtain ⟨other, hother', hserial'⟩ := List.mem_map.mp hmem
    exact hother other hother' hserial'

end Handed

/-! ## The invariant of the system -/

/-- A thread that is about to store an authentication handler knows of an authorization state. -/
def StagesKnown (stage : Nat → Stage) (core : Core) : Prop :=
  ∀ thread query id, (stage thread).query = some query →
    query.handler = some (.authentication id) → core.authorizationState ≠ none

theorem StagesKnown.update {stage : Nat → Stage} {core : Core} (h : StagesKnown stage core)
    {thread : Nat} {reached : Stage}
    (hreached : ∀ query id, reached.query = some query →
      query.handler = some (.authentication id) → core.authorizationState ≠ none) :
    StagesKnown (Function.update stage thread reached) core := by
  intro other query id hquery hhandler
  by_cases hsame : other = thread
  · subst hsame
    rw [Function.update_self] at hquery
    exact hreached query id hquery hhandler
  · rw [Function.update_of_ne hsame] at hquery
    exact h other query id hquery hhandler

theorem Core.StateKnown.file {core : Core} {sent : Sent} (h : core.StateKnown)
    (hsent : ∀ id, sent.query.handler = some (.authentication id) →
      core.authorizationState ≠ none) : (core.file sent).StateKnown := by
  cases hhandler : sent.query.handler with
  | none => simpa [Core.file, hhandler] using h
  | some handler =>
    intro queryId entry id hlookup hentry
    simp only [Core.file, hhandler] at hlookup ⊢
    rcases UnorderedMap.lookup_emplace_eq_some hlookup with hold | ⟨-, -, rfl⟩
    · exact h queryId entry id hold hentry
    · exact hsent id (hhandler.trans (congrArg some hentry))

namespace System

/-- The answers that TDLib has delivered and `loop()` has not received. -/
def answers (system : System) : List (Sent × Object) := system.inbox.filterMap Event.receipt

/-- Where the queries are that were handed over. -/
def tracked (system : System) : List Sent :=
  system.outstanding ++ (system.answers ++ system.received).map Prod.fst

structure Sound (system : System) : Prop where
  fault : system.fault = none
  client : system.td.clientManager.isSome = true
  known : system.td.core.StateKnown
  stages : StagesKnown system.stage system.td.core
  keyed : system.td.core.Keyed
  flights : Flights system.stage system.td.core system.handedOver
  handed : Handed system.td.core system.handedOver
  tracked : system.handedOver.Perm system.tracked
  nonzero : ∀ receipt ∈ system.answers, receipt.1.queryId ≠ 0
  exact : system.td.core.invocations = system.received.filterMap dueInvocation

variable {system next : System}

theorem sound_start (config : Config) : (start config).Sound := by
  have hcore : (start config).td.core =
      { currentQueryId := 1, authenticationQueryId := 0, authorizationState := none
        handlers := ∅, drawn := 1, epoch := 0, log := [] } := by
    simp only [start, Session.start_eq]
    rfl
  have hempty (queryId : UInt64) (entry : Entry) :
      (start config).td.core.handlers.lookup queryId ≠ some entry := by
    simp [hcore]
  have hidle (thread : Nat) : (start config).stage thread = .idle := rfl
  exact {
    fault := rfl
    client := (Session.live_start config).client
    known := (Session.live_start config).known
    stages := by
      intro thread query id hquery
      simp [hidle, Stage.query] at hquery
    keyed := by
      rw [hcore]
      exact ⟨rfl, Nat.one_pos, fun queryId entry hlookup ↦ by simp at hlookup⟩
    flights := by
      refine ⟨?_, ?_, ?_, ?_⟩
      · intro thread sent hsent
        simp [hidle, Stage.sent] at hsent
      · intro first second sent other hfirst
        simp [hidle, Stage.sent] at hfirst
      · intro thread sent hstage
        simp [hidle] at hstage
      · intro thread sent hstage
        simp [hidle] at hstage
    handed := by
      refine ⟨?_, ?_, List.nodup_singleton _⟩
      · rw [hcore]
        intro sent hmem
        obtain rfl := List.mem_singleton.mp hmem
        exact ⟨rfl, Nat.one_pos⟩
      · intro sent hmem
        obtain rfl := List.mem_singleton.mp hmem
        intro queryId entry hlookup
        exact absurd hlookup (hempty queryId entry)
    tracked := by simp [start, tracked, answers]
    nonzero := by simp [start, answers]
    exact := by
      rw [hcore]
      rfl }

theorem Sound.call {thread : Nat} {query : Query} (h : system.Sound)
    (hstep : system.call thread query = some next) : next.Sound := by
  unfold System.call at hstep
  split at hstep
  · rename_i henabled
    rw [Option.some.injEq] at hstep
    subst hstep
    refine ⟨h.fault, h.client, h.known, h.stages.update ?_, h.keyed, h.flights.land thread rfl,
      h.handed, h.tracked, h.nonzero, h.exact⟩
    intro called id hquery hhandler
    obtain rfl := Option.some.inj hquery
    simp [Query.isCallers, hhandler] at henabled
  · simp at hstep

theorem Sound.draw {thread : Nat} (h : system.Sound)
    (hstep : system.draw thread = some next) : next.Sound := by
  unfold System.draw at hstep
  split at hstep
  · rename_i query hstage
    simp only [Option.some.injEq] at hstep
    subst hstep
    refine ⟨h.fault, h.client, h.known, ?_, h.keyed.draw, ?_, ?_, h.tracked, h.nonzero, h.exact⟩
    · apply StagesKnown.update h.stages
      intro drawn id hquery hhandler
      obtain rfl := Option.some.inj hquery
      exact h.stages thread query id (by rw [hstage]; rfl) hhandler
    · exact h.flights.draw h.keyed h.handed thread query
    · exact h.handed.congr rfl (Nat.le_succ _)
  · simp at hstep

theorem register_td_core (td : Td) (sent : Sent) :
    (td.register sent.queryId sent.serial sent.query).core = td.core.file sent := by
  obtain ⟨serial, queryId, function, handler⟩ := sent
  cases handler <;> rfl

theorem Sound.register {thread : Nat} (h : system.Sound)
    (hbound : system.td.ghost.drawn ≤ 2 ^ 64)
    (hstep : system.register thread = some next) : next.Sound := by
  unfold System.register at hstep
  split at hstep
  · rename_i sent hstage
    simp only [Option.some.injEq] at hstep
    subst hstep
    obtain ⟨hid, hserial, hother⟩ := h.flights.own thread sent (by rw [hstage]; rfl)
    have hauthorized (id : UInt64) (hhandler : sent.query.handler = some (.authentication id)) :
        system.td.core.authorizationState ≠ none :=
      h.stages thread sent.query id (by rw [hstage]; rfl) hhandler
    have hstate : (system.td.core.file sent).authorizationState =
        system.td.core.authorizationState := by
      unfold Core.file
      split <;> rfl
    have hstages : StagesKnown system.stage (system.td.core.file sent) := by
      intro other query id
      rw [hstate]
      exact h.stages other query id
    have hcore := register_td_core system.td sent
    refine ⟨h.fault, ?_, ?_, ?_, ?_, ?_, ?_, h.tracked, h.nonzero, ?_⟩
    · exact (congrArg Option.isSome (Td.register_clientManager _ _ _ _)).trans h.client
    · exact hcore ▸ h.known.file hauthorized
    · refine hcore ▸ hstages.update ?_
      intro query id hquery hhandler
      obtain rfl := Option.some.inj hquery
      rw [hstate]
      exact hauthorized id hhandler
    · exact hcore ▸ h.keyed.file hid hserial
    · exact hcore ▸ h.flights.file h.keyed hbound hstage
    · exact hcore ▸ h.handed.file hother
    · exact hcore ▸ (Core.file_invocations _ sent).trans h.exact
  · simp at hstep

theorem Sound.handOver {thread : Nat} (h : system.Sound)
    (hstep : system.handOver thread = some next) : next.Sound := by
  unfold System.handOver at hstep
  split at hstep
  · rename_i sent hstage
    obtain ⟨manager, hmanager⟩ := Option.isSome_iff_exists.mp h.client
    rw [Td.handOver_of_live sent.queryId sent.query.function hmanager] at hstep
    simp only [Option.some.injEq] at hstep
    subst hstep
    obtain ⟨hid, hserial, hother⟩ := h.flights.own thread sent (by rw [hstage]; rfl)
    have hfiled := h.flights.registered thread sent hstage
    generalize hsent : ({ system.td with clientManager := _ } : Td) = sentTd
    have hcore : sentTd.core = system.td.core := by rw [← hsent]; rfl
    have hclient : sentTd.clientManager.isSome = true := by rw [← hsent]; rfl
    refine ⟨h.fault, ?_, ?_, ?_, ?_, ?_, ?_, ?_, h.nonzero, ?_⟩ <;>
      simp only [Td.executeOption_core, Td.executeOption_clientManager, hcore]
    · exact hclient
    · exact h.known
    · refine h.stages.update ?_
      intro query id hquery
      simp [Stage.query] at hquery
    · exact h.keyed
    · exact h.flights.handOver hstage
    · exact h.handed.handOver hid hserial hother hfiled
    · exact h.tracked.cons sent
    · exact h.exact
  · simp at hstep

theorem Sound.answer {serial : Nat} {object : Object} (h : system.Sound)
    (hstep : system.answer serial object = some next) : next.Sound := by
  unfold System.answer at hstep
  split at hstep
  · rename_i sent hfind
    simp only [Option.some.injEq] at hstep
    subst hstep
    have hmem : sent ∈ system.outstanding := List.mem_of_find?_eq_some hfind
    have hnonzero : sent.queryId ≠ 0 := by
      have hfound := List.find?_some hfind
      simp only [decide_eq_true_eq] at hfound
      exact hfound.2
    refine ⟨h.fault, h.client, h.known, h.stages, h.keyed, h.flights, h.handed, ?_, ?_, h.exact⟩
    · have htaken : (system.outstanding ++ (system.answers ++ system.received).map Prod.fst).Perm
          (sent :: (system.outstanding.erase sent ++
            (system.answers.map Prod.fst ++ system.received.map Prod.fst))) := by
        rw [List.map_append]
        exact (List.perm_cons_erase hmem).append_right _
      have hqueued : System.tracked { system with
          outstanding := system.outstanding.erase sent
          inbox := system.inbox ++ [.answer sent object] } =
          (system.outstanding.erase sent ++ system.answers.map Prod.fst) ++
            sent :: system.received.map Prod.fst := by
        simp [System.tracked, System.answers, Event.receipt]
      apply (h.tracked.trans htaken).trans
      rw [hqueued, ← List.append_assoc]
      exact List.perm_middle.symm
    · intro receipt hreceipt
      simp only [answers, List.filterMap_append, List.mem_append] at hreceipt
      rcases hreceipt with hold | hnew
      · exact h.nonzero receipt hold
      · simp only [List.filterMap_cons, Event.receipt, List.filterMap_nil,
          List.mem_singleton] at hnew
        rw [hnew]
        exact hnonzero
  · simp at hstep

theorem Sound.update {object : Object} (h : system.Sound) :
    Sound { system with inbox := system.inbox ++ [.update object] } := by
  have hanswers : answers { system with inbox := system.inbox ++ [.update object] } =
      system.answers := by
    simp [answers, Event.receipt]
  refine ⟨h.fault, h.client, h.known, h.stages, h.keyed, h.flights, h.handed, ?_, ?_, h.exact⟩
  · unfold System.tracked
    rw [hanswers]
    exact h.tracked
  · rw [hanswers]
    exact h.nonzero

/-- What one receipt does: the event is dispatched, and the dispatch does not crash. -/
theorem Sound.receive_cases (h : system.Sound) (hstep : system.receive = some next) :
    ∃ event inbox reaction, system.inbox = event :: inbox ∧
      reaction.td.clientManager = system.td.clientManager ∧
      Dispatches system.td.core event.response reaction.td.core reaction.query ∧
      next = react { system with
        inbox := inbox
        received := event.receipt.toList ++ system.received } reaction := by
  unfold System.receive at hstep
  split at hstep
  · cases hinbox : system.inbox with
    | nil => simp [hinbox] at hstep
    | cons event inbox =>
      obtain ⟨reaction, hprocess, hmanager, hdispatch⟩ :=
        Td.processResponse_dispatches event.response h.known
      simp only [hinbox, hprocess, Option.some.injEq] at hstep
      exact ⟨event, inbox, reaction, rfl, hmanager, hdispatch, hstep.symm⟩
  · simp at hstep

/-- The end of a dispatch touches the core no more; the loop thread goes on with the query. -/
theorem react_spec (system : System) (reaction : Reaction) :
    (system.react reaction).td.core = reaction.td.core ∧
      (system.react reaction).td.clientManager = reaction.td.clientManager ∧
      ((system.react reaction).stage = system.stage ∧ reaction.query = none ∨
        ∃ query, reaction.query = some query ∧
          (system.react reaction).stage = Function.update system.stage 0 (.calling query)) := by
  unfold react
  cases hquery : reaction.query with
  | none => simp
  | some query => simp [setStage]

theorem react_frame (system : System) (reaction : Reaction) :
    (system.react reaction).fault = system.fault ∧
      (system.react reaction).handedOver = system.handedOver ∧
      (system.react reaction).outstanding = system.outstanding ∧
      (system.react reaction).inbox = system.inbox ∧
      (system.react reaction).received = system.received := by
  unfold react
  cases reaction.query <;> exact ⟨rfl, rfl, rfl, rfl, rfl⟩

end System

/-- An authorization state is never forgotten, and a dispatch that sends an authentication query
knows one. -/
theorem Dispatches.state_known {core next : Core} {response : Response} {query : Option Query}
    (h : Dispatches core response next query) :
    (core.authorizationState ≠ none → next.authorizationState ≠ none) ∧
      ∀ called id, query = some called → called.handler = some (.authentication id) →
        next.authorizationState ≠ none := by
  cases h with
  | quiet => exact ⟨id, by simp⟩
  | invoked => exact ⟨id, by simp⟩
  | authorized => exact ⟨fun _ ↦ Option.some_ne_none _, fun _ _ _ _ ↦ Option.some_ne_none _⟩
  | @retried object entry state query hobject hid hentry hretry hstate hquery =>
    have hsome : core.authorizationState ≠ none := by simp [hstate]
    exact ⟨fun _ ↦ hsome, fun _ _ _ _ ↦ hsome⟩

theorem Dispatches.stateKnown {core next : Core} {response : Response} {query : Option Query}
    (h : Dispatches core response next query) (hknown : core.StateKnown) : next.StateKnown := by
  intro queryId entry id hlookup hhandler
  rw [h.handlers_eq.1] at hlookup
  exact h.state_known.1 (hknown queryId entry id hlookup hhandler)

namespace System

variable {system next : System}

/-- The invocations and the receipts grow by the same. -/
theorem Sound.exact_dispatch (h : system.Sound) (hbound : system.td.ghost.drawn ≤ 2 ^ 64)
    {event : Event} {inbox : List Event} {core : Core} {query : Option Query}
    (hinbox : system.inbox = event :: inbox)
    (hdispatch : Dispatches system.td.core event.response core query) :
    core.invocations =
      (event.receipt.toList ++ system.received).filterMap dueInvocation := by
  cases event with
  | update object => exact hdispatch.invocations_update.trans h.exact
  | answer sent object =>
    have hanswer : (sent, object) ∈ system.answers := by
      simp [answers, hinbox, Event.receipt]
    have hmem : sent ∈ system.handedOver := by
      apply h.tracked.mem_iff.mpr
      apply List.mem_append_right
      exact List.mem_map.mpr ⟨(sent, object), List.mem_append_left _ hanswer, rfl⟩
    obtain ⟨hid, hserial⟩ := h.handed.own sent hmem
    rw [Dispatches.invocations_answer h.keyed hbound hid hserial
      (h.nonzero (sent, object) hanswer) (h.handed.filed sent hmem) hdispatch, h.exact]
    simp only [Event.receipt, Option.toList_some, List.singleton_append, List.filterMap_cons]
    cases dueInvocation (sent, object) <;> rfl

/-- Receiving an answer moves it from the answers under way to those received. -/
theorem answers_of_inbox {event : Event} {inbox : List Event}
    (hinbox : system.inbox = event :: inbox) :
    system.answers = event.receipt.toList ++ inbox.filterMap Event.receipt := by
  simp only [answers, hinbox, List.filterMap_cons]
  cases event.receipt <;> rfl

theorem tracked_of_inbox {event : Event} {inbox : List Event}
    (hinbox : system.inbox = event :: inbox) :
    system.tracked.Perm (system.outstanding ++ (inbox.filterMap Event.receipt ++
      (event.receipt.toList ++ system.received)).map Prod.fst) := by
  unfold System.tracked
  rw [answers_of_inbox hinbox]
  apply List.Perm.append_left
  apply List.Perm.map
  rw [← List.append_assoc (inbox.filterMap Event.receipt)]
  exact List.perm_append_comm.append_right system.received

theorem Sound.receive (h : system.Sound) (hbound : system.td.ghost.drawn ≤ 2 ^ 64)
    (hstep : system.receive = some next) : next.Sound := by
  obtain ⟨event, inbox, reaction, hinbox, hmanager, hdispatch, rfl⟩ := h.receive_cases hstep
  have hexact := h.exact_dispatch hbound hinbox hdispatch
  obtain ⟨hhandlers, hdrawn, hcounter⟩ := hdispatch.handlers_eq
  generalize hdequeued : ({ system with
    inbox := inbox
    received := event.receipt.toList ++ system.received } : System) = dequeued
  obtain ⟨hcore, hclient, hstage⟩ := react_spec dequeued reaction
  obtain ⟨hfault, hhandedOver, houtstanding, hnextInbox, hreceived⟩ := react_frame dequeued reaction
  subst hdequeued
  have hflights : Flights system.stage reaction.td.core system.handedOver :=
    h.flights.congr hhandlers hdrawn
  have hstages : StagesKnown system.stage reaction.td.core := by
    intro thread query id hquery hhandler
    exact hdispatch.state_known.1 (h.stages thread query id hquery hhandler)
  exact {
    fault := hfault.trans h.fault
    client := by
      rw [hclient, hmanager]
      exact h.client
    known := by
      rw [hcore]
      exact hdispatch.stateKnown h.known
    stages := by
      rw [hcore]
      rcases hstage with ⟨hsame, -⟩ | ⟨query, hquery, hcalling⟩
      · rw [hsame]
        exact hstages
      · rw [hcalling]
        apply hstages.update
        intro called id hcalled hhandler
        obtain rfl := Option.some.inj hcalled
        exact hdispatch.state_known.2 query id hquery hhandler
    keyed := by
      rw [hcore]
      exact h.keyed.congr hhandlers hdrawn hcounter
    flights := by
      rw [hcore, hhandedOver]
      rcases hstage with ⟨hsame, -⟩ | ⟨query, -, hcalling⟩
      · rw [hsame]
        exact hflights
      · rw [hcalling]
        exact hflights.land 0 rfl
    handed := by
      rw [hcore, hhandedOver]
      exact h.handed.congr hhandlers (Nat.le_of_eq hdrawn.symm)
    tracked := by
      unfold System.tracked answers
      rw [hhandedOver, houtstanding, hnextInbox, hreceived]
      exact h.tracked.trans (tracked_of_inbox hinbox)
    nonzero := by
      unfold answers
      rw [hnextInbox]
      intro receipt hmem
      apply h.nonzero receipt
      rw [answers_of_inbox hinbox]
      exact List.mem_append_right _ hmem
    exact := by
      rw [hcore, hreceived]
      exact hexact }

theorem Sound.step {label : Label} (h : system.Sound) (hbound : system.td.ghost.drawn ≤ 2 ^ 64)
    (hstep : machine.step system label = some next) : next.Sound := by
  have hrunning : ¬ system.fault.isSome = true := by simp [h.fault]
  rw [show machine.step system label = _ from if_neg hrunning] at hstep
  cases label with
  | call thread query => exact h.call hstep
  | draw thread => exact h.draw hstep
  | register thread => exact h.register hbound hstep
  | handOver thread => exact h.handOver hstep
  | answer serial object => exact h.answer hstep
  | update object =>
    rw [Option.some.injEq] at hstep
    exact hstep ▸ h.update
  | receive => exact h.receive hbound hstep

/-- The numbers of the due invocations are among those of the receipts, in their order. -/
theorem dueInvocations_sublist (received : List (Sent × Object)) :
    ((received.filterMap dueInvocation).map Prod.fst).Sublist
      ((received.map Prod.fst).map Sent.serial) := by
  induction received with
  | nil => exact List.Sublist.refl _
  | cons receipt received ih =>
    obtain ⟨sent, object⟩ := receipt
    cases hhandler : sent.query.handler with
    | none =>
      rw [List.filterMap_cons_none (by simp [dueInvocation, hhandler])]
      exact ih.cons _
    | some handler =>
      rw [List.filterMap_cons_some (b := (sent.serial, handler, object))
        (by simp [dueInvocation, hhandler])]
      exact ih.cons_cons _

theorem Sound.correlated (h : system.Sound) : system.Correlated := by
  have hexact : system.invocations = system.received.filterMap dueInvocation := h.exact
  have hserials : (system.tracked.map Sent.serial).Nodup :=
    (h.tracked.map Sent.serial).nodup_iff.mp h.handed.distinct
  have hreceived : (system.received.map Prod.fst).Sublist system.tracked := by
    unfold System.tracked
    rw [List.map_append]
    exact (List.sublist_append_right _ _).trans (List.sublist_append_right _ _)
  refine ⟨h.fault, hexact, ?_, ?_⟩
  · rw [hexact]
    apply (dueInvocations_sublist system.received).nodup
    exact (hreceived.map Sent.serial).nodup hserials
  · intro invocation hmem
    rw [hexact] at hmem
    obtain ⟨⟨sent, object⟩, hreceipt, hdue⟩ := List.mem_filterMap.mp hmem
    have htracked : sent ∈ system.tracked :=
      hreceived.subset (List.mem_map.mpr ⟨(sent, object), hreceipt, rfl⟩)
    refine ⟨sent, h.tracked.mem_iff.mpr htracked, ?_⟩
    obtain ⟨handler, -, rfl⟩ := Option.map_eq_some_iff.mp hdue
    rfl

/-- Until the counter wraps, every answer that is received runs its own query's handler with its
own object, in every interleaving of the threads, of TDLib and of `loop()`. -/
theorem correlated_until_wrap (config : Config) (labels : List Label)
    (hbound : machine.Throughout (fun system ↦ system.td.ghost.drawn ≤ 2 ^ 64)
      (start config) labels) :
    machine.Throughout Correlated (start config) labels := by
  have hsound : machine.Throughout Sound (start config) labels :=
    Machine.Throughout.of_guarded (sound_start config)
      (fun _ _ _ h hdrawn hstep ↦ h.step hdrawn hstep) hbound.everyStep_before
  exact hsound.mono fun _ h ↦ h.correlated

/-- Two threads, whose answers arrive in the opposite order. -/
theorem correlated_until_wrap_of_two_threads :
    machine.Throughout Correlated (start {})
      [.call 1 ⟨.getMe, some (.user 0)⟩, .call 2 ⟨.getMe, some (.user 1)⟩, .draw 1, .draw 2,
        .register 2, .register 1, .handOver 1, .handOver 2, .answer 2 (.other 0),
        .answer 1 (.other 1), .receive, .receive] := by
  apply correlated_until_wrap
  exact Machine.throughout_iff_visits.mpr (by decide)

/-! ## After the counter has wrapped -/

/-- One thread's call of `send_query` without any step of another in between. -/
def queryLabels (thread : Nat) (query : Query) : List Label :=
  [.call thread query, .draw thread, .register thread, .handOver thread]

/-- The three steps of an undisturbed call are `sendQuery`. -/
theorem run_queryLabels {thread : Nat} {query : Query} {td : Td}
    (hfault : system.fault = none) (hidle : system.stage thread = .idle) (hthread : thread ≠ 0)
    (hcallers : query.isCallers = true) (hsend : system.td.sendQuery query = .ok td) :
    machine.run system (queryLabels thread query) = some { system with
      td := td
      handedOver := ⟨system.td.ghost.drawn, system.td.currentQueryId, query⟩ :: system.handedOver
      outstanding :=
        ⟨system.td.ghost.drawn, system.td.currentQueryId, query⟩ :: system.outstanding } := by
  have hstage : Function.update system.stage thread .idle = system.stage := by
    rw [← hidle]
    exact Function.update_eq_self thread system.stage
  have hhand : (system.td.nextQueryId.2.register system.td.currentQueryId system.td.ghost.drawn
      query).handOver system.td.currentQueryId query.function = .ok td := hsend
  have hid : system.td.nextQueryId.1 = system.td.currentQueryId := rfl
  simp [queryLabels, machine, step, System.call, System.draw, System.register, System.handOver,
    setStage, hfault, hidle, hthread, hcallers, hhand, hid, hstage, Td.executeOption]

/-- A system between calls: nothing is in flight or in the inbox. -/
structure Resting (system : System) : Prop where
  fault : system.fault = none
  client : system.td.clientManager.isSome = true
  needRestart : system.td.needRestart = false
  stage : ∀ thread, system.stage thread = .idle
  inbox : system.inbox = []
  received : system.received = []

theorem Resting.query (h : system.Resting) (query : Query) (hcallers : query.isCallers = true) :
    ∃ next, machine.run system (queryLabels 1 query) = some next ∧ next.Resting ∧
      next.td.core = system.td.core.send query ∧
      next.outstanding =
        ⟨system.td.ghost.drawn, system.td.currentQueryId, query⟩ :: system.outstanding := by
  obtain ⟨td, hsend, hcore, hclient, hneed⟩ := Td.sendQuery_of_live query h.client
  refine ⟨_, run_queryLabels h.fault (h.stage 1) (by decide) hcallers hsend, ?_, hcore, rfl⟩
  exact ⟨h.fault, hclient, hneed.trans h.needRestart, h.stage, h.inbox, h.received⟩

/-- Queries without a handler only use up ids. -/
theorem Resting.drain (h : system.Resting) (count : Nat) :
    ∃ next, machine.run system
        (List.replicate count (queryLabels 1 ⟨.getMe, none⟩)).flatten = some next ∧
      next.Resting ∧ next.td.core =
        { system.td.core with
          currentQueryId := system.td.currentQueryId + UInt64.ofNat count
          drawn := system.td.ghost.drawn + count } := by
  induction count with
  | zero => exact ⟨system, rfl, h, by simp [Td.core]⟩
  | succ count ih =>
    obtain ⟨middle, hrun, hmiddle, hcore⟩ := ih
    obtain ⟨next, hquery, hnext, hnextCore, -⟩ := hmiddle.query ⟨.getMe, none⟩ rfl
    refine ⟨next, ?_, hnext, ?_⟩
    · rw [List.replicate_succ', List.flatten_concat]
      exact Machine.run_append_eq hrun hquery
    · rw [hnextCore, hcore]
      simp only [Core.send, Core.mk.injEq, and_true, true_and]
      refine ⟨?_, rfl⟩
      rw [UInt64.add_assoc, WrappingCounter.ofNat_succ]

theorem resting_start (config : Config) : (start config).Resting :=
  ⟨rfl, (Session.live_start config).client, rfl, fun _ ↦ rfl, rfl, rfl⟩

/-- A query draws the id of a stored handler: its own handler is not stored, and its answer runs
the other one. -/
theorem Resting.collide {entry : Entry} {tag : Nat} (h : system.Resting) (object : Object)
    (hstored : system.td.handlers.lookup system.td.currentQueryId = some entry)
    (hhandler : entry.handler = .user tag) (hid : system.td.currentQueryId ≠ 0)
    (howner : entry.owner ≠ system.td.ghost.drawn) :
    ∃ next, machine.run system (queryLabels 1 ⟨.getMe, some (.user 1)⟩ ++
        [.answer system.td.ghost.drawn object, .receive]) = some next ∧ ¬ next.Correlated := by
  obtain ⟨asked, hrun, hasked, hcore, houtstanding⟩ := h.query ⟨.getMe, some (.user 1)⟩ rfl
  have hlookup : asked.td.handlers.lookup system.td.currentQueryId = some entry := by
    have hhandlers : asked.td.handlers = _ := congrArg Core.handlers hcore
    rw [hhandlers]
    exact UnorderedMap.lookup_emplace_of_eq_some hstored
  have hprocess : asked.td.processResponse ⟨system.td.currentQueryId, some object⟩ =
      .ok { td := asked.td.record (.invoked system.td.currentQueryId entry object) } := by
    rw [Td.processResponse_of_lookup rfl hid hlookup, hhandler]
    rfl
  have hanswer : machine.step asked (.answer system.td.ghost.drawn object) = some { asked with
      outstanding := system.outstanding
      inbox := [.answer ⟨system.td.ghost.drawn, system.td.currentQueryId,
        ⟨.getMe, some (.user 1)⟩⟩ object] } := by
    simp [machine, step, System.answer, hasked.fault, hasked.inbox, houtstanding, hid]
  have hreceive : machine.run asked [.answer system.td.ghost.drawn object, .receive] =
      some { asked with
        td := asked.td.record (.invoked system.td.currentQueryId entry object)
        outstanding := system.outstanding
        inbox := []
        received := [(⟨system.td.ghost.drawn, system.td.currentQueryId,
          ⟨.getMe, some (.user 1)⟩⟩, object)] } := by
    rw [Machine.run_cons, hanswer]
    simp [machine, step, System.receive, hasked.fault, hasked.stage, hasked.needRestart,
      hasked.received, Event.response, Event.receipt, hprocess, react, Td.executeOption]
  refine ⟨_, Machine.run_append_eq hrun hreceive, ?_⟩
  intro hcorrelated
  have hexact := hcorrelated.exact
  simp only [invocations, Td.record, List.filterMap_cons, Action.invocation, dueInvocation,
    Option.map_some, List.filterMap_nil, List.cons.injEq, Prod.mk.injEq] at hexact
  exact howner hexact.1.1

/-- As many queries as it takes to come back to the first id, and one more with a handler. -/
def wrapLabels : List Label :=
  queryLabels 1 ⟨.getMe, some (.user 0)⟩ ++
    ((List.replicate (2 ^ 64 - 1) (queryLabels 1 ⟨.getMe, none⟩)).flatten ++
      (queryLabels 1 ⟨.getMe, some (.user 1)⟩ ++
        [.answer (2 + (2 ^ 64 - 1)) (.other 0), .receive]))

/-- The answer to the last query runs the first query's handler. -/
theorem not_correlated_after_wrap :
    ¬ machine.Throughout Correlated (start {}) wrapLabels := by
  intro hcorrelated
  obtain ⟨asked, hask, hasked, haskedCore, -⟩ :=
    (resting_start {}).query ⟨.getMe, some (.user 0)⟩ rfl
  obtain ⟨drained, hdrain, hdrained, hdrainedCore⟩ := hasked.drain (2 ^ 64 - 1)
  have hfirst : asked.td.currentQueryId = 2 ∧ asked.td.ghost.drawn = 2 ∧
      asked.td.handlers.lookup 1 = some ⟨.user 0, 1, 0⟩ := by
    refine ⟨congrArg Core.currentQueryId haskedCore, congrArg Core.drawn haskedCore, ?_⟩
    rw [show asked.td.handlers = _ from congrArg Core.handlers haskedCore]
    rfl
  have hid : drained.td.currentQueryId = 1 := by
    rw [show drained.td.currentQueryId = _ from congrArg Core.currentQueryId hdrainedCore,
      hfirst.1]
    exact (by decide : (2 : UInt64) + UInt64.ofNat (2 ^ 64 - 1) = 1)
  have hdrawn : drained.td.ghost.drawn = 2 + (2 ^ 64 - 1) := by
    rw [show drained.td.ghost.drawn = _ from congrArg Core.drawn hdrainedCore, hfirst.2.1]
  have hstored : drained.td.handlers.lookup drained.td.currentQueryId =
      some ⟨.user 0, 1, 0⟩ := by
    rw [hid, show drained.td.handlers = _ from congrArg Core.handlers hdrainedCore]
    exact hfirst.2.2
  obtain ⟨last, hcollide, hnot⟩ := hdrained.collide (.other 0) hstored rfl
    (by rw [hid]; decide) (by rw [hdrawn]; decide)
  rw [hdrawn] at hcollide
  apply hnot
  apply hcorrelated.last
  exact Machine.run_append_eq hask (Machine.run_append_eq hdrain hcollide)

end System

end Tgvisd
