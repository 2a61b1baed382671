import Tgvisd.HistoryScraper.Canonical

/-!
# The scraper in a transaction

Within a transaction nothing is committed, and what the scraper's functions leave in the working
tables is what the store operations say. An exception or a halt ends the run, so that nothing has
to be known then but that the committed tables are the old ones.
-/

namespace Tgvisd.HistoryScraper

open TdApi Scrape

/-- The statements that concern tables. -/
def concernsTables : Sql → Bool
  | .startTransaction | .rollback | .commit | .selectLastInsertId => false
  | _ => true

/-- Those of them that fail only for the reasons that the tables give. -/
def isReliable : Sql → Bool
  | .insertTrackEventId => false
  | sql => concernsTables sql

namespace Database

variable {db next : Database} {sql : Sql} {parameters : List Parameter}

theorem executes_iff {schema : Schema} {answer : Except String (Option Row)}
    (hsql : concernsTables sql = true) :
    db.Executes schema sql parameters answer next ↔
      ∃ number, db.working.MayNumber sql number ∧
        match db.working.apply schema number sql parameters with
        | some (tables, row) => answer = .ok row ∧ next = db.write sql number tables
        | none => (∃ error, answer = .error error) ∧ next = db := by
  cases sql <;> first | rfl | simp [concernsTables] at hsql

theorem write_of_inTransaction (number : UInt64) (tables : Tables) (h : db.inTransaction = true) :
    db.write sql number tables =
      { db with
        working := tables
        lastInsertId := if numbersItsRow sql then number else db.lastInsertId } := by
  simp [write, h]

/-- A query within a transaction. -/
theorem write_working (number : UInt64) (h : db.inTransaction = true)
    (hsql : numbersItsRow sql = false) : db.write sql number db.working = db := by
  rw [write_of_inTransaction number db.working h, hsql]
  rfl

end Database

/-- Answers of TDLib do not touch the tables. -/
theorem eq_of_sendQuerySync {setting : Setting} {db next : Database} {function : Function}
    {returnId : ObjectId} {timeout : Int32} {answer : Option Object}
    (h : Database.Responds setting db (.sendQuerySync function returnId timeout) answer next) :
    next = db := by
  cases function with
  | getUser userId => exact h.2
  | getChat chatId => exact h.2
  | getChatEventLog chatId query fromEventId limit => exact h.2
  | _ => exact h

section Rules

variable {Value Next : Type} {setting : Setting} {always : Database → Prop} {worker : Worker}
  {db : Database}

theorem ensures_ask {request : Request}
    {post : Scrape.Ending Worker request.Answer → Database → Prop}
    (h : ∀ answer next, Database.Responds setting db request answer next →
      always next ∧ post (.returned answer worker) next) :
    (ask request).Ensures (Database.Responds setting) always worker post db := h

theorem ensures_prepare {sql : Sql} {post : Scrape.Ending Worker Unit → Database → Prop}
    (halways : always db) (h : post (.returned () worker) db)
    (herror : setting.mayFail = true → ∀ error, post (.raised error worker) db) :
    (prepare sql).Ensures (Database.Responds setting) always worker post db := by
  apply Procedure.ensures_bind_iff.mpr
  apply ensures_ask
  rintro _ _ ⟨rfl | ⟨hfail, error, rfl⟩, rfl⟩
  · exact ⟨halways, h⟩
  · exact ⟨halways, herror hfail error⟩

theorem ensures_execute {sql : Sql} {parameters : List Parameter}
    {post : Scrape.Ending Worker (Option Row) → Database → Prop}
    (hsql : isReliable sql = true) (halways : always db)
    (hok : ∀ number tables row, db.working.MayNumber sql number →
      db.working.apply setting.schema number sql parameters = some (tables, row) →
        always (db.write sql number tables) ∧
          post (.returned row worker) (db.write sql number tables))
    (herror : ∀ number error, db.working.MayNumber sql number →
      db.working.apply setting.schema number sql parameters = none →
        post (.raised error worker) db) :
    (execute sql parameters).Ensures (Database.Responds setting) always worker post db := by
  apply Procedure.ensures_bind_iff.mpr
  apply ensures_ask
  intro answer next hanswer
  have hexecutes : db.Executes setting.schema sql parameters answer next := by
    obtain hexecutes | ⟨-, rfl, -⟩ := hanswer
    · exact hexecutes
    · simp [isReliable] at hsql
  have hconcerns : concernsTables sql = true := by
    unfold isReliable at hsql
    split at hsql
    · simp at hsql
    · exact hsql
  obtain ⟨number, hnumber, hresult⟩ := (Database.executes_iff hconcerns).mp hexecutes
  cases happly : db.working.apply setting.schema number sql parameters with
  | some result =>
    rw [happly] at hresult
    obtain ⟨rfl, rfl⟩ := hresult
    exact hok number _ _ hnumber happly
  | none =>
    rw [happly] at hresult
    obtain ⟨⟨error, rfl⟩, rfl⟩ := hresult
    exact ⟨halways, herror number error hnumber happly⟩

theorem ensures_getDateNow {post : Scrape.Ending Worker String → Database → Prop}
    (halways : always db) (h : ∀ dateNow, post (.returned dateNow worker) db) :
    Worker.getDateNow.Ensures (Database.Responds setting) always worker post db := by
  apply Procedure.ensures_bind_iff.mpr
  apply ensures_ask
  rintro epochNow _ rfl
  exact ⟨halways, h _⟩

end Rules

/-- Whatever world is visited has the property `always`, and a run that returns ends as told. -/
def Keeps (setting : Setting) (always : Database → Prop) {Value : Type}
    (procedure : Scrape Worker Value) (worker : Worker) (db : Database)
    (returns : Value → Worker → Database → Prop) : Prop :=
  procedure.Ensures (Database.Responds setting) always worker
    (fun ending next ↦
      match ending with
      | .returned value after => returns value after next
      | _ => True) db

/-- Nothing is committed. -/
abbrev Transacts (setting : Setting) (committed : Tables) {Value : Type}
    (procedure : Scrape Worker Value) (worker : Worker) (db : Database)
    (returns : Value → Worker → Database → Prop) : Prop :=
  Keeps setting (fun next ↦ next.committed = committed) procedure worker db returns

section Keeps

variable {Value Next : Type} {setting : Setting} {always : Database → Prop} {worker : Worker}
  {db : Database} {procedure : Scrape Worker Value} {returns : Value → Worker → Database → Prop}

theorem keeps_pure {value : Value} (h : returns value worker db) :
    Keeps setting always (pure value) worker db returns := h

theorem keeps_get {returns : Worker → Worker → Database → Prop}
    (h : returns worker worker db) : Keeps setting always get worker db returns := h

theorem keeps_set {new : Worker} {returns : PUnit → Worker → Database → Prop}
    (h : returns ⟨⟩ new db) : Keeps setting always (set new) worker db returns := h

theorem keeps_stop {reason : Halt} :
    Keeps setting always (Procedure.stop reason) worker db returns := trivial

theorem keeps_throw {error : String} :
    Keeps setting always (throw error) worker db returns := trivial

theorem keeps_bind {next : Value → Scrape Worker Next}
    {returns : Next → Worker → Database → Prop}
    (h : Keeps setting always procedure worker db fun value after middle ↦
      Keeps setting always (next value) after middle returns) :
    Keeps setting always (procedure >>= next) worker db returns := by
  apply Procedure.ensures_bind_iff.mpr
  apply Procedure.Ensures.mono h (fun _ hnext ↦ hnext)
  rintro (⟨value, after⟩ | ⟨error, after⟩ | reason) next hnext
  · exact hnext
  · trivial
  · trivial

theorem Keeps.mono {stronger : Value → Worker → Database → Prop}
    (h : Keeps setting always procedure worker db stronger)
    (himp : ∀ value after next, stronger value after next → returns value after next) :
    Keeps setting always procedure worker db returns := by
  apply Procedure.Ensures.mono h (fun _ hnext ↦ hnext)
  rintro (⟨value, after⟩ | ⟨error, after⟩ | reason) next hnext
  · exact himp _ _ _ hnext
  · trivial
  · trivial

/-- A handler that only raises again. -/
theorem keeps_tryCatch_throw (h : Keeps setting always procedure worker db returns) :
    Keeps setting always (tryCatch procedure throw) worker db returns := by
  apply Procedure.ensures_tryCatch_iff.mpr
  apply Procedure.Ensures.mono h (fun _ hnext ↦ hnext)
  rintro (⟨value, after⟩ | ⟨error, after⟩ | reason) next hnext
  · exact hnext
  · trivial
  · trivial

theorem keeps_onlyIf {condition : Bool} {action : Scrape Worker Unit}
    {returns : Unit → Worker → Database → Prop}
    (hthen : condition = true → Keeps setting always action worker db returns)
    (helse : condition = false → returns () worker db) :
    Keeps setting always (onlyIf condition action) worker db returns := by
  unfold onlyIf
  cases condition with
  | true => exact hthen rfl
  | false => exact keeps_pure (helse rfl)

/-- A query to TDLib that is answered by the right object, if it is answered. -/
theorem keeps_sendQuerySync {cast : Object → Option Value} {function : Function}
    {returnId : ObjectId} {timeout : Int32} (property : Value → Prop)
    {returns : Option Value → Worker → Database → Prop} (halways : always db)
    (hanswer : ∀ answer next,
      Database.Responds setting db (.sendQuerySync function returnId timeout) answer next →
        next = db ∧ ∀ object value, answer = some object → cast object = some value →
          property value)
    (hsome : ∀ value, property value → returns (some value) worker db)
    (hnone : returns none worker db) :
    Keeps setting always (sendQuerySync cast function returnId timeout) worker db
      returns := by
  apply keeps_bind
  apply ensures_ask
  intro answer next hresponds
  obtain ⟨rfl, hproperty⟩ := hanswer answer next hresponds
  refine ⟨halways, ?_⟩
  cases hobject : (answer : Option Object) with
  | none =>
    dsimp only
    split
    · exact keeps_pure hnone
    · exact keeps_stop
  | some object =>
    apply keeps_pure
    cases hvalue : (retVal returnId object).bind cast with
    | none => exact hnone
    | some value =>
      obtain ⟨kept, hkept, hcast⟩ := Option.bind_eq_some_iff.mp hvalue
      have heq : kept = object := by
        unfold retVal at hkept
        split at hkept
        · simp at hkept
        · split at hkept
          · simp at hkept
          · exact (Option.some.inj hkept).symm
      exact hsome value (hproperty object value hobject (heq ▸ hcast))

end Keeps

section Transacts

variable {Value : Type} {setting : Setting} {committed : Tables} {worker : Worker} {db : Database}

theorem transacts_ask {request : Request} {returns : request.Answer → Worker → Database → Prop}
    (h : ∀ answer next, Database.Responds setting db request answer next →
      next.committed = committed ∧ returns answer worker next) :
    Transacts setting committed (ask request) worker db returns := h

theorem transacts_prepare {sql : Sql} {returns : Unit → Worker → Database → Prop}
    (hcommitted : db.committed = committed) (h : returns () worker db) :
    Transacts setting committed (prepare sql) worker db returns :=
  ensures_prepare hcommitted h fun _ _ ↦ trivial

theorem transacts_execute {sql : Sql} {parameters : List Parameter}
    {returns : Option Row → Worker → Database → Prop} (hsql : isReliable sql = true)
    (hcommitted : db.committed = committed) (hopen : db.inTransaction = true)
    (h : ∀ number tables row, db.working.MayNumber sql number →
      db.working.apply setting.schema number sql parameters = some (tables, row) →
        returns row worker (db.write sql number tables)) :
    Transacts setting committed (execute sql parameters) worker db returns := by
  apply ensures_execute hsql hcommitted
  · intro number tables row hnumber happly
    refine ⟨?_, h number tables row hnumber happly⟩
    rw [Database.write_of_inTransaction number tables hopen]
    exact hcommitted
  · exact fun _ _ _ _ ↦ trivial

end Transacts

end Tgvisd.HistoryScraper
