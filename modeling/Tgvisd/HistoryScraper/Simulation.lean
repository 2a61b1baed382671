import Tgvisd.HistoryScraper.Database

/-!
# An environment that computes

A server that always gives a new row the next number, with a TDLib that knows every user and
every chat, one event log and one file. It is one of the environments that the results are about,
and concrete runs can be evaluated in it.
-/

namespace Tgvisd.HistoryScraper

open TdApi

/-- What is left open: the answers to `getChatEventLog` and `downloadFile`. -/
structure Replies where
  eventLog : Int → Option (List ChatEvent) := fun _ ↦ some []
  file : Option File := none

/-- The setting that the replies belong to. -/
def Replies.setting (replies : Replies) (schema : Schema) : Setting where
  schema := schema
  mayFail := false
  eventLog fromEventId page := page = replies.eventLog fromEventId

def nextNumber {Row : Type} (table : NumberedTable Row) : UInt64 :=
  (NumberedTable.numbers table).foldl max 0 + 1

namespace Tables

variable (tables : Tables)

def nextNumberFor : Sql → UInt64
  | .insertUser => nextNumber tables.users
  | .insertGroup => nextNumber tables.groups
  | .insertGroupMessage => nextNumber tables.messages
  | .insertGroupMessageDataText => nextNumber tables.data
  | .insertGroupMessageData => nextNumber tables.data
  | .insertFile => nextNumber tables.files
  | _ => 0

instance (sql : Sql) (number : UInt64) : Decidable (tables.MayNumber sql number) := by
  unfold MayNumber
  cases sql <;> infer_instance

end Tables

namespace Database

variable (db : Database)

/-- A statement that concerns tables. -/
def executeTables (schema : Schema) (sql : Sql) (parameters : List Parameter) :
    Option (Except String (Option Row) × Database) :=
  let number := db.working.nextNumberFor sql
  if db.working.MayNumber sql number then
    match db.working.apply schema number sql parameters with
    | some (tables, row) => some (.ok row, db.write sql number tables)
    | none => some (.error "", db)
  else none

def executeNext (schema : Schema) (sql : Sql) (parameters : List Parameter) :
    Option (Except String (Option Row) × Database) :=
  match sql with
  | .startTransaction => some (.ok none, db.startTransaction)
  | .rollback => some (.ok none, db.abandon)
  | .commit => some (.ok none, db.commit)
  | .selectLastInsertId => some (.ok (some { id := db.lastInsertId }), db)
  | sql => db.executeTables schema sql parameters

def respond (schema : Schema) (replies : Replies) :
    Database → (request : Request) → Option (request.Answer × Database)
  | db, .execute sql parameters => db.executeNext schema sql parameters
  | db, .prepare _ => some (.ok (), db)
  | db, .connect _ _ _ _ _ => some (.ok (), { db.abandon with lastInsertId := 0 })
  | db, .sendQuerySync (.getUser userId) _ _ => some (some (.user { id := userId }), db)
  | db, .sendQuerySync (.getChat chatId) _ _ =>
    some (some (.chat { id := chatId, title := "" }), db)
  | db, .sendQuerySync (.getChatEventLog _ _ fromEventId _) _ _ =>
    some ((replies.eventLog fromEventId).map Object.chatEvents, db)
  | db, .sendQuerySync (.downloadFile _ _ _ _ _) _ _ => some (replies.file.map Object.file, db)
  | db, .sendQuerySync _ _ _ => some (some (.chats 0 []), db)
  | db, .sleep _ => some ((), db)
  | db, .getenv name => some (some name, db)
  | db, .time => some (0, db)
  | db, .md5File _ => some (some [], db)
  | db, .sha1File _ => some (some [], db)
  | db, .rename _ _ => some (false, db)
  | db, .link _ _ => some (false, db)

variable {db} {schema : Schema} {sql : Sql} {parameters : List Parameter}

theorem executeTables_eq_some {response : Except String (Option Row) × Database}
    (h : db.executeTables schema sql parameters = some response) :
    ∃ number, db.working.MayNumber sql number ∧
      match db.working.apply schema number sql parameters with
      | some (tables, row) => response.1 = .ok row ∧ response.2 = db.write sql number tables
      | none => (∃ error, response.1 = .error error) ∧ response.2 = db := by
  unfold executeTables at h
  dsimp only at h
  split at h
  · next hnumber =>
    refine ⟨_, hnumber, ?_⟩
    split at h
    · obtain rfl := Option.some.inj h
      exact ⟨rfl, rfl⟩
    · obtain rfl := Option.some.inj h
      exact ⟨⟨"", rfl⟩, rfl⟩
  · simp at h

theorem executes_of_executeNext {response : Except String (Option Row) × Database}
    (h : db.executeNext schema sql parameters = some response) :
    db.Executes schema sql parameters response.1 response.2 := by
  unfold executeNext at h
  cases sql with
  | startTransaction | rollback | commit | selectLastInsertId =>
    obtain rfl := Option.some.inj h
    exact ⟨rfl, rfl⟩
  | _ => exact executeTables_eq_some h

theorem responds_of_respond {replies : Replies} (db : Database) (request : Request)
    (response : request.Answer × Database)
    (h : respond schema replies db request = some response) :
    Responds (replies.setting schema) db request response.1 response.2 := by
  cases request with
  | execute sql parameters => exact .inl (executes_of_executeNext h)
  | prepare sql =>
    obtain rfl := Option.some.inj h
    exact ⟨.inl rfl, rfl⟩
  | connect host port user pass database =>
    obtain rfl := Option.some.inj h
    exact .inl ⟨rfl, rfl⟩
  | sendQuerySync function returnId timeout =>
    cases function with
    | getUser userId =>
      obtain rfl := Option.some.inj h
      refine ⟨fun user huser ↦ ?_, rfl⟩
      rw [← Object.user.inj (Option.some.inj huser)]
    | getChat chatId =>
      obtain rfl := Option.some.inj h
      refine ⟨fun chat hchat ↦ ?_, rfl⟩
      rw [← Object.chat.inj (Option.some.inj hchat)]
    | getChatEventLog chatId query fromEventId limit =>
      obtain rfl := Option.some.inj h
      refine ⟨?_, rfl⟩
      change ((replies.eventLog fromEventId).map Object.chatEvents).bind Object.asChatEvents =
        replies.eventLog fromEventId
      cases replies.eventLog fromEventId <;> rfl
    | _ =>
      obtain rfl := Option.some.inj h
      rfl
  | _ =>
    obtain rfl := Option.some.inj h
    rfl

/-- More answers may be expected than there are. -/
theorem Responds.mono {setting other : Setting} (hschema : setting.schema = other.schema)
    (hfail : setting.mayFail = true → other.mayFail = true)
    (hlog : ∀ fromEventId page, setting.eventLog fromEventId page →
      other.eventLog fromEventId page)
    {request : Request} {answer : request.Answer} {next : Database}
    (h : Responds setting db request answer next) : Responds other db request answer next := by
  cases request with
  | execute sql parameters =>
    obtain h | ⟨hmay, hrest⟩ := h
    · exact .inl (hschema ▸ h)
    · exact .inr ⟨hfail hmay, hrest⟩
  | prepare sql =>
    obtain ⟨h | ⟨hmay, hrest⟩, hnext⟩ := h
    · exact ⟨.inl h, hnext⟩
    · exact ⟨.inr ⟨hfail hmay, hrest⟩, hnext⟩
  | sendQuerySync function returnId timeout =>
    cases function with
    | getChatEventLog chatId query fromEventId limit => exact ⟨hlog _ _ h.1, h.2⟩
    | _ => exact h
  | _ => exact h

end Database

theorem Database.responds_replies {setting : Setting} (replies : Replies)
    (hlog : ∀ fromEventId, setting.eventLog fromEventId (replies.eventLog fromEventId))
    (db : Database) (request : Request) (response : request.Answer × Database)
    (hresponse : respond setting.schema replies db request = some response) :
    Responds setting db request response.1 response.2 := by
  have hresponds := responds_of_respond db request response hresponse
  have hschema : (replies.setting setting.schema).schema = setting.schema := rfl
  apply hresponds.mono hschema (by simp [Replies.setting])
  rintro fromEventId page rfl
  exact hlog fromEventId

/-- What is seen of a run that returns. -/
theorem exists_ends_of_returnIn {setting : Setting} (replies : Replies)
    {State Value Seen : Type} {procedure : Scrape State Value} {state : State} {db : Database}
    {see : Database → Seen} {seen : Seen}
    (hlog : ∀ fromEventId, setting.eventLog fromEventId (replies.eventLog fromEventId))
    (h : (procedure.returnIn (Database.respond setting.schema replies) state db).map
      (fun run ↦ see run.2.2) = some seen) :
    ∃ value after last, procedure.Ends (Database.Responds setting) state db
      (.returned value after) last ∧ see last = seen := by
  obtain ⟨⟨value, after, last⟩, hrun, hseen⟩ := Option.map_eq_some_iff.mp h
  refine ⟨value, after, last, ?_, hseen⟩
  exact Procedure.ends_of_returnIn (Database.responds_replies replies hlog) hrun

/-- What is seen of a run and its exchanges. -/
theorem exists_runs_of_traceIn {setting : Setting} (replies : Replies)
    {State Value Seen : Type} {procedure : Scrape State Value} {state : State} {db : Database}
    {see : List Exchange → Scrape.Ending State Value → Database → Seen} {seen : Seen}
    (hlog : ∀ fromEventId, setting.eventLog fromEventId (replies.eventLog fromEventId))
    (h : (procedure.traceIn (Database.respond setting.schema replies) state db).map
      (fun trace ↦ see trace.1 trace.2.1 trace.2.2) = some seen) :
    ∃ exchanges ending last, procedure.Runs state exchanges ending ∧
      Follows (Database.Responds setting) db exchanges last ∧
      see exchanges ending last = seen := by
  obtain ⟨⟨exchanges, ending, last⟩, htrace, hseen⟩ := Option.map_eq_some_iff.mp h
  obtain ⟨hruns, hfollows⟩ :=
    Procedure.runs_of_traceIn (Database.responds_replies replies hlog) htrace
  exact ⟨exchanges, ending, last, hruns, hfollows, hseen⟩

/-- A message with a text, of one user in one chat. -/
def textMessage (id : Int) (text : String) : Message where
  id := id
  sender := .messageSenderUser 7
  chatId := -42
  content := .messageText { text := text }

end Tgvisd.HistoryScraper
