import Tgvisd.HistoryScraper.Histories
import Tgvisd.Lib.Invariants

/-!
# Tables grow

No statement of the scraper removes a row or gives it another number, and none changes what a row
says, but for the mark of a message that was edited. What was committed once stays through all
later runs.
-/

namespace Tgvisd.HistoryScraper

open TdApi Scrape

/-- Rows keep their numbers and their places; of a message only the mark may change, to being
edited. -/
structure Tables.Grows (before after : Tables) : Prop where
  users : before.users <+: after.users
  groups : before.groups <+: after.groups
  messages : ∀ (position : ℕ) entry, before.messages[position]? = some entry →
    ∃ edited, after.messages[position]? = some { entry with
      row := { entry.row with hasEditedMsg := entry.row.hasEditedMsg || edited } }
  data : before.data <+: after.data
  forwards : before.forwards <+: after.forwards
  files : before.files <+: after.files
  tracked : before.tracked <+: after.tracked

namespace Tables

variable {before middle after tables next : Tables} {schema : Schema} {number : UInt64}

theorem grows_of_messages_eq (husers : before.users <+: after.users)
    (hgroups : before.groups <+: after.groups) (hmessages : after.messages = before.messages)
    (hdata : before.data <+: after.data) (hforwards : before.forwards <+: after.forwards)
    (hfiles : before.files <+: after.files) (htracked : before.tracked <+: after.tracked) :
    before.Grows after where
  users := husers
  groups := hgroups
  messages := by
    intro position entry hentry
    refine ⟨false, ?_⟩
    rw [hmessages, hentry, Bool.or_false]
  data := hdata
  forwards := hforwards
  files := hfiles
  tracked := htracked

@[refl] theorem Grows.refl (tables : Tables) : tables.Grows tables := by
  apply grows_of_messages_eq <;> first | exact List.prefix_rfl | rfl

theorem Grows.trans (hfirst : before.Grows middle) (hsecond : middle.Grows after) :
    before.Grows after where
  users := hfirst.users.trans hsecond.users
  groups := hfirst.groups.trans hsecond.groups
  messages := by
    intro position entry hentry
    obtain ⟨edited, hmiddle⟩ := hfirst.messages position entry hentry
    obtain ⟨editedLater, hafter⟩ := hsecond.messages position _ hmiddle
    refine ⟨edited || editedLater, ?_⟩
    rw [hafter, Bool.or_assoc]
  data := hfirst.data.trans hsecond.data
  forwards := hfirst.forwards.trans hsecond.forwards
  files := hfirst.files.trans hsecond.files
  tracked := hfirst.tracked.trans hsecond.tracked

/-! ## Statements -/

/-- A statement that is refused leaves nothing. -/
theorem of_guarded {condition : Prop} [Decidable condition] {property : Tables → Prop}
    (h : property after) (hnext : (if condition then some after else none) = some next) :
    property next := by
  split at hnext
  · rwa [← Option.some.inj hnext]
  · simp at hnext

theorem of_refused {condition : Prop} [Decidable condition] {property : Tables → Prop}
    (h : property after) (hnext : (if condition then none else some after) = some next) :
    property next := by
  split at hnext
  · simp at hnext
  · rwa [← Option.some.inj hnext]

theorem eq_some_of_map {result : Option Tables} {row : Option Row}
    (h : result.map (·, (none : Option Row)) = some (next, row)) : result = some next := by
  obtain ⟨found, rfl, heq⟩ := Option.map_eq_some_iff.mp h
  rw [(Prod.mk.inj heq).1]

theorem grows_insertTrackEventId {eventId : UInt64}
    (h : tables.insertTrackEventId eventId = some next) : tables.Grows next := by
  refine of_refused ?_ h
  apply grows_of_messages_eq <;> first | rfl | exact List.prefix_rfl | exact List.prefix_append _ _

theorem grows_insertUser {user : GwUser} (h : tables.insertUser number user = some next) :
    tables.Grows next := by
  refine of_refused ?_ h
  apply grows_of_messages_eq <;> first | rfl | exact List.prefix_rfl | exact List.prefix_append _ _

theorem grows_insertGroup {group : GwGroup} (h : tables.insertGroup number group = some next) :
    tables.Grows next := by
  refine of_refused ?_ h
  apply grows_of_messages_eq <;> first | rfl | exact List.prefix_rfl | exact List.prefix_append _ _

theorem grows_insertGroupMessage {message : GwGroupMessage UInt64 UInt64}
    (h : tables.insertGroupMessage schema number message = some next) : tables.Grows next := by
  refine of_guarded ?_ h
  refine ⟨List.prefix_rfl, List.prefix_rfl, ?_, List.prefix_rfl, List.prefix_rfl,
    List.prefix_rfl, List.prefix_rfl⟩
  intro position entry hentry
  refine ⟨false, ?_⟩
  obtain ⟨hlt, -⟩ := List.getElem?_eq_some_iff.mp hentry
  rw [Bool.or_false, NumberedTable.insert, List.getElem?_append_left hlt, hentry]

/-- The one statement that changes rows. -/
theorem grows_updateHasEditedMsg (tables : Tables) (msgId : UInt64) (groupId : Int64) :
    tables.Grows (tables.updateHasEditedMsg msgId groupId) := by
  refine ⟨List.prefix_rfl, List.prefix_rfl, ?_, List.prefix_rfl, List.prefix_rfl,
    List.prefix_rfl, List.prefix_rfl⟩
  intro position entry hentry
  by_cases hnumber : entry.number = msgId
  · refine ⟨signedEq entry.row.groupId groupId, ?_⟩
    simp [updateHasEditedMsg, NumberedTable.update, hentry, hnumber, GwGroupMessage.edited]
  · refine ⟨false, ?_⟩
    simp [updateHasEditedMsg, NumberedTable.update, hentry, hnumber]

theorem grows_insertGroupMessageForward {forward : GwGroupMessageForward UInt64}
    (h : tables.insertGroupMessageForward schema forward = some next) : tables.Grows next := by
  refine of_guarded ?_ h
  apply grows_of_messages_eq <;> first | rfl | exact List.prefix_rfl | exact List.prefix_append _ _

theorem grows_insertGroupMessageData {data : GwGroupMessageData UInt64 UInt64}
    (h : tables.insertGroupMessageData number data = some next) : tables.Grows next := by
  refine of_guarded ?_ h
  apply grows_of_messages_eq <;> first | rfl | exact List.prefix_rfl | exact List.prefix_append _ _

theorem grows_insertFile {file : GwFile} (h : tables.insertFile number file = some next) :
    tables.Grows next := by
  refine of_guarded ?_ h
  apply grows_of_messages_eq <;> first | rfl | exact List.prefix_rfl | exact List.prefix_append _ _

/-- Every statement that succeeds; queries leave the tables as they are. -/
theorem grows_apply {sql : Sql} {parameters : List Parameter} {row : Option Row}
    (h : tables.apply schema number sql parameters = some (next, row)) : tables.Grows next := by
  have hquery {found : Option Row} (h : some (tables, found) = some (next, row)) :
      tables.Grows next := by
    rw [(Prod.mk.inj (Option.some.inj h)).1]
  unfold Tables.apply at h
  split at h
  · exact grows_insertTrackEventId (eq_some_of_map h)
  · exact grows_insertUser (eq_some_of_map h)
  · exact hquery h
  · exact grows_insertGroup (eq_some_of_map h)
  · exact hquery h
  · obtain ⟨isForwardedMsg, -, h⟩ := Option.bind_eq_some_iff.mp h
    obtain ⟨isDeleted, -, h⟩ := Option.bind_eq_some_iff.mp h
    exact grows_insertGroupMessage (eq_some_of_map h)
  · exact hquery h
  · rw [← (Prod.mk.inj (Option.some.inj h)).1]
    exact grows_updateHasEditedMsg _ _ _
  · exact grows_insertGroupMessageForward (eq_some_of_map h)
  · obtain ⟨textEntities, -, h⟩ := Option.bind_eq_some_iff.mp h
    obtain ⟨isEdited, -, h⟩ := Option.bind_eq_some_iff.mp h
    exact grows_insertGroupMessageData (eq_some_of_map h)
  · obtain ⟨textEntities, -, h⟩ := Option.bind_eq_some_iff.mp h
    obtain ⟨isEdited, -, h⟩ := Option.bind_eq_some_iff.mp h
    exact grows_insertGroupMessageData (eq_some_of_map h)
  · exact grows_insertFile (eq_some_of_map h)
  · simp at h

end Tables

/-! ## Runs -/

/-- A preorder that relates the tables before and after every statement that succeeds. -/
structure Tables.Respects (schema : Schema) (related : Tables → Tables → Prop) : Prop extends
    IsPreorder Tables related where
  apply : ∀ {tables next : Tables} {number : UInt64} {sql : Sql} {parameters : List Parameter}
    {row : Option Row}, tables.apply schema number sql parameters = some (next, row) →
      related tables next

theorem Tables.respects_grows (schema : Schema) : Respects schema Grows where
  refl := .refl
  trans _ _ _ := .trans
  apply := grows_apply

/-- What was committed at first is related to what is committed, and this to what is there. -/
structure Database.Keeps (related : Tables → Tables → Prop) (base : Tables) (db : Database) :
    Prop where
  committed : related base db.committed
  working : related db.committed db.working

variable {setting : Setting} {related : Tables → Tables → Prop} {base : Tables}
  {db last middle next : Database}

namespace Database.Keeps

theorem abandon (hrelated : Tables.Respects setting.schema related) (h : db.Keeps related base) :
    db.abandon.Keeps related base := ⟨h.committed, hrelated.refl _⟩

theorem settle (hrelated : Tables.Respects setting.schema related) (h : db.Keeps related base)
    {inTransaction : Bool} :
    Database.Keeps related base { db with committed := db.working, inTransaction } :=
  ⟨hrelated.trans _ _ _ h.committed h.working, hrelated.refl _⟩

theorem write (hrelated : Tables.Respects setting.schema related) (h : db.Keeps related base)
    {tables : Tables} (hnext : related db.working tables) (sql : Sql) (number : UInt64) :
    (db.write sql number tables).Keeps related base := by
  have hworking := hrelated.trans _ _ _ h.working hnext
  unfold Database.write
  cases db.inTransaction with
  | true => exact ⟨h.committed, hworking⟩
  | false => exact ⟨hrelated.trans _ _ _ h.committed hworking, hrelated.refl _⟩

theorem executes (hrelated : Tables.Respects setting.schema related) (h : db.Keeps related base)
    {sql : Sql} {parameters : List Parameter} {answer : Except String (Option Row)}
    (hexecutes : db.Executes setting.schema sql parameters answer next) :
    next.Keeps related base := by
  cases sql with
  | startTransaction =>
    obtain ⟨-, rfl⟩ := hexecutes
    exact h.settle hrelated
  | rollback =>
    obtain ⟨-, rfl⟩ := hexecutes
    exact h.abandon hrelated
  | commit =>
    obtain ⟨-, rfl⟩ := hexecutes
    exact h.settle hrelated
  | selectLastInsertId =>
    obtain ⟨-, rfl⟩ := hexecutes
    exact h
  | _ =>
    obtain ⟨number, -, happly⟩ := hexecutes
    split at happly
    · next tables row heq =>
      obtain ⟨-, rfl⟩ := happly
      exact h.write hrelated (hrelated.apply heq) _ _
    · obtain ⟨-, rfl⟩ := happly
      exact h

theorem responds (hrelated : Tables.Respects setting.schema related) (h : db.Keeps related base)
    {request : Request} {answer : request.Answer}
    (hresponds : Database.Responds setting db request answer next) : next.Keeps related base := by
  cases request with
  | execute sql parameters =>
    obtain hexecutes | ⟨-, -, -, rfl | rfl⟩ := hresponds
    · exact h.executes hrelated hexecutes
    · exact h
    · exact h.abandon hrelated
  | connect host port user pass database =>
    obtain ⟨-, rfl⟩ | ⟨-, rfl⟩ := hresponds
    · exact ⟨h.committed, hrelated.refl _⟩
    · exact h
  | prepare sql =>
    obtain ⟨-, rfl⟩ := hresponds
    exact h
  | sendQuerySync function returnId timeout =>
    rw [eq_of_sendQuerySync hresponds]
    exact h
  | _ =>
    obtain rfl : next = db := hresponds
    exact h

end Database.Keeps

/-- Whatever the procedure is: the statements alone decide. -/
theorem maintains_keeps (hrelated : Tables.Respects setting.schema related) (base : Tables)
    {State Value : Type} (procedure : Scrape State Value) :
    Procedure.Maintains (Database.Responds setting) (Database.Keeps related base) procedure :=
  .of_forall fun _ _ _ _ hresponds h ↦ h.responds hrelated hresponds

/-- The database after some runs, each of which was stopped somewhere. -/
inductive Continues (setting : Setting) (first : Database) : Database → Prop
  | refl : Continues setting first first
  | rerun {db last : Database} (rounds : Nat) (h : Continues setting first db)
      (hvisits : (Worker.run rounds).Visits (Database.Responds setting) {} db last) :
      Continues setting first last.abandon

/-- By induction on the runs. -/
theorem Continues.keeps (h : Continues setting db last) (hworking : db.working = db.committed) :
    last.Keeps Tables.Grows db.committed := by
  have hgrows := Tables.respects_grows setting.schema
  induction h with
  | refl => exact ⟨.refl _, by rw [hworking]⟩
  | rerun rounds h hvisits ih =>
    exact ((maintains_keeps hgrows db.committed _).visits ih hvisits).abandon hgrows

/-- Whatever happens in later runs, and wherever they are stopped: the rows that were committed
stay, with their numbers, their order and their values, but for the mark of an edited message. -/
theorem committed_grows {rounds : Nat} (hworking : db.working = db.committed)
    (hcontinues : Continues setting db middle)
    (hvisits : (Worker.run rounds).Visits (Database.Responds setting) {} middle last) :
    db.committed.Grows last.committed :=
  ((maintains_keeps (Tables.respects_grows _) db.committed _).visits
    (hcontinues.keeps hworking) hvisits).committed

/-- A run that is cut off after a page, and another one. -/
theorem committed_grows_overlappingPages : ∃ db last : Database,
    db.working = db.committed ∧ db.committed.messages.length = 1 ∧
      (Worker.run 3).Visits (Database.Responds (overlappingPages.setting .complete)) {} db last ∧
      last.committed.messages.length = 3 ∧ db.committed.Grows last.committed := by
  have hlengths : ((Worker.run 1).runIn (Database.respond .complete overlappingPages) {} {}).bind
      (fun first ↦ ((Worker.run 3).runIn (Database.respond .complete overlappingPages) {}
        first.2.abandon).map fun second ↦
          (first.2.committed.messages.length, second.2.committed.messages.length)) =
        some (1, 3) := by decide +kernel
  obtain ⟨⟨_, first⟩, -, hrest⟩ := Option.bind_eq_some_iff.mp hlengths
  obtain ⟨⟨_, last⟩, hrun, hboth⟩ := Option.map_eq_some_iff.mp hrest
  obtain ⟨hfirst, hlast⟩ := Prod.mk.inj hboth
  have hvisits := (Procedure.ends_of_runIn Database.responds_of_respond hrun).visits
  exact ⟨first.abandon, last, rfl, hfirst, hvisits, hlast, committed_grows rfl .refl hvisits⟩

/-! ## The schema of the repository -/

/-- Marks may change, but no message and no forward is added. -/
structure Tables.AddsNone (before after : Tables) : Prop where
  messages : after.messages.length = before.messages.length
  forwards : after.forwards = before.forwards

/-- `database.sql` lacks a column and a table that two statements name. -/
theorem Tables.addsNone_apply {tables next : Tables} {number : UInt64} {sql : Sql}
    {parameters : List Parameter} {row : Option Row}
    (h : tables.apply .dump number sql parameters = some (next, row)) : tables.AddsNone next := by
  have hquery {found : Option Row} (h : some (tables, found) = some (next, row)) :
      tables.AddsNone next := by
    rw [(Prod.mk.inj (Option.some.inj h)).1]
    exact ⟨rfl, rfl⟩
  unfold Tables.apply at h
  split at h
  · refine of_refused ?_ (eq_some_of_map h)
    exact ⟨rfl, rfl⟩
  · refine of_refused ?_ (eq_some_of_map h)
    exact ⟨rfl, rfl⟩
  · exact hquery h
  · refine of_refused ?_ (eq_some_of_map h)
    exact ⟨rfl, rfl⟩
  · exact hquery h
  · obtain ⟨isForwardedMsg, -, h⟩ := Option.bind_eq_some_iff.mp h
    obtain ⟨isDeleted, -, h⟩ := Option.bind_eq_some_iff.mp h
    simp [insertGroupMessage, Schema.dump] at h
  · exact hquery h
  · rw [← (Prod.mk.inj (Option.some.inj h)).1]
    exact ⟨by simp [updateHasEditedMsg, NumberedTable.update], rfl⟩
  · simp [insertGroupMessageForward, Schema.dump] at h
  · obtain ⟨textEntities, -, h⟩ := Option.bind_eq_some_iff.mp h
    obtain ⟨isEdited, -, h⟩ := Option.bind_eq_some_iff.mp h
    refine of_guarded ?_ (eq_some_of_map h)
    exact ⟨rfl, rfl⟩
  · obtain ⟨textEntities, -, h⟩ := Option.bind_eq_some_iff.mp h
    obtain ⟨isEdited, -, h⟩ := Option.bind_eq_some_iff.mp h
    refine of_guarded ?_ (eq_some_of_map h)
    exact ⟨rfl, rfl⟩
  · refine of_guarded ?_ (eq_some_of_map h)
    exact ⟨rfl, rfl⟩
  · simp at h

theorem Tables.respects_addsNone : Respects .dump AddsNone where
  refl _ := ⟨rfl, rfl⟩
  trans _ _ _ hfirst hsecond := ⟨hsecond.messages.trans hfirst.messages,
    hsecond.forwards.trans hfirst.forwards⟩
  apply := addsNone_apply

/-- On a database that was made from `database.sql`, no run stores a message. -/
theorem addsNone_of_dump {rounds : Nat} (hschema : setting.schema = .dump)
    (hworking : db.working = db.committed)
    (hvisits : (Worker.run rounds).Visits (Database.Responds setting) {} db last) :
    db.committed.AddsNone last.committed := by
  have hrelated : Tables.Respects setting.schema Tables.AddsNone :=
    hschema ▸ Tables.respects_addsNone
  have hkeeps : db.Keeps Tables.AddsNone db.committed :=
    ⟨hrelated.refl _, by rw [hworking]; exact hrelated.refl _⟩
  exact ((maintains_keeps hrelated db.committed _).visits hkeeps hvisits).committed

end Tgvisd.HistoryScraper
