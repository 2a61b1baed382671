import Tgvisd.HistoryScraper.EventLog
import Tgvisd.Lib.Invariants

/-!
# Invariants of whole runs

A property of the world that `resolveFile` maintains, and that no request outside of it breaks, is
an invariant of the scraper.
-/

namespace Tgvisd.HistoryScraper

open TdApi Scrape Procedure

/-- Only `resolveFile` asks for these. -/
def storesFiles : Request → Bool
  | .md5File _ | .sha1File _ | .rename _ _ | .link _ _ | .execute .insertFile _ => true
  | _ => false

/-- An invariant of the requests that are made outside of `resolveFile`. -/
def Bystander {World : Type} (environment : Environment Request.Answer World)
    (invariant : World → Prop) : Prop :=
  ∀ world request answer next, storesFiles request = false →
    environment world request answer next → invariant world → invariant next

section

variable {World State Value : Type} {environment : Environment Request.Answer World}
  {invariant : World → Prop} (h : Bystander environment invariant)

theorem maintains_orThrow (answer : Except String Value) :
    Maintains environment invariant (orThrow answer : Scrape State Value) := by
  cases answer with
  | ok value => exact .pure value
  | error error => exact .throw error

theorem maintains_dereference (pointer : Option Value) :
    Maintains environment invariant (dereference pointer : Scrape State Value) := by
  cases pointer with
  | some value => exact .pure value
  | none => exact .stop _

include h

theorem maintains_ask {request : Request} (hrequest : storesFiles request = false) :
    Maintains environment invariant (ask request : Scrape State request.Answer) :=
  .perform fun world answer next hanswer ↦ h world request answer next hrequest hanswer

theorem maintains_prepare (sql : Sql) :
    Maintains environment invariant (prepare sql : Scrape State Unit) :=
  (maintains_ask h rfl).bind fun _ ↦ maintains_orThrow _

theorem maintains_execute {sql : Sql} (parameters : List Parameter) (hsql : sql ≠ .insertFile) :
    Maintains environment invariant (execute sql parameters : Scrape State (Option Row)) := by
  refine (maintains_ask h ?_).bind fun _ ↦ maintains_orThrow _
  cases sql <;> first | rfl | exact absurd rfl hsql

theorem maintains_executeText {sql : Sql} (hsql : sql ≠ .insertFile) :
    Maintains environment invariant (executeText sql : Scrape State Unit) :=
  (maintains_prepare h sql).bind fun _ ↦ (maintains_execute h _ hsql).bind fun _ ↦ .pure _

theorem maintains_sendQuerySync {cast : Object → Option Value} {function : Function}
    {returnId : ObjectId} {timeout : Int32} :
    Maintains environment invariant
      (sendQuerySync cast function returnId timeout : Scrape State (Option Value)) := by
  apply (maintains_ask h rfl).bind
  intro answer
  cases (answer : Option Object) with
  | some object => exact .pure _
  | none => exact .ite (.pure _) (.stop _)

namespace Worker

theorem maintains_getDateNow : Maintains environment invariant getDateNow :=
  (maintains_ask h rfl).bind fun _ ↦ .pure _

theorem maintains_lastInsertId : Maintains environment invariant lastInsertId := by
  apply (maintains_prepare h _).bind
  intro _
  apply (maintains_execute h _ (by simp)).bind
  rintro (_ | row)
  · exact .pure _
  · exact .pure _

theorem maintains_fetchRow {select : Sql} (parameters : List Parameter)
    (hsql : select ≠ .insertFile) :
    Maintains environment invariant (fetchRow select parameters) := by
  apply (maintains_prepare h _).bind
  intro _
  apply (maintains_execute h _ hsql).bind
  rintro (_ | row)
  · exact .pure _
  · exact .pure _

theorem maintains_insertRow {insert : Sql} (parameters : String → List Parameter)
    (hsql : insert ≠ .insertFile) :
    Maintains environment invariant (insertRow insert parameters) := by
  apply (maintains_prepare h _).bind
  intro _
  apply Maintains.bind
  · apply Maintains.tryCatch
    · exact (maintains_getDateNow h).bind fun _ ↦
        (maintains_execute h _ hsql).bind fun _ ↦ .pure _
    · exact fun _ ↦ .pure _
  · exact fun _ ↦ .ite (maintains_lastInsertId h) (.pure _)

theorem maintains_resolveUser (user : User) :
    Maintains environment invariant (resolveUser user) := by
  have hkeep (ret : UInt64) : Maintains environment invariant (keepUser user ret) :=
    Maintains.get.bind fun _ ↦ (Maintains.set _).bind fun _ ↦ .pure _
  apply Maintains.get.bind
  intro worker
  split
  · exact .pure _
  · exact (maintains_insertRow h _ (by simp)).bind fun _ ↦ .ite (hkeep _)
      ((maintains_fetchRow h _ (by simp)).bind fun _ ↦ .ite (hkeep _) (.pure _))

theorem maintains_resolveGroup (chat : Chat) :
    Maintains environment invariant (resolveGroup chat) := by
  have hkeep (ret : UInt64) : Maintains environment invariant (keepGroup chat ret) :=
    Maintains.get.bind fun _ ↦ (Maintains.set _).bind fun _ ↦ .pure _
  apply Maintains.get.bind
  intro worker
  split
  · exact .pure _
  · exact (maintains_insertRow h _ (by simp)).bind fun _ ↦ .ite (hkeep _)
      ((maintains_fetchRow h _ (by simp)).bind fun _ ↦ .ite (hkeep _) (.pure _))

theorem maintains_saveForwardInfoIfAny (dbMsgId : UInt64) (msg : Message) :
    Maintains environment invariant (saveForwardInfoIfAny dbMsgId msg) := by
  have hforward (fwd : MessageForwardInfo) (origType : String) (origId : Parameter)
      (origText : String) : Maintains environment invariant
        (executeForward dbMsgId fwd origType origId origText) :=
    (maintains_execute h _ (by simp)).bind fun _ ↦ .pure _
  unfold saveForwardInfoIfAny
  cases msg.forwardInfo with
  | none => exact .pure _
  | some fwd =>
    dsimp only
    unfold saveForwardInfo
    cases fwd.origin with
    | messageForwardOriginChannel authorSignature =>
      exact (maintains_prepare h _).bind fun _ ↦ .tryCatch (hforward _ _ _ _) fun _ ↦ .throw _
    | other => exact .pure _
    | _ => exact (maintains_prepare h _).bind fun _ ↦ hforward _ _ _ _

theorem maintains_updateMessage {sql : Sql} (dbMsgId dbGroupId : UInt64)
    (hsql : sql ≠ .insertFile) :
    Maintains environment invariant (updateMessage sql dbMsgId dbGroupId) :=
  (maintains_getDateNow h).bind fun _ ↦ (maintains_prepare h _).bind fun _ ↦
    (maintains_execute h _ hsql).bind fun _ ↦ .pure _

theorem maintains_getDBMsgIdIfExists (tgMsgId chatId : UInt64) :
    Maintains environment invariant (getDBMsgIdIfExists tgMsgId chatId) := by
  apply (maintains_prepare h _).bind
  intro _
  apply (maintains_execute h _ (by simp)).bind
  rintro (_ | row)
  · exact .pure _
  · exact .pure _

theorem maintains_trackEventId (eventId : Int) :
    Maintains environment invariant (trackEventId eventId) :=
  .tryCatch ((maintains_prepare h _).bind fun _ ↦ (maintains_execute h _ (by simp)).bind fun _ ↦
    .pure _) fun _ ↦ .pure _

theorem maintains_storeEvent (eventId : Int) {store : Scrape Worker Unit}
    (hstore : Maintains environment invariant store) :
    Maintains environment invariant (storeEvent eventId store) :=
  (maintains_executeText h (by simp)).bind fun _ ↦ (maintains_trackEventId h eventId).bind fun _ ↦
    .ite (hstore.bind fun _ ↦ maintains_executeText h (by simp))
      (maintains_executeText h (by simp))

/-! ## Files -/

/-- The row of a file, which may be inserted in a world of which more is known. -/
theorem ensures_insertFile {strong : World → Prop} (hstrong : Bystander environment strong)
    (hweaken : ∀ world, strong world → invariant world)
    (hinsert : ∀ world parameters answer next,
      environment world (.execute .insertFile parameters) answer next → strong world →
      invariant next) (parameters : String → List Parameter) {worker : Worker} {world : World}
    (hworld : strong world) :
    (tryCatch
      (do
        let dateNow ← getDateNow
        prepare .insertFile
        let _ ← execute .insertFile (parameters dateNow)
        lastInsertId) throw : Scrape Worker UInt64).Ensures environment invariant worker
      (fun _ last ↦ invariant last) world := by
  apply ensures_tryCatch_iff.mpr
  have hrun : (do
      let dateNow ← getDateNow
      prepare .insertFile
      let _ ← execute .insertFile (parameters dateNow)
      lastInsertId : Scrape Worker UInt64).Ensures environment invariant worker
        (fun _ last ↦ invariant last) world := by
    apply (maintains_getDateNow hstrong).ensures_bind hweaken _ hworld
    intro dateNow worker world hworld
    apply (maintains_prepare hstrong _).ensures_bind hweaken _ hworld
    intro _ worker world hworld
    apply ensures_bind_iff.mpr
    apply ensures_bind_iff.mpr
    apply ensures_perform
    intro answer next hanswer
    have hnext := hinsert world _ answer next hanswer hworld
    refine ⟨hnext, ?_⟩
    cases (answer : Except String (Option Row)) with
    | ok row => exact maintains_lastInsertId h worker next hnext
    | error error => exact hnext
  apply hrun.mono fun _ hlast ↦ hlast
  intro ending last hlast
  cases ending <;> exact hlast

variable (hfile : ∀ file, Maintains environment invariant (resolveFile file))

include hfile

theorem maintains_insertMsgDataFile (dbMsgId : UInt64) (msg : Message) (text : String)
    (textEntities : Parameter) (file : File) (isEdited : Bool) : Maintains environment invariant
      (insertMsgDataFile dbMsgId msg text textEntities file isEdited) :=
  (hfile file).bind fun _ ↦ (maintains_prepare h _).bind fun _ ↦
    (maintains_getDateNow h).bind fun _ ↦ (maintains_execute h _ (by simp)).bind fun _ ↦ .pure _

theorem maintains_insertMsgData (dbMsgId : UInt64) (msg : Message) (isEdited : Bool) :
    Maintains environment invariant (insertMsgData dbMsgId msg isEdited) := by
  unfold insertMsgData
  cases msg.content with
  | messageText text =>
    exact (maintains_prepare h _).bind fun _ ↦ (maintains_getDateNow h).bind fun _ ↦
      (maintains_execute h _ (by simp)).bind fun _ ↦ .pure _
  | messagePhoto sizes caption =>
    dsimp only
    unfold insertMsgDataPhoto
    cases takenFile sizes with
    | none => exact .pure _
    | some file => exact maintains_insertMsgDataFile h hfile _ _ _ _ _ _
  | messageChatJoinByLink => exact .pure _
  | other => exact .pure _
  | _ => exact maintains_insertMsgDataFile h hfile _ _ _ _ _ _

theorem maintains_resolveMessage (msg : Message) (dbUserId dbGroupId : UInt64)
    (isEdited isDeleted : Bool) : Maintains environment invariant
      (resolveMessage msg dbUserId dbGroupId isEdited isDeleted) := by
  unfold resolveMessage
  cases msgType msg.content with
  | none => exact .pure _
  | some msgType =>
    apply (maintains_getDBMsgIdIfExists h _ _).bind
    intro found
    have hupdate (sql : Sql) (hsql : sql ≠ .insertFile) (dbMsgId : UInt64) (condition : Bool) :
        Maintains environment invariant
          (onlyIf condition (updateMessage sql dbMsgId dbGroupId)) :=
      .ite (maintains_updateMessage h _ _ hsql) (.pure _)
    apply Maintains.bind
    · apply Maintains.ite
      · exact (hupdate .updateHasEditedMsg (by simp) _ _).bind fun _ ↦
          (Maintains.ite (maintains_insertMsgData h hfile _ _ _) (.pure _)).bind fun _ ↦ .pure _
      · exact (maintains_getDateNow h).bind fun _ ↦ (maintains_prepare h _).bind fun _ ↦
          (maintains_execute h _ (by simp)).bind fun _ ↦ (maintains_lastInsertId h).bind fun _ ↦
            (maintains_saveForwardInfoIfAny h _ _).bind fun _ ↦
              (maintains_insertMsgData h hfile _ _ _).bind fun _ ↦ .pure _
    · exact fun _ ↦ hupdate .updateIsDeleted (by simp) _ _

theorem maintains_processMessage (msg : Message) (isEdited isDeleted : Bool) :
    Maintains environment invariant (processMessage msg isEdited isDeleted) := by
  unfold processMessage
  cases msg.sender with
  | messageSenderChat chatId => exact .pure _
  | messageSenderUser userId =>
    exact (maintains_sendQuerySync h).bind fun _ ↦ (maintains_sendQuerySync h).bind fun _ ↦
      (maintains_dereference _).bind fun _ ↦ (maintains_resolveUser h _).bind fun _ ↦
        (maintains_dereference _).bind fun _ ↦ (maintains_resolveGroup h _).bind fun _ ↦
          maintains_resolveMessage h hfile _ _ _ _ _

theorem maintains_processEvents (i : Nat) (minEvent : Int) (events : List ChatEvent) :
    Maintains environment invariant (processEvents i minEvent events) := by
  induction events generalizing i minEvent with
  | nil => exact .pure _
  | cons ev events ih =>
    refine Maintains.bind ?_ fun _ ↦ ih _ _
    unfold processEvent
    cases ev.action with
    | chatEventMessageDeleted msg =>
      exact maintains_storeEvent h _ (maintains_processMessage h hfile _ _ _)
    | chatEventMessageEdited oldMessage newMessage =>
      exact maintains_storeEvent h _ ((maintains_processMessage h hfile _ _ _).bind fun _ ↦
        maintains_processMessage h hfile _ _ _)
    | other => exact .pure _

/-- By induction on the rounds. -/
theorem maintains_gatherFrom (chatId : Int) (rounds : Nat) (minEv : Int) :
    Maintains environment invariant (gatherFrom chatId rounds minEv) := by
  induction rounds generalizing minEv with
  | zero =>
    unfold gatherFrom
    exact .ite (.pure _) (.stop _)
  | succ rounds ih =>
    unfold gatherFrom
    apply Maintains.ite (.pure _)
    apply (maintains_sendQuerySync h).bind
    rintro (_ | events)
    · exact .pure _
    · exact (maintains_processEvents h hfile _ _ _).bind fun _ ↦ ih _

theorem maintains_run (rounds : Nat) : Maintains environment invariant (run rounds) := by
  have hrequire (name : String) : Maintains environment invariant (requireEnv name) := by
    apply (maintains_ask h rfl).bind
    intro value
    cases (value : Option String) with
    | some value => exact .pure _
    | none => exact .stop _
  exact (hrequire _).bind fun _ ↦ (hrequire _).bind fun _ ↦ (hrequire _).bind fun _ ↦
    (hrequire _).bind fun _ ↦ (maintains_ask h rfl).bind fun _ ↦
      (maintains_sendQuerySync h).bind fun _ ↦ (maintains_ask h rfl).bind fun _ ↦
        ((maintains_ask h rfl).bind fun _ ↦ maintains_orThrow _).bind fun _ ↦
          maintains_gatherFrom h hfile _ _ _

end Worker

end

end Tgvisd.HistoryScraper
