import Tgvisd.HistoryScraper.NullAnswers
import Tgvisd.Lib.Conduct

/-!
# What the scraper asks for, and when it returns

Storing a message never asks for the event log, never touches `track_event_id` and never begins or
ends a transaction. It returns unless a query for a user or a chat gets no object or a statement
fails, where an `INSERT` of a user, of a group or of an event id may fail.
-/

namespace Tgvisd.HistoryScraper

open TdApi Scrape

/-- The statements whose exceptions are handled. -/
def isHandled : Request → Bool
  | .execute .insertTrackEventId _ | .execute .insertUser _ | .execute .insertGroup _ => true
  | _ => false

/-- An answer that keeps the scraper from going on. -/
def unlucky (exchange : Exchange) : Bool :=
  refused exchange || (failed exchange && !isHandled exchange.1)

def asksForPage : Request → Bool
  | .sendQuerySync (.getChatEventLog _ _ _ _) _ _ => true
  | _ => false

/-- The statements around the storing of an event's messages. -/
def enclosesEvent : Sql → Bool
  | .startTransaction | .insertTrackEventId | .rollback | .commit => true
  | _ => false

/-- What is not asked for while a message is processed: these statements, and a connection. -/
def isEnclosing : Request → Bool
  | .prepare sql | .execute sql _ => enclosesEvent sql
  | .connect _ _ _ _ _ => true
  | _ => false

/-- While a page is processed. -/
def pageConduct : Conduct Request.Answer where
  asks request := asksForPage request = false
  lucky exchange := unlucky exchange = false

/-- While a message is processed. -/
def messageConduct : Conduct Request.Answer where
  asks request := asksForPage request = false ∧ isEnclosing request = false
  lucky exchange := unlucky exchange = false

theorem asks_message {request : Request} (hpage : asksForPage request = false)
    (henclosing : isEnclosing request = false) : messageConduct.asks request :=
  ⟨hpage, henclosing⟩

theorem dutiful_page {State Value : Type} {procedure : Scrape State Value}
    (h : messageConduct.Dutiful procedure) : pageConduct.Dutiful procedure :=
  h.mono (fun _ hasks ↦ hasks.1) fun _ hlucky ↦ hlucky

section

variable {State Value : Type}

variable {conduct : Conduct Request.Answer}

theorem dutiful_ask {request : Request} (h : conduct.asks request) :
    conduct.Dutiful (ask request : Scrape State request.Answer) := .perform h

/-- The errors of a request that is not handled. -/
theorem dutiful_ask_orThrow (request : Request)
    (outcome : request.Answer → Except String Value) (h : conduct.asks request)
    (hunlucky : ∀ answer, isError (outcome answer) = true → ¬ conduct.lucky ⟨request, answer⟩) :
    conduct.Dutiful
      (ask request >>= fun answer ↦ orThrow (outcome answer) : Scrape State Value) := by
  intro state exchanges ending hrun
  obtain ⟨answer, back, rfl, hback⟩ := Procedure.runs_perform_bind_iff.mp hrun
  have herror := hunlucky answer
  rw [Conduct.asks_cons, Conduct.lucky_cons]
  cases houtcome : outcome answer with
  | error error =>
    rw [houtcome] at hback herror
    obtain ⟨rfl, rfl⟩ := Procedure.runs_throw_iff.mp hback
    exact ⟨⟨h, Conduct.asks_nil⟩, fun hlucky ↦ absurd hlucky.1 (herror rfl)⟩
  | ok value =>
    rw [houtcome] at hback
    obtain ⟨rfl, rfl⟩ := Procedure.runs_pure_iff.mp hback
    exact ⟨⟨h, Conduct.asks_nil⟩, fun _ ↦ ⟨value, state, rfl⟩⟩

theorem unlucky_prepare {sql : Sql} {answer : Except String Unit} (h : isError answer = true) :
    unlucky ⟨.prepare sql, answer⟩ = true := by
  simp [unlucky, refused, failed, isHandled, h]

theorem unlucky_execute {sql : Sql} {parameters : List Parameter}
    {answer : Except String (Option Row)} (hsql : isHandled (.execute sql parameters) = false)
    (h : isError answer = true) : unlucky ⟨.execute sql parameters, answer⟩ = true := by
  simp [unlucky, refused, failed, hsql, h]

theorem dutiful_prepare {sql : Sql} (hsql : enclosesEvent sql = false) :
    messageConduct.Dutiful (prepare sql : Scrape State Unit) := by
  apply dutiful_ask_orThrow (.prepare sql) id (asks_message rfl hsql)
  exact fun answer herror ↦ ne_false_of_eq_true (unlucky_prepare herror)

theorem dutiful_execute {sql : Sql} {parameters : List Parameter}
    (hsql : isHandled (.execute sql parameters) = false) (henclosing : enclosesEvent sql = false) :
    messageConduct.Dutiful (execute sql parameters : Scrape State (Option Row)) := by
  apply dutiful_ask_orThrow (.execute sql parameters) id (asks_message rfl henclosing)
  exact fun answer herror ↦ ne_false_of_eq_true (unlucky_execute hsql herror)

/-- The beginning and the end of a transaction. -/
theorem dutiful_executeText {sql : Sql} (hsql : isHandled (.execute sql []) = false) :
    pageConduct.Dutiful (executeText sql : Scrape State Unit) := by
  apply Conduct.Dutiful.bind
  · apply dutiful_ask_orThrow (.prepare sql) id rfl
    exact fun answer herror ↦ ne_false_of_eq_true (unlucky_prepare herror)
  · intro _
    apply Conduct.Dutiful.bind
    · apply dutiful_ask_orThrow (.execute sql []) id rfl
      exact fun answer herror ↦ ne_false_of_eq_true (unlucky_execute hsql herror)
    · exact fun _ ↦ .pure _

theorem tame_execute {sql : Sql} (hsql : enclosesEvent sql = false)
    (parameters : List Parameter) :
    messageConduct.Tame (execute sql parameters : Scrape State (Option Row)) := by
  have hasks : messageConduct.asks (.execute sql parameters) := ⟨rfl, hsql⟩
  apply Conduct.Tame.bind (.perform hasks)
  intro answer
  cases (answer : Except String (Option Row)) with
  | error error => exact .throw error
  | ok row => exact .pure row

theorem dutiful_onlyIf {condition : Bool} {action : Scrape State Unit}
    (h : messageConduct.Dutiful action) : messageConduct.Dutiful (onlyIf condition action) :=
  .ite h (.pure _)

end

namespace Worker

/-! ## Rows -/

theorem dutiful_getDateNow : messageConduct.Dutiful getDateNow :=
  (dutiful_ask (asks_message rfl rfl)).bind fun _ ↦ .pure _

theorem tame_getDateNow : messageConduct.Tame getDateNow := by
  apply Conduct.Tame.bind
  · apply Conduct.Tame.perform
    exact ⟨rfl, rfl⟩
  · exact fun _ ↦ .pure _

theorem dutiful_selectRow {sql : Sql} {parameters : List Parameter} {Value : Type}
    {found : Row → Value} {missing : Value}
    (hsql : isHandled (.execute sql parameters) = false) (henclosing : enclosesEvent sql = false) :
    messageConduct.Dutiful (do
      prepare sql
      match ← execute sql parameters with
      | some row => pure (found row)
      | none => pure missing : Scrape Worker Value) := by
  apply (dutiful_prepare henclosing).bind
  intro _
  apply (dutiful_execute hsql henclosing).bind
  rintro (_ | row)
  · exact .pure _
  · exact .pure _

theorem dutiful_lastInsertId : messageConduct.Dutiful lastInsertId :=
  dutiful_selectRow rfl rfl

theorem dutiful_insertRow {insert : Sql} (hinsert : enclosesEvent insert = false)
    (parameters : String → List Parameter) :
    messageConduct.Dutiful (insertRow insert parameters) := by
  apply (dutiful_prepare hinsert).bind
  intro _
  apply Conduct.Dutiful.bind
  · apply Conduct.Tame.tryCatch
    · exact tame_getDateNow.bind fun _ ↦ (tame_execute hinsert _).bind fun _ ↦ .pure _
    · exact fun _ ↦ .pure _
  · intro inserted
    exact .ite dutiful_lastInsertId (.pure _)

theorem dutiful_fetchRow {select : Sql} {parameters : List Parameter}
    (hsql : isHandled (.execute select parameters) = false)
    (henclosing : enclosesEvent select = false) :
    messageConduct.Dutiful (fetchRow select parameters) := dutiful_selectRow hsql henclosing

theorem dutiful_keepUser (user : User) (ret : UInt64) :
    messageConduct.Dutiful (keepUser user ret) :=
  Conduct.Dutiful.get.bind fun _ ↦ (Conduct.Dutiful.set _).bind fun _ ↦ .pure _

theorem dutiful_keepGroup (chat : Chat) (ret : UInt64) :
    messageConduct.Dutiful (keepGroup chat ret) :=
  Conduct.Dutiful.get.bind fun _ ↦ (Conduct.Dutiful.set _).bind fun _ ↦ .pure _

theorem dutiful_resolveRow {Value : Type} {insert fetch : Scrape Worker UInt64}
    {keep : UInt64 → Scrape Worker Value} {asIs : Value}
    (hinsert : messageConduct.Dutiful insert) (hfetch : messageConduct.Dutiful fetch)
    (hkeep : ∀ ret, messageConduct.Dutiful (keep ret)) :
    messageConduct.Dutiful (resolveRow insert fetch keep asIs) := by
  apply hinsert.bind
  intro inserted
  apply Conduct.Dutiful.ite (hkeep inserted)
  apply hfetch.bind
  intro fetched
  exact .ite (hkeep fetched) (.pure _)

theorem dutiful_resolveUser (user : User) : messageConduct.Dutiful (resolveUser user) := by
  apply Conduct.Dutiful.get.bind
  intro worker
  split
  · exact .pure _
  · exact dutiful_resolveRow (dutiful_insertRow rfl _) (dutiful_fetchRow rfl rfl)
      (dutiful_keepUser user)

theorem dutiful_resolveGroup (chat : Chat) : messageConduct.Dutiful (resolveGroup chat) := by
  apply Conduct.Dutiful.get.bind
  intro worker
  split
  · exact .pure _
  · exact dutiful_resolveRow (dutiful_insertRow rfl _) (dutiful_fetchRow rfl rfl)
      (dutiful_keepGroup chat)

/-! ## Messages -/

theorem dutiful_downloadFile (fileId : Int) : messageConduct.Dutiful (downloadFile fileId) := by
  apply (dutiful_ask (asks_message rfl rfl)).bind
  intro answer
  cases (answer : Option Object) with
  | some object => exact .pure _
  | none => exact .pure none

theorem dutiful_storeFile (file downloaded : File) (md5Buf sha1Buf : List UInt8) :
    messageConduct.Dutiful (storeFile file downloaded md5Buf sha1Buf) := by
  apply (dutiful_ask (asks_message rfl rfl)).bind
  intro _
  apply (dutiful_ask (asks_message rfl rfl)).bind
  intro _
  apply Conduct.Dutiful.tryCatch_throw
  apply dutiful_getDateNow.bind
  intro _
  apply (dutiful_prepare rfl).bind
  intro _
  apply (dutiful_execute rfl rfl).bind
  intro _
  exact dutiful_lastInsertId

theorem dutiful_resolveFile (file : File) : messageConduct.Dutiful (resolveFile file) := by
  apply (dutiful_downloadFile _).bind
  rintro (_ | downloaded)
  · exact .pure _
  · apply Conduct.Dutiful.ite (.pure _)
    apply (dutiful_ask (asks_message rfl rfl)).bind
    rintro (_ | md5Buf)
    · exact .pure _
    · apply (dutiful_ask (asks_message rfl rfl)).bind
      rintro (_ | sha1Buf)
      · exact .pure _
      · exact dutiful_storeFile _ _ _ _

theorem dutiful_insertMsgDataText (dbMsgId : UInt64) (msg : Message) (text : FormattedText)
    (isEdited : Bool) : messageConduct.Dutiful (insertMsgDataText dbMsgId msg text isEdited) :=
  (dutiful_prepare rfl).bind fun _ ↦ dutiful_getDateNow.bind fun _ ↦
    (dutiful_execute rfl rfl).bind fun _ ↦ .pure _

theorem dutiful_insertMsgDataFile (dbMsgId : UInt64) (msg : Message) (text : String)
    (textEntities : Parameter) (file : File) (isEdited : Bool) :
    messageConduct.Dutiful (insertMsgDataFile dbMsgId msg text textEntities file isEdited) :=
  (dutiful_resolveFile file).bind fun _ ↦ (dutiful_prepare rfl).bind fun _ ↦
    dutiful_getDateNow.bind fun _ ↦ (dutiful_execute rfl rfl).bind fun _ ↦ .pure _

theorem dutiful_insertMsgData (dbMsgId : UInt64) (msg : Message) (isEdited : Bool) :
    messageConduct.Dutiful (insertMsgData dbMsgId msg isEdited) := by
  unfold insertMsgData
  cases msg.content with
  | messageText text => exact dutiful_insertMsgDataText _ _ _ _
  | messagePhoto sizes caption =>
    dsimp only
    unfold insertMsgDataPhoto
    split
    · exact .pure _
    · exact dutiful_insertMsgDataFile _ _ _ _ _ _
  | messageVideo file caption | messageSticker file emoji | messageAnimation file caption
  | messageDocument file caption | messageAudio file caption =>
    exact dutiful_insertMsgDataFile _ _ _ _ _ _
  | messageChatJoinByLink | other => exact .pure _

theorem dutiful_executeForward (dbMsgId : UInt64) (fwd : MessageForwardInfo) (origType : String)
    (origId : Parameter) (origText : String) :
    messageConduct.Dutiful (executeForward dbMsgId fwd origType origId origText) :=
  (dutiful_execute rfl rfl).bind fun _ ↦ .pure _

theorem dutiful_saveForwardInfo (dbMsgId : UInt64) (fwd : MessageForwardInfo) :
    messageConduct.Dutiful (saveForwardInfo dbMsgId fwd) := by
  unfold saveForwardInfo
  split
  · exact (dutiful_prepare rfl).bind fun _ ↦ dutiful_executeForward _ _ _ _ _
  · exact (dutiful_prepare rfl).bind fun _ ↦ dutiful_executeForward _ _ _ _ _
  · exact (dutiful_prepare rfl).bind fun _ ↦ .tryCatch_throw (dutiful_executeForward _ _ _ _ _)
  · exact (dutiful_prepare rfl).bind fun _ ↦ dutiful_executeForward _ _ _ _ _
  · exact .pure _

theorem dutiful_saveForwardInfoIfAny (dbMsgId : UInt64) (msg : Message) :
    messageConduct.Dutiful (saveForwardInfoIfAny dbMsgId msg) := by
  unfold saveForwardInfoIfAny
  split
  · exact dutiful_saveForwardInfo _ _
  · exact .pure _

theorem dutiful_updateMessage {sql : Sql} (dbMsgId dbGroupId : UInt64)
    (hsql : ∀ parameters, isHandled (.execute sql parameters) = false)
    (henclosing : enclosesEvent sql = false) :
    messageConduct.Dutiful (updateMessage sql dbMsgId dbGroupId) :=
  dutiful_getDateNow.bind fun _ ↦ (dutiful_prepare henclosing).bind fun _ ↦
    (dutiful_execute (hsql _) henclosing).bind fun _ ↦ .pure _

theorem dutiful_getDBMsgIdIfExists (tgMsgId chatId : UInt64) :
    messageConduct.Dutiful (getDBMsgIdIfExists tgMsgId chatId) :=
  dutiful_selectRow rfl rfl

theorem dutiful_insertMessage (msg : Message) (msgType : String) (dbUserId dbGroupId : UInt64)
    (isEdited isDeleted : Bool) :
    messageConduct.Dutiful (insertMessage msg msgType dbUserId dbGroupId isEdited isDeleted) := by
  apply dutiful_getDateNow.bind
  intro _
  apply (dutiful_prepare rfl).bind
  intro _
  apply (dutiful_execute rfl rfl).bind
  intro _
  apply dutiful_lastInsertId.bind
  intro dbMsgId
  apply (dutiful_saveForwardInfoIfAny _ _).bind
  intro _
  exact (dutiful_insertMsgData _ _ _).bind fun _ ↦ .pure _

theorem dutiful_editMessage (msg : Message) (dbMsgId dbGroupId : UInt64)
    (hasEditedMsg isEdited : Bool) :
    messageConduct.Dutiful (editMessage msg dbMsgId dbGroupId hasEditedMsg isEdited) := by
  apply (dutiful_onlyIf (dutiful_updateMessage _ _ (fun _ ↦ rfl) rfl)).bind
  intro _
  exact (dutiful_onlyIf (dutiful_insertMsgData _ _ _)).bind fun _ ↦ .pure _

theorem dutiful_resolveMessage (msg : Message) (dbUserId dbGroupId : UInt64)
    (isEdited isDeleted : Bool) :
    messageConduct.Dutiful (resolveMessage msg dbUserId dbGroupId isEdited isDeleted) := by
  unfold resolveMessage
  split
  · exact .pure _
  · apply (dutiful_getDBMsgIdIfExists _ _).bind
    intro found
    apply Conduct.Dutiful.bind
    · exact .ite (dutiful_editMessage _ _ _ _ _) (dutiful_insertMessage _ _ _ _ _ _)
    · intro dbMsgId
      exact dutiful_onlyIf (dutiful_updateMessage _ _ (fun _ ↦ rfl) rfl)

theorem dutiful_storeMessage (msg : Message) (user : User) (chat : Chat)
    (isEdited isDeleted : Bool) :
    messageConduct.Dutiful (do
      let resolvedUser ← resolveUser user
      let resolvedGroup ← resolveGroup chat
      resolveMessage msg resolvedUser.1 resolvedGroup.1 isEdited isDeleted) := by
  apply (dutiful_resolveUser user).bind
  intro resolvedUser
  apply (dutiful_resolveGroup chat).bind
  intro resolvedGroup
  exact dutiful_resolveMessage _ _ _ _ _

/-- The user's row may be resolved before the chat's null pointer is reached. -/
theorem asks_of_no_chat {user : User} {next : UInt64 × User → Chat → Scrape Worker Unit}
    {before : Worker} {exchanges : List Exchange} {ending : Ending Worker Unit}
    (hrun : (resolveUser user >>= fun resolved ↦ dereference none >>= next resolved).Runs before
      exchanges ending) : messageConduct.Asks exchanges := by
  obtain ⟨reason, hresolve, -⟩ | ⟨error, after, hresolve, -⟩ |
    ⟨front, back, resolved, middle, rfl, hresolve, hstop⟩ := Procedure.runs_bind_iff.mp hrun
  · exact (dutiful_resolveUser user _ _ _ hresolve).1
  · exact (dutiful_resolveUser user _ _ _ hresolve).1
  · obtain ⟨rfl, -⟩ := Procedure.runs_stop_bind_iff.mp hstop
    rw [List.append_nil]
    exact (dutiful_resolveUser user _ _ _ hresolve).1

theorem asks_pointerQueries {userId chatId : Int} {userAnswer chatAnswer : Option Object} :
    messageConduct.Asks (pointerQueries userId chatId userAnswer chatAnswer) :=
  Conduct.asks_cons.mpr ⟨⟨rfl, rfl⟩, Conduct.asks_cons.mpr ⟨⟨rfl, rfl⟩, Conduct.asks_nil⟩⟩

theorem lucky_pointerQueries {userId chatId : Int} {userAnswer chatAnswer : Option Object}
    (h : messageConduct.Lucky (pointerQueries userId chatId userAnswer chatAnswer)) :
    userAnswer.bind Object.asUser ≠ none ∧ chatAnswer.bind Object.asChat ≠ none := by
  rw [Option.ne_none_iff_isSome, Option.ne_none_iff_isSome]
  simpa [Conduct.Lucky, pointerQueries, messageConduct, unlucky, refused, failed] using h

/-- Both pointers are there if both queries are lucky. -/
theorem dutiful_processMessage (msg : Message) (isEdited isDeleted : Bool) :
    messageConduct.Dutiful (processMessage msg isEdited isDeleted) := by
  unfold processMessage
  split
  · exact .pure _
  · rename_i userId _
    intro before exchanges ending hrun
    obtain ⟨userAnswer, rest, rfl, huserRun⟩ :=
      (runs_sendQuerySync_bind_iff (by decide)).mp hrun
    obtain ⟨chatAnswer, back, rfl, hchatRun⟩ :=
      (runs_sendQuerySync_bind_iff (by decide)).mp huserRun
    rw [userPointer_eq, chatPointer_eq] at hchatRun
    change messageConduct.Asks
        (pointerQueries userId msg.chatId userAnswer chatAnswer ++ back) ∧
      (messageConduct.Lucky (pointerQueries userId msg.chatId userAnswer chatAnswer ++ back) →
        _)
    rw [Conduct.asks_append, Conduct.lucky_append]
    cases huser : userAnswer.bind Object.asUser with
    | none =>
      rw [huser] at hchatRun
      obtain ⟨rfl, rfl⟩ := Procedure.runs_stop_bind_iff.mp hchatRun
      refine ⟨⟨asks_pointerQueries, Conduct.asks_nil⟩, fun hlucky ↦ ?_⟩
      exact absurd huser (lucky_pointerQueries hlucky.1).1
    | some user =>
      rw [huser] at hchatRun
      cases hchat : chatAnswer.bind Object.asChat with
      | none =>
        rw [hchat] at hchatRun
        refine ⟨⟨asks_pointerQueries, ?_⟩, fun hlucky ↦ ?_⟩
        · exact asks_of_no_chat hchatRun
        · exact absurd hchat (lucky_pointerQueries hlucky.1).2
      | some chat =>
        rw [hchat] at hchatRun
        obtain ⟨hasks, hreturns⟩ :=
          dutiful_storeMessage msg user chat isEdited isDeleted _ _ _ hchatRun
        exact ⟨⟨asks_pointerQueries, hasks⟩, fun hlucky ↦ hreturns hlucky.2⟩

/-! ## Pages -/

theorem dutiful_trackEventId (eventId : Int) : pageConduct.Dutiful (trackEventId eventId) := by
  apply Conduct.Tame.tryCatch
  · apply Conduct.Tame.bind
    · apply Conduct.Tame.bind (.perform rfl)
      intro answer
      cases (answer : Except String Unit) with
      | error error => exact .throw error
      | ok value => exact .pure value
    · intro _
      apply Conduct.Tame.bind
      · apply Conduct.Tame.bind (.perform rfl)
        intro answer
        cases (answer : Except String (Option Row)) with
        | error error => exact .throw error
        | ok row => exact .pure row
      · exact fun _ ↦ .pure _
  · exact fun _ ↦ .pure _

theorem dutiful_storeEvent (eventId : Int) {store : Scrape Worker Unit}
    (h : messageConduct.Dutiful store) : pageConduct.Dutiful (storeEvent eventId store) := by
  apply (dutiful_executeText rfl).bind
  intro _
  apply (dutiful_trackEventId _).bind
  intro tracked
  apply Conduct.Dutiful.ite
  · exact (dutiful_page h).bind fun _ ↦ dutiful_executeText rfl
  · exact dutiful_executeText rfl

theorem dutiful_processEvent (ev : ChatEvent) : pageConduct.Dutiful (processEvent ev) := by
  unfold processEvent
  split
  · exact dutiful_storeEvent _ (dutiful_processMessage _ _ _)
  · exact dutiful_storeEvent _
      ((dutiful_processMessage _ _ _).bind fun _ ↦ dutiful_processMessage _ _ _)
  · exact .pure _

theorem dutiful_processEvents (i : Nat) (minEvent : Int) (events : List ChatEvent) :
    pageConduct.Dutiful (processEvents i minEvent events) := by
  induction events generalizing i minEvent with
  | nil => exact .pure _
  | cons ev events ih => exact (dutiful_processEvent ev).bind fun _ ↦ ih _ _

theorem dutiful_processChatEventLog (events : List ChatEvent) :
    pageConduct.Dutiful (processChatEventLog events) := dutiful_processEvents _ _ _

end Worker

end Tgvisd.HistoryScraper
