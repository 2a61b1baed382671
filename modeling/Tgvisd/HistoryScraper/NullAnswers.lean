import Tgvisd.HistoryScraper.EventLog
import Tgvisd.Lib.Blame
import Tgvisd.Scrapers.ChatScraper

/-!
# Queries without an answer

`send_query_sync` returns null for an error, for an object of another type and for a timeout.
`gatherChatEventLog` and `resolveFile` look at the pointer before they use it; `processMessage`
and the chat scraper do not. Over all answers of TDLib, of the database and of the file system,
these two dereference null exactly when one of their own queries got no object.
-/

namespace Tgvisd

open TdApi

namespace Scrape

variable {State Value Next : Type} {state : State} {exchanges : List Exchange}

/-- With a timeout the query always returns. -/
theorem runs_sendQuerySync_bind_iff {cast : Object → Option Value} {function : Function}
    {returnId : ObjectId} {timeout : Int32} {next : Option Value → Scrape State Next}
    {ending : Ending State Next} (htimeout : 0 < timeout) :
    (sendQuerySync cast function returnId timeout >>= next).Runs state exchanges ending ↔
      ∃ (answer : Option Object) (back : List Exchange),
        exchanges = ⟨.sendQuerySync function returnId timeout, answer⟩ :: back ∧
          (next ((answer.bind (retVal returnId)).bind cast)).Runs state back ending := by
  unfold sendQuerySync ask
  rw [bind_assoc, Procedure.runs_perform_bind_iff]
  apply exists_congr
  intro answer
  cases (answer : Option Object) with
  | none => simp only [if_pos htimeout, pure_bind, Option.bind_none]
  | some object => simp only [pure_bind, Option.bind_some]

end Scrape

namespace HistoryScraper

/-- A query of `processMessage` that got no object of its type. -/
def refused : Exchange → Bool
  | ⟨.sendQuerySync (.getUser _) _ _, answer⟩ =>
    ((answer : Option Object).bind Object.asUser).isNone
  | ⟨.sendQuerySync (.getChat _) _ _, answer⟩ =>
    ((answer : Option Object).bind Object.asChat).isNone
  | _ => false

def isError {Value : Type} : Except String Value → Bool
  | .ok _ => false
  | .error _ => true

/-- A database operation that throws. -/
def failed : Exchange → Bool
  | ⟨.connect _ _ _ _ _, answer⟩ => isError (answer : Except String Unit)
  | ⟨.prepare _, answer⟩ => isError (answer : Except String Unit)
  | ⟨.execute _ _, answer⟩ => isError (answer : Except String (Option Row))
  | _ => false

def blame : Blame Request.Answer Halt where
  blamed exchange := refused exchange = true
  failed exchange := failed exchange = true
  fault := .nullDereference

/-! ## Single requests -/

open Scrape

section

variable {State Value : Type}

theorem safe_ask {request : Request} (h : ∀ answer, refused ⟨request, answer⟩ = false) :
    blame.Safe (ask request : Scrape State request.Answer) :=
  Blame.Safe.perform fun answer ↦ by simp [blame, h answer]

/-- The database's error is thrown right after the exchange. -/
theorem safe_ask_orThrow (request : Request) (outcome : request.Answer → Except String Value)
    (h : ∀ answer, refused ⟨request, answer⟩ = false ∧
      failed ⟨request, answer⟩ = isError (outcome answer)) :
    blame.Safe (ask request >>= fun answer ↦ orThrow (outcome answer) : Scrape State Value) := by
  intro state exchanges ending hrun
  obtain ⟨answer, back, rfl, hback⟩ := Procedure.runs_perform_bind_iff.mp hrun
  obtain ⟨hrefused, hfailed⟩ := h answer
  have hspares : blame.Spares [⟨request, answer⟩] := by
    apply Blame.spares_singleton.mpr
    simp [blame, hrefused]
  cases houtcome : outcome answer with
  | error error =>
    rw [houtcome] at hback hfailed
    obtain ⟨rfl, rfl⟩ := Procedure.runs_throw_iff.mp hback
    exact ⟨hspares, endsIn_singleton.mpr hfailed⟩
  | ok value =>
    rw [houtcome] at hback
    obtain ⟨rfl, rfl⟩ := Procedure.runs_pure_iff.mp hback
    exact ⟨hspares, trivial⟩

theorem safe_prepare (sql : Sql) : blame.Safe (prepare sql : Scrape State Unit) :=
  safe_ask_orThrow (.prepare sql) id fun _ ↦ ⟨rfl, rfl⟩

theorem safe_execute (sql : Sql) (parameters : List Parameter) :
    blame.Safe (execute sql parameters : Scrape State (Option Row)) :=
  safe_ask_orThrow (.execute sql parameters) id fun _ ↦ ⟨rfl, rfl⟩

theorem lands_execute (sql : Sql) (parameters : List Parameter) :
    blame.Lands (execute sql parameters : Scrape State (Option Row)) := by
  intro state exchanges row after hrun
  obtain ⟨answer, back, rfl, hback⟩ := Procedure.runs_perform_bind_iff.mp hrun
  cases (answer : Except String (Option Row)) with
  | error error =>
    obtain ⟨-, hending⟩ := Procedure.runs_throw_iff.mp hback
    simp at hending
  | ok found =>
    obtain ⟨rfl, -⟩ := Procedure.runs_pure_iff.mp hback
    simp [blame, failed, isError]

theorem safe_onlyIf {condition : Bool} {action : Scrape State Unit} (h : blame.Safe action) :
    blame.Safe (onlyIf condition action) :=
  .ite h (.pure _)

theorem safe_executeText (sql : Sql) : blame.Safe (executeText sql : Scrape State Unit) :=
  (safe_prepare sql).bind fun _ ↦ (safe_execute sql []).bind fun _ ↦ .pure _

/-- The other queries may fail in any way. -/
theorem exact_sendQuerySync {cast : Object → Option Value} {function : Function}
    {returnId : ObjectId} {timeout : Int32}
    (h : ∀ answer, refused ⟨.sendQuerySync function returnId timeout, answer⟩ = false) :
    blame.Exact (sendQuerySync cast function returnId timeout : Scrape State (Option Value)) := by
  apply (safe_ask h).exact.bind
  intro answer
  cases (answer : Option Object) with
  | some object => exact (Blame.Safe.pure _).exact
  | none => exact .ite (Blame.Safe.pure _).exact (.stop (by simp [blame]))

theorem safe_sendQuerySync {cast : Object → Option Value} {function : Function}
    {returnId : ObjectId} {timeout : Int32} (htimeout : 0 < timeout)
    (h : ∀ answer, refused ⟨.sendQuerySync function returnId timeout, answer⟩ = false) :
    blame.Safe (sendQuerySync cast function returnId timeout : Scrape State (Option Value)) := by
  apply (safe_ask h).bind
  intro answer
  cases (answer : Option Object) with
  | some object => exact .pure _
  | none =>
    simp only [if_pos htimeout]
    exact .pure _

end

namespace Worker

/-! ## Rows -/

theorem safe_getDateNow : blame.Safe getDateNow :=
  (safe_ask fun _ ↦ rfl).bind fun _ ↦ .pure _

theorem safe_lastInsertId : blame.Safe lastInsertId := by
  apply (safe_prepare _).bind
  intro _
  apply (safe_execute _ _).bind
  rintro (_ | row)
  · exact .pure _
  · exact .pure _

theorem lands_lastInsertId : blame.Lands lastInsertId := by
  apply Blame.Lands.after
  intro _
  apply (lands_execute _ _).bind
  rintro (_ | row)
  · exact .pure _
  · exact .pure _

/-- The exception of a failed insertion is handled. -/
theorem safe_insertRow (insert : Sql) (parameters : String → List Parameter) :
    blame.Safe (insertRow insert parameters) := by
  apply (safe_prepare _).bind
  intro _
  apply Blame.Safe.bind
  · apply Blame.Safe.tryCatch
    · exact safe_getDateNow.bind fun _ ↦ (safe_execute _ _).bind fun _ ↦ .pure _
    · exact fun _ ↦ .pure _
  · intro inserted
    exact .ite safe_lastInsertId (.pure _)

/-- A new id is the last thing that was read. -/
theorem clean_insertRow {insert : Sql}
    {parameters : String → List Parameter} {before after : Worker}
    {exchanges : List Exchange} {ret : UInt64}
    (hrun : (insertRow insert parameters).Runs before exchanges (.returned ret after))
    (hret : ret ≠ 0) : ¬ EndsIn blame.failed exchanges := by
  obtain ⟨_, back, -, _, rfl, -, hrun⟩ := Procedure.runs_bind_returned hrun
  obtain ⟨_, back, inserted, _, rfl, -, hrun⟩ := Procedure.runs_bind_returned hrun
  cases inserted with
  | false =>
    obtain ⟨-, hending⟩ := Procedure.runs_pure_iff.mp hrun
    exact absurd (Procedure.Ending.returned.inj hending).1 hret
  | true =>
    obtain ⟨hne, hfailed⟩ := lands_lastInsertId _ _ _ _ hrun
    rw [endsIn_append (by simp [hne]), endsIn_append hne]
    exact hfailed

theorem safe_fetchRow (select : Sql) (parameters : List Parameter) :
    blame.Safe (fetchRow select parameters) := by
  apply (safe_prepare _).bind
  intro _
  apply (safe_execute _ _).bind
  rintro (_ | row)
  · exact .pure _
  · exact .pure _

theorem lands_fetchRow (select : Sql) (parameters : List Parameter) :
    blame.Lands (fetchRow select parameters) := by
  apply Blame.Lands.after
  intro _
  apply (lands_execute _ _).bind
  rintro (_ | row)
  · exact .pure _
  · exact .pure _

theorem safe_keepUser (user : User) (ret : UInt64) : blame.Safe (keepUser user ret) :=
  Blame.Safe.get.bind fun _ ↦ (Blame.Safe.set _).bind fun _ ↦ .pure _

theorem clean_keepUser (user : User) (ret : UInt64) : blame.Clean (keepUser user ret) :=
  Blame.Clean.get.bind fun _ ↦ (Blame.Clean.set _).bind fun _ ↦ .pure _

theorem safe_keepGroup (chat : Chat) (ret : UInt64) : blame.Safe (keepGroup chat ret) :=
  Blame.Safe.get.bind fun _ ↦ (Blame.Safe.set _).bind fun _ ↦ .pure _

theorem safe_resolveRow {Value : Type} {insert fetch : Scrape Worker UInt64}
    {keep : UInt64 → Scrape Worker Value} {asIs : Value} (hinsert : blame.Safe insert)
    (hfetch : blame.Safe fetch) (hkeep : ∀ ret, blame.Safe (keep ret)) :
    blame.Safe (resolveRow insert fetch keep asIs) := by
  apply hinsert.bind
  intro inserted
  apply Blame.Safe.ite (hkeep inserted)
  apply hfetch.bind
  intro fetched
  exact .ite (hkeep fetched) (.pure _)

theorem clean_resolveRow {Value : Type} {insert : Sql} {parameters : String → List Parameter}
    {fetch : Scrape Worker UInt64} {keep : UInt64 → Scrape Worker Value} {asIs : Value}
    (hfetch : blame.Lands fetch) (hkeep : ∀ ret, blame.Clean (keep ret)) :
    blame.Clean (resolveRow (insertRow insert parameters) fetch keep asIs) := by
  intro before exchanges value after hrun
  obtain ⟨front, back, inserted, _, rfl, hfront, hback⟩ := Procedure.runs_bind_returned hrun
  by_cases hinserted : inserted = 0
  · rw [if_neg (by simpa using hinserted)] at hback
    have hlands : blame.Lands (do
        let fetched ← fetch
        if fetched ≠ 0 then keep fetched else pure asIs) :=
      hfetch.bind fun fetched ↦ .ite (hkeep fetched) (.pure _)
    obtain ⟨hne, hfailed⟩ := hlands _ _ _ _ hback
    rwa [endsIn_append hne]
  · rw [if_pos hinserted] at hback
    by_cases hne : back = []
    · rw [hne, List.append_nil]
      exact clean_insertRow hfront hinserted
    · rw [endsIn_append hne]
      exact hkeep inserted _ _ _ _ hback

theorem safe_resolveUser (user : User) : blame.Safe (resolveUser user) := by
  apply Blame.Safe.get.bind
  intro worker
  split
  · exact .pure _
  · exact safe_resolveRow (safe_insertRow _ _) (safe_fetchRow _ _) (safe_keepUser user)

theorem clean_resolveUser (user : User) : blame.Clean (resolveUser user) := by
  apply Blame.Clean.get.bind
  intro worker
  split
  · exact .pure _
  · exact clean_resolveRow (lands_fetchRow _ _) (clean_keepUser user)

theorem safe_resolveGroup (chat : Chat) : blame.Safe (resolveGroup chat) := by
  apply Blame.Safe.get.bind
  intro worker
  split
  · exact .pure _
  · exact safe_resolveRow (safe_insertRow _ _) (safe_fetchRow _ _) (safe_keepGroup chat)

/-! ## Messages -/

theorem safe_downloadFile (fileId : Int) : blame.Safe (downloadFile fileId) :=
  safe_sendQuerySync (by decide) fun _ ↦ rfl

theorem safe_storeFile (file downloaded : File) (md5Buf sha1Buf : List UInt8) :
    blame.Safe (storeFile file downloaded md5Buf sha1Buf) := by
  apply (safe_ask fun _ ↦ rfl).bind
  intro _
  apply (safe_ask fun _ ↦ rfl).bind
  intro _
  apply Blame.Safe.tryCatch_throw
  apply safe_getDateNow.bind
  intro _
  apply (safe_prepare _).bind
  intro _
  apply (safe_execute _ _).bind
  intro _
  exact safe_lastInsertId

/-- Every failure to get the file or its digests is a result of 0. -/
theorem safe_resolveFile (file : File) : blame.Safe (resolveFile file) := by
  apply (safe_downloadFile _).bind
  rintro (_ | downloaded)
  · exact .pure _
  · apply Blame.Safe.ite (.pure _)
    apply (safe_ask fun _ ↦ rfl).bind
    rintro (_ | md5Buf)
    · exact .pure _
    · apply (safe_ask fun _ ↦ rfl).bind
      rintro (_ | sha1Buf)
      · exact .pure _
      · exact safe_storeFile _ _ _ _

theorem safe_insertMsgDataText (dbMsgId : UInt64) (msg : Message) (text : FormattedText)
    (isEdited : Bool) : blame.Safe (insertMsgDataText dbMsgId msg text isEdited) :=
  (safe_prepare _).bind fun _ ↦ safe_getDateNow.bind fun _ ↦
    (safe_execute _ _).bind fun _ ↦ .pure _

theorem safe_insertMsgDataFile (dbMsgId : UInt64) (msg : Message) (text : String)
    (textEntities : Parameter) (file : File) (isEdited : Bool) :
    blame.Safe (insertMsgDataFile dbMsgId msg text textEntities file isEdited) :=
  (safe_resolveFile file).bind fun _ ↦ (safe_prepare _).bind fun _ ↦
    safe_getDateNow.bind fun _ ↦ (safe_execute _ _).bind fun _ ↦ .pure _

theorem safe_insertMsgData (dbMsgId : UInt64) (msg : Message) (isEdited : Bool) :
    blame.Safe (insertMsgData dbMsgId msg isEdited) := by
  unfold insertMsgData
  split
  · exact safe_insertMsgDataText _ _ _ _
  · unfold insertMsgDataPhoto
    split
    · exact .pure _
    · exact safe_insertMsgDataFile _ _ _ _ _ _
  · exact safe_insertMsgDataFile _ _ _ _ _ _
  · exact safe_insertMsgDataFile _ _ _ _ _ _
  · exact safe_insertMsgDataFile _ _ _ _ _ _
  · exact safe_insertMsgDataFile _ _ _ _ _ _
  · exact safe_insertMsgDataFile _ _ _ _ _ _
  · exact .pure _
  · exact .pure _

theorem safe_executeForward (dbMsgId : UInt64) (fwd : MessageForwardInfo) (origType : String)
    (origId : Parameter) (origText : String) :
    blame.Safe (executeForward dbMsgId fwd origType origId origText) :=
  (safe_execute _ _).bind fun _ ↦ .pure _

theorem safe_saveForwardInfo (dbMsgId : UInt64) (fwd : MessageForwardInfo) :
    blame.Safe (saveForwardInfo dbMsgId fwd) := by
  unfold saveForwardInfo
  split
  · exact (safe_prepare _).bind fun _ ↦ safe_executeForward _ _ _ _ _
  · exact (safe_prepare _).bind fun _ ↦ safe_executeForward _ _ _ _ _
  · exact (safe_prepare _).bind fun _ ↦ .tryCatch_throw (safe_executeForward _ _ _ _ _)
  · exact (safe_prepare _).bind fun _ ↦ safe_executeForward _ _ _ _ _
  · exact .pure _

theorem safe_saveForwardInfoIfAny (dbMsgId : UInt64) (msg : Message) :
    blame.Safe (saveForwardInfoIfAny dbMsgId msg) := by
  unfold saveForwardInfoIfAny
  split
  · exact safe_saveForwardInfo _ _
  · exact .pure _

theorem safe_updateMessage (sql : Sql) (dbMsgId dbGroupId : UInt64) :
    blame.Safe (updateMessage sql dbMsgId dbGroupId) :=
  safe_getDateNow.bind fun _ ↦ (safe_prepare _).bind fun _ ↦
    (safe_execute _ _).bind fun _ ↦ .pure _

theorem safe_getDBMsgIdIfExists (tgMsgId chatId : UInt64) :
    blame.Safe (getDBMsgIdIfExists tgMsgId chatId) := by
  apply (safe_prepare _).bind
  intro _
  apply (safe_execute _ _).bind
  rintro (_ | row)
  · exact .pure _
  · exact .pure _

theorem safe_insertMessage (msg : Message) (msgType : String) (dbUserId dbGroupId : UInt64)
    (isEdited isDeleted : Bool) :
    blame.Safe (insertMessage msg msgType dbUserId dbGroupId isEdited isDeleted) := by
  apply safe_getDateNow.bind
  intro _
  apply (safe_prepare _).bind
  intro _
  apply (safe_execute _ _).bind
  intro _
  apply safe_lastInsertId.bind
  intro dbMsgId
  apply (safe_saveForwardInfoIfAny _ _).bind
  intro _
  exact (safe_insertMsgData _ _ _).bind fun _ ↦ .pure _

theorem safe_editMessage (msg : Message) (dbMsgId dbGroupId : UInt64)
    (hasEditedMsg isEdited : Bool) :
    blame.Safe (editMessage msg dbMsgId dbGroupId hasEditedMsg isEdited) := by
  apply (safe_onlyIf (safe_updateMessage _ _ _)).bind
  intro _
  exact (safe_onlyIf (safe_insertMsgData _ _ _)).bind fun _ ↦ .pure _

theorem safe_resolveMessage (msg : Message) (dbUserId dbGroupId : UInt64)
    (isEdited isDeleted : Bool) :
    blame.Safe (resolveMessage msg dbUserId dbGroupId isEdited isDeleted) := by
  unfold resolveMessage
  split
  · exact .pure _
  · apply (safe_getDBMsgIdIfExists _ _).bind
    intro found
    apply Blame.Safe.bind
    · exact .ite (safe_editMessage _ _ _ _ _) (safe_insertMessage _ _ _ _ _ _)
    · intro dbMsgId
      exact safe_onlyIf (safe_updateMessage _ _ _)

/-! ## The pointers of `processMessage` -/

theorem userPointer_eq (answer : Option Object) :
    (answer.bind (retVal .user)).bind Object.asUser = answer.bind Object.asUser := by
  cases answer with
  | none => rfl
  | some object => cases object <;> rfl

theorem chatPointer_eq (answer : Option Object) :
    (answer.bind (retVal .chat)).bind Object.asChat = answer.bind Object.asChat := by
  cases answer with
  | none => rfl
  | some object => cases object <;> rfl

/-- The exchanges that both pointers come from. -/
def pointerQueries (userId chatId : Int) (userAnswer chatAnswer : Option Object) : List Exchange :=
  [⟨.sendQuerySync (.getUser userId) .user 30, userAnswer⟩,
    ⟨.sendQuerySync (.getChat chatId) .chat 30, chatAnswer⟩]

section

variable {userId chatId : Int} {userAnswer chatAnswer : Option Object}

theorem spares_pointerQueries_iff :
    blame.Spares (pointerQueries userId chatId userAnswer chatAnswer) ↔
      userAnswer.bind Object.asUser ≠ none ∧ chatAnswer.bind Object.asChat ≠ none := by
  rw [Option.ne_none_iff_isSome, Option.ne_none_iff_isSome]
  simp [Blame.Spares, pointerQueries, blame, refused]

theorem not_endsIn_pointerQueries :
    ¬ EndsIn blame.failed (pointerQueries userId chatId userAnswer chatAnswer) := by
  simp [EndsIn, pointerQueries, blame, failed]

end

/-- The user's row may be resolved before the chat's null pointer is reached, and resolving it may
throw. -/
theorem settles_of_no_chat {user : User} {next : UInt64 × User → Chat → Scrape Worker Unit}
    {before : Worker} {front back : List Exchange} {ending : Ending Worker Unit}
    (hrun : (resolveUser user >>= fun resolved ↦ dereference none >>= next resolved).Runs before
      back ending)
    (hblamed : ¬ blame.Spares front) (hfailed : ¬ EndsIn blame.failed front) :
    blame.Settles (front ++ back) ending := by
  obtain ⟨reason, hresolve, rfl⟩ | ⟨error, after, hresolve, rfl⟩ |
    ⟨resolving, stopping, resolved, middle, rfl, hresolve, hstop⟩ := Procedure.runs_bind_iff.mp hrun
  · exact absurd (safe_resolveUser user _ _ _ hresolve).2 not_false
  · have hraised : EndsIn blame.failed back := (safe_resolveUser user _ _ _ hresolve).2
    exact EndsIn.append hraised
  · obtain ⟨rfl, rfl⟩ := Procedure.runs_stop_bind_iff.mp hstop
    rw [List.append_nil]
    refine ⟨fun _ ↦ ⟨?_, ?_⟩, fun hreason ↦ absurd rfl hreason⟩
    · exact fun hspares ↦ hblamed (Blame.spares_append.mp hspares).1
    · by_cases hne : resolving = []
      · rw [hne, List.append_nil]
        exact hfailed
      · rw [endsIn_append hne]
        exact clean_resolveUser user _ _ _ _ hresolve

/-- What `processMessage` does once it has both objects. -/
theorem safe_storeMessage (msg : Message) (user : User) (chat : Chat) (isEdited isDeleted : Bool) :
    blame.Safe (do
      let resolvedUser ← resolveUser user
      let resolvedGroup ← resolveGroup chat
      resolveMessage msg resolvedUser.1 resolvedGroup.1 isEdited isDeleted) := by
  apply (safe_resolveUser user).bind
  intro resolvedUser
  apply (safe_resolveGroup chat).bind
  intro resolvedGroup
  exact safe_resolveMessage _ _ _ _ _

theorem exact_processMessage (msg : Message) (isEdited isDeleted : Bool) :
    blame.Exact (processMessage msg isEdited isDeleted) := by
  unfold processMessage
  split
  · exact (Blame.Safe.pure _).exact
  · rename_i userId _
    intro before exchanges ending hrun
    obtain ⟨userAnswer, rest, rfl, huserRun⟩ :=
      (runs_sendQuerySync_bind_iff (by decide)).mp hrun
    obtain ⟨chatAnswer, back, rfl, hchatRun⟩ :=
      (runs_sendQuerySync_bind_iff (by decide)).mp huserRun
    rw [userPointer_eq, chatPointer_eq] at hchatRun
    change blame.Settles (pointerQueries userId msg.chatId userAnswer chatAnswer ++ back) ending
    cases huser : userAnswer.bind Object.asUser with
    | none =>
      rw [huser] at hchatRun
      obtain ⟨rfl, rfl⟩ := Procedure.runs_stop_bind_iff.mp hchatRun
      rw [List.append_nil]
      have hblamed : ¬ blame.Spares
          (pointerQueries userId msg.chatId userAnswer chatAnswer) := by
        simp [spares_pointerQueries_iff, huser]
      exact ⟨fun _ ↦ ⟨hblamed, not_endsIn_pointerQueries⟩, fun hreason ↦ absurd rfl hreason⟩
    | some user =>
      rw [huser] at hchatRun
      cases hchat : chatAnswer.bind Object.asChat with
      | none =>
        rw [hchat] at hchatRun
        apply settles_of_no_chat hchatRun
        · simp [spares_pointerQueries_iff, hchat]
        · exact not_endsIn_pointerQueries
      | some chat =>
        rw [hchat] at hchatRun
        apply Blame.Settles.append
        · simp [spares_pointerQueries_iff, huser, hchat]
        · exact (safe_storeMessage msg user chat isEdited isDeleted).exact _ _ _ hchatRun

/-! ## The event log -/

/-- Any exception of the insertion is handled. -/
theorem safe_trackEventId (eventId : Int) : blame.Safe (trackEventId eventId) := by
  apply Blame.Safe.tryCatch
  · exact (safe_prepare _).bind fun _ ↦ (safe_execute _ _).bind fun _ ↦ .pure _
  · exact fun _ ↦ .pure _

theorem exact_storeEvent (eventId : Int) {store : Scrape Worker Unit} (h : blame.Exact store) :
    blame.Exact (storeEvent eventId store) := by
  apply (safe_executeText _).exact.bind
  intro _
  apply (safe_trackEventId _).exact.bind
  intro tracked
  apply Blame.Exact.ite
  · exact h.bind fun _ ↦ (safe_executeText _).exact
  · exact (safe_executeText _).exact

theorem exact_processEvent (ev : ChatEvent) : blame.Exact (processEvent ev) := by
  unfold processEvent
  split
  · exact exact_storeEvent _ (exact_processMessage _ _ _)
  · exact exact_storeEvent _
      ((exact_processMessage _ _ _).bind fun _ ↦ exact_processMessage _ _ _)
  · exact (Blame.Safe.pure _).exact

theorem exact_processEvents (i : Nat) (minEvent : Int) (events : List ChatEvent) :
    blame.Exact (processEvents i minEvent events) := by
  induction events generalizing i minEvent with
  | nil => exact (Blame.Safe.pure _).exact
  | cons ev events ih => exact (exact_processEvent ev).bind fun _ ↦ ih _ _

theorem safe_getChatEventLog (chatId fromEventId : Int) :
    blame.Safe (getChatEventLog chatId fromEventId) :=
  safe_sendQuerySync (by decide) fun _ ↦ rfl

/-- A page that TDLib does not deliver ends the loop. -/
theorem exact_gatherFrom (chatId : Int) (rounds : Nat) (minEv : Int) :
    blame.Exact (gatherFrom chatId rounds minEv) := by
  induction rounds generalizing minEv with
  | zero =>
    unfold gatherFrom
    exact .ite (Blame.Safe.pure _).exact (.stop (by simp [blame]))
  | succ rounds ih =>
    unfold gatherFrom
    apply Blame.Exact.ite (Blame.Safe.pure _).exact
    apply (safe_getChatEventLog _ _).exact.bind
    rintro (_ | events)
    · exact (Blame.Safe.pure _).exact
    · exact (exact_processEvents _ _ _).bind fun next ↦ ih next

theorem exact_requireEnv (name : String) : blame.Exact (requireEnv name) := by
  apply (safe_ask fun _ ↦ rfl).exact.bind
  rintro (_ | value)
  · exact .stop (by simp [blame])
  · exact (Blame.Safe.pure _).exact

theorem exact_getChats : blame.Exact getChats := exact_sendQuerySync fun _ ↦ rfl

theorem safe_createDB (dbhost dbuser dbpass dbname : String) :
    blame.Safe (createDB dbhost dbuser dbpass dbname) :=
  safe_ask_orThrow (.connect _ _ _ _ _) id fun _ ↦ ⟨rfl, rfl⟩

theorem exact_run (rounds : Nat) : blame.Exact (run rounds) := by
  apply (exact_requireEnv _).bind
  intro _
  apply (exact_requireEnv _).bind
  intro _
  apply (exact_requireEnv _).bind
  intro _
  apply (exact_requireEnv _).bind
  intro _
  apply (safe_ask fun _ ↦ rfl).exact.bind
  intro _
  apply exact_getChats.bind
  intro _
  apply (safe_ask fun _ ↦ rfl).exact.bind
  intro _
  apply (safe_createDB _ _ _ _).exact.bind
  intro _
  exact exact_gatherFrom _ _ _

end Worker

end HistoryScraper

/-! ## Both scrapers -/

/-- The callers of `send_query_sync`; the event log loop of the history scraper is followed for a
number of rounds. -/
inductive SyncCaller
  | chatScraper
  | historyScraper (rounds : Nat)

namespace SyncCaller

abbrev State : SyncCaller → Type
  | chatScraper => Unit
  | historyScraper _ => HistoryScraper.Worker

def run : (caller : SyncCaller) → Scrape caller.State Unit
  | chatScraper => ChatScraper.run
  | historyScraper rounds => HistoryScraper.Worker.run rounds

def start : (caller : SyncCaller) → caller.State
  | chatScraper => ()
  | historyScraper _ => {}

/-- No query whose pointer is used without a test has failed. In the history scraper a database
error may end the run before the pointer is used. -/
def Answered : SyncCaller → List Exchange → Prop
  | chatScraper, exchanges => ∀ exchange ∈ exchanges, ChatScraper.refused exchange = false
  | historyScraper _, exchanges =>
    (∀ exchange ∈ exchanges, HistoryScraper.refused exchange = false) ∨
      EndsIn (fun exchange ↦ HistoryScraper.failed exchange = true) exchanges

/-- Over all answers, a null pointer is dereferenced exactly if one of these queries failed. -/
theorem not_nullDereference_iff_answered (caller : SyncCaller) (exchanges : List Exchange)
    (ending : Scrape.Ending caller.State Unit)
    (hrun : caller.run.Runs caller.start exchanges ending) :
    ending ≠ .halted .nullDereference ↔ caller.Answered exchanges := by
  cases caller with
  | chatScraper => exact ChatScraper.halted_iff hrun
  | historyScraper rounds =>
    have hiff := (HistoryScraper.Worker.exact_run rounds).halted_iff hrun
    simpa only [Answered, Blame.Spares, HistoryScraper.blame, Bool.not_eq_true] using hiff

/-- Three chats are printed. -/
theorem not_nullDereference_of_three_chats :
    (ChatScraper.endingOn (some (.chats 3 [11, 12, 13])) : Scrape.Ending Unit Unit) ≠
      .halted .nullDereference := by
  apply (not_nullDereference_iff_answered .chatScraper
    [⟨ChatScraper.query, some (.chats 3 [11, 12, 13])⟩] _ ?_).mpr
  · simp [Answered, ChatScraper.refused, ChatScraper.query, Object.asChats]
  · exact ChatScraper.runs_run_iff.mpr ⟨_, rfl, rfl⟩

/-- No run of the caller dereferences a null pointer. -/
def NeverNull (caller : SyncCaller) : Prop :=
  ∀ exchanges ending, caller.run.Runs caller.start exchanges ending →
    ending ≠ .halted .nullDereference

/-- TDLib answers the chat scraper with an error. -/
def refusedChats : List Exchange :=
  [⟨ChatScraper.query, some (.error 429 "Too Many Requests: retry after 5")⟩]

/-- The first page holds one deleted message, whose sender TDLib does not deliver in time. -/
def lateUser : List Exchange :=
  [⟨.getenv "DB_HOST", some "localhost"⟩, ⟨.getenv "DB_USER", some "tgvisd"⟩,
    ⟨.getenv "DB_PASS", some "secret"⟩, ⟨.getenv "DB_NAME", some "tgvisd"⟩,
    ⟨.sleep 2, ()⟩,
    ⟨.sendQuerySync (.getChats 9223372036854775807 0 100) .chats (-1),
      some (.chats 1 [-1001483770714])⟩,
    ⟨.sleep 2, ()⟩,
    ⟨.connect "localhost" 33060 "tgvisd" "secret" "tgvisd", .ok ()⟩,
    ⟨.sendQuerySync (.getChatEventLog (-1001483770714) "" 0 100) .chatEvents 30,
      some (.chatEvents [⟨17, .chatEventMessageDeleted
        { id := 5242880, sender := .messageSenderUser 7, chatId := -1001483770714
          content := .messageText { text := "hello" } }⟩])⟩,
    ⟨.prepare .startTransaction, .ok ()⟩, ⟨.execute .startTransaction [], .ok none⟩,
    ⟨.prepare .insertTrackEventId, .ok ()⟩,
    ⟨.execute .insertTrackEventId [.uint 17], .ok none⟩,
    ⟨.sendQuerySync (.getUser 7) .user 30, none⟩,
    ⟨.sendQuerySync (.getChat (-1001483770714)) .chat 30,
      some (.chat { id := -1001483770714, title := "GNU/Weeb" })⟩]

theorem not_neverNull_after_error_and_timeout :
    ¬ NeverNull .chatScraper ∧ ¬ NeverNull (.historyScraper 1) := by
  constructor
  · intro h
    apply h refusedChats (.halted .nullDereference)
    · exact ChatScraper.runs_run_iff.mpr ⟨_, rfl, rfl⟩
    · rfl
  · intro h
    apply h lateUser (.halted .nullDereference)
    · unfold lateUser
      change Interaction.Runs _ _ _
      repeat apply Interaction.Runs.ask
      exact .halt _
    · rfl

end SyncCaller

end Tgvisd
