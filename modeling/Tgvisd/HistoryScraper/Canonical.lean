import Tgvisd.HistoryScraper.Store

/-!
# Statements on stores

What the constraints keep true of the tables, and what each statement means for the store that
they stand for.
-/

namespace Tgvisd.HistoryScraper

open TdApi

namespace Tables

/-- Numbers and Telegram ids are keys, and references lead to rows. -/
structure Valid (tables : Tables) : Prop where
  users : NumberedTable.Sound tables.users
  groups : NumberedTable.Sound tables.groups
  messages : NumberedTable.Sound tables.messages
  files : NumberedTable.Sound tables.files
  usersUnique : ((NumberedTable.rows tables.users).map GwUser.tgUserId).Nodup
  groupsUnique : ((NumberedTable.rows tables.groups).map GwGroup.tgGroupId).Nodup
  messageRefs : ∀ row ∈ NumberedTable.rows tables.messages,
    row.groupId ∈ NumberedTable.numbers tables.groups ∧
      row.userId ∈ NumberedTable.numbers tables.users
  dataRefs : ∀ row ∈ NumberedTable.rows tables.data,
    row.msgId ∈ NumberedTable.numbers tables.messages ∧
      ∀ file ∈ row.file, file ∈ NumberedTable.numbers tables.files
  forwardRefs : ∀ row ∈ tables.forwards, row.msgId ∈ NumberedTable.numbers tables.messages

theorem valid_empty : ({} : Tables).Valid := by
  constructor <;> first | exact NumberedTable.sound_nil | simp [NumberedTable.rows]

/-- Users and groups keep their numbers. -/
structure Extends (before after : Tables) : Prop where
  users : ∀ userId tgUserId, before.tgUserIdOf userId = some tgUserId →
    after.tgUserIdOf userId = some tgUserId
  groups : ∀ groupId tgGroupId, before.tgGroupIdOf groupId = some tgGroupId →
    after.tgGroupIdOf groupId = some tgGroupId

variable {before middle after tables : Tables} {number : UInt64} {store : Store}

theorem Extends.refl (tables : Tables) : tables.Extends tables :=
  ⟨fun _ _ h ↦ h, fun _ _ h ↦ h⟩

theorem Extends.trans (hfirst : before.Extends middle) (hsecond : middle.Extends after) :
    before.Extends after :=
  ⟨fun userId tgUserId h ↦ hsecond.users userId tgUserId (hfirst.users userId tgUserId h),
    fun groupId tgGroupId h ↦ hsecond.groups groupId tgGroupId (hfirst.groups groupId tgGroupId h)⟩

theorem Extends.of_eq (husers : after.users = before.users)
    (hgroups : after.groups = before.groups) : before.Extends after := by
  constructor
  · intro userId tgUserId h
    simpa only [tgUserIdOf, husers] using h
  · intro groupId tgGroupId h
    simpa only [tgGroupIdOf, hgroups] using h

/-- What a statement does to the tables, on the level of stores. -/
structure Becomes (before after : Tables) (store : Store) : Prop where
  valid : after.Valid
  canonical : after.canonical = store
  «extends» : before.Extends after

/-! ## Events and users -/

theorem Valid.insertTrackEventId (h : tables.Valid) {eventId : UInt64}
    (hinsert : tables.insertTrackEventId eventId = some after) :
    tables.Becomes after { tables.canonical with tracked := tables.tracked ++ [eventId] } ∧
      eventId ∉ tables.tracked := by
  unfold Tables.insertTrackEventId at hinsert
  split at hinsert
  · simp at hinsert
  · next hnew =>
    obtain rfl := Option.some.inj hinsert
    refine ⟨⟨?_, rfl, .of_eq rfl rfl⟩, hnew⟩
    exact ⟨h.users, h.groups, h.messages, h.files, h.usersUnique, h.groupsUnique, h.messageRefs,
      h.dataRefs, h.forwardRefs⟩

theorem nodup_append_singleton {Value : Type} {values : List Value} {value : Value}
    (hnodup : values.Nodup) (hnew : value ∉ values) : (values ++ [value]).Nodup := by
  rw [List.nodup_append]
  refine ⟨hnodup, List.nodup_singleton value, ?_⟩
  intro other hother new hmem heq
  rw [List.mem_singleton] at hmem
  exact hnew (by rwa [← hmem, ← heq])

theorem tgUserIdOf_insert_of_mem {user : GwUser} {userId : UInt64}
    (hmem : userId ∈ NumberedTable.numbers tables.users) :
    Tables.tgUserIdOf { tables with users := .insert number user tables.users } userId =
      tables.tgUserIdOf userId := by
  simp only [tgUserIdOf, NumberedTable.rowAt_insert_of_mem hmem]

theorem tgGroupIdOf_insert_of_mem {group : GwGroup} {groupId : UInt64}
    (hmem : groupId ∈ NumberedTable.numbers tables.groups) :
    Tables.tgGroupIdOf { tables with groups := .insert number group tables.groups } groupId =
      tables.tgGroupIdOf groupId := by
  simp only [tgGroupIdOf, NumberedTable.rowAt_insert_of_mem hmem]

theorem mem_numbers_of_tgUserIdOf {userId tgUserId : UInt64}
    (h : tables.tgUserIdOf userId = some tgUserId) :
    userId ∈ NumberedTable.numbers tables.users := by
  obtain ⟨row, hrow, -⟩ := Option.map_eq_some_iff.mp h
  exact NumberedTable.mem_numbers_of_rowAt hrow

theorem mem_numbers_of_tgGroupIdOf {groupId : UInt64} {tgGroupId : Int64}
    (h : tables.tgGroupIdOf groupId = some tgGroupId) :
    groupId ∈ NumberedTable.numbers tables.groups := by
  obtain ⟨row, hrow, -⟩ := Option.map_eq_some_iff.mp h
  exact NumberedTable.mem_numbers_of_rowAt hrow

/-- The new user is not referred to yet. -/
theorem Valid.insertUser (h : tables.Valid) {user : GwUser}
    (hnumber : NumberedTable.Available number tables.users)
    (hinsert : tables.insertUser number user = some after) :
    tables.Becomes after { tables.canonical with users := tables.canonical.users ++ [user] } ∧
      after.tgUserIdOf number = some user.tgUserId := by
  unfold Tables.insertUser at hinsert
  split at hinsert
  · simp at hinsert
  · next hnew =>
    obtain rfl := Option.some.inj hinsert
    refine ⟨⟨?_, ?_, ?_⟩, ?_⟩
    · refine ⟨h.users.insert hnumber, h.groups, h.messages, h.files, ?_, h.groupsUnique, ?_,
        h.dataRefs, h.forwardRefs⟩
      · rw [NumberedTable.rows_insert, List.map_append]
        apply nodup_append_singleton h.usersUnique
        intro hmem
        obtain ⟨row, hrow, heq⟩ := List.mem_map.mp hmem
        obtain ⟨entry, hentry, rfl⟩ := List.mem_map.mp hrow
        exact hnew ⟨entry, hentry, heq⟩
      · intro row hrow
        obtain ⟨hgroup, huser⟩ := h.messageRefs row hrow
        exact ⟨hgroup, by rw [NumberedTable.numbers_insert]; exact List.mem_append_left _ huser⟩
    · have hmessages : (NumberedTable.rows tables.messages).map
          (Tables.canonicalMessage { tables with users := .insert number user tables.users }) =
          (NumberedTable.rows tables.messages).map tables.canonicalMessage := by
        apply List.map_congr_left
        intro row hrow
        simp only [canonicalMessage, tgUserIdOf_insert_of_mem (h.messageRefs row hrow).2]
        rfl
      simp only [canonical, NumberedTable.rows_insert, hmessages]
      rfl
    · constructor
      · intro userId tgUserId huser
        rwa [tgUserIdOf_insert_of_mem (mem_numbers_of_tgUserIdOf huser)]
      · exact fun _ _ hgroup ↦ hgroup
    · simp only [tgUserIdOf, NumberedTable.rowAt_insert_self hnumber.2.2.notMem, Option.map_some]

theorem Valid.insertGroup (h : tables.Valid) {group : GwGroup}
    (hnumber : NumberedTable.Available number tables.groups)
    (hinsert : tables.insertGroup number group = some after) :
    tables.Becomes after { tables.canonical with groups := tables.canonical.groups ++ [group] } ∧
      after.tgGroupIdOf number = some group.tgGroupId := by
  unfold Tables.insertGroup at hinsert
  split at hinsert
  · simp at hinsert
  · next hnew =>
    obtain rfl := Option.some.inj hinsert
    refine ⟨⟨?_, ?_, ?_⟩, ?_⟩
    · refine ⟨h.users, h.groups.insert hnumber, h.messages, h.files, h.usersUnique, ?_, ?_,
        h.dataRefs, h.forwardRefs⟩
      · rw [NumberedTable.rows_insert, List.map_append]
        apply nodup_append_singleton h.groupsUnique
        intro hmem
        obtain ⟨row, hrow, heq⟩ := List.mem_map.mp hmem
        obtain ⟨entry, hentry, rfl⟩ := List.mem_map.mp hrow
        exact hnew ⟨entry, hentry, heq⟩
      · intro row hrow
        obtain ⟨hgroup, huser⟩ := h.messageRefs row hrow
        exact ⟨by rw [NumberedTable.numbers_insert]; exact List.mem_append_left _ hgroup, huser⟩
    · have hmessages : (NumberedTable.rows tables.messages).map
          (Tables.canonicalMessage { tables with groups := .insert number group tables.groups }) =
          (NumberedTable.rows tables.messages).map tables.canonicalMessage := by
        apply List.map_congr_left
        intro row hrow
        simp only [canonicalMessage, tgGroupIdOf_insert_of_mem (h.messageRefs row hrow).1]
        rfl
      simp only [canonical, NumberedTable.rows_insert, hmessages]
      rfl
    · constructor
      · exact fun _ _ huser ↦ huser
      · intro groupId tgGroupId hgroup
        rwa [tgGroupIdOf_insert_of_mem (mem_numbers_of_tgGroupIdOf hgroup)]
    · simp only [tgGroupIdOf, NumberedTable.rowAt_insert_self hnumber.2.2.notMem, Option.map_some]

/-! ## Messages and their data -/

theorem canonicalData_of_extends {row : GwGroupMessageData UInt64 UInt64}
    (hmessage : NumberedTable.position after.messages row.msgId =
      NumberedTable.position before.messages row.msgId)
    (hfile : ∀ file ∈ row.file, NumberedTable.position after.files file =
      NumberedTable.position before.files file) :
    after.canonicalData row = before.canonicalData row := by
  have hfiles : row.file.map (NumberedTable.position after.files) =
      row.file.map (NumberedTable.position before.files) := by
    cases hrow : row.file with
    | none => rfl
    | some file => simp [hfile file hrow]
  simp only [canonicalData, hmessage, hfiles]

theorem refs_of_insertGroupMessage {schema : Schema} {message : GwGroupMessage UInt64 UInt64}
    (hinsert : tables.insertGroupMessage schema number message = some after) :
    message.groupId ∈ NumberedTable.numbers tables.groups ∧
      message.userId ∈ NumberedTable.numbers tables.users := by
  unfold insertGroupMessage at hinsert
  split at hinsert
  · next hrefs => exact hrefs.2
  · simp at hinsert

/-- Older rows keep their positions, and with them the references to them. -/
theorem Valid.insertGroupMessage (h : tables.Valid) {schema : Schema}
    {message : GwGroupMessage UInt64 UInt64}
    (hnumber : NumberedTable.Available number tables.messages)
    (hinsert : tables.insertGroupMessage schema number message = some after) :
    tables.Becomes after (tables.canonical.addMessage (tables.canonicalMessage message)) ∧
      number ∈ NumberedTable.numbers after.messages ∧
      NumberedTable.position after.messages number = tables.canonical.messages.length := by
  unfold Tables.insertGroupMessage at hinsert
  split at hinsert
  · next hrefs =>
    obtain rfl := Option.some.inj hinsert
    have hposition (msgId : UInt64) (hmem : msgId ∈ NumberedTable.numbers tables.messages) :
        NumberedTable.position (NumberedTable.insert number message tables.messages) msgId =
          NumberedTable.position tables.messages msgId :=
      NumberedTable.position_insert_of_mem hmem
    refine ⟨⟨?_, ?_, .of_eq rfl rfl⟩, ?_, ?_⟩
    · refine ⟨h.users, h.groups, h.messages.insert hnumber, h.files, h.usersUnique, h.groupsUnique,
        ?_, ?_, ?_⟩
      · intro row hrow
        rw [NumberedTable.rows_insert, List.mem_append, List.mem_singleton] at hrow
        obtain hrow | rfl := hrow
        · exact h.messageRefs row hrow
        · exact hrefs.2
      · intro row hrow
        obtain ⟨hmessage, hfile⟩ := h.dataRefs row hrow
        exact ⟨by rw [NumberedTable.numbers_insert]; exact List.mem_append_left _ hmessage, hfile⟩
      · intro row hrow
        rw [NumberedTable.numbers_insert]
        exact List.mem_append_left _ (h.forwardRefs row hrow)
    · simp only [canonical, NumberedTable.rows_insert, List.map_append, Store.addMessage]
      congr 1
      · apply List.map_congr_left
        intro row hrow
        apply canonicalData_of_extends
        · exact hposition row.msgId (h.dataRefs row hrow).1
        · exact fun _ _ ↦ rfl
      · apply List.map_congr_left
        intro row hrow
        simp only [canonicalForward, hposition row.msgId (h.forwardRefs row hrow)]
    · simp
    · rw [NumberedTable.position_insert_self hnumber.2.2.notMem]
      simp [canonical]
  · simp at hinsert

theorem Valid.insertGroupMessageForward (h : tables.Valid) {schema : Schema}
    {forward : GwGroupMessageForward UInt64}
    (hmessage : forward.msgId ∈ NumberedTable.numbers tables.messages)
    (hinsert : tables.insertGroupMessageForward schema forward = some after) :
    tables.Becomes after (tables.canonical.addForwards [tables.canonicalForward forward]) ∧
      after.messages = tables.messages := by
  unfold Tables.insertGroupMessageForward at hinsert
  split at hinsert
  · obtain rfl := Option.some.inj hinsert
    refine ⟨⟨?_, ?_, .of_eq rfl rfl⟩, rfl⟩
    · refine ⟨h.users, h.groups, h.messages, h.files, h.usersUnique, h.groupsUnique,
        h.messageRefs, h.dataRefs, ?_⟩
      intro row hrow
      rw [List.mem_append, List.mem_singleton] at hrow
      obtain hrow | rfl := hrow
      · exact h.forwardRefs row hrow
      · exact hmessage
    · simp only [canonical, List.map_append, Store.addForwards]
      rfl
  · simp at hinsert

/-- The foreign keys. -/
theorem refs_of_insertGroupMessageData {data : GwGroupMessageData UInt64 UInt64}
    (hinsert : tables.insertGroupMessageData number data = some after) :
    data.msgId ∈ NumberedTable.numbers tables.messages ∧
      ∀ file ∈ data.file, file ∈ NumberedTable.numbers tables.files := by
  unfold insertGroupMessageData at hinsert
  split at hinsert
  · next hrefs => exact hrefs
  · simp at hinsert

theorem Valid.insertGroupMessageData (h : tables.Valid)
    {data : GwGroupMessageData UInt64 UInt64}
    (hinsert : tables.insertGroupMessageData number data = some after) :
    tables.Becomes after (tables.canonical.addData (tables.canonicalData data)) := by
  unfold Tables.insertGroupMessageData at hinsert
  split at hinsert
  · next hrefs =>
    obtain rfl := Option.some.inj hinsert
    refine ⟨?_, ?_, .of_eq rfl rfl⟩
    · refine ⟨h.users, h.groups, h.messages, h.files, h.usersUnique, h.groupsUnique,
        h.messageRefs, ?_, h.forwardRefs⟩
      intro row hrow
      rw [NumberedTable.rows_insert, List.mem_append, List.mem_singleton] at hrow
      obtain hrow | rfl := hrow
      · exact h.dataRefs row hrow
      · exact hrefs
    · simp only [canonical, NumberedTable.rows_insert, List.map_append, Store.addData]
      rfl
  · simp at hinsert

theorem Valid.insertFile (h : tables.Valid) {file : GwFile}
    (hnumber : NumberedTable.Available number tables.files)
    (hinsert : tables.insertFile number file = some after) :
    tables.Becomes after (tables.canonical.addFile file) ∧ after.messages = tables.messages ∧
      NumberedTable.position after.files number = tables.canonical.files.length := by
  unfold Tables.insertFile at hinsert
  split at hinsert
  · obtain rfl := Option.some.inj hinsert
    refine ⟨⟨?_, ?_, .of_eq rfl rfl⟩, rfl, ?_⟩
    · refine ⟨h.users, h.groups, h.messages, h.files.insert hnumber, h.usersUnique,
        h.groupsUnique, h.messageRefs, ?_, h.forwardRefs⟩
      intro row hrow
      obtain ⟨hmessage, hfile⟩ := h.dataRefs row hrow
      refine ⟨hmessage, fun given hgiven ↦ ?_⟩
      simp only [NumberedTable.numbers_insert]
      exact List.mem_append_left _ (hfile given hgiven)
    · simp only [canonical, NumberedTable.rows_insert, Store.addFile]
      congr 1
      apply List.map_congr_left
      intro row hrow
      apply canonicalData_of_extends
      · rfl
      · exact fun given hgiven ↦
          NumberedTable.position_insert_of_mem ((h.dataRefs row hrow).2 given hgiven)
    · exact NumberedTable.position_insert_self hnumber.2.2.notMem
  · simp at hinsert

theorem messages_updateHasEditedMsg (number : UInt64) (groupId : Int64) :
    (tables.updateHasEditedMsg number groupId).messages =
      NumberedTable.update number (GwGroupMessage.edited groupId) tables.messages := rfl

theorem modify_map {Old New : Type} {rows : List Old} {position : Nat} {view : Old → New}
    {change : Old → Old} {changeView : New → New}
    (h : ∀ row, rows[position]? = some row → view (change row) = changeView (view row)) :
    (rows.modify position change).map view = (rows.map view).modify position changeView := by
  apply List.ext_getElem?
  intro index
  rw [List.getElem?_map, List.getElem?_modify, List.getElem?_modify, List.getElem?_map]
  by_cases hindex : position = index
  · subst hindex
    cases hrow : rows[position]? with
    | none => simp
    | some row => simp [h row hrow]
  · cases rows[index]? <;> simp [hindex]

/-- The group of the row matches. -/
theorem Valid.updateHasEditedMsg (h : tables.Valid) (number : UInt64) (groupId : Int64)
    (hgroup : ∀ row, NumberedTable.rowAt tables.messages number = some row →
      signedEq row.groupId groupId = true) :
    tables.Becomes (tables.updateHasEditedMsg number groupId)
      (tables.canonical.markEdited (NumberedTable.position tables.messages number)) := by
  have hnumbers : NumberedTable.numbers (tables.updateHasEditedMsg number groupId).messages =
      NumberedTable.numbers tables.messages := by
    rw [messages_updateHasEditedMsg, NumberedTable.numbers_update]
  have hposition (msgId : UInt64) :
      NumberedTable.position (tables.updateHasEditedMsg number groupId).messages msgId =
        NumberedTable.position tables.messages msgId := by
    rw [messages_updateHasEditedMsg, NumberedTable.position_update]
  refine ⟨?_, ?_, .of_eq rfl rfl⟩
  · refine ⟨h.users, h.groups, ?_, h.files, h.usersUnique, h.groupsUnique, ?_, ?_, ?_⟩
    · rw [messages_updateHasEditedMsg]
      exact h.messages.update
    · intro row hrow
      rw [messages_updateHasEditedMsg] at hrow
      obtain ⟨entry, hentry, rfl⟩ := List.mem_map.mp hrow
      obtain ⟨old, hold, -, hrow⟩ := NumberedTable.mem_update hentry
      have hrefs := h.messageRefs old.row (List.mem_map_of_mem hold)
      obtain hrow | hrow := hrow <;> rw [hrow] <;> exact hrefs
    · intro row hrow
      rw [hnumbers]
      exact h.dataRefs row hrow
    · intro row hrow
      rw [hnumbers]
      exact h.forwardRefs row hrow
  · have hmessages : (NumberedTable.rows (tables.updateHasEditedMsg number groupId).messages).map
        tables.canonicalMessage =
        ((NumberedTable.rows tables.messages).map tables.canonicalMessage).modify
          (NumberedTable.position tables.messages number)
          fun row ↦ { row with hasEditedMsg := true } := by
      rw [messages_updateHasEditedMsg, NumberedTable.rows_update h.messages.nodup]
      apply modify_map
      intro row hrow
      rw [NumberedTable.getElem?_rows_position] at hrow
      simp [canonicalMessage, GwGroupMessage.edited, hgroup row hrow]
    have hdata : (NumberedTable.rows tables.data).map
        (tables.updateHasEditedMsg number groupId).canonicalData =
        (NumberedTable.rows tables.data).map tables.canonicalData := by
      apply List.map_congr_left
      intro row _
      exact canonicalData_of_extends (hposition row.msgId) fun _ _ ↦ rfl
    have hforwards : tables.forwards.map
        (tables.updateHasEditedMsg number groupId).canonicalForward =
        tables.forwards.map tables.canonicalForward := by
      apply List.map_congr_left
      intro row _
      simp only [canonicalForward, hposition]
    change ({ tables.canonical with
      messages := (NumberedTable.rows (tables.updateHasEditedMsg number groupId).messages).map
        tables.canonicalMessage
      data := (NumberedTable.rows tables.data).map
        (tables.updateHasEditedMsg number groupId).canonicalData
      forwards := tables.forwards.map
        (tables.updateHasEditedMsg number groupId).canonicalForward } : Store) = _
    rw [hmessages, hdata, hforwards]
    rfl

/-- The mark may be there already. -/
theorem markEdited_of_edited {message : GwGroupMessage UInt64 UInt64}
    (hrow : NumberedTable.rowAt tables.messages number = some message)
    (hedited : message.hasEditedMsg = true) :
    tables.canonical.markEdited (NumberedTable.position tables.messages number) =
      tables.canonical := by
  have hmessages : tables.canonical.messages.modify
      (NumberedTable.position tables.messages number)
      (fun row ↦ { row with hasEditedMsg := true }) = tables.canonical.messages := by
    apply List.ext_getElem?
    intro index
    rw [List.getElem?_modify]
    by_cases hindex : NumberedTable.position tables.messages number = index
    · subst hindex
      have hat : tables.canonical.messages[NumberedTable.position tables.messages number]? =
          some (tables.canonicalMessage message) := by
        simp only [canonical, List.getElem?_map, NumberedTable.getElem?_rows_position, hrow,
          Option.map_some]
      simp [hat, canonicalMessage, hedited]
    · simp [hindex]
  simp only [Store.markEdited, hmessages]

theorem signedEq_toInt64 (column : UInt64) (h : column < 9223372036854775808) :
    signedEq column column.toInt64 = true := by
  have hlt : column.toNat < 9223372036854775808 := h
  unfold signedEq
  apply decide_eq_true
  have htoInt : column.toInt64.toInt = column.toBitVec.toInt := rfl
  rw [htoInt, BitVec.toInt_eq_toNat_of_lt]
  · rfl
  · rw [UInt64.toNat_toBitVec]
    omega

/-! ## Queries -/

theorem mem_rows {Row : Type} {table : NumberedTable Row} {entry : Numbered Row}
    (hmem : entry ∈ table) : entry.row ∈ NumberedTable.rows table := List.mem_map_of_mem hmem

theorem mem_numbers {Row : Type} {table : NumberedTable Row} {entry : Numbered Row}
    (hmem : entry ∈ table) : entry.number ∈ NumberedTable.numbers table :=
  List.mem_map_of_mem hmem

/-- The user's id was taken. -/
theorem addUser_of_insertUser_eq_none {user : User}
    (h : tables.insertUser number
      ⟨UInt64.ofInt user.id, user.username, user.firstName, user.lastName⟩ = none) :
    tables.canonical.addUser user = tables.canonical := by
  unfold insertUser at h
  split at h
  · next htaken =>
    obtain ⟨entry, hentry, heq⟩ := htaken
    exact if_pos ⟨entry.row, mem_rows hentry, heq⟩
  · simp at h

theorem addUser_of_insertUser_eq_some {user : User}
    (h : tables.insertUser number
      ⟨UInt64.ofInt user.id, user.username, user.firstName, user.lastName⟩ = some after) :
    tables.canonical.addUser user =
      { tables.canonical with
        users := tables.canonical.users ++
          [⟨UInt64.ofInt user.id, user.username, user.firstName, user.lastName⟩] } := by
  unfold insertUser at h
  split at h
  · simp at h
  · next hnew =>
    apply if_neg
    rintro ⟨row, hrow, heq⟩
    obtain ⟨entry, hentry, rfl⟩ := List.mem_map.mp hrow
    exact hnew ⟨entry, hentry, heq⟩

theorem addGroup_of_insertGroup_eq_none {chat : Chat}
    (h : tables.insertGroup number ⟨Int64.ofInt chat.id, "GNUWeeb", chat.title⟩ = none) :
    tables.canonical.addGroup chat = tables.canonical := by
  unfold insertGroup at h
  split at h
  · next htaken =>
    obtain ⟨entry, hentry, heq⟩ := htaken
    exact if_pos ⟨entry.row, mem_rows hentry, heq⟩
  · simp at h

theorem addGroup_of_insertGroup_eq_some {chat : Chat}
    (h : tables.insertGroup number ⟨Int64.ofInt chat.id, "GNUWeeb", chat.title⟩ = some after) :
    tables.canonical.addGroup chat =
      { tables.canonical with
        groups := tables.canonical.groups ++ [⟨Int64.ofInt chat.id, "GNUWeeb", chat.title⟩] } := by
  unfold insertGroup at h
  split at h
  · simp at h
  · next hnew =>
    apply if_neg
    rintro ⟨row, hrow, heq⟩
    obtain ⟨entry, hentry, rfl⟩ := List.mem_map.mp hrow
    exact hnew ⟨entry, hentry, heq⟩

theorem addUser_of_tgUserIdOf {user : User} {userId : UInt64}
    (h : tables.tgUserIdOf userId = some (UInt64.ofInt user.id)) :
    tables.canonical.addUser user = tables.canonical := by
  obtain ⟨row, hrow, heq⟩ := Option.map_eq_some_iff.mp h
  exact if_pos ⟨row, mem_rows (NumberedTable.mem_of_rowAt hrow), heq⟩

theorem addGroup_of_tgGroupIdOf {chat : Chat} {groupId : UInt64}
    (h : tables.tgGroupIdOf groupId = some (Int64.ofInt chat.id)) :
    tables.canonical.addGroup chat = tables.canonical := by
  obtain ⟨row, hrow, heq⟩ := Option.map_eq_some_iff.mp h
  exact if_pos ⟨row, mem_rows (NumberedTable.mem_of_rowAt hrow), heq⟩

theorem Valid.tgUserIdOf_of_mem (h : tables.Valid) {entry : Numbered GwUser}
    (hmem : entry ∈ tables.users) : tables.tgUserIdOf entry.number = some entry.row.tgUserId := by
  unfold tgUserIdOf
  rw [NumberedTable.rowAt_of_mem h.users.nodup hmem]
  rfl

theorem Valid.tgGroupIdOf_of_mem (h : tables.Valid) {entry : Numbered GwGroup}
    (hmem : entry ∈ tables.groups) :
    tables.tgGroupIdOf entry.number = some entry.row.tgGroupId := by
  unfold tgGroupIdOf
  rw [NumberedTable.rowAt_of_mem h.groups.nodup hmem]
  rfl

/-- A signed value that equals a column of unsigned numbers is no other number modulo `2 ^ 64`. -/
theorem eq_ofInt_of_signedEq {column : UInt64} {value : Int}
    (h : signedEq column (Int64.ofInt value) = true) : column = UInt64.ofInt value := by
  have hvalue : (Int64.ofInt value).toInt = (column.toNat : Int) := of_decide_eq_true h
  rw [Int64.toInt_ofInt] at hvalue
  have hmod := Int.bmod_emod (x := value) (m := Int64.size)
  rw [hvalue] at hmod
  have hlt := column.toNat_lt
  apply UInt64.toNat_inj.mp
  rw [UInt64.ofInt, UInt64.toNat_ofNat']
  simp only [Int64.size] at hmod hlt ⊢
  omega

/-- The two conversions of the source agree. -/
theorem toInt64_ofInt (value : Int) : (UInt64.ofInt value).toInt64 = Int64.ofInt value := by
  apply Int64.toBitVec_inj.mp
  apply BitVec.eq_of_toNat_eq
  have hleft : (UInt64.ofInt value).toInt64.toBitVec.toNat = (UInt64.ofInt value).toNat := rfl
  have hright : (Int64.ofInt value).toBitVec.toNat = (value % 2 ^ 64).toNat :=
    BitVec.toNat_ofInt ..
  rw [hleft, hright, UInt64.ofInt, UInt64.toNat_ofNat']
  omega

theorem Valid.selectUser (h : tables.Valid) {user : User} {row : Row}
    (hselect : tables.selectUser (Int64.ofInt user.id) = some row) :
    0 < row.id ∧ tables.tgUserIdOf row.id = some (UInt64.ofInt user.id) := by
  obtain ⟨entry, hentry, rfl⟩ := Option.map_eq_some_iff.mp hselect
  have hmem := List.mem_of_find?_eq_some hentry
  have hproperty := List.find?_some hentry
  have heq := eq_ofInt_of_signedEq hproperty
  exact ⟨h.users.pos _ (mem_numbers hmem), by rw [h.tgUserIdOf_of_mem hmem, heq]⟩

theorem Valid.selectGroup (h : tables.Valid) {tgGroupId : Int64} {row : Row}
    (hselect : tables.selectGroup tgGroupId = some row) :
    0 < row.id ∧ tables.tgGroupIdOf row.id = some tgGroupId := by
  obtain ⟨entry, hentry, rfl⟩ := Option.map_eq_some_iff.mp hselect
  have hmem := List.mem_of_find?_eq_some hentry
  have hproperty := List.find?_some hentry
  have heq : entry.row.tgGroupId = tgGroupId := of_decide_eq_true hproperty
  exact ⟨h.groups.pos _ (mem_numbers hmem), by rw [h.tgGroupIdOf_of_mem hmem, heq]⟩

theorem selectGroup_of_insertGroup_eq_none {group : GwGroup}
    (h : tables.insertGroup number group = none) :
    ∃ row, tables.selectGroup group.tgGroupId = some row := by
  unfold insertGroup at h
  split at h
  · next htaken =>
    obtain ⟨entry, hentry, heq⟩ := htaken
    have hsome : (tables.groups.find? fun entry ↦
        decide (entry.row.tgGroupId = group.tgGroupId)).isSome := by
      rw [List.find?_isSome]
      exact ⟨entry, hentry, decide_eq_true heq⟩
    obtain ⟨found, hfound⟩ := Option.isSome_iff_exists.mp hsome
    exact ⟨{ id := found.number }, by rw [selectGroup, hfound]; rfl⟩
  · simp at h

/-- Groups have one number. -/
theorem Valid.groupId_unique (h : tables.Valid) {first second : UInt64} {tgGroupId : Int64}
    (hfirst : tables.tgGroupIdOf first = some tgGroupId)
    (hsecond : tables.tgGroupIdOf second = some tgGroupId) : first = second :=
  NumberedTable.number_unique h.groupsUnique hfirst hsecond

theorem canonicalMessage_groupId_iff {row : GwGroupMessage UInt64 UInt64} {tgGroupId : Int64}
    (hmem : row.groupId ∈ NumberedTable.numbers tables.groups) :
    (tables.canonicalMessage row).groupId = tgGroupId ↔
      tables.tgGroupIdOf row.groupId = some tgGroupId := by
  obtain ⟨group, hgroup⟩ := NumberedTable.exists_rowAt hmem
  simp [canonicalMessage, tgGroupIdOf, hgroup]

theorem findIdx?_congr {Value : Type} {values : List Value} {first second : Value → Bool}
    (h : ∀ value ∈ values, first value = second value) :
    values.findIdx? first = values.findIdx? second := by
  induction values with
  | nil => rfl
  | cons value values ih =>
    rw [List.findIdx?_cons, List.findIdx?_cons, h value (List.mem_cons_self ..),
      ih fun other hother ↦ h other (List.mem_cons_of_mem _ hother)]

theorem Valid.find_eq (h : tables.Valid) (tgMsgId : UInt64) (tgGroupId : Int64) :
    tables.canonical.find tgMsgId tgGroupId =
      tables.messages.findIdx? fun entry ↦
        entry.row.tgMsgId = tgMsgId ∧ tables.tgGroupIdOf entry.row.groupId = some tgGroupId := by
  unfold Store.find canonical NumberedTable.rows
  rw [List.map_map, List.findIdx?_map]
  apply findIdx?_congr
  intro entry hentry
  apply decide_eq_decide.mpr
  apply and_congr_right
  intro _
  exact canonicalMessage_groupId_iff (h.messageRefs entry.row (mem_rows hentry)).1

theorem Valid.find_of_selectGroupMessage_eq_none (h : tables.Valid) {tgMsgId : UInt64}
    {tgGroupId : Int64} (hselect : tables.selectGroupMessage tgMsgId tgGroupId = none) :
    tables.canonical.find tgMsgId tgGroupId = none := by
  rw [h.find_eq, List.findIdx?_eq_none_iff]
  rw [selectGroupMessage, Option.map_eq_none_iff, List.find?_eq_none] at hselect
  intro entry hentry
  simpa using hselect entry hentry

/-- The row that is found, seen from the tables and from the store. -/
theorem Valid.selectGroupMessage (h : tables.Valid) {tgMsgId : UInt64} {tgGroupId : Int64}
    {row : Row} (hselect : tables.selectGroupMessage tgMsgId tgGroupId = some row) :
    0 < row.id ∧
      tables.canonical.find tgMsgId tgGroupId =
        some (NumberedTable.position tables.messages row.id) ∧
      ∃ message, NumberedTable.rowAt tables.messages row.id = some message ∧
        tables.tgGroupIdOf message.groupId = some tgGroupId ∧
        row.hasEditedMsg = if message.hasEditedMsg then "1" else "0" := by
  obtain ⟨entry, hentry, rfl⟩ := Option.map_eq_some_iff.mp hselect
  have hmem := List.mem_of_find?_eq_some hentry
  have hfound := List.find?_some hentry
  have hproperty := of_decide_eq_true hfound
  refine ⟨h.messages.pos _ (mem_numbers hmem), ?_, entry.row, ?_, hproperty.2, rfl⟩
  · rw [h.find_eq]
    exact NumberedTable.findIdx?_of_find? h.messages.nodup hentry
  · exact NumberedTable.rowAt_of_mem h.messages.nodup hmem

/-! ## The parameters of the insertions -/

theorem enumFlag_flag (value : Bool) :
    enumFlag (if value then "1" else "0") = some value := by cases value <;> rfl

theorem nullable_textEntities (text : FormattedText) :
    nullable (Worker.textEntities text) = some (entitiesText text) := by
  unfold Worker.textEntities entitiesText
  split <;> rfl

variable {schema : Schema}

theorem apply_insertGroupMessage {groupId userId tgMsgId replyToTgMsgId : UInt64}
    {msgType dateNow : String} {isForwardedMsg isDeleted : Bool} :
    tables.apply schema number .insertGroupMessage [.uint groupId, .uint userId, .uint tgMsgId,
        .uint replyToTgMsgId, .string msgType, Worker.flag isForwardedMsg, Worker.flag isDeleted,
        .string dateNow] =
      (tables.insertGroupMessage schema number ⟨groupId, userId, tgMsgId, replyToTgMsgId, msgType,
        false, isForwardedMsg, isDeleted⟩).map (·, none) := by
  simp only [apply, Worker.flag, enumFlag_flag, Option.bind_eq_bind, Option.bind_some]

theorem apply_insertGroupMessageDataText {msgId : UInt64} {text tgDate dateNow : String}
    {textEntities : Parameter} {entities : Option String} {isEdited : Bool}
    (hentities : nullable textEntities = some entities) :
    tables.apply schema number .insertGroupMessageDataText [.uint msgId, .string text,
        textEntities, Worker.flag isEdited, .string tgDate, .string dateNow] =
      (tables.insertGroupMessageData number ⟨msgId, text, entities, none, isEdited, tgDate⟩).map
        (·, none) := by
  simp only [apply, Worker.flag, enumFlag_flag, hentities, Option.bind_eq_bind, Option.bind_some]

theorem apply_insertGroupMessageData {msgId file : UInt64} {text tgDate dateNow : String}
    {textEntities : Parameter} {entities : Option String} {isEdited : Bool}
    (hentities : nullable textEntities = some entities) :
    tables.apply schema number .insertGroupMessageData [.uint msgId, .string text, textEntities,
        .uint file, Worker.flag isEdited, .string tgDate, .string dateNow] =
      (tables.insertGroupMessageData number
        ⟨msgId, text, entities, some file, isEdited, tgDate⟩).map (·, none) := by
  simp only [apply, Worker.flag, enumFlag_flag, hentities, Option.bind_eq_bind, Option.bind_some]

end Tables

end Tgvisd.HistoryScraper
