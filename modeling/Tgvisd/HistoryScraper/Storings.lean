import Tgvisd.HistoryScraper.Pages

/-!
# The messages that events store

An event stores one or two versions of a message. Of what a version does to the store, only the
rows of messages and their data matter here: it is looked up under its raw id, and inserted, if
it is not found, under its id without the last twenty bits.
-/

namespace Tgvisd.HistoryScraper

open TdApi

/-- The versions that an event stores, and whether as an edited one. -/
def eventStorings (ev : ChatEvent) : List (Message × Bool) :=
  match ev.action with
  | .chatEventMessageDeleted msg => [(msg, false)]
  | .chatEventMessageEdited oldMessage newMessage => [(oldMessage, false), (newMessage, true)]
  | .other => []

def storings (events : List ChatEvent) : List (Message × Bool) := events.flatMap eventStorings

@[simp] theorem storings_nil : storings [] = [] := rfl

@[simp] theorem storings_append (front back : List ChatEvent) :
    storings (front ++ back) = storings front ++ storings back := List.flatMap_append

@[simp] theorem storings_singleton (ev : ChatEvent) : storings [ev] = eventStorings ev := by
  simp [storings]

/-- What holds of the versions stored so far and of the store is kept by every event if it is kept
by every version. -/
theorem Replays.induction (invariant : List (Message × Bool) → Store → Prop)
    (hempty : invariant [] {})
    (htrack : ∀ stored store eventId, invariant stored store →
      invariant stored (store.track eventId))
    (hstores : ∀ stored msg isEdited before after, invariant stored before →
      Stores msg isEdited before after → invariant (stored ++ [(msg, isEdited)]) after)
    {events : List ChatEvent} {store : Store} (h : Replays events store) :
    invariant (storings events) store := by
  induction h with
  | nil => exact hempty
  | @snoc events ev before after _ _ hevent ih =>
    rw [storings_append, storings_singleton]
    unfold StoresEvent at hevent
    unfold eventStorings
    have htracked := htrack _ _ ev.id ih
    cases haction : ev.action with
    | chatEventMessageDeleted msg =>
      rw [haction] at hevent
      exact hstores _ _ _ _ _ htracked hevent
    | chatEventMessageEdited oldMessage newMessage =>
      rw [haction] at hevent
      obtain ⟨middle, hfirst, hsecond⟩ := hevent
      have hmiddle := hstores _ _ _ _ _ htracked hfirst
      have hafter := hstores _ _ _ _ _ hmiddle hsecond
      rwa [List.append_assoc] at hafter
    | other =>
      rw [haction] at hevent
      exact hevent.elim

/-! ## One version -/

/-- A user's message with a content that is stored. -/
def isKept (msg : Message) : Bool :=
  match msg.sender with
  | .messageSenderUser _ => (Worker.msgType msg.content).isSome
  | .messageSenderChat _ => false

/-- The id under which a message is looked up. -/
def rawId (msg : Message) : UInt64 := UInt64.ofInt msg.id

/-- The id under which it is inserted. -/
def shiftedId (msg : Message) : UInt64 := UInt64.ofInt msg.id >>> 20

/-- The shift leaves no other id as it is. -/
theorem rawId_eq_shiftedId_iff {msg : Message} : rawId msg = shiftedId msg ↔ rawId msg = 0 := by
  have hshift : (20 : UInt64).toNat % 64 = 20 := rfl
  have hzero : (0 : UInt64).toNat = 0 := rfl
  rw [rawId, shiftedId, ← UInt64.toNat_inj, ← UInt64.toNat_inj, UInt64.toNat_shiftRight, hshift,
    Nat.shiftRight_eq_div_pow, hzero]
  omega

def groupOf (msg : Message) : Int64 := Int64.ofInt msg.chatId

/-- The texts of the data that a version adds. -/
def dataTexts (msg : Message) : List String :=
  match msg.content with
  | .messageText text => [text.text]
  | .messagePhoto sizes caption => if (Worker.takenFile sizes).isSome then [caption.text] else []
  | .messageSticker _ emoji => [emoji]
  | .messageVideo _ caption | .messageAnimation _ caption | .messageDocument _ caption
  | .messageAudio _ caption => [caption.text]
  | .messageChatJoinByLink | .other => []

/-- What the data table shows of a row: the message's position, the text and the mark. -/
def dataView (row : GwGroupMessageData Nat Nat) : Nat × String × Bool :=
  (row.msgId, row.text, row.isEdited)

variable {msg : Message} {isEdited : Bool} {before after : Store}

theorem AddsData.view {position : Nat} (h : AddsData position msg isEdited before after) :
    after.messages = before.messages ∧
      after.data.map dataView = before.data.map dataView ++
        (dataTexts msg).map fun text ↦ (position, text, isEdited) := by
  have hfile {text : String} {textEntities : Option String} {file : File}
      (hadds : AddsFile position msg isEdited text textEntities file before after) :
      after.messages = before.messages ∧
        after.data.map dataView = before.data.map dataView ++ [(position, text, isEdited)] := by
    obtain ⟨downloaded, md5Sum, sha1Sum, rfl⟩ := hadds
    simp [Store.addData, Store.addFile, dataView, dataRow]
  unfold AddsData at h
  unfold dataTexts
  cases hcontent : msg.content with
  | messageText text =>
    rw [hcontent] at h
    rw [h]
    simp [Store.addData, dataView, dataRow]
  | messagePhoto sizes caption =>
    simp only [hcontent] at h
    cases htaken : Worker.takenFile sizes with
    | some file =>
      rw [htaken] at h
      simpa [htaken] using hfile h
    | none =>
      rw [htaken] at h
      rw [h]
      simp [htaken]
  | messageVideo file caption | messageSticker file emoji | messageAnimation file caption
  | messageDocument file caption | messageAudio file caption =>
    rw [hcontent] at h
    exact hfile h
  | messageChatJoinByLink | other =>
    rw [hcontent] at h
    rw [h]
    simp

@[simp] theorem messages_addUser (store : Store) (user : User) :
    (store.addUser user).messages = store.messages := by
  unfold Store.addUser
  split <;> rfl

@[simp] theorem data_addUser (store : Store) (user : User) :
    (store.addUser user).data = store.data := by
  unfold Store.addUser
  split <;> rfl

@[simp] theorem messages_addGroup (store : Store) (chat : Chat) :
    (store.addGroup chat).messages = store.messages := by
  unfold Store.addGroup
  split <;> rfl

@[simp] theorem data_addGroup (store : Store) (chat : Chat) :
    (store.addGroup chat).data = store.data := by
  unfold Store.addGroup
  split <;> rfl

theorem find_addGroup_addUser (store : Store) (user : User) (chat : Chat) (tgMsgId : UInt64)
    (tgGroupId : Int64) :
    ((store.addUser user).addGroup chat).find tgMsgId tgGroupId =
      store.find tgMsgId tgGroupId := by
  rw [Store.find, messages_addGroup, messages_addUser]
  rfl

/-- A message that is not kept leaves the rows of messages alone. -/
theorem Stores.not_kept (h : Stores msg isEdited before after) (hkept : isKept msg = false) :
    after.messages = before.messages ∧ after.data = before.data := by
  unfold Stores at h
  unfold isKept at hkept
  cases hsender : msg.sender with
  | messageSenderChat chatId =>
    rw [hsender] at h
    rw [h]
    exact ⟨rfl, rfl⟩
  | messageSenderUser userId =>
    rw [hsender] at h hkept
    obtain ⟨user, chat, -, -, hsaves⟩ := h
    have hnone : Worker.msgType msg.content = none := by simpa using hkept
    unfold Saves at hsaves
    rw [hnone] at hsaves
    rw [hsaves]
    simp

/-- A message that is found is marked if this is an edited version. -/
theorem Stores.found (h : Stores msg isEdited before after) (hkept : isKept msg = true)
    {position : Nat} (hfind : before.find (rawId msg) (groupOf msg) = some position) :
    (isEdited = true ∧
      after.messages = before.messages.modify position
        (fun row ↦ { row with hasEditedMsg := true }) ∧
      after.data.map dataView = before.data.map dataView ++
        (dataTexts msg).map fun text ↦ (position, text, true)) ∨
    (isEdited = false ∧ after.messages = before.messages ∧ after.data = before.data) := by
  unfold Stores at h
  unfold isKept at hkept
  cases hsender : msg.sender with
  | messageSenderChat chatId =>
    rw [hsender] at hkept
    simp at hkept
  | messageSenderUser userId =>
    rw [hsender] at h hkept
    obtain ⟨user, chat, -, -, hsaves⟩ := h
    obtain ⟨type, htype⟩ := Option.isSome_iff_exists.mp hkept
    have hsame : ((before.addUser user).addGroup chat).find (UInt64.ofInt msg.id)
        (Int64.ofInt msg.chatId) = some position := by
      rw [find_addGroup_addUser]
      exact hfind
    unfold Saves at hsaves
    rw [htype, hsame] at hsaves
    cases isEdited with
    | false =>
      right
      have hafter : after = (before.addUser user).addGroup chat := hsaves
      rw [hafter]
      simp
    | true =>
      left
      obtain ⟨hmessages, hdata⟩ := AddsData.view hsaves
      exact ⟨rfl, by simp [hmessages, Store.markEdited], by simp [hdata, Store.markEdited]⟩

/-- A message that is not found gets a new row. -/
theorem Stores.inserted (h : Stores msg isEdited before after) (hkept : isKept msg = true)
    (hfind : before.find (rawId msg) (groupOf msg) = none) :
    ∃ row : GwGroupMessage Int64 UInt64, row.groupId = groupOf msg ∧
      row.tgMsgId = shiftedId msg ∧ row.hasEditedMsg = false ∧ row.isDeleted = false ∧
      after.messages = before.messages ++ [row] ∧
      after.data.map dataView = before.data.map dataView ++
        (dataTexts msg).map fun text ↦ (before.messages.length, text, isEdited) := by
  unfold Stores at h
  unfold isKept at hkept
  cases hsender : msg.sender with
  | messageSenderChat chatId =>
    rw [hsender] at hkept
    simp at hkept
  | messageSenderUser userId =>
    rw [hsender] at h hkept
    obtain ⟨user, chat, -, hchat, hsaves⟩ := h
    obtain ⟨type, htype⟩ := Option.isSome_iff_exists.mp hkept
    have hsame : ((before.addUser user).addGroup chat).find (UInt64.ofInt msg.id)
        (Int64.ofInt msg.chatId) = none := by
      rw [find_addGroup_addUser]
      exact hfind
    unfold Saves at hsaves
    rw [htype, hsame] at hsaves
    obtain ⟨hmessages, hdata⟩ := AddsData.view hsaves
    refine ⟨messageRow msg type user chat, ?_, rfl, rfl, rfl, ?_, ?_⟩
    · exact congrArg Int64.ofInt hchat
    · simp [hmessages, Store.addMessage, Store.addForwards]
    · simp [hdata, Store.addMessage, Store.addForwards]

end Tgvisd.HistoryScraper
