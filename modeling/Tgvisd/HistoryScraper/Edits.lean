import Mathlib.Data.List.Induction
import Tgvisd.HistoryScraper.Cursor
import Tgvisd.HistoryScraper.Records

/-!
# Edited texts

The walk meets the edits of a message from the newest to the oldest, and stores the old version
of an edit before the new one. Only for a message that is found again after it was inserted all
this ends up at one row, and then the row keeps the oldest version of the newest edit.
-/

namespace Tgvisd.HistoryScraper

open TdApi

/-! ## The log and its versions -/

/-- A log whose numbers fit their types, and whose edits do not change the message's identity. -/
structure MessageLog extends ChatLog where
  eventsFit : ∀ ev ∈ events, ev.id < 9223372036854775808
  messagesFit : ∀ version ∈ storings events,
    -9223372036854775808 ≤ version.1.id ∧ version.1.id < 9223372036854775808
  sameMessage : ∀ ev ∈ events, ∀ oldMessage newMessage,
    ev.action = .chatEventMessageEdited oldMessage newMessage →
      oldMessage.chatId = newMessage.chatId ∧ oldMessage.id = newMessage.id

/-- The text of a user's message. -/
def userText (msg : Message) : Option String :=
  match msg.sender, msg.content with
  | .messageSenderUser _, .messageText text => some text.text
  | _, _ => none

/-- The message and the new text of an edit from text to text. -/
def textEdit (ev : ChatEvent) : Option (Key × String) :=
  match ev.action with
  | .chatEventMessageEdited oldMessage newMessage =>
    if (userText oldMessage).isSome then
      (userText newMessage).map fun text ↦ (rawKey oldMessage, text)
    else none
  | .chatEventMessageDeleted _ | .other => none

/-- The older version that an event holds. -/
def olderVersion (ev : ChatEvent) : Option Message :=
  match ev.action with
  | .chatEventMessageDeleted msg => some msg
  | .chatEventMessageEdited oldMessage _ => some oldMessage
  | .other => none

variable (events : List ChatEvent) (msg : Message)

/-- The new texts of a message, one for each of its edits. -/
def editTexts : List String :=
  ((events.filterMap textEdit).filter fun edit ↦ edit.1 = rawKey msg).map Prod.snd

def olderVersions : List Message :=
  (events.filterMap olderVersion).filter fun version ↦ rawKey version = rawKey msg

/-- The text of the oldest version in the log. -/
def oldestText : Option String := (olderVersions events msg).getLast?.bind userText

/-- The older version that the newest event of a message holds. -/
def newestText : Option String := (olderVersions events msg).head?.bind userText

/-- All versions of the message in the log are texts of a user. -/
def IsTextMessage : Prop :=
  ∀ version ∈ storings events, rawKey version.1 = rawKey msg → (userText version.1).isSome = true

/-- Every message with edits has one row, which is marked and refers to the text of each edit and
to the oldest version. -/
def EditsRecorded (tables : Tables) : Prop :=
  ∀ version ∈ storings events, IsTextMessage events version.1 → editTexts events version.1 ≠ [] →
    ∃ shown text, tables.recordsOf version.1.chatId version.1.id = [(true, shown)] ∧
      ((shown.filter Prod.snd).map Prod.fst).Perm (editTexts events version.1) ∧
      oldestText events version.1 = some text ∧
      (shown.filter fun entry ↦ !entry.2).map Prod.fst = [text]

/-- Every message with edits has an id that the shift does not change and that no other message
is shifted to, and the newest and the oldest event of the message hold the same older text. -/
def EditsFit : Prop :=
  ∀ version ∈ storings events, IsTextMessage events version.1 → editTexts events version.1 ≠ [] →
    rawId version.1 = shiftedId version.1 ∧
      (∀ other ∈ storings events, isKept other.1 = true →
        shiftedKey other.1 = shiftedKey version.1 → rawKey other.1 = rawKey version.1) ∧
      newestText events version.1 = oldestText events version.1

instance : Decidable (IsTextMessage events msg) :=
  inferInstanceAs (Decidable (∀ version ∈ storings events, _))

instance : Decidable (EditsFit events) :=
  inferInstanceAs (Decidable (∀ version ∈ storings events, _))

variable {events msg}

theorem isKept_of_userText (h : (userText msg).isSome = true) : isKept msg = true := by
  unfold userText at h
  unfold isKept
  split at h
  · next userId text hsender hcontent => simp [hsender, hcontent, Worker.msgType]
  · simp at h

theorem dataTexts_of_userText {text : String} (h : userText msg = some text) :
    dataTexts msg = [text] := by
  unfold userText at h
  unfold dataTexts
  split at h
  · next userId found hsender hcontent =>
    have htext : found.text = text := Option.some.inj h
    simp [hcontent, htext]
  · simp at h

/-! ## The versions of one message -/

/-- The versions of the message, in the order in which they are stored. -/
def versionsOf (events : List ChatEvent) (msg : Message) : List (Message × Bool) :=
  (storings events).filter fun version ↦ rawKey version.1 = rawKey msg

theorem ownVersions_eq_versionsOf (h : IsTextMessage events msg) :
    ownVersions (rawKey msg) (storings events) = versionsOf events msg := by
  unfold ownVersions versionsOf
  apply List.filter_congr
  intro version hversion
  apply decide_eq_decide.mpr
  constructor
  · exact fun hown ↦ hown.2
  · exact fun hkey ↦ ⟨isKept_of_userText (h version hversion hkey), hkey⟩

theorem storings_cons (ev : ChatEvent) (events : List ChatEvent) :
    storings (ev :: events) = eventStorings ev ++ storings events := List.flatMap_cons

theorem IsTextMessage.tail {ev : ChatEvent} (h : IsTextMessage (ev :: events) msg) :
    IsTextMessage events msg := by
  intro version hversion
  apply h version
  rw [storings_cons]
  exact List.mem_append_right _ hversion

/-- Both versions of each edit have one key. -/
def SameKeys (events : List ChatEvent) : Prop :=
  ∀ ev ∈ events, ∀ oldMessage newMessage,
    ev.action = .chatEventMessageEdited oldMessage newMessage →
      rawKey oldMessage = rawKey newMessage

theorem SameKeys.tail {ev : ChatEvent} (h : SameKeys (ev :: events)) : SameKeys events :=
  fun other hother ↦ h other (List.mem_cons_of_mem ev hother)

/-- The event is about the message, or it is not. -/
theorem event_cases {ev : ChatEvent} (hsame : SameKeys (ev :: events))
    (htext : IsTextMessage (ev :: events) msg) :
    (editTexts [ev] msg = [] ∧ olderVersions [ev] msg = [] ∧ versionsOf [ev] msg = []) ∨
    (∃ version, editTexts [ev] msg = [] ∧ olderVersions [ev] msg = [version] ∧
      versionsOf [ev] msg = [(version, false)]) ∨
    ∃ oldMessage newMessage text, editTexts [ev] msg = [text] ∧
      olderVersions [ev] msg = [oldMessage] ∧ userText newMessage = some text ∧
      versionsOf [ev] msg = [(oldMessage, false), (newMessage, true)] := by
  have hversions := htext
  unfold IsTextMessage at hversions
  rw [storings_cons, List.forall_mem_append] at hversions
  unfold versionsOf editTexts olderVersions
  rw [storings_singleton]
  cases haction : ev.action with
  | other =>
    left
    simp [textEdit, olderVersion, eventStorings, haction]
  | chatEventMessageDeleted version =>
    by_cases hkey : rawKey version = rawKey msg
    · right
      left
      exact ⟨version, by simp [textEdit, haction], by simp [olderVersion, haction, hkey],
        by simp [eventStorings, haction, hkey]⟩
    · left
      simp [textEdit, olderVersion, eventStorings, haction, hkey]
  | chatEventMessageEdited oldMessage newMessage =>
    have hboth := hsame ev List.mem_cons_self oldMessage newMessage haction
    by_cases hkey : rawKey oldMessage = rawKey msg
    · right
      right
      have hnewKey : rawKey newMessage = rawKey msg := hboth.symm.trans hkey
      simp only [eventStorings, haction, List.forall_mem_cons] at hversions
      have hold := hversions.1.1 hkey
      obtain ⟨text, hnew⟩ := Option.isSome_iff_exists.mp (hversions.1.2.1 hnewKey)
      refine ⟨oldMessage, newMessage, text, ?_, ?_, hnew, ?_⟩
      · simp [textEdit, haction, hold, hnew, hkey]
      · simp [olderVersion, haction, hkey]
      · simp [eventStorings, haction, hkey, hnewKey]
    · left
      have hnewKey : rawKey newMessage ≠ rawKey msg := by rwa [← hboth]
      refine ⟨?_, ?_, ?_⟩
      · by_cases hold : (userText oldMessage).isSome = true
        · cases hnew : userText newMessage <;> simp [textEdit, haction, hold, hnew, hkey]
        · simp [textEdit, haction, hold]
      · simp [olderVersion, haction, hkey]
      · simp [eventStorings, haction, hkey, hnewKey]

theorem editTexts_cons (ev : ChatEvent) (events : List ChatEvent) (msg : Message) :
    editTexts (ev :: events) msg = editTexts [ev] msg ++ editTexts events msg := by
  unfold editTexts
  rw [← List.singleton_append, List.filterMap_append, List.filter_append, List.map_append]

theorem olderVersions_cons (ev : ChatEvent) (events : List ChatEvent) (msg : Message) :
    olderVersions (ev :: events) msg = olderVersions [ev] msg ++ olderVersions events msg := by
  unfold olderVersions
  rw [← List.singleton_append, List.filterMap_append, List.filter_append]

theorem versionsOf_cons (ev : ChatEvent) (events : List ChatEvent) (msg : Message) :
    versionsOf (ev :: events) msg = versionsOf [ev] msg ++ versionsOf events msg := by
  unfold versionsOf
  rw [storings_cons, List.filter_append, storings_singleton]

/-- By induction on the log: the edited versions hold the new texts. -/
theorem flatMap_edited (hsame : SameKeys events) (htext : IsTextMessage events msg) :
    (((versionsOf events msg).filter Prod.snd).flatMap fun version ↦
      (dataTexts version.1).map fun text ↦ (text, true)) =
      (editTexts events msg).map fun text ↦ (text, true) := by
  induction events with
  | nil => rfl
  | cons ev events ih =>
    rw [versionsOf_cons, editTexts_cons, List.filter_append, List.flatMap_append,
      List.map_append, ih hsame.tail htext.tail]
    congr 1
    obtain ⟨hedits, -, hversions⟩ | ⟨version, hedits, -, hversions⟩ |
      ⟨oldMessage, newMessage, text, hedits, -, hnew, hversions⟩ := event_cases hsame htext
    · rw [hedits, hversions]
      rfl
    · rw [hedits, hversions]
      rfl
    · rw [hedits, hversions]
      simp [dataTexts_of_userText hnew]

/-- The first version that is stored is an older one. -/
theorem head?_versionsOf (hsame : SameKeys events) (htext : IsTextMessage events msg) :
    (versionsOf events msg).head? =
      (olderVersions events msg).head?.map fun version ↦ (version, false) := by
  induction events with
  | nil => rfl
  | cons ev events ih =>
    rw [versionsOf_cons, olderVersions_cons]
    obtain ⟨-, holder, hversions⟩ | ⟨version, -, holder, hversions⟩ |
      ⟨oldMessage, newMessage, text, -, holder, -, hversions⟩ := event_cases hsame htext
    · rw [holder, hversions]
      exact ih hsame.tail htext.tail
    · rw [holder, hversions]
      rfl
    · rw [holder, hversions]
      rfl

/-- What the row of an edited message shows. -/
theorem recordsFor_versionsOf (hsame : SameKeys events) (htext : IsTextMessage events msg)
    (hedits : editTexts events msg ≠ []) :
    ∃ newest, newestText events msg = some newest ∧
      recordsFor (versionsOf events msg) =
        [(true, (newest, false) :: (editTexts events msg).map fun text ↦ (text, true))] := by
  have hflat := flatMap_edited hsame htext
  have hhead := head?_versionsOf hsame htext
  cases hversions : versionsOf events msg with
  | nil =>
    rw [hversions] at hflat
    exact absurd (List.map_eq_nil_iff.mp hflat.symm) hedits
  | cons first rest =>
    rw [hversions] at hflat hhead
    obtain ⟨version, hversion, rfl⟩ := Option.map_eq_some_iff.mp hhead.symm
    have hmem : (version, false) ∈ versionsOf events msg := by simp [hversions]
    obtain ⟨hstored, hkey⟩ := List.mem_filter.mp hmem
    obtain ⟨newest, hnewest⟩ :=
      Option.isSome_iff_exists.mp (htext _ hstored (of_decide_eq_true hkey))
    rw [List.filter_cons_of_neg (by simp)] at hflat
    refine ⟨newest, ?_, ?_⟩
    · rw [newestText, hversion, Option.bind_some]
      exact hnewest
    · have hany : rest.any Prod.snd = true := by
        by_contra hnone
        rw [Bool.not_eq_true, List.any_eq_false] at hnone
        rw [List.filter_eq_nil_iff.mpr (by simpa using hnone)] at hflat
        exact hedits (List.map_eq_nil_iff.mp hflat.symm)
      rw [recordsFor, hany, hflat, dataTexts_of_userText hnewest]
      rfl

/-! ## Identity -/

theorem ofInt_inj {first second : Int} (hfirst : first - second < 18446744073709551616)
    (hsecond : second - first < 18446744073709551616)
    (h : UInt64.ofInt first = UInt64.ofInt second) : first = second := by
  have hnat := congrArg UInt64.toNat h
  rw [UInt64.ofInt, UInt64.ofInt, UInt64.toNat_ofNat', UInt64.toNat_ofNat'] at hnat
  omega

namespace MessageLog

variable (log : MessageLog)

/-- The raw key tells the shifted one. -/
theorem shiftedKey_eq {first second : Message × Bool} (hfirst : first ∈ storings log.events)
    (hsecond : second ∈ storings log.events) (h : rawKey first.1 = rawKey second.1) :
    shiftedKey first.1 = shiftedKey second.1 := by
  obtain ⟨hgroup, hraw⟩ := Prod.mk.inj h
  have hbounds := log.messagesFit first hfirst
  have hbounds' := log.messagesFit second hsecond
  have hid : first.1.id = second.1.id := ofInt_inj (by omega) (by omega) hraw
  apply Prod.ext
  · exact hgroup
  · simp only [shiftedKey, shiftedId, hid]

theorem keys_of_edit {ev : ChatEvent} (hev : ev ∈ log.events) {oldMessage newMessage : Message}
    (haction : ev.action = .chatEventMessageEdited oldMessage newMessage) :
    rawKey oldMessage = rawKey newMessage ∧ shiftedKey oldMessage = shiftedKey newMessage := by
  obtain ⟨hchat, hid⟩ := log.sameMessage ev hev oldMessage newMessage haction
  simp only [rawKey, shiftedKey, groupOf, rawId, shiftedId, hchat, hid, and_self]

theorem sameKeys : SameKeys log.events :=
  fun _ hev _ _ haction ↦ (log.keys_of_edit hev haction).1

theorem nodup_eventIds : (eventIds log.events).Nodup := by
  unfold eventIds
  rw [List.nodup_iff_pairwise_ne, List.pairwise_map]
  apply log.descends.imp_of_mem
  intro newer older hnewer holder hlt heq
  have hpos := log.positive newer hnewer
  have hpos' := log.positive older holder
  have hfits := log.eventsFit newer hnewer
  have hfits' := log.eventsFit older holder
  have hid := ofInt_inj (by omega) (by omega) heq
  omega

end MessageLog

theorem newEvents_eq_filter {tracked : List UInt64} (hnodup : (eventIds events).Nodup)
    (hnew : ∀ eventId ∈ eventIds events, eventId ∉ tracked) :
    newEvents tracked events = events.filter isStored := by
  induction events generalizing tracked with
  | nil => rfl
  | cons ev events ih =>
    have hids : eventIds (ev :: events) = UInt64.ofInt ev.id :: eventIds events := rfl
    rw [hids, List.nodup_cons] at hnodup
    rw [hids, List.forall_mem_cons] at hnew
    unfold newEvents
    cases hstored : isStored ev with
    | false =>
      rw [if_neg (by simp), List.filter_cons_of_neg (by simp [hstored])]
      exact ih hnodup.2 hnew.2
    | true =>
      rw [if_pos ⟨rfl, hnew.1⟩, List.filter_cons_of_pos hstored, ih hnodup.2]
      intro eventId heventId hmem
      rw [List.mem_append, List.mem_singleton] at hmem
      obtain hmem | rfl := hmem
      · exact hnew.2 eventId heventId hmem
      · exact hnodup.1 heventId

theorem storings_filter (events : List ChatEvent) :
    storings (events.filter isStored) = storings events := by
  induction events with
  | nil => rfl
  | cons ev events ih =>
    rw [storings_cons]
    cases hstored : isStored ev with
    | false =>
      have hnone : eventStorings ev = [] := by
        unfold isStored at hstored
        unfold eventStorings
        split at hstored <;> simp_all
      rw [List.filter_cons_of_neg (by simp [hstored]), ih, hnone, List.nil_append]
    | true => rw [List.filter_cons_of_pos hstored, storings_cons, ih]

/-- The tables hold what the whole log leaves. -/
def Covers (log : MessageLog) (tables : Tables) : Prop :=
  ∃ stored, Holds stored tables ∧ storings stored = storings log.events

theorem Progress.covers {setting : Setting} {log : MessageLog} {tables : Tables}
    (hreliable : setting.mayFail = false) (h : Progress setting [] log.events tables) :
    Covers log tables := by
  obtain ⟨stored, hselects, hholds⟩ := h
  refine ⟨stored, hholds, ?_⟩
  rw [hselects.new hreliable, eventIds_nil,
    newEvents_eq_filter log.nodup_eventIds (by simp), storings_filter]

/-! ## Enough for the records -/

section

variable {log : MessageLog} {tables : Tables}

/-- What the row of an edited message shows if no other version leads to it. -/
theorem Covers.recordsOf (h : Covers log tables) {version : Message × Bool}
    (hversion : version ∈ storings log.events) (htext : IsTextMessage log.events version.1)
    (hedits : editTexts log.events version.1 ≠ [])
    (hshift : rawId version.1 = shiftedId version.1)
    (halone : ∀ other ∈ storings log.events, isKept other.1 = true →
      shiftedKey other.1 = shiftedKey version.1 → rawKey other.1 = rawKey version.1) :
    ∃ newest, newestText log.events version.1 = some newest ∧
      tables.recordsOf version.1.chatId version.1.id =
        [(true, (newest, false) ::
          (editTexts log.events version.1).map fun text ↦ (text, true))] := by
  obtain ⟨stored, hholds, hstored⟩ := h
  have hkeys : rawKey version.1 = shiftedKey version.1 := by
    simp only [rawKey, shiftedKey, hshift]
  have hown : ∀ other ∈ storings stored, isKept other.1 = true →
      (rawKey other.1 = rawKey version.1 ↔ shiftedKey other.1 = rawKey version.1) := by
    rw [hstored]
    intro other hother hkept
    constructor
    · exact fun hraw ↦ (log.shiftedKey_eq hother hversion hraw).trans hkeys.symm
    · exact fun hshifted ↦ halone other hother hkept (hshifted.trans hkeys)
  have hrecords := hholds.replays.recordsOf hown
  rw [hstored, ownVersions_eq_versionsOf htext] at hrecords
  obtain ⟨newest, hnewest, hfor⟩ := recordsFor_versionsOf log.sameKeys htext hedits
  refine ⟨newest, hnewest, ?_⟩
  rw [hholds.valid.recordsOf, ← hfor, ← hrecords]
  exact congrArg _ hkeys.symm

theorem filter_shown (newest : String) (texts : List String) :
    (((newest, false) :: texts.map fun text ↦ (text, true)).filter Prod.snd).map Prod.fst = texts ∧
      (((newest, false) :: texts.map fun text ↦ (text, true)).filter
        fun entry ↦ !entry.2).map Prod.fst = [newest] := by
  constructor
  · rw [List.filter_cons_of_neg (by simp), List.filter_eq_self.mpr (by simp), List.map_map]
    exact List.map_id texts
  · rw [List.filter_cons_of_pos (by simp), List.filter_eq_nil_iff.mpr (by simp)]
    rfl

theorem Covers.editsRecorded (h : Covers log tables) (hfit : EditsFit log.events) :
    EditsRecorded log.events tables := by
  intro version hversion htext hedits
  obtain ⟨hshift, halone, hnewest⟩ := hfit version hversion htext hedits
  obtain ⟨newest, hsome, hrecords⟩ := h.recordsOf hversion htext hedits hshift halone
  obtain ⟨hmarked, hplain⟩ := filter_shown newest (editTexts log.events version.1)
  exact ⟨_, newest, hrecords, .of_eq hmarked, hnewest ▸ hsome, hplain⟩

end

/-! ## Logs of nothing but edits -/

/-- Every event that is stored is an edit of a user's text. -/
def OnlyTextEdits (events : List ChatEvent) : Prop :=
  ∀ ev ∈ events, isStored ev = true → (textEdit ev).isSome = true

/-- The keys of the rows. -/
def keysOf (events : List ChatEvent) : List Key :=
  (keptMessages (storings events)).foldl addKey []

theorem keysOf_append (front back : List ChatEvent) :
    keysOf (front ++ back) = (keptMessages (storings back)).foldl addKey (keysOf front) := by
  unfold keysOf keptMessages
  rw [storings_append, List.map_append, List.filter_append, List.foldl_append]

/-- An edit of a text, or nothing that is stored. -/
theorem edit_cases {ev : ChatEvent} (h : OnlyTextEdits events) (hev : ev ∈ events) :
    eventStorings ev = [] ∨ ∃ oldMessage newMessage text,
      ev.action = .chatEventMessageEdited oldMessage newMessage ∧
      (userText oldMessage).isSome = true ∧ (userText newMessage).isSome = true ∧
      textEdit ev = some (rawKey oldMessage, text) := by
  have hedit := h ev hev
  unfold textEdit at hedit ⊢
  unfold eventStorings
  cases haction : ev.action with
  | other => exact .inl rfl
  | chatEventMessageDeleted msg => simp [isStored, haction] at hedit
  | chatEventMessageEdited oldMessage newMessage =>
    right
    simp only [isStored, haction, forall_const] at hedit
    by_cases hold : (userText oldMessage).isSome = true
    · rw [if_pos hold] at hedit
      obtain ⟨text, hnew⟩ := Option.isSome_iff_exists.mp (by simpa using hedit)
      exact ⟨oldMessage, newMessage, text, rfl, hold, by simp [hnew], by simp [hold, hnew]⟩
    · simp [hold] at hedit

/-- Both versions of an edit come one after the other, so that the second does not find the row of
the first unless their keys agree. -/
theorem foldl_addKey_pair {keys : List Key} {first second : Message}
    (hraw : rawKey first = rawKey second) (hshifted : shiftedKey first = shiftedKey second)
    (hnew : rawKey first ∉ keys) (hne : rawKey first ≠ shiftedKey first) :
    [first, second].foldl addKey keys = keys ++ [shiftedKey first, shiftedKey first] := by
  have hnew' : rawKey second ∉ keys ++ [shiftedKey first] := by
    rw [List.mem_append, List.mem_singleton, ← hraw]
    simp [hnew, hne]
  have hfirst : addKey keys first = keys ++ [shiftedKey first] := if_neg hnew
  rw [List.foldl_cons, List.foldl_cons, List.foldl_nil, hfirst, addKey, if_neg hnew', ← hshifted,
    List.append_assoc]
  rfl

theorem count_le_keysOf (front back : List ChatEvent) (key : Key) :
    (keysOf front).count key ≤ (keysOf (front ++ back)).count key := by
  rw [keysOf_append]
  exact (prefix_foldl_addKey _ _).sublist.count_le key

section

variable {log : MessageLog} {front back : List ChatEvent} {ev : ChatEvent}

theorem keptMessages_edit {oldMessage newMessage : Message}
    (haction : ev.action = .chatEventMessageEdited oldMessage newMessage)
    (hold : (userText oldMessage).isSome = true) (hnew : (userText newMessage).isSome = true) :
    keptMessages (storings [ev]) = [oldMessage, newMessage] := by
  rw [storings_singleton]
  simp [keptMessages, eventStorings, haction, isKept_of_userText hold, isKept_of_userText hnew]

/-- An edit that finds no row leaves two with one key. -/
theorem two_le_count_of_edit (hlog : log.events = front ++ ev :: back)
    {oldMessage newMessage : Message}
    (haction : ev.action = .chatEventMessageEdited oldMessage newMessage)
    (hold : (userText oldMessage).isSome = true) (hnew : (userText newMessage).isSome = true)
    (hmissing : rawKey oldMessage ∉ keysOf front)
    (hne : rawKey oldMessage ≠ shiftedKey oldMessage) :
    2 ≤ (keysOf (front ++ [ev])).count (shiftedKey oldMessage) := by
  have hev : ev ∈ log.events := by simp [hlog]
  obtain ⟨hraw, hshifted⟩ := log.keys_of_edit hev haction
  rw [keysOf_append, keptMessages_edit haction hold hnew,
    foldl_addKey_pair hraw hshifted hmissing hne, List.count_append]
  simp

/-- By induction on the log: a key has two rows, or it is the raw key of a message that is shifted
to itself. -/
theorem two_le_count_or_exists (honly : OnlyTextEdits log.events)
    (hlog : log.events = front ++ back) {key : Key} (hkey : key ∈ keysOf front) :
    2 ≤ (keysOf front).count key ∨
      ∃ version ∈ storings front, rawKey version.1 = key ∧ shiftedKey version.1 = key := by
  induction front using List.reverseRecOn generalizing back with
  | nil => simp [keysOf, keptMessages] at hkey
  | append_singleton front ev ih =>
    rw [List.append_assoc, List.singleton_append] at hlog
    have hev : ev ∈ log.events := by simp [hlog]
    have hbefore (hmem : key ∈ keysOf front) :
        2 ≤ (keysOf (front ++ [ev])).count key ∨
          ∃ version ∈ storings (front ++ [ev]), rawKey version.1 = key ∧
            shiftedKey version.1 = key := by
      obtain htwo | ⟨version, hversion, heq⟩ := ih hlog hmem
      · exact .inl (Nat.le_trans htwo (count_le_keysOf front [ev] key))
      · rw [storings_append]
        exact .inr ⟨version, List.mem_append_left _ hversion, heq⟩
    obtain hnone | ⟨oldMessage, newMessage, text, haction, hold, hnew, -⟩ :=
      edit_cases honly hev
    · apply hbefore
      rw [keysOf_append, storings_singleton, hnone] at hkey
      exact hkey
    · obtain ⟨hraw, hshifted⟩ := log.keys_of_edit hev haction
      by_cases hmem : key ∈ keysOf front
      · exact hbefore hmem
      · have hadded : key = shiftedKey oldMessage ∧ rawKey oldMessage ∉ keysOf front := by
          rw [keysOf_append, keptMessages_edit haction hold hnew, List.foldl_cons,
            List.foldl_cons, List.foldl_nil] at hkey
          unfold addKey at hkey
          rw [← hraw, ← hshifted] at hkey
          split_ifs at hkey <;> simp_all
        obtain ⟨rfl, hmissing⟩ := hadded
        by_cases hne : rawKey oldMessage = shiftedKey oldMessage
        · refine .inr ⟨(oldMessage, false), ?_, hne, rfl⟩
          rw [storings_append, storings_singleton]
          simp [eventStorings, haction]
        · exact .inl (two_le_count_of_edit hlog haction hold hnew hmissing hne)

/-- The keys are shifted ones. -/
theorem exists_of_mem_keysOf {key : Key} (hkey : key ∈ keysOf events) :
    ∃ version ∈ storings events, shiftedKey version.1 = key := by
  obtain hnil | ⟨msg, hmsg, heq⟩ := exists_of_mem_foldl_addKey hkey
  · simp at hnil
  · obtain ⟨version, hversion, rfl⟩ := List.mem_map.mp (List.mem_filter.mp hmsg).1
    exact ⟨version, hversion, heq⟩

end

/-- In a log of edits, every stored version is one of an edited text. -/
theorem editTexts_ne_nil (log : MessageLog) (honly : OnlyTextEdits log.events)
    {version : Message × Bool} (hversion : version ∈ storings log.events) :
    editTexts log.events version.1 ≠ [] ∧ (userText version.1).isSome = true ∧
      ∃ ev oldMessage newMessage, ev ∈ log.events ∧
        ev.action = .chatEventMessageEdited oldMessage newMessage ∧
        (userText oldMessage).isSome = true ∧ (userText newMessage).isSome = true ∧
        rawKey oldMessage = rawKey version.1 ∧ shiftedKey oldMessage = shiftedKey version.1 := by
  obtain ⟨ev, hev, hstoring⟩ := List.mem_flatMap.mp hversion
  obtain hnone | ⟨oldMessage, newMessage, text, haction, hold, hnew, hedit⟩ :=
    edit_cases honly hev
  · rw [hnone] at hstoring
    simp at hstoring
  · obtain ⟨hraw, hshifted⟩ := log.keys_of_edit hev haction
    have hcases : version = (oldMessage, false) ∨ version = (newMessage, true) := by
      simpa [eventStorings, haction] using hstoring
    have hkeys : rawKey oldMessage = rawKey version.1 ∧
        shiftedKey oldMessage = shiftedKey version.1 := by
      obtain rfl | rfl := hcases
      · exact ⟨rfl, rfl⟩
      · exact ⟨hraw, hshifted⟩
    refine ⟨?_, ?_, ev, oldMessage, newMessage, hev, haction, hold, hnew, hkeys⟩
    · intro hnil
      have hmem : text ∈ editTexts log.events version.1 := by
        unfold editTexts
        rw [List.mem_map]
        refine ⟨(rawKey oldMessage, text), List.mem_filter.mpr ⟨?_, by simp [hkeys.1]⟩, rfl⟩
        exact List.mem_filterMap.mpr ⟨ev, hev, hedit⟩
      rw [hnil] at hmem
      simp at hmem
    · obtain rfl | rfl := hcases
      · exact hold
      · exact hnew

theorem isTextMessage_of_only (log : MessageLog) (honly : OnlyTextEdits log.events)
    (msg : Message) : IsTextMessage log.events msg :=
  fun _ hversion _ ↦ (editTexts_ne_nil log honly hversion).2.1

theorem length_recordsOf (store : Store) (key : Key) :
    (store.recordsOf key).length = store.keys.count key := by
  unfold Store.recordsOf Store.keys entriesOf
  rw [List.length_map, ← List.countP_eq_length_filter, List.count_eq_countP, List.countP_map]
  conv_rhs => rw [← List.zipIdx_map_fst 0 store.messages]
  rw [List.countP_map]
  apply List.countP_congr
  intro entry _
  simp

section

variable {log : MessageLog} {tables : Tables}

theorem Covers.count_keysOf (h : Covers log tables) (msg : Message) :
    (tables.recordsOf msg.chatId msg.id).length =
      (keysOf log.events).count (shiftedKey msg) := by
  obtain ⟨stored, hholds, hstored⟩ := h
  rw [hholds.valid.recordsOf, length_recordsOf, hholds.replays.keys, hstored]
  rfl

/-- A recorded message is shifted to itself: it was not found when it came first, and of two rows
neither would be the only one. -/
theorem Covers.shift_eq (h : Covers log tables) (honly : OnlyTextEdits log.events)
    (hrecorded : EditsRecorded log.events tables) {version : Message × Bool}
    (hversion : version ∈ storings log.events) :
    rawKey version.1 = shiftedKey version.1 := by
  have hcount (other : Message × Bool) (hother : other ∈ storings log.events) :
      (keysOf log.events).count (shiftedKey other.1) = 1 := by
    obtain ⟨hedits, -⟩ := editTexts_ne_nil log honly hother
    obtain ⟨shown, text, hrecords, -⟩ :=
      hrecorded other hother (isTextMessage_of_only log honly other.1) hedits
    rw [← h.count_keysOf, hrecords]
    rfl
  obtain ⟨-, -, ev, oldMessage, newMessage, hev, haction, hold, hnew, hraw, hshifted⟩ :=
    editTexts_ne_nil log honly hversion
  obtain ⟨front, back, hlog⟩ := List.append_of_mem hev
  rw [← hraw, ← hshifted]
  by_contra hne
  by_cases hfound : rawKey oldMessage ∈ keysOf front
  · -- the row was left by a message that is shifted to this raw key, and only once
    obtain ⟨other, hother, heq⟩ := exists_of_mem_keysOf hfound
    have hstored (found : Message × Bool) (hmem : found ∈ storings front) :
        found ∈ storings log.events := by
      rw [hlog, storings_append]
      exact List.mem_append_left _ hmem
    obtain htwo | ⟨own, hown, hkey, hkey'⟩ := two_le_count_or_exists honly hlog hfound
    · have hle := count_le_keysOf front (ev :: back) (rawKey oldMessage)
      rw [← hlog, ← heq, hcount other (hstored other hother), heq] at hle
      omega
    · have hsame := log.shiftedKey_eq (hstored own hown) hversion (hkey.trans hraw)
      exact hne (by rw [← hkey', hsame, hshifted])
  · have htwo := two_le_count_of_edit hlog haction hold hnew hfound hne
    have hle := count_le_keysOf (front ++ [ev]) back (shiftedKey oldMessage)
    rw [List.append_assoc, List.singleton_append, ← hlog, hshifted, hcount version hversion]
      at hle
    rw [hshifted] at htwo
    omega

theorem Covers.editsFit (h : Covers log tables) (honly : OnlyTextEdits log.events)
    (hrecorded : EditsRecorded log.events tables) : EditsFit log.events := by
  intro version hversion htext hedits
  have hkeys := h.shift_eq honly hrecorded hversion
  have hshift : rawId version.1 = shiftedId version.1 := (Prod.mk.inj hkeys).2
  have halone : ∀ other ∈ storings log.events, isKept other.1 = true →
      shiftedKey other.1 = shiftedKey version.1 → rawKey other.1 = rawKey version.1 := by
    intro other hother _ heq
    calc
      rawKey other.1 = shiftedKey other.1 := h.shift_eq honly hrecorded hother
      _ = shiftedKey version.1 := heq
      _ = rawKey version.1 := hkeys.symm
  refine ⟨hshift, halone, ?_⟩
  obtain ⟨newest, hnewest, hrecords⟩ := h.recordsOf hversion htext hedits hshift halone
  obtain ⟨shown, text, hrecords', -, holdest, hplain⟩ := hrecorded version hversion htext hedits
  rw [hrecords, List.cons.injEq, Prod.mk.injEq] at hrecords'
  rw [← hrecords'.1.2, (filter_shown _ _).2, List.cons.injEq] at hplain
  rw [hnewest, holdest, hplain.1]

end

/-! ## The walk -/

namespace ChatLog

variable (log : ChatLog)

/-- Pages come from the newest event to the oldest. -/
def ServesInOrder (fromEventId : Int) (page : List ChatEvent) : Prop :=
  page <+: log.below fromEventId ∧ page.length ≤ 100 ∧
    (page = [] → log.below fromEventId = [])

def setting (schema : Schema) : Setting where
  schema := schema
  mayFail := false
  eventLog fromEventId page := ∃ events, page = some events ∧ log.ServesInOrder fromEventId events

end ChatLog

/-- The pages put the log together again. -/
theorem Walks.flatten {log : ChatLog} {schema : Schema} {minEv : Int}
    {pages : List (List ChatEvent)} (h : Walks (log.setting schema).eventLog minEv pages) :
    pages.flatten = log.below minEv := by
  induction h with
  | done => exact ChatLog.below_neg_one.symm
  | refused hgoing hlog =>
    obtain ⟨events, hnone, -⟩ := hlog
    simp at hnone
  | page hgoing hlog hpages ih =>
    obtain ⟨events, hsome, hleading, -, hempty⟩ := hlog
    obtain rfl := Option.some.inj hsome
    rw [List.flatten_cons, ih, ← ChatLog.below_eq_append hleading hempty (.refl _)]

theorem covers_of_ends {log : MessageLog} {schema : Schema} {chatId : Int} {rounds : Nat}
    {after : Worker} {last : Database}
    (hends : (Worker.gatherChatEventLog chatId rounds).Ends
      (Database.Responds (log.setting schema)) {} {} (.returned () after) last) :
    Covers log last.committed := by
  have hkeeps : Keeps (log.setting schema) (fun _ ↦ True)
      (Worker.gatherChatEventLog chatId rounds) {} {} fun _ _ next ↦
        Covers log next.committed := by
    apply keeps_gatherFrom settled_empty holds_nil
    · exact fun _ _ _ _ ↦ trivial
    · intro pages after next hwalks _ hprogress
      have hbelow : log.below 0 = log.events := if_pos rfl
      rw [hwalks.flatten, hbelow] at hprogress
      exact hprogress.covers rfl
  exact Procedure.Ensures.ends hkeeps hends

/-- After a walk through the whole log the edits are recorded if they fit; and if the log stores
nothing but edits of texts, only then. -/
theorem editsRecorded_iff_editsFit (log : MessageLog) (schema : Schema) (chatId : Int)
    (rounds : Nat) :
    ∀ after last, (Worker.gatherChatEventLog chatId rounds).Ends
        (Database.Responds (log.setting schema)) {} {} (.returned () after) last →
      (EditsFit log.events → EditsRecorded log.events last.committed) ∧
      (OnlyTextEdits log.events →
        (EditsRecorded log.events last.committed ↔ EditsFit log.events)) := by
  intro after last hends
  have hcovers := covers_of_ends hends
  refine ⟨hcovers.editsRecorded, fun honly ↦ ?_⟩
  exact ⟨hcovers.editsFit honly, hcovers.editsRecorded⟩

/-! ## Two walks -/

namespace ChatLog

/-- A server that delivers as much as it may. -/
def replies (log : ChatLog) : Replies where
  eventLog fromEventId := some ((log.below fromEventId).take 100)

theorem eventLog_replies (log : ChatLog) (schema : Schema) (fromEventId : Int) :
    (log.setting schema).eventLog fromEventId (log.replies.eventLog fromEventId) := by
  refine ⟨_, rfl, List.take_prefix 100 _, ?_, ?_⟩
  · rw [List.length_take]
    omega
  · intro hnil
    rw [List.take_eq_nil_iff] at hnil
    simpa using hnil

end ChatLog

/-- A text that was edited twice. -/
def editedTwice (id : Int) (first second third : String)
    (hid : -9223372036854775808 ≤ id ∧ id < 9223372036854775808) : MessageLog where
  events := [⟨2, .chatEventMessageEdited (textMessage id second) (textMessage id third)⟩,
    ⟨1, .chatEventMessageEdited (textMessage id first) (textMessage id second)⟩]
  descends := by simp
  positive := by simp
  eventsFit := by simp
  messagesFit := by simpa [storings, eventStorings, textMessage] using hid
  sameMessage := by
    intro ev hev oldMessage newMessage haction
    simp only [List.mem_cons, List.not_mem_nil, or_false] at hev
    obtain rfl | rfl := hev <;> cases haction <;> exact ⟨rfl, rfl⟩

/-- The id 0 is shifted to itself, and the first text was restored. -/
theorem editsRecorded_editedTwice : ∃ after last,
    (Worker.gatherChatEventLog (-42) 2).Ends
      (Database.Responds ((editedTwice 0 "a" "a" "b" (by decide)).setting .complete)) {} {}
      (.returned () after) last ∧
    EditsRecorded (editedTwice 0 "a" "a" "b" (by decide)).events last.committed := by
  obtain ⟨_, after, last, hends, -⟩ : ∃ value after last,
      (Worker.gatherChatEventLog (-42) 2).Ends
        (Database.Responds ((editedTwice 0 "a" "a" "b" (by decide)).setting .complete)) {} {}
        (.returned value after) last ∧
      last.committed.recordsOf (-42) 0 =
        [(true, [("a", false), ("b", true), ("a", true)])] :=
    exists_ends_of_returnIn _ (ChatLog.eventLog_replies _ _) (by decide +kernel)
  have hrecorded := (editsRecorded_iff_editsFit (editedTwice 0 "a" "a" "b" (by decide)) .complete
    (-42) 2 after last hends).1
  exact ⟨after, last, hends, hrecorded (by decide +kernel)⟩

/-- Any other message gets two rows for each edit, none of which is marked. -/
theorem not_editsRecorded_editedTwice : ∃ after last,
    (Worker.gatherChatEventLog (-42) 2).Ends
      (Database.Responds ((editedTwice 5242880 "a" "b" "c" (by decide)).setting .complete)) {} {}
      (.returned () after) last ∧
    last.committed.recordsOf (-42) 5242880 =
      [(false, [("b", false)]), (false, [("c", true)]), (false, [("a", false)]),
        (false, [("b", true)])] ∧
    ¬ EditsRecorded (editedTwice 5242880 "a" "b" "c" (by decide)).events last.committed := by
  obtain ⟨_, after, last, hends, hrecords⟩ : ∃ value after last,
      (Worker.gatherChatEventLog (-42) 2).Ends
        (Database.Responds ((editedTwice 5242880 "a" "b" "c" (by decide)).setting .complete)) {} {}
        (.returned value after) last ∧
      last.committed.recordsOf (-42) 5242880 =
        [(false, [("b", false)]), (false, [("c", true)]), (false, [("a", false)]),
          (false, [("b", true)])] :=
    exists_ends_of_returnIn _ (ChatLog.eventLog_replies _ _) (by decide +kernel)
  refine ⟨after, last, hends, hrecords, fun hrecorded ↦ ?_⟩
  obtain ⟨shown, text, hsingle, -⟩ := hrecorded (textMessage 5242880 "b", false)
    (by simp [editedTwice, storings, eventStorings]) (by decide +kernel) (by decide +kernel)
  have hsame : last.committed.recordsOf (-42) 5242880 = [(true, shown)] := hsingle
  rw [hrecords] at hsame
  simp at hsame

end Tgvisd.HistoryScraper
