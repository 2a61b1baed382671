import Tgvisd.HistoryScraper.Simulation
import Tgvisd.HistoryScraper.Storings

/-!
# The rows of messages

A message is looked up under its raw id and inserted under the shifted one. The second look-up
therefore misses the row that the first insertion has left, unless some row has the raw id by
chance. Which rows there are depends on nothing but the messages and their order, and no row is
ever marked as deleted.
-/

namespace Tgvisd.HistoryScraper

open TdApi

/-! ## Keys -/

/-- The chat and the id of a row. -/
abbrev Key := Int64 × UInt64

def GwGroupMessage.key {User : Type} (row : GwGroupMessage Int64 User) : Key :=
  (row.groupId, row.tgMsgId)

def rawKey (msg : Message) : Key := (groupOf msg, rawId msg)

def shiftedKey (msg : Message) : Key := (groupOf msg, shiftedId msg)

def Store.keys (store : Store) : List Key := store.messages.map GwGroupMessage.key

/-- What a kept message does to the keys. -/
def addKey (keys : List Key) (msg : Message) : List Key :=
  if rawKey msg ∈ keys then keys else keys ++ [shiftedKey msg]

/-- Each message, when its turn comes, either has the raw key of a row or a shifted key that is
new. -/
def Fits : List Key → List Message → Prop
  | _, [] => True
  | keys, msg :: rest =>
    (rawKey msg ∈ keys ∨ shiftedKey msg ∉ keys) ∧ Fits (addKey keys msg) rest

instance Fits.decidable : (keys : List Key) → (msgs : List Message) → Decidable (Fits keys msgs)
  | _, [] => .isTrue trivial
  | keys, msg :: rest =>
    have := Fits.decidable (addKey keys msg) rest
    inferInstanceAs (Decidable (_ ∧ _))

theorem prefix_addKey (keys : List Key) (msg : Message) : keys <+: addKey keys msg := by
  unfold addKey
  split
  · exact List.prefix_refl keys
  · exact List.prefix_append keys _

theorem prefix_foldl_addKey (keys : List Key) (msgs : List Message) :
    keys <+: msgs.foldl addKey keys := by
  induction msgs generalizing keys with
  | nil => exact List.prefix_refl keys
  | cons msg rest ih => exact (prefix_addKey keys msg).trans (ih _)

theorem nodup_addKey_iff {keys : List Key} {msg : Message} (h : keys.Nodup) :
    (addKey keys msg).Nodup ↔ rawKey msg ∈ keys ∨ shiftedKey msg ∉ keys := by
  unfold addKey
  split
  · next hraw => simp [h, hraw]
  · next hraw =>
    rw [← List.concat_eq_append, List.nodup_concat]
    simp [h, hraw]

/-- By induction on the messages. -/
theorem nodup_foldl_addKey_iff {keys : List Key} {msgs : List Message} (h : keys.Nodup) :
    (msgs.foldl addKey keys).Nodup ↔ Fits keys msgs := by
  induction msgs generalizing keys with
  | nil => exact iff_of_true h trivial
  | cons msg rest ih =>
    rw [List.foldl_cons, Fits, ← nodup_addKey_iff h]
    constructor
    · intro hnodup
      have hnext := hnodup.sublist (prefix_foldl_addKey (addKey keys msg) rest).sublist
      exact ⟨hnext, (ih hnext).mp hnodup⟩
    · rintro ⟨hnext, hrest⟩
      exact (ih hnext).mpr hrest

/-- A new key is the shifted key of a message. -/
theorem exists_of_mem_foldl_addKey {key : Key} {keys : List Key} {msgs : List Message}
    (h : key ∈ msgs.foldl addKey keys) : key ∈ keys ∨ ∃ msg ∈ msgs, shiftedKey msg = key := by
  induction msgs generalizing keys with
  | nil => exact .inl h
  | cons msg msgs ih =>
    obtain hmem | ⟨found, hfound, heq⟩ := ih h
    · unfold addKey at hmem
      split at hmem
      · exact .inl hmem
      · rw [List.mem_append, List.mem_singleton] at hmem
        obtain hmem | rfl := hmem
        · exact .inl hmem
        · exact .inr ⟨msg, List.mem_cons_self, rfl⟩
    · exact .inr ⟨found, List.mem_cons_of_mem msg hfound, heq⟩

theorem Fits.of_append {keys : List Key} {front back : List Message} (hkeys : keys.Nodup)
    (h : Fits keys (front ++ back)) : Fits keys front := by
  rw [← nodup_foldl_addKey_iff hkeys] at h ⊢
  rw [List.foldl_append] at h
  exact h.sublist (prefix_foldl_addKey _ back).sublist

/-! ## The keys of a store -/

/-- The kept ones among the stored versions. -/
def keptMessages (stored : List (Message × Bool)) : List Message :=
  (stored.map Prod.fst).filter isKept

theorem find_eq_none_iff {store : Store} {msg : Message} :
    store.find (rawId msg) (groupOf msg) = none ↔ rawKey msg ∉ store.keys := by
  unfold Store.find Store.keys
  rw [List.findIdx?_eq_none_iff, List.mem_map]
  constructor
  · rintro h ⟨row, hrow, hkey⟩
    obtain ⟨hgroup, hid⟩ := Prod.mk.inj hkey
    have hrow := h row hrow
    simp [hgroup, hid] at hrow
  · intro h row hrow
    rw [decide_eq_false_iff_not]
    rintro ⟨hid, hgroup⟩
    exact h ⟨row, hrow, Prod.ext hgroup hid⟩

theorem keys_modify {store : Store} {position : Nat}
    {change : GwGroupMessage Int64 UInt64 → GwGroupMessage Int64 UInt64}
    (hchange : ∀ row, (change row).key = row.key) :
    (store.messages.modify position change).map GwGroupMessage.key = store.keys := by
  unfold Store.keys
  apply List.ext_getElem?
  intro i
  rw [List.getElem?_map, List.getElem?_map, List.getElem?_modify]
  cases store.messages[i]? with
  | none => rfl
  | some row =>
    rw [Option.map_some, Option.map_eq_map, Option.map_some, Option.map_some]
    split
    · rw [hchange]
    · rfl

theorem mem_modify {Value : Type} {values : List Value} {position : Nat}
    {change : Value → Value} {value : Value} (h : value ∈ values.modify position change) :
    ∃ old ∈ values, value = old ∨ value = change old := by
  obtain ⟨i, hi⟩ := List.mem_iff_getElem?.mp h
  rw [List.getElem?_modify] at hi
  cases hold : values[i]? with
  | none => simp [hold] at hi
  | some old =>
    refine ⟨old, List.mem_of_getElem? hold, ?_⟩
    rw [hold] at hi
    by_cases hposition : position = i
    · right
      simpa [hposition, eq_comm] using hi
    · left
      simpa [hposition, eq_comm] using hi

theorem Stores.keys {msg : Message} {isEdited : Bool} {before after : Store}
    (h : Stores msg isEdited before after) :
    after.keys = (keptMessages [(msg, isEdited)]).foldl addKey before.keys := by
  cases hkept : isKept msg with
  | false =>
    obtain ⟨hmessages, -⟩ := h.not_kept hkept
    simp [keptMessages, hkept, Store.keys, hmessages]
  | true =>
    have hsingle : keptMessages [(msg, isEdited)] = [msg] := by simp [keptMessages, hkept]
    rw [hsingle, List.foldl_cons, List.foldl_nil, addKey]
    cases hfind : before.find (rawId msg) (groupOf msg) with
    | none =>
      rw [if_neg (find_eq_none_iff.mp hfind)]
      obtain ⟨row, hgroup, hid, -, -, hmessages, -⟩ := h.inserted hkept hfind
      have hkey : row.key = shiftedKey msg := Prod.ext hgroup hid
      rw [Store.keys, hmessages, List.map_append, List.map_singleton, hkey, Store.keys]
    | some position =>
      have hraw : rawKey msg ∈ before.keys := by
        by_contra hnot
        rw [find_eq_none_iff.mpr hnot] at hfind
        simp at hfind
      rw [if_pos hraw]
      obtain ⟨-, hmessages, -⟩ | ⟨-, hmessages, -⟩ := h.found hkept hfind
      · rw [Store.keys, hmessages]
        exact keys_modify fun _ ↦ rfl
      · rw [Store.keys, hmessages, Store.keys]

theorem Replays.keys {events : List ChatEvent} {store : Store} (h : Replays events store) :
    store.keys = (keptMessages (storings events)).foldl addKey [] := by
  apply h.induction (fun stored store ↦
    store.keys = (keptMessages stored).foldl addKey [])
  · rfl
  · exact fun stored store eventId hkeys ↦ hkeys
  · intro stored msg isEdited before after hkeys hstores
    have happend : keptMessages (stored ++ [(msg, isEdited)]) =
        keptMessages stored ++ keptMessages [(msg, isEdited)] := by simp [keptMessages]
    rw [hstores.keys, hkeys, happend, List.foldl_append]

/-! ## The rows of a message -/

namespace Tables

variable (tables : Tables)

/-- The rows of a group with an id as it is inserted. -/
def rowsOf (chatId id : Int) : List (GwGroupMessage UInt64 UInt64) :=
  (NumberedTable.rows tables.messages).filter fun row ↦
    tables.tgGroupIdOf row.groupId = some (Int64.ofInt chatId) ∧
      row.tgMsgId = UInt64.ofInt id >>> 20

def NoDuplicates : Prop := ∀ chatId id, (tables.rowsOf chatId id).length ≤ 1

variable {tables}

theorem Valid.key_eq_iff (h : tables.Valid) {row : GwGroupMessage UInt64 UInt64}
    (hrow : row ∈ NumberedTable.rows tables.messages) {tgGroupId : Int64} {tgMsgId : UInt64} :
    (tables.canonicalMessage row).key = (tgGroupId, tgMsgId) ↔
      tables.tgGroupIdOf row.groupId = some tgGroupId ∧ row.tgMsgId = tgMsgId := by
  obtain ⟨group, hgroup⟩ := NumberedTable.exists_rowAt (h.messageRefs row hrow).1
  have htgGroupId : tables.tgGroupIdOf row.groupId = some group.tgGroupId := by
    unfold tgGroupIdOf
    rw [hgroup, Option.map_some]
  simp [htgGroupId, GwGroupMessage.key, canonicalMessage, Prod.ext_iff]

theorem Valid.length_rowsOf (h : tables.Valid) (chatId id : Int) :
    (tables.rowsOf chatId id).length =
      tables.canonical.keys.count (Int64.ofInt chatId, UInt64.ofInt id >>> 20) := by
  unfold rowsOf Store.keys canonical
  rw [List.map_map, List.count_eq_countP, List.countP_map, List.countP_eq_length_filter]
  congr 1
  apply List.filter_congr
  intro row hrow
  rw [Bool.eq_iff_iff, decide_eq_true_iff, ← h.key_eq_iff hrow]
  simp

/-- The keys that are not the keys of messages do not occur. -/
theorem Valid.noDuplicates_iff (h : tables.Valid)
    (hkeys : ∀ key ∈ tables.canonical.keys, ∃ msg, shiftedKey msg = key) :
    tables.NoDuplicates ↔ tables.canonical.keys.Nodup := by
  rw [List.nodup_iff_count_le_one]
  constructor
  · intro hrows key
    by_cases hmem : key ∈ tables.canonical.keys
    · obtain ⟨msg, rfl⟩ := hkeys key hmem
      have hcount := hrows msg.chatId msg.id
      rw [h.length_rowsOf] at hcount
      exact hcount
    · rw [List.count_eq_zero_of_not_mem hmem]
      exact Nat.zero_le 1
  · intro hcount chatId id
    rw [h.length_rowsOf]
    exact hcount _

end Tables

/-! ## Sequences of pages -/

/-- A server that fails only for the reasons that the tables give. -/
def Setting.reliable (schema : Schema) : Setting where
  schema := schema
  mayFail := false
  eventLog _ _ := True

/-- The kept versions of the events of some pages, each event at its first occurrence. -/
def storedMessages (pages : List (List ChatEvent)) : List Message :=
  keptMessages (storings (newEvents [] pages.flatten))

theorem Progress.keys {setting : Setting} {events : List ChatEvent} {tables : Tables}
    (hreliable : setting.mayFail = false) (h : Progress setting [] events tables) :
    tables.Valid ∧ tables.canonical.keys =
      (keptMessages (storings (newEvents [] events))).foldl addKey [] := by
  obtain ⟨stored, hselects, hholds⟩ := h
  rw [hselects.new hreliable, List.nil_append] at hholds
  exact ⟨hholds.valid, hholds.replays.keys⟩

theorem Progress.noDuplicates_iff {setting : Setting} {events : List ChatEvent}
    {tables : Tables} (hreliable : setting.mayFail = false)
    (h : Progress setting [] events tables) :
    tables.NoDuplicates ↔ Fits [] (keptMessages (storings (newEvents [] events))) := by
  obtain ⟨hvalid, hkeys⟩ := h.keys hreliable
  have hshifted : ∀ key ∈ tables.canonical.keys, ∃ msg, shiftedKey msg = key := by
    intro key hkey
    rw [hkeys] at hkey
    obtain hnil | ⟨msg, -, heq⟩ := exists_of_mem_foldl_addKey hkey
    · simp at hnil
    · exact ⟨msg, heq⟩
  rw [hvalid.noDuplicates_iff hshifted, hkeys, nodup_foldl_addKey_iff List.nodup_nil]

/-- A part of the events is stored as a part of the whole. -/
theorem keptMessages_newEvents_append (front back : List ChatEvent) :
    ∃ rest, keptMessages (storings (newEvents [] (front ++ back))) =
      keptMessages (storings (newEvents [] front)) ++ rest := by
  rw [newEvents_append, storings_append, keptMessages, List.map_append, List.filter_append]
  exact ⟨_, rfl⟩

theorem keeps_processPages_noDuplicates {schema : Schema} {pages : List (List ChatEvent)} :
    Keeps (.reliable schema)
      (fun next ↦ Fits [] (storedMessages pages) → next.committed.NoDuplicates)
      (Worker.processPages pages) {} {} fun _ _ next ↦
        (next.committed.NoDuplicates ↔ Fits [] (storedMessages pages)) := by
  apply keeps_processPages settled_empty holds_nil
  · rintro front next ⟨back, hback⟩ hprogress hfits
    rw [Progress.noDuplicates_iff rfl hprogress]
    unfold storedMessages at hfits
    obtain ⟨rest, hrest⟩ := keptMessages_newEvents_append front back
    rw [← hback, hrest] at hfits
    exact hfits.of_append List.nodup_nil
  · exact fun after next _ hprogress ↦ Progress.noDuplicates_iff rfl hprogress

/-- A message never gets a second row if the stored messages fit, and it has got one when a
sequence of pages has been processed that do not. -/
theorem noDuplicates_iff_fits (schema : Schema) (pages : List (List ChatEvent)) :
    (Fits [] (storedMessages pages) → ∀ last,
      (Worker.processPages pages).Visits (Database.Responds (.reliable schema)) {} {} last →
        last.committed.NoDuplicates) ∧
    ∀ after last,
      (Worker.processPages pages).Ends (Database.Responds (.reliable schema)) {} {}
        (.returned () after) last →
        (last.committed.NoDuplicates ↔ Fits [] (storedMessages pages)) := by
  constructor
  · intro hfits last hvisits
    obtain rfl | hlast := Procedure.Ensures.visits keeps_processPages_noDuplicates hvisits
    · intro chatId id
      exact Nat.zero_le 1
    · exact hlast hfits
  · exact fun after last hends ↦ Procedure.Ensures.ends keeps_processPages_noDuplicates hends

/-- One edit of a text. -/
def editedOnce : List ChatEvent :=
  [⟨1, .chatEventMessageEdited (textMessage (5 * 1048576) "old")
    (textMessage (5 * 1048576) "new")⟩]

/-- The edit leaves two rows with the id 5. -/
theorem duplicates_of_edit : ∃ after last,
    (Worker.processPages [editedOnce]).Ends (Database.Responds (.reliable .complete)) {} {}
      (.returned () after) last ∧
    last.committed.rowsOf (-42) (5 * 1048576) =
      [⟨1, 1, 5, 0, "text", false, false, false⟩, ⟨1, 1, 5, 0, "text", false, false, false⟩] ∧
    ¬ last.committed.NoDuplicates := by
  obtain ⟨_, after, last, hends, hrows⟩ : ∃ value after last,
      (Worker.processPages [editedOnce]).Ends (Database.Responds (.reliable .complete)) {} {}
        (.returned value after) last ∧
      last.committed.rowsOf (-42) (5 * 1048576) =
        [⟨1, 1, 5, 0, "text", false, false, false⟩,
          ⟨1, 1, 5, 0, "text", false, false, false⟩] :=
    exists_ends_of_returnIn {} (fun _ ↦ trivial) (by decide +kernel)
  refine ⟨after, last, hends, hrows, fun hunique ↦ ?_⟩
  have hlength := hunique (-42) (5 * 1048576)
  rw [hrows] at hlength
  simp at hlength

/-! ## Deletions -/

/-- An event that deletes a message whose row is stored. -/
def deletedMessage (ev : ChatEvent) : Option Message :=
  match ev.action with
  | .chatEventMessageDeleted msg => if isKept msg then some msg else none
  | .chatEventMessageEdited _ _ | .other => none

/-- The messages that tracked events delete have a row that says so. -/
def DeletionsMarked (events : List ChatEvent) (tables : Tables) : Prop :=
  ∀ ev ∈ events, UInt64.ofInt ev.id ∈ tables.tracked → ∀ msg, deletedMessage ev = some msg →
    ∃ row ∈ tables.rowsOf msg.chatId msg.id, row.isDeleted = true

/-- The flag that `processChatEventLog` hands down is always false. -/
theorem Replays.isDeleted_eq_false {events : List ChatEvent} {store : Store}
    (h : Replays events store) : ∀ row ∈ store.messages, row.isDeleted = false := by
  apply h.induction (fun _ store ↦ ∀ row ∈ store.messages, row.isDeleted = false)
  · simp
  · exact fun stored store eventId hrows ↦ hrows
  · intro stored msg isEdited before after hrows hstores row hrow
    cases hkept : isKept msg with
    | false =>
      rw [(hstores.not_kept hkept).1] at hrow
      exact hrows row hrow
    | true =>
      cases hfind : before.find (rawId msg) (groupOf msg) with
      | none =>
        obtain ⟨new, -, -, -, hnew, hmessages, -⟩ := hstores.inserted hkept hfind
        rw [hmessages, List.mem_append, List.mem_singleton] at hrow
        obtain hrow | rfl := hrow
        · exact hrows row hrow
        · exact hnew
      | some position =>
        obtain ⟨-, hmessages, -⟩ | ⟨-, hmessages, -⟩ := hstores.found hkept hfind
        · rw [hmessages] at hrow
          obtain ⟨old, hold, heq | heq⟩ := mem_modify hrow
          · exact heq ▸ hrows old hold
          · exact heq ▸ hrows old hold
        · rw [hmessages] at hrow
          exact hrows row hrow

theorem Holds.isDeleted_eq_false {events : List ChatEvent} {tables : Tables}
    (h : Holds events tables) : ∀ row ∈ NumberedTable.rows tables.messages,
      row.isDeleted = false := by
  intro row hrow
  exact h.replays.isDeleted_eq_false (tables.canonicalMessage row) (List.mem_map_of_mem hrow)

theorem Holds.marked_iff {stored events : List ChatEvent} {tables : Tables}
    (h : Holds stored tables) :
    DeletionsMarked events tables ↔ ∀ ev ∈ events, UInt64.ofInt ev.id ∈ tables.tracked →
      deletedMessage ev = none := by
  constructor
  · intro hmarked ev hev htracked
    rw [Option.eq_none_iff_forall_ne_some]
    intro msg hdeleted
    obtain ⟨row, hrow, hmark⟩ := hmarked ev hev htracked msg hdeleted
    rw [h.isDeleted_eq_false row (List.mem_filter.mp hrow).1] at hmark
    simp at hmark
  · intro hnone ev hev htracked msg hdeleted
    rw [hnone ev hev htracked] at hdeleted
    simp at hdeleted

theorem keeps_processPages_deletionsMarked {schema : Schema} {pages : List (List ChatEvent)}
    {events : List ChatEvent} :
    Keeps (.reliable schema)
      (fun next ↦ DeletionsMarked events next.committed ↔
        ∀ ev ∈ events, UInt64.ofInt ev.id ∈ next.committed.tracked → deletedMessage ev = none)
      (Worker.processPages pages) {} {} fun _ _ next ↦
        (DeletionsMarked events next.committed ↔
          ∀ ev ∈ events, UInt64.ofInt ev.id ∈ next.committed.tracked →
            deletedMessage ev = none) ∧
        next.committed.tracked = eventIds (newEvents [] pages.flatten) := by
  apply keeps_processPages settled_empty holds_nil
  · rintro front next - ⟨stored, -, hholds⟩
    exact hholds.marked_iff
  · rintro after next - ⟨stored, hselects, hholds⟩
    refine ⟨hholds.marked_iff, ?_⟩
    rw [hholds.tracked, hselects.new rfl, List.nil_append]
    rfl

/-- A deleted message is never marked, so that all is well only as long as no deletion of a
message with a row has been committed. -/
theorem deletionsMarked_iff (schema : Schema) (pages : List (List ChatEvent)) :
    (∀ last,
      (Worker.processPages pages).Visits (Database.Responds (.reliable schema)) {} {} last →
        (DeletionsMarked (newEvents [] pages.flatten) last.committed ↔
          ∀ ev ∈ newEvents [] pages.flatten, UInt64.ofInt ev.id ∈ last.committed.tracked →
            deletedMessage ev = none)) ∧
    ∀ after last,
      (Worker.processPages pages).Ends (Database.Responds (.reliable schema)) {} {}
        (.returned () after) last →
        (DeletionsMarked (newEvents [] pages.flatten) last.committed ↔
          ∀ ev ∈ newEvents [] pages.flatten, deletedMessage ev = none) := by
  constructor
  · intro last hvisits
    obtain rfl | hlast := Procedure.Ensures.visits keeps_processPages_deletionsMarked hvisits
    · exact holds_nil.marked_iff
    · exact hlast
  · intro after last hends
    obtain ⟨hmarked, htracked⟩ : _ ∧ last.committed.tracked = _ :=
      Procedure.Ensures.ends keeps_processPages_deletionsMarked hends
    rw [hmarked]
    apply forall₂_congr
    intro ev hev
    rw [htracked]
    exact imp_iff_right (List.mem_map_of_mem hev)

def deletedOnce : List ChatEvent :=
  [⟨1, .chatEventMessageDeleted (textMessage (5 * 1048576) "text")⟩]

/-- The row that the deletion has inserted is not marked. -/
theorem not_deletionsMarked_deletedOnce : ∃ after last,
    (Worker.processPages [deletedOnce]).Ends (Database.Responds (.reliable .complete)) {} {}
      (.returned () after) last ∧
    last.committed.tracked = [1] ∧
    last.committed.rowsOf (-42) (5 * 1048576) = [⟨1, 1, 5, 0, "text", false, false, false⟩] ∧
    ¬ DeletionsMarked (newEvents [] [deletedOnce].flatten) last.committed := by
  obtain ⟨_, after, last, hends, hseen⟩ : ∃ value after last,
      (Worker.processPages [deletedOnce]).Ends (Database.Responds (.reliable .complete)) {} {}
        (.returned value after) last ∧
      (last.committed.tracked, last.committed.rowsOf (-42) (5 * 1048576)) =
        ([1], [⟨1, 1, 5, 0, "text", false, false, false⟩]) :=
    exists_ends_of_returnIn {} (fun _ ↦ trivial) (by decide +kernel)
  obtain ⟨htracked, hrows⟩ := Prod.mk.inj hseen
  refine ⟨after, last, hends, htracked, hrows, fun hmarked ↦ ?_⟩
  have hmem : UInt64.ofInt 1 ∈ last.committed.tracked := by simp [htracked]
  have hstored : newEvents [] [deletedOnce].flatten = deletedOnce := by
    simp [newEvents, deletedOnce, isStored]
  rw [hstored] at hmarked
  obtain ⟨row, hrow, hmark⟩ := hmarked _ (List.mem_singleton_self _) hmem _ rfl
  have hrow' : row ∈ last.committed.rowsOf (-42) (5 * 1048576) := hrow
  rw [hrows, List.mem_singleton] at hrow'
  rw [hrow'] at hmark
  simp at hmark

end Tgvisd.HistoryScraper
