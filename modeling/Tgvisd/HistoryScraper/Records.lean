import Tgvisd.HistoryScraper.MessageRows

/-!
# What the tables show of a message

The rows of a message with their marks, and with the texts that refer to them. If all versions of
a message lead to the same key, there is one row, and what it shows is told by the versions in
the order in which they are stored.
-/

namespace Tgvisd.HistoryScraper

open TdApi

/-- Whether a row is marked as edited, and the texts that refer to it, with their marks. -/
abbrev Record := Bool × List (String × Bool)

/-- In the order of the rows. -/
def Tables.recordsOf (tables : Tables) (chatId id : Int) : List Record :=
  (tables.messages.filter fun entry ↦
      tables.tgGroupIdOf entry.row.groupId = some (Int64.ofInt chatId) ∧
        entry.row.tgMsgId = UInt64.ofInt id >>> 20).map
    fun entry ↦ (entry.row.hasEditedMsg,
      ((NumberedTable.rows tables.data).filter fun row ↦ row.msgId = entry.number).map
        fun row ↦ (row.text, row.isEdited))

/-- The data of the row at a position. -/
def shownAt (view : List (Nat × String × Bool)) (position : Nat) : List (String × Bool) :=
  (view.filter fun entry ↦ entry.1 = position).map Prod.snd

def recordAt (view : List (Nat × String × Bool))
    (entry : GwGroupMessage Int64 UInt64 × Nat) : Record :=
  (entry.1.hasEditedMsg, shownAt view entry.2)

def entriesOf (messages : List (GwGroupMessage Int64 UInt64)) (key : Key) :
    List (GwGroupMessage Int64 UInt64 × Nat) :=
  messages.zipIdx.filter fun entry ↦ entry.1.key = key

def Store.view (store : Store) : List (Nat × String × Bool) := store.data.map dataView

def Store.recordsOf (store : Store) (key : Key) : List Record :=
  (entriesOf store.messages key).map (recordAt store.view)

/-! ## From tables to stores -/

namespace Tables

variable {tables : Tables}

theorem Valid.shownAt_position (h : tables.Valid)
    {entry : Numbered (GwGroupMessage UInt64 UInt64)} {i : Nat}
    (hi : NumberedTable.position tables.messages entry.number = i) :
    shownAt tables.canonical.view i =
      ((NumberedTable.rows tables.data).filter fun row ↦ row.msgId = entry.number).map
        fun row ↦ (row.text, row.isEdited) := by
  unfold shownAt Store.view canonical
  rw [List.map_map, List.filter_map, List.map_map]
  have hfilter : (NumberedTable.rows tables.data).filter
      ((fun view ↦ decide (view.1 = i)) ∘ dataView ∘ tables.canonicalData) =
      (NumberedTable.rows tables.data).filter fun row ↦ row.msgId = entry.number := by
    apply List.filter_congr
    intro row hrow
    rw [← hi]
    apply decide_eq_decide.mpr
    exact List.idxOf_inj (h.dataRefs row hrow).1
  rw [hfilter]
  rfl

theorem zipIdx_messages_canonical (tables : Tables) :
    tables.canonical.messages.zipIdx =
      tables.messages.zipIdx.map fun entry ↦
        (tables.canonicalMessage entry.1.row, entry.2) := by
  unfold canonical NumberedTable.rows
  rw [List.map_map, List.zipIdx_map]
  rfl

theorem Valid.position_of_mem_zipIdx (h : tables.Valid)
    {entry : Numbered (GwGroupMessage UInt64 UInt64) × Nat}
    (hentry : entry ∈ tables.messages.zipIdx) :
    NumberedTable.position tables.messages entry.1.number = entry.2 := by
  rw [List.mem_zipIdx_iff_getElem?] at hentry
  obtain ⟨hlt, heq⟩ := List.getElem?_eq_some_iff.mp hentry
  have hlength : entry.2 < (NumberedTable.numbers tables.messages).length := by
    simpa [NumberedTable.numbers] using hlt
  have hnumber : (NumberedTable.numbers tables.messages)[entry.2] = entry.1.number := by
    simp [NumberedTable.numbers, heq]
  rw [← hnumber]
  exact h.messages.nodup.idxOf_getElem _ _

/-- The tables show what the store shows. -/
theorem Valid.recordsOf (h : tables.Valid) (chatId id : Int) :
    tables.recordsOf chatId id =
      tables.canonical.recordsOf (Int64.ofInt chatId, UInt64.ofInt id >>> 20) := by
  have hzip : tables.messages = tables.messages.zipIdx.map Prod.fst :=
    (List.zipIdx_map_fst 0 tables.messages).symm
  unfold Tables.recordsOf Store.recordsOf entriesOf
  rw [zipIdx_messages_canonical, List.filter_map, List.map_map]
  conv_lhs => rw [hzip]
  rw [List.filter_map, List.map_map]
  have hfilter : tables.messages.zipIdx.filter
      ((fun entry : Numbered (GwGroupMessage UInt64 UInt64) ↦
          decide (tables.tgGroupIdOf entry.row.groupId = some (Int64.ofInt chatId) ∧
            entry.row.tgMsgId = UInt64.ofInt id >>> 20)) ∘ Prod.fst) =
      tables.messages.zipIdx.filter
        ((fun entry : GwGroupMessage Int64 UInt64 × Nat ↦
            decide (entry.1.key = (Int64.ofInt chatId, UInt64.ofInt id >>> 20))) ∘
          fun entry ↦ (tables.canonicalMessage entry.1.row, entry.2)) := by
    apply List.filter_congr
    intro entry hentry
    apply decide_eq_decide.mpr
    exact (h.key_eq_iff (List.mem_map_of_mem (List.fst_mem_of_mem_zipIdx hentry))).symm
  rw [hfilter]
  apply List.map_congr_left
  intro entry hentry
  have hposition := h.position_of_mem_zipIdx (List.mem_filter.mp hentry).1
  simp only [Function.comp_apply, recordAt]
  rw [h.shownAt_position hposition]
  rfl

end Tables

/-! ## The steps -/

section

variable {messages : List (GwGroupMessage Int64 UInt64)} {view : List (Nat × String × Bool)}
  {key : Key} {row : GwGroupMessage Int64 UInt64} {position : Nat} {isEdited : Bool}
  {texts : List String}

theorem shownAt_append_self (view : List (Nat × String × Bool)) (position : Nat)
    (texts : List String) (isEdited : Bool) :
    shownAt (view ++ texts.map fun text ↦ (position, text, isEdited)) position =
      shownAt view position ++ texts.map fun text ↦ (text, isEdited) := by
  unfold shownAt
  rw [List.filter_append, List.map_append]
  congr 1
  rw [List.filter_map, List.map_map, List.filter_eq_self.mpr (by simp)]
  rfl

theorem shownAt_append_of_ne (view : List (Nat × String × Bool)) {other : Nat}
    (texts : List String) (isEdited : Bool) (hne : position ≠ other) :
    shownAt (view ++ texts.map fun text ↦ (position, text, isEdited)) other =
      shownAt view other := by
  have hnone : (texts.map fun text ↦ (position, text, isEdited)).filter
      (fun entry ↦ entry.1 = other) = [] := by
    rw [List.filter_eq_nil_iff]
    simp [hne]
  unfold shownAt
  rw [List.filter_append, hnone, List.append_nil]

theorem lt_of_mem_entriesOf {entry : GwGroupMessage Int64 UInt64 × Nat}
    (h : entry ∈ entriesOf messages key) : entry.2 < messages.length := by
  have hmem := (List.mem_filter.mp h).1
  rw [List.mem_zipIdx_iff_getElem?] at hmem
  exact (List.getElem?_eq_some_iff.mp hmem).1

/-- A new row, with its data. -/
theorem map_recordAt_append (hrefs : ∀ entry ∈ view, entry.1 < messages.length) :
    (entriesOf (messages ++ [row]) key).map
        (recordAt (view ++ texts.map fun text ↦ (messages.length, text, isEdited))) =
      (entriesOf messages key).map (recordAt view) ++
        if row.key = key then
          [(row.hasEditedMsg, texts.map fun text ↦ (text, isEdited))]
        else [] := by
  have hentries : entriesOf (messages ++ [row]) key =
      entriesOf messages key ++ if row.key = key then [(row, messages.length)] else [] := by
    unfold entriesOf
    rw [List.zipIdx_append, List.filter_append, List.zipIdx_singleton, List.filter_singleton]
    simp
  have hnew : shownAt view messages.length = [] := by
    unfold shownAt
    rw [List.map_eq_nil_iff, List.filter_eq_nil_iff]
    intro entry hentry
    have hlt := hrefs entry hentry
    simp only [decide_eq_true_eq]
    omega
  rw [hentries, List.map_append]
  congr 1
  · apply List.map_congr_left
    intro entry hentry
    have hlt := lt_of_mem_entriesOf hentry
    rw [recordAt, shownAt_append_of_ne view texts isEdited (by omega), recordAt]
  · split
    · rw [List.map_singleton, recordAt, shownAt_append_self, hnew, List.nil_append]
    · rfl

/-- The row at a position is marked, and gets more data. -/
def markedAt (view : List (Nat × String × Bool)) (position : Nat) (texts : List String)
    (entry : GwGroupMessage Int64 UInt64 × Nat) : Record :=
  if entry.2 = position then (true, shownAt view entry.2 ++ texts.map fun text ↦ (text, true))
  else recordAt view entry

theorem zipIdx_modify {Value : Type} (values : List Value) (position : Nat)
    (change : Value → Value) :
    (values.modify position change).zipIdx =
      values.zipIdx.map fun entry ↦
        (if entry.2 = position then change entry.1 else entry.1, entry.2) := by
  apply List.ext_getElem?
  intro i
  rw [List.getElem?_zipIdx, List.getElem?_modify, List.getElem?_map, List.getElem?_zipIdx]
  cases values[i]? with
  | none => rfl
  | some value => simp [eq_comm]

theorem map_recordAt_modify :
    (entriesOf (messages.modify position fun row ↦ { row with hasEditedMsg := true }) key).map
        (recordAt (view ++ texts.map fun text ↦ (position, text, true))) =
      (entriesOf messages key).map (markedAt view position texts) := by
  unfold entriesOf
  rw [zipIdx_modify, List.filter_map, List.map_map]
  have hfilter : messages.zipIdx.filter
      ((fun entry : GwGroupMessage Int64 UInt64 × Nat ↦ decide (entry.1.key = key)) ∘
        fun entry ↦ (if entry.2 = position then { entry.1 with hasEditedMsg := true }
          else entry.1, entry.2)) =
      messages.zipIdx.filter fun entry ↦ entry.1.key = key := by
    apply List.filter_congr
    intro entry _
    apply decide_eq_decide.mpr
    dsimp only
    split <;> rfl
  rw [hfilter]
  apply List.map_congr_left
  intro entry _
  unfold markedAt
  by_cases hposition : entry.2 = position
  · rw [if_pos hposition, Function.comp_apply, if_pos hposition, recordAt, hposition,
      shownAt_append_self]
  · rw [if_neg hposition, Function.comp_apply, if_neg hposition, recordAt,
      shownAt_append_of_ne view texts true (Ne.symm hposition), recordAt]

/-- A row that stands elsewhere is not touched. -/
theorem map_markedAt_of_ne {found : GwGroupMessage Int64 UInt64}
    (hfound : messages[position]? = some found) (hkey : found.key ≠ key) :
    (entriesOf messages key).map (markedAt view position texts) =
      (entriesOf messages key).map (recordAt view) := by
  apply List.map_congr_left
  intro entry hentry
  obtain ⟨hmem, hentryKey⟩ := List.mem_filter.mp hentry
  rw [List.mem_zipIdx_iff_getElem?] at hmem
  apply if_neg
  intro heq
  rw [heq, hfound, Option.some.injEq] at hmem
  rw [hmem] at hkey
  exact hkey (of_decide_eq_true hentryKey)

theorem mem_entriesOf (hfound : messages[position]? = some row) :
    (row, position) ∈ entriesOf messages row.key := by
  refine List.mem_filter.mpr ⟨?_, by simp⟩
  rw [List.mem_zipIdx_iff_getElem?]
  exact hfound

end

/-! ## A message whose versions all lead to one key -/

/-- The kept versions that are looked up under a key. -/
def ownVersions (key : Key) (stored : List (Message × Bool)) : List (Message × Bool) :=
  stored.filter fun version ↦ isKept version.1 ∧ rawKey version.1 = key

/-- The first version inserts the row, and the edited ones after it mark it and add their data. -/
def recordsFor : List (Message × Bool) → List Record
  | [] => []
  | first :: rest =>
    [(rest.any Prod.snd, (dataTexts first.1).map (fun text ↦ (text, first.2)) ++
      (rest.filter Prod.snd).flatMap fun version ↦
        (dataTexts version.1).map fun text ↦ (text, true))]

theorem recordsFor_append_edited {versions : List (Message × Bool)} {shown : List (String × Bool)}
    {mark : Bool} (h : recordsFor versions = [(mark, shown)]) (msg : Message) :
    recordsFor (versions ++ [(msg, true)]) =
      [(true, shown ++ (dataTexts msg).map fun text ↦ (text, true))] := by
  cases versions with
  | nil => simp [recordsFor] at h
  | cons first rest =>
    rw [recordsFor, List.cons.injEq, Prod.mk.injEq] at h
    rw [List.cons_append, recordsFor, ← h.1.2]
    simp

theorem recordsFor_append_old {versions : List (Message × Bool)} (h : versions ≠ [])
    (msg : Message) : recordsFor (versions ++ [(msg, false)]) = recordsFor versions := by
  cases versions with
  | nil => exact absurd rfl h
  | cons first rest => simp [recordsFor]

/-- References lead to rows. -/
def Store.Refers (store : Store) : Prop :=
  ∀ entry ∈ store.view, entry.1 < store.messages.length

section

variable {msg : Message} {isEdited : Bool} {before after : Store} {key : Key}
  {stored : List (Message × Bool)}

theorem position_lt_of_find {tgMsgId : UInt64} {tgGroupId : Int64} {position : Nat}
    (h : before.find tgMsgId tgGroupId = some position) :
    ∃ row, before.messages[position]? = some row ∧ row.key = (tgGroupId, tgMsgId) := by
  obtain ⟨hlt, hrow, -⟩ := List.findIdx?_eq_some_iff_getElem.mp h
  refine ⟨_, List.getElem?_eq_getElem hlt, ?_⟩
  obtain ⟨hid, hgroup⟩ := of_decide_eq_true hrow
  exact Prod.ext hgroup hid

theorem Stores.refers (h : Stores msg isEdited before after) (hbefore : before.Refers) :
    after.Refers := by
  unfold Store.Refers Store.view at hbefore ⊢
  cases hkept : isKept msg with
  | false =>
    obtain ⟨hmessages, hdata⟩ := h.not_kept hkept
    rwa [hmessages, hdata]
  | true =>
    cases hfind : before.find (rawId msg) (groupOf msg) with
    | none =>
      obtain ⟨row, -, -, -, -, hmessages, hview⟩ := h.inserted hkept hfind
      rw [hmessages, hview, List.length_append, List.length_singleton]
      intro entry hentry
      obtain hentry | hentry := List.mem_append.mp hentry
      · have hlt := hbefore entry hentry
        omega
      · obtain ⟨text, -, rfl⟩ := List.mem_map.mp hentry
        exact Nat.lt_succ_self _
    | some position =>
      obtain ⟨found, hfound, -⟩ := position_lt_of_find hfind
      have hposition := (List.getElem?_eq_some_iff.mp hfound).1
      obtain ⟨-, hmessages, hview⟩ | ⟨-, hmessages, hdata⟩ := h.found hkept hfind
      · rw [hmessages, hview, List.length_modify]
        intro entry hentry
        obtain hentry | hentry := List.mem_append.mp hentry
        · exact hbefore entry hentry
        · obtain ⟨text, -, rfl⟩ := List.mem_map.mp hentry
          exact hposition
      · rwa [hmessages, hdata]

theorem ownVersions_append :
    ownVersions key (stored ++ [(msg, isEdited)]) =
      ownVersions key stored ++
        if isKept msg = true ∧ rawKey msg = key then [(msg, isEdited)] else [] := by
  unfold ownVersions
  rw [List.filter_append, List.filter_singleton]
  simp

/-- The version has a row already. -/
theorem Stores.recordsOf_found (h : Stores msg isEdited before after) (hkept : isKept msg = true)
    {position : Nat} (hfind : before.find (rawId msg) (groupOf msg) = some position)
    (hrecords : before.recordsOf key = recordsFor (ownVersions key stored)) :
    after.recordsOf key = recordsFor (ownVersions key (stored ++ [(msg, isEdited)])) := by
  obtain ⟨found, hfound, hkey⟩ := position_lt_of_find hfind
  have hraw : found.key = rawKey msg := hkey
  rw [ownVersions_append]
  by_cases hown : rawKey msg = key
  · have hmem : (found, position) ∈ entriesOf before.messages key := by
      rw [← hown, ← hraw]
      exact mem_entriesOf hfound
    have hne : ownVersions key stored ≠ [] := by
      intro hnil
      rw [hnil, recordsFor, Store.recordsOf, List.map_eq_nil_iff] at hrecords
      rw [hrecords] at hmem
      simp at hmem
    rw [if_pos ⟨hkept, hown⟩]
    obtain ⟨rfl, hmessages, hview⟩ | ⟨rfl, hmessages, hdata⟩ := h.found hkept hfind
    · obtain ⟨mark, shown, hsingle⟩ : ∃ mark shown,
          recordsFor (ownVersions key stored) = [(mark, shown)] := by
        cases hversions : ownVersions key stored with
        | nil => exact absurd hversions hne
        | cons first rest => exact ⟨_, _, rfl⟩
      rw [recordsFor_append_edited hsingle, Store.recordsOf, Store.view, hmessages, hview,
        map_recordAt_modify]
      rw [hsingle, Store.recordsOf] at hrecords
      obtain ⟨entry, hentries, hrecord⟩ := List.map_eq_singleton_iff.mp hrecords
      rw [hentries, List.mem_singleton] at hmem
      rw [hentries, List.map_singleton, markedAt, ← hmem, if_pos rfl]
      rw [← hmem, recordAt, Prod.mk.injEq] at hrecord
      rw [← hrecord.2]
      rfl
    · rw [recordsFor_append_old hne, ← hrecords, Store.recordsOf, Store.view, hmessages, hdata,
        Store.recordsOf, Store.view]
  · rw [if_neg (by simp [hown]), List.append_nil, ← hrecords]
    obtain ⟨-, hmessages, hview⟩ | ⟨-, hmessages, hdata⟩ := h.found hkept hfind
    · rw [Store.recordsOf, Store.view, hmessages, hview, map_recordAt_modify,
        map_markedAt_of_ne hfound (by rwa [hraw])]
      rfl
    · rw [Store.recordsOf, Store.view, hmessages, hdata, Store.recordsOf, Store.view]

/-- The version inserts a row. -/
theorem Stores.recordsOf_inserted (h : Stores msg isEdited before after)
    (hkept : isKept msg = true) (hfind : before.find (rawId msg) (groupOf msg) = none)
    (hown : rawKey msg = key ↔ shiftedKey msg = key) (hrefers : before.Refers)
    (hrecords : before.recordsOf key = recordsFor (ownVersions key stored)) :
    after.recordsOf key = recordsFor (ownVersions key (stored ++ [(msg, isEdited)])) := by
  obtain ⟨row, hgroup, hid, hmark, -, hmessages, hview⟩ := h.inserted hkept hfind
  have hrow : row.key = shiftedKey msg := Prod.ext hgroup hid
  have hdata : ∀ entry ∈ before.data.map dataView, entry.1 < before.messages.length := hrefers
  rw [ownVersions_append, Store.recordsOf, Store.view, hmessages, hview,
    map_recordAt_append hdata]
  change before.recordsOf key ++ _ = _
  rw [hrow]
  by_cases hkey : shiftedKey msg = key
  · have hnil : before.recordsOf key = [] := by
      rw [Store.recordsOf, List.map_eq_nil_iff, entriesOf, List.filter_eq_nil_iff]
      intro entry hentry
      have hnew := find_eq_none_iff.mp hfind
      rw [hown.mpr hkey] at hnew
      intro heq
      apply hnew
      rw [← of_decide_eq_true heq]
      exact List.mem_map_of_mem (List.fst_mem_of_mem_zipIdx hentry)
    have hnone : ownVersions key stored = [] := by
      rw [hnil] at hrecords
      cases hversions : ownVersions key stored with
      | nil => rfl
      | cons first rest =>
        rw [hversions, recordsFor] at hrecords
        simp at hrecords
    rw [if_pos hkey, if_pos ⟨hkept, hown.mpr hkey⟩, hnil, hnone, hmark]
    simp [recordsFor]
  · rw [if_neg hkey, if_neg (by rw [hown]; simp [hkey]), List.append_nil, List.append_nil,
      hrecords]

/-- By induction on the versions: if the versions that are looked up under a key are those that
are inserted under it, they tell what the row shows. -/
theorem Replays.recordsOf {events : List ChatEvent} {store : Store} (h : Replays events store)
    (hown : ∀ version ∈ storings events, isKept version.1 = true →
      (rawKey version.1 = key ↔ shiftedKey version.1 = key)) :
    store.recordsOf key = recordsFor (ownVersions key (storings events)) := by
  have hinvariant : store.Refers ∧
      ((∀ version ∈ storings events, isKept version.1 = true →
        (rawKey version.1 = key ↔ shiftedKey version.1 = key)) →
      store.recordsOf key = recordsFor (ownVersions key (storings events))) := by
    apply h.induction (fun stored store ↦ store.Refers ∧
      ((∀ version ∈ stored, isKept version.1 = true →
        (rawKey version.1 = key ↔ shiftedKey version.1 = key)) →
      store.recordsOf key = recordsFor (ownVersions key stored)))
    · exact ⟨by simp [Store.Refers, Store.view], fun _ ↦ rfl⟩
    · exact fun stored store eventId hstore ↦ hstore
    · rintro stored msg isEdited before after ⟨hrefers, hbefore⟩ hstores
      refine ⟨hstores.refers hrefers, fun hall ↦ ?_⟩
      rw [List.forall_mem_append] at hall
      have hrecords := hbefore hall.1
      cases hkept : isKept msg with
      | false =>
        obtain ⟨hmessages, hdata⟩ := hstores.not_kept hkept
        rw [ownVersions_append, if_neg (by simp [hkept]), List.append_nil, ← hrecords,
          Store.recordsOf, Store.view, hmessages, hdata, Store.recordsOf, Store.view]
      | true =>
        cases hfind : before.find (rawId msg) (groupOf msg) with
        | none =>
          have hmsg := hall.2 (msg, isEdited) (List.mem_singleton_self _) hkept
          exact hstores.recordsOf_inserted hkept hfind hmsg hrefers hrecords
        | some position => exact hstores.recordsOf_found hkept hfind hrecords
  exact hinvariant.2 hown

end

end Tgvisd.HistoryScraper
