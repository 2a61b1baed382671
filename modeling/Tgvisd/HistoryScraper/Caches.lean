import Tgvisd.HistoryScraper.MessageRows

/-!
# The maps of users and groups

Any sequence of calls of `resolveUser` and `resolveGroup`. A row's number is remembered under the
Telegram id, a user under the row's number, and a chat under its own id, although the pointer that
`resolveGroup` hands back is taken from under the row's number.
-/

namespace Tgvisd.HistoryScraper

open TdApi Scrape

/-! ## Calls -/

def IsInt64 (value : Int) : Prop :=
  -9223372036854775808 ≤ value ∧ value < 9223372036854775808

instance (value : Int) : Decidable (IsInt64 value) := inferInstanceAs (Decidable (_ ∧ _))

inductive Call
  | user (user : User)
  | group (chat : Chat)
  deriving DecidableEq, Repr

namespace Call

def id : Call → Int
  | .user asked => asked.id
  | .group asked => asked.id

def isGroup : Call → Bool
  | .user _ => false
  | .group _ => true

/-- `id_` is an `int53` or an `int64`. -/
def InRange (call : Call) : Prop := IsInt64 call.id

instance (call : Call) : Decidable call.InRange := inferInstanceAs (Decidable (IsInt64 call.id))

end Call

/-- The number that is returned, and the id of the object that is handed back. -/
structure Resolution where
  number : UInt64
  pointedId : Int
  deriving DecidableEq, Repr

namespace Worker

def resolve : Call → Scrape Worker Resolution
  | .user user => do
    let (ret, pointed) ← resolveUser user
    pure ⟨ret, pointed.id⟩
  | .group chat => do
    let (ret, pointed) ← resolveGroup chat
    pure ⟨ret, pointed.id⟩

def resolveAll : List Call → Scrape Worker (List Resolution)
  | [] => pure []
  | call :: calls => do
    let result ← resolve call
    let results ← resolveAll calls
    pure (result :: results)

end Worker

/-! ## What a call should deliver -/

/-- The number is that of the row with the id, and the object is the one with the id. -/
def ResolvesTo (tables : Tables) (call : Call) (result : Resolution) : Prop :=
  (match call with
    | .user user => tables.tgUserIdOf result.number = some (UInt64.ofInt user.id)
    | .group chat => tables.tgGroupIdOf result.number = some (Int64.ofInt chat.id)) ∧
  result.pointedId = call.id

/-- Every call delivers what it should; in particular, users with the same id have the same
number and users with different ids different ones, and so have groups. -/
structure Coherent (tables : Tables) (calls : List Call) (results : List Resolution) : Prop where
  resolves : List.Forall₂ (ResolvesTo tables) calls results
  sameNumber : ∀ first ∈ calls.zip results, ∀ second ∈ calls.zip results,
    first.1.isGroup = second.1.isGroup →
      (first.1.id = second.1.id ↔ first.2.number = second.2.number)

/-! ## When it does -/

def Tables.userIds (tables : Tables) : List UInt64 :=
  (NumberedTable.rows tables.users).map GwUser.tgUserId

/-- A user with a negative id is not found in a table that has it. -/
def UserFits (before : Tables) (userId : Int) : Prop :=
  0 ≤ userId ∨ UInt64.ofInt userId ∉ before.userIds

instance (before : Tables) (userId : Int) : Decidable (UserFits before userId) :=
  inferInstanceAs (Decidable (_ ∨ _))

/-- The row of a chat has the chat's id for its number, or the chat has the id 0 of the empty
chat and no chat was stored under the row's number. -/
def GroupFits (tables : Tables) (seen : List Int) (chatId : Int) : Prop :=
  ∀ row ∈ tables.selectGroup (Int64.ofInt chatId),
    row.id.toInt64.toInt = chatId ∨ (chatId = 0 ∧ row.id.toInt64.toInt ∉ seen)

instance (tables : Tables) (seen : List Int) (chatId : Int) :
    Decidable (GroupFits tables seen chatId) :=
  inferInstanceAs (Decidable (∀ row ∈ tables.selectGroup (Int64.ofInt chatId), _))

def CallFits (before tables : Tables) (seen : List Int) : Call → Prop
  | .user user => UserFits before user.id
  | .group chat => chat.id ∈ seen ∨ GroupFits tables seen chat.id

instance (before tables : Tables) (seen : List Int) (call : Call) :
    Decidable (CallFits before tables seen call) :=
  match call with
  | .user user => inferInstanceAs (Decidable (UserFits before user.id))
  | .group chat => inferInstanceAs (Decidable (chat.id ∈ seen ∨ GroupFits tables seen chat.id))

/-- The ids of the groups that were resolved. -/
def Call.addTo (seen : List Int) : Call → List Int
  | .user _ => seen
  | .group chat => chat.id :: seen

/-- `before` are the tables before the first call, and `tables` those after the last one. -/
def CallsFit (before tables : Tables) : List Int → List Call → Prop
  | _, [] => True
  | seen, call :: calls =>
    CallFits before tables seen call ∧ CallsFit before tables (call.addTo seen) calls

instance CallsFit.decidable (before tables : Tables) :
    (seen : List Int) → (calls : List Call) → Decidable (CallsFit before tables seen calls)
  | _, [] => .isTrue trivial
  | seen, call :: calls =>
    have := CallsFit.decidable before tables (call.addTo seen) calls
    inferInstanceAs (Decidable (CallFits before tables seen call ∧ _))

/-! ## One call -/

/-- What a call of `resolveUser` does: the user is in the maps, or kept there with the number of
a row that is inserted or found, or neither. -/
inductive ResolvesUser (user : User) (worker : Worker) (tables : Tables) :
    UInt64 → Worker → Tables → Prop
  | cached {userId : UInt64} (hlookup : worker.userTgToDb.lookup user.id = some userId) :
    ResolvesUser user worker tables userId worker tables
  | inserted {userId : UInt64} {next : Tables} {userMap : UnorderedMap UInt64 User}
      (hmissing : worker.userTgToDb.lookup user.id = none)
      (hnew : UInt64.ofInt user.id ∉ tables.userIds)
      (hids : next.userIds = tables.userIds ++ [UInt64.ofInt user.id])
      (hrow : next.tgUserIdOf userId = some (UInt64.ofInt user.id)) :
    ResolvesUser user worker tables userId { worker with
      userTgToDb := worker.userTgToDb.insert user.id userId, userMap := userMap } next
  | found {userId : UInt64} {userMap : UnorderedMap UInt64 User}
      (hmissing : worker.userTgToDb.lookup user.id = none)
      (hnonneg : 0 ≤ (Int64.ofInt user.id).toInt)
      (hrow : tables.tgUserIdOf userId = some (UInt64.ofInt user.id)) :
    ResolvesUser user worker tables userId { worker with
      userTgToDb := worker.userTgToDb.insert user.id userId, userMap := userMap } tables
  | missed (hmissing : worker.userTgToDb.lookup user.id = none)
      (hold : UInt64.ofInt user.id ∈ tables.userIds)
      (hnegative : (Int64.ofInt user.id).toInt < 0) :
    ResolvesUser user worker tables 0 worker tables

def emptyChat : Chat := { id := 0, title := "" }

/-- What a call of `resolveGroup` does: the group is in the maps, or kept there. -/
inductive ResolvesGroup (chat : Chat) (worker : Worker) (tables : Tables) :
    UInt64 × Chat → Worker → Tables → Prop
  | cached {groupId : UInt64} (hlookup : worker.groupTgToDb.lookup chat.id = some groupId) :
    ResolvesGroup chat worker tables (groupId, chat) worker tables
  | kept {groupId : UInt64} {next : Tables}
      (hmissing : worker.groupTgToDb.lookup chat.id = none) (husers : next.users = tables.users)
      (hrow : next.tgGroupIdOf groupId = some (Int64.ofInt chat.id)) :
    ResolvesGroup chat worker tables
      (groupId, ((worker.groupMap.insert chat.id chat).lookup groupId.toInt64.toInt).getD emptyChat)
      { worker with
        groupTgToDb := worker.groupTgToDb.insert chat.id groupId
        groupMap := UnorderedMap.emplace groupId.toInt64.toInt emptyChat
          (worker.groupMap.insert chat.id chat) } next

section

variable {setting : Setting} {committed : Tables} {worker : Worker} {db : Database}
  {store : Store}

/-- What the label `out` of `resolveUser` keeps. -/
theorem keeps_keepUser {always : Database → Prop} {user : User} {userId : UInt64}
    {returns : UInt64 × User → Worker → Database → Prop}
    (h : returns (userId, user) { worker with
      userTgToDb := worker.userTgToDb.insert user.id userId
      userMap := worker.userMap.insert userId user } db) :
    Keeps setting always (Worker.keepUser user userId) worker db returns := h

/-- What the label `out` of `resolveGroup` keeps. -/
theorem keeps_keepGroup {always : Database → Prop} {chat : Chat} {groupId : UInt64}
    {returns : UInt64 × Chat → Worker → Database → Prop}
    (h : returns (groupId,
        ((worker.groupMap.insert chat.id chat).lookup groupId.toInt64.toInt).getD emptyChat)
      { worker with
        groupTgToDb := worker.groupTgToDb.insert chat.id groupId
        groupMap := UnorderedMap.emplace groupId.toInt64.toInt emptyChat
          (worker.groupMap.insert chat.id chat) } db) :
    Keeps setting always (Worker.keepGroup chat groupId) worker db returns := h

theorem Tables.mem_userIds {tables : Tables} {tgUserId : UInt64} :
    tgUserId ∈ tables.userIds ↔ ∃ entry ∈ tables.users, entry.row.tgUserId = tgUserId := by
  simp [userIds, NumberedTable.rows]

theorem Tables.mem_userIds_of_tgUserIdOf {tables : Tables} {userId tgUserId : UInt64}
    (h : tables.tgUserIdOf userId = some tgUserId) : tgUserId ∈ tables.userIds := by
  obtain ⟨row, hrow, hid⟩ := Option.map_eq_some_iff.mp h
  exact mem_userIds.mpr ⟨_, NumberedTable.mem_of_rowAt hrow, hid⟩

theorem Tables.insertUser_eq_some {tables after : Tables} {number : UInt64} {user : GwUser}
    (h : tables.insertUser number user = some after) : user.tgUserId ∉ tables.userIds ∧
      after = { tables with users := NumberedTable.insert number user tables.users } := by
  unfold insertUser at h
  split at h
  · simp at h
  · next hnew => exact ⟨fun hmem ↦ hnew (mem_userIds.mp hmem), (Option.some.inj h).symm⟩

theorem Tables.insertUser_eq_none {tables : Tables} {number : UInt64} {user : GwUser}
    (h : tables.insertUser number user = none) : user.tgUserId ∈ tables.userIds := by
  unfold insertUser at h
  split at h
  · next hold => exact mem_userIds.mpr hold
  · simp at h

/-- The comparison of the unsigned column with the signed parameter. -/
theorem signedEq_ofInt_iff {value : Int} :
    signedEq (UInt64.ofInt value) (Int64.ofInt value) = true ↔ 0 ≤ (Int64.ofInt value).toInt := by
  have htoNat : ((UInt64.ofInt value).toNat : Int) = value % 18446744073709551616 := by
    rw [UInt64.ofInt, UInt64.toNat_ofNat']
    omega
  have htoInt : (Int64.ofInt value).toInt = if value % 18446744073709551616 < 9223372036854775808
      then value % 18446744073709551616 else value % 18446744073709551616 - 18446744073709551616 :=
    Int64.toInt_ofInt.trans (Int.bmod_def value 18446744073709551616)
  unfold signedEq
  rw [decide_eq_true_iff, htoNat, htoInt]
  omega

namespace Tables

variable {tables : Tables} {value : Int}

theorem nonneg_of_selectUser {row : Row} (h : tables.selectUser (Int64.ofInt value) = some row) :
    0 ≤ (Int64.ofInt value).toInt := by
  obtain ⟨entry, hentry, -⟩ := Option.map_eq_some_iff.mp h
  have hproperty := List.find?_some hentry
  have hvalue : (Int64.ofInt value).toInt = (entry.row.tgUserId.toNat : Int) :=
    of_decide_eq_true hproperty
  omega

theorem negative_of_selectUser (h : tables.selectUser (Int64.ofInt value) = none)
    (hold : UInt64.ofInt value ∈ tables.userIds) : (Int64.ofInt value).toInt < 0 := by
  obtain ⟨entry, hentry, hid⟩ := mem_userIds.mp hold
  have hproperty := List.find?_eq_none.mp (Option.map_eq_none_iff.mp h) entry hentry
  rw [hid, signedEq_ofInt_iff] at hproperty
  omega

/-- The query for a group finds its row. -/
theorem Valid.selectGroup_of_tgGroupIdOf (h : tables.Valid) {groupId : UInt64}
    {tgGroupId : Int64} (hgroup : tables.tgGroupIdOf groupId = some tgGroupId) :
    tables.selectGroup tgGroupId = some { id := groupId } := by
  obtain ⟨row, hrow, hid⟩ := Option.map_eq_some_iff.mp hgroup
  cases hfind : tables.groups.find? fun entry ↦ entry.row.tgGroupId = tgGroupId with
  | none =>
    have hnot := List.find?_eq_none.mp hfind _ (NumberedTable.mem_of_rowAt hrow)
    simp [hid] at hnot
  | some entry =>
    have hselect : tables.selectGroup tgGroupId = some { id := entry.number } := by
      rw [Tables.selectGroup, hfind]
      rfl
    have hnumber : entry.number = groupId :=
      h.groupId_unique (h.selectGroup hselect).2 hgroup
    rw [hselect, hnumber]

theorem Valid.userId_unique (h : tables.Valid) {first second tgUserId : UInt64}
    (hfirst : tables.tgUserIdOf first = some tgUserId)
    (hsecond : tables.tgUserIdOf second = some tgUserId) : first = second :=
  NumberedTable.number_unique h.usersUnique hfirst hsecond

theorem users_of_insertGroup {after : Tables} {number : UInt64} {group : GwGroup}
    (h : tables.insertGroup number group = some after) : after.users = tables.users := by
  unfold insertGroup at h
  split at h
  · simp at h
  · rw [← Option.some.inj h]

end Tables

namespace Worker

/-- The cases are those of the source. -/
theorem transacts_resolveUser_cases {user : User}
    {returns : UInt64 × User → Worker → Database → Prop}
    (h : Represents committed worker db store)
    (hreturns : ∀ userId after next stored, Represents committed after next stored →
      db.working.Extends next.working →
      ResolvesUser user worker db.working userId after next.working →
      returns (userId, user) after next) :
    Transacts setting committed (resolveUser user) worker db returns := by
  apply transacts_resolveUser_exits h
  · intro userId hlookup
    exact hreturns userId worker db store h (.refl _) (.cached hlookup)
  · intro hlookup number tables hnumber hinsert
    obtain ⟨hbecomes, huser⟩ := h.valid.insertUser hnumber hinsert
    have hwritten := h.write .insertUser number hbecomes
    apply keeps_keepUser
    apply hreturns number _ _ _ ⟨hwritten.committed, hwritten.inTransaction, hwritten.valid,
      hwritten.canonical, hwritten.agrees.insertUser huser _⟩ hbecomes.extends
    obtain ⟨hnew, rfl⟩ := Tables.insertUser_eq_some hinsert
    exact .inserted hlookup hnew (by simp [Tables.userIds, working_write]) huser
  · intro hlookup number hinsert
    constructor
    · intro row hselect
      obtain ⟨-, huser⟩ := h.valid.selectUser hselect
      apply keeps_keepUser
      apply hreturns row.id _ db store ⟨h.committed, h.inTransaction, h.valid, h.canonical,
        h.agrees.insertUser huser _⟩ (.refl _)
      exact .found hlookup (Tables.nonneg_of_selectUser hselect) huser
    · intro hselect
      apply hreturns 0 worker db store h (.refl _)
      have hold := Tables.insertUser_eq_none hinsert
      exact .missed hlookup hold (Tables.negative_of_selectUser hselect hold)

theorem transacts_resolveGroup_cases {chat : Chat}
    {returns : UInt64 × Chat → Worker → Database → Prop}
    (h : Represents committed worker db store)
    (hreturns : ∀ result after next stored, Represents committed after next stored →
      db.working.Extends next.working →
      ResolvesGroup chat worker db.working result after next.working →
      returns result after next) :
    Transacts setting committed (resolveGroup chat) worker db returns := by
  apply transacts_resolveGroup_exits h
  · intro groupId hlookup
    exact hreturns (groupId, chat) worker db store h (.refl _) (.cached hlookup)
  · intro hlookup number tables hnumber hinsert
    obtain ⟨hbecomes, hgroup⟩ := h.valid.insertGroup hnumber hinsert
    have hwritten := h.write .insertGroup number hbecomes
    apply keeps_keepGroup
    apply hreturns _ _ _ _ ⟨hwritten.committed, hwritten.inTransaction, hwritten.valid,
      hwritten.canonical, hwritten.agrees.insertGroup hgroup _⟩ hbecomes.extends
    exact .kept hlookup (Tables.users_of_insertGroup hinsert) hgroup
  · intro hlookup number row hinsert hselect
    obtain ⟨-, hgroup⟩ := h.valid.selectGroup hselect
    apply keeps_keepGroup
    apply hreturns _ _ db store ⟨h.committed, h.inTransaction, h.valid, h.canonical,
      h.agrees.insertGroup hgroup _⟩ (.refl _)
    exact .kept hlookup rfl hgroup

end Worker

end

/-! ## Runs of calls -/

/-- What the maps know after some calls: users whose ids fit, and the groups of the calls. Under
the key of a group that was resolved stands its chat, under any other key an empty one. -/
structure Remembers (before : Tables) (seen : List Int) (worker : Worker) (tables : Tables) :
    Prop where
  inRange : ∀ userId ∈ worker.userTgToDb, IsInt64 userId
  fits : ∀ userId ∈ worker.userTgToDb, UserFits before userId
  known : ∀ tgUserId ∈ tables.userIds, tgUserId ∈ before.userIds ∨
    ∃ userId ∈ worker.userTgToDb, UInt64.ofInt userId = tgUserId
  grows : ∀ tgUserId ∈ before.userIds, tgUserId ∈ tables.userIds
  groups : ∀ chatId, chatId ∈ worker.groupTgToDb ↔ chatId ∈ seen
  stored : ∀ chatId ∈ seen, chatId ∈ worker.groupMap
  chats : ∀ key chat, worker.groupMap.lookup key = some chat →
    chat.id = if key ∈ seen then key else 0

theorem Remembers.empty (tables : Tables) : Remembers tables [] {} tables := by
  constructor <;> simp

theorem int64_ofInt_inj {first second : Int}
    (hfirst : IsInt64 first) (hsecond : IsInt64 second)
    (h : Int64.ofInt first = Int64.ofInt second) : first = second := by
  have hleft := Int64.toInt_ofInt_of_le hfirst.1 hfirst.2
  rw [← hleft, h, Int64.toInt_ofInt_of_le hsecond.1 hsecond.2]

theorem uint64_ofInt_inj {first second : Int}
    (hfirst : IsInt64 first) (hsecond : IsInt64 second)
    (h : UInt64.ofInt first = UInt64.ofInt second) : first = second := by
  apply int64_ofInt_inj hfirst hsecond
  rw [← Tables.toInt64_ofInt, h, Tables.toInt64_ofInt]

section

variable {before tables next : Tables} {seen : List Int} {worker after : Worker} {user : User}
  {chat : Chat} {userId groupId : UInt64}

/-- A user that is in the table before its first call was there from the start. -/
theorem Remembers.old (h : Remembers before seen worker tables)
    (hrange : IsInt64 user.id)
    (hmissing : worker.userTgToDb.lookup user.id = none)
    (hmem : UInt64.ofInt user.id ∈ tables.userIds) : UInt64.ofInt user.id ∈ before.userIds := by
  obtain hold | ⟨userId, hknown, hid⟩ := h.known _ hmem
  · exact hold
  · obtain rfl := uint64_ofInt_inj (h.inRange userId hknown) hrange hid
    exact absurd hknown (AList.lookup_eq_none.mp hmissing)

theorem Remembers.keepUser (h : Remembers before seen worker tables)
    (hrange : IsInt64 user.id)
    (hfits : UserFits before user.id)
    (hids : ∀ tgUserId, tgUserId ∈ next.userIds ↔
      tgUserId ∈ tables.userIds ∨ tgUserId = UInt64.ofInt user.id)
    (userMap : UnorderedMap UInt64 User) :
    Remembers before seen { worker with
      userTgToDb := worker.userTgToDb.insert user.id userId, userMap := userMap } next := by
  constructor
  · intro id hid
    obtain rfl | hid := AList.mem_insert _ |>.mp hid
    · exact hrange
    · exact h.inRange id hid
  · intro id hid
    obtain rfl | hid := AList.mem_insert _ |>.mp hid
    · exact hfits
    · exact h.fits id hid
  · intro tgUserId hmem
    obtain hmem | rfl := (hids tgUserId).mp hmem
    · obtain hold | ⟨id, hid, heq⟩ := h.known tgUserId hmem
      · exact .inl hold
      · exact .inr ⟨id, (AList.mem_insert _).mpr (.inr hid), heq⟩
    · exact .inr ⟨user.id, (AList.mem_insert _).mpr (.inl rfl), rfl⟩
  · exact fun tgUserId hold ↦ (hids tgUserId).mpr (.inl (h.grows tgUserId hold))
  · exact h.groups
  · exact h.stored
  · exact h.chats

/-- The result is right exactly for a user that fits. -/
theorem Remembers.resolvesUser (h : Remembers before seen worker tables)
    (hrange : IsInt64 user.id)
    (hagrees : worker.Agrees tables) (hcall : ResolvesUser user worker tables userId after next) :
    Remembers before seen after next ∧
      (if UserFits before user.id then next.tgUserIdOf userId = some (UInt64.ofInt user.id)
        else userId = 0) := by
  have htoInt := Int64.toInt_ofInt_of_le hrange.1 hrange.2
  cases hcall with
  | cached hlookup =>
    have hmem : user.id ∈ worker.userTgToDb := AList.lookup_isSome.mp (by rw [hlookup]; rfl)
    rw [if_pos (h.fits _ hmem)]
    exact ⟨h, hagrees.users _ _ hlookup⟩
  | inserted hmissing hnew hids hrow =>
    have hfits : UserFits before user.id := .inr fun hold ↦ hnew (h.grows _ hold)
    rw [if_pos hfits]
    exact ⟨h.keepUser hrange hfits (by simp [hids]) _, hrow⟩
  | found hmissing hnonneg hrow =>
    have hfits : UserFits before user.id := .inl (htoInt ▸ hnonneg)
    rw [if_pos hfits]
    refine ⟨h.keepUser hrange hfits (fun tgUserId ↦ ?_) _, hrow⟩
    refine ⟨.inl, ?_⟩
    rintro (hmem | rfl)
    · exact hmem
    · exact Tables.mem_userIds_of_tgUserIdOf hrow
  | missed hmissing hold hnegative =>
    rw [htoInt] at hnegative
    have hnot : ¬ UserFits before user.id := by
      rintro (hnonneg | hnew)
      · omega
      · exact hnew (h.old hrange hmissing hold)
    rw [if_neg hnot]
    exact ⟨h, rfl⟩

/-- What `groupMap_[ret]` has for its id, after the chat was stored. -/
theorem Remembers.pointedId (h : Remembers before seen worker tables) (key : Int) :
    (((worker.groupMap.insert chat.id chat).lookup key).getD emptyChat).id =
      if key ∈ chat.id :: seen then key else 0 := by
  by_cases heq : key = chat.id
  · subst heq
    simp [AList.lookup_insert]
  · rw [AList.lookup_insert_ne heq]
    cases hlookup : worker.groupMap.lookup key with
    | none =>
      have hnot : key ∉ seen :=
        fun hmem ↦ AList.lookup_eq_none.mp hlookup (h.stored key hmem)
      simp [heq, hnot, emptyChat]
    | some stored =>
      rw [Option.getD_some, h.chats key stored hlookup]
      simp [heq]

theorem Remembers.keepGroup (h : Remembers before seen worker tables)
    (husers : next.users = tables.users) :
    Remembers before (chat.id :: seen) { worker with
      groupTgToDb := worker.groupTgToDb.insert chat.id groupId
      groupMap := UnorderedMap.emplace groupId.toInt64.toInt emptyChat
        (worker.groupMap.insert chat.id chat) } next := by
  have hids : next.userIds = tables.userIds := by simp only [Tables.userIds, husers]
  constructor
  · exact h.inRange
  · exact h.fits
  · exact hids ▸ h.known
  · exact hids ▸ h.grows
  · intro chatId
    rw [AList.mem_insert, h.groups, List.mem_cons]
  · intro chatId hmem
    rw [UnorderedMap.mem_emplace, AList.mem_insert]
    obtain rfl | hmem := List.mem_cons.mp hmem
    · exact .inr (.inl rfl)
    · exact .inr (.inr (h.stored chatId hmem))
  · intro key found hlookup
    obtain hlookup | ⟨hnot, rfl, rfl⟩ := UnorderedMap.lookup_emplace_eq_some hlookup
    · rw [← h.pointedId, hlookup]
      rfl
    · rw [← h.pointedId, AList.lookup_eq_none.mpr hnot]
      rfl

theorem Remembers.congr {other : List Int} (h : Remembers before seen worker tables)
    (hiff : ∀ chatId, chatId ∈ other ↔ chatId ∈ seen) : Remembers before other worker tables := by
  refine ⟨h.inRange, h.fits, h.known, h.grows, fun chatId ↦ ?_, fun chatId hmem ↦ ?_,
    fun key found hlookup ↦ ?_⟩
  · rw [h.groups, hiff]
  · exact h.stored chatId ((hiff chatId).mp hmem)
  · rw [h.chats key found hlookup]
    exact if_congr (hiff key).symm rfl rfl

/-- The pointer is right for a group that is in the maps or fits. -/
theorem Remembers.resolvesGroup {result : UInt64 × Chat}
    (h : Remembers before seen worker tables)
    (hagrees : worker.Agrees tables) (hcall : ResolvesGroup chat worker tables result after next) :
    Remembers before (chat.id :: seen) after next ∧
      next.tgGroupIdOf result.1 = some (Int64.ofInt chat.id) ∧
      (result.2.id = chat.id ↔ chat.id ∈ seen ∨ result.1.toInt64.toInt = chat.id ∨
        (chat.id = 0 ∧ result.1.toInt64.toInt ∉ seen)) := by
  cases hcall with
  | cached hlookup =>
    have hmem : chat.id ∈ seen := by
      rw [← h.groups]
      exact AList.lookup_isSome.mp (by rw [hlookup]; rfl)
    refine ⟨h.congr fun chatId ↦ ?_, hagrees.groups _ _ hlookup, iff_of_true rfl (.inl hmem)⟩
    rw [List.mem_cons]
    exact or_iff_right_of_imp fun heq ↦ heq ▸ hmem
  | kept hmissing husers hrow =>
    have hnot : chat.id ∉ seen := by
      rw [← h.groups]
      exact AList.lookup_eq_none.mp hmissing
    refine ⟨h.keepGroup husers, hrow, ?_⟩
    dsimp only
    rw [h.pointedId]
    generalize UInt64.toInt64 _ = key
    simp only [List.mem_cons]
    by_cases heq : key.toInt = chat.id
    · simp [heq]
    · by_cases hseen : key.toInt ∈ seen
      · simp [heq, hseen, hnot]
      · simp [heq, hseen, hnot, eq_comm]

variable {setting : Setting} {committed : Tables} {db : Database} {store : Store}

/-- A call delivers what it should exactly if it fits. -/
theorem Remembers.transacts_resolve {call : Call}
    {returns : Resolution → Worker → Database → Prop}
    (hremembers : Remembers before seen worker db.working)
    (h : Represents committed worker db store) (hrange : call.InRange)
    (hreturns : ∀ result after next stored, Represents committed after next stored →
      db.working.Extends next.working → Remembers before (call.addTo seen) after next.working →
      (∀ tables : Tables, next.working.Extends tables → tables.Valid →
        (ResolvesTo tables call result ↔ CallFits before tables seen call)) →
      returns result after next) :
    Transacts setting committed (Worker.resolve call) worker db returns := by
  cases call with
  | user user =>
    apply keeps_bind
    apply Worker.transacts_resolveUser_cases h
    intro userId after next stored hnext hextends hcall
    obtain ⟨hafter, hresult⟩ := hremembers.resolvesUser hrange h.agrees hcall
    apply keeps_pure
    apply hreturns _ after next stored hnext hextends hafter
    intro tables hfinal hvalid
    unfold ResolvesTo CallFits
    simp only [Call.id, and_true]
    split at hresult
    · next hfits => exact iff_of_true (hfinal.users _ _ hresult) hfits
    · next hnot =>
      refine iff_of_false (fun hrow ↦ ?_) hnot
      rw [hresult] at hrow
      have hpos := hvalid.users.pos 0 (Tables.mem_numbers_of_tgUserIdOf hrow)
      exact absurd hpos (by decide)
  | group chat =>
    apply keeps_bind
    apply Worker.transacts_resolveGroup_cases h
    intro result after next stored hnext hextends hcall
    obtain ⟨hafter, hrow, hpointed⟩ := hremembers.resolvesGroup h.agrees hcall
    apply keeps_pure
    apply hreturns _ after next stored hnext hextends hafter
    intro tables hfinal hvalid
    have hrow' := hfinal.groups _ _ hrow
    unfold ResolvesTo CallFits GroupFits
    simp only [Call.id, hrow', true_and, hpointed]
    apply or_congr_right
    rw [hvalid.selectGroup_of_tgGroupIdOf hrow']
    simp

/-- By induction on the calls. -/
theorem Remembers.transacts_resolveAll {calls : List Call}
    (hremembers : Remembers before seen worker db.working)
    (h : Represents committed worker db store) (hrange : ∀ call ∈ calls, call.InRange) :
    Transacts setting committed (Worker.resolveAll calls) worker db fun results after next ↦
      (∃ stored, Represents committed after next stored) ∧
      db.working.Extends next.working ∧
      ∀ tables : Tables, next.working.Extends tables → tables.Valid →
        (List.Forall₂ (ResolvesTo tables) calls results ↔ CallsFit before tables seen calls) := by
  induction calls generalizing seen worker db store with
  | nil =>
    refine keeps_pure ⟨⟨store, h⟩, .refl _, fun tables _ _ ↦ ?_⟩
    exact iff_of_true .nil trivial
  | cons call calls ih =>
    rw [List.forall_mem_cons] at hrange
    apply keeps_bind
    apply hremembers.transacts_resolve h hrange.1
    intro result after next stored hnext hextends hafter hresult
    apply keeps_bind
    apply (ih hafter hnext hrange.2).mono
    rintro results last final ⟨hstored, hextends', hresults⟩
    refine keeps_pure ⟨hstored, hextends.trans hextends', fun tables hfinal hvalid ↦ ?_⟩
    rw [List.forall₂_cons, hresult tables (hextends'.trans hfinal) hvalid,
      hresults tables hfinal hvalid]
    rfl

/-- The numbers of users, and of groups, tell them apart. -/
theorem coherent_iff_forall₂ {calls : List Call} {results : List Resolution}
    (hvalid : tables.Valid) (hrange : ∀ call ∈ calls, call.InRange) :
    Coherent tables calls results ↔ List.Forall₂ (ResolvesTo tables) calls results := by
  refine ⟨Coherent.resolves, fun hresolves ↦ ⟨hresolves, ?_⟩⟩
  have hzip {pair : Call × Resolution} (hmem : pair ∈ calls.zip results) :
      pair.1.InRange ∧ ResolvesTo tables pair.1 pair.2 :=
    ⟨hrange _ (List.of_mem_zip hmem).1, (List.forall₂_iff_zip.mp hresolves).2 hmem⟩
  rintro ⟨first, result⟩ hfirst ⟨second, result'⟩ hsecond hkind
  obtain ⟨hfirstRange, hrow, -⟩ := hzip hfirst
  obtain ⟨hsecondRange, hrow', -⟩ := hzip hsecond
  cases first with
  | user user =>
    cases second with
    | group chat => simp [Call.isGroup] at hkind
    | user other =>
      simp only [Call.id] at hrow hrow' ⊢
      constructor
      · intro heq
        rw [heq] at hrow
        exact hvalid.userId_unique hrow hrow'
      · intro heq
        rw [heq, hrow'] at hrow
        exact uint64_ofInt_inj hfirstRange hsecondRange (Option.some.inj hrow).symm
  | group chat =>
    cases second with
    | user user => simp [Call.isGroup] at hkind
    | group other =>
      simp only [Call.id] at hrow hrow' ⊢
      constructor
      · intro heq
        rw [heq] at hrow
        exact hvalid.groupId_unique hrow hrow'
      · intro heq
        rw [heq, hrow'] at hrow
        exact int64_ofInt_inj hfirstRange hsecondRange (Option.some.inj hrow).symm

end

/-- For any sequence of calls and any tables: all calls deliver what they should exactly if all
of them fit. -/
theorem coherent_iff_callsFit (setting : Setting) (calls : List Call) (db last : Database)
    (results : List Resolution) (after : Worker) (hrange : ∀ call ∈ calls, call.InRange)
    (hopen : db.inTransaction = true) (hvalid : db.working.Valid)
    (hends : (Worker.resolveAll calls).Ends (Database.Responds setting) {} db
      (.returned results after) last) :
    Coherent last.working calls results ↔ CallsFit db.working last.working [] calls := by
  have hrepresents : Represents db.committed {} db db.working.canonical :=
    ⟨rfl, hopen, hvalid, rfl, Worker.agrees_empty _⟩
  have hremembers := Remembers.empty db.working
  obtain ⟨⟨stored, hlast⟩, -, hresults⟩ := Procedure.Ensures.ends
    (hremembers.transacts_resolveAll hrepresents hrange) hends
  rw [coherent_iff_forall₂ hlast.valid hrange]
  exact hresults last.working (.refl _) hlast.valid

/-- Calls for a user, again for the same user, and for a chat. -/
def threeCalls (chatId : Int) : List Call :=
  [.user { id := 7 }, .user { id := 7 }, .group { id := chatId, title := "" }]

def returnedValue {Value : Type} : Ending Worker Value → Option Value
  | .returned value _ => some value
  | _ => none

theorem returnedValue_eq_some {Value : Type} {ending : Ending Worker Value} {value : Value}
    (h : returnedValue ending = some value) : ∃ after, ending = .returned value after := by
  cases ending with
  | returned given after => exact ⟨after, by rw [Option.some.inj h]⟩
  | raised error after => simp [returnedValue] at h
  | halted reason => simp [returnedValue] at h

/-- The chat's id is the number of its row. -/
theorem coherent_threeCalls : ∃ results after last,
    (Worker.resolveAll (threeCalls 1)).Ends (Database.Responds (.reliable .complete)) {}
      ({} : Database).startTransaction (.returned results after) last ∧
    Coherent last.working (threeCalls 1) results := by
  obtain ⟨exchanges, ending, last, hruns, hfollows, hseen⟩ : ∃ exchanges ending last,
      (Worker.resolveAll (threeCalls 1)).Runs {} exchanges ending ∧
      Follows (Database.Responds (.reliable .complete)) ({} : Database).startTransaction
        exchanges last ∧
      (returnedValue ending, decide (CallsFit {} last.working [] (threeCalls 1))) =
        (some [⟨1, 7⟩, ⟨1, 7⟩, ⟨1, 1⟩], true) :=
    exists_runs_of_traceIn {} (fun _ ↦ trivial) (by decide +kernel)
  obtain ⟨hvalue, hfit⟩ := Prod.mk.inj hseen
  obtain ⟨after, rfl⟩ := returnedValue_eq_some hvalue
  have hends := hruns.ends hfollows
  have hiff := coherent_iff_callsFit (.reliable .complete) (threeCalls 1)
    ({} : Database).startTransaction last _ after (by decide) rfl Tables.valid_empty hends
  exact ⟨_, after, last, hends, hiff.mpr (of_decide_eq_true hfit)⟩

/-- The chat of an ordinary group is lost: the pointer leads to an empty chat. -/
theorem not_coherent_threeCalls : ∃ results after last,
    (Worker.resolveAll (threeCalls (-42))).Ends (Database.Responds (.reliable .complete)) {}
      ({} : Database).startTransaction (.returned results after) last ∧
    results = [⟨1, 7⟩, ⟨1, 7⟩, ⟨1, 0⟩] ∧ ¬ Coherent last.working (threeCalls (-42)) results := by
  obtain ⟨exchanges, ending, last, hruns, hfollows, hvalue⟩ : ∃ exchanges ending last,
      (Worker.resolveAll (threeCalls (-42))).Runs {} exchanges ending ∧
      Follows (Database.Responds (.reliable .complete)) ({} : Database).startTransaction
        exchanges last ∧
      returnedValue ending = some [⟨1, 7⟩, ⟨1, 7⟩, ⟨1, 0⟩] :=
    exists_runs_of_traceIn {} (fun _ ↦ trivial) (by decide +kernel)
  obtain ⟨after, rfl⟩ := returnedValue_eq_some hvalue
  refine ⟨_, after, last, hruns.ends hfollows, rfl, fun hcoherent ↦ ?_⟩
  have hresolves := hcoherent.resolves
  simp [threeCalls, ResolvesTo, Call.id] at hresolves

end Tgvisd.HistoryScraper
