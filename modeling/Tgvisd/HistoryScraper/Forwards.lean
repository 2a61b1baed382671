import Tgvisd.HistoryScraper.Histories
import Tgvisd.HistoryScraper.Storings

/-!
# Forwarded messages

The mark of a forwarded message and the row about its origin are written by two statements. In
every table that is committed they come from one version of the message.
-/

namespace Tgvisd.HistoryScraper

open TdApi Scrape

/-- The rows about the origin of the message at a position. -/
def Store.forwardsOf (store : Store) (position : ℕ) : List (GwGroupMessageForward ℕ) :=
  store.forwards.filter fun forward ↦ forward.msgId = position

/-- A row of a message tells of a stored version: its ids, whether it was forwarded, and its
origin. -/
def GwGroupMessage.Tells (row : GwGroupMessage Int64 UInt64) (msg : Message) (position : ℕ)
    (forwards : List (GwGroupMessageForward ℕ)) : Prop :=
  row.groupId = groupOf msg ∧ row.tgMsgId = shiftedId msg ∧
    row.isForwardedMsg = msg.forwardInfo.isSome ∧ forwards = forwardRows position msg

structure ForwardsFit (stored : List (Message × Bool)) (store : Store) : Prop where
  bound : ∀ forward ∈ store.forwards, forward.msgId < store.messages.length
  rows : ∀ (position : ℕ) row, store.messages[position]? = some row → ∃ version ∈ stored,
    row.Tells version.1 position (store.forwardsOf position)

section

variable {msg : Message} {isEdited : Bool} {before after store : Store}
  {stored : List (Message × Bool)} {position : ℕ}

theorem AddsData.forwards (h : AddsData position msg isEdited before after) :
    after.forwards = before.forwards := by
  have hfile {text : String} {textEntities : Option String} {file : File}
      (hadds : AddsFile position msg isEdited text textEntities file before after) :
      after.forwards = before.forwards := by
    obtain ⟨downloaded, md5Sum, sha1Sum, rfl⟩ := hadds
    rfl
  unfold AddsData at h
  cases hcontent : msg.content with
  | messageText text =>
    rw [hcontent] at h
    rw [h]
    rfl
  | messagePhoto sizes caption =>
    simp only [hcontent] at h
    cases htaken : Worker.takenFile sizes with
    | some file =>
      rw [htaken] at h
      exact hfile h
    | none =>
      rw [htaken] at h
      rw [h]
  | messageVideo file caption | messageSticker file emoji | messageAnimation file caption
  | messageDocument file caption | messageAudio file caption =>
    rw [hcontent] at h
    exact hfile h
  | messageChatJoinByLink | other =>
    rw [hcontent] at h
    rw [h]

@[simp] theorem forwards_addUser (store : Store) (user : User) :
    (store.addUser user).forwards = store.forwards := by
  unfold Store.addUser
  split <;> rfl

@[simp] theorem forwards_addGroup (store : Store) (chat : Chat) :
    (store.addGroup chat).forwards = store.forwards := by
  unfold Store.addGroup
  split <;> rfl

theorem msgId_of_mem_forwardRows {forward : GwGroupMessageForward ℕ}
    (h : forward ∈ forwardRows position msg) : forward.msgId = position := by
  unfold forwardRows at h
  cases hinfo : msg.forwardInfo with
  | none => simp [hinfo] at h
  | some fwd =>
    rw [hinfo] at h
    unfold originRows at h
    cases horigin : fwd.origin with
    | other => simp [horigin] at h
    | _ =>
      simp only [horigin, List.mem_singleton] at h
      rw [h]
      rfl

/-- The rows about a message are of its own position. -/
theorem forwardsOf_append (hforwards : after.forwards =
      before.forwards ++ forwardRows position msg) (other : ℕ) :
    after.forwardsOf other =
      before.forwardsOf other ++ if other = position then forwardRows position msg else [] := by
  unfold Store.forwardsOf
  rw [hforwards, List.filter_append]
  congr 1
  split
  · next heq =>
    rw [List.filter_eq_self]
    intro forward hforward
    simp [msgId_of_mem_forwardRows hforward, heq]
  · next hne =>
    rw [List.filter_eq_nil_iff]
    intro forward hforward
    simp [msgId_of_mem_forwardRows hforward, Ne.symm hne]

theorem ForwardsFit.mono {version : Message × Bool} (h : ForwardsFit stored before)
    (hforwards : after.forwards = before.forwards) (hmessages : ∀ (position : ℕ) row,
      after.messages[position]? = some row → ∃ old, before.messages[position]? = some old ∧
        row = { old with hasEditedMsg := row.hasEditedMsg })
    (hlength : before.messages.length ≤ after.messages.length) :
    ForwardsFit (stored ++ [version]) after where
  bound := by
    intro forward hforward
    rw [hforwards] at hforward
    exact Nat.lt_of_lt_of_le (h.bound forward hforward) hlength
  rows := by
    intro position row hrow
    obtain ⟨old, hold, hsame⟩ := hmessages position row hrow
    obtain ⟨version, hversion, hgroup, hid, hmark, hrows⟩ := h.rows position old hold
    refine ⟨version, List.mem_append_left _ hversion, ?_⟩
    rw [hsame]
    refine ⟨hgroup, hid, hmark, ?_⟩
    rw [← hrows, Store.forwardsOf, hforwards, Store.forwardsOf]

/-- The new row has the position that the rows about its origin have. -/
theorem ForwardsFit.insert (h : ForwardsFit stored before) {row : GwGroupMessage Int64 UInt64}
    (hmessages : after.messages = before.messages ++ [row])
    (hforwards : after.forwards = before.forwards ++ forwardRows before.messages.length msg)
    (hgroup : row.groupId = groupOf msg) (hid : row.tgMsgId = shiftedId msg)
    (hmark : row.isForwardedMsg = msg.forwardInfo.isSome) :
    ForwardsFit (stored ++ [(msg, isEdited)]) after where
  bound := by
    intro forward hforward
    rw [hforwards, List.mem_append] at hforward
    rw [hmessages, List.length_append, List.length_singleton]
    obtain hold | hnew := hforward
    · exact Nat.lt_succ_of_lt (h.bound forward hold)
    · rw [msgId_of_mem_forwardRows hnew]
      exact Nat.lt_succ_self _
  rows := by
    intro position found hfound
    have hlt := (List.getElem?_eq_some_iff.mp hfound).1
    rw [hmessages, List.length_append, List.length_singleton] at hlt
    rw [forwardsOf_append hforwards]
    obtain hold | rfl : position < before.messages.length ∨ position = before.messages.length := by
      omega
    · rw [hmessages, List.getElem?_append_left hold] at hfound
      obtain ⟨version, hversion, htells⟩ := h.rows position found hfound
      rw [if_neg (Nat.ne_of_lt hold), List.append_nil]
      exact ⟨version, List.mem_append_left _ hversion, htells⟩
    · rw [hmessages, List.getElem?_concat_length] at hfound
      obtain rfl := Option.some.inj hfound
      have hnone : before.forwardsOf before.messages.length = [] := by
        rw [Store.forwardsOf, List.filter_eq_nil_iff]
        intro forward hforward
        simpa using Nat.ne_of_lt (h.bound forward hforward)
      rw [if_pos rfl, hnone, List.nil_append]
      exact ⟨(msg, isEdited), by simp, hgroup, hid, hmark, rfl⟩

/-- A version that is stored. -/
theorem ForwardsFit.stores (h : ForwardsFit stored before)
    (hstores : Stores msg isEdited before after) :
    ForwardsFit (stored ++ [(msg, isEdited)]) after := by
  have hsame (hforwards : after.forwards = before.forwards)
      (hmessages : after.messages = before.messages) :
      ForwardsFit (stored ++ [(msg, isEdited)]) after := by
    apply h.mono hforwards _ (by rw [hmessages])
    intro position row hrow
    exact ⟨row, by rwa [hmessages] at hrow, rfl⟩
  unfold Stores at hstores
  cases hsender : msg.sender with
  | messageSenderChat chatId =>
    rw [hsender] at hstores
    rw [hstores] at hsame ⊢
    exact hsame rfl rfl
  | messageSenderUser userId =>
    rw [hsender] at hstores
    obtain ⟨user, chat, -, hchat, hsaves⟩ := hstores
    unfold Saves at hsaves
    cases htype : Worker.msgType msg.content with
    | none =>
      rw [htype] at hsaves
      exact hsame (by rw [hsaves]; simp) (by rw [hsaves]; simp)
    | some type =>
      simp only [htype] at hsaves
      cases hfind : ((before.addUser user).addGroup chat).find (UInt64.ofInt msg.id)
          (Int64.ofInt msg.chatId) with
      | some position =>
        simp only [hfind] at hsaves
        cases isEdited with
        | false =>
          have hafter : after = (before.addUser user).addGroup chat := hsaves
          exact hsame (by rw [hafter]; simp) (by rw [hafter]; simp)
        | true =>
          have hmessages := (AddsData.view hsaves).1
          have hforwards := AddsData.forwards hsaves
          simp only [Store.markEdited, messages_addGroup, messages_addUser] at hmessages
          apply h.mono
          · rw [hforwards]
            simp [Store.markEdited]
          · intro index row hrow
            rw [hmessages, List.getElem?_modify] at hrow
            obtain ⟨old, hold, rfl⟩ := Option.map_eq_some_iff.mp hrow
            refine ⟨old, hold, ?_⟩
            split <;> rfl
          · rw [hmessages, List.length_modify]
      | none =>
        simp only [hfind] at hsaves
        have hmessages := (AddsData.view hsaves).1
        have hforwards := AddsData.forwards hsaves
        simp only [Store.addForwards, Store.addMessage, messages_addGroup,
          messages_addUser] at hmessages
        simp only [Store.addForwards, Store.addMessage, messages_addGroup, messages_addUser,
          forwards_addGroup, forwards_addUser] at hforwards
        exact h.insert hmessages hforwards (congrArg Int64.ofInt hchat) rfl rfl

theorem ForwardsFit.of_replays {events : List ChatEvent} (h : Replays events store) :
    ForwardsFit (storings events) store := by
  apply h.induction ForwardsFit
  · exact ⟨by simp, by simp⟩
  · exact fun stored store eventId hfit ↦ ⟨hfit.bound, hfit.rows⟩
  · exact fun stored msg isEdited before after hfit hstores ↦ hfit.stores hstores

end

/-- In every world of every history, a row of a message is marked as forwarded, and has a row about
its origin, just as one version of it that TDLib delivered; and every row about an origin is that
of a message. -/
theorem committed_forwards (setting : Setting) {db last : Database} {rounds : Nat}
    (hreach : Reachable setting db)
    (hvisits : (Worker.run rounds).Visits (Database.Responds setting) {} db last) :
    ∃ events, (∀ ev ∈ events, Delivered setting ev) ∧
      ForwardsFit (storings events) last.committed.canonical := by
  obtain ⟨hsettled, hreplayed⟩ := hreach.settled
  obtain ⟨events, hdelivered, hholds⟩ := replayed_of_visits hsettled hreplayed hvisits
  exact ⟨events, hdelivered, .of_replays hholds.replays⟩

/-- A message from a user who is not in the group. -/
def forwardedOnce : Replies where
  eventLog fromEventId :=
    if fromEventId = 0 then
      some [⟨1, .chatEventMessageDeleted { textMessage (5 * 1048576) "text" with
        forwardInfo := some ⟨.messageForwardOriginUser 7, 0, "", 0, 0⟩ }⟩]
    else none

theorem committed_forwards_forwardedOnce : ∃ last events,
    (Worker.run 2).Visits (Database.Responds (forwardedOnce.setting .complete)) {} {} last ∧
      last.committed.forwards.length = 1 ∧
      ForwardsFit (storings events) last.committed.canonical := by
  have hlength : ((Worker.run 2).runIn (Database.respond .complete forwardedOnce) {} {}).map
      (fun result ↦ result.2.committed.forwards.length) = some 1 := by decide +kernel
  obtain ⟨⟨ending, last⟩, hrun, hlast⟩ := Option.map_eq_some_iff.mp hlength
  have hvisits := (Procedure.ends_of_runIn Database.responds_of_respond hrun).visits
  obtain ⟨events, -, hfit⟩ :=
    committed_forwards (forwardedOnce.setting .complete) .empty hvisits
  exact ⟨last, events, hvisits, hlast, hfit⟩

end Tgvisd.HistoryScraper
