import Tgvisd.HistoryScraper.Histories
import Tgvisd.Lib.Numbered

/-!
# The view of messages

`v_msg_group_simple` joins four tables. As references lead to one row each, it shows every row of
`gw_group_message_data` once, with its own message and its own user.
-/

namespace Tgvisd.HistoryScraper

open TdApi Scrape

/-- What the server does with texts: whether one differs from the empty text, and its first thirty
characters. -/
structure TextFunctions where
  differsFromEmpty : String → Bool
  substr : String → String

structure SimpleMessage where
  tgUserId : UInt64
  tgMsgId : UInt64
  name : String
  textInMsg : String
  msgType : String
  tgDate : String
  deriving DecidableEq, Repr

variable (functions : TextFunctions)

/-- The columns of the view. No name in `gw_users` is null. -/
def simpleMessage (a : GwUser) (b : GwGroupMessage UInt64 UInt64)
    (c : GwGroupMessageData UInt64 UInt64) : SimpleMessage where
  tgUserId := a.tgUserId
  tgMsgId := b.tgMsgId
  name := a.firstName ++ if functions.differsFromEmpty a.lastName then " " ++ a.lastName else ""
  textInMsg := functions.substr c.text
  msgType := b.msgType
  tgDate := c.tgDate

/-- `v_msg_group_simple`, whatever the order of its rows. -/
def Tables.vMsgGroupSimple (tables : Tables) : Multiset SimpleMessage :=
  (tables.users : Multiset (Numbered GwUser)).bind fun a ↦
    (tables.messages : Multiset (Numbered (GwGroupMessage UInt64 UInt64))).bind fun b ↦
      (tables.data : Multiset (Numbered (GwGroupMessageData UInt64 UInt64))).bind fun c ↦
        (tables.groups : Multiset (Numbered GwGroup)).bind fun d ↦
          if a.number = b.row.userId ∧ b.number = c.row.msgId ∧ d.number = b.row.groupId then
            {simpleMessage functions a.row b.row c.row}
          else 0

/-- What the view should show of a row of data: its message and the message's user. -/
def Tables.shown (tables : Tables) (c : GwGroupMessageData UInt64 UInt64) :
    Option SimpleMessage := do
  let b ← NumberedTable.rowAt tables.messages c.msgId
  let a ← NumberedTable.rowAt tables.users b.userId
  return simpleMessage functions a b c

variable {functions} {tables : Tables}

/-- The conditions of the join, one after the other. -/
theorem ite_and_and {Shown : Type} (first second third : Prop) [Decidable first]
    [Decidable second] [Decidable third] (result : Multiset Shown) :
    (if first ∧ second ∧ third then result else 0) =
      if second then if first then if third then result else 0 else 0 else 0 := by
  by_cases hfirst : first <;> by_cases hsecond : second <;> simp [hfirst, hsecond]

theorem bind_ite {Row Shown : Type} (table : Multiset Row) (condition : Prop)
    [Decidable condition] (join : Row → Multiset Shown) :
    table.bind (fun row ↦ if condition then join row else 0) =
      if condition then table.bind join else 0 := by
  split
  · rfl
  · exact Multiset.bind_zero table

/-- The join, from the references on. -/
theorem vMsgGroupSimple_eq (h : tables.Valid) :
    tables.vMsgGroupSimple functions =
      (tables.data : Multiset (Numbered (GwGroupMessageData UInt64 UInt64))).bind fun c ↦
        (NumberedTable.rowAt tables.messages c.row.msgId).elim 0 fun b ↦
          (NumberedTable.rowAt tables.users b.userId).elim 0 fun a ↦
            (NumberedTable.rowAt tables.groups b.groupId).elim 0 fun _ ↦
              {simpleMessage functions a b c.row} := by
  have hgroups (n : UInt64) (result : Multiset SimpleMessage) :=
    NumberedTable.bind_number h.groups.nodup n fun _ ↦ result
  unfold Tables.vMsgGroupSimple
  simp only [ite_and_and, bind_ite, hgroups]
  calc _ = (tables.users : Multiset (Numbered GwUser)).bind fun a ↦
        (tables.data : Multiset (Numbered (GwGroupMessageData UInt64 UInt64))).bind fun c ↦
          (tables.messages : Multiset (Numbered (GwGroupMessage UInt64 UInt64))).bind fun b ↦
            if b.number = c.row.msgId then
              if a.number = b.row.userId then
                (NumberedTable.rowAt tables.groups b.row.groupId).elim 0 fun _ ↦
                  {simpleMessage functions a.row b.row c.row}
              else 0
            else 0 := by
        congr 1
        funext a
        rw [Multiset.bind_bind]
    _ = (tables.data : Multiset (Numbered (GwGroupMessageData UInt64 UInt64))).bind fun c ↦
          (tables.messages : Multiset (Numbered (GwGroupMessage UInt64 UInt64))).bind fun b ↦
            if b.number = c.row.msgId then
              (tables.users : Multiset (Numbered GwUser)).bind fun a ↦
                if a.number = b.row.userId then
                  (NumberedTable.rowAt tables.groups b.row.groupId).elim 0 fun _ ↦
                    {simpleMessage functions a.row b.row c.row}
                else 0
            else 0 := by
        rw [Multiset.bind_bind]
        congr 1
        funext c
        rw [Multiset.bind_bind]
        congr 1
        funext b
        rw [bind_ite]
    _ = _ := by
        congr 1
        funext c
        rw [NumberedTable.bind_number h.messages.nodup c.row.msgId fun b ↦
          (tables.users : Multiset (Numbered GwUser)).bind fun a ↦
            if a.number = b.userId then
              (NumberedTable.rowAt tables.groups b.groupId).elim 0 fun _ ↦
                {simpleMessage functions a.row b c.row}
            else 0]
        congr 1
        funext b
        exact NumberedTable.bind_number h.users.nodup b.userId fun a ↦
          (NumberedTable.rowAt tables.groups b.groupId).elim 0 fun _ ↦
            {simpleMessage functions a b c.row}

/-- No reference leads nowhere. -/
theorem vMsgGroupSimple_shown (h : tables.Valid) :
    (tables.vMsgGroupSimple functions).map some =
      (NumberedTable.rows tables.data : Multiset (GwGroupMessageData UInt64 UInt64)).map
        (tables.shown functions) := by
  rw [vMsgGroupSimple_eq h, Multiset.map_bind, NumberedTable.rows, ← Multiset.map_coe,
    Multiset.map_map, ← Multiset.bind_singleton]
  apply Multiset.bind_congr
  intro c hc
  have hdata := h.dataRefs c.row (List.mem_map_of_mem (Multiset.mem_coe.mp hc))
  obtain ⟨b, hb⟩ := NumberedTable.exists_rowAt hdata.1
  have hmessage := h.messageRefs b (List.mem_map_of_mem (NumberedTable.mem_of_rowAt hb))
  obtain ⟨d, hd⟩ := NumberedTable.exists_rowAt hmessage.1
  obtain ⟨a, ha⟩ := NumberedTable.exists_rowAt hmessage.2
  simp [Tables.shown, hb, ha, hd]

/-- In every world of every history: the view shows each committed row of data once, with the
message that it refers to and the user of that message, and it shows nothing else. -/
theorem view_of_visits (functions : TextFunctions) {setting : Setting} {db last : Database}
    {rounds : Nat} (hreach : Reachable setting db)
    (hvisits : (Worker.run rounds).Visits (Database.Responds setting) {} db last) :
    (last.committed.vMsgGroupSimple functions).map some =
      (NumberedTable.rows last.committed.data :
        Multiset (GwGroupMessageData UInt64 UInt64)).map (last.committed.shown functions) := by
  obtain ⟨hsettled, hreplayed⟩ := hreach.settled
  obtain ⟨events, -, hholds⟩ := replayed_of_visits hsettled hreplayed hvisits
  exact vMsgGroupSimple_shown hholds.valid

theorem view_of_visits_overlappingPages : ∃ last : Database,
    (Worker.run 3).Visits (Database.Responds (overlappingPages.setting .complete)) {} {} last ∧
      last.committed.data.length = 3 ∧ ∀ functions,
        (last.committed.vMsgGroupSimple functions).map some =
          (NumberedTable.rows last.committed.data :
            Multiset (GwGroupMessageData UInt64 UInt64)).map
              (last.committed.shown functions) := by
  have hlength : ((Worker.run 3).runIn (Database.respond .complete overlappingPages) {} {}).map
      (fun result ↦ result.2.committed.data.length) = some 3 := by decide +kernel
  obtain ⟨⟨ending, last⟩, hrun, hlast⟩ := Option.map_eq_some_iff.mp hlength
  have hvisits := (Procedure.ends_of_runIn Database.responds_of_respond hrun).visits
  exact ⟨last, hvisits, hlast, fun functions ↦ view_of_visits functions .empty hvisits⟩

end Tgvisd.HistoryScraper
