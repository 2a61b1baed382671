import Tgvisd.Main.Shutdown
import Tgvisd.Scrapers.Environment

/-!
# The chat scraper

`ChatScraper::run` asks for the chats once, without a timeout, and prints how many there are. The
pointer that `send_query_sync` returns in the threaded client is the one that the scrapers get
here, and the chat scraper's thread crashes on it where `run` does.
-/

namespace Tgvisd

open TdApi

namespace ChatScraper

open Scrape

def getChat (offsetOrder offsetChatId limit : Int) : Scrape Unit (Option (Int × List Int)) :=
  sendQuerySync Object.asChats (.getChats offsetOrder offsetChatId limit) .chats (-1)

def run : Scrape Unit Unit := do
  let chats ← getChat 9223372036854775807 0 300
  let _ ← dereference chats

/-- The query of `run`. -/
def query : Request := .sendQuerySync getChatsFunction .chats (-1)

theorem chatsPointer_eq (object : Object) :
    (retVal .chats object).bind Object.asChats = object.asChats := by
  cases object <;> rfl

theorem retVal_eq_none {object : Object} : retVal .chats object = none ↔ object.asChats = none := by
  cases object <;> simp [retVal, Object.getId, Object.asChats]

/-- How `run` ends on an answer. -/
def endingOn : Option Object → Ending Unit Unit
  | none => .halted .waitsForever
  | some object =>
    match object.asChats with
    | none => .halted .nullDereference
    | some _ => .returned () ()

/-- There is one exchange. -/
theorem exists_rest_iff {exchanges : List Exchange} {first : Exchange} {ends : Prop} :
    (∃ rest, exchanges = first :: rest ∧ rest = [] ∧ ends) ↔ exchanges = [first] ∧ ends := by
  constructor
  · rintro ⟨_, rfl, rfl, h⟩
    exact ⟨rfl, h⟩
  · rintro ⟨rfl, h⟩
    exact ⟨[], rfl, rfl, h⟩

theorem runs_run_iff {exchanges : List Exchange} {ending : Ending Unit Unit} :
    run.Runs () exchanges ending ↔
      ∃ answer : Option Object, exchanges = [⟨query, answer⟩] ∧ ending = endingOn answer := by
  unfold run getChat sendQuerySync ask
  rw [bind_assoc, Procedure.runs_perform_bind_iff]
  apply exists_congr
  intro answer
  cases (answer : Option Object) with
  | none =>
    have hnot : ¬ (0 : Int32) < -1 := by decide
    simp only [if_neg hnot, Procedure.runs_stop_bind_iff]
    exact exists_rest_iff
  | some object =>
    simp only [pure_bind, chatsPointer_eq, endingOn]
    cases object.asChats with
    | none =>
      simp only [dereference, Procedure.runs_stop_bind_iff]
      exact exists_rest_iff
    | some chats =>
      simp only [dereference, pure_bind, Procedure.runs_pure_iff]
      exact exists_rest_iff

theorem endingOn_eq_nullDereference {answer : Option Object} :
    endingOn answer = .halted .nullDereference ↔
      ∃ object, answer = some object ∧ object.asChats = none := by
  cases answer with
  | none => simp [endingOn]
  | some object =>
    cases hchats : object.asChats <;> simp [endingOn, hchats]

/-- A query that is answered by another object than the chats. -/
def refused : Exchange → Bool
  | ⟨.sendQuerySync _ _ _, answer⟩ =>
    (answer : Option Object).any fun object ↦ object.asChats.isNone
  | _ => false

/-- An answer that does not come is waited for. -/
theorem halted_iff {exchanges : List Exchange} {ending : Ending Unit Unit}
    (hrun : run.Runs () exchanges ending) :
    ending ≠ .halted .nullDereference ↔ ∀ exchange ∈ exchanges, refused exchange = false := by
  obtain ⟨answer, rfl, rfl⟩ := runs_run_iff.mp hrun
  rw [ne_eq, endingOn_eq_nullDereference]
  cases answer with
  | none => simp [refused, query]
  | some object => simp [refused, query, Option.isSome_iff_ne_none]

end ChatScraper

/-! ## The pointer in the threaded client -/

/-- The frame's pointer is what some answer, or none, leaves of itself. -/
def Frame.Typed (frame : Frame) : Prop :=
  ∃ answer : Option Object, frame.retVal = answer.bind (Scrape.retVal frame.returnId)

namespace SyncSystem

def Typed (sync : SyncSystem) : Prop :=
  ∀ call frame, sync.frame call = some frame → frame.Typed

variable {sync next : SyncSystem} {call : Nat} {frame : Frame}

theorem Typed.setFrame (h : sync.Typed) (hframe : frame.Typed) :
    (sync.setFrame call frame).Typed := by
  intro other found hfound
  by_cases hsame : other = call
  · subst hsame
    have hsome : Function.update sync.frame other (some frame) other = some found := hfound
    rw [Function.update_self] at hsome
    exact Option.some.inj hsome ▸ hframe
  · exact h other found ((Function.update_of_ne hsame _ _).symm.trans hfound)

theorem Typed.touch (h : sync.Typed) (write : Frame → Frame)
    (hwrite : ∀ frame, sync.frame call = some frame → frame.Typed → (write frame).Typed) :
    (sync.touch call write).Typed := by
  unfold SyncSystem.touch
  cases hframe : sync.frame call with
  | none => exact h
  | some frame =>
    simp only
    split
    · exact h
    · exact h.setFrame (hwrite frame hframe (h call frame hframe))

theorem Typed.waiter (h : sync.Typed)
    (hstep : sync.lock call = some next ∨ sync.test call = some next ∨
      sync.endRound call = some next ∨ sync.leave call = some next) : next.Typed := by
  unfold lock test endRound leave at hstep
  cases hframe : sync.frame call with
  | none => simp [hframe] at hstep
  | some frame =>
    have htyped := h call frame hframe
    simp only [hframe] at hstep
    rcases hstep with hstep | hstep | hstep | hstep <;> split at hstep
    · exact Option.some.inj hstep ▸ h.setFrame htyped
    · simp at hstep
    · exact Option.some.inj hstep ▸ h.setFrame htyped
    · simp at hstep
    · exact Option.some.inj hstep ▸ h.setFrame htyped
    · simp at hstep
    · exact Option.some.inj hstep ▸ h.setFrame htyped
    · simp at hstep

theorem Typed.withRunning (h : sync.Typed) (running : Option (Nat × CallbackPc)) :
    Typed { sync with running := running } := h

/-- The callback keeps the object of the right type. -/
theorem Typed.callback (h : sync.Typed) (hstep : sync.callback = some next) : next.Typed := by
  unfold SyncSystem.callback at hstep
  split at hstep
  · rename_i running object _
    split at hstep
    · exact Option.some.inj hstep ▸ h
    · rename_i herror
      split at hstep
      · exact Option.some.inj hstep ▸ h
      · rename_i hid
        rw [← Option.some.inj hstep]
        apply (h.withRunning _).touch
        intro frame hframe _
        have hreturn : object.getId = frame.returnId := by
          have hsome : some object.getId = sync.returnId running := not_not.mp hid
          have hfound : sync.frame running = some frame := hframe
          simpa [returnId, hfound] using hsome
        have hother : frame.returnId ≠ .error := hreturn ▸ herror
        refine ⟨some object, ?_⟩
        simp [Scrape.retVal, hreturn, hother]
  · rw [← Option.some.inj hstep]
    exact (h.withRunning _).touch _ fun _ _ htyped ↦ htyped
  · rw [← Option.some.inj hstep]
    exact (h.withRunning _).touch _ fun _ _ htyped ↦ htyped
  · simp at hstep

theorem Typed.callSync {thread : Nat} {function : Function} {returnId : ObjectId}
    {timeout : Int32} (h : sync.Typed)
    (hstep : sync.callSync thread function returnId timeout = some next) : next.Typed := by
  unfold SyncSystem.callSync at hstep
  split at hstep
  · split at hstep
    · rw [← Option.some.inj hstep]
      exact h.setFrame ⟨none, rfl⟩
    · simp at hstep
  · simp at hstep

theorem Typed.step {label : SyncLabel} (h : sync.Typed)
    (hstep : machine.step sync label = some next) : next.Typed := by
  change (if sync.system.fault.isSome = true then none else _) = some next at hstep
  split at hstep
  · simp at hstep
  · cases label with
    | client label =>
      have hframe : next.frame = sync.frame := client_frame hstep
      intro call frame hfound
      exact h call frame (hframe ▸ hfound)
    | callSync thread function returnId timeout => exact h.callSync hstep
    | lock call => exact h.waiter (.inl hstep)
    | test call => exact h.waiter (.inr (.inl hstep))
    | endRound call => exact h.waiter (.inr (.inr (.inl hstep)))
    | leave call => exact h.waiter (.inr (.inr (.inr hstep)))
    | callback => exact h.callback hstep

/-- Whatever the threads and TDLib do, a call returns what `Scrape.sendQuerySync` makes of
some answer. -/
theorem typed_of_reaches {config : Config} (hreach : machine.Reaches (start config) sync) :
    sync.Typed := by
  apply hreach.invariant
  · intro call frame hframe
    simp [start] at hframe
  · exact fun _ _ _ h hstep ↦ h.step hstep

end SyncSystem

/-- The chat scraper's thread crashes on the answers on which `run` dereferences null. -/
theorem Program.chatStep_crashed_iff {program next : Program} {object : Object}
    (hchat : program.chat = .printing (Scrape.retVal .chats object))
    (hcrashed : program.crashed = false) (hstep : program.chatStep = some next) :
    next.crashed = true ↔
      ChatScraper.run.Runs () [⟨ChatScraper.query, some object⟩] (.halted .nullDereference) := by
  have hruns : ChatScraper.run.Runs () [⟨ChatScraper.query, some object⟩]
      (.halted .nullDereference) ↔ object.asChats = none := by
    rw [ChatScraper.runs_run_iff]
    constructor
    · rintro ⟨answer, hexchanges, hending⟩
      obtain ⟨found, rfl, hchats⟩ := ChatScraper.endingOn_eq_nullDereference.mp hending.symm
      cases hexchanges
      exact hchats
    · intro hchats
      refine ⟨some object, rfl, ?_⟩
      exact (ChatScraper.endingOn_eq_nullDereference.mpr ⟨object, rfl, hchats⟩).symm
  rw [hruns, ← ChatScraper.retVal_eq_none]
  unfold chatStep at hstep
  rw [hchat] at hstep
  cases hpointer : Scrape.retVal .chats object with
  | none =>
    rw [hpointer] at hstep
    rw [← Option.some.inj hstep]
    simp
  | some chats =>
    rw [hpointer] at hstep
    rw [← Option.some.inj hstep]
    simp [hcrashed]

end Tgvisd
