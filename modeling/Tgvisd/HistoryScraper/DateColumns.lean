import Tgvisd.HistoryScraper.Date
import Tgvisd.Lib.Basic
import Tgvisd.Lib.Calendar
import Mathlib.Data.List.Basic
import Mathlib.Data.List.Pairwise
import Mathlib.Data.List.Sort
import Mathlib.Data.Prod.Lex

/-!
# Dates in the database

A `datetime` column reads the text of a date as `YYYY-MM-DD hh:mm:ss`. What `getDateByUnixTM`
writes at the place of the minute is the hour on a twelve-hour clock.
-/

namespace Tgvisd.HistoryScraper

/-- The seconds from 1970-01-01 00:00:00 to a date and time, if it is one. -/
def timeOfDate (year month day hour minute second : ℕ) : Option ℤ :=
  if Calendar.IsDate year month day ∧ hour < 24 ∧ minute < 60 ∧ second < 60 then
    some (86400 * Calendar.dayNumber year month day + 3600 * hour + 60 * minute + second)
  else none

/-- The time that a `datetime` column takes from a text `YYYY-MM-DD hh:mm:ss`. -/
def readDate (text : String) : Option ℤ :=
  match text.toList with
  | [y₁, y₂, y₃, y₄, '-', o₁, o₂, '-', d₁, d₂, ' ', h₁, h₂, ':', m₁, m₂, ':', s₁, s₂] => do
    let year ← Decimal.read [y₁, y₂, y₃, y₄]
    let month ← Decimal.read [o₁, o₂]
    let day ← Decimal.read [d₁, d₂]
    let hour ← Decimal.read [h₁, h₂]
    let minute ← Decimal.read [m₁, m₂]
    let second ← Decimal.read [s₁, s₂]
    timeOfDate year month day hour minute second
  | _ => none

/-- The order of a `datetime` column. -/
def DateBefore (earlier later : String) : Prop :=
  ∃ s t, readDate earlier = some s ∧ readDate later = some t ∧ s < t

/-! ## Sorting by a key -/

/-- A list is sorted by sorting it by a key, whatever the order of equal keys, if and only if the
key is strictly increasing on the list. -/
theorem sorted_byKey_iff {α β : Type*} [LinearOrder α] [LinearOrder β] (key : α → β)
    (l : List α) :
    (∀ rows : List α, rows.Perm l → rows.Pairwise (fun a b ↦ key a ≤ key b) →
        rows.Pairwise (· ≤ ·)) ↔
      ∀ a ∈ l, ∀ b ∈ l, a < b → key a < key b := by
  constructor
  · intro h a ha b hb hab
    -- Among equal keys the list below has the larger elements first.
    let order := fun x y : α ↦ decide (toLex (key x, OrderDual.toDual x) ≤
      toLex (key y, OrderDual.toDual y))
    have hperm : (l.mergeSort order).Perm l := List.mergeSort_perm l order
    have horder : (l.mergeSort order).Pairwise (fun x y ↦ order x y = true) := by
      apply List.pairwise_mergeSort
      · intro x y z hxy hyz
        exact decide_eq_true ((of_decide_eq_true hxy).trans (of_decide_eq_true hyz))
      · intro x y
        simpa [order] using le_total _ _
    have hsorted := h _ hperm (horder.imp fun {x y} hxy ↦
      Prod.Lex.monotone_fst _ _ (of_decide_eq_true hxy))
    let increasing := fun x y ↦ (x < y → key x < key y) ∧ (y < x → key y < key x)
    have hsymm : Std.Symm increasing := ⟨fun _ _ hxy ↦ hxy.symm⟩
    have hincreasing : (l.mergeSort order).Pairwise increasing := by
      apply (horder.and hsorted).imp
      rintro x y ⟨hxy, hle⟩
      refine ⟨fun hlt ↦ ?_, fun hlt ↦ absurd hle hlt.not_ge⟩
      obtain hkey | ⟨-, hle'⟩ := Prod.Lex.toLex_le_toLex.mp (of_decide_eq_true hxy)
      · exact hkey
      · exact absurd (OrderDual.toDual_le_toDual.mp hle') hlt.not_ge
    exact (hincreasing.forall_of_forall (fun x _ ↦ ⟨fun hx ↦ absurd hx (lt_irrefl x),
      fun hx ↦ absurd hx (lt_irrefl x)⟩) (hperm.mem_iff.mpr ha) (hperm.mem_iff.mpr hb)).1 hab
  · intro h rows hperm hrows
    apply hrows.imp_of_mem
    intro a b ha hb hkey
    by_contra hle
    exact (h b (hperm.mem_iff.mp hb) a (hperm.mem_iff.mp ha) (not_le.mp hle)).not_ge hkey

/-! ## The fields of a date -/

theorem gmtime_date (epoch : ℤ) :
    Calendar.IsDate (gmtime epoch).year (gmtime epoch).month (gmtime epoch).day ∧
      Calendar.dayNumber (gmtime epoch).year (gmtime epoch).month (gmtime epoch).day =
        epoch / 86400 := by
  obtain ⟨hdate, hnumber⟩ := (Calendar.fromMarch (Int.emod_nonneg (epoch / 86400 + 719468)
    (by decide)) (Int.emod_lt_of_pos _ (by decide)) rfl).date
      ((epoch / 86400 + 719468) / 146097) rfl rfl rfl rfl
  refine ⟨hdate, hnumber.trans ?_⟩
  omega

theorem gmtime_clock (epoch : ℤ) :
    3600 * (gmtime epoch).hour + 60 * (gmtime epoch).minute + (gmtime epoch).second =
      epoch % 86400 := by
  simp only [gmtime]
  omega

theorem gmtime_hour (epoch : ℤ) : 0 ≤ (gmtime epoch).hour ∧ (gmtime epoch).hour < 24 := by
  simp only [gmtime]
  omega

theorem gmtime_second (epoch : ℤ) : 0 ≤ (gmtime epoch).second ∧ (gmtime epoch).second < 60 := by
  simp only [gmtime]
  omega

theorem twelveHour_bounds (tm : Tm) : 1 ≤ tm.twelveHour ∧ tm.twelveHour ≤ 12 := by
  unfold Tm.twelveHour
  split_ifs <;> omega

theorem gmtime_year {epoch : ℤ} (hnonneg : 0 ≤ epoch) (hlt : epoch < 2147483648) :
    1970 ≤ (gmtime epoch).year ∧ (gmtime epoch).year ≤ 2038 := by
  simp only [gmtime]
  omega

/-! ## The text of a date -/

/-- A field of the text, of a fixed width and with the number it stands for. -/
def IsField (width : ℕ) (text : String) (value : ℕ) : Prop :=
  text.toList.length = width ∧ Decimal.read text.toList = some value

instance (width : ℕ) (text : String) (value : ℕ) : Decidable (IsField width text value) :=
  inferInstanceAs (Decidable (_ ∧ _))

theorem isField_twoDigits {value : ℤ} (hnonneg : 0 ≤ value) (hlt : value < 100) :
    IsField 2 (twoDigits value) value.toNat := by
  have h : ∀ n : Fin 100, IsField 2 (twoDigits n.val) n.val := by decide +kernel
  lift value to ℕ using hnonneg
  exact h ⟨value, by omega⟩

theorem isField_year {year : ℤ} (hle : 1970 ≤ year) (hge : year ≤ 2038) :
    IsField 4 (toString year) year.toNat := by
  have h : ∀ n : Fin 69, IsField 4 (toString (1970 + n.val : ℤ)) (1970 + n.val) := by
    decide +kernel
  obtain ⟨n, rfl⟩ := Int.le.dest hle
  exact h ⟨n, by omega⟩

theorem readDate_fields {year month day hour minute second : String} {y o d h m s : ℕ}
    (hyear : IsField 4 year y) (hmonth : IsField 2 month o) (hday : IsField 2 day d)
    (hhour : IsField 2 hour h) (hminute : IsField 2 minute m) (hsecond : IsField 2 second s) :
    readDate (year ++ "-" ++ month ++ "-" ++ day ++ " " ++ hour ++ ":" ++ minute ++ ":" ++
      second) = timeOfDate y o d h m s := by
  obtain ⟨y₁, rest, hrest⟩ := List.exists_cons_of_length_eq_add_one hyear.1
  obtain ⟨y₂, y₃, y₄, rfl⟩ := List.length_eq_three.mp
    (Nat.succ.inj ((congrArg List.length hrest).symm.trans hyear.1))
  obtain ⟨o₁, o₂, ho⟩ := List.length_eq_two.mp hmonth.1
  obtain ⟨d₁, d₂, hd⟩ := List.length_eq_two.mp hday.1
  obtain ⟨h₁, h₂, hh⟩ := List.length_eq_two.mp hhour.1
  obtain ⟨m₁, m₂, hm⟩ := List.length_eq_two.mp hminute.1
  obtain ⟨s₁, s₂, hs⟩ := List.length_eq_two.mp hsecond.1
  have htext : (year ++ "-" ++ month ++ "-" ++ day ++ " " ++ hour ++ ":" ++ minute ++ ":" ++
      second).toList = [y₁, y₂, y₃, y₄, '-', o₁, o₂, '-', d₁, d₂, ' ', h₁, h₂, ':', m₁, m₂, ':',
        s₁, s₂] := by
    simp [String.toList_append, hrest, ho, hd, hh, hm, hs]
  rw [IsField, hrest] at hyear
  rw [IsField, ho] at hmonth
  rw [IsField, hd] at hday
  rw [IsField, hh] at hhour
  rw [IsField, hm] at hminute
  rw [IsField, hs] at hsecond
  simp only [readDate, htext, hyear.2, hmonth.2, hday.2, hhour.2, hminute.2, hsecond.2,
    Option.bind_eq_bind, Option.bind_some]

/-! ## What the columns hold -/

/-- The time that the column takes for the text of a date. -/
def storedTime (epoch : ℤ) : ℤ :=
  epoch - 60 * (gmtime epoch).minute + 60 * (gmtime epoch).twelveHour

theorem readDate_getDateByUnixTM {epoch : ℤ} (hnonneg : 0 ≤ epoch) (hlt : epoch < 2147483648) :
    readDate (getDateByUnixTM epoch) = some (storedTime epoch) := by
  obtain ⟨hdate, hnumber⟩ := gmtime_date epoch
  have hclock := gmtime_clock epoch
  have hyear := gmtime_year hnonneg hlt
  have hhour := gmtime_hour epoch
  have hminute := twelveHour_bounds (gmtime epoch)
  have hsecond := gmtime_second epoch
  have hmonth := hdate.1
  have hmonth' := hdate.2.1
  have hday := hdate.2.2.1
  have hday' := hdate.2.2.2.trans (Calendar.daysInMonth_le _ _)
  unfold getDateByUnixTM storedTime
  rw [readDate_fields (isField_year hyear.1 hyear.2)
    (isField_twoDigits (by omega) (by omega)) (isField_twoDigits (by omega) (by omega))
    (isField_twoDigits (by omega) (by omega)) (isField_twoDigits (by omega) (by omega))
    (isField_twoDigits (by omega) (by omega))]
  unfold timeOfDate
  rw [Int.toNat_of_nonneg (by omega), Int.toNat_of_nonneg (by omega),
    Int.toNat_of_nonneg (by omega), Int.toNat_of_nonneg (by omega), Int.toNat_of_nonneg (by omega),
    Int.toNat_of_nonneg (by omega), if_pos ⟨hdate, by omega, by omega, by omega⟩, hnumber]
  congr 1
  omega

theorem storedTime_eq_iff {epoch : ℤ} : storedTime epoch = epoch ↔
    epoch / 60 % 60 = if epoch / 3600 % 12 = 0 then 12 else epoch / 3600 % 12 := by
  have hhour : (gmtime epoch).hour % 12 = epoch / 3600 % 12 := by
    simp only [gmtime]
    omega
  have hminute : (gmtime epoch).minute = epoch / 60 % 60 := by
    simp only [gmtime]
    omega
  unfold storedTime Tm.twelveHour
  rw [hhour, hminute]
  omega

theorem storedTime_lt_iff {epoch later : ℤ} (hlt : epoch < later) :
    storedTime epoch < storedTime later ↔
      epoch / 3600 ≠ later / 3600 ∨ epoch % 60 < later % 60 := by
  have h (epoch : ℤ) : storedTime epoch =
      3600 * (epoch / 3600) + 60 * (gmtime epoch).twelveHour + epoch % 60 := by
    simp only [storedTime, gmtime]
    omega
  have hhour : epoch / 3600 = later / 3600 →
      (gmtime epoch).twelveHour = (gmtime later).twelveHour := by
    intro heq
    have hsame : (gmtime epoch).hour = (gmtime later).hour := by
      simp only [gmtime]
      omega
    simp only [Tm.twelveHour, hsame]
  have hbounds := twelveHour_bounds (gmtime epoch)
  have hbounds' := twelveHour_bounds (gmtime later)
  rw [h epoch, h later]
  omega

theorem dateBefore_iff {epoch later : ℤ} (hepoch : 0 ≤ epoch ∧ epoch < 2147483648)
    (hlater : 0 ≤ later ∧ later < 2147483648) :
    DateBefore (getDateByUnixTM epoch) (getDateByUnixTM later) ↔
      storedTime epoch < storedTime later := by
  simp [DateBefore, readDate_getDateByUnixTM hepoch.1 hepoch.2,
    readDate_getDateByUnixTM hlater.1 hlater.2]

/-- The column reads the time of a message back exactly in the minute of an hour that has the
number of the hour on a twelve-hour clock. It keeps the order of two times in different hours, and
in one hour that of their seconds; rows sorted by it are sorted by time when it keeps the order of
every two of them. -/
theorem date_columns {epochs : List ℤ}
    (hrange : ∀ epoch ∈ epochs, 0 ≤ epoch ∧ epoch < 2147483648) :
    (∀ epoch ∈ epochs, (readDate (getDateByUnixTM epoch) = some epoch ↔
      epoch / 60 % 60 = if epoch / 3600 % 12 = 0 then 12 else epoch / 3600 % 12)) ∧
    (∀ epoch ∈ epochs, ∀ later ∈ epochs, epoch < later →
      (DateBefore (getDateByUnixTM epoch) (getDateByUnixTM later) ↔
        epoch / 3600 ≠ later / 3600 ∨ epoch % 60 < later % 60)) ∧
    ((∀ rows : List ℤ, rows.Perm epochs →
        rows.Pairwise (fun a b ↦ ¬ DateBefore (getDateByUnixTM b) (getDateByUnixTM a)) →
        rows.Pairwise (· ≤ ·)) ↔
      ∀ epoch ∈ epochs, ∀ later ∈ epochs, epoch < later →
        epoch / 3600 ≠ later / 3600 ∨ epoch % 60 < later % 60) := by
  refine ⟨?_, ?_, ?_⟩
  · intro epoch hepoch
    rw [readDate_getDateByUnixTM (hrange epoch hepoch).1 (hrange epoch hepoch).2,
      Option.some_inj, storedTime_eq_iff]
  · intro epoch hepoch later hlater hlt
    rw [dateBefore_iff (hrange epoch hepoch) (hrange later hlater), storedTime_lt_iff hlt]
  · calc
      _ ↔ ∀ rows : List ℤ, rows.Perm epochs →
          rows.Pairwise (fun a b ↦ storedTime a ≤ storedTime b) → rows.Pairwise (· ≤ ·) := by
        apply forall₂_congr
        intro rows hperm
        apply imp_congr_left
        apply List.Pairwise.iff_of_mem
        intro a b ha hb
        rw [dateBefore_iff (hrange b (hperm.mem_iff.mp hb)) (hrange a (hperm.mem_iff.mp ha)),
          not_lt]
      _ ↔ ∀ epoch ∈ epochs, ∀ later ∈ epochs, epoch < later →
          storedTime epoch < storedTime later := sorted_byKey_iff storedTime epochs
      _ ↔ _ := by
        apply forall₂_congr
        intro epoch _
        apply forall₂_congr
        intro later _
        apply forall_congr'
        intro hlt
        rw [storedTime_lt_iff hlt]

theorem date_columns_hour :
    readDate (getDateByUnixTM 1626883451) = some 1626883451 ∧
    DateBefore (getDateByUnixTM 1626883451) (getDateByUnixTM 1626887000) := by
  have hrange : ∀ epoch ∈ ([1626883451, 1626887000] : List ℤ),
      0 ≤ epoch ∧ epoch < 2147483648 := by decide
  constructor
  · rw [(date_columns hrange).1 _ (by decide)]
    decide
  · rw [(date_columns hrange).2.1 _ (by decide) _ (by decide) (by decide)]
    decide

/-- A minute later the text is the same. -/
theorem date_columns_minute :
    ¬ ((∀ epoch : ℤ, 0 ≤ epoch → epoch < 2147483648 →
        readDate (getDateByUnixTM epoch) = some epoch) ∧
      ∀ epoch later : ℤ, 0 ≤ epoch → epoch < later → later < 2147483648 →
        DateBefore (getDateByUnixTM epoch) (getDateByUnixTM later)) := by
  rintro ⟨h, -⟩
  have hsame : getDateByUnixTM 1626883271 = getDateByUnixTM 1626883211 := by decide +kernel
  have hfirst := h 1626883211 (by decide) (by decide)
  rw [← hsame, h 1626883271 (by decide) (by decide)] at hfirst
  exact absurd hfirst (by decide)

end Tgvisd.HistoryScraper
