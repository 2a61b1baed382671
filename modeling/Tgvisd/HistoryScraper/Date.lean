import Mathlib.Data.Int.Init

/-!
# Dates

`gmtime` and the format that `getDateByUnixTM` hands to `strftime`. The month and the day are
counted from the first of March of the year 0, so that the leap day is a year's last.
-/

namespace Tgvisd.HistoryScraper

structure Tm where
  year : Int
  month : Int
  day : Int
  hour : Int
  minute : Int
  second : Int
  deriving DecidableEq, Repr

def gmtime (epoch : Int) : Tm :=
  let secondOfDay := epoch % 86400
  let days := epoch / 86400 + 719468
  let dayOfEra := days % 146097
  let yearOfEra := (dayOfEra - dayOfEra / 1460 + dayOfEra / 36524 - dayOfEra / 146096) / 365
  let dayOfYear := dayOfEra - (365 * yearOfEra + yearOfEra / 4 - yearOfEra / 100)
  let monthFromMarch := (5 * dayOfYear + 2) / 153
  let month := if monthFromMarch < 10 then monthFromMarch + 3 else monthFromMarch - 9
  { year := yearOfEra + days / 146097 * 400 + if month ≤ 2 then 1 else 0
    month := month
    day := dayOfYear - (153 * monthFromMarch + 2) / 5 + 1
    hour := secondOfDay / 3600
    minute := secondOfDay % 3600 / 60
    second := secondOfDay % 60 }

/-- Two digits. -/
def twoDigits (value : Int) : String :=
  if value < 10 then "0" ++ toString value else toString value

/-- `%I`, the hour of a twelve-hour clock. -/
def Tm.twelveHour (tm : Tm) : Int := if tm.hour % 12 = 0 then 12 else tm.hour % 12

/-- `"%Y-%m-%d %H:%I:%S"` -/
def getDateByUnixTM (epoch : Int) : String :=
  let tm := gmtime epoch
  toString tm.year ++ "-" ++ twoDigits tm.month ++ "-" ++ twoDigits tm.day ++ " " ++
    twoDigits tm.hour ++ ":" ++ twoDigits tm.twelveHour ++ ":" ++ twoDigits tm.second

example : gmtime 1626883211 = ⟨2021, 7, 21, 16, 0, 11⟩ := by decide

end Tgvisd.HistoryScraper
