import GitPractice.Text.Digits

set_option autoImplicit false

namespace GitPractice

structure Date where
  year : Int
  month : Nat
  day : Nat
deriving DecidableEq, Repr

namespace Date

def eraLength : Int := 146097

def epochOffset : Int := 719468

def splitEra (dayOfEra : Nat) : Nat × Nat :=
  let century := min (dayOfEra / 36524) 3
  let dayOfCentury := dayOfEra - century * 36524
  let cycle := dayOfCentury / 1461
  let dayOfCycle := dayOfCentury % 1461
  let year := min (dayOfCycle / 365) 3
  (century * 100 + cycle * 4 + year, dayOfCycle - year * 365)

def daysBefore (month : Nat) : Nat := (153 * month + 2) / 5

def ofDays (days : Int) : Date :=
  let shifted := days + epochOffset
  let parts := splitEra (shifted % eraLength).toNat
  let month := (5 * parts.2 + 2) / 153
  let year := parts.1 + shifted / eraLength * 400
  let day := parts.2 - daysBefore month + 1
  if month < 10 then ⟨year, month + 3, day⟩ else ⟨year + 1, month - 9, day⟩

/-- The day of a date, by the rule of leap years and not by eras. -/
def toDays (date : Date) : Int :=
  let year := if date.month ≤ 2 then date.year - 1 else date.year
  let month := if date.month ≤ 2 then date.month + 9 else date.month - 3
  365 * year + year / 4 - year / 100 + year / 400 + daysBefore month + (date.day - 1) - epochOffset

theorem split_era_sum (dayOfEra : Nat) (inside : dayOfEra < 146097) :
    (splitEra dayOfEra).1 * 365 + (splitEra dayOfEra).1 / 4 - (splitEra dayOfEra).1 / 100 +
      (splitEra dayOfEra).2 = dayOfEra := by
  simp only [splitEra]
  have centuries : dayOfEra - min (dayOfEra / 36524) 3 * 36524 ≤ 36524 := by omega
  have started : min (dayOfEra / 36524) 3 * 36524 ≤ dayOfEra := by omega
  generalize min (dayOfEra / 36524) 3 = century at *
  generalize dayOfCentury_eq : dayOfEra - century * 36524 = dayOfCentury at *
  have cycles : dayOfCentury / 1461 ≤ 24 := by omega
  have days := Nat.div_add_mod dayOfCentury 1461
  have short : dayOfCentury % 1461 < 1461 := Nat.mod_lt _ (by decide)
  generalize dayOfCentury / 1461 = cycle at *
  generalize dayOfCentury % 1461 = dayOfCycle at *
  have years : min (dayOfCycle / 365) 3 ≤ 3 := Nat.min_le_right _ _
  have begun : min (dayOfCycle / 365) 3 * 365 ≤ dayOfCycle :=
    Nat.le_trans (Nat.mul_le_mul_right 365 (Nat.min_le_left _ 3)) (Nat.div_mul_le_self _ _)
  generalize min (dayOfCycle / 365) 3 = year at *
  have fourths : (century * 100 + cycle * 4 + year) / 4 = century * 25 + cycle := by omega
  have hundredths : (century * 100 + cycle * 4 + year) / 100 = century := by omega
  rw [fourths, hundredths]
  omega

theorem split_era_year (dayOfEra : Nat) (inside : dayOfEra < 146097) : (splitEra dayOfEra).1 < 400 := by
  simp only [splitEra]
  omega

theorem split_era_day (dayOfEra : Nat) : (splitEra dayOfEra).2 ≤ 365 := by
  simp only [splitEra]
  omega

theorem to_days_of_days (days : Int) : (ofDays days).toDays = days := by
  have inside : ((days + epochOffset) % eraLength).toNat < 146097 := by
    simp only [eraLength, epochOffset]
    omega
  have sum := split_era_sum _ inside
  have year := split_era_year _ inside
  have day := split_era_day ((days + epochOffset) % eraLength).toNat
  have whole : ((((days + epochOffset) % eraLength).toNat : Nat) : Int) =
      days + epochOffset - (days + epochOffset) / eraLength * eraLength := by
    simp only [eraLength, epochOffset]
    omega
  simp only [ofDays]
  generalize (splitEra ((days + epochOffset) % eraLength).toNat) = parts at *
  obtain ⟨y, d⟩ := parts
  simp only at sum year day
  generalize ((days + epochOffset) % eraLength).toNat = dayOfEra at *
  generalize (days + epochOffset) / eraLength = era at *
  have fourths : ((y : Int) + era * 400) / 4 = ((y / 4 : Nat) : Int) + era * 100 := by omega
  have hundredths : ((y : Int) + era * 400) / 100 = ((y / 100 : Nat) : Int) + era * 4 := by omega
  have eras : ((y : Int) + era * 400) / 400 = era := by omega
  simp only [daysBefore, eraLength, epochOffset] at *
  -- Years run from March, so January and February count to the year before.
  by_cases early : (5 * d + 2) / 153 < 10
  · have late : ¬ (5 * d + 2) / 153 + 3 ≤ 2 := by omega
    simp only [if_pos early, toDays, daysBefore, if_neg late, epochOffset, Nat.add_sub_cancel, fourths,
      hundredths, eras]
    omega
  · have winter : (5 * d + 2) / 153 - 9 ≤ 2 := by omega
    have month : (5 * d + 2) / 153 - 9 + 9 = (5 * d + 2) / 153 := by omega
    simp only [if_neg early, toDays, daysBefore, if_pos winter, epochOffset, Int.add_sub_cancel, fourths,
      hundredths, eras, month]
    omega

end Date

structure Moment where
  date : Date
  weekday : Nat
  hour : Nat
  minute : Nat
  second : Nat
deriving DecidableEq, Repr

namespace Moment

def ofSeconds (seconds : Int) : Moment :=
  let days := seconds / 86400
  let clock := (seconds % 86400).toNat
  ⟨.ofDays days, ((days + 4) % 7).toNat, clock / 3600, clock / 60 % 60, clock % 60⟩

def toSeconds (moment : Moment) : Int :=
  moment.date.toDays * 86400 + moment.hour * 3600 + moment.minute * 60 + moment.second

theorem to_seconds_of_seconds (seconds : Int) : (ofSeconds seconds).toSeconds = seconds := by
  simp only [toSeconds, ofSeconds, Date.to_days_of_days]
  omega

def firstYear : Int := -262143
def lastYear : Int := 262142

def ofMillis? (millis : Int) : Option Moment :=
  let moment := ofSeconds (millis / 1000)
  if firstYear ≤ moment.date.year ∧ moment.date.year ≤ lastYear then some moment else none

def weekdayNames : List String := ["Sun", "Mon", "Tue", "Wed", "Thu", "Fri", "Sat"]

def monthNames : List String :=
  ["Jan", "Feb", "Mar", "Apr", "May", "Jun", "Jul", "Aug", "Sep", "Oct", "Nov", "Dec"]

/-- A year of up to four digits is written with four; any other year has a sign and at least four. -/
def yearText (year : Int) : String :=
  if year < 0 then "-" ++ Text.decimal 4 year.natAbs
  else if year ≤ 9999 then Text.decimal 4 year.natAbs
  else "+" ++ Text.decimal 4 year.natAbs

def clockText (moment : Moment) : String :=
  Text.decimal 2 moment.hour ++ ":" ++ Text.decimal 2 moment.minute ++ ":" ++ Text.decimal 2 moment.second

def render (moment : Moment) : String :=
  " ".intercalate
    [weekdayNames.getD moment.weekday "", monthNames.getD (moment.date.month - 1) "",
     Text.decimal 1 moment.date.day, moment.clockText, yearText moment.date.year, "+0000"]

end Moment

def dateLine (millis : Int) : String :=
  match Moment.ofMillis? millis with
  | some moment => moment.render
  | none => toString millis

end GitPractice
