import GitPractice.Calendar
import Mathlib.Logic.Function.Iterate

set_option autoImplicit false

namespace GitPractice.Date

def isLeap (year : Int) : Bool := year % 4 == 0 && (year % 100 != 0 || year % 400 == 0)

def monthLength (year : Int) (month : Nat) : Nat :=
  if month = 2 then if isLeap year then 29 else 28
  else if month = 4 ∨ month = 6 ∨ month = 9 ∨ month = 11 then 30 else 31

structure Valid (date : Date) : Prop where
  month : 1 ≤ date.month ∧ date.month ≤ 12
  day : 1 ≤ date.day ∧ date.day ≤ monthLength date.year date.month

instance (date : Date) : Decidable date.Valid :=
  decidable_of_iff
    ((1 ≤ date.month ∧ date.month ≤ 12) ∧ 1 ≤ date.day ∧ date.day ≤ monthLength date.year date.month)
    ⟨fun both => ⟨both.1, both.2⟩, fun valid => ⟨valid.month, valid.day⟩⟩

def epoch : Date := ⟨1970, 1, 1⟩

def next (date : Date) : Date :=
  if date.day < monthLength date.year date.month then { date with day := date.day + 1 }
  else if date.month < 12 then ⟨date.year, date.month + 1, 1⟩
  else ⟨date.year + 1, 1, 1⟩

def Before (first second : Date) : Prop :=
  first.year < second.year ∨
    first.year = second.year ∧
      (first.month < second.month ∨ first.month = second.month ∧ first.day < second.day)

theorem leap_iff (year : Int) : isLeap year = true ↔ year % 4 = 0 ∧ (year % 100 ≠ 0 ∨ year % 400 = 0) := by
  simp [isLeap]

theorem month_length_pos (year : Int) (month : Nat) : 1 ≤ monthLength year month := by
  rw [monthLength]
  split
  · split <;> decide
  · split <;> decide

theorem first_valid (year : Int) {month : Nat} (inside : 1 ≤ month ∧ month ≤ 12) :
    Valid ⟨year, month, 1⟩ :=
  ⟨inside, Nat.le_refl 1, month_length_pos year month⟩

theorem next_valid {date : Date} (valid : date.Valid) : date.next.Valid := by
  obtain ⟨year, month, day⟩ := date
  obtain ⟨inside, started, ended⟩ := valid
  rw [next]
  simp only at inside started ended ⊢
  split
  · rename_i more
    exact ⟨inside, Nat.le_add_left 1 day, more⟩
  · split
    · rename_i more
      exact first_valid year ⟨Nat.le_add_left 1 month, more⟩
    · exact first_valid (year + 1) (by decide)

/-- The days of the years before a year, where a year starts in March. -/
def yearsBefore (year : Int) : Int := 365 * year + year / 4 - year / 100 + year / 400

theorem years_before_succ (year : Int) :
    yearsBefore year = yearsBefore (year - 1) + if isLeap year then 366 else 365 := by
  by_cases leap : isLeap year = true
  · have rule := (leap_iff year).mp leap
    rw [if_pos leap, yearsBefore, yearsBefore]
    omega
  · rw [if_neg leap, yearsBefore, yearsBefore]
    rw [leap_iff] at leap
    omega

theorem years_before_le {earlier later : Int} (order : earlier ≤ later) :
    yearsBefore earlier ≤ yearsBefore later := by
  simp only [yearsBefore]
  omega

theorem to_days_winter (year : Int) {month : Nat} (day : Nat) (winter : month ≤ 2) :
    toDays ⟨year, month, day⟩ = yearsBefore (year - 1) + daysBefore (month + 9) + (day - 1) - epochOffset := by
  simp only [toDays, if_pos winter, yearsBefore]

theorem to_days_march (year : Int) {month : Nat} (day : Nat) (march : ¬ month ≤ 2) :
    toDays ⟨year, month, day⟩ = yearsBefore year + daysBefore (month - 3) + (day - 1) - epochOffset := by
  simp only [toDays, if_neg march, yearsBefore]

theorem to_days_from_first (date : Date) :
    date.toDays = toDays ⟨date.year, date.month, 1⟩ + (date.day - 1) := by
  simp only [toDays]
  omega

theorem days_before_succ (year : Int) (month : Nat) (march : ¬ month ≤ 2) (inside : month ≤ 12) :
    daysBefore (month + 1 - 3) = daysBefore (month - 3) + monthLength year month := by
  have february : ¬ month = 2 := fun same => march (Nat.le_of_eq same)
  have lengths : ∀ m ≤ 12, ¬ m ≤ 2 →
      daysBefore (m + 1 - 3) = daysBefore (m - 3) + if m = 4 ∨ m = 6 ∨ m = 9 ∨ m = 11 then 30 else 31 := by
    decide
  rw [monthLength, if_neg february]
  exact lengths month inside march

theorem to_days_next_month (year : Int) {month : Nat} (inside : 1 ≤ month ∧ month < 12) :
    toDays ⟨year, month + 1, 1⟩ = toDays ⟨year, month, 1⟩ + monthLength year month := by
  obtain ⟨low, high⟩ := inside
  by_cases january : month = 1
  · subst january
    have length : monthLength year 1 = 31 := rfl
    rw [to_days_winter year 1 (by decide), to_days_winter year 1 (by decide), length]
    simp only [daysBefore]
    omega
  · by_cases february : month = 2
    · subst february
      rw [to_days_march year 1 (by decide), to_days_winter year 1 (by decide), years_before_succ]
      simp only [monthLength, daysBefore, if_true]
      split <;> omega
    · have march : ¬ month ≤ 2 := by omega
      rw [to_days_march year 1 (by omega), to_days_march year 1 march,
        days_before_succ year month march (Nat.le_of_lt high)]
      omega

theorem to_days_next_year (year : Int) :
    toDays ⟨year + 1, 1, 1⟩ = toDays ⟨year, 12, 1⟩ + monthLength year 12 := by
  have length : monthLength year 12 = 31 := rfl
  rw [to_days_winter (year + 1) 1 (by decide), to_days_march year 1 (by decide), Int.add_sub_cancel, length]
  simp only [daysBefore]
  omega

theorem to_days_next {date : Date} (valid : date.Valid) : date.next.toDays = date.toDays + 1 := by
  obtain ⟨year, month, day⟩ := date
  obtain ⟨⟨low, high⟩, started, ended⟩ := valid
  simp only at low high started ended
  rw [to_days_from_first ⟨year, month, day⟩, next]
  simp only
  -- The day after is in the same month, the first of the next month, or new year.
  split
  · rw [to_days_from_first]
    simp only
    omega
  · split
    · rename_i more
      rw [to_days_next_month year ⟨low, more⟩]
      omega
    · have december : month = 12 := by omega
      subst december
      rw [to_days_next_year]
      omega

theorem first_of_month_le (year : Int) {earlier later : Nat} (low : 1 ≤ earlier) (order : earlier ≤ later)
    (high : later ≤ 12) : toDays ⟨year, earlier, 1⟩ ≤ toDays ⟨year, later, 1⟩ := by
  obtain ⟨more, rfl⟩ := Nat.exists_eq_add_of_le order
  clear order
  induction more with
  | zero => exact Int.le_refl _
  | succ more ih =>
      have before := ih (Nat.le_of_succ_le high)
      have step := to_days_next_month year ⟨Nat.le_add_right_of_le low, high⟩
      rw [← Nat.add_assoc, step]
      omega

theorem first_of_year_le {earlier later : Int} (order : earlier ≤ later) :
    toDays ⟨earlier, 1, 1⟩ ≤ toDays ⟨later, 1, 1⟩ := by
  have years := years_before_le (Int.sub_le_sub_right order 1)
  rw [to_days_winter earlier 1 (by decide), to_days_winter later 1 (by decide)]
  omega

section
variable {date : Date} (valid : date.Valid)
include valid

theorem month_started : toDays ⟨date.year, date.month, 1⟩ ≤ date.toDays := by
  have started := valid.day.1
  rw [to_days_from_first date]
  omega

theorem year_started : toDays ⟨date.year, 1, 1⟩ ≤ date.toDays :=
  Int.le_trans (first_of_month_le date.year (Nat.le_refl 1) valid.month.1 valid.month.2) (month_started valid)

theorem month_not_ended {later : Nat} (order : date.month < later) (high : later ≤ 12) :
    date.toDays < toDays ⟨date.year, later, 1⟩ := by
  have step := to_days_next_month date.year ⟨valid.month.1, Nat.lt_of_lt_of_le order high⟩
  have between := first_of_month_le date.year (Nat.le_add_left 1 date.month) order high
  have inside := valid.day.2
  rw [to_days_from_first date]
  omega

theorem year_not_ended : date.toDays < toDays ⟨date.year + 1, 1, 1⟩ := by
  have turn := to_days_next_year date.year
  by_cases december : date.month = 12
  · have inside := valid.day.2
    rw [december] at inside
    rw [to_days_from_first date, december]
    omega
  · have earlier := month_not_ended valid (Nat.lt_of_le_of_ne valid.month.2 december) (Nat.le_refl 12)
    omega

end

theorem to_days_lt {first second : Date} (valid : first.Valid) (alsoValid : second.Valid)
    (before : first.Before second) : first.toDays < second.toDays := by
  rcases before with years | ⟨sameYear, months | ⟨sameMonth, days⟩⟩
  · calc
      first.toDays < toDays ⟨first.year + 1, 1, 1⟩ := year_not_ended valid
      _ ≤ toDays ⟨second.year, 1, 1⟩ := first_of_year_le years
      _ ≤ second.toDays := year_started alsoValid
  · calc
      first.toDays < toDays ⟨first.year, second.month, 1⟩ := month_not_ended valid months alsoValid.month.2
      _ = toDays ⟨second.year, second.month, 1⟩ := by rw [sameYear]
      _ ≤ second.toDays := month_started alsoValid
  · rw [to_days_from_first first, to_days_from_first second, sameYear, sameMonth]
    omega

theorem before_trichotomy (first second : Date) : first.Before second ∨ first = second ∨ second.Before first := by
  obtain ⟨year, month, day⟩ := first
  obtain ⟨otherYear, otherMonth, otherDay⟩ := second
  simp only [Before, mk.injEq]
  omega

section
variable {first second : Date} (valid : first.Valid) (alsoValid : second.Valid)
include valid alsoValid

theorem to_days_lt_iff : first.toDays < second.toDays ↔ first.Before second := by
  refine ⟨fun less => ?_, to_days_lt valid alsoValid⟩
  rcases before_trichotomy first second with before | same | after
  · exact before
  · exact absurd less (by rw [same]; exact Int.lt_irrefl _)
  · exact absurd less (Int.not_lt.mpr (Int.le_of_lt (to_days_lt alsoValid valid after)))

theorem to_days_injective (same : first.toDays = second.toDays) : first = second := by
  rcases before_trichotomy first second with before | equal | after
  · exact absurd same (Int.ne_of_lt (to_days_lt valid alsoValid before))
  · exact equal
  · exact absurd same (Int.ne_of_gt (to_days_lt alsoValid valid after))

end

theorem year_lt_iff {date : Date} (valid : date.Valid) (year : Int) :
    date.year < year ↔ date.toDays < toDays ⟨year, 1, 1⟩ := by
  obtain ⟨low, _⟩ := valid.month
  obtain ⟨started, _⟩ := valid.day
  rw [to_days_lt_iff valid (first_valid year (by decide))]
  simp only [Before]
  omega

theorem split_era_leap (dayOfEra : Nat) (inside : dayOfEra < 146097) (last : (splitEra dayOfEra).2 = 365) :
    ((splitEra dayOfEra).1 + 1) % 4 = 0 ∧
      (((splitEra dayOfEra).1 + 1) % 100 ≠ 0 ∨ ((splitEra dayOfEra).1 + 1) % 400 = 0) := by
  simp only [splitEra] at last ⊢
  omega

section
variable (year : Int) {dayOfYear place : Nat} (placed : (5 * dayOfYear + 2) / 153 = place)
include placed

theorem valid_from_march (march : place < 10) : Valid ⟨year, place + 3, dayOfYear - daysBefore place + 1⟩ := by
  have length := days_before_succ year (place + 3) (by omega) (by omega)
  rw [Nat.add_right_comm, Nat.add_sub_cancel, Nat.add_sub_cancel] at length
  refine ⟨⟨Nat.le_add_left 1 _, Nat.add_le_add_right (Nat.le_of_lt_succ march) 3⟩, Nat.le_add_left 1 _, ?_⟩
  simp only [daysBefore] at length ⊢
  omega

theorem valid_before_march (winter : ¬ place < 10) (inside : dayOfYear ≤ 365)
    (leap : dayOfYear = 365 → isLeap year = true) :
    Valid ⟨year, place - 9, dayOfYear - daysBefore place + 1⟩ := by
  have last : place = 10 ∨ place = 11 := by omega
  have month : 1 ≤ place - 9 ∧ place - 9 ≤ 12 := by omega
  refine ⟨month, Nat.le_add_left 1 _, ?_⟩
  rcases last with rfl | rfl
  · have length : monthLength year (10 - 9) = 31 := rfl
    simp only [length, daysBefore]
    omega
  · have length : monthLength year (11 - 9) = if isLeap year then 29 else 28 := rfl
    simp only [length, daysBefore]
    by_cases leapDay : dayOfYear = 365
    · rw [if_pos (leap leapDay)]
      omega
    · split <;> omega

end

theorem valid_of_days (days : Int) : (ofDays days).Valid := by
  have inside : ((days + epochOffset) % eraLength).toNat < 146097 := by
    simp only [eraLength, epochOffset]
    omega
  have last := split_era_leap _ inside
  have within := split_era_day ((days + epochOffset) % eraLength).toNat
  rw [ofDays]
  generalize splitEra ((days + epochOffset) % eraLength).toNat = parts at *
  obtain ⟨yearOfEra, dayOfYear⟩ := parts
  generalize (days + epochOffset) / eraLength = era at *
  simp only at last within ⊢
  split
  · rename_i march
    exact valid_from_march _ rfl march
  · rename_i winter
    refine valid_before_march _ rfl winter within fun leapDay => ?_
    have rule := last leapDay
    rw [leap_iff]
    omega

theorem of_days_to_days {date : Date} (valid : date.Valid) : ofDays date.toDays = date :=
  to_days_injective (valid_of_days _) valid (to_days_of_days _)

theorem of_days_next (days : Int) : ofDays (days + 1) = (ofDays days).next := by
  have valid := valid_of_days days
  rw [← of_days_to_days (next_valid valid), to_days_next valid, to_days_of_days]

theorem next_iterate (days : Int) (steps : Nat) : next^[steps] (ofDays days) = ofDays (days + steps) := by
  induction steps with
  | zero => rw [Int.natCast_zero, Int.add_zero, Function.iterate_zero_apply]
  | succ steps ih =>
      rw [Function.iterate_succ_apply', ih, ← of_days_next, Int.natCast_succ, Int.add_assoc]

theorem counted_from_epoch {date : Date} (valid : date.Valid) :
    next^[date.toDays.toNat] epoch = next^[(-date.toDays).toNat] date := by
  have start : epoch = ofDays 0 := rfl
  have back := next_iterate date.toDays (-date.toDays).toNat
  rw [of_days_to_days valid] at back
  rw [start, next_iterate, back]
  -- One of the two counts is zero, whichever side of the epoch the date is on.
  congr 1
  omega

end GitPractice.Date
