import GitPractice.Proofs.DayCount
import GitPractice.Proofs.JsonText

set_option autoImplicit false

namespace GitPractice

def Text.decimal? (width : Nat) (cs : List Char) : Option Nat :=
  (number? 10 cs).filter fun n => (decimal width n).toList == cs

theorem Text.decimal_iff {width n : Nat} {cs : List Char} :
    decimal? width cs = some n ↔ cs = (decimal width n).toList := by
  rw [decimal?, Option.filter_eq_some_iff, beq_iff_eq]
  constructor
  · rintro ⟨_, same⟩
    exact same.symm
  · rintro rfl
    exact ⟨number_digits (by decide) (by decide) width n, rfl⟩

theorem Text.decimal_digit {width n : Nat} {c : Char} (present : c ∈ (decimal width n).toList) :
    isDigit c = true := by
  rw [decimal, digits_to_list, List.leftpad, List.mem_append] at present
  rcases present with zero | digit
  · rw [(List.mem_replicate.mp zero).2]
    rfl
  · exact Json.to_digits_digit digit

theorem Text.decimal_free {width n : Nat} {mark : Char} (apart : isDigit mark = false) :
    mark ∉ (decimal width n).toList := by
  intro present
  rw [decimal_digit present] at apart
  cases apart

namespace Moment

/-- Weekdays are counted from Sunday, and 1970-01-01 was a Thursday. -/
structure Sound (moment : Moment) : Prop where
  date : moment.date.Valid
  weekday : (moment.weekday : Int) = (moment.date.toDays + 4) % 7
  hour : moment.hour < 24
  minute : moment.minute < 60
  second : moment.second < 60

instance (moment : Moment) : Decidable moment.Sound :=
  decidable_of_iff
    (moment.date.Valid ∧ (moment.weekday : Int) = (moment.date.toDays + 4) % 7 ∧ moment.hour < 24 ∧
      moment.minute < 60 ∧ moment.second < 60)
    ⟨fun ⟨date, weekday, hour, minute, second⟩ => ⟨date, weekday, hour, minute, second⟩,
      fun ⟨date, weekday, hour, minute, second⟩ => ⟨date, weekday, hour, minute, second⟩⟩

theorem sound_of_seconds (seconds : Int) : (ofSeconds seconds).Sound := by
  refine ⟨Date.valid_of_days _, ?_, ?_, ?_, ?_⟩ <;> simp only [ofSeconds, Date.to_days_of_days] <;> omega

def readYear? : List Char → Option Int
  | '-' :: digits => (Text.decimal? 4 digits).bind fun n => if 0 < n then some (-n) else none
  | '+' :: digits => (Text.decimal? 4 digits).bind fun n => if 9999 < n then some n else none
  | digits => (Text.decimal? 4 digits).bind fun n => if n ≤ 9999 then some n else none

def readClock? (cs : List Char) : Option (Nat × Nat × Nat) :=
  match cs.splitOn ':' with
  | [hour, minute, second] => do
      let hour ← Text.decimal? 2 hour
      let minute ← Text.decimal? 2 minute
      let second ← Text.decimal? 2 second
      return (hour, minute, second)
  | _ => none

def read? (text : String) : Option Moment :=
  match text.toList.splitOn ' ' with
  | [weekday, month, day, clock, year, zone] =>
      if zone = "+0000".toList then do
        let weekday ← weekdayNames.idxOf? (.ofList weekday)
        let month ← monthNames.idxOf? (.ofList month)
        let day ← Text.decimal? 1 day
        let (hour, minute, second) ← readClock? clock
        let year ← readYear? year
        let moment : Moment := ⟨⟨year, month + 1, day⟩, weekday, hour, minute, second⟩
        if moment.Sound then some moment else none
      else none
  | _ => none

section
variable {n : Nat}

theorem year_text_negative (positive : 0 < n) :
    (yearText (-n)).toList = '-' :: (Text.decimal 4 n).toList := by
  have negative : -(n : Int) < 0 := by omega
  rw [yearText, if_pos negative, Int.natAbs_neg, Int.natAbs_natCast, String.toList_append]
  rfl

theorem year_text_signed (large : 9999 < n) : (yearText n).toList = '+' :: (Text.decimal 4 n).toList := by
  have natural : ¬ (n : Int) < 0 := by omega
  have signed : ¬ (n : Int) ≤ 9999 := by omega
  rw [yearText, if_neg natural, if_neg signed, Int.natAbs_natCast, String.toList_append]
  rfl

theorem year_text_plain (small : n ≤ 9999) : (yearText n).toList = (Text.decimal 4 n).toList := by
  have natural : ¬ (n : Int) < 0 := by omega
  have plain : (n : Int) ≤ 9999 := by omega
  rw [yearText, if_neg natural, if_pos plain, Int.natAbs_natCast]

end

theorem read_year_plain {cs : List Char} (digits : ∀ c ∈ cs, Text.isDigit c = true) :
    readYear? cs = (Text.decimal? 4 cs).bind fun n => if n ≤ 9999 then some (n : Int) else none := by
  rw [readYear?]
  · rintro rest rfl
    exact absurd (digits '-' List.mem_cons_self) (by decide)
  · rintro rest rfl
    exact absurd (digits '+' List.mem_cons_self) (by decide)

theorem read_year_written {cs : List Char} {year : Int} (read : readYear? cs = some year) :
    cs = (yearText year).toList := by
  revert read
  fun_cases readYear? cs with
  | case1 digits =>
      simp only [Option.bind_eq_some_iff, Option.ite_none_right_eq_some, Option.some.injEq, Text.decimal_iff]
      rintro ⟨n, rfl, positive, rfl⟩
      rw [year_text_negative positive]
  | case2 digits =>
      simp only [Option.bind_eq_some_iff, Option.ite_none_right_eq_some, Option.some.injEq, Text.decimal_iff]
      rintro ⟨n, rfl, large, rfl⟩
      rw [year_text_signed large]
  | case3 digits =>
      simp only [Option.bind_eq_some_iff, Option.ite_none_right_eq_some, Option.some.injEq, Text.decimal_iff]
      rintro ⟨n, rfl, small, rfl⟩
      rw [year_text_plain small]

theorem read_year_text (year : Int) : readYear? (yearText year).toList = some year := by
  have own (n : Nat) : Text.decimal? 4 (Text.decimal 4 n).toList = some n := Text.decimal_iff.mpr rfl
  rcases Int.lt_or_le year 0 with negative | natural
  · obtain ⟨n, rfl⟩ := Int.exists_eq_neg_ofNat (Int.le_of_lt negative)
    have positive : 0 < n := by omega
    rw [year_text_negative positive, readYear?, own, Option.bind_some, if_pos positive]
  · obtain ⟨n, rfl⟩ := Int.eq_ofNat_of_zero_le natural
    by_cases small : n ≤ 9999
    · rw [year_text_plain small, read_year_plain fun c present => Text.decimal_digit present, own, Option.bind_some,
        if_pos small]
    · have large : 9999 < n := Nat.lt_of_not_le small
      rw [year_text_signed large, readYear?, own, Option.bind_some, if_pos large]

theorem read_year_iff {cs : List Char} {year : Int} : readYear? cs = some year ↔ cs = (yearText year).toList :=
  ⟨read_year_written, fun written => written ▸ read_year_text year⟩

theorem clock_text_joined (moment : Moment) :
    moment.clockText.toList =
      [':'].intercalate [(Text.decimal 2 moment.hour).toList, (Text.decimal 2 moment.minute).toList,
        (Text.decimal 2 moment.second).toList] := by
  simp [clockText]

theorem read_clock_iff {cs : List Char} {moment : Moment} :
    readClock? cs = some (moment.hour, moment.minute, moment.second) ↔ cs = moment.clockText.toList := by
  rw [clock_text_joined]
  constructor
  · intro read
    rw [readClock?] at read
    split at read
    · rename_i hour minute second parts
      simp only [Option.bind_eq_bind, Option.bind_eq_some_iff, Option.pure_def, Option.some.injEq, Prod.mk.injEq,
        Text.decimal_iff] at read
      obtain ⟨h, rfl, m, rfl, s, rfl, rfl, rfl, rfl⟩ := read
      rw [← parts, List.intercalate_splitOn]
    · cases read
  · rintro rfl
    have free (n : Nat) : ':' ∉ (Text.decimal 2 n).toList := Text.decimal_free (by decide)
    rw [readClock?, List.splitOn_intercalate ':' (by simp [free]) (by simp)]
    simp [Text.decimal_iff.mpr rfl]

section
variable {names : List String} {place : Nat}

theorem name_of_place {cs : List Char} (found : names.idxOf? (.ofList cs) = some place) :
    (names.getD place "").toList = cs := by
  obtain ⟨inside, same, _⟩ := List.idxOf?_eq_some_iff.mp found
  rw [List.getD_eq_getElem?_getD, List.getElem?_eq_getElem inside, Option.getD_some, same, String.toList_ofList]

theorem place_of_name (distinct : names.Nodup) (inside : place < names.length) :
    names.idxOf? (names.getD place "") = some place := by
  rw [List.getD_eq_getElem?_getD, List.getElem?_eq_getElem inside, Option.getD_some, List.idxOf?_eq_some_iff]
  refine ⟨inside, rfl, fun earlier before same => ?_⟩
  exact List.pairwise_iff_getElem.mp distinct earlier place (Nat.lt_trans before inside) inside before same

theorem name_unspaced (free : ∀ name ∈ names, ' ' ∉ name.toList) : ' ' ∉ (names.getD place "").toList := by
  rw [List.getD_eq_getElem?_getD]
  cases found : names[place]? with
  | none => simp
  | some name => exact free name (List.mem_of_getElem? found)

end

theorem render_joined (moment : Moment) :
    moment.render.toList =
      [' '].intercalate
        [(weekdayNames.getD moment.weekday "").toList, (monthNames.getD (moment.date.month - 1) "").toList,
         (Text.decimal 1 moment.date.day).toList, moment.clockText.toList, (yearText moment.date.year).toList,
         "+0000".toList] := by
  rw [render, String.toList_intercalate]
  rfl

theorem read_written {text : String} {moment : Moment} (read : read? text = some moment) :
    moment.Sound ∧ text = moment.render := by
  rw [read?] at read
  split at read
  · rename_i weekday month day clock year zone parts
    split at read
    · rename_i zero
      simp only [Option.bind_eq_bind, Option.bind_eq_some_iff, Option.ite_none_right_eq_some, Option.some.injEq,
        Text.decimal_iff] at read
      obtain ⟨w, weekdayRead, m, monthRead, d, dayRead, c, clockRead, y, yearRead, sound, rfl⟩ := read
      refine ⟨sound, ?_⟩
      have joined : [' '].intercalate (text.toList.splitOn ' ') = text.toList := List.intercalate_splitOn ' '
      have clockText : clock = (clockText ⟨⟨y, m + 1, d⟩, w, c.1, c.2.1, c.2.2⟩).toList :=
        read_clock_iff.mp clockRead
      rw [← String.toList_inj, render_joined, ← joined, parts]
      simp only [Nat.add_sub_cancel, name_of_place weekdayRead, name_of_place monthRead, ← dayRead, ← clockText,
        ← read_year_iff.mp yearRead, ← zero]
    · cases read
  · cases read

theorem clock_unspaced (moment : Moment) : ' ' ∉ moment.clockText.toList := by
  have free (n : Nat) : ' ' ∉ (Text.decimal 2 n).toList := Text.decimal_free (by decide)
  simp [clockText, free]

theorem year_unspaced (year : Int) : ' ' ∉ (yearText year).toList := by
  have free (n : Nat) : ' ' ∉ (Text.decimal 4 n).toList := Text.decimal_free (by decide)
  rw [yearText]
  split
  · simp [free]
  · split <;> simp [free]

theorem read_render {moment : Moment} (sound : moment.Sound) : read? moment.render = some moment := by
  have free : ∀ field ∈ [(weekdayNames.getD moment.weekday "").toList,
      (monthNames.getD (moment.date.month - 1) "").toList, (Text.decimal 1 moment.date.day).toList,
      moment.clockText.toList, (yearText moment.date.year).toList, "+0000".toList], ' ' ∉ field := by
    simp only [List.forall_mem_cons]
    exact ⟨name_unspaced (by decide), name_unspaced (by decide), Text.decimal_free rfl, clock_unspaced moment,
      year_unspaced _, by decide, by simp⟩
  have weekday : moment.weekday < weekdayNames.length := by
    have turn := sound.weekday
    simp only [weekdayNames, List.length_cons, List.length_nil]
    omega
  obtain ⟨low, high⟩ := sound.date.month
  have month : moment.date.month - 1 < monthNames.length := by
    simp only [monthNames, List.length_cons, List.length_nil]
    omega
  rw [read?, render_joined, List.splitOn_intercalate ' ' free (by simp)]
  simp only [if_true, String.ofList_toList, place_of_name (by decide) weekday, place_of_name (by decide) month,
    Text.decimal_iff.mpr rfl, read_clock_iff.mpr rfl, read_year_text, Nat.sub_add_cancel low, Option.bind_eq_bind,
    Option.bind_some, if_pos sound]

example : read? "Thu Mar 1 00:00:00 1900 +0000" = some ⟨⟨1900, 3, 1⟩, 4, 0, 0, 0⟩ ∧
    read? "Thu Feb 29 00:00:00 1900 +0000" = none := by
  decide +kernel

end Moment

end GitPractice
