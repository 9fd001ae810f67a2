import GitPractice.Proofs.DateReading
import GitPractice.Proofs.WellFormed

set_option autoImplicit false

namespace GitPractice

namespace Moment

def earliest : Int := -8334601228800000
def latest : Int := 8210266876799999

def Shown (millis : Int) : Prop := earliest ≤ millis ∧ millis ≤ latest

instance (millis : Int) : Decidable (Shown millis) :=
  inferInstanceAs (Decidable (_ ∧ _))

theorem year_shown_iff (millis : Int) :
    firstYear ≤ (ofSeconds (millis / 1000)).date.year ∧ (ofSeconds (millis / 1000)).date.year ≤ lastYear ↔
      Shown millis := by
  have days : (ofSeconds (millis / 1000)).date.toDays = millis / 1000 / 86400 := Date.to_days_of_days _
  have valid : (ofSeconds (millis / 1000)).date.Valid := Date.valid_of_days _
  have first := Date.year_lt_iff valid firstYear
  have afterLast := Date.year_lt_iff valid (lastYear + 1)
  have firstDay : Date.toDays ⟨firstYear, 1, 1⟩ = -96465292 := rfl
  have dayAfter : Date.toDays ⟨lastYear + 1, 1, 1⟩ = 95026237 := rfl
  rw [days, firstDay] at first
  rw [days, dayAfter] at afterLast
  rw [Shown, earliest, latest]
  omega

theorem of_millis_eq (millis : Int) :
    ofMillis? millis = if Shown millis then some (ofSeconds (millis / 1000)) else none := by
  simp only [ofMillis?, year_shown_iff]

end Moment

theorem date_line_shown {millis : Int} (shown : Moment.Shown millis) :
    dateLine millis = (Moment.ofSeconds (millis / 1000)).render := by
  rw [dateLine, Moment.of_millis_eq, if_pos shown]

theorem date_line_bare {millis : Int} (bare : ¬ Moment.Shown millis) : dateLine millis = toString millis := by
  rw [dateLine, Moment.of_millis_eq, if_neg bare]

theorem read_date_line {millis : Int} (shown : Moment.Shown millis) :
    Moment.read? (dateLine millis) = some (Moment.ofSeconds (millis / 1000)) := by
  rw [date_line_shown shown]
  exact Moment.read_render (Moment.sound_of_seconds _)

theorem int_unspaced (value : Int) : ' ' ∉ (toString value).toList := by
  have free : ' ' ∉ Nat.toDigits 10 value.natAbs := by
    intro present
    have digit := Json.to_digits_digit present
    cases digit
  rcases Json.int_to_list value with ⟨digits, _⟩ | ⟨digits, _⟩
  · rwa [digits]
  · rw [digits, List.mem_cons, not_or]
    exact ⟨by decide, free⟩

theorem render_ne_int (moment : Moment) (value : Int) : moment.render ≠ toString value := by
  intro same
  have gap : ' ' ∈ moment.render.toList := by
    rw [Moment.render_joined, List.intercalate_cons_cons]
    simp
  rw [same] at gap
  exact int_unspaced value gap

theorem read_int_none (value : Int) : Moment.read? (toString value) = none := by
  cases read : Moment.read? (toString value) with
  | none => rfl
  | some moment => exact absurd (Moment.read_written read).2.symm (render_ne_int moment value)

def Text.int? : List Char → Option Int
  | '-' :: digits => (number? 10 digits).map Int.negOfNat
  | digits => (number? 10 digits).map Int.ofNat

theorem Text.int_to_string (value : Int) : int? (toString value).toList = some value := by
  have own : number? 10 (Nat.toDigits 10 value.natAbs) = some value.natAbs :=
    number_to_digits (by decide) (by decide) _
  rcases Json.int_to_list value with ⟨digits, natural⟩ | ⟨digits, negative⟩
  · obtain ⟨c, tail, started, digit⟩ := Json.to_digits_cons value.natAbs
    have unsigned : c ≠ '-' := by
      rintro rfl
      cases digit
    rw [digits, int?, own, Option.map_some, Int.ofNat_eq_natCast, Int.natAbs_of_nonneg natural]
    rw [started]
    rintro rest ⟨⟩
    exact unsigned rfl
  · rw [digits, int?, own, Option.map_some, Int.negOfNat_eq, Int.ofNat_eq_natCast,
      Int.ofNat_natAbs_of_nonpos (Int.le_of_lt negative), Int.neg_neg]

/-- The second that a date line tells, where a bare number counts milliseconds. -/
def secondShown? (line : String) : Option Int :=
  match Moment.read? line with
  | some moment => some moment.toSeconds
  | none => (Text.int? line.toList).map (· / 1000)

theorem second_shown (millis : Int) : secondShown? (dateLine millis) = some (millis / 1000) := by
  rw [secondShown?]
  by_cases shown : Moment.Shown millis
  · rw [read_date_line shown]
    exact congrArg some (Moment.to_seconds_of_seconds _)
  · rw [date_line_bare shown, read_int_none]
    simp only [Text.int_to_string, Option.map_some]

theorem date_line_same_second {first second : Int} (same : dateLine first = dateLine second) :
    first / 1000 = second / 1000 := by
  have told := second_shown first
  rw [same, second_shown second] at told
  exact (Option.some.inj told).symm

theorem date_line_eq_iff {first second : Int} (shown : Moment.Shown first) (alsoShown : Moment.Shown second) :
    dateLine first = dateLine second ↔ first / 1000 = second / 1000 := by
  refine ⟨date_line_same_second, fun same => ?_⟩
  rw [date_line_shown shown, date_line_shown alsoShown, same]

theorem timed_seconds_rise {commits : List Commit} (timed : Timed commits) :
    commits.Pairwise fun earlier later => earlier.timestamp / 1000 < later.timestamp / 1000 := by
  rw [List.pairwise_iff_getElem]
  intro first second firstBound secondBound before
  rw [timed first _ (List.getElem?_eq_getElem firstBound), timed second _ (List.getElem?_eq_getElem secondBound)]
  simp only [Clock.timeOf, Clock.start, Clock.stride]
  omega

namespace Session

theorem date_lines_tell_seconds (settings : Settings) (ids : IdSource) (course : List Event) :
    let commits := ((start settings ids).after course).repository.commits
    (∀ date : Date, date.Valid → date.next.Valid ∧
      Date.next^[date.toDays.toNat] Date.epoch = Date.next^[(-date.toDays).toNat] date) ∧
    (∀ millis, Moment.Shown millis → ∃ moment, Moment.read? (dateLine millis) = some moment ∧
      moment.Sound ∧ moment.toSeconds = millis / 1000) ∧
    (∀ first second, Moment.Shown first → Moment.Shown second →
      (dateLine first = dateLine second ↔ first / 1000 = second / 1000)) ∧
    (∀ millis, ¬ Moment.Shown millis → dateLine millis = toString millis ∧
      ∀ moment : Moment, moment.render ≠ toString millis) ∧
    (commits.map Commit.date).Nodup ∧
    commits.Pairwise fun earlier later => ∃ before after, secondShown? earlier.date = some before ∧
      secondShown? later.date = some after ∧ before < after := by
  intro commits
  have rising := timed_seconds_rise (after_timed settings ids course)
  refine ⟨?_, ?_, ?_, ?_, ?_, ?_⟩
  · intro date valid
    exact ⟨Date.next_valid valid, Date.counted_from_epoch valid⟩
  · intro millis shown
    exact ⟨_, read_date_line shown, Moment.sound_of_seconds _, Moment.to_seconds_of_seconds _⟩
  · intro first second shown alsoShown
    exact date_line_eq_iff shown alsoShown
  · intro millis bare
    exact ⟨date_line_bare bare, fun moment => render_ne_int moment millis⟩
  · refine List.pairwise_map.mpr (rising.imp ?_)
    intro earlier later before same
    exact absurd (date_line_same_second same) (Int.ne_of_lt before)
  · refine rising.imp ?_
    intro earlier later before
    exact ⟨_, _, second_shown _, second_shown _, before⟩

theorem early_leap_day_told :
    let millis : Int := -62288265600001
    let commits := ((start {} .sequential).after mixedCourse).repository.commits
    Date.next^[0] Date.epoch = Date.next^[1] ⟨1969, 12, 31⟩ ∧
    Moment.Shown millis ∧ dateLine millis = "Thu Feb 29 23:59:59 -0004 +0000" ∧
    (∃ moment, Moment.read? "Thu Feb 29 23:59:59 -0004 +0000" = some moment ∧ moment.Sound ∧
      moment.toSeconds = -62288265601) ∧
    dateLine (millis - 999) = dateLine millis ∧ dateLine (millis - 1000) ≠ dateLine millis ∧
    dateLine 8210266876800000 = "8210266876800000" ∧
    commits.map Commit.date =
      ["Sat Jan 1 00:00:00 2022 +0000", "Sat Jan 1 00:05:00 2022 +0000", "Sat Jan 1 00:10:00 2022 +0000"] ∧
    (commits.map Commit.date).Nodup := by
  intro millis commits
  obtain ⟨counted, told, same, bare, distinct, _⟩ := date_lines_tell_seconds {} .sequential mixedCourse
  have shown : Moment.Shown millis := by decide
  have early : Moment.Shown (millis - 999) := by decide
  have earlier : Moment.Shown (millis - 1000) := by decide
  have line : dateLine millis = "Thu Feb 29 23:59:59 -0004 +0000" := by decide +kernel
  obtain ⟨moment, read, sound, seconds⟩ := told millis shown
  rw [line] at read
  have dayBefore : Date.Valid ⟨1969, 12, 31⟩ := by decide
  refine ⟨(counted _ dayBefore).2, shown, line, ⟨moment, read, sound, seconds⟩, ?_, ?_, ?_, ?_, distinct⟩
  · exact (same _ _ early shown).mpr (by decide)
  · exact fun equal => absurd ((same _ _ earlier shown).mp equal) (by decide)
  · rw [(bare 8210266876800000 (by decide)).1]
    rfl
  · decide +kernel

end Session

end GitPractice
