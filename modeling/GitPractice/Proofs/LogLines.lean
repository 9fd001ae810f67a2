import GitPractice.Proofs.Lookup
import GitPractice.Proofs.Unbroken

set_option autoImplicit false

namespace GitPractice

namespace Commit

section
variable {commit : Commit} {number : Nat} (numbered : commit.id = IdSource.numbered number)
include numbered

theorem short_id_filled : ∀ c ∈ commit.shortId.toList, Text.isBlank c = false := by
  intro c present
  rw [shortId, String.toList_ofList, numbered] at present
  exact (Text.lower_hex_bare (Text.digits_lower_hex (List.mem_of_mem_take present))).2.1

theorem oneline_filled : Text.isBlankText commit.oneline = false := by
  have long := IdSource.numbered_length number
  cases written : (IdSource.numbered number).toList with
  | nil => exact absurd (written ▸ long) (by decide)
  | cons c rest =>
      have short : c ∈ commit.shortId.toList := by
        rw [shortId, String.toList_ofList, numbered, written, IdSource.idLength, List.take_succ_cons]
        exact List.mem_cons_self
      rw [oneline, Text.isBlankText, List.all_eq_false]
      refine ⟨c, by simp [short], ?_⟩
      rw [short_id_filled numbered c short]
      exact Bool.false_ne_true

theorem oneline_whole (whole : Text.OneLine commit.message) : Text.OneLine commit.oneline := by
  have id : Text.OneLine commit.shortId := by
    intro cut
    have filled := short_id_filled numbered '\n' cut
    cases filled
  rw [oneline, Text.one_line_append, Text.one_line_append]
  exact ⟨⟨id, by decide⟩, whole⟩

end

end Commit

/-- Only the line of the oldest commit, which comes last, loses the blanks at its end. -/
theorem Log.lines_of_oneline {oldest : Commit} {newer : List Commit}
    (numbered : ∀ commit ∈ oldest :: newer, ∃ number, commit.id = IdSource.numbered number)
    (whole : ∀ commit ∈ oldest :: newer, Text.OneLine commit.message) :
    Script.linesOf (render true false (oldest :: newer)) =
      newer.reverse.map Commit.oneline ++ [Text.trimmedEnd oldest.oneline] := by
  have lines : (oldest :: newer).reverse.map Commit.oneline =
      newer.reverse.map Commit.oneline ++ [oldest.oneline] := by
    rw [List.reverse_cons, List.map_append, List.map_singleton]
  have kept : Text.trimLines (newer.reverse.map Commit.oneline ++ [oldest.oneline]) =
      newer.reverse.map Commit.oneline ++ [Text.trimmedEnd oldest.oneline] := by
    obtain ⟨number, first⟩ := numbered oldest List.mem_cons_self
    rw [Text.trim_lines_concat, Commit.oneline_filled first, if_neg Bool.false_ne_true]
  have apart : ∀ line ∈ (oldest :: newer).reverse.map Commit.oneline, Text.OneLine line := by
    intro line present
    obtain ⟨commit, listed, rfl⟩ := List.mem_map.mp present
    have held := List.mem_reverse.mp listed
    obtain ⟨number, own⟩ := numbered commit held
    exact Commit.oneline_whole own (whole commit held)
  have shown : render true false (oldest :: newer) =
      Text.trimmedEnd ("\n".intercalate ((oldest :: newer).reverse.map Commit.oneline)) := rfl
  rw [shown, Text.lines_of_trimmed_end apart, lines, kept]
  rw [lines, kept]
  exact List.append_ne_nil_of_right_ne_nil _ (List.cons_ne_nil _ _)

namespace Session

theorem log_lines {settings : Settings} (sound : settings.check = .ok settings) {course : List Event}
    (whole : ∀ event ∈ course, event.Unbroken) :
    let session := (start settings .sequential).after course
    let commits := session.repository.commits
    session.repository.Unbroken ∧
    (commits.reverse.Pairwise fun newer older => older.timestamp < newer.timestamp) ∧
    (commits ≠ [] → ∀ line, Command.parse line = .ok (.log true false) →
      ∃ text, session.evaluate line = (.done text, session) ∧
        (Script.linesOf text).length = commits.length ∧
        ∀ (k : Nat) (commit : Commit), commits.reverse[k]? = some commit →
          (Script.linesOf text)[k]? = some (
            if k + 1 = commits.length then Text.trimmedEnd (commit.shortId ++ " " ++ commit.message)
            else commit.shortId ++ " " ++ commit.message)) := by
  intro session commits
  have default := Settings.check_one_line sound
  have unbroken : session.repository.Unbroken := after_unbroken whole default (Repository.fresh_unbroken default)
  refine ⟨unbroken, ?_, ?_⟩
  · exact List.pairwise_reverse.mpr (timed_increasing commits (after_timed settings .sequential course))
  · intro filled line asked
    have unnamed : ∀ event ∈ course, event.Unnamed := by
      intro event present
      cases event with
      | typed line => trivial
      | evaluated line => trivial
      | loaded seed => exact (whole _ present).elim
    have drawn := (after_numbered course unnamed (start_numbered settings)).drawn
    have numbered : ∀ commit ∈ commits, ∃ number, commit.id = IdSource.numbered number :=
      fun commit present => drawn_id drawn present
    refine ⟨Log.render true false commits, ?_, ?_⟩
    · rw [evaluate_log asked, if_neg filled]
    · have messages : ∀ commit ∈ commits, Text.OneLine commit.message :=
        fun commit present => (unbroken.commits commit present).message
      -- The run is done with: ids and messages are all that the lines are made of.
      clear_value commits
      cases commits with
      | nil => exact absurd rfl filled
      | cons oldest newer =>
          rw [Log.lines_of_oneline numbered messages]
          refine ⟨by simp, fun k commit found => ?_⟩
          rw [List.reverse_cons] at found
          have sizes : newer.reverse.length = newer.length := List.length_reverse
          rcases lookup_concat found with ⟨below, earlier⟩ | ⟨atEnd, isOldest⟩
          · rw [List.getElem?_append_left (by simpa using below), List.getElem?_map, earlier, List.length_cons,
              if_neg (by omega)]
            rfl
          · rw [isOldest, List.length_cons, if_pos (by omega), atEnd]
            simp [Commit.oneline]

def spacedCourse : List Event :=
  [.typed " git branch 'dev '", .evaluated "git checkout 'dev '", .typed "git checkout -b 'topic '",
   .evaluated "git checkout -b next"]

theorem spaced_course_lines :
    let session := (start {} .sequential).after spacedCourse
    session.repository.Unbroken ∧
    ∃ text, session.evaluate "git log --oneline" = (.done text, session) ∧ (Script.linesOf text).length = 2 ∧
      (Script.linesOf text)[0]? = some "0000002 Branch from topic " ∧
      (Script.linesOf text)[1]? = some "0000001 Branch from dev" := by
  intro session
  have whole : ∀ event ∈ spacedCourse, event.Unbroken := by
    simp only [spacedCourse, List.forall_mem_cons, Event.Unbroken]
    exact ⟨by decide, by decide, by decide, by decide, by simp⟩
  have sound : ({} : Settings).check = .ok {} := rfl
  obtain ⟨unbroken, _, shown⟩ := log_lines sound whole
  obtain ⟨text, told, count, lines⟩ := shown (by decide) "git log --oneline" rfl
  have two : session.repository.commits.length = 2 := by decide
  have newest : session.repository.commits.reverse[0]?.map Commit.oneline = some "0000002 Branch from topic " := by
    decide
  have oldest : session.repository.commits.reverse[1]?.map Commit.oneline = some "0000001 Branch from dev " := by
    decide
  obtain ⟨first, found, firstLine⟩ := Option.map_eq_some_iff.mp newest
  obtain ⟨last, foundLast, lastLine⟩ := Option.map_eq_some_iff.mp oldest
  refine ⟨unbroken, text, told, count.trans two, ?_, ?_⟩
  · rw [lines 0 first found, two, if_neg (by decide), ← firstLine]
    rfl
  · rw [lines 1 last foundLast, two, if_pos rfl]
    change some (Text.trimmedEnd last.oneline) = _
    rw [lastLine]
    rfl

end Session

end GitPractice
