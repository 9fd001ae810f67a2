import GitPractice.Proofs.Grammar
import GitPractice.Proofs.Help
import GitPractice.Proofs.Numbering
import Mathlib.Data.List.Nodup

set_option autoImplicit false

namespace GitPractice

structure Labelled (commits : List Commit) : Prop where
  distinct : (commits.map Commit.id).Nodup
  length : ∀ commit ∈ commits, commit.id.toList.length = IdSource.idLength
  hex : ∀ commit ∈ commits, ∀ c ∈ commit.id.toList, Text.isLowerHex c = true

theorem drawn_labelled {low high : Nat} {commits : List Commit} (few : high < IdSource.modulus)
    (drawn : Drawn low high commits) : Labelled commits where
  distinct := drawn_ids_distinct few drawn
  length := by
    intro commit present
    obtain ⟨number, same⟩ := drawn_id drawn present
    rw [same]
    exact IdSource.numbered_length number
  hex := by
    intro commit present c written
    obtain ⟨number, same⟩ := drawn_id drawn present
    rw [same] at written
    exact Text.digits_lower_hex written

theorem Commit.shown_starts (commit : Commit) :
    ∃ rest, commit.shown.toList = "commit ".toList ++ (commit.id.toList ++ rest) := by
  unfold shown detailed
  simp only [String.toList_append, List.append_assoc]
  exact ⟨_, rfl⟩

namespace Labelled

variable {commits : List Commit} (labelled : Labelled commits)
include labelled

theorem short_id {commit : Commit} (present : commit ∈ commits) : commit.shortId = commit.id := by
  have short := labelled.length commit present
  rw [← String.toList_inj, Commit.shortId, String.toList_ofList, List.take_of_length_le (Nat.le_of_eq short)]

theorem same_commit {first second : Commit} (present : first ∈ commits) (other : second ∈ commits)
    (same : first.id = second.id) : first = second :=
  List.inj_on_of_nodup_map labelled.distinct present other same

theorem starts_with_id {first second : Commit} (present : first ∈ commits) (other : second ∈ commits)
    (starts : first.shortId.toList <+: second.id.toList) : first = second := by
  rw [labelled.short_id present] at starts
  have lengths := (labelled.length first present).trans (labelled.length second other).symm
  exact labelled.same_commit present other (String.toList_inj.mp (starts.eq_of_length lengths))

theorem shown_alone {first second : Commit} (present : first ∈ commits) (other : second ∈ commits)
    (same : first.shown = second.shown) : first = second := by
  obtain ⟨firstRest, firstShown⟩ := first.shown_starts
  obtain ⟨secondRest, secondShown⟩ := second.shown_starts
  have lengths := (labelled.length first present).trans (labelled.length second other).symm
  rw [same, secondShown] at firstShown
  have ids := List.append_inj_left (List.append_cancel_left firstShown) lengths.symm
  exact labelled.same_commit present other (String.toList_inj.mp ids.symm)

end Labelled

namespace Repository

variable {repository : Repository} (labelled : Labelled repository.commits)
include labelled

theorem find_own {commit : Commit} (present : commit ∈ repository.commits) :
    repository.find? commit.shortId = some commit := by
  have own : commit.shortId.toList.isPrefixOf commit.id.toList = true := by
    rw [labelled.short_id present]
    exact List.isPrefixOf_iff_prefix.mpr List.prefix_rfl
  rw [find?]
  cases found : repository.commits.find? fun other => commit.shortId.toList.isPrefixOf other.id.toList with
  | none => exact absurd own (List.find?_eq_none.mp found commit present)
  | some other =>
      have holds := List.find?_some found
      have starts := List.isPrefixOf_iff_prefix.mp holds
      rw [labelled.starts_with_id present (List.mem_of_find?_eq_some found) starts]

theorem new_count_apart {source target : String} (apart : source ≠ target) :
    Answer.newCount (repository.commitsOn source) (repository.commitsOn target) =
      (repository.commitsOn source).length := by
  rw [Answer.newCount, List.countP_eq_length]
  intro commit onSource
  rw [Bool.not_eq_true', List.any_eq_false]
  -- An id belongs to one commit, and a commit to one branch.
  intro other onTarget same
  obtain ⟨present, branch⟩ := (mem_commits_on repository source commit).mp onSource
  obtain ⟨otherPresent, otherBranch⟩ := (mem_commits_on repository target other).mp onTarget
  have one := labelled.same_commit otherPresent present (beq_iff_eq.mp same)
  rw [one, branch] at otherBranch
  exact apart otherBranch

end Repository

theorem Text.lower_hex_bare {c : Char} (hex : Text.isLowerHex c = true) :
    Line.isQuote c = false ∧ Text.isBlank c = false ∧ c ≠ '-' := by
  have above : 48 ≤ c.toNat ∧ c.toNat ≤ 57 ∨ 97 ≤ c.toNat ∧ c.toNat ≤ 102 := by
    simpa [isLowerHex, within] using hex
  refine ⟨?_, ?_, ?_⟩
  · have double : c ≠ '"' := by
      rintro rfl
      exact absurd hex (by decide)
    have single : c ≠ '\'' := by
      rintro rfl
      exact absurd hex (by decide)
    simp [Line.isQuote, double, single]
  · simp [isBlank, blankRanges]
    omega
  · rintro rfl
    exact absurd hex (by decide)

namespace Command

open Line

theorem parse_show {revision : String} {c : Char} {rest : List Char} (written : revision.toList = c :: rest)
    (bare : c ≠ '-') (plain : ∀ c ∈ revision.toList, isQuote c = false ∧ Text.isBlank c = false) :
    parse ("git show " ++ revision) = .ok (.display (some revision)) := by
  have filled : revision ≠ "" := by
    rintro rfl
    exact absurd written (by simp)
  have spelled : "git show " ++ revision = spell [.plain "git", .plain "show", .plain revision] := by
    simp [← String.toList_inj, spell, Word.write, Word.plain]
  have valid : ∀ word ∈ [Word.plain "git", .plain "show", .plain revision], word.Valid := by
    simp only [List.forall_mem_cons]
    refine ⟨by decide, by decide, ⟨plain, ?_⟩, by simp⟩
    intro empty
    exact absurd (empty.symm.trans written) (by simp)
  have tokens : tokenize ("git show " ++ revision) =
      [⟨tool, false⟩, ⟨Subcommand.display.word, false⟩, ⟨revision, false⟩] := by
    rw [spelled, tokenize_spell _ valid, List.map_cons, List.map_cons, List.map_cons, List.map_nil,
      Word.plain_token (by decide), Word.plain_token (by decide), Word.plain_token filled]
    rfl
  have unflagged : Token.isFlag ⟨revision, false⟩ = false := by
    simp [Token.isFlag, written, bare]
  have unasked : wantsHelp [⟨revision, false⟩] = false := by
    rw [Bool.eq_false_iff]
    intro asked
    rcases asked_alone asked with long | short
    · obtain rfl : revision = "--help" := long
      exact absurd unflagged (by decide)
    · obtain rfl : revision = "-h" := short
      exact absurd unflagged (by decide)
  rw [parse_known .display tokens unasked]
  simp [read, operands, unflagged]

end Command

def foundLine (count : Nat) (source target : String) : String :=
  "found " ++ toString count ++ " commit(s) from '" ++ source ++ "' to merge into '" ++ target ++ "'."

theorem Plan.merge_done {state : State} {configured : Signature} {source text : String}
    {target : Option String} (apart : source ≠ target.getD state.repository.current)
    (done : ((merge configured state.repository (some source) target).carryOut.run state).1 = .done text) :
    ∃ opening, text = "\n".intercalate (opening ++
      Answer.mergeSummary source (target.getD state.repository.current)
        (state.repository.commitsOn source)
        (state.repository.commitsOn (target.getD state.repository.current))) := by
  simp only [merge] at done
  split at done
  · exact absurd done (by simp [carryOut])
  · split at done
    · simp only [mergeKnown, if_neg apart] at done
      split at done
      · exact absurd done (by simp [carryOut])
      · cases drawn : state.ids.peek with
        | interrupted reason => exact absurd done (by simp [carryOut, drawn])
        | id id =>
            simp only [carryOut, drawn] at done
            exact ⟨_, (Outcome.done.inj done).symm⟩
    · exact absurd done (by simp [carryOut])

namespace Session

section
variable {session : Session} (labelled : Labelled session.repository.commits)
include labelled

theorem merge_counts_all {line source text : String} {target : Option String}
    (asked : Command.parse line = .ok (.merge (some source) target))
    (apart : source ≠ target.getD session.repository.current)
    (done : (session.evaluate line).1 = .done text) :
    ∃ opening, text = "\n".intercalate (opening ++
      [foundLine (session.repository.commitsOn source).length source
        (target.getD session.repository.current)]) := by
  simp only [evaluate, asked, run, conduct, Action.of_command_planned] at done
  obtain ⟨opening, told⟩ := Plan.merge_done apart done
  have counted := Repository.new_count_apart labelled apart
  rw [Answer.mergeSummary, counted] at told
  refine ⟨opening ++ ["Merge made by the 'ort' strategy.", "Merging:",
    Answer.summaryLine (session.repository.commitsOn source).getLast?,
    Answer.summaryLine
      (session.repository.commitsOn (target.getD session.repository.current)).getLast?], ?_⟩
  rw [List.append_assoc]
  exact told

theorem show_own {commit : Commit} (present : commit ∈ session.repository.commits) :
    session.evaluate ("git show " ++ commit.shortId) = (.done commit.shown, session) := by
  have hex := labelled.hex commit present
  have long := labelled.length commit present
  rw [labelled.short_id present]
  cases written : commit.id.toList with
  | nil => exact absurd (written ▸ long) (by decide)
  | cons c rest =>
      have first := hex c (by rw [written]; exact List.mem_cons_self)
      have plain : ∀ c ∈ commit.id.toList, Line.isQuote c = false ∧ Text.isBlank c = false := by
        intro c present
        obtain ⟨unquoted, filled, _⟩ := Text.lower_hex_bare (hex c present)
        exact ⟨unquoted, filled⟩
      have parsed := Command.parse_show written (Text.lower_hex_bare first).2.2 plain
      have notHead : commit.id ≠ Answer.headName := by
        intro same
        have head := hex 'H' (by rw [same]; decide)
        exact absurd head (by decide)
      have found := Repository.find_own labelled present
      rw [labelled.short_id present] at found
      have answered : Answer.display session.repository (some commit.id) = .ok commit.shown := by
        rw [Answer.display, Repository.latest?]
        cases latest : session.repository.commits.getLast? with
        | none => exact absurd (List.getLast?_eq_none_iff.mp latest) (List.ne_nil_of_mem present)
        | some newest =>
            have asked : (some commit.id).filter (· != Answer.headName) = some commit.id := by
              simp [notHead]
            simp only [asked, found]
      rw [evaluate_asks parsed rfl, answered]

omit labelled in
theorem log_oneline (filled : session.repository.commits ≠ []) :
    (session.evaluate "git log --oneline").1 = .done (Text.trimmedEnd ("\n".intercalate
      (session.repository.commits.reverse.map fun commit => commit.shortId ++ " " ++ commit.message))) := by
  have asked : Command.parse "git log --oneline" = .ok (.log true false) := rfl
  rw [evaluate_log asked, if_neg filled]
  rfl

end

theorem sequential_ids_unique (settings : Settings) (course : List Event)
    (unnamed : ∀ event ∈ course, event.Unnamed)
    (few : ((start settings .sequential).after course).ids.drawn < 2 ^ 28) :
    let session := (start settings .sequential).after course
    let commits := session.repository.commits
    (commits.map Commit.id).Nodup ∧
    (∀ commit ∈ commits, commit.id.toList.length = 7 ∧
      ∀ c ∈ commit.id.toList, Text.isLowerHex c = true) ∧
    (commits ≠ [] → (session.evaluate "git log --oneline").1 = .done (Text.trimmedEnd ("\n".intercalate
      (commits.reverse.map fun commit => commit.shortId ++ " " ++ commit.message)))) ∧
    (∀ commit ∈ commits,
      session.evaluate ("git show " ++ commit.shortId) = (.done commit.shown, session) ∧
      ∀ other ∈ commits, other.shown = commit.shown → other = commit) ∧
    (∀ line source target text, Command.parse line = .ok (.merge (some source) target) →
      source ≠ target.getD session.repository.current → (session.evaluate line).1 = .done text →
      ∃ opening, text = "\n".intercalate (opening ++
        [foundLine (session.repository.commitsOn source).length source
          (target.getD session.repository.current)])) := by
  intro session commits
  have numbered := after_numbered course unnamed (start_numbered settings)
  have labelled : Labelled commits := drawn_labelled few numbered.drawn
  refine ⟨labelled.distinct, ?_, log_oneline, ?_, ?_⟩
  · intro commit present
    exact ⟨labelled.length commit present, labelled.hex commit present⟩
  · intro commit present
    refine ⟨show_own labelled present, ?_⟩
    intro other otherPresent same
    exact labelled.shown_alone otherPresent present same
  · intro line source target text asked apart done
    exact merge_counts_all labelled asked apart done

def renumberedCourse : List Event :=
  [.loaded
     { branches := ["main"]
       commits := [{ branch := "main", message := "Kept" }, { branch := "ghost", message := "Stray" }] },
   .typed "git checkout -b lost",
   .evaluated "git init",
   .loaded
     { branches := ["main", "dev"]
       commits := [{ branch := "dev", message := "First" }, { branch := "dev", message := "Second" }] },
   .typed "git merge dev"]

theorem renumbered_course_ids :
    let session := (start {} .sequential).after renumberedCourse
    (session.repository.commits.map Commit.id = ["0000003", "0000004", "0000005"] ∧
      (session.repository.commits.map Commit.id).Nodup) ∧
    (∃ commit ∈ session.repository.commits, commit.message = "Second" ∧
      session.evaluate "git show 0000004" = (.done commit.shown, session)) ∧
    ∃ opening, (session.evaluate "git merge dev into main").1 =
      .done ("\n".intercalate (opening ++ [foundLine 2 "dev" "main"])) := by
  intro session
  obtain ⟨distinct, _, _, shows, merges⟩ := sequential_ids_unique {} renumberedCourse
    (by simp [renumberedCourse, Event.Unnamed]) (by decide)
  refine ⟨⟨by decide, distinct⟩, ?_, ?_⟩
  · cases found : session.repository.commits[1]? with
    | none => exact absurd found (by decide)
    | some commit =>
        have id : session.repository.commits[1]?.map Commit.shortId = some "0000004" := by decide
        have message : session.repository.commits[1]?.map Commit.message = some "Second" := by decide
        rw [found] at id message
        have present := List.mem_of_getElem? found
        have shown := (shows commit present).1
        rw [Option.some.inj id] at shown
        exact ⟨commit, present, Option.some.inj message, shown⟩
  · have ends : (session.evaluate "git merge dev into main").1.isDone = true := by decide
    cases merged : (session.evaluate "git merge dev into main").1 with
    | done text =>
        obtain ⟨opening, told⟩ :=
          merges "git merge dev into main" "dev" (some "main") text rfl (by decide) merged
        have count : (session.repository.commitsOn "dev").length = 2 := by decide
        rw [count] at told
        exact ⟨opening, congrArg Outcome.done told⟩
    | refused _ | interrupted _ =>
        rw [merged] at ends
        exact absurd ends Bool.false_ne_true

end Session

end GitPractice
