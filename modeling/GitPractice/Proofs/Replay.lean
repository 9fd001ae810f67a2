import GitPractice.Session

set_option autoImplicit false

namespace GitPractice

open Text

def IsResult (entry : Entry) : Prop := entry.kind = .output ∨ entry.kind = .error

/-- What lines leave in a transcript: nothing for a blank line, an echo and a result for any other one. -/
inductive Recorded : List String → List Entry → Prop where
  | nil : Recorded [] []
  | blank (line : String) (lines : List String) (entries : List Entry) (blank : isBlankText line = true)
      (rest : Recorded lines entries) : Recorded (line :: lines) entries
  | told (line : String) (lines : List String) (entries : List Entry) (result : Entry)
      (filled : isBlankText line = false) (ends : IsResult result) (rest : Recorded lines entries) :
      Recorded (line :: lines) (Entry.echo (trimmed line) :: result :: entries)

def echoed (lines : List String) : List String := (lines.filter (!isBlankText ·)).map trimmed

theorem echoed_blank {line : String} (lines : List String) (blank : isBlankText line = true) :
    echoed (line :: lines) = echoed lines := by
  simp [echoed, blank]

theorem echoed_filled {line : String} (lines : List String) (filled : isBlankText line = false) :
    echoed (line :: lines) = trimmed line :: echoed lines := by
  simp [echoed, filled]

theorem result_silent {entry : Entry} (ends : IsResult entry) : entry.line? = none := by
  rcases ends with output | error
  · rw [Entry.line?, output]
  · rw [Entry.line?, error]

theorem recorded_lines {lines : List String} {entries : List Entry} (recorded : Recorded lines entries) :
    entries.filterMap Entry.line? = echoed lines := by
  induction recorded with
  | nil => rfl
  | blank line lines entries blank rest ih => rw [ih, echoed_blank lines blank]
  | told line lines entries result filled ends rest ih =>
      rw [List.filterMap_cons_some (Entry.line_echo _), List.filterMap_cons_none (result_silent ends), ih,
        echoed_filled lines filled]

theorem trimmed_trimmed (line : String) : trimmed (trimmed line) = trimmed line := by
  rw [← String.toList_inj, trimmed_to_list, trimmed_to_list, trim_idempotent]

theorem trimmed_filled {line : String} (filled : isBlankText line = false) :
    isBlankText (trimmed line) = false := by
  rw [← Bool.not_eq_true, blank_text_iff, trimmed_trimmed, ← blank_text_iff, filled]
  exact Bool.false_ne_true

namespace Session

variable (session : Session)

theorem result_entry_result (outcome : Outcome String) : IsResult (resultEntry outcome) := by
  cases outcome with
  | done text => exact .inl rfl
  | refused error => exact .inr rfl
  | interrupted reason => exact .inr rfl

theorem execute_told {line : String} (filled : isBlankText line = false) :
    ∃ result, IsResult result ∧ (session.execute line).1 = [Entry.echo (trimmed line), result] := by
  rw [execute_filled session filled]
  exact ⟨_, result_entry_result _, rfl⟩

/-- A line runs like its echo, because it is trimmed before anything else is done with it. -/
theorem execute_trimmed {line : String} (filled : isBlankText line = false) :
    session.execute (trimmed line) = session.execute line := by
  rw [execute_filled session filled, execute_filled session (trimmed_filled filled), trimmed_trimmed]

theorem execute_all_transcript {line : String} {rest : List String} {entries : List Entry}
    (later : ((session.execute line).2.executeAll rest).transcript =
      (session.execute line).2.transcript.append entries) :
    (session.executeAll (line :: rest)).transcript = session.transcript.append ((session.execute line).1 ++ entries) := by
  rw [executeAll, List.foldl_cons]
  refine later.trans ?_
  rw [execute_transcript, Transcript.append, Transcript.append, Transcript.append, List.append_assoc]

theorem execute_all_recorded (lines : List String) :
    ∃ entries, Recorded lines entries ∧
      (session.executeAll lines).transcript = session.transcript.append entries := by
  induction lines generalizing session with
  | nil => exact ⟨[], .nil, by simp [executeAll, Transcript.append]⟩
  | cons line rest ih =>
      obtain ⟨entries, recorded, later⟩ := ih (session.execute line).2
      have whole := execute_all_transcript session later
      cases filled : isBlankText line with
      | true =>
          rw [execute_blank session filled, List.nil_append] at whole
          exact ⟨entries, .blank line rest entries filled recorded, whole⟩
      | false =>
          obtain ⟨result, ends, added⟩ := execute_told session filled
          rw [added] at whole
          exact ⟨_, .told line rest entries result filled ends recorded, whole⟩

theorem execute_all_echoed (lines : List String) :
    session.executeAll (echoed lines) = session.executeAll lines := by
  induction lines generalizing session with
  | nil => rfl
  | cons line rest ih =>
      have others := ih (session.execute line).2
      cases filled : isBlankText line with
      | true =>
          rw [execute_blank session filled] at others
          rw [echoed_blank rest filled, others, executeAll, executeAll, List.foldl_cons,
            execute_blank session filled]
      | false =>
          rw [echoed_filled rest filled, executeAll, List.foldl_cons, execute_trimmed session filled]
          exact others

theorem transcript_replayable (session : Session) (empty : session.transcript.entries = [])
    (lines : List String) :
    let after := session.executeAll lines
    Recorded lines after.transcript.entries ∧
    session.executeCounted lines = (after.transcript.entries.length, after) ∧
    (∀ line, (after.execute line).2.transcript.entries =
      after.transcript.entries ++ (after.execute line).1) ∧
    (∀ more, after.transcript.entries <+: (after.executeAll more).transcript.entries) ∧
    (∀ again : Session, again.toState = session.toState → again.settings = session.settings →
      again.transcript.entries = [] → again.executeAll after.transcript.lines = after) := by
  intro after
  obtain ⟨entries, recorded, whole⟩ := execute_all_recorded session lines
  have exactly : after.transcript.entries = entries := by
    rw [whole, Transcript.append, empty, List.nil_append]
  refine ⟨exactly ▸ recorded, ?_, ?_, ?_, ?_⟩
  · simp only [executeCounted, Transcript.size, empty, List.length_nil, Nat.sub_zero, after]
  · intro line
    rw [execute_transcript after line, Transcript.append]
  · intro more
    obtain ⟨added, _, grown⟩ := execute_all_recorded after more
    rw [grown]
    exact List.prefix_append _ _
  · intro again state settings blank
    have same : again = session := by
      obtain ⟨_, ⟨_⟩, _⟩ := again
      obtain ⟨_, ⟨_⟩, _⟩ := session
      simp_all
    rw [same, Transcript.lines, exactly, recorded_lines recorded]
    exact execute_all_echoed session lines

def brokenLines : List String := ["  git add . ", " \t", "git commit -m 'first  ", "ls"]

theorem transcript_replayable_broken :
    let session := start {} (.listed [.interrupted "gone"])
    let after := session.executeAll brokenLines
    session.transcript.entries = [] ∧
    Recorded brokenLines after.transcript.entries ∧
    after.transcript.entries.map Entry.kind = [.input, .output, .input, .error, .input, .error] ∧
    after.transcript.lines = ["git add .", "git commit -m 'first", "ls"] ∧
    session.executeAll after.transcript.lines = after := by
  intro session after
  obtain ⟨recorded, _, _, _, replayed⟩ := transcript_replayable session rfl brokenLines
  exact ⟨rfl, recorded, by decide, by decide, replayed session rfl rfl rfl⟩

end Session

end GitPractice
