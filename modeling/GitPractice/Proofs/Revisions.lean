import GitPractice.Proofs.Grammar
import GitPractice.Proofs.History

set_option autoImplicit false

namespace GitPractice

def Commit.HasBeginning (beginning : String) (commit : Commit) : Prop :=
  beginning.toList <+: commit.id.toList

def Earliest (beginning : String) (commits : List Commit) (commit : Commit) : Prop :=
  ∃ earlier later, commits = earlier ++ commit :: later ∧ commit.HasBeginning beginning ∧
    ∀ other ∈ earlier, ¬ other.HasBeginning beginning

def Newest (commits : List Commit) (commit : Commit) : Prop := ∃ earlier, commits = earlier ++ [commit]

theorem earliest_kept {beginning : String} {commits more : List Commit} {commit : Commit}
    (grown : commits <+: more) (earliest : Earliest beginning commits commit) :
    Earliest beginning more commit := by
  obtain ⟨added, rfl⟩ := grown
  obtain ⟨earlier, later, rfl, has, first⟩ := earliest
  exact ⟨earlier, later ++ added, by rw [List.append_assoc, List.cons_append], has, first⟩

theorem find_iff_earliest (repository : Repository) (beginning : String) (commit : Commit) :
    repository.find? beginning = some commit ↔ Earliest beginning repository.commits commit := by
  rw [Repository.find?, List.find?_eq_some_iff_append]
  simp only [List.isPrefixOf_iff_prefix, Bool.not_eq_true', Earliest, Commit.HasBeginning,
    ← Bool.not_eq_true]
  constructor
  · rintro ⟨has, earlier, later, whole, first⟩
    exact ⟨earlier, later, whole, has, first⟩
  · rintro ⟨earlier, later, whole, has, first⟩
    exact ⟨has, earlier, later, whole, first⟩

theorem find_some_iff (repository : Repository) (beginning : String) :
    (∃ commit, repository.find? beginning = some commit) ↔
      ∃ commit ∈ repository.commits, commit.HasBeginning beginning := by
  rw [← Option.isSome_iff_exists, Repository.find?, List.find?_isSome]
  simp only [List.isPrefixOf_iff_prefix, Commit.HasBeginning]

theorem latest_iff_newest (repository : Repository) (commit : Commit) :
    repository.latest? = some commit ↔ Newest repository.commits commit := by
  rw [Repository.latest?, List.getLast?_eq_some_iff]
  rfl

namespace Answer

theorem display_beginning (repository : Repository) {revision : String} (named : revision ≠ headName)
    (text : String) :
    display repository (some revision) = .ok text ↔
      ∃ commit, Earliest revision repository.commits commit ∧ commit.shown = text := by
  have asked : (some revision).filter (· != headName) = some revision := by simp [named]
  simp only [← find_iff_earliest]
  cases latest : repository.latest? with
  | none =>
      have none : repository.commits = [] := List.getLast?_eq_none_iff.mp latest
      simp [display, latest, Repository.find?, none]
  | some newest =>
      simp only [display, latest, asked]
      cases repository.find? revision with
      | none => simp
      | some commit => simp

theorem display_newest (repository : Repository) {revision : Option String}
    (unnamed : revision.filter (· != headName) = none) (text : String) :
    display repository revision = .ok text ↔
      ∃ commit, Newest repository.commits commit ∧ commit.shown = text := by
  simp only [← latest_iff_newest]
  cases latest : repository.latest? with
  | none => simp [display, latest]
  | some newest => simp [display, latest, unnamed]

end Answer

namespace Session

variable (session : Session)

theorem evaluate_display {line : String} {revision : Option String}
    (asked : Command.parse line = .ok (.display revision)) (text : String) :
    (session.evaluate line).1 = .done text ↔ Answer.display session.repository revision = .ok text := by
  rw [evaluate_asks asked rfl]
  cases Answer.display session.repository revision with
  | ok shown => simp
  | error error => simp

theorem evaluate_extends (line : String) (other : Command.parse line ≠ .ok .init) :
    session.repository.commits <+: (session.evaluate line).2.repository.commits := by
  have unmoved (same : (session.evaluate line).2.repository.commits = session.repository.commits) :
      session.repository.commits <+: (session.evaluate line).2.repository.commits :=
    ⟨[], (List.append_nil _).trans same.symm⟩
  rcases evaluate_step session line with same | ⟨command, read, step⟩
  · exact unmoved (congrArg (fun reached => reached.repository.commits) same)
  · cases step with
    | still repository ids => exact unmoved (congrArg Repository.commits repository)
    | broken reason drawn repository ids => exact unmoved (congrArg Repository.commits repository)
    | reset asked repository ids =>
        rw [asked] at read
        exact absurd read other
    | relabel kept sound ids => exact unmoved kept
    | record draft onto id drawn kept sound here sourced repository ids =>
        rw [repository, Repository.append, kept]
        exact List.prefix_append _ _

theorem apply_extends (event : Event) (keeps : event.KeepsHistory) :
    session.repository.commits <+: (session.apply event).repository.commits := by
  cases event with
  | typed line =>
      have told := congrArg (fun state => state.repository.commits) (execute_evaluate session line)
      rw [apply, told]
      exact evaluate_extends session _ keeps
  | evaluated line => exact evaluate_extends session line keeps
  | loaded seed => exact keeps.elim

theorem after_extends (course : List Event) (keeps : ∀ event ∈ course, event.KeepsHistory) :
    session.repository.commits <+: (session.after course).repository.commits := by
  induction course generalizing session with
  | nil => exact List.prefix_rfl
  | cons event rest ih =>
      have first := apply_extends session event (keeps event List.mem_cons_self)
      have others := ih (session.apply event) fun later present => keeps later (List.mem_cons_of_mem event present)
      exact first.trans others

def showing (revision : String) : String := Command.render (.display (some revision))

theorem parse_showing (revision : String) :
    Command.parse (showing revision) = .ok (.display (some revision)) :=
  Command.parse_render (.display (some revision)) trivial

theorem evaluate_showing {revision : String} (named : revision ≠ Answer.headName) (text : String) :
    (session.evaluate (showing revision)).1 = .done text ↔
      ∃ commit, Earliest revision session.repository.commits commit ∧ commit.shown = text := by
  rw [evaluate_display session (parse_showing revision), Answer.display_beginning session.repository named]

theorem shown_revision_kept {revision text : String} (named : revision ≠ Answer.headName)
    (shown : (session.evaluate (showing revision)).1 = .done text) (course : List Event)
    (keeps : ∀ event ∈ course, event.KeepsHistory) :
    ((session.after course).evaluate (showing revision)).1 = .done text := by
  obtain ⟨commit, earliest, same⟩ := (evaluate_showing session named text).mp shown
  have still := earliest_kept (after_extends session course keeps) earliest
  exact (evaluate_showing (session.after course) named text).mpr ⟨commit, still, same⟩

theorem revision_resolved {revision : String} (named : revision ≠ Answer.headName) :
    (∃ text, (session.evaluate (showing revision)).1 = .done text) ↔
      ∃ commit ∈ session.repository.commits, commit.HasBeginning revision := by
  rw [← find_some_iff]
  simp only [evaluate_showing session named, find_iff_earliest]
  constructor
  · rintro ⟨text, commit, earliest, _⟩
    exact ⟨commit, earliest⟩
  · rintro ⟨commit, earliest⟩
    exact ⟨commit.shown, commit, earliest, rfl⟩

theorem newest_resolved {line : String} {revision : Option String}
    (unnamed : revision.filter (· != Answer.headName) = none)
    (asked : Command.parse line = .ok (.display revision)) :
    ((∃ text, (session.evaluate line).1 = .done text) ↔ session.repository.commits ≠ []) ∧
      ∀ text, (session.evaluate line).1 = .done text ↔
        ∃ commit, Newest session.repository.commits commit ∧ commit.shown = text := by
  have shown (text : String) := (evaluate_display session asked text).trans
    (Answer.display_newest session.repository unnamed text)
  refine ⟨?_, shown⟩
  simp only [shown]
  constructor
  · rintro ⟨text, commit, ⟨earlier, whole⟩, _⟩
    rw [whole]
    exact List.append_ne_nil_of_right_ne_nil earlier (List.cons_ne_nil commit [])
  · intro filled
    obtain ⟨earlier, commit, whole⟩ := List.eq_nil_or_concat' session.repository.commits |>.resolve_left filled
    exact ⟨commit.shown, commit, ⟨earlier, whole⟩, rfl⟩

/-- A revision that is shown stays shown, with the same text, until the repository is started anew. It stands
for the earliest commit that it can stand for, and no revision stands for the newest one. -/
theorem revisions_keep_meaning (session : Session) :
    (∀ revision text, revision ≠ "HEAD" → (session.evaluate (showing revision)).1 = .done text →
      ∀ course : List Event, (∀ event ∈ course, event.KeepsHistory) →
        ((session.after course).evaluate (showing revision)).1 = .done text) ∧
    (∀ revision, revision ≠ "HEAD" →
      ((∃ text, (session.evaluate (showing revision)).1 = .done text) ↔
        ∃ commit ∈ session.repository.commits, commit.HasBeginning revision) ∧
      ∀ text, (session.evaluate (showing revision)).1 = .done text ↔
        ∃ commit, Earliest revision session.repository.commits commit ∧ commit.shown = text) ∧
    (∀ line, Command.parse line = .ok (.display none) ∨ Command.parse line = .ok (.display (some "HEAD")) →
      ((∃ text, (session.evaluate line).1 = .done text) ↔ session.repository.commits ≠ []) ∧
      ∀ text, (session.evaluate line).1 = .done text ↔
        ∃ commit, Newest session.repository.commits commit ∧ commit.shown = text) := by
  refine ⟨?_, ?_, ?_⟩
  · intro revision text named shown course keeps
    exact shown_revision_kept session named shown course keeps
  · intro revision named
    exact ⟨revision_resolved session named, evaluate_showing session named⟩
  · rintro line (unnamed | head)
    · exact newest_resolved session rfl unnamed
    · exact newest_resolved session rfl head

def revisedStart : Session :=
  (start {} (.listed [.id "abc0001", .id "ff00002", .id "abc0003"])).after [.typed "git checkout -b dev"]

def revisedCourse : List Event :=
  [.typed "git checkout main", .typed "git branch -d dev", .evaluated "git checkout -b dev",
   .typed "git config user.name Eve", .typed "git rebase main", .typed "git rebase main"]

def revisedText : String :=
  "commit abc0001\nAuthor: Git Learner <learner@gitlearner.com>\nDate: Sat Jan 1 00:00:00 2022 +0000\n\n" ++
    "    Branch from main\n\nBranched from: main"

theorem revised_course_shows :
    (showing "abc" = "git show \"abc\"" ∧
      (revisedStart.evaluate (showing "abc")).1 = .done revisedText ∧
      ((revisedStart.after revisedCourse).evaluate (showing "abc")).1 = .done revisedText) ∧
    ((revisedStart.after revisedCourse).repository.commits.map Commit.id = ["abc0001", "ff00002", "abc0003"] ∧
      ∃ commit ∈ (revisedStart.after revisedCourse).repository.commits, commit.HasBeginning "ff") ∧
    ∃ text, ((revisedStart.after revisedCourse).evaluate "git show HEAD").1 = .done text := by
  have other {line : String} (apart : (Command.parse line).toOption ≠ some .init) :
      Command.parse line ≠ .ok .init := fun same => apart (congrArg Except.toOption same)
  have keeps : ∀ event ∈ revisedCourse, event.KeepsHistory := by
    simp only [revisedCourse, List.forall_mem_cons]
    exact ⟨other (by decide), other (by decide), other (by decide), other (by decide), other (by decide),
      other (by decide), by simp⟩
  obtain ⟨stays, _, _⟩ := revisions_keep_meaning revisedStart
  obtain ⟨_, resolved, newest⟩ := revisions_keep_meaning (revisedStart.after revisedCourse)
  have shown : (revisedStart.evaluate (showing "abc")).1 = .done revisedText := by decide
  have later : (∃ text, ((revisedStart.after revisedCourse).evaluate (showing "ff")).1 = .done text) :=
    ⟨_, rfl⟩
  refine ⟨⟨by decide, shown, stays "abc" revisedText (by decide) shown revisedCourse keeps⟩,
    ⟨by decide, (resolved "ff" (by decide)).1.mp later⟩, ?_⟩
  exact (newest "git show HEAD" (.inr rfl)).1.mpr (by decide)

end Session

end GitPractice
