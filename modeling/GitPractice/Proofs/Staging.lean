import GitPractice.Proofs.Frame
import GitPractice.Proofs.History

set_option autoImplicit false

namespace GitPractice

namespace Command

def stages? (settings : Settings) : Command → Option (List String)
  | .addAll => some settings.everyFile
  | .addPaths (path :: more) => some (path :: more)
  | _ => none

def isCommit (command : Command) : Bool := command.subcommand == some .commit

theorem is_commit_iff (command : Command) :
    command.isCommit = true ↔ ∃ message author, command = .commit message author := by
  cases command <;> simp [isCommit, subcommand]

theorem stages_only {settings : Settings} {command : Command} {files : List String}
    (stages : command.stages? settings = some files) : command.isCommit = false ∧ command ≠ .init := by
  cases command with
  | addAll => exact ⟨rfl, by simp⟩
  | addPaths paths => exact ⟨rfl, by simp⟩
  | _ => cases stages

end Command

def Event.IsLine : Event → Prop
  | .typed _ | .evaluated _ => True
  | .loaded _ => False

namespace Session

def accepts (session : Session) : Event → Bool
  | .typed line => !(session.execute line).1.any Entry.isError
  | .evaluated line => (session.evaluate line).1.isDone
  | .loaded seed => (session.load seed).1.isDone

theorem accepts_filled (session : Session) {line : String} (filled : Text.isBlankText line = false) :
    session.accepts (.typed line) = (session.evaluate (Text.trimmed line)).1.isDone := by
  rw [accepts, execute_filled session filled]
  cases (session.evaluate (Text.trimmed line)).1 with
  | done text => rfl
  | refused error => rfl
  | interrupted reason => rfl

theorem accepts_ran {session : Session} {event : Event} {command : Command} (asked : event.command? = some command) :
    session.accepts event = (session.run command).1.isDone := by
  cases event with
  | typed line =>
      cases filled : Text.isBlankText line with
      | true =>
          rw [Event.command?, (Text.blank_text_iff line).mp filled] at asked
          have unread : (Command.parse "").toOption = none := by decide
          exact absurd (unread.symm.trans asked) (by simp)
      | false =>
          have read : (Command.parse (Text.trimmed line)).toOption = some command := asked
          rw [accepts_filled session filled, evaluate_read session read]
  | evaluated line => rw [accepts, evaluate_read session asked]
  | loaded seed => cases asked

section
variable (session : Session)

theorem run_stages {command : Command} {files : List String}
    (stages : command.stages? session.settings = some files) :
    (session.run command).1.isDone = true ∧ (session.run command).2.repository.staged = distinct files := by
  cases command with
  | addAll =>
      cases stages
      exact ⟨rfl, rfl⟩
  | addPaths paths =>
      cases paths with
      | nil => cases stages
      | cons path more =>
          cases stages
          exact ⟨rfl, rfl⟩
  | _ => cases stages

theorem run_commit (steady : session.ids.Steady) (message : Option String) (author : Option Author) :
    (session.run (.commit message author)).1.isDone = !session.repository.staged.isEmpty ∧
      (session.run (.commit message author)).2.repository.staged = [] := by
  have planned : session.run (.commit message author) = session.conduct (.commit message author) := rfl
  rw [planned, conduct, Action.commit_planned, Plan.commit]
  cases nothing : session.repository.staged.isEmpty with
  | true => exact ⟨rfl, List.isEmpty_iff.mp nothing⟩
  | false =>
      obtain ⟨id, given⟩ := steady session.ids.drawn
      have drawn : session.ids.peek = .id id := given
      simp only [Bool.false_eq_true, if_false, Plan.carryOut, drawn]
      exact ⟨rfl, rfl⟩

theorem run_stages_nothing {command : Command} (idle : command.stages? session.settings = none)
    (other : command.isCommit = false) (running : command ≠ .init) :
    (session.run command).2.repository.staged = session.repository.staged := by
  by_cases empty : command = .addPaths []
  · rw [empty]
    rfl
  · refine Action.of_command_kept session.settings session.toState command .staged ?_
    cases command with
    | commit message author => cases other
    | init => exact absurd rfl running
    | addAll => cases idle
    | addPaths paths =>
        cases paths with
        | nil => exact absurd rfl empty
        | cons path more => cases idle
    | _ => simp [Command.reach]

end

end Session

structure Occasion where
  before : Session
  event : Event

def Session.occasions (session : Session) : List Event → List Occasion
  | [] => []
  | event :: rest => ⟨session, event⟩ :: (session.apply event).occasions rest

namespace Occasion

def after (occasion : Occasion) : Session := occasion.before.apply occasion.event

def staged? (occasion : Occasion) : Option (List String) :=
  occasion.event.command?.bind (Command.stages? occasion.before.settings)

def adds (occasion : Occasion) : Bool := occasion.staged?.isSome

def fills (occasion : Occasion) : Bool := occasion.adds && !occasion.after.repository.staged.isEmpty

def commits (occasion : Occasion) : Bool :=
  occasion.event.command?.any Command.isCommit && occasion.before.accepts occasion.event

def clears (occasion : Occasion) : Bool := occasion.commits || occasion.event.command? == some .init

inductive Staging (occasion : Occasion) : Prop where
  | added (files : List String) (stages : occasion.staged? = some files) (keeps : occasion.clears = false)
      (accepted : occasion.before.accepts occasion.event = true)
      (left : occasion.after.repository.staged = distinct files)
  | committed (adds : occasion.staged? = none) (accepted : occasion.commits = true)
      (held : occasion.before.repository.staged ≠ []) (left : occasion.after.repository.staged = [])
  | started (adds : occasion.staged? = none) (asked : occasion.event.command? = some .init)
      (accepted : occasion.before.accepts occasion.event = true)
      (left : occasion.after.repository.staged = [])
  | kept (adds : occasion.staged? = none) (keeps : occasion.clears = false)
      (left : occasion.after.repository.staged = occasion.before.repository.staged)

theorem line_staging {occasion : Occasion} (steady : occasion.before.ids.Steady) (line : occasion.event.IsLine) :
    occasion.Staging := by
  obtain ⟨before, event⟩ := occasion
  cases Session.apply_effect before event with
  | loaded seed given =>
      rw [given] at line
      exact line.elim
  | idle asked state =>
      refine .kept ?_ ?_ (congrArg (·.repository.staged) state)
      · simp [staged?, asked]
      · simp [clears, commits, asked]
  | ran command asked state =>
      have left := congrArg (·.repository.staged) state
      have accepted : before.accepts event = (before.run command).1.isDone := Session.accepts_ran asked
      cases stages : command.stages? before.settings with
      | some files =>
          obtain ⟨done, staged⟩ := before.run_stages stages
          refine .added files ?_ ?_ (accepted.trans done) (left.trans staged)
          · simp [staged?, asked, stages]
          · simp [clears, commits, asked, Command.stages_only stages]
      | none =>
          have idle : staged? ⟨before, event⟩ = none := by simp [staged?, asked, stages]
          by_cases started : command = .init
          · rw [started] at asked left accepted
            exact .started idle asked accepted left
          · cases asks : command.isCommit with
            | false =>
                refine .kept idle ?_ (left.trans (before.run_stages_nothing stages asks started))
                simp [clears, commits, asked, asks, started]
            | true =>
                obtain ⟨message, author, same⟩ := (Command.is_commit_iff command).mp asks
                subst same
                obtain ⟨done, cleared⟩ := before.run_commit steady message author
                cases empty : before.repository.staged with
                | nil =>
                    refine .kept idle ?_ ?_
                    · simp [clears, commits, asked, accepted, done, empty]
                    · exact (left.trans cleared).trans empty.symm
                | cons file more =>
                    refine .committed idle ?_ (by simp [empty]) (left.trans cleared)
                    simp [commits, asked, asks, accepted, done, empty]

theorem staged_iff {occasion : Occasion} (staging : occasion.Staging) :
    occasion.after.repository.staged ≠ [] ↔
      occasion.fills = true ∨
        occasion.before.repository.staged ≠ [] ∧ occasion.adds = false ∧ occasion.clears = false := by
  cases staging with
  | added files stages keeps accepted left => simp [fills, adds, stages]
  | committed adds accepted held left => simp [fills, clears, accepted, left]
  | started adds asked accepted left => simp [fills, clears, asked, left]
  | kept idle keeps left => simp [fills, adds, idle, keeps, left]

theorem staged_told {occasion : Occasion} (staging : occasion.Staging) :
    (∀ files, occasion.staged? = some files → occasion.after.repository.staged = distinct files) ∧
    (occasion.clears = true → occasion.after.repository.staged = []) ∧
    ((occasion.adds = false ∧ occasion.clears = false) ∨ occasion.before.accepts occasion.event = false →
      occasion.after.repository.staged = occasion.before.repository.staged) := by
  cases staging with
  | added files stages keeps accepted left =>
      refine ⟨?_, by simp [keeps], ?_⟩
      · intro others given
        rw [← Option.some.inj (stages.symm.trans given)]
        exact left
      · rintro (⟨idle, _⟩ | failed)
        · simp [adds, stages] at idle
        · exact absurd (accepted.symm.trans failed) (by simp)
  | committed adds accepted held left =>
      refine ⟨by simp [adds], fun _ => left, ?_⟩
      rintro (⟨_, keeps⟩ | failed)
      · simp [clears, accepted] at keeps
      · exact absurd ((Bool.and_eq_true_iff.mp accepted).2.symm.trans failed) (by simp)
  | started adds asked accepted left =>
      refine ⟨by simp [adds], fun _ => left, ?_⟩
      rintro (⟨_, keeps⟩ | failed)
      · simp [clears, asked] at keeps
      · exact absurd (accepted.symm.trans failed) (by simp)
  | kept adds keeps left => exact ⟨by simp [adds], by simp [keeps], fun _ => left⟩

/-- How many commits what is staged now can still make. -/
def credit (session : Session) : Nat := if session.repository.staged = [] then 0 else 1

theorem commit_uses_credit {occasion : Occasion} (staging : occasion.Staging) :
    (if occasion.commits then 1 else 0) + credit occasion.after ≤
      (if occasion.fills then 1 else 0) + credit occasion.before := by
  cases staging with
  | added files stages keeps accepted left =>
      have recorded : occasion.commits = false := (Bool.or_eq_false_iff.mp keeps).1
      by_cases empty : occasion.after.repository.staged = []
      · simp [recorded, credit, empty]
      · have fills : occasion.fills = true := by simp [fills, adds, stages, empty]
        simp only [recorded, fills, credit, empty, Bool.false_eq_true, if_false, if_true]
        omega
  | committed adds accepted held left => simp [credit, accepted, held, left]
  | started adds asked accepted left =>
      have recorded : occasion.commits = false := by
        rw [commits, asked]
        rfl
      simp [recorded, credit, left]
  | kept idle keeps left =>
      have recorded : occasion.commits = false := (Bool.or_eq_false_iff.mp keeps).1
      simp [recorded, credit, left]

end Occasion

def Quiet (occasions : List Occasion) : Prop :=
  ∀ occasion ∈ occasions, occasion.adds = false ∧ occasion.clears = false

def Filled (occasions : List Occasion) : Prop :=
  ∃ earlier add later, occasions = earlier ++ add :: later ∧ add.fills = true ∧ Quiet later

theorem filled_cons (occasion : Occasion) (rest : List Occasion) :
    Filled (occasion :: rest) ↔ Filled rest ∨ occasion.fills = true ∧ Quiet rest := by
  constructor
  · rintro ⟨earlier, add, later, split, fills, quiet⟩
    cases earlier with
    | nil =>
        obtain ⟨rfl, rfl⟩ := List.cons.inj split
        exact .inr ⟨fills, quiet⟩
    | cons first between => exact .inl ⟨between, add, later, (List.cons.inj split).2, fills, quiet⟩
  · rintro (⟨earlier, add, later, split, fills, quiet⟩ | ⟨fills, quiet⟩)
    · exact ⟨occasion :: earlier, add, later, by rw [split, List.cons_append], fills, quiet⟩
    · exact ⟨[], occasion, rest, rfl, fills, quiet⟩

namespace Session

section
variable (session : Session) {course : List Event}

theorem staged_after (steady : session.ids.Steady) (lines : ∀ event ∈ course, event.IsLine) :
    (session.after course).repository.staged ≠ [] ↔
      Filled (session.occasions course) ∨
        session.repository.staged ≠ [] ∧ Quiet (session.occasions course) := by
  induction course generalizing session with
  | nil => simp [after, occasions, Filled, Quiet]
  | cons event rest ih =>
      obtain ⟨line, others⟩ := List.forall_mem_cons.mp lines
      have staging : Occasion.Staging ⟨session, event⟩ := Occasion.line_staging steady line
      have first := Occasion.staged_iff staging
      have later := ih (session.apply event) (apply_steady event steady) others
      have quiet : Quiet (session.occasions (event :: rest)) ↔
          (Occasion.adds ⟨session, event⟩ = false ∧ Occasion.clears ⟨session, event⟩ = false) ∧
            Quiet ((session.apply event).occasions rest) := List.forall_mem_cons
      rw [quiet, occasions, filled_cons]
      refine later.trans ?_
      simp only [Occasion.after] at first
      rw [first]
      constructor
      · rintro (filled | ⟨fills | ⟨held, still⟩, calm⟩)
        · exact .inl (.inl filled)
        · exact .inl (.inr ⟨fills, calm⟩)
        · exact .inr ⟨held, still, calm⟩
      · rintro ((filled | ⟨fills, calm⟩) | ⟨held, still, calm⟩)
        · exact .inl filled
        · exact .inr ⟨.inl fills, calm⟩
        · exact .inr ⟨.inr ⟨held, still⟩, calm⟩

theorem commits_within_fills (steady : session.ids.Steady) (lines : ∀ event ∈ course, event.IsLine) :
    (session.occasions course).countP Occasion.commits + Occasion.credit (session.after course) ≤
      (session.occasions course).countP Occasion.fills + Occasion.credit session := by
  -- The credit is one exactly while something is staged; a commit that is accepted spends it.
  induction course generalizing session with
  | nil => exact Nat.le_refl _
  | cons event rest ih =>
      obtain ⟨line, others⟩ := List.forall_mem_cons.mp lines
      have staging : Occasion.Staging ⟨session, event⟩ := Occasion.line_staging steady line
      have first := Occasion.commit_uses_credit staging
      have later := ih (session.apply event) (apply_steady event steady) others
      rw [occasions, List.countP_cons, List.countP_cons]
      simp only [Occasion.after] at first
      have reached : session.after (event :: rest) = (session.apply event).after rest := rfl
      rw [reached]
      omega

end

theorem accepts_commit {session : Session} (steady : session.ids.Steady) {event : Event} {message : Option String}
    {author : Option Author} (asked : event.command? = some (.commit message author)) :
    session.accepts event = true ↔ session.repository.staged ≠ [] := by
  rw [accepts_ran asked, (run_commit session steady message author).1]
  simp

theorem commits_need_adds (settings : Settings) (ids : IdSource) (steady : ids.Steady) (course : List Event)
    (lines : ∀ event ∈ course, event.IsLine) :
    let session := (start settings ids).after course
    let occasions := (start settings ids).occasions course
    (∀ event message author, event.command? = some (.commit message author) →
      (session.accepts event = true ↔ session.repository.staged ≠ [])) ∧
    (session.repository.staged ≠ [] ↔ Filled occasions) ∧
    (∀ event : Event, event.IsLine →
      let occasion : Occasion := ⟨session, event⟩
      let staged := (session.apply event).repository.staged
      (∀ files, occasion.staged? = some files → staged = distinct files) ∧
      (occasion.clears = true → staged = []) ∧
      ((occasion.adds = false ∧ occasion.clears = false) ∨ session.accepts event = false →
        staged = session.repository.staged)) ∧
    occasions.countP Occasion.commits ≤ occasions.countP Occasion.fills := by
  intro session occasions
  have stillSteady : session.ids.Steady := after_steady course steady
  refine ⟨fun event message author => accepts_commit stillSteady, ?_, ?_, ?_⟩
  · have told := staged_after (start settings ids) steady lines
    have nothing : (start settings ids).repository.staged = [] := rfl
    simpa [nothing] using told
  · intro event line
    exact Occasion.staged_told (Occasion.line_staging stillSteady line)
  · exact Nat.le_of_add_right_le (commits_within_fills (start settings ids) steady lines)

def addedTwice : List Event :=
  [.typed "git add .", .evaluated "git checkout -b dev", .typed " git commit -m First", .evaluated "git commit",
    .evaluated "git add b.txt ''", .typed "git add", .evaluated "git rebase nowhere"]

theorem commits_need_adds_twice :
    (∀ event ∈ addedTwice, event.IsLine) ∧
    ((start {} .sequential).after addedTwice).accepts (.typed "git commit -m Second") = true ∧
    Filled ((start {} .sequential).occasions addedTwice) ∧
    (((start {} .sequential).after addedTwice).apply (.evaluated "git merge main dev")).repository.staged =
      ["b.txt"] ∧
    ((start {} .sequential).occasions addedTwice).countP Occasion.commits ≤ 2 := by
  have lines : ∀ event ∈ addedTwice, event.IsLine := by simp [addedTwice, Event.IsLine]
  obtain ⟨commits, filled, frame, counts⟩ :=
    commits_need_adds {} .sequential (fun place => ⟨_, rfl⟩) addedTwice lines
  have staged : ((start {} .sequential).after addedTwice).repository.staged = ["b.txt"] := by decide
  have adds : ((start {} .sequential).occasions addedTwice).countP Occasion.fills = 2 := by decide
  obtain ⟨_, _, kept⟩ := frame (.evaluated "git merge main dev") trivial
  have held : ((start {} .sequential).after addedTwice).repository.staged ≠ [] :=
    staged ▸ List.cons_ne_nil _ _
  refine ⟨lines, ?_, filled.mp held, (kept (.inl ?_)).trans staged, adds ▸ counts⟩
  · exact (commits (.typed "git commit -m Second") (some "Second") none (by decide +kernel)).mpr held
  · exact ⟨by decide, by decide⟩

end Session

end GitPractice
