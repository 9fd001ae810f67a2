import GitPractice.Proofs.History

set_option autoImplicit false

namespace GitPractice

structure Commit.Outline where
  message : String
  timestamp : Int
  branch : String
  mergedFrom : Option String
  mergedInto : Option String
  cutFrom : Option String
  hasParent : Bool
deriving DecidableEq, Repr

def Commit.outline (commit : Commit) : Commit.Outline where
  message := commit.message
  timestamp := commit.timestamp
  branch := commit.branch
  mergedFrom := commit.mergedFrom
  mergedInto := commit.mergedInto
  cutFrom := commit.cutFrom
  hasParent := commit.parent.isSome

structure Repository.Outline where
  current : String
  branches : List String
  commits : List Commit.Outline
  staged : List String
deriving DecidableEq, Repr

namespace Repository

def outline (repository : Repository) : Outline where
  current := repository.current
  branches := repository.branches
  commits := repository.commits.map Commit.outline
  staged := repository.staged

variable {left right : Repository}

section
variable (same : left.outline = right.outline)
include same

theorem outline_current : left.current = right.current := congrArg Outline.current same

theorem outline_branches : left.branches = right.branches := congrArg Outline.branches same

theorem outline_commits : left.commits.map Commit.outline = right.commits.map Commit.outline :=
  congrArg Outline.commits same

theorem outline_staged : left.staged = right.staged := congrArg Outline.staged same

theorem outline_length : left.commits.length = right.commits.length := by
  have lengths := congrArg List.length (outline_commits same)
  rwa [List.length_map, List.length_map] at lengths

theorem outline_empty : left.commits.isEmpty = right.commits.isEmpty := by
  have emptied := congrArg List.isEmpty (outline_commits same)
  rwa [List.isEmpty_map, List.isEmpty_map] at emptied

theorem outline_has_branch : left.hasBranch = right.hasBranch := by
  funext branch
  rw [hasBranch, hasBranch, outline_branches same]

theorem outline_commits_on (branch : String) :
    (left.commitsOn branch).map Commit.outline = (right.commitsOn branch).map Commit.outline := by
  have kept := congrArg (List.filter fun commit => commit.branch == branch) (outline_commits same)
  rwa [List.filter_map, List.filter_map] at kept

theorem outline_empty_on (branch : String) :
    (left.commitsOn branch).isEmpty = (right.commitsOn branch).isEmpty := by
  have emptied := congrArg List.isEmpty (outline_commits_on same branch)
  rwa [List.isEmpty_map, List.isEmpty_map] at emptied

theorem outline_switch (branch : String) : (left.switch branch).outline = (right.switch branch).outline :=
  congrArg (fun outline => { outline with current := branch }) same

theorem outline_add_branch (branch : String) :
    (left.addBranch branch).outline = (right.addBranch branch).outline :=
  congrArg (fun outline => { outline with branches := outline.branches ++ [branch] }) same

theorem outline_remove_branch (branch : String) :
    (left.removeBranch branch).outline = (right.removeBranch branch).outline :=
  congrArg (fun outline => { outline with branches := outline.branches.filter (· != branch) }) same

theorem outline_stage (files : List String) : (left.stage files).outline = (right.stage files).outline :=
  congrArg (fun outline => { outline with staged := distinct files }) same

theorem outline_unstage : left.unstage.outline = right.unstage.outline :=
  congrArg (fun outline => { outline with staged := [] }) same

theorem outline_append {first second : Commit} (alike : first.outline = second.outline) :
    (left.append first).outline = (right.append second).outline := by
  have grown (repository : Repository) (commit : Commit) : (repository.append commit).outline =
      { repository.outline with commits := repository.outline.commits ++ [commit.outline] } := by
    simp only [outline, append, List.map_append, List.map_cons, List.map_nil]
  rw [grown, grown, alike, same]

end

theorem newest_none_iff (commits : List Commit) : newest? commits = none ↔ commits = [] := by
  cases commits with
  | nil => simp [newest?]
  | cons commit rest =>
      rw [newest?]
      cases newest? rest with
      | none => simp
      | some best => by_cases younger : commit.timestamp ≤ best.timestamp <;> simp [younger]

theorem outline_tip (same : left.outline = right.outline) (branch : String) :
    (left.tip? branch).isSome = (right.tip? branch).isSome := by
  have present (repository : Repository) :
      (repository.tip? branch).isNone = (repository.commitsOn branch).isEmpty := by
    rw [Bool.eq_iff_iff, Option.isNone_iff_eq_none, List.isEmpty_iff]
    exact newest_none_iff _
  rw [← Option.not_isNone, ← Option.not_isNone, present, present, outline_empty_on same]

end Repository

/-- Commands that look for something under a name of its own, and fail when it is not there. -/
def Command.looksUp : Command → Bool
  | .getConfig _ => true
  | .display (some revision) => revision != Answer.headName
  | _ => false

namespace Plan

inductive Alike : Plan → Plan → Prop where
  | refuse (left right : Error) : Alike (.refuse left) (.refuse right)
  | answer (left right : String) : Alike (.answer left) (.answer right)
  | change (leftText rightText : String) (left right : Repository) (same : left.outline = right.outline) :
      Alike (.change leftText left) (.change rightText right)
  | configure (text key value : String) : Alike (.configure text key value) (.configure text key value)
  | record (leftDraft rightDraft : Draft) (left right : Repository) (leftReport rightReport : Commit → String)
      (drafts : ∀ leftId rightId position,
        (leftDraft.stamp leftId position).outline = (rightDraft.stamp rightId position).outline)
      (same : left.outline = right.outline) :
      Alike (.record leftDraft left leftReport) (.record rightDraft right rightReport)

theorem carry_out_alike {plan other : Plan} (alike : Alike plan other) {left right : State}
    (same : left.repository.outline = right.repository.outline) (leftSteady : left.ids.Steady)
    (rightSteady : right.ids.Steady) :
    (plan.carryOut.run left).2.repository.outline = (other.carryOut.run right).2.repository.outline ∧
      (plan.carryOut.run left).1.isDone = (other.carryOut.run right).1.isDone := by
  cases alike with
  | refuse error otherError => exact ⟨same, rfl⟩
  | answer text otherText => exact ⟨same, rfl⟩
  | change text otherText onto otherOnto outlines => exact ⟨outlines, rfl⟩
  | configure text key value => exact ⟨same, rfl⟩
  | record draft otherDraft onto otherOnto report otherReport drafts outlines =>
      obtain ⟨leftId, leftDrawn⟩ := leftSteady left.ids.drawn
      obtain ⟨rightId, rightDrawn⟩ := rightSteady right.ids.drawn
      simp only [carryOut, IdSource.peek, leftDrawn, rightDrawn]
      refine ⟨Repository.outline_append outlines ?_, rfl⟩
      rw [recorded, recorded, Repository.outline_length outlines]
      exact drafts leftId rightId _

theorem of_except_alike {answer other : Except Error String} (ends : answer.isOk = other.isOk) :
    Alike (ofExcept answer) (ofExcept other) := by
  cases answer with
  | ok text =>
      cases other with
      | ok otherText => exact .answer text otherText
      | error otherError => exact absurd ends (by simp [Except.isOk, Except.toBool])
  | error error =>
      cases other with
      | ok otherText => exact absurd ends (by simp [Except.isOk, Except.toBool])
      | error otherError => exact .refuse error otherError

section
variable {left right : Repository} (same : left.outline = right.outline)
variable (leftName rightName : Signature)
include same

theorem commit_alike (message : Option String) (author : Option Author) :
    Alike (commit leftName left message author) (commit rightName right message author) := by
  rw [commit, commit, Repository.outline_staged same]
  split
  · exact .refuse _ _
  · refine .record _ _ _ _ _ _ ?_ (Repository.outline_unstage same)
    intro leftId rightId position
    simp only [Draft.stamp, Commit.outline, Repository.outline_current same]

theorem checkout_new_alike (branch : String) :
    Alike (checkoutNew leftName left branch) (checkoutNew rightName right branch) := by
  rw [checkoutNew, checkoutNew, Repository.outline_has_branch same]
  split
  · exact .refuse _ _
  · have added := Repository.outline_add_branch same branch
    refine .record _ _ _ _ _ _ ?_ (Repository.outline_switch added branch)
    intro leftId rightId position
    simp [Draft.stamp, Commit.outline, Repository.outline_current same, Repository.outline_tip same]

theorem checkout_alike (branch : String) : Alike (checkout left branch) (checkout right branch) := by
  rw [checkout, checkout, Repository.outline_has_branch same]
  split
  · exact .change _ _ _ _ (Repository.outline_switch same branch)
  · exact .refuse _ _

/-- Ids are compared by the report alone. Whether there is anything to merge depends on branches. -/
theorem merge_known_alike (source target : String) (moves : Bool) :
    Alike (mergeKnown leftName left source target moves)
      (mergeKnown rightName right source target moves) := by
  simp only [mergeKnown, Repository.outline_empty_on same]
  split
  · exact .change _ _ _ _ (Repository.outline_switch same target)
  · split
    · exact .refuse _ _
    · refine .record _ _ _ _ _ _ ?_ (Repository.outline_switch same target)
      intro leftId rightId position
      rfl

theorem merge_alike (source target : Option String) :
    Alike (merge leftName left source target) (merge rightName right source target) := by
  simp only [merge, Repository.outline_has_branch same, Repository.outline_current same]
  split
  · exact .refuse _ _
  · split
    · exact .refuse _ _
    · split
      · exact merge_known_alike same leftName rightName _ _ _
      · exact .refuse _ _

theorem rebase_alike (base : String) : Alike (rebase leftName left base) (rebase rightName right base) := by
  simp only [rebase, Repository.outline_has_branch same, Repository.outline_current same]
  split
  · split
    · exact .answer _ _
    · refine .record _ _ _ _ _ _ ?_ same
      intro leftId rightId position
      rfl
  · exact .refuse _ _

theorem add_paths_alike (paths : List String) : Alike (addPaths left paths) (addPaths right paths) := by
  cases paths with
  | nil => exact .answer _ _
  | cons path more => exact .change _ _ _ _ (Repository.outline_stage same (path :: more))

theorem create_branch_alike (branch : String) :
    Alike (createBranch left branch) (createBranch right branch) := by
  rw [createBranch, createBranch, Repository.outline_has_branch same]
  split
  · exact .refuse _ _
  · exact .change _ _ _ _ (Repository.outline_add_branch same branch)

theorem delete_branch_alike (leftSettings rightSettings : Settings) (branch : String) :
    Alike (deleteBranch leftSettings left branch) (deleteBranch rightSettings right branch) := by
  rw [deleteBranch, deleteBranch, Repository.outline_has_branch same, Repository.outline_current same]
  split
  · exact .refuse _ _
  · split
    · exact .change _ _ _ _ (Repository.outline_remove_branch same branch)
    · exact .refuse _ _

theorem log_alike (oneline graph : Bool) :
    Alike (ofExcept (Answer.log left oneline graph)) (ofExcept (Answer.log right oneline graph)) := by
  rw [Answer.log, Answer.log, Repository.outline_empty same]
  split
  · exact .refuse _ _
  · exact .answer _ _

theorem display_latest_alike (revision : Option String)
    (latest : revision.filter (· != Answer.headName) = none) :
    Alike (ofExcept (Answer.display left revision)) (ofExcept (Answer.display right revision)) := by
  have ends (repository : Repository) :
      (Answer.display repository revision).isOk = !repository.commits.isEmpty := by
    rw [Answer.display, Repository.latest?]
    cases shown : repository.commits.getLast? with
    | none => rw [List.getLast?_eq_none_iff.mp shown]; rfl
    | some commit =>
        have filled : repository.commits ≠ [] := by
          rintro empty
          rw [empty] at shown
          exact absurd shown (by simp)
        simp only [latest]
        rw [List.isEmpty_eq_false_iff.mpr filled]
        rfl
  apply of_except_alike
  rw [ends, ends, Repository.outline_empty same]

end

theorem of_command_alike (leftSettings rightSettings : Settings)
    (branch : leftSettings.defaultBranch = rightSettings.defaultBranch)
    (files : leftSettings.everyFile = rightSettings.everyFile) (leftConfig rightConfig : Config)
    {left right : Repository} (same : left.outline = right.outline) (command : Command)
    (plain : command.looksUp = false) :
    Alike (ofCommand leftSettings leftConfig left command)
      (ofCommand rightSettings rightConfig right command) := by
  cases command with
  | help topic => exact of_except_alike rfl
  | commit message author => exact commit_alike same _ _ message author
  | checkoutNew name => exact checkout_new_alike same _ _ name
  | checkout name => exact checkout_alike same name
  | merge source target => exact merge_alike same _ _ source target
  | rebase base => exact rebase_alike same _ _ base
  | init =>
      simp only [ofCommand, init, branch]
      exact .change _ _ _ _ rfl
  | addAll =>
      simp only [ofCommand, addAll, files]
      exact .change _ _ _ _ (Repository.outline_stage same _)
  | addPaths paths => exact add_paths_alike same paths
  | createBranch name => exact create_branch_alike same name
  | deleteBranch name => exact delete_branch_alike same _ _ name
  | getConfig key => exact absurd plain (by simp [Command.looksUp])
  | setConfig key value => exact .configure _ key value
  | log oneline graph => exact log_alike same oneline graph
  | display revision =>
      refine display_latest_alike same revision ?_
      cases revision with
      | none => rfl
      | some name =>
          rw [Command.looksUp] at plain
          rw [Option.filter_some, plain]
          rfl
  | status | listBranches | push _ _ | pull _ _ | fetch | diff | listConfig => exact .answer _ _

theorem of_command_lookup (settings : Settings) (config : Config) (repository : Repository)
    (command : Command) (lookup : command.looksUp = true) :
    ∃ answer, ofCommand settings config repository command = ofExcept answer := by
  cases command with
  | getConfig key => exact ⟨_, rfl⟩
  | display revision => exact ⟨_, rfl⟩
  | help _ | commit _ _ | checkoutNew _ | checkout _ | merge _ _ | rebase _ | init | addAll | addPaths _
  | status | listBranches | createBranch _ | deleteBranch _ | push _ _ | pull _ _ | fetch | diff
  | listConfig | setConfig _ _ | log _ _ => exact absurd lookup (by simp [Command.looksUp])

end Plan

namespace Seed

variable (seed : Seed) (leftName rightName : Signature) {leftIds rightIds : IdSource}

theorem commit_all_outline (branches : List String) (entries : List SeedCommit) (position : Nat)
    (leftSteady : leftIds.Steady) (rightSteady : rightIds.Steady) :
    (commitAll branches leftName position entries leftIds).1.map (List.map Commit.outline) =
      (commitAll branches rightName position entries rightIds).1.map (List.map Commit.outline) := by
  induction entries generalizing position leftIds rightIds with
  | nil => rfl
  | cons entry rest ih =>
      have first (commit : Commit) (later : Outcome (List Commit)) :
          (later.map (commit :: ·)).map (List.map Commit.outline) =
            (later.map (List.map Commit.outline)).map (commit.outline :: ·) := by
        cases later <;> rfl
      obtain ⟨leftId, leftAfter, leftGiven, leftStill⟩ := identify_steady entry leftSteady
      obtain ⟨rightId, rightAfter, rightGiven, rightStill⟩ := identify_steady entry rightSteady
      rw [commitAll, commitAll, leftGiven, rightGiven]
      split
      · simp only [first, ih (position + 1) leftStill rightStill]
        rfl
      · rfl

theorem build_outline (leftSteady : leftIds.Steady) (rightSteady : rightIds.Steady) :
    (seed.build leftName leftIds).1.map Repository.outline =
      (seed.build rightName rightIds).1.map Repository.outline := by
  rw [build, build]
  split
  · rfl
  · cases seed.start with
    | error fault => rfl
    | ok branch =>
        have assembled (made : Outcome (List Commit)) :
            (made.map fun commits => Repository.mk branch (distinct seed.branches) commits
                (distinct seed.staged)).map Repository.outline =
              (made.map (List.map Commit.outline)).map fun commits =>
                Repository.Outline.mk branch (distinct seed.branches) commits (distinct seed.staged) := by
          cases made <;> rfl
        simp only [assembled, commit_all_outline leftName rightName seed.branches seed.commits 0 leftSteady
          rightSteady]

end Seed

def Command.isLookup (line : String) : Bool :=
  match parse line with
  | .ok command => command.looksUp
  | .error _ => false

namespace Session

structure Alike (left right : Session) : Prop where
  outline : left.repository.outline = right.repository.outline
  branch : left.settings.defaultBranch = right.settings.defaultBranch
  files : left.settings.everyFile = right.settings.everyFile
  leftSteady : left.ids.Steady
  rightSteady : right.ids.Steady

section
variable {left right : Session} (alike : left.Alike right)
include alike

theorem run_alike (command : Command) :
    (left.run command).2.repository.outline = (right.run command).2.repository.outline ∧
      (command.looksUp = false → (left.run command).1.isDone = (right.run command).1.isDone) := by
  rw [run, run, conduct, conduct, Action.of_command_planned, Action.of_command_planned]
  cases lookup : command.looksUp with
  | false =>
      have plans := Plan.of_command_alike left.settings right.settings alike.branch alike.files left.config
        right.config alike.outline command lookup
      obtain ⟨outlines, ends⟩ :=
        Plan.carry_out_alike plans alike.outline alike.leftSteady alike.rightSteady
      exact ⟨outlines, fun _ => ends⟩
  | true =>
      have idle (answer : Except Error String) (state : State) :
          ((Plan.ofExcept answer).carryOut.run state).2 = state := by
        cases answer <;> rfl
      obtain ⟨answer, planned⟩ :=
        Plan.of_command_lookup left.settings left.config left.repository command lookup
      obtain ⟨otherAnswer, otherPlanned⟩ :=
        Plan.of_command_lookup right.settings right.config right.repository command lookup
      rw [planned, otherPlanned, idle, idle]
      exact ⟨alike.outline, by simp⟩

theorem evaluate_outline (line : String) :
    (left.evaluate line).2.repository.outline = (right.evaluate line).2.repository.outline ∧
      (Command.isLookup line = false →
        (left.evaluate line).1.isDone = (right.evaluate line).1.isDone) := by
  rw [evaluate, evaluate, Command.isLookup]
  cases Command.parse line with
  | error error => exact ⟨alike.outline, fun _ => rfl⟩
  | ok command => exact run_alike alike command

theorem evaluate_alike (line : String) : (left.evaluate line).2.Alike (right.evaluate line).2 where
  outline := (evaluate_outline alike line).1
  branch := by rw [evaluate_settings, evaluate_settings, alike.branch]
  files := by rw [evaluate_settings, evaluate_settings, alike.files]
  leftSteady := evaluate_steady line alike.leftSteady
  rightSteady := evaluate_steady line alike.rightSteady

theorem told_alike (leftTold rightTold : Transcript) :
    Alike { left with transcript := leftTold } { right with transcript := rightTold } :=
  ⟨alike.outline, alike.branch, alike.files, alike.leftSteady, alike.rightSteady⟩

theorem execute_alike (line : String) : (left.execute line).2.Alike (right.execute line).2 := by
  cases blank : Text.isBlankText line with
  | true =>
      rw [execute_blank left blank, execute_blank right blank]
      exact alike
  | false =>
      rw [execute_filled left blank, execute_filled right blank]
      exact told_alike (evaluate_alike alike (Text.trimmed line)) _ _

theorem execute_kinds (line : String) (plain : Command.isLookup (Text.trimmed line) = false) :
    (left.execute line).1.map Entry.kind = (right.execute line).1.map Entry.kind := by
  have kinds (outcome : Outcome String) :
      (resultEntry outcome).kind = if outcome.isDone then .output else .error := by
    cases outcome <;> rfl
  cases blank : Text.isBlankText line with
  | true => rw [execute_blank left blank, execute_blank right blank]
  | false =>
      have ends := (evaluate_outline alike (Text.trimmed line)).2 plain
      rw [execute_filled left blank, execute_filled right blank]
      simp only [List.map_cons, List.map_nil, kinds, ends, Entry.echo]

theorem load_alike (seed : Seed) : (left.load seed).2.Alike (right.load seed).2 where
  outline := by
    have outlines := Seed.build_outline seed left.config.signature right.config.signature
      alike.leftSteady alike.rightSteady
    have ends := congrArg Outcome.isDone outlines
    rw [Outcome.is_done_map, Outcome.is_done_map] at ends
    cases leftBuilt : (seed.build left.config.signature left.ids).1 with
    | done repository =>
        rw [leftBuilt] at outlines
        obtain ⟨other, rightBuilt, same⟩ := (Outcome.map_done_iff _ _ _).mp outlines.symm
        rw [load_done leftBuilt, load_done rightBuilt, same]
    | refused _ | interrupted _ =>
        rw [leftBuilt] at ends
        rw [load_undone (by rw [leftBuilt]; rfl), load_undone ends.symm]
        exact alike.outline
  branch := by rw [load_settings, load_settings, alike.branch]
  files := by rw [load_settings, load_settings, alike.files]
  leftSteady := load_steady seed alike.leftSteady
  rightSteady := load_steady seed alike.rightSteady

theorem after_alike (course : List Event) : (left.after course).Alike (right.after course) := by
  induction course generalizing left right with
  | nil => exact alike
  | cons event rest ih =>
      refine ih ?_
      cases event with
      | typed line => exact execute_alike alike line
      | evaluated line => exact evaluate_alike alike line
      | loaded seed => exact load_alike alike seed

end

theorem identities_unobserved (left right : Session)
    (same : left.repository.outline = right.repository.outline)
    (branch : left.settings.defaultBranch = right.settings.defaultBranch)
    (files : left.settings.everyFile = right.settings.everyFile)
    (leftSteady : left.ids.Steady) (rightSteady : right.ids.Steady) (course : List Event) :
    (left.after course).repository.outline = (right.after course).repository.outline ∧
    ∀ line,
      (Command.isLookup line = false →
        ((left.after course).evaluate line).1.isDone = ((right.after course).evaluate line).1.isDone) ∧
      (Command.isLookup (Text.trimmed line) = false →
        ((left.after course).execute line).1.map Entry.kind =
          ((right.after course).execute line).1.map Entry.kind) := by
  have reached := after_alike ⟨same, branch, files, leftSteady, rightSteady⟩ course
  refine ⟨reached.outline, ?_⟩
  intro line
  exact ⟨(evaluate_outline reached line).2, execute_kinds reached line⟩

def pupil : Session :=
  ((start {} .sequential).load
    { branches := ["main", "dev"]
      commits := [{ branch := "dev", message := "First", id := some "aaaaaaa" }]
      staged := ["a.txt"] }).2

def tutor : Session :=
  ((start { repositoryPath := "/desk", git := Config.empty.set Config.nameKey "Ada" }
      { stream := fun _ => .id "0" }).load
    { branches := ["main", "dev"]
      commits := [{ branch := "dev", message := "First", id := some "b", author := some "Eve" }]
      staged := ["a.txt"] }).2

def lesson : List Event :=
  [.typed "git commit -m one --author='Jo <jo@x>'", .typed "git checkout -b topic",
   .evaluated "git merge dev into main", .typed "git rebase dev"]

theorem pupil_tutor_alike :
    pupil.repository ≠ tutor.repository ∧ pupil.config.signature ≠ tutor.config.signature ∧
    (pupil.after lesson).repository.outline = (tutor.after lesson).repository.outline ∧
    ((pupil.after lesson).evaluate "git show HEAD").1.isDone =
      ((tutor.after lesson).evaluate "git show HEAD").1.isDone ∧
    ((pupil.after lesson).execute " git merge topic").1.map Entry.kind =
      ((tutor.after lesson).execute " git merge topic").1.map Entry.kind := by
  obtain ⟨outlines, ends⟩ := identities_unobserved pupil tutor (by decide) rfl rfl
    (fun place => ⟨_, rfl⟩) (fun place => ⟨_, rfl⟩) lesson
  refine ⟨by decide, by decide, outlines, ?_, ?_⟩
  · exact (ends "git show HEAD").1 (by decide)
  · exact (ends " git merge topic").2 (by decide)

end Session

end GitPractice
