import GitPractice.Proofs.Planned
import GitPractice.Session.Event

set_option autoImplicit false

namespace GitPractice

inductive Draft.Sourced (repository : Repository) (draft : Draft) : Prop where
  | plain (unmerged : draft.merge = none) (uncut : draft.cut = none)
  | cut (unmerged : draft.merge = none)
      (origin : draft.cut =
        some (repository.current, (repository.tip? repository.current).map Commit.id))
      (away : repository.hasBranch draft.branch = false)
  | merged (source : String) (uncut : draft.cut = none)
      (origin : draft.merge = some (source, draft.branch))
      (apart : source ≠ draft.branch)
      (told : draft.message = Plan.mergeMessage source draft.branch)
      (filled : ∃ commit ∈ repository.commits, commit.branch = source)

namespace Plan

inductive Admissible (settings : Settings) (repository : Repository) (command : Command) : Plan → Prop where
  | refuse (error : Error) : Admissible settings repository command (.refuse error)
  | answer (text : String) : Admissible settings repository command (.answer text)
  | configure (text key value : String) :
      Admissible settings repository command (.configure text key value)
  | reset (text : String) (asked : command = .init) :
      Admissible settings repository command (.change text (.fresh settings.defaultBranch))
  | relabel (text : String) (onto : Repository) (kept : onto.commits = repository.commits)
      (sound : repository.WellFormed → onto.WellFormed) :
      Admissible settings repository command (.change text onto)
  | record (draft : Draft) (onto : Repository) (report : Commit → String)
      (kept : onto.commits = repository.commits) (sound : repository.WellFormed → onto.WellFormed)
      (here : draft.branch = onto.current) (sourced : draft.Sourced repository) :
      Admissible settings repository command (.record draft onto report)

section
variable (settings : Settings) (configured : Signature) (repository : Repository) (command : Command)

theorem of_except_admissible (answer : Except Error String) :
    Admissible settings repository command (ofExcept answer) := by
  cases answer with
  | ok text => exact .answer text
  | error error => exact .refuse error

theorem commit_admissible (message : Option String) (author : Option Author) :
    Admissible settings repository command (commit configured repository message author) := by
  rw [commit]
  split
  · exact .refuse _
  · refine .record _ repository.unstage _ rfl ?_ rfl (.plain rfl rfl)
    exact Repository.well_formed_unstage repository

theorem checkout_new_admissible (branch : String) :
    Admissible settings repository command (checkoutNew configured repository branch) := by
  rw [checkoutNew]
  cases unknown : repository.hasBranch branch with
  | true => exact .refuse _
  | false =>
      refine .record _ ((repository.addBranch branch).switch branch) _ rfl ?_ rfl (.cut rfl rfl unknown)
      intro valid
      have new : branch ∉ repository.branches := by
        rw [← Repository.has_branch_iff, unknown]
        exact Bool.false_ne_true
      refine Repository.well_formed_switch _ branch ?_ ?_
      · exact Repository.well_formed_add_branch repository branch valid new
      · exact (Repository.has_branch_iff _ branch).mp (Repository.has_branch_add_branch repository branch)

theorem checkout_admissible (branch : String) :
    Admissible settings repository command (checkout repository branch) := by
  rw [checkout]
  split
  · rename_i known
    refine .relabel _ _ rfl ?_
    intro valid
    exact Repository.well_formed_switch _ branch valid ((Repository.has_branch_iff _ branch).mp known)
  · exact .refuse _

theorem merge_known_admissible (source target : String) (named : Bool)
    (known : repository.WellFormed → target ∈ repository.branches) :
    Admissible settings repository command (mergeKnown configured repository source target named) := by
  have moved : repository.WellFormed → (repository.switch target).WellFormed := by
    intro valid
    exact Repository.well_formed_switch repository target valid (known valid)
  rw [mergeKnown]
  by_cases same : source = target
  · rw [if_pos same]
    exact .relabel _ _ rfl moved
  · rw [if_neg same]
    cases present : repository.commitsOn source with
    | nil => exact .refuse _
    | cons commit more =>
        have found : commit ∈ repository.commitsOn source := by
          rw [present]
          exact List.mem_cons_self
        obtain ⟨inHistory, onSource⟩ := (Repository.mem_commits_on repository source commit).mp found
        exact .record _ _ _ rfl moved rfl (.merged source rfl rfl same rfl ⟨commit, inHistory, onSource⟩)

theorem merge_admissible (source target : Option String) :
    Admissible settings repository command (merge configured repository source target) := by
  simp only [merge]
  split
  · exact .refuse _
  · rename_i present
    split
    · exact .refuse _
    · rename_i source
      split
      · refine merge_known_admissible settings configured repository command source _ _ ?_
        intro valid
        cases target with
        | none => exact valid.1
        | some target =>
            have known : repository.hasBranch target = true := by
              simpa [Option.filter_some] using present
            exact (Repository.has_branch_iff repository target).mp known
      · exact .refuse _

theorem rebase_admissible (base : String) :
    Admissible settings repository command (rebase configured repository base) := by
  rw [rebase]
  split
  · split
    · exact .answer _
    · exact .record _ repository _ rfl id rfl (.plain rfl rfl)
  · exact .refuse _

theorem add_paths_admissible (paths : List String) :
    Admissible settings repository command (addPaths repository paths) := by
  cases paths with
  | nil => exact .answer _
  | cons path more =>
      exact .relabel _ _ rfl (Repository.well_formed_stage repository (path :: more))

theorem create_branch_admissible (branch : String) :
    Admissible settings repository command (createBranch repository branch) := by
  rw [createBranch]
  split
  · exact .refuse _
  · rename_i unknown
    refine .relabel _ _ rfl ?_
    intro valid
    refine Repository.well_formed_add_branch repository branch valid ?_
    rwa [Repository.has_branch_iff] at unknown

theorem delete_branch_admissible (branch : String) :
    Admissible settings repository command (deleteBranch settings repository branch) := by
  rw [deleteBranch]
  split
  · exact .refuse _
  · rename_i other
    split
    · refine .relabel _ _ rfl ?_
      intro valid
      exact Repository.well_formed_remove_branch repository branch valid other
    · exact .refuse _

end

theorem of_command_admissible (settings : Settings) (config : Config) (repository : Repository)
    (command : Command) :
    Admissible settings repository command (ofCommand settings config repository command) := by
  cases command with
  | help topic => exact of_except_admissible settings repository _ _
  | commit message author => exact commit_admissible settings _ repository _ message author
  | checkoutNew branch => exact checkout_new_admissible settings _ repository _ branch
  | checkout branch => exact checkout_admissible settings repository _ branch
  | merge source target => exact merge_admissible settings _ repository _ source target
  | rebase base => exact rebase_admissible settings _ repository _ base
  | init => exact .reset _ rfl
  | addAll => exact .relabel _ _ rfl (Repository.well_formed_stage repository settings.everyFile)
  | addPaths paths => exact add_paths_admissible settings repository _ paths
  | createBranch branch => exact create_branch_admissible settings repository _ branch
  | deleteBranch branch => exact delete_branch_admissible settings repository _ branch
  | getConfig key => exact of_except_admissible settings repository _ _
  | setConfig key value => exact .configure _ key value
  | log oneline graph => exact of_except_admissible settings repository _ _
  | display revision => exact of_except_admissible settings repository _ _
  | status | listBranches | push _ _ | pull _ _ | fetch | diff | listConfig => exact .answer _

end Plan

/-- What a command can do to the repository and the source of ids. -/
inductive State.Step (settings : Settings) (command : Command) (before after : State) : Prop where
  | still (repository : after.repository = before.repository) (ids : after.ids = before.ids)
  | broken (reason : String) (drawn : before.ids.peek = .interrupted reason)
      (repository : after.repository = before.repository) (ids : after.ids = before.ids.next)
  | reset (asked : command = .init) (repository : after.repository = .fresh settings.defaultBranch)
      (ids : after.ids = before.ids)
  | relabel (kept : after.repository.commits = before.repository.commits)
      (sound : before.repository.WellFormed → after.repository.WellFormed) (ids : after.ids = before.ids)
  | record (draft : Draft) (onto : Repository) (id : String) (drawn : before.ids.peek = .id id)
      (kept : onto.commits = before.repository.commits)
      (sound : before.repository.WellFormed → onto.WellFormed)
      (here : draft.branch = onto.current) (sourced : draft.Sourced before.repository)
      (repository : after.repository = onto.append (Plan.recorded draft onto id))
      (ids : after.ids = before.ids.next)

theorem State.step_commits {settings : Settings} {command : Command} {before after : State}
    (step : State.Step settings command before after) :
    after.repository.commits = before.repository.commits ∨ after.repository.commits = [] ∨
      ∃ (draft : Draft) (id : String), draft.Sourced before.repository ∧
        after.repository.commits =
          before.repository.commits ++ [draft.stamp id before.repository.commits.length] := by
  cases step with
  | still repository ids => exact .inl (congrArg Repository.commits repository)
  | broken reason drawn repository ids => exact .inl (congrArg Repository.commits repository)
  | reset asked repository ids => exact .inr (.inl (congrArg Repository.commits repository))
  | relabel kept sound ids => exact .inl kept
  | record draft onto id drawn kept sound here sourced repository ids =>
      refine .inr (.inr ⟨draft, id, sourced, ?_⟩)
      rw [repository, Repository.append, Plan.recorded, kept]

theorem State.step_ids {settings : Settings} {command : Command} {before after : State}
    (step : State.Step settings command before after) :
    after.ids = before.ids ∨ after.ids = before.ids.next := by
  cases step with
  | still repository ids => exact .inl ids
  | broken reason drawn repository ids => exact .inr ids
  | reset asked repository ids => exact .inl ids
  | relabel kept sound ids => exact .inl ids
  | record draft onto id drawn kept sound here sourced repository ids => exact .inr ids

theorem Plan.carry_out_step {settings : Settings} {command : Command} {plan : Plan} {state : State}
    (admissible : plan.Admissible settings state.repository command) :
    State.Step settings command state (plan.carryOut.run state).2 := by
  cases admissible with
  | refuse error => exact .still rfl rfl
  | answer text => exact .still rfl rfl
  | configure text key value => exact .still rfl rfl
  | reset text asked => exact .reset asked rfl rfl
  | relabel text onto kept sound => exact .relabel kept sound rfl
  | record draft onto report kept sound here sourced =>
      cases drawn : state.ids.peek with
      | id id =>
          refine .record draft onto id drawn kept sound here sourced ?_ ?_
          · simp only [carryOut, drawn]
          · simp only [carryOut, drawn]
      | interrupted reason =>
          refine .broken reason drawn ?_ ?_
          · simp only [carryOut, drawn]
          · simp only [carryOut, drawn]

namespace Session

variable (session : Session)

theorem run_step (command : Command) :
    State.Step session.settings command session.toState (session.run command).2.toState := by
  rw [run, conduct, Action.of_command_planned]
  exact Plan.carry_out_step (Plan.of_command_admissible session.settings _ _ command)

theorem evaluate_step (line : String) : (session.evaluate line).2 = session ∨
    ∃ command, Command.parse line = .ok command ∧
      State.Step session.settings command session.toState (session.evaluate line).2.toState := by
  rw [evaluate]
  cases Command.parse line with
  | error fault => exact .inl rfl
  | ok command => exact .inr ⟨command, rfl, run_step session command⟩

theorem load_state (seed : Seed) :
    (session.load seed).2.repository = session.repository ∨
      (seed.build session.config.signature session.ids).1 = .done (session.load seed).2.repository := by
  rw [load]
  split
  · rename_i built
    rw [built]
    exact .inr rfl
  · exact .inl rfl
  · exact .inl rfl

theorem load_done {session : Session} {seed : Seed} {repository : Repository}
    (built : (seed.build session.config.signature session.ids).1 = .done repository) :
    (session.load seed).2.repository = repository := by
  rw [load]
  split
  · rename_i result
    rw [result] at built
    exact Outcome.done.inj built
  · rename_i result
    rw [result] at built
    exact absurd built (by simp)
  · rename_i result
    rw [result] at built
    exact absurd built (by simp)

theorem load_undone {session : Session} {seed : Seed}
    (broken : (seed.build session.config.signature session.ids).1.isDone = false) :
    (session.load seed).2.repository = session.repository := by
  rw [load]
  split
  · rename_i result
    rw [result] at broken
    exact absurd broken (by simp [Outcome.isDone])
  · rfl
  · rfl

theorem load_ids (seed : Seed) :
    (session.load seed).2.ids = (seed.build session.config.signature session.ids).2 := by
  rw [load]
  split
  · rename_i result
    rw [result]
  · rename_i result
    rw [result]
  · rename_i result
    rw [result]

theorem evaluate_ids (line : String) :
    (session.evaluate line).2.ids = session.ids ∨ (session.evaluate line).2.ids = session.ids.next := by
  rcases evaluate_step session line with same | ⟨command, _, step⟩
  · rw [same]
    exact .inl rfl
  · exact State.step_ids step

theorem evaluate_keeps {motive : Repository → Prop}
    (stepped : ∀ command before after, State.Step session.settings command before after →
      motive before.repository → motive after.repository)
    (line : String) (holds : motive session.repository) : motive (session.evaluate line).2.repository := by
  rcases evaluate_step session line with same | ⟨command, _, step⟩
  · rw [same]
    exact holds
  · exact stepped command _ _ step holds

/-- The one induction over courses: a property of repositories is shown of every reached repository by showing
it of the fresh one, of what seeds build, and of what a step of `State.Step` makes of it. -/
theorem after_repository {motive : Repository → Prop} (settings : Settings)
    (fresh : motive (.fresh settings.defaultBranch))
    (stepped : ∀ command before after, State.Step settings command before after →
      motive before.repository → motive after.repository)
    (seeded : ∀ (seed : Seed) configured ids repository,
      (seed.build configured ids).1 = .done repository → motive repository)
    (ids : IdSource) (course : List Event) :
    motive ((start settings ids).after course).repository := by
  -- The settings go along: a step is one under the settings of the start.
  have reached : ((start settings ids).after course).settings = settings ∧
      motive ((start settings ids).after course).repository := by
    refine after_keeps (motive := fun session => session.settings = settings ∧ motive session.repository)
      ?_ course ⟨rfl, fresh⟩
    intro session event held
    obtain ⟨sameSettings, holds⟩ := held
    rw [← sameSettings] at stepped
    cases event with
    | typed line =>
        refine ⟨(execute_settings session line).trans sameSettings, ?_⟩
        change motive (session.execute line).2.toState.repository
        rw [execute_evaluate]
        exact evaluate_keeps session stepped _ holds
    | evaluated line =>
        exact ⟨(evaluate_settings session line).trans sameSettings,
          evaluate_keeps session stepped line holds⟩
    | loaded seed =>
        refine ⟨(load_settings session seed).trans sameSettings, ?_⟩
        change motive (session.load seed).2.repository
        rcases load_state session seed with same | built
        · rw [same]
          exact holds
        · exact seeded seed _ _ _ built
  exact reached.2

end Session

end GitPractice
