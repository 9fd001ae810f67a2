import GitPractice.Proofs.Planned
import GitPractice.Session.Event

set_option autoImplicit false

namespace GitPractice

inductive Part where
  | current
  | branches
  | commits
  | staged
  | config
  | ids
deriving DecidableEq, Repr

def Part.Kept (before after : State) : Part → Prop
  | .current => after.repository.current = before.repository.current
  | .branches => after.repository.branches = before.repository.branches
  | .commits => after.repository.commits = before.repository.commits
  | .staged => after.repository.staged = before.repository.staged
  | .config => after.config = before.config
  | .ids => after.ids = before.ids

/-- The parts that a command can change. A command that records draws an id as well. -/
def Command.reach : Command → List Part
  | .commit _ _ => [.commits, .staged, .ids]
  | .checkoutNew _ => [.current, .branches, .commits, .ids]
  | .checkout _ => [.current]
  | .merge _ _ => [.current, .commits, .ids]
  | .rebase _ => [.commits, .ids]
  | .init => [.current, .branches, .commits, .staged]
  | .addAll | .addPaths _ => [.staged]
  | .createBranch _ | .deleteBranch _ => [.branches]
  | .setConfig _ _ => [.config]
  | .help _ | .status | .listBranches | .push _ _ | .pull _ _ | .fetch | .diff | .listConfig
  | .getConfig _ | .log _ _ | .display _ => []

theorem Command.idle_iff_reach (command : Command) :
    command.mutates = false ↔ command.reach = [] := by
  cases command <;> simp [mutates, reach]

theorem Part.kept_self (state : State) (part : Part) : part.Kept state state := by
  cases part <;> rfl

theorem Part.kept_through {first second third : State} {part : Part} (before : part.Kept first second)
    (after : part.Kept second third) : part.Kept first third := by
  cases part <;> exact Eq.trans after before

theorem Part.kept_widened {parts more : List Part} {before after : State} (wider : parts ⊆ more)
    (kept : ∀ part ∉ parts, part.Kept before after) : ∀ part ∉ more, part.Kept before after := by
  intro part outside
  apply kept part
  intro listed
  exact outside (wider listed)

theorem Part.all_kept {before after : State} (kept : ∀ part, Part.Kept before after part) :
    after = before := by
  obtain ⟨⟨current, branches, commits, staged⟩, config, ids⟩ := before
  obtain ⟨⟨_, _, _, _⟩, _, _⟩ := after
  obtain rfl := kept .current
  obtain rfl := kept .branches
  obtain rfl := kept .commits
  obtain rfl := kept .staged
  obtain rfl := kept .config
  obtain rfl := kept .ids
  rfl

namespace Repository

variable (state : State)

theorem switch_kept (branch : String) :
    ∀ part ∉ [Part.current], part.Kept state { state with repository := state.repository.switch branch } := by
  intro part outside
  cases part with
  | current => exact absurd List.mem_cons_self outside
  | branches | commits | staged | config | ids => rfl

theorem add_branch_kept (branch : String) :
    ∀ part ∉ [Part.branches],
      part.Kept state { state with repository := state.repository.addBranch branch } := by
  intro part outside
  cases part with
  | branches => exact absurd List.mem_cons_self outside
  | current | commits | staged | config | ids => rfl

theorem remove_branch_kept (branch : String) :
    ∀ part ∉ [Part.branches],
      part.Kept state { state with repository := state.repository.removeBranch branch } := by
  intro part outside
  cases part with
  | branches => exact absurd List.mem_cons_self outside
  | current | commits | staged | config | ids => rfl

theorem stage_kept (files : List String) :
    ∀ part ∉ [Part.staged], part.Kept state { state with repository := state.repository.stage files } := by
  intro part outside
  cases part with
  | staged => exact absurd List.mem_cons_self outside
  | current | branches | commits | config | ids => rfl

theorem unstage_kept :
    ∀ part ∉ [Part.staged], part.Kept state { state with repository := state.repository.unstage } := by
  intro part outside
  cases part with
  | staged => exact absurd List.mem_cons_self outside
  | current | branches | commits | config | ids => rfl

end Repository

namespace Plan

def Within (parts : List Part) (state : State) : Plan → Prop
  | .refuse _ | .answer _ => True
  | .change _ repository => ∀ part ∉ parts, part.Kept state { state with repository := repository }
  | .configure _ _ _ => .config ∈ parts
  | .record _ onto _ => .commits ∈ parts ∧ .ids ∈ parts ∧
      ∀ part ∉ parts, part.Kept state { state with repository := onto }

theorem carry_out_within {plan : Plan} {parts : List Part} {state : State}
    (within : plan.Within parts state) :
    ∀ part ∉ parts, part.Kept state (plan.carryOut.run state).2 := by
  intro part outside
  cases plan with
  | refuse error => exact Part.kept_self state part
  | answer text => exact Part.kept_self state part
  | change text repository => exact within part outside
  | configure text key value =>
      cases part with
      | config => exact absurd within outside
      | current | branches | commits | staged | ids => rfl
  | record draft onto report =>
      obtain ⟨commits, ids, others⟩ := within
      cases drawn : state.ids.peek with
      | interrupted reason =>
          simp only [carryOut, drawn]
          cases part with
          | ids => exact absurd ids outside
          | current | branches | commits | staged | config => rfl
      | id id =>
          simp only [carryOut, drawn]
          cases part with
          | ids => exact absurd ids outside
          | commits => exact absurd commits outside
          | current => exact others .current outside
          | branches => exact others .branches outside
          | staged => exact others .staged outside
          | config => rfl

section
variable (settings : Settings) (state : State)

theorem of_except_within (parts : List Part) (answer : Except Error String) :
    (ofExcept answer).Within parts state := by
  cases answer with
  | ok text => trivial
  | error error => trivial

theorem commit_within (message : Option String) (author : Option Author) :
    (commit state.config.signature state.repository message author).Within
      [.commits, .staged, .ids] state := by
  rw [commit]
  split
  · trivial
  · exact ⟨by decide, by decide, Part.kept_widened (by simp) (Repository.unstage_kept state)⟩

theorem checkout_new_within (branch : String) :
    (checkoutNew state.config.signature state.repository branch).Within
      [.current, .branches, .commits, .ids] state := by
  rw [checkoutNew]
  split
  · trivial
  · refine ⟨by decide, by decide, ?_⟩
    intro part outside
    refine Part.kept_through (Part.kept_widened ?_ (Repository.add_branch_kept state branch) part outside) ?_
    · simp
    · exact Part.kept_widened (by simp) (Repository.switch_kept _ branch) part outside

theorem checkout_within (branch : String) :
    (checkout state.repository branch).Within [.current] state := by
  rw [checkout]
  split
  · exact Repository.switch_kept state branch
  · trivial

/-- A merge into the branch it stands on is a switch; any other one records on top of the switch. -/
theorem merge_known_within (source target : String) (moves : Bool) :
    (mergeKnown state.config.signature state.repository source target moves).Within
      [.current, .commits, .ids] state := by
  have moved : ∀ part ∉ [Part.current, .commits, .ids],
      part.Kept state { state with repository := state.repository.switch target } :=
    Part.kept_widened (by simp) (Repository.switch_kept state target)
  simp only [mergeKnown]
  split
  · exact moved
  · split
    · trivial
    · exact ⟨by decide, by decide, moved⟩

theorem merge_within (source target : Option String) :
    (merge state.config.signature state.repository source target).Within
      [.current, .commits, .ids] state := by
  simp only [merge]
  split
  · trivial
  · split
    · trivial
    · split
      · exact merge_known_within state _ _ _
      · trivial

theorem rebase_within (base : String) :
    (rebase state.config.signature state.repository base).Within [.commits, .ids] state := by
  rw [rebase]
  split
  · split
    · trivial
    · refine ⟨by decide, by decide, ?_⟩
      intro part outside
      exact Part.kept_self state part
  · trivial

theorem init_within : (init settings).Within [.current, .branches, .commits, .staged] state := by
  intro part outside
  cases part with
  | current | branches | commits | staged => exact absurd (by decide) outside
  | config | ids => rfl

theorem add_paths_within (paths : List String) :
    (addPaths state.repository paths).Within [.staged] state := by
  cases paths with
  | nil => trivial
  | cons path more => exact Repository.stage_kept state (path :: more)

theorem create_branch_within (branch : String) :
    (createBranch state.repository branch).Within [.branches] state := by
  rw [createBranch]
  split
  · trivial
  · exact Repository.add_branch_kept state branch

theorem delete_branch_within (branch : String) :
    (deleteBranch settings state.repository branch).Within [.branches] state := by
  rw [deleteBranch]
  split
  · trivial
  · split
    · exact Repository.remove_branch_kept state branch
    · trivial

theorem of_command_within (command : Command) :
    (ofCommand settings state.config state.repository command).Within command.reach state := by
  cases command with
  | help topic => exact of_except_within state _ _
  | commit message author => exact commit_within state message author
  | checkoutNew branch => exact checkout_new_within state branch
  | checkout branch => exact checkout_within state branch
  | merge source target => exact merge_within state source target
  | rebase base => exact rebase_within state base
  | init => exact init_within settings state
  | addAll => exact Repository.stage_kept state settings.everyFile
  | addPaths paths => exact add_paths_within state paths
  | createBranch branch => exact create_branch_within state branch
  | deleteBranch branch => exact delete_branch_within settings state branch
  | getConfig key => exact of_except_within state _ _
  | setConfig key value => exact List.mem_singleton_self Part.config
  | log oneline graph => exact of_except_within state _ _
  | display revision => exact of_except_within state _ _
  | status | listBranches | push _ _ | pull _ _ | fetch | diff | listConfig => trivial

end

end Plan

namespace Action

variable (settings : Settings) (state : State)

theorem of_command_kept (command : Command) :
    ∀ part ∉ command.reach, part.Kept state ((ofCommand settings command).run state).2 := by
  rw [of_command_planned]
  exact Plan.carry_out_within (Plan.of_command_within settings state command)

theorem of_command_idle (command : Command) (idle : command.mutates = false) :
    ((ofCommand settings command).run state).2 = state := by
  have nothing := (Command.idle_iff_reach command).mp idle
  apply Part.all_kept
  intro part
  apply of_command_kept settings state command part
  rw [nothing]
  exact List.not_mem_nil

theorem create_branch_branches (branch : String) :
    ((createBranch branch).run state).2.repository.branches =
      if state.repository.hasBranch branch then state.repository.branches
      else state.repository.branches ++ [branch] := by
  rw [create_branch_planned, Plan.createBranch]
  split
  · rfl
  · rfl

theorem delete_branch_branches (branch : String) :
    ((deleteBranch settings branch).run state).2.repository.branches =
      if branch = state.repository.current then state.repository.branches
      else state.repository.branches.filter (· != branch) := by
  rw [delete_branch_planned, Plan.deleteBranch]
  split
  · rfl
  · cases known : state.repository.hasBranch branch with
    | true => rfl
    | false =>
        have same := Repository.remove_branch_of_unknown state.repository branch known
        exact (congrArg Repository.branches same).symm

theorem command_frame (settings : Settings) (command : Command) (state : State) :
    let after := ((ofCommand settings command).run state).2
    (command.mutates = false → after = state) ∧
    (∀ part ∉ command.reach, part.Kept state after) ∧
    (∀ key value, command = .setConfig key value →
      after.config.value? key = some value ∧
        ∀ other ≠ key, after.config.value? other = state.config.value? other) ∧
    (∀ branch, command = .createBranch branch →
      after.repository.branches =
        if state.repository.hasBranch branch then state.repository.branches
        else state.repository.branches ++ [branch]) ∧
    (∀ branch, command = .deleteBranch branch →
      after.repository.branches =
        if branch = state.repository.current then state.repository.branches
        else state.repository.branches.filter (· != branch)) ∧
    (command = .init → after.repository = .fresh settings.defaultBranch) := by
  intro after
  refine ⟨of_command_idle settings state command, of_command_kept settings state command, ?_, ?_, ?_, ?_⟩
  · rintro key value rfl
    refine ⟨Config.value_set_same state.config key value, ?_⟩
    intro other different
    exact Config.value_set_other state.config value different
  · rintro branch rfl
    exact create_branch_branches state branch
  · rintro branch rfl
    exact delete_branch_branches settings state branch
  · rintro rfl
    rfl

def practised : State :=
  ((Session.start {} .sequential).after
    [.evaluated "git branch dev", .evaluated "git add a.txt", .evaluated "git checkout -b topic"]).toState

theorem practised_frame :
    ((ofCommand {} (.log true false)).run practised).2 = practised ∧
    (((ofCommand {} (.merge (some "topic") (some "dev"))).run practised).2.repository.staged = ["a.txt"] ∧
      ((ofCommand {} (.merge (some "topic") (some "dev"))).run practised).2.repository.current = "dev") ∧
    ((ofCommand {} (.setConfig "user.name" "Ada")).run practised).2.config.value? "user.email" =
      some "learner@gitlearner.com" ∧
    ((ofCommand {} (.createBranch "next")).run practised).2.repository.branches =
      ["main", "dev", "topic", "next"] ∧
    ((ofCommand {} (.deleteBranch "dev")).run practised).2.repository.branches = ["main", "topic"] ∧
    ((ofCommand {} .init).run practised).2.repository = .fresh "main" := by
  obtain ⟨idle, _⟩ := command_frame {} (.log true false) practised
  obtain ⟨_, kept, _⟩ := command_frame {} (.merge (some "topic") (some "dev")) practised
  obtain ⟨_, _, set, _⟩ := command_frame {} (.setConfig "user.name" "Ada") practised
  obtain ⟨_, _, _, created, _⟩ := command_frame {} (.createBranch "next") practised
  obtain ⟨_, _, _, _, deleted, _⟩ := command_frame {} (.deleteBranch "dev") practised
  obtain ⟨_, _, _, _, _, emptied⟩ := command_frame {} .init practised
  refine ⟨idle rfl, ⟨?_, by decide⟩, ?_, ?_, ?_, emptied rfl⟩
  · exact kept .staged (by decide)
  · exact (set "user.name" "Ada" rfl).2 "user.email" (by decide)
  · exact created "next" rfl
  · exact deleted "dev" rfl

end Action

end GitPractice
