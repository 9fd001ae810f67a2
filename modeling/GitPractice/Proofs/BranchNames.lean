import GitPractice.Proofs.Frame
import GitPractice.Proofs.Grammar
import GitPractice.Proofs.WellFormed

set_option autoImplicit false

namespace GitPractice

open Line

theorem Line.Token.quoted_of_blank {token : Token} (valid : token.WellFormed)
    (blank : Text.isBlankText token.text = true) : token.quoted = true := by
  rcases valid with quoted | ⟨c, rest, started, _, filled⟩
  · exact quoted
  · rw [Text.isBlankText, started, List.all_cons, filled] at blank
    exact absurd blank Bool.false_ne_true

namespace Command

def newBranch? : Command → Option String
  | .checkoutNew branch | .createBranch branch => some branch
  | _ => none

theorem read_checkout_new {args : List Token} {branch : String}
    (accepted : readCheckout args = .ok (.checkoutNew branch)) : ∃ token ∈ args, token.text = branch := by
  have elsewhere (others : List Token) : readOperandCheckout others ≠ .ok (.checkoutNew branch) := by
    rw [readOperandCheckout]
    cases operands others <;> simp
  cases args with
  | nil => exact absurd accepted (elsewhere [])
  | cons first rest =>
      simp only [readCheckout] at accepted
      by_cases cuts : first.isExactly "-b" = true
      · rw [if_pos cuts] at accepted
        cases rest with
        | nil => cases accepted
        | cons name more =>
            cases accepted
            exact ⟨name, by simp, rfl⟩
      · rw [if_neg cuts] at accepted
        exact absurd accepted (elsewhere _)

theorem read_create_branch {args : List Token} {branch : String}
    (accepted : readBranch args = .ok (.createBranch branch)) : ∃ token ∈ args, token.text = branch := by
  cases args with
  | nil => cases accepted
  | cons first rest =>
      simp only [readBranch] at accepted
      by_cases flag : first.isFlag = true
      · rw [if_pos flag] at accepted
        by_cases deletes : deleteFlags.contains first.text = true
        · rw [if_pos deletes] at accepted
          cases rest <;> cases accepted
        · rw [if_neg deletes] at accepted
          cases accepted
      · rw [if_neg flag] at accepted
        cases accepted
        exact ⟨first, List.mem_cons_self, rfl⟩

theorem parse_new_branch {line name : String} {command : Command} (accepted : parse line = .ok command)
    (named : command.newBranch? = some name) : ∃ token ∈ tokenize line, token.text = name := by
  rcases parse_source accepted with ⟨topic, rfl⟩ | ⟨args, sub, within, made⟩
  · cases named
  · have belongs := read_belongs args sub command made
    cases command with
    | checkoutNew branch =>
        cases belongs
        cases named
        obtain ⟨token, present, isName⟩ := read_checkout_new made
        exact ⟨token, within token present, isName⟩
    | createBranch branch =>
        cases belongs
        cases named
        obtain ⟨token, present, isName⟩ := read_create_branch made
        exact ⟨token, within token present, isName⟩
    | _ => cases named

end Command

namespace Event

def tokens : Event → List Token
  | .typed line => tokenize (Text.trimmed line)
  | .evaluated line => tokenize line
  | .loaded _ => []

def newBranch? (event : Event) : Option String := event.command?.bind Command.newBranch?

theorem new_branch_token {event : Event} {name : String} (named : event.newBranch? = some name) :
    ∃ token ∈ event.tokens, token.text = name := by
  have read (line : String) (named : (Command.parse line).toOption.bind Command.newBranch? = some name) :
      ∃ token ∈ tokenize line, token.text = name := by
    cases parsed : Command.parse line with
    | error fault => simp [parsed, Except.toOption] at named
    | ok command =>
        rw [parsed] at named
        exact Command.parse_new_branch parsed named
  cases event with
  | typed line => exact read (Text.trimmed line) named
  | evaluated line => exact read line named
  | loaded seed => cases named

theorem tokens_well_formed (event : Event) : ∀ token ∈ event.tokens, token.WellFormed := by
  cases event with
  | typed line => exact scan_well_formed .between _ trivial
  | evaluated line => exact scan_well_formed .between _ trivial
  | loaded seed => exact fun token present => absurd present List.not_mem_nil

end Event

theorem Seed.build_names {seed : Seed} {configured : Signature} {ids : IdSource} {repository : Repository}
    (built : (seed.build configured ids).1 = .done repository) :
    ∀ branch ∈ repository.branches, Text.isBlankText branch = false := by
  have checked : seed.branches.any Text.isBlankText = false := by
    rw [Bool.eq_false_iff]
    intro blank
    rw [build, if_pos blank] at built
    cases built
  obtain ⟨start, commits, _, _, rfl⟩ := build_done seed configured ids repository built
  intro branch present
  have listed := (mem_distinct branch seed.branches).mp present
  exact Bool.eq_false_iff.mpr (List.any_eq_false.mp checked branch listed)

theorem Action.checkout_new_branches (state : State) (name : String) :
    ((checkoutNew name).run state).2.repository.branches = state.repository.branches ∨
      ((checkoutNew name).run state).2.repository.branches = state.repository.branches ++ [name] := by
  rw [checkout_new_planned, Plan.checkoutNew]
  split
  · exact .inl rfl
  · cases drawn : state.ids.peek with
    | interrupted reason => exact .inl (by simp only [Plan.carryOut, drawn])
    | id id => exact .inr (by simp only [Plan.carryOut, drawn]; rfl)

namespace Session

variable (session : Session)

theorem run_names (command : Command) {branch : String}
    (present : branch ∈ (session.run command).2.repository.branches) :
    branch ∈ session.repository.branches ∨ branch = session.settings.defaultBranch ∨
      command.newBranch? = some branch := by
  have kept : Part.branches ∉ command.reach →
      (session.run command).2.repository.branches = session.repository.branches :=
    Action.of_command_kept session.settings session.toState command .branches
  have last {name : String} (isName : command.newBranch? = some name)
      (listed : branch ∈ session.repository.branches ++ [name]) :
      branch ∈ session.repository.branches ∨ branch = session.settings.defaultBranch ∨
        command.newBranch? = some branch := by
    rcases List.mem_append.mp listed with old | new
    · exact .inl old
    · exact .inr (.inr (List.mem_singleton.mp new ▸ isName))
  cases command with
  | checkoutNew name =>
      apply last rfl
      rcases Action.checkout_new_branches session.toState name with same | appended
      · exact List.mem_append_left [name] (same ▸ present)
      · exact appended ▸ present
  | createBranch name =>
      apply last rfl
      rw [run, conduct, Action.ofCommand, Action.create_branch_branches] at present
      split at present
      · exact List.mem_append_left [name] present
      · exact present
  | deleteBranch name =>
      rw [run, conduct, Action.ofCommand, Action.delete_branch_branches] at present
      split at present
      · exact .inl present
      · exact .inl (List.mem_of_mem_filter present)
  | init => exact .inr (.inl (List.mem_singleton.mp present))
  -- No other command reaches the labels.
  | _ =>
      rw [kept (by simp [Command.reach])] at present
      exact .inl present

theorem load_names (seed : Seed) {branch : String}
    (present : branch ∈ (session.load seed).2.repository.branches) :
    branch ∈ session.repository.branches ∨ Text.isBlankText branch = false := by
  rcases load_state session seed with same | built
  · exact .inl (same ▸ present)
  · exact .inr (Seed.build_names built branch present)

theorem apply_names (event : Event) {branch : String} (blank : Text.isBlankText branch = true)
    (filled : Text.isBlankText session.settings.defaultBranch = false)
    (present : branch ∈ (session.apply event).repository.branches) :
    branch ∈ session.repository.branches ∨ event.newBranch? = some branch := by
  cases apply_effect session event with
  | ran command asked state =>
      rw [state] at present
      rcases run_names session command present with old | default | named
      · exact .inl old
      · rw [← default, blank] at filled
        cases filled
      · refine .inr ?_
        rw [Event.newBranch?, asked]
        exact named
  | loaded seed given =>
      subst given
      rcases load_names session seed present with old | filledName
      · exact .inl old
      · rw [blank] at filledName
        cases filledName
  | idle asked state =>
      rw [state] at present
      exact .inl present

theorem after_names (course : List Event) {branch : String} (blank : Text.isBlankText branch = true)
    (filled : Text.isBlankText session.settings.defaultBranch = false)
    (present : branch ∈ (session.after course).repository.branches) :
    branch ∈ session.repository.branches ∨ ∃ event ∈ course, event.newBranch? = some branch := by
  induction course generalizing session with
  | nil => exact .inl present
  | cons event rest ih =>
      have settings : (session.apply event).settings = session.settings := after_settings session [event]
      rcases ih (session.apply event) (settings ▸ filled) present with earlier | ⟨later, held, named⟩
      · refine (apply_names session event blank filled earlier).imp id ?_
        intro named
        exact ⟨event, List.mem_cons_self, named⟩
      · exact .inr ⟨later, List.mem_cons_of_mem event held, named⟩

theorem evaluate_rebase_unknown {session : Session} {line base : String}
    (asked : Command.parse line = .ok (.rebase base)) (unknown : base ∉ session.repository.branches) :
    session.evaluate line = (.refused (.unknownBranch base .rebase), session) := by
  have absent : session.repository.hasBranch base = false := by
    rw [Bool.eq_false_iff, ne_eq, Repository.has_branch_iff]
    exact unknown
  simp only [evaluate, asked, run, conduct, Action.of_command_planned, Plan.ofCommand, Plan.rebase, absent]
  rfl

theorem blank_names_quoted (settings : Settings) (ids : IdSource) (course : List Event)
    (filled : Text.isBlankText settings.defaultBranch = false) :
    let session := (start settings ids).after course
    (∀ branch ∈ session.repository.branches, Text.isBlankText branch = true →
      ∃ event ∈ course, event.newBranch? = some branch ∧
        ∃ token ∈ event.tokens, token.text = branch ∧ token.quoted = true) ∧
    ((∀ event ∈ course, ∀ branch, event.newBranch? = some branch → Text.isBlankText branch = false) →
      (∀ branch ∈ session.repository.branches, Text.isBlankText branch = false) ∧
        Text.isBlankText session.repository.current = false) ∧
    ((∀ event ∈ course, event.newBranch? ≠ some "") →
      ∀ line, Command.parse line = .ok (.rebase "") →
        session.evaluate line = (.refused (.unknownBranch "" .rebase), session)) ∧
    (∀ branch, branch ∈ (session.run (.createBranch branch)).2.repository.branches) := by
  intro session
  have asked {branch : String} (present : branch ∈ session.repository.branches)
      (blank : Text.isBlankText branch = true) : ∃ event ∈ course, event.newBranch? = some branch := by
    refine (after_names (start settings ids) course blank filled present).resolve_left ?_
    intro first
    obtain rfl : branch = settings.defaultBranch := List.mem_singleton.mp first
    rw [filled] at blank
    cases blank
  refine ⟨?_, ?_, ?_, ?_⟩
  · intro branch present blank
    obtain ⟨event, held, named⟩ := asked present blank
    obtain ⟨token, listed, isName⟩ := Event.new_branch_token named
    have quoted := token.quoted_of_blank (event.tokens_well_formed token listed) (isName ▸ blank)
    exact ⟨event, held, named, token, listed, isName, quoted⟩
  · intro named
    have nonblank : ∀ branch ∈ session.repository.branches, Text.isBlankText branch = false := by
      intro branch present
      rw [Bool.eq_false_iff]
      intro blank
      obtain ⟨event, held, isNew⟩ := asked present blank
      rw [named event held branch isNew] at blank
      cases blank
    exact ⟨nonblank, nonblank _ (after_well_formed settings ids course).1⟩
  · intro unnamed line rebases
    refine evaluate_rebase_unknown rebases ?_
    intro present
    obtain ⟨event, held, isNew⟩ := asked present rfl
    exact unnamed event held isNew
  · intro branch
    rw [run, conduct, Action.ofCommand, Action.create_branch_branches]
    split
    · rename_i known
      exact (Repository.has_branch_iff session.repository branch).mp known
    · exact List.mem_append_right _ (List.mem_singleton_self branch)

def quotedCourse : List Event := [.typed " git checkout -b dev", .evaluated "git branch ' '"]

theorem quoted_course_names :
    let session := (start {} .sequential).after quotedCourse
    (∃ event ∈ quotedCourse, event.newBranch? = some " " ∧
      ∃ token ∈ event.tokens, token.text = " " ∧ token.quoted = true) ∧
    session.evaluate "git rebase" = (.refused (.unknownBranch "" .rebase), session) ∧
    Text.isBlankText ((start {} .sequential).after [.typed "git branch dev"]).repository.current = false := by
  obtain ⟨asked, _, refused, _⟩ := blank_names_quoted {} .sequential quotedCourse (by decide)
  obtain ⟨_, named, _⟩ := blank_names_quoted {} .sequential [.typed "git branch dev"] (by decide)
  have first : (Event.typed " git checkout -b dev").newBranch? = some "dev" := rfl
  have second : (Event.evaluated "git branch ' '").newBranch? = some " " := rfl
  have only : (Event.typed "git branch dev").newBranch? = some "dev" := rfl
  refine ⟨asked " " (by decide) (by decide), refused ?_ "git rebase" rfl, (named ?_).2⟩
  · simp [quotedCourse, first, second]
  · simp [only]
    decide

theorem empty_name_taken :
    let settings : Settings := {}
    let session := (start settings .sequential).after [.typed "git branch \"\""]
    Text.isBlankText settings.defaultBranch = false ∧
      "" ∈ session.repository.branches ∧ Text.isBlankText "" = true ∧
      (session.evaluate "git rebase").1.isDone = true := by
  decide

end Session

end GitPractice
