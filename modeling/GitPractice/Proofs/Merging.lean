import GitPractice.Proofs.History
import GitPractice.Proofs.Lookup
import GitPractice.Proofs.Provenance

set_option autoImplicit false

namespace GitPractice

def lastLine (branch : String) (commits : List Commit) : String :=
  match lastOn branch commits with
  | some commit => "  " ++ commit.shortId ++ " " ++ commit.message
  | none => "  unknown"

def unshared (source target : String) (commits : List Commit) : List Commit :=
  commits.filter fun commit =>
    commit.branch = source ∧ ∀ other ∈ commits, other.branch = target → other.id ≠ commit.id

def enteredLine (target : String) : String := "Switched to branch '" ++ target ++ "'"

def mergeReport (source into : String) (target : Option String) (commits : List Commit) : String :=
  "\n".intercalate (target.toList.map enteredLine ++
    ["Merge made by the 'ort' strategy.", "Merging:", lastLine source commits, lastLine into commits,
     foundLine (unshared source into commits).length source into])

def mergeCommit (state : State) (signature : Signature) (source into id : String) : Commit where
  id := id
  message := "Merge branch '" ++ source ++ "' into " ++ into
  signature := signature
  timestamp := Clock.timeOf state.repository.commits.length
  branch := into
  mergedFrom := some source
  mergedInto := some into

/-- The cases of a merge, each under the conditions that the ones before it leave. -/
inductive Merged (before : State) (source target : Option String) : Outcome String → State → Prop where
  | targetUnknown (name : String) (named : target = some name) (unknown : name ∉ before.repository.branches) :
      Merged before source target (.refused (.unknownBranch name .mergeTarget)) before
  | sourceMissing (reachable : ∀ name ∈ target, name ∈ before.repository.branches) (unnamed : source = none) :
      Merged before source target (.refused .missingSource) before
  | sourceUnknown (reachable : ∀ name ∈ target, name ∈ before.repository.branches) (name : String)
      (named : source = some name) (unknown : name ∉ before.repository.branches) :
      Merged before source target (.refused (.unknownBranch name .mergeSource)) before
  | intoItself (reachable : ∀ name ∈ target, name ∈ before.repository.branches) (name : String)
      (named : source = some name) (known : name ∈ before.repository.branches)
      (same : name = target.getD before.repository.current) :
      Merged before source target
        (.done ("\n".intercalate (target.toList.map enteredLine ++ ["Already up to date."])))
        { before with repository := { before.repository with current := name } }
  | sourceEmpty (reachable : ∀ name ∈ target, name ∈ before.repository.branches) (name : String)
      (named : source = some name) (known : name ∈ before.repository.branches)
      (apart : name ≠ target.getD before.repository.current)
      (empty : ∀ commit ∈ before.repository.commits, commit.branch ≠ name) :
      Merged before source target (.refused (.emptySource name)) before
  | recorded (reachable : ∀ name ∈ target, name ∈ before.repository.branches) (name into id : String)
      (named : source = some name) (known : name ∈ before.repository.branches)
      (goal : into = target.getD before.repository.current) (apart : name ≠ into)
      (filled : ∃ commit ∈ before.repository.commits, commit.branch = name) (drawn : before.ids.peek = .id id)
      (signature : Signature) (signs : before.config.Signs signature) :
      Merged before source target (.done (mergeReport name into target before.repository.commits))
        { before with
          repository :=
            { before.repository with
              current := into
              commits := before.repository.commits ++ [mergeCommit before signature name into id] }
          ids := before.ids.next }

theorem summary_line_last (repository : Repository) (branch : String) :
    Answer.summaryLine (repository.commitsOn branch).getLast? = lastLine branch repository.commits := by
  rw [lastLine, lastOn, Repository.commitsOn]
  cases (repository.commits.filter (·.branch == branch)).getLast? with
  | none => rfl
  | some commit => simp only [Answer.summaryLine, Commit.oneline, String.append_assoc]

theorem new_count_unshared (repository : Repository) (source target : String) :
    Answer.newCount (repository.commitsOn source) (repository.commitsOn target) =
      (unshared source target repository.commits).length := by
  have onSource : repository.commitsOn source = repository.commits.filter (·.branch == source) := rfl
  rw [Answer.newCount, onSource, List.countP_filter, unshared, ← List.countP_eq_length_filter]
  refine List.countP_congr fun commit _ => ?_
  simp only [Repository.commitsOn, List.any_filter, Bool.and_eq_true, Bool.not_eq_true', List.any_eq_false,
    beq_iff_eq, decide_eq_true_eq, not_and]
  exact and_comm

theorem opening_lines {target : Option String} {current into : String} (goal : into = target.getD current) :
    (if target.isSome then [Answer.switched into] else []) = target.toList.map enteredLine := by
  cases target with
  | none => rfl
  | some name =>
      rw [goal]
      rfl

section
variable {state : State} {source target : Option String}

theorem known_target (reachable : ∀ name ∈ target, name ∈ state.repository.branches) :
    (target.filter fun branch => !state.repository.hasBranch branch) = none := by
  rw [Option.filter_eq_none_iff]
  intro name named
  simp [Repository.hasBranch, reachable name named]

theorem merge_known_decided (steady : state.ids.Steady)
    (reachable : ∀ name ∈ target, name ∈ state.repository.branches) {name into : String}
    (named : source = some name) (known : name ∈ state.repository.branches)
    (goal : into = target.getD state.repository.current) :
    let plan := Plan.mergeKnown state.config.signature state.repository name into target.isSome
    Merged state source target (plan.carryOut.run state).1 (plan.carryOut.run state).2 := by
  intro plan
  have opening := opening_lines goal
  by_cases same : name = into
  · have stays : plan = .change ("\n".intercalate (target.toList.map enteredLine ++ ["Already up to date."]))
        (state.repository.switch name) := by
      simp only [plan, Plan.mergeKnown, if_pos same, opening, Answer.upToDate]
      rw [same]
    rw [stays]
    exact .intoItself reachable name named known (same.trans goal)
  · cases onSource : (state.repository.commitsOn name).isEmpty with
    | true =>
        have refused : plan = .refuse (.emptySource name) := by
          simp only [plan, Plan.mergeKnown, if_neg same, onSource, if_true]
        have empty : ∀ commit ∈ state.repository.commits, commit.branch ≠ name := by
          simpa [Repository.commitsOn] using onSource
        rw [refused]
        exact .sourceEmpty reachable name named known (goal ▸ same) empty
    | false =>
        have filled : ∃ commit ∈ state.repository.commits, commit.branch = name := by
          simpa [Repository.commitsOn] using onSource
        obtain ⟨id, given⟩ := steady state.ids.drawn
        have drawn : state.ids.peek = .id id := given
        have records : plan = .record
            { message := Plan.mergeMessage name into
              signature := state.config.signature
              branch := into
              merge := some (name, into) }
            (state.repository.switch into)
            fun _ => mergeReport name into target state.repository.commits := by
          simp only [plan, Plan.mergeKnown, if_neg same, opening, Answer.mergeSummary, summary_line_last,
            new_count_unshared, onSource, Bool.false_eq_true, if_false]
          rfl
        rw [records]
        simp only [Plan.carryOut, drawn]
        exact .recorded reachable name into id named known goal same filled drawn _ ((state.config.signs_iff _).mpr rfl)

theorem merged_failed {outcome : Outcome String} {after : State} (merged : Merged state source target outcome after)
    (failed : outcome.isDone = false) : after = state := by
  cases merged with
  | targetUnknown | sourceMissing | sourceUnknown | sourceEmpty => rfl
  | intoItself | recorded => cases failed

end

theorem merge_decided (settings : Settings) (state : State) (steady : state.ids.Steady)
    (source target : Option String) :
    let result := (Action.ofCommand settings (.merge source target)).run state
    Merged state source target result.1 result.2 ∧ (result.1.isDone = false → result.2 = state) := by
  intro result
  have planned : result = (Plan.merge state.config.signature state.repository source target).carryOut.run state :=
    Action.merge_planned state source target
  have decided : Merged state source target result.1 result.2 := by
    simp only [planned, Plan.merge]
    by_cases reachable : ∀ name ∈ target, name ∈ state.repository.branches
    · rw [known_target reachable]
      cases named : source with
      | none => exact .sourceMissing reachable rfl
      | some name =>
          by_cases known : name ∈ state.repository.branches
          · have found := (state.repository.has_branch_iff name).mpr known
            simp only [found, if_true]
            exact merge_known_decided steady reachable rfl known rfl
          · have missing : state.repository.hasBranch name = false := by simpa [Repository.hasBranch] using known
            simp only [missing, Bool.false_eq_true, if_false]
            exact .sourceUnknown reachable name rfl known
    · obtain ⟨name, named, unknown⟩ : ∃ name, target = some name ∧ name ∉ state.repository.branches := by
        simpa using reachable
      have missing : state.repository.hasBranch name = false := by simpa [Repository.hasBranch] using unknown
      simp only [named, Option.filter_some, missing, Bool.not_false, if_true]
      exact .targetUnknown name rfl unknown
  exact ⟨decided, merged_failed decided⟩

def forked : State :=
  ((Session.start {} .sequential).load
    { branches := ["main", "dev", "topic"]
      commits := [{ branch := "main", message := "Base" },
        { branch := "dev", message := "Copy", id := some "0000001" }, { branch := "dev", message := "Try" }]
      current := some "topic"
      staged := ["a.txt"] }).2.toState

/-- Its name is set and its address is empty. -/
def adaForked : State := { forked with config := (Config.defaults.set "user.name" "Ada").set "user.email" "" }

def adaMerge : Commit where
  id := "0000003"
  message := "Merge branch 'dev' into main"
  signature := ⟨"Ada", "learner@gitlearner.com"⟩
  timestamp := 1640996100000
  branch := "main"
  mergedFrom := some "dev"
  mergedInto := some "main"

theorem forked_merges_decided :
    adaForked.ids.Steady ∧
    Merged adaForked (some "dev") (some "main")
      (.done ("Switched to branch 'main'\nMerge made by the 'ort' strategy.\nMerging:\n  0000002 Try\n" ++
        "  0000001 Base\nfound 1 commit(s) from 'dev' to merge into 'main'."))
      { adaForked with
        repository :=
          { adaForked.repository with
            current := "main"
            commits := adaForked.repository.commits ++ [adaMerge] }
        ids := adaForked.ids.next } ∧
    ((Action.ofCommand {} (.merge (some "topic") (some "main"))).run adaForked).2 = adaForked := by
  have steady : adaForked.ids.Steady := fun place => ⟨_, rfl⟩
  obtain ⟨decided, _⟩ := merge_decided {} adaForked steady (some "dev") (some "main")
  obtain ⟨_, kept⟩ := merge_decided {} adaForked steady (some "topic") (some "main")
  have told : ((Action.ofCommand {} (.merge (some "dev") (some "main"))).run adaForked).1 =
      .done ("Switched to branch 'main'\nMerge made by the 'ort' strategy.\nMerging:\n  0000002 Try\n" ++
        "  0000001 Base\nfound 1 commit(s) from 'dev' to merge into 'main'.") := by decide +kernel
  rw [told] at decided
  exact ⟨steady, decided, kept (by decide)⟩

/-- The first plan makes the changes of the second one, and tells of them under an opening line. -/
inductive Plan.Opens (opening : String) : Plan → Plan → Prop where
  | refuse (error : Error) : Opens opening (.refuse error) (.refuse error)
  | change (text : String) (repository : Repository) :
      Opens opening (.change (opening ++ "\n" ++ text) repository) (.change text repository)
  | record (draft : Draft) (onto : Repository) (report : Commit → String) :
      Opens opening (.record draft onto fun commit => opening ++ "\n" ++ report commit) (.record draft onto report)

namespace Plan

section
variable (configured : Signature) (repository : Repository)

theorem merge_known_opens (source target : String) :
    Opens (Answer.switched target) (mergeKnown configured repository source target true)
      (mergeKnown configured (repository.switch target) source target false) := by
  have sameCommits (branch : String) : (repository.switch target).commitsOn branch = repository.commitsOn branch := rfl
  have under (line : String) (lines : List String) :
      "\n".intercalate ([Answer.switched target] ++ line :: lines) =
        Answer.switched target ++ "\n" ++ "\n".intercalate (line :: lines) :=
    String.intercalate_cons_of_ne_nil (List.cons_ne_nil line lines)
  simp only [mergeKnown, sameCommits, if_true, Bool.false_eq_true, if_false, List.nil_append]
  by_cases same : source = target
  · rw [if_pos same, if_pos same, under]
    exact .change _ _
  · rw [if_neg same, if_neg same]
    cases (repository.commitsOn source).isEmpty with
    | true => exact .refuse _
    | false =>
        simp only [Answer.mergeSummary, under]
        exact .record _ _ _

theorem merge_opens (source : Option String) {target : String} (known : repository.hasBranch target = true) :
    Opens (Answer.switched target) (merge configured repository source (some target))
      (merge configured (repository.switch target) source none) := by
  have found : ((some target).filter fun branch => !repository.hasBranch branch) = none := by
    simp [Option.filter_some, known]
  simp only [merge, found, Option.filter_none]
  cases source with
  | none => exact .refuse _
  | some source =>
      have sameBranches : (repository.switch target).hasBranch source = repository.hasBranch source := rfl
      simp only [sameBranches]
      cases repository.hasBranch source with
      | true => exact merge_known_opens configured repository source target
      | false => exact .refuse _

end

theorem done_under {opening summary text : String} {reached after : State} :
    ((.done (opening ++ "\n" ++ summary), reached) : Outcome String × State) = (.done text, after) ↔
      ∃ told, ((.done summary, reached) : Outcome String × State) = (.done told, after) ∧
        text = opening ++ "\n" ++ told := by
  constructor
  · intro same
    cases same
    exact ⟨summary, rfl, rfl⟩
  · rintro ⟨told, same, rfl⟩
    cases same
    rfl

theorem carry_out_opens {opening : String} {whole part : Plan} (opens : Opens opening whole part)
    (before after : State) (moved : Repository) (text : String) :
    whole.carryOut.run before = (.done text, after) ↔
      ∃ told, part.carryOut.run { before with repository := moved } = (.done told, after) ∧
        text = opening ++ "\n" ++ told := by
  cases opens with
  | refuse error => simp [carryOut]
  | change summary repository => exact done_under
  | record draft onto report =>
      simp only [carryOut]
      cases before.ids.peek with
      | interrupted reason => simp
      | id id => exact done_under

end Plan

theorem merge_into_two_steps (settings : Settings) (before after : State) (source : Option String)
    (target text : String) :
    (Action.ofCommand settings (.merge source (some target))).run before = (.done text, after) ↔
      ∃ told moved summary,
        (Action.ofCommand settings (.checkout target)).run before = (.done told, moved) ∧
        (Action.ofCommand settings (.merge source none)).run moved = (.done summary, after) ∧
        text = told ++ "\n" ++ summary := by
  simp only [Action.of_command_planned, Plan.ofCommand]
  cases known : before.repository.hasBranch target with
  | false =>
      have merges : Plan.merge before.config.signature before.repository source (some target) =
          .refuse (.unknownBranch target .mergeTarget) := by
        simp only [Plan.merge, Option.filter_some, known, Bool.not_false, if_true]
      have moves : Plan.checkout before.repository target = .refuse (.unknownBranch target .checkout) := by
        simp only [Plan.checkout, known, Bool.false_eq_true, if_false]
      simp [merges, moves, Plan.carryOut]
  | true =>
      have moves : Plan.checkout before.repository target =
          .change (Answer.switched target) (before.repository.switch target) := by
        simp only [Plan.checkout, known, if_true]
      have opens := Plan.merge_opens before.config.signature before.repository source known
      rw [Plan.carry_out_opens opens before after (before.repository.switch target), moves]
      constructor
      · rintro ⟨summary, merged, whole⟩
        exact ⟨_, _, summary, rfl, merged, whole⟩
      · rintro ⟨_, _, summary, moved, merged, whole⟩
        cases moved
        exact ⟨summary, merged, whole⟩

theorem forked_merge_two_steps :
    ∃ told moved summary,
      (Action.ofCommand {} (.checkout "main")).run forked = (.done told, moved) ∧
      (Action.ofCommand {} (.merge (some "dev") none)).run moved =
        (.done summary, ((Action.ofCommand {} (.merge (some "dev") (some "main"))).run forked).2) ∧
      "Switched to branch 'main'\nMerge made by the 'ort' strategy.\nMerging:\n  0000002 Try\n  0000001 Base\n" ++
        "found 1 commit(s) from 'dev' to merge into 'main'." = told ++ "\n" ++ summary :=
  (merge_into_two_steps {} forked _ (some "dev") "main" _).mp (Prod.ext (by decide +kernel) rfl)

end GitPractice
