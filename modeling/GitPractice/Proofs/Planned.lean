import GitPractice.Session

set_option autoImplicit false

namespace GitPractice

def Plan.carryOut : Plan → Action String
  | .refuse error => ⟨fun state => (.refused error, state)⟩
  | .answer text => ⟨fun state => (.done text, state)⟩
  | .change text repository => ⟨fun state => (.done text, { state with repository := repository })⟩
  | .configure text key value => ⟨fun state =>
      (.done text, { state with config := state.config.set key value })⟩
  | .record draft onto report => ⟨fun state =>
      match state.ids.peek with
      | .interrupted reason => (.interrupted reason, { state with ids := state.ids.next })
      | .id id =>
          (.done (report (recorded draft onto id)),
            { state with repository := onto.append (recorded draft onto id), ids := state.ids.next })⟩

namespace Action

/-- The draw comes before every change here, so an interruption meets an untouched state; what follows the
draw has no check left in it, and `finish` says that it leaves what the plan promises. -/
theorem new_commit_planned (draft : Draft) (onto : Repository) (report : Commit → String) (state : State)
    (next : Commit → Action String)
    (finish : ∀ id,
      (next
        { id := id
          message := draft.message
          signature := draft.signature
          timestamp := Clock.timeOf state.repository.commits.length
          branch := draft.branch }).run
        { state with ids := state.ids.next } =
      (.done (report (Plan.recorded draft onto id)),
        { state with repository := onto.append (Plan.recorded draft onto id), ids := state.ids.next })) :
    (newCommit draft.message draft.signature draft.branch >>= next).run state =
      (Plan.record draft onto report).carryOut.run state := by
  cases drawn : state.ids.peek with
  | interrupted reason =>
      rw [bind_interrupted next (new_commit_interrupted _ _ _ drawn)]
      simp only [Plan.carryOut, drawn]
  | id id =>
      rw [bind_done next (new_commit_drawn _ _ _ drawn), finish id]
      simp only [Plan.carryOut, drawn]

variable (state : State)

theorem ask_planned (answer : State → Except Error String) :
    (ask answer).run state = (Plan.ofExcept (answer state)).carryOut.run state := by
  cases answered : answer state with
  | ok text => simp only [ask, answered, Plan.ofExcept, Plan.carryOut]
  | error error => simp only [ask, answered, Plan.ofExcept, Plan.carryOut]

theorem commit_planned (message : Option String) (author : Option Author) :
    (commit message author).run state =
      (Plan.commit state.config.signature state.repository message author).carryOut.run state := by
  rw [commit, look_bind, require_bind, Plan.commit]
  cases state.repository.staged.isEmpty with
  | true => rfl
  | false =>
      exact new_commit_planned
        { message := Plan.commitMessage message
          signature := Plan.commitSignature state.config.signature author
          branch := state.repository.current }
        state.repository.unstage Answer.committed state _ (fun id => rfl)

theorem checkout_new_planned (branch : String) :
    (checkoutNew branch).run state =
      (Plan.checkoutNew state.config.signature state.repository branch).carryOut.run state := by
  rw [checkoutNew, look_bind, require_bind, Plan.checkoutNew]
  cases unknown : state.repository.hasBranch branch with
  | true => rfl
  | false =>
      refine new_commit_planned
        { message := Plan.cutMessage state.repository.current
          signature := state.config.signature
          branch := branch
          cut := some (state.repository.current, (state.repository.tip? state.repository.current).map Commit.id) }
        ((state.repository.addBranch branch).switch branch) _ state _ (fun id => ?_)
      rw [attempt_bind, Repository.add_new_branch_of_unknown _ _ unknown, change_bind, attempt_bind]
      rw [Repository.switch_known_of_known]
      · rfl
      · exact Repository.has_branch_add_branch state.repository branch

theorem checkout_planned (branch : String) :
    (checkout branch).run state = (Plan.checkout state.repository branch).carryOut.run state := by
  rw [checkout, attempt_bind, require_bind, Plan.checkout]
  cases known : state.repository.hasBranch branch with
  | true =>
      rw [Repository.switch_known_of_known _ _ known]
      rfl
  | false =>
      rw [Repository.switch_known_of_unknown _ _ known]
      rfl

theorem enter_bind (target : String) (named : Bool) (next : List String → Action String)
    (known : named = true → state.repository.hasBranch target = true)
    (here : named = false → target = state.repository.current) :
    (enter target named >>= next).run state =
      (next (if named then [Answer.switched target] else [])).run
        { state with repository := state.repository.switch target } := by
  cases named with
  | true =>
      change (next [Answer.switched target]).run
        { state with repository := (state.repository.switchKnown target).2 } = _
      rw [Repository.switch_known_of_known _ _ (known rfl)]
      rfl
  | false =>
      rw [here rfl]
      rfl

theorem merge_known_planned (source target : String) (named : Bool)
    (known : named = true → state.repository.hasBranch target = true)
    (here : named = false → target = state.repository.current) :
    (mergeKnown source target named).run state =
      (Plan.mergeKnown state.config.signature state.repository source target named).carryOut.run state := by
  rw [mergeKnown, look_bind, Plan.mergeKnown]
  by_cases same : source = target
  · rw [if_pos same, if_pos same, enter_bind state target named _ known here]
    rfl
  · rw [if_neg same, if_neg same, require_bind]
    cases (state.repository.commitsOn source).isEmpty with
    | true => rfl
    | false =>
        refine new_commit_planned
          { message := Plan.mergeMessage source target
            signature := state.config.signature
            branch := target
            merge := some (source, target) }
          (state.repository.switch target) _ state _ (fun id => ?_)
        -- The id is drawn before the label moves.
        rw [enter_bind { state with ids := state.ids.next } target named _ known here]
        rfl

theorem merge_source_planned (source : Option String) (target : String) (named : Bool)
    (known : named = true → state.repository.hasBranch target = true)
    (here : named = false → target = state.repository.current) :
    (match source with
      | none => refuse .missingSource
      | some source => do
          require (state.repository.hasBranch source) (.unknownBranch source .mergeSource)
          mergeKnown source target named : Action String).run state =
      (match source with
        | none => Plan.refuse .missingSource
        | some source =>
            if state.repository.hasBranch source then
              Plan.mergeKnown state.config.signature state.repository source target named
            else .refuse (.unknownBranch source .mergeSource)).carryOut.run state := by
  cases source with
  | none => rfl
  | some source =>
      simp only [require_bind]
      cases state.repository.hasBranch source with
      | true => exact merge_known_planned state source target named known here
      | false => rfl

theorem merge_planned (source target : Option String) :
    (merge source target).run state =
      (Plan.merge state.config.signature state.repository source target).carryOut.run state := by
  rw [merge, look_bind]
  cases target with
  | none => exact merge_source_planned state source state.repository.current false (by simp) (by simp)
  | some target =>
      simp only [requireTarget, require_bind, Plan.merge, Option.filter_some]
      cases known : state.repository.hasBranch target with
      | true => exact merge_source_planned state source target true (fun _ => known) (by simp)
      | false => rfl

theorem rebase_planned (base : String) :
    (rebase base).run state = (Plan.rebase state.config.signature state.repository base).carryOut.run state := by
  rw [rebase, look_bind, require_bind, Plan.rebase]
  cases state.repository.hasBranch base with
  | false => rfl
  | true =>
      simp only [if_true]
      by_cases same : base = state.repository.current
      · rw [if_pos same, if_pos same]
        rfl
      · rw [if_neg same, if_neg same]
        exact new_commit_planned
          { message := Plan.rebaseMessage state.repository.current base
            signature := state.config.signature
            branch := state.repository.current }
          state.repository _ state _ (fun id => rfl)

theorem add_paths_planned (paths : List String) :
    (addPaths paths).run state = (Plan.addPaths state.repository paths).carryOut.run state := by
  cases paths with
  | nil => rfl
  | cons path more => rfl

theorem create_branch_planned (branch : String) :
    (createBranch branch).run state = (Plan.createBranch state.repository branch).carryOut.run state := by
  rw [createBranch, attempt_bind, require_bind, Plan.createBranch]
  cases known : state.repository.hasBranch branch with
  | true =>
      rw [Repository.add_new_branch_of_known _ _ known]
      rfl
  | false =>
      rw [Repository.add_new_branch_of_unknown _ _ known]
      rfl

/-- Removing comes before the check that there was something to remove. The refusal still leaves the
repository as it was, because removing a label that is not there removes nothing. -/
theorem delete_branch_planned (settings : Settings) (branch : String) :
    (deleteBranch settings branch).run state =
      (Plan.deleteBranch settings state.repository branch).carryOut.run state := by
  rw [deleteBranch, look_bind, require_bind, Plan.deleteBranch]
  by_cases same : branch = state.repository.current
  · rw [if_pos same, if_neg (by simp [same])]
    rfl
  · rw [if_neg same, if_pos (bne_iff_ne.mpr same), attempt_bind, require_bind]
    cases known : state.repository.hasBranch branch with
    | true =>
        rw [Repository.remove_other_branch_of_known _ _ same known]
        rfl
    | false =>
        rw [Repository.remove_other_branch_of_unknown _ _ same known]
        rfl

theorem of_command_planned (settings : Settings) (command : Command) :
    (ofCommand settings command).run state =
      (Plan.ofCommand settings state.config state.repository command).carryOut.run state := by
  cases command with
  | help topic => exact ask_planned state _
  | commit message author => exact commit_planned state message author
  | checkoutNew branch => exact checkout_new_planned state branch
  | checkout branch => exact checkout_planned state branch
  | merge source target => exact merge_planned state source target
  | rebase base => exact rebase_planned state base
  | init => rfl
  | addAll => rfl
  | addPaths paths => exact add_paths_planned state paths
  | status => rfl
  | listBranches => rfl
  | createBranch branch => exact create_branch_planned state branch
  | deleteBranch branch => exact delete_branch_planned state settings branch
  | push remote branch => rfl
  | pull remote branch => rfl
  | fetch => rfl
  | diff => rfl
  | listConfig => rfl
  | getConfig key => exact ask_planned state _
  | setConfig key value => rfl
  | log oneline graph => exact ask_planned state _
  | display revision => exact ask_planned state _

end Action

end GitPractice
