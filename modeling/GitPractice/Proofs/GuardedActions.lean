import GitPractice.Guarded.Session
import GitPractice.Proofs.GuardedParser

set_option autoImplicit false

namespace GitPractice

def Clock.Fits (count : Nat) : Prop := Clock.timeOf count ≤ Commit.highestTime

instance (count : Nat) : Decidable (Clock.Fits count) := Int.decLe _ _

theorem Clock.fits_of_le {fewer more : Nat} (fits : Fits more) (le : fewer ≤ more) : Fits fewer := by
  simp only [Fits, timeOf, stride] at fits ⊢
  omega

namespace Guarded

theorem short_id_shown (commit : Commit) : shortId? commit = some commit.shortId := by
  rw [shortId?, Text.place_of_take]
  by_cases long : IdSource.idLength < commit.id.toList.length
  · have start : commit.id.toList.take IdSource.idLength ++ commit.id.toList.drop IdSource.idLength =
        commit.id.toList := List.take_append_drop _ _
    have piece := Text.slice_append [] (commit.id.toList.take IdSource.idLength)
      (commit.id.toList.drop IdSource.idLength)
    rw [List.nil_append, start] at piece
    rw [if_pos long]
    exact congrArg (Option.map String.ofList) piece
  · rw [if_neg long, Commit.shortId, List.take_of_length_le (Nat.le_of_not_lt long), String.ofList_toList]

theorem oneline_shown (commit : Commit) : oneline? commit = some commit.oneline := by
  rw [oneline?, short_id_shown]
  rfl

theorem summary_line_shown (commit? : Option Commit) : summaryLine? commit? = some (Answer.summaryLine commit?) := by
  cases commit? with
  | none => rfl
  | some commit => rw [summaryLine?, oneline_shown, Option.map_some, Answer.summaryLine]

theorem graph_line_shown (commit : Commit) (oldest : Bool) :
    graphLine? commit oldest = some (commit.graphLine oldest) := by
  rw [graphLine?, oneline_shown]
  rfl

theorem graph_lines_shown {last place : Nat} {commits : List Commit} (ends : place + commits.length = last + 1) :
    graphLines? last place commits = some (Log.graphLines commits) := by
  induction commits generalizing place with
  | nil => rfl
  | cons commit older ih =>
      rw [List.length_cons] at ends
      have isLast : (place == last) = older.isEmpty := by
        cases older with
        | nil => simpa using ends
        | cons next more =>
            rw [List.length_cons] at ends
            simp only [List.isEmpty_cons, beq_eq_false_iff_ne]
            omega
      have notBefore : (!decide (place < last)) = older.isEmpty := by
        rw [← isLast, Bool.eq_iff_iff]
        simp only [Bool.not_eq_true', decide_eq_false_iff_not, beq_iff_eq]
        omega
      rw [graphLines?, graph_line_shown, ih (by omega), isLast, notBefore]
      rfl

theorem graph_shown {commits : List Commit} (filled : commits ≠ []) :
    graph? commits = some (Log.graph commits) := by
  have sorted : (Log.byTime commits).length = commits.length := List.length_mergeSort commits
  have positive := List.length_pos_iff.mpr filled
  have last : minus? (Log.byTime commits).length 1 = some ((Log.byTime commits).length - 1) := if_pos (by omega)
  have lines : graphLines? ((Log.byTime commits).length - 1) 0 (Log.byTime commits) =
      some (Log.graphLines (Log.byTime commits)) := graph_lines_shown (by omega)
  rw [graph?]
  simp only [last, lines, Option.bind_eq_bind, Option.bind_some]
  rfl

/-- Without the check for an empty history a graph would ask for the place before the first one. -/
example : graph? [] = none := by simp [graph?, minus?, Log.byTime]

theorem onelines_shown (commits : List Commit) : onelines? commits = some (Log.oneline commits) := by
  have each : oneline? = fun commit => pure commit.oneline := funext oneline_shown
  rw [onelines?, each, List.mapM_pure]
  rfl

theorem log_shown (repository : Repository) (isOneline isGraph : Bool) :
    log? repository isOneline isGraph = some (Answer.log repository isOneline isGraph) := by
  rw [log?, Answer.log]
  by_cases empty : repository.commits.isEmpty = true
  · rw [if_pos empty, if_pos empty]
  · have filled : repository.commits ≠ [] := fun none => empty (List.isEmpty_iff.mpr none)
    have text : logText? isOneline isGraph repository.commits =
        some (Log.text isOneline isGraph repository.commits) := by
      rw [logText?, Log.text, graph_shown filled, onelines_shown]
      cases isOneline <;> cases isGraph <;> rfl
    rw [if_neg empty, if_neg empty, text]
    rfl

theorem time_fits_iff (count : Nat) : timeOf? count = some (Clock.timeOf count) ↔ Clock.Fits count := by
  constructor
  · intro given
    obtain ⟨_, _, inRange⟩ := Option.bind_eq_some_iff.mp given
    rw [word?] at inRange
    split at inRange
    · rename_i bounds
      rw [Clock.Fits, ← Option.some.inj inRange]
      exact bounds.2
    · cases inRange
  · intro fits
    rw [Clock.Fits, Clock.timeOf] at fits
    have bounds : count < 9223372036854775808 ∧
        Commit.lowestTime ≤ count * Clock.stride ∧ count * Clock.stride ≤ Commit.highestTime ∧
        Commit.lowestTime ≤ Clock.start + count * Clock.stride := by
      simp only [Clock.start, Clock.stride, Commit.lowestTime, Commit.highestTime] at fits ⊢
      omega
    obtain ⟨small, low, high, lowest⟩ := bounds
    -- The bind is rewritten away; the kernel is slow to compare numbers of this size under it.
    rw [timeOf?, cast_kept small, word_eq_some low high, Option.bind_eq_bind, Option.bind_some,
      word_eq_some lowest fits, Clock.timeOf]

namespace Action

variable {α β : Type}

/-- From this state both actions come to the same result, and the one that checks does not fault. -/
def Agrees (guarded : Action α) (action : GitPractice.Action α) (state : State) : Prop :=
  guarded.run state = some (action.run state)

theorem agrees_bind {guarded : Action α} {action : GitPractice.Action α} {state : State}
    {guardedNext : α → Action β} {next : α → GitPractice.Action β} (first : Agrees guarded action state)
    (rest : ∀ value after, action.run state = (.done value, after) →
      Agrees (guardedNext value) (next value) after) :
    Agrees (guarded >>= guardedNext) (action >>= next) state := by
  rw [Agrees] at first
  rw [Agrees]
  simp only [bind, first, Option.bind_some]
  cases ran : action.run state with
  | mk outcome after =>
      cases outcome with
      | done value => exact rest value after ran
      | refused error => rfl
      | interrupted reason => rfl

section
variable (state : State) {guardedNext : α → Action β} {next : α → GitPractice.Action β}

theorem agrees_plain (action : GitPractice.Action α) : Agrees (plain action) action state := rfl

theorem agrees_plain_bind (action : GitPractice.Action α)
    (rest : ∀ value after, Agrees (guardedNext value) (next value) after) :
    Agrees (plain action >>= guardedNext) (action >>= next) state :=
  agrees_bind (agrees_plain state action) fun value after _ => rest value after

theorem agrees_look (view : State → α) (rest : Agrees (guardedNext (view state)) (next (view state)) state) :
    Agrees (plain (.look view) >>= guardedNext) (.look view >>= next) state := rest

theorem agrees_check {value? : Option α} {value : α} {action : GitPractice.Action β} (given : value? = some value)
    (rest : Agrees (guardedNext value) action state) : Agrees (check value? >>= guardedNext) action state := by
  rw [given]
  exact rest

end

section
variable (state : State) {guardedNext : Unit → Action β} {next : Unit → GitPractice.Action β}

theorem agrees_require (holds : Bool) (error : Error) (rest : Agrees (guardedNext ()) (next ()) state) :
    Agrees (plain (.require holds error) >>= guardedNext) (.require holds error >>= next) state := by
  cases holds with
  | false => rfl
  | true => exact rest

theorem agrees_require_target (repository : Repository) (target : Option String)
    (rest : Agrees (guardedNext ()) (next ()) state) :
    Agrees (plain (.requireTarget repository target) >>= guardedNext)
      (.requireTarget repository target >>= next) state := by
  cases target with
  | none => exact rest
  | some target => exact agrees_require state _ _ rest

end

section
variable (state : State) (fits : Clock.Fits state.repository.commits.length)
include fits

theorem agrees_new_commit (message : String) (signature : Signature) (branch : String) :
    Agrees (newCommit message signature branch) (.newCommit message signature branch) state := by
  refine agrees_bind (agrees_plain state .draw) fun id after drawn => ?_
  have same : after.repository = state.repository := by
    rw [GitPractice.Action.draw] at drawn
    simp only at drawn
    split at drawn
    · cases drawn
      rfl
    · cases drawn
  refine agrees_look after State.repository ?_
  refine agrees_check after ((time_fits_iff _).mpr ?_) rfl
  rw [same]
  exact fits

theorem agrees_commit (message : Option String) (author : Option Author) :
    Agrees (commit message author) (.commit message author) state := by
  refine agrees_look state State.repository ?_
  refine agrees_require state _ _ ?_
  refine agrees_look state _ ?_
  refine agrees_bind (agrees_new_commit state fits _ _ _) fun commit after _ => ?_
  refine agrees_plain_bind after _ fun _ after => ?_
  exact agrees_plain_bind after _ fun _ after => rfl

theorem agrees_checkout_new (branch : String) : Agrees (checkoutNew branch) (.checkoutNew branch) state := by
  refine agrees_look state State.repository ?_
  refine agrees_require state _ _ ?_
  refine agrees_look state _ ?_
  refine agrees_bind (agrees_new_commit state fits _ _ _) fun commit after _ => ?_
  refine agrees_plain_bind after _ fun _ after => ?_
  refine agrees_plain_bind after _ fun _ after => ?_
  exact agrees_plain_bind after _ fun _ after => rfl

theorem agrees_merge_known (source target : String) (named : Bool) :
    Agrees (mergeKnown source target named) (.mergeKnown source target named) state := by
  refine agrees_look state State.repository ?_
  by_cases same : source = target
  · simp only [if_pos same]
    exact agrees_plain_bind state _ fun _ after => rfl
  · simp only [if_neg same]
    refine agrees_require state _ _ ?_
    refine agrees_check state (summary_line_shown _) ?_
    refine agrees_check state (summary_line_shown _) ?_
    refine agrees_look state _ ?_
    refine agrees_bind (agrees_new_commit state fits _ _ _) fun commit after _ => ?_
    refine agrees_plain_bind after _ fun _ after => ?_
    exact agrees_plain_bind after _ fun _ after => rfl

theorem agrees_merge (source target : Option String) :
    Agrees (merge source target) (.merge source target) state := by
  refine agrees_look state State.repository ?_
  refine agrees_require_target state _ target ?_
  cases source with
  | none => rfl
  | some source =>
      refine agrees_require state _ _ ?_
      exact agrees_merge_known state fits source _ _

theorem agrees_rebase (base : String) : Agrees (rebase base) (.rebase base) state := by
  refine agrees_look state State.repository ?_
  refine agrees_require state _ _ ?_
  by_cases same : base = state.repository.current
  · simp only [if_pos same]
    rfl
  · simp only [if_neg same]
    refine agrees_look state _ ?_
    refine agrees_bind (agrees_new_commit state fits _ _ _) fun commit after _ => ?_
    exact agrees_plain_bind after _ fun _ after => rfl

omit fits in
theorem agrees_log (isOneline isGraph : Bool) :
    Agrees (log isOneline isGraph) (.ask fun state => Answer.log state.repository isOneline isGraph) state := by
  change Agrees (check (log? state.repository isOneline isGraph) >>= fun answer => plain (.ask fun _ => answer))
    (.ask fun state => Answer.log state.repository isOneline isGraph) state
  exact agrees_check state (log_shown state.repository isOneline isGraph) rfl

theorem agrees_of_command (settings : Settings) (command : Command) :
    Agrees (ofCommand settings command) (.ofCommand settings command) state := by
  cases command with
  | commit message author => exact agrees_commit state fits message author
  | checkoutNew branch => exact agrees_checkout_new state fits branch
  | merge source target => exact agrees_merge state fits source target
  | rebase base => exact agrees_rebase state fits base
  | log isOneline isGraph => exact agrees_log state isOneline isGraph
  | _ => rfl

end

end Action

end Guarded

end GitPractice
