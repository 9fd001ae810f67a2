import GitPractice.Proofs.Planned

set_option autoImplicit false

namespace GitPractice

theorem Plan.carry_out_refused (plan : Plan) (state : State) (error : Error)
    (refused : (plan.carryOut.run state).1 = .refused error) : (plan.carryOut.run state).2 = state := by
  cases plan with
  | refuse reason => rfl
  | answer text => rfl
  | change text repository => exact absurd refused (by simp [carryOut])
  | configure text key value => exact absurd refused (by simp [carryOut])
  | record draft onto report =>
      cases drawn : state.ids.peek with
      | id id => exact absurd refused (by simp [carryOut, drawn])
      | interrupted reason => exact absurd refused (by simp [carryOut, drawn])

theorem Plan.carry_out_interrupted (plan : Plan) (state : State) (reason : String)
    (broken : (plan.carryOut.run state).1 = .interrupted reason) :
    (plan.carryOut.run state).2 = { state with ids := state.ids.next } := by
  cases plan with
  | refuse error => exact absurd broken (by simp [carryOut])
  | answer text => exact absurd broken (by simp [carryOut])
  | change text repository => exact absurd broken (by simp [carryOut])
  | configure text key value => exact absurd broken (by simp [carryOut])
  | record draft onto report =>
      cases drawn : state.ids.peek with
      | id id => exact absurd broken (by simp [carryOut, drawn])
      | interrupted cause => simp only [carryOut, drawn]

namespace Session

variable (session : Session)

theorem run_refused (command : Command) (error : Error)
    (refused : (session.run command).1 = .refused error) : (session.run command).2 = session := by
  rw [run, conduct, Action.of_command_planned] at refused ⊢
  simp only [Plan.carry_out_refused _ _ error refused]

theorem run_interrupted (command : Command) (reason : String)
    (broken : (session.run command).1 = .interrupted reason) :
    (session.run command).2 = { session with ids := session.ids.next } := by
  rw [run, conduct, Action.of_command_planned] at broken ⊢
  simp only [Plan.carry_out_interrupted _ _ reason broken]

theorem evaluate_refused (line : String) (error : Error)
    (refused : (session.evaluate line).1 = .refused error) : (session.evaluate line).2 = session := by
  rw [evaluate] at refused ⊢
  cases read : Command.parse line with
  | error fault => rfl
  | ok command =>
      rw [read] at refused
      exact run_refused session command error refused

theorem evaluate_interrupted (line : String) (reason : String)
    (broken : (session.evaluate line).1 = .interrupted reason) :
    (session.evaluate line).2 = { session with ids := session.ids.next } := by
  rw [evaluate] at broken ⊢
  cases read : Command.parse line with
  | error fault => exact absurd broken (by simp [read])
  | ok command =>
      rw [read] at broken
      exact run_interrupted session command reason broken

theorem result_entry_error (outcome : Outcome String) (failed : (resultEntry outcome).isError = true) :
    (∃ error, outcome = .refused error) ∨ ∃ reason, outcome = .interrupted reason := by
  cases outcome with
  | done text => exact absurd failed Bool.false_ne_true
  | refused error => exact .inl ⟨error, rfl⟩
  | interrupted reason => exact .inr ⟨reason, rfl⟩

theorem execute_failed (line : String)
    (failed : ∃ entry ∈ (session.execute line).1, entry.isError = true) :
    (session.execute line).2.repository = session.repository ∧
      (session.execute line).2.config = session.config := by
  obtain ⟨entry, present, isError⟩ := failed
  rw [execute] at present ⊢
  split at present
  · exact absurd present List.not_mem_nil
  · rename_i filled
    rw [if_neg filled]
    rcases List.mem_cons.mp present with isEcho | isResult
    · rw [isEcho] at isError
      exact absurd isError Bool.false_ne_true
    · rw [List.mem_singleton.mp isResult] at isError
      rcases result_entry_error _ isError with ⟨error, refused⟩ | ⟨reason, broken⟩
      · simp only [evaluate_refused session _ error refused, and_self]
      · simp only [evaluate_interrupted session _ reason broken, and_self]

theorem load_failed (seed : Seed) (failed : (session.load seed).1 ≠ .done ()) :
    (session.load seed).2.repository = session.repository ∧
      (session.load seed).2.config = session.config ∧
      (session.load seed).2.transcript = session.transcript := by
  rw [load] at failed ⊢
  split at failed
  · exact absurd rfl failed
  · exact ⟨rfl, rfl, rfl⟩
  · exact ⟨rfl, rfl, rfl⟩

theorem failure_leaves_state (session : Session) :
    (∀ line, (∃ entry ∈ (session.execute line).1, entry.isError = true) →
      (session.execute line).2.repository = session.repository ∧
        (session.execute line).2.config = session.config) ∧
    (∀ line error, (session.evaluate line).1 = .refused error → (session.evaluate line).2 = session) ∧
    (∀ line reason, (session.evaluate line).1 = .interrupted reason →
      (session.evaluate line).2 = { session with ids := session.ids.next }) ∧
    (∀ seed, (session.load seed).1 ≠ .done () →
      (session.load seed).2.repository = session.repository ∧
        (session.load seed).2.config = session.config ∧
        (session.load seed).2.transcript = session.transcript) :=
  ⟨execute_failed session, evaluate_refused session, evaluate_interrupted session, load_failed session⟩

def stalled : Session :=
  ((start {} (.listed [])).load
    { branches := ["main", "dev", "feature"]
      commits := [{ branch := "feature", message := "Add feature", id := some "bbbbbbb" }]
      current := some "dev"
      staged := ["file1.txt"] }).2

theorem stalled_failures_leave_state :
    ((stalled.execute "git merge feature into main").1.map Entry.isError = [false, true] ∧
      (stalled.execute "git merge feature into main").2.repository = stalled.repository) ∧
    ((stalled.evaluate "git branch -d ghost").1 = .refused (.unknownBranch "ghost" .delete) ∧
      (stalled.evaluate "git branch -d ghost").2 = stalled) ∧
    ((stalled.evaluate "git checkout -b next").1 = .interrupted "id source exhausted" ∧
      (stalled.evaluate "git checkout -b next").2 = { stalled with ids := stalled.ids.next }) ∧
    ((stalled.load { branches := ["main"], commits := [{ branch := "main", message := "m" }] }).1 =
        .interrupted "id source exhausted" ∧
      (stalled.load { branches := ["main"], commits := [{ branch := "main", message := "m" }] }).2.repository =
        stalled.repository) := by
  obtain ⟨executed, refused, interrupted, loaded⟩ := failure_leaves_state stalled
  refine ⟨⟨by decide, ?_⟩, ⟨by decide, ?_⟩, ⟨by decide, ?_⟩, ⟨by decide, ?_⟩⟩
  · exact (executed "git merge feature into main" (by decide)).1
  · exact refused "git branch -d ghost" (.unknownBranch "ghost" .delete) (by decide)
  · exact interrupted "git checkout -b next" "id source exhausted" (by decide)
  · exact (loaded { branches := ["main"], commits := [{ branch := "main", message := "m" }] } (by decide)).1

end Session

end GitPractice
