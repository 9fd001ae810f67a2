import GitPractice.Proofs.GuardedActions
import GitPractice.Proofs.History

set_option autoImplicit false

namespace GitPractice

def Outcome.Returned {α : Type} (outcome : Outcome α) : Prop :=
  (∃ value, outcome = .done value) ∨ ∃ error, outcome = .refused error

theorem Outcome.returned_map {α β : Type} (f : α → β) {outcome : Outcome α} (returned : outcome.Returned) :
    (outcome.map f).Returned := by
  rcases returned with ⟨value, rfl⟩ | ⟨error, rfl⟩
  · exact .inl ⟨f value, rfl⟩
  · exact .inr ⟨error, rfl⟩

theorem Plan.carry_out_returned (plan : Plan) {state : State} (steady : state.ids.Steady) :
    (plan.carryOut.run state).1.Returned := by
  cases plan with
  | refuse error => exact .inr ⟨error, rfl⟩
  | answer text => exact .inl ⟨text, rfl⟩
  | change text repository => exact .inl ⟨text, rfl⟩
  | configure text key value => exact .inl ⟨text, rfl⟩
  | record draft onto report =>
      obtain ⟨id, given⟩ := steady state.ids.drawn
      have drawn : state.ids.peek = .id id := given
      exact .inl ⟨report (recorded draft onto id), by simp only [carryOut, drawn]⟩

theorem Session.evaluate_returned {session : Session} (steady : session.ids.Steady) (line : String) :
    (session.evaluate line).1.Returned := by
  rw [evaluate]
  cases Command.parse line with
  | error fault => exact .inr ⟨fault, rfl⟩
  | ok command =>
      simp only [run, conduct, Action.of_command_planned]
      exact Plan.carry_out_returned _ steady

theorem Seed.commit_all_returned (branches : List String) (configured : Signature) (entries : List SeedCommit)
    (position : Nat) {ids : IdSource} (steady : ids.Steady) :
    (commitAll branches configured position entries ids).1.Returned := by
  induction entries generalizing position ids with
  | nil => exact .inl ⟨[], rfl⟩
  | cons entry rest ih =>
      rw [commitAll]
      split
      · obtain ⟨id, after, identified, still⟩ := identify_steady entry steady
        rw [identified]
        exact Outcome.returned_map _ (ih (position + 1) still)
      · exact .inr ⟨_, rfl⟩

theorem Seed.build_returned (seed : Seed) (configured : Signature) {ids : IdSource} (steady : ids.Steady) :
    (seed.build configured ids).1.Returned := by
  rw [build]
  split
  · exact .inr ⟨_, rfl⟩
  · cases seed.start with
    | error fault => exact .inr ⟨_, rfl⟩
    | ok branch => exact Outcome.returned_map _ (commit_all_returned _ _ _ 0 steady)

theorem Session.load_returned {session : Session} (steady : session.ids.Steady) (seed : Seed) :
    (session.load seed).1.Returned := by
  have returned := Seed.build_returned seed session.config.signature steady
  rw [load]
  split
  · exact .inl ⟨(), rfl⟩
  · exact .inr ⟨_, rfl⟩
  · rename_i reason ids built
    rw [built] at returned
    rcases returned with ⟨_, done⟩ | ⟨_, refused⟩
    · cases done
    · cases refused

namespace Guarded

theorem evaluate_holds {session : Session} (fits : Clock.Fits session.repository.commits.length) (line : String) :
    evaluate? session line = some (session.evaluate line) := by
  rw [evaluate?, parse_reads, Session.evaluate]
  cases Command.parse line with
  | error error => rfl
  | ok command =>
      have ran := Action.agrees_of_command session.toState fits session.settings command
      rw [Action.Agrees] at ran
      simp only [Option.bind_eq_bind, Option.bind_some, ran]
      rfl

theorem execute_holds {session : Session} (fits : Clock.Fits session.repository.commits.length) (line : String) :
    execute? session line = some (session.execute line) := by
  rw [execute?, Session.execute]
  split
  · rfl
  · simp only [evaluate_holds fits, Option.bind_eq_bind, Option.bind_some]
    rfl

theorem commit_all_holds (branches : List String) (configured : Signature) (entries : List SeedCommit)
    (position : Nat) (ids : IdSource) (fits : Clock.Fits (position + entries.length)) :
    commitAll? branches configured position entries ids =
      some (Seed.commitAll branches configured position entries ids) := by
  induction entries generalizing position ids with
  | nil => rfl
  | cons entry rest ih =>
      rw [List.length_cons] at fits
      rw [commitAll?, Seed.commitAll]
      split
      · cases entry.identify ids with
        | mk draw after =>
            cases draw with
            | interrupted reason => rfl
            | id id =>
                have here : timeOf? position = some (Clock.timeOf position) :=
                  (time_fits_iff position).mpr (Clock.fits_of_le fits (by omega))
                have later := ih (position + 1) after (by rwa [Nat.add_right_comm])
                simp only [here, later, Option.bind_eq_bind, Option.bind_some]
                rfl
      · rfl

theorem assemble_holds {seed : Seed} {branch : String} (started : seed.start = .ok branch) (commits : List Commit) :
    assemble? branch (distinct seed.branches) commits seed.staged =
      some ⟨branch, distinct seed.branches, commits, distinct seed.staged⟩ := by
  have listed : (distinct seed.branches).contains branch = true :=
    List.contains_iff_mem.mpr ((mem_distinct branch seed.branches).mpr (Seed.start_mem seed branch started))
  rw [assemble?, assert?, listed]
  rfl

theorem build_holds (seed : Seed) (configured : Signature) (ids : IdSource)
    (fits : Clock.Fits seed.commits.length) : build? seed configured ids = some (seed.build configured ids) := by
  rw [build?, Seed.build]
  split
  · rfl
  · cases started : seed.start with
    | error fault => rfl
    | ok branch =>
        have made := commit_all_holds seed.branches configured seed.commits 0 ids (by rwa [Nat.zero_add])
        simp only [made, Option.bind_eq_bind, Option.bind_some]
        cases Seed.commitAll seed.branches configured 0 seed.commits ids with
        | mk outcome after =>
            cases outcome with
            | done commits =>
                simp only [assemble_holds started, Option.bind_some]
                rfl
            | refused error => rfl
            | interrupted reason => rfl

theorem load_holds (session : Session) {seed : Seed} (fits : Clock.Fits seed.commits.length) :
    load? session seed = some (session.load seed) := by
  rw [load?, build_holds seed _ _ fits, Session.load]
  cases seed.build session.config.signature session.ids with
  | mk outcome ids => cases outcome <;> rfl

theorem apply_holds {session : Session} (fits : Clock.Fits session.repository.commits.length) (event : Event)
    (fitsSeeded : ∀ seed, event = .loaded seed → Clock.Fits seed.commits.length) :
    advance? session event = some (session.apply event) := by
  cases event with
  | typed line => rw [advance?, execute_holds fits, Option.map_some, Session.apply]
  | evaluated line => rw [advance?, evaluate_holds fits, Option.map_some, Session.apply]
  | loaded seed => rw [advance?, load_holds session (fitsSeeded seed rfl), Option.map_some, Session.apply]

/-- The induction is on the course. What is asked of the history is asked after each beginning of it. -/
theorem after_holds (session : Session) (course : List Event)
    (few : ∀ earlier, earlier <+: course → Clock.Fits (session.after earlier).repository.commits.length)
    (fewSeeded : ∀ seed, .loaded seed ∈ course → Clock.Fits seed.commits.length) :
    after? session course = some (session.after course) := by
  -- The bound is used at every session on the way: the history may have been started anew since.
  induction course generalizing session with
  | nil => rfl
  | cons event rest ih =>
      have first : advance? session event = some (session.apply event) := by
        refine apply_holds (few [] (List.nil_prefix)) event ?_
        intro seed same
        exact fewSeeded seed (same ▸ List.mem_cons_self)
      have others : after? (session.apply event) rest = some ((session.apply event).after rest) := by
        refine ih (session.apply event) ?_ ?_
        · intro earlier isStart
          exact few (event :: earlier) (List.cons_prefix_cons.mpr ⟨rfl, isStart⟩)
        · intro seed present
          exact fewSeeded seed (List.mem_cons_of_mem event present)
      rw [after?, first]
      exact others

end Guarded

namespace Session

theorem never_faults (settings : Settings) (ids : IdSource) (steady : ids.Steady) (course : List Event)
    (few : ∀ earlier, earlier <+: course →
      Clock.Fits ((start settings ids).after earlier).repository.commits.length)
    (fewSeeded : ∀ seed, .loaded seed ∈ course → Clock.Fits seed.commits.length) :
    let reached := (start settings ids).after course
    Guarded.after? (start settings ids) course = some reached ∧
    (∀ line, Guarded.evaluate? reached line = some (reached.evaluate line) ∧
      (reached.evaluate line).1.Returned) ∧
    (∀ line, Guarded.execute? reached line = some (reached.execute line)) ∧
    (∀ seed, Clock.Fits seed.commits.length →
      Guarded.load? reached seed = some (reached.load seed) ∧ (reached.load seed).1.Returned) := by
  intro reached
  have stillSteady : reached.ids.Steady := after_steady course steady
  have fits : Clock.Fits reached.repository.commits.length := few course (List.prefix_refl course)
  refine ⟨Guarded.after_holds _ course few fewSeeded, ?_, ?_, ?_⟩
  · intro line
    exact ⟨Guarded.evaluate_holds fits line, evaluate_returned stillSteady line⟩
  · exact Guarded.execute_holds fits
  · intro seed fitsSeeded
    exact ⟨Guarded.load_holds reached fitsSeeded, load_returned stillSteady seed⟩

theorem never_faults_seeded :
    let seed : Seed :=
      { branches := ["main"], commits := [{ branch := "main", message := "hi", id := some "κλμνξοπρ" }] }
    let course : List Event := [.loaded seed, .typed "git commit -m"]
    let reached := (start {} .sequential).after course
    Guarded.after? (start {} .sequential) course = some reached ∧
    (Guarded.evaluate? reached "git log --oneline --graph").map Prod.fst = some (.done "* κλμνξοπ hi") := by
  intro seed course reached
  have few : ∀ earlier, earlier <+: course →
      Clock.Fits ((start {} .sequential).after earlier).repository.commits.length := by
    intro earlier isStart
    rcases earlier with _ | ⟨first, _ | ⟨second, more⟩⟩
    · decide +kernel
    · obtain ⟨rfl, _⟩ := List.cons_prefix_cons.mp isStart
      decide +kernel
    · obtain ⟨rfl, further⟩ := List.cons_prefix_cons.mp isStart
      obtain ⟨rfl, ended⟩ := List.cons_prefix_cons.mp further
      rw [List.prefix_nil.mp ended]
      decide +kernel
  have fewSeeded : ∀ other, Event.loaded other ∈ course → Clock.Fits other.commits.length := by
    intro other present
    have same : other = seed := by simpa [course] using present
    rw [same]
    decide +kernel
  obtain ⟨runs, evaluates, _, _⟩ := never_faults {} .sequential (fun place => ⟨_, rfl⟩) course few fewSeeded
  refine ⟨runs, ?_⟩
  rw [(evaluates "git log --oneline --graph").1]
  decide +kernel

end Session

end GitPractice
