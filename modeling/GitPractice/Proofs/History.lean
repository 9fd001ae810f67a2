import GitPractice.Proofs.Seed
import GitPractice.Proofs.Step

set_option autoImplicit false

namespace GitPractice

def IdSource.Steady (source : IdSource) : Prop := ∀ place, ∃ id, source.stream place = .id id

theorem IdSource.steady_of_stream {source other : IdSource} (steady : source.Steady)
    (stream : other.stream = source.stream) : other.Steady := by
  rw [Steady, stream]
  exact steady

theorem Seed.identify_steady (entry : SeedCommit) {ids : IdSource} (steady : ids.Steady) :
    ∃ id after, entry.identify ids = (.id id, after) ∧ after.Steady := by
  cases given : entry.id with
  | some id => exact ⟨id, ids, by rw [SeedCommit.identify, given], steady⟩
  | none =>
      obtain ⟨id, drawn⟩ := steady ids.drawn
      exact ⟨id, ids.next, by rw [SeedCommit.identify, given, IdSource.peek, drawn], steady⟩

def Event.KeepsHistory : Event → Prop
  | .typed line => Command.parse (Text.trimmed line) ≠ .ok .init
  | .evaluated line => Command.parse line ≠ .ok .init
  | .loaded _ => False

/-- The history after holds the one before, and one id was drawn for each commit that is new. -/
def State.Grown (before after : State) : Prop :=
  ∃ added, after.repository.commits = before.repository.commits ++ added ∧
    after.ids.stream = before.ids.stream ∧ after.ids.drawn = before.ids.drawn + added.length

theorem State.grown_refl (state : State) : state.Grown state :=
  ⟨[], (List.append_nil _).symm, rfl, rfl⟩

theorem State.grown_trans {first middle last : State} (earlier : first.Grown middle)
    (later : middle.Grown last) : first.Grown last := by
  obtain ⟨added, commits, stream, drawn⟩ := earlier
  obtain ⟨more, moreCommits, moreStream, moreDrawn⟩ := later
  refine ⟨added ++ more, ?_, moreStream.trans stream, ?_⟩
  · rw [moreCommits, commits, List.append_assoc]
  · rw [moreDrawn, drawn, List.length_append, Nat.add_assoc]

theorem State.grown_steady {before after : State} (grown : before.Grown after)
    (steady : before.ids.Steady) : after.ids.Steady := by
  obtain ⟨_, _, stream, _⟩ := grown
  rw [IdSource.Steady, stream]
  exact steady

namespace Session

inductive HistoryMove (line : String) (before after : Session) : Prop where
  | kept (commits : after.repository.commits = before.repository.commits) (ids : after.ids = before.ids)
  | emptied (asked : Command.parse line = .ok .init) (commits : after.repository.commits = [])
      (ids : after.ids = before.ids)
  | appended (commit : Commit) (drawn : before.ids.peek = .id commit.id) (ids : after.ids = before.ids.next)
      (commits : after.repository.commits = before.repository.commits ++ [commit])
      (time : commit.timestamp = Clock.timeOf before.repository.commits.length)
      (branch : commit.branch = after.repository.current)

theorem evaluate_steady {session : Session} (line : String) (steady : session.ids.Steady) :
    (session.evaluate line).2.ids.Steady := by
  rcases evaluate_ids session line with same | next
  · rw [same]
    exact steady
  · rw [next]
    exact steady

theorem load_steady {session : Session} (seed : Seed) (steady : session.ids.Steady) :
    (session.load seed).2.ids.Steady := by
  rw [load_ids]
  exact IdSource.steady_of_stream steady (Seed.build_ids seed _ session.ids).1

theorem apply_steady {session : Session} (event : Event) (steady : session.ids.Steady) :
    (session.apply event).ids.Steady := by
  cases event with
  | typed line =>
      change (session.execute line).2.toState.ids.Steady
      rw [execute_evaluate]
      exact evaluate_steady _ steady
  | evaluated line => exact evaluate_steady line steady
  | loaded seed => exact load_steady seed steady

theorem after_steady {session : Session} (course : List Event) (steady : session.ids.Steady) :
    (session.after course).ids.Steady :=
  after_keeps (motive := fun reached => reached.ids.Steady) (fun _ event => apply_steady event) course steady

variable (session : Session)

theorem evaluate_move (steady : session.ids.Steady) (line : String) :
    HistoryMove line session (session.evaluate line).2 := by
  rcases evaluate_step session line with same | ⟨command, read, step⟩
  · rw [same]
    exact .kept rfl rfl
  · cases step with
    | still repository ids => exact .kept (congrArg Repository.commits repository) ids
    | broken reason drawn repository ids =>
        obtain ⟨id, given⟩ := steady session.ids.drawn
        rw [IdSource.peek, given] at drawn
        exact absurd drawn (by simp)
    | reset asked repository ids =>
        rw [asked] at read
        exact .emptied read (congrArg Repository.commits repository) ids
    | relabel kept sound ids => exact .kept kept ids
    | record draft onto id drawn kept sound here sourced repository ids =>
        refine .appended (Plan.recorded draft onto id) drawn ids ?_ ?_ ?_
        · rw [repository, Repository.append, kept]
        · rw [← kept]
          rfl
        · rw [repository]
          exact here

theorem evaluate_grown (steady : session.ids.Steady) (line : String)
    (other : Command.parse line ≠ .ok .init) :
    session.toState.Grown (session.evaluate line).2.toState := by
  cases evaluate_move session steady line with
  | kept commits ids => exact ⟨[], by rw [commits, List.append_nil], by rw [ids], by rw [ids]; rfl⟩
  | emptied asked commits ids => exact absurd asked other
  | appended commit drawn ids commits time branch =>
      exact ⟨[commit], commits, by rw [ids]; rfl, by rw [ids]; rfl⟩

theorem apply_grown (steady : session.ids.Steady) (event : Event) (keeps : event.KeepsHistory) :
    session.toState.Grown (session.apply event).toState := by
  cases event with
  | typed line =>
      rw [apply, execute_evaluate]
      exact evaluate_grown session steady _ keeps
  | evaluated line => exact evaluate_grown session steady line keeps
  | loaded seed => exact keeps.elim

theorem after_grown (steady : session.ids.Steady) (course : List Event)
    (keeps : ∀ event ∈ course, event.KeepsHistory) :
    session.toState.Grown (session.after course).toState := by
  induction course generalizing session with
  | nil => exact State.grown_refl session.toState
  | cons event rest ih =>
      have first := apply_grown session steady event (keeps event List.mem_cons_self)
      have others := ih (session.apply event) (State.grown_steady first steady)
        (fun later present => keeps later (List.mem_cons_of_mem event present))
      exact State.grown_trans first others

theorem history_append_only (session : Session) (steady : session.ids.Steady) :
    (∀ line, HistoryMove line session (session.evaluate line).2) ∧
    (∀ earlier later : List Event, (∀ event ∈ earlier ++ later, event.KeepsHistory) →
      (session.after earlier).repository.commits <+:
          (session.after (earlier ++ later)).repository.commits ∧
        (session.after (earlier ++ later)).ids.drawn = (session.after earlier).ids.drawn +
          ((session.after (earlier ++ later)).repository.commits.length -
            (session.after earlier).repository.commits.length)) := by
  refine ⟨evaluate_move session steady, ?_⟩
  intro earlier later keeps
  have reached := after_grown session steady earlier
    (fun event present => keeps event (List.mem_append_left later present))
  have stillSteady := State.grown_steady reached steady
  obtain ⟨added, commits, _, drawn⟩ := after_grown (session.after earlier) stillSteady later
    (fun event present => keeps event (List.mem_append_right earlier present))
  rw [after_append, commits, drawn, List.length_append]
  exact ⟨List.prefix_append _ _, by rw [Nat.add_sub_cancel_left]⟩

theorem history_append_only_rebase :
    HistoryMove "git checkout -b dev" (start {} .sequential)
      ((start {} .sequential).evaluate "git checkout -b dev").2 ∧
    ((start {} .sequential).after [.evaluated "git checkout -b dev"]).repository.commits <+:
      ((start {} .sequential).after
        [.evaluated "git checkout -b dev", .typed " git rebase main"]).repository.commits ∧
    ((start {} .sequential).after
      [.evaluated "git checkout -b dev", .typed " git rebase main"]).repository.commits.length = 2 := by
  have cuts : Command.parse "git checkout -b dev" = .ok (.checkoutNew "dev") := rfl
  have rebases : Command.parse (Text.trimmed " git rebase main") = .ok (.rebase "main") := rfl
  obtain ⟨moves, runs⟩ := history_append_only (start {} .sequential) (fun place => ⟨_, rfl⟩)
  have grown := runs [.evaluated "git checkout -b dev"] [.typed " git rebase main"] (by
    intro event present
    rcases List.mem_cons.mp present with first | second
    · rw [first, Event.KeepsHistory, cuts]
      simp
    · rw [List.mem_singleton.mp second, Event.KeepsHistory, rebases]
      simp)
  exact ⟨moves "git checkout -b dev", grown.1, by decide⟩

end Session

end GitPractice
