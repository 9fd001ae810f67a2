import GitPractice.Session

set_option autoImplicit false

namespace GitPractice

inductive Event where
  | typed (line : String)
  | evaluated (line : String)
  | loaded (seed : Seed)
deriving DecidableEq, Repr

def Event.command? : Event → Option Command
  | .typed line => (Command.parse (Text.trimmed line)).toOption
  | .evaluated line => (Command.parse line).toOption
  | .loaded _ => none

namespace Session

def apply (session : Session) : Event → Session
  | .typed line => (session.execute line).2
  | .evaluated line => (session.evaluate line).2
  | .loaded seed => (session.load seed).2

def after (session : Session) (course : List Event) : Session := course.foldl apply session

theorem after_append (session : Session) (earlier later : List Event) :
    session.after (earlier ++ later) = (session.after earlier).after later :=
  List.foldl_append

theorem after_keeps {motive : Session → Prop}
    (kept : ∀ session event, motive session → motive (session.apply event)) {session : Session}
    (course : List Event) (start : motive session) : motive (session.after course) := by
  induction course generalizing session with
  | nil => exact start
  | cons event rest ih => exact ih (kept session event start)

theorem after_settings (session : Session) (course : List Event) :
    (session.after course).settings = session.settings := by
  refine after_keeps (motive := fun reached => reached.settings = session.settings) ?_ course rfl
  intro reached event same
  rw [← same]
  cases event with
  | typed line => exact execute_settings reached line
  | evaluated line => exact evaluate_settings reached line
  | loaded seed => exact load_settings reached seed

/-- What an event comes to: a command is run, a seed is loaded, or nothing is done to the state. -/
inductive Effect (session : Session) (event : Event) : Prop where
  | ran (command : Command) (asked : event.command? = some command)
      (state : (session.apply event).toState = (session.run command).2.toState)
  | loaded (seed : Seed) (given : event = .loaded seed)
  | idle (asked : event.command? = none) (state : (session.apply event).toState = session.toState)

theorem evaluate_unread (session : Session) {line : String}
    (unread : (Command.parse line).toOption = none) : (session.evaluate line).2 = session := by
  rw [evaluate]
  cases read : Command.parse line with
  | error fault => rfl
  | ok command =>
      rw [read] at unread
      exact absurd unread (by simp [Except.toOption])

theorem evaluate_read (session : Session) {line : String} {command : Command}
    (read : (Command.parse line).toOption = some command) : session.evaluate line = session.run command := by
  rw [evaluate]
  cases parsed : Command.parse line with
  | error fault =>
      rw [parsed] at read
      exact absurd read (by simp [Except.toOption])
  | ok other =>
      rw [parsed] at read
      cases read
      rfl

theorem execute_evaluate (session : Session) (line : String) :
    (session.execute line).2.toState = (session.evaluate (Text.trimmed line)).2.toState := by
  cases filled : Text.isBlankText line with
  | true =>
      rw [execute_blank session filled, (Text.blank_text_iff line).mp filled]
      rfl
  | false => rw [execute_filled session filled]

theorem apply_effect (session : Session) (event : Event) : Effect session event := by
  have evaluated (line : String) (asked : event.command? = (Command.parse line).toOption)
      (same : (session.apply event).toState = (session.evaluate line).2.toState) :
      Effect session event := by
    cases read : (Command.parse line).toOption with
    | none => exact .idle (asked.trans read) (by rw [same, evaluate_unread session read])
    | some command => exact .ran command (asked.trans read) (by rw [same, evaluate_read session read])
  cases event with
  | typed line => exact evaluated (Text.trimmed line) rfl (execute_evaluate session line)
  | evaluated line => exact evaluated line rfl rfl
  | loaded seed => exact .loaded seed rfl

end Session

end GitPractice
