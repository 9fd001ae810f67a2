import GitPractice.Action
import GitPractice.Command.Parser
import GitPractice.Seed
import GitPractice.Transcript

set_option autoImplicit false

namespace GitPractice

structure Session extends State where
  transcript : Transcript := {}
  settings : Settings

namespace Session

def start (settings : Settings) (ids : IdSource) : Session where
  repository := .fresh settings.defaultBranch
  config := settings.config
  settings := settings
  ids := ids

/-- Replaces the repository by that of a seed. Whatever goes wrong, only the ids drawn until then are gone. -/
def load (session : Session) (seed : Seed) : Outcome Unit × Session :=
  match seed.build session.config.signature session.ids with
  | (.done repository, ids) => (.done (), { session with repository := repository, ids := ids })
  | (.refused error, ids) => (.refused error, { session with ids := ids })
  | (.interrupted reason, ids) => (.interrupted reason, { session with ids := ids })

def conduct (session : Session) (action : Action String) : Outcome String × Session :=
  let result := action.run session.toState
  (result.1, { session with toState := result.2 })

def run (session : Session) (command : Command) : Outcome String × Session :=
  session.conduct (.ofCommand session.settings command)

def evaluate (session : Session) (line : String) : Outcome String × Session :=
  match Command.parse line with
  | .error error => (.refused error, session)
  | .ok command => session.run command

def resultEntry : Outcome String → Entry
  | .done text => ⟨text, .output⟩
  | .refused error => ⟨error.message, .error⟩
  | .interrupted reason => ⟨(Error.interrupted reason).message, .error⟩

/-- Runs a line that was typed: its echo and its result go to the transcript. A blank line is passed over. The
entries that were added stand beside the session. -/
def execute (session : Session) (line : String) : List Entry × Session :=
  if Text.isBlankText line then ([], session)
  else
    let typed := Text.trimmed line
    let result := session.evaluate typed
    let entries := [Entry.echo typed, resultEntry result.1]
    (entries, { result.2 with transcript := session.transcript.append entries })

def executeAll (session : Session) (lines : List String) : Session :=
  lines.foldl (fun session line => (session.execute line).2) session

def executeCounted (session : Session) (lines : List String) : Nat × Session :=
  let after := session.executeAll lines
  (after.transcript.size - session.transcript.size, after)

theorem run_settings (session : Session) (command : Command) :
    (session.run command).2.settings = session.settings := by
  rw [run, conduct]

theorem evaluate_settings (session : Session) (line : String) :
    (session.evaluate line).2.settings = session.settings := by
  rw [evaluate]
  split
  · rfl
  · exact run_settings session _

theorem evaluate_asks {session : Session} {line : String} {command : Command}
    {answer : State → Except Error String} (asked : Command.parse line = .ok command)
    (asks : Action.ofCommand session.settings command = .ask answer) :
    session.evaluate line =
      (match answer session.toState with
        | .ok text => .done text
        | .error error => .refused error, session) := by
  simp only [evaluate, asked, run, conduct, asks, Action.ask]
  cases answer session.toState with
  | ok text => rfl
  | error error => rfl

theorem evaluate_log {session : Session} {line : String} {isOneline isGraph : Bool}
    (asked : Command.parse line = .ok (.log isOneline isGraph)) :
    session.evaluate line =
      (if session.repository.commits = [] then .refused (.noCommits session.repository.current)
        else .done (Log.render isOneline isGraph session.repository.commits), session) := by
  rw [evaluate_asks asked rfl, Answer.log]
  by_cases empty : session.repository.commits = []
  · simp [empty]
  · simp [empty]

theorem execute_blank (session : Session) {line : String} (blank : Text.isBlankText line = true) :
    session.execute line = ([], session) := by
  rw [execute, if_pos blank]

theorem execute_filled (session : Session) {line : String} (filled : Text.isBlankText line = false) :
    session.execute line =
      ([Entry.echo (Text.trimmed line), resultEntry (session.evaluate (Text.trimmed line)).1],
        { (session.evaluate (Text.trimmed line)).2 with
          transcript := session.transcript.append
            [Entry.echo (Text.trimmed line), resultEntry (session.evaluate (Text.trimmed line)).1] }) := by
  rw [execute, filled, if_neg Bool.false_ne_true]

theorem execute_transcript (session : Session) (line : String) :
    (session.execute line).2.transcript = session.transcript.append (session.execute line).1 := by
  simp only [execute]
  split
  · simp [Transcript.append]
  · rfl

theorem execute_settings (session : Session) (line : String) :
    (session.execute line).2.settings = session.settings := by
  simp only [execute]
  split
  · rfl
  · simp only [evaluate_settings]

theorem load_settings (session : Session) (seed : Seed) :
    (session.load seed).2.settings = session.settings := by
  rw [load]
  split <;> rfl

end Session

end GitPractice
