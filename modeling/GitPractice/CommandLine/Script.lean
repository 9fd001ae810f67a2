import GitPractice.Session

/-!
Running a script, and a prompt to type at. All that is printed is what a standard output gets that is no terminal,
as when it goes to a file. Only on a terminal are echoes set in bold, errors in red, and the mark and the banner of
the prompt in colours of their own.
-/

set_option autoImplicit false

namespace GitPractice

/-- An entry as it is printed. An empty output prints nothing. -/
def Entry.printed (entry : Entry) : String :=
  if entry.kind = .output ∧ entry.message = "" then "" else entry.message ++ "\n"

def printedAll (entries : List Entry) : String := "".intercalate (entries.map Entry.printed)

namespace Script

def number : Nat → List String → List (Nat × String)
  | _, [] => []
  | n, text :: rest => (n, text) :: number (n + 1) rest

def isRun (line : String) : Bool := line != "" && line.toList.head? != some '#'

def linesOf (text : String) : List String := (text.toList.splitOn '\n').map .ofList

def lines (text : String) : List (Nat × String) :=
  (number 1 ((linesOf text).map Text.trimmed)).filter fun line => isRun line.2

structure Result where
  output : String
  session : Session
  stopped : Option (Nat × String)

def run (failFast : Bool) (session : Session) : List (Nat × String) → Result
  | [] => ⟨"", session, none⟩
  | line :: rest =>
      let ran := session.execute line.2
      if failFast && ran.1.any Entry.isError then ⟨printedAll ran.1, ran.2, some line⟩
      else
        let later := run failFast ran.2 rest
        ⟨printedAll ran.1 ++ later.output, later.session, later.stopped⟩

end Script

namespace Prompt

def exitWords : List String := ["exit", "quit"]

def banner (repository : Repository) : String :=
  "gitsim - simulated git repository\n   Branch: " ++ repository.current ++ "\n   Commits: " ++
    toString repository.commits.length ++ "\n\nType 'git help' for commands, 'exit' to leave\n\n"

def mark : String := "$ "

/-- What a typed line prints, and the session after it; nothing if the line leaves the prompt. -/
def respond (session : Session) (line : String) : Option (String × Session) :=
  if exitWords.contains (Text.trimmed line) then none
  else
    let ran := session.execute line
    some (printedAll (ran.1.filter (·.kind != .input)), ran.2)

def converse (session : Session) : List String → String
  | [] => mark ++ "\n"
  | line :: rest => match respond session line with
    | none => mark
    | some (printed, after) => mark ++ printed ++ converse after rest

def typedLines (input : String) : List String :=
  let lines := Script.linesOf input
  if lines.getLast? = some "" then lines.dropLast else lines

end Prompt

end GitPractice
