import GitPractice.CommandLine.Arguments
import GitPractice.CommandLine.Script
import GitPractice.Loading
import GitPractice.Server

set_option autoImplicit false

namespace GitPractice.CommandLine

structure Completion where
  code : Nat
  output : String
  complaint : Option String := none
deriving DecidableEq, Repr

namespace Completion

def success (output : String) : Completion := ⟨0, output, none⟩
def failure (output complaint : String) : Completion := ⟨1, output, some complaint⟩
def misuse : Completion := ⟨2, "", none⟩

end Completion

/-- The files that the program can see, and where its ids come from unless they are to be sequential. -/
structure Surroundings where
  file : String → Document
  ids : SessionId → IdSource

def loadSettings (surroundings : Surroundings) (options : Options) : Except String Settings :=
  match options.settings with
  | none => .ok {}
  | some name => match Settings.load name (surroundings.file name) with
    | .ok settings => .ok settings
    | .error _ => .error ("Failed to load settings from " ++ name)

def loadSeed (surroundings : Surroundings) (options : Options) : Except String (Option Seed) :=
  match options.seed with
  | none => .ok none
  | some name => match Seed.load name (surroundings.file name) with
    | .ok seed => .ok (some seed)
    | .error _ => .error ("Failed to load seed from " ++ name)

def idsOf (surroundings : Surroundings) (options : Options) (id : SessionId) : IdSource :=
  if options.deterministic then .sequential else surroundings.ids id

def settle {α : Type} : Outcome α → Except String α
  | .done value => .ok value
  | .refused error => .error error.message
  | .interrupted reason => .error (Error.interrupted reason).message

def openSession (settings : Settings) (seed : Option Seed) (ids : IdSource) : Except String Session :=
  let session := Session.start settings ids
  match seed with
  | none => .ok session
  | some seed =>
      let loaded := session.load seed
      (settle loaded.1).map fun _ => loaded.2

def prepareSession (surroundings : Surroundings) (options : Options) : Except String Session := do
  let settings ← loadSettings surroundings options
  let seed ← loadSeed surroundings options
  openSession settings seed (idsOf surroundings options ⟨0⟩)

def prepareServer (surroundings : Surroundings) (options : Options) : Except String Server := do
  let settings ← loadSettings surroundings options
  let seed ← loadSeed surroundings options
  settle (Server.start settings seed (idsOf surroundings options))

def stateText (repository : Repository) : String := repository.toJson.pretty 0 ++ "\n"

def runScript (name text : String) (failFast state : Bool) (session : Session) : Completion :=
  let result := Script.run failFast session (Script.lines text)
  match result.stopped with
  | some (number, line) =>
      .failure result.output (name ++ ":" ++ toString number ++ ": command failed: " ++ line)
  | none =>
      .success (result.output ++ if state then stateText result.session.repository else "")

def runFile (surroundings : Surroundings) (options : Options) (name : String) (failFast state : Bool) :
    Completion :=
  match (surroundings.file name).read name with
  | .error _ => .failure "" ("Failed to read script " ++ name)
  | .ok text => match prepareSession surroundings options with
    | .error complaint => .failure "" complaint
    | .ok session => runScript name text failFast state session

def versionText : String := "gitsim 0.1.0\n"

def helpText : String :=
  "Practice git commands against a simulated repository\n\n" ++
    "Usage: gitsim [OPTIONS] [COMMAND]\n\nCommands:\n" ++
    "  repl   Type commands interactively (default)\n" ++
    "  run    Run commands from a script, one per line\n" ++
    "  serve  Serve simulator sessions over HTTP\n\nOptions:\n" ++
    "  -s, --seed <SEED>          Initial repository state (challenge seed, .json or .toml)\n" ++
    "      --settings <SETTINGS>  Simulator settings file (TOML)\n" ++
    "      --deterministic        Use sequential commit ids instead of random ones\n" ++
    "  -h, --help                 Print help\n  -V, --version              Print version\n"

inductive Work where
  | finished (completion : Completion)
  | converse (session : Session)
  | serve (server : Server) (port : Nat)

def begin (surroundings : Surroundings) : Invocation → Work
  | .version => .finished (.success versionText)
  | .help => .finished (.success helpText)
  | .task options (.run script failFast state) =>
      .finished (runFile surroundings options script failFast state)
  | .task options .repl => match prepareSession surroundings options with
    | .ok session => .converse session
    | .error complaint => .finished (.failure "" complaint)
  | .task options (.serve port) => match prepareServer surroundings options with
    | .ok server => .serve server port
    | .error complaint => .finished (.failure "" complaint)

/-- What a server says before it listens. Listening itself is not done here. -/
def serverBanner (port : Nat) : String :=
  "Starting gitsim server...\n   API Server: http://localhost:" ++ toString port ++
    "\n\nPress Ctrl+C to stop\n\n"

def Work.finish (input : String) : Work → Completion
  | .finished completion => completion
  | .converse session =>
      .success (Prompt.banner session.repository ++ Prompt.converse session (Prompt.typedLines input))
  | .serve _ port => .failure (serverBanner port) "no listener is available"

def start (surroundings : Surroundings) (arguments : List String) : Work :=
  match parse arguments with
  | some invocation => begin surroundings invocation
  | none => .finished .misuse

def fileNames : Invocation → List String
  | .task options (.run script _ _) => script :: options.settings.toList ++ options.seed.toList
  | .task options _ => options.settings.toList ++ options.seed.toList
  | .version | .help => []

end GitPractice.CommandLine
