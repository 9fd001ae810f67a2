set_option autoImplicit false

namespace GitPractice.CommandLine

inductive Place where
  | front
  | repl
  | run
  | serve
deriving DecidableEq, Repr

inductive Item where
  | seed (path : String)
  | settings (path : String)
  | listen (port : Nat)
  | deterministic
  | failFast
  | state
  | version
  | help
  | word (text : String)
deriving DecidableEq, Repr

inductive OptionKind where
  | plain (item : Item)
  | valued (make : String → Option Item)

def path (make : String → Item) (value : String) : Option Item :=
  if value = "" then none else some (make value)

def highestPort : Nat := 65535

def signed : List Char → Bool × List Char
  | '+' :: digits => (false, digits)
  | '-' :: digits => (true, digits)
  | digits => (false, digits)

def portNumber (value : String) : Option Item :=
  let (negative, digits) := signed value.toList
  if digits.isEmpty || !digits.all Char.isDigit then none
  else
    let number := digits.foldl (fun n c => n * 10 + (c.toNat - '0'.toNat)) 0
    if number ≤ highestPort && !(negative && number != 0) then some (.listen number) else none

def longOption (place : Place) (name : String) : Option OptionKind :=
  match name with
  | "seed" => some (.valued (path .seed))
  | "settings" => some (.valued (path .settings))
  | "deterministic" => some (.plain .deterministic)
  | "help" => some (.plain .help)
  | "version" => if place = .front then some (.plain .version) else none
  | "fail-fast" => if place = .run then some (.plain .failFast) else none
  | "state" => if place = .run then some (.plain .state) else none
  | "port" => if place = .serve then some (.valued portNumber) else none
  | _ => none

def shortOption (place : Place) (letter : Char) : Option OptionKind :=
  match letter with
  | 's' => some (.valued (path .seed))
  | 'h' => some (.plain .help)
  | 'V' => if place = .front then some (.plain .version) else none
  | 'p' => if place = .serve then some (.valued portNumber) else none
  | _ => none

def looksLikeOption (argument : String) : Bool :=
  match argument.toList with
  | '-' :: _ :: _ => true
  | _ => false

def nextValue (make : String → Option Item) : List String → Option (Item × List String)
  | [] => none
  | value :: rest => if looksLikeOption value then none else (make value).map fun item => (item, rest)

def readLong (place : Place) (written : List Char) (rest : List String) : Option (Item × List String) :=
  let name := String.ofList (written.takeWhile (· != '='))
  match longOption place name, written.dropWhile (· != '=') with
  | none, _ => none
  | some (.plain item), [] => some (item, rest)
  | some (.plain _), _ :: _ => none
  | some (.valued make), [] => nextValue make rest
  | some (.valued make), _ :: value => (make (.ofList value)).map fun item => (item, rest)

def readShort (place : Place) (letter : Char) (attached : List Char) (rest : List String) :
    Option (Item × List String) :=
  match shortOption place letter, attached with
  | none, _ => none
  | some (.plain item), _ => some (item, rest)
  | some (.valued make), [] => nextValue make rest
  | some (.valued make), '=' :: value => (make (.ofList value)).map fun item => (item, rest)
  | some (.valued make), value => (make (.ofList value)).map fun item => (item, rest)

def readArgument (place : Place) (argument : String) (rest : List String) :
    Option (Item × List String) :=
  match argument.toList with
  | '-' :: '-' :: written => readLong place written rest
  | '-' :: letter :: attached => readShort place letter attached rest
  | _ => some (.word argument, rest)

structure Given where
  seed : Option String := none
  settings : Option String := none
  listen : Option Nat := none
  deterministic : Bool := false
  failFast : Bool := false
  state : Bool := false
  words : List String := []
deriving DecidableEq, Repr

namespace Given

def add (given : Given) : Item → Option Given
  | .seed path => if given.seed.isSome then none else some { given with seed := some path }
  | .settings path => if given.settings.isSome then none else some { given with settings := some path }
  | .listen port => if given.listen.isSome then none else some { given with listen := some port }
  | .deterministic => if given.deterministic then none else some { given with deterministic := true }
  | .failFast => if given.failFast then none else some { given with failFast := true }
  | .state => if given.state then none else some { given with state := true }
  | .word text => some { given with words := given.words ++ [text] }
  | .version | .help => none

end Given

structure Options where
  seed : Option String
  settings : Option String
  deterministic : Bool
deriving DecidableEq, Repr

def Options.join (front later : Given) : Options where
  seed := later.seed.or front.seed
  settings := later.settings.or front.settings
  deterministic := front.deterministic || later.deterministic

inductive Task where
  | repl
  | run (script : String) (failFast state : Bool)
  | serve (port : Nat)
deriving DecidableEq, Repr

inductive Invocation where
  | task (options : Options) (task : Task)
  | version
  | help
deriving DecidableEq, Repr

def defaultPort : Nat := 3030

def Given.task (given : Given) : Place → Option Task
  | .run => match given.words with
    | [script] => if script = "" then none else some (.run script given.failFast given.state)
    | _ => none
  | .serve => if given.words.isEmpty then some (.serve (given.listen.getD defaultPort)) else none
  | .repl | .front => if given.words.isEmpty then some .repl else none

def readTask (place : Place) (front : Given) : Nat → Given → List String → Option Invocation
  | 0, _, _ => none
  | _ + 1, given, [] => (given.task place).map (.task (.join front given))
  | steps + 1, given, argument :: rest =>
      if argument = "--" then
        let given := { given with words := given.words ++ rest }
        (given.task place).map (.task (.join front given))
      else match readArgument place argument rest with
        | none => none
        | some (.help, _) => some .help
        | some (item, rest) => (given.add item).bind fun given => readTask place front steps given rest

def placeOf? : String → Option Place
  | "repl" => some .repl
  | "run" => some .run
  | "serve" => some .serve
  | _ => none

def readHelp : List String → Option Invocation
  | [] => some .help
  | [topic] => if topic = "help" || (placeOf? topic).isSome then some .help else none
  | _ => none

def readFront : Nat → Given → List String → Option Invocation
  | 0, _, _ => none
  | _ + 1, given, [] => some (.task (.join {} given) .repl)
  | steps + 1, given, argument :: rest =>
      if argument = "--" then if rest.isEmpty then some (.task (.join {} given) .repl) else none
      else match readArgument .front argument rest with
        | none => none
        | some (.help, _) => some .help
        | some (.version, _) => some .version
        | some (.word name, rest) =>
            if name = "help" then readHelp rest
            else (placeOf? name).bind fun place => readTask place given (rest.length + 1) {} rest
        | some (item, rest) => (given.add item).bind fun given => readFront steps given rest

def parse (arguments : List String) : Option Invocation := readFront (arguments.length + 1) {} arguments

end GitPractice.CommandLine
