import GitPractice.Command.Parser
import GitPractice.Guarded.Checks
import GitPractice.Text.Slice

set_option autoImplicit false

namespace GitPractice.Guarded

open Line

def author? (raw : String) : Option Author :=
  let cs := Text.trim raw.toList
  match Text.firstPlace? '<' cs, Text.lastPlace? '>' cs with
  | some first, some last =>
      if first < last then do
        let name ← Text.slice? 0 first cs
        let email ← Text.slice? (first + 1) last cs
        return ⟨.ofList (Text.trim name), some (.ofList (Text.trim email))⟩
      else return ⟨.ofList cs, none⟩
  | _, _ => return ⟨.ofList cs, none⟩

def takenMessage : List Token → Option String × Nat
  | [] => (none, 0)
  | first :: rest =>
      if first.quoted then (some first.text, 1)
      else if first.isFlag then (none, 0)
      else
        let words := (first :: rest).takeWhile CommitOption.isWord
        (some (joined words), words.length)

/-- The arguments of a commit, from a place on. Each turn looks at the token at the place and moves on; when
the turns are used up before the end is reached, that is a fault. -/
def readCommit? (args : List Token) : Nat → Nat → Option String → Option Author → Option Command
  | 0, _, _, _ => none
  | turns + 1, place, message, who =>
      if place < args.length then do
        let token ← args[place]?
        if token.isExactly "-m" || token.isExactly "--message" then
          let rest ← from? (place + 1) args
          let taken := takenMessage rest
          readCommit? args turns (place + 1 + taken.2) (taken.1.or message) who
        else if token.isFlag then
          match CommitOption.after? "--message=" token.text, CommitOption.after? "--author=" token.text with
          | some text, _ => readCommit? args turns (place + 1) (some text) who
          | none, some raw => do
              let named ← author? raw
              readCommit? args turns (place + 1) message (some named)
          | none, none =>
              if token.text = "--author" then
                match args[place + 1]? with
                | some next => do
                    let named ← author? next.text
                    readCommit? args turns (place + 2) message (some named)
                | none => readCommit? args turns (place + 1) message who
              else
                readCommit? args turns (place + 1) ((CommitOption.after? "-m" token.text).or message) who
        else readCommit? args turns (place + 1) message who
      else return .commit message who

def readMerge? (args : List Token) : Option Command :=
  let words := operands args
  match words.findIdx? (· == Command.mergeWord) with
  | some place => do
      let before ← upTo? place words
      return .merge before.head? words[place + 1]?
  | none => return .merge words.head? none

def readConfig? (args : List Token) : Option (Except Error Command) :=
  match args.head? with
  | none => return .error (.missingConfigArgument .plain)
  | some first =>
      if Command.listWords.contains first.text then return .ok .listConfig
      else if Command.scopeWords.contains first.text then
        if args.length < 3 then return .error (.missingConfigArgument .scoped)
        else do
          let key ← args[1]?
          let words ← from? 2 args
          return .ok (.setConfig key.text (joined words))
      else if 2 ≤ args.length then do
        let words ← from? 1 args
        return .ok (.setConfig first.text (joined words))
      else return .ok (.getConfig first.text)

def read? (args : List Token) : Subcommand → Option (Except Error Command)
  | .commit => (readCommit? args (args.length + 1) 0 none none).map .ok
  | .merge => (readMerge? args).map .ok
  | .config => readConfig? args
  | sub => return Command.read args sub

def parse? (line : String) : Option (Except Error Command) :=
  let tokens := tokenize line
  match tokens.head?, tokens[1]? with
  | none, _ => return .error (.unknownTool "")
  | some first, second =>
      if first.text ≠ Command.tool then return .error (.unknownTool first.text)
      else match second with
        | none => return .ok (.help none)
        | some sub => do
            let args ← from? 2 tokens
            if Command.helpWords.contains sub.text then return .ok (.help (args.head?.map Token.text))
            else match Subcommand.ofWord? sub.text with
              | none => return .error (.unknownSubcommand sub.text)
              | some known => match ← read? args known with
                | .error fault => return .error fault
                | .ok command => return .ok (if Command.wantsHelp args then .help (some command.name) else command)

end GitPractice.Guarded
