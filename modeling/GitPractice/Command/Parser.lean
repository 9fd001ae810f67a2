import GitPractice.Command
import GitPractice.Error
import GitPractice.Line.Token

set_option autoImplicit false

namespace GitPractice

open Line

/-- One option of a commit; of several options of a kind the last one counts. -/
inductive CommitOption where
  | message (text : String)
  | author (who : Author)
deriving DecidableEq, Repr

namespace CommitOption

def message? : CommitOption → Option String
  | .message text => some text
  | .author _ => none

def author? : CommitOption → Option Author
  | .message _ => none
  | .author who => some who

def after? (beginning text : String) : Option String :=
  (beginning.toList.isPrefixOf? text.toList).map String.ofList

def ofFlag? (flag : String) : Option CommitOption :=
  match after? "--message=" flag with
  | some text => some (.message text)
  | none => match after? "--author=" flag with
    | some text => some (.author (Author.parse text))
    | none => (after? "-m" flag).map .message

def isWord (token : Token) : Bool := !token.quoted && !token.isFlag

/-- The message that follows a bare message flag, and the tokens after it. A quoted message is one token; an
unquoted one runs over all words up to the next flag or quoted token. -/
def takeMessage : List Token → Option String × List Token
  | [] => (none, [])
  | first :: rest =>
      if first.quoted then (some first.text, rest)
      else if first.isFlag then (none, first :: rest)
      else (some (joined ((first :: rest).takeWhile isWord)), (first :: rest).dropWhile isWord)

theorem take_message_shrinks (tokens : List Token) : (takeMessage tokens).2.length ≤ tokens.length := by
  cases tokens with
  | nil => simp [takeMessage]
  | cons first rest =>
    by_cases quoted : first.quoted
    · simp [takeMessage, quoted]
    · by_cases flag : first.isFlag
      · simp [takeMessage, quoted, flag]
      · simpa [takeMessage, quoted, flag] using
          (List.dropWhile_sublist (l := first :: rest) isWord).length_le

def ofTokens : List Token → List CommitOption
  | [] => []
  | token :: rest =>
      if token.isExactly "-m" || token.isExactly "--message" then
        (takeMessage rest).1.toList.map .message ++ ofTokens (takeMessage rest).2
      else if token.isExactly "--author" then
        match rest with
        | [] => []
        | value :: after => .author (Author.parse value.text) :: ofTokens after
      else if token.isFlag then (ofFlag? token.text).toList ++ ofTokens rest
      else ofTokens rest
termination_by tokens => tokens.length
decreasing_by
  · exact Nat.lt_succ_of_le (take_message_shrinks rest)
  · simp only [List.length_cons]
    omega
  · simp
  · simp

section
variable {token : Token} {rest : List Token}

theorem of_tokens_bare (bare : (token.isExactly "-m" || token.isExactly "--message") = true) :
    ofTokens (token :: rest) = (takeMessage rest).1.toList.map .message ++ ofTokens (takeMessage rest).2 := by
  rw [ofTokens.eq_def]
  simp only [bare, if_true]

theorem of_tokens_operand (operand : token.isFlag = false) : ofTokens (token :: rest) = ofTokens rest := by
  rw [ofTokens.eq_def]
  simp [Token.isExactly, operand]

variable (other : (token.isExactly "-m" || token.isExactly "--message") = false)
include other

theorem of_tokens_valued (value : Token) (asks : token.isExactly "--author" = true) :
    ofTokens (token :: value :: rest) = .author (Author.parse value.text) :: ofTokens rest := by
  rw [ofTokens.eq_def]
  simp only [other, asks, if_true, Bool.false_eq_true, if_false]

theorem of_tokens_flag (unasked : token.isExactly "--author" = false) (flag : token.isFlag = true) :
    ofTokens (token :: rest) = (ofFlag? token.text).toList ++ ofTokens rest := by
  rw [ofTokens.eq_def]
  simp only [other, unasked, flag, if_true, Bool.false_eq_true, if_false]

end

end CommitOption

namespace Command

def switchComplaint : String := "error: switch `b' requires a value"
def checkoutComplaint : String := "error: you must specify a branch to checkout"
def deleteComplaint : String := "fatal: branch name required"

def readCommit (args : List Token) : Command :=
  let options := CommitOption.ofTokens args
  .commit (options.filterMap CommitOption.message?).getLast? (options.filterMap CommitOption.author?).getLast?

def readOperandCheckout (args : List Token) : Except Error Command :=
  match operands args with
  | branch :: _ => .ok (.checkout branch)
  | [] => .error (.missingBranch checkoutComplaint)

def readCheckout : List Token → Except Error Command
  | [] => readOperandCheckout []
  | first :: rest =>
      if first.isExactly "-b" then
        match rest with
        | branch :: _ => .ok (.checkoutNew branch.text)
        | [] => .error (.missingBranch switchComplaint)
      else readOperandCheckout (first :: rest)

def mergeWord : String := "into"

def readMerge (args : List Token) : Command :=
  let words := operands args
  .merge (words.takeWhile (· != mergeWord)).head? (words.dropWhile (· != mergeWord)).tail.head?

def everyFile : List String := [".", "-A", "--all"]

def readPaths (args : List Token) : Command := .addPaths ((args.map Token.text).filter (· != ""))

def readAdd : List Token → Command
  | [] => readPaths []
  | first :: rest =>
      if !first.quoted && everyFile.contains first.text then .addAll else readPaths (first :: rest)

def deleteFlags : List String := ["-d", "-D", "--delete"]

def readBranch : List Token → Except Error Command
  | [] => .ok .listBranches
  | first :: rest =>
      if first.isFlag then
        if deleteFlags.contains first.text then
          match rest with
          | branch :: _ => .ok (.deleteBranch branch.text)
          | [] => .error (.missingBranch deleteComplaint)
        else .ok .listBranches
      else .ok (.createBranch first.text)

def listWords : List String := ["--list", "-l"]
def scopeWords : List String := ["--global", "--local"]

def readScopedConfig : List Token → Except Error Command
  | key :: first :: rest => .ok (.setConfig key.text (joined (first :: rest)))
  | _ => .error (.missingConfigArgument .scoped)

def readConfig : List Token → Except Error Command
  | [] => .error (.missingConfigArgument .plain)
  | first :: rest =>
      if listWords.contains first.text then .ok .listConfig
      else if scopeWords.contains first.text then readScopedConfig rest
      else match rest with
        | [] => .ok (.getConfig first.text)
        | _ :: _ => .ok (.setConfig first.text (joined rest))

def read (args : List Token) : Subcommand → Except Error Command
  | .commit => .ok (readCommit args)
  | .checkout => readCheckout args
  | .merge => .ok (readMerge args)
  | .rebase => .ok (.rebase ((operands args).head?.getD ""))
  | .init => .ok .init
  | .add => .ok (readAdd args)
  | .status => .ok .status
  | .branch => readBranch args
  | .push => .ok (.push (operands args).head? (operands args).tail.head?)
  | .pull => .ok (.pull (operands args).head? (operands args).tail.head?)
  | .fetch => .ok .fetch
  | .diff => .ok .diff
  | .config => readConfig args
  | .log => .ok (.log (hasFlag "--oneline" args) (hasFlag "--graph" args))
  | .display => .ok (.display (operands args).head?)

def tool : String := "git"

def helpWords : List String := ["help", "--help", "-h"]

def isLongHelp (token : Token) : Bool := !token.quoted && token.text == "--help"
def isShortHelp (token : Token) : Bool := !token.quoted && token.text == "-h"

def wantsHelp (args : List Token) : Bool := args.any isLongHelp || args.head?.any isShortHelp

def ofArguments : List Token → Except Error Command
  | [] => .ok (.help none)
  | sub :: args =>
      if helpWords.contains sub.text then .ok (.help (args.head?.map Token.text))
      else match Subcommand.ofWord? sub.text with
        | none => .error (.unknownSubcommand sub.text)
        | some known => match read args known with
          | .error fault => .error fault
          | .ok command => .ok (if wantsHelp args then .help (some command.name) else command)

def ofTokens : List Token → Except Error Command
  | [] => .error (.unknownTool "")
  | first :: rest =>
      if first.text = tool then ofArguments rest else .error (.unknownTool first.text)

def parse (line : String) : Except Error Command := ofTokens (tokenize line)

theorem read_belongs (args : List Token) (sub : Subcommand) (command : Command)
    (accepted : read args sub = .ok command) : command.subcommand = some sub := by
  cases sub <;> simp only [read, readCommit, readCheckout, readOperandCheckout, readMerge, readAdd,
    readPaths, readBranch, readConfig, readScopedConfig] at accepted
  all_goals (repeat' split at accepted) <;> first | (cases accepted; rfl) | exact absurd accepted (by simp)

/-- The subcommand reads its arguments first. Only a command that they make gives way to its manual page. -/
theorem of_arguments_known (sub : Subcommand) (quoted : Bool) (args : List Token) :
    ofArguments (⟨sub.word, quoted⟩ :: args) =
      (read args sub).map fun command => if wantsHelp args then .help (some sub.word) else command := by
  have other : helpWords.contains sub.word = false := by
    cases sub <;> decide
  simp only [ofArguments, other, Bool.false_eq_true, if_false, Subcommand.of_word_word]
  cases accepted : read args sub with
  | error fault => rfl
  | ok command =>
      have named : command.name = sub.word := by
        rw [name, read_belongs args sub command accepted]
        rfl
      simp only [Except.map, named]

theorem parse_known (sub : Subcommand) {line : String} {first second : Bool} {args : List Token}
    (tokens : tokenize line = ⟨tool, first⟩ :: ⟨sub.word, second⟩ :: args) (unasked : wantsHelp args = false) :
    parse line = read args sub := by
  rw [parse, tokens, ofTokens, if_pos rfl, of_arguments_known, unasked]
  cases read args sub with
  | error fault => rfl
  | ok command => rfl

end Command

end GitPractice
