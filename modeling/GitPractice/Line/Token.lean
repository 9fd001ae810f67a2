import GitPractice.Text.Blank

set_option autoImplicit false

namespace GitPractice.Line

structure Token where
  text : String
  quoted : Bool
deriving DecidableEq, Repr

def isQuote (c : Char) : Bool := c == '"' || c == '\''

inductive Scan where
  | between
  | word (text : String) (quoted : Bool)
  | stretch (mark : Char) (text : String) (quoted : Bool)
deriving DecidableEq, Repr

def scan : Scan → List Char → List Token
  | .between, [] => []
  | .word text quoted, [] => [⟨text, quoted⟩]
  | .stretch _ text quoted, [] => [⟨text, quoted⟩]
  | .between, c :: rest =>
      if isQuote c then scan (.stretch c "" true) rest
      else if Text.isBlank c then scan .between rest
      else scan (.word (String.singleton c) false) rest
  | .word text quoted, c :: rest =>
      if isQuote c then scan (.stretch c text quoted) rest
      else if Text.isBlank c then ⟨text, quoted⟩ :: scan .between rest
      else scan (.word (text.push c) quoted) rest
  | .stretch mark text quoted, c :: rest =>
      if c = mark then scan (.word text quoted) rest
      else scan (.stretch mark (text.push c) quoted) rest

def tokenize (line : String) : List Token := scan .between line.toList

theorem scan_between_blank (c : Char) (rest : List Char) (blank : Text.isBlank c = true)
    (plain : isQuote c = false) : scan .between (c :: rest) = scan .between rest := by
  simp [scan, blank, plain]

theorem scan_word_blank (text : String) (quoted : Bool) (c : Char) (rest : List Char)
    (blank : Text.isBlank c = true) (plain : isQuote c = false) :
    scan (.word text quoted) (c :: rest) = ⟨text, quoted⟩ :: scan .between rest := by
  simp [scan, blank, plain]

theorem blank_not_quote (c : Char) (blank : Text.isBlank c = true) : isQuote c = false := by
  by_cases double : c = '"'
  · subst double
    exact absurd blank (by decide)
  · by_cases single : c = '\''
    · subst single
      exact absurd blank (by decide)
    · simp [isQuote, double, single]

namespace Token

def isFlag (token : Token) : Bool :=
  !token.quoted && match token.text.toList with
    | '-' :: _ :: _ => true
    | _ => false

def isExactly (token : Token) (flag : String) : Bool := token.isFlag && token.text == flag

theorem quoted_not_flag (token : Token) (quoted : token.quoted = true) : token.isFlag = false := by
  simp [isFlag, quoted]

/-- A token that some line holds: quoted, or starting with a character that a bare word can start with. -/
def WellFormed (token : Token) : Prop :=
  token.quoted = true ∨
    ∃ c rest, token.text.toList = c :: rest ∧ isQuote c = false ∧ Text.isBlank c = false

end Token

def operands (tokens : List Token) : List String :=
  (tokens.filter fun token => !token.isFlag).map Token.text

def hasFlag (flag : String) (tokens : List Token) : Bool := tokens.any (·.isExactly flag)

def joined (tokens : List Token) : String := String.intercalate " " (tokens.map Token.text)

end GitPractice.Line
