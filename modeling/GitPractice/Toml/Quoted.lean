import GitPractice.Text.Digits

set_option autoImplicit false

namespace GitPractice.Toml

def isSpace (c : Char) : Bool := c == ' ' || c == '\t'

def skipSpace (cs : List Char) : List Char := cs.dropWhile isSpace

def newline? : List Char → Option (List Char)
  | '\n' :: rest => some rest
  | '\r' :: '\n' :: rest => some rest
  | _ => none

def isPrintable (c : Char) : Bool := c == '\t' || (0x20 ≤ c.toNat && c.toNat != 0x7F)

def escapes : List (Char × Char) :=
  [('b', '\x08'), ('t', '\t'), ('n', '\n'), ('f', '\x0c'), ('r', '\r'), ('"', '"'), ('\\', '\\')]

def scalar? (n : Nat) : Option Char := if n.isValidChar then some (Char.ofNat n) else none

def codePoint (width : Nat) (cs : List Char) : Option (Char × List Char) :=
  if cs.length < width then none
  else ((Text.number? 16 (cs.take width)).bind scalar?).map fun c => (c, cs.drop width)

def escape : List Char → Option (Char × List Char)
  | [] => none
  | 'u' :: rest => codePoint 4 rest
  | 'U' :: rest => codePoint 8 rest
  | letter :: rest => (escapes.find? (·.1 == letter)).map fun entry => (entry.2, rest)

def skipLines : List Char → List Char
  | '\n' :: rest => skipLines rest
  | '\r' :: '\n' :: rest => skipLines rest
  | ' ' :: rest => skipLines rest
  | '\t' :: rest => skipLines rest
  | rest => rest

def lineString (mark : Char) (escaped : Bool) : Nat → String → List Char → Option (String × List Char)
  | 0, _, _ => none
  | _ + 1, _, [] => none
  | steps + 1, text, c :: rest =>
      if c = mark then some (text, rest)
      else if escaped && c = '\\' then
        (escape rest).bind fun part => lineString mark escaped steps (text.push part.1) part.2
      else if isPrintable c then lineString mark escaped steps (text.push c) rest
      else none

def pushMarks (text : String) (mark : Char) : Nat → String
  | 0 => text
  | n + 1 => (pushMarks text mark n).push mark

/-- The rest of a string of several lines after its opening marks. Of a run of marks the last three close the
string, and at most two can stand before them. -/
def blockString (mark : Char) (escaped : Bool) : Nat → String → List Char → Option (String × List Char)
  | 0, _, _ => none
  | _ + 1, _, [] => none
  | steps + 1, text, c :: rest =>
      if c = mark then
        let run := ((c :: rest).takeWhile (· == mark)).length
        let after := (c :: rest).dropWhile (· == mark)
        if run < 3 then blockString mark escaped steps (pushMarks text mark run) after
        else if run ≤ 5 then some (pushMarks text mark (run - 3), after)
        else none
      else if escaped && c = '\\' then
        match newline? (skipSpace rest) with
        | some after => blockString mark escaped steps text (skipLines after)
        | none => (escape rest).bind fun part => blockString mark escaped steps (text.push part.1) part.2
      else match newline? (c :: rest) with
        | some after => blockString mark escaped steps (text.push '\n') after
        | none => if isPrintable c then blockString mark escaped steps (text.push c) rest else none

def isEscaped (mark : Char) : Bool := mark == '"'

def lineText : List Char → Option (String × List Char)
  | [] => none
  | mark :: rest =>
      if mark = '"' || mark = '\'' then lineString mark (isEscaped mark) (rest.length + 1) "" rest else none

def text : List Char → Option (String × List Char)
  | a :: b :: c :: rest =>
      if (a = '"' || a = '\'') && b = a && c = a then
        let body := (newline? rest).getD rest
        blockString a (isEscaped a) (body.length + 1) "" body
      else lineText (a :: b :: c :: rest)
  | cs => lineText cs

def isBareKey (c : Char) : Bool :=
  Text.within 'a' 'z' c || Text.within 'A' 'Z' c || Text.isDigit c || c == '_' || c == '-'

def simpleKey (cs : List Char) : Option (String × List Char) :=
  match lineText cs with
  | some part => some part
  | none =>
      let bare := cs.takeWhile isBareKey
      if bare.isEmpty then none else some (.ofList bare, cs.dropWhile isBareKey)

def keyParts : Nat → List Char → Option (List String × List Char)
  | 0, _ => none
  | steps + 1, cs => do
      let (first, rest) ← simpleKey (skipSpace cs)
      match skipSpace rest with
      | '.' :: rest => do
          let (more, rest) ← keyParts steps rest
          some (first :: more, rest)
      | rest => some ([first], rest)

def depthLimit : Nat := 80

def key (cs : List Char) : Option ((List String × String) × List Char) := do
  let (parts, rest) ← keyParts (cs.length + 1) cs
  if depthLimit ≤ parts.length then none
  else
    match parts.reverse with
    | [] => none
    | last :: earlier => some ((earlier.reverse, last), rest)

end GitPractice.Toml
