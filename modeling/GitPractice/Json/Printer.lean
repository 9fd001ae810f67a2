import GitPractice.Json.Basic
import GitPractice.Text.Digits

set_option autoImplicit false

namespace GitPractice.Json

def shortEscapes : List (Char × Char) :=
  [('"', '"'), ('\\', '\\'), ('b', '\x08'), ('f', '\x0c'), ('n', '\n'), ('r', '\r'), ('t', '\t')]

def escape (c : Char) : String :=
  match shortEscapes.find? (·.2 == c) with
  | some (letter, _) => "\\" ++ String.singleton letter
  | none => if c.toNat < 0x20 then "\\u" ++ Text.digits 16 4 c.toNat else String.singleton c

def quoted (text : String) : String :=
  "\"" ++ text.toList.foldl (fun written c => written ++ escape c) "" ++ "\""

def openBrace : String := "\x7b"
def closeBrace : String := "\x7d"

def memberName (name : Option String) : String := quoted (name.getD "")

mutual

def compact : Json → String
  | .bool true => "true"
  | .bool false => "false"
  | .int value => toString value
  | .text value => quoted value
  | .array items => "[" ++ ",".intercalate (compactItems items) ++ "]"
  | .object members => openBrace ++ ",".intercalate (compactMembers members) ++ closeBrace
  | _ => "null"

def compactItems : List Json → List String
  | [] => []
  | item :: rest => compact item :: compactItems rest

def compactMembers : List (Option String × Json) → List String
  | [] => []
  | (name, value) :: rest => (memberName name ++ ":" ++ compact value) :: compactMembers rest

end

def indentation (depth : Nat) : String := .ofList (List.replicate (2 * depth) ' ')

def layout (opening closing : String) (depth : Nat) (parts : List String) : String :=
  if parts.isEmpty then opening ++ closing
  else
    opening ++ "\n" ++ ",\n".intercalate (parts.map (indentation (depth + 1) ++ ·)) ++ "\n" ++
      indentation depth ++ closing

mutual

def pretty (depth : Nat) : Json → String
  | .bool true => "true"
  | .bool false => "false"
  | .int value => toString value
  | .text value => quoted value
  | .array items => layout "[" "]" depth (prettyItems (depth + 1) items)
  | .object members => layout openBrace closeBrace depth (prettyMembers (depth + 1) members)
  | _ => "null"

def prettyItems (depth : Nat) : List Json → List String
  | [] => []
  | item :: rest => pretty depth item :: prettyItems depth rest

def prettyMembers (depth : Nat) : List (Option String × Json) → List String
  | [] => []
  | (name, value) :: rest => (memberName name ++ ": " ++ pretty depth value) :: prettyMembers depth rest

end

end GitPractice.Json
