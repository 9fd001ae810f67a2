import GitPractice.Text.Digits

set_option autoImplicit false

namespace GitPractice.MediaType

def tokenMarks : List Char := "!#$%&'*+-.^_`|~".toList

def isTokenChar (c : Char) : Bool :=
  Text.within 'a' 'z' c || Text.within 'A' 'Z' c || Text.isDigit c || tokenMarks.contains c

def isQuotedChar (c : Char) : Bool := Text.within ' ' '~' c

def skipQuoted (first : Bool) : List Char → Option (List Char)
  | [] => none
  | '\\' :: c :: rest => if isQuotedChar c then skipQuoted false rest else none
  | c :: rest =>
      if c = '"' ∧ first = false then some rest
      else if isQuotedChar c then skipQuoted false rest
      else none

def skipValue (cs : List Char) : Option (List Char) :=
  match cs with
  | '"' :: rest => do
      match (← skipQuoted true rest).dropWhile (· == ' ') with
      | [] => some []
      | ';' :: rest => some rest
      | _ => none
  | _ =>
      match cs.dropWhile isTokenChar with
      | [] => some []
      | ';' :: rest => if (cs.takeWhile isTokenChar).isEmpty then none else some rest
      | _ => none

def areParameters : Nat → List Char → Bool
  | 0, _ => false
  | steps + 1, cs =>
      let cs := cs.dropWhile (· == ' ')
      if cs.isEmpty then true
      else
        match cs.dropWhile isTokenChar with
        | '=' :: rest =>
            !(cs.takeWhile isTokenChar).isEmpty && (skipValue rest).any (areParameters steps)
        | _ => false

/-- Whether a subtype names JSON: all of it, the part up to its last plus sign, or the part after that. A plus
sign at the start counts as a letter. -/
def isJsonSubtype (subtype : List Char) : Bool :=
  let json := "json".toList
  match subtype with
  | [] => false
  | first :: rest =>
      if rest.contains '+' then
        let suffix := (rest.reverse.takeWhile (· != '+')).reverse
        let stem := first :: ((rest.reverse.dropWhile (· != '+')).drop 1).reverse
        suffix == json || stem == json
      else subtype == json

def isJson (type : String) : Bool :=
  let cs := type.toList.map Char.toLower
  match cs.dropWhile isTokenChar with
  | '/' :: rest =>
      let subtype := rest.takeWhile isTokenChar
      cs.takeWhile isTokenChar == "application".toList && isJsonSubtype subtype &&
        match rest.dropWhile isTokenChar with
        | [] => true
        | ';' :: parameters => areParameters (parameters.length + 1) parameters
        | _ => false
  | _ => false

end GitPractice.MediaType
