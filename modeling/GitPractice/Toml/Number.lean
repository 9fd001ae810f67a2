import GitPractice.Toml.Table
import GitPractice.Toml.Quoted

set_option autoImplicit false

namespace GitPractice.Toml

def lowestInt : Int := -9223372036854775808
def highestInt : Int := 9223372036854775807

/-- The digits at the start of a text, without the underscores between them. An underscore has to be followed
by a digit. -/
def digits (isDigit : Char → Bool) : List Char → Option (List Char × List Char)
  | [] => some ([], [])
  | c :: rest =>
      if isDigit c then (digits isDigit rest).map fun part => (c :: part.1, part.2)
      else if c = '_' then match rest with
        | d :: _ => if isDigit d then digits isDigit rest else none
        | [] => none
      else some ([], c :: rest)

def someDigits (isDigit : Char → Bool) : List Char → Option (List Char × List Char)
  | [] => none
  | c :: rest => if isDigit c then digits isDigit (c :: rest) else none

def sign : List Char → Bool × List Char
  | '-' :: rest => (true, rest)
  | '+' :: rest => (false, rest)
  | rest => (false, rest)

def wholeDigits : List Char → Option (List Char × List Char)
  | '0' :: rest => some (['0'], rest)
  | rest => someDigits Text.isDigit rest

def bounded (value : Int) : Option Value :=
  if lowestInt ≤ value ∧ value ≤ highestInt then some (.int value) else none

def isDigitOf (base : Nat) (c : Char) : Bool := (Text.digit? base c).isSome

def basedInt (base : Nat) (cs : List Char) : Option (Value × List Char) := do
  let (found, rest) ← someDigits (isDigitOf base) cs
  let n ← Text.number? base found
  let value ← bounded n
  some (value, rest)

def decimalInt (cs : List Char) : Option (Value × List Char) := do
  let (negative, cs) := sign cs
  let (found, rest) ← wholeDigits cs
  let n ← Text.number? 10 found
  let value ← bounded (if negative then -n else n)
  some (value, rest)

def integer : List Char → Option (Value × List Char)
  | '0' :: 'x' :: rest => basedInt 16 rest
  | '0' :: 'o' :: rest => basedInt 8 rest
  | '0' :: 'b' :: rest => basedInt 2 rest
  | cs => decimalInt cs

def fraction : List Char → Option (List Char × List Char)
  | '.' :: rest => someDigits Text.isDigit rest
  | rest => some ([], rest)

def signedDigits (cs : List Char) : Option (Int × List Char) := do
  let (negative, cs) := sign cs
  let (found, rest) ← someDigits Text.isDigit cs
  let n ← Text.number? 10 found
  some (if negative then -n else n, rest)

def exponent : List Char → Option (Option Int × List Char)
  | 'e' :: rest => (signedDigits rest).map fun part => (some part.1, part.2)
  | 'E' :: rest => (signedDigits rest).map fun part => (some part.1, part.2)
  | rest => some (none, rest)

def decimalFloat (cs : List Char) : Option (Value × List Char) := do
  let (negative, cs) := sign cs
  let (whole, rest) ← wholeDigits cs
  let (part, rest) ← fraction rest
  let (power, rest) ← exponent rest
  if part.isEmpty && power.isNone then none
  else if !negative && Text.isInfinite (whole ++ part) (power.getD 0 - part.length) then none
  else some (.float, rest)

def specialFloat (cs : List Char) : Option (Value × List Char) :=
  match (sign cs).2 with
  | 'i' :: 'n' :: 'f' :: rest => some (.float, rest)
  | 'n' :: 'a' :: 'n' :: rest => some (.float, rest)
  | _ => none

def number (cs : List Char) : Option (Value × List Char) :=
  (decimalFloat cs).or ((specialFloat cs).or (integer cs))

end GitPractice.Toml
