import GitPractice.Calendar
import GitPractice.Toml.Table
import GitPractice.Toml.Quoted

set_option autoImplicit false

namespace GitPractice.Toml

def fixedDigits (width low high : Nat) (cs : List Char) : Option (Nat × List Char) :=
  if cs.length < width then none
  else
    ((Text.number? 10 (cs.take width)).filter fun n => decide (low ≤ n) && decide (n ≤ high)).map
      fun n => (n, cs.drop width)

def mark (c : Char) : List Char → Option (List Char)
  | [] => none
  | d :: rest => if d = c then some rest else none

def isLeap (year : Nat) : Bool := year % 4 == 0 && (year % 100 != 0 || year % 400 == 0)

def monthLength (year month : Nat) : Nat :=
  if month = 2 then if isLeap year then 29 else 28
  else if month = 4 ∨ month = 6 ∨ month = 9 ∨ month = 11 then 30 else 31

def date (cs : List Char) : Option (String × List Char) := do
  let (year, rest) ← fixedDigits 4 0 9999 cs
  let rest ← mark '-' rest
  let (month, rest) ← fixedDigits 2 1 12 rest
  let rest ← mark '-' rest
  let (day, rest) ← fixedDigits 2 1 (monthLength year month) rest
  some (Text.decimal 4 year ++ "-" ++ Text.decimal 2 month ++ "-" ++ Text.decimal 2 day, rest)

/-- Digits of a second after the point: at most nine count, and zeros at the end do not. -/
def secondPart (digits : List Char) : String :=
  let kept := ((digits.take 9).reverse.dropWhile (· == '0')).reverse
  if kept.isEmpty then "" else "." ++ .ofList kept

def fractionOfSecond : List Char → Option (String × List Char)
  | '.' :: rest =>
      let digits := rest.takeWhile Text.isDigit
      if digits.isEmpty then none else some (secondPart digits, rest.dropWhile Text.isDigit)
  | rest => some ("", rest)

def time (cs : List Char) : Option (String × List Char) := do
  let (hour, rest) ← fixedDigits 2 0 23 cs
  let rest ← mark ':' rest
  let (minute, rest) ← fixedDigits 2 0 59 rest
  let rest ← mark ':' rest
  let (second, rest) ← fixedDigits 2 0 60 rest
  let (part, rest) ← fractionOfSecond rest
  some (Text.decimal 2 hour ++ ":" ++ Text.decimal 2 minute ++ ":" ++ Text.decimal 2 second ++ part, rest)

def signedOffset (negative : Bool) (cs : List Char) : Option (String × List Char) := do
  let (hour, rest) ← fixedDigits 2 0 23 cs
  let rest ← mark ':' rest
  let (minute, rest) ← fixedDigits 2 0 59 rest
  let shown := if negative && hour + minute != 0 then "-" else "+"
  some (shown ++ Text.decimal 2 hour ++ ":" ++ Text.decimal 2 minute, rest)

def offset : List Char → Option (String × List Char)
  | 'Z' :: rest => some ("Z", rest)
  | 'z' :: rest => some ("Z", rest)
  | '+' :: rest => signedOffset false rest
  | '-' :: rest => signedOffset true rest
  | rest => some ("", rest)

def isDivider (c : Char) : Bool := c == 'T' || c == 't' || c == ' '

def timeAfterDate (cs : List Char) : Option (String × List Char) :=
  match cs with
  | [] => some ("", [])
  | c :: rest =>
      if isDivider c then
        if (fixedDigits 2 0 23 rest).bind (fun part => mark ':' part.2) |>.isSome then do
          let (clock, rest) ← time rest
          let (zone, rest) ← offset rest
          some ("T" ++ clock ++ zone, rest)
        else some ("", c :: rest)
      else some ("", c :: rest)

def fullDate (cs : List Char) : Option (String × List Char) := do
  let (day, rest) ← date cs
  let (clock, rest) ← timeAfterDate rest
  some (day ++ clock, rest)

def dateTime (cs : List Char) : Option (Value × List Char) :=
  ((fullDate cs).or (time cs)).map fun part => (.dateTime part.1, part.2)

end GitPractice.Toml
