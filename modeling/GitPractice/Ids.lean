import GitPractice.Text.Digits

set_option autoImplicit false

namespace GitPractice

inductive Draw where
  | id (text : String)
  | interrupted (reason : String)
deriving DecidableEq, Repr

structure IdSource where
  stream : Nat → Draw
  drawn : Nat := 0

namespace IdSource

def idLength : Nat := 7

def modulus : Nat := Nat.pow 16 idLength

def numbered (n : Nat) : String := Text.digits 16 idLength (n % modulus)

def sequential : IdSource where
  stream n := .id (numbered (n + 1))

def exhausted : String := "id source exhausted"

def listed (draws : List Draw) : IdSource where
  stream n := draws.getD n (.interrupted exhausted)

def wordSize : Nat := Nat.pow 2 64

def scramble (n : Nat) : Nat :=
  let a := (n + 1) * 0x9E3779B97F4A7C15 % wordSize
  let b := (a ^^^ (a >>> 30)) * 0xBF58476D1CE4E5B9 % wordSize
  let c := (b ^^^ (b >>> 27)) * 0x94D049BB133111EB % wordSize
  c ^^^ (c >>> 31)

def scattered (start : Nat) : IdSource where
  stream n := .id (numbered (scramble (scramble start + n) >>> 36))

def peek (source : IdSource) : Draw := source.stream source.drawn
def next (source : IdSource) : IdSource := { source with drawn := source.drawn + 1 }

end IdSource

namespace Clock

def start : Int := 1640995200000

def stride : Int := 300000

/-- Nothing bounds a time here. A word of sixty-four bits holds those of the first thirty trillion commits. -/
def timeOf (position : Nat) : Int := start + position * stride

theorem time_of_lt {earlier later : Nat} (before : earlier < later) : timeOf earlier < timeOf later := by
  simp only [timeOf, stride]
  omega

end Clock

end GitPractice
