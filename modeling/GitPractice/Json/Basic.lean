set_option autoImplicit false

namespace GitPractice

/-- Besides values there are leaves for what a text can hold and no value is made from: numbers that are no
integers or too large for any, texts with half of a surrogate pair, and the place where it stops being JSON. -/
inductive Json where
  | null
  | bool (value : Bool)
  | int (value : Int)
  | real
  | huge
  | text (value : String)
  | surrogate
  | array (items : List Json)
  | object (members : List (Option String × Json))
  | broken

namespace Json

def record (members : List (String × Json)) : Json :=
  .object (members.map fun member => (some member.1, member.2))

def texts (values : List String) : Json := .array (values.map .text)

def optional (name : String) (value : Option String) : List (String × Json) :=
  value.toList.map fun value => (name, .text value)

mutual

def isSound : Json → Bool
  | .array items => areSound items
  | .object members => membersSound members
  | .broken => false
  | _ => true

def areSound : List Json → Bool
  | [] => true
  | item :: rest => isSound item && areSound rest

def membersSound : List (Option String × Json) → Bool
  | [] => true
  | (_, value) :: rest => isSound value && membersSound rest

end

end Json

end GitPractice
