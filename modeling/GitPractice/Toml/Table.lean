set_option autoImplicit false

namespace GitPractice.Toml

/-- Values. The value of a floating-point number is not kept, for no record has a place for one; a date or a
time is kept as its text. -/
inductive Value where
  | text (value : String)
  | int (value : Int)
  | float
  | bool (value : Bool)
  | dateTime (written : String)
  | array (items : List Value)
  | table (entries : List (String × Value))

inductive Origin where
  | declared
  | passed
  | dotted
deriving DecidableEq, Repr

inductive Node where
  | value (value : Value)
  | table (origin : Origin) (entries : List (String × Node))
  | tables (elements : List (List (String × Node)))

abbrev Entries := List (String × Node)

mutual

def Node.toValue : Node → Value
  | .value value => value
  | .table _ entries => .table (entriesToValues entries)
  | .tables elements => .array (elementsToValues elements)

def entriesToValues : List (String × Node) → List (String × Value)
  | [] => []
  | (key, node) :: rest => (key, node.toValue) :: entriesToValues rest

def elementsToValues : List (List (String × Node)) → List Value
  | [] => []
  | element :: rest => .table (entriesToValues element) :: elementsToValues rest

end

namespace Entries

def replace (key : String) (node : Node) : Entries → Entries
  | [] => [(key, node)]
  | (other, old) :: rest => if other = key then (key, node) :: rest else (other, old) :: replace key node rest

def addNew (key : String) (node : Node) (entries : Entries) : Option Entries :=
  match entries.lookup key with
  | some _ => none
  | none => some (entries ++ [(key, node)])

/-- Changes the table at the end of a path and makes the tables that are missing on the way. Of an array of
tables the path goes through the last one. -/
def descend (made : Origin) (change : Origin → Entries → Option Entries) :
    Origin → List String → Entries → Option Entries
  | origin, [], entries => change origin entries
  | _, key :: path, entries =>
      match entries.lookup key with
      | none => (descend made change made path []).map fun inner => entries ++ [(key, .table made inner)]
      | some (.value _) => none
      | some (.table origin inner) =>
          if made = .dotted ∧ origin = .declared then none
          else (descend made change origin path inner).map fun inner =>
            entries.replace key (.table origin inner)
      | some (.tables elements) =>
          match elements.reverse with
          | [] => none
          | last :: earlier => (descend made change .declared path last).map fun last =>
              entries.replace key (.tables (last :: earlier).reverse)

def addValue (entries : Entries) (path : List String) (key : String) (value : Value) : Option Entries :=
  descend .dotted
    (fun origin inner =>
      if path.isEmpty || origin = .dotted then addNew key (.value value) inner else none)
    .declared path entries

end Entries

structure Pair where
  path : List String
  key : String
  value : Value

def Entries.addPairs (entries : Entries) (pairs : List Pair) : Option Entries :=
  pairs.foldlM (fun entries pair => entries.addValue pair.path pair.key pair.value) entries

structure Section where
  repeated : Bool
  path : List String
  key : String
  pairs : List Pair

namespace Section

def openTable (key : String) (parent : Entries) : Option Entries :=
  match parent.lookup key with
  | none => some []
  | some (.table .passed inner) => some inner
  | some _ => none

def openElement (key : String) (parent : Entries) : Option (List Entries) :=
  match parent.lookup key with
  | none => some []
  | some (.tables elements) => some elements
  | some _ => none

def addTo (part : Section) (parent : Entries) : Option Entries :=
  if part.repeated then do
    let elements ← openElement part.key parent
    let element ← Entries.addPairs [] part.pairs
    some (parent.replace part.key (.tables (elements ++ [element])))
  else do
    let opened ← openTable part.key parent
    let entries ← opened.addPairs part.pairs
    some (parent.replace part.key (.table .declared entries))

def add (root : Entries) (part : Section) : Option Entries :=
  root.descend .passed (fun _ parent => part.addTo parent) .declared part.path

end Section

def assemble (pairs : List Pair) (sections : List Section) : Option (List (String × Value)) := do
  let root ← Entries.addPairs [] pairs
  let entries ← sections.foldlM Section.add root
  some (entriesToValues entries)

end GitPractice.Toml
