import GitPractice.Repository
import GitPractice.Text.Blank

set_option autoImplicit false

namespace GitPractice

namespace Commit

def detailed (commit : Commit) : String :=
  "commit " ++ commit.id ++ "\nAuthor: " ++ commit.signature.name ++ " <" ++ commit.signature.email ++
    ">\nDate: " ++ commit.date ++ "\n\n    " ++ commit.message

def oneline (commit : Commit) : String := commit.shortId ++ " " ++ commit.message

def arrow (source target : String) : String := source ++ " → " ++ target

def shown (commit : Commit) : String :=
  commit.detailed ++
    (match commit.merge? with
      | some (source, target) => "\n\nMerge: " ++ arrow source target
      | none => "") ++
    (match commit.cutFrom with
      | some branch => "\n\nBranched from: " ++ branch
      | none => "")

def glyph (commit : Commit) (oldest : Bool) : String :=
  if commit.looksMerged then "*   " else if oldest then "* " else "| * "

def graphLine (commit : Commit) (oldest : Bool) : String :=
  commit.glyph oldest ++ commit.oneline ++
    match commit.merge? with
    | some (source, target) => " (" ++ arrow source target ++ ")"
    | none => ""

def connectors (commit : Commit) (oldest : Bool) : List String :=
  if commit.looksMerged && !oldest then
    "|\\  " :: commit.mergedFrom.toList.map fun source => "| * " ++ source ++ " commit"
  else []

end Commit

namespace Log

/-- The graph follows the order of commits and which of them look like merges, not their ancestry. -/
def graphLines : List Commit → List String
  | [] => []
  | commit :: older =>
      commit.graphLine older.isEmpty :: commit.connectors older.isEmpty ++ graphLines older

/-- Commits from the highest time to the lowest; commits of one time stay in the order they have. -/
def byTime (commits : List Commit) : List Commit :=
  commits.mergeSort fun a b => decide (b.timestamp ≤ a.timestamp)

def detailed (commits : List Commit) : String :=
  "\n\n".intercalate (commits.reverse.map Commit.detailed)

def oneline (commits : List Commit) : String := "\n".intercalate (commits.reverse.map Commit.oneline)

def graph (commits : List Commit) : String := "\n".intercalate (graphLines (byTime commits))

/-- The log in the form that its two flags ask for; the graph alone changes nothing. -/
def text (isOneline isGraph : Bool) (commits : List Commit) : String :=
  if isOneline then if isGraph then graph commits else oneline commits else detailed commits

def render (isOneline isGraph : Bool) (commits : List Commit) : String :=
  Text.trimmedEnd (text isOneline isGraph commits)

end Log

end GitPractice
