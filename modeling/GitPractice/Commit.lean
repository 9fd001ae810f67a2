import GitPractice.Author
import GitPractice.Calendar
import GitPractice.Ids

set_option autoImplicit false

namespace GitPractice

structure Commit where
  id : String
  message : String
  signature : Signature
  timestamp : Int
  branch : String
  mergedFrom : Option String := none
  mergedInto : Option String := none
  cutFrom : Option String := none
  parent : Option String := none
deriving DecidableEq, Repr

namespace Commit

def withMerge (commit : Commit) (source target : String) : Commit :=
  { commit with mergedFrom := some source, mergedInto := some target }

def withCut (commit : Commit) (branch : String) (parent : Option String) : Commit :=
  { commit with cutFrom := some branch, parent := parent }

def withParent (commit : Commit) (parent : String) : Commit := { commit with parent := some parent }

def shortId (commit : Commit) : String := .ofList (commit.id.toList.take IdSource.idLength)

def occurs (word : List Char) : List Char → Bool
  | [] => word.isEmpty
  | c :: rest => word.isPrefixOf (c :: rest) || occurs word rest

/-- Whether a commit is shown as a merge: it records one, or its message has the word in it in letters of
either case. No letter outside ASCII has a letter of the word as its lowercase form. -/
def looksMerged (commit : Commit) : Bool :=
  commit.mergedFrom.isSome || occurs "merge".toList (commit.message.toList.map Char.toLower)

def merge? (commit : Commit) : Option (String × String) :=
  match commit.mergedFrom, commit.mergedInto with
  | some source, some target => some (source, target)
  | _, _ => none

def date (commit : Commit) : String := dateLine commit.timestamp

end Commit

structure Draft where
  message : String
  signature : Signature
  branch : String
  merge : Option (String × String) := none
  cut : Option (String × Option String) := none
deriving DecidableEq, Repr

def Draft.stamp (draft : Draft) (id : String) (position : Nat) : Commit where
  id := id
  message := draft.message
  signature := draft.signature
  timestamp := Clock.timeOf position
  branch := draft.branch
  mergedFrom := draft.merge.map Prod.fst
  mergedInto := draft.merge.map Prod.snd
  cutFrom := draft.cut.map Prod.fst
  parent := draft.cut.bind Prod.snd

end GitPractice
