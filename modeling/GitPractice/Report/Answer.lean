import GitPractice.Config
import GitPractice.Diff
import GitPractice.Error
import GitPractice.Report.Log

set_option autoImplicit false

namespace GitPractice.Answer

def committed (commit : Commit) : String :=
  "[" ++ commit.branch ++ " " ++ commit.id ++ "] " ++ commit.message

def switched (branch : String) : String := "Switched to branch '" ++ branch ++ "'"

def switchedNew (branch origin : String) : String :=
  "Switched to a new branch '" ++ branch ++ "' (branched from '" ++ origin ++ "')"

def upToDate : String := "Already up to date."

def summaryLine : Option Commit → String
  | some commit => "  " ++ commit.oneline
  | none => "  unknown"

def newCount (source target : List Commit) : Nat :=
  source.countP fun commit => !target.any (·.id == commit.id)

def mergeSummary (source target : String) (onSource onTarget : List Commit) : List String :=
  ["Merge made by the 'ort' strategy.", "Merging:", summaryLine onSource.getLast?,
   summaryLine onTarget.getLast?,
   "found " ++ toString (newCount onSource onTarget) ++ " commit(s) from '" ++ source ++
     "' to merge into '" ++ target ++ "'."]

def baseUpToDate (branch : String) : String := "Current branch " ++ branch ++ " is up to date."

def rebased (branch : String) : String :=
  "Successfully rebased and updated refs/heads/" ++ branch ++ "."

def withoutSlashes (path : String) : String :=
  .ofList (path.toList.reverse.dropWhile (· == '/')).reverse

def initialized (path : String) : String :=
  "Initialized empty Git repository in " ++ withoutSlashes path ++ "/.git/"

def stagedAll : String := "Changes staged for commit"
def stagedNothing : String := "Nothing specified, nothing added."
def staged (paths : List String) : String := "Staged files: " ++ " ".intercalate paths

def created (branch origin : String) : String :=
  "Created branch '" ++ branch ++ "' (based on '" ++ origin ++ "')"

def deleted (branch : String) : String := "Deleted branch " ++ branch

def configured (key value : String) : String := "Configuration set: " ++ key ++ " = " ++ value

def setting (config : Config) (key : String) : Except Error String :=
  match config.get? key with
  | some value => .ok value
  | none => .error (.unsetKey key)

def diff (repository : Repository) : String :=
  if repository.staged.isEmpty then "" else Diff.fixed.render

def log (repository : Repository) (oneline graph : Bool) : Except Error String :=
  if repository.commits.isEmpty then .error (.noCommits repository.current)
  else .ok (Log.render oneline graph repository.commits)

def headName : String := "HEAD"

def display (repository : Repository) (revision : Option String) : Except Error String :=
  match repository.latest? with
  | none => .error .noDefaultRevision
  | some latest => match revision.filter (· != headName) with
    | none => .ok latest.shown
    | some beginning => match repository.find? beginning with
      | some commit => .ok commit.shown
      | none => .error (.unknownRevision beginning)

end GitPractice.Answer
