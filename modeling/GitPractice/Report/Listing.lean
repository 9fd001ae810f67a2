import GitPractice.Config
import GitPractice.Repository
import GitPractice.Text.Blank

set_option autoImplicit false

namespace GitPractice.Listing

def branchLine (current branch : String) : String :=
  if branch = current then "* " ++ branch else "  " ++ branch

def branches (repository : Repository) : String :=
  "\n".intercalate (repository.branches.map (branchLine repository.current))

def stagedLine (file : String) : String := "\t" ++ file ++ "\n"

def stagedPart : List String → String
  | [] => "nothing to commit, working tree clean"
  | file :: more => "\nChanges to be committed:\n" ++ "".intercalate ((file :: more).map stagedLine)

def status (repository : Repository) : String :=
  Text.trimmedEnd ("On branch " ++ repository.current ++ "\n" ++ stagedPart repository.staged)

def config (config : Config) : String :=
  match config.entries with
  | [] => "No configuration found"
  | entries => "\n".intercalate (entries.map fun entry => entry.1 ++ "=" ++ entry.2)

def remoteName (remote : Option String) : String := remote.getD "origin"

def pushed (remote branch : String) : String :=
  "To " ++ remote ++ "\n * [new branch]      " ++ branch ++ " -> " ++ branch

def pulled (remote branch : String) : String :=
  "From " ++ remote ++ "\n * branch            " ++ branch ++ "     -> FETCH_HEAD\nAlready up to date."

def fetched : String :=
  "remote: Enumerating objects: 3, done.\nremote: Counting objects: 100% (3/3), done.\n" ++
    "remote: Total 3 (delta 0), reused 0 (delta 0), pack-reused 0"

end GitPractice.Listing
