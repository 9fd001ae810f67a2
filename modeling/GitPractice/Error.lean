set_option autoImplicit false

namespace GitPractice

inductive BranchUse where
  | checkout
  | mergeSource
  | mergeTarget
  | rebase
  | delete
deriving DecidableEq, Repr

inductive ConfigForm where
  | plain
  | scoped
deriving DecidableEq, Repr

inductive SettingsFault where
  | blankBranch
  | spacedBranch (branch : String)
  | unreadable (reason : String)
  | malformed
deriving DecidableEq, Repr

inductive SeedFault where
  | blankBranch
  | noBranch
  | unlistedCurrent (branch : String)
  | strayCommit (message branch : String)
  | unreadable (reason : String)
  | malformed
deriving DecidableEq, Repr

inductive Error where
  | unknownTool (word : String)
  | unknownSubcommand (word : String)
  | nothingStaged
  | branchExists (branch : String)
  | unknownBranch (branch : String) (use : BranchUse)
  | missingBranch (complaint : String)
  | missingSource
  | emptySource (branch : String)
  | currentBranchKept (branch path : String)
  | noCommits (branch : String)
  | noDefaultRevision
  | unknownRevision (revision : String)
  | missingConfigArgument (form : ConfigForm)
  | unsetKey (key : String)
  | unknownTopic (topic : String)
  | interrupted (reason : String)
  | settings (fault : SettingsFault)
  | seed (fault : SeedFault)
deriving DecidableEq, Repr

def BranchUse.complain (branch : String) : BranchUse → String
  | .checkout => "error: pathspec '" ++ branch ++ "' did not match any file(s) known to git"
  | .mergeSource => "merge: " ++ branch ++ " - not something we can merge"
  | .mergeTarget => "Error: branch '" ++ branch ++ "' not found."
  | .rebase => "fatal: invalid upstream '" ++ branch ++ "'"
  | .delete => "error: branch '" ++ branch ++ "' not found."

def ConfigForm.usage : ConfigForm → String
  | .plain => "Usage: git config [--global|--local] <key> [<value>] or git config --list"
  | .scoped => "Usage: git config --global <key> <value>"

def SettingsFault.message : SettingsFault → String
  | .blankBranch => "default_branch must not be empty"
  | .spacedBranch branch => "default_branch '" ++ branch ++ "' contains whitespace"
  | .unreadable reason => reason
  | .malformed => "malformed document"

def SeedFault.message : SeedFault → String
  | .blankBranch => "branch names must not be empty"
  | .noBranch => "at least one branch is required"
  | .unlistedCurrent branch => "current branch '" ++ branch ++ "' is not listed in branches"
  | .strayCommit message branch => "commit '" ++ message ++ "' is on unknown branch '" ++ branch ++ "'"
  | .unreadable reason => reason
  | .malformed => "malformed document"

namespace Error

def message : Error → String
  | .unknownTool word => "bash: " ++ word ++ ": command not found"
  | .unknownSubcommand word => "git: '" ++ word ++ "' is not a git command. See 'git --help'."
  | .nothingStaged => "Error: No changes staged for commit"
  | .branchExists branch => "fatal: A branch named '" ++ branch ++ "' already exists."
  | .unknownBranch branch use => use.complain branch
  | .missingBranch complaint => complaint
  | .missingSource => "Error: merge requires a branch name"
  | .emptySource branch => "Error: branch '" ++ branch ++ "' has no commits to merge"
  | .currentBranchKept branch path =>
      "error: Cannot delete branch '" ++ branch ++ "' checked out at '" ++ path ++ "'"
  | .noCommits branch => "fatal: your current branch '" ++ branch ++ "' does not have any commits yet"
  | .noDefaultRevision => "fatal: bad default revision 'HEAD'"
  | .unknownRevision revision =>
      "fatal: ambiguous argument '" ++ revision ++ "': unknown revision or path not in the working tree."
  | .missingConfigArgument form => form.usage
  | .unsetKey key => "No configuration found for key: " ++ key
  | .unknownTopic topic => "No manual entry for git-" ++ topic
  | .interrupted reason => "Error: " ++ reason
  | .settings fault => "Invalid settings: " ++ fault.message
  | .seed fault => "Invalid seed: " ++ fault.message

end Error

end GitPractice
