import GitPractice.Author

set_option autoImplicit false

namespace GitPractice

inductive Subcommand where
  | commit
  | checkout
  | merge
  | rebase
  | init
  | add
  | status
  | branch
  | push
  | pull
  | fetch
  | diff
  | config
  | log
  | display
deriving DecidableEq, Repr

namespace Subcommand

def all : List Subcommand :=
  [.commit, .checkout, .merge, .rebase, .init, .add, .status, .branch, .push, .pull, .fetch, .diff,
   .config, .log, .display]

def word : Subcommand → String
  | .commit => "commit"
  | .checkout => "checkout"
  | .merge => "merge"
  | .rebase => "rebase"
  | .init => "init"
  | .add => "add"
  | .status => "status"
  | .branch => "branch"
  | .push => "push"
  | .pull => "pull"
  | .fetch => "fetch"
  | .diff => "diff"
  | .config => "config"
  | .log => "log"
  | .display => "show"

def ofWord? (text : String) : Option Subcommand := all.find? fun sub => sub.word == text

theorem of_word_word (sub : Subcommand) : ofWord? sub.word = some sub := by
  cases sub <;> decide

end Subcommand

inductive Command where
  | help (topic : Option String)
  | commit (message : Option String) (author : Option Author)
  | checkoutNew (branch : String)
  | checkout (branch : String)
  | merge (source target : Option String)
  | rebase (base : String)
  | init
  | addAll
  | addPaths (paths : List String)
  | status
  | listBranches
  | createBranch (branch : String)
  | deleteBranch (branch : String)
  | push (remote branch : Option String)
  | pull (remote branch : Option String)
  | fetch
  | diff
  | listConfig
  | getConfig (key : String)
  | setConfig (key value : String)
  | log (oneline graph : Bool)
  | display (revision : Option String)
deriving DecidableEq, Repr

namespace Command

def subcommand : Command → Option Subcommand
  | .help _ => none
  | .commit _ _ => some .commit
  | .checkoutNew _ | .checkout _ => some .checkout
  | .merge _ _ => some .merge
  | .rebase _ => some .rebase
  | .init => some .init
  | .addAll | .addPaths _ => some .add
  | .status => some .status
  | .listBranches | .createBranch _ | .deleteBranch _ => some .branch
  | .push _ _ => some .push
  | .pull _ _ => some .pull
  | .fetch => some .fetch
  | .diff => some .diff
  | .listConfig | .getConfig _ | .setConfig _ _ => some .config
  | .log _ _ => some .log
  | .display _ => some .display

def name (command : Command) : String := (command.subcommand.map Subcommand.word).getD "help"

def mutates : Command → Bool
  | .commit _ _ | .checkoutNew _ | .checkout _ | .merge _ _ | .rebase _ | .init | .addAll | .addPaths _
  | .createBranch _ | .deleteBranch _ | .setConfig _ _ => true
  | .help _ | .status | .listBranches | .push _ _ | .pull _ _ | .fetch | .diff | .listConfig
  | .getConfig _ | .log _ _ | .display _ => false

end Command

end GitPractice
