import GitPractice.Command
import GitPractice.Error

set_option autoImplicit false

namespace GitPractice.Manual

def usage : String := "usage: git [--version] [--help] [-C <path>] [-c <name>=<value>]
           [--exec-path[=<path>]] [--html-path] [--man-path] [--info-path]
           [-p | --paginate | -P | --no-pager] [--no-replace-objects] [--bare]
           [--git-dir=<path>] [--work-tree=<path>] [--namespace=<name>]
           [--super-prefix=<path>] [--config-env=<name>=<envvar>]
           <command> [<args>]

These are common Git commands used in various situations:

start a working area (see also: git help tutorial)
   init       Create an empty Git repository

work on the current change (see also: git help everyday)
   add        Add file contents to the index
   status     Show the working tree status
   diff       Show changes between commits, commit and working tree, etc
   commit     Record changes to the repository

grow, mark and tweak your common history
   branch     List, create, or delete branches
   checkout   Switch branches or restore working tree files
   merge      Join two or more development histories together
   rebase     Reapply commits on top of another base tip
   log        Show commit logs

examine the history and state (see also: git help revisions)
   show       Show various types of objects
   config     Set and get repository or global options

collaborate (see also: git help workflows)
   fetch      Download objects and refs from another repository
   pull       Fetch from and integrate with another repository or a local branch
   push       Update remote refs along with associated objects

'git help -a' and 'git help -g' list available subcommands and some
concept guides. See 'git help <command>' or 'git help <concept>'
to read about a specific subcommand or concept."

def page : Subcommand → String
  | .commit => "git-commit - Record changes to the repository

SYNOPSIS
       git commit [-m <msg>] [--author=<author>]

DESCRIPTION
       Create a new commit containing the current contents of the index and the given log message describing the changes.

OPTIONS
       -m <msg>, --message=<msg>
           Use the given <msg> as the commit message.

       --author=<author>
           Override the commit author. Format: \"Name <email>\" or \"Name\"

EXAMPLES
       git commit -m \"Initial commit\"
       git commit -m \"Fix bug\" --author=\"John Doe\"
       git commit -m \"Feature\" --author=\"Jane Smith <jane@example.com>\""
  | .checkout => "git-checkout - Switch branches or restore working tree files

SYNOPSIS
       git checkout <branch>
       git checkout -b <new-branch>

DESCRIPTION
       Updates files in the working tree to match the version in the index or the specified tree.

OPTIONS
       -b <new-branch>
           Create a new branch and switch to it

EXAMPLES
       git checkout main
       git checkout -b feature-branch"
  | .merge => "git-merge - Join two or more development histories together

SYNOPSIS
       git merge <branch>
       git merge <source-branch> into <target-branch>

DESCRIPTION
       Incorporates changes from the named commits into the current branch.

EXAMPLES
       git merge feature-branch
       git merge feature into main"
  | .rebase => "git-rebase - Reapply commits on top of another base tip

SYNOPSIS
       git rebase <branch>

DESCRIPTION
       Forward-port local commits to the updated upstream head.

EXAMPLES
       git rebase main"
  | .init => "git-init - Create an empty Git repository

SYNOPSIS
       git init

DESCRIPTION
       This command creates an empty Git repository.

EXAMPLES
       git init"
  | .add => "git-add - Add file contents to the index

SYNOPSIS
       git add [--] <pathspec>...
       git add .

DESCRIPTION
       This command updates the index using the current content found in the working tree, to prepare the content staged for the next commit.

OPTIONS
       .   Add all files in the current directory and subdirectories

EXAMPLES
       git add .
       git add file1.txt file2.txt"
  | .status => "git-status - Show the working tree status

SYNOPSIS
       git status

DESCRIPTION
       Displays paths that have differences between the index file and the current HEAD commit.

EXAMPLES
       git status"
  | .branch => "git-branch - List, create, or delete branches

SYNOPSIS
       git branch [<branchname>]
       git branch -d <branchname>

DESCRIPTION
       If no arguments are given, existing branches are listed.

OPTIONS
       -d <branchname>
           Delete a branch

EXAMPLES
       git branch
       git branch new-feature
       git branch -d old-feature"
  | .push => "git-push - Update remote refs along with associated objects

SYNOPSIS
       git push [<repository> [<branch>]]

DESCRIPTION
       Updates remote refs using local refs. Defaults to origin and the current branch.

EXAMPLES
       git push
       git push origin feature"
  | .pull => "git-pull - Fetch from and integrate with another repository or a local branch

SYNOPSIS
       git pull [<repository> [<branch>]]

DESCRIPTION
       Incorporates changes from a remote repository into the current branch.

EXAMPLES
       git pull
       git pull origin main"
  | .fetch => "git-fetch - Download objects and refs from another repository

SYNOPSIS
       git fetch

DESCRIPTION
       Fetch branches and tags from the remote repository.

EXAMPLES
       git fetch"
  | .diff => "git-diff - Show changes between commits, commit and working tree, etc

SYNOPSIS
       git diff

DESCRIPTION
       Show changes staged for the next commit.

EXAMPLES
       git diff"
  | .config => "git-config - Get and set repository or global options

SYNOPSIS
       git config [--global|--local] <key> [<value>]
       git config --list

DESCRIPTION
       Get and set configuration options for Git.

OPTIONS
       --global
           Use global config file
       --local
           Use repository config file
       --list
           Show all configuration

EXAMPLES
       git config user.name \"Your Name\"
       git config user.email \"your.email@example.com\"
       git config --global user.name \"Global Name\"
       git config --list"
  | .log => "git-log - Show commit logs

SYNOPSIS
       git log [--oneline] [--graph]

DESCRIPTION
       Shows the commit logs.

OPTIONS
       --oneline
           Show each commit on a single line
       --graph
           Draw a text-based graphical representation

EXAMPLES
       git log
       git log --oneline
       git log --oneline --graph"
  | .display => "git-show - Show various types of objects

SYNOPSIS
       git show [<commit>]

DESCRIPTION
       Shows one or more objects (blobs, trees, tags and commits).

EXAMPLES
       git show
       git show HEAD
       git show <commit-hash>"

def page? (topic : String) : Option String := (Subcommand.ofWord? topic).map page

def render : Option String → Except Error String
  | none => .ok usage
  | some topic => match page? topic with
    | some text => .ok text
    | none => .error (.unknownTopic topic)

theorem render_word (sub : Subcommand) : render (some sub.word) = .ok (page sub) := by
  simp [render, page?, Subcommand.of_word_word]

end GitPractice.Manual
