import GitPractice.Text.Blank

/-!
The difference between two revisions of a file, as one hunk in unified form. Contents of files are not kept, so
only one difference is ever shown, that of two built-in revisions. They are compared by a library that is not
part of this one; the lines it finds for them stand here as a constant, and no other revisions are compared.
-/

set_option autoImplicit false

namespace GitPractice

inductive Change where
  | context
  | addition
  | deletion
deriving DecidableEq, Repr

def Change.mark : Change → String
  | .context => " "
  | .addition => "+"
  | .deletion => "-"

structure DiffLine where
  change : Change
  content : String
deriving DecidableEq, Repr

structure Diff where
  path : String
  lines : List DiffLine
deriving DecidableEq, Repr

namespace DiffLine

def bareContent (line : DiffLine) : String :=
  .ofList (line.content.toList.reverse.dropWhile (· == '\n')).reverse

def render (line : DiffLine) : String := line.change.mark ++ line.bareContent ++ "\n"

end DiffLine

namespace Diff

def oldCount (diff : Diff) : Nat := diff.lines.countP (·.change != .addition)
def newCount (diff : Diff) : Nat := diff.lines.countP (·.change != .deletion)

def indexLine : String := "index 1234567..abcdefg 100644"

def hunkHeader (diff : Diff) : String :=
  "@@ -1," ++ toString diff.oldCount ++ " +1," ++ toString diff.newCount ++ " @@"

def header (diff : Diff) : String :=
  "diff --git a/" ++ diff.path ++ " b/" ++ diff.path ++ "\n" ++ indexLine ++ "\n--- a/" ++ diff.path ++
    "\n+++ b/" ++ diff.path ++ "\n" ++ diff.hunkHeader ++ "\n"

def body (diff : Diff) : String := "".intercalate (diff.lines.map DiffLine.render)

def render (diff : Diff) : String := Text.trimmedEnd (diff.header ++ diff.body)

def fixed : Diff where
  path := "file1.txt"
  lines :=
    [⟨.context, "line 1\n"⟩, ⟨.context, "line 2\n"⟩, ⟨.addition, "new line\n"⟩, ⟨.context, "line 3\n"⟩]

example :
    "".intercalate ((fixed.lines.filter (·.change != .addition)).map DiffLine.content) =
        "line 1\nline 2\nline 3\n" ∧
      "".intercalate ((fixed.lines.filter (·.change != .deletion)).map DiffLine.content) =
        "line 1\nline 2\nnew line\nline 3\n" := by
  decide

end Diff

end GitPractice
