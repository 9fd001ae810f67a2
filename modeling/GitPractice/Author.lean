import GitPractice.Text.Blank

set_option autoImplicit false

namespace GitPractice

structure Author where
  name : String
  email : Option String
deriving DecidableEq, Repr

structure Signature where
  name : String
  email : String
deriving DecidableEq, Repr

namespace Author

def beforeLastClose (cs : List Char) : Option (List Char) :=
  match cs.reverse.dropWhile (· != '>') with
  | [] => none
  | _ :: earlier => some earlier.reverse

def splitBrackets (cs : List Char) : Option (List Char × List Char) :=
  match cs.dropWhile (· != '<') with
  | [] => none
  | _ :: after => (beforeLastClose after).map fun inside => (cs.takeWhile (· != '<'), inside)

def parse (raw : String) : Author :=
  let cs := Text.trim raw.toList
  match splitBrackets cs with
  | some (name, email) => ⟨.ofList (Text.trim name), some (.ofList (Text.trim email))⟩
  | none => ⟨.ofList cs, none⟩

def write (author : Author) : String :=
  match author.email with
  | some email => author.name ++ " <" ++ email ++ ">"
  | none => author.name

/-- The signature of a commit by this author: what the author leaves out comes from the fallback. -/
def sign (author : Author) (fallback : Signature) : Signature where
  name := if author.name = "" then fallback.name else author.name
  email := author.email.getD fallback.email

theorem before_last_close_append (inside after : List Char) (free : '>' ∉ after) :
    beforeLastClose (inside ++ '>' :: after) = some inside := by
  have other : ∀ c ∈ after.reverse, (c != '>') = true := by
    intro c present
    simpa using fun same => free (by simpa [same] using present)
  have reversed : (inside ++ '>' :: after).reverse = after.reverse ++ '>' :: inside.reverse := by simp
  rw [beforeLastClose, reversed, List.dropWhile_append_of_pos other]
  simp

theorem split_brackets_open (name behind : List Char) (free : '<' ∉ name) :
    splitBrackets (name ++ '<' :: behind) = (beforeLastClose behind).map fun inside => (name, inside) := by
  have other : ∀ c ∈ name, (c != '<') = true := by
    intro c present
    simpa using fun same => free (by simpa [same] using present)
  rw [splitBrackets, List.dropWhile_append_of_pos other, List.takeWhile_append_of_pos other]
  simp

theorem split_brackets_append (name inside after : List Char) (free : '<' ∉ name) (freeAfter : '>' ∉ after) :
    splitBrackets (name ++ '<' :: (inside ++ '>' :: after)) = some (name, inside) := by
  rw [split_brackets_open name _ free, before_last_close_append inside after freeAfter, Option.map_some]

end Author

end GitPractice
