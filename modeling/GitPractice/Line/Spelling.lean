import GitPractice.Line.Token

set_option autoImplicit false

namespace GitPractice.Line

def stretchOf : List Char → List Char
  | [] => []
  | c :: rest =>
      if c = '"' then ['"', '\'', '"', '\'', '"'] ++ stretchOf rest else c :: stretchOf rest

def quote (cs : List Char) : List Char := '"' :: stretchOf cs ++ ['"']

theorem push_append (text : String) (c : Char) (rest : List Char) :
    text.push c ++ String.ofList rest = text ++ String.ofList (c :: rest) := by
  simp [← String.toList_inj]

theorem scan_stretch_of (cs rest : List Char) (text : String) (quoted : Bool) :
    scan (.stretch '"' text quoted) (stretchOf cs ++ '"' :: rest) =
      scan (.word (text ++ .ofList cs) quoted) rest := by
  induction cs generalizing text with
  | nil => simp [stretchOf, scan]
  | cons c tail ih =>
    by_cases double : c = '"'
    · subst double
      simp [stretchOf, scan, isQuote, ih, push_append, -String.ofList_cons]
    · simp [stretchOf, scan, double, ih, push_append, -String.ofList_cons]

theorem scan_quote_between (cs rest : List Char) :
    scan .between (quote cs ++ rest) = scan (.word (.ofList cs) true) rest := by
  have opened : scan .between (quote cs ++ rest) =
      scan (.stretch '"' "" true) (stretchOf cs ++ '"' :: rest) := by
    simp [quote, scan, isQuote]
  rw [opened, scan_stretch_of, String.empty_append]

theorem scan_quote_word (cs rest : List Char) (text : String) (quoted : Bool) :
    scan (.word text quoted) (quote cs ++ rest) = scan (.word (text ++ .ofList cs) quoted) rest := by
  have opened : scan (.word text quoted) (quote cs ++ rest) =
      scan (.stretch '"' text quoted) (stretchOf cs ++ '"' :: rest) := by
    simp [quote, scan, isQuote]
  rw [opened, scan_stretch_of]

/-- A word as it is written: characters that stand bare, and after them perhaps a text in quotes. -/
structure Word where
  bare : String
  quoted : Option String
deriving DecidableEq, Repr

namespace Word

def plain (text : String) : Word := ⟨text, none⟩

def data (text : String) : Word := ⟨"", some text⟩

def attached (flag text : String) : Word := ⟨flag, some text⟩

def write (word : Word) : List Char :=
  word.bare.toList ++ (word.quoted.map fun text => quote text.toList).getD []

def token (word : Word) : Token := ⟨word.bare ++ word.quoted.getD "", word.bare.isEmpty⟩

end Word

def Token.word (token : Token) : Word :=
  if token.quoted then .data token.text
  else match token.text.toList with
    | [] => .plain ""
    | [c] => .plain (String.singleton c)
    | c :: rest => ⟨String.singleton c, some (.ofList rest)⟩

def spell (words : List Word) : String :=
  .ofList ([' '].intercalate (words.map Word.write))

end GitPractice.Line
