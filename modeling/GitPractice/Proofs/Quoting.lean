import GitPractice.Proofs.Tokens

set_option autoImplicit false

namespace GitPractice.Line

/-- What stands on the left is the text on the right, written in quotes. -/
inductive Quoted : List Char → List Char → Prop where
  | last (mark : Char) (stretch : List Char) (opens : isQuote mark = true) (free : mark ∉ stretch) :
      Quoted (mark :: (stretch ++ [mark])) stretch
  | more (mark : Char) (stretch : List Char) {written text : List Char} (opens : isQuote mark = true)
      (free : mark ∉ stretch) (rest : Quoted written text) :
      Quoted (mark :: (stretch ++ mark :: written)) (stretch ++ text)

theorem scan_stretch_free {mark : Char} {stretch : List Char} (free : mark ∉ stretch) (rest : List Char)
    (text : String) (quoted : Bool) :
    scan (.stretch mark text quoted) (stretch ++ mark :: rest) =
      scan (.word (text ++ .ofList stretch) quoted) rest := by
  induction stretch generalizing text with
  | nil => simp [scan]
  | cons c tail ih =>
      have other : c ≠ mark := fun same => free (same ▸ List.mem_cons_self)
      have others : mark ∉ tail := fun present => free (List.mem_cons_of_mem c present)
      rw [List.cons_append, scan, if_neg other, ih others, push_append]

section
variable {written text : List Char} (quoting : Quoted written text)
include quoting

theorem scan_quoted_word (rest : List Char) (before : String) (quoted : Bool) :
    scan (.word before quoted) (written ++ rest) = scan (.word (before ++ .ofList text) quoted) rest := by
  induction quoting generalizing before with
  | last mark stretch opens free =>
      have opened : scan (.word before quoted) (mark :: (stretch ++ [mark]) ++ rest) =
          scan (.stretch mark before quoted) (stretch ++ mark :: rest) := by
        simp [scan, opens]
      rw [opened, scan_stretch_free free]
  | @more mark stretch others text opens free _ ih =>
      have opened : scan (.word before quoted) (mark :: (stretch ++ mark :: others) ++ rest) =
          scan (.stretch mark before quoted) (stretch ++ mark :: (others ++ rest)) := by
        simp [scan, opens]
      rw [opened, scan_stretch_free free, ih, String.append_assoc, String.ofList_append]

theorem scan_quoted_between (rest : List Char) :
    scan .between (written ++ rest) = scan (.word (.ofList text) true) rest := by
  have begun : scan .between (written ++ rest) = scan (.word "" true) (written ++ rest) := by
    cases quoting with
    | last mark stretch opens free => simp [scan, opens]
    | more mark stretch opens free others => simp [scan, opens]
  rw [begun, scan_quoted_word quoting, String.empty_append]

end

theorem stretch_of_quoted (cs : List Char) {held : List Char} (free : '"' ∉ held) :
    Quoted ('"' :: (held ++ (stretchOf cs ++ ['"']))) (held ++ cs) := by
  induction cs generalizing held with
  | nil =>
      rw [List.append_nil]
      exact .last '"' held rfl free
  | cons c rest ih =>
      by_cases double : c = '"'
      · subst double
        have other : Quoted ('\'' :: (['"'] ++ '\'' :: ('"' :: (stretchOf rest ++ ['"'])))) (['"'] ++ rest) :=
          .more '\'' ['"'] rfl (by decide) (ih List.not_mem_nil)
        simpa [stretchOf] using Quoted.more '"' held rfl free other
      · have still : '"' ∉ held ++ [c] := by simp [free, Ne.symm double]
        simpa [stretchOf, double] using ih still

theorem quote_quoted (text : String) : Quoted (String.ofList (quote text.toList)).toList text.toList := by
  rw [String.toList_ofList]
  exact stretch_of_quoted text.toList List.not_mem_nil

/-- A piece of a line that is read as a token, if a blank or the end of the line comes next. -/
def Spells (piece : List Char) (token : Token) : Prop :=
  ∀ rest, scan .between (piece ++ rest) = scan (.word token.text token.quoted) rest

theorem spells_plain {text : String} (valid : (Word.plain text).Valid) (filled : text.isEmpty = false) :
    Spells text.toList ⟨text, false⟩ := by
  intro rest
  have written := scan_word_written (.plain text) valid rest
  simpa [Word.plain, Word.write, Word.token, filled] using written

theorem spells_quoted {written text : String} (quoting : Quoted written.toList text.toList) :
    Spells written.toList ⟨text, true⟩ := by
  intro rest
  rw [scan_quoted_between quoting, String.ofList_toList]

theorem spells_attached {flag written text : String} (valid : (Word.plain flag).Valid)
    (filled : flag.isEmpty = false) (quoting : Quoted written.toList text.toList) :
    Spells (flag ++ written).toList ⟨flag ++ text, false⟩ := by
  intro rest
  rw [String.toList_append, List.append_assoc, spells_plain valid filled, scan_quoted_word quoting,
    String.ofList_toList]

section
variable {piece : List Char} {token : Token} (spells : Spells piece token)
include spells

theorem scan_spelled (rest : List Char) :
    scan .between (piece ++ ' ' :: rest) = token :: scan .between rest := by
  rw [spells, scan_word_blank _ _ ' ' rest (by decide) (by decide)]

theorem scan_spelled_last : scan .between piece = [token] := by
  have ended := spells []
  rw [List.append_nil] at ended
  exact ended

end

end GitPractice.Line
