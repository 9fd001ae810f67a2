import GitPractice.Line.Spelling

set_option autoImplicit false

namespace GitPractice.Line

theorem Token.well_formed_push {text : String} {quoted : Bool} (c : Char)
    (valid : Token.WellFormed ⟨text, quoted⟩) : Token.WellFormed ⟨text.push c, quoted⟩ := by
  rcases valid with opened | ⟨first, rest, started, plain, filled⟩
  · exact .inl opened
  · refine .inr ⟨first, rest ++ [c], ?_, plain, filled⟩
    rw [String.toList_push, started, List.cons_append]

def Scan.Sound : Scan → Prop
  | .between => True
  | .word text quoted => Token.WellFormed ⟨text, quoted⟩
  | .stretch _ text quoted => Token.WellFormed ⟨text, quoted⟩

theorem scan_well_formed (state : Scan) (cs : List Char) (sound : state.Sound) :
    ∀ token ∈ scan state cs, token.WellFormed := by
  -- The word in hand stays sound in every state, so each one that is handed out is.
  induction cs generalizing state with
  | nil =>
      intro token present
      cases state with
      | between => exact absurd present List.not_mem_nil
      | word text quoted =>
          rw [List.mem_singleton.mp present]
          exact sound
      | stretch mark text quoted =>
          rw [List.mem_singleton.mp present]
          exact sound
  | cons c rest ih =>
      cases state with
      | between =>
          by_cases opens : isQuote c = true
          · rw [scan, if_pos opens]
            exact ih (.stretch c "" true) (.inl rfl)
          · by_cases blank : Text.isBlank c = true
            · rw [scan, if_neg opens, if_pos blank]
              exact ih .between trivial
            · rw [scan, if_neg opens, if_neg blank]
              refine ih (.word (String.singleton c) false) (.inr ⟨c, [], String.toList_singleton c, ?_, ?_⟩)
              · exact Bool.eq_false_iff.mpr opens
              · exact Bool.eq_false_iff.mpr blank
      | word text quoted =>
          by_cases opens : isQuote c = true
          · rw [scan, if_pos opens]
            exact ih (.stretch c text quoted) sound
          · by_cases blank : Text.isBlank c = true
            · rw [scan, if_neg opens, if_pos blank]
              intro token present
              rcases List.mem_cons.mp present with first | later
              · rw [first]
                exact sound
              · exact ih .between trivial token later
            · rw [scan, if_neg opens, if_neg blank]
              exact ih (.word (text.push c) quoted) (Token.well_formed_push c sound)
      | stretch mark text quoted =>
          by_cases closes : c = mark
          · rw [scan, if_pos closes]
            exact ih (.word text quoted) sound
          · rw [scan, if_neg closes]
            exact ih (.stretch mark (text.push c) quoted) (Token.well_formed_push c sound)

/-- The characters of a line that are no delimiters. The mark is that of the stretch that is open, if one is:
inside of it only the mark delimits, and outside every quote and every blank does. -/
def undelimited : Option Char → List Char → List Char
  | _, [] => []
  | none, c :: rest =>
      if isQuote c then undelimited (some c) rest
      else if Text.isBlank c then undelimited none rest
      else c :: undelimited none rest
  | some mark, c :: rest =>
      if c = mark then undelimited none rest else c :: undelimited (some mark) rest

namespace Scan

def held : Scan → List Char
  | .between => []
  | .word text _ => text.toList
  | .stretch _ text _ => text.toList

def mark? : Scan → Option Char
  | .between => none
  | .word _ _ => none
  | .stretch mark _ _ => some mark

end Scan

theorem scan_texts (state : Scan) (cs : List Char) :
    (scan state cs).flatMap (fun token => token.text.toList) =
      state.held ++ undelimited state.mark? cs := by
  induction cs generalizing state with
  | nil => cases state <;> simp [scan, Scan.held, undelimited]
  | cons c rest ih =>
      cases state with
      | between =>
          by_cases opens : isQuote c = true
          · simp [scan, undelimited, Scan.held, Scan.mark?, opens, ih]
          · by_cases blank : Text.isBlank c = true <;>
              simp [scan, undelimited, Scan.held, Scan.mark?, opens, blank, ih]
      | word text quoted =>
          by_cases opens : isQuote c = true
          · simp [scan, undelimited, Scan.held, Scan.mark?, opens, ih]
          · by_cases blank : Text.isBlank c = true <;>
              simp [scan, undelimited, Scan.held, Scan.mark?, opens, blank, ih]
      | stretch mark text quoted =>
          by_cases closes : c = mark
          · simp [scan, undelimited, Scan.held, Scan.mark?, closes, ih]
          · simp [scan, undelimited, Scan.held, Scan.mark?, closes, ih]

namespace Word

/-- A word that can be told from its neighbours: nothing in its bare part ends it or opens a stretch, and it
is not empty. -/
def Valid (word : Word) : Prop :=
  (∀ c ∈ word.bare.toList, isQuote c = false ∧ Text.isBlank c = false) ∧
    (word.bare.toList = [] → word.quoted ≠ none)

instance (word : Word) : Decidable word.Valid :=
  decidable_of_iff ((word.bare.toList.all fun c => !isQuote c && !Text.isBlank c) = true ∧
    (word.bare.toList = [] → word.quoted ≠ none)) (by simp [Valid])

theorem data_valid (text : String) : (data text).Valid := by
  simp [Valid, data]

theorem attached_valid {flag : String} (text : String) (valid : (plain flag).Valid) :
    (attached flag text).Valid := by
  refine ⟨valid.1, ?_⟩
  intro empty
  exact absurd rfl (valid.2 empty)

end Word

theorem scan_word_plain (cs rest : List Char) (text : String) (quoted : Bool)
    (plain : ∀ c ∈ cs, isQuote c = false ∧ Text.isBlank c = false) :
    scan (.word text quoted) (cs ++ rest) = scan (.word (text ++ .ofList cs) quoted) rest := by
  induction cs generalizing text with
  | nil => simp
  | cons c tail ih =>
      obtain ⟨noQuote, filled⟩ := plain c List.mem_cons_self
      have others := ih (text.push c) fun later present => plain later (List.mem_cons_of_mem c present)
      rw [List.cons_append, scan, noQuote, filled]
      simpa [push_append, -String.ofList_cons] using others

theorem scan_word_quoted (quotedPart : Option String) (rest : List Char) (text : String) (quoted : Bool) :
    scan (.word text quoted) ((quotedPart.map fun part => quote part.toList).getD [] ++ rest) =
      scan (.word (text ++ quotedPart.getD "") quoted) rest := by
  cases quotedPart with
  | none => simp
  | some part => simpa using scan_quote_word part.toList rest text quoted

theorem scan_word_written (word : Word) (valid : word.Valid) (rest : List Char) :
    scan .between (word.write ++ rest) = scan (.word word.token.text word.token.quoted) rest := by
  obtain ⟨bare, quoted⟩ := word
  cases started : bare.toList with
  | nil =>
      have empty : bare = "" := String.toList_eq_nil_iff.mp started
      obtain ⟨text, written⟩ := Option.ne_none_iff_exists'.mp (valid.2 started)
      have written : quoted = some text := written
      subst empty written
      have noBare : ("" : String).isEmpty = true := rfl
      simpa [Word.write, Word.token, noBare] using scan_quote_between text.toList rest
  | cons c tail =>
      obtain ⟨noQuote, filled⟩ := valid.1 c (by simp [started])
      have plain : ∀ later ∈ tail, isQuote later = false ∧ Text.isBlank later = false := by
        intro later present
        exact valid.1 later (by simp [started, present])
      have whole : String.singleton c ++ String.ofList tail = bare := by
        rw [← String.toList_inj, started]
        simp
      have isBare : bare.isEmpty = false := by
        rw [Bool.eq_false_iff, ne_eq, String.isEmpty_iff, ← String.toList_eq_nil_iff, started]
        exact List.cons_ne_nil c tail
      rw [Word.write, started, List.append_assoc, List.cons_append, scan, noQuote, filled]
      rw [if_neg Bool.false_ne_true, if_neg Bool.false_ne_true, scan_word_plain tail _ _ _ plain, whole,
        scan_word_quoted, Word.token, isBare]

structure Gap where
  blanks : List Char
  filled : blanks ≠ []
  blank : ∀ c ∈ blanks, Text.isBlank c = true

def Gap.space : Gap := ⟨[' '], List.cons_ne_nil _ _, List.forall_mem_singleton.mpr rfl⟩

theorem scan_between_blanks (blanks rest : List Char) (blank : ∀ c ∈ blanks, Text.isBlank c = true) :
    scan .between (blanks ++ rest) = scan .between rest := by
  induction blanks with
  | nil => rfl
  | cons c more ih =>
      have first := blank c List.mem_cons_self
      rw [List.cons_append, scan_between_blank c _ first (blank_not_quote c first)]
      exact ih fun later present => blank later (List.mem_cons_of_mem c present)

theorem scan_word_gap (gap : Gap) (text : String) (quoted : Bool) (rest : List Char) :
    scan (.word text quoted) (gap.blanks ++ rest) = ⟨text, quoted⟩ :: scan .between rest := by
  obtain ⟨blanks, filled, blank⟩ := gap
  cases blanks with
  | nil => exact absurd rfl filled
  | cons c more =>
      have first := blank c List.mem_cons_self
      rw [List.cons_append, scan_word_blank text quoted c _ first (blank_not_quote c first)]
      rw [scan_between_blanks more rest fun later present => blank later (List.mem_cons_of_mem c present)]

def lay : (Nat → Gap) → List Word → List Char
  | _, [] => []
  | _, [word] => word.write
  | gaps, word :: next :: more =>
      word.write ++ (gaps 0).blanks ++ lay (fun place => gaps (place + 1)) (next :: more)

theorem scan_lay (gaps : Nat → Gap) (words : List Word) (valid : ∀ word ∈ words, word.Valid) :
    scan .between (lay gaps words) = words.map Word.token := by
  induction words generalizing gaps with
  | nil => rfl
  | cons word more ih =>
      have written := scan_word_written word (valid word List.mem_cons_self)
      have others := fun gaps => ih gaps fun later present => valid later (List.mem_cons_of_mem word present)
      cases more with
      | nil =>
          have alone := written []
          rw [List.append_nil] at alone
          rw [lay, alone]
          rfl
      | cons next more =>
          rw [lay, List.append_assoc, written, scan_word_gap, others]
          rfl

theorem spell_eq_lay (words : List Word) : spell words = .ofList (lay (fun _ => .space) words) := by
  rw [spell]
  congr 1
  induction words with
  | nil => rfl
  | cons word more ih =>
      cases more with
      | nil => simp [lay]
      | cons next more =>
          rw [lay, ← ih, List.map_cons, List.map_cons, List.intercalate_cons_cons]
          rfl

theorem tokenize_spell (words : List Word) (valid : ∀ word ∈ words, word.Valid) :
    tokenize (spell words) = words.map Word.token := by
  rw [spell_eq_lay, tokenize, String.toList_ofList, scan_lay _ words valid]

namespace Token

variable (token : Token)

theorem word_of_quoted (quoted : token.quoted = true) : token.word = .data token.text := by
  rw [word, if_pos quoted]

theorem word_of_bare {c : Char} {rest : List Char} (bare : token.quoted = false)
    (started : token.text.toList = c :: rest) :
    ∃ part, token.word = ⟨String.singleton c, part⟩ ∧ part.getD "" = .ofList rest := by
  rw [word, bare, started]
  cases rest with
  | nil => exact ⟨none, rfl, rfl⟩
  | cons next more => exact ⟨some (.ofList (next :: more)), rfl, rfl⟩

theorem word_valid (valid : token.WellFormed) : token.word.Valid := by
  cases bare : token.quoted with
  | true =>
      rw [word_of_quoted token bare]
      exact Word.data_valid token.text
  | false =>
      rcases valid with quoted | ⟨c, rest, started, noQuote, filled⟩
      · exact absurd quoted (by simp [bare])
      · obtain ⟨part, isWord, _⟩ := word_of_bare token bare started
        rw [isWord]
        simp [Word.Valid, noQuote, filled]

theorem word_token (valid : token.WellFormed) : token.word.token = token := by
  obtain ⟨text, quoted⟩ := token
  cases quoted with
  | true =>
      rw [word_of_quoted _ rfl, Word.data, Word.token]
      simp
  | false =>
      rcases valid with quoted | ⟨c, rest, started, _, _⟩
      · exact absurd quoted Bool.false_ne_true
      · obtain ⟨part, isWord, whole⟩ := word_of_bare ⟨text, false⟩ rfl started
        have joined : String.singleton c ++ String.ofList rest = text := by
          rw [← String.toList_inj, started]
          simp
        rw [isWord, Word.token, whole, joined]
        simp

theorem word_opens (valid : token.WellFormed) :
    token.word.write.head?.any isQuote = token.quoted := by
  cases bare : token.quoted with
  | true => simp [word_of_quoted token bare, Word.data, Word.write, quote, isQuote]
  | false =>
      rcases valid with quoted | ⟨c, rest, started, noQuote, _⟩
      · exact absurd quoted (by simp [bare])
      · obtain ⟨part, isWord, _⟩ := word_of_bare token bare started
        simp [isWord, Word.write, noQuote]

end Token

theorem tokens_characterised :
    (∀ line, ∀ token ∈ tokenize line, token.WellFormed) ∧
    (∀ tokens : List Token, (∀ token ∈ tokens, token.WellFormed) →
      (∀ token ∈ tokens, token.word.write.head?.any isQuote = token.quoted) ∧
      ∀ gaps, tokenize (.ofList (lay gaps (tokens.map Token.word))) = tokens) ∧
    (∀ line, (tokenize line).flatMap (fun token => token.text.toList) = undelimited none line.toList) := by
  refine ⟨?_, ?_, ?_⟩
  · intro line
    exact scan_well_formed .between line.toList trivial
  · intro tokens valid
    refine ⟨fun token present => token.word_opens (valid token present), ?_⟩
    intro gaps
    have words : ∀ word ∈ tokens.map Token.word, word.Valid := by
      intro word present
      obtain ⟨token, held, isWord⟩ := List.mem_map.mp present
      exact isWord ▸ token.word_valid (valid token held)
    have same : ∀ token ∈ tokens, token.word.token = token := fun token present =>
      token.word_token (valid token present)
    rw [tokenize, String.toList_ofList, scan_lay gaps _ words, List.map_map]
    exact (List.map_congr_left same).trans (List.map_id tokens)
  · intro line
    exact scan_texts .between line.toList

def mixedTokens : List Token := [⟨"git", false⟩, ⟨"", true⟩, ⟨"-m 'a' \"b\"", false⟩, ⟨"'\"", true⟩]

def wideGap : Gap := ⟨['\t', ' '], List.cons_ne_nil _ _, List.forall_mem_cons.mpr ⟨rfl, Gap.space.blank⟩⟩

theorem mixed_tokens_characterised :
    (⟨"--author=J D", false⟩ ∈ tokenize "git --author=\"J D" ∧
      Token.WellFormed ⟨"--author=J D", false⟩) ∧
    ((∀ token ∈ mixedTokens, token.WellFormed) ∧
      tokenize (.ofList (lay (fun place => if place = 1 then wideGap else .space)
        (mixedTokens.map Token.word))) = mixedTokens) := by
  obtain ⟨sound, complete, _⟩ := tokens_characterised
  have present : ⟨"--author=J D", false⟩ ∈ tokenize "git --author=\"J D" := by decide
  have valid : ∀ token ∈ mixedTokens, token.WellFormed := by
    intro token held
    rcases List.mem_cons.mp held with tool | others
    · exact .inr ⟨'g', ['i', 't'], by simp [tool], by decide, by decide⟩
    · rcases List.mem_cons.mp others with empty | others
      · exact .inl (by rw [empty])
      · rcases List.mem_cons.mp others with flag | last
        · exact .inr ⟨'-', "m 'a' \"b\"".toList, by simp [flag], by decide, by decide⟩
        · exact .inl (by rw [List.mem_singleton.mp last])
  exact ⟨⟨present, sound _ _ present⟩, valid, (complete mixedTokens valid).2 _⟩

end GitPractice.Line
