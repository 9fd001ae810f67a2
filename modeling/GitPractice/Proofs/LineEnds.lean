import GitPractice.Proofs.Replay
import GitPractice.Proofs.Tokens

set_option autoImplicit false

namespace GitPractice

namespace Line

def markAfter : Option Char → Char → Option Char
  | none, c => if isQuote c then some c else none
  | some mark, c => if c = mark then none else some mark

def openMark? (line : String) : Option Char := line.toList.foldl markAfter none

theorem mark_after_blank {mark? : Option Char} (quotes : ∀ mark ∈ mark?, isQuote mark = true) {c : Char}
    (blank : Text.isBlank c = true) : markAfter mark? c = mark? := by
  have plain := blank_not_quote c blank
  cases mark? with
  | none => rw [markAfter, plain, if_neg Bool.false_ne_true]
  | some mark =>
      have other : c ≠ mark := by
        intro same
        have isMark := quotes mark rfl
        rw [← same, plain] at isMark
        exact Bool.false_ne_true isMark
      rw [markAfter, if_neg other]

theorem mark_after_quotes {mark? : Option Char} (quotes : ∀ mark ∈ mark?, isQuote mark = true) (c : Char) :
    ∀ mark ∈ markAfter mark? c, isQuote mark = true := by
  cases mark? with
  | none =>
      intro mark opened
      by_cases opens : isQuote c = true
      · rw [markAfter, if_pos opens] at opened
        cases opened
        exact opens
      · rw [markAfter, if_neg opens] at opened
        cases opened
  | some before =>
      intro mark opened
      by_cases closes : c = before
      · rw [markAfter, if_pos closes] at opened
        cases opened
      · rw [markAfter, if_neg closes] at opened
        exact quotes mark opened

theorem marks_after_quotes (cs : List Char) {mark? : Option Char} (quotes : ∀ mark ∈ mark?, isQuote mark = true) :
    ∀ mark ∈ cs.foldl markAfter mark?, isQuote mark = true := by
  induction cs generalizing mark? with
  | nil => exact quotes
  | cons c rest ih => exact ih (mark_after_quotes quotes c)

theorem marks_after_blanks {blanks : List Char} (blank : ∀ c ∈ blanks, Text.isBlank c = true) {mark? : Option Char}
    (quotes : ∀ mark ∈ mark?, isQuote mark = true) : blanks.foldl markAfter mark? = mark? := by
  induction blanks with
  | nil => rfl
  | cons c rest ih =>
      obtain ⟨first, others⟩ := List.forall_mem_cons.mp blank
      rw [List.foldl_cons, mark_after_blank quotes first, ih others]

theorem scan_step (state : Scan) (c : Char) :
    ∃ given next, next.mark? = markAfter state.mark? c ∧ ∀ rest, scan state (c :: rest) = given ++ scan next rest := by
  cases state with
  | between =>
      by_cases opens : isQuote c = true
      · exact ⟨[], .stretch c "" true, by simp [Scan.mark?, markAfter, opens], fun rest => by simp [scan, opens]⟩
      · by_cases blank : Text.isBlank c = true
        · exact ⟨[], .between, by simp [Scan.mark?, markAfter, opens], fun rest => by simp [scan, opens, blank]⟩
        · exact ⟨[], .word (String.singleton c) false, by simp [Scan.mark?, markAfter, opens],
            fun rest => by simp [scan, opens, blank]⟩
  | word text quoted =>
      by_cases opens : isQuote c = true
      · exact ⟨[], .stretch c text quoted, by simp [Scan.mark?, markAfter, opens], fun rest => by simp [scan, opens]⟩
      · by_cases blank : Text.isBlank c = true
        · exact ⟨[⟨text, quoted⟩], .between, by simp [Scan.mark?, markAfter, opens],
            fun rest => by simp [scan, opens, blank]⟩
        · exact ⟨[], .word (text.push c) quoted, by simp [Scan.mark?, markAfter, opens],
            fun rest => by simp [scan, opens, blank]⟩
  | stretch mark text quoted =>
      by_cases closes : c = mark
      · exact ⟨[], .word text quoted, by simp [Scan.mark?, markAfter, closes], fun rest => by simp [scan, closes]⟩
      · exact ⟨[], .stretch mark (text.push c) quoted, by simp [Scan.mark?, markAfter, closes],
          fun rest => by simp [scan, closes]⟩

theorem scan_run (state : Scan) (cs : List Char) :
    ∃ given reached, reached.mark? = cs.foldl markAfter state.mark? ∧
      ∀ rest, scan state (cs ++ rest) = given ++ scan reached rest := by
  induction cs generalizing state with
  | nil => exact ⟨[], state, rfl, fun rest => rfl⟩
  | cons c tail ih =>
      obtain ⟨first, next, marked, step⟩ := scan_step state c
      obtain ⟨others, reached, ends, run⟩ := ih next
      refine ⟨first ++ others, reached, by rw [ends, marked, List.foldl_cons], fun rest => ?_⟩
      rw [List.cons_append, step, run, List.append_assoc]

theorem scan_stretch_blanks {mark : Char} (quotes : isQuote mark = true) {blanks : List Char}
    (blank : ∀ c ∈ blanks, Text.isBlank c = true) (text : String) (quoted : Bool) :
    scan (.stretch mark text quoted) blanks = [⟨text ++ .ofList blanks, quoted⟩] := by
  induction blanks generalizing text with
  | nil => simp [scan]
  | cons c rest ih =>
      obtain ⟨first, others⟩ := List.forall_mem_cons.mp blank
      have other : c ≠ mark := by
        intro same
        rw [← same, blank_not_quote c first] at quotes
        exact Bool.false_ne_true quotes
      rw [scan, if_neg other, ih others, push_append]

section
variable {blanks : List Char} (blank : ∀ c ∈ blanks, Text.isBlank c = true) (cs : List Char)
include blank

/-- Outside of quotes the blanks behind a token say nothing that the end of the line does not say. -/
theorem scan_closed_end (closed : cs.foldl markAfter none = none) :
    scan .between (cs ++ blanks) = scan .between cs := by
  obtain ⟨given, reached, marked, run⟩ := scan_run .between cs
  have alone := run []
  rw [List.append_nil] at alone
  rw [run, alone]
  congr 1
  cases reached with
  | between => simpa using scan_between_blanks blanks [] blank
  | word text quoted =>
      cases blanks with
      | nil => rfl
      | cons c more => simpa [scan] using scan_word_gap ⟨c :: more, List.cons_ne_nil _ _, blank⟩ text quoted []
  | stretch mark text quoted =>
      have opened : some mark = none := marked.trans closed
      cases opened

theorem scan_open_end (opened : cs.foldl markAfter none ≠ none) :
    ∃ earlier text quoted, scan .between cs = earlier ++ [⟨text, quoted⟩] ∧
      scan .between (cs ++ blanks) = earlier ++ [⟨text ++ .ofList blanks, quoted⟩] := by
  obtain ⟨given, reached, marked, run⟩ := scan_run .between cs
  have marked : reached.mark? = cs.foldl markAfter none := marked
  have alone := run []
  rw [List.append_nil] at alone
  cases reached with
  | between => exact absurd marked.symm opened
  | word text quoted => exact absurd marked.symm opened
  | stretch mark text quoted =>
      have quotes : ∀ mark ∈ cs.foldl markAfter none, isQuote mark = true := marks_after_quotes cs (by simp)
      exact ⟨given, text, quoted, alone, by rw [run, scan_stretch_blanks (quotes mark marked.symm) blank]⟩

end

theorem scan_begun {state : Scan} (begun : state ≠ .between) (cs : List Char) : scan state cs ≠ [] := by
  induction cs generalizing state with
  | nil =>
      cases state with
      | between => exact absurd rfl begun
      | word text quoted => exact List.cons_ne_nil _ _
      | stretch mark text quoted => exact List.cons_ne_nil _ _
  | cons c rest ih =>
      cases state with
      | between => exact absurd rfl begun
      | word text quoted =>
          rw [scan]
          split
          · exact ih (by simp)
          · split
            · exact List.cons_ne_nil _ _
            · exact ih (by simp)
      | stretch mark text quoted =>
          rw [scan]
          split
          · exact ih (by simp)
          · exact ih (by simp)

theorem tokenize_nil_iff (line : String) : tokenize line = [] ↔ Text.trimmed line = "" := by
  have blank (cs : List Char) : scan .between cs = [] ↔ cs.all Text.isBlank = true := by
    induction cs with
    | nil => simp [scan]
    | cons c rest ih =>
        by_cases blank : Text.isBlank c = true
        · rw [scan_between_blank c rest blank (blank_not_quote c blank), ih, List.all_cons, blank, Bool.true_and]
        · have begun : scan .between (c :: rest) ≠ [] := by
            rw [scan]
            split
            · exact scan_begun (by simp) rest
            · exact scan_begun (by simp) rest
          simp [begun, blank]
  rw [tokenize, blank, ← Text.blank_text_iff, Text.isBlankText]

end Line

theorem Text.trim_decomposition (cs : List Char) :
    ∃ before after, cs = before ++ (trim cs ++ after) ∧ (∀ c ∈ before, isBlank c = true) ∧
      ∀ c ∈ after, isBlank c = true := by
  refine ⟨cs.takeWhile isBlank, ((trimStart cs).reverse.takeWhile isBlank).reverse, ?_, ?_, ?_⟩
  · rw [trim, ← trim_end_decomposition, ← trim_start_decomposition]
  · exact fun c present => List.all_eq_true.mp List.all_takeWhile c present
  · exact fun c present => List.all_eq_true.mp List.all_takeWhile c (List.mem_reverse.mp present)

namespace Line

theorem tokenize_trimmed (line : String) :
    ∃ blanks, (∀ c ∈ blanks, Text.isBlank c = true) ∧
      tokenize line = scan .between (Text.trim line.toList ++ blanks) ∧
      openMark? line = (Text.trim line.toList).foldl markAfter none := by
  obtain ⟨before, after, whole, front, back⟩ := Text.trim_decomposition line.toList
  refine ⟨after, back, ?_, ?_⟩
  · have read : tokenize line = scan .between (before ++ (Text.trim line.toList ++ after)) :=
      congrArg (scan .between) whole
    rw [read, scan_between_blanks before _ front]
  · have marked : openMark? line = (before ++ (Text.trim line.toList ++ after)).foldl markAfter none :=
      congrArg (List.foldl markAfter none) whole
    have quotes : ∀ mark ∈ (Text.trim line.toList).foldl markAfter none, isQuote mark = true :=
      marks_after_quotes _ (by simp)
    rw [marked, List.foldl_append, List.foldl_append, marks_after_blanks front (by simp),
      marks_after_blanks back quotes]

end Line

namespace Session

open Line

theorem evaluate_tokens (session : Session) {line other : String} (same : tokenize line = tokenize other) :
    session.evaluate line = session.evaluate other := by
  simp only [evaluate, Command.parse, same]

theorem typed_reads_as_evaluated (line : String) :
    (openMark? line = none →
      tokenize (Text.trimmed line) = tokenize line ∧
      (Text.isBlankText line = false → ∀ session : Session,
        (session.execute line).1 =
          [⟨"$ " ++ Text.trimmed line, .input⟩,
            match (session.evaluate line).1 with
            | .done text => ⟨text, .output⟩
            | .refused error => ⟨error.message, .error⟩
            | .interrupted reason => ⟨"Error: " ++ reason, .error⟩] ∧
        (session.execute line).2.transcript.entries = session.transcript.entries ++ (session.execute line).1 ∧
        (session.execute line).2.toState = (session.evaluate line).2.toState)) ∧
    (openMark? line ≠ none →
      ∃ earlier text quoted blanks, (∀ c ∈ blanks, Text.isBlank c = true) ∧
        tokenize (Text.trimmed line) = earlier ++ [⟨text, quoted⟩] ∧
        tokenize line = earlier ++ [⟨text ++ .ofList blanks, quoted⟩]) ∧
    (tokenize line = [] ↔ Text.trimmed line = "") := by
  obtain ⟨blanks, blank, read, marked⟩ := tokenize_trimmed line
  have alone : tokenize (Text.trimmed line) = scan .between (Text.trim line.toList) := by
    rw [tokenize, Text.trimmed_to_list]
  refine ⟨?_, ?_, tokenize_nil_iff line⟩
  · intro closed
    have same : tokenize (Text.trimmed line) = tokenize line := by
      rw [alone, read, scan_closed_end blank _ (marked.symm.trans closed)]
    refine ⟨same, fun filled session => ?_⟩
    have evaluated := session.evaluate_tokens same
    rw [execute_filled session filled, evaluated]
    refine ⟨?_, rfl, rfl⟩
    cases (session.evaluate line).1 with
    | done text => rfl
    | refused error => rfl
    | interrupted reason => rfl
  · intro opened
    obtain ⟨earlier, text, quoted, short, long⟩ := scan_open_end blank _ (marked ▸ opened)
    exact ⟨earlier, text, quoted, blanks, blank, alone.trans short, read.trans long⟩

/-- The blanks at the ends are no ASCII ones, and in the last line the last one stands in an open quote. -/
theorem typed_reads_as_evaluated_wide :
    let session := start {} .sequential
    let closed := "\u3000git branch 'a '\u2003"
    let failing := "\u2003git commit\u3000"
    let opened := "git branch a\" b\u2003"
    ((openMark? closed = none ∧ Text.isBlankText closed = false) ∧
      (session.execute closed).1 =
        [⟨"$ git branch 'a '", .input⟩, ⟨"Created branch 'a ' (based on 'main')", .output⟩] ∧
      (session.execute closed).2.toState = (session.evaluate closed).2.toState ∧
      (session.execute failing).1 =
        [⟨"$ git commit", .input⟩, ⟨"Error: No changes staged for commit", .error⟩]) ∧
    (openMark? opened = some '"' ∧
      ∃ earlier text quoted blanks, (∀ c ∈ blanks, Text.isBlank c = true) ∧
        tokenize "git branch a\" b" = earlier ++ [⟨text, quoted⟩] ∧
        tokenize opened = earlier ++ [⟨text ++ .ofList blanks, quoted⟩]) := by
  intro session closed failing opened
  have isClosed : openMark? closed = none := by decide
  have isOpened : openMark? opened = some '"' := by decide
  have filled : Text.isBlankText closed = false := by decide
  have trimmed : Text.trimmed closed = "git branch 'a '" := by decide
  have trimmedFailing : Text.trimmed failing = "git commit" := by decide
  have trimmedOpen : Text.trimmed opened = "git branch a\" b" := by decide
  have answered : (session.evaluate closed).1 = .done "Created branch 'a ' (based on 'main')" := by decide +kernel
  have refused : (session.evaluate failing).1 = .refused .nothingStaged := by decide +kernel
  obtain ⟨alike, _, _⟩ := typed_reads_as_evaluated closed
  obtain ⟨alikeFailing, _, _⟩ := typed_reads_as_evaluated failing
  obtain ⟨_, apart, _⟩ := typed_reads_as_evaluated opened
  obtain ⟨told, _, state⟩ := (alike isClosed).2 filled session
  obtain ⟨toldFailing, _, _⟩ := (alikeFailing (by decide)).2 (by decide) session
  rw [trimmed, answered] at told
  rw [trimmedFailing, refused] at toldFailing
  have shorter := apart (by simp [isOpened])
  rw [trimmedOpen] at shorter
  exact ⟨⟨⟨isClosed, filled⟩, told, state, toldFailing⟩, isOpened, shorter⟩

end Session

end GitPractice
