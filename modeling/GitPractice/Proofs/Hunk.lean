import GitPractice.Diff
import GitPractice.Proofs.TrimmedLines

set_option autoImplicit false

namespace GitPractice

def Change.ofMark? : Char → Option Change
  | ' ' => some .context
  | '+' => some .addition
  | '-' => some .deletion
  | _ => none

theorem Change.of_mark_iff (c : Char) (change : Change) :
    ofMark? c = some change ↔ change.mark.toList = [c] := by
  constructor
  · intro read
    unfold ofMark? at read
    split at read <;> cases read <;> rfl
  · intro written
    cases change <;> cases written <;> rfl

namespace DiffLine

/-- A content without a line end, but for one that it may end in. -/
def IsLine (line : DiffLine) : Prop := '\n' ∉ line.content.toList.dropLast

instance (line : DiffLine) : Decidable line.IsLine := inferInstanceAs (Decidable ('\n' ∉ _))

def row (line : DiffLine) : String := line.change.mark ++ line.bareContent

def bare (line : DiffLine) : DiffLine := { line with content := line.bareContent }

def ofRow? (row : String) : Option DiffLine :=
  match row.toList with
  | [] => none
  | c :: rest => (Change.ofMark? c).map fun change => ⟨change, .ofList rest⟩

theorem bare_content_line {line : DiffLine} (isLine : line.IsLine) :
    Text.OneLine line.bareContent ∧
      (line.content = line.bareContent ∨ line.content = line.bareContent ++ "\n") := by
  have unended {cs : List Char} (whole : '\n' ∉ cs) : cs.reverse.dropWhile (· == '\n') = cs.reverse := by
    rw [← List.mem_reverse] at whole
    cases reversed : cs.reverse with
    | nil => rfl
    | cons c rest =>
        rw [reversed, List.mem_cons, not_or] at whole
        exact List.dropWhile_cons_of_neg (by simpa using Ne.symm whole.1)
  rw [IsLine] at isLine
  cases split : line.content.toList.getLast? with
  | none =>
      have empty : line.content = "" := String.toList_eq_nil_iff.mp (List.getLast?_eq_none_iff.mp split)
      simp [bareContent, empty, Text.OneLine]
  | some last =>
      obtain ⟨front, whole⟩ := List.getLast?_eq_some_iff.mp split
      rw [whole, List.dropLast_concat] at isLine
      by_cases ended : last = '\n'
      · have content : line.bareContent = .ofList front := by
          simp [bareContent, whole, ended, unended isLine]
        rw [content]
        refine ⟨by simpa [Text.OneLine] using isLine, .inr ?_⟩
        rw [← String.toList_inj, whole, ended, String.toList_append, String.toList_ofList]
        rfl
      · have unbroken : '\n' ∉ line.content.toList := by
          simp [whole, isLine, Ne.symm ended]
        have content : line.bareContent = line.content := by
          rw [bareContent, unended unbroken, List.reverse_reverse, String.ofList_toList]
        rw [content]
        exact ⟨unbroken, .inl rfl⟩

theorem one_line_row {line : DiffLine} (isLine : line.IsLine) : Text.OneLine line.row := by
  rw [row, Text.one_line_append]
  refine ⟨?_, (bare_content_line isLine).1⟩
  cases line.change <;> decide

theorem of_row_iff (row : String) (line : DiffLine) :
    ofRow? row = some line ↔ row = line.change.mark ++ line.content := by
  rw [ofRow?, ← String.toList_inj, String.toList_append]
  cases row.toList with
  | nil =>
      refine iff_of_false (by simp) ?_
      cases line.change <;> simp [Change.mark]
  | cons c rest =>
      rw [Option.map_eq_some_iff]
      constructor
      · rintro ⟨change, read, rfl⟩
        rw [(Change.of_mark_iff c change).mp read, String.toList_ofList, List.singleton_append]
      · intro whole
        obtain ⟨mark, marked⟩ : ∃ mark, line.change.mark.toList = [mark] := by
          cases line.change <;> exact ⟨_, rfl⟩
        rw [marked, List.singleton_append] at whole
        cases whole
        exact ⟨line.change, (Change.of_mark_iff c line.change).mpr marked, by rw [String.ofList_toList]⟩

theorem read_rows_iff (rows : List String) (lines : List DiffLine) :
    rows.mapM ofRow? = some lines ↔ rows = lines.map fun line => line.change.mark ++ line.content := by
  induction rows generalizing lines with
  | nil => cases lines <;> simp [List.mapM_nil]
  | cons row rest ih =>
      rw [List.mapM_cons, Option.bind_eq_bind, Option.bind_eq_some_iff]
      constructor
      · rintro ⟨line, read, others⟩
        obtain ⟨more, readMore, same⟩ := Option.bind_eq_some_iff.mp others
        cases same
        rw [List.map_cons, ← (of_row_iff row line).mp read, ← (ih more).mp readMore]
      · intro whole
        cases lines with
        | nil => cases whole
        | cons line more =>
            obtain ⟨first, others⟩ := List.cons.inj whole
            refine ⟨line, (of_row_iff row line).mpr first, ?_⟩
            rw [(ih more).mpr others]
            rfl

end DiffLine

namespace Diff

variable (diff : Diff)

def rows : List String := diff.lines.map DiffLine.row

def headerLines : List String :=
  ["diff --git a/" ++ diff.path ++ " b/" ++ diff.path, indexLine, "--- a/" ++ diff.path, "+++ b/" ++ diff.path,
    diff.hunkHeader]

theorem text_lines : diff.header ++ diff.body = "\n".intercalate (diff.headerLines ++ (diff.rows ++ [""])) := by
  have body : diff.body = "\n".intercalate (diff.rows ++ [""]) := by
    rw [← Text.joined_line_ends, body, rows, List.map_map]
    rfl
  have header : diff.header = "diff --git a/" ++ diff.path ++ " b/" ++ diff.path ++ "\n" ++ indexLine ++
      ("\n" ++ "--- a/") ++ diff.path ++ ("\n" ++ "+++ b/") ++ diff.path ++ "\n" ++ diff.hunkHeader ++ "\n" := rfl
  have more : diff.rows ++ [""] ≠ [] := by simp
  rw [header, body]
  generalize diff.rows ++ [""] = rows at more
  simp only [headerLines, List.cons_append, List.nil_append]
  rw [String.intercalate_cons_of_ne_nil (by simp), String.intercalate_cons_of_ne_nil (by simp),
    String.intercalate_cons_of_ne_nil (by simp), String.intercalate_cons_of_ne_nil (by simp),
    String.intercalate_cons_of_ne_nil more]
  simp only [String.append_assoc]

theorem hunk_header_whole : Text.OneLine diff.hunkHeader := by
  have number (n : Nat) : Text.OneLine (toString n) := by
    have written : (toString n).toList = Nat.toDigits 10 n := String.toList_ofList
    have listed : ∀ value < 10, '\n' ≠ Nat.digitChar value := by decide
    rw [Text.OneLine, written]
    intro cut
    obtain ⟨value, below, same⟩ := Text.mem_to_digits (by decide) cut
    exact listed value below same
  simp only [hunkHeader, Text.one_line_append, number]
  decide

theorem hunk_header_ends : Text.EndsFilled diff.hunkHeader :=
  Text.ends_filled_append _ (by decide)

/-- The header of the hunk stops the trimming, so nothing above the rows is lost. -/
theorem trim_text_lines :
    Text.trimLines (diff.headerLines ++ (diff.rows ++ [""])) = diff.headerLines ++ Text.trimLines diff.rows := by
  have last : Text.trimLines (diff.rows ++ [""]) = Text.trimLines diff.rows :=
    Text.trim_lines_append_blank diff.rows (by decide)
  have behind := Text.trim_lines_filled diff.hunk_header_ends (diff.rows ++ [""])
  rw [last] at behind
  have kept : Text.trimLines (diff.hunkHeader :: (diff.rows ++ [""])) ≠ [] := by simp [behind]
  have split (rest : List String) : diff.headerLines ++ rest =
      ["diff --git a/" ++ diff.path ++ " b/" ++ diff.path, indexLine, "--- a/" ++ diff.path,
        "+++ b/" ++ diff.path] ++ (diff.hunkHeader :: rest) := rfl
  rw [split, split, Text.trim_lines_append _ kept, behind]

theorem header_lines_whole {diff : Diff} (pathWhole : Text.OneLine diff.path) :
    ∀ line ∈ diff.headerLines, Text.OneLine line := by
  simp only [headerLines, List.forall_mem_cons, Text.one_line_append, pathWhole, hunk_header_whole]
  decide

theorem rows_whole {diff : Diff} (whole : ∀ line ∈ diff.lines, line.IsLine) :
    ∀ row ∈ diff.rows, Text.OneLine row :=
  List.forall_mem_map.mpr fun line listed => DiffLine.one_line_row (whole line listed)

theorem lines_of_render {diff : Diff} (pathWhole : Text.OneLine diff.path)
    (whole : ∀ line ∈ diff.lines, line.IsLine) :
    Script.linesOf diff.render = diff.headerLines ++ Text.trimLines diff.rows := by
  have linesWhole : ∀ line ∈ diff.headerLines ++ (diff.rows ++ [""]), Text.OneLine line := by
    simp only [List.forall_mem_append, List.forall_mem_singleton]
    exact ⟨header_lines_whole pathWhole, rows_whole whole, by decide⟩
  have kept : Text.trimLines (diff.headerLines ++ (diff.rows ++ [""])) ≠ [] := by
    rw [trim_text_lines]
    simp [headerLines]
  rw [render, text_lines, Text.lines_of_trimmed_end linesWhole kept, trim_text_lines]

def opensWith (marks : List Char) (row : String) : Bool := row.toList.head?.any marks.contains

theorem opens_trimmed (marks : List Char) {row : String} (filled : Text.isBlankText row = false) :
    opensWith marks (Text.trimmedEnd row) = opensWith marks row := by
  obtain ⟨lost, whole⟩ := Text.trim_end_starts row.toList
  rw [opensWith, opensWith, Text.trimmed_end_to_list]
  cases kept : Text.trimEnd row.toList with
  | nil =>
      rw [Text.trim_end_nil_iff] at kept
      rw [Text.isBlankText, kept] at filled
      cases filled
  | cons c rest =>
      rw [← whole, kept]
      rfl

theorem rows_counted {marks : List Char} {other : Change}
    (side : ∀ change : Change, opensWith marks change.mark = (change != other)) :
    diff.rows.countP (opensWith marks) = diff.lines.countP (·.change != other) := by
  rw [rows, List.countP_map]
  refine List.countP_congr fun line _ => ?_
  have same : opensWith marks line.row = opensWith marks line.change.mark := by
    cases change : line.change <;> simp [opensWith, DiffLine.row, Change.mark, change]
  rw [Function.comp_apply, same, side]

theorem blank_row_kept {line : DiffLine} (blank : Text.isBlankText line.row = true) : line.change = .context := by
  rw [Text.isBlankText, DiffLine.row, String.toList_append, List.all_append, Bool.and_eq_true] at blank
  cases change : line.change with
  | context => rfl
  | addition =>
      rw [change] at blank
      exact absurd blank.1 (by decide)
  | deletion =>
      rw [change] at blank
      exact absurd blank.1 (by decide)

theorem shown_count_iff (marks : List Char) (context : ' ' ∈ marks) :
    (Text.trimLines diff.rows).countP (opensWith marks) = diff.rows.countP (opensWith marks) ↔
      ∀ last ∈ diff.rows.getLast?, Text.isBlankText last = false := by
  -- A blank row is a context row, and those are counted on both sides.
  refine Text.trim_lines_count_iff (fun row => opens_trimmed marks) ?_
  intro row present blank
  obtain ⟨line, _, rfl⟩ := List.mem_map.mp present
  simp [opensWith, DiffLine.row, Change.mark, blank_row_kept blank, context]

theorem hunk_matches_header {diff : Diff} (pathWhole : Text.OneLine diff.path)
    (whole : ∀ line ∈ diff.lines, line.IsLine) :
    let oldCount := diff.lines.countP (·.change != .addition)
    let newCount := diff.lines.countP (·.change != .deletion)
    let shown := Text.trimLines diff.rows
    Script.linesOf diff.render =
      ["diff --git a/" ++ diff.path ++ " b/" ++ diff.path, "index 1234567..abcdefg 100644", "--- a/" ++ diff.path,
        "+++ b/" ++ diff.path, "@@ -1," ++ toString oldCount ++ " +1," ++ toString newCount ++ " @@"] ++ shown ∧
    (∀ line ∈ diff.lines, Text.OneLine line.bareContent ∧
      (line.content = line.bareContent ∨ line.content = line.bareContent ++ "\n")) ∧
    (shown = diff.rows ↔ ∀ last ∈ diff.rows.getLast?, Text.EndsFilled last) ∧
    (shown.mapM DiffLine.ofRow? = some (diff.lines.map DiffLine.bare) ↔
      ∀ last ∈ diff.rows.getLast?, Text.EndsFilled last) ∧
    (shown.length = diff.lines.length ↔ ∀ last ∈ diff.rows.getLast?, Text.isBlankText last = false) ∧
    (shown.countP (opensWith [' ', '-']) = oldCount ↔
      ∀ last ∈ diff.rows.getLast?, Text.isBlankText last = false) ∧
    (shown.countP (opensWith [' ', '+']) = newCount ↔
      ∀ last ∈ diff.rows.getLast?, Text.isBlankText last = false) := by
  intro oldCount newCount shown
  have same := Text.trim_lines_eq_iff diff.rows
  refine ⟨lines_of_render pathWhole whole, fun line present => DiffLine.bare_content_line (whole line present),
    same, ?_, ?_, ?_, ?_⟩
  · rw [DiffLine.read_rows_iff, List.map_map, ← same]
    rfl
  · have every : (Text.trimLines diff.rows).countP (fun _ => true) = diff.rows.countP (fun _ => true) ↔
        ∀ last ∈ diff.rows.getLast?, Text.isBlankText last = false :=
      Text.trim_lines_count_iff (fun _ _ => rfl) fun _ _ _ => rfl
    have length : diff.rows.length = diff.lines.length := List.length_map _
    rwa [List.countP_true, length] at every
  · have side : ∀ change : Change, opensWith [' ', '-'] change.mark = (change != .addition) := by
      intro change
      cases change <;> rfl
    rw [← diff.shown_count_iff [' ', '-'] (by decide), diff.rows_counted side]
  · have side : ∀ change : Change, opensWith [' ', '+'] change.mark = (change != .deletion) := by
      intro change
      cases change <;> rfl
    rw [← diff.shown_count_iff [' ', '+'] (by decide), diff.rows_counted side]

def spacedDiff : Diff where
  path := "no tes.txt"
  lines :=
    [⟨.context, "\n"⟩, ⟨.deletion, "a \n"⟩, ⟨.addition, ""⟩, ⟨.context, " "⟩, ⟨.addition, "\t\n"⟩, ⟨.deletion, "\n"⟩]

theorem spaced_hunk_matches_header :
    Text.OneLine spacedDiff.path ∧ (∀ line ∈ spacedDiff.lines, line.IsLine) ∧
    Script.linesOf spacedDiff.render =
      ["diff --git a/no tes.txt b/no tes.txt", "index 1234567..abcdefg 100644", "--- a/no tes.txt",
        "+++ b/no tes.txt", "@@ -1,4 +1,4 @@", " ", "-a ", "+", "  ", "+\t", "-"] ∧
    ([" ", "-a ", "+", "  ", "+\t", "-"].mapM DiffLine.ofRow?).map (·.map DiffLine.content) =
      some ["", "a ", "", " ", "\t", ""] := by
  have pathWhole : Text.OneLine spacedDiff.path := by decide
  have whole : ∀ line ∈ spacedDiff.lines, line.IsLine := by decide
  obtain ⟨lines, _, rows, read, _⟩ := hunk_matches_header pathWhole whole
  have ends : ∀ last ∈ spacedDiff.rows.getLast?, Text.EndsFilled last := by decide
  have written : spacedDiff.rows = [" ", "-a ", "+", "  ", "+\t", "-"] := by decide
  have readBack := read.mpr ends
  rw [rows.mpr ends, written] at lines readBack
  refine ⟨pathWhole, whole, lines, ?_⟩
  rw [readBack]
  decide

theorem blank_context_dropped :
    ¬ ∀ diff : Diff, Text.OneLine diff.path → (∀ line ∈ diff.lines, line.IsLine) →
      (Script.linesOf diff.render).drop 5 = diff.lines.map fun line => line.change.mark ++ line.bareContent := by
  intro always
  have kept := always ⟨"notes.txt", [⟨.context, "a\n"⟩, ⟨.context, "\n"⟩]⟩ (by decide) (by decide)
  rw [lines_of_render (by decide) (by decide)] at kept
  exact absurd (congrArg List.length kept) (by decide)

end Diff

end GitPractice
