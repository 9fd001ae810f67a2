import GitPractice.Proofs.Scripts

set_option autoImplicit false

namespace GitPractice

namespace Text

def OneLine (text : String) : Prop := '\n' ∉ text.toList

instance (text : String) : Decidable (OneLine text) := inferInstanceAs (Decidable ('\n' ∉ text.toList))

@[simp] theorem one_line_append (front back : String) : OneLine (front ++ back) ↔ OneLine front ∧ OneLine back := by
  rw [OneLine, String.toList_append, List.mem_append, not_or, OneLine, OneLine]

def EndsFilled (text : String) : Prop := text.toList.getLast?.any (fun c => !isBlank c) = true

instance (text : String) : Decidable (EndsFilled text) := inferInstanceAs (Decidable (_ = true))

theorem trim_end_nil_iff (cs : List Char) : trimEnd cs = [] ↔ cs.all isBlank = true := by
  rw [trimEnd, List.reverse_eq_nil_iff, drop_while_nil_iff, List.all_reverse]

theorem trim_end_concat (front back : List Char) :
    trimEnd (front ++ back) = if trimEnd back = [] then trimEnd front else front ++ trimEnd back := by
  rw [trimEnd, List.reverse_append, List.dropWhile_append]
  by_cases gone : back.reverse.dropWhile isBlank = []
  · simp [trimEnd, gone]
  · simp [trimEnd, gone]

theorem trimmed_end_blank {text : String} (blank : isBlankText text = true) : trimmedEnd text = "" := by
  rw [← String.toList_inj, trimmed_end_to_list, String.toList_empty, trim_end_nil_iff]
  exact blank

theorem ends_filled_iff (text : String) :
    EndsFilled text ↔ isBlankText text = false ∧ trimmedEnd text = text := by
  rw [← String.toList_inj, trimmed_end_to_list, EndsFilled, isBlankText]
  cases split : text.toList.getLast? with
  | none => simp [List.getLast?_eq_none_iff.mp split]
  | some last =>
      obtain ⟨front, whole⟩ := List.getLast?_eq_some_iff.mp split
      rw [whole]
      cases blank : isBlank last with
      | false => simp [trim_end_append front last blank, blank]
      | true =>
          have shorter : (trimEnd front).length ≤ front.length := (trim_end_starts front).length_le
          refine iff_of_false (by simp [blank]) ?_
          rintro ⟨_, same⟩
          have longer := congrArg List.length same
          rw [trim_end_append_blank front last blank, List.length_append, List.length_singleton] at longer
          omega

theorem ends_filled_append (front : String) {back : String} (ends : EndsFilled back) :
    EndsFilled (front ++ back) := by
  rw [EndsFilled] at ends ⊢
  rw [String.toList_append, List.getLast?_append]
  cases last : back.toList.getLast? with
  | none =>
      rw [last] at ends
      exact absurd ends Bool.false_ne_true
  | some c =>
      rw [last] at ends
      exact ends

/-- What is left of some lines when the text that they make loses the blanks at its end. -/
def trimLines : List String → List String
  | [] => []
  | line :: rest => match trimLines rest with
    | [] => if isBlankText line then [] else [trimmedEnd line]
    | next :: more => line :: next :: more

theorem trim_lines_last {line : String} {rest : List String} (blank : trimLines rest = []) :
    trimLines (line :: rest) = if isBlankText line then [] else [trimmedEnd line] := by
  rw [trimLines, blank]

theorem trim_lines_kept {line : String} {rest : List String} (kept : trimLines rest ≠ []) :
    trimLines (line :: rest) = line :: trimLines rest := by
  rw [trimLines]
  cases left : trimLines rest with
  | nil => exact absurd left kept
  | cons next more => rfl

theorem trim_lines_nil_iff (lines : List String) :
    trimLines lines = [] ↔ ∀ line ∈ lines, isBlankText line = true := by
  induction lines with
  | nil => simp [trimLines]
  | cons line rest ih =>
      rw [List.forall_mem_cons, ← ih]
      by_cases blank : trimLines rest = []
      · rw [trim_lines_last blank]
        simp [blank]
      · rw [trim_lines_kept blank]
        simp [blank]

theorem trim_lines_append {back : List String} (front : List String) (kept : trimLines back ≠ []) :
    trimLines (front ++ back) = front ++ trimLines back := by
  induction front with
  | nil => rfl
  | cons line rest ih =>
      have still : trimLines (rest ++ back) ≠ [] := by
        rw [ih]
        exact List.append_ne_nil_of_right_ne_nil rest kept
      rw [List.cons_append, trim_lines_kept still, ih, List.cons_append]

theorem trim_lines_append_blank {back : List String} (front : List String) (blank : trimLines back = []) :
    trimLines (front ++ back) = trimLines front := by
  induction front with
  | nil => exact blank
  | cons line rest ih => rw [List.cons_append, trimLines, ih, trimLines]

theorem trim_lines_concat (front : List String) (last : String) :
    trimLines (front ++ [last]) =
      if isBlankText last then trimLines front else front ++ [trimmedEnd last] := by
  by_cases blank : isBlankText last = true
  · rw [if_pos blank, trim_lines_append_blank front (by rw [trim_lines_last rfl, if_pos blank])]
  · have kept : trimLines [last] = [trimmedEnd last] := by rw [trim_lines_last rfl, if_neg blank]
    rw [if_neg blank, trim_lines_append front (by simp [kept]), kept]

theorem trim_lines_filled {line : String} (ends : EndsFilled line) (rest : List String) :
    trimLines (line :: rest) = line :: trimLines rest := by
  obtain ⟨filled, whole⟩ := (ends_filled_iff line).mp ends
  by_cases blank : trimLines rest = []
  · rw [trim_lines_last blank, filled, if_neg Bool.false_ne_true, whole, blank]
  · exact trim_lines_kept blank

theorem trim_lines_count_le {counts : String → Bool}
    (alike : ∀ line, isBlankText line = false → counts (trimmedEnd line) = counts line) (lines : List String) :
    (trimLines lines).countP counts ≤ lines.countP counts := by
  induction lines with
  | nil => exact Nat.le_refl _
  | cons line rest ih =>
      by_cases blank : trimLines rest = []
      · rw [trim_lines_last blank]
        split
        · exact Nat.zero_le _
        · rename_i filled
          rw [List.countP_cons, List.countP_cons, alike line (Bool.eq_false_iff.mpr filled), List.countP_nil]
          omega
      · rw [trim_lines_kept blank, List.countP_cons, List.countP_cons]
        omega

/-- Whatever counts the blank lines counts as many lines as before exactly if the last one is not blank. -/
theorem trim_lines_count_iff {counts : String → Bool} {lines : List String}
    (alike : ∀ line, isBlankText line = false → counts (trimmedEnd line) = counts line)
    (blankCounts : ∀ line ∈ lines, isBlankText line = true → counts line = true) :
    (trimLines lines).countP counts = lines.countP counts ↔
      ∀ last ∈ lines.getLast?, isBlankText last = false := by
  cases split : lines.getLast? with
  | none => simp [List.getLast?_eq_none_iff.mp split, trimLines]
  | some last =>
      obtain ⟨front, rfl⟩ := List.getLast?_eq_some_iff.mp split
      have fewer := trim_lines_count_le alike front
      rw [trim_lines_concat, List.countP_append, List.countP_singleton]
      by_cases blank : isBlankText last = true
      · have counted := blankCounts last (by simp) blank
        rw [if_pos blank, if_pos counted]
        exact iff_of_false (by omega) (by simp [blank])
      · rw [if_neg blank, List.countP_append, List.countP_singleton, alike last (Bool.eq_false_iff.mpr blank)]
        exact iff_of_true rfl (by simpa using blank)

theorem trim_lines_eq_iff (lines : List String) :
    trimLines lines = lines ↔ ∀ last ∈ lines.getLast?, EndsFilled last := by
  cases split : lines.getLast? with
  | none => simp [List.getLast?_eq_none_iff.mp split, trimLines]
  | some last =>
      obtain ⟨front, rfl⟩ := List.getLast?_eq_some_iff.mp split
      have single : (∀ other ∈ some last, EndsFilled other) ↔ EndsFilled last := by simp
      rw [trim_lines_concat, single, ends_filled_iff]
      by_cases blank : isBlankText last = true
      · have fewer : (trimLines front).countP (fun _ => true) ≤ front.countP fun _ => true :=
          trim_lines_count_le (fun _ _ => rfl) front
        rw [if_pos blank]
        refine iff_of_false ?_ (by simp [blank])
        intro same
        rw [List.countP_true, same, List.length_append, List.length_singleton] at fewer
        omega
      · simp [blank]

theorem one_line_trim_lines {lines : List String} (whole : ∀ line ∈ lines, OneLine line) :
    ∀ line ∈ trimLines lines, OneLine line := by
  induction lines with
  | nil => simp [trimLines]
  | cons first rest ih =>
      obtain ⟨own, others⟩ := List.forall_mem_cons.mp whole
      by_cases blank : trimLines rest = []
      · rw [trim_lines_last blank]
        intro line present
        split at present
        · exact absurd present List.not_mem_nil
        · rw [List.mem_singleton.mp present, OneLine, trimmed_end_to_list]
          exact fun cut => own ((trim_end_starts first.toList).subset cut)
      · rw [trim_lines_kept blank]
        exact List.forall_mem_cons.mpr ⟨own, ih others⟩

theorem joined_line_ends (lines : List String) :
    "".intercalate (lines.map (· ++ "\n")) = "\n".intercalate (lines ++ [""]) := by
  induction lines with
  | nil => rfl
  | cons line rest ih =>
      have first : "".intercalate ((line :: rest).map (· ++ "\n")) =
          line ++ "\n" ++ "".intercalate (rest.map (· ++ "\n")) := by
        rw [← String.toList_inj, String.toList_append, String.toList_intercalate, String.toList_intercalate]
        cases rest <;> simp [List.intercalate]
      rw [first, ih, List.cons_append, String.intercalate_cons_of_ne_nil (by simp)]

theorem blank_lines_iff (lines : List String) :
    isBlankText ("\n".intercalate lines) = true ↔ ∀ line ∈ lines, isBlankText line = true := by
  induction lines with
  | nil => simp [isBlankText]
  | cons line rest ih =>
      cases rest with
      | nil => simp
      | cons next more =>
          have gap : isBlank '\n' = true := by decide
          rw [String.intercalate_cons_of_ne_nil (by simp), List.forall_mem_cons, ← ih]
          simp [isBlankText, gap]

theorem trimmed_end_line (line rest : String) :
    trimmedEnd (line ++ "\n" ++ rest) =
      if isBlankText rest then trimmedEnd line else line ++ "\n" ++ trimmedEnd rest := by
  have gap : trimEnd (line ++ "\n").toList = trimEnd line.toList := by
    rw [String.toList_append]
    exact trim_end_append_blank line.toList '\n' (by decide)
  rw [← String.toList_inj, trimmed_end_to_list, @String.toList_append (line ++ "\n"), trim_end_concat, gap]
  by_cases blank : isBlankText rest = true
  · rw [if_pos ((trim_end_nil_iff rest.toList).mpr blank), if_pos blank, trimmed_end_to_list]
  · rw [if_neg (mt (trim_end_nil_iff rest.toList).mp blank), if_neg blank, @String.toList_append (line ++ "\n"),
      trimmed_end_to_list]

theorem trimmed_end_lines (lines : List String) :
    trimmedEnd ("\n".intercalate lines) = "\n".intercalate (trimLines lines) := by
  induction lines with
  | nil => rfl
  | cons line rest ih =>
      cases rest with
      | nil =>
          rw [trim_lines_last rfl]
          by_cases blank : isBlankText line = true
          · rw [if_pos blank]
            exact trimmed_end_blank (by simpa using blank)
          · rw [if_neg blank, String.intercalate_singleton, String.intercalate_singleton]
      | cons next more =>
          have lost := (blank_lines_iff (next :: more)).trans (trim_lines_nil_iff (next :: more)).symm
          rw [String.intercalate_cons_of_ne_nil (by simp), trimmed_end_line]
          -- All lines behind this one are lost and their break with them, or this one stays as it is.
          by_cases blank : trimLines (next :: more) = []
          · rw [if_pos (lost.mpr blank), trim_lines_last blank]
            split
            · rename_i empty
              exact trimmed_end_blank empty
            · exact String.intercalate_singleton.symm
          · rw [if_neg (mt lost.mp blank), ih, trim_lines_kept blank, String.intercalate_cons_of_ne_nil blank]

theorem lines_of_trimmed_end {lines : List String} (whole : ∀ line ∈ lines, OneLine line)
    (kept : trimLines lines ≠ []) :
    Script.linesOf (trimmedEnd ("\n".intercalate lines)) = trimLines lines := by
  rw [trimmed_end_lines]
  exact Script.lines_of_intercalate (one_line_trim_lines whole) kept

end Text

end GitPractice
