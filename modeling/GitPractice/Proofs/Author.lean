import GitPractice.Author

set_option autoImplicit false

namespace GitPractice.Author

/-- An author that some text is read as: both parts without blanks around them, and no brackets where they
would be taken for those of an address. -/
def Readable (author : Author) : Prop :=
  Text.trim author.name.toList = author.name.toList ∧
    match author.email with
    | some email => '<' ∉ author.name.toList ∧ Text.trim email.toList = email.toList
    | none => splitBrackets author.name.toList = none

theorem first_mark {cs after : List Char} {mark head : Char}
    (rest : cs.dropWhile (· != mark) = head :: after) :
    cs = cs.takeWhile (· != mark) ++ mark :: after ∧ mark ∉ cs.takeWhile (· != mark) := by
  have isMark : head = mark := by
    have stops := List.head?_dropWhile_not (· != mark) cs
    rw [rest] at stops
    simpa using stops
  constructor
  · rw [← isMark, ← rest, isMark]
    exact List.takeWhile_append_dropWhile.symm
  · intro present
    exact absurd (List.all_eq_true.mp List.all_takeWhile mark present) (by simp)

theorem before_last_close_iff (cs inside : List Char) :
    beforeLastClose cs = some inside ↔ ∃ after, cs = inside ++ '>' :: after ∧ '>' ∉ after := by
  constructor
  · intro found
    rw [beforeLastClose] at found
    split at found
    · cases found
    · rename_i head earlier rest
      cases found
      obtain ⟨whole, free⟩ := first_mark rest
      refine ⟨(cs.reverse.takeWhile (· != '>')).reverse, ?_, by simpa using free⟩
      have turned := congrArg List.reverse whole
      simpa using turned
  · rintro ⟨after, rfl, free⟩
    exact before_last_close_append inside after free

theorem before_last_close_none {cs : List Char} (free : '>' ∉ cs) : beforeLastClose cs = none := by
  cases found : beforeLastClose cs with
  | none => rfl
  | some inside =>
      obtain ⟨after, rfl, _⟩ := (before_last_close_iff cs inside).mp found
      exact absurd (by simp) free

theorem split_brackets_iff (cs name inside : List Char) :
    splitBrackets cs = some (name, inside) ↔
      ∃ after, cs = name ++ '<' :: (inside ++ '>' :: after) ∧ '<' ∉ name ∧ '>' ∉ after := by
  constructor
  · intro found
    rw [splitBrackets] at found
    split at found
    · cases found
    · rename_i head behind rest
      obtain ⟨_, closed, same⟩ := Option.map_eq_some_iff.mp found
      cases same
      obtain ⟨after, isBehind, freeAfter⟩ := (before_last_close_iff behind inside).mp closed
      obtain ⟨whole, free⟩ := first_mark rest
      rw [isBehind] at whole
      exact ⟨after, whole, free, freeAfter⟩
  · rintro ⟨after, rfl, free, freeAfter⟩
    exact split_brackets_append name inside after free freeAfter

theorem split_brackets_none {cs : List Char} (free : '<' ∉ cs) : splitBrackets cs = none := by
  cases found : splitBrackets cs with
  | none => rfl
  | some parts =>
      obtain ⟨after, rfl, _⟩ := (split_brackets_iff cs parts.1 parts.2).mp found
      exact absurd (by simp) free

theorem split_brackets_name {cs name inside : List Char} (found : splitBrackets cs = some (name, inside)) :
    '<' ∉ name := by
  obtain ⟨_, _, free, _⟩ := (split_brackets_iff cs name inside).mp found
  exact free

theorem parse_email_empty_iff (raw : String) :
    (parse raw).email = some "" ↔
      ∃ name inside after, Text.trim raw.toList = name ++ '<' :: (inside ++ '>' :: after) ∧
        '<' ∉ name ∧ '>' ∉ after ∧ inside.all Text.isBlank = true := by
  have empty (inside : List Char) : String.ofList (Text.trim inside) = "" ↔ inside.all Text.isBlank = true := by
    rw [← Text.trim_nil_iff, ← String.toList_inj, String.toList_ofList, String.toList_empty]
  rw [parse]
  constructor
  · intro isEmpty
    split at isEmpty
    · rename_i name inside found
      obtain ⟨after, whole, free, freeAfter⟩ := (split_brackets_iff _ name inside).mp found
      exact ⟨name, inside, after, whole, free, freeAfter, (empty inside).mp (Option.some.inj isEmpty)⟩
    · cases isEmpty
  · rintro ⟨name, inside, after, whole, free, freeAfter, blank⟩
    have found := (split_brackets_iff _ name inside).mpr ⟨after, whole, free, freeAfter⟩
    simp only [found]
    rw [(empty inside).mpr blank]

theorem parse_readable (raw : String) : (parse raw).Readable := by
  rw [parse]
  split
  · rename_i name email found
    have free := split_brackets_name found
    refine ⟨?_, ?_, ?_⟩
    · simp [Text.trim_idempotent]
    · simpa using fun kept => free (Text.mem_trim kept)
    · simp [Text.trim_idempotent]
  · rename_i whole
    refine ⟨?_, ?_⟩
    · simp [Text.trim_idempotent]
    · simpa using whole

theorem parse_write_named (name email : String) (nameTrimmed : Text.trim name.toList = name.toList)
    (free : '<' ∉ name.toList) (emailTrimmed : Text.trim email.toList = email.toList) :
    parse (write ⟨name, some email⟩) = ⟨name, some email⟩ := by
  have front : Text.trim (Text.trimStart (name.toList ++ [' '])) = name.toList := by
    rw [Text.trim, Text.trim_start_idempotent, ← Text.trim, Text.trim_append_blank _ ' ' (by decide)]
    exact nameTrimmed
  have unbracketed : '<' ∉ Text.trimStart (name.toList ++ [' ']) := by
    intro present
    have kept := (List.dropWhile_sublist Text.isBlank).subset present
    simp [free] at kept
  have written : (write ⟨name, some email⟩).toList =
      (name.toList ++ [' ']) ++ '<' :: (email.toList ++ ['>']) := by
    simp [write]
  have trimmed : Text.trim (write ⟨name, some email⟩).toList =
      Text.trimStart (name.toList ++ [' ']) ++ '<' :: (email.toList ++ ['>']) := by
    rw [Text.trim, written, Text.trim_start_append _ _ '<' (by decide)]
    rw [← List.cons_append, ← List.append_assoc, Text.trim_end_append _ '>' (by decide)]
  have split := split_brackets_append (Text.trimStart (name.toList ++ [' '])) email.toList [] unbracketed
    List.not_mem_nil
  simp only [parse, trimmed, split, front, emailTrimmed, String.ofList_toList]

theorem parse_write (author : Author) (readable : author.Readable) : parse author.write = author := by
  obtain ⟨name, email⟩ := author
  obtain ⟨nameTrimmed, rest⟩ := readable
  cases email with
  | none =>
      have whole : splitBrackets name.toList = none := rest
      simp only [parse, write, nameTrimmed, whole, String.ofList_toList]
  | some email =>
      obtain ⟨free, emailTrimmed⟩ := rest
      exact parse_write_named name email nameTrimmed free emailTrimmed

end GitPractice.Author
