import GitPractice.Proofs.JsonLeaves
import Mathlib.Data.List.TakeWhile

set_option autoImplicit false

namespace GitPractice.Json

def Spaces (gap : List Char) : Prop := ∀ c ∈ gap, isSpace c = true

mutual

inductive Written : Json → List Char → Prop where
  | null : Written .null "null".toList
  | truth : Written (.bool true) "true".toList
  | falsity : Written (.bool false) "false".toList
  | int {value : Int} (small : value.natAbs ≤ wordBound) : Written (.int value) (toString value).toList
  | text (value : String) : Written (.text value) (quoted value).toList
  | noItems : Written (.array []) ['[', ']']
  | items {gap cs : List Char} {items : List Json} (spaces : Spaces gap) (row : Items items cs) :
      Written (.array items) ('[' :: (gap ++ cs))
  | noMembers : Written (.object []) ['\x7b', '\x7d']
  | members {gap cs : List Char} {members : List (Option String × Json)} (spaces : Spaces gap)
      (row : Members members cs) : Written (.object members) ('\x7b' :: (gap ++ cs))

inductive Items : List Json → List Char → Prop where
  | item {item : Json} {more : List Json} {cs gap tail : List Char} (written : Written item cs)
      (spaces : Spaces gap) (rest : MoreItems more tail) : Items (item :: more) (cs ++ (gap ++ tail))

inductive MoreItems : List Json → List Char → Prop where
  | close : MoreItems [] [']']
  | next {items : List Json} {gap cs : List Char} (spaces : Spaces gap) (row : Items items cs) :
      MoreItems items (',' :: (gap ++ cs))

inductive Members : List (Option String × Json) → List Char → Prop where
  | member {value : Json} {more : List (Option String × Json)} {before cs gap tail : List Char}
      (name : String) (opened : Spaces before) (written : Written value cs) (spaces : Spaces gap)
      (rest : MoreMembers more tail) :
      Members ((some name, value) :: more)
        ((quoted name).toList ++ ':' :: (before ++ (cs ++ (gap ++ tail))))

inductive MoreMembers : List (Option String × Json) → List Char → Prop where
  | close : MoreMembers [] ['\x7d']
  | next {members : List (Option String × Json)} {gap cs : List Char} (spaces : Spaces gap)
      (row : Members members cs) : MoreMembers members (',' :: (gap ++ cs))

end

theorem no_spaces : Spaces [] := nofun

theorem skip_gap {gap rest : List Char} {c : Char} (spaces : Spaces gap) (filled : isSpace c = false) :
    skipSpace (gap ++ c :: rest) = c :: rest := by
  rw [skipSpace, List.dropWhile_append_of_pos spaces, List.dropWhile_cons_of_neg (by simp [filled])]

theorem space_ends {c : Char} (space : isSpace c = true) :
    Text.isDigit c = false ∧ c ≠ '.' ∧ c ≠ 'e' ∧ c ≠ 'E' := by
  simp only [isSpace, Bool.or_eq_true, beq_iff_eq] at space
  rcases space with ((rfl | rfl) | rfl) | rfl <;> decide

theorem ends_cons {c : Char} (rest : List Char)
    (apart : Text.isDigit c = false ∧ c ≠ '.' ∧ c ≠ 'e' ∧ c ≠ 'E') : Ends (c :: rest) := by
  rintro first ⟨⟩
  exact apart

theorem ends_gap {gap rest : List Char} (spaces : Spaces gap) (ends : Ends rest) : Ends (gap ++ rest) := by
  cases gap with
  | nil => exact ends
  | cons c more => exact ends_cons _ (space_ends (spaces c List.mem_cons_self))

theorem more_items_first {items : List Json} {cs : List Char} (row : MoreItems items cs) (rest : List Char) :
    Ends (cs ++ rest) ∧ ∃ c tail, cs = c :: tail ∧ isSpace c = false := by
  cases row with
  | close => exact ⟨ends_cons _ (by decide), ']', [], rfl, by decide⟩
  | next spaces row => exact ⟨ends_cons _ (by decide), ',', _, rfl, by decide⟩

theorem more_members_first {members : List (Option String × Json)} {cs : List Char}
    (row : MoreMembers members cs) (rest : List Char) :
    Ends (cs ++ rest) ∧ ∃ c tail, cs = c :: tail ∧ isSpace c = false := by
  cases row with
  | close => exact ⟨ends_cons _ (by decide), '\x7d', [], rfl, by decide⟩
  | next spaces row => exact ⟨ends_cons _ (by decide), ',', _, rfl, by decide⟩

theorem digit_starts {c : Char} (digit : Text.isDigit c = true) :
    isSpace c = false ∧ c ≠ ']' ∧ c ≠ '"' ∧ c ≠ '[' ∧ c ≠ '\x7b' ∧ c ≠ 't' ∧ c ≠ 'f' ∧ c ≠ 'n' ∧ c ≠ '-' := by
  have apart (other : Char) (plain : Text.isDigit other = false) : c ≠ other := by
    rintro rfl
    rw [plain] at digit
    cases digit
  refine ⟨?_, apart _ (by decide), apart _ (by decide), apart _ (by decide), apart _ (by decide),
    apart _ (by decide), apart _ (by decide), apart _ (by decide), apart _ (by decide)⟩
  rw [Bool.eq_false_iff]
  intro space
  rw [(space_ends space).1] at digit
  cases digit

theorem int_to_list (value : Int) :
    (toString value).toList = Nat.toDigits 10 value.natAbs ∧ 0 ≤ value ∨
      (toString value).toList = '-' :: Nat.toDigits 10 value.natAbs ∧ value < 0 := by
  cases value with
  | ofNat n => exact .inl ⟨String.toList_ofList, Int.natCast_nonneg n⟩
  | negSucc n =>
      refine .inr ⟨?_, Int.negSucc_lt_zero n⟩
      change ("-" ++ String.ofList (Nat.toDigits 10 (n + 1))).toList = _
      simp only [String.toList_append, String.toList_ofList]
      rfl

theorem to_digits_cons (n : Nat) :
    ∃ c tail, Nat.toDigits 10 n = c :: tail ∧ Text.isDigit c = true := by
  cases written : Nat.toDigits 10 n with
  | nil => exact absurd written Nat.toDigits_ne_nil
  | cons c tail => exact ⟨c, tail, rfl, to_digits_digit (n := n) (by rw [written]; exact List.mem_cons_self)⟩

theorem written_first {json : Json} {cs : List Char} (written : Written json cs) :
    ∃ c tail, cs = c :: tail ∧ isSpace c = false ∧ c ≠ ']' := by
  cases written with
  | null => exact ⟨'n', _, rfl, by decide, by decide⟩
  | truth => exact ⟨'t', _, rfl, by decide, by decide⟩
  | falsity => exact ⟨'f', _, rfl, by decide, by decide⟩
  | @int value small =>
      rcases int_to_list value with ⟨digits, _⟩ | ⟨digits, _⟩
      · obtain ⟨c, tail, started, digit⟩ := to_digits_cons value.natAbs
        exact ⟨c, tail, digits.trans started, (digit_starts digit).1, (digit_starts digit).2.1⟩
      · exact ⟨'-', _, digits, by decide, by decide⟩
  | text value => exact ⟨'"', _, quoted_to_list value, by decide, by decide⟩
  | noItems | items => exact ⟨'[', _, rfl, by decide, by decide⟩
  | noMembers | members => exact ⟨'\x7b', _, rfl, by decide, by decide⟩

theorem items_first {items : List Json} {cs : List Char} (row : Items items cs) :
    ∃ c tail, cs = c :: tail ∧ isSpace c = false ∧ c ≠ ']' := by
  cases row with
  | item written spaces rest =>
      obtain ⟨c, tail, started, filled, open_⟩ := written_first written
      exact ⟨c, _, by rw [started, List.cons_append], filled, open_⟩

theorem members_first {members : List (Option String × Json)} {cs : List Char} (row : Members members cs) :
    ∃ tail, cs = '"' :: tail := by
  cases row with
  | member name opened written spaces rest => exact ⟨_, by rw [quoted_to_list, List.cons_append]⟩

theorem written_length {json : Json} {cs : List Char} (written : Written json cs) : 1 ≤ cs.length := by
  obtain ⟨c, tail, rfl, _⟩ := written_first written
  simp

theorem items_length {items : List Json} {cs : List Char} (row : Items items cs) : 1 ≤ cs.length := by
  obtain ⟨c, tail, rfl, _⟩ := items_first row
  simp

theorem more_items_length {items : List Json} {cs : List Char} (row : MoreItems items cs) :
    1 ≤ cs.length := by
  obtain ⟨_, c, tail, rfl, _⟩ := more_items_first row []
  simp

theorem members_length {members : List (Option String × Json)} {cs : List Char}
    (row : Members members cs) : 1 ≤ cs.length := by
  obtain ⟨tail, rfl⟩ := members_first row
  simp

theorem more_members_length {members : List (Option String × Json)} {cs : List Char}
    (row : MoreMembers members cs) : 1 ≤ cs.length := by
  obtain ⟨_, c, tail, rfl, _⟩ := more_members_first row []
  simp

/-- How many steps are enough to read what is written: a value takes at most four for each of its characters,
and what stands in brackets has the steps for its first bracket left over. -/
structure Reads (steps : Nat) : Prop where
  value : ∀ {json : Json} {gap cs rest : List Char}, Written json cs → Spaces gap → Ends rest →
    4 * cs.length ≤ steps → readValue steps (gap ++ (cs ++ rest)) = (json, rest)
  firstItems : ∀ {items : List Json} {cs : List Char} (rest : List Char), Items items cs →
    4 * cs.length ≤ steps + 1 → readItems steps true (cs ++ rest) = (items, rest)
  moreItems : ∀ {items : List Json} {cs : List Char} (rest : List Char), MoreItems items cs →
    4 * cs.length ≤ steps + 2 → readItems steps false (cs ++ rest) = (items, rest)
  item : ∀ {items : List Json} {cs : List Char} (rest : List Char), Items items cs →
    4 * cs.length ≤ steps + 2 → readItem steps (cs ++ rest) = (items, rest)
  firstMembers : ∀ {members : List (Option String × Json)} {cs : List Char} (rest : List Char),
    Members members cs → 4 * cs.length ≤ steps + 1 → readMembers steps true (cs ++ rest) = (members, rest)
  moreMembers : ∀ {members : List (Option String × Json)} {cs : List Char} (rest : List Char),
    MoreMembers members cs → 4 * cs.length ≤ steps + 2 →
    readMembers steps false (cs ++ rest) = (members, rest)
  member : ∀ {members : List (Option String × Json)} {cs : List Char} (rest : List Char),
    Members members cs → 4 * cs.length ≤ steps + 2 → readMember steps (cs ++ rest) = (members, rest)
  memberValue : ∀ {value : Json} {more : List (Option String × Json)} {before cs gap tail : List Char}
    (name : Option String) (rest : List Char), Spaces before → Written value cs → Spaces gap →
    MoreMembers more tail → 4 * (cs.length + tail.length) ≤ steps + 2 →
    readMemberValue steps name (':' :: (before ++ (cs ++ (gap ++ (tail ++ rest))))) =
      ((name, value) :: more, rest)

theorem reads_zero : Reads 0 where
  value := fun written _ _ enough => by
    have := written_length written
    omega
  firstItems := fun _ row enough => by
    have := items_length row
    omega
  moreItems := fun _ row enough => by
    have := more_items_length row
    omega
  item := fun _ row enough => by
    have := items_length row
    omega
  firstMembers := fun _ row enough => by
    have := members_length row
    omega
  moreMembers := fun _ row enough => by
    have := more_members_length row
    omega
  member := fun _ row enough => by
    have := members_length row
    omega
  memberValue := fun _ _ _ written _ _ enough => by
    have := written_length written
    omega

section
variable {steps : Nat}

theorem read_value_int {value : Int} (small : value.natAbs ≤ wordBound) {gap rest : List Char}
    (spaces : Spaces gap) (ends : Ends rest) :
    readValue (steps + 1) (gap ++ ((toString value).toList ++ rest)) = (.int value, rest) := by
  rcases int_to_list value with ⟨digits, positive⟩ | ⟨digits, negative⟩
  · obtain ⟨c, tail, started, digit⟩ := to_digits_cons value.natAbs
    obtain ⟨filled, _, noQuote, noBracket, noBrace, noTruth, noFalsity, noNull, noSign⟩ := digit_starts digit
    have number := read_number_digits false small ends
    rw [started, List.cons_append] at number
    rw [digits, started, List.cons_append, readValue, skip_gap spaces filled]
    simp only [noQuote, noBracket, noBrace, noTruth, noFalsity, noNull, noSign, if_false, number,
      Bool.false_eq_true, Int.natAbs_of_nonneg positive]
  · have number := read_number_digits true small ends
    have nonzero : value.natAbs ≠ 0 := by omega
    have same : -(value.natAbs : Int) = value := by omega
    rw [digits, List.cons_append, readValue, skip_gap spaces (by decide)]
    simp only [number, nonzero, same, if_true, if_false]
    simp

theorem read_value_written (reads : Reads steps) {json : Json} {gap cs rest : List Char}
    (written : Written json cs) (spaces : Spaces gap) (ends : Ends rest) (enough : 4 * cs.length ≤ steps + 1) :
    readValue (steps + 1) (gap ++ (cs ++ rest)) = (json, rest) := by
  -- Four steps are set aside for each character, which leaves a row enough for its parts.
  cases written with
  | null =>
      change readValue (steps + 1) (gap ++ 'n' :: 'u' :: 'l' :: 'l' :: rest) = _
      rw [readValue, skip_gap spaces (by decide)]
      rfl
  | truth =>
      change readValue (steps + 1) (gap ++ 't' :: 'r' :: 'u' :: 'e' :: rest) = _
      rw [readValue, skip_gap spaces (by decide)]
      rfl
  | falsity =>
      change readValue (steps + 1) (gap ++ 'f' :: 'a' :: 'l' :: 's' :: 'e' :: rest) = _
      rw [readValue, skip_gap spaces (by decide)]
      rfl
  | int small => exact read_value_int small spaces ends
  | text value =>
      obtain ⟨inner, opened, read⟩ := read_quoted value rest
      rw [opened, List.cons_append, readValue, skip_gap spaces (by decide)]
      simp only [if_true, read]
  | noItems =>
      obtain ⟨more, rfl⟩ : ∃ more, steps = more + 1 := Nat.exists_eq_add_one.mpr (by simp at enough; omega)
      rw [List.cons_append, readValue, skip_gap spaces (by decide)]
      rfl
  | items inside row =>
      obtain ⟨c, tail, started, filled, _⟩ := items_first row
      have read := reads.firstItems rest row (by simp at enough; omega)
      rw [started, List.cons_append] at read
      rw [List.cons_append, readValue, skip_gap spaces (by decide)]
      simp only [started, List.append_assoc, List.cons_append, skip_gap inside filled, read, if_true]
      rfl
  | noMembers =>
      obtain ⟨more, rfl⟩ : ∃ more, steps = more + 1 := Nat.exists_eq_add_one.mpr (by simp at enough; omega)
      rw [List.cons_append, readValue, skip_gap spaces (by decide)]
      rfl
  | members inside row =>
      obtain ⟨tail, started⟩ := members_first row
      have read := reads.firstMembers rest row (by simp at enough; omega)
      rw [started, List.cons_append] at read
      rw [List.cons_append, readValue, skip_gap spaces (by decide)]
      simp only [started, List.append_assoc, List.cons_append, read, if_true,
        skip_gap inside (by decide : isSpace '"' = false)]
      rfl

theorem read_items_first (reads : Reads steps) {items : List Json} {cs : List Char} (rest : List Char)
    (row : Items items cs) (enough : 4 * cs.length ≤ steps + 2) :
    readItems (steps + 1) true (cs ++ rest) = (items, rest) := by
  obtain ⟨c, tail, started, _, inside⟩ := items_first row
  have read := reads.item rest row enough
  rw [started, List.cons_append] at read ⊢
  rw [readItems, if_neg inside, if_pos rfl, read]

theorem read_items_more (reads : Reads steps) {items : List Json} {cs : List Char} (rest : List Char)
    (row : MoreItems items cs) (enough : 4 * cs.length ≤ steps + 3) :
    readItems (steps + 1) false (cs ++ rest) = (items, rest) := by
  cases row with
  | close => rw [List.cons_append, readItems, if_pos rfl, List.nil_append]
  | next spaces row =>
      obtain ⟨c, tail, started, filled, _⟩ := items_first row
      have read := reads.item rest row (by simp at enough; omega)
      rw [started, List.cons_append] at read
      rw [List.cons_append, readItems, if_neg (by decide), if_neg (by decide), if_pos rfl, started,
        List.append_assoc, List.cons_append, skip_gap spaces filled, read]

theorem read_item_row (reads : Reads steps) {items : List Json} {cs : List Char} (rest : List Char)
    (row : Items items cs) (enough : 4 * cs.length ≤ steps + 3) :
    readItem (steps + 1) (cs ++ rest) = (items, rest) := by
  cases row with
  | item written spaces more =>
      obtain ⟨ends, c, after, started, filled⟩ := more_items_first more rest
      have filledItem := written_length written
      have filledRest := congrArg List.length started
      simp only [List.length_append, List.length_cons] at enough filledRest
      have value := reads.value written no_spaces (ends_gap spaces ends) (by omega)
      have left := reads.moreItems rest more (by omega)
      rw [started, List.cons_append] at left value
      rw [started]
      simp only [List.append_assoc, List.cons_append, List.nil_append] at value ⊢
      simp only [readItem, value, skip_gap spaces filled, left]

theorem read_members_first (reads : Reads steps) {members : List (Option String × Json)} {cs : List Char}
    (rest : List Char) (row : Members members cs) (enough : 4 * cs.length ≤ steps + 2) :
    readMembers (steps + 1) true (cs ++ rest) = (members, rest) := by
  obtain ⟨tail, started⟩ := members_first row
  have read := reads.member rest row enough
  rw [started, List.cons_append] at read ⊢
  rw [readMembers, if_neg (by decide), if_pos rfl, read]

theorem read_members_more (reads : Reads steps) {members : List (Option String × Json)} {cs : List Char}
    (rest : List Char) (row : MoreMembers members cs) (enough : 4 * cs.length ≤ steps + 3) :
    readMembers (steps + 1) false (cs ++ rest) = (members, rest) := by
  cases row with
  | close => rw [List.cons_append, readMembers, if_pos rfl, List.nil_append]
  | next spaces row =>
      obtain ⟨tail, started⟩ := members_first row
      have read := reads.member rest row (by simp at enough; omega)
      rw [started, List.cons_append] at read
      rw [List.cons_append, readMembers, if_neg (by decide), if_neg (by decide), if_pos rfl, started,
        List.append_assoc, List.cons_append, skip_gap spaces (by decide), read]

theorem read_member_row (reads : Reads steps) {members : List (Option String × Json)} {cs : List Char}
    (rest : List Char) (row : Members members cs) (enough : 4 * cs.length ≤ steps + 3) :
    readMember (steps + 1) (cs ++ rest) = (members, rest) := by
  cases row with
  | @member value more before cs gap tail name opened written spaces left =>
      let after := ':' :: (before ++ (cs ++ (gap ++ (tail ++ rest))))
      obtain ⟨inner, started, read⟩ := read_quoted name after
      have unspaced : skipSpace after = after := skip_gap no_spaces (by decide)
      rw [started] at enough ⊢
      simp only [List.length_append, List.length_cons] at enough
      have value := reads.memberValue (some name) rest opened written spaces left (by omega)
      have text : '"' :: inner ++ ':' :: (before ++ (cs ++ (gap ++ tail))) ++ rest = '"' :: (inner ++ after) := by
        simp [after]
      rw [text, readMember, if_pos rfl]
      simp only [read, unspaced]
      exact value

theorem read_member_value (reads : Reads steps) {value : Json} {more : List (Option String × Json)}
    {before cs gap tail : List Char} (name : Option String) (rest : List Char) (opened : Spaces before)
    (written : Written value cs) (spaces : Spaces gap) (left : MoreMembers more tail)
    (enough : 4 * (cs.length + tail.length) ≤ steps + 3) :
    readMemberValue (steps + 1) name (':' :: (before ++ (cs ++ (gap ++ (tail ++ rest))))) =
      ((name, value) :: more, rest) := by
  obtain ⟨ends, c, after, started, filled⟩ := more_members_first left rest
  have filledValue := written_length written
  have filledRest := more_members_length left
  have first := reads.value written opened (ends_gap spaces ends) (by omega)
  have second := reads.moreMembers rest left (by omega)
  rw [started, List.cons_append] at first second ⊢
  rw [readMemberValue, if_pos rfl]
  simp only [first, skip_gap spaces filled, second]

theorem reads_next (reads : Reads steps) : Reads (steps + 1) where
  value := read_value_written reads
  firstItems := read_items_first reads
  moreItems := read_items_more reads
  item := read_item_row reads
  firstMembers := read_members_first reads
  moreMembers := read_members_more reads
  member := read_member_row reads
  memberValue := read_member_value reads

end

theorem reads_written : ∀ steps, Reads steps
  | 0 => reads_zero
  | steps + 1 => reads_next (reads_written steps)

theorem read_of_written {json : Json} {text : String} {cs gap : List Char} (written : Written json cs)
    (spaces : Spaces gap) (text_is : text.toList = cs ++ gap) : read text = json := by
  have steps : 4 * cs.length ≤ 4 * text.length + 4 := by
    rw [← String.length_toList, text_is, List.length_append]
    omega
  have ends : Ends gap := by
    rw [← List.append_nil gap]
    exact ends_gap spaces (by simp [Ends])
  have value := (reads_written (4 * text.length + 4)).value written no_spaces ends steps
  rw [List.nil_append, ← text_is, ← readStart] at value
  have blank : (skipSpace gap).isEmpty = true := by
    rw [skipSpace, List.isEmpty_iff, List.dropWhile_eq_nil_iff]
    exact spaces
  simp only [read, value, blank, if_true]

end GitPractice.Json
