import GitPractice.Json.Reader
import GitPractice.Proofs.Numbering

set_option autoImplicit false

namespace GitPractice.Json

def escaped (cs : List Char) : List Char := cs.flatMap fun c => (escape c).toList

theorem quoted_to_list (text : String) : (quoted text).toList = '"' :: (escaped text.toList ++ ['"']) := by
  have written (cs : List Char) (start : String) :
      (cs.foldl (fun written c => written ++ escape c) start).toList = start.toList ++ escaped cs := by
    induction cs generalizing start with
    | nil => simp [escaped]
    | cons c rest ih => simp [ih, escaped]
  simp [quoted, written]

theorem read_stretch_close (stretch : Stretch) (rest : List Char) :
    readStretch stretch ('"' :: rest) = (stretch.json, rest) := by
  rw [readStretch, if_pos rfl]

theorem read_stretch_escape {stretch after : Stretch} {cs rest : List Char}
    (accepted : readEscape stretch cs = some (after, rest)) :
    readStretch stretch ('\\' :: cs) = readStretch after rest := by
  rw [readStretch, if_neg (by decide), if_pos rfl]
  split
  · rename_i refused
    rw [refused] at accepted
    cases accepted
  · rename_i same
    rw [same] at accepted
    cases accepted
    rfl

theorem read_stretch_plain (stretch : Stretch) {c : Char} (rest : List Char) (unquoted : c ≠ '"')
    (unescaped : c ≠ '\\') (visible : ¬ c.toNat < 0x20) :
    readStretch stretch (c :: rest) = readStretch (stretch.pushChar c) rest := by
  rw [readStretch, if_neg unquoted, if_neg unescaped, if_neg visible]

theorem push_unit_char (stretch : Stretch) {c : Char} (control : c.toNat < 0x20) :
    stretch.pushUnit c.toNat = stretch.pushChar c := by
  rw [Stretch.pushUnit, if_neg (by omega), if_neg (by omega), Char.ofNat_toNat]

theorem short_escapes_read : ∀ pair ∈ shortEscapes, pair.1 ≠ 'u' ∧ escapeChar? pair.1 = some pair.2 := by
  decide

theorem read_escape_short (stretch : Stretch) {letter c : Char} (rest : List Char)
    (listed : shortEscapes.find? (·.2 == c) = some (letter, c)) :
    readEscape stretch (letter :: rest) = some (stretch.pushChar c, rest) := by
  obtain ⟨apart, read⟩ := short_escapes_read _ (List.mem_of_find?_eq_some listed)
  simp only [readEscape, if_neg apart, read, Option.map_some]

theorem read_escape_unit (stretch : Stretch) {c : Char} (rest : List Char) (control : c.toNat < 0x20) :
    readEscape stretch ('u' :: ((Text.digits 16 4 c.toNat).toList ++ rest)) =
      some (stretch.pushChar c, rest) := by
  have width : (Text.digits 16 4 c.toNat).toList.length = 4 :=
    Text.digits_length (by decide) (by decide) (Nat.lt_trans control (by decide))
  have enough : ¬ ((Text.digits 16 4 c.toNat).toList ++ rest).length < 4 := by
    rw [List.length_append, width]
    omega
  rw [readEscape, if_pos rfl, if_neg enough, List.take_left' width, List.drop_left' width,
    Text.number_digits (by decide) (by decide), Option.map_some, push_unit_char stretch control]

theorem read_stretch_char (stretch : Stretch) (c : Char) (rest : List Char) :
    readStretch stretch ((escape c).toList ++ rest) = readStretch (stretch.pushChar c) rest := by
  rw [escape]
  cases listed : shortEscapes.find? (·.2 == c) with
  | some pair =>
      obtain ⟨letter, held⟩ := pair
      have same := List.find?_some listed
      obtain rfl : held = c := beq_iff_eq.mp same
      simpa using read_stretch_escape (read_escape_short stretch rest listed)
  | none =>
      have plain : c ≠ '"' ∧ c ≠ '\\' := by
        constructor <;> rintro rfl <;> exact absurd listed (by decide)
      by_cases control : c.toNat < 0x20
      · simpa [control] using read_stretch_escape (read_escape_unit stretch rest control)
      · simpa [control] using read_stretch_plain stretch rest plain.1 plain.2 control

theorem read_stretch_escaped (cs rest : List Char) (text : String) :
    readStretch ⟨text, none, false⟩ (escaped cs ++ '"' :: rest) = (.text (text ++ .ofList cs), rest) := by
  induction cs generalizing text with
  | nil => simp [escaped, read_stretch_close, Stretch.json]
  | cons c more ih =>
      have step := read_stretch_char ⟨text, none, false⟩ c (escaped more ++ '"' :: rest)
      have pushed : text.push c ++ String.ofList more = text ++ String.ofList (c :: more) := by
        simp [← String.toList_inj]
      rw [escaped, List.flatMap_cons, List.append_assoc, ← escaped, step, Stretch.pushChar, Bool.false_or,
        Option.isSome_none, ih, pushed]

theorem read_quoted (text : String) (rest : List Char) :
    ∃ written, (quoted text).toList = '"' :: written ∧ readStretch {} (written ++ rest) = (.text text, rest) := by
  refine ⟨escaped text.toList ++ ['"'], quoted_to_list text, ?_⟩
  simpa using read_stretch_escaped text.toList rest ""

def Ends (rest : List Char) : Prop :=
  ∀ c ∈ rest.head?, Text.isDigit c = false ∧ c ≠ '.' ∧ c ≠ 'e' ∧ c ≠ 'E'

theorem to_digits_digit {n : Nat} {c : Char} (present : c ∈ Nat.toDigits 10 n) : Text.isDigit c = true := by
  have listed : ∀ value < 10, Text.isDigit (Nat.digitChar value) = true := by decide
  obtain ⟨value, below, rfl⟩ := Text.mem_to_digits (by decide) present
  exact listed value below

theorem to_digits_first {n : Nat} (positive : n ≠ 0) : (Nat.toDigits 10 n).head? ≠ some '0' := by
  induction n using Nat.strongRecOn with
  | ind n ih =>
      by_cases single : n < 10
      · have listed : ∀ value < 10, value ≠ 0 → [Nat.digitChar value].head? ≠ some '0' := by decide
        rw [Nat.toDigits_of_lt_base single]
        exact listed n single positive
      · have leading := ih (n / 10) (by omega) (by omega)
        rw [Nat.toDigits_of_base_le (by decide) (by omega)]
        cases written : Nat.toDigits 10 (n / 10) with
        | nil => exact absurd written Nat.toDigits_ne_nil
        | cons first more => rwa [written] at leading

theorem take_digits (n : Nat) {rest : List Char} (ends : Ends rest) :
    (Nat.toDigits 10 n ++ rest).takeWhile Text.isDigit = Nat.toDigits 10 n ∧
      (Nat.toDigits 10 n ++ rest).dropWhile Text.isDigit = rest := by
  have digits : ∀ c ∈ Nat.toDigits 10 n, Text.isDigit c = true := fun c present => to_digits_digit present
  rw [List.takeWhile_append_of_pos digits, List.dropWhile_append_of_pos digits]
  cases rest with
  | nil => simp
  | cons c more => simp [(ends c rfl).1]

theorem read_fraction_none {rest : List Char} (ends : Ends rest) : readFraction rest = some ([], rest) := by
  cases rest with
  | nil => rfl
  | cons c more =>
      rw [readFraction]
      intro tail same
      exact (ends c rfl).2.1 (List.cons.inj same).1

theorem read_exponent_none {rest : List Char} (ends : Ends rest) : readExponent rest = some (none, rest) := by
  cases rest with
  | nil => rfl
  | cons c more =>
      obtain ⟨_, _, small, large⟩ := ends c rfl
      simp [readExponent, small, large]

def wordBound : Nat := 9223372036854775808

theorem finite_digits {n : Nat} (small : n ≤ wordBound) : Text.isInfinite (Nat.toDigits 10 n) 0 = false := by
  have few : (Nat.toDigits 10 n).length ≤ 19 :=
    (Nat.length_toDigits_le_iff (by decide) (by decide)).mpr (Nat.lt_of_le_of_lt small (by decide))
  have fewer := ((Nat.toDigits 10 n).dropWhile_sublist (· == '0')).length_le
  have magnitude : (((Nat.toDigits 10 n).dropWhile (· == '0')).length : Int) + 0 < 300 := by omega
  simp only [Text.isInfinite, decide_eq_true magnitude, Bool.or_true, if_true]

theorem read_number_digits (negative : Bool) {n : Nat} (small : n ≤ wordBound) {rest : List Char}
    (ends : Ends rest) :
    readNumber negative (Nat.toDigits 10 n ++ rest) =
      (if negative then if n = 0 then .real else .int (-n) else .int n, rest) := by
  obtain ⟨taken, left⟩ := take_digits n ends
  have filled : (Nat.toDigits 10 n).isEmpty = false := by simp [Nat.toDigits_ne_nil]
  have unpadded : (decide (1 < (Nat.toDigits 10 n).length) && (Nat.toDigits 10 n).head? == some '0') = false := by
    by_cases zero : n = 0
    · subst zero
      decide
    · simp [to_digits_first zero]
  have finite := finite_digits small
  have value : decimalValue (Nat.toDigits 10 n) = n := by
    rw [decimalValue, Text.number_to_digits (by decide) (by decide), Option.getD_some]
  simp only [readNumber, taken, left, filled, unpadded, read_fraction_none ends, read_exponent_none ends,
    numberOf, value, List.append_nil, List.length_nil, List.isEmpty_nil, Option.getD_none, Option.isSome_none,
    Int.natCast_zero, Int.sub_zero, finite, Bool.not_true, Bool.or_false, Bool.false_eq_true, if_false]

end GitPractice.Json
