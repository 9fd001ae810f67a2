import GitPractice.Text.Order

set_option autoImplicit false

namespace GitPractice.Text

def bytes (text : String) : List UInt8 := text.toByteArray.data.toList

theorem bytes_of_characters (text : String) :
    bytes text = text.toList.flatMap String.utf8EncodeChar := by
  rw [bytes, ← String.utf8Encode_toList, List.utf8Encode, List.toList_data_toByteArray]

def lead (point : Nat) : Nat :=
  if point < 0x80 then point
  else if point < 0x800 then point / 64 + 0xC0
  else if point < 0x10000 then point / 4096 + 0xE0
  else point / 262144 + 0xF0

def sextet (value : Nat) : UInt8 := UInt8.ofNat (value % 64 + 0x80)

def trail (point : Nat) : List UInt8 :=
  if point < 0x80 then []
  else if point < 0x800 then [sextet point]
  else if point < 0x10000 then [sextet (point / 64), sextet point]
  else [sextet (point / 4096), sextet (point / 64), sextet point]

theorem char_bound (c : Char) : c.toNat < 0x110000 := by
  rcases c.valid with low | ⟨_, high⟩
  · exact Nat.lt_trans low (by decide)
  · exact high

theorem encode_lead_trail (c : Char) :
    String.utf8EncodeChar c = UInt8.ofNat (lead c.toNat) :: trail c.toNat := by
  have bound := char_bound c
  have value : c.val.toNat = c.toNat := rfl
  rw [String.utf8EncodeChar, lead, trail, value]
  by_cases one : c.toNat < 0x80
  · rw [if_pos one, if_pos one, if_pos (Nat.le_of_lt_succ one)]
  · by_cases two : c.toNat < 0x800
    · rw [if_neg one, if_neg one, if_pos two, if_pos two, if_neg (by omega), if_pos (by omega),
        Nat.mod_eq_of_lt (by omega)]
      rfl
    · by_cases three : c.toNat < 0x10000
      · rw [if_neg one, if_neg one, if_neg two, if_neg two, if_pos three, if_pos three,
          if_neg (by omega), if_neg (by omega), if_pos (by omega), Nat.mod_eq_of_lt (by omega)]
        rfl
      · rw [if_neg one, if_neg one, if_neg two, if_neg two, if_neg three, if_neg three,
          if_neg (by omega), if_neg (by omega), if_neg (by omega), Nat.mod_eq_of_lt (by omega)]
        rfl

theorem byte_cons_lt {a b : Nat} {left right : List UInt8} (lower : a ≤ b) (small : b < 256)
    (rest : a = b → left < right) : UInt8.ofNat a :: left < UInt8.ofNat b :: right := by
  rw [List.cons_lt_cons_iff]
  by_cases same : a = b
  · exact .inr ⟨congrArg UInt8.ofNat same, rest same⟩
  · refine .inl ?_
    have below : a < b := Nat.lt_of_le_of_ne lower same
    rw [UInt8.lt_iff_toNat_lt, UInt8.toNat_ofNat_of_lt' (Nat.lt_trans below small),
      UInt8.toNat_ofNat_of_lt' small]
    exact below

theorem sextet_cons_lt {a b : Nat} {left right : List UInt8} (lower : a % 64 ≤ b % 64)
    (rest : a % 64 = b % 64 → left < right) : sextet a :: left < sextet b :: right := by
  refine byte_cons_lt (by omega) (by omega) ?_
  intro same
  exact rest (by omega)

theorem lead_mono {a b : Nat} (lower : a ≤ b) : lead a ≤ lead b := by
  unfold lead
  repeat' split
  all_goals omega

theorem lead_tells {point : Nat} (bound : point < 0x110000) :
    (point < 0x80 ↔ lead point < 0xC0) ∧ (point < 0x800 ↔ lead point < 0xE0) ∧
      (point < 0x10000 ↔ lead point < 0xF0) ∧ lead point < 256 := by
  unfold lead
  repeat' split
  all_goals omega

theorem lead_class {a b : Nat} (less : a < b) (bound : b < 0x110000) (same : lead a = lead b) :
    (a < 0x80 ↔ b < 0x80) ∧ (a < 0x800 ↔ b < 0x800) ∧ (a < 0x10000 ↔ b < 0x10000) := by
  obtain ⟨one, two, three, _⟩ := lead_tells (Nat.lt_trans less bound)
  obtain ⟨single, double, triple, _⟩ := lead_tells bound
  rw [same] at one two three
  exact ⟨one.trans single.symm, two.trans double.symm, three.trans triple.symm⟩

theorem trail_lt {a b : Nat} (less : a < b) (bound : b < 0x110000) (same : lead a = lead b)
    (left right : List UInt8) : trail a ++ left < trail b ++ right := by
  obtain ⟨one, two, three⟩ := lead_class less bound same
  unfold lead at same
  unfold trail
  by_cases short : b < 0x80
  · rw [if_pos (one.mpr short), if_pos short] at same
    exact absurd same (Nat.ne_of_lt less)
  · rw [if_neg (mt one.mp short), if_neg short] at same ⊢
    by_cases double : b < 0x800
    · rw [if_pos (two.mpr double), if_pos double] at same ⊢
      refine sextet_cons_lt (by omega) ?_
      intro last
      omega
    · rw [if_neg (mt two.mp double), if_neg double] at same ⊢
      by_cases triple : b < 0x10000
      · rw [if_pos (three.mpr triple), if_pos triple] at same ⊢
        refine sextet_cons_lt (by omega) ?_
        intro middle
        refine sextet_cons_lt (by omega) ?_
        intro last
        omega
      · rw [if_neg (mt three.mp triple), if_neg triple] at same ⊢
        refine sextet_cons_lt (by omega) ?_
        intro second
        refine sextet_cons_lt (by omega) ?_
        intro third
        refine sextet_cons_lt (by omega) ?_
        intro last
        omega

theorem encode_lt {a b : Char} (less : a.toNat < b.toNat) (left right : List UInt8) :
    String.utf8EncodeChar a ++ left < String.utf8EncodeChar b ++ right := by
  have bound := char_bound b
  have small : lead b.toNat < 256 := (lead_tells bound).2.2.2
  rw [encode_lead_trail, encode_lead_trail]
  -- A later character has a greater first byte, or the same one and greater bytes behind it.
  refine byte_cons_lt (lead_mono (Nat.le_of_lt less)) small ?_
  intro same
  exact trail_lt less bound same left right

theorem chars_precede_bytes {left right : List Char} (less : charsPrecede left right = true) :
    left.flatMap String.utf8EncodeChar < right.flatMap String.utf8EncodeChar := by
  induction left generalizing right with
  | nil =>
    cases right with
    | nil => exact absurd less Bool.false_ne_true
    | cons b right =>
      cases form : String.utf8EncodeChar b with
      | nil => exact absurd form String.utf8EncodeChar_ne_nil
      | cons first more => simp [form]
  | cons a left ih =>
    cases right with
    | nil => exact absurd less Bool.false_ne_true
    | cons b right =>
      simp only [charsPrecede, Bool.or_eq_true, decide_eq_true_eq, Bool.and_eq_true, beq_iff_eq] at less
      rw [List.flatMap_cons, List.flatMap_cons]
      rcases less with lower | ⟨same, rest⟩
      · exact encode_lt lower _ _
      · rw [same]
        exact List.append_left_lt (ih rest)

theorem precedes_iff_bytes (left right : String) :
    precedes left right = true ↔ bytes left < bytes right := by
  have forward : ∀ left right, precedes left right = true → bytes left < bytes right := by
    intro left right less
    rw [bytes_of_characters, bytes_of_characters]
    exact chars_precede_bytes less
  constructor
  · exact forward left right
  · intro less
    by_cases same : left = right
    · subst same
      exact absurd less (List.lt_irrefl _)
    · rcases precedes_total same with lower | higher
      · exact lower
      · exact absurd less (List.lt_asymm (forward right left higher))

end GitPractice.Text
