set_option autoImplicit false

namespace GitPractice.Text

def charsPrecede : List Char → List Char → Bool
  | [], [] => false
  | [], _ :: _ => true
  | _ :: _, [] => false
  | a :: left, b :: right => decide (a.toNat < b.toNat) || (a == b && charsPrecede left right)

def precedes (left right : String) : Bool := charsPrecede left.toList right.toList

theorem chars_precede_irrefl (cs : List Char) : charsPrecede cs cs = false := by
  induction cs with
  | nil => rfl
  | cons c rest ih => simp [charsPrecede, ih]

theorem chars_precede_trans (left middle right : List Char) (lower : charsPrecede left middle = true)
    (upper : charsPrecede middle right = true) : charsPrecede left right = true := by
  induction left generalizing middle right with
  | nil =>
    cases middle with
    | nil => simp [charsPrecede] at lower
    | cons b middle =>
      cases right with
      | nil => simp [charsPrecede] at upper
      | cons c right => rfl
  | cons a left ih =>
    cases middle with
    | nil => simp [charsPrecede] at lower
    | cons b middle =>
      cases right with
      | nil => simp [charsPrecede] at upper
      | cons c right =>
        simp only [charsPrecede, Bool.or_eq_true, decide_eq_true_eq, Bool.and_eq_true, beq_iff_eq]
          at lower upper ⊢
        rcases lower with less | ⟨same, lower⟩
        · rcases upper with more | ⟨rfl, _⟩
          · exact .inl (Nat.lt_trans less more)
          · exact .inl less
        · subst same
          rcases upper with more | ⟨same, upper⟩
          · exact .inl more
          · exact .inr ⟨same, ih middle right lower upper⟩

theorem chars_precede_total (left right : List Char) (different : left ≠ right) :
    charsPrecede left right = true ∨ charsPrecede right left = true := by
  induction left generalizing right with
  | nil =>
    cases right with
    | nil => exact absurd rfl different
    | cons b right => exact .inl rfl
  | cons a left ih =>
    cases right with
    | nil => exact .inr rfl
    | cons b right =>
      simp only [charsPrecede, Bool.or_eq_true, decide_eq_true_eq, Bool.and_eq_true, beq_iff_eq]
      by_cases same : a = b
      · subst same
        have tails : left ≠ right := fun equal => different (by rw [equal])
        rcases ih right tails with less | more
        · exact .inl (.inr ⟨rfl, less⟩)
        · exact .inr (.inr ⟨rfl, more⟩)
      · have apart : a.toNat ≠ b.toNat := fun equal => same (Char.toNat_inj.mp equal)
        rcases Nat.lt_or_gt_of_ne apart with less | more
        · exact .inl (.inl less)
        · exact .inr (.inl more)

theorem precedes_irrefl (text : String) : precedes text text = false := chars_precede_irrefl _

theorem precedes_trans {left middle right : String} (lower : precedes left middle = true)
    (upper : precedes middle right = true) : precedes left right = true :=
  chars_precede_trans _ _ _ lower upper

theorem precedes_total {left right : String} (different : left ≠ right) :
    precedes left right = true ∨ precedes right left = true :=
  chars_precede_total _ _ fun same => different (String.toList_inj.mp same)

end GitPractice.Text
