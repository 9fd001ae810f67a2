set_option autoImplicit false

namespace GitPractice.Text

/-- The code points with the property White_Space, as inclusive ranges. -/
def blankRanges : List (Nat × Nat) :=
  [(0x09, 0x0D), (0x20, 0x20), (0x85, 0x85), (0xA0, 0xA0), (0x1680, 0x1680), (0x2000, 0x200A),
   (0x2028, 0x2029), (0x202F, 0x202F), (0x205F, 0x205F), (0x3000, 0x3000)]

def isBlank (c : Char) : Bool :=
  blankRanges.any fun range => range.1 ≤ c.toNat && c.toNat ≤ range.2

def trimStart (cs : List Char) : List Char := cs.dropWhile isBlank
def trimEnd (cs : List Char) : List Char := (cs.reverse.dropWhile isBlank).reverse
def trim (cs : List Char) : List Char := trimEnd (trimStart cs)

theorem trim_end_decomposition (cs : List Char) :
    cs = trimEnd cs ++ (cs.reverse.takeWhile isBlank).reverse := by
  rw [trimEnd, ← List.reverse_append, List.takeWhile_append_dropWhile, List.reverse_reverse]

theorem trim_start_decomposition (cs : List Char) : cs = cs.takeWhile isBlank ++ trimStart cs :=
  List.takeWhile_append_dropWhile.symm

theorem trim_start_filled {cs rest : List Char} {c : Char} (started : trimStart cs = c :: rest) :
    isBlank c = false := by
  have fact := List.head?_dropWhile_not isBlank cs
  rw [trimStart] at started
  simpa [started] using fact

theorem trim_end_starts (cs : List Char) : trimEnd cs <+: cs :=
  ⟨(cs.reverse.takeWhile isBlank).reverse, (trim_end_decomposition cs).symm⟩

theorem mem_trim {c : Char} {cs : List Char} (kept : c ∈ trim cs) : c ∈ cs :=
  (List.dropWhile_sublist isBlank).subset ((trim_end_starts (trimStart cs)).subset kept)

theorem trim_start_append (before after : List Char) (c : Char) (filled : isBlank c = false) :
    trimStart (before ++ c :: after) = trimStart before ++ c :: after := by
  rw [trimStart, trimStart, List.dropWhile_append]
  by_cases gone : before.dropWhile isBlank = []
  · simp [gone, filled]
  · simp [gone]

theorem trim_end_append (cs : List Char) (c : Char) (filled : isBlank c = false) :
    trimEnd (cs ++ [c]) = cs ++ [c] := by
  simp [trimEnd, filled]

theorem trim_end_append_blank (cs : List Char) (c : Char) (blank : isBlank c = true) :
    trimEnd (cs ++ [c]) = trimEnd cs := by
  simp [trimEnd, blank]

theorem trim_start_idempotent (cs : List Char) : trimStart (trimStart cs) = trimStart cs := by
  cases started : trimStart cs with
  | nil => rfl
  | cons c rest => exact trim_start_append [] rest c (trim_start_filled started)

theorem trim_end_idempotent (cs : List Char) : trimEnd (trimEnd cs) = trimEnd cs := by
  have reversed := trim_start_idempotent cs.reverse
  rw [trimStart, trimStart] at reversed
  rw [trimEnd, trimEnd, List.reverse_reverse, reversed]

theorem trim_start_trim (cs : List Char) : trimStart (trim cs) = trim cs := by
  cases started : trim cs with
  | nil => rfl
  | cons c rest =>
      obtain ⟨after, whole⟩ := trim_end_starts (trimStart cs)
      rw [← trim, started, List.cons_append] at whole
      exact trim_start_append [] rest c (trim_start_filled whole.symm)

theorem trim_append_blank (cs : List Char) (c : Char) (blank : isBlank c = true) :
    trim (cs ++ [c]) = trim cs := by
  by_cases gone : trimStart cs = []
  · have nothing : trimStart (cs ++ [c]) = [] := by
      rw [trimStart] at gone
      simp [trimStart, List.dropWhile_append, gone, blank]
    rw [trim, trim, gone, nothing]
  · have kept : trimStart (cs ++ [c]) = trimStart cs ++ [c] := by
      rw [trimStart] at gone
      simp [trimStart, List.dropWhile_append, gone]
    rw [trim, trim, kept, trim_end_append_blank _ c blank]

theorem trim_idempotent (cs : List Char) : trim (trim cs) = trim cs := by
  rw [trim, trim_start_trim, trim, trim_end_idempotent]

def trimmed (text : String) : String := .ofList (trim text.toList)

def trimmedEnd (text : String) : String := .ofList (trimEnd text.toList)

def isBlankText (text : String) : Bool := text.toList.all isBlank

theorem trimmed_to_list (text : String) : (trimmed text).toList = trim text.toList :=
  String.toList_ofList

theorem trimmed_end_to_list (text : String) : (trimmedEnd text).toList = trimEnd text.toList :=
  String.toList_ofList

theorem drop_while_nil_iff (cs : List Char) : cs.dropWhile isBlank = [] ↔ cs.all isBlank = true := by
  induction cs with
  | nil => simp
  | cons c rest ih => by_cases blank : isBlank c <;> simp [blank, ih]

theorem trim_nil_iff (cs : List Char) : trim cs = [] ↔ cs.all isBlank = true := by
  rw [← drop_while_nil_iff]
  simp only [trim, trimEnd, trimStart, List.reverse_eq_nil_iff]
  constructor
  · intro gone
    cases started : cs.dropWhile isBlank with
    | nil => rfl
    | cons c rest =>
      have first : isBlank c = false := by
        have fact := List.head?_dropWhile_not isBlank cs
        simpa [started] using fact
      rw [started, drop_while_nil_iff] at gone
      simp [first] at gone
  · intro gone
    simp [gone]

theorem blank_text_iff (text : String) : isBlankText text = true ↔ trimmed text = "" := by
  rw [isBlankText, ← trim_nil_iff, ← String.toList_inj, trimmed_to_list, String.toList_empty]

end GitPractice.Text
