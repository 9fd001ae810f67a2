set_option autoImplicit false

namespace GitPractice.Text

def byteLength : List Char → Nat
  | [] => 0
  | c :: rest => c.utf8Size + byteLength rest

/-- What stands before a place and what stands after it. A place counts bytes, and none cuts a character in
two. -/
def splitAt? : Nat → List Char → Option (List Char × List Char)
  | 0, cs => some ([], cs)
  | _ + 1, [] => none
  | place + 1, c :: rest =>
      if c.utf8Size ≤ place + 1 then
        (splitAt? (place + 1 - c.utf8Size) rest).map fun parts => (c :: parts.1, parts.2)
      else none

def slice? (low high : Nat) (cs : List Char) : Option (List Char) := do
  let upTo ← splitAt? high cs
  let parts ← splitAt? low upTo.1
  return parts.2

def firstPlace? (mark : Char) : List Char → Option Nat
  | [] => none
  | c :: rest => if c = mark then some 0 else (firstPlace? mark rest).map (c.utf8Size + ·)

def lastPlace? (mark : Char) : List Char → Option Nat
  | [] => none
  | c :: rest => match lastPlace? mark rest with
    | some place => some (c.utf8Size + place)
    | none => if c = mark then some 0 else none

def placeOf? : Nat → List Char → Option Nat
  | _, [] => none
  | 0, _ :: _ => some 0
  | n + 1, c :: rest => (placeOf? n rest).map (c.utf8Size + ·)

theorem byte_length_append (earlier later : List Char) :
    byteLength (earlier ++ later) = byteLength earlier + byteLength later := by
  induction earlier with
  | nil => exact (Nat.zero_add _).symm
  | cons c rest ih => rw [List.cons_append, byteLength, byteLength, ih, Nat.add_assoc]

theorem split_at_append (earlier later : List Char) :
    splitAt? (byteLength earlier) (earlier ++ later) = some (earlier, later) := by
  induction earlier with
  | nil => cases later <;> rfl
  | cons c rest ih =>
      have size : 0 < c.utf8Size := Char.utf8Size_pos c
      obtain ⟨before, isNext⟩ : ∃ before, c.utf8Size + byteLength rest = before + 1 :=
        ⟨c.utf8Size + byteLength rest - 1, by omega⟩
      have left : before + 1 - c.utf8Size = byteLength rest := by omega
      rw [byteLength, isNext, List.cons_append, splitAt?, if_pos (by omega), left, ih, Option.map_some]

theorem slice_append (earlier piece later : List Char) :
    slice? (byteLength earlier) (byteLength (earlier ++ piece)) (earlier ++ piece ++ later) = some piece := by
  rw [slice?, split_at_append]
  change ((splitAt? (byteLength earlier) (earlier ++ piece)).bind fun parts => some parts.2) = some piece
  rw [split_at_append]
  rfl

theorem first_place_none_iff (mark : Char) (cs : List Char) : firstPlace? mark cs = none ↔ mark ∉ cs := by
  induction cs with
  | nil => simp [firstPlace?]
  | cons c rest ih =>
      rw [firstPlace?]
      by_cases same : c = mark
      · simp [same]
      · simp [same, ih, Ne.symm same]

theorem first_place_splits {mark : Char} {cs : List Char} {place : Nat} (found : firstPlace? mark cs = some place) :
    ∃ earlier later, cs = earlier ++ mark :: later ∧ mark ∉ earlier ∧ place = byteLength earlier := by
  induction cs generalizing place with
  | nil => cases found
  | cons c rest ih =>
      rw [firstPlace?] at found
      by_cases same : c = mark
      · rw [if_pos same] at found
        cases found
        exact ⟨[], rest, by rw [same, List.nil_append], List.not_mem_nil, rfl⟩
      · rw [if_neg same] at found
        obtain ⟨inner, further, rfl⟩ := Option.map_eq_some_iff.mp found
        obtain ⟨earlier, later, rfl, free, rfl⟩ := ih further
        refine ⟨c :: earlier, later, rfl, ?_, rfl⟩
        simp [free, Ne.symm same]

theorem last_place_none_iff (mark : Char) (cs : List Char) : lastPlace? mark cs = none ↔ mark ∉ cs := by
  induction cs with
  | nil => simp [lastPlace?]
  | cons c rest ih =>
      rw [lastPlace?]
      cases further : lastPlace? mark rest with
      | some place =>
          have present : mark ∈ rest := by
            rw [further] at ih
            simpa using ih
          simp [present]
      | none =>
          have free : mark ∉ rest := ih.mp further
          by_cases same : c = mark
          · simp [same]
          · simp [same, free, Ne.symm same]

theorem last_place_splits {mark : Char} {cs : List Char} {place : Nat} (found : lastPlace? mark cs = some place) :
    ∃ earlier later, cs = earlier ++ mark :: later ∧ mark ∉ later ∧ place = byteLength earlier := by
  induction cs generalizing place with
  | nil => cases found
  | cons c rest ih =>
      rw [lastPlace?] at found
      cases further : lastPlace? mark rest with
      | some inner =>
          rw [further] at found
          cases found
          obtain ⟨earlier, later, rfl, free, rfl⟩ := ih further
          exact ⟨c :: earlier, later, rfl, free, rfl⟩
      | none =>
          rw [further] at found
          by_cases same : c = mark
          · rw [if_pos same] at found
            cases found
            exact ⟨[], rest, by rw [same, List.nil_append], (last_place_none_iff mark rest).mp further, rfl⟩
          · simp [same] at found

theorem place_of_take (n : Nat) (cs : List Char) :
    placeOf? n cs = if n < cs.length then some (byteLength (cs.take n)) else none := by
  induction cs generalizing n with
  | nil => simp [placeOf?]
  | cons c rest ih =>
      cases n with
      | zero => simp [placeOf?, byteLength]
      | succ n =>
          rw [placeOf?, ih, List.take_succ_cons, List.length_cons]
          by_cases inside : n < rest.length
          · simp [inside, byteLength]
          · simp [inside]

end GitPractice.Text
