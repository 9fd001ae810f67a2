set_option autoImplicit false

namespace GitPractice.Text

def digits (base width n : Nat) : String := .ofList ((Nat.toDigits base n).leftpad width '0')

def decimal (width n : Nat) : String := digits 10 width n

theorem digits_to_list (base width n : Nat) :
    (digits base width n).toList = (Nat.toDigits base n).leftpad width '0' :=
  String.toList_ofList

def within (low high c : Char) : Bool := decide (low.toNat ≤ c.toNat) && decide (c.toNat ≤ high.toNat)

def isDigit (c : Char) : Bool := within '0' '9' c

def digit? (base : Nat) (c : Char) : Option Nat :=
  let value? :=
    if within '0' '9' c then some (c.toNat - '0'.toNat)
    else if within 'a' 'f' c then some (c.toNat - 'a'.toNat + 10)
    else if within 'A' 'F' c then some (c.toNat - 'A'.toNat + 10)
    else none
  value?.filter fun value => decide (value < base)

def number? (base : Nat) (cs : List Char) : Option Nat :=
  cs.foldl (fun number? c => number?.bind fun n => (digit? base c).map (n * base + ·)) (some 0)

theorem digit_of_digit_char {base value : Nat} (small : base ≤ 16) (below : value < base) :
    digit? base (Nat.digitChar value) = some value := by
  have listed : ∀ base < 17, ∀ value < base, digit? base (Nat.digitChar value) = some value := by decide
  exact listed base (Nat.lt_succ_of_le small) value below

theorem number_append (base : Nat) (cs : List Char) (c : Char) :
    number? base (cs ++ [c]) = (number? base cs).bind fun n => (digit? base c).map (n * base + ·) := by
  rw [number?, List.foldl_append]
  rfl

theorem number_to_digits {base : Nat} (large : 1 < base) (small : base ≤ 16) (n : Nat) :
    number? base (Nat.toDigits base n) = some n := by
  induction n using Nat.strongRecOn with
  | ind n ih =>
      by_cases single : n < base
      · rw [Nat.toDigits_of_lt_base single]
        simp [number?, digit_of_digit_char small single]
      · have fewer : n / base < n := Nat.div_lt_self (by omega) large
        have last : n % base < base := Nat.mod_lt n (by omega)
        rw [Nat.toDigits_of_base_le large (by omega), number_append, ih _ fewer, Option.bind_some,
          digit_of_digit_char small last, Option.map_some, Nat.div_add_mod']

theorem number_zeros {base : Nat} (large : 1 < base) (small : base ≤ 16) (zeros : Nat) (cs : List Char) :
    number? base (List.replicate zeros '0' ++ cs) = number? base cs := by
  have positive : 0 < base := Nat.zero_lt_of_lt large
  have zero : digit? base '0' = some 0 := digit_of_digit_char small positive
  induction zeros with
  | zero => rfl
  | succ zeros ih =>
      rw [← ih, List.replicate_succ, List.cons_append, number?, List.foldl_cons, Option.bind_some, zero,
        Option.map_some, Nat.zero_mul]
      rfl

theorem number_digits {base : Nat} (large : 1 < base) (small : base ≤ 16) (width n : Nat) :
    number? base (digits base width n).toList = some n := by
  rw [digits_to_list, List.leftpad, number_zeros large small, number_to_digits large small]

theorem digits_injective {base : Nat} (large : 1 < base) (small : base ≤ 16) {width m n : Nat}
    (same : digits base width m = digits base width n) : m = n := by
  have read := number_digits large small width m
  rw [same, number_digits large small width n] at read
  exact (Option.some.inj read).symm

def isLowerHex (c : Char) : Bool := within '0' '9' c || within 'a' 'f' c

theorem mem_to_digits {base n : Nat} (large : 1 < base) {c : Char} (present : c ∈ Nat.toDigits base n) :
    ∃ value < base, c = Nat.digitChar value := by
  induction n using Nat.strongRecOn with
  | ind n ih =>
      by_cases single : n < base
      · rw [Nat.toDigits_of_lt_base single] at present
        exact ⟨n, single, List.mem_singleton.mp present⟩
      · have fewer : n / base < n := Nat.div_lt_self (by omega) large
        rw [Nat.toDigits_of_base_le large (by omega), List.mem_append] at present
        rcases present with earlier | last
        · exact ih _ fewer earlier
        · exact ⟨n % base, Nat.mod_lt n (by omega), List.mem_singleton.mp last⟩

theorem digits_lower_hex {width n : Nat} {c : Char} (present : c ∈ (digits 16 width n).toList) :
    isLowerHex c = true := by
  have listed : ∀ value < 16, isLowerHex (Nat.digitChar value) = true := by decide
  rw [digits_to_list, List.leftpad, List.mem_append] at present
  rcases present with zero | digit
  · rw [(List.mem_replicate.mp zero).2]
    rfl
  · obtain ⟨value, below, rfl⟩ := mem_to_digits (by decide) digit
    exact listed value below

def infinityBound : Nat := Nat.pow 2 1024 - Nat.pow 2 970

/-- Whether decimal digits with a power of ten reach that number. The powers are compared first, so that no
large power is computed where they decide. -/
def isInfinite (digits : List Char) (exponent : Int) : Bool :=
  let significant := digits.dropWhile (· == '0')
  let magnitude := significant.length + exponent
  let value := (number? 10 significant).getD 0
  if significant.isEmpty || decide (magnitude < 300) then false
  else if 320 < magnitude then true
  else if 0 ≤ exponent then infinityBound ≤ value * Nat.pow 10 exponent.toNat
  else infinityBound * Nat.pow 10 (-exponent).toNat ≤ value

end GitPractice.Text
