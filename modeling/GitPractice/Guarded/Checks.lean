import GitPractice.Ids
import GitPractice.Json.Records

set_option autoImplicit false

namespace GitPractice.Guarded

section
variable {α : Type}

def from? (low : Nat) (items : List α) : Option (List α) :=
  if low ≤ items.length then some (items.drop low) else none

def upTo? (high : Nat) (items : List α) : Option (List α) :=
  if high ≤ items.length then some (items.take high) else none

theorem from_eq_some {low : Nat} {items : List α} (inside : low ≤ items.length) :
    from? low items = some (items.drop low) := if_pos inside

theorem up_to_eq_some {high : Nat} {items : List α} (inside : high ≤ items.length) :
    upTo? high items = some (items.take high) := if_pos inside

end

def assert? (holds : Bool) : Option Unit := if holds then some () else none

def minus? (n m : Nat) : Option Nat := if m ≤ n then some (n - m) else none

def word? (value : Int) : Option Int :=
  if Commit.lowestTime ≤ value ∧ value ≤ Commit.highestTime then some value else none

/-- A count taken for a number with a sign, which wraps around. -/
def cast (count : Nat) : Int := (BitVec.ofNat 64 count).toInt

def timeOf? (position : Nat) : Option Int := do
  let elapsed ← word? (cast position * Clock.stride)
  word? (Clock.start + elapsed)

theorem word_eq_some {value : Int} (low : Commit.lowestTime ≤ value) (high : value ≤ Commit.highestTime) :
    word? value = some value := if_pos ⟨low, high⟩

theorem cast_kept {count : Nat} (small : count < 9223372036854775808) : cast count = count := by
  have whole : (BitVec.ofNat 64 count).toNat = count := by
    rw [BitVec.toNat_ofNat]
    omega
  rw [cast, BitVec.toInt_eq_toNat_of_lt (by omega), whole]

end GitPractice.Guarded
