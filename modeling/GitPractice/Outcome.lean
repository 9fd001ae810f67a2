import GitPractice.Error

set_option autoImplicit false

namespace GitPractice

inductive Outcome (α : Type) where
  | done (value : α)
  | refused (error : Error)
  | interrupted (reason : String)
deriving DecidableEq, Repr

namespace Outcome

variable {α β : Type}

def map (f : α → β) : Outcome α → Outcome β
  | .done value => .done (f value)
  | .refused error => .refused error
  | .interrupted reason => .interrupted reason

def isDone : Outcome α → Bool
  | .done _ => true
  | .refused _ | .interrupted _ => false

theorem is_done_map (f : α → β) (outcome : Outcome α) : (outcome.map f).isDone = outcome.isDone := by
  cases outcome <;> rfl

theorem map_done_iff (f : α → β) (outcome : Outcome α) (value : β) :
    outcome.map f = .done value ↔ ∃ source, outcome = .done source ∧ f source = value := by
  cases outcome <;> simp [map]

end Outcome

end GitPractice
