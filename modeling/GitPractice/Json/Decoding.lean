import GitPractice.Json.Basic
import GitPractice.Text.Order

set_option autoImplicit false

namespace GitPractice.Json

inductive Fault where
  | malformed
  | misfit
deriving DecidableEq, Repr

abbrev Decoder (α : Type) := Json → Except Fault α

def unfit : Json → Fault
  | .huge => .malformed
  | .surrogate => .malformed
  | .broken => .malformed
  | _ => .misfit

namespace Decoder

def text : Decoder String
  | .text value => .ok value
  | other => .error other.unfit

def int (low high : Int) : Decoder Int
  | .int value => if low ≤ value ∧ value ≤ high then .ok value else .error .misfit
  | other => .error other.unfit

def nullable {α : Type} (decoder : Decoder α) : Decoder (Option α)
  | .null => .ok none
  | other => (decoder other).map some

def items {α : Type} (decoder : Decoder α) : List Json → Except Fault (List α)
  | [] => .ok []
  | item :: rest => do
      let value ← decoder item
      let more ← items decoder rest
      .ok (value :: more)

theorem items_map {α : Type} (decoder : Decoder α) (encode : α → Json) (values : List α)
    (reads : ∀ value ∈ values, decoder (encode value) = .ok value) :
    items decoder (values.map encode) = .ok values := by
  induction values with
  | nil => rfl
  | cons first rest ih =>
    have head := reads first (List.mem_cons_self ..)
    have tail := ih fun value present => reads value (List.mem_cons_of_mem _ present)
    simp only [List.map_cons, items, head, tail]
    rfl

def list {α : Type} (decoder : Decoder α) : Decoder (List α)
  | .array values => items decoder values
  | other => .error other.unfit

theorem list_map {α : Type} (decoder : Decoder α) (encode : α → Json) (values : List α)
    (reads : ∀ value ∈ values, decoder (encode value) = .ok value) :
    list decoder (.array (values.map encode)) = .ok values :=
  items_map decoder encode values reads

theorem list_texts (values : List String) : list text (.texts values) = .ok values :=
  list_map text .text values fun _ _ => rfl

def textMembers : List (Option String × Json) → Except Fault (List (String × String))
  | [] => .ok []
  | (none, _) :: _ => .error .malformed
  | (some name, value) :: rest => do
      let first ← Decoder.text value
      let more ← textMembers rest
      .ok ((name, first) :: more)

def textMap : Decoder (List (String × String))
  | .object members => textMembers members
  | other => .error other.unfit

end Decoder

structure Field where
  name : String
  check : Json → Except Fault Unit

def Field.of {α : Type} (name : String) (decoder : Decoder α) : Field where
  name := name
  check value := (decoder value).map fun _ => ()

def checkMembers (fields : List Field) :
    List String → List (Option String × Json) → Except Fault Unit
  | _, [] => .ok ()
  | _, (none, _) :: _ => .error .malformed
  | seen, (some name, value) :: rest =>
      match fields.find? (·.name == name) with
      | none => if value.isSound then checkMembers fields seen rest else .error .malformed
      | some field =>
          if seen.contains name then .error .misfit
          else do
            field.check value
            checkMembers fields (name :: seen) rest

def positional : List Field → List Json → List (Option String × Json)
  | _, [] => []
  | [], _ :: _ => [(none, .broken)]
  | field :: fields, item :: items => (some field.name, item) :: positional fields items

def members (fields : List Field) : Decoder (List (Option String × Json))
  | .object found => (checkMembers fields [] found).map fun _ => found
  | .array values =>
      let found := positional fields values
      (checkMembers fields [] found).map fun _ => found
  | other => .error other.unfit

def member? (found : List (Option String × Json)) (name : String) : Option Json := found.lookup (some name)

def required {α : Type} (found : List (Option String × Json)) (name : String) (decoder : Decoder α) :
    Except Fault α :=
  match member? found name with
  | some value => decoder value
  | none => .error .misfit

def defaulted {α : Type} (found : List (Option String × Json)) (name : String) (decoder : Decoder α)
    (default : α) : Except Fault α :=
  match member? found name with
  | some value => decoder value
  | none => .ok default

def optionalField {α : Type} (found : List (Option String × Json)) (name : String)
    (decoder : Decoder α) : Except Fault (Option α) :=
  defaulted found name (Decoder.nullable decoder) none

end GitPractice.Json
