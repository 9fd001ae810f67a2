import GitPractice.Json.Decoding
import Mathlib.Data.List.Forall2

set_option autoImplicit false

namespace GitPractice.Json

def present (parts : List (String × Option Json)) : List (String × Json) :=
  parts.filterMap fun part => part.2.map (part.1, ·)

def membersOf (parts : List (String × Option Json)) : List (Option String × Json) :=
  (present parts).map fun member => (some member.1, member.2)

structure Fit (field : Field) (part : String × Option Json) : Prop where
  name : field.name = part.1
  accepted : ∀ value ∈ part.2, field.check value = .ok ()

structure Declared (fields : List Field) (parts : List (String × Option Json)) : Prop where
  fit : List.Forall₂ Fit fields parts
  apart : (fields.map Field.name).Nodup

theorem fit_of {α : Type} (name : String) {decoder : Decoder α} {json : Json} {value : α}
    (read : decoder json = .ok value) : Fit (.of name decoder) (name, some json) := by
  refine ⟨rfl, ?_⟩
  rintro _ ⟨⟩
  simp only [Field.of, read, Except.map]

theorem fit_optional (name : String) (value : Option String) :
    Fit (.of name (Decoder.nullable Decoder.text)) (name, value.map .text) := by
  cases value with
  | none => exact ⟨rfl, nofun⟩
  | some text => exact fit_of name (rfl : Decoder.nullable Decoder.text (.text text) = .ok (some text))

theorem fit_names {fields : List Field} {parts : List (String × Option Json)}
    (fit : List.Forall₂ Fit fields parts) : fields.map Field.name = parts.map Prod.fst := by
  induction fit with
  | nil => rfl
  | cons fits more ih => rw [List.map_cons, List.map_cons, fits.name, ih]

theorem present_mem {parts : List (String × Option Json)} {member : String × Json}
    (found : member ∈ present parts) : (member.1, some member.2) ∈ parts := by
  obtain ⟨⟨name, value⟩, listed, same⟩ := List.mem_filterMap.mp found
  obtain ⟨json, rfl, rfl⟩ := Option.map_eq_some_iff.mp same
  exact listed

theorem present_names (parts : List (String × Option Json)) :
    ((present parts).map Prod.fst).Sublist (parts.map Prod.fst) := by
  induction parts with
  | nil => exact .slnil
  | cons part rest ih =>
      obtain ⟨name, value⟩ := part
      cases value with
      | none => exact ih.cons name
      | some json => exact ih.cons_cons name

theorem field_found {fields : List Field} {parts : List (String × Option Json)}
    (declared : Declared fields parts) {part : String × Option Json} (listed : part ∈ parts) :
    ∃ field, fields.find? (·.name == part.1) = some field ∧ ∀ value ∈ part.2, field.check value = .ok () := by
  obtain ⟨fit, apart⟩ := declared
  induction fit with
  | nil => cases listed
  | @cons field first fields rest fits more ih =>
      obtain ⟨absent, apart⟩ := List.nodup_cons.mp apart
      rcases List.mem_cons.mp listed with rfl | later
      · exact ⟨field, by simp [fits.name], fits.accepted⟩
      · have other : first.1 ≠ part.1 := by
          rintro same
          rw [fits.name, same, fit_names more] at absent
          exact absent (List.mem_map_of_mem later)
        obtain ⟨wanted, found, accepted⟩ := ih later apart
        exact ⟨wanted, by simpa [fits.name, other] using found, accepted⟩

theorem check_members {fields : List Field} {found : List (String × Json)} {seen : List String}
    (accepted : ∀ member ∈ found,
      ∃ field, fields.find? (·.name == member.1) = some field ∧ field.check member.2 = .ok ())
    (apart : (found.map Prod.fst).Nodup) (unseen : ∀ member ∈ found, member.1 ∉ seen) :
    checkMembers fields seen (found.map fun member => (some member.1, member.2)) = .ok () := by
  induction found generalizing seen with
  | nil => rfl
  | cons member rest ih =>
      obtain ⟨absent, apart⟩ := List.nodup_cons.mp apart
      obtain ⟨field, found, checked⟩ := accepted member List.mem_cons_self
      have unread : seen.contains member.1 = false := by
        simpa using unseen member List.mem_cons_self
      have unseenRest : ∀ other ∈ rest, other.1 ∉ member.1 :: seen := by
        intro other later
        rw [List.mem_cons]
        rintro (same | before)
        · exact absent (same ▸ List.mem_map_of_mem later)
        · exact unseen other (List.mem_cons_of_mem _ later) before
      have more := ih (fun other later => accepted other (List.mem_cons_of_mem _ later)) apart unseenRest
      simp only [List.map_cons, checkMembers, found, unread, Bool.false_eq_true, if_false, checked]
      exact more

theorem lookup_present {parts : List (String × Option Json)} (apart : (parts.map Prod.fst).Nodup)
    (name : String) : (membersOf parts).lookup (some name) = (parts.lookup name).join := by
  induction parts with
  | nil => rfl
  | cons part rest ih =>
      obtain ⟨first, value⟩ := part
      obtain ⟨absent, apart⟩ := List.nodup_cons.mp apart
      have others := ih apart
      by_cases same : name = first
      · subst same
        have listed : rest.lookup name = none := by
          rw [List.lookup_eq_none_iff]
          rintro ⟨other, json⟩ later
          rw [bne_iff_ne]
          rintro rfl
          exact absent (List.mem_map.mpr ⟨_, later, rfl⟩)
        rw [listed] at others
        cases value with
        | none => simpa [membersOf, present, List.lookup_cons] using others
        | some json => simp [membersOf, present]
      · have different : (name == first) = false := by simpa using same
        have notNamed : (some name == some first) = false := by simpa using same
        cases value with
        | none => simpa [membersOf, present, List.lookup_cons, different] using others
        | some json => simpa [membersOf, present, List.lookup_cons, different, notNamed] using others

/-- Members that were found say what the parts of a record say. -/
def Tells (found : List (Option String × Json)) (parts : List (String × Option Json)) : Prop :=
  ∀ name, member? found name = (parts.lookup name).join

theorem members_declared {fields : List Field} {parts : List (String × Option Json)}
    (declared : Declared fields parts) :
    ∃ found, members fields (.record (present parts)) = .ok found ∧ Tells found parts := by
  have names : (parts.map Prod.fst).Nodup := fit_names declared.fit ▸ declared.apart
  refine ⟨membersOf parts, ?_, lookup_present names⟩
  have accepted : ∀ member ∈ present parts,
      ∃ field, fields.find? (·.name == member.1) = some field ∧ field.check member.2 = .ok () := by
    intro member found
    obtain ⟨field, wanted, accepted⟩ := field_found declared (present_mem found)
    exact ⟨field, wanted, accepted member.2 rfl⟩
  rw [record, members, check_members accepted (names.sublist (present_names parts)) (by simp)]
  rfl

section
variable {found : List (Option String × Json)} {parts : List (String × Option Json)}
variable (told : Tells found parts) {name : String} {α : Type} {decoder : Decoder α} {json : Json} {value : α}
include told

theorem required_told (listed : parts.lookup name = some (some json)) (read : decoder json = .ok value) :
    required found name decoder = .ok value := by
  rw [required, told, listed]
  exact read

theorem defaulted_told (default : α) (listed : parts.lookup name = some (some json))
    (read : decoder json = .ok value) : defaulted found name decoder default = .ok value := by
  rw [defaulted, told, listed]
  exact read

theorem defaulted_untold (default : α) (listed : parts.lookup name = some none) :
    defaulted found name decoder default = .ok default := by
  rw [defaulted, told, listed]
  rfl

theorem optional_told {text : Option String} (listed : parts.lookup name = some (text.map .text)) :
    optionalField found name Decoder.text = .ok text := by
  cases text with
  | none => exact defaulted_untold told none listed
  | some text => exact defaulted_told told none listed rfl

end

theorem present_append (first second : List (String × Option Json)) :
    present (first ++ second) = present first ++ present second :=
  List.filterMap_append

theorem present_optional (name : String) (value : Option String) :
    present [(name, value.map .text)] = Json.optional name value := by
  cases value <;> rfl

end GitPractice.Json
