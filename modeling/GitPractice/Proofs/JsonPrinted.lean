import GitPractice.Json.Printer
import GitPractice.Proofs.JsonText
import Mathlib.Data.List.Forall2

set_option autoImplicit false

namespace GitPractice.Json

mutual

def Plain : Json → Prop
  | .null | .bool _ | .text _ => True
  | .int value => value.natAbs ≤ wordBound
  | .array items => PlainItems items
  | .object members => PlainMembers members
  | .real | .huge | .surrogate | .broken => False

def PlainItems : List Json → Prop
  | [] => True
  | item :: rest => Plain item ∧ PlainItems rest

def PlainMembers : List (Option String × Json) → Prop
  | [] => True
  | (name, value) :: rest => name.isSome = true ∧ Plain value ∧ PlainMembers rest

end

theorem plain_items {items : List Json} (plain : ∀ item ∈ items, Plain item) : PlainItems items := by
  induction items with
  | nil => trivial
  | cons item rest ih =>
      exact ⟨plain item List.mem_cons_self, ih fun other present => plain other (List.mem_cons_of_mem _ present)⟩

theorem plain_members {members : List (String × Json)} (plain : ∀ member ∈ members, Plain member.2) :
    PlainMembers (members.map fun member => (some member.1, member.2)) := by
  induction members with
  | nil => trivial
  | cons member rest ih =>
      exact ⟨rfl, plain member List.mem_cons_self,
        ih fun other present => plain other (List.mem_cons_of_mem _ present)⟩

mutual

theorem plain_sound : ∀ json : Json, Plain json → json.isSound = true
  | .null, _ | .bool _, _ | .int _, _ | .text _, _ => rfl
  | .array items, plain => plain_items_sound items plain
  | .object members, plain => plain_members_sound members plain

theorem plain_items_sound : ∀ items : List Json, PlainItems items → areSound items = true
  | [], _ => rfl
  | item :: rest, plain => by rw [areSound, plain_sound item plain.1, plain_items_sound rest plain.2, Bool.and_self]

theorem plain_members_sound :
    ∀ members : List (Option String × Json), PlainMembers members → membersSound members = true
  | [], _ => rfl
  | (_, value) :: rest, plain => by
      rw [membersSound, plain_sound value plain.2.1, plain_members_sound rest plain.2.2, Bool.and_self]

end

def WrittenItem (item : Json) (part : String) : Prop := Written item part.toList

def WrittenMember (member : Option String × Json) (part : String) : Prop :=
  ∃ name before cs, member.1 = some name ∧ Spaces before ∧ Written member.2 cs ∧
    part.toList = (quoted name).toList ++ ':' :: (before ++ cs)

section
variable {gap last : List Char} {parts : List String}

theorem joined_items (spaces : Spaces gap) (closing : Spaces last) {item : Json} {items : List Json}
    (written : List.Forall₂ WrittenItem (item :: items) parts) :
    Items (item :: items) ((',' :: gap).intercalate (parts.map String.toList) ++ (last ++ [']'])) := by
  induction items generalizing item parts with
  | nil =>
      cases written with
      | cons first none =>
        cases none
        simpa using Items.item first closing .close
  | cons next rest ih =>
      cases written with
      | cons first more =>
        obtain ⟨part, others, _, _, rfl⟩ := List.forall₂_cons_left_iff.mp more
        have row := Items.item first no_spaces (.next spaces (ih more))
        simpa [List.intercalate_cons_cons] using row

theorem joined_members (spaces : Spaces gap) (closing : Spaces last) {member : Option String × Json}
    {members : List (Option String × Json)}
    (written : List.Forall₂ WrittenMember (member :: members) parts) :
    Members (member :: members)
      ((',' :: gap).intercalate (parts.map String.toList) ++ (last ++ ['\x7d'])) := by
  induction members generalizing member parts with
  | nil =>
      cases written with
      | cons first none =>
        cases none
        obtain ⟨name, before, cs, named, opened, value, part⟩ := first
        obtain ⟨_, _⟩ := member
        cases named
        simpa [part] using Members.member name opened value closing .close
  | cons next rest ih =>
      cases written with
      | cons first more =>
        obtain ⟨part, others, _, _, rfl⟩ := List.forall₂_cons_left_iff.mp more
        obtain ⟨name, before, cs, named, opened, value, text⟩ := first
        obtain ⟨_, _⟩ := member
        cases named
        have row := Members.member name opened value no_spaces (.next spaces (ih more))
        simpa [List.intercalate_cons_cons, text] using row

theorem array_written (spaces : Spaces gap) (closing : Spaces last) {items : List Json}
    (written : List.Forall₂ WrittenItem items parts) (filled : items ≠ []) :
    Written (.array items)
      ('[' :: (gap ++ ((',' :: gap).intercalate (parts.map String.toList) ++ (last ++ [']'])))) := by
  cases items with
  | nil => exact absurd rfl filled
  | cons item items => exact .items spaces (joined_items spaces closing written)

theorem object_written (spaces : Spaces gap) (closing : Spaces last)
    {members : List (Option String × Json)} (written : List.Forall₂ WrittenMember members parts)
    (filled : members ≠ []) :
    Written (.object members)
      ('\x7b' :: (gap ++ ((',' :: gap).intercalate (parts.map String.toList) ++ (last ++ ['\x7d'])))) := by
  cases members with
  | nil => exact absurd rfl filled
  | cons member members => exact .members spaces (joined_members spaces closing written)

end

theorem member_written {name : Option String} {value : Json} (named : name.isSome = true) {text : String}
    (written : Written value text.toList) (gap : String) (spaces : Spaces gap.toList) :
    WrittenMember (name, value) (memberName name ++ (":" ++ gap) ++ text) := by
  obtain ⟨name, rfl⟩ := Option.isSome_iff_exists.mp named
  exact ⟨name, gap.toList, text.toList, rfl, spaces, written, by simp [memberName]⟩

mutual

theorem compact_written : ∀ json : Json, Plain json → Written json (compact json).toList
  | .null, _ => .null
  | .bool true, _ => .truth
  | .bool false, _ => .falsity
  | .int _, small => .int small
  | .text value, _ => .text value
  | .array items, plain => by
      have written := compact_items_written items plain
      cases items with
      | nil => exact .noItems
      | cons item rest =>
        have array := array_written no_spaces no_spaces written
          (List.cons_ne_nil _ _)
        simpa [compact, String.toList_intercalate] using array
  | .object members, plain => by
      have written := compact_members_written members plain
      cases members with
      | nil => exact .noMembers
      | cons member rest =>
        have object := object_written no_spaces no_spaces written
          (List.cons_ne_nil _ _)
        simpa [compact, openBrace, closeBrace, String.toList_intercalate] using object

theorem compact_items_written :
    ∀ items : List Json, PlainItems items → List.Forall₂ WrittenItem items (compactItems items)
  | [], _ => .nil
  | item :: rest, plain => .cons (compact_written item plain.1) (compact_items_written rest plain.2)

theorem compact_members_written :
    ∀ members : List (Option String × Json), PlainMembers members →
      List.Forall₂ WrittenMember members (compactMembers members)
  | [], _ => .nil
  | (_, value) :: rest, plain =>
      .cons (by simpa using member_written plain.1 (compact_written value plain.2.1) "" (by simp [Spaces]))
        (compact_members_written rest plain.2.2)

end

def lineBreak (depth : Nat) : List Char := '\n' :: (indentation depth).toList

theorem line_break_spaces (depth : Nat) : Spaces (lineBreak depth) := by
  intro c present
  rcases List.mem_cons.mp present with rfl | indented
  · decide
  · rw [indentation, String.toList_ofList] at indented
    rw [List.eq_of_mem_replicate indented]
    decide

theorem intercalate_indented (indent : List Char) (part : List Char) (parts : List (List Char)) :
    [',', '\n'].intercalate ((part :: parts).map (indent ++ ·)) =
      indent ++ (',' :: '\n' :: indent).intercalate (part :: parts) := by
  induction parts generalizing part with
  | nil => simp
  | cons next rest ih =>
      rw [List.map_cons, List.map_cons, List.intercalate_cons_cons, ← List.map_cons, ih,
        List.intercalate_cons_cons]
      simp

theorem layout_to_list (opening closing : String) (depth : Nat) {parts : List String} (filled : parts ≠ []) :
    (layout opening closing depth parts).toList =
      opening.toList ++ (lineBreak (depth + 1) ++
        ((',' :: lineBreak (depth + 1)).intercalate (parts.map String.toList) ++
          (lineBreak depth ++ closing.toList))) := by
  obtain ⟨part, rest, rfl⟩ := List.exists_cons_of_ne_nil filled
  have separator : ",\n".toList = [',', '\n'] := rfl
  have joined := intercalate_indented (indentation (depth + 1)).toList part.toList (rest.map String.toList)
  simp only [layout, List.isEmpty_cons, Bool.false_eq_true, if_false, String.toList_append,
    String.toList_intercalate, List.map_map, List.map_cons, Function.comp_def] at joined ⊢
  rw [separator, joined]
  simp [lineBreak]

mutual

theorem pretty_written : ∀ (json : Json) (depth : Nat), Plain json → Written json (pretty depth json).toList
  | .null, _, _ => .null
  | .bool true, _, _ => .truth
  | .bool false, _, _ => .falsity
  | .int _, _, small => .int small
  | .text value, _, _ => .text value
  | .array items, depth, plain => by
      have written := pretty_items_written items (depth + 1) plain
      cases items with
      | nil => simpa [pretty, prettyItems, layout] using Written.noItems
      | cons item rest =>
        have array := array_written (line_break_spaces (depth + 1)) (line_break_spaces depth) written
          (List.cons_ne_nil _ _)
        rwa [pretty, layout_to_list _ _ _ (by simp [prettyItems])]
  | .object members, depth, plain => by
      have written := pretty_members_written members (depth + 1) plain
      cases members with
      | nil => simpa [pretty, prettyMembers, layout, openBrace, closeBrace] using Written.noMembers
      | cons member rest =>
        have object := object_written (line_break_spaces (depth + 1)) (line_break_spaces depth) written
          (List.cons_ne_nil _ _)
        rwa [pretty, layout_to_list _ _ _ (by simp [prettyMembers])]

theorem pretty_items_written :
    ∀ (items : List Json) (depth : Nat), PlainItems items →
      List.Forall₂ WrittenItem items (prettyItems depth items)
  | [], _, _ => .nil
  | item :: rest, depth, plain =>
      .cons (pretty_written item depth plain.1) (pretty_items_written rest depth plain.2)

theorem pretty_members_written :
    ∀ (members : List (Option String × Json)) (depth : Nat), PlainMembers members →
      List.Forall₂ WrittenMember members (prettyMembers depth members)
  | [], _, _ => .nil
  | (_, value) :: rest, depth, plain =>
      .cons (member_written plain.1 (pretty_written value depth plain.2.1) " " (by simp [Spaces]; decide))
        (pretty_members_written rest depth plain.2.2)

end

theorem read_compact {json : Json} (plain : Plain json) : read json.compact = json :=
  read_of_written (compact_written json plain) no_spaces (by simp)

theorem read_pretty {json : Json} (plain : Plain json) : read (json.pretty 0) = json :=
  read_of_written (pretty_written json 0 plain) no_spaces (by simp)

end GitPractice.Json
