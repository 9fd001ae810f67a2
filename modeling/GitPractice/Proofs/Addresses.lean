import GitPractice.Proofs.JsonFields
import GitPractice.Proofs.JsonPrinted
import GitPractice.Proofs.Lifecycle
import GitPractice.Proofs.Numbering

set_option autoImplicit false

namespace GitPractice

namespace SessionId

theorem group_read_back (widths : List Nat) (cs : List Char) (filled : widths ≠ [])
    (long : cs.length = widths.foldr Nat.add 0) : ungroup widths (group widths cs) = some cs := by
  induction widths generalizing cs with
  | nil => exact absurd rfl filled
  | cons width more ih =>
      cases more with
      | nil => rw [group, ungroup, if_pos (by simpa using long)]
      | cons next rest =>
          have total : cs.length = width + (next :: rest).foldr Nat.add 0 := long
          have short : width ≤ cs.length := by
            rw [total]
            exact Nat.le_add_right width _
          have taken : (cs.take width).length = width := List.length_take_of_le short
          have left : (cs.drop width).length = (next :: rest).foldr Nat.add 0 := by
            rw [List.length_drop, total, Nat.add_sub_cancel_left]
          have others := ih (cs.drop width) (by simp) left
          rw [group, ungroup, List.drop_left' taken, List.take_left' taken]
          · simp only [others, Option.map_some, List.take_append_drop]
          · simp
          · simp

theorem group_length (cs : List Char) (long : cs.length = digitCount) : (group groups cs).length = 36 := by
  simp only [groups, group, List.length_append, List.length_cons, List.length_take, List.length_drop, long,
    digitCount]
  decide

variable (id : SessionId)

theorem plain_digits_length : id.plainDigits.toList.length = digitCount :=
  Text.digits_length (by decide) (by decide) id.bits.isLt

theorem parse_render : parse? id.render = some id := by
  have digits := id.plain_digits_length
  have written : id.render.toList = group groups id.plainDigits.toList := String.toList_ofList
  have ungrouped : ofDigits id.render.toList = none := by
    rw [written, ofDigits, group_length _ digits]
    rfl
  have grouped : ofGrouped id.render.toList = some id := by
    rw [written, ofGrouped, group_read_back groups _ (by decide) digits, Option.bind_some, ofDigits, if_pos digits,
      plainDigits, Text.number_digits (by decide) (by decide), Option.map_some, BitVec.ofNat_toNat, BitVec.setWidth_eq]
  simp only [parse?, ungrouped, grouped, Option.none_or, Option.some_or]

end SessionId

namespace Path

end Path

namespace Request

def sessionTarget (id : SessionId) (part : String) : String := "/".intercalate ["", "sessions", id.render, part]

def asking (id : SessionId) (part : String) : Request := ⟨"GET", sessionTarget id part, none, ""⟩

end Request

namespace Request

variable (id : SessionId)

end Request

end GitPractice
