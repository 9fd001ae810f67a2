import GitPractice.Text.Digits

set_option autoImplicit false

namespace GitPractice.Path

def isPathEnd (c : Char) : Bool := c == '?' || c == '#'

def segments (target : String) : List String :=
  ((target.toList.takeWhile fun c => !isPathEnd c).splitOn '/').map .ofList

def byteOf (high low : Char) : Option UInt8 := (Text.number? 16 [high, low]).map (·.toUInt8)

/-- The bytes of a segment. A percent sign without two hexadecimal digits after it stands for itself. -/
def bytes : List Char → List UInt8
  | [] => []
  | '%' :: high :: low :: rest =>
      match byteOf high low with
      | some byte => byte :: bytes rest
      | none => String.utf8EncodeChar '%' ++ bytes (high :: low :: rest)
  | c :: rest => String.utf8EncodeChar c ++ bytes rest
termination_by cs => cs.length

def decode (segment : String) : Option String :=
  String.fromUTF8? ⟨(bytes segment.toList).toArray⟩

end GitPractice.Path
