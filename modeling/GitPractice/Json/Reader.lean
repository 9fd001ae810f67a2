import GitPractice.Json.Printer
import GitPractice.Text.Digits

set_option autoImplicit false

namespace GitPractice.Json

def isSpace (c : Char) : Bool := c == ' ' || c == '\n' || c == '\t' || c == '\r'

def skipSpace (cs : List Char) : List Char := cs.dropWhile isSpace

/-- A string while it is read: the text, the first half of a surrogate pair that waits for the second, and
whether a half has been left alone. -/
structure Stretch where
  text : String := ""
  pending : Option Nat := none
  alone : Bool := false

namespace Stretch

def pushChar (stretch : Stretch) (c : Char) : Stretch :=
  ⟨stretch.text.push c, none, stretch.alone || stretch.pending.isSome⟩

def pushUnit (stretch : Stretch) (unit : Nat) : Stretch :=
  if 0xD800 ≤ unit ∧ unit < 0xDC00 then
    ⟨stretch.text, some unit, stretch.alone || stretch.pending.isSome⟩
  else if 0xDC00 ≤ unit ∧ unit < 0xE000 then
    match stretch.pending with
    | some high =>
        ⟨stretch.text.push (Char.ofNat ((high - 0xD800) * 0x400 + (unit - 0xDC00) + 0x10000)), none,
          stretch.alone⟩
    | none => ⟨stretch.text, none, true⟩
  else stretch.pushChar (Char.ofNat unit)

def json (stretch : Stretch) : Json :=
  if stretch.alone || stretch.pending.isSome then .surrogate else .text stretch.text

end Stretch

def escapeChar? (letter : Char) : Option Char :=
  if letter = '/' then some '/' else (shortEscapes.find? (·.1 == letter)).map Prod.snd

def readEscape (stretch : Stretch) : List Char → Option (Stretch × List Char)
  | [] => none
  | letter :: rest =>
      if letter = 'u' then
        if rest.length < 4 then none
        else (Text.number? 16 (rest.take 4)).map fun unit => (stretch.pushUnit unit, rest.drop 4)
      else (escapeChar? letter).map fun c => (stretch.pushChar c, rest)

theorem read_escape_shrinks {stretch after : Stretch} {cs rest : List Char}
    (accepted : readEscape stretch cs = some (after, rest)) : rest.length < cs.length := by
  cases cs with
  | nil => simp [readEscape] at accepted
  | cons letter tail =>
    simp only [readEscape] at accepted
    split at accepted
    · split at accepted
      · simp at accepted
      · obtain ⟨unit, _, same⟩ := Option.map_eq_some_iff.mp accepted
        cases same
        simp only [List.length_drop, List.length_cons]
        omega
    · obtain ⟨c, _, same⟩ := Option.map_eq_some_iff.mp accepted
      cases same
      simp

def readStretch (stretch : Stretch) : List Char → Json × List Char
  | [] => (.broken, [])
  | c :: rest =>
      if c = '"' then (stretch.json, rest)
      else if c = '\\' then
        match _accepted : readEscape stretch rest with
        | none => (.broken, [])
        | some (after, tail) => readStretch after tail
      else if c.toNat < 0x20 then (.broken, [])
      else readStretch (stretch.pushChar c) rest
termination_by cs => cs.length
decreasing_by
  · have := read_escape_shrinks _accepted
    simp only [List.length_cons]
    omega
  · simp

def decimalValue (digits : List Char) : Nat := (Text.number? 10 digits).getD 0

def readFraction : List Char → Option (List Char × List Char)
  | '.' :: rest =>
      let digits := rest.takeWhile Text.isDigit
      if digits.isEmpty then none else some (digits, rest.dropWhile Text.isDigit)
  | cs => some ([], cs)

def readExponentDigits (sign : Int) (cs : List Char) : Option (Option Int × List Char) :=
  let digits := cs.takeWhile Text.isDigit
  if digits.isEmpty then none else some (some (sign * decimalValue digits), cs.dropWhile Text.isDigit)

def readExponent : List Char → Option (Option Int × List Char)
  | c :: rest =>
      if c = 'e' || c = 'E' then
        match rest with
        | '+' :: rest => readExponentDigits 1 rest
        | '-' :: rest => readExponentDigits (-1) rest
        | rest => readExponentDigits 1 rest
      else some (none, c :: rest)
  | [] => some (none, [])

def numberOf (negative : Bool) (whole fraction : List Char) (exponent : Option Int) : Json :=
  if Text.isInfinite (whole ++ fraction) (exponent.getD 0 - fraction.length) then .huge
  else if !fraction.isEmpty || exponent.isSome then .real
  else
    let value := decimalValue whole
    if negative then if value = 0 then .real else .int (-value) else .int value

def readNumber (negative : Bool) (cs : List Char) : Json × List Char :=
  let whole := cs.takeWhile Text.isDigit
  if whole.isEmpty || (1 < whole.length && whole.head? == some '0') then (.broken, [])
  else match readFraction (cs.dropWhile Text.isDigit) with
    | none => (.broken, [])
    | some (fraction, rest) => match readExponent rest with
      | none => (.broken, [])
      | some (exponent, rest) => (numberOf negative whole fraction exponent, rest)

def readWord (word : String) (value : Json) (cs : List Char) : Json × List Char :=
  match word.toList.isPrefixOf? cs with
  | some rest => (value, rest)
  | none => (.broken, [])

mutual

/-- A value, and the text after it. Where the text stops being JSON the tree gets the leaf `broken`, and the
rest is dropped. The number bounds the steps to take. -/
def readValue : Nat → List Char → Json × List Char
  | 0, _ => (.broken, [])
  | steps + 1, cs =>
      match skipSpace cs with
      | [] => (.broken, [])
      | c :: rest =>
          if c = '"' then readStretch {} rest
          else if c = '[' then
            let read := readItems steps true (skipSpace rest)
            (.array read.1, read.2)
          else if c = '\x7b' then
            let read := readMembers steps true (skipSpace rest)
            (.object read.1, read.2)
          else if c = 't' then readWord "true" (.bool true) (c :: rest)
          else if c = 'f' then readWord "false" (.bool false) (c :: rest)
          else if c = 'n' then readWord "null" .null (c :: rest)
          else if c = '-' then readNumber true rest
          else readNumber false (c :: rest)

def readItems : Nat → Bool → List Char → List Json × List Char
  | 0, _, _ => ([.broken], [])
  | _ + 1, _, [] => ([.broken], [])
  | steps + 1, first, c :: rest =>
      if c = ']' then ([], rest)
      else if first then readItem steps (c :: rest)
      else if c = ',' then readItem steps (skipSpace rest)
      else ([.broken], [])

def readItem : Nat → List Char → List Json × List Char
  | 0, _ => ([.broken], [])
  | steps + 1, cs =>
      let item := readValue steps cs
      let more := readItems steps false (skipSpace item.2)
      (item.1 :: more.1, more.2)

def readMembers : Nat → Bool → List Char → List (Option String × Json) × List Char
  | 0, _, _ => ([(none, .broken)], [])
  | _ + 1, _, [] => ([(none, .broken)], [])
  | steps + 1, first, c :: rest =>
      if c = '\x7d' then ([], rest)
      else if first then readMember steps (c :: rest)
      else if c = ',' then readMember steps (skipSpace rest)
      else ([(none, .broken)], [])

def readMember : Nat → List Char → List (Option String × Json) × List Char
  | 0, _ => ([(none, .broken)], [])
  | _ + 1, [] => ([(none, .broken)], [])
  | steps + 1, c :: rest =>
      if c = '"' then
        let key := readStretch {} rest
        match key.1 with
        | .text name => readMemberValue steps (some name) (skipSpace key.2)
        | .surrogate => readMemberValue steps none (skipSpace key.2)
        | _ => ([(none, .broken)], [])
      else ([(none, .broken)], [])

def readMemberValue : Nat → Option String → List Char → List (Option String × Json) × List Char
  | 0, name, _ => ([(name, .broken)], [])
  | _ + 1, name, [] => ([(name, .broken)], [])
  | steps + 1, name, c :: rest =>
      if c = ':' then
        let value := readValue steps rest
        let more := readMembers steps false (skipSpace value.2)
        ((name, value.1) :: more.1, more.2)
      else ([(name, .broken)], [])

end

/-- The value at the start of a text, and what stands after it. Every step but four uses up a character. -/
def readStart (text : String) : Json × List Char := readValue (4 * text.length + 4) text.toList

def read (text : String) : Json :=
  let read := readStart text
  if (skipSpace read.2).isEmpty then read.1 else .broken

/-- What stands for a byte of no character: JSON nowhere but in a text, and there a text that nobody can
take, since it has half a surrogate pair. -/
def illegible : List Char := ['x', '\\', 'u', 'd', 'c', '0', '0']

def charsFrom (bytes : ByteArray) (start : Nat) : List Char :=
  if start < bytes.size then
    match bytes.utf8DecodeChar? start with
    | some c => c :: charsFrom bytes (start + c.utf8Size)
    | none => illegible ++ charsFrom bytes (start + 1)
  else []
termination_by bytes.size - start
decreasing_by
  · have := c.utf8Size_pos
    omega
  · omega

def textOfBytes (bytes : ByteArray) : String :=
  match String.fromUTF8? bytes with
  | some decoded => decoded
  | none => .ofList (charsFrom bytes 0)

theorem text_of_utf8 (document : String) : textOfBytes document.toUTF8 = document := by
  have decoded : String.fromUTF8? document.toUTF8 = some document := dif_pos document.isValidUTF8
  rw [textOfBytes, decoded]

example : read (textOfBytes ⟨#[0x22, 0xFF, 0x22]⟩) = .surrogate := by cbv

end GitPractice.Json
