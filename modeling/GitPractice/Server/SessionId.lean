import GitPractice.Text.Digits

set_option autoImplicit false

namespace GitPractice

structure SessionId where
  bits : BitVec 128
deriving DecidableEq, Repr

namespace SessionId

def groups : List Nat := [8, 4, 4, 4, 12]

def digitCount : Nat := 32

def group : List Nat → List Char → List Char
  | [], cs => cs
  | [_], cs => cs
  | width :: more, cs => cs.take width ++ '-' :: group more (cs.drop width)

def ungroup : List Nat → List Char → Option (List Char)
  | [], _ => none
  | [width], cs => if cs.length = width then some cs else none
  | width :: more, cs =>
      match cs.drop width with
      | '-' :: rest => (ungroup more rest).map (cs.take width ++ ·)
      | _ => none

def ofDigits (cs : List Char) : Option SessionId :=
  if cs.length = digitCount then (Text.number? 16 cs).map fun n => ⟨.ofNat 128 n⟩ else none

def ofGrouped (cs : List Char) : Option SessionId := (ungroup groups cs).bind ofDigits

def insideBraces : List Char → Option (List Char)
  | [] => none
  | c :: rest => if c = '\x7b' ∧ rest.getLast? = some '\x7d' then some rest.dropLast else none

def nameStart : List Char := "urn:uuid:".toList

def afterNamespace (cs : List Char) : Option (List Char) :=
  if (cs.take nameStart.length).map Char.toLower = nameStart then some (cs.drop nameStart.length) else none

def parse? (text : String) : Option SessionId :=
  let cs := text.toList
  (ofDigits cs).or ((ofGrouped cs).or
    (((insideBraces cs).bind ofGrouped).or ((afterNamespace cs).bind ofGrouped)))

def plainDigits (id : SessionId) : String := Text.digits 16 digitCount id.bits.toNat

def render (id : SessionId) : String := .ofList (group groups id.plainDigits.toList)

end SessionId

end GitPractice
