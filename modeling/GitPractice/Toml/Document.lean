import GitPractice.Toml.DateTime
import GitPractice.Toml.Number

set_option autoImplicit false

namespace GitPractice.Toml

def skipComment : List Char → List Char
  | '#' :: rest => rest.dropWhile isPrintable
  | rest => rest

def skipFiller : Nat → List Char → List Char
  | 0, cs => cs
  | steps + 1, cs =>
      match skipComment (skipSpace cs) with
      | [] => []
      | c :: rest => match newline? (c :: rest) with
        | some after => skipFiller steps after
        | none => c :: rest

def keyword (word : String) (value : Value) (cs : List Char) : Option (Value × List Char) :=
  (word.toList.isPrefixOf? cs).map fun rest => (value, rest)

def scalar (cs : List Char) : Option (Value × List Char) :=
  ((text cs).map fun part => (Value.text part.1, part.2)).or
    ((keyword "true" (.bool true) cs).or
      ((keyword "false" (.bool false) cs).or ((dateTime cs).or (number cs))))

mutual

/-- A value and what stands after it. The first number bounds the steps, the second the nesting. -/
def value : Nat → Nat → List Char → Option (Value × List Char)
  | 0, _, _ => none
  | _ + 1, _, [] => none
  | steps + 1, depth, c :: rest =>
      if c = '[' then
        if depth + 1 < depthLimit then
          (items steps (depth + 1) (skipFiller rest.length rest)).map fun part => (.array part.1, part.2)
        else none
      else if c = '\x7b' then
        if depth + 1 < depthLimit then do
          let (pairs, rest) ← inlinePairs steps (depth + 1) (skipSpace rest)
          let entries ← Entries.addPairs [] pairs
          some (.table (entriesToValues entries), rest)
        else none
      else scalar (c :: rest)

def items : Nat → Nat → List Char → Option (List Value × List Char)
  | 0, _, _ => none
  | _ + 1, _, [] => none
  | steps + 1, depth, c :: rest =>
      if c = ']' then some ([], rest)
      else do
        let (first, rest) ← value steps depth (c :: rest)
        match skipFiller rest.length rest with
        | ',' :: rest => do
            let (more, rest) ← items steps depth (skipFiller rest.length rest)
            some (first :: more, rest)
        | ']' :: rest => some ([first], rest)
        | _ => none

def inlinePairs : Nat → Nat → List Char → Option (List Pair × List Char)
  | 0, _, _ => none
  | steps + 1, depth, cs =>
      match cs with
      | [] => none
      | c :: rest => if c = '\x7d' then some ([], rest) else someInlinePairs steps depth (c :: rest)

def someInlinePairs : Nat → Nat → List Char → Option (List Pair × List Char)
  | 0, _, _ => none
  | steps + 1, depth, cs => do
      let (first, rest) ← pair steps depth cs
      match skipSpace rest with
      | [] => none
      | c :: rest =>
          if c = '\x7d' then some ([first], rest)
          else if c = ',' then do
            let (more, rest) ← someInlinePairs steps depth rest
            some (first :: more, rest)
          else none

def pair : Nat → Nat → List Char → Option (Pair × List Char)
  | 0, _, _ => none
  | steps + 1, depth, cs => do
      let ((path, last), rest) ← key cs
      let rest ← mark '=' rest
      let (found, rest) ← value steps depth (skipSpace rest)
      some (⟨path, last, found⟩, rest)

end

def lineEnd (cs : List Char) : Option (List Char) :=
  match skipComment (skipSpace cs) with
  | [] => some []
  | c :: rest => newline? (c :: rest)

def header (cs : List Char) : Option (Section × List Char) := do
  let repeated := ['[', '['].isPrefixOf cs
  let width := if repeated then 2 else 1
  let ((path, last), rest) ← key (cs.drop width)
  let rest ← (List.replicate width ']').isPrefixOf? rest
  let rest ← lineEnd rest
  some (⟨repeated, path, last, []⟩, rest)

def lines : Nat → List Char → Option (List Pair × List Section)
  | 0, _ => none
  | steps + 1, cs =>
      match skipFiller cs.length cs with
      | [] => some ([], [])
      | c :: rest =>
          if c = '[' then do
            let (opened, rest) ← header (c :: rest)
            let (pairs, sections) ← lines steps rest
            some ([], ⟨opened.repeated, opened.path, opened.key, pairs⟩ :: sections)
          else do
            let (first, rest) ← pair (4 * rest.length + 8) 0 (c :: rest)
            let rest ← lineEnd rest
            let (pairs, sections) ← lines steps rest
            some (first :: pairs, sections)

def byteOrderMark : Char := '\ufeff'

def read (document : String) : Option (List (String × Value)) := do
  let cs := document.toList
  let cs := if cs.head? = some byteOrderMark then cs.tail else cs
  let (pairs, sections) ← lines (cs.length + 1) cs
  assemble pairs sections

end GitPractice.Toml
