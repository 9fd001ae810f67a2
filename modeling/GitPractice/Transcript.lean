set_option autoImplicit false

namespace GitPractice

inductive EntryKind where
  | input
  | output
  | error
deriving DecidableEq, Repr

namespace EntryKind

def all : List EntryKind := [.input, .output, .error]

def word : EntryKind → String
  | .input => "input"
  | .output => "output"
  | .error => "error"

def ofWord? (text : String) : Option EntryKind := all.find? fun kind => kind.word == text

theorem of_word_word (kind : EntryKind) : ofWord? kind.word = some kind := by
  cases kind <;> decide

end EntryKind

structure Entry where
  message : String
  kind : EntryKind
deriving DecidableEq, Repr

namespace Entry

def isError (entry : Entry) : Bool := entry.kind == .error

def echo (line : String) : Entry := ⟨"$ " ++ line, .input⟩

def line? (entry : Entry) : Option String :=
  match entry.kind with
  | .input => ("$ ".toList.isPrefixOf? entry.message.toList).map .ofList
  | .output | .error => none

theorem line_echo (line : String) : (echo line).line? = some line := by
  have found : "$ ".toList.isPrefixOf? ("$ " ++ line).toList = some line.toList := by
    rw [String.toList_append]
    rfl
  rw [echo, line?, found, Option.map_some, String.ofList_toList]

end Entry

structure Transcript where
  entries : List Entry := []
deriving DecidableEq, Repr

namespace Transcript

def size (transcript : Transcript) : Nat := transcript.entries.length

def since (transcript : Transcript) (position : Nat) : List Entry := transcript.entries.drop position

def lines (transcript : Transcript) : List String := transcript.entries.filterMap Entry.line?

def append (transcript : Transcript) (entries : List Entry) : Transcript :=
  ⟨transcript.entries ++ entries⟩

theorem since_size_append (transcript : Transcript) (entries : List Entry) :
    (transcript.append entries).since transcript.size = entries := by
  simp [append, since, size]

end Transcript

end GitPractice
