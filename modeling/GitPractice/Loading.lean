import GitPractice.Json.Reader
import GitPractice.Json.Records
import GitPractice.Toml.Records

set_option autoImplicit false

namespace GitPractice

inductive Document where
  | missing
  | undecodable
  | readable (text : String)
deriving DecidableEq, Repr

namespace Document

def ofBytes (bytes : ByteArray) : Document :=
  match String.fromUTF8? bytes with
  | some text => .readable text
  | none => .undecodable

def read (name : String) : Document → Except String String
  | .readable text => .ok text
  | .missing => .error (name ++ ": No such file or directory (os error 2)")
  | .undecodable => .error (name ++ ": stream did not contain valid UTF-8")

end Document

def fileName (path : String) : List Char :=
  ((path.toList.reverse.dropWhile (· == '/')).takeWhile (· != '/')).reverse

def tomlEnding : List Char := ".toml".toList

/-- Whether a file is named as a TOML document; the ending alone is no such name. -/
def isTomlName (path : String) : Bool :=
  tomlEnding.isSuffixOf (fileName path) && decide (tomlEnding.length < (fileName path).length)

namespace Seed

def parseJson (document : String) : Except SeedFault Seed :=
  match ofJson (Json.read document) with
  | .ok seed => .ok seed
  | .error _ => .error .malformed

def load (name : String) (document : Document) : Except SeedFault Seed :=
  match document.read name with
  | .error reason => .error (.unreadable reason)
  | .ok text => if isTomlName name then parseToml text else parseJson text

end Seed

namespace Settings

def load (name : String) (document : Document) : Except SettingsFault Settings :=
  match document.read name with
  | .error reason => .error (.unreadable reason)
  | .ok text => parse text

end Settings

end GitPractice
