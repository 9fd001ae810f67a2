import GitPractice.Seed
import GitPractice.Settings
import GitPractice.Toml.Document

set_option autoImplicit false

namespace GitPractice

namespace Toml.Value

def text? : Value → Option String
  | .text value => some value
  | _ => none

def list? {α : Type} (item? : Value → Option α) : Value → Option (List α)
  | .array items => items.mapM item?
  | _ => none

def dateTimeKey : String := "$__toml_private_datetime"

def textMap? : Value → Option (List (String × String))
  | .table entries => entries.mapM fun entry => (text? entry.2).map fun value => (entry.1, value)
  | .dateTime written => some [(dateTimeKey, written)]
  | _ => none

def record? (fields : List String) : Value → Option (List (String × Value))
  | .table entries => some entries
  | .array items => some (fields.zip items)
  | .dateTime _ => some []
  | _ => none

end Toml.Value

namespace Toml

def field {α : Type} (entries : List (String × Value)) (name : String) (decode : Value → Option α)
    (default : Option α) : Option α :=
  match entries.lookup name with
  | some value => decode value
  | none => default

def optionalText (entries : List (String × Value)) (name : String) : Option (Option String) :=
  field entries name (fun value => value.text?.map some) (some none)

end Toml

namespace Settings

def ofToml (entries : List (String × Toml.Value)) : Option Settings := do
  let base : Settings := {}
  let branch ← Toml.field entries "default_branch" Toml.Value.text? (some base.defaultBranch)
  let path ← Toml.field entries "repo_path" Toml.Value.text? (some base.repositoryPath)
  let files ← Toml.field entries "canned_files" (Toml.Value.list? Toml.Value.text?) (some base.everyFile)
  let git ← Toml.field entries "git" Toml.Value.textMap? (some [])
  some ⟨branch, path, files, Config.empty.overlay git⟩

def parse (document : String) : Except SettingsFault Settings :=
  match (Toml.read document).bind ofToml with
  | some settings => settings.check
  | none => .error .malformed

end Settings

namespace SeedCommit

def fieldNames : List String := ["branch", "message", "id", "parent", "author"]

def ofToml (value : Toml.Value) : Option SeedCommit := do
  let entries ← value.record? fieldNames
  let branch ← Toml.field entries "branch" Toml.Value.text? none
  let message ← Toml.field entries "message" Toml.Value.text? none
  let id ← Toml.optionalText entries "id"
  let parent ← Toml.optionalText entries "parent"
  let author ← Toml.optionalText entries "author"
  some ⟨branch, message, id, parent, author⟩

end SeedCommit

namespace Seed

def ofToml (entries : List (String × Toml.Value)) : Option Seed := do
  let branches ← Toml.field entries "branches" (Toml.Value.list? Toml.Value.text?) none
  let commits ← Toml.field entries "commits" (Toml.Value.list? SeedCommit.ofToml) (some [])
  let current ← Toml.optionalText entries "currentBranch"
  let staged ← Toml.field entries "staged" (Toml.Value.list? Toml.Value.text?) (some [])
  some ⟨branches, commits, current, staged⟩

def parseToml (document : String) : Except SeedFault Seed :=
  match (Toml.read document).bind ofToml with
  | some seed => .ok seed
  | none => .error .malformed

end Seed

end GitPractice
