import GitPractice.Json.Decoding
import GitPractice.Repository
import GitPractice.Seed
import GitPractice.Settings
import GitPractice.Transcript

set_option autoImplicit false

namespace GitPractice

open Json

namespace Commit

def lowestTime : Int := -9223372036854775808
def highestTime : Int := 9223372036854775807

def toJson (commit : Commit) : Json :=
  .record
    ([("id", .text commit.id), ("message", .text commit.message), ("author", .text commit.signature.name),
      ("email", .text commit.signature.email), ("timestamp", .int commit.timestamp),
      ("branch", .text commit.branch)] ++
      Json.optional "merge_from" commit.mergedFrom ++ Json.optional "merge_into" commit.mergedInto ++
      Json.optional "branched_from" commit.cutFrom ++ Json.optional "parent_commit" commit.parent)

def timeDecoder : Decoder Int := Decoder.int lowestTime highestTime

def fields : List Field :=
  [.of "id" Decoder.text, .of "message" Decoder.text, .of "author" Decoder.text, .of "email" Decoder.text,
   .of "timestamp" timeDecoder, .of "branch" Decoder.text, .of "merge_from" (Decoder.nullable Decoder.text),
   .of "merge_into" (Decoder.nullable Decoder.text), .of "branched_from" (Decoder.nullable Decoder.text),
   .of "parent_commit" (Decoder.nullable Decoder.text)]

def ofJson : Decoder Commit := fun json => do
  let found ← members fields json
  let id ← required found "id" Decoder.text
  let message ← required found "message" Decoder.text
  let name ← required found "author" Decoder.text
  let email ← required found "email" Decoder.text
  let timestamp ← required found "timestamp" timeDecoder
  let branch ← required found "branch" Decoder.text
  let mergedFrom ← optionalField found "merge_from" Decoder.text
  let mergedInto ← optionalField found "merge_into" Decoder.text
  let cutFrom ← optionalField found "branched_from" Decoder.text
  let parent ← optionalField found "parent_commit" Decoder.text
  .ok ⟨id, message, ⟨name, email⟩, timestamp, branch, mergedFrom, mergedInto, cutFrom, parent⟩

end Commit

namespace Repository

def toJson (repository : Repository) : Json :=
  .record
    [("current_branch", .text repository.current), ("branches", .texts repository.branches),
     ("commits", .array (repository.commits.map Commit.toJson)), ("staged", .texts repository.staged)]

def fields : List Field :=
  [.of "current_branch" Decoder.text, .of "branches" (Decoder.list Decoder.text),
   .of "commits" (Decoder.list Commit.ofJson), .of "staged" (Decoder.list Decoder.text)]

def ofJson : Decoder Repository := fun json => do
  let found ← members fields json
  let current ← required found "current_branch" Decoder.text
  let branches ← required found "branches" (Decoder.list Decoder.text)
  let commits ← required found "commits" (Decoder.list Commit.ofJson)
  let staged ← required found "staged" (Decoder.list Decoder.text)
  .ok ⟨current, branches, commits, staged⟩

end Repository

namespace EntryKind

def ofWord (text : String) : Except Fault EntryKind :=
  match ofWord? text with
  | some kind => .ok kind
  | none => .error .misfit

/-- A kind is written as its word, and may also be read from an object that has the word as the name of its
only member and null as its value. -/
def ofJson : Decoder EntryKind
  | .text word => ofWord word
  | .object [(some word, .null)] => ofWord word
  | other => .error other.unfit

end EntryKind

namespace Entry

def toJson (entry : Entry) : Json :=
  .record [("message", .text entry.message), ("kind", .text entry.kind.word)]

def fields : List Field := [.of "message" Decoder.text, .of "kind" EntryKind.ofJson]

def ofJson : Decoder Entry := fun json => do
  let found ← members fields json
  let message ← required found "message" Decoder.text
  let kind ← required found "kind" EntryKind.ofJson
  .ok ⟨message, kind⟩

end Entry

namespace Transcript

def toJson (transcript : Transcript) : Json := .array (transcript.entries.map Entry.toJson)

def ofJson : Decoder Transcript := fun json => (Decoder.list Entry.ofJson json).map Transcript.mk

end Transcript

namespace Config

def toJson (config : Config) : Json :=
  .record (config.entries.map fun entry => (entry.1, .text entry.2))

/-- No defaults are added; of a repeated key the last value counts. -/
def ofJson : Decoder Config := fun json => (Decoder.textMap json).map Config.empty.overlay

end Config

namespace SeedCommit

def toJson (commit : SeedCommit) : Json :=
  .record
    ([("branch", .text commit.branch), ("message", .text commit.message)] ++
      Json.optional "id" commit.id ++ Json.optional "parent" commit.parent ++
      Json.optional "author" commit.author)

def fields : List Field :=
  [.of "branch" Decoder.text, .of "message" Decoder.text, .of "id" (Decoder.nullable Decoder.text),
   .of "parent" (Decoder.nullable Decoder.text), .of "author" (Decoder.nullable Decoder.text)]

def ofJson : Decoder SeedCommit := fun json => do
  let found ← members fields json
  let branch ← required found "branch" Decoder.text
  let message ← required found "message" Decoder.text
  let id ← optionalField found "id" Decoder.text
  let parent ← optionalField found "parent" Decoder.text
  let author ← optionalField found "author" Decoder.text
  .ok ⟨branch, message, id, parent, author⟩

end SeedCommit

namespace Seed

def stagedMember : List String → List (String × Json)
  | [] => []
  | file :: more => [("staged", .texts (file :: more))]

def toJson (seed : Seed) : Json :=
  .record
    ([("branches", .texts seed.branches), ("commits", .array (seed.commits.map SeedCommit.toJson))] ++
      Json.optional "currentBranch" seed.current ++ stagedMember seed.staged)

def fields : List Field :=
  [.of "branches" (Decoder.list Decoder.text), .of "commits" (Decoder.list SeedCommit.ofJson),
   .of "currentBranch" (Decoder.nullable Decoder.text), .of "staged" (Decoder.list Decoder.text)]

def ofJson : Decoder Seed := fun json => do
  let found ← members fields json
  let branches ← required found "branches" (Decoder.list Decoder.text)
  let commits ← defaulted found "commits" (Decoder.list SeedCommit.ofJson) []
  let current ← optionalField found "currentBranch" Decoder.text
  let staged ← defaulted found "staged" (Decoder.list Decoder.text) []
  .ok ⟨branches, commits, current, staged⟩

end Seed

namespace Settings

def toJson (settings : Settings) : Json :=
  .record
    [("default_branch", .text settings.defaultBranch), ("repo_path", .text settings.repositoryPath),
     ("canned_files", .texts settings.everyFile), ("git", settings.git.toJson)]

end Settings

end GitPractice
