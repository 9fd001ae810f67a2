import GitPractice.CommandLine
import GitPractice.Proofs.JsonFields
import GitPractice.Proofs.JsonPrinted
import GitPractice.Proofs.Requests

set_option autoImplicit false

namespace GitPractice

namespace Json

theorem plain_present {parts : List (String × Option Json)}
    (plain : ∀ part ∈ parts, ∀ json ∈ part.2, Plain json) : Plain (.record (present parts)) :=
  plain_members fun member found => plain _ (present_mem found) member.2 rfl

theorem plain_array {α : Type} {encode : α → Json} {values : List α}
    (plain : ∀ value ∈ values, Plain (encode value)) : Plain (.array (values.map encode)) := by
  refine plain_items fun item listed => ?_
  obtain ⟨value, present, rfl⟩ := List.mem_map.mp listed
  exact plain value present

theorem plain_texts (values : List String) : Plain (.texts values) := plain_array fun _ _ => trivial

theorem plain_optional (value : Option String) : ∀ json ∈ value.map Json.text, Plain json := by
  cases value with
  | none => nofun
  | some text => rintro _ ⟨⟩; trivial

/-- A value is read back from the tree that is written for it, and from both of that tree's texts. -/
structure ReadsBack {α : Type} (decoder : Decoder α) (json : Json) (value : α) : Prop where
  tree : decoder json = .ok value
  compact : decoder (read json.compact) = .ok value
  pretty : decoder (read (json.pretty 0)) = .ok value

theorem reads_back {α : Type} {decoder : Decoder α} {json : Json} {value : α} (plain : Plain json)
    (tree : decoder json = .ok value) : ReadsBack decoder json value where
  tree := tree
  compact := by rw [read_compact plain, tree]
  pretty := by rw [read_pretty plain, tree]

end Json

open Json

namespace Commit

def Readable (commit : Commit) : Prop := lowestTime ≤ commit.timestamp ∧ commit.timestamp ≤ highestTime

instance (commit : Commit) : Decidable commit.Readable := inferInstanceAs (Decidable (_ ∧ _))

def parts (commit : Commit) : List (String × Option Json) :=
  [("id", some (.text commit.id)), ("message", some (.text commit.message)),
   ("author", some (.text commit.signature.name)), ("email", some (.text commit.signature.email)),
   ("timestamp", some (.int commit.timestamp)), ("branch", some (.text commit.branch)),
   ("merge_from", commit.mergedFrom.map .text), ("merge_into", commit.mergedInto.map .text),
   ("branched_from", commit.cutFrom.map .text), ("parent_commit", commit.parent.map .text)]

theorem to_json_parts (commit : Commit) : commit.toJson = .record (present commit.parts) := by
  simp only [toJson, ← present_optional, List.append_assoc, ← present_append]
  rfl

theorem time_read {commit : Commit} (readable : commit.Readable) :
    timeDecoder (.int commit.timestamp) = .ok commit.timestamp :=
  if_pos readable

theorem declared {commit : Commit} (readable : commit.Readable) : Declared fields commit.parts where
  fit := .cons (fit_of _ rfl) (.cons (fit_of _ rfl) (.cons (fit_of _ rfl) (.cons (fit_of _ rfl)
    (.cons (fit_of _ (time_read readable)) (.cons (fit_of _ rfl) (.cons (fit_optional _ _)
      (.cons (fit_optional _ _) (.cons (fit_optional _ _) (.cons (fit_optional _ _) .nil)))))))))
  apart := by decide

theorem of_json_to_json {commit : Commit} (readable : commit.Readable) :
    ofJson commit.toJson = .ok commit := by
  obtain ⟨found, taken, told⟩ := members_declared (declared readable)
  have id : required found "id" Decoder.text = .ok commit.id := required_told told rfl rfl
  have message : required found "message" Decoder.text = .ok commit.message := required_told told rfl rfl
  have name : required found "author" Decoder.text = .ok commit.signature.name := required_told told rfl rfl
  have email : required found "email" Decoder.text = .ok commit.signature.email :=
    required_told told rfl rfl
  have timestamp : required found "timestamp" timeDecoder = .ok commit.timestamp :=
    required_told told rfl (time_read readable)
  have branch : required found "branch" Decoder.text = .ok commit.branch := required_told told rfl rfl
  have mergedFrom : optionalField found "merge_from" Decoder.text = .ok commit.mergedFrom :=
    optional_told told rfl
  have mergedInto : optionalField found "merge_into" Decoder.text = .ok commit.mergedInto :=
    optional_told told rfl
  have cutFrom : optionalField found "branched_from" Decoder.text = .ok commit.cutFrom :=
    optional_told told rfl
  have parent : optionalField found "parent_commit" Decoder.text = .ok commit.parent :=
    optional_told told rfl
  rw [to_json_parts, ofJson, taken]
  simp only [bind, Except.bind, id, message, name, email, timestamp, branch, mergedFrom, mergedInto, cutFrom,
    parent]

theorem plain {commit : Commit} (readable : commit.Readable) : Plain commit.toJson := by
  have small : commit.timestamp.natAbs ≤ wordBound := by
    obtain ⟨low, high⟩ := readable
    rw [lowestTime] at low
    rw [highestTime] at high
    rw [wordBound]
    omega
  rw [to_json_parts]
  refine plain_present ?_
  simp only [parts, List.forall_mem_cons, Option.mem_some_iff, forall_eq']
  exact ⟨trivial, trivial, trivial, trivial, small, trivial, plain_optional _, plain_optional _,
    plain_optional _, plain_optional _, nofun⟩

end Commit

namespace Repository

def Readable (repository : Repository) : Prop := ∀ commit ∈ repository.commits, commit.Readable

instance (repository : Repository) : Decidable repository.Readable :=
  inferInstanceAs (Decidable (∀ commit ∈ repository.commits, commit.Readable))

def parts (repository : Repository) : List (String × Option Json) :=
  [("current_branch", some (.text repository.current)), ("branches", some (.texts repository.branches)),
   ("commits", some (.array (repository.commits.map Commit.toJson))),
   ("staged", some (.texts repository.staged))]

theorem to_json_parts (repository : Repository) : repository.toJson = .record (present repository.parts) := rfl

theorem of_json_to_json {repository : Repository} (readable : repository.Readable) :
    ofJson repository.toJson = .ok repository := by
  have history : Decoder.list Commit.ofJson (.array (repository.commits.map Commit.toJson)) =
      .ok repository.commits :=
    Decoder.list_map Commit.ofJson Commit.toJson repository.commits fun commit listed =>
      Commit.of_json_to_json (readable commit listed)
  have declared : Declared fields repository.parts :=
    { fit := .cons (fit_of _ rfl) (.cons (fit_of _ (Decoder.list_texts _)) (.cons (fit_of _ history)
        (.cons (fit_of _ (Decoder.list_texts _)) .nil)))
      apart := by decide }
  obtain ⟨found, taken, told⟩ := members_declared declared
  have current : required found "current_branch" Decoder.text = .ok repository.current :=
    required_told told rfl rfl
  have branches : required found "branches" (Decoder.list Decoder.text) = .ok repository.branches :=
    required_told told rfl (Decoder.list_texts _)
  have commits : required found "commits" (Decoder.list Commit.ofJson) = .ok repository.commits :=
    required_told told rfl history
  have staged : required found "staged" (Decoder.list Decoder.text) = .ok repository.staged :=
    required_told told rfl (Decoder.list_texts _)
  rw [to_json_parts, ofJson, taken]
  simp only [bind, Except.bind, current, branches, commits, staged]

theorem plain {repository : Repository} (readable : repository.Readable) : Plain repository.toJson := by
  rw [to_json_parts]
  refine plain_present ?_
  simp only [parts, List.forall_mem_cons, Option.mem_some_iff, forall_eq']
  exact ⟨trivial, plain_texts _, plain_array fun commit listed => Commit.plain (readable commit listed),
    plain_texts _, nofun⟩

end Repository

namespace Entry

def parts (entry : Entry) : List (String × Option Json) :=
  [("message", some (.text entry.message)), ("kind", some (.text entry.kind.word))]

theorem to_json_parts (entry : Entry) : entry.toJson = .record (present entry.parts) := rfl

theorem kind_read (kind : EntryKind) : EntryKind.ofJson (.text kind.word) = .ok kind := by
  rw [EntryKind.ofJson, EntryKind.ofWord, EntryKind.of_word_word]

theorem of_json_to_json (entry : Entry) : ofJson entry.toJson = .ok entry := by
  have declared : Declared fields entry.parts :=
    { fit := .cons (fit_of _ rfl) (.cons (fit_of _ (kind_read entry.kind)) .nil)
      apart := by decide }
  obtain ⟨found, taken, told⟩ := members_declared declared
  have message : required found "message" Decoder.text = .ok entry.message := required_told told rfl rfl
  have kind : required found "kind" EntryKind.ofJson = .ok entry.kind :=
    required_told told rfl (kind_read entry.kind)
  rw [to_json_parts, ofJson, taken]
  simp only [bind, Except.bind, message, kind]

theorem plain (entry : Entry) : Plain entry.toJson := by
  rw [to_json_parts]
  refine plain_present ?_
  simp only [parts, List.forall_mem_cons, Option.mem_some_iff, forall_eq']
  exact ⟨trivial, trivial, nofun⟩

end Entry

namespace Transcript

theorem of_json_to_json (transcript : Transcript) : ofJson transcript.toJson = .ok transcript := by
  have entries : Decoder.list Entry.ofJson (.array (transcript.entries.map Entry.toJson)) =
      .ok transcript.entries :=
    Decoder.list_map Entry.ofJson Entry.toJson transcript.entries fun entry _ => entry.of_json_to_json
  rw [toJson, ofJson, entries]
  rfl

theorem plain (transcript : Transcript) : Plain transcript.toJson := plain_array fun entry _ => entry.plain

end Transcript

namespace Config

theorem text_members_entries (entries : List (String × String)) :
    Decoder.textMembers (entries.map fun entry => (some entry.1, .text entry.2)) = .ok entries := by
  induction entries with
  | nil => rfl
  | cons entry rest ih =>
      rw [List.map_cons, Decoder.textMembers, ih]
      rfl

theorem put_last {key value : String} {entries : List (String × String)}
    (below : ∀ entry ∈ entries, Text.precedes entry.1 key = true) :
    put key value entries = entries ++ [(key, value)] := by
  induction entries with
  | nil => rfl
  | cons entry rest ih =>
      obtain ⟨other, old⟩ := entry
      have less := below (other, old) List.mem_cons_self
      have different : key ≠ other := by
        rintro rfl
        rw [Text.precedes_irrefl] at less
        cases less
      have notLess : ¬ Text.precedes key other = true := by
        intro greater
        have circle := Text.precedes_trans less greater
        rw [Text.precedes_irrefl] at circle
        cases circle
      rw [put, if_neg different, if_neg notLess, ih fun entry later => below entry (List.mem_cons_of_mem _ later),
        List.cons_append]

theorem overlay_above {config : Config} {entries : List (String × String)}
    (ascending : Ascending (config.entries ++ entries)) :
    (config.overlay entries).entries = config.entries ++ entries := by
  induction entries generalizing config with
  | nil => simp [overlay]
  | cons entry rest ih =>
      obtain ⟨_, _, apart⟩ := List.pairwise_append.mp ascending
      have last : (config.set entry.1 entry.2).entries = config.entries ++ [entry] :=
        put_last fun other before => apart other before entry List.mem_cons_self
      have more : Ascending ((config.set entry.1 entry.2).entries ++ rest) := by
        rw [last, List.append_assoc]
        exact ascending
      have result := ih more
      rw [last, List.append_assoc] at result
      exact result

theorem of_json_to_json (config : Config) : ofJson config.toJson = .ok config := by
  have same : empty.overlay config.entries = config :=
    ext_entries (overlay_above config.ascending)
  have taken : Decoder.textMap config.toJson = .ok config.entries := by
    rw [toJson, record, List.map_map]
    exact text_members_entries config.entries
  rw [ofJson, taken, Except.map, same]

theorem plain (config : Config) : Plain config.toJson := by
  refine plain_members fun member listed => ?_
  obtain ⟨entry, _, rfl⟩ := List.mem_map.mp listed
  trivial

end Config

namespace SeedCommit

def parts (commit : SeedCommit) : List (String × Option Json) :=
  [("branch", some (.text commit.branch)), ("message", some (.text commit.message)),
   ("id", commit.id.map .text), ("parent", commit.parent.map .text), ("author", commit.author.map .text)]

theorem to_json_parts (commit : SeedCommit) : commit.toJson = .record (present commit.parts) := by
  simp only [toJson, ← present_optional, List.append_assoc, ← present_append]
  rfl

theorem of_json_to_json (commit : SeedCommit) : ofJson commit.toJson = .ok commit := by
  have declared : Declared fields commit.parts :=
    { fit := .cons (fit_of _ rfl) (.cons (fit_of _ rfl) (.cons (fit_optional _ _) (.cons (fit_optional _ _)
        (.cons (fit_optional _ _) .nil))))
      apart := by decide }
  obtain ⟨found, taken, told⟩ := members_declared declared
  have branch : required found "branch" Decoder.text = .ok commit.branch := required_told told rfl rfl
  have message : required found "message" Decoder.text = .ok commit.message := required_told told rfl rfl
  have id : optionalField found "id" Decoder.text = .ok commit.id := optional_told told rfl
  have parent : optionalField found "parent" Decoder.text = .ok commit.parent := optional_told told rfl
  have author : optionalField found "author" Decoder.text = .ok commit.author := optional_told told rfl
  rw [to_json_parts, ofJson, taken]
  simp only [bind, Except.bind, branch, message, id, parent, author]

theorem plain (commit : SeedCommit) : Plain commit.toJson := by
  rw [to_json_parts]
  refine plain_present ?_
  simp only [parts, List.forall_mem_cons, Option.mem_some_iff, forall_eq']
  exact ⟨trivial, trivial, plain_optional _, plain_optional _, plain_optional _, nofun⟩

end SeedCommit

namespace Seed

def stagedPart (files : List String) : Option Json := if files.isEmpty then none else some (.texts files)

def parts (seed : Seed) : List (String × Option Json) :=
  [("branches", some (.texts seed.branches)), ("commits", some (.array (seed.commits.map SeedCommit.toJson))),
   ("currentBranch", seed.current.map .text), ("staged", stagedPart seed.staged)]

theorem present_staged (files : List String) : present [("staged", stagedPart files)] = stagedMember files := by
  cases files <;> rfl

theorem to_json_parts (seed : Seed) : seed.toJson = .record (present seed.parts) := by
  simp only [toJson, ← present_optional, ← present_staged, List.append_assoc, ← present_append]
  rfl

theorem commits_read (commits : List SeedCommit) :
    Decoder.list SeedCommit.ofJson (.array (commits.map SeedCommit.toJson)) = .ok commits :=
  Decoder.list_map SeedCommit.ofJson SeedCommit.toJson commits fun commit _ => commit.of_json_to_json

theorem fit_staged (files : List String) :
    Fit (.of "staged" (Decoder.list Decoder.text)) ("staged", stagedPart files) := by
  cases files with
  | nil => exact ⟨rfl, nofun⟩
  | cons file rest => exact fit_of _ (Decoder.list_texts _)

theorem staged_told {found : List (Option String × Json)} {parts : List (String × Option Json)}
    (told : Tells found parts) {files : List String} (listed : parts.lookup "staged" = some (stagedPart files)) :
    defaulted found "staged" (Decoder.list Decoder.text) [] = .ok files := by
  cases files with
  | nil => exact defaulted_untold told [] listed
  | cons file rest => exact defaulted_told told [] listed (Decoder.list_texts _)

theorem plain_staged (files : List String) : ∀ json ∈ stagedPart files, Plain json := by
  cases files with
  | nil => nofun
  | cons file rest => rintro _ ⟨⟩; exact plain_texts _

theorem of_json_to_json (seed : Seed) : ofJson seed.toJson = .ok seed := by
  have declared : Declared fields seed.parts :=
    { fit := .cons (fit_of _ (Decoder.list_texts _)) (.cons (fit_of _ (commits_read _)) (.cons (fit_optional _ _)
        (.cons (fit_staged _) .nil)))
      apart := by decide }
  obtain ⟨found, taken, told⟩ := members_declared declared
  have branches : required found "branches" (Decoder.list Decoder.text) = .ok seed.branches :=
    required_told told rfl (Decoder.list_texts _)
  have commits : defaulted found "commits" (Decoder.list SeedCommit.ofJson) [] = .ok seed.commits :=
    defaulted_told told [] rfl (commits_read _)
  have current : optionalField found "currentBranch" Decoder.text = .ok seed.current := optional_told told rfl
  have staged : defaulted found "staged" (Decoder.list Decoder.text) [] = .ok seed.staged := staged_told told rfl
  rw [to_json_parts, ofJson, taken]
  simp only [bind, Except.bind, branches, commits, current, staged]

theorem plain (seed : Seed) : Plain seed.toJson := by
  rw [to_json_parts]
  refine plain_present ?_
  simp only [parts, List.forall_mem_cons, Option.mem_some_iff, forall_eq']
  exact ⟨plain_texts _, plain_array fun commit _ => commit.plain, plain_optional _, plain_staged _, nofun⟩

end Seed

open CommandLine

theorem state_text_read {repository : Repository} (readable : repository.Readable) :
    Repository.ofJson (Json.read (stateText repository)) = .ok repository := by
  have same : Json.read (stateText repository) = repository.toJson :=
    read_of_written (pretty_written repository.toJson 0 (Repository.plain readable))
      (by simp [Spaces]; decide : Spaces ['\n']) String.toList_append
  rw [same, Repository.of_json_to_json readable]

theorem records_read_back :
    (∀ commit : Commit, commit.Readable → commit.toJson = .record (present commit.parts) ∧
      ReadsBack Commit.ofJson commit.toJson commit) ∧
    (∀ repository : Repository, repository.Readable →
      repository.toJson = .record (present repository.parts) ∧
      ReadsBack Repository.ofJson repository.toJson repository) ∧
    (∀ entry : Entry, entry.toJson = .record (present entry.parts) ∧
      ReadsBack Entry.ofJson entry.toJson entry) ∧
    (∀ transcript : Transcript, transcript.toJson = .array (transcript.entries.map Entry.toJson) ∧
      ReadsBack Transcript.ofJson transcript.toJson transcript) ∧
    (∀ config : Config, config.toJson = .record (config.entries.map fun entry => (entry.1, .text entry.2)) ∧
      ReadsBack Config.ofJson config.toJson config) ∧
    (∀ commit : SeedCommit, commit.toJson = .record (present commit.parts) ∧
      ReadsBack SeedCommit.ofJson commit.toJson commit) ∧
    (∀ seed : Seed, seed.toJson = .record (present seed.parts) ∧ ReadsBack Seed.ofJson seed.toJson seed) ∧
    (∀ (name text : String) (failFast : Bool) (session : Session),
      let result := Script.run failFast session (Script.lines text)
      result.stopped = none → result.session.repository.Readable →
        ∃ document, runScript name text failFast false session = .success result.output ∧
          runScript name text failFast true session = .success (result.output ++ document) ∧
          Repository.ofJson (Json.read document) = .ok result.session.repository) ∧
    (∀ (server : Server) (fresh id : SessionId) (request : Request) (line : String) (session : Session),
      request.method = "GET" → request.aim = .asks id .state line → server.find? id = some session →
        session.repository.Readable →
        ∃ body, (server.handle fresh request).1 = .ok body ∧
          ReadsBack Repository.ofJson body session.repository) := by
  refine ⟨fun commit readable => ⟨commit.to_json_parts, ?_⟩, fun repository readable => ⟨rfl, ?_⟩,
    fun entry => ⟨rfl, ?_⟩, fun transcript => ⟨rfl, ?_⟩, fun config => ⟨rfl, ?_⟩,
    fun commit => ⟨commit.to_json_parts, ?_⟩, fun seed => ⟨seed.to_json_parts, ?_⟩, ?_, ?_⟩
  · exact reads_back (Commit.plain readable) (Commit.of_json_to_json readable)
  · exact reads_back (Repository.plain readable) (Repository.of_json_to_json readable)
  · exact reads_back entry.plain entry.of_json_to_json
  · exact reads_back transcript.plain transcript.of_json_to_json
  · exact reads_back config.plain config.of_json_to_json
  · exact reads_back commit.plain commit.of_json_to_json
  · exact reads_back seed.plain seed.of_json_to_json
  · intro name text failFast session result finished readable
    refine ⟨stateText result.session.repository, ?_, ?_, state_text_read readable⟩
    · simp [runScript, result, finished]
    · simp [runScript, result, finished]
  · intro server fresh id request line session method aimed found readable
    refine ⟨session.repository.toJson, ?_,
      reads_back (Repository.plain readable) (Repository.of_json_to_json readable)⟩
    have bodied : request.method ≠ "HEAD" := by
      rw [method]
      decide
    rw [Server.handle_aim, aimed, Server.serve_found server fresh .state line found, Request.finish,
      if_neg bodied]
    rfl

def farCommit : Commit :=
  ⟨"\x00", "\"\\\n", ⟨"Ana", ""⟩, Commit.highestTime, "main", some "a", some "", some "b", some "0000001"⟩

def scriptText : String := "git checkout -b dev\ngit add a\ngit commit -m 'a \"b\"'\n"

def scriptResult : Script.Result := Script.run true (.start {} .sequential) (Script.lines scriptText)

def farServer : Server := ⟨{}, none, fun _ => .sequential, [(⟨0⟩, scriptResult.session)]⟩

def stateRequest : Request := ⟨"GET", "/sessions/00000000-0000-0000-0000-000000000000/state", none, ""⟩

theorem far_commit_read_back :
    (farCommit.Readable ∧ Commit.ofJson (Json.read farCommit.toJson.compact) = .ok farCommit) ∧
    (scriptResult.session.repository.commits.length = 2 ∧
      ∃ document, runScript "script" scriptText true true (.start {} .sequential) =
          .success (scriptResult.output ++ document) ∧
        Repository.ofJson (Json.read document) = .ok scriptResult.session.repository) ∧
    ∃ body, (farServer.handle ⟨0⟩ stateRequest).1 = .ok body ∧
      Repository.ofJson (Json.read body.compact) = .ok scriptResult.session.repository := by
  obtain ⟨commits, _, _, _, _, _, _, states, gets⟩ := records_read_back
  have far : farCommit.Readable := by decide
  have readable : scriptResult.session.repository.Readable := by decide
  refine ⟨⟨far, (commits farCommit far).2.compact⟩, ⟨by decide, ?_⟩, ?_⟩
  · obtain ⟨document, _, printed, read⟩ :=
      states "script" scriptText true (.start {} .sequential) (by decide) readable
    exact ⟨document, printed, read⟩
  · obtain ⟨body, answered, read⟩ :=
      gets farServer ⟨0⟩ ⟨0⟩ stateRequest "" scriptResult.session rfl (by decide +kernel) rfl readable
    exact ⟨body, answered, read.compact⟩

end GitPractice
