import GitPractice.Proofs.Atomicity
import GitPractice.Proofs.ByteOrder
import GitPractice.Proofs.Frame
import GitPractice.Proofs.Signatures

set_option autoImplicit false

namespace GitPractice

/-- The value of the last write under a key. -/
def lastWritten? (writes : List (String × String)) (key : String) : Option String :=
  writes.reverse.lookup key

def builtIn : List (String × String) :=
  [("user.name", "Git Learner"), ("user.email", "learner@gitlearner.com")]

theorem last_written_iff (writes : List (String × String)) (key value : String) :
    lastWritten? writes key = some value ↔
      ∃ earlier later, writes = earlier ++ (key, value) :: later ∧ ∀ entry ∈ later, entry.1 ≠ key := by
  rw [lastWritten?, List.lookup_eq_some_iff]
  constructor
  · rintro ⟨later, earlier, whole, others⟩
    refine ⟨earlier.reverse, later.reverse, ?_, ?_⟩
    · rw [← List.reverse_reverse writes, whole]
      simp
    · intro entry present
      exact (bne_iff_ne.mp (others entry (List.mem_reverse.mp present))).symm
  · rintro ⟨earlier, later, whole, others⟩
    refine ⟨later.reverse, earlier.reverse, by simp [whole], ?_⟩
    intro entry present
    exact bne_iff_ne.mpr (others entry (List.mem_reverse.mp present)).symm

theorem last_written_of_mem {writes : List (String × String)} {key value : String}
    (written : (key, value) ∈ writes) : ∃ last, lastWritten? writes key = some last := by
  rw [← Option.isSome_iff_exists, lastWritten?, List.lookup_isSome_iff]
  exact ⟨(key, value), List.mem_reverse.mpr written, beq_self_eq_true key⟩

theorem last_written_append (earlier later : List (String × String)) (key : String) :
    lastWritten? (earlier ++ later) key = (lastWritten? later key).or (lastWritten? earlier key) := by
  rw [lastWritten?, List.reverse_append, List.lookup_append, lastWritten?, lastWritten?]

namespace Config

theorem overlay_append (config : Config) (earlier later : List (String × String)) :
    config.overlay (earlier ++ later) = (config.overlay earlier).overlay later :=
  List.foldl_append

theorem value_overlay (config : Config) (writes : List (String × String)) (key : String) :
    (config.overlay writes).value? key = (lastWritten? writes key).or (config.value? key) := by
  induction writes generalizing config with
  | nil => rfl
  | cons write rest ih =>
      obtain ⟨written, value⟩ := write
      rw [← List.singleton_append, overlay_append, ih, last_written_append, Option.or_assoc]
      congr 1
      by_cases same : key = written
      · rw [same]
        exact (value_set_same config written value).trans (by simp [lastWritten?])
      · have apart : (key == written) = false := by simpa using same
        exact (value_set_other config value same).trans (by simp [lastWritten?, apart])

theorem keys_ascending (config : Config) :
    (config.entries.map Prod.fst).Pairwise fun earlier later => Text.bytes earlier < Text.bytes later := by
  rw [List.pairwise_map]
  exact config.ascending.imp fun less => (Text.precedes_iff_bytes _ _).mp less

end Config

theorem Config.value_set_up (settings : Settings) (later : List (String × String)) (key : String) :
    (settings.config.overlay later).value? key =
      lastWritten? (builtIn ++ settings.git.entries ++ later) key := by
  have whole : settings.config.overlay later = empty.overlay (builtIn ++ settings.git.entries ++ later) := by
    rw [overlay_append, overlay_append]
    rfl
  rw [whole, value_overlay]
  exact Option.or_none

def Command.setting? : Command → Option (String × String)
  | .setConfig key value => some (key, value)
  | _ => none

def Event.setting? (event : Event) : Option (String × String) := event.command?.bind Command.setting?

namespace Session

variable (session : Session)

theorem run_config (command : Command) :
    (session.run command).2.config = session.config.overlay command.setting?.toList := by
  have kept : Part.config ∉ command.reach → (session.run command).2.config = session.config :=
    Action.of_command_kept session.settings session.toState command .config
  cases command with
  | setConfig key value => rfl
  | _ => exact kept (by simp [Command.reach])

theorem load_config (seed : Seed) : (session.load seed).2.config = session.config := by
  rw [load]
  split <;> rfl

theorem apply_config (event : Event) :
    (session.apply event).config = session.config.overlay event.setting?.toList := by
  cases apply_effect session event with
  | ran command asked state =>
      rw [Event.setting?, asked]
      exact (congrArg State.config state).trans (run_config session command)
  | loaded seed given =>
      rw [given]
      exact load_config session seed
  | idle asked state =>
      rw [Event.setting?, asked]
      exact congrArg State.config state

theorem after_config (course : List Event) :
    (session.after course).config = session.config.overlay (course.filterMap Event.setting?) := by
  induction course generalizing session with
  | nil => rfl
  | cons event rest ih =>
      have later := ih (session.apply event)
      rw [apply_config] at later
      refine later.trans ?_
      rw [← Config.overlay_append]
      cases set : event.setting? with
      | none => rw [List.filterMap_cons_none set, Option.toList_none, List.nil_append]
      | some write => rw [List.filterMap_cons_some set, Option.toList_some, List.singleton_append]

theorem unset_config {event : Event} (unset : event.setting? = none) :
    (session.apply event).config = session.config := by
  rw [apply_config, unset]
  rfl

theorem evaluate_failed_config {line : String} (failed : (session.evaluate line).1.isDone = false) :
    (session.evaluate line).2.config = session.config := by
  cases ended : (session.evaluate line).1 with
  | done text =>
      rw [ended] at failed
      exact absurd failed.symm Bool.false_ne_true
  | refused error => rw [evaluate_refused session line error ended]
  | interrupted reason => rw [evaluate_interrupted session line reason ended]

end Session

namespace Command

open Line

theorem parse_get {line key : String} {first second quoted : Bool}
    (tokens : tokenize line = [⟨"git", first⟩, ⟨"config", second⟩, ⟨key, quoted⟩])
    (plain : key ∉ ["--list", "-l", "--global", "--local"])
    (unasked : quoted = false → key ∉ ["--help", "-h"]) : parse line = .ok (.getConfig key) := by
  have silent : wantsHelp [⟨key, quoted⟩] = false := by
    cases quoted with
    | true => rfl
    | false => simpa [wantsHelp, isLongHelp, isShortHelp] using unasked rfl
  rw [parse_known .config tokens silent]
  simp only [List.mem_cons, List.not_mem_nil, or_false, not_or] at plain
  simp [read, readConfig, listWords, scopeWords, plain]

/-- What follows the key is its value, in one piece, with or without a scope in front of the key. -/
theorem parse_set {line : String} {first second : Bool} {scope rest : List Token} {key value : Token}
    (tokens : tokenize line = ⟨"git", first⟩ :: ⟨"config", second⟩ :: (scope ++ key :: value :: rest))
    (placed : scope = [] ∧ key.text ∉ ["--list", "-l", "--global", "--local"] ∨
      ∃ word, scope = [word] ∧ word.text ∈ ["--global", "--local"])
    (silent : wantsHelp (scope ++ key :: value :: rest) = false) :
    parse line = .ok (.setConfig key.text (joined (value :: rest))) := by
  rw [parse_known .config tokens silent]
  rcases placed with ⟨rfl, plain⟩ | ⟨word, rfl, isScope⟩
  · simp only [List.mem_cons, List.not_mem_nil, or_false, not_or] at plain
    simp [read, readConfig, listWords, scopeWords, plain]
  · have apart : ∀ text ∈ scopeWords, text ∉ listWords := by decide
    have isScope : word.text ∈ scopeWords := isScope
    simp [read, readConfig, readScopedConfig, apart word.text isScope, isScope]

end Command

namespace Session

variable {session : Session}

theorem evaluate_get {line key : String} (asked : Command.parse line = .ok (.getConfig key)) :
    session.evaluate line =
      (match session.config.get? key with
        | some value => .done value
        | none => .refused (.unsetKey key), session) := by
  rw [evaluate_asks asked rfl, Answer.setting]
  cases session.config.get? key with
  | none => rfl
  | some value => rfl

theorem evaluate_list {line : String} (asked : Command.parse line = .ok .listConfig)
    (filled : session.config.entries ≠ []) :
    session.evaluate line = (.done ("\n".intercalate (session.config.entries.map fun entry =>
      entry.1 ++ "=" ++ entry.2)), session) := by
  have asks : Action.ofCommand session.settings .listConfig =
      .ask fun state => .ok (Listing.config state.config) := rfl
  simp only [evaluate_asks asked asks, Listing.config]

theorem last_write_wins (settings : Settings) (ids : IdSource) (course : List Event) :
    let session := (start settings ids).after course
    let writes := builtIn ++ settings.git.entries ++ course.filterMap Event.setting?
    session.config =
      (Config.defaults.overlay settings.git.entries).overlay (course.filterMap Event.setting?) ∧
    (∀ line first second scope (key value : Line.Token) rest,
      Line.tokenize line = ⟨"git", first⟩ :: ⟨"config", second⟩ :: (scope ++ key :: value :: rest) →
      (scope = [] ∧ key.text ∉ ["--list", "-l", "--global", "--local"] ∨
        ∃ word, scope = [word] ∧ word.text ∈ ["--global", "--local"]) →
      Command.wantsHelp (scope ++ key :: value :: rest) = false →
      (Event.evaluated line).setting? = some (key.text, Line.joined (value :: rest))) ∧
    (∀ event, event.setting? = none → (session.apply event).config = session.config) ∧
    (∀ line, (session.evaluate line).1.isDone = false →
      (session.evaluate line).2.config = session.config) ∧
    (∀ line, (∃ entry ∈ (session.execute line).1, entry.isError = true) →
      (session.execute line).2.config = session.config) ∧
    (∀ line key first second quoted,
      Line.tokenize line = [⟨"git", first⟩, ⟨"config", second⟩, ⟨key, quoted⟩] →
      key ∉ ["--list", "-l", "--global", "--local"] → (quoted = false → key ∉ ["--help", "-h"]) →
      session.evaluate line =
        (match (lastWritten? writes key).filter (· != "") with
          | some value => .done value
          | none => .refused (.unsetKey key), session)) ∧
    (∀ line, Command.parse line = .ok .listConfig →
      session.evaluate line = (.done ("\n".intercalate (session.config.entries.map fun entry =>
        entry.1 ++ "=" ++ entry.2)), session)) ∧
    (session.config.entries.map Prod.fst).Pairwise (fun earlier later =>
      Text.bytes earlier < Text.bytes later) ∧
    (∀ key value, (key, value) ∈ session.config.entries ↔
      ∃ earlier later, writes = earlier ++ (key, value) :: later ∧ ∀ entry ∈ later, entry.1 ≠ key) ∧
    (∀ event command commit, event.command? = some command →
      (∀ message author, command ≠ .commit message (some author)) →
      (session.apply event).repository.commits = session.repository.commits ++ [commit] →
      commit.signature.name =
          ((lastWritten? writes "user.name").filter (· != "")).getD "Git Learner" ∧
        commit.signature.email =
          ((lastWritten? writes "user.email").filter (· != "")).getD "learner@gitlearner.com") := by
  intro session writes
  have config : session.config = settings.config.overlay (course.filterMap Event.setting?) :=
    after_config (start settings ids) course
  have value (key : String) : session.config.value? key = lastWritten? writes key := by
    rw [config]
    exact Config.value_set_up settings _ key
  have present (key text : String) :
      (key, text) ∈ session.config.entries ↔ lastWritten? writes key = some text := by
    rw [Config.mem_entries_iff, value]
  refine ⟨config, ?_, fun _ => unset_config session, fun _ => evaluate_failed_config session,
    fun line failed => (execute_failed session line failed).2, ?_, ?_, session.config.keys_ascending,
    fun key value => (present key value).trans (last_written_iff writes key value), ?_⟩
  · intro line first second scope key value rest tokens placed silent
    rw [Event.setting?, Event.command?, Command.parse_set tokens placed silent]
    rfl
  · intro line key first second quoted tokens plain unasked
    rw [evaluate_get (Command.parse_get tokens plain unasked), Config.get?, value]
  · intro line asked
    refine evaluate_list asked ?_
    have written : ("user.name", "Git Learner") ∈ writes := by
      simp [writes, builtIn]
    obtain ⟨name, named⟩ := last_written_of_mem written
    exact List.ne_nil_of_mem ((present "user.name" name).mpr named)
  · intro event command commit asked unauthored appended
    have typed : ∀ seed, event ≠ .loaded seed := by
      rintro seed rfl
      cases asked
    obtain ⟨other, otherAsked, signed⟩ := appended_signed session typed appended
    rw [asked] at otherAsked
    cases otherAsked
    rw [signed, Command.signature_unauthored _ unauthored, ← value, ← value]
    exact ⟨rfl, rfl⟩

def addressed : Settings := { git := Config.empty.set "user.email" "ada@gitlearner.com" }

def configuredCourse : List Event :=
  [.evaluated "git config --global user.name ''", .loaded { branches := ["main"] },
   .typed "git config ui  never  again"]

theorem configured_last_writes :
    let session := (start addressed .sequential).after configuredCourse
    (Event.evaluated "git config --global user.name ''").setting? = some ("user.name", "") ∧
      (session.apply (.typed "git init")).config = session.config ∧
      (session.evaluate "git config user.nick").2.config = session.config ∧
      (session.execute "git config").2.config = session.config ∧
      session.evaluate "git config ui" = (.done "never again", session) ∧
      session.evaluate "git config user.name" = (.refused (.unsetKey "user.name"), session) ∧
      session.evaluate "git config -l" =
        (.done "ui=never again\nuser.email=ada@gitlearner.com\nuser.name=", session) ∧
      ∃ commit, (session.apply (.typed "git checkout -b dev")).repository.commits = [commit] ∧
        commit.signature.name = "Git Learner" ∧ commit.signature.email = "ada@gitlearner.com" := by
  obtain ⟨_, written, unset, failed, failedTyped, got, listed, _, _, signed⟩ :=
    last_write_wins addressed .sequential configuredCourse
  refine ⟨?_, ?_, ?_, ?_, ?_, ?_, ?_, ?_⟩
  · exact written "git config --global user.name ''" false false [⟨"--global", false⟩] ⟨"user.name", false⟩
      ⟨"", true⟩ [] (by decide) (.inr ⟨_, rfl, by decide⟩) (by decide)
  · exact unset _ rfl
  · exact failed _ (by decide +kernel)
  · exact failedTyped _ (by decide +kernel)
  · exact got "git config ui" "ui" false false false (by decide) (by decide) (by decide)
  · exact got "git config user.name" "user.name" false false false (by decide) (by decide) (by decide)
  · have entries : ((start addressed .sequential).after configuredCourse).config.entries =
        [("ui", "never again"), ("user.email", "ada@gitlearner.com"), ("user.name", "")] := by
      decide +kernel
    have printed := listed "git config -l" rfl
    rw [entries] at printed
    exact printed
  · have appended : (((start addressed .sequential).after configuredCourse).apply
        (.typed "git checkout -b dev")).repository.commits =
          ((start addressed .sequential).after configuredCourse).repository.commits ++
            [⟨"0000001", "Branch from main", ⟨"Git Learner", "ada@gitlearner.com"⟩, 1640995200000, "dev",
              none, none, some "main", none⟩] := by
      decide +kernel
    exact ⟨_, appended, signed _ (.checkoutNew "dev") _ rfl (by simp) appended⟩

theorem manual_page_for_key :
    "--help" ∉ ["--list", "-l", "--global", "--local"] ∧
      Line.tokenize "git config --help" = [⟨"git", false⟩, ⟨"config", false⟩, ⟨"--help", false⟩] ∧
      (lastWritten? builtIn "--help").filter (· != "") = none ∧
      ((start {} .sequential).evaluate "git config --help").1 ≠ .refused (.unsetKey "--help") := by
  refine ⟨by decide, by decide, by decide, ?_⟩
  decide

end Session

end GitPractice
