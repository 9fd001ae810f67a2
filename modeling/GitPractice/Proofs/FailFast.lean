import Mathlib.Data.Nat.Find
import GitPractice.Proofs.Atomicity
import GitPractice.Proofs.FrontEnds

set_option autoImplicit false

namespace GitPractice

theorem printed_failure {entry : Entry} (isError : entry.isError = true) (line : String) (earlier : List Entry) :
    printedAll (earlier ++ [Entry.echo line, entry]) =
      printedAll earlier ++ ("$ " ++ line ++ "\n") ++ (entry.message ++ "\n") := by
  have kind : entry.kind = .error := by simpa [Entry.isError] using isError
  rw [printed_all_append, ← String.toList_inj]
  simp [printed_all_to_list, Entry.printed, Entry.echo, kind]

namespace Script

def fails (session : Session) (line : String) : Bool := (session.execute line).1.any Entry.isError

def Passes : Session → List String → Prop
  | _, [] => True
  | session, line :: rest => fails session line = false ∧ Passes (session.execute line).2 rest

/-- The line at a place of a text fails, after the lines before it have been run. -/
def FailsAt (session : Session) (texts : List String) (place : Nat) : Prop :=
  ∃ text ∈ texts[place]?, isRun (Text.trimmed text) = true ∧
    fails (session.executeAll (commands (texts.take place))) (Text.trimmed text) = true

instance (session : Session) (texts : List String) (place : Nat) : Decidable (FailsAt session texts place) :=
  inferInstanceAs (Decidable (∃ text ∈ texts[place]?, _))

def FailsFirstAt (session : Session) (texts : List String) (place : Nat) : Prop :=
  FailsAt session texts place ∧ ∀ earlier < place, ¬ FailsAt session texts earlier

instance (session : Session) (texts : List String) (place : Nat) : Decidable (FailsFirstAt session texts place) :=
  inferInstanceAs (Decidable (_ ∧ ∀ earlier < place, _))

section
variable {session : Session}

theorem passes_append {earlier later : List String} :
    Passes session (earlier ++ later) ↔ Passes session earlier ∧ Passes (session.executeAll earlier) later := by
  induction earlier generalizing session with
  | nil => simp [Passes, Session.executeAll]
  | cons line rest ih =>
      have first : session.executeAll (line :: rest) = (session.execute line).2.executeAll rest := rfl
      rw [List.cons_append, Passes, Passes, ih, and_assoc, first]

theorem passes_one {line : String} : Passes session [line] ↔ fails session line = false := by
  rw [Passes, Passes, and_true]

theorem passes_take {texts : List String} {place : Nat} :
    Passes session (commands (texts.take place)) ↔ ∀ earlier < place, ¬ FailsAt session texts earlier := by
  induction place with
  | zero => simp [commands, Passes]
  | succ place ih =>
      have last : Passes (session.executeAll (commands (texts.take place))) (commands texts[place]?.toList) ↔
          ¬ FailsAt session texts place := by
        rw [FailsAt]
        cases texts[place]? with
        | none => simp [commands, Passes]
        | some text =>
            cases run : isRun (Text.trimmed text) with
            | false => simp [commands, run, Passes]
            | true => simp [commands, run, passes_one]
      rw [List.take_add_one, commands_append, passes_append, ih, last, Nat.forall_lt_succ_right]

theorem fails_first {texts : List String} (failing : ∃ place, FailsAt session texts place) :
    ∃ place, FailsFirstAt session texts place :=
  ⟨Nat.find failing, Nat.find_spec failing, fun _ => Nat.find_min failing⟩

theorem passes_iff {texts : List String} :
    Passes session (commands texts) ↔ ∀ place, ¬ FailsAt session texts place := by
  have taken : Passes session (commands (texts.take texts.length)) ↔
      ∀ place < texts.length, ¬ FailsAt session texts place := passes_take
  rw [List.take_length] at taken
  rw [taken]
  refine ⟨fun fine place failing => ?_, fun fine place _ => fine place⟩
  obtain ⟨text, found, failed⟩ := failing
  obtain ⟨bound, _⟩ := List.getElem?_eq_some_iff.mp found
  exact fine place bound ⟨text, found, failed⟩

theorem passes_told (session : Session) (lines : List String) :
    ∃ entries, (session.executeAll lines).transcript = session.transcript.append entries ∧
      (Passes session lines ↔ ∀ entry ∈ entries, ¬ entry.isError = true) := by
  induction lines generalizing session with
  | nil => exact ⟨[], by simp [Session.executeAll, Transcript.append], by simp [Passes]⟩
  | cons line rest ih =>
      obtain ⟨entries, later, fine⟩ := ih (session.execute line).2
      refine ⟨(session.execute line).1 ++ entries, Session.execute_all_transcript session later, ?_⟩
      rw [Passes, fine, fails, List.any_eq_false, List.forall_mem_append]

theorem fails_iff_told (empty : session.transcript = {}) {texts : List String} :
    (∃ place, FailsAt session texts place) ↔
      ∃ entry ∈ (session.executeAll (commands texts)).transcript.entries, entry.isError = true := by
  obtain ⟨entries, whole, fine⟩ := passes_told session (commands texts)
  rw [empty, Transcript.append, List.nil_append] at whole
  rw [whole, ← not_iff_not, not_exists, ← passes_iff, fine]
  simp

theorem run_passing {script : List (Nat × String)} (passes : Passes session (script.map Prod.snd)) (failFast : Bool)
    (rest : List (Nat × String)) :
    run failFast session (script ++ rest) =
      let later := run failFast (session.executeAll (script.map Prod.snd)) rest
      ⟨(run false session script).output ++ later.output, later.session, later.stopped⟩ := by
  induction script generalizing session with
  | nil => simp [run, Session.executeAll]
  | cons line script ih =>
      obtain ⟨fine, others⟩ := passes
      have goesOn : (failFast && (session.execute line.2).1.any Entry.isError) = false := by
        rw [show (session.execute line.2).1.any Entry.isError = false from fine, Bool.and_false]
      simp only [List.cons_append, run, goesOn, ih others, Bool.false_and, Bool.false_eq_true, if_false,
        String.append_assoc]
      rfl

theorem run_unstopped {script : List (Nat × String)} (passes : Passes session (script.map Prod.snd)) :
    run true session script = run false session script := by
  have stops := run_passing passes true []
  have goesOn := run_passing passes false []
  rw [List.append_nil] at stops goesOn
  exact stops.trans goesOn.symm

theorem run_stopped {earlier : List (Nat × String)} {line : String}
    (passes : Passes session (earlier.map Prod.snd))
    (failing : fails (session.executeAll (earlier.map Prod.snd)) line = true) (number : Nat)
    (later : List (Nat × String)) :
    let ran := (session.executeAll (earlier.map Prod.snd)).execute line
    run true session (earlier ++ (number, line) :: later) =
      ⟨(run false session earlier).output ++ printedAll ran.1, ran.2, some (number, line)⟩ := by
  intro ran
  have stops : (true && ran.1.any Entry.isError) = true := failing
  have stopped : run true (session.executeAll (earlier.map Prod.snd)) ((number, line) :: later) =
      ⟨printedAll ran.1, ran.2, some (number, line)⟩ := by
    rw [run, if_pos stops]
  rw [run_passing passes true, stopped]

theorem run_beginning (session : Session) (script : List (Nat × String)) :
    ∃ rest, (run false session script).output = (run true session script).output ++ rest := by
  induction script generalizing session with
  | nil => exact ⟨"", rfl⟩
  | cons line script ih =>
      obtain ⟨rest, longer⟩ := ih (session.execute line.2).2
      cases failing : (session.execute line.2).1.any Entry.isError with
      | true =>
          refine ⟨(run false (session.execute line.2).2 script).output, ?_⟩
          simp only [run, failing, Bool.true_and, Bool.false_and, Bool.false_eq_true, if_true, if_false]
      | false =>
          refine ⟨rest, ?_⟩
          simp only [run, failing, longer, Bool.and_false, Bool.false_eq_true, if_false, String.append_assoc]

/-- What is left behind by a line that fails: its echo, one error, and the repository as it was. -/
theorem fails_told {line : String} (failing : fails session line = true) :
    ∃ entry, entry.isError = true ∧ (session.execute line).1 = [Entry.echo (Text.trimmed line), entry] ∧
      (session.execute line).2.repository = session.repository := by
  have kept := (Session.execute_failed session line (List.any_eq_true.mp failing)).1
  cases filled : Text.isBlankText line with
  | true =>
      rw [fails, Session.execute_blank session filled] at failing
      cases failing
  | false =>
      obtain ⟨entry, _, told⟩ := Session.execute_told session filled
      rw [fails, told] at failing
      exact ⟨entry, by simpa [Entry.isError, Entry.echo] using failing, told, kept⟩

theorem lines_split {text raw : String} {place : Nat} (found : (linesOf text)[place]? = some raw)
    (runs : isRun (Text.trimmed raw) = true) :
    ∃ later, Script.lines text =
      numbered 1 ((linesOf text).take place) ++ (place + 1, Text.trimmed raw) :: later := by
  obtain ⟨bound, here⟩ := List.getElem?_eq_some_iff.mp found
  have split : linesOf text = (linesOf text).take place ++ raw :: (linesOf text).drop (place + 1) := by
    rw [← here, ← List.drop_eq_getElem_cons bound, List.take_append_drop]
  have counted : 1 + ((linesOf text).take place).length = place + 1 := by
    rw [List.length_take_of_le (Nat.le_of_lt bound), Nat.add_comm]
  have listed := numbered_split runs ((linesOf text).take place) ((linesOf text).drop (place + 1)) 1
  rw [← split, counted] at listed
  exact ⟨_, listed⟩

theorem run_first_failure (empty : session.transcript = {}) {text : String} {place : Nat}
    (failing : FailsFirstAt session (linesOf text) place) :
    ∃ line entry, (linesOf text)[place]?.map Text.trimmed = some line ∧ entry.isError = true ∧
      let before := session.executeAll (commands ((linesOf text).take place))
      (before.execute line).1 = [Entry.echo line, entry] ∧
      (before.execute line).2.repository = before.repository ∧
      run true session (Script.lines text) =
        ⟨printedAll (before.transcript.entries ++ [Entry.echo line, entry]), (before.execute line).2,
          some (place + 1, line)⟩ := by
  obtain ⟨⟨raw, found, runs, fails⟩, first⟩ := failing
  obtain ⟨entry, isError, told, kept⟩ := fails_told fails
  rw [trimmed_trimmed] at told
  obtain ⟨later, split⟩ := lines_split found runs
  have commanded := numbered_commands ((linesOf text).take place) 1
  have passes := passes_take.mpr first
  rw [← commanded] at passes fails
  obtain ⟨entries, whole, ran⟩ := run_through session (numbered 1 ((linesOf text).take place))
  have stops := run_stopped passes fails (place + 1) later
  rw [commanded, empty, Transcript.append, List.nil_append] at whole
  rw [ran, commanded] at stops
  refine ⟨Text.trimmed raw, entry, by rw [found, Option.map_some], isError, told, kept, ?_⟩
  rw [split, whole, printed_all_append, ← told]
  exact stops

end

end Script

namespace CommandLine

section
variable {session : Session} (name text : String)

theorem run_script_unstopped (fine : ∀ place, ¬ Script.FailsAt session (Script.linesOf text) place) :
    runScript name text true false session = runScript name text false false session := by
  have passes := Script.passes_iff.mpr fine
  rw [← Script.numbered_commands _ 1] at passes
  have same : Script.run true session (Script.lines text) = Script.run false session (Script.lines text) :=
    Script.run_unstopped passes
  rw [runScript, runScript, same]

theorem run_script_stopped (empty : session.transcript = {}) {place : Nat}
    (failing : Script.FailsFirstAt session (Script.linesOf text) place) :
    ∃ line entry, (Script.linesOf text)[place]?.map Text.trimmed = some line ∧ entry.isError = true ∧
      let before := session.executeAll (Script.commands ((Script.linesOf text).take place))
      let result := Script.run true session (Script.lines text)
      (before.execute line).1 = [Entry.echo line, entry] ∧
      runScript name text true false session =
        .failure
          (printedAll before.transcript.entries ++ ("$ " ++ line ++ "\n") ++ (entry.message ++ "\n"))
          (name ++ ":" ++ toString (place + 1) ++ ": command failed: " ++ line) ∧
      result.stopped = some (place + 1, line) ∧ result.session.repository = before.repository := by
  obtain ⟨line, entry, found, isError, told, kept, stopped⟩ := Script.run_first_failure empty failing
  refine ⟨line, entry, found, isError, told, ?_, by rw [stopped], by rw [stopped, kept]⟩
  rw [runScript, stopped, ← printed_failure isError]

theorem run_script_output (session : Session) (failFast : Bool) :
    (runScript name text failFast false session).output =
      (Script.run failFast session (Script.lines text)).output := by
  rw [runScript]
  cases (Script.run failFast session (Script.lines text)).stopped with
  | none => exact String.append_empty
  | some line => rfl

theorem run_script_code (empty : session.transcript = {}) :
    (runScript name text true false session).code = 1 ↔
      ∃ place, Script.FailsAt session (Script.linesOf text) place := by
  constructor
  · intro failed
    by_contra fine
    rw [run_script_unstopped name text (not_exists.mp fine), run_script_commands empty] at failed
    cases failed
  · intro failing
    obtain ⟨place, first⟩ := Script.fails_first failing
    obtain ⟨_, _, _, _, _, ends, _⟩ := run_script_stopped name text empty first
    rw [ends]
    rfl

end

end CommandLine

theorem fail_fast_stops (settings : Settings) (seed : Option Seed) (valid : ∀ own ∈ seed, own.Valid) (text : String) :
    ∃ session, Session.standalone settings .sequential seed = (.done (), session) ∧
      ∀ (surroundings : CommandLine.Surroundings) (options : CommandLine.Options) (patient hasty : List String)
          (name input : String),
        options.deterministic = true →
        CommandLine.loadSettings surroundings options = .ok settings →
        CommandLine.loadSeed surroundings options = .ok seed →
        surroundings.file name = .readable text →
        CommandLine.parse patient = some (.task options (.run name false false)) →
        CommandLine.parse hasty = some (.task options (.run name true false)) →
        let lines := Script.linesOf text
        let whole := (CommandLine.start surroundings patient).finish input
        let stopped := (CommandLine.start surroundings hasty).finish input
        whole = .success (printedAll (session.executeAll (Script.commands lines)).transcript.entries) ∧
        (∃ rest, whole.output = stopped.output ++ rest) ∧
        (stopped.code = 1 ↔ ∃ place, Script.FailsAt session lines place) ∧
        ((∃ place, Script.FailsAt session lines place) ↔
          ∃ entry ∈ (session.executeAll (Script.commands lines)).transcript.entries, entry.isError = true) ∧
        ((∀ place, ¬ Script.FailsAt session lines place) → stopped = whole) ∧
        ∀ place, Script.FailsFirstAt session lines place →
          ∃ line entry, lines[place]?.map Text.trimmed = some line ∧ entry.isError = true ∧
            let before := session.executeAll (Script.commands (lines.take place))
            let result := Script.run true session (Script.lines text)
            (before.execute line).1 = [Entry.echo line, entry] ∧
            stopped = .failure
              (printedAll before.transcript.entries ++ ("$ " ++ line ++ "\n") ++ (entry.message ++ "\n"))
              (name ++ ":" ++ toString (place + 1) ++ ": command failed: " ++ line) ∧
            result.stopped = some (place + 1, line) ∧ result.session.repository = before.repository := by
  have steady : IdSource.sequential.Steady := fun place => ⟨_, rfl⟩
  obtain ⟨session, alone⟩ := Session.standalone_done settings steady valid
  have empty := Session.standalone_transcript settings .sequential seed
  rw [alone] at empty
  refine ⟨session, alone, ?_⟩
  intro surroundings options patient hasty name input deterministic settled seeded found asked hurried lines whole
    stopped
  have runs (failFast : Bool) :=
    CommandLine.run_file_prepared alone deterministic settled seeded found failFast false
  have patiently : whole = CommandLine.runScript name text false false session := by
    simp only [whole, CommandLine.start, asked, CommandLine.begin, CommandLine.Work.finish, runs]
  have hastily : stopped = CommandLine.runScript name text true false session := by
    simp only [stopped, CommandLine.start, hurried, CommandLine.begin, CommandLine.Work.finish, runs]
  have through := CommandLine.run_script_commands empty name text false
  simp only [Bool.false_eq_true, if_false, String.append_empty] at through
  rw [hastily, patiently, CommandLine.run_script_output, CommandLine.run_script_output]
  exact ⟨through, Script.run_beginning session _, CommandLine.run_script_code name text empty,
    Script.fails_iff_told empty, CommandLine.run_script_unstopped name text,
    fun place first => CommandLine.run_script_stopped name text empty first⟩

def failingText : String := "# start\r\n\r\n  git merge dev \r\n\tgit checkout\r\n#git push\ngit commit\n"

def failingFile (name : String) : Document := if name = "lines" then .readable failingText else sharedFile name

def failingFiles : CommandLine.Surroundings := ⟨failingFile, fun _ => .scattered 0⟩

theorem failing_seed_loaded : CommandLine.loadSeed failingFiles sharedOptions = .ok (some sharedSeed) := by
  have same : failingFiles.file "seed.json" = sharedFiles.file "seed.json" := by
    change failingFile "seed.json" = _
    rw [failingFile, if_neg (by decide)]
    rfl
  have loaded := shared_seed_loaded
  simp only [CommandLine.loadSeed, sharedOptions, same] at loaded ⊢
  exact loaded

theorem fail_fast_stops_fourth :
    ∃ session, Session.standalone {} .sequential (some sharedSeed) = (.done (), session) ∧
      Script.FailsFirstAt session (Script.linesOf failingText) 3 ∧
      ∃ output, (CommandLine.start failingFiles
            ["--deterministic", "run", "lines", "--fail-fast", "-s", "seed.json"]).finish "" =
          .failure (output ++ "$ git checkout\n" ++ "error: you must specify a branch to checkout\n")
            "lines:4: command failed: git checkout" ∧
        ((CommandLine.start failingFiles ["--deterministic", "run", "lines", "-s", "seed.json"]).finish "").code = 0 ∧
        (Script.run true session (Script.lines failingText)).session.repository =
          (session.execute "git merge dev").2.repository := by
  have valid : sharedSeed.Valid := ⟨by decide, ⟨"main", by decide, rfl⟩, by decide⟩
  obtain ⟨session, alone, onFiles⟩ := fail_fast_stops {} (some sharedSeed) (by simpa using valid) failingText
  have opened : session = (Session.standalone {} .sequential (some sharedSeed)).2 := by rw [alone]
  have split : Script.linesOf failingText =
      ["# start\r", "\r", "  git merge dev \r", "\tgit checkout\r", "#git push", "git commit", ""] := by
    decide +kernel
  have first : Script.FailsFirstAt session (Script.linesOf failingText) 3 := by
    rw [opened, split]
    decide +kernel
  obtain ⟨whole, _, _, _, _, stops⟩ := onFiles failingFiles sharedOptions
    ["--deterministic", "run", "lines", "-s", "seed.json"]
    ["--deterministic", "run", "lines", "--fail-fast", "-s", "seed.json"] "lines" "" rfl rfl failing_seed_loaded rfl
    (by decide) (by decide)
  obtain ⟨line, entry, found, _, told, ends, _, kept⟩ := stops 3 first
  have fourth : (Script.linesOf failingText)[3]?.map Text.trimmed = some "git checkout" := by
    rw [split]
    decide
  cases fourth.symm.trans found
  have before : Script.commands ((Script.linesOf failingText).take 3) = ["git merge dev"] := by
    rw [split]
    decide
  have refused : ((session.executeAll ["git merge dev"]).execute "git checkout").1 =
      [Entry.echo "git checkout", ⟨"error: you must specify a branch to checkout", .error⟩] := by
    rw [opened]
    decide +kernel
  rw [before, refused] at told
  cases told
  refine ⟨session, alone, first, _, ends, ?_, ?_⟩
  · rw [whole]
    rfl
  · rw [kept, before]
    rfl

end GitPractice
