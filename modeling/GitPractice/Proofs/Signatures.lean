import GitPractice.Proofs.Grammar
import GitPractice.Proofs.Step

set_option autoImplicit false

namespace GitPractice

def Signature.Filled (signature : Signature) : Prop := signature.name ≠ "" ∧ signature.email ≠ ""

theorem Config.get_filled (config : Config) {key fallback : String} (filled : fallback ≠ "") :
    (config.get? key).getD fallback ≠ "" := by
  cases found : config.get? key with
  | none => exact filled
  | some value =>
      rw [get?, Option.filter_eq_some_iff] at found
      exact bne_iff_ne.mp found.2

theorem Config.signature_filled (config : Config) : config.signature.Filled :=
  ⟨config.get_filled (by decide), config.get_filled (by decide)⟩

theorem Author.sign_name (author : Author) {fallback : Signature} (filled : fallback.Filled) :
    (author.sign fallback).name ≠ "" := by
  rw [sign]
  by_cases unnamed : author.name = ""
  · simpa only [if_pos unnamed] using filled.1
  · simpa only [if_neg unnamed] using unnamed

theorem Author.sign_email (author : Author) {fallback : Signature} (filled : fallback.Filled) :
    (author.sign fallback).email = "" ↔ author.email = some "" := by
  rw [sign]
  cases author.email with
  | none => simpa using filled.2
  | some email => simp

namespace Command

def signature (configured : Signature) : Command → Signature
  | .commit _ author => Plan.commitSignature configured author
  | _ => configured

/-- A commit whose author is given with an empty pair of brackets. -/
def Addressless (command : Command) : Prop :=
  ∃ message name, command = .commit message (some ⟨name, some ""⟩)

theorem signature_unauthored (configured : Signature) {command : Command}
    (unauthored : ∀ message author, command ≠ .commit message (some author)) :
    command.signature configured = configured := by
  cases command with
  | commit message author =>
      cases author with
      | none => rfl
      | some author => exact absurd rfl (unauthored message author)
  | _ => rfl

theorem signature_name (command : Command) {configured : Signature} (filled : configured.Filled) :
    (command.signature configured).name ≠ "" := by
  cases command with
  | commit message author =>
      cases author with
      | none => exact filled.1
      | some author => exact author.sign_name filled
  | _ => exact filled.1

theorem signature_email (command : Command) {configured : Signature} (filled : configured.Filled) :
    (command.signature configured).email = "" ↔ command.Addressless := by
  by_cases authored : ∃ message author, command = .commit message (some author)
  · obtain ⟨message, author, rfl⟩ := authored
    refine (author.sign_email filled).trans ?_
    constructor
    · intro empty
      exact ⟨message, author.name, by rw [← empty]⟩
    · rintro ⟨_, _, same⟩
      cases same
      rfl
  · have plain : command.signature configured = configured :=
      signature_unauthored configured fun message author same => authored ⟨message, author, same⟩
    rw [plain]
    refine iff_of_false filled.2 ?_
    rintro ⟨message, name, same⟩
    exact authored ⟨message, _, same⟩

end Command

namespace Plan

def SignedBy (signature : Signature) : Plan → Prop
  | .record draft _ _ => draft.signature = signature
  | .refuse _ | .answer _ | .change _ _ | .configure _ _ _ => True

theorem choice_signed {signature : Signature} {condition : Prop} [Decidable condition] {plan other : Plan}
    (signed : plan.SignedBy signature) (otherSigned : other.SignedBy signature) :
    (if condition then plan else other).SignedBy signature := by
  split
  · exact signed
  · exact otherSigned

section
variable (signature : Signature) (repository : Repository)

theorem of_except_signed (answer : Except Error String) : (ofExcept answer).SignedBy signature := by
  cases answer with
  | ok text => trivial
  | error error => trivial

theorem merge_signed (source target : Option String) :
    (merge signature repository source target).SignedBy signature := by
  simp only [merge]
  split
  · trivial
  · cases source with
    | none => trivial
    | some source =>
        exact choice_signed (choice_signed trivial (choice_signed trivial rfl)) trivial

theorem add_paths_signed (paths : List String) : (addPaths repository paths).SignedBy signature := by
  cases paths with
  | nil => trivial
  | cons path more => trivial

end

theorem of_command_signed (settings : Settings) (config : Config) (repository : Repository)
    (command : Command) :
    (ofCommand settings config repository command).SignedBy (command.signature config.signature) := by
  cases command with
  | help topic => exact of_except_signed _ _
  | commit message author => exact choice_signed trivial rfl
  | checkoutNew branch => exact choice_signed trivial rfl
  | checkout branch => exact choice_signed trivial trivial
  | merge source target => exact merge_signed _ repository source target
  | rebase base => exact choice_signed (choice_signed trivial rfl) trivial
  | addPaths paths => exact add_paths_signed _ repository paths
  | createBranch branch => exact choice_signed trivial trivial
  | deleteBranch branch => exact choice_signed trivial (choice_signed trivial trivial)
  | getConfig key => exact of_except_signed _ _
  | log oneline graph => exact of_except_signed _ _
  | display revision => exact of_except_signed _ _
  | init | addAll | status | listBranches | push _ _ | pull _ _ | fetch | diff | listConfig
  | setConfig _ _ => trivial

end Plan

namespace Session

/-- What an event does to the history, and under which signature it records. -/
inductive Growth (session : Session) (event : Event) : Prop where
  | kept (commits : (session.apply event).repository.commits = session.repository.commits)
  | emptied (commits : (session.apply event).repository.commits = [])
  | recorded (command : Command) (commit : Commit) (asked : event.command? = some command)
      (commits : (session.apply event).repository.commits = session.repository.commits ++ [commit])
      (signed : commit.signature = command.signature session.config.signature)
  | loaded (seed : Seed) (given : event = .loaded seed)

variable (session : Session)

theorem run_growth (command : Command) :
    (session.run command).2.repository.commits = session.repository.commits ∨
      (session.run command).2.repository.commits = [] ∨
      ∃ commit, (session.run command).2.repository.commits = session.repository.commits ++ [commit] ∧
        commit.signature = command.signature session.config.signature := by
  have signed := Plan.of_command_signed session.settings session.config session.repository command
  have admissible := Plan.of_command_admissible session.settings session.config session.repository command
  rw [run, conduct, Action.of_command_planned]
  cases plan : Plan.ofCommand session.settings session.config session.repository command with
  | refuse error => exact .inl rfl
  | answer text => exact .inl rfl
  | configure text key value => exact .inl rfl
  | change text repository =>
      rw [plan] at admissible
      cases admissible with
      | reset text asked => exact .inr (.inl rfl)
      | relabel text onto kept sound => exact .inl kept
  | record draft onto report =>
      rw [plan] at admissible signed
      cases admissible with
      | record draft onto report kept sound here sourced =>
          cases drawn : session.ids.peek with
          | interrupted reason => exact .inl (by simp only [Plan.carryOut, drawn])
          | id id =>
              refine .inr (.inr ⟨Plan.recorded draft onto id, ?_, signed⟩)
              simp only [Plan.carryOut, drawn, Repository.append, kept]

theorem apply_growth (event : Event) : Growth session event := by
  cases apply_effect session event with
  | ran command asked state =>
      have same := congrArg (fun state => state.repository.commits) state
      rcases run_growth session command with kept | emptied | ⟨commit, appended, signed⟩
      · exact .kept (same.trans kept)
      · exact .emptied (same.trans emptied)
      · exact .recorded command commit asked (same.trans appended) signed
  | loaded seed given => exact .loaded seed given
  | idle asked state => exact .kept (congrArg (fun state => state.repository.commits) state)

theorem appended_signed {event : Event} {commit : Commit} (typed : ∀ seed, event ≠ .loaded seed)
    (appended : (session.apply event).repository.commits = session.repository.commits ++ [commit]) :
    ∃ command, event.command? = some command ∧
      commit.signature = command.signature session.config.signature := by
  cases apply_growth session event with
  | kept commits =>
      rw [commits] at appended
      exact absurd appended (by simp)
  | emptied commits =>
      rw [commits] at appended
      exact absurd appended (by simp)
  | recorded command other asked commits signed =>
      rw [commits, List.append_cancel_left_eq, List.cons.injEq] at appended
      rw [appended.1] at signed
      exact ⟨command, asked, signed⟩
  | loaded seed given => exact absurd given (typed seed)

theorem after_signed (course : List Event)
    (addressed : ∀ event ∈ course, (∀ seed, event ≠ .loaded seed) ∧
      ∀ command, event.command? = some command → ¬ command.Addressless) :
    ∀ commit ∈ (session.after course).repository.commits,
      commit ∈ session.repository.commits ∨ commit.signature.Filled := by
  induction course generalizing session with
  | nil => exact fun commit present => .inl present
  | cons event rest ih =>
      intro commit present
      obtain ⟨typed, lines⟩ := addressed event List.mem_cons_self
      have later := ih (session.apply event) (fun event held => addressed event (List.mem_cons_of_mem _ held))
      rcases later commit present with earlier | filled
      · cases apply_growth session event with
        | kept commits => exact .inl (commits ▸ earlier)
        | emptied commits =>
            rw [commits] at earlier
            exact absurd earlier List.not_mem_nil
        | recorded command last asked commits signed =>
            rw [commits] at earlier
            rcases List.mem_append.mp earlier with old | new
            · exact .inl old
            · have configured := session.config.signature_filled
              rw [List.mem_singleton.mp new, Signature.Filled, signed]
              refine .inr ⟨command.signature_name configured, ?_⟩
              exact mt (command.signature_email configured).mp (lines command asked)
        | loaded seed given => exact absurd given (typed seed)
      · exact .inr filled

theorem signed_unless_addressless (session : Session) :
    (∀ event commit, (∀ seed, event ≠ .loaded seed) →
      (session.apply event).repository.commits = session.repository.commits ++ [commit] →
      commit.signature.name ≠ "" ∧
        (commit.signature.email = "" ↔ ∃ command, event.command? = some command ∧ command.Addressless)) ∧
    (∀ course : List Event,
      (∀ event ∈ course, (∀ seed, event ≠ .loaded seed) ∧
        ∀ command, event.command? = some command → ¬ command.Addressless) →
      ∀ commit ∈ (session.after course).repository.commits,
        commit ∈ session.repository.commits ∨ commit.signature.name ≠ "" ∧ commit.signature.email ≠ "") ∧
    (∀ raw : String, (Author.parse raw).email = some "" ↔
      ∃ name inside after, Text.trim raw.toList = name ++ '<' :: (inside ++ '>' :: after) ∧
        '<' ∉ name ∧ '>' ∉ after ∧ inside.all Text.isBlank = true) := by
  refine ⟨?_, after_signed session, Author.parse_email_empty_iff⟩
  intro event commit typed appended
  obtain ⟨command, asked, signed⟩ := appended_signed session typed appended
  have configured := session.config.signature_filled
  rw [signed, command.signature_email configured]
  refine ⟨command.signature_name configured, ?_⟩
  constructor
  · intro addressless
    exact ⟨command, asked, addressless⟩
  · rintro ⟨other, otherAsked, addressless⟩
    rw [asked] at otherAsked
    cases otherAsked
    exact addressless

def blanked : Session :=
  (start {} .sequential).after
    [.typed "git config user.name ''", .typed "git config user.email ''", .typed "git add ."]

def bracketsLine : String := "git commit -m \"x\" --author=\"A <>\""

theorem brackets_read : Command.parse bracketsLine = .ok (.commit (some "x") (some ⟨"A", some ""⟩)) := by
  have written : Command.render (.commit (some "x") (some ⟨"A", some ""⟩)) = bracketsLine := by decide
  rw [← written]
  apply Command.parse_render
  rintro who ⟨⟩
  exact ⟨by decide, by decide, by decide⟩

theorem brackets_asked : (Event.typed bracketsLine).command? = some (.commit (some "x") (some ⟨"A", some ""⟩)) := by
  have asIs : Text.trimmed bracketsLine = bracketsLine := by decide
  rw [Event.command?, asIs, brackets_read]
  rfl

theorem brackets_applied (session : Session) :
    (session.apply (.typed bracketsLine)).toState =
      (session.run (.commit (some "x") (some ⟨"A", some ""⟩))).2.toState := by
  cases apply_effect session (.typed bracketsLine) with
  | ran command asked state =>
      rw [brackets_asked] at asked
      cases asked
      exact state
  | loaded seed given => cases given
  | idle asked state =>
      rw [brackets_asked] at asked
      cases asked

def signedCourse : List Event := [.evaluated "git checkout -b dev", .typed " git rebase main"]

theorem blanked_signatures :
    (∃ commit, (blanked.apply (.typed bracketsLine)).repository.commits =
        blanked.repository.commits ++ [commit] ∧ commit.signature.name ≠ "" ∧ commit.signature.email = "") ∧
    (blanked.after signedCourse).repository.commits.length = 2 ∧
    ∀ commit ∈ (blanked.after signedCourse).repository.commits,
      commit.signature.name ≠ "" ∧ commit.signature.email ≠ "" := by
  obtain ⟨steps, runs, _⟩ := signed_unless_addressless blanked
  refine ⟨?_, by decide, ?_⟩
  · have appended : (blanked.apply (.typed bracketsLine)).repository.commits = blanked.repository.commits ++
        [⟨"0000001", "x", ⟨"A", ""⟩, 1640995200000, "main", none, none, none, none⟩] := by
      rw [brackets_applied]
      decide
    obtain ⟨named, addressed⟩ := steps _ _ (by simp) appended
    exact ⟨_, appended, named, addressed.mpr ⟨_, brackets_asked, _, _, rfl⟩⟩
  · intro commit present
    have cuts : (Event.evaluated "git checkout -b dev").command? = some (.checkoutNew "dev") := rfl
    have rebases : (Event.typed " git rebase main").command? = some (.rebase "main") := rfl
    have addressed : ∀ event ∈ signedCourse, (∀ seed, event ≠ .loaded seed) ∧
        ∀ command, event.command? = some command → ¬ command.Addressless := by
      simp [signedCourse, cuts, rebases, Command.Addressless]
    rcases runs signedCourse addressed commit present with old | filled
    · have empty : blanked.repository.commits = [] := by decide
      rw [empty] at old
      exact absurd old List.not_mem_nil
    · exact filled

theorem empty_address_recorded :
    let session := (start {} .sequential).after [.typed "git add ."]
    session.repository.commits = [] ∧
      (session.apply (.typed bracketsLine)).repository.commits.map Commit.signature = [⟨"A", ""⟩] := by
  intro session
  rw [brackets_applied]
  decide

end Session

end GitPractice
