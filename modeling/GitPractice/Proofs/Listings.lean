import GitPractice.Proofs.TrimmedLines
import GitPractice.Proofs.WellFormed

set_option autoImplicit false

namespace GitPractice

namespace Listing

def isMarked (line : String) : Bool := "* ".toList.isPrefixOf line.toList

def withoutFirst (count : Nat) (line : String) : String := .ofList (line.toList.drop count)

/-- The branches that a list of branches shows, and the branch and the files that a status shows. -/
def branchesIn (text : String) : List String := (Script.linesOf text).map (withoutFirst 2)

def branchIn (text : String) : Option String := (Script.linesOf text).head?.map (withoutFirst 10)

def filesIn (text : String) : List String := ((Script.linesOf text).drop 3).map (withoutFirst 1)

theorem branch_line_name (current branch : String) : withoutFirst 2 (branchLine current branch) = branch := by
  rw [branchLine]
  split <;> simp [withoutFirst]

theorem branch_line_marked (current branch : String) : isMarked (branchLine current branch) = (branch == current) := by
  rw [branchLine]
  by_cases same : branch = current
  · simp [isMarked, same]
  · rw [if_neg same, beq_false_of_ne same, isMarked, String.toList_append]
    rfl

theorem branch_line_whole (current : String) {branch : String} (whole : Text.OneLine branch) :
    Text.OneLine (branchLine current branch) := by
  rw [branchLine]
  split
  · exact (Text.one_line_append _ _).mpr ⟨by decide, whole⟩
  · exact (Text.one_line_append _ _).mpr ⟨by decide, whole⟩

section
variable {repository : Repository} (valid : repository.WellFormed)
variable (whole : ∀ branch ∈ repository.branches, Text.OneLine branch)
include valid whole

theorem lines_of_branches :
    Script.linesOf (branches repository) = repository.branches.map (branchLine repository.current) := by
  have filled : repository.branches ≠ [] := List.ne_nil_of_mem valid.1
  refine Script.lines_of_intercalate ?_ (by simpa using filled)
  intro line present
  obtain ⟨branch, listed, rfl⟩ := List.mem_map.mp present
  exact branch_line_whole repository.current (whole branch listed)

theorem branches_in_branches : branchesIn (branches repository) = repository.branches := by
  rw [branchesIn, lines_of_branches valid whole, List.map_map]
  refine List.map_id'' ?_ repository.branches
  intro branch
  exact branch_line_name repository.current branch

theorem marked_line_of_branches :
    (Script.linesOf (branches repository)).filter isMarked = ["* " ++ repository.current] := by
  have marked : isMarked ∘ branchLine repository.current = (· == repository.current) := by
    funext branch
    exact branch_line_marked repository.current branch
  rw [lines_of_branches valid whole, List.filter_map, marked, List.filter_beq, valid.2.1.count, if_pos valid.1]
  simp [branchLine]

end

def stagedLines : List String → List String
  | [] => ["nothing to commit, working tree clean"]
  | file :: more => "" :: "Changes to be committed:" :: (file :: more).map ("\t" ++ ·)

def statusLines (repository : Repository) : List String :=
  ("On branch " ++ repository.current) :: stagedLines repository.staged

theorem staged_part_lines (line : String) (staged : List String) :
    Text.trimmedEnd (line ++ "\n" ++ stagedPart staged) =
      Text.trimmedEnd ("\n".intercalate (line :: stagedLines staged)) := by
  cases staged with
  | nil => rfl
  | cons file more =>
      have rows : (file :: more).map stagedLine = ((file :: more).map ("\t" ++ ·)).map (· ++ "\n") := by
        rw [List.map_map]
        rfl
      have headed : stagedPart (file :: more) = "" ++ "\n" ++ ("Changes to be committed:" ++ "\n") ++
          "".intercalate ((file :: more).map stagedLine) := rfl
      have ended : line ++ "\n" ++ stagedPart (file :: more) =
          "\n".intercalate (line :: stagedLines (file :: more) ++ [""]) := by
        rw [headed, rows, Text.joined_line_ends, stagedLines]
        simp only [List.cons_append]
        rw [String.intercalate_cons_of_ne_nil (by simp), String.intercalate_cons_of_ne_nil (by simp),
          String.intercalate_cons_of_ne_nil (by simp)]
        simp only [String.append_assoc, List.map_cons, List.cons_append]
      rw [ended, Text.trimmed_end_lines, Text.trimmed_end_lines, Text.trim_lines_append_blank _ (by decide)]

theorem lines_of_status {repository : Repository} (branchWhole : Text.OneLine repository.current)
    (filesWhole : ∀ file ∈ repository.staged, Text.OneLine file ∧ Text.EndsFilled file) :
    Script.linesOf (status repository) = statusLines repository := by
  have whole : ∀ line ∈ statusLines repository, Text.OneLine line := by
    rw [statusLines, List.forall_mem_cons, Text.one_line_append]
    refine ⟨⟨by decide, branchWhole⟩, ?_⟩
    cases staged : repository.staged with
    | nil => decide
    | cons file more =>
        rw [staged] at filesWhole
        rw [stagedLines, List.forall_mem_cons, List.forall_mem_cons, List.forall_mem_map]
        refine ⟨by decide, by decide, fun file present => ?_⟩
        exact (Text.one_line_append _ _).mpr ⟨by decide, (filesWhole file present).1⟩
  have ends : ∀ last ∈ (statusLines repository).getLast?, Text.EndsFilled last := by
    intro last present
    rw [statusLines] at present
    cases staged : repository.staged with
    | nil =>
        rw [staged, stagedLines, List.getLast?_cons_cons, List.getLast?_singleton] at present
        cases present
        decide
    | cons file more =>
        rw [staged, stagedLines, List.map_cons, List.getLast?_cons_cons, List.getLast?_cons_cons,
          List.getLast?_cons_cons, ← List.map_cons] at present
        obtain ⟨name, listed, rfl⟩ := List.mem_map.mp (List.mem_of_getLast? present)
        exact Text.ends_filled_append "\t" (filesWhole name (staged ▸ listed)).2
  have kept := (Text.trim_lines_eq_iff (statusLines repository)).mpr ends
  rw [status, staged_part_lines, ← statusLines, Text.lines_of_trimmed_end whole, kept]
  rw [kept, statusLines]
  exact List.cons_ne_nil _ _

section
variable {repository : Repository} (branchWhole : Text.OneLine repository.current)
variable (filesWhole : ∀ file ∈ repository.staged, Text.OneLine file ∧ Text.EndsFilled file)
include branchWhole filesWhole

theorem branch_in_status : branchIn (status repository) = some repository.current := by
  rw [branchIn, lines_of_status branchWhole filesWhole]
  simp [statusLines, withoutFirst]

theorem files_in_status : filesIn (status repository) = repository.staged := by
  rw [filesIn, lines_of_status branchWhole filesWhole, statusLines]
  cases repository.staged with
  | nil => rfl
  | cons file more => simp [stagedLines, withoutFirst, Function.comp_def]

end

end Listing

namespace Session

def Reached (session : Session) : Prop :=
  ∃ settings ids course, session = (start settings ids).after course

theorem reached_well_formed {session : Session} (reached : session.Reached) : session.repository.WellFormed := by
  obtain ⟨settings, ids, course, rfl⟩ := reached
  exact after_well_formed settings ids course

theorem evaluate_branches (session : Session) :
    session.evaluate "git branch" = (.done (Listing.branches session.repository), session) := by
  have asked : Command.parse "git branch" = .ok .listBranches := rfl
  have asks : Action.ofCommand session.settings .listBranches =
      .ask fun state => .ok (Listing.branches state.repository) := rfl
  rw [evaluate_asks asked asks]

theorem evaluate_status (session : Session) :
    session.evaluate "git status" = (.done (Listing.status session.repository), session) := by
  have asked : Command.parse "git status" = .ok .status := rfl
  have asks : Action.ofCommand session.settings .status =
      .ask fun state => .ok (Listing.status state.repository) := rfl
  rw [evaluate_asks asked asks]

theorem listings_tell_apart {first second : Session} (firstReached : first.Reached) (secondReached : second.Reached)
    (firstWhole : ∀ branch ∈ first.repository.branches, Text.OneLine branch)
    (secondWhole : ∀ branch ∈ second.repository.branches, Text.OneLine branch) :
    (∀ session ∈ [first, second], ∃ text, session.evaluate "git branch" = (.done text, session) ∧
      (Script.linesOf text).filter Listing.isMarked = ["* " ++ session.repository.current]) ∧
    ((first.evaluate "git branch").1 = (second.evaluate "git branch").1 →
      first.repository.branches = second.repository.branches ∧
        first.repository.current = second.repository.current) ∧
    ((∀ file ∈ first.repository.staged, Text.OneLine file ∧ Text.EndsFilled file) →
      (∀ file ∈ second.repository.staged, Text.OneLine file ∧ Text.EndsFilled file) →
      (first.evaluate "git status").1 = (second.evaluate "git status").1 →
      first.repository.current = second.repository.current ∧
        first.repository.staged = second.repository.staged) := by
  have firstValid := reached_well_formed firstReached
  have secondValid := reached_well_formed secondReached
  have firstMarked := Listing.marked_line_of_branches firstValid firstWhole
  have secondMarked := Listing.marked_line_of_branches secondValid secondWhole
  refine ⟨?_, ?_, ?_⟩
  · simp only [List.forall_mem_cons]
    exact ⟨⟨_, evaluate_branches first, firstMarked⟩, ⟨_, evaluate_branches second, secondMarked⟩, by simp⟩
  · intro same
    rw [evaluate_branches, evaluate_branches, Outcome.done.injEq] at same
    refine ⟨?_, ?_⟩
    · rw [← Listing.branches_in_branches firstValid firstWhole, same,
        Listing.branches_in_branches secondValid secondWhole]
    · rw [same, secondMarked] at firstMarked
      simpa using firstMarked.symm
  · intro firstFiles secondFiles same
    rw [evaluate_status, evaluate_status, Outcome.done.injEq] at same
    have firstHere := firstWhole _ firstValid.1
    have secondHere := secondWhole _ secondValid.1
    refine ⟨?_, ?_⟩
    · have branch := Listing.branch_in_status firstHere firstFiles
      rw [same, Listing.branch_in_status secondHere secondFiles] at branch
      exact (Option.some.inj branch).symm
    · rw [← Listing.files_in_status firstHere firstFiles, same, Listing.files_in_status secondHere secondFiles]

def listedByLines : Session :=
  (start {} .sequential).after
    [.typed "git branch '* b'", .evaluated "git checkout '* b'", .typed "git add ' x' y ' x'"]

def listedBySeed : Session :=
  (start { defaultBranch := "dev" } (.listed [])).after
    [.loaded { branches := ["main", "* b", "main"], current := some "* b", staged := [" x", "y"] }]

theorem listings_tell_apart_marked :
    (∀ branch ∈ listedByLines.repository.branches, Text.OneLine branch) ∧
    (∀ file ∈ listedByLines.repository.staged, Text.OneLine file ∧ Text.EndsFilled file) ∧
    (∃ text, listedByLines.evaluate "git branch" = (.done text, listedByLines) ∧
      (Script.linesOf text).filter Listing.isMarked = ["* * b"]) ∧
    listedByLines.repository.branches = listedBySeed.repository.branches ∧
    listedByLines.repository.staged = listedBySeed.repository.staged := by
  have whole : ∀ branch ∈ listedByLines.repository.branches, Text.OneLine branch := by decide
  have files : ∀ file ∈ listedByLines.repository.staged, Text.OneLine file ∧ Text.EndsFilled file := by decide
  have listed : (listedByLines.evaluate "git branch").1 = (listedBySeed.evaluate "git branch").1 := by decide
  have told : (listedByLines.evaluate "git status").1 = (listedBySeed.evaluate "git status").1 := by decide
  have byLines : listedByLines.Reached := ⟨_, _, _, rfl⟩
  have bySeed : listedBySeed.Reached := ⟨_, _, _, rfl⟩
  obtain ⟨marked, branches, status⟩ := listings_tell_apart byLines bySeed whole (by decide)
  exact ⟨whole, files, marked listedByLines (by simp), (branches listed).1, (status files (by decide) told).2⟩

end Session

end GitPractice
