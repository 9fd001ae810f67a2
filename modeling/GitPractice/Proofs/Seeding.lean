import GitPractice.Proofs.Acceptance

set_option autoImplicit false

namespace GitPractice

def IdSource.advance (source : IdSource) (count : Nat) : IdSource := { source with drawn := source.drawn + count }

namespace Seed

def idless (entries : List SeedCommit) : Nat := entries.countP fun entry => entry.id.isNone

/-- The commit that an entry becomes when these entries stand before it in the seed. -/
structure Entered (config : Config) (ids : IdSource) (earlier : List SeedCommit) (entry : SeedCommit)
    (commit : Commit) : Prop where
  branch : commit.branch = entry.branch
  message : commit.message = entry.message
  parent : commit.parent = entry.parent
  author : ∀ author, entry.author = some author → commit.signature.name = author
  name : entry.author = none → config.Tells "user.name" "Git Learner" commit.signature.name
  email : config.Tells "user.email" "learner@gitlearner.com" commit.signature.email
  time : commit.timestamp = 1640995200000 + earlier.length * 300000
  unmerged : commit.mergedFrom = none ∧ commit.mergedInto = none
  uncut : commit.cutFrom = none
  own : ∀ id, entry.id = some id → commit.id = id
  drawn : entry.id = none → ids.stream (ids.drawn + idless earlier) = .id commit.id

structure Founds (seed : Seed) (config : Config) (ids : IdSource) (repository : Repository) : Prop where
  current : seed.chosen = some repository.current
  branches : repository.branches = seed.branches.eraseDups
  staged : repository.staged = seed.staged.eraseDups
  length : repository.commits.length = seed.commits.length
  entered : ∀ (index : Nat) entry commit, seed.commits[index]? = some entry →
    repository.commits[index]? = some commit → Entered config ids (seed.commits.take index) entry commit

/-- The cases of a seed, each under the conditions that the ones before it leave. -/
inductive Built (seed : Seed) (config : Config) (ids : IdSource) : Outcome Repository → IdSource → Prop where
  | nameless (branch : String) (listed : branch ∈ seed.branches) (blank : Text.isBlankText branch = true) :
      Built seed config ids (.refused (.seed .blankBranch)) ids
  | branchless (unnamed : seed.current = none) (bare : seed.branches = []) :
      Built seed config ids (.refused (.seed .noBranch)) ids
  | unlisted (filled : ∀ branch ∈ seed.branches, Text.isBlankText branch = false) (branch : String)
      (named : seed.current = some branch) (away : branch ∉ seed.branches) :
      Built seed config ids (.refused (.seed (.unlistedCurrent branch))) ids
  | stray (filled : ∀ branch ∈ seed.branches, Text.isBlankText branch = false)
      (started : ∃ branch ∈ seed.branches, seed.chosen = some branch) (earlier later : List SeedCommit)
      (entry : SeedCommit) (split : seed.commits = earlier ++ entry :: later)
      (listed : ∀ other ∈ earlier, other.branch ∈ seed.branches) (away : entry.branch ∉ seed.branches) :
      Built seed config ids (.refused (.seed (.strayCommit entry.message entry.branch)))
        (ids.advance (idless earlier))
  | founded (valid : seed.Valid) (repository : Repository) (founds : seed.Founds config ids repository) :
      Built seed config ids (.done repository) (ids.advance (idless seed.commits))

theorem start_error {seed : Seed} {fault : SeedFault} (refused : seed.start = .error fault) :
    (seed.current = none ∧ seed.branches = [] ∧ fault = .noBranch) ∨
      ∃ branch, seed.current = some branch ∧ branch ∉ seed.branches ∧ fault = .unlistedCurrent branch := by
  rw [start] at refused
  cases named : seed.current with
  | some branch =>
      simp only [named] at refused
      split at refused
      · cases refused
      · rename_i away
        cases refused
        exact .inr ⟨branch, rfl, fun listed => away (List.contains_iff_mem.mpr listed), rfl⟩
  | none =>
      simp only [named] at refused
      split at refused
      · cases refused
      · rename_i bare
        cases refused
        exact .inl ⟨rfl, bare, rfl⟩

section
variable {ids : IdSource} (steady : ids.Steady)
include steady

theorem identify_advance (before : List SeedCommit) (entry : SeedCommit) :
    ∃ id, entry.identify (ids.advance (idless before)) = (.id id, ids.advance (idless (before ++ [entry]))) ∧
      (∀ own, entry.id = some own → id = own) ∧
      (entry.id = none → ids.stream (ids.drawn + idless before) = .id id) := by
  cases given : entry.id with
  | some own =>
      have counted : idless (before ++ [entry]) = idless before := by simp [idless, given]
      exact ⟨own, by rw [SeedCommit.identify, given, counted], by simp, by simp⟩
  | none =>
      have counted : idless (before ++ [entry]) = idless before + 1 := by simp [idless, given]
      obtain ⟨id, drawn⟩ := steady (ids.drawn + idless before)
      refine ⟨id, ?_, by simp, fun _ => drawn⟩
      rw [SeedCommit.identify, given, counted]
      exact congrArg (·, _) drawn

variable {branches : List String} (config : Config)

theorem commit_all_entry (before rest : List SeedCommit) {entry : SeedCommit} (listed : entry.branch ∈ branches) :
    ∃ commit, Entered config ids before entry commit ∧
      commitAll branches config.signature before.length (entry :: rest) (ids.advance (idless before)) =
        let later := commitAll branches config.signature (before ++ [entry]).length rest
          (ids.advance (idless (before ++ [entry])))
        (later.1.map (commit :: ·), later.2) := by
  obtain ⟨id, identified, own, drawn⟩ := identify_advance steady before entry
  have signs : config.Signs config.signature := (config.signs_iff _).mpr rfl
  refine ⟨entry.commit config.signature id before.length, ?_, ?_⟩
  · refine ⟨rfl, rfl, rfl, ?_, ?_, signs.email, rfl, ⟨rfl, rfl⟩, rfl, own, drawn⟩
    · intro author given
      rw [SeedCommit.commit, given]
      rfl
    · intro unnamed
      rw [SeedCommit.commit, unnamed]
      exact signs.name
  · rw [commitAll, if_pos (List.contains_iff_mem.mpr listed), identified, List.length_append]
    rfl

theorem commit_all_stray (before later : List SeedCommit) {earlier : List SeedCommit} {entry : SeedCommit}
    (listed : ∀ other ∈ earlier, other.branch ∈ branches) (away : entry.branch ∉ branches) :
    commitAll branches config.signature before.length (earlier ++ entry :: later) (ids.advance (idless before)) =
      (.refused (.seed (.strayCommit entry.message entry.branch)), ids.advance (idless (before ++ earlier))) := by
  induction earlier generalizing before with
  | nil =>
      have stray : ¬ branches.contains entry.branch = true := by simpa using away
      rw [List.nil_append, commitAll, if_neg stray, List.append_nil]
  | cons first rest ih =>
      obtain ⟨own, others⟩ := List.forall_mem_cons.mp listed
      obtain ⟨commit, _, step⟩ := commit_all_entry steady config before (rest ++ entry :: later) own
      rw [List.cons_append, step, ih (before ++ [first]) others, List.append_assoc]
      rfl

theorem commit_all_entered (before : List SeedCommit) {entries : List SeedCommit}
    (listed : ∀ entry ∈ entries, entry.branch ∈ branches) :
    ∃ commits, commitAll branches config.signature before.length entries (ids.advance (idless before)) =
        (.done commits, ids.advance (idless (before ++ entries))) ∧
      commits.length = entries.length ∧
      ∀ (index : Nat) entry commit, entries[index]? = some entry → commits[index]? = some commit →
        Entered config ids (before ++ entries.take index) entry commit := by
  -- The entries built before fix the place and the id of the next one.
  induction entries generalizing before with
  | nil => exact ⟨[], by rw [commitAll, List.append_nil], rfl, by simp⟩
  | cons first rest ih =>
      obtain ⟨own, others⟩ := List.forall_mem_cons.mp listed
      obtain ⟨commit, entered, step⟩ := commit_all_entry steady config before rest own
      obtain ⟨commits, made, length, each⟩ := ih (before ++ [first]) others
      refine ⟨commit :: commits, ?_, by rw [List.length_cons, List.length_cons, length], ?_⟩
      · rw [step, made, List.append_assoc]
        rfl
      · intro index entry other isEntry isOther
        cases index with
        | zero =>
            cases isEntry
            cases isOther
            simpa using entered
        | succ index => simpa using each index entry other isEntry isOther

end

theorem build_started (seed : Seed) (config : Config) {ids : IdSource} (steady : ids.Steady)
    (filled : ∀ branch ∈ seed.branches, Text.isBlankText branch = false) {branch : String}
    (listed : branch ∈ seed.branches) (chosen : seed.chosen = some branch) :
    let made := commitAll seed.branches config.signature 0 seed.commits ids
    seed.Built config ids
      (made.1.map fun commits => ⟨branch, distinct seed.branches, commits, distinct seed.staged⟩) made.2 := by
  intro made
  -- Everything in front of the first stray entry is built and draws its ids.
  cases first : seed.commits.find? fun entry => !seed.branches.contains entry.branch with
  | some entry =>
      obtain ⟨stray, earlier, later, split, before⟩ := List.find?_eq_some_iff_append.mp first
      have away : entry.branch ∉ seed.branches := by simpa using stray
      have onBranches : ∀ other ∈ earlier, other.branch ∈ seed.branches := by simpa using before
      have refused : made = (.refused (.seed (.strayCommit entry.message entry.branch)),
          ids.advance (idless earlier)) := by
        have run := commit_all_stray steady config [] later onBranches away
        rw [← split] at run
        exact run
      rw [refused]
      exact .stray filled ⟨branch, listed, chosen⟩ earlier later entry split onBranches away
  | none =>
      have onBranches : ∀ entry ∈ seed.commits, entry.branch ∈ seed.branches := by simpa using first
      obtain ⟨commits, run, length, each⟩ := commit_all_entered steady config [] onBranches
      have done : made = (.done commits, ids.advance (idless seed.commits)) := run
      rw [done]
      refine .founded ⟨filled, ⟨branch, listed, chosen⟩, onBranches⟩ _ ?_
      exact ⟨chosen, distinct_eq_erase_dups _, distinct_eq_erase_dups _, length, each⟩

theorem build_decided (seed : Seed) (config : Config) (ids : IdSource) (steady : ids.Steady) :
    let result := seed.build config.signature ids
    seed.Built config ids result.1 result.2 ∧ (result.1.isDone = true ↔ seed.Valid) := by
  intro result
  refine ⟨?_, ?_⟩
  · simp only [result, build]
    by_cases blank : seed.branches.any Text.isBlankText = true
    · obtain ⟨branch, listed, nameless⟩ := List.any_eq_true.mp blank
      rw [if_pos blank]
      exact .nameless branch listed nameless
    · have filled : ∀ branch ∈ seed.branches, Text.isBlankText branch = false := by simpa using blank
      rw [if_neg blank]
      cases started : seed.start with
      | ok branch =>
          obtain ⟨listed, chosen⟩ := (seed.start_iff branch).mp started
          exact build_started seed config steady filled listed chosen
      | error fault =>
          rcases start_error started with ⟨unnamed, bare, rfl⟩ | ⟨branch, named, away, rfl⟩
          · exact .branchless unnamed bare
          · exact .unlisted filled branch named away
  · rw [← build_accepts config.signature seed steady]
    cases result.1 <;> simp [Outcome.isDone]

def mixed : Seed where
  branches := ["main", "dev", "main"]
  commits :=
    [{ branch := "dev", message := "First", id := some "abc" },
     { branch := "main", message := "Second", author := some "Ada" },
     { branch := "dev", message := "Third", parent := some "abc" }]
  current := some "dev"
  staged := ["a.txt", "b.txt", "a.txt"]

def mixedAstray : Seed :=
  { mixed with commits := mixed.commits ++ [{ branch := "gone", message := "Lost" }] }

/-- Its name is empty and its address is set. -/
def addressed : Config := (Config.defaults.set "user.name" "").set "user.email" "ada@gitlearner.com"

def mixedRepository : Repository where
  current := "dev"
  branches := ["main", "dev"]
  commits :=
    [⟨"abc", "First", ⟨"Git Learner", "ada@gitlearner.com"⟩, 1640995200000, "dev", none, none, none, none⟩,
     ⟨"0000001", "Second", ⟨"Ada", "ada@gitlearner.com"⟩, 1640995500000, "main", none, none, none, none⟩,
     ⟨"0000002", "Third", ⟨"Git Learner", "ada@gitlearner.com"⟩, 1640995800000, "dev", none, none, none,
       some "abc"⟩]
  staged := ["a.txt", "b.txt"]

theorem mixed_seeds_decided :
    IdSource.sequential.Steady ∧
    (mixed.Built addressed .sequential (.done mixedRepository) (IdSource.sequential.advance 2) ∧ mixed.Valid) ∧
    (mixedAstray.Built addressed .sequential (.refused (.seed (.strayCommit "Lost" "gone")))
        (IdSource.sequential.advance 2) ∧ ¬ mixedAstray.Valid) := by
  have steady : IdSource.sequential.Steady := fun place => ⟨_, rfl⟩
  obtain ⟨decided, accepted⟩ := build_decided mixed addressed .sequential steady
  obtain ⟨refused, unaccepted⟩ := build_decided mixedAstray addressed .sequential steady
  have made : (mixed.build addressed.signature .sequential).1 = .done mixedRepository := by decide +kernel
  have told : (mixedAstray.build addressed.signature .sequential).1 =
      .refused (.seed (.strayCommit "Lost" "gone")) := by decide +kernel
  rw [made] at decided accepted
  rw [told] at refused unaccepted
  exact ⟨steady, ⟨decided, accepted.mp rfl⟩, refused, fun valid => absurd (unaccepted.mpr valid) (by decide)⟩

end Seed

end GitPractice
