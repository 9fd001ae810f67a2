import GitPractice.Proofs.Identities

set_option autoImplicit false

namespace GitPractice

theorem Outcome.done_map_iff {α β : Type} (f : α → β) (outcome : Outcome α) :
    (∃ value, outcome.map f = .done value) ↔ ∃ value, outcome = .done value := by
  cases outcome <;> simp [map]

namespace Seed

def chosen (seed : Seed) : Option String := seed.current.or seed.branches.head?

structure Valid (seed : Seed) : Prop where
  filled : ∀ branch ∈ seed.branches, Text.isBlankText branch = false
  started : ∃ branch ∈ seed.branches, seed.chosen = some branch
  listed : ∀ entry ∈ seed.commits, entry.branch ∈ seed.branches

theorem start_iff (seed : Seed) (branch : String) :
    seed.start = .ok branch ↔ branch ∈ seed.branches ∧ seed.chosen = some branch := by
  rw [start, chosen]
  cases seed.current with
  | some named =>
      simp only [Option.some_or, Option.some.injEq]
      constructor
      · intro started
        split at started <;> cases started
        exact ⟨List.contains_iff_mem.mp ‹_›, rfl⟩
      · rintro ⟨listed, rfl⟩
        exact if_pos (List.contains_iff_mem.mpr listed)
  | none =>
      cases seed.branches with
      | nil => simp
      | cons first rest =>
          simp only [Option.none_or, List.head?_cons, Option.some.injEq, Except.ok.injEq]
          constructor
          · rintro rfl
            exact ⟨List.mem_cons_self, rfl⟩
          · exact And.right

section
variable {branches : List String} (configured : Signature) {entries : List SeedCommit} {ids : IdSource}

theorem commit_all_accepts (steady : ids.Steady) (position : Nat) :
    (∃ commits, (commitAll branches configured position entries ids).1 = .done commits) ↔
      ∀ entry ∈ entries, entry.branch ∈ branches := by
  induction entries generalizing ids position with
  | nil => simp [commitAll]
  | cons entry rest ih =>
      obtain ⟨id, after, given, still⟩ := identify_steady entry steady
      have more := ih still (position + 1)
      rw [List.forall_mem_cons, ← more, commitAll, given, ← List.contains_iff_mem]
      cases branches.contains entry.branch with
      | false => simp
      | true => simp only [if_true, Outcome.done_map_iff, true_and]

theorem build_accepts (seed : Seed) (steady : ids.Steady) :
    (∃ repository, (seed.build configured ids).1 = .done repository) ↔ seed.Valid := by
  rw [build]
  by_cases blank : seed.branches.any Text.isBlankText = true
  · have refused : ¬ seed.Valid := fun valid => by
      obtain ⟨branch, listed, nameless⟩ := List.any_eq_true.mp blank
      rw [valid.filled branch listed] at nameless
      cases nameless
    simp [blank, refused]
  · have filled : ∀ branch ∈ seed.branches, Text.isBlankText branch = false := fun branch listed =>
      Bool.eq_false_iff.mpr (List.any_eq_false.mp (Bool.eq_false_iff.mpr blank) branch listed)
    rw [if_neg blank]
    cases started : seed.start with
    | error fault =>
        have refused : ¬ seed.Valid := by
          rintro ⟨_, ⟨branch, listed, named⟩, _⟩
          rw [(seed.start_iff branch).mpr ⟨listed, named⟩] at started
          cases started
        simp [refused]
    | ok branch =>
        obtain ⟨listed, named⟩ := (seed.start_iff branch).mp started
        simp only [Outcome.done_map_iff]
        rw [commit_all_accepts configured steady]
        exact ⟨fun onBranches => ⟨filled, ⟨branch, listed, named⟩, onBranches⟩, Valid.listed⟩

def numberedCommits : Nat → Nat → List SeedCommit → List Commit
  | _, _, [] => []
  | position, number, entry :: rest =>
      match entry.id with
      | some id => entry.commit configured id position :: numberedCommits (position + 1) number rest
      | none =>
          entry.commit configured (IdSource.numbered number) position ::
            numberedCommits (position + 1) (number + 1) rest

theorem commit_all_numbered (listed : ∀ entry ∈ entries, entry.branch ∈ branches) (position drawn : Nat) :
    (commitAll branches configured position entries { IdSource.sequential with drawn := drawn }).1 =
      .done (numberedCommits configured position (drawn + 1) entries) := by
  induction entries generalizing position drawn with
  | nil => rfl
  | cons entry rest ih =>
      obtain ⟨own, others⟩ := List.forall_mem_cons.mp listed
      rw [commitAll, if_pos (List.contains_iff_mem.mpr own), SeedCommit.identify, numberedCommits]
      cases entry.id with
      | some id => simp only [ih others, Outcome.map]
      | none =>
          have next := ih others (position + 1) (drawn + 1)
          simp only [IdSource.peek, IdSource.next, IdSource.sequential] at next ⊢
          rw [next]
          rfl

end

def numbered (seed : Seed) (configured : Signature) : Repository where
  current := seed.chosen.getD ""
  branches := distinct seed.branches
  commits := numberedCommits configured 0 1 seed.commits
  staged := distinct seed.staged

theorem build_numbered {seed : Seed} (valid : seed.Valid) (configured : Signature) :
    (seed.build configured .sequential).1 = .done (seed.numbered configured) := by
  obtain ⟨filled, ⟨branch, onList, named⟩, listed⟩ := valid
  have unblank : seed.branches.any Text.isBlankText = false :=
    List.any_eq_false.mpr fun other present => Bool.eq_false_iff.mp (filled other present)
  have commits := commit_all_numbered configured listed 0 0
  rw [build, if_neg (Bool.eq_false_iff.mp unblank), (seed.start_iff branch).mpr ⟨onList, named⟩]
  simp only [numbered, named, Option.getD_some]
  rw [show IdSource.sequential = { IdSource.sequential with drawn := 0 } from rfl, commits]
  rfl

end Seed

end GitPractice
