import GitPractice.Seed

set_option autoImplicit false

namespace GitPractice.Seed

theorem start_mem (seed : Seed) (branch : String) (started : seed.start = .ok branch) :
    branch ∈ seed.branches := by
  rw [start] at started
  cases named : seed.current with
  | some current =>
      rw [named] at started
      simp only at started
      split at started
      · rename_i listed
        cases started
        exact List.contains_iff_mem.mp listed
      · exact absurd started (by simp)
  | none =>
      rw [named] at started
      cases listed : seed.branches with
      | nil => exact absurd started (by simp [listed])
      | cons first rest =>
          rw [listed] at started
          cases started
          exact List.mem_cons_self

/-- The induction is on the entries; the position moves with them, so it is generalised and the times are
counted from it. -/
theorem commit_all_entries (branches : List String) (configured : Signature) (entries : List SeedCommit)
    (position : Nat) (ids : IdSource) (commits : List Commit)
    (made : (commitAll branches configured position entries ids).1 = .done commits)
    (index : Nat) (commit : Commit) (found : commits[index]? = some commit) :
    ∃ entry id, commit = SeedCommit.commit entry configured id (position + index) := by
  induction entries generalizing position ids commits index with
  | nil =>
      cases made
      exact absurd found (by simp)
  | cons entry rest ih =>
      rw [commitAll] at made
      split at made
      · cases identified : entry.identify ids with
        | mk draw after =>
            cases draw with
            | interrupted reason => exact absurd made (by simp [identified])
            | id id =>
                simp only [identified] at made
                obtain ⟨later, laterMade, whole⟩ := (Outcome.map_done_iff _ _ _).mp made
                subst whole
                cases index with
                | zero =>
                    refine ⟨entry, id, ?_⟩
                    simpa using found.symm
                | succ index =>
                    obtain ⟨source, given, same⟩ :=
                      ih (position + 1) after later laterMade index (by simpa using found)
                    refine ⟨source, given, ?_⟩
                    rw [same, Nat.add_right_comm, Nat.add_assoc]
      · exact absurd made (by simp)

theorem commit_all_ids (branches : List String) (configured : Signature) (entries : List SeedCommit)
    (position : Nat) (ids : IdSource) :
    (commitAll branches configured position entries ids).2.stream = ids.stream ∧
      ids.drawn ≤ (commitAll branches configured position entries ids).2.drawn := by
  induction entries generalizing position ids with
  | nil => exact ⟨rfl, Nat.le_refl _⟩
  | cons entry rest ih =>
      have moved : (entry.identify ids).2.stream = ids.stream ∧ ids.drawn ≤ (entry.identify ids).2.drawn := by
        rw [SeedCommit.identify]
        split
        · exact ⟨rfl, Nat.le_refl _⟩
        · exact ⟨rfl, Nat.le_succ _⟩
      rw [commitAll]
      split
      · cases identified : entry.identify ids with
        | mk draw after =>
            rw [identified] at moved
            cases draw with
            | interrupted reason => exact moved
            | id id =>
                obtain ⟨stream, drawn⟩ := ih (position + 1) after
                exact ⟨stream.trans moved.1, Nat.le_trans moved.2 drawn⟩
      · exact ⟨rfl, Nat.le_refl _⟩

theorem build_ids (seed : Seed) (configured : Signature) (ids : IdSource) :
    (seed.build configured ids).2.stream = ids.stream ∧
      ids.drawn ≤ (seed.build configured ids).2.drawn := by
  rw [build]
  split
  · exact ⟨rfl, Nat.le_refl _⟩
  · split
    · exact ⟨rfl, Nat.le_refl _⟩
    · exact commit_all_ids seed.branches configured seed.commits 0 ids

theorem build_done (seed : Seed) (configured : Signature) (ids : IdSource) (repository : Repository)
    (built : (seed.build configured ids).1 = .done repository) :
    ∃ branch commits, branch ∈ seed.branches ∧
      (commitAll seed.branches configured 0 seed.commits ids).1 = .done commits ∧
      repository = ⟨branch, distinct seed.branches, commits, distinct seed.staged⟩ := by
  rw [build] at built
  split at built
  · exact absurd built (by simp)
  · cases started : seed.start with
    | error fault => exact absurd built (by simp [started])
    | ok branch =>
        rw [started] at built
        obtain ⟨commits, made, same⟩ := (Outcome.map_done_iff _ _ _).mp built
        exact ⟨branch, commits, start_mem seed branch started, made, same.symm⟩

theorem build_well_formed (seed : Seed) (configured : Signature) (ids : IdSource) (repository : Repository)
    (built : (seed.build configured ids).1 = .done repository) : repository.WellFormed := by
  obtain ⟨branch, commits, listed, _, same⟩ := build_done seed configured ids repository built
  subst same
  exact ⟨(mem_distinct branch seed.branches).mpr listed, nodup_distinct seed.branches,
    nodup_distinct seed.staged⟩

theorem build_commit (seed : Seed) (configured : Signature) (ids : IdSource) (repository : Repository)
    (built : (seed.build configured ids).1 = .done repository) (index : Nat) (commit : Commit)
    (found : repository.commits[index]? = some commit) :
    ∃ entry id, commit = SeedCommit.commit entry configured id index := by
  obtain ⟨branch, commits, _, made, same⟩ := build_done seed configured ids repository built
  subst same
  simpa using commit_all_entries seed.branches configured seed.commits 0 ids commits made index commit found

end GitPractice.Seed
