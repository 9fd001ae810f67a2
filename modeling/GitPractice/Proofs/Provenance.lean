import GitPractice.Proofs.WellFormed

set_option autoImplicit false

namespace GitPractice

def lastOn (branch : String) (commits : List Commit) : Option Commit :=
  (commits.filter (·.branch == branch)).getLast?

theorem last_on_none_iff (branch : String) (commits : List Commit) :
    lastOn branch commits = none ↔ ∀ commit ∈ commits, commit.branch ≠ branch := by
  simp [lastOn]

structure Commit.Founded (before : List Commit) (commit : Commit) : Prop where
  cut : ∀ origin, commit.cutFrom = some origin →
    commit.parent = (lastOn origin before).map Commit.id ∧
      (commit.parent = none ↔ ∀ earlier ∈ before, earlier.branch ≠ origin) ∧ origin ≠ commit.branch
  paired : commit.mergedFrom.isSome = commit.mergedInto.isSome
  merged : ∀ source target, commit.mergedFrom = some source → commit.mergedInto = some target →
    target = commit.branch ∧ source ≠ target ∧
      commit.message = "Merge branch '" ++ source ++ "' into " ++ target ∧
      ∃ earlier ∈ before, earlier.branch = source
  single : commit.cutFrom.isSome = true → commit.mergedFrom = none ∧ commit.mergedInto = none

def History (commits : List Commit) : Prop :=
  ∀ (index : Nat) (commit : Commit), commits[index]? = some commit → commit.Founded (commits.take index)

/-- A tip is looked for by time. Times rise along the history, so the newest commit is the last one. -/
theorem newest_eq_last (commits : List Commit)
    (rising : commits.Pairwise fun earlier later => earlier.timestamp < later.timestamp) :
    Repository.newest? commits = commits.getLast? := by
  induction commits with
  | nil => rfl
  | cons commit rest ih =>
      obtain ⟨below, restRising⟩ := List.pairwise_cons.mp rising
      rw [Repository.newest?, ih restRising]
      cases newest : rest.getLast? with
      | none => rw [List.getLast?_eq_none_iff.mp newest, List.getLast?_singleton]
      | some best =>
          have younger := below best (List.mem_of_getLast? newest)
          simp only [if_pos (Int.le_of_lt younger), List.getLast?_cons, newest, Option.getD_some]

theorem tip_eq_last_on (repository : Repository) (branch : String) (timed : Timed repository.commits) :
    repository.tip? branch = lastOn branch repository.commits :=
  newest_eq_last _ ((timed_increasing repository.commits timed).filter _)

theorem plain_founded (before : List Commit) (commit : Commit) (uncut : commit.cutFrom = none)
    (noSource : commit.mergedFrom = none) (noTarget : commit.mergedInto = none) : commit.Founded before where
  cut := by
    intro origin isCut
    rw [uncut] at isCut
    exact absurd isCut (by simp)
  paired := by rw [noSource, noTarget]
  merged := by
    intro source target isSource
    rw [noSource] at isSource
    exact absurd isSource (by simp)
  single := fun _ => ⟨noSource, noTarget⟩

theorem cut_founded (before : List Commit) (commit : Commit) (origin : String)
    (isCut : commit.cutFrom = some origin) (parent : commit.parent = (lastOn origin before).map Commit.id)
    (away : origin ≠ commit.branch) (noSource : commit.mergedFrom = none)
    (noTarget : commit.mergedInto = none) : commit.Founded before where
  cut := by
    intro other isOther
    obtain rfl : origin = other := Option.some.inj (isCut.symm.trans isOther)
    refine ⟨parent, ?_, away⟩
    rw [parent, Option.map_eq_none_iff]
    exact last_on_none_iff origin before
  paired := by rw [noSource, noTarget]
  merged := by
    intro source target isSource
    rw [noSource] at isSource
    exact absurd isSource (by simp)
  single := fun _ => ⟨noSource, noTarget⟩

theorem merged_founded (before : List Commit) (commit : Commit) (source : String)
    (uncut : commit.cutFrom = none) (isSource : commit.mergedFrom = some source)
    (isTarget : commit.mergedInto = some commit.branch) (apart : source ≠ commit.branch)
    (told : commit.message = Plan.mergeMessage source commit.branch)
    (filled : ∃ earlier ∈ before, earlier.branch = source) : commit.Founded before where
  cut := by
    intro origin isCut
    rw [uncut] at isCut
    exact absurd isCut (by simp)
  paired := by rw [isSource, isTarget]; rfl
  merged := by
    intro other target isOther isOtherTarget
    obtain rfl : source = other := Option.some.inj (isSource.symm.trans isOther)
    obtain rfl : commit.branch = target := Option.some.inj (isTarget.symm.trans isOtherTarget)
    exact ⟨rfl, apart, told, filled⟩
  single := by
    intro isCut
    rw [uncut] at isCut
    exact absurd isCut (by simp)

theorem stamp_founded (repository : Repository) (draft : Draft) (id : String) (position : Nat)
    (valid : repository.WellFormed) (timed : Timed repository.commits)
    (sourced : draft.Sourced repository) :
    (draft.stamp id position).Founded repository.commits := by
  cases sourced with
  | plain unmerged uncut =>
      refine plain_founded _ _ ?_ ?_ ?_
      · simp [Draft.stamp, uncut]
      · simp [Draft.stamp, unmerged]
      · simp [Draft.stamp, unmerged]
  | cut unmerged origin away =>
      refine cut_founded _ _ repository.current ?_ ?_ ?_ ?_ ?_
      · simp [Draft.stamp, origin]
      · simp [Draft.stamp, origin, tip_eq_last_on repository _ timed]
      · intro same
        have known := (Repository.has_branch_iff repository repository.current).mpr valid.1
        rw [same] at known
        exact Bool.false_ne_true (away.symm.trans known)
      · simp [Draft.stamp, unmerged]
      · simp [Draft.stamp, unmerged]
  | merged source uncut origin apart told filled =>
      refine merged_founded _ _ source ?_ ?_ ?_ apart told filled
      · simp [Draft.stamp, uncut]
      · simp [Draft.stamp, origin]
      · simp [Draft.stamp, origin]

theorem history_nil : History [] := by
  intro index commit found
  exact absurd found (by simp)

theorem history_concat (commits : List Commit) (last : Commit) (history : History commits)
    (founded : last.Founded commits) : History (commits ++ [last]) := by
  intro index commit found
  rcases lookup_concat found with ⟨below, earlier⟩ | ⟨atEnd, isLast⟩
  · rw [List.take_append_of_le_length (Nat.le_of_lt below)]
    exact history index commit earlier
  · rw [atEnd, isLast, List.take_left]
    exact founded

theorem history_step {settings : Settings} {command : Command} {before after : State}
    (step : State.Step settings command before after) (valid : before.repository.WellFormed)
    (timed : Timed before.repository.commits) (history : History before.repository.commits) :
    History after.repository.commits := by
  rcases State.step_commits step with kept | emptied | ⟨draft, id, sourced, appended⟩
  · rw [kept]
    exact history
  · rw [emptied]
    exact history_nil
  · rw [appended]
    exact history_concat _ _ history (stamp_founded before.repository draft id _ valid timed sourced)

theorem seed_history (seed : Seed) (configured : Signature) (ids : IdSource) (repository : Repository)
    (built : (seed.build configured ids).1 = .done repository) : History repository.commits := by
  intro index commit found
  obtain ⟨entry, id, same⟩ := Seed.build_commit seed configured ids repository built index commit found
  rw [same]
  exact plain_founded _ _ rfl rfl rfl

namespace Session

theorem annotations_founded (settings : Settings) (ids : IdSource) (course : List Event) :
    let commits := ((start settings ids).after course).repository.commits
    ∀ (index : Nat) (commit : Commit), commits[index]? = some commit → commit.Founded (commits.take index) := by
  -- The three invariants are carried together: a cut needs labels and times to be right before it.
  have all := after_repository
    (motive := fun repository =>
      repository.WellFormed ∧ Timed repository.commits ∧ History repository.commits)
    settings
    ⟨Repository.fresh_well_formed settings.defaultBranch, timed_nil, history_nil⟩
    (fun _ _ _ step held =>
      ⟨well_formed_step step held.1, timed_step step held.2.1, history_step step held.1 held.2.1 held.2.2⟩)
    (fun seed configured ids repository built =>
      ⟨Seed.build_well_formed seed configured ids repository built,
        seed_timed seed configured ids repository built, seed_history seed configured ids repository built⟩)
    ids course
  exact all.2.2

theorem mixed_course_merge :
    let commits := ((start {} .sequential).after mixedCourse).repository.commits
    ∃ commit, commits[2]? = some commit ∧ commit.mergedFrom = some "dev" ∧ commit.branch = "topic" ∧
      ∃ earlier ∈ commits.take 2, earlier.branch = "dev" := by
  intro commits
  cases found : commits[2]? with
  | none => exact absurd found (by decide)
  | some commit =>
      have source : commits[2]?.bind Commit.mergedFrom = some "dev" := by decide
      have target : commits[2]?.bind Commit.mergedInto = some "topic" := by decide
      rw [found, Option.bind_some] at source target
      obtain ⟨isBranch, _, _, filled⟩ :=
        (annotations_founded {} .sequential mixedCourse 2 commit found).merged "dev" "topic" source target
      exact ⟨commit, rfl, source, isBranch.symm, filled⟩

end Session

end GitPractice
