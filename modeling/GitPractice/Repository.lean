import GitPractice.Commit

set_option autoImplicit false

namespace GitPractice

structure Repository where
  current : String
  branches : List String
  commits : List Commit
  staged : List String
deriving DecidableEq, Repr

def distinct : List String → List String
  | [] => []
  | name :: rest => name :: (distinct rest).filter (· != name)

theorem mem_distinct (name : String) (names : List String) : name ∈ distinct names ↔ name ∈ names := by
  induction names with
  | nil => simp [distinct]
  | cons head rest ih =>
    by_cases same : name = head
    · simp [distinct, same]
    · simp [distinct, same, ih]

theorem nodup_distinct (names : List String) : (distinct names).Nodup := by
  induction names with
  | nil => exact List.Pairwise.nil
  | cons head rest ih =>
    refine List.nodup_cons.mpr ⟨by simp, List.Nodup.sublist List.filter_sublist ih⟩

theorem distinct_filter (keep : String → Bool) (names : List String) :
    distinct (names.filter keep) = (distinct names).filter keep := by
  induction names with
  | nil => rfl
  | cons name rest ih =>
      by_cases kept : keep name = true
      · rw [List.filter_cons_of_pos kept, distinct, distinct, ih, List.filter_cons_of_pos kept, List.filter_filter,
          List.filter_filter]
        exact congrArg (name :: ·) (List.filter_congr fun other _ => Bool.and_comm _ _)
      · have others : ((distinct rest).filter (· != name)).filter keep = (distinct rest).filter keep := by
          rw [List.filter_filter]
          refine List.filter_congr fun other _ => ?_
          by_cases same : other = name <;> simp [same, kept]
        rw [List.filter_cons_of_neg kept, distinct, List.filter_cons_of_neg kept, others, ih]

theorem distinct_eq_erase_dups (names : List String) : distinct names = names.eraseDups := by
  cases names with
  | nil => rfl
  | cons name rest =>
      rw [distinct, List.eraseDups_cons, ← distinct_filter]
      exact congrArg (name :: ·) (distinct_eq_erase_dups (rest.filter (· != name)))
termination_by names.length
decreasing_by exact Nat.lt_succ_of_le (List.length_filter_le _ _)

namespace Repository

def fresh (branch : String) : Repository := ⟨branch, [branch], [], []⟩

def WellFormed (repository : Repository) : Prop :=
  repository.current ∈ repository.branches ∧ repository.branches.Nodup ∧ repository.staged.Nodup

theorem fresh_well_formed (branch : String) : (fresh branch).WellFormed := by
  simp [fresh, WellFormed]

def hasBranch (repository : Repository) (branch : String) : Bool := repository.branches.contains branch

theorem has_branch_iff (repository : Repository) (branch : String) :
    repository.hasBranch branch = true ↔ branch ∈ repository.branches := by
  simp [hasBranch]

def commitsOn (repository : Repository) (branch : String) : List Commit :=
  repository.commits.filter (·.branch == branch)

theorem mem_commits_on (repository : Repository) (branch : String) (commit : Commit) :
    commit ∈ repository.commitsOn branch ↔ commit ∈ repository.commits ∧ commit.branch = branch := by
  simp [commitsOn]

/-- The commit with the highest time, and the last such commit if there are several. -/
def newest? : List Commit → Option Commit
  | [] => none
  | commit :: rest => match newest? rest with
    | none => some commit
    | some best => if commit.timestamp ≤ best.timestamp then some best else some commit

def tip? (repository : Repository) (branch : String) : Option Commit :=
  newest? (repository.commitsOn branch)

def latest? (repository : Repository) : Option Commit := repository.commits.getLast?

def find? (repository : Repository) (beginning : String) : Option Commit :=
  repository.commits.find? fun commit => beginning.toList.isPrefixOf commit.id.toList

def switch (repository : Repository) (branch : String) : Repository :=
  { repository with current := branch }

def addBranch (repository : Repository) (branch : String) : Repository :=
  { repository with branches := repository.branches ++ [branch] }

def removeBranch (repository : Repository) (branch : String) : Repository :=
  { repository with branches := repository.branches.filter (· != branch) }

def switchKnown (repository : Repository) (branch : String) : Bool × Repository :=
  if repository.hasBranch branch then (true, repository.switch branch) else (false, repository)

def addNewBranch (repository : Repository) (branch : String) : Bool × Repository :=
  if repository.hasBranch branch then (false, repository) else (true, repository.addBranch branch)

def removeOtherBranch (repository : Repository) (branch : String) : Bool × Repository :=
  if branch = repository.current then (false, repository)
  else
    let kept := repository.removeBranch branch
    (kept.branches.length != repository.branches.length, kept)

theorem switch_known_of_known (repository : Repository) (branch : String)
    (known : repository.hasBranch branch = true) :
    repository.switchKnown branch = (true, repository.switch branch) := by
  rw [switchKnown, if_pos known]

theorem switch_known_of_unknown (repository : Repository) (branch : String)
    (unknown : repository.hasBranch branch = false) : repository.switchKnown branch = (false, repository) := by
  rw [switchKnown, unknown, if_neg Bool.false_ne_true]

theorem add_new_branch_of_known (repository : Repository) (branch : String)
    (known : repository.hasBranch branch = true) : repository.addNewBranch branch = (false, repository) := by
  rw [addNewBranch, if_pos known]

theorem add_new_branch_of_unknown (repository : Repository) (branch : String)
    (unknown : repository.hasBranch branch = false) :
    repository.addNewBranch branch = (true, repository.addBranch branch) := by
  rw [addNewBranch, unknown, if_neg Bool.false_ne_true]

theorem has_branch_add_branch (repository : Repository) (branch : String) :
    (repository.addBranch branch).hasBranch branch = true := by
  simp [hasBranch, addBranch]

theorem remove_branch_of_unknown (repository : Repository) (branch : String)
    (unknown : repository.hasBranch branch = false) : repository.removeBranch branch = repository := by
  have kept : repository.branches.filter (· != branch) = repository.branches := by
    refine List.filter_eq_self.mpr ?_
    intro name present
    have different : name ≠ branch := by
      intro same
      have known := (has_branch_iff repository branch).mpr (same ▸ present)
      rw [unknown] at known
      exact Bool.false_ne_true known
    exact bne_iff_ne.mpr different
  rw [removeBranch, kept]

theorem remove_other_branch_of_known (repository : Repository) (branch : String)
    (other : branch ≠ repository.current) (known : repository.hasBranch branch = true) :
    repository.removeOtherBranch branch = (true, repository.removeBranch branch) := by
  have shorter : (repository.removeBranch branch).branches.length < repository.branches.length := by
    refine List.length_filter_lt_length_iff_exists.mpr ⟨branch, (has_branch_iff repository branch).mp known, ?_⟩
    simp
  rw [removeOtherBranch, if_neg other]
  exact Prod.ext (bne_iff_ne.mpr (Nat.ne_of_lt shorter)) rfl

theorem remove_other_branch_of_unknown (repository : Repository) (branch : String)
    (other : branch ≠ repository.current) (unknown : repository.hasBranch branch = false) :
    repository.removeOtherBranch branch = (false, repository) := by
  rw [removeOtherBranch, if_neg other, remove_branch_of_unknown repository branch unknown]
  simp

def stage (repository : Repository) (files : List String) : Repository :=
  { repository with staged := distinct files }

def unstage (repository : Repository) : Repository := { repository with staged := [] }

def append (repository : Repository) (commit : Commit) : Repository :=
  { repository with commits := repository.commits ++ [commit] }

theorem well_formed_switch (repository : Repository) (branch : String) (valid : repository.WellFormed)
    (known : branch ∈ repository.branches) : (repository.switch branch).WellFormed :=
  ⟨known, valid.2⟩

theorem well_formed_add_branch (repository : Repository) (branch : String)
    (valid : repository.WellFormed) (new : branch ∉ repository.branches) :
    (repository.addBranch branch).WellFormed := by
  refine ⟨List.mem_append_left _ valid.1, ?_, valid.2.2⟩
  refine List.nodup_append.mpr ⟨valid.2.1, by simp, ?_⟩
  intro name present other single same
  rw [List.mem_singleton.mp single] at same
  exact new (same ▸ present)

theorem well_formed_remove_branch (repository : Repository) (branch : String)
    (valid : repository.WellFormed) (other : branch ≠ repository.current) :
    (repository.removeBranch branch).WellFormed := by
  refine ⟨List.mem_filter.mpr ⟨valid.1, ?_⟩, List.Nodup.sublist List.filter_sublist valid.2.1, valid.2.2⟩
  exact bne_iff_ne.mpr (Ne.symm other)

theorem well_formed_stage (repository : Repository) (files : List String)
    (valid : repository.WellFormed) : (repository.stage files).WellFormed :=
  ⟨valid.1, valid.2.1, nodup_distinct files⟩

theorem well_formed_unstage (repository : Repository) (valid : repository.WellFormed) :
    repository.unstage.WellFormed :=
  ⟨valid.1, valid.2.1, List.nodup_nil⟩

theorem well_formed_append (repository : Repository) (commit : Commit)
    (valid : repository.WellFormed) : (repository.append commit).WellFormed :=
  valid

end Repository

end GitPractice
