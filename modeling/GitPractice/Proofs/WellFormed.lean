import GitPractice.Proofs.Seed
import GitPractice.Proofs.Step

set_option autoImplicit false

namespace GitPractice

def Timed (commits : List Commit) : Prop :=
  ∀ (index : Nat) (commit : Commit), commits[index]? = some commit → commit.timestamp = Clock.timeOf index

theorem lookup_concat {α : Type} {items : List α} {last item : α} {index : Nat}
    (found : (items ++ [last])[index]? = some item) :
    (index < items.length ∧ items[index]? = some item) ∨ (index = items.length ∧ item = last) := by
  rcases Nat.lt_trichotomy index items.length with before | atEnd | beyond
  · rw [List.getElem?_append_left before] at found
    exact .inl ⟨before, found⟩
  · subst atEnd
    rw [List.getElem?_concat_length] at found
    exact .inr ⟨rfl, (Option.some.inj found).symm⟩
  · have absent : (items ++ [last])[index]? = none := by
      rw [List.getElem?_eq_none_iff, List.length_append]
      exact beyond
    rw [absent] at found
    exact absurd found (by simp)

theorem timed_nil : Timed [] := by
  intro index commit found
  exact absurd found (by simp)

theorem timed_concat (commits : List Commit) (last : Commit) (timed : Timed commits)
    (time : last.timestamp = Clock.timeOf commits.length) : Timed (commits ++ [last]) := by
  intro index commit found
  rcases lookup_concat found with ⟨_, earlier⟩ | ⟨atEnd, isLast⟩
  · exact timed index commit earlier
  · rw [atEnd, isLast, time]

theorem timed_increasing (commits : List Commit) (timed : Timed commits) :
    commits.Pairwise fun earlier later => earlier.timestamp < later.timestamp := by
  rw [List.pairwise_iff_getElem]
  intro first second firstBound secondBound before
  rw [timed first _ (List.getElem?_eq_getElem firstBound),
    timed second _ (List.getElem?_eq_getElem secondBound)]
  exact Clock.time_of_lt before

theorem timed_step {settings : Settings} {command : Command} {before after : State}
    (step : State.Step settings command before after) (timed : Timed before.repository.commits) :
    Timed after.repository.commits := by
  rcases State.step_commits step with kept | emptied | ⟨draft, id, _, appended⟩
  · rw [kept]
    exact timed
  · rw [emptied]
    exact timed_nil
  · rw [appended]
    exact timed_concat before.repository.commits _ timed rfl

theorem well_formed_step {settings : Settings} {command : Command} {before after : State}
    (step : State.Step settings command before after) (valid : before.repository.WellFormed) :
    after.repository.WellFormed := by
  cases step with
  | still repository ids =>
      rw [repository]
      exact valid
  | broken reason drawn repository ids =>
      rw [repository]
      exact valid
  | reset asked repository ids =>
      rw [repository]
      exact Repository.fresh_well_formed settings.defaultBranch
  | relabel kept sound ids => exact sound valid
  | record draft onto id drawn kept sound here sourced repository ids =>
      rw [repository]
      exact Repository.well_formed_append onto _ (sound valid)

theorem seed_timed (seed : Seed) (configured : Signature) (ids : IdSource) (repository : Repository)
    (built : (seed.build configured ids).1 = .done repository) : Timed repository.commits := by
  intro index commit found
  obtain ⟨entry, id, same⟩ := Seed.build_commit seed configured ids repository built index commit found
  rw [same]
  rfl

namespace Session

theorem after_well_formed (settings : Settings) (ids : IdSource) (course : List Event) :
    ((start settings ids).after course).repository.WellFormed :=
  after_repository settings (Repository.fresh_well_formed settings.defaultBranch)
    (fun _ _ _ step valid => well_formed_step step valid) Seed.build_well_formed ids course

theorem after_timed (settings : Settings) (ids : IdSource) (course : List Event) :
    Timed ((start settings ids).after course).repository.commits :=
  after_repository (motive := fun repository => Timed repository.commits) settings timed_nil
    (fun _ _ _ step timed => timed_step step timed) seed_timed ids course

theorem reached_repository_sound (settings : Settings) (ids : IdSource) (course : List Event) :
    let repository := ((start settings ids).after course).repository
    repository.current ∈ repository.branches ∧
      repository.branches ≠ [] ∧ repository.branches.Nodup ∧ repository.staged.Nodup ∧
      (∀ (index : Nat) (commit : Commit), repository.commits[index]? = some commit →
        commit.timestamp = 1640995200000 + index * 300000) ∧
      repository.commits.Pairwise fun earlier later => earlier.timestamp < later.timestamp := by
  intro repository
  obtain ⟨current, labels, staged⟩ := after_well_formed settings ids course
  have timed := after_timed settings ids course
  exact ⟨current, List.ne_nil_of_mem current, labels, staged, timed, timed_increasing _ timed⟩

def mixedCourse : List Event :=
  [.loaded
     { branches := ["main", "dev", "main"]
       commits := [{ branch := "dev", message := "First", id := some "abc" }]
       staged := ["a.txt", "a.txt"] },
   .loaded { branches := [" "] },
   .typed "git checkout -b topic",
   .evaluated "git branch -d main",
   .typed "git merge dev"]

theorem mixed_course_time :
    ((start {} .sequential).after mixedCourse).repository.commits[2]?.map Commit.timestamp =
      some 1640995800000 := by
  obtain ⟨_, _, _, _, times, _⟩ := reached_repository_sound {} .sequential mixedCourse
  cases found : ((start {} .sequential).after mixedCourse).repository.commits[2]? with
  | none => exact absurd found (by decide)
  | some commit =>
      rw [Option.map_some, times 2 commit found]
      rfl

end Session

end GitPractice
