import GitPractice.Config
import GitPractice.Error
import GitPractice.Text.Blank

set_option autoImplicit false

namespace GitPractice

structure Settings where
  defaultBranch : String := "main"
  repositoryPath : String := "/challenge"
  everyFile : List String := ["file1.txt", "file2.txt"]
  git : Config := .empty

namespace Settings

def config (settings : Settings) : Config := Config.defaults.overlay settings.git.entries

def check (settings : Settings) : Except SettingsFault Settings :=
  if Text.isBlankText settings.defaultBranch then .error .blankBranch
  else if settings.defaultBranch.toList.any Text.isBlank then .error (.spacedBranch settings.defaultBranch)
  else .ok settings

theorem check_ok_iff (settings checked : Settings) :
    settings.check = .ok checked ↔ checked = settings ∧ settings.defaultBranch ≠ "" ∧
      settings.defaultBranch.toList.any Text.isBlank = false := by
  by_cases spaced : settings.defaultBranch.toList.any Text.isBlank = true
  · simp only [check, spaced, if_true, Bool.true_eq_false, and_false, iff_false]
    split <;> simp
  · have plain : settings.defaultBranch.toList.any Text.isBlank = false := by simpa using spaced
    cases listed : settings.defaultBranch.toList with
    | nil =>
      have empty : settings.defaultBranch = "" := String.toList_inj.mp (by simpa using listed)
      simp [check, Text.isBlankText, empty]
    | cons c rest =>
      have filled : settings.defaultBranch ≠ "" := fun empty => by simp [empty] at listed
      rw [listed] at plain
      have first : Text.isBlank c = false := by
        simp only [List.any_cons, Bool.or_eq_false_iff] at plain
        exact plain.1
      simp [check, Text.isBlankText, listed, plain, first, filled, eq_comm]

end Settings

end GitPractice
