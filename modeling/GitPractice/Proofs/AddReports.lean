import GitPractice.Proofs.Listings

set_option autoImplicit false

namespace GitPractice

theorem distinct_sublist (names : List String) : (distinct names).Sublist names := by
  induction names with
  | nil => exact List.Sublist.slnil
  | cons name rest ih => exact (List.filter_sublist.trans ih).cons_cons name

theorem distinct_ne_nil {names : List String} (filled : names ≠ []) : distinct names ≠ [] := by
  obtain ⟨name, present⟩ := List.exists_mem_of_ne_nil names filled
  exact List.ne_nil_of_mem ((mem_distinct name names).mpr present)

theorem distinct_eq_self_iff (names : List String) : distinct names = names ↔ names.Nodup := by
  constructor
  · intro same
    rw [← same]
    exact nodup_distinct names
  · intro apart
    induction names with
    | nil => rfl
    | cons name rest ih =>
        obtain ⟨fresh, others⟩ := List.nodup_cons.mp apart
        have kept : rest.filter (· != name) = rest :=
          List.filter_eq_self.mpr fun other present => bne_iff_ne.mpr fun same => fresh (same ▸ present)
        rw [distinct, ih others, kept]

namespace Listing

def spread (names : List String) : Nat := names.foldr (fun name rest => name.length + 1 + rest) 0

theorem spread_cons (name : String) (rest : List String) : spread (name :: rest) = name.length + 1 + spread rest := rfl

theorem joined_length {names : List String} (filled : names ≠ []) :
    (" ".intercalate names).length + 1 = spread names := by
  induction names with
  | nil => exact absurd rfl filled
  | cons name rest ih =>
      cases rest with
      | nil => simp [spread]
      | cons next more =>
          have others := ih (List.cons_ne_nil next more)
          have gap : " ".length = 1 := rfl
          rw [String.intercalate_cons_of_ne_nil (List.cons_ne_nil next more), String.length_append,
            String.length_append, spread_cons]
          omega

section
variable {fewer names : List String} (within : fewer.Sublist names)
include within

theorem spread_sublist : spread fewer ≤ spread names ∧ (spread fewer = spread names → fewer = names) := by
  induction within with
  | slnil => exact ⟨Nat.le_refl _, fun _ => rfl⟩
  | cons name rest ih =>
      rw [spread_cons]
      exact ⟨by omega, fun same => absurd same (by omega)⟩
  | cons_cons name rest ih =>
      obtain ⟨shorter, whole⟩ := ih
      rw [spread_cons, spread_cons]
      refine ⟨by omega, fun same => ?_⟩
      rw [whole (by omega)]

theorem joined_sublist (filled : fewer ≠ []) (same : " ".intercalate fewer = " ".intercalate names) :
    fewer = names := by
  have more : names ≠ [] := fun empty => filled (List.sublist_nil.mp (empty ▸ within))
  refine (spread_sublist within).2 ?_
  rw [← joined_length filled, ← joined_length more, same]

end

theorem joined_distinct_iff {names : List String} (filled : names ≠ []) :
    " ".intercalate names = " ".intercalate (distinct names) ↔ names.Nodup := by
  rw [← distinct_eq_self_iff]
  constructor
  · intro same
    exact joined_sublist (distinct_sublist names) (distinct_ne_nil filled) same.symm
  · intro same
    rw [same]

theorem status_filled {repository : Repository} (filled : repository.staged ≠ []) :
    status repository = Text.trimmedEnd ("On branch " ++ repository.current ++ "\n\nChanges to be committed:\n" ++
      "".intercalate (repository.staged.map stagedLine)) := by
  have heading : "\n" ++ "\nChanges to be committed:\n" = "\n\nChanges to be committed:\n" := rfl
  cases staged : repository.staged with
  | nil => exact absurd staged filled
  | cons file more =>
      have part : stagedPart (file :: more) =
          "\nChanges to be committed:\n" ++ "".intercalate ((file :: more).map stagedLine) := rfl
      rw [status, staged, part, ← heading]
      simp only [String.append_assoc]

end Listing

namespace Command

/-- The line asks to stage what its arguments name; none of them is empty, and the first one is no bare word
for every file. -/
structure Adds (args : List Line.Token) (line : String) : Prop where
  tokenized : ∃ first second, Line.tokenize line = ⟨tool, first⟩ :: ⟨Subcommand.add.word, second⟩ :: args
  unasked : wantsHelp args = false
  given : args ≠ []
  filled : ∀ token ∈ args, token.text ≠ ""
  named : ∀ token ∈ args.head?, token.quoted = true ∨ token.text ∉ everyFile

theorem parse_adds {args : List Line.Token} {line : String} (adds : Adds args line) :
    parse line = .ok (.addPaths (args.map Line.Token.text)) := by
  obtain ⟨⟨first, second, tokens⟩, unasked, given, filled, named⟩ := adds
  have read : readPaths args = .addPaths (args.map Line.Token.text) := by
    rw [readPaths, List.filter_eq_self.mpr]
    exact List.forall_mem_map.mpr fun token present => bne_iff_ne.mpr (filled token present)
  rw [parse_known .add tokens unasked, Command.read]
  cases args with
  | nil => exact absurd rfl given
  | cons path more =>
      have single : (!path.quoted && everyFile.contains path.text) = false := by
        rcases named path rfl with quoted | other
        · simp [quoted]
        · simp [other]
      rw [readAdd, single, if_neg Bool.false_ne_true, read]

end Command

namespace Session

theorem add_reports_paths (session : Session) {args : List Line.Token} {line : String}
    (adds : Command.Adds args line) :
    let paths := args.map Line.Token.text
    let after := { session with repository := { session.repository with staged := paths.eraseDups } }
    session.evaluate line = (.done ("Staged files: " ++ " ".intercalate paths), after) ∧
    (∀ file, file ∈ after.repository.staged ↔ file ∈ paths) ∧ after.repository.staged.Nodup ∧
    (" ".intercalate paths = " ".intercalate after.repository.staged ↔ paths.Nodup) ∧
    after.evaluate "git status" =
      (.done (Text.trimmedEnd ("On branch " ++ session.repository.current ++ "\n\nChanges to be committed:\n" ++
        "".intercalate (after.repository.staged.map fun file => "\t" ++ file ++ "\n"))), after) := by
  intro paths after
  have given : paths ≠ [] := mt List.map_eq_nil_iff.mp adds.given
  have once : after.repository.staged = distinct paths := (distinct_eq_erase_dups paths).symm
  have staged : after = { session with repository := session.repository.stage paths } := by
    rw [Repository.stage, distinct_eq_erase_dups]
  refine ⟨?_, ?_, ?_, ?_, ?_⟩
  · rw [evaluate, Command.parse_adds adds, staged]
    change session.run (.addPaths paths) = _
    clear_value paths
    cases paths with
    | nil => exact absurd rfl given
    | cons path more => rfl
  · intro file
    rw [once, mem_distinct]
  · exact once ▸ nodup_distinct paths
  · exact once ▸ Listing.joined_distinct_iff given
  · have filled : after.repository.staged ≠ [] := once ▸ distinct_ne_nil given
    rw [evaluate_status, Listing.status_filled filled]
    rfl

theorem add_reports_paths_spaced :
    let session := (start {} .sequential).after [.typed "git add ."]
    session.evaluate "git add b 'a x' b c 'a x'" = (.done "Staged files: b a x b c a x",
      { session with repository := { session.repository with staged := ["b", "a x", "c"] } }) := by
  intro session
  have adds : Command.Adds [⟨"b", false⟩, ⟨"a x", true⟩, ⟨"b", false⟩, ⟨"c", false⟩, ⟨"a x", true⟩]
      "git add b 'a x' b c 'a x'" :=
    ⟨⟨false, false, rfl⟩, rfl, by decide, by decide, by decide⟩
  have once : ["b", "a x", "b", "c", "a x"].eraseDups = ["b", "a x", "c"] := by decide
  obtain ⟨told, _⟩ := add_reports_paths session adds
  simp only [List.map_cons, List.map_nil, once] at told
  exact told

theorem path_told_twice :
    let ran := (start {} .sequential).evaluate "git add a a"
    Command.Adds [⟨"a", false⟩, ⟨"a", false⟩] "git add a a" ∧ ran.2.repository.staged = ["a"] ∧
      ran.1 = .done "Staged files: a a" ∧
      ran.1 ≠ .done ("Staged files: " ++ " ".intercalate ran.2.repository.staged) := by
  have adds : Command.Adds [⟨"a", false⟩, ⟨"a", false⟩] "git add a a" :=
    ⟨⟨false, false, rfl⟩, rfl, by decide, by decide, by decide⟩
  exact ⟨adds, by decide, by decide, by decide⟩

end Session

end GitPractice
