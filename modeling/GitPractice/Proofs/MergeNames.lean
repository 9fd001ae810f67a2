import GitPractice.Proofs.Grammar
import GitPractice.Proofs.Merging
import GitPractice.Proofs.Quoting

set_option autoImplicit false

namespace GitPractice

open Line

section
variable {first second source target : String} (sourceWritten : Quoted first.toList source.toList)
include sourceWritten

theorem Line.tokenize_merge :
    tokenize ("git merge " ++ first) = [⟨"git", false⟩, ⟨"merge", false⟩, ⟨source, true⟩] := by
  have pieces : ("git merge " ++ first).toList = "git".toList ++ ' ' :: ("merge".toList ++ ' ' :: first.toList) := by
    simp
  have git : Spells "git".toList ⟨"git", false⟩ := spells_plain (by decide) rfl
  have merge : Spells "merge".toList ⟨"merge", false⟩ := spells_plain (by decide) rfl
  have name : Spells first.toList ⟨source, true⟩ := spells_quoted sourceWritten
  rw [tokenize, pieces, scan_spelled git, scan_spelled merge, scan_spelled_last name]

theorem Line.tokenize_merge_into (targetWritten : Quoted second.toList target.toList) :
    tokenize ("git merge " ++ first ++ " into " ++ second) =
      [⟨"git", false⟩, ⟨"merge", false⟩, ⟨source, true⟩, ⟨"into", false⟩, ⟨target, true⟩] := by
  have pieces : ("git merge " ++ first ++ " into " ++ second).toList =
      "git".toList ++ ' ' :: ("merge".toList ++ ' ' ::
        (first.toList ++ ' ' :: ("into".toList ++ ' ' :: second.toList))) := by
    simp
  have git : Spells "git".toList ⟨"git", false⟩ := spells_plain (by decide) rfl
  have merge : Spells "merge".toList ⟨"merge", false⟩ := spells_plain (by decide) rfl
  have into : Spells "into".toList ⟨"into", false⟩ := spells_plain (by decide) rfl
  have name : Spells first.toList ⟨source, true⟩ := spells_quoted sourceWritten
  have goal : Spells second.toList ⟨target, true⟩ := spells_quoted targetWritten
  rw [tokenize, pieces, scan_spelled git, scan_spelled merge, scan_spelled name, scan_spelled into,
    scan_spelled_last goal]

end

namespace Command

theorem read_merge_quoted (source : String) :
    readMerge [⟨source, true⟩] = .merge (if source = mergeWord then none else some source) none := by
  by_cases keyword : source = mergeWord
  · simp [readMerge, operands, Token.isFlag, keyword]
  · simp [readMerge, operands, Token.isFlag, keyword]

theorem read_merge_into_quoted (source target : String) :
    readMerge [⟨source, true⟩, ⟨mergeWord, false⟩, ⟨target, true⟩] =
      .merge (if source = mergeWord then none else some source)
        (some (if source = mergeWord then mergeWord else target)) := by
  by_cases keyword : source = mergeWord
  · simp [readMerge, operands, Token.isFlag, mergeWord, keyword]
  · simp_all [readMerge, operands, Token.isFlag, mergeWord]

section
variable {first second source target : String} (sourceWritten : Quoted first.toList source.toList)
include sourceWritten

theorem parse_merge :
    parse ("git merge " ++ first) = .ok (.merge (if source = mergeWord then none else some source) none) := by
  have unasked : wantsHelp [⟨source, true⟩] = false := by simp [wantsHelp, isLongHelp, isShortHelp]
  rw [parse_known .merge (tokenize_merge sourceWritten) unasked, read, read_merge_quoted]

theorem parse_merge_into (targetWritten : Quoted second.toList target.toList) :
    parse ("git merge " ++ first ++ " into " ++ second) =
      .ok (.merge (if source = mergeWord then none else some source)
        (some (if source = mergeWord then mergeWord else target))) := by
  have unasked : wantsHelp [⟨source, true⟩, ⟨mergeWord, false⟩, ⟨target, true⟩] = false := by
    simp [wantsHelp, isLongHelp, isShortHelp, mergeWord]
  rw [parse_known .merge (tokenize_merge_into sourceWritten targetWritten) unasked, read,
    ← read_merge_into_quoted]
  rfl

end

end Command

theorem merged_recorded {before after : State} {source : String} {target : Option String} {outcome : Outcome String}
    (merged : Merged before (some source) target outcome after)
    (reachable : ∀ name ∈ target, name ∈ before.repository.branches) (known : source ∈ before.repository.branches)
    (apart : source ≠ target.getD before.repository.current)
    (filled : ∃ commit ∈ before.repository.commits, commit.branch = source) :
    ∃ id, before.ids.peek = .id id ∧
      let into := target.getD before.repository.current
      outcome = .done (mergeReport source into target before.repository.commits) ∧
      after =
        { before with
          repository :=
            { before.repository with
              current := into
              commits := before.repository.commits ++ [mergeCommit before before.config.signature source into id] }
          ids := before.ids.next } := by
  cases merged with
  | targetUnknown name named unknown => exact absurd (reachable name named) unknown
  | sourceMissing _ unnamed => cases unnamed
  | sourceUnknown _ name named unknown =>
      cases named
      exact absurd known unknown
  | intoItself _ name named _ same =>
      cases named
      exact absurd same apart
  | sourceEmpty _ name named _ _ empty =>
      cases named
      obtain ⟨commit, present, onSource⟩ := filled
      exact absurd onSource (empty commit present)
  | recorded _ name into id named _ goal _ _ drawn signature signs =>
      cases named
      subst goal
      cases (before.config.signs_iff signature).mp signs
      exact ⟨id, drawn, rfl, rfl⟩

namespace Session

section
variable {session : Session} {target : Option String}
variable (reachable : ∀ name ∈ target, name ∈ session.repository.branches)
include reachable

theorem run_merge_missing : session.run (.merge none target) = (.refused .missingSource, session) := by
  have refuses : Plan.ofCommand session.settings session.config session.repository (.merge none target) =
      .refuse .missingSource := by
    rw [Plan.ofCommand, Plan.merge, known_target reachable]
  rw [run, conduct, Action.of_command_planned, refuses]
  rfl

theorem run_merge_recorded (steady : session.ids.Steady) {source : String}
    (known : source ∈ session.repository.branches) (apart : source ≠ target.getD session.repository.current)
    (filled : ∃ commit ∈ session.repository.commits, commit.branch = source) :
    ∃ id, session.ids.peek = .id id ∧
      let into := target.getD session.repository.current
      session.run (.merge (some source) target) =
        (.done (mergeReport source into target session.repository.commits),
          { session with
            repository :=
              { session.repository with
                current := into
                commits := session.repository.commits ++ [mergeCommit session.toState session.config.signature source into id] }
            ids := session.ids.next }) := by
  have found := (session.repository.has_branch_iff source).mpr known
  have decided := merge_known_decided steady reachable rfl known rfl
  obtain ⟨id, drawn, told, reached⟩ := merged_recorded decided reachable known apart filled
  have planned : Plan.ofCommand session.settings session.config session.repository (.merge (some source) target) =
      Plan.mergeKnown session.config.signature session.repository source
        (target.getD session.repository.current) target.isSome := by
    simp only [Plan.ofCommand, Plan.merge, known_target reachable, found, if_true]
  refine ⟨id, drawn, ?_⟩
  rw [run, conduct, Action.of_command_planned, planned, told, reached]

end

theorem merged_by_name {session : Session} (steady : session.ids.Steady) {first second source target : String}
    (known : source ∈ session.repository.branches) (reachable : target ∈ session.repository.branches)
    (apart : source ≠ target) (filled : ∃ commit ∈ session.repository.commits, commit.branch = source)
    (sourceWritten : Quoted first.toList source.toList) (targetWritten : Quoted second.toList target.toList) :
    (source ≠ "into" →
      ∃ id, session.ids.peek = .id id ∧
        let after : Session :=
          { session with
            repository :=
              { session.repository with
                current := target
                commits := session.repository.commits ++ [mergeCommit session.toState session.config.signature source target id] }
            ids := session.ids.next }
        session.evaluate ("git merge " ++ first ++ " into " ++ second) =
            (.done (mergeReport source target (some target) session.repository.commits), after) ∧
          (target = session.repository.current →
            session.evaluate ("git merge " ++ first) =
              (.done (mergeReport source target none session.repository.commits), after))) ∧
    (source = "into" →
      session.evaluate ("git merge " ++ first ++ " into " ++ second) = (.refused .missingSource, session) ∧
        session.evaluate ("git merge " ++ first) = (.refused .missingSource, session)) := by
  have here := Command.parse_merge sourceWritten
  have there := Command.parse_merge_into sourceWritten targetWritten
  refine ⟨?_, ?_⟩
  · intro other
    have apartFromWord : source ≠ Command.mergeWord := other
    rw [if_neg apartFromWord] at here
    rw [if_neg apartFromWord, if_neg apartFromWord] at there
    have named : ∀ name ∈ some target, name ∈ session.repository.branches := by simpa using reachable
    have unnamed : ∀ name ∈ (none : Option String), name ∈ session.repository.branches := by simp
    obtain ⟨id, drawn, recorded⟩ := run_merge_recorded named steady known apart filled
    refine ⟨id, drawn, ?_⟩
    intro after
    refine ⟨?_, ?_⟩
    · rw [evaluate, there]
      exact recorded
    · rintro rfl
      obtain ⟨_, same, recordedHere⟩ := run_merge_recorded unnamed steady known apart filled
      cases drawn.symm.trans same
      rw [evaluate, here]
      exact recordedHere
  · intro word
    have isWord : source = Command.mergeWord := word
    rw [if_pos isWord] at here
    rw [if_pos isWord, if_pos isWord] at there
    rw [evaluate, evaluate, here, there]
    exact ⟨run_merge_missing (by simpa using isWord ▸ known), run_merge_missing (by simp)⟩

theorem merged_by_name_flag :
    let session := (start {} .sequential).after
      [.typed "git checkout -b '--help'", .typed "git branch into", .typed "git checkout into"]
    ∃ after, session.evaluate ("git merge " ++ "'--'\"help\"" ++ " into " ++ "'into'") =
        (.done ("Switched to branch 'into'\nMerge made by the 'ort' strategy.\nMerging:\n" ++
          "  0000001 Branch from main\n  unknown\nfound 1 commit(s) from '--help' to merge into 'into'."), after) ∧
      (session.evaluate ("git merge " ++ "'--'\"help\"")).2 = after ∧
      after.repository.commits.map (fun commit => (commit.mergedFrom, commit.mergedInto)) =
        [(none, none), (some "--help", some "into")] := by
  intro session
  have steady : session.ids.Steady := after_steady _ fun place => ⟨_, rfl⟩
  have sourceWritten : Quoted "'--'\"help\"".toList "--help".toList :=
    .more '\'' ['-', '-'] rfl (by decide) (.last '"' "help".toList rfl (by decide))
  have targetWritten : Quoted "'into'".toList "into".toList := .last '\'' "into".toList rfl (by decide)
  obtain ⟨known, reachable, current, filled, second⟩ :
      "--help" ∈ session.repository.branches ∧ "into" ∈ session.repository.branches ∧
        "into" = session.repository.current ∧
        (∃ commit ∈ session.repository.commits, commit.branch = "--help") ∧
        session.ids.peek = .id "0000002" := by
    decide +kernel
  obtain ⟨merges, _⟩ := merged_by_name steady known reachable (by decide) filled sourceWritten targetWritten
  obtain ⟨id, drawn, there, here⟩ := merges (by decide)
  rw [second] at drawn
  cases drawn
  have told : mergeReport "--help" "into" (some "into") session.repository.commits =
      "Switched to branch 'into'\nMerge made by the 'ort' strategy.\nMerging:\n" ++
        "  0000001 Branch from main\n  unknown\nfound 1 commit(s) from '--help' to merge into 'into'." := by
    decide +kernel
  rw [told] at there
  exact ⟨_, there, (Prod.mk.inj (here current)).2, by decide +kernel⟩

/-- In quotes or not, the word between the names is taken for itself. -/
theorem quoted_word_not_merged :
    let session := (start {} .sequential).after [.typed "git checkout -b into"]
    session.ids.Steady ∧ "into" ∈ session.repository.branches ∧ "main" ∈ session.repository.branches ∧
    (∃ commit ∈ session.repository.commits, commit.branch = "into") ∧
    Quoted "\"into\"".toList "into".toList ∧ Quoted "\"main\"".toList "main".toList ∧
    (session.evaluate "git merge \"into\" into \"main\"").1 = .refused .missingSource ∧
    (session.evaluate "git merge \"into\" into \"main\"").2.repository = session.repository := by
  intro session
  have steady : session.ids.Steady := after_steady _ fun place => ⟨_, rfl⟩
  have sourceWritten : Quoted "\"into\"".toList "into".toList := .last '"' "into".toList rfl (by decide)
  have targetWritten : Quoted "\"main\"".toList "main".toList := .last '"' "main".toList rfl (by decide)
  exact ⟨steady, by decide, by decide, by decide, sourceWritten, targetWritten, by decide, by decide⟩

end Session

end GitPractice
