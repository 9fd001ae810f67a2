import GitPractice.Session

set_option autoImplicit false

namespace GitPractice

open Line

theorem Line.Token.text_of_exactly {token : Token} {flag : String} (same : token.isExactly flag = true) :
    token.text = flag := by
  rw [isExactly, Bool.and_eq_true, beq_iff_eq] at same
  exact same.2

namespace Command

/-- What a subcommand that is asked for help complains about before help is looked for. -/
def complaint? (args : List Token) : Subcommand → Option Error
  | .checkout =>
      if args.all Token.isFlag && !args.head?.any (·.isExactly "-b") then
        some (.missingBranch checkoutComplaint)
      else none
  | .config =>
      match args with
      | [scope, _] =>
          if scopeWords.contains scope.text then some (.missingConfigArgument .scoped) else none
      | _ => none
  | _ => none

theorem operands_nil_iff (args : List Token) : operands args = [] ↔ args.all Token.isFlag = true := by
  simp [operands, List.filter_eq_nil_iff]

theorem asked_alone {token : Token} (asked : wantsHelp [token] = true) :
    token.text = "--help" ∨ token.text = "-h" := by
  simp only [wantsHelp, isLongHelp, isShortHelp, List.any_cons, List.any_nil, Bool.or_false, List.head?_cons,
    Option.any_some, Bool.or_eq_true, Bool.and_eq_true, beq_iff_eq] at asked
  rcases asked with ⟨_, long⟩ | ⟨_, short⟩
  · exact .inl long
  · exact .inr short

theorem read_checkout_asked (args : List Token) (asked : wantsHelp args = true) :
    match complaint? args .checkout with
    | none => ∃ command, readCheckout args = .ok command
    | some error => readCheckout args = .error error := by
  cases args with
  | nil => exact absurd asked (by decide)
  | cons first rest =>
      by_cases switches : first.isExactly "-b" = true
      · have silent : complaint? (first :: rest) .checkout = none := by
          simp [complaint?, switches]
        rw [silent]
        cases rest with
        | nil =>
            have isSwitch := Token.text_of_exactly switches
            rcases asked_alone asked with help | help
            · exact absurd (isSwitch.symm.trans help) (by decide)
            · exact absurd (isSwitch.symm.trans help) (by decide)
        | cons branch more => exact ⟨.checkoutNew branch.text, by rw [readCheckout, if_pos switches]⟩
      · have operand : readCheckout (first :: rest) = readOperandCheckout (first :: rest) := by
          simp [readCheckout.eq_def, switches]
        rw [operand, readOperandCheckout]
        cases named : operands (first :: rest) with
        | nil =>
            have flags := (operands_nil_iff _).mp named
            simp [complaint?, flags, switches]
        | cons branch more =>
            have notAll : (first :: rest).all Token.isFlag = false := by
              rw [Bool.eq_false_iff]
              intro flags
              rw [(operands_nil_iff _).mpr flags] at named
              cases named
            simp [complaint?, notAll]

theorem unscoped_silent {first second : Token} {more : List Token}
    (unscoped : ¬ scopeWords.contains first.text = true) :
    complaint? (first :: second :: more) .config = none := by
  cases more with
  | nil => rw [complaint?, if_neg unscoped]
  | cons third more => rfl

theorem read_config_asked (args : List Token) (asked : wantsHelp args = true) :
    match complaint? args .config with
    | none => ∃ command, readConfig args = .ok command
    | some error => readConfig args = .error error := by
  cases args with
  | nil => exact absurd asked (by decide)
  | cons first rest =>
      cases rest with
      | nil =>
          refine ⟨.getConfig first.text, ?_⟩
          rcases asked_alone asked with help | help <;> simp [readConfig, help, listWords, scopeWords]
      | cons second more =>
          by_cases lists : listWords.contains first.text = true
          · have unscoped : ¬ scopeWords.contains first.text = true := by
              have isList : first.text = "--list" ∨ first.text = "-l" := by
                simpa [listWords] using lists
              rcases isList with isList | isList <;> rw [isList] <;> decide
            rw [unscoped_silent unscoped]
            exact ⟨.listConfig, by rw [readConfig, if_pos lists]⟩
          · by_cases scopes : scopeWords.contains first.text = true
            · cases more with
              | nil =>
                  rw [complaint?, if_pos scopes, readConfig, if_neg lists, if_pos scopes]
                  rfl
              | cons third more => exact ⟨_, by rw [readConfig, if_neg lists, if_pos scopes, readScopedConfig]⟩
            · rw [unscoped_silent scopes]
              exact ⟨_, by rw [readConfig, if_neg lists, if_neg scopes]⟩

theorem read_branch_asked (args : List Token) (asked : wantsHelp args = true) :
    ∃ command, readBranch args = .ok command := by
  cases args with
  | nil => exact ⟨.listBranches, rfl⟩
  | cons first rest =>
      rw [readBranch.eq_def]
      simp only
      split
      · split
        · rename_i deletes
          cases rest with
          | nil =>
              rcases asked_alone asked with help | help <;> simp [deleteFlags, help] at deletes
          | cons branch more => exact ⟨_, rfl⟩
        · exact ⟨_, rfl⟩
      · exact ⟨_, rfl⟩

theorem read_asked (args : List Token) (sub : Subcommand) (asked : wantsHelp args = true) :
    match complaint? args sub with
    | none => ∃ command, read args sub = .ok command
    | some error => read args sub = .error error := by
  cases sub
  case checkout => exact read_checkout_asked args asked
  case config => exact read_config_asked args asked
  case branch => exact read_branch_asked args asked
  all_goals exact ⟨_, rfl⟩

end Command

namespace Session

theorem run_help (session : Session) (sub : Subcommand) :
    session.run (.help (some sub.word)) = (.done (Manual.page sub), session) := by
  simp [run, conduct, Action.ofCommand, Action.ask, Manual.render_word]

theorem help_unless_complaint (session : Session) (line : String) (sub : Subcommand) (args : List Token)
    (quoted named : Bool) (tokens : tokenize line = ⟨Command.tool, quoted⟩ :: ⟨sub.word, named⟩ :: args)
    (asked : Command.wantsHelp args = true) :
    match Command.complaint? args sub with
    | none =>
        Command.parse line = .ok (.help (some sub.word)) ∧
          session.evaluate line = (.done (Manual.page sub), session)
    | some error =>
        Command.parse line = .error error ∧ session.evaluate line = (.refused error, session) := by
  have read := Command.read_asked args sub asked
  have parsed : Command.parse line =
      (Command.read args sub).map fun _ => .help (some sub.word) := by
    simp only [Command.parse, tokens, Command.ofTokens, if_true, Command.of_arguments_known, asked]
  cases complained : Command.complaint? args sub with
  | none =>
      rw [complained] at read
      obtain ⟨command, accepted⟩ := read
      rw [accepted] at parsed
      have helps : Command.parse line = .ok (.help (some sub.word)) := parsed
      exact ⟨helps, by rw [evaluate, helps, ← run_help session sub]⟩
  | some error =>
      rw [complained] at read
      rw [read] at parsed
      have refuses : Command.parse line = .error error := parsed
      exact ⟨refuses, by rw [evaluate, refuses]⟩

theorem help_unless_complaint_branch :
    tokenize "git branch -D '--list' x --help" =
      ⟨"git", false⟩ :: ⟨Subcommand.branch.word, false⟩ ::
        [⟨"-D", false⟩, ⟨"--list", true⟩, ⟨"x", false⟩, ⟨"--help", false⟩] ∧
    Command.wantsHelp [⟨"-D", false⟩, ⟨"--list", true⟩, ⟨"x", false⟩, ⟨"--help", false⟩] = true ∧
    Command.parse "git branch -D '--list' x --help" = .ok (.help (some "branch")) ∧
    (start {} .sequential).evaluate "git branch -D '--list' x --help" =
      (.done (Manual.page .branch), start {} .sequential) := by
  have tokens : tokenize "git branch -D '--list' x --help" =
      ⟨Command.tool, false⟩ :: ⟨Subcommand.branch.word, false⟩ ::
        [⟨"-D", false⟩, ⟨"--list", true⟩, ⟨"x", false⟩, ⟨"--help", false⟩] := by decide
  have told := help_unless_complaint (start {} .sequential) _ .branch _ _ _ tokens (by decide)
  exact ⟨tokens, by decide, told⟩

theorem help_missed_by_checkout :
    ¬ ∀ (line : String) (sub : Subcommand) (args : List Token),
      tokenize line = ⟨Command.tool, false⟩ :: ⟨sub.word, false⟩ :: args → Command.wantsHelp args = true →
        Command.parse line = .ok (.help (some sub.word)) := by
  intro always
  have helped := always "git checkout --help" .checkout [⟨"--help", false⟩] (by decide) (by decide)
  have refused : Command.parse "git checkout --help" =
      .error (.missingBranch Command.checkoutComplaint) := rfl
  rw [refused] at helped
  cases helped

end Session

end GitPractice
