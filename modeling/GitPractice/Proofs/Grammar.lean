import Mathlib.Data.List.Basic
import GitPractice.Command.Printer
import GitPractice.Proofs.Author
import GitPractice.Proofs.Tokens

set_option autoImplicit false

namespace GitPractice

open Line

namespace Line.Word

@[simp] theorem plain_token {text : String} (filled : text ≠ "") : (plain text).token = ⟨text, false⟩ := by
  have notEmpty : text.isEmpty = false := by
    rw [Bool.eq_false_iff, ne_eq, String.isEmpty_iff]
    exact filled
  simp [plain, token, notEmpty]

@[simp] theorem data_token (text : String) : (data text).token = ⟨text, true⟩ := by
  have noBare : ("" : String).isEmpty = true := rfl
  simp [data, token, noBare]

@[simp] theorem attached_token (flag text : String) : (attached flag text).token = ⟨flag ++ text, flag.isEmpty⟩ := by
  simp [attached, token]

end Line.Word

theorem append_ne {front other : String} (apart : ¬ front.toList <+: other.toList) (text : String) :
    front ++ text ≠ other := by
  intro same
  rw [← same, String.toList_append] at apart
  exact apart (List.prefix_append _ _)

namespace CommitOption

theorem after_append (beginning text : String) : after? beginning (beginning ++ text) = some text := by
  have found : beginning.toList.isPrefixOf? (beginning ++ text).toList = some text.toList := by
    rw [List.isPrefixOf?_eq_some_iff_append_eq, String.toList_append]
  rw [after?, found, Option.map_some, String.ofList_toList]

theorem after_apart {beginning front : String}
    (apart : ∀ rest, beginning.toList.isPrefixOf? (front.toList ++ rest) = none) (text : String) :
    after? beginning (front ++ text) = none := by
  rw [after?, String.toList_append, apart, Option.map_none]

theorem of_tokens_message (text : String) (rest : List Token) :
    ofTokens (⟨"-m", false⟩ :: ⟨text, true⟩ :: rest) = .message text :: ofTokens rest := by
  have asks : (⟨"-m", false⟩ : Token).isExactly "-m" = true := by decide
  rw [ofTokens, asks]
  simp [takeMessage]

def bareFlags : List String := ["-m", "--message", "--author"]

theorem of_tokens_alone {token : Token} (isFlag : token.isFlag = true) (apart : token.text ∉ bareFlags)
    (rest : List Token) : ofTokens (token :: rest) = (ofFlag? token.text).toList ++ ofTokens rest := by
  simp only [bareFlags, List.mem_cons, List.not_mem_nil, or_false, not_or] at apart
  obtain ⟨short, long, author⟩ := apart
  exact of_tokens_flag (by simp [Token.isExactly, short, long]) (by simp [Token.isExactly, author]) isFlag

theorem attached_apart {front : String} (apart : ∀ flag ∈ bareFlags, ¬ front.toList <+: flag.toList) (text : String) :
    front ++ text ∉ bareFlags := by
  intro listed
  exact append_ne (apart _ listed) text rfl

theorem of_tokens_author (text : String) (rest : List Token) :
    ofTokens (⟨"--author=" ++ text, false⟩ :: rest) = .author (Author.parse text) :: ofTokens rest := by
  have other : after? "--message=" ("--author=" ++ text) = none := after_apart (fun _ => rfl) text
  rw [of_tokens_alone (by simp [Token.isFlag]) (attached_apart (by decide) text), ofFlag?, other, after_append]
  rfl

theorem of_tokens_words (message : Option String) (author : Option Author) :
    ofTokens (((message.toList.flatMap fun text => [Word.plain "-m", .data text]) ++
        author.toList.map fun who => Word.attached "--author=" who.write).map Word.token) =
      message.toList.map .message ++ author.toList.map fun who => .author (Author.parse who.write) := by
  have nothing : ofTokens [] = [] := by
    rw [ofTokens]
  have noBare : "--author=".isEmpty = false := rfl
  cases message <;> cases author <;> simp [of_tokens_message, of_tokens_author, nothing, noBare]

theorem of_flag_readable {flag : String} {who : Author} (found : ofFlag? flag = some (.author who)) :
    who.Readable := by
  rw [ofFlag?] at found
  split at found
  · cases found
  · split at found
    · cases found
      exact Author.parse_readable _
    · cases short : after? "-m" flag <;> simp [short] at found

theorem of_tokens_readable {tokens : List Token} {who : Author} (read : .author who ∈ ofTokens tokens) :
    who.Readable := by
  fun_induction ofTokens tokens with
  | case1 => cases read
  | case2 token rest asks ih =>
      rcases List.mem_append.mp read with taken | later
      · simp at taken
      · exact ih later
  | case3 token asks none => cases read
  | case4 token asks spaced value after ih =>
      rcases List.mem_cons.mp read with first | later
      · cases first
        exact Author.parse_readable _
      · exact ih later
  | case5 token rest asks spaced flag ih =>
      rcases List.mem_append.mp read with own | later
      · exact of_flag_readable (Option.mem_toList.mp own)
      · exact ih later
  | case6 token rest asks spaced flag ih => exact ih read

end CommitOption

namespace Command

/-- A command that some line is read as. Only these commands have data that are not arbitrary. -/
def Expressible : Command → Prop
  | .commit _ author => ∀ who ∈ author, who.Readable
  | .merge source _ => source ≠ some mergeWord
  | .addPaths paths => "" ∉ paths
  | .push remote branch | .pull remote branch => remote = none → branch = none
  | .getConfig key => key ∉ listWords ∧ key ∉ scopeWords
  | _ => True

def bareWords : List String :=
  ["help", "-m", "-b", mergeWord, ".", "-d", "--list", "--global", "--oneline", "--graph"] ++
    Subcommand.all.map Subcommand.word

/-- The words that commands are written with: a few bare ones, and data, which are always in quotes. -/
inductive Written : Word → Prop where
  | bare (text : String) (known : text ∈ bareWords) : Written (.plain text)
  | data (text : String) : Written (.data text)
  | author (text : String) : Written (.attached "--author=" text)

theorem words_named {command : Command} {sub : Subcommand} (belongs : command.subcommand = some sub) :
    command.words = .plain sub.word :: command.words.tail := by
  cases command <;> cases belongs <;> rfl

theorem words_written (command : Command) : ∀ word ∈ command.words, Written word := by
  have known : ∀ text ∈ bareWords, Written (.plain text) := Written.bare
  simp only [bareWords, Subcommand.all, Subcommand.word, List.map_cons, List.map_nil, List.cons_append,
    List.nil_append, List.forall_mem_cons] at known
  cases command
  case commit message author =>
    cases message <;> cases author <;> simp [words, known, Written.data, Written.author]
  case merge source target => cases source <;> cases target <;> simp [words, known, Written.data]
  case log oneline graph => cases oneline <;> cases graph <;> simp [words, known]
  all_goals simp [words, known, or_imp, forall_and, Written.data]

theorem bare_words_valid : ∀ text ∈ bareWords,
    (Word.plain text).Valid ∧ (Word.plain text).token.text ≠ "--help" ∧
      (Word.plain text).token.text ≠ "-h" := by
  decide

theorem words_valid (command : Command) : ∀ word ∈ Word.plain tool :: command.words, word.Valid := by
  refine List.forall_mem_cons.mpr ⟨by decide, ?_⟩
  intro word present
  cases words_written command word present with
  | bare text known => exact (bare_words_valid text known).1
  | data text => exact Word.data_valid text
  | author text => exact Word.attached_valid text (by decide)

theorem words_want_no_help (command : Command) :
    wantsHelp (command.words.tail.map Word.token) = false := by
  have silent : ∀ token ∈ command.words.tail.map Word.token,
      isLongHelp token = false ∧ isShortHelp token = false := by
    intro token present
    obtain ⟨word, held, isToken⟩ := List.mem_map.mp present
    subst isToken
    cases words_written command word (List.mem_of_mem_tail held) with
    | bare text known =>
        obtain ⟨_, notLong, notShort⟩ := bare_words_valid text known
        simp [isLongHelp, isShortHelp, notLong, notShort]
    | data text => simp [isLongHelp, isShortHelp]
    | author text =>
        have notLong : "--author=" ++ text ≠ "--help" := append_ne (by decide) text
        have notShort : "--author=" ++ text ≠ "-h" := append_ne (by decide) text
        simp [isLongHelp, isShortHelp, notLong, notShort]
  have noLong : (command.words.tail.map Word.token).any isLongHelp = false := by
    rw [List.any_eq_false]
    intro token present
    simp [(silent token present).1]
  rw [wantsHelp, noLong]
  cases started : command.words.tail.map Word.token with
  | nil => rfl
  | cons first rest => exact (silent first (by simp [started])).2

theorem read_commit_words (message : Option String) (author : Option Author)
    (readable : ∀ who ∈ author, who.Readable) :
    readCommit ((commit message author).words.tail.map Word.token) = .commit message author := by
  rw [readCommit, words, List.tail_append_of_ne_nil (List.cons_ne_nil _ _), List.tail_cons,
    CommitOption.of_tokens_words]
  cases author with
  | none => cases message <;> rfl
  | some who =>
      rw [Option.toList_some, List.map_singleton, who.parse_write (readable who rfl)]
      cases message <;> rfl

theorem read_merge_words (source target : Option String) (outside : source ≠ some mergeWord) :
    readMerge ((merge source target).words.tail.map Word.token) = .merge source target := by
  cases source <;> cases target <;>
    simp_all [words, readMerge, operands, Token.isFlag, mergeWord]

theorem read_paths_words (paths : List String) (filled : "" ∉ paths) :
    readAdd ((addPaths paths).words.tail.map Word.token) = .addPaths paths := by
  have kept : paths.filter (· != "") = paths := by
    rw [List.filter_eq_self]
    intro path present
    simpa using fun empty => filled (by rwa [← empty])
  cases paths with
  | nil => rfl
  | cons path more => simpa [words, readAdd, readPaths, Function.comp_def] using kept

theorem read_words {command : Command} {sub : Subcommand} (belongs : command.subcommand = some sub)
    (expressible : command.Expressible) :
    read (command.words.tail.map Word.token) sub = .ok command := by
  cases command <;> cases belongs
  case commit message author => exact congrArg _ (read_commit_words message author expressible)
  case merge source target => exact congrArg _ (read_merge_words source target expressible)
  case addPaths paths => exact congrArg _ (read_paths_words paths expressible)
  case push remote branch =>
    cases remote <;> cases branch <;> simp_all [Expressible, words, read, operands, Token.isFlag]
  case pull remote branch =>
    cases remote <;> cases branch <;> simp_all [Expressible, words, read, operands, Token.isFlag]
  case log oneline graph => cases oneline <;> cases graph <;> rfl
  case display revision => cases revision <;> simp [words, read, operands, Token.isFlag]
  case getConfig key => simp_all [Expressible, words, read, readConfig]
  case setConfig key value =>
    simp [words, read, readConfig, readScopedConfig, listWords, scopeWords, joined]
  case checkoutNew branch => simp [words, read, readCheckout, Token.isExactly, Token.isFlag]
  case checkout branch =>
    simp [words, read, readCheckout, readOperandCheckout, operands, Token.isExactly, Token.isFlag]
  case createBranch branch => simp [words, read, readBranch, Token.isFlag]
  case deleteBranch branch => simp [words, read, readBranch, Token.isFlag, deleteFlags]
  case rebase base => simp [words, read, operands, Token.isFlag]
  all_goals rfl

theorem parse_render (command : Command) (expressible : command.Expressible) :
    parse command.render = .ok command := by
  have tokens : tokenize command.render = ⟨tool, false⟩ :: command.words.map Word.token := by
    rw [render, tokenize_spell _ (words_valid command), List.map_cons, Word.plain_token (by decide)]
  rw [parse, tokens, ofTokens, if_pos rfl]
  cases belongs : command.subcommand with
  | none =>
      cases command <;> cases belongs
      rename_i topic
      cases topic <;> simp [words, ofArguments, helpWords]
  | some sub =>
      have named : sub.word ≠ "" := by
        cases sub <;> decide
      rw [words_named belongs, List.map_cons, Word.plain_token named, of_arguments_known,
        read_words belongs expressible, words_want_no_help]
      rfl

theorem read_commit_expressible (args : List Token) : (readCommit args).Expressible := by
  intro who last
  obtain ⟨option, present, isAuthor⟩ := List.mem_filterMap.mp (List.mem_of_getLast? last)
  cases option with
  | message text => cases isAuthor
  | author other =>
      cases isAuthor
      exact CommitOption.of_tokens_readable present

theorem read_merge_expressible (args : List Token) : (readMerge args).Expressible := by
  intro first
  have present := List.mem_of_head? first
  exact absurd (List.all_eq_true.mp List.all_takeWhile _ present) (by simp)

theorem read_add_expressible (args : List Token) : (readAdd args).Expressible := by
  have paths (args : List Token) : (readPaths args).Expressible := by
    simp [readPaths, Expressible]
  cases args with
  | nil => exact paths []
  | cons first rest =>
      rw [readAdd]
      split
      · trivial
      · exact paths (first :: rest)

theorem read_config_expressible {args : List Token} {command : Command}
    (accepted : readConfig args = .ok command) : command.Expressible := by
  cases args with
  | nil => cases accepted
  | cons first rest =>
      cases rest with
      | nil =>
          by_cases lists : listWords.contains first.text = true
          · rw [readConfig, if_pos lists] at accepted
            cases accepted
            trivial
          · by_cases scopes : scopeWords.contains first.text = true
            · rw [readConfig, if_neg lists, if_pos scopes] at accepted
              cases accepted
            · rw [readConfig, if_neg lists, if_neg scopes] at accepted
              cases accepted
              exact ⟨by simpa using lists, by simpa using scopes⟩
      | cons value more =>
          rw [readConfig] at accepted
          split at accepted
          · cases accepted
            trivial
          · split at accepted
            · cases more <;> cases accepted
              trivial
            · cases accepted
              trivial

theorem operands_in_order (args : List Token) :
    (operands args).head? = none → (operands args).tail.head? = none := by
  cases operands args <;> simp

theorem read_expressible (args : List Token) (sub : Subcommand) (command : Command)
    (accepted : read args sub = .ok command) : command.Expressible := by
  cases sub
  case commit =>
    cases accepted
    exact read_commit_expressible args
  case merge =>
    cases accepted
    exact read_merge_expressible args
  case add =>
    cases accepted
    exact read_add_expressible args
  case config => exact read_config_expressible accepted
  case push =>
    cases accepted
    exact operands_in_order args
  case pull =>
    cases accepted
    exact operands_in_order args
  case checkout =>
    have belongs := read_belongs args .checkout command accepted
    cases command <;> cases belongs <;> trivial
  case branch =>
    have belongs := read_belongs args .branch command accepted
    cases command <;> cases belongs <;> trivial
  all_goals
    cases accepted
    trivial

theorem parse_source {line : String} {command : Command} (accepted : parse line = .ok command) :
    (∃ topic, command = .help topic) ∨
      ∃ args sub, (∀ token ∈ args, token ∈ tokenize line) ∧ read args sub = .ok command := by
  rw [parse] at accepted
  cases tokens : tokenize line with
  | nil => simp [tokens, ofTokens] at accepted
  | cons first rest =>
      rw [tokens, ofTokens] at accepted
      split at accepted
      · cases rest with
        | nil =>
            cases accepted
            exact .inl ⟨none, rfl⟩
        | cons sub args =>
            rw [ofArguments] at accepted
            split at accepted
            · cases accepted
              exact .inl ⟨_, rfl⟩
            · cases known : Subcommand.ofWord? sub.text with
              | none => simp [known] at accepted
              | some word =>
                  cases made : read args word with
                  | error fault => simp [known, made] at accepted
                  | ok other =>
                      by_cases asked : wantsHelp args = true
                      · simp only [known, made, asked] at accepted
                        cases accepted
                        exact .inl ⟨_, rfl⟩
                      · simp only [known, made, asked] at accepted
                        cases accepted
                        refine .inr ⟨args, word, ?_, made⟩
                        intro token present
                        exact List.mem_cons_of_mem first (List.mem_cons_of_mem sub present)
      · cases accepted

theorem parse_expressible {line : String} {command : Command} (accepted : parse line = .ok command) :
    command.Expressible := by
  rcases parse_source accepted with ⟨topic, rfl⟩ | ⟨args, sub, _, made⟩
  · trivial
  · exact read_expressible args sub command made

theorem render_read_back (line : String) (command : Command) (accepted : parse line = .ok command) :
    parse command.render = .ok command :=
  parse_render command (parse_expressible accepted)

theorem render_read_back_merge :
    parse "git merge 'it\"s' -x \"into\" '--help'" = .ok (.merge (some "it\"s") (some "--help")) ∧
    parse (render (.merge (some "it\"s") (some "--help"))) = .ok (.merge (some "it\"s") (some "--help")) := by
  have accepted : parse "git merge 'it\"s' -x \"into\" '--help'" =
      .ok (.merge (some "it\"s") (some "--help")) := by decide
  exact ⟨accepted, render_read_back _ _ accepted⟩

example : render (.merge (some "it\"s") (some "--help")) =
    "git merge \"it\"'\"'\"s\" into \"--help\"" := by decide

end Command

end GitPractice
