import Mathlib.Data.List.TakeWhile
import GitPractice.Proofs.Grammar

set_option autoImplicit false

namespace GitPractice

open Line

namespace CommitOption

/-- Whether the tokens end in a bare author flag that still waits for its value. The value may be any token.
-/
def awaitsAuthor (tokens : List Token) : Bool :=
  tokens.foldl (fun waiting token => !waiting && token.isExactly "--author") false

def isMessageFlag (token : Token) : Bool :=
  token.isFlag && (token.text == "--message" || (after? "--message=" token.text).isSome ||
    (after? "-m" token.text).isSome)

def isAuthorFlag (token : Token) : Bool :=
  token.isFlag && (token.text == "--author" || (after? "--author=" token.text).isSome)

def opensMessage (before : List Token) (token : Token) : Bool := isMessageFlag token && !awaitsAuthor before

section
variable {earlier : List Token} (closed : awaitsAuthor earlier = false)
include closed

theorem awaits_append (later : List Token) : awaitsAuthor (earlier ++ later) = awaitsAuthor later := by
  rw [awaitsAuthor, List.foldl_append]
  change later.foldl _ (awaitsAuthor earlier) = _
  rw [closed]
  rfl

theorem opens_append (before : List Token) (token : Token) :
    opensMessage (earlier ++ before) token = opensMessage before token := by
  rw [opensMessage, awaits_append closed, opensMessage]

end

section
variable {token : Token}

theorem awaits_other (other : token.isExactly "--author" = false) : awaitsAuthor [token] = false := by
  simp [awaitsAuthor, other]

theorem awaits_value (asks : token.isExactly "--author" = true) (value : Token) :
    awaitsAuthor [token, value] = false := by
  simp [awaitsAuthor, asks]

theorem operand_exactly (operand : token.isFlag = false) (flag : String) : token.isExactly flag = false := by
  simp [Token.isExactly, operand]

theorem awaits_operands {words : List Token} (operands : ∀ word ∈ words, word.isFlag = false) :
    awaitsAuthor words = false := by
  induction words with
  | nil => rfl
  | cons word rest ih =>
      obtain ⟨own, others⟩ := List.forall_mem_cons.mp operands
      exact (awaits_append (awaits_other (operand_exactly own _)) rest).trans (ih others)

theorem bare_opens (bare : (token.isExactly "-m" || token.isExactly "--message") = true) :
    isMessageFlag token = true ∧ token.isExactly "--author" = false := by
  simp only [Token.isExactly, Bool.or_eq_true, Bool.and_eq_true, beq_iff_eq] at bare
  rcases bare with ⟨flag, short⟩ | ⟨flag, long⟩
  · simp only [isMessageFlag, Token.isExactly, flag, short]
    decide
  · simp only [isMessageFlag, Token.isExactly, flag, long]
    decide

theorem of_flag_unmessaged (flag : token.isFlag = true) (other : isMessageFlag token = false) :
    (ofFlag? token.text).toList.filterMap message? = [] := by
  simp only [isMessageFlag, flag, Bool.true_and, Bool.or_eq_false_iff, Option.isSome_eq_false_iff,
    Option.isNone_iff_eq_none] at other
  obtain ⟨⟨_, long⟩, short⟩ := other
  rw [ofFlag?, long, short]
  cases after? "--author=" token.text <;> rfl

theorem of_flag_foreign (flag : token.isFlag = true) (unmessaged : isMessageFlag token = false)
    (unauthored : isAuthorFlag token = false) : ofFlag? token.text = none := by
  simp only [isMessageFlag, isAuthorFlag, flag, Bool.true_and, Bool.or_eq_false_iff, Option.isSome_eq_false_iff,
    Option.isNone_iff_eq_none] at unmessaged unauthored
  rw [ofFlag?, unmessaged.1.2, unauthored.2, unmessaged.2]
  rfl

end

theorem take_message_operands (tokens : List Token) :
    ∃ taken, tokens = taken ++ (takeMessage tokens).2 ∧ ∀ word ∈ taken, word.isFlag = false := by
  cases tokens with
  | nil => exact ⟨[], rfl, by simp⟩
  | cons first rest =>
      rw [takeMessage]
      split
      · rename_i quoted
        exact ⟨[first], rfl, by simpa using first.quoted_not_flag quoted⟩
      · split
        · exact ⟨[], rfl, by simp⟩
        · refine ⟨(first :: rest).takeWhile isWord, List.takeWhile_append_dropWhile.symm, ?_⟩
          intro word present
          have isWord := List.all_eq_true.mp List.all_takeWhile word present
          simp only [CommitOption.isWord, Bool.and_eq_true, Bool.not_eq_true'] at isWord
          exact isWord.2

theorem words_append (tokens later : List Token) {flag : Token} (stops : isWord flag = false) :
    (tokens ++ flag :: later).takeWhile isWord = tokens.takeWhile isWord ∧
      (tokens ++ flag :: later).dropWhile isWord = tokens.dropWhile isWord ++ flag :: later := by
  induction tokens with
  | nil => simp [stops]
  | cons token rest ih => cases word : isWord token <;> simp [word, ih]

theorem take_message_append (tokens later : List Token) {flag : Token} (isFlag : flag.isFlag = true) :
    takeMessage (tokens ++ flag :: later) = ((takeMessage tokens).1, (takeMessage tokens).2 ++ flag :: later) := by
  have unquoted : flag.quoted = false := by
    refine Bool.eq_false_iff.mpr fun quoted => ?_
    rw [flag.quoted_not_flag quoted] at isFlag
    cases isFlag
  have stops : isWord flag = false := by simp [isWord, isFlag]
  cases tokens with
  | nil => simp [takeMessage, unquoted, isFlag]
  | cons first rest =>
      simp only [List.cons_append, takeMessage]
      split
      · rfl
      · split
        · rfl
        · obtain ⟨taken, left⟩ := words_append (first :: rest) later stops
          rw [← List.cons_append, taken, left]

theorem of_tokens_append {earlier : List Token} (closed : awaitsAuthor earlier = false) (later : List Token)
    {flag : Token} (isFlag : flag.isFlag = true) :
    ofTokens (earlier ++ flag :: later) = ofTokens earlier ++ ofTokens (flag :: later) := by
  -- Along the reader's own recursion: what is left behind each option ends without an open author, too.
  fun_induction ofTokens earlier with
  | case1 => rfl
  | case2 token rest bare ih =>
      obtain ⟨taken, split, operands⟩ := take_message_operands rest
      have still : awaitsAuthor (takeMessage rest).2 = false := by
        have whole : awaitsAuthor ([token] ++ (taken ++ (takeMessage rest).2)) = false := by
          rw [← split]
          exact closed
        rwa [awaits_append (awaits_other (bare_opens bare).2), awaits_append (awaits_operands operands)] at whole
      rw [List.cons_append, of_tokens_bare bare, take_message_append rest later isFlag, ih still, List.append_assoc]
  | case3 token bare asks =>
      rw [awaitsAuthor, List.foldl_cons, asks] at closed
      cases closed
  | case4 token bare asks value after ih =>
      have still : awaitsAuthor after = false := (awaits_append (awaits_value asks value) after).symm.trans closed
      have other : (token.isExactly "-m" || token.isExactly "--message") = false := Bool.eq_false_iff.mpr bare
      rw [List.cons_append, List.cons_append, of_tokens_valued other value asks, ih still]
      rfl
  | case5 token rest bare unasked flagged ih =>
      have other : (token.isExactly "-m" || token.isExactly "--message") = false := Bool.eq_false_iff.mpr bare
      have unasked : token.isExactly "--author" = false := Bool.eq_false_iff.mpr unasked
      have still : awaitsAuthor rest = false := (awaits_append (awaits_other unasked) rest).symm.trans closed
      rw [List.cons_append, of_tokens_flag other unasked flagged, ih still, List.append_assoc]
  | case6 token rest bare unasked operand ih =>
      have unasked : token.isExactly "--author" = false := Bool.eq_false_iff.mpr unasked
      have still : awaitsAuthor rest = false := (awaits_append (awaits_other unasked) rest).symm.trans closed
      rw [List.cons_append, of_tokens_operand (Bool.eq_false_iff.mpr operand), ih still]

def Unmessaged (tokens : List Token) : Prop :=
  ∀ before token after, tokens = before ++ token :: after → opensMessage before token = false

theorem unmessaged_append {earlier later : List Token} (closed : awaitsAuthor earlier = false)
    (unmessaged : Unmessaged (earlier ++ later)) : Unmessaged later := by
  intro before token after split
  have opens := unmessaged (earlier ++ before) token after (by rw [split, List.append_assoc])
  rwa [opens_append closed] at opens

theorem unmessaged_first {token : Token} {rest : List Token} (unmessaged : Unmessaged (token :: rest)) :
    isMessageFlag token = false := by
  simpa [opensMessage, awaitsAuthor] using unmessaged [] token rest rfl

theorem messages_none {tokens : List Token} (unmessaged : Unmessaged tokens) :
    (ofTokens tokens).filterMap message? = [] := by
  fun_induction ofTokens tokens with
  | case1 => rfl
  | case2 token rest bare ih =>
      have opens := (bare_opens bare).1
      rw [unmessaged_first unmessaged] at opens
      cases opens
  | case3 token bare asks => rfl
  | case4 token bare asks value after ih =>
      exact ih (unmessaged_append (awaits_value asks value) unmessaged)
  | case5 token rest bare unasked flagged ih =>
      have unasked : token.isExactly "--author" = false := Bool.eq_false_iff.mpr unasked
      rw [List.filterMap_append, of_flag_unmessaged flagged (unmessaged_first unmessaged),
        ih (unmessaged_append (awaits_other unasked) unmessaged), List.append_nil]
  | case6 token rest bare unasked operand ih =>
      have unasked : token.isExactly "--author" = false := Bool.eq_false_iff.mpr unasked
      exact ih (unmessaged_append (awaits_other unasked) unmessaged)

/-- The last option of the arguments that gives a message is a bare flag with a word behind it. -/
structure EndsInWords (args earlier : List Token) (flag word : Token) (rest : List Token) : Prop where
  split : args = earlier ++ flag :: word :: rest
  bare : (flag.isExactly "-m" || flag.isExactly "--message") = true
  own : awaitsAuthor earlier = false
  begun : isWord word = true
  last : ∀ before token after, rest = before ++ token :: after →
    opensMessage (earlier ++ flag :: word :: before) token = false

theorem ends_in_words {args earlier rest : List Token} {flag word : Token}
    (split : args = earlier ++ flag :: word :: rest)
    (bare : (flag.isExactly "-m" || flag.isExactly "--message") = true) (own : awaitsAuthor earlier = false)
    (begun : isWord word = true) (quiet : ∀ token ∈ rest, isMessageFlag token = false) :
    EndsInWords args earlier flag word rest := by
  refine ⟨split, bare, own, begun, ?_⟩
  intro before token after present
  have other := quiet token (by rw [present]; simp)
  rw [opensMessage, other, Bool.false_and]

theorem word_not_flag {word : Token} (isWord : isWord word = true) : word.quoted = false ∧ word.isFlag = false := by
  simpa [CommitOption.isWord] using isWord

theorem ends_messages {args earlier rest : List Token} {flag word : Token}
    (ends : EndsInWords args earlier flag word rest) :
    (ofTokens args).filterMap message? =
      (ofTokens earlier).filterMap message? ++ [joined ((word :: rest).takeWhile isWord)] := by
  obtain ⟨split, bare, own, begun, last⟩ := ends
  obtain ⟨isMessage, unasked⟩ := bare_opens bare
  obtain ⟨unquoted, operand⟩ := word_not_flag begun
  have operands : ∀ token ∈ word :: rest.takeWhile CommitOption.isWord, token.isFlag = false := by
    refine List.forall_mem_cons.mpr ⟨operand, fun token present => ?_⟩
    exact (word_not_flag (List.all_eq_true.mp List.all_takeWhile token present)).2
  have unmessaged : Unmessaged (rest.dropWhile CommitOption.isWord) := by
    intro before token after left
    have whole : rest = (rest.takeWhile CommitOption.isWord ++ before) ++ token :: after := by
      rw [List.append_assoc, ← left, List.takeWhile_append_dropWhile]
    have opens := last _ token after whole
    have closed := awaits_append own ([flag] ++ (word :: rest.takeWhile CommitOption.isWord))
    rw [awaits_append (awaits_other unasked), awaits_operands operands] at closed
    rw [← opens_append closed before token]
    simpa using opens
  have isFlag : flag.isFlag = true := ((Bool.and_eq_true _ _).mp isMessage).1
  have taken : takeMessage (word :: rest) =
      (some (joined ((word :: rest).takeWhile CommitOption.isWord)), rest.dropWhile CommitOption.isWord) := by
    simp [takeMessage, unquoted, operand, begun]
  rw [split, of_tokens_append own _ isFlag, of_tokens_bare bare, taken, List.filterMap_append, List.filterMap_append,
    messages_none unmessaged]
  rfl

theorem joined_words_iff {word : Token} (begun : isWord word = true) (rest : List Token) :
    joined ((word :: rest).takeWhile isWord) = joined ((word :: rest).takeWhile fun token => !token.isFlag) ↔
      ∀ token ∈ (word :: rest).takeWhile fun token => !token.isFlag, token.quoted = false := by
  obtain ⟨unquoted, operand⟩ := word_not_flag begun
  generalize onward : (word :: rest).takeWhile (fun token => !token.isFlag) = run
  have words : (word :: rest).takeWhile isWord = run.takeWhile fun token => !token.quoted := by
    rw [← onward, List.takeWhile_takeWhile]
    congr 1
    funext token
    simp [isWord]
  rw [words]
  constructor
  · intro same
    by_contra quoted
    have behind : run.dropWhile (fun token => !token.quoted) ≠ [] := by
      simpa [List.dropWhile_eq_nil_iff] using quoted
    have ahead : run.takeWhile (fun token => !token.quoted) ≠ [] := by
      rw [← words]
      simp [begun]
    have split : run = run.takeWhile (fun token => !token.quoted) ++ run.dropWhile fun token => !token.quoted :=
      List.takeWhile_append_dropWhile.symm
    -- A word that is dropped costs at least the space in front of it.
    have whole : joined run = joined (run.takeWhile fun token => !token.quoted) ++ " " ++
        joined (run.dropWhile fun token => !token.quoted) := by
      conv_lhs => rw [split]
      rw [joined, List.map_append]
      exact String.intercalate_append_of_ne_nil (by simpa using ahead) (by simpa using behind)
    rw [whole] at same
    have longer := congrArg String.length same
    simp only [String.length_append] at longer
    have gap : " ".length = 1 := rfl
    omega
  · intro unquoted
    exact congrArg joined (List.takeWhile_eq_self_iff.mpr (by simpa using unquoted))

end CommitOption

/-- An option of a commit as it is written, and what else may stand between options. -/
inductive OptionGroup where
  | message (flag text : String) (bare : flag ∈ ["-m", "--message"])
  | longMessage (text : String)
  | shortMessage (text : String) (filled : text ≠ "")
  | author (value : Token)
  | longAuthor (text : String)
  | foreign (flag : Token) (isFlag : flag.isFlag = true) (unmessaged : CommitOption.isMessageFlag flag = false)
      (unauthored : CommitOption.isAuthorFlag flag = false)
  | operand (text : String)

namespace OptionGroup

def tokens : OptionGroup → List Token
  | .message flag text _ => [⟨flag, false⟩, ⟨text, true⟩]
  | .longMessage text => [⟨"--message=" ++ text, false⟩]
  | .shortMessage text _ => [⟨"-m" ++ text, false⟩]
  | .author value => [⟨"--author", false⟩, value]
  | .longAuthor text => [⟨"--author=" ++ text, false⟩]
  | .foreign flag _ _ _ => [flag]
  | .operand text => [⟨text, true⟩]

def message? : OptionGroup → Option String
  | .message _ text _ | .longMessage text | .shortMessage text _ => some text
  | _ => none

def author? : OptionGroup → Option Author
  | .author value => some (Author.parse value.text)
  | .longAuthor text => some (Author.parse text)
  | _ => none

def option? (group : OptionGroup) : Option CommitOption :=
  (group.message?.map .message).or (group.author?.map .author)

open CommitOption

theorem of_tokens_group (group : OptionGroup) (rest : List Token) :
    ofTokens (group.tokens ++ rest) = group.option?.toList ++ ofTokens rest := by
  cases group with
  | message flag text bare =>
      have asks : ((⟨flag, false⟩ : Token).isExactly "-m" || (⟨flag, false⟩ : Token).isExactly "--message") = true := by
        rcases List.mem_pair.mp bare with rfl | rfl <;> decide
      rw [tokens, List.cons_append, of_tokens_bare asks]
      rfl
  | longMessage text =>
      have apart : "--message=" ++ text ∉ bareFlags := attached_apart (by decide) text
      rw [tokens, List.cons_append, of_tokens_alone (by simp [Token.isFlag]) apart, ofFlag?, after_append]
      rfl
  | shortMessage text filled =>
      have apart : "-m" ++ text ∉ bareFlags := by
        simp only [bareFlags, List.mem_cons, List.not_mem_nil, or_false, not_or]
        exact ⟨by simpa using filled, append_ne (by decide) text, append_ne (by decide) text⟩
      have noMessage : after? "--message=" ("-m" ++ text) = none := after_apart (fun _ => rfl) text
      have noAuthor : after? "--author=" ("-m" ++ text) = none := after_apart (fun _ => rfl) text
      rw [tokens, List.cons_append, of_tokens_alone (by simp [Token.isFlag]) apart, ofFlag?, noMessage, noAuthor,
        after_append]
      rfl
  | author value =>
      rw [tokens, List.cons_append, List.cons_append, of_tokens_valued (by decide) value (by decide)]
      rfl
  | longAuthor text => exact of_tokens_author text rest
  | foreign flag isFlag unmessaged unauthored =>
      have apart : flag.text ∉ bareFlags := by
        intro listed
        simp only [bareFlags, List.mem_cons, List.not_mem_nil, or_false] at listed
        rcases listed with short | long | author
        · rw [isMessageFlag, isFlag, short] at unmessaged
          exact absurd unmessaged (by decide)
        · rw [isMessageFlag, isFlag, long] at unmessaged
          exact absurd unmessaged (by decide)
        · rw [isAuthorFlag, isFlag, author] at unauthored
          exact absurd unauthored (by decide)
      rw [tokens, List.cons_append, of_tokens_alone isFlag apart, of_flag_foreign isFlag unmessaged unauthored]
      rfl
  | operand text => exact of_tokens_operand (Token.quoted_not_flag _ rfl)

theorem of_tokens_groups (groups : List OptionGroup) :
    ofTokens (groups.flatMap tokens) = groups.filterMap option? := by
  induction groups with
  | nil => rw [List.flatMap_nil, ofTokens, List.filterMap_nil]
  | cons group rest ih =>
      rw [List.flatMap_cons, of_tokens_group, ih]
      cases read : group.option? <;> simp [read]

theorem option_message (group : OptionGroup) : group.option?.bind CommitOption.message? = group.message? := by
  cases group <;> rfl

theorem option_author (group : OptionGroup) : group.option?.bind CommitOption.author? = group.author? := by
  cases group <;> rfl

theorem read_groups (groups : List OptionGroup) :
    Command.readCommit (groups.flatMap tokens) =
      .commit (groups.filterMap message?).getLast? (groups.filterMap author?).getLast? := by
  simp only [Command.readCommit, of_tokens_groups, List.filterMap_filterMap, option_message, option_author]

structure Written (groups : List OptionGroup) (line : String) : Prop where
  tokenized : ∃ first second, tokenize line =
    ⟨Command.tool, first⟩ :: ⟨Subcommand.commit.word, second⟩ :: groups.flatMap tokens
  unasked : Command.wantsHelp (groups.flatMap tokens) = false

theorem parse_groups {groups : List OptionGroup} {line : String} (written : Written groups line) :
    Command.parse line = .ok (.commit (groups.filterMap message?).getLast? (groups.filterMap author?).getLast?) := by
  obtain ⟨⟨first, second, tokens⟩, unasked⟩ := written
  rw [Command.parse_known .commit tokens unasked, Command.read, read_groups]

end OptionGroup

namespace Command

theorem parse_ends {line : String} {first second : Bool} {args earlier rest : List Token} {flag word : Token}
    (tokens : tokenize line = ⟨tool, first⟩ :: ⟨Subcommand.commit.word, second⟩ :: args)
    (unasked : wantsHelp args = false) (ends : CommitOption.EndsInWords args earlier flag word rest) :
    ∃ author, parse line = .ok (.commit (some (joined ((word :: rest).takeWhile CommitOption.isWord))) author) := by
  have read : parse line = .ok (readCommit args) := parse_known .commit tokens unasked
  rw [readCommit, CommitOption.ends_messages ends, List.getLast?_concat] at read
  exact ⟨_, read⟩

theorem unquoted_message_runs {line : String} {first second : Bool} {args earlier rest : List Token}
    {flag word : Token} (tokens : tokenize line = ⟨tool, first⟩ :: ⟨Subcommand.commit.word, second⟩ :: args)
    (unasked : wantsHelp args = false) (ends : CommitOption.EndsInWords args earlier flag word rest) :
    ∃ message author, parse line = .ok (.commit (some message) author) ∧
      message = joined ((word :: rest).takeWhile CommitOption.isWord) ∧
      (message = joined ((word :: rest).takeWhile fun token => !token.isFlag) ↔
        ∀ token ∈ (word :: rest).takeWhile fun token => !token.isFlag, token.quoted = false) := by
  obtain ⟨author, read⟩ := parse_ends tokens unasked ends
  exact ⟨_, author, read, rfl, CommitOption.joined_words_iff ends.begun rest⟩

def cutArgs : List Token :=
  [⟨"--author", false⟩, ⟨"-m", false⟩, ⟨"-m", false⟩, ⟨"fix", false⟩, ⟨"the bug", true⟩, ⟨"now", false⟩, ⟨"-x", false⟩]

theorem unquoted_message_runs_short :
    wantsHelp cutArgs = false ∧
    (∃ author, parse "git commit --author -m -m fix \"the bug\" now -x" = .ok (.commit (some "fix") author)) ∧
    ¬ ∀ token ∈ [(⟨"fix", false⟩ : Token), ⟨"the bug", true⟩, ⟨"now", false⟩], token.quoted = false := by
  have tokens : tokenize "git commit --author -m -m fix \"the bug\" now -x" =
      ⟨tool, false⟩ :: ⟨Subcommand.commit.word, false⟩ :: cutArgs := by decide
  have ends : CommitOption.EndsInWords cutArgs [⟨"--author", false⟩, ⟨"-m", false⟩] ⟨"-m", false⟩ ⟨"fix", false⟩
      [⟨"the bug", true⟩, ⟨"now", false⟩, ⟨"-x", false⟩] :=
    CommitOption.ends_in_words rfl (by decide) (by decide) (by decide) (by decide)
  obtain ⟨message, author, read, isMessage, whole⟩ := unquoted_message_runs tokens (by decide) ends
  have short : message = "fix" := isMessage.trans (by decide)
  subst short
  exact ⟨by decide, ⟨author, read⟩, fun unquoted => absurd (whole.mpr unquoted) (by decide)⟩

theorem quoted_word_dropped :
    ¬ ∀ (line : String) (args earlier rest : List Token) (flag word : Token),
      tokenize line = ⟨tool, false⟩ :: ⟨Subcommand.commit.word, false⟩ :: args → wantsHelp args = false →
        CommitOption.EndsInWords args earlier flag word rest →
          ∃ author, parse line =
            .ok (.commit (some (joined ((word :: rest).takeWhile fun token => !token.isFlag))) author) := by
  intro always
  have tokens : tokenize "git commit -m a \"b\" c" = ⟨tool, false⟩ :: ⟨Subcommand.commit.word, false⟩ ::
      [⟨"-m", false⟩, ⟨"a", false⟩, ⟨"b", true⟩, ⟨"c", false⟩] := by decide
  have ends : CommitOption.EndsInWords [⟨"-m", false⟩, ⟨"a", false⟩, ⟨"b", true⟩, ⟨"c", false⟩] []
      ⟨"-m", false⟩ ⟨"a", false⟩ [⟨"b", true⟩, ⟨"c", false⟩] :=
    CommitOption.ends_in_words rfl (by decide) rfl (by decide) (by decide)
  obtain ⟨author, whole⟩ := always _ _ _ _ _ _ tokens (by decide) ends
  obtain ⟨other, short⟩ := parse_ends tokens (by decide) ends
  rw [short] at whole
  injection whole with same
  injection same with same
  exact absurd (Option.some.inj same) (by decide)

theorem last_options_count {groups : List OptionGroup} {line : String} (written : OptionGroup.Written groups line) :
    parse line = .ok (.commit (groups.filterMap OptionGroup.message?).getLast?
        (groups.filterMap OptionGroup.author?).getLast?) ∧
      ∀ (others : List OptionGroup) (other : String), OptionGroup.Written others other →
        others.filterMap OptionGroup.message? = groups.filterMap OptionGroup.message? →
        others.filterMap OptionGroup.author? = groups.filterMap OptionGroup.author? → parse other = parse line := by
  have read := OptionGroup.parse_groups written
  refine ⟨read, fun others other otherWritten messages authors => ?_⟩
  rw [OptionGroup.parse_groups otherWritten, read, messages, authors]

def repeatedGroups : List OptionGroup :=
  [.foreign ⟨"-x", false⟩ (by decide) (by decide) (by decide), .author ⟨"-m", false⟩,
   .shortMessage "A" (by decide), .operand "-m", .longAuthor "Ada <a@b>", .message "--message" "b c" (by decide)]

def regroupedGroups : List OptionGroup :=
  [.shortMessage "A" (by decide), .message "--message" "b c" (by decide), .author ⟨"-m", false⟩,
   .longAuthor "Ada <a@b>"]

theorem last_options_count_repeated :
    OptionGroup.Written repeatedGroups
      "git commit -x --author -m -mA '-m' --author=\"Ada <a@b>\" --message \"b c\"" ∧
    parse "git commit -x --author -m -mA '-m' --author=\"Ada <a@b>\" --message \"b c\"" =
      .ok (.commit (some "b c") (some ⟨"Ada", some "a@b"⟩)) ∧
    parse "git commit -mA --message 'b c' --author -m --author='Ada <a@b>'" =
      parse "git commit -x --author -m -mA '-m' --author=\"Ada <a@b>\" --message \"b c\"" := by
  have written : OptionGroup.Written repeatedGroups
      "git commit -x --author -m -mA '-m' --author=\"Ada <a@b>\" --message \"b c\"" :=
    ⟨⟨false, false, by decide⟩, by decide⟩
  have regrouped : OptionGroup.Written regroupedGroups
      "git commit -mA --message 'b c' --author -m --author='Ada <a@b>'" := ⟨⟨false, false, by decide⟩, by decide⟩
  obtain ⟨read, alike⟩ := last_options_count written
  exact ⟨written, read, alike regroupedGroups _ regrouped rfl rfl⟩

end Command

end GitPractice
