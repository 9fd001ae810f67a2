import GitPractice.Guarded.Parser
import GitPractice.Proofs.Author

set_option autoImplicit false

namespace GitPractice.Guarded

open Line

theorem author_bracketed {raw : String} {name inside after : List Char}
    (whole : Text.trim raw.toList = name ++ '<' :: (inside ++ '>' :: after))
    (first : Text.firstPlace? '<' (Text.trim raw.toList) = some (Text.byteLength name))
    (last : Text.lastPlace? '>' (Text.trim raw.toList) = some (Text.byteLength (name ++ '<' :: inside)))
    (free : '<' ∉ name) (freeAfter : '>' ∉ after) : author? raw = some (Author.parse raw) := by
  have split := Author.split_brackets_append name inside after free freeAfter
  have opened : Text.byteLength (name ++ ['<']) = Text.byteLength name + 1 := by
    rw [Text.byte_length_append]
    rfl
  have before : Text.byteLength name < Text.byteLength (name ++ '<' :: inside) := by
    rw [Text.byte_length_append, Text.byteLength]
    have size : 0 < '<'.utf8Size := Char.utf8Size_pos '<'
    omega
  have front : Text.slice? 0 (Text.byteLength name) (Text.trim raw.toList) = some name := by
    rw [whole]
    exact Text.slice_append [] name ('<' :: (inside ++ '>' :: after))
  have middle : Text.slice? (Text.byteLength name + 1) (Text.byteLength (name ++ '<' :: inside))
      (Text.trim raw.toList) = some inside := by
    rw [whole, ← opened]
    simpa using Text.slice_append (name ++ ['<']) inside ('>' :: after)
  simp only [author?, first, last, if_pos before, front, middle, Author.parse]
  rw [whole, split]
  rfl

theorem author_bare {raw : String} (bare : Author.splitBrackets (Text.trim raw.toList) = none)
    (apart : ∀ first last, Text.firstPlace? '<' (Text.trim raw.toList) = some first →
      Text.lastPlace? '>' (Text.trim raw.toList) = some last → ¬ first < last) :
    author? raw = some (Author.parse raw) := by
  simp only [author?, Author.parse, bare]
  split
  · rename_i first last opening closing
    rw [if_neg (apart first last opening closing)]
    rfl
  · rfl

theorem closed_before {gap behind after : List Char} (split : '>' :: after = gap ++ '<' :: behind)
    (free : '>' ∉ after) : '>' ∉ behind := by
  cases gap with
  | nil => simp at split
  | cons c rest =>
      obtain ⟨_, rfl⟩ := List.cons.inj split
      exact fun present => free (by simp [present])

theorem author_reads (raw : String) : author? raw = some (Author.parse raw) := by
  cases opening : Text.firstPlace? '<' (Text.trim raw.toList) with
  | none =>
      have free := (Text.first_place_none_iff '<' _).mp opening
      refine author_bare (Author.split_brackets_none free) ?_
      intro first last found
      rw [opening] at found
      cases found
  | some first =>
      obtain ⟨name, behind, whole, free, isFirst⟩ := Text.first_place_splits opening
      have split := Author.split_brackets_open name behind free
      rw [← whole] at split
      cases closing : Text.lastPlace? '>' (Text.trim raw.toList) with
      | none =>
          have unclosed := (Text.last_place_none_iff '>' _).mp closing
          have behindFree : '>' ∉ behind := fun present => unclosed (by rw [whole]; simp [present])
          refine author_bare ?_ ?_
          · rw [split, Author.before_last_close_none behindFree, Option.map_none]
          · intro first last _ found
            rw [closing] at found
            cases found
      | some last =>
          obtain ⟨front, after, sameWhole, freeAfter, isLast⟩ := Text.last_place_splits closing
          rcases List.append_eq_append_iff.mp (whole.symm.trans sameWhole) with
            ⟨gap, isFront, isBehind⟩ | ⟨gap, isName, isAfter⟩
          · cases gap with
            | nil => simp at isBehind
            | cons c inside =>
                obtain ⟨rfl, rfl⟩ := List.cons.inj isBehind
                rw [isFront] at isLast
                exact author_bracketed whole (opening.trans (congrArg some isFirst))
                  (closing.trans (congrArg some isLast)) free freeAfter
          · have behindFree := closed_before isAfter freeAfter
            refine author_bare ?_ ?_
            · rw [split, Author.before_last_close_none behindFree, Option.map_none]
            · intro one other isOne isOther
              rw [opening, isFirst, isName, Text.byte_length_append] at isOne
              rw [closing, isLast] at isOther
              cases isOne
              cases isOther
              omega

def settled {α : Type} (given : List α) (before : Option α) : Option α := given.getLast?.or before

theorem settled_cons {α : Type} (value : α) (given : List α) (before : Option α) :
    settled (value :: given) before = settled given (some value) := by
  cases given with
  | nil => rfl
  | cons next rest => simp [settled, List.getLast?_cons]

def settledCommit (options : List CommitOption) (message : Option String) (who : Option Author) : Command :=
  .commit (settled (options.filterMap CommitOption.message?) message)
    (settled (options.filterMap CommitOption.author?) who)

theorem settled_commit_message (text : String) (options : List CommitOption) (message : Option String)
    (who : Option Author) :
    settledCommit (.message text :: options) message who = settledCommit options (some text) who :=
  congrArg (Command.commit · _) (settled_cons text (options.filterMap CommitOption.message?) message)

theorem settled_commit_author (named : Author) (options : List CommitOption) (message : Option String)
    (who : Option Author) :
    settledCommit (.author named :: options) message who = settledCommit options message (some named) :=
  congrArg (Command.commit _) (settled_cons named (options.filterMap CommitOption.author?) who)

theorem settled_commit_messages (text? : Option String) (options : List CommitOption) (message : Option String)
    (who : Option Author) :
    settledCommit (text?.toList.map .message ++ options) message who =
      settledCommit options (text?.or message) who := by
  cases text? with
  | none => rfl
  | some text => exact settled_commit_message text options message who

theorem settled_commit_none (options : List CommitOption) :
    settledCommit options none none = .commit (options.filterMap CommitOption.message?).getLast?
      (options.filterMap CommitOption.author?).getLast? := by
  rw [settledCommit, settled, settled, Option.or_none, Option.or_none]

theorem take_message_taken (tokens : List Token) :
    CommitOption.takeMessage tokens = ((takenMessage tokens).1, tokens.drop (takenMessage tokens).2) := by
  cases tokens with
  | nil => rfl
  | cons first rest =>
      rw [CommitOption.takeMessage, takenMessage]
      split
      · rfl
      · split
        · rfl
        · refine Prod.ext rfl ?_
          have whole : (first :: rest).takeWhile CommitOption.isWord ++
              (first :: rest).dropWhile CommitOption.isWord = first :: rest := List.takeWhile_append_dropWhile
          change (first :: rest).dropWhile CommitOption.isWord =
            (first :: rest).drop ((first :: rest).takeWhile CommitOption.isWord).length
          exact (List.drop_left' rfl).symm.trans (congrArg (List.drop _) whole)

theorem of_tokens_taken {token : Token} {rest : List Token}
    (bare : (token.isExactly "-m" || token.isExactly "--message") = true) :
    CommitOption.ofTokens (token :: rest) =
      (takenMessage rest).1.toList.map .message ++ CommitOption.ofTokens (rest.drop (takenMessage rest).2) := by
  rw [CommitOption.of_tokens_bare bare, take_message_taken]

theorem other_flag {token : Token}
    (long : CommitOption.after? "--message=" token.text ≠ none ∨
      CommitOption.after? "--author=" token.text ≠ none) :
    token.isExactly "--author" = false := by
  refine Bool.eq_false_iff.mpr fun asks => ?_
  have text : token.text = "--author" := by
    simp only [Token.isExactly, Bool.and_eq_true, beq_iff_eq] at asks
    exact asks.2
  rw [text] at long
  exact absurd long (by decide)

/-- What that many turns come to, from any place that has fewer tokens after it. -/
def Settles (args : List Token) (turns : Nat) : Prop :=
  ∀ place message who, args.length - place < turns → readCommit? args turns place message who =
    some (settledCommit (CommitOption.ofTokens (args.drop place)) message who)

section
variable {args : List Token} {turns place : Nat} {token : Token} (message : Option String) (who : Option Author)

theorem settles_option (later : Settles args turns) (next : args.length - (place + 1) < turns)
    (bare : (token.isExactly "-m" || token.isExactly "--message") = false)
    (unasked : token.isExactly "--author" = false) (flag : token.isFlag = true) (option? : Option CommitOption)
    (read : CommitOption.ofFlag? token.text = option?) :
    readCommit? args turns (place + 1) ((option?.bind CommitOption.message?).or message)
        ((option?.bind CommitOption.author?).or who) =
      some (settledCommit (CommitOption.ofTokens (token :: args.drop (place + 1))) message who) := by
  rw [CommitOption.of_tokens_flag bare unasked flag, read, later (place + 1) _ _ next]
  cases option? with
  | none => rfl
  | some option =>
      cases option with
      | message text => exact congrArg some (settled_commit_message text _ message who).symm
      | author named => exact congrArg some (settled_commit_author named _ message who).symm

theorem settles_author (later : Settles args turns) (next : args.length - (place + 1) < turns)
    (bare : (token.isExactly "-m" || token.isExactly "--message") = false)
    (asks : token.isExactly "--author" = true) :
    (match args[place + 1]? with
      | some value => (author? value.text).bind fun named => readCommit? args turns (place + 2) message (some named)
      | none => readCommit? args turns (place + 1) message who) =
      some (settledCommit (CommitOption.ofTokens (token :: args.drop (place + 1))) message who) := by
  by_cases more : place + 1 < args.length
  · rw [List.getElem?_eq_getElem more, List.drop_eq_getElem_cons more, CommitOption.of_tokens_valued bare _ asks,
      settled_commit_author]
    simp only [author_reads, Option.bind_some]
    exact later (place + 2) _ _ (by omega)
  · have ended : args.drop (place + 1) = [] := List.drop_eq_nil_of_le (by omega)
    have last : CommitOption.ofTokens [token] = CommitOption.ofTokens [] := by
      rw [CommitOption.ofTokens.eq_def]
      simp only [bare, asks, if_true, Bool.false_eq_true, if_false, CommitOption.ofTokens]
    rw [List.getElem?_eq_none (by omega), ended, last, ← ended]
    exact later (place + 1) _ _ next

theorem settles_flag (later : Settles args turns) (next : args.length - (place + 1) < turns)
    (bare : (token.isExactly "-m" || token.isExactly "--message") = false) (flag : token.isFlag = true) :
    (match CommitOption.after? "--message=" token.text, CommitOption.after? "--author=" token.text with
      | some text, _ => readCommit? args turns (place + 1) (some text) who
      | none, some raw => (author? raw).bind fun named => readCommit? args turns (place + 1) message (some named)
      | none, none =>
          if token.text = "--author" then
            match args[place + 1]? with
            | some value => (author? value.text).bind fun named =>
                readCommit? args turns (place + 2) message (some named)
            | none => readCommit? args turns (place + 1) message who
          else readCommit? args turns (place + 1) ((CommitOption.after? "-m" token.text).or message) who) =
      some (settledCommit (CommitOption.ofTokens (token :: args.drop (place + 1))) message who) := by
  cases long : CommitOption.after? "--message=" token.text with
  | some text =>
      have unasked := other_flag (.inl (by rw [long]; simp))
      exact settles_option message who later next bare unasked flag (some (.message text))
        (by rw [CommitOption.ofFlag?, long])
  | none =>
      cases named : CommitOption.after? "--author=" token.text with
      | some raw =>
          have unasked := other_flag (.inr (by rw [named]; simp))
          simp only [author_reads, Option.bind_some]
          exact settles_option message who later next bare unasked flag (some (.author (Author.parse raw)))
            (by rw [CommitOption.ofFlag?, long, named])
      | none =>
          simp only
          by_cases asks : token.text = "--author"
          · rw [if_pos asks]
            exact settles_author message who later next bare (by simp [Token.isExactly, flag, asks])
          · rw [if_neg asks]
            have unasked : token.isExactly "--author" = false := by simp [Token.isExactly, asks]
            have settled := settles_option message who later next bare unasked flag
              ((CommitOption.after? "-m" token.text).map .message) (by rw [CommitOption.ofFlag?, long, named])
            cases short : CommitOption.after? "-m" token.text with
            | none =>
                rw [short] at settled
                exact settled
            | some text =>
                rw [short] at settled
                exact settled

end

/-- The induction is on the turns. Each turn moves on by one token at least, so they outlast the tokens. -/
theorem read_commit_settles (args : List Token) (turns : Nat) : Settles args turns := by
  induction turns with
  | zero =>
      intro place message who enough
      omega
  | succ turns ih =>
      intro place message who enough
      rw [readCommit?]
      by_cases more : place < args.length
      · have further (steps : Nat) : args.length - (place + 1 + steps) < turns := by omega
        have next := further 0
        have rest : from? (place + 1) args = some (args.drop (place + 1)) := from_eq_some more
        rw [if_pos more, List.getElem?_eq_getElem more, List.drop_eq_getElem_cons more]
        generalize args[place] = token
        simp only [Option.bind_eq_bind, Option.bind_some]
        cases bare : token.isExactly "-m" || token.isExactly "--message" with
        | true =>
            rw [if_pos rfl, rest, of_tokens_taken bare, List.drop_drop, settled_commit_messages]
            exact ih _ _ _ (further _)
        | false =>
            rw [if_neg Bool.false_ne_true]
            cases flag : token.isFlag with
            | false =>
                rw [if_neg Bool.false_ne_true, CommitOption.of_tokens_operand flag]
                exact ih _ _ _ next
            | true =>
                rw [if_pos rfl]
                exact settles_flag message who ih next bare flag
      · rw [if_neg more, List.drop_eq_nil_of_le (by omega), CommitOption.ofTokens]
        rfl

theorem read_commit_reads (args : List Token) :
    readCommit? args (args.length + 1) 0 none none = some (Command.readCommit args) := by
  rw [read_commit_settles args (args.length + 1) 0 none none (Nat.lt_succ_self _), List.drop_zero,
    settled_commit_none]
  rfl

theorem read_merge_reads (args : List Token) : readMerge? args = some (Command.readMerge args) := by
  have negated : (fun word => !(word != Command.mergeWord)) = (· == Command.mergeWord) := by
    funext word
    exact Bool.not_not _
  rw [readMerge?, Command.readMerge, List.takeWhile_eq_take_findIdx_not, List.dropWhile_eq_drop_findIdx_not, negated]
  cases found : (operands args).findIdx? (· == Command.mergeWord) with
  | some place =>
      obtain ⟨inside, isPlace⟩ := List.findIdx?_eq_some_iff_findIdx_eq.mp found
      simp only [isPlace, up_to_eq_some (Nat.le_of_lt inside), List.tail_drop, List.head?_drop]
      rfl
  | none =>
      have isLength := List.findIdx?_eq_none_iff_findIdx_eq.mp found
      simp only [isLength, List.take_length, List.drop_length]
      rfl

theorem read_config_reads (args : List Token) : readConfig? args = some (Command.readConfig args) := by
  cases args with
  | nil => rfl
  | cons first rest =>
      rw [readConfig?, Command.readConfig.eq_def]
      simp only [List.head?_cons]
      by_cases lists : Command.listWords.contains first.text = true
      · simp only [lists, if_true]
        rfl
      · by_cases hasScope : Command.scopeWords.contains first.text = true
        · -- A key and a first word are needed here, and there are both when there are three arguments.
          simp only [lists, hasScope, if_true, Bool.false_eq_true, if_false]
          rcases rest with _ | ⟨key, _ | ⟨word, more⟩⟩
          · rfl
          · rfl
          · simp [from?, Command.readScopedConfig]
        · simp only [lists, hasScope, Bool.false_eq_true, if_false]
          cases rest with
          | nil => rfl
          | cons word more => simp [from?]

theorem read_reads (args : List Token) (sub : Subcommand) : read? args sub = some (Command.read args sub) := by
  cases sub with
  | commit => rw [read?, read_commit_reads, Option.map_some, Command.read]
  | merge => rw [read?, read_merge_reads, Option.map_some, Command.read]
  | config => exact read_config_reads args
  | _ => rfl

theorem parse_reads (line : String) : parse? line = some (Command.parse line) := by
  rw [parse?, Command.parse]
  cases tokenize line with
  | nil => rfl
  | cons first rest =>
      rw [Command.ofTokens]
      by_cases named : first.text = Command.tool
      · cases rest with
        | nil => simp [named, Command.ofArguments]
        | cons sub args =>
            have arguments : from? 2 (first :: sub :: args) = some args := from_eq_some (by simp)
            simp only [List.head?_cons, List.getElem?_cons_succ, List.getElem?_cons_zero, named, ne_eq,
              not_true_eq_false, if_false, if_true, arguments, Option.bind_eq_bind, Option.bind_some,
              Command.ofArguments, read_reads]
            by_cases helps : Command.helpWords.contains sub.text = true
            · rw [if_pos helps, if_pos helps]
              rfl
            · rw [if_neg helps, if_neg helps]
              cases Subcommand.ofWord? sub.text with
              | none => rfl
              | some known =>
                  simp only
                  cases Command.read args known with
                  | error fault => rfl
                  | ok command => rfl
      · simp [named]

end GitPractice.Guarded
