import GitPractice.Proofs.CommitOptions
import GitPractice.Proofs.History
import GitPractice.Proofs.Planned
import GitPractice.Proofs.Quoting
import GitPractice.Proofs.Scripts

set_option autoImplicit false

namespace GitPractice

open Line

section
variable {first second message author : String} (messageWritten : Quoted first.toList message.toList)
variable (authorWritten : Quoted second.toList author.toList)
include messageWritten authorWritten

theorem Line.tokenize_commit :
    tokenize ("git commit -m " ++ first ++ " --author=" ++ second) =
      [⟨"git", false⟩, ⟨"commit", false⟩, ⟨"-m", false⟩, ⟨message, true⟩, ⟨"--author=" ++ author, false⟩] := by
  have pieces : ("git commit -m " ++ first ++ " --author=" ++ second).toList =
      "git".toList ++ ' ' :: ("commit".toList ++ ' ' :: ("-m".toList ++ ' ' ::
        (first.toList ++ ' ' :: ("--author=" ++ second).toList))) := by
    simp
  have git : Spells "git".toList ⟨"git", false⟩ := spells_plain (by decide) rfl
  have commit : Spells "commit".toList ⟨"commit", false⟩ := spells_plain (by decide) rfl
  have flag : Spells "-m".toList ⟨"-m", false⟩ := spells_plain (by decide) rfl
  have text : Spells first.toList ⟨message, true⟩ := spells_quoted messageWritten
  have signed : Spells ("--author=" ++ second).toList ⟨"--author=" ++ author, false⟩ :=
    spells_attached (by decide) rfl authorWritten
  rw [tokenize, pieces, scan_spelled git, scan_spelled commit, scan_spelled flag, scan_spelled text,
    scan_spelled_last signed]

theorem Command.parse_commit :
    Command.parse ("git commit -m " ++ first ++ " --author=" ++ second) =
      .ok (.commit (some message) (some (Author.parse author))) := by
  have unasked : Command.wantsHelp [⟨"-m", false⟩, ⟨message, true⟩, ⟨"--author=" ++ author, false⟩] = false := by
    have notHelp : "--author=" ++ author ≠ "--help" := append_ne (by decide) author
    simp [Command.wantsHelp, Command.isLongHelp, Command.isShortHelp, notHelp]
  have written : OptionGroup.Written [.message "-m" message (by decide), .longAuthor author]
      ("git commit -m " ++ first ++ " --author=" ++ second) :=
    ⟨⟨false, false, tokenize_commit messageWritten authorWritten⟩, unasked⟩
  exact OptionGroup.parse_groups written

end

theorem Plan.carry_out_recorded {state : State} {id : String} (drawn : state.ids.peek = .id id) (draft : Draft)
    (onto : Repository) (report : Commit → String) :
    (Plan.record draft onto report).carryOut.run state =
      (.done (report (recorded draft onto id)),
        { state with repository := onto.append (recorded draft onto id), ids := state.ids.next }) := by
  simp only [carryOut, drawn]

theorem Commit.shown_author (commit : Commit) (idWhole : '\n' ∉ commit.id.toList)
    (nameWhole : '\n' ∉ commit.signature.name.toList) (emailWhole : '\n' ∉ commit.signature.email.toList) :
    (Script.linesOf commit.shown)[1]? =
      some ("Author: " ++ (commit.signature.name ++ " <" ++ commit.signature.email ++ ">")) := by
  have begins : commit.detailed = ("commit " ++ commit.id) ++ "\n" ++
      (("Author: " ++ (commit.signature.name ++ " <" ++ commit.signature.email ++ ">")) ++ "\n" ++
        ("Date: " ++ commit.date ++ "\n\n    " ++ commit.message)) := by
    have cut : commit.detailed =
        "commit " ++ commit.id ++ ("\n" ++ "Author: ") ++ commit.signature.name ++ " <" ++ commit.signature.email ++
          (">" ++ "\n" ++ "Date: ") ++ commit.date ++ "\n\n    " ++ commit.message := rfl
    rw [cut]
    simp only [String.append_assoc]
  obtain ⟨rest, whole⟩ : ∃ rest, commit.shown = commit.detailed ++ rest := ⟨_, String.append_assoc⟩
  have first : '\n' ∉ ("commit " ++ commit.id).toList := by simpa using idWhole
  have second : '\n' ∉
      ("Author: " ++ (commit.signature.name ++ " <" ++ commit.signature.email ++ ">")).toList := by
    simp [nameWhole, emailWhole]
  rw [whole, begins, String.append_assoc, Script.lines_of_line first, String.append_assoc,
    Script.lines_of_line second]
  rfl

namespace Session

theorem show_newest {session : Session} {earlier : List Commit} {commit : Commit}
    (newest : session.repository.commits = earlier ++ [commit]) :
    session.evaluate "git show" = (.done commit.shown, session) := by
  have asked : Command.parse "git show" = .ok (.display none) := rfl
  have latest : session.repository.latest? = some commit := by
    rw [Repository.latest?, newest, List.getLast?_concat]
  rw [evaluate_asks asked rfl, Answer.display, latest]
  rfl

section
variable {session : Session} (steady : session.ids.Steady) (staged : session.repository.staged ≠ [])
include steady staged

theorem run_commit_recorded (message : Option String) (author : Option Author) :
    ∃ id, session.ids.peek = .id id ∧
      let commit : Commit :=
        { id := id
          message := Plan.commitMessage message
          signature := Plan.commitSignature session.config.signature author
          timestamp := Clock.timeOf session.repository.commits.length
          branch := session.repository.current }
      session.run (.commit message author) =
        (.done (Answer.committed commit),
          { session with
            repository :=
              { session.repository with commits := session.repository.commits ++ [commit], staged := [] }
            ids := session.ids.next }) := by
  obtain ⟨id, given⟩ := steady session.ids.drawn
  have drawn : session.ids.peek = .id id := given
  have filled : session.repository.staged.isEmpty = false := by simpa using staged
  have planned : Plan.ofCommand session.settings session.config session.repository (.commit message author) =
      .record
        { message := Plan.commitMessage message
          signature := Plan.commitSignature session.config.signature author
          branch := session.repository.current }
        session.repository.unstage Answer.committed := by
    rw [Plan.ofCommand, Plan.commit, filled, if_neg Bool.false_ne_true]
  refine ⟨id, drawn, ?_⟩
  rw [run, conduct, Action.of_command_planned, planned, Plan.carry_out_recorded drawn]
  rfl

theorem quoted_commit_verbatim {first second message name email : String}
    (filled : Text.isBlankText message = false) (named : name ≠ "") (nameTrimmed : Text.trimmed name = name)
    (unbracketed : '<' ∉ name.toList) (emailTrimmed : Text.trimmed email = email)
    (messageWritten : Quoted first.toList message.toList)
    (authorWritten : Quoted second.toList (name ++ " <" ++ email ++ ">").toList) :
    ∃ id, session.ids.peek = .id id ∧
      let commit : Commit :=
        { id := id
          message := message
          signature := ⟨name, email⟩
          timestamp := Clock.timeOf session.repository.commits.length
          branch := session.repository.current }
      let after : Session :=
        { session with
          repository := { session.repository with commits := session.repository.commits ++ [commit], staged := [] }
          ids := session.ids.next }
      session.evaluate ("git commit -m " ++ first ++ " --author=" ++ second) =
        (.done ("[" ++ session.repository.current ++ " " ++ id ++ "] " ++ message), after) ∧
      ('\n' ∉ id.toList → '\n' ∉ name.toList → '\n' ∉ email.toList →
        ∃ shown line, after.evaluate "git show" = (.done shown, after) ∧
          (Script.linesOf shown)[1]? = some ("Author: " ++ line) ∧ Author.parse line = ⟨name, some email⟩) := by
  have readBack : Author.parse (name ++ " <" ++ email ++ ">") = ⟨name, some email⟩ :=
    Author.parse_write_named name email (by rw [← Text.trimmed_to_list, nameTrimmed]) unbracketed
      (by rw [← Text.trimmed_to_list, emailTrimmed])
  have parsed := Command.parse_commit messageWritten authorWritten
  rw [readBack] at parsed
  obtain ⟨id, drawn, recorded⟩ := run_commit_recorded steady staged (some message) (some ⟨name, some email⟩)
  have kept : Plan.commitMessage (some message) = message := by
    rw [Plan.commitMessage, filled, if_neg Bool.false_ne_true]
  have signed : Plan.commitSignature session.config.signature (some ⟨name, some email⟩) = ⟨name, email⟩ := by
    rw [Plan.commitSignature, Author.sign, if_neg named, Option.getD_some]
  rw [kept, signed] at recorded
  refine ⟨id, drawn, ?_⟩
  intro commit after
  refine ⟨?_, ?_⟩
  · rw [evaluate, parsed]
    exact recorded
  · intro idWhole nameWhole emailWhole
    have shown : after.evaluate "git show" = (.done commit.shown, after) := show_newest rfl
    exact ⟨commit.shown, name ++ " <" ++ email ++ ">", shown,
      commit.shown_author idWhole nameWhole emailWhole, readBack⟩

end

theorem quoted_commit_verbatim_stretches :
    let session := (start {} .sequential).after [.typed "git add ."]
    let author := String.ofList (quote "Jo > \"J\" <<a>@b>".toList)
    session.repository.staged ≠ [] ∧
    Quoted "'-m \"it'\"'s\"'\"'".toList "-m \"it's\"".toList ∧
    ∃ after, session.evaluate ("git commit -m " ++ "'-m \"it'\"'s\"'\"'" ++ " --author=" ++ author) =
        (.done "[main 0000001] -m \"it's\"", after) ∧
      after.repository.commits.map Commit.signature = [⟨"Jo > \"J\"", "<a>@b"⟩] ∧
      after.repository.staged = [] ∧
      ∃ shown line, after.evaluate "git show" = (.done shown, after) ∧
        (Script.linesOf shown)[1]? = some ("Author: " ++ line) ∧
        Author.parse line = ⟨"Jo > \"J\"", some "<a>@b"⟩ := by
  intro session author
  have steady : session.ids.Steady := after_steady _ fun place => ⟨_, rfl⟩
  have staged : session.repository.staged ≠ [] := by decide
  have messageWritten : Quoted "'-m \"it'\"'s\"'\"'".toList "-m \"it's\"".toList :=
    .more '\'' "-m \"it".toList rfl (by decide)
      (.more '"' "'s".toList rfl (by decide) (.last '\'' ['"'] rfl (by decide)))
  have named : "Jo > \"J\"" ≠ "" := by decide
  have addressed : Text.trimmed "<a>@b" = "<a>@b" := by decide
  obtain ⟨id, drawn, evaluated, readBack⟩ := quoted_commit_verbatim steady staged (by decide) named (by decide)
    (by decide) addressed messageWritten (quote_quoted "Jo > \"J\" <<a>@b>")
  have first : session.ids.peek = .id "0000001" := by decide
  have told : "[" ++ session.repository.current ++ " " ++ "0000001" ++ "] " ++ "-m \"it's\"" =
      "[main 0000001] -m \"it's\"" := by decide
  rw [first] at drawn
  cases drawn
  rw [told] at evaluated
  exact ⟨staged, messageWritten, _, evaluated, rfl, rfl, readBack (by decide) (by decide) (by decide)⟩

end Session

end GitPractice
