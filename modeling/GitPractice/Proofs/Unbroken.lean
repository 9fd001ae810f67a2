import GitPractice.Proofs.BranchNames
import GitPractice.Proofs.CommitOptions
import GitPractice.Proofs.TrimmedLines
import Mathlib.Data.Option.Basic

set_option autoImplicit false

namespace GitPractice

open Line

theorem Text.one_line_trimmed {text : String} (whole : OneLine text) : OneLine (trimmed text) := by
  rw [OneLine, trimmed_to_list]
  exact fun cut => whole (mem_trim cut)

theorem Text.one_line_intercalate {texts : List String} (whole : ∀ text ∈ texts, OneLine text) :
    OneLine (" ".intercalate texts) := by
  induction texts with
  | nil => decide
  | cons text rest ih =>
      obtain ⟨own, others⟩ := List.forall_mem_cons.mp whole
      cases rest with
      | nil => simpa using own
      | cons next more =>
          rw [String.intercalate_cons_of_ne_nil (by simp), one_line_append, one_line_append]
          exact ⟨⟨own, by decide⟩, ih others⟩

namespace Line

theorem mem_undelimited {c : Char} {mark : Option Char} {cs : List Char} (kept : c ∈ undelimited mark cs) :
    c ∈ cs := by
  fun_induction undelimited mark cs with
  | case1 => exact kept
  | case2 first rest opens ih => exact List.mem_cons_of_mem first (ih kept)
  | case3 first rest plain blank ih => exact List.mem_cons_of_mem first (ih kept)
  | case4 first rest plain filled ih => exact List.mem_cons.mpr ((List.mem_cons.mp kept).imp_right ih)
  | case5 mark rest ih => exact List.mem_cons_of_mem mark (ih kept)
  | case6 mark first rest inside ih => exact List.mem_cons.mpr ((List.mem_cons.mp kept).imp_right ih)

theorem tokens_one_line {line : String} (whole : Text.OneLine line) :
    ∀ token ∈ tokenize line, Text.OneLine token.text := by
  intro token present cut
  -- The characters of a token are characters of the line.
  have listed : '\n' ∈ (tokenize line).flatMap fun token => token.text.toList :=
    List.mem_flatMap.mpr ⟨token, present, cut⟩
  rw [tokenize, scan_texts] at listed
  exact whole (mem_undelimited listed)

theorem joined_one_line {tokens : List Token} (whole : ∀ token ∈ tokens, Text.OneLine token.text) :
    Text.OneLine (joined tokens) :=
  Text.one_line_intercalate (List.forall_mem_map.mpr whole)

end Line

namespace CommitOption

theorem after_one_line {beginning text rest : String} (whole : Text.OneLine text)
    (behind : after? beginning text = some rest) : Text.OneLine rest := by
  rw [after?, Option.map_eq_some_iff] at behind
  obtain ⟨left, isRest, rfl⟩ := behind
  rw [List.isPrefixOf?_eq_some_iff_append_eq] at isRest
  rw [Text.OneLine, String.toList_ofList]
  exact fun cut => whole (isRest ▸ List.mem_append_right _ cut)

theorem of_flag_one_line {flag text : String} (whole : Text.OneLine flag) (read : ofFlag? flag = some (.message text)) :
    Text.OneLine text := by
  rw [ofFlag?] at read
  split at read
  · rename_i long
    cases read
    exact after_one_line whole long
  · split at read
    · cases read
    · obtain ⟨short, behind, same⟩ := Option.map_eq_some_iff.mp read
      cases same
      exact after_one_line whole behind

theorem take_message_one_line {tokens : List Token} (whole : ∀ token ∈ tokens, Text.OneLine token.text) :
    ∀ text ∈ (takeMessage tokens).1, Text.OneLine text := by
  intro text taken
  cases tokens with
  | nil => cases taken
  | cons first rest =>
      rw [takeMessage] at taken
      split at taken
      · cases taken
        exact whole first List.mem_cons_self
      · split at taken
        · cases taken
        · cases taken
          refine joined_one_line fun token present => ?_
          exact whole token ((List.takeWhile_sublist _).subset present)

theorem of_tokens_one_line {tokens : List Token} (whole : ∀ token ∈ tokens, Text.OneLine token.text) {text : String}
    (read : .message text ∈ ofTokens tokens) : Text.OneLine text := by
  fun_induction ofTokens tokens with
  | case1 => cases read
  | case2 token rest bare ih =>
      obtain ⟨_, others⟩ := List.forall_mem_cons.mp whole
      rcases List.mem_append.mp read with taken | later
      · simp only [List.mem_map, Option.mem_toList, message.injEq, exists_eq_right] at taken
        exact take_message_one_line others text taken
      · obtain ⟨taken, split, _⟩ := take_message_operands rest
        exact ih (fun token left => others token (split ▸ List.mem_append_right taken left)) later
  | case3 token bare asks => cases read
  | case4 token bare asks value after ih =>
      rcases List.mem_cons.mp read with author | later
      · cases author
      · exact ih (fun token left => whole token (by simp [left])) later
  | case5 token rest bare unasked flag ih =>
      obtain ⟨own, others⟩ := List.forall_mem_cons.mp whole
      rcases List.mem_append.mp read with given | later
      · exact of_flag_one_line own (Option.mem_toList.mp given)
      · exact ih others later
  | case6 token rest bare unasked operand ih => exact ih (List.forall_mem_cons.mp whole).2 read

end CommitOption

namespace Command

/-- What a command can write into the history, or give to a branch as its name, has no line end. -/
def Unbroken : Command → Prop
  | .commit message _ => ∀ text ∈ message, Text.OneLine text
  | .checkoutNew branch | .createBranch branch => Text.OneLine branch
  | _ => True

theorem parse_unbroken {line : String} (whole : Text.OneLine line) {command : Command}
    (accepted : parse line = .ok command) : command.Unbroken := by
  have named {branch : String} (isName : command.newBranch? = some branch) : Text.OneLine branch := by
    obtain ⟨token, present, rfl⟩ := parse_new_branch accepted isName
    exact tokens_one_line whole token present
  rcases parse_source accepted with ⟨topic, rfl⟩ | ⟨args, sub, within, made⟩
  · trivial
  · have belongs := read_belongs args sub command made
    have texts : ∀ token ∈ args, Text.OneLine token.text := fun token present =>
      tokens_one_line whole token (within token present)
    cases command with
    | commit message author =>
        cases belongs
        cases made
        intro text last
        obtain ⟨option, given, isMessage⟩ := List.mem_filterMap.mp (List.mem_of_getLast? last)
        cases option with
        | message other =>
            cases isMessage
            exact CommitOption.of_tokens_one_line texts given
        | author who => cases isMessage
    | checkoutNew branch => exact named rfl
    | createBranch branch => exact named rfl
    | _ => trivial

end Command

structure Commit.Unbroken (commit : Commit) : Prop where
  message : Text.OneLine commit.message
  branch : Text.OneLine commit.branch
  mergedFrom : ∀ name ∈ commit.mergedFrom, Text.OneLine name
  mergedInto : ∀ name ∈ commit.mergedInto, Text.OneLine name
  cutFrom : ∀ name ∈ commit.cutFrom, Text.OneLine name

structure Draft.Unbroken (draft : Draft) : Prop where
  message : Text.OneLine draft.message
  branch : Text.OneLine draft.branch
  merge : ∀ names ∈ draft.merge, Text.OneLine names.1 ∧ Text.OneLine names.2
  cut : ∀ origin ∈ draft.cut, Text.OneLine origin.1

theorem Draft.stamp_unbroken {draft : Draft} (unbroken : draft.Unbroken) (id : String) (position : Nat) :
    (draft.stamp id position).Unbroken where
  message := unbroken.message
  branch := unbroken.branch
  mergedFrom := Option.forall_mem_map.mpr fun names given => (unbroken.merge names given).1
  mergedInto := Option.forall_mem_map.mpr fun names given => (unbroken.merge names given).2
  cutFrom := Option.forall_mem_map.mpr unbroken.cut

structure Repository.Unbroken (repository : Repository) : Prop where
  current : Text.OneLine repository.current
  branches : ∀ branch ∈ repository.branches, Text.OneLine branch
  commits : ∀ commit ∈ repository.commits, commit.Unbroken

namespace Repository

variable {repository : Repository} (unbroken : repository.Unbroken)
include unbroken

theorem Unbroken.known {branch : String} (known : repository.hasBranch branch = true) : Text.OneLine branch :=
  unbroken.branches branch ((has_branch_iff repository branch).mp known)

theorem unbroken_switch {branch : String} (whole : Text.OneLine branch) : (repository.switch branch).Unbroken :=
  ⟨whole, unbroken.branches, unbroken.commits⟩

theorem unbroken_add_branch {branch : String} (whole : Text.OneLine branch) :
    (repository.addBranch branch).Unbroken := by
  refine ⟨unbroken.current, fun other present => ?_, unbroken.commits⟩
  rcases List.mem_append.mp present with old | new
  · exact unbroken.branches other old
  · exact List.mem_singleton.mp new ▸ whole

theorem unbroken_remove_branch (branch : String) : (repository.removeBranch branch).Unbroken :=
  ⟨unbroken.current, fun other kept => unbroken.branches other (List.mem_of_mem_filter kept), unbroken.commits⟩

theorem unbroken_stage (files : List String) : (repository.stage files).Unbroken :=
  ⟨unbroken.current, unbroken.branches, unbroken.commits⟩

theorem unbroken_append {commit : Commit} (whole : commit.Unbroken) : (repository.append commit).Unbroken := by
  refine ⟨unbroken.current, unbroken.branches, fun other present => ?_⟩
  rcases List.mem_append.mp present with old | new
  · exact unbroken.commits other old
  · exact List.mem_singleton.mp new ▸ whole

end Repository

theorem Repository.fresh_unbroken {branch : String} (whole : Text.OneLine branch) : (fresh branch).Unbroken :=
  ⟨whole, by simpa [fresh] using whole, by simp [fresh]⟩

namespace Plan

def Unbroken : Plan → Prop
  | .refuse _ | .answer _ | .configure _ _ _ => True
  | .change _ repository => repository.Unbroken
  | .record draft onto _ => draft.Unbroken ∧ onto.Unbroken

theorem carry_out_unbroken {plan : Plan} {state : State} (planned : plan.Unbroken)
    (unbroken : state.repository.Unbroken) : (plan.carryOut.run state).2.repository.Unbroken := by
  cases plan with
  | refuse error => exact unbroken
  | answer text => exact unbroken
  | change text repository => exact planned
  | configure text key value => exact unbroken
  | record draft onto report =>
      obtain ⟨drafted, kept⟩ := planned
      cases drawn : state.ids.peek with
      | interrupted reason =>
          simp only [carryOut, drawn]
          exact unbroken
      | id id =>
          simp only [carryOut, drawn]
          exact Repository.unbroken_append kept (Draft.stamp_unbroken drafted id _)

theorem of_except_unbroken (answer : Except Error String) : (ofExcept answer).Unbroken := by
  cases answer with
  | ok text => trivial
  | error error => trivial

theorem commit_message_one_line {message : Option String} (whole : ∀ text ∈ message, Text.OneLine text) :
    Text.OneLine (commitMessage message) := by
  have default : Text.OneLine defaultMessage := by decide
  cases message with
  | none => exact default
  | some text =>
      rw [commitMessage]
      split
      · exact default
      · exact whole text rfl

section
variable (configured : Signature) {repository : Repository} (unbroken : repository.Unbroken)
include unbroken

theorem commit_unbroken {message : Option String} (author : Option Author)
    (whole : ∀ text ∈ message, Text.OneLine text) :
    (commit configured repository message author).Unbroken := by
  rw [commit]
  split
  · trivial
  · exact ⟨⟨commit_message_one_line whole, unbroken.current, by simp, by simp⟩,
      unbroken.current, unbroken.branches, unbroken.commits⟩

theorem checkout_new_unbroken {branch : String} (whole : Text.OneLine branch) :
    (checkoutNew configured repository branch).Unbroken := by
  rw [checkoutNew]
  split
  · trivial
  · refine ⟨⟨?_, whole, by simp, by simpa using unbroken.current⟩, ?_⟩
    · exact (Text.one_line_append _ _).mpr ⟨by decide, unbroken.current⟩
    · exact Repository.unbroken_switch (Repository.unbroken_add_branch unbroken whole) whole

theorem checkout_unbroken (branch : String) : (checkout repository branch).Unbroken := by
  rw [checkout]
  split
  · rename_i known
    exact Repository.unbroken_switch unbroken (unbroken.known known)
  · trivial

theorem merge_known_unbroken {source target : String} (moves : Bool) (sourceWhole : Text.OneLine source)
    (targetWhole : Text.OneLine target) : (mergeKnown configured repository source target moves).Unbroken := by
  have moved := Repository.unbroken_switch unbroken targetWhole
  rw [mergeKnown]
  split
  · exact moved
  · split
    · trivial
    · refine ⟨⟨?_, targetWhole, by simpa using ⟨sourceWhole, targetWhole⟩, by simp⟩, moved⟩
      have told : mergeMessage source target = "Merge branch '" ++ source ++ "' into " ++ target := rfl
      rw [told, Text.one_line_append, Text.one_line_append, Text.one_line_append]
      exact ⟨⟨⟨by decide, sourceWhole⟩, by decide⟩, targetWhole⟩

theorem merge_unbroken (source target : Option String) :
    (merge configured repository source target).Unbroken := by
  simp only [merge]
  split
  · trivial
  · rename_i present
    split
    · trivial
    · split
      · rename_i known
        refine merge_known_unbroken configured unbroken _ (unbroken.known known) ?_
        cases target with
        | none => exact unbroken.current
        | some target => exact unbroken.known (by simpa [Option.filter_some] using present)
      · trivial

theorem rebase_unbroken (base : String) : (rebase configured repository base).Unbroken := by
  rw [rebase]
  split
  · rename_i known
    split
    · trivial
    · refine ⟨⟨?_, unbroken.current, by simp, by simp⟩, unbroken⟩
      have told : rebaseMessage repository.current base = "Rebased " ++ repository.current ++ " onto " ++ base := rfl
      rw [told, Text.one_line_append, Text.one_line_append, Text.one_line_append]
      exact ⟨⟨⟨by decide, unbroken.current⟩, by decide⟩, unbroken.known known⟩
  · trivial

theorem add_paths_unbroken (paths : List String) : (addPaths repository paths).Unbroken := by
  cases paths with
  | nil => trivial
  | cons path more => exact Repository.unbroken_stage unbroken (path :: more)

theorem create_branch_unbroken {branch : String} (whole : Text.OneLine branch) :
    (createBranch repository branch).Unbroken := by
  rw [createBranch]
  split
  · trivial
  · exact Repository.unbroken_add_branch unbroken whole

theorem delete_branch_unbroken (settings : Settings) (branch : String) :
    (deleteBranch settings repository branch).Unbroken := by
  rw [deleteBranch]
  split
  · trivial
  · split
    · exact Repository.unbroken_remove_branch unbroken branch
    · trivial

theorem of_command_unbroken {settings : Settings} (config : Config) {command : Command}
    (default : Text.OneLine settings.defaultBranch) (asked : command.Unbroken) :
    (ofCommand settings config repository command).Unbroken := by
  cases command with
  | help topic => exact of_except_unbroken _
  | commit message author => exact commit_unbroken _ unbroken author asked
  | checkoutNew branch => exact checkout_new_unbroken _ unbroken asked
  | checkout branch => exact checkout_unbroken unbroken branch
  | merge source target => exact merge_unbroken _ unbroken source target
  | rebase base => exact rebase_unbroken _ unbroken base
  | init => exact Repository.fresh_unbroken default
  | addAll => exact Repository.unbroken_stage unbroken settings.everyFile
  | addPaths paths => exact add_paths_unbroken unbroken paths
  | createBranch branch => exact create_branch_unbroken unbroken asked
  | deleteBranch branch => exact delete_branch_unbroken unbroken settings branch
  | getConfig key => exact of_except_unbroken _
  | setConfig key value => trivial
  | log oneline graph => exact of_except_unbroken _
  | display revision => exact of_except_unbroken _
  | status | listBranches | push _ _ | pull _ _ | fetch | diff | listConfig => trivial

end

end Plan

def Event.Unbroken : Event → Prop
  | .typed line | .evaluated line => Text.OneLine line
  | .loaded _ => False

theorem Event.command_unbroken {event : Event} (whole : event.Unbroken) {command : Command}
    (asked : event.command? = some command) : command.Unbroken := by
  have read {line : String} (whole : Text.OneLine line) (read : (Command.parse line).toOption = some command) :
      command.Unbroken := by
    cases parsed : Command.parse line with
    | error fault => simp [parsed, Except.toOption] at read
    | ok other =>
        rw [parsed] at read
        cases read
        exact Command.parse_unbroken whole parsed
  cases event with
  | typed line => exact read (Text.one_line_trimmed whole) asked
  | evaluated line => exact read whole asked
  | loaded seed => exact whole.elim

theorem Settings.check_one_line {settings checked : Settings} (sound : settings.check = .ok checked) :
    Text.OneLine settings.defaultBranch := by
  obtain ⟨_, _, unspaced⟩ := (check_ok_iff settings checked).mp sound
  intro cut
  exact List.any_eq_false.mp unspaced '\n' cut (by decide)

namespace Session

theorem apply_unbroken {session : Session} {event : Event} (whole : event.Unbroken)
    (default : Text.OneLine session.settings.defaultBranch) (unbroken : session.repository.Unbroken) :
    (session.apply event).repository.Unbroken := by
  cases apply_effect session event with
  | ran command asked state =>
      rw [state, run, conduct, Action.of_command_planned]
      refine Plan.carry_out_unbroken ?_ unbroken
      exact Plan.of_command_unbroken unbroken _ default (Event.command_unbroken whole asked)
  | loaded seed given =>
      subst given
      exact whole.elim
  | idle asked state =>
      rw [state]
      exact unbroken

theorem after_unbroken {session : Session} {course : List Event} (whole : ∀ event ∈ course, event.Unbroken)
    (default : Text.OneLine session.settings.defaultBranch) (unbroken : session.repository.Unbroken) :
    (session.after course).repository.Unbroken := by
  induction course generalizing session with
  | nil => exact unbroken
  | cons event rest ih =>
      obtain ⟨own, others⟩ := List.forall_mem_cons.mp whole
      have settings : (session.apply event).settings = session.settings := after_settings session [event]
      exact ih others (settings ▸ default) (apply_unbroken own default unbroken)

end Session

end GitPractice
