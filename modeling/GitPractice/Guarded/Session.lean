import GitPractice.Guarded.Parser
import GitPractice.Session.Event

set_option autoImplicit false

namespace GitPractice.Guarded

def shortId? (commit : Commit) : Option String :=
  match Text.placeOf? IdSource.idLength commit.id.toList with
  | some place => (Text.slice? 0 place commit.id.toList).map .ofList
  | none => some commit.id

def oneline? (commit : Commit) : Option String := do
  let id ← shortId? commit
  return id ++ " " ++ commit.message

def summaryLine? : Option Commit → Option String
  | some commit => (oneline? commit).map ("  " ++ ·)
  | none => some "  unknown"

def graphLine? (commit : Commit) (oldest : Bool) : Option String := do
  let line ← oneline? commit
  return commit.glyph oldest ++ line ++
    match commit.merge? with
    | some (source, target) => " (" ++ Commit.arrow source target ++ ")"
    | none => ""

def graphLines? (last : Nat) : Nat → List Commit → Option (List String)
  | _, [] => some []
  | place, commit :: older => do
      let line ← graphLine? commit (place == last)
      let more ← graphLines? last (place + 1) older
      return line :: commit.connectors (!decide (place < last)) ++ more

def graph? (commits : List Commit) : Option String := do
  let sorted := Log.byTime commits
  let last ← minus? sorted.length 1
  let lines ← graphLines? last 0 sorted
  return "\n".intercalate lines

def onelines? (commits : List Commit) : Option String := do
  let lines ← commits.reverse.mapM oneline?
  return "\n".intercalate lines

def logText? (isOneline isGraph : Bool) (commits : List Commit) : Option String :=
  if isOneline then if isGraph then graph? commits else onelines? commits else some (Log.detailed commits)

def log? (repository : Repository) (isOneline isGraph : Bool) : Option (Except Error String) :=
  if repository.commits.isEmpty then some (.error (.noCommits repository.current))
  else do
    let text ← logText? isOneline isGraph repository.commits
    return .ok (Text.trimmedEnd text)

/-- An action that may fault. A fault leaves nothing behind, neither a result nor a session. -/
structure Action (α : Type) where
  run : State → Option (Outcome α × State)

namespace Action

variable {α β : Type}

instance : Monad Action where
  pure value := ⟨fun state => some (.done value, state)⟩
  bind action next := ⟨fun state => do
    match ← action.run state with
    | (.done value, after) => (next value).run after
    | (.refused error, after) => some (.refused error, after)
    | (.interrupted reason, after) => some (.interrupted reason, after)⟩

def plain (action : GitPractice.Action α) : Action α := ⟨fun state => some (action.run state)⟩

def check (value? : Option α) : Action α := ⟨fun state => value?.map fun value => (.done value, state)⟩

def newCommit (message : String) (signature : Signature) (branch : String) : Action Commit := do
  let id ← plain .draw
  let repository ← plain (.look State.repository)
  let timestamp ← check (timeOf? repository.commits.length)
  return {
    id := id
    message := message
    signature := signature
    timestamp := timestamp
    branch := branch }

def commit (message : Option String) (author : Option Author) : Action String := do
  let repository ← plain (.look State.repository)
  plain (.require (!repository.staged.isEmpty) .nothingStaged)
  let signature ← plain .configured
  let commit ← newCommit (Plan.commitMessage message) (Plan.commitSignature signature author) repository.current
  plain (.change (·.append commit))
  plain (.change Repository.unstage)
  return Answer.committed commit

def checkoutNew (branch : String) : Action String := do
  let repository ← plain (.look State.repository)
  plain (.require (!repository.hasBranch branch) (.branchExists branch))
  let parent := (repository.tip? repository.current).map Commit.id
  let signature ← plain .configured
  let commit ← newCommit (Plan.cutMessage repository.current) signature branch
  let _ ← plain (.attempt (·.addNewBranch branch))
  plain (.change (·.append (commit.withCut repository.current parent)))
  let _ ← plain (.attempt (·.switchKnown branch))
  return Answer.switchedNew branch repository.current

def mergeKnown (source target : String) (named : Bool) : Action String := do
  let repository ← plain (.look State.repository)
  if source = target then
    let opening ← plain (.enter target named)
    return "\n".intercalate (opening ++ [Answer.upToDate])
  else
    let onSource := repository.commitsOn source
    plain (.require (!onSource.isEmpty) (.emptySource source))
    let onTarget := repository.commitsOn target
    let sourceLine ← check (summaryLine? onSource.getLast?)
    let targetLine ← check (summaryLine? onTarget.getLast?)
    let signature ← plain .configured
    let commit ← newCommit (Plan.mergeMessage source target) signature target
    let opening ← plain (.enter target named)
    plain (.change (·.append (commit.withMerge source target)))
    return "\n".intercalate (opening ++
      ["Merge made by the 'ort' strategy.", "Merging:", sourceLine, targetLine,
       "found " ++ toString (Answer.newCount onSource onTarget) ++ " commit(s) from '" ++ source ++
         "' to merge into '" ++ target ++ "'."])

def merge (source target : Option String) : Action String := do
  let repository ← plain (.look State.repository)
  plain (.requireTarget repository target)
  match source with
  | none => plain (.refuse .missingSource)
  | some source =>
      plain (.require (repository.hasBranch source) (.unknownBranch source .mergeSource))
      mergeKnown source (target.getD repository.current) target.isSome

def rebase (base : String) : Action String := do
  let repository ← plain (.look State.repository)
  plain (.require (repository.hasBranch base) (.unknownBranch base .rebase))
  if base = repository.current then return Answer.baseUpToDate repository.current
  else
    let signature ← plain .configured
    let commit ← newCommit (Plan.rebaseMessage repository.current base) signature repository.current
    plain (.change (·.append commit))
    return Answer.rebased repository.current

def log (isOneline isGraph : Bool) : Action String := do
  let repository ← plain (.look State.repository)
  let answer ← check (log? repository isOneline isGraph)
  plain (.ask fun _ => answer)

def ofCommand (settings : Settings) : Command → Action String
  | .commit message author => commit message author
  | .checkoutNew branch => checkoutNew branch
  | .merge source target => merge source target
  | .rebase base => rebase base
  | .log isOneline isGraph => log isOneline isGraph
  | command => plain (.ofCommand settings command)

end Action

def evaluate? (session : Session) (line : String) : Option (Outcome String × Session) := do
  match ← parse? line with
  | .error error => return (.refused error, session)
  | .ok command =>
      let result ← (Action.ofCommand session.settings command).run session.toState
      return (result.1, { session with toState := result.2 })

def execute? (session : Session) (line : String) : Option (List Entry × Session) :=
  if Text.isBlankText line then some ([], session)
  else do
    let typed := Text.trimmed line
    let result ← evaluate? session typed
    let entries := [Entry.echo typed, Session.resultEntry result.1]
    return (entries, { result.2 with transcript := session.transcript.append entries })

def commitAll? (branches : List String) (configured : Signature) :
    Nat → List SeedCommit → IdSource → Option (Outcome (List Commit) × IdSource)
  | _, [], ids => some (.done [], ids)
  | position, entry :: rest, ids =>
      if branches.contains entry.branch then
        match entry.identify ids with
        | (.interrupted reason, ids) => some (.interrupted reason, ids)
        | (.id id, ids) => do
            let timestamp ← timeOf? position
            let later ← commitAll? branches configured (position + 1) rest ids
            return (later.1.map ({ entry.commit configured id position with timestamp := timestamp } :: ·), later.2)
      else some (.refused (.seed (.strayCommit entry.message entry.branch)), ids)

def assemble? (branch : String) (branches : List String) (commits : List Commit) (staged : List String) :
    Option Repository := do
  assert? (branches.contains branch)
  return ⟨branch, branches, commits, distinct staged⟩

def build? (seed : Seed) (configured : Signature) (ids : IdSource) : Option (Outcome Repository × IdSource) :=
  if seed.branches.any Text.isBlankText then some (.refused (.seed .blankBranch), ids)
  else match seed.start with
    | .error fault => some (.refused (.seed fault), ids)
    | .ok branch => do
        match ← commitAll? seed.branches configured 0 seed.commits ids with
        | (.done commits, ids) =>
            let repository ← assemble? branch (distinct seed.branches) commits seed.staged
            return (.done repository, ids)
        | (.refused error, ids) => return (.refused error, ids)
        | (.interrupted reason, ids) => return (.interrupted reason, ids)

def load? (session : Session) (seed : Seed) : Option (Outcome Unit × Session) := do
  match ← build? seed session.config.signature session.ids with
  | (.done repository, ids) => return (.done (), { session with repository := repository, ids := ids })
  | (.refused error, ids) => return (.refused error, { session with ids := ids })
  | (.interrupted reason, ids) => return (.interrupted reason, { session with ids := ids })

def advance? (session : Session) : Event → Option Session
  | .typed line => (execute? session line).map Prod.snd
  | .evaluated line => (evaluate? session line).map Prod.snd
  | .loaded seed => (load? session seed).map Prod.snd

def after? (session : Session) : List Event → Option Session
  | [] => some session
  | event :: rest => do
      let next ← advance? session event
      after? next rest

end GitPractice.Guarded
