import GitPractice.Outcome
import GitPractice.Plan

set_option autoImplicit false

namespace GitPractice

structure State where
  repository : Repository
  config : Config
  ids : IdSource

structure Action (α : Type) where
  run : State → Outcome α × State

namespace Action

variable {α β : Type}

instance : Monad Action where
  pure value := ⟨fun state => (.done value, state)⟩
  bind action next := ⟨fun state =>
    match action.run state with
    | (.done value, after) => (next value).run after
    | (.refused error, after) => (.refused error, after)
    | (.interrupted reason, after) => (.interrupted reason, after)⟩

theorem bind_done {action : Action α} {state after : State} {value : α} (next : α → Action β)
    (finished : action.run state = (.done value, after)) :
    (action >>= next).run state = (next value).run after := by
  simp only [bind, finished]

theorem bind_interrupted {action : Action α} {state after : State} {reason : String}
    (next : α → Action β) (stopped : action.run state = (.interrupted reason, after)) :
    (action >>= next).run state = (.interrupted reason, after) := by
  simp only [bind, stopped]

def refuse (error : Error) : Action α := ⟨fun state => (.refused error, state)⟩

def require (holds : Bool) (error : Error) : Action Unit := if holds then pure () else refuse error

theorem require_bind (holds : Bool) (error : Error) (next : Unit → Action β) (state : State) :
    (require holds error >>= next).run state =
      if holds then (next ()).run state else (.refused error, state) := by
  cases holds <;> rfl

def look (view : State → α) : Action α := ⟨fun state => (.done (view state), state)⟩

theorem look_bind (view : State → α) (next : α → Action β) (state : State) :
    (look view >>= next).run state = (next (view state)).run state := rfl

def ask (answer : State → Except Error String) : Action String := ⟨fun state =>
  match answer state with
  | .ok text => (.done text, state)
  | .error error => (.refused error, state)⟩

def change (edit : Repository → Repository) : Action Unit := ⟨fun state =>
  (.done (), { state with repository := edit state.repository })⟩

theorem change_bind (edit : Repository → Repository) (next : Unit → Action β) (state : State) :
    (change edit >>= next).run state =
      (next ()).run { state with repository := edit state.repository } := rfl

def attempt (edit : Repository → Bool × Repository) : Action Bool := ⟨fun state =>
  (.done (edit state.repository).1, { state with repository := (edit state.repository).2 })⟩

theorem attempt_bind (edit : Repository → Bool × Repository) (next : Bool → Action β) (state : State) :
    (attempt edit >>= next).run state =
      (next (edit state.repository).1).run { state with repository := (edit state.repository).2 } := rfl

def configure (edit : Config → Config) : Action Unit := ⟨fun state =>
  (.done (), { state with config := edit state.config })⟩

/-- The next id. A draw that gives none interrupts the action, and is used up as well. -/
def draw : Action String := ⟨fun state =>
  match state.ids.peek with
  | .id id => (.done id, { state with ids := state.ids.next })
  | .interrupted reason => (.interrupted reason, { state with ids := state.ids.next })⟩

def newCommit (message : String) (signature : Signature) (branch : String) : Action Commit := do
  let id ← draw
  let repository ← look State.repository
  return {
    id := id
    message := message
    signature := signature
    timestamp := Clock.timeOf repository.commits.length
    branch := branch }

section
variable {state : State} (message : String) (signature : Signature) (branch : String)

theorem new_commit_drawn {id : String} (drawn : state.ids.peek = .id id) :
    (newCommit message signature branch).run state =
      (.done {
          id := id
          message := message
          signature := signature
          timestamp := Clock.timeOf state.repository.commits.length
          branch := branch },
        { state with ids := state.ids.next }) := by
  have given : draw.run state = (.done id, { state with ids := state.ids.next }) := by
    simp only [draw, drawn]
  rw [newCommit, bind_done _ given]
  rfl

theorem new_commit_interrupted {reason : String} (drawn : state.ids.peek = .interrupted reason) :
    (newCommit message signature branch).run state =
      (.interrupted reason, { state with ids := state.ids.next }) := by
  have broken : draw.run state = (.interrupted reason, { state with ids := state.ids.next }) := by
    simp only [draw, drawn]
  rw [newCommit, bind_interrupted _ broken]

end

def configured : Action Signature := look fun state => state.config.signature

def commit (message : Option String) (author : Option Author) : Action String := do
  let repository ← look State.repository
  require (!repository.staged.isEmpty) .nothingStaged
  let signature ← configured
  let commit ← newCommit (Plan.commitMessage message) (Plan.commitSignature signature author)
    repository.current
  change (·.append commit)
  change Repository.unstage
  return Answer.committed commit

def checkoutNew (branch : String) : Action String := do
  let repository ← look State.repository
  require (!repository.hasBranch branch) (.branchExists branch)
  let parent := (repository.tip? repository.current).map Commit.id
  let signature ← configured
  let commit ← newCommit (Plan.cutMessage repository.current) signature branch
  let _ ← attempt (·.addNewBranch branch)
  change (·.append (commit.withCut repository.current parent))
  let _ ← attempt (·.switchKnown branch)
  return Answer.switchedNew branch repository.current

def checkout (branch : String) : Action String := do
  let moved ← attempt (·.switchKnown branch)
  require moved (.unknownBranch branch .checkout)
  return Answer.switched branch

def enter (target : String) (named : Bool) : Action (List String) :=
  if named then do
    let _ ← attempt (·.switchKnown target)
    return [Answer.switched target]
  else return []

def mergeKnown (source target : String) (named : Bool) : Action String := do
  let repository ← look State.repository
  if source = target then
    let opening ← enter target named
    return "\n".intercalate (opening ++ [Answer.upToDate])
  else
    let onSource := repository.commitsOn source
    require (!onSource.isEmpty) (.emptySource source)
    let onTarget := repository.commitsOn target
    let signature ← configured
    let commit ← newCommit (Plan.mergeMessage source target) signature target
    let opening ← enter target named
    change (·.append (commit.withMerge source target))
    return "\n".intercalate (opening ++ Answer.mergeSummary source target onSource onTarget)

def requireTarget (repository : Repository) : Option String → Action Unit
  | none => return
  | some target => require (repository.hasBranch target) (.unknownBranch target .mergeTarget)

def merge (source target : Option String) : Action String := do
  let repository ← look State.repository
  requireTarget repository target
  match source with
  | none => refuse .missingSource
  | some source =>
      require (repository.hasBranch source) (.unknownBranch source .mergeSource)
      mergeKnown source (target.getD repository.current) target.isSome

def rebase (base : String) : Action String := do
  let repository ← look State.repository
  require (repository.hasBranch base) (.unknownBranch base .rebase)
  if base = repository.current then return Answer.baseUpToDate repository.current
  else
    let signature ← configured
    let commit ← newCommit (Plan.rebaseMessage repository.current base) signature repository.current
    change (·.append commit)
    return Answer.rebased repository.current

def init (settings : Settings) : Action String := do
  change fun _ => .fresh settings.defaultBranch
  return Answer.initialized settings.repositoryPath

def addAll (settings : Settings) : Action String := do
  change (·.stage settings.everyFile)
  return Answer.stagedAll

def addPaths : List String → Action String
  | [] => return Answer.stagedNothing
  | path :: more => do
      change (·.stage (path :: more))
      return Answer.staged (path :: more)

def createBranch (branch : String) : Action String := do
  let added ← attempt (·.addNewBranch branch)
  require added (.branchExists branch)
  let repository ← look State.repository
  return Answer.created branch repository.current

/-- The label is removed before it is known whether there was one. -/
def deleteBranch (settings : Settings) (branch : String) : Action String := do
  let repository ← look State.repository
  require (branch != repository.current) (.currentBranchKept branch settings.repositoryPath)
  let removed ← attempt (·.removeOtherBranch branch)
  require removed (.unknownBranch branch .delete)
  return Answer.deleted branch

def setConfig (key value : String) : Action String := do
  configure (·.set key value)
  return Answer.configured key value

def ofCommand (settings : Settings) : Command → Action String
  | .help topic => ask fun _ => Manual.render topic
  | .commit message author => commit message author
  | .checkoutNew branch => checkoutNew branch
  | .checkout branch => checkout branch
  | .merge source target => merge source target
  | .rebase base => rebase base
  | .init => init settings
  | .addAll => addAll settings
  | .addPaths paths => addPaths paths
  | .status => ask fun state => .ok (Listing.status state.repository)
  | .listBranches => ask fun state => .ok (Listing.branches state.repository)
  | .createBranch branch => createBranch branch
  | .deleteBranch branch => deleteBranch settings branch
  | .push remote branch => ask fun state =>
      .ok (Listing.pushed (Listing.remoteName remote) (branch.getD state.repository.current))
  | .pull remote branch => ask fun state =>
      .ok (Listing.pulled (Listing.remoteName remote) (branch.getD state.repository.current))
  | .fetch => ask fun _ => .ok Listing.fetched
  | .diff => ask fun state => .ok (Answer.diff state.repository)
  | .listConfig => ask fun state => .ok (Listing.config state.config)
  | .getConfig key => ask fun state => Answer.setting state.config key
  | .setConfig key value => setConfig key value
  | .log oneline graph => ask fun state => Answer.log state.repository oneline graph
  | .display revision => ask fun state => Answer.display state.repository revision

end Action

end GitPractice
