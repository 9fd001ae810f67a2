import GitPractice.Command
import GitPractice.Manual
import GitPractice.Report.Answer
import GitPractice.Report.Listing
import GitPractice.Settings

set_option autoImplicit false

namespace GitPractice

inductive Plan where
  | refuse (error : Error)
  | answer (text : String)
  | change (text : String) (repository : Repository)
  | configure (text key value : String)
  | record (draft : Draft) (onto : Repository) (report : Commit → String)

namespace Plan

def ofExcept : Except Error String → Plan
  | .ok text => .answer text
  | .error error => .refuse error

def defaultMessage : String := "New commit"

def commitMessage (message : Option String) : String :=
  match message with
  | some text => if Text.isBlankText text then defaultMessage else text
  | none => defaultMessage

def commitSignature (configured : Signature) : Option Author → Signature
  | some author => author.sign configured
  | none => configured

def commit (configured : Signature) (repository : Repository) (message : Option String)
    (author : Option Author) : Plan :=
  if repository.staged.isEmpty then .refuse .nothingStaged
  else
    .record
      { message := commitMessage message
        signature := commitSignature configured author
        branch := repository.current }
      repository.unstage
      Answer.committed

def cutMessage (origin : String) : String := "Branch from " ++ origin

def checkoutNew (configured : Signature) (repository : Repository) (branch : String) : Plan :=
  if repository.hasBranch branch then .refuse (.branchExists branch)
  else
    .record
      { message := cutMessage repository.current
        signature := configured
        branch := branch
        cut := some (repository.current, (repository.tip? repository.current).map Commit.id) }
      ((repository.addBranch branch).switch branch)
      fun _ => Answer.switchedNew branch repository.current

def checkout (repository : Repository) (branch : String) : Plan :=
  if repository.hasBranch branch then .change (Answer.switched branch) (repository.switch branch)
  else .refuse (.unknownBranch branch .checkout)

def mergeMessage (source target : String) : String := "Merge branch '" ++ source ++ "' into " ++ target

def mergeKnown (configured : Signature) (repository : Repository) (source target : String)
    (moves : Bool) : Plan :=
  let opening := if moves then [Answer.switched target] else []
  if source = target then .change ("\n".intercalate (opening ++ [Answer.upToDate])) (repository.switch target)
  else if (repository.commitsOn source).isEmpty then .refuse (.emptySource source)
  else
    .record
      { message := mergeMessage source target
        signature := configured
        branch := target
        merge := some (source, target) }
      (repository.switch target)
      fun _ => "\n".intercalate (opening ++
        Answer.mergeSummary source target (repository.commitsOn source) (repository.commitsOn target))

/-- The target is looked up before the source, and both before anything else. -/
def merge (configured : Signature) (repository : Repository) (source target : Option String) : Plan :=
  match target.filter fun branch => !repository.hasBranch branch with
  | some missing => .refuse (.unknownBranch missing .mergeTarget)
  | none => match source with
    | none => .refuse .missingSource
    | some source =>
        if repository.hasBranch source then
          mergeKnown configured repository source (target.getD repository.current) target.isSome
        else .refuse (.unknownBranch source .mergeSource)

def rebaseMessage (branch base : String) : String := "Rebased " ++ branch ++ " onto " ++ base

def rebase (configured : Signature) (repository : Repository) (base : String) : Plan :=
  if repository.hasBranch base then
    if base = repository.current then .answer (Answer.baseUpToDate repository.current)
    else
      .record
        { message := rebaseMessage repository.current base
          signature := configured
          branch := repository.current }
        repository
        fun _ => Answer.rebased repository.current
  else .refuse (.unknownBranch base .rebase)

def init (settings : Settings) : Plan :=
  .change (Answer.initialized settings.repositoryPath) (.fresh settings.defaultBranch)

def addAll (settings : Settings) (repository : Repository) : Plan :=
  .change Answer.stagedAll (repository.stage settings.everyFile)

def addPaths (repository : Repository) : List String → Plan
  | [] => .answer Answer.stagedNothing
  | path :: more => .change (Answer.staged (path :: more)) (repository.stage (path :: more))

def createBranch (repository : Repository) (branch : String) : Plan :=
  if repository.hasBranch branch then .refuse (.branchExists branch)
  else .change (Answer.created branch repository.current) (repository.addBranch branch)

def deleteBranch (settings : Settings) (repository : Repository) (branch : String) : Plan :=
  if branch = repository.current then .refuse (.currentBranchKept branch settings.repositoryPath)
  else if repository.hasBranch branch then
    .change (Answer.deleted branch) (repository.removeBranch branch)
  else .refuse (.unknownBranch branch .delete)

def setConfig (key value : String) : Plan :=
  .configure (Answer.configured key value) key value

def ofCommand (settings : Settings) (config : Config) (repository : Repository) : Command → Plan
  | .help topic => ofExcept (Manual.render topic)
  | .commit message author => commit config.signature repository message author
  | .checkoutNew branch => checkoutNew config.signature repository branch
  | .checkout branch => checkout repository branch
  | .merge source target => merge config.signature repository source target
  | .rebase base => rebase config.signature repository base
  | .init => init settings
  | .addAll => addAll settings repository
  | .addPaths paths => addPaths repository paths
  | .status => .answer (Listing.status repository)
  | .listBranches => .answer (Listing.branches repository)
  | .createBranch branch => createBranch repository branch
  | .deleteBranch branch => deleteBranch settings repository branch
  | .push remote branch =>
      .answer (Listing.pushed (Listing.remoteName remote) (branch.getD repository.current))
  | .pull remote branch =>
      .answer (Listing.pulled (Listing.remoteName remote) (branch.getD repository.current))
  | .fetch => .answer Listing.fetched
  | .diff => .answer (Answer.diff repository)
  | .listConfig => .answer (Listing.config config)
  | .getConfig key => ofExcept (Answer.setting config key)
  | .setConfig key value => setConfig key value
  | .log oneline graph => ofExcept (Answer.log repository oneline graph)
  | .display revision => ofExcept (Answer.display repository revision)

def recorded (draft : Draft) (onto : Repository) (id : String) : Commit :=
  draft.stamp id onto.commits.length

end Plan

end GitPractice
