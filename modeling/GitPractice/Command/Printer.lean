import GitPractice.Command.Parser
import GitPractice.Line.Spelling

set_option autoImplicit false

namespace GitPractice.Command

open Line

def words : Command → List Word
  | .help topic => .plain "help" :: topic.toList.map .data
  | .commit message author =>
      .plain "commit" :: (message.toList.flatMap fun text => [.plain "-m", .data text]) ++
        author.toList.map fun author => .attached "--author=" author.write
  | .checkoutNew branch => [.plain "checkout", .plain "-b", .data branch]
  | .checkout branch => [.plain "checkout", .data branch]
  | .merge source target =>
      .plain "merge" :: source.toList.map .data ++
        target.toList.flatMap fun branch => [.plain mergeWord, .data branch]
  | .rebase base => [.plain "rebase", .data base]
  | .init => [.plain "init"]
  | .addAll => [.plain "add", .plain "."]
  | .addPaths paths => .plain "add" :: paths.map .data
  | .status => [.plain "status"]
  | .listBranches => [.plain "branch"]
  | .createBranch branch => [.plain "branch", .data branch]
  | .deleteBranch branch => [.plain "branch", .plain "-d", .data branch]
  | .push remote branch => .plain "push" :: (remote.toList ++ branch.toList).map .data
  | .pull remote branch => .plain "pull" :: (remote.toList ++ branch.toList).map .data
  | .fetch => [.plain "fetch"]
  | .diff => [.plain "diff"]
  | .listConfig => [.plain "config", .plain "--list"]
  | .getConfig key => [.plain "config", .data key]
  | .setConfig key value => [.plain "config", .plain "--global", .data key, .data value]
  | .log oneline graph =>
      .plain "log" :: (if oneline then [.plain "--oneline"] else []) ++
        (if graph then [.plain "--graph"] else [])
  | .display revision => .plain "show" :: revision.toList.map .data

def render (command : Command) : String := spell (.plain tool :: command.words)

end GitPractice.Command
