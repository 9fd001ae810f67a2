import GitPractice.Error
import GitPractice.Outcome
import GitPractice.Repository
import GitPractice.Text.Blank

set_option autoImplicit false

namespace GitPractice

structure SeedCommit where
  branch : String
  message : String
  id : Option String := none
  parent : Option String := none
  author : Option String := none
deriving DecidableEq, Repr

structure Seed where
  branches : List String
  commits : List SeedCommit := []
  current : Option String := none
  staged : List String := []
deriving DecidableEq, Repr

namespace SeedCommit

def commit (entry : SeedCommit) (configured : Signature) (id : String) (position : Nat) : Commit where
  id := id
  message := entry.message
  signature := ⟨entry.author.getD configured.name, configured.email⟩
  timestamp := Clock.timeOf position
  branch := entry.branch
  parent := entry.parent

def identify (entry : SeedCommit) (ids : IdSource) : Draw × IdSource :=
  match entry.id with
  | some id => (.id id, ids)
  | none => (ids.peek, ids.next)

end SeedCommit

namespace Seed

def start (seed : Seed) : Except SeedFault String :=
  match seed.current with
  | some branch => if seed.branches.contains branch then .ok branch else .error (.unlistedCurrent branch)
  | none => match seed.branches with
    | branch :: _ => .ok branch
    | [] => .error .noBranch

def commitAll (branches : List String) (configured : Signature) :
    Nat → List SeedCommit → IdSource → Outcome (List Commit) × IdSource
  | _, [], ids => (.done [], ids)
  | position, entry :: rest, ids =>
      if branches.contains entry.branch then
        match entry.identify ids with
        | (.interrupted reason, ids) => (.interrupted reason, ids)
        | (.id id, ids) =>
            let later := commitAll branches configured (position + 1) rest ids
            (later.1.map (entry.commit configured id position :: ·), later.2)
      else (.refused (.seed (.strayCommit entry.message entry.branch)), ids)

def build (seed : Seed) (configured : Signature) (ids : IdSource) : Outcome Repository × IdSource :=
  if seed.branches.any Text.isBlankText then (.refused (.seed .blankBranch), ids)
  else match seed.start with
    | .error fault => (.refused (.seed fault), ids)
    | .ok branch =>
        let made := commitAll seed.branches configured 0 seed.commits ids
        (made.1.map fun commits => ⟨branch, distinct seed.branches, commits, distinct seed.staged⟩, made.2)

end Seed

end GitPractice
