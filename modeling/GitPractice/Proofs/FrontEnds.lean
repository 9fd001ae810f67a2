import GitPractice.Proofs.Addresses
import GitPractice.Proofs.DefaultSeed
import GitPractice.Proofs.Scripts

set_option autoImplicit false

namespace GitPractice

theorem Session.standalone_done (settings : Settings) {ids : IdSource} (steady : ids.Steady) {seed : Option Seed}
    (valid : ∀ own ∈ seed, own.Valid) : ∃ session, standalone settings ids seed = (.done (), session) := by
  cases seed with
  | none => exact ⟨_, rfl⟩
  | some own =>
      obtain ⟨repository, built⟩ := (Seed.build_accepts _ own steady).mpr (valid own rfl)
      obtain ⟨session, loaded, _⟩ := load_repository (start settings ids) own built
      exact ⟨session, loaded⟩

namespace CommandLine

section
variable {settings : Settings} {seed : Option Seed} {session : Session}
variable (alone : Session.standalone settings .sequential seed = (.done (), session))
include alone

theorem open_session_alone : openSession settings seed .sequential = .ok session := by
  cases seed with
  | none => exact congrArg Except.ok (Prod.mk.inj alone).2
  | some own =>
      rw [Session.standalone] at alone
      rw [openSession, alone]
      rfl

variable {surroundings : Surroundings} {options : Options} (deterministic : options.deterministic = true)
variable (settled : loadSettings surroundings options = .ok settings)
variable (seeded : loadSeed surroundings options = .ok seed)
include deterministic settled seeded

theorem prepare_session_alone : prepareSession surroundings options = .ok session := by
  rw [prepareSession, settled, seeded, idsOf, deterministic]
  exact open_session_alone alone

theorem run_file_prepared {name text : String} (found : surroundings.file name = .readable text)
    (failFast state : Bool) :
    runFile surroundings options name failFast state = runScript name text failFast state session := by
  rw [runFile, found, Document.read, prepare_session_alone alone deterministic settled seeded]

end

end CommandLine

namespace Server

end Server

def sharedSeed : Seed := { branches := ["main", "dev"], commits := [{ branch := "dev", message := "Start" }] }

def sharedLines : List String := ["  git merge dev", "", "git push \"origin", "git diff", "git commit"]

def sharedFile (name : String) : Document :=
  if name = "seed.json" then .readable sharedSeed.toJson.compact
  else if name = "lines" then .readable ("\n".intercalate sharedLines ++ "\n")
  else .missing

def sharedFiles : CommandLine.Surroundings := ⟨sharedFile, fun _ => .scattered 0⟩

def sharedOptions : CommandLine.Options := ⟨some "seed.json", none, true⟩

theorem shared_seed_loaded : CommandLine.loadSeed sharedFiles sharedOptions = .ok (some sharedSeed) := by
  have loaded : Seed.load "seed.json" (sharedFile "seed.json") = .ok sharedSeed := by
    rw [Seed.load, sharedFile, if_pos rfl, Document.read, show isTomlName "seed.json" = false by decide]
    simp only [Bool.false_eq_true, if_false, Seed.parseJson, Json.read_compact sharedSeed.plain,
      sharedSeed.of_json_to_json]
  simp only [CommandLine.loadSeed, sharedOptions, sharedFiles, loaded]

end GitPractice
