import GitPractice.Proofs.Records

set_option autoImplicit false

namespace GitPractice

/-- A request as it arrives, with the id that is given to the session that it may open. -/
abbrev Arrival := SessionId × Request

namespace Arrival

def closes (id : SessionId) (arrival : Arrival) : Bool :=
  match arrival.2.aim with
  | .asks asked .close _ => asked == id
  | _ => false

def lineFor? (id : SessionId) (arrival : Arrival) : Option String :=
  match arrival.2.aim with
  | .asks asked .command line => if asked = id then some line else none
  | _ => none

section
variable {id asked : SessionId} {request : Request} {action : SessionAction} {line : String}
variable (fresh : SessionId)

end

end Arrival

def Session.standalone (settings : Settings) (ids : IdSource) : Option Seed → Outcome Unit × Session
  | some seed => (start settings ids).load seed
  | none => (.done (), start settings ids)

theorem Session.load_transcript (session : Session) (seed : Seed) :
    (session.load seed).2.transcript = session.transcript := by
  rw [load]
  split <;> rfl

theorem Session.standalone_transcript (settings : Settings) (ids : IdSource) (seed : Option Seed) :
    (standalone settings ids seed).2.transcript = {} := by
  cases seed with
  | none => rfl
  | some seed => exact load_transcript _ seed

namespace Server

theorem start_done {settings : Settings} {defaultSeed : Option Seed} {ids : SessionId → IdSource}
    {server : Server} (started : start settings defaultSeed ids = .done server) :
    server = ⟨settings, defaultSeed, ids, []⟩ := by
  rw [start] at started
  cases tried : (openSession ⟨settings, defaultSeed, ids, []⟩ ⟨0⟩ none).1 with
  | done value =>
      rw [tried, Outcome.map] at started
      cases started
      rfl
  | refused error =>
      rw [tried, Outcome.map] at started
      cases started
  | interrupted reason =>
      rw [tried, Outcome.map] at started
      cases started

theorem open_session_standalone (server : Server) (id : SessionId) (seed : Option Seed) :
    server.openSession id seed =
      Session.standalone server.settings (server.ids id) (seed.or server.defaultSeed) := by
  rw [openSession]
  cases seed.or server.defaultSeed <;> rfl

/-- Whether an arrival opens a session; only then its fresh id is given out. -/
def creates (server : Server) (arrival : Arrival) : Bool :=
  match arrival.2.aim with
  | .opens seed => match (server.openSession arrival.1 seed).1 with
    | .done _ => true
    | .refused _ => false
    | .interrupted _ => false
  | _ => false

section
variable {id : SessionId} {left middle right : Server}

end

variable {id : SessionId}

theorem handle_open_session (server : Server) (arrival : Arrival) :
    (server.handle arrival.1 arrival.2).2.openSession = server.openSession := by
  rw [handle_aim]
  exact serve_open_session server arrival.1 arrival.2.aim

section
variable {server : Server} {session : Session} {arrival : Arrival}

end

def logged (id : SessionId) (exchange : Arrival × Response) : List Json :=
  match exchange.1.lineFor? id, exchange.2.payload with
  | some _, .json (.array items) => items
  | _, _ => []

section
variable {server : Server} {session : Session} {arrival : Arrival}

end

section
variable {server : Server} {session : Session} {arrival : Arrival}

end

theorem answer_all_open_session (server : Server) (arrivals : List Arrival) :
    (server.answerAll arrivals).2.openSession = server.openSession := by
  induction arrivals generalizing server with
  | nil => rfl
  | cons first rest ih => exact (ih _).trans (handle_open_session server first)

theorem handle_opened {server : Server} {creation : Request} {seed : Option Seed} {session : Session}
    (aimed : creation.aim = .opens seed) (opened : server.openSession id seed = (.done (), session)) :
    server.handle id creation = (.ok (createdJson id session), server.insert id session) := by
  rw [handle_aim, aimed, serve_opened server opened, Request.finish_opening _ aimed]

def opening : Request := ⟨"POST", "/sessions", none, ""⟩

def closing : Request := ⟨"DELETE", "/sessions/00000000000000000000000000000001", none, ""⟩

def branching (path : String) : Request :=
  ⟨"POST", path, some "application/json", "\x7b\"command\":\"git branch dev\"\x7d"⟩

def firstPath : String := "/sessions/00000000000000000000000000000001/commands"

def secondPath : String := "/sessions/00000000-0000-0000-0000-000000000002/commands"

def turnsBefore : List Arrival := [(⟨1⟩, opening), (⟨9⟩, branching secondPath)]

def turnsAfter : List Arrival :=
  [(⟨9⟩, branching firstPath), (⟨9⟩, branching secondPath), (⟨9⟩, closing)]

def seeded : Server where
  settings := {}
  defaultSeed := some { branches := ["main"], commits := [{ branch := "main", message := "First" }] }
  ids _ := .sequential
  sessions := []

end Server

end GitPractice
