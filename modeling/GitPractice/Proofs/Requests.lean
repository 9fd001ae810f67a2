import GitPractice.Server

set_option autoImplicit false

namespace GitPractice

inductive Aim where
  | settled (response : Response)
  | opens (seed : Option Seed)
  | asks (id : SessionId) (action : SessionAction) (line : String)

namespace Aim

instance (aim : Aim) (seed : Option Seed) : Decidable (aim = .opens seed) :=
  match aim with
  | .settled _ => isFalse nofun
  | .opens asked => decidable_of_iff (asked = seed) (by simp)
  | .asks _ _ _ => isFalse nofun

instance (aim : Aim) (id : SessionId) (action : SessionAction) (line : String) :
    Decidable (aim = .asks id action line) :=
  match aim with
  | .settled _ => isFalse nofun
  | .opens _ => isFalse nofun
  | .asks asked wanted typed =>
      decidable_of_iff (asked = id ∧ wanted = action ∧ typed = line) (by simp)

end Aim

def Route.aim (request : Request) : Route → Aim
  | .health => .settled (.ok (.record [("status", .text "ok")]))
  | .sessions =>
      match Server.seedOf request with
      | .error response => .settled response
      | .ok seed => .opens seed
  | .session segment action =>
      match Path.decode segment with
      | none => .settled (.rejection 400)
      | some text => match Server.lineOf request action with
        | .error response => .settled response
        | .ok line => match SessionId.parse? text with
          | none => .settled .invalidId
          | some id => .asks id action line

namespace Request

def aim (request : Request) : Aim :=
  if request.method = "OPTIONS" then .settled (.bare 200)
  else match Route.ofSegments (Path.segments request.target) with
    | none => .settled (.bare 404)
    | some route =>
        if request.method = route.method ∨ request.method = "HEAD" ∧ route.method = "GET" then
          route.aim request
        else .settled (.bare 405)

def finish (request : Request) (response : Response) : Response :=
  if request.method = "HEAD" then response.withoutBody else response

end Request

theorem Route.method_not_head (route : Route) : route.method ≠ "HEAD" := by
  cases route with
  | health => decide
  | sessions => decide
  | session segment action => cases action <;> simp [method]

namespace Request

theorem aim_source {request : Request} {aim : Aim} (aimed : request.aim = aim) :
    (∃ response, aim = .settled response) ∨
      ∃ route : Route, Route.ofSegments (Path.segments request.target) = some route ∧
        route.aim request = aim ∧
          (request.method = route.method ∨ request.method = "HEAD" ∧ route.method = "GET") := by
  rw [Request.aim] at aimed
  split at aimed
  · exact .inl ⟨_, aimed.symm⟩
  · split at aimed
    · exact .inl ⟨_, aimed.symm⟩
    · rename_i route routed
      split at aimed
      · rename_i allowed
        exact .inr ⟨route, routed, aimed, allowed⟩
      · exact .inl ⟨_, aimed.symm⟩

theorem finish_of_method {request : Request} {route : Route} (response : Response)
    (allowed : request.method = route.method ∨ request.method = "HEAD" ∧ route.method = "GET")
    (changing : route.method ≠ "GET") : request.finish response = response := by
  rcases allowed with own | ⟨_, reading⟩
  · rw [finish, if_neg (own ▸ route.method_not_head)]
  · exact absurd reading changing

theorem finish_opening {request : Request} {seed : Option Seed} (response : Response)
    (aimed : request.aim = .opens seed) : request.finish response = response := by
  rcases aim_source aimed with ⟨_, settled⟩ | ⟨route, _, found, allowed⟩
  · cases settled
  · refine finish_of_method response allowed ?_
    cases route with
    | health => cases found
    | sessions => decide
    | session segment action =>
        rw [Route.aim] at found
        repeat' split at found
        all_goals cases found

end Request

namespace Server

def serve (server : Server) (fresh : SessionId) : Aim → Response × Server
  | .settled response => (response, server)
  | .opens seed =>
      match server.openSession fresh seed with
      | (.done _, session) => (.ok (createdJson fresh session), server.insert fresh session)
      | (.refused error, _) => (.failure 422 error.message, server)
      | (.interrupted _, _) => (.rejection 500, server)
  | .asks id action line =>
      match server.find? id with
      | none => (.unknownSession id, server)
      | some session => server.act id session line action

variable (server : Server) (fresh : SessionId)

theorem dispatch_aim (request : Request) (route : Route) :
    server.dispatch fresh request route = server.serve fresh (route.aim request) := by
  cases route with
  | health => rfl
  | sessions =>
      rw [dispatch, create, Route.aim]
      cases seedOf request with
      | error response => rfl
      | ok seed => rfl
  | session segment action =>
      rw [dispatch, Route.aim]
      cases Path.decode segment with
      | none => rfl
      | some text =>
          simp only
          cases lineOf request action with
          | error response => rfl
          | ok line =>
              simp only [actOn]
              cases SessionId.parse? text with
              | none => rfl
              | some id => rfl

theorem handle_aim (request : Request) :
    server.handle fresh request =
      (request.finish (server.serve fresh request.aim).1, (server.serve fresh request.aim).2) := by
  rw [handle, Request.aim]
  by_cases options : request.method = "OPTIONS"
  · simp [options, Request.finish, serve]
  · rw [if_neg options, if_neg options]
    cases Route.ofSegments (Path.segments request.target) with
    | none => simp [Request.finish, serve, Response.withoutBody, Response.bare]
    | some route =>
        simp only
        by_cases own : request.method = route.method
        · have notHead : request.method ≠ "HEAD" := own ▸ route.method_not_head
          rw [if_pos own, if_pos (.inl own), dispatch_aim, Request.finish, if_neg notHead]
        · by_cases head : request.method = "HEAD" ∧ route.method = "GET"
          · rw [if_neg own, if_pos head, if_pos (.inr head), dispatch_aim, Request.finish, if_pos head.1]
          · have neither : ¬ (request.method = route.method ∨ request.method = "HEAD" ∧ route.method = "GET") := by
              rintro (same | asked)
              · exact own same
              · exact head asked
            rw [if_neg own, if_neg head, if_neg neither]
            simp [Request.finish, serve, Response.withoutBody, Response.bare]

theorem serve_opened {id : SessionId} {seed : Option Seed} {session : Session}
    (opened : server.openSession id seed = (.done (), session)) :
    server.serve id (.opens seed) = (.ok (createdJson id session), server.insert id session) := by
  rw [serve, opened]

theorem serve_found {id : SessionId} {session : Session} (action : SessionAction) (line : String)
    (found : server.find? id = some session) :
    server.serve fresh (.asks id action line) = server.act id session line action := by
  rw [serve, found]

theorem serve_missing {id : SessionId} (action : SessionAction) (line : String)
    (missing : server.find? id = none) :
    server.serve fresh (.asks id action line) = (.unknownSession id, server) := by
  rw [serve, missing]

/-- What a server can become by a request, said once. -/
inductive Served (before : Server) (fresh : SessionId) (aim : Aim) (after : Server) : Prop where
  | same (kept : after = before)
  | opened (seed : Option Seed) (session : Session) (asked : aim = .opens seed)
      (built : before.openSession fresh seed = (.done (), session)) (kept : after = before.insert fresh session)
  | closed (id : SessionId) (line : String) (asked : aim = .asks id .close line)
      (kept : after = before.erase id)
  | ran (id : SessionId) (session : Session) (line : String) (asked : aim = .asks id .command line)
      (found : before.find? id = some session)
      (kept : after = before.insert id (session.execute line).2)

theorem serve_served (aim : Aim) : Served server fresh aim (server.serve fresh aim).2 := by
  cases aim with
  | settled response => exact .same rfl
  | opens seed =>
      cases built : server.openSession fresh seed with
      | mk outcome session =>
          cases outcome with
          | done value => exact .opened seed session rfl built (by rw [serve_opened server built])
          | refused error => exact .same (by rw [serve, built])
          | interrupted reason => exact .same (by rw [serve, built])
  | asks id action line =>
      cases found : server.find? id with
      | none => exact .same (by rw [serve_missing server fresh action line found])
      | some session =>
          have acted := congrArg Prod.snd (serve_found server fresh action line found)
          cases action with
          | close => exact .closed id line rfl acted
          | command => exact .ran id session line rfl found acted
          | state | log | config => exact .same acted

theorem serve_open_session (aim : Aim) : (server.serve fresh aim).2.openSession = server.openSession := by
  cases serve_served server fresh aim with
  | same kept => rw [kept]
  | opened seed session asked built kept =>
      rw [kept]
      rfl
  | closed id line asked kept =>
      rw [kept]
      rfl
  | ran id session line asked found kept =>
      rw [kept]
      rfl

end Server

end GitPractice
