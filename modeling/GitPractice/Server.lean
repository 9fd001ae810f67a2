import GitPractice.Json.Reader
import GitPractice.Json.Records
import GitPractice.Server.MediaType
import GitPractice.Server.Path
import GitPractice.Server.SessionId
import GitPractice.Session

set_option autoImplicit false

namespace GitPractice

structure Request where
  method : String
  target : String
  contentType : Option String
  body : ByteArray

/-- A text is sent as its UTF-8 form. -/
instance bodyOfText : Coe String ByteArray := ⟨String.toUTF8⟩

namespace Request

/-- The most bytes that are taken for a body. -/
def limit : Nat := 2097152

/-- The body, for what needs one; a body over the limit is not taken. -/
def text? (request : Request) : Option String :=
  if limit < request.body.size then none else some (Json.textOfBytes request.body)

variable {request : Request}

theorem text_some_iff {body : String} :
    request.text? = some body ↔ request.body.size ≤ limit ∧ Json.textOfBytes request.body = body := by
  rw [text?]
  split
  · rename_i exceeds
    simp only [reduceCtorEq, false_iff, not_and]
    omega
  · rename_i within
    rw [Option.some.injEq, iff_and_self]
    exact fun _ => Nat.le_of_not_lt within

end Request

/-- What a response carries. The wording of a rejection of a request that cannot be read is left open. -/
inductive Payload where
  | json (value : Json)
  | text (message : String)
  | rejection

structure Response where
  status : Nat
  payload : Payload

namespace Response

def ok (value : Json) : Response := ⟨200, .json value⟩
def failure (status : Nat) (message : String) : Response := ⟨status, .text message⟩
def rejection (status : Nat) : Response := ⟨status, .rejection⟩
def bare (status : Nat) : Response := ⟨status, .text ""⟩

def withoutBody (response : Response) : Response := { response with payload := .text "" }

def invalidId : Response := failure 400 "Invalid UUID"

def unknownSession (id : SessionId) : Response := failure 404 ("Session not found: " ++ id.render)

end Response

structure Server where
  settings : Settings
  defaultSeed : Option Seed
  ids : SessionId → IdSource
  sessions : List (SessionId × Session)

inductive SessionAction where
  | close
  | state
  | log
  | config
  | command
deriving DecidableEq, Repr

inductive Route where
  | health
  | sessions
  | session (segment : String) (action : SessionAction)
deriving DecidableEq, Repr

namespace Route

def ofPart? : String → Option SessionAction
  | "state" => some .state
  | "log" => some .log
  | "config" => some .config
  | "commands" => some .command
  | _ => none

def ofSegments : List String → Option Route
  | ["", "health"] => some .health
  | ["", "sessions"] => some .sessions
  | ["", "sessions", segment] => if segment = "" then none else some (.session segment .close)
  | ["", "sessions", segment, part] =>
      if segment = "" then none else (ofPart? part).map (.session segment)
  | _ => none

def method : Route → String
  | .health => "GET"
  | .sessions => "POST"
  | .session _ .close => "DELETE"
  | .session _ .command => "POST"
  | .session _ .state | .session _ .log | .session _ .config => "GET"

end Route

namespace Server

def openSession (server : Server) (id : SessionId) (seed : Option Seed) : Outcome Unit × Session :=
  let session := Session.start server.settings (server.ids id)
  match seed.or server.defaultSeed with
  | some seed => session.load seed
  | none => (.done (), session)

/-- A server without sessions. The default seed is tried out first. -/
def start (settings : Settings) (defaultSeed : Option Seed) (ids : SessionId → IdSource) :
    Outcome Server :=
  let server : Server := ⟨settings, defaultSeed, ids, []⟩
  (server.openSession ⟨0⟩ none).1.map fun _ => server

def find? (server : Server) (id : SessionId) : Option Session := server.sessions.lookup id

def insert (server : Server) (id : SessionId) (session : Session) : Server :=
  { server with sessions := (id, session) :: server.sessions.filter (·.1 != id) }

def erase (server : Server) (id : SessionId) : Server :=
  { server with sessions := server.sessions.filter (·.1 != id) }

def isBodyBlank (c : Char) : Bool := c == ' ' || c == '\t' || c == '\n' || c == '\x0c' || c == '\r'

def seedField : Json.Field := .of "seed" (Json.Decoder.nullable Seed.ofJson)

def seedOfJson : Json.Decoder (Option Seed)
  | .array [] => .error .misfit
  | json => do
      let found ← Json.members [seedField] json
      Json.optionalField found "seed" Seed.ofJson

def seedOfBody (body : String) : Except Json.Fault (Option Seed) :=
  if body.toList.all isBodyBlank then .ok none else seedOfJson (Json.read body)

def createdJson (id : SessionId) (session : Session) : Json :=
  .record [("id", .text id.render), ("state", session.repository.toJson)]

def seedOf (request : Request) : Except Response (Option Seed) :=
  match request.text? with
  | none => .error (.rejection 413)
  | some body => match seedOfBody body with
    | .ok seed => .ok seed
    | .error _ => .error (.rejection 400)

def create (server : Server) (fresh : SessionId) (request : Request) : Response × Server :=
  match seedOf request with
  | .error response => (response, server)
  | .ok seed =>
      match server.openSession fresh seed with
      | (.done _, session) => (.ok (createdJson fresh session), server.insert fresh session)
      | (.refused error, _) => (.failure 422 error.message, server)
      | (.interrupted _, _) => (.rejection 500, server)

/-- The line of a request to run a command. What stands after the first JSON value does not matter. -/
def commandOfBody (body : String) : Except Json.Fault String := do
  let found ← Json.members [.of "command" Json.Decoder.text] (Json.readStart body).1
  Json.required found "command" Json.Decoder.text

def faultStatus : Json.Fault → Nat
  | .malformed => 400
  | .misfit => 422

def act (server : Server) (id : SessionId) (session : Session) (line : String) :
    SessionAction → Response × Server
  | .close => (.bare 204, server.erase id)
  | .state => (.ok session.repository.toJson, server)
  | .log => (.ok session.transcript.toJson, server)
  | .config => (.ok session.config.toJson, server)
  | .command =>
      let ran := session.execute line
      (.ok (.array (ran.1.map Entry.toJson)), server.insert id ran.2)

def actOn (server : Server) (text line : String) (action : SessionAction) : Response × Server :=
  match SessionId.parse? text with
  | none => (.invalidId, server)
  | some id => match server.find? id with
    | none => (.unknownSession id, server)
    | some session => server.act id session line action

/-- The line to run, for a request that has one. Its body is looked at before its session is. -/
def lineOf (request : Request) : SessionAction → Except Response String
  | .command =>
      if request.contentType.any MediaType.isJson then
        match request.text? with
        | none => .error (.rejection 413)
        | some body => match commandOfBody body with
          | .ok line => .ok line
          | .error fault => .error (.rejection (faultStatus fault))
      else .error (.rejection 415)
  | _ => .ok ""

def dispatch (server : Server) (fresh : SessionId) (request : Request) : Route → Response × Server
  | .health => (.ok (.record [("status", .text "ok")]), server)
  | .sessions => server.create fresh request
  | .session segment action =>
      match Path.decode segment with
      | none => (.rejection 400, server)
      | some text => match lineOf request action with
        | .error response => (response, server)
        | .ok line => server.actOn text line action

/-- Answers a request. The fresh id is used if a session is opened. Every route that can be got can also be
asked for its head alone, and every path for its options. -/
def handle (server : Server) (fresh : SessionId) (request : Request) : Response × Server :=
  if request.method = "OPTIONS" then (.bare 200, server)
  else match Route.ofSegments (Path.segments request.target) with
    | none => (.bare 404, server)
    | some route =>
        if request.method = route.method then server.dispatch fresh request route
        else if request.method = "HEAD" ∧ route.method = "GET" then
          let answered := server.dispatch fresh request route
          (answered.1.withoutBody, answered.2)
        else (.bare 405, server)

def answerAll (server : Server) : List (SessionId × Request) → List Response × Server
  | [] => ([], server)
  | (fresh, request) :: rest =>
      let answered := server.handle fresh request
      let later := answered.2.answerAll rest
      (answered.1 :: later.1, later.2)

end Server

end GitPractice
