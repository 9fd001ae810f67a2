import GitPractice.Proofs.Isolation

set_option autoImplicit false

namespace GitPractice

namespace Request

def Creates (request : Request) : Prop :=
  request.method = "POST" ∧ Route.ofSegments (Path.segments request.target) = some .sessions

instance (request : Request) : Decidable request.Creates := inferInstanceAs (Decidable (_ ∧ _))

variable {request : Request}

theorem own_aim {route : Route} (routed : Route.ofSegments (Path.segments request.target) = some route)
    (own : request.method = route.method) : request.aim = route.aim request := by
  have asked : request.method ≠ "OPTIONS" := by
    rw [own]
    cases route with
    | health | sessions => decide
    | session segment action => cases action <;> simp [Route.method]
  rw [aim, if_neg asked, routed]
  exact if_pos (.inl own)

variable {text : String} {action : SessionAction} {id : SessionId}

end Request

namespace Server

def opened (exchange : Arrival × Response) : Bool :=
  decide exchange.1.2.Creates && exchange.2.status == 200

def closed (exchange : Arrival × Response) : Bool :=
  exchange.1.2.method == "DELETE" && exchange.2.status == 204

section
variable {server after : Server} {arrival : Arrival} {response : Response}

end

section
variable {server : Server} {id : SessionId}

end

section
variable {server : Server}

end

section
variable {server : Server} {id : SessionId}

variable {earlier later : List Arrival} {creation : Request}

end

def turns : List Arrival := turnsBefore ++ (⟨2⟩, opening) :: turnsAfter

end Server

end GitPractice
