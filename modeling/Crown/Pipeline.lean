import Crown.Ratelimit
import Crown.Server

/-! One call through the server: the interceptors when it arrives, the handler, and the
interceptors again when the status is sent. The last status they substitute is sent. -/
namespace Crown

open Lib

structure Server (σ : Type) where
  world : World σ
  limiter : RateLimiter

/-- A call and what it meets. -/
structure Arrival where
  metadata : Metadata
  request : Request
  env : Environment
  decidedAt : Int
  recordedAt : Int

def invalidToken : Status := ⟨.unauthenticated, lit "Invalid or missing token"⟩

def rateLimited : Status := ⟨.resourceExhausted, lit "Rate limit exceeded. Try again later."⟩

/-- At `PRE_SEND_STATUS` the interceptors run in the order of their creation. -/
def substituted (tokenValid allowed : Bool) : Option Status :=
  let afterAuth := if tokenValid then none else some invalidToken
  if allowed then afterAuth else some rateLimited

structure Outcome where
  substituted : Option Status
  answered : Except Exception (Except Status Response)
  performed : List Op

namespace Backend

variable {σ : Type}

/-- On arrival the interceptors run in the reverse order, and neither stops the call.
An exception in one of them ends the process. -/
def serve (backend : Backend σ) (arrival : Arrival) (server : Server σ) :
    Option (Outcome × Server σ) :=
  let method := arrival.request.method
  let limited := server.limiter.allowRequest arrival.decidedAt arrival.recordedAt method
    (getClientIp arrival.metadata)
  match server.world.auth.interceptToken backend.app.lib arrival.env.around arrival.env.context
      method arrival.metadata with
  | (.error _, _) => none
  | (.ok tokenValid, auth) =>
    let world := { server.world with auth }
    let handler := CrownServer.handle backend.app arrival.request
    let ran := handler.run (backend.answer arrival.env) world
    some (⟨substituted tokenValid limited.1, ran.1, handler.performed (backend.answer arrival.env) world⟩,
      ⟨ran.2, limited.2⟩)

end Backend

/-- The user a call's own token stands for. -/
def ownUser (lib : Libraries) (arrival : Arrival) (auth : AuthMiddleware) :
    Option AuthenticatedUser :=
  if isPublicMethod arrival.request.method ∨ requestToken arrival.metadata = [] then none
  else
    match (auth.validator.validateToken lib arrival.env.around (requestToken arrival.metadata)).1 with
    | .ok (some user) => some user
    | _ => none

/-- Whom the handler takes its caller for: the token's user, or else the entry already
in `users_`. -/
def caller (lib : Libraries) (arrival : Arrival) (auth : AuthMiddleware) :
    Option AuthenticatedUser :=
  (ownUser lib arrival auth).or (auth.getUser arrival.env.context)

end Crown
