import Crown.AuthMiddle

/-! The sliding-window limiter of `middlewares/ratelimit.cpp`. -/
namespace Crown

open Lib

structure RouteConfig where
  method : Text
  maxRequests : Int
  window : Int
  deriving DecidableEq

/-- `usage` holds, for each client and method, the recorded times, oldest first. -/
structure RateLimiter where
  routes : List RouteConfig
  usage : Text → Text → List Int

namespace RateLimiter

def findRoute (method : Text) (limiter : RateLimiter) : Option RouteConfig :=
  limiter.routes.find? fun route => method.contains route.method

def record (method clientIp : Text) (timestamps : List Int) (limiter : RateLimiter) : RateLimiter :=
  let routeUsage := Function.update (limiter.usage clientIp) method timestamps
  { limiter with usage := Function.update limiter.usage clientIp routeUsage }

/-- The clock is read twice: for the decision and for the time recorded. -/
def allowRequest (decidedAt recordedAt : Int) (method clientIp : Text) (limiter : RateLimiter) :
    Bool × RateLimiter :=
  match limiter.findRoute method with
  | none => (true, limiter)
  | some route =>
    let timestamps := (limiter.usage clientIp method).dropWhile (· ≤ decidedAt - route.window)
    if route.maxRequests ≤ timestamps.length then
      (false, limiter.record method clientIp timestamps)
    else (true, limiter.record method clientIp (timestamps ++ [recordedAt]))

end RateLimiter

def getClientIp (metadata : Metadata) : Text :=
  match metadata.lookup (lit "x-forwarded-for") with
  | some ip => Text.before ',' ip
  | none => (metadata.lookup (lit ":authority")).getD (lit "unknown")

/-- The routes `CrownServer::init` configures. -/
def configuredRoutes : List RouteConfig :=
  [⟨lit "/social.PostService/CreatePost", 5, 60⟩,
    ⟨lit "/social.InteractionService/ToggleLike", 10, 60⟩,
    ⟨lit "/social.InteractionService/AddComment", 5, 60⟩,
    ⟨lit "/social.SocialService/ToggleFollow", 5, 60⟩]

end Crown
