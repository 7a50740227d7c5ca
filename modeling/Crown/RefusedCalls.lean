import Crown.CallerIdentity
import Crown.Pipeline

/-! What a refused call still does. The refusal only replaces the status that is sent:
the handler has run by then. -/
namespace Crown

open Lib Program

variable {σ : Type}

/-- The program makes no request that may change the database or the cache. -/
def Quiet (backend : Backend σ) (env : Environment) (p : Handler α) (w : World σ) : Prop :=
  ∀ op ∈ p.performed (backend.answer env) w, op.isWrite = false

section

variable {backend : Backend σ} {env : Environment} {w : World σ}

@[simp] theorem quiet_done (result : Except Exception α) :
    Quiet backend env (done result) w := by
  simp [Quiet]

/-- `UpsertUser` ignores every reply it does not understand. -/
theorem upsertUser_returns {τ : Type} {answer : Interpretation Op Op.Reply τ}
    (u : AuthenticatedUser) (s : τ) : ((upsertUser u).run answer s).1 = .ok () := by
  unfold upsertUser
  split
  · rfl
  · simp only [call_bind, run_perform]
    split
    · split <;> rfl
    · simp only [run_perform]
      split <;> rfl

theorem isPublicMethod_method (request : Request) : isPublicMethod request.method =
    match request with
    | .getPost _ | .login .. | .refreshAccessToken _ => true
    | _ => false := by
  cases request <;> dsimp only [Request.method] <;> with_unfolding_all decide

/-- The public methods the server implements have no route. -/
theorem findRoute_of_public {limiter : RateLimiter} (configured : limiter.routes = configuredRoutes)
    (request : Request) (isPublic : isPublicMethod request.method = true) :
    limiter.findRoute request.method = none := by
  rw [isPublicMethod_method] at isPublic
  rw [RateLimiter.findRoute, configured]
  cases request with
  | getPost postId => dsimp only [Request.method]; with_unfolding_all decide
  | login authorizationCode redirectUri => dsimp only [Request.method]; with_unfolding_all decide
  | refreshAccessToken refreshToken => dsimp only [Request.method]; with_unfolding_all decide
  | _ => simp at isPublic

end

open JwtValidator (publishedKey tokenLibraries tokenSurroundings signedToken ownPart)

/-- A database of nothing but likes. -/
def likesDatabase : Database (List (Text × Text)) where
  select _ _ := some (.array [])
  count _ _ := 0
  call _ _ _ := some (.array [])
  toggleLike params likes :=
    match params.find (lit "p_user_id"), params.find (lit "p_post_id") with
    | some (.string user), some (.string post) =>
      if (user, post) ∈ likes then
        (some (.object [(lit "is_liked", .boolean false)]), likes.erase (user, post))
      else (some (.object [(lit "is_liked", .boolean true)]), (user, post) :: likes)
    | _, _ => (none, likes)
  insert _ _ likes := (201, likes)
  insertReturn _ _ likes := (none, likes)
  update _ _ likes := (204, likes)
  delete _ likes := (204, likes)

def likesBackend : Backend (List (Text × Text)) where
  app := ⟨lit "cdn", none, none, ⟨fun _ => none, fun _ => [], false⟩, tokenLibraries⟩
  glob pattern key := pattern.dropLast.isPrefixOf key
  database := likesDatabase
  randomHex _ _ := lit "00000000"
  secId _ := lit "000000000000000000000000000"

end Crown
