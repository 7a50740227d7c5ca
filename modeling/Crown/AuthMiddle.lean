import Crown.JwtValidator

/-! The authentication interceptor and the map from calls to users,
`middlewares/authMiddle.cpp`. -/
namespace Crown

open Lib

inductive StatusCode where
  | ok
  | invalidArgument
  | notFound
  | permissionDenied
  | resourceExhausted
  | internal
  | unavailable
  | unauthenticated
  deriving DecidableEq

structure Status where
  code : StatusCode
  message : Text
  deriving DecidableEq

def Status.ok : Status := ⟨.ok, []⟩

/-- The entries of a call's initial metadata, in the order of `find`. -/
abbrev Metadata := List (Text × Text)

/-- The address of a `ServerContext`. -/
abbrev Address := Nat

def isPublicMethod (method : Text) : Bool :=
  [lit "Login", lit "RefreshAccessToken", lit "GetPost", lit "GetProfile", lit "SearchUsers",
    lit "GetFollowers", lit "GetFollowing", lit "ListLikes", lit "ListComments",
    lit "ListNotifications"].any (method.contains ·)

def extractCookie (cookieHeader name : Text) : Text :=
  match Text.afterFirst (name ++ lit "=") cookieHeader with
  | none => []
  | some rest => Text.before ';' rest

/-- The authorization entry, a `Bearer ` in front removed. -/
def authorizationToken (metadata : Metadata) : Text :=
  match metadata.lookup (lit "authorization") with
  | some raw => if 7 < raw.length ∧ raw.take 7 = lit "Bearer " then raw.drop 7 else raw
  | none => []

def cookieToken (metadata : Metadata) : Text :=
  match metadata.lookup (lit "cookie") with
  | some cookie => extractCookie cookie (lit "id_token")
  | none => []

/-- The token a call carries: the cookie counts where the authorization entry is empty. -/
def requestToken (metadata : Metadata) : Text :=
  if authorizationToken metadata = [] then cookieToken metadata else authorizationToken metadata

/-- `AuthMiddleware::users_` together with the validator. -/
structure AuthMiddleware where
  users : Address → Option AuthenticatedUser
  validator : JwtValidator

namespace AuthMiddleware

def getUser (context : Address) (auth : AuthMiddleware) : Option AuthenticatedUser :=
  auth.users context

def setUser (context : Address) (user : AuthenticatedUser) (auth : AuthMiddleware) :
    AuthMiddleware :=
  { auth with users := Function.update auth.users context (some user) }

@[simp] theorem getUser_setUser (context : Address) (user : AuthenticatedUser)
    (auth : AuthMiddleware) : (auth.setUser context user).getUser context = some user := by
  simp [getUser, setUser]

theorem getUser_setUser_ne (apart : other ≠ context) (user : AuthenticatedUser)
    (auth : AuthMiddleware) :
    (auth.setUser context user).getUser other = auth.getUser other := by
  simp [getUser, setUser, apart]

/-- `ValidateIdToken`: a user, or nothing for the status `Invalid or expired token`. -/
def validateIdToken (lib : Libraries) (around : Surroundings) (idToken : Text)
    (auth : AuthMiddleware) : Except Exception (Option AuthenticatedUser) × AuthMiddleware :=
  let (result, validator) := auth.validator.validateToken lib around idToken
  (result, { auth with validator })

/-- `AuthInterceptor::validateToken`, with the flag `token_valid_` it leaves. -/
def interceptToken (lib : Libraries) (around : Surroundings) (context : Address)
    (method : Text) (metadata : Metadata) (auth : AuthMiddleware) :
    Except Exception Bool × AuthMiddleware :=
  if isPublicMethod method then (.ok true, auth)
  else if requestToken metadata = [] then (.ok false, auth)
  else
    match auth.validateIdToken lib around (requestToken metadata) with
    | (.error e, auth) => (.error e, auth)
    | (.ok none, auth) => (.ok false, auth)
    | (.ok (some user), auth) => (.ok true, auth.setUser context user)

end AuthMiddleware

theorem mem_of_lookup {metadata : Metadata} (found : metadata.lookup name = some value) :
    (name, value) ∈ metadata := by
  obtain ⟨before, after, rfl, _⟩ := List.lookup_eq_some_iff.mp found
  simp

theorem extractCookie_infix (cookieHeader name : Text) :
    extractCookie cookieHeader name <:+: cookieHeader := by
  unfold extractCookie
  split
  · exact List.nil_infix
  · rename_i rest found
    exact (List.takeWhile_prefix _).isInfix.trans (Text.suffix_of_afterFirst found).isInfix

theorem authorizationToken_carried (carried : authorizationToken metadata ≠ []) :
    ∃ entry ∈ metadata, authorizationToken metadata <:+: entry.2 := by
  unfold authorizationToken at *
  split at carried
  · rename_i raw found
    refine ⟨_, mem_of_lookup found, ?_⟩
    split
    · exact (List.drop_suffix _ _).isInfix
    · exact List.infix_rfl
  · exact absurd rfl carried

theorem cookieToken_carried (carried : cookieToken metadata ≠ []) :
    ∃ entry ∈ metadata, cookieToken metadata <:+: entry.2 := by
  unfold cookieToken at *
  split at carried
  · rename_i cookie found
    exact ⟨_, mem_of_lookup found, extractCookie_infix cookie _⟩
  · exact absurd rfl carried

/-- The token is part of a value of the call's own metadata. -/
theorem requestToken_carried (carried : requestToken metadata ≠ []) :
    ∃ entry ∈ metadata, requestToken metadata <:+: entry.2 := by
  by_cases empty : authorizationToken metadata = []
  · simp only [requestToken, empty, if_true] at carried ⊢
    exact cookieToken_carried carried
  · simp only [requestToken, empty, if_false] at carried ⊢
    exact authorizationToken_carried carried

/-- A token in the authorization entry is the call's token. -/
theorem requestToken_bearer (nonempty : token ≠ []) :
    requestToken [(lit "authorization", lit "Bearer " ++ token)] = token := by
  have bearer : (lit "Bearer ").length = 7 := by with_unfolding_all decide
  have cut : authorizationToken [(lit "authorization", lit "Bearer " ++ token)] = token := by
    have longer := List.length_pos_of_ne_nil nonempty
    simp only [authorizationToken, List.lookup, BEq.rfl, List.length_append, bearer]
    rw [if_pos ⟨by omega, by rw [← bearer, List.take_left]⟩, ← bearer, List.drop_left]
  rw [requestToken, cut, if_neg nonempty]

end Crown
