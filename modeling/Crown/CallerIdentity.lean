import Crown.AuthMiddle
import Crown.JwtAcceptance
import Crown.Lib.Transition

/-! Whom a handler takes its caller for, over whole runs of calls. The address of a
finished call may be used again; its entry in `users_` is never removed. -/
namespace Crown

open Lib

/-- A call in flight: what it arrived with, and the validator it met. -/
structure RpcCall where
  method : Text
  metadata : Metadata
  around : Surroundings
  validator : JwtValidator

namespace CallerIdentity

structure Process where
  auth : AuthMiddleware
  live : Address → Option RpcCall

def start (validator : JwtValidator) : Process := ⟨⟨fun _ => none, validator⟩, fun _ => none⟩

inductive Event where
  | arrive (context : Address) (method : Text) (metadata : Metadata) (around : Surroundings)
  /-- The validation `Login` makes of the token it was given in exchange. -/
  | validate (idToken : Text) (around : Surroundings)
  | finish (context : Address)

/-- A context is given to one call at a time. An exception in the interceptor ends
the process. -/
def step (lib : Libraries) (p : Process) : Event → Option Process
  | .arrive context method metadata around =>
    if (p.live context).isSome then none
    else
      match p.auth.interceptToken lib around context method metadata with
      | (.error _, _) => none
      | (.ok _, auth) => some ⟨auth, Function.update p.live context
          (some ⟨method, metadata, around, p.auth.validator⟩)⟩
  | .validate idToken around => some { p with auth := (p.auth.validateIdToken lib around idToken).2 }
  | .finish context =>
    if (p.live context).isSome then
      some { p with live := Function.update p.live context none }
    else none

/-- `user` was returned by `validateToken` on the token of this very call. -/
def Identified (lib : Libraries) (call : RpcCall) (user : AuthenticatedUser) : Prop :=
  isPublicMethod call.method = false ∧ requestToken call.metadata ≠ [] ∧
    (call.validator.validateToken lib call.around (requestToken call.metadata)).1 = .ok (some user)

/-- Every handler that gets a user gets the user of its own call. -/
def Isolated (lib : Libraries) (p : Process) : Prop :=
  ∀ context call user, p.live context = some call → p.auth.getUser context = some user →
    Identified lib call user

/-- The call brings its own user, or comes to an address that never had one. -/
def OwnEntry (lib : Libraries) (p : Process) : Event → Prop
  | .arrive context method metadata around => p.auth.getUser context = none ∨
      ∃ user, Identified lib ⟨method, metadata, around, p.auth.validator⟩ user
  | _ => True

/-- What the interceptor does to the users: it enters the identified caller, or nobody. -/
theorem interceptToken_cases {auth auth' : AuthMiddleware}
    (ran : auth.interceptToken lib around context method metadata = (.ok valid, auth')) :
    (∃ user, Identified lib ⟨method, metadata, around, auth.validator⟩ user ∧
      auth'.users = (auth.setUser context user).users) ∨
    (∀ user, ¬Identified lib ⟨method, metadata, around, auth.validator⟩ user) ∧
      auth'.users = auth.users := by
  unfold AuthMiddleware.interceptToken at ran
  split at ran
  · rename_i isPublic
    cases ran
    exact Or.inr ⟨fun user identified => by simp [Identified, isPublic] at identified, rfl⟩
  · rename_i isProtected
    split at ran
    · rename_i missing
      cases ran
      exact Or.inr ⟨fun user identified => identified.2.1 missing, rfl⟩
    · rename_i carried
      simp only [AuthMiddleware.validateIdToken] at ran
      cases validated : auth.validator.validateToken lib around (requestToken metadata) with
      | mk result validator =>
        rw [validated] at ran
        rcases result with e | _ | user
        · simp at ran
        · cases ran
          exact Or.inr ⟨fun user identified => by simp [Identified, validated] at identified, rfl⟩
        · cases ran
          exact Or.inl ⟨user, ⟨by simpa using isProtected, carried, by rw [validated]⟩, rfl⟩

/-- One step keeps the handlers apart, if an arriving call brings its own user or
comes to an address without one. -/
theorem step_isolated (isolated : Isolated lib p) (own : OwnEntry lib p event)
    (stepped : step lib p event = some p') : Isolated lib p' := by
  cases event with
  | arrive context method metadata around =>
    simp only [step] at stepped
    split at stepped
    · contradiction
    · split at stepped
      · contradiction
      · rename_i valid auth ran
        cases stepped
        intro other call user live found
        by_cases same : other = context
        · subst same
          simp only [Function.update_self, Option.some.injEq] at live
          subst live
          rcases interceptToken_cases ran with ⟨mine, identified, entered⟩ | ⟨nobody, kept⟩
          · have : mine = user := by
              simpa [AuthMiddleware.getUser, AuthMiddleware.setUser, entered] using found
            exact this ▸ identified
          · rcases own with fresh | ⟨mine, identified⟩
            · simp only [AuthMiddleware.getUser, kept] at found fresh
              rw [fresh] at found
              contradiction
            · exact absurd identified (nobody mine)
        · simp only [Function.update_of_ne same] at live
          refine isolated other call user live ?_
          rcases interceptToken_cases ran with ⟨mine, _, entered⟩ | ⟨_, kept⟩
          · rw [← AuthMiddleware.getUser_setUser_ne same mine]
            simpa only [AuthMiddleware.getUser, entered] using found
          · simpa only [AuthMiddleware.getUser, kept] using found
  | validate idToken around =>
    cases stepped
    exact isolated
  | finish context =>
    simp only [step] at stepped
    split at stepped
    · cases stepped
      intro other call user live found
      by_cases same : other = context
      · subst same
        simp at live
      · simp only [Function.update_of_ne same] at live
        exact isolated other call user live found
    · contradiction

/-- In every run in which no call without a valid token of its own comes to an address
with an entry, no handler ever sees a user of another call. -/
theorem run_isolated (run : Run (Guarded (OwnEntry lib) fun p e p' => step lib p e = some p')
    (start validator) events p) : Isolated lib p :=
  run.invariant (fun _ _ _ live => by simp [start] at live)
    fun _ _ _ isolated stepped => step_isolated isolated stepped.1 stepped.2

open JwtValidator (publishedKey tokenLibraries tokenSurroundings tokenUser signedToken ownPart)

def keyed : Process := start ⟨[publishedKey], 0⟩

def deletePost : Text := lit "/social.PostService/DeletePost"

/-- A call with a valid token. -/
def signedIn : Event :=
  .arrive 0 deletePost [(lit "authorization", lit "Bearer " ++ signedToken ownPart)]
    tokenSurroundings

/-- The call gets its user, whatever address it arrives at. -/
theorem interceptToken_own (auth : AuthMiddleware) (validator : auth.validator = ⟨[publishedKey], 0⟩)
    (context : Address) {method : Text} (closed : isPublicMethod method = false) :
    auth.interceptToken tokenLibraries tokenSurroundings context method
      [(lit "authorization", lit "Bearer " ++ signedToken ownPart)] =
        (.ok true, auth.setUser context tokenUser) := by
  have nonempty : signedToken ownPart ≠ [] :=
    List.append_ne_nil_of_right_ne_nil _ (List.cons_ne_nil _ _)
  have validated : auth.validateIdToken tokenLibraries tokenSurroundings (signedToken ownPart) =
      (.ok (some tokenUser), auth) := by
    rw [AuthMiddleware.validateIdToken, validator, JwtValidator.validateToken_own, ← validator]
  rw [AuthMiddleware.interceptToken, closed, requestToken_bearer nonempty, if_neg nonempty, validated]
  rfl

theorem signedIn_step : step tokenLibraries keyed signedIn =
    some ⟨keyed.auth.setUser 0 tokenUser, Function.update keyed.live 0 (some ⟨deletePost,
      [(lit "authorization", lit "Bearer " ++ signedToken ownPart)], tokenSurroundings,
      ⟨[publishedKey], 0⟩⟩)⟩ := by
  have closed : isPublicMethod deletePost = false := by with_unfolding_all decide
  rw [signedIn, step, interceptToken_own keyed.auth rfl 0 closed]
  rfl

theorem signedIn_isolated : ∃ p, step tokenLibraries keyed signedIn = some p ∧
    p.auth.getUser 0 = some tokenUser ∧ Isolated tokenLibraries p := by
  have own : OwnEntry tokenLibraries keyed signedIn := Or.inl rfl
  exact ⟨_, signedIn_step, AuthMiddleware.getUser_setUser .., run_isolated (.snoc .nil ⟨own, signedIn_step⟩)⟩

/-- At the address of the finished call comes one without any token. -/
def reused : List Event := [signedIn, .finish 0, .arrive 0 deletePost [] tokenSurroundings]

theorem reused_exposed : ∃ p, execute (step tokenLibraries) reused keyed = some p ∧
    ¬Isolated tokenLibraries p := by
  have seen : (execute (step tokenLibraries) reused keyed).map
      (fun p => ((p.live 0).map (·.metadata), p.auth.getUser 0)) = some (some [], some tokenUser) := by
    rw [reused, execute, signedIn_step]
    with_unfolding_all decide
  obtain ⟨p, executed, seen⟩ := Option.map_eq_some_iff.mp seen
  refine ⟨p, executed, fun isolated => ?_⟩
  simp only [Prod.mk.injEq, Option.map_eq_some_iff] at seen
  obtain ⟨⟨call, live, bare⟩, found⟩ := seen
  have identified := isolated 0 call tokenUser live found
  rw [Identified, bare] at identified
  exact identified.2.1 (by decide)

/-- The condition is needed at every arrival. -/
theorem arrive_exposed (arrived : step lib p (.arrive context method metadata around) = some p')
    (stale : ¬OwnEntry lib p (.arrive context method metadata around)) : ¬Isolated lib p' := by
  simp only [OwnEntry, not_or, not_exists] at stale
  obtain ⟨entry, nobody⟩ := stale
  obtain ⟨user, found⟩ := Option.ne_none_iff_exists'.mp entry
  simp only [step] at arrived
  split at arrived
  · contradiction
  · split at arrived
    · contradiction
    · rename_i valid auth ran
      cases arrived
      intro isolated
      rcases interceptToken_cases ran with ⟨mine, identified, _⟩ | ⟨_, kept⟩
      · exact nobody mine identified
      · refine nobody user (isolated context _ user (by simp) ?_)
        simpa only [AuthMiddleware.getUser, kept] using found

end CallerIdentity
end Crown
