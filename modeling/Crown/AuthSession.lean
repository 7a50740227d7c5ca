import Crown.ClientSanitize
import Crown.PostStore

/-! The session of a browser: `composables/useAuth.ts` and the token handling of
`composables/useSocialClient.ts`. Every function is split where it waits for an answer; what
an answer sets going runs to the next wait. -/
namespace Crown.Client

open Lib

/-- The user as `useAuth` keeps it. -/
structure Account where
  id : JsString
  name : JsString
  handle : JsString
  bio : JsString
  followers : Int
  following : Int
  email : JsString
  avatar : JsString
  deriving DecidableEq

/-- `a || b`. -/
def orElse (a b : JsString) : JsString := if a = [] then b else a

def mapGrpcUser (grpcUser : User) : Account where
  id := grpcUser.id
  name := orElse grpcUser.displayName grpcUser.username
  bio := orElse grpcUser.bio (js "Sem bio")
  handle := orElse grpcUser.handle grpcUser.username
  followers := grpcUser.followersCount
  following := grpcUser.followingCount
  email := grpcUser.id
  avatar := decodeUnicodeEscapes (orElse grpcUser.avatar (js "/placeholderpfp.png"))

structure LoginResult where
  idToken : JsString
  refreshToken : JsString
  user : Option User
  deriving DecidableEq

/-- The cookies, empty where there is none, the storage and `user.value`. What is stored of an
account may fail to parse. -/
structure Browser where
  idToken : JsString
  refreshToken : JsString
  authUserId : JsString
  authUserCookie : Option (Option Account)
  authUser : Option (Option Account)
  user : Option Account
  deriving DecidableEq

namespace Browser

def hasAccessToken (b : Browser) : Bool := b.idToken ≠ []

def clearAccessToken (b : Browser) : Browser := { b with idToken := [], refreshToken := [] }

def saveUser (u : Account) (b : Browser) : Browser :=
  { b with authUser := some (some u), authUserCookie := some (some u), authUserId := u.id }

def loadUser (b : Browser) : Option Account := (b.authUser.or b.authUserCookie).join

def clearUser (b : Browser) : Browser :=
  { b with authUser := none, authUserCookie := none, authUserId := [] }

/-- `user.value = null` and `clearUser()`. -/
def forget (b : Browser) : Browser := { b with user := none }.clearUser

/-- A profile that was loaded takes the place of the user when it has a name. -/
def reloaded (fresh : User) (b : Browser) : Browser :=
  if fresh.displayName ≠ [] ∨ fresh.username ≠ [] then
    { b with user := some (mapGrpcUser fresh) }.saveUser (mapGrpcUser fresh)
  else b

/-- `loginWithGoogle` and the rest of `handleOAuthCallback` behind the answer. -/
def loggedIn (result : LoginResult) (b : Browser) : Browser :=
  let b :=
    if result.idToken ≠ [] then
      { b with
        idToken := result.idToken
        refreshToken := if result.refreshToken ≠ [] then result.refreshToken else b.refreshToken }
    else b
  match result.user with
  | some grpcUser => { b with user := some (mapGrpcUser grpcUser) }.saveUser (mapGrpcUser grpcUser)
  | none => b

/-- `refreshAccessToken` behind the answer, which has a token, possibly empty, or is an error. -/
def refreshed (answer : Option JsString) (b : Browser) : Bool × Browser :=
  match answer with
  | some idToken => if idToken ≠ [] then (true, { b with idToken }) else (false, b)
  | none => (false, b.clearAccessToken)

def logout (b : Browser) : Browser := { b with user := none }.clearAccessToken.clearUser

end Browser

/-- What goes on when a protected call ends: nothing here, or `restoreSession` with the profile
it has asked for, once or again after a refresh. -/
inductive Task where
  | protectedCall
  | restoring (userId : JsString) (again : Bool)
  deriving DecidableEq

/-- How a call ends: the answer to a call for a profile, an `RpcError` of code
`UNAUTHENTICATED`, or any other error, such as the one of `getProfile` while the generated
client has no such method. -/
inductive Reply where
  | ok (profile : User)
  | unauthenticated
  | failed
  deriving DecidableEq

/-- What is waited for: the answer to a login, the one to a protected call, sent once or
again, the refresh that protected calls share, or a refresh of `restoreSession` itself. -/
inductive Waits where
  | login
  | answer (task : Task) (retried : Bool)
  | refresh (task : Task)
  | ownRefresh (userId : JsString)
  deriving DecidableEq

/-- `early` records that the wait began before the last `logout`. -/
structure Call where
  waits : Waits
  early : Bool
  deriving DecidableEq

/-- `refreshPromise` tells of the refresh in flight whether it is early, `loggedOut` that
`logout` has run and no `handleOAuthCallback` has been started since. -/
structure Session where
  browser : Browser
  calls : List Call
  refreshPromise : Option Bool
  loggedOut : Bool

namespace Session

inductive Event where
  | logout
  | handleOAuthCallback
  | restoreSession
  | protectedCall
  | answerLogin (place : Nat) (result : Option LoginResult)
  | answerCall (place : Nat) (reply : Reply)
  | answerRefresh (answer : Option JsString)
  | answerOwnRefresh (place : Nat) (answer : Option JsString)

def start (browser : Browser) : Session := ⟨browser, [], none, false⟩

/-- A call has ended: what the task does, and what it waits for next. -/
def finish (task : Task) (reply : Reply) (b : Browser) : Browser × Option Waits :=
  match task, reply with
  | .protectedCall, _ => (b, none)
  | .restoring _ _, .ok fresh => (b.reloaded fresh, none)
  | .restoring _ false, .failed => (b, none)
  | .restoring userId false, .unauthenticated =>
    if b.refreshToken = [] then (b.forget, none) else (b, some (.ownRefresh userId))
  | .restoring _ true, _ => (b.forget, none)

/-- The call in a place goes on to wait for something new, or is over. -/
def proceed (place : Nat) (next : Option Waits) (calls : List Call) : List Call :=
  match next with
  | some waits => calls.set place ⟨waits, false⟩
  | none => calls.eraseIdx place

/-- The call in a place ends. -/
def ended (s : Session) (place : Nat) (task : Task) (reply : Reply) : Session :=
  let (browser, next) := finish task reply s.browser
  { s with browser, calls := proceed place next s.calls }

/-- `handleUnauthenticated` behind the answer to its first call. -/
def handleUnauthenticated (s : Session) (place : Nat) (task : Task) : Session :=
  if s.browser.hasAccessToken = false then s.ended place task .unauthenticated
  else if s.refreshPromise.isSome then
    { s with calls := s.calls.set place ⟨.refresh task, false⟩ }
  else if s.browser.refreshToken = [] then s.ended place task .unauthenticated
  else
    { s with refreshPromise := some false, calls := s.calls.set place ⟨.refresh task, false⟩ }

/-- The shared refresh is over: every call that waits for it is sent again, or ends. -/
def resume (ok : Bool) : List Call → Browser → Browser × List Call
  | [], b => (b, [])
  | ⟨.refresh task, _⟩ :: rest, b =>
    if ok then
      let (b, rest) := resume ok rest b
      (b, ⟨.answer task true, false⟩ :: rest)
    else
      let (b, next) := finish task .unauthenticated b
      let (b, rest) := resume ok rest b
      (b, (next.map (⟨·, false⟩)).toList ++ rest)
  | call :: rest, b =>
    let (b, rest) := resume ok rest b
    (b, call :: rest)

def restoreSession (s : Session) : Session :=
  if s.browser.hasAccessToken = false then s
  else
    let saved := s.browser.loadUser
    let userId := orElse ((saved.map Account.id).getD []) s.browser.authUserId
    let browser := { s.browser with user := saved.or s.browser.user }
    if userId = [] then { s with browser }
    else { s with browser, calls := s.calls ++ [⟨.answer (.restoring userId false) false, false⟩] }

def step (s : Session) : Event → Option Session
  | .logout =>
    some {
      browser := s.browser.logout
      calls := s.calls.map ({ · with early := true })
      refreshPromise := s.refreshPromise.map fun _ => true
      loggedOut := true }
  | .handleOAuthCallback =>
    some { s with calls := s.calls ++ [⟨.login, false⟩], loggedOut := false }
  | .restoreSession => some s.restoreSession
  | .protectedCall => some { s with calls := s.calls ++ [⟨.answer .protectedCall false, false⟩] }
  | .answerLogin place result =>
    match s.calls[place]? with
    | some ⟨.login, _⟩ =>
      some { s with
        browser := match result with
          | some result => s.browser.loggedIn result
          | none => s.browser
        calls := s.calls.eraseIdx place }
    | _ => none
  | .answerCall place reply =>
    match s.calls[place]? with
    | some ⟨.answer task retried, _⟩ =>
      if reply = .unauthenticated ∧ retried = false then some (s.handleUnauthenticated place task)
      else some (s.ended place task reply)
    | _ => none
  | .answerRefresh answer =>
    match s.refreshPromise with
    | some _ =>
      let (ok, browser) := s.browser.refreshed answer
      let (browser, calls) := resume ok s.calls browser
      some { s with browser, calls, refreshPromise := none }
    | none => none
  | .answerOwnRefresh place answer =>
    match s.calls[place]? with
    | some ⟨.ownRefresh userId, _⟩ =>
      let (ok, browser) := s.browser.refreshed answer
      if ok then
        some { s with
          browser
          calls := s.calls.set place ⟨.answer (.restoring userId true) false, false⟩ }
      else some { s with browser := browser.forget, calls := s.calls.eraseIdx place }
    | _ => none

/-! What a step that answers a request has found and done. -/

section

variable {s s' : Session} {place : Nat}

theorem step_answerLogin (stepped : s.step (.answerLogin place result) = some s') :
    ∃ early, s.calls[place]? = some ⟨.login, early⟩ ∧ s' = { s with
      browser := result.elim s.browser fun result => s.browser.loggedIn result
      calls := s.calls.eraseIdx place } := by
  unfold step at stepped
  dsimp only at stepped
  split at stepped
  · rename_i early here
    cases result <;> exact ⟨early, here, (Option.some.inj stepped).symm⟩
  · cases stepped

theorem step_answerCall (stepped : s.step (.answerCall place reply) = some s') :
    ∃ task retried early, s.calls[place]? = some ⟨.answer task retried, early⟩ ∧
      ((reply = .unauthenticated ∧ retried = false) ∧ s' = s.handleUnauthenticated place task ∨
        ¬(reply = .unauthenticated ∧ retried = false) ∧ s' = s.ended place task reply) := by
  unfold step at stepped
  dsimp only at stepped
  split at stepped
  · rename_i task retried early here
    refine ⟨task, retried, early, here, ?_⟩
    split at stepped
    · rename_i refused
      exact .inl ⟨refused, (Option.some.inj stepped).symm⟩
    · rename_i taken
      exact .inr ⟨taken, (Option.some.inj stepped).symm⟩
  · cases stepped

theorem step_answerRefresh (stepped : s.step (.answerRefresh answer) = some s') :
    ∃ early, s.refreshPromise = some early ∧ s' = { s with
      browser := (resume (s.browser.refreshed answer).1 s.calls (s.browser.refreshed answer).2).1
      calls := (resume (s.browser.refreshed answer).1 s.calls (s.browser.refreshed answer).2).2
      refreshPromise := none } := by
  unfold step at stepped
  dsimp only at stepped
  split at stepped
  · rename_i early refreshing
    exact ⟨early, refreshing, (Option.some.inj stepped).symm⟩
  · cases stepped

theorem step_answerOwnRefresh (stepped : s.step (.answerOwnRefresh place answer) = some s') :
    ∃ userId early, s.calls[place]? = some ⟨.ownRefresh userId, early⟩ ∧
      ((s.browser.refreshed answer).1 = true ∧ s' = { s with
          browser := (s.browser.refreshed answer).2
          calls := s.calls.set place ⟨.answer (.restoring userId true) false, false⟩ } ∨
        (s.browser.refreshed answer).1 = false ∧ s' = { s with
          browser := (s.browser.refreshed answer).2.forget
          calls := s.calls.eraseIdx place }) := by
  unfold step at stepped
  dsimp only at stepped
  split at stepped
  · rename_i userId early here
    refine ⟨userId, early, here, ?_⟩
    split at stepped
    · rename_i ok
      exact .inl ⟨ok, (Option.some.inj stepped).symm⟩
    · rename_i failed
      exact .inr ⟨Bool.eq_false_iff.mpr failed, (Option.some.inj stepped).symm⟩
  · cases stepped

end

end Session
end Crown.Client
