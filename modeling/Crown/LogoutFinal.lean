import Crown.AuthSession
import Crown.Lib.InFlight
import Crown.Lib.Transition

/-! What a logout leaves: answers to requests that were sent before it sign the user in again. -/
namespace Crown.Client

open Lib

namespace Browser

/-- No token, no user and no account in storage. -/
structure SignedOut (b : Browser) : Prop where
  idToken : b.idToken = []
  user : b.user = none
  authUser : b.authUser = none
  authUserCookie : b.authUserCookie = none

/-- What is left by a logout. -/
def empty : Browser := ⟨[], [], [], none, none, none⟩

theorem logout_eq (b : Browser) : b.logout = empty := rfl

theorem empty_signedOut : SignedOut empty := ⟨rfl, rfl, rfl, rfl⟩

end Browser

/-- Whether the end of the wait may write a token or a user. -/
def Waits.restores : Waits → Bool
  | .login | .ownRefresh _ => true
  | .answer task _ | .refresh task => task ≠ .protectedCall

namespace Session

/-- While logged out the browser is signed out. -/
def Final (s : Session) : Prop := s.loggedOut = true → s.browser.SignedOut

def earlyAt (s : Session) (place : Nat) : Bool := s.calls[place]?.any (·.early)

/-- The event brings the answer to a request sent before the logout: a token, a user, or the
profile that `restoreSession` has asked for. -/
def revives (s : Session) (event : Event) : Bool :=
  s.loggedOut && match event with
  | .answerLogin place (some result) =>
    s.earlyAt place && (result.idToken ≠ [] || result.user.isSome)
  | .answerCall place (.ok fresh) =>
    match s.calls[place]? with
    | some ⟨.answer (.restoring _ _) _, true⟩ => fresh.displayName ≠ [] || fresh.username ≠ []
    | _ => false
  | .answerRefresh (some idToken) => s.refreshPromise = some true && idToken ≠ []
  | .answerOwnRefresh place (some idToken) => s.earlyAt place && idToken ≠ []
  | _ => false

/-- While logged out nothing is stored, and what may still restore the session was sent
before the logout. -/
structure Invariant (s : Session) : Prop where
  browser : s.loggedOut = true → s.browser = .empty
  early : s.loggedOut = true → ∀ call ∈ s.calls, call.waits.restores = true → call.early = true
  refresh : s.loggedOut = true → ∀ early, s.refreshPromise = some early → early = true

theorem Invariant.final {s : Session} (holds : Invariant s) : s.Final := by
  intro out
  rw [holds.browser out]
  exact Browser.empty_signedOut

theorem start_invariant (browser : Browser) : Invariant (start browser) :=
  ⟨fun out => (nomatch out), fun out => (nomatch out), fun out => (nomatch out)⟩

theorem refreshed_empty {answer : Option JsString} (tokenless : ∀ token, answer = some token → token = []) :
    Browser.empty.refreshed answer = (false, .empty) := by
  unfold Browser.refreshed
  cases answer with
  | none => rfl
  | some token => rw [tokenless token rfl]; rfl

/-- Without anything stored a call ends for good, and only a profile leaves a trace. -/
theorem finish_empty {task : Task} {reply : Reply} (unnamed : ∀ fresh, reply = .ok fresh →
      task = .protectedCall ∨ fresh.displayName = [] ∧ fresh.username = []) :
    finish task reply .empty = (.empty, none) := by
  unfold finish
  split
  · rfl
  · rename_i fresh
    rcases unnamed fresh rfl with other | ⟨display, name⟩
    · cases other
    · rw [Browser.reloaded, if_neg (by simp [display, name])]
  · rfl
  · rfl
  · rfl

theorem resume_other (ok : Bool) {call : Call} (other : ∀ task, call.waits ≠ .refresh task)
    (calls : List Call) (b : Browser) : resume ok (call :: calls) b =
      ((resume ok calls b).1, call :: (resume ok calls b).2) := by
  obtain ⟨waits, early⟩ := call
  cases waits with
  | refresh task => exact absurd rfl (other task)
  | _ => rfl

/-- A refresh that failed ends the calls that wait for it. -/
theorem resume_empty (calls : List Call) : (resume false calls .empty).1 = .empty ∧
    ∀ call ∈ (resume false calls .empty).2, call ∈ calls := by
  induction calls with
  | nil => exact ⟨rfl, fun _ member => member⟩
  | cons call calls ih =>
    obtain ⟨same, within⟩ := ih
    by_cases waiting : ∃ task, call.waits = .refresh task
    · obtain ⟨task, waiting⟩ := waiting
      obtain ⟨waits, early⟩ := call
      subst waiting
      have ends : finish task .unauthenticated .empty = (.empty, none) :=
        finish_empty fun fresh reply => nomatch reply
      simp only [resume, ends, Bool.false_eq_true, if_false]
      exact ⟨same, fun other member => List.mem_cons_of_mem _ (within other member)⟩
    · rw [resume_other false (not_exists.mp waiting)]
      refine ⟨same, fun other member => ?_⟩
      rcases List.mem_cons.mp member with rfl | member
      · exact List.mem_cons_self
      · exact List.mem_cons_of_mem _ (within other member)

/-- Calls that are sent again write nothing. -/
theorem resume_again (calls : List Call) (b : Browser) : (resume true calls b).1 = b := by
  induction calls with
  | nil => rfl
  | cons call calls ih =>
    unfold resume
    split
    · contradiction
    · rename_i same
      cases same
      exact ih
    · rename_i same
      cases same
      exact ih

variable {s s' : Session}

/-- A call ends while logged out. -/
theorem Invariant.ended {task : Task} {reply : Reply} (holds : Invariant s) (out : s.loggedOut = true)
    (unnamed : ∀ fresh, reply = .ok fresh →
      task = .protectedCall ∨ fresh.displayName = [] ∧ fresh.username = []) :
    Invariant (s.ended place task reply) := by
  have ends : s.ended place task reply = { s with calls := s.calls.eraseIdx place } := by
    rw [Session.ended, holds.browser out, finish_empty unnamed]
    simp only [proceed, ← holds.browser out]
  rw [ends]
  exact ⟨holds.browser, fun out call member => holds.early out call (List.mem_of_mem_eraseIdx member),
    holds.refresh⟩

/-- Only a logout and a new login change whether one is logged out. -/
theorem step_loggedOut (stepped : s.step event = some s') : s'.loggedOut =
    match event with
    | .logout => true
    | .handleOAuthCallback => false
    | _ => s.loggedOut := by
  have ended : ∀ place task reply, (s.ended place task reply).loggedOut = s.loggedOut :=
    fun _ _ _ => rfl
  cases event with
  | logout | handleOAuthCallback | protectedCall =>
    cases stepped
    rfl
  | restoreSession =>
    cases stepped
    unfold restoreSession
    dsimp only
    split_ifs <;> rfl
  | answerLogin place result =>
    obtain ⟨early, -, rfl⟩ := step_answerLogin stepped
    rfl
  | answerCall place reply =>
    obtain ⟨task, retried, early, -, ⟨-, rfl⟩ | ⟨-, rfl⟩⟩ := step_answerCall stepped
    · unfold handleUnauthenticated
      split_ifs <;> rfl
    · rfl
  | answerRefresh answer =>
    obtain ⟨early, -, rfl⟩ := step_answerRefresh stepped
    rfl
  | answerOwnRefresh place answer =>
    obtain ⟨userId, early, -, ⟨-, rfl⟩ | ⟨-, rfl⟩⟩ := step_answerOwnRefresh stepped <;> rfl

theorem Invariant.inside (inside : s.loggedOut = false) : Invariant s := by
  refine ⟨fun out => ?_, fun out => ?_, fun out => ?_⟩ <;> rw [inside] at out <;> cases out

/-- What is left when a call is over. -/
theorem Invariant.erased (holds : Invariant s) (place : Nat) :
    Invariant { s with calls := s.calls.eraseIdx place } :=
  ⟨holds.browser, fun out call member => holds.early out call (List.mem_of_mem_eraseIdx member),
    holds.refresh⟩

theorem Invariant.earlyAt (holds : Invariant s) (out : s.loggedOut = true)
    (here : s.calls[place]? = some call) (restores : call.waits.restores = true) :
    s.earlyAt place = true := by
  rw [Session.earlyAt, here]
  exact holds.early out call (List.mem_of_getElem? here) restores

/-- A step taken while logged out, by an event that revives nothing. -/
theorem Invariant.step (holds : Invariant s) (out : s.loggedOut = true)
    (harmless : s.revives event = false) (stepped : s.step event = some s')
    (goesOn : event ≠ .logout ∧ event ≠ .handleOAuthCallback) : Invariant s' := by
  have nothing := holds.browser out
  unfold revives at harmless
  rw [out, Bool.true_and] at harmless
  cases event with
  | logout => exact absurd rfl goesOn.1
  | handleOAuthCallback => exact absurd rfl goesOn.2
  | restoreSession =>
    cases stepped
    rw [restoreSession, nothing]
    exact holds
  | protectedCall =>
    cases stepped
    refine ⟨holds.browser, fun out call member restores => ?_, holds.refresh⟩
    rcases List.mem_append.mp member with member | new
    · exact holds.early out call member restores
    · obtain rfl := List.mem_singleton.mp new
      cases restores
  | answerLogin place result =>
    obtain ⟨early, here, rfl⟩ := step_answerLogin stepped
    cases result with
    | none => exact holds.erased place
    | some result =>
      simp only [holds.earlyAt out here rfl, Bool.true_and, Bool.or_eq_false_iff,
        decide_eq_false_iff_not, ne_eq, Decidable.not_not, Option.isSome_eq_false_iff,
        Option.isNone_iff_eq_none] at harmless
      have same : s.browser.loggedIn result = s.browser := by
        simp [Browser.loggedIn, harmless.1, harmless.2]
      simp only [Option.elim_some, same]
      exact holds.erased place
  | answerCall place reply =>
    obtain ⟨task, retried, early, here, ⟨-, rfl⟩ | ⟨-, rfl⟩⟩ := step_answerCall stepped
    · rw [handleUnauthenticated, nothing]
      exact holds.ended out fun fresh reply => by cases reply
    · refine holds.ended out fun fresh same => ?_
      subst same
      cases task with
      | protectedCall => exact .inl rfl
      | restoring userId again =>
        have early := holds.early out _ (List.mem_of_getElem? here) rfl
        simp only at early
        subst early
        simp only [here, Bool.or_eq_false_iff, decide_eq_false_iff_not, ne_eq,
          Decidable.not_not] at harmless
        exact .inr harmless
  | answerRefresh answer =>
    obtain ⟨early, refreshing, rfl⟩ := step_answerRefresh stepped
    have tokenless : ∀ token, answer = some token → token = [] := by
      rintro token rfl
      simpa [refreshing, holds.refresh out early refreshing] using harmless
    obtain ⟨same, within⟩ := resume_empty s.calls
    rw [nothing, refreshed_empty tokenless]
    refine ⟨fun _ => same, fun _ call member => holds.early out call (within call member), ?_⟩
    intro _ _ refreshing
    cases refreshing
  | answerOwnRefresh place answer =>
    have tokenless (userId : JsString) (early : Bool)
        (here : s.calls[place]? = some ⟨.ownRefresh userId, early⟩) :
        ∀ token, answer = some token → token = [] := by
      rintro token rfl
      simpa [holds.earlyAt out here rfl] using harmless
    obtain ⟨userId, early, here, ⟨ok, rfl⟩ | ⟨-, rfl⟩⟩ := step_answerOwnRefresh stepped
    · rw [nothing, refreshed_empty (tokenless userId early here)] at ok
      cases ok
    · rw [nothing, refreshed_empty (tokenless userId early here)]
      exact ⟨fun _ => rfl, (holds.erased place).early, holds.refresh⟩

theorem step_invariant (holds : Invariant s) (harmless : s.revives event = false)
    (stepped : s.step event = some s') : Invariant s' := by
  by_cases ends : event = .logout
  · subst ends
    cases stepped
    refine ⟨fun _ => s.browser.logout_eq, fun _ call member _ => ?_, fun _ early refreshing => ?_⟩
    · obtain ⟨call, _, rfl⟩ := List.mem_map.mp member
      rfl
    · obtain ⟨_, _, rfl⟩ := Option.map_eq_some_iff.mp refreshing
      rfl
  by_cases begins : event = .handleOAuthCallback
  · subst begins
    exact .inside (step_loggedOut stepped)
  cases out : s.loggedOut with
  | true => exact holds.step out harmless stepped ⟨ends, begins⟩
  | false =>
    refine .inside ((step_loggedOut stepped).trans ?_)
    cases event <;> first | exact out | exact absurd rfl ends | exact absurd rfl begins

theorem loggedIn_not_signedOut {result : LoginResult}
    (signs : result.idToken ≠ [] ∨ result.user.isSome = true) (b : Browser) :
    ¬(b.loggedIn result).SignedOut := by
  intro signedOut
  have token := signedOut.idToken
  have user := signedOut.user
  unfold Browser.loggedIn at token user
  rcases signs with given | given
  · simp only [if_pos given] at token
    split at token <;> exact given token
  · obtain ⟨grpcUser, named⟩ := Option.isSome_iff_exists.mp given
    simp [named, Browser.saveUser] at user

/-- What revives the session leaves a token or a user. -/
theorem revives_not_signedOut (revived : s.revives event = true) (stepped : s.step event = some s') :
    ¬s'.browser.SignedOut := by
  unfold revives at revived
  rw [Bool.and_eq_true] at revived
  obtain ⟨-, revived⟩ := revived
  cases event with
  | answerLogin place result =>
    cases result with
    | none => cases revived
    | some result =>
      simp only [Bool.and_eq_true, Bool.or_eq_true, decide_eq_true_eq] at revived
      obtain ⟨early, -, rfl⟩ := step_answerLogin stepped
      exact loggedIn_not_signedOut revived.2 s.browser
  | answerCall place reply =>
    cases reply with
    | ok fresh =>
      dsimp only at revived
      split at revived
      · rename_i found
        simp only [Bool.or_eq_true, decide_eq_true_eq] at revived
        obtain ⟨task, retried, early, here, ⟨⟨refused, -⟩, -⟩ | ⟨-, rfl⟩⟩ := step_answerCall stepped
        · cases refused
        cases found.symm.trans here
        intro signedOut
        have user := signedOut.user
        simp [ended, finish, Browser.reloaded, revived, Browser.saveUser] at user
      · cases revived
    | unauthenticated | failed => cases revived
  | answerRefresh answer =>
    cases answer with
    | none => cases revived
    | some idToken =>
      simp only [Bool.and_eq_true, decide_eq_true_eq] at revived
      obtain ⟨early, -, rfl⟩ := step_answerRefresh stepped
      intro signedOut
      have token := signedOut.idToken
      simp only [Browser.refreshed, if_pos revived.2, resume_again] at token
      exact revived.2 token
  | answerOwnRefresh place answer =>
    cases answer with
    | none => cases revived
    | some idToken =>
      simp only [Bool.and_eq_true, decide_eq_true_eq] at revived
      have ok : s.browser.refreshed (some idToken) = (true, { s.browser with idToken }) :=
        if_pos revived.2
      obtain ⟨userId, early, here, ⟨-, rfl⟩ | ⟨failed, -⟩⟩ := step_answerOwnRefresh stepped
      · rw [ok]
        exact fun signedOut => revived.2 signedOut.idToken
      · rw [ok] at failed
        cases failed
  | _ => cases revived

theorem revives_loggedOut (revived : s.revives event = true) (stepped : s.step event = some s') :
    s'.loggedOut = true := by
  unfold revives at revived
  rw [Bool.and_eq_true] at revived
  have same := step_loggedOut stepped
  cases event with
  | logout => exact same
  | handleOAuthCallback => cases revived.2
  | _ => exact same.trans revived.1

/-- The runs in which every state keeps the logout are those in which no answer to an earlier
request revives the session. -/
theorem run_final_iff (browser : Browser) :
    Run (fun s event s' => s.step event = some s' ∧ s'.Final) (start browser) events s ↔
      Run (Guarded (fun s event => s.revives event = false) fun s event s' => s.step event = some s')
        (start browser) events s := by
  have harmless : ∀ (s : Session) event s', s.step event = some s' → s'.Final →
      s.revives event = false := by
    intro s event s' stepped final
    refine Bool.eq_false_iff.mpr fun revived => ?_
    exact revives_not_signedOut revived stepped (final (revives_loggedOut revived stepped))
  have start := start_invariant browser
  refine Run.keeping_iff ⟨start, start.final⟩ ?_ ?_
  · intro s event s' holds _ stepped final
    exact step_invariant holds (harmless s event s' stepped final) stepped
  · intro s event s' holds _ stepped
    exact ⟨harmless s event s' stepped, fun calm => (step_invariant holds calm stepped).final⟩

/-- A browser with both tokens and no user yet. -/
def tokens : Browser := { Browser.empty with idToken := js "token", refreshToken := js "refresh" }

/-- A call is refused, the refresh is in flight at the logout, and its answer brings back a
token. -/
theorem refresh_revives : ¬∀ (browser : Browser) (events : List Event) (s : Session),
    Run (fun s event s' => s.step event = some s') (start browser) events s → s.Final := by
  intro final
  have ends : (execute step [.protectedCall, .answerCall 0 .unauthenticated, .logout,
      .answerRefresh (some (js "new"))] (start tokens)).any
        (fun s => s.loggedOut && s.browser.idToken ≠ []) = true := by
    with_unfolding_all decide
  obtain ⟨s, reached, shows⟩ := (Option.any_eq_true ..).mp ends
  simp only [Bool.and_eq_true, decide_eq_true_eq] at shows
  exact shows.2 (final tokens _ s (run_of_execute reached) shows.1).idToken

end Session
end Crown.Client
