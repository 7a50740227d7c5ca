import Crown.LogoutFinal

/-! The two tests for being logged in: `isAuthenticated` of `useAuth`, which asks for a user, and
the one of `useSocialClient`, which asks for a token. -/
namespace Crown.Client.Session

open Lib

/-- An operation begins when the one before is over, and a login is answered with a token. -/
def orderly (s : Session) : Event → Bool
  | .logout | .handleOAuthCallback | .restoreSession | .protectedCall => s.calls = []
  | .answerLogin _ (some result) => result.idToken ≠ []
  | _ => true

/-- The steps of operations that are completed one after the other. -/
def OrderlyStep (s : Session) (event : Event) (s' : Session) : Prop :=
  s.orderly event = true ∧ s.step event = some s'

/-- Between operations there is a token when there is a user. -/
def Agrees (s : Session) : Prop :=
  s.calls = [] → s.browser.user.isSome = true → s.browser.hasAccessToken = true

/-- The refresh of a protected call ends with an error while there is a user. -/
def parts (s : Session) : Event → Bool
  | .answerRefresh none =>
    s.browser.user.isSome && s.calls.any (·.waits = .refresh .protectedCall)
  | _ => false

/-- A page that has just been loaded. -/
def loaded (browser : Browser) : Session := start { browser with user := none }

/-- What holds while a wait lasts. -/
def Awaits (s : Session) : Waits → Prop
  | .login | .answer .protectedCall _ | .ownRefresh _ => s.refreshPromise = none
  | .refresh .protectedCall => s.refreshPromise.isSome = true
  | .answer (.restoring _ _) _ => s.browser.hasAccessToken = true ∧ s.refreshPromise = none
  | .refresh (.restoring _ _) =>
    s.browser.hasAccessToken = true ∧ s.refreshPromise.isSome = true

structure Tied (s : Session) : Prop where
  token : s.browser.user.isSome = true → s.browser.hasAccessToken = true
  alone : s.calls = [] ∧ s.refreshPromise = none ∨
    ∃ waits early, s.calls = [⟨waits, early⟩] ∧ s.Awaits waits

variable {s s' : Session} {event : Event}

theorem Tied.agrees (tied : Tied s) : s.Agrees := fun _ => tied.token

theorem loaded_tied (browser : Browser) : Tied (loaded browser) :=
  ⟨fun user => absurd user Bool.false_ne_true, .inl ⟨rfl, rfl⟩⟩

/-- The call that something is waited for is the only one. -/
theorem Tied.only (tied : Tied s) (here : s.calls[place]? = some ⟨waits, early⟩) :
    place = 0 ∧ s.calls = [⟨waits, early⟩] ∧ s.Awaits waits := by
  rcases tied.alone with ⟨none, -⟩ | ⟨other, since, one, awaits⟩
  · rw [none] at here
    cases here
  · rw [one] at here
    cases place with
    | zero =>
      cases here
      exact ⟨rfl, one, awaits⟩
    | succ place => cases here

theorem Tied.idle (tied : Tied s) (free : s.calls = []) : s.refreshPromise = none := by
  rcases tied.alone with ⟨_, idle⟩ | ⟨other, since, one, _⟩
  · exact idle
  · rw [one] at free
    cases free

/-- No profile takes the token away. -/
theorem reloaded_token (fresh : User) (b : Browser) :
    (b.reloaded fresh).hasAccessToken = b.hasAccessToken := by
  unfold Browser.reloaded
  split <;> rfl

/-- A call that has ended leaves a user only with a token, and at most a refresh of its own. -/
theorem finish_tied {b : Browser} (token : b.user.isSome = true → b.hasAccessToken = true)
    (profile : ∀ fresh, reply = .ok fresh → task = .protectedCall ∨ b.hasAccessToken = true) :
    ((finish task reply b).1.user.isSome = true → (finish task reply b).1.hasAccessToken = true) ∧
      ((finish task reply b).2 = none ∨
        ∃ userId, (finish task reply b).2 = some (.ownRefresh userId)) := by
  cases task with
  | protectedCall => exact ⟨token, .inl rfl⟩
  | restoring userId again =>
    cases reply with
    | ok fresh =>
      rcases profile fresh rfl with other | present
      · cases other
      · cases again <;> exact ⟨fun _ => (reloaded_token fresh b).trans present, .inl rfl⟩
    | failed =>
      cases again with
      | false => exact ⟨token, .inl rfl⟩
      | true => exact ⟨fun user => absurd user Bool.false_ne_true, .inl rfl⟩
    | unauthenticated =>
      cases again with
      | false =>
        by_cases none : b.refreshToken = []
        · rw [finish, if_pos none]
          exact ⟨fun user => absurd user Bool.false_ne_true, .inl rfl⟩
        · rw [finish, if_neg none]
          exact ⟨token, .inr ⟨userId, rfl⟩⟩
      | true => exact ⟨fun user => absurd user Bool.false_ne_true, .inl rfl⟩

/-- A session in which at most a refresh of `restoreSession` is waited for. -/
theorem tied_of_next {next : Option Waits}
    (token : s.browser.user.isSome = true → s.browser.hasAccessToken = true)
    (goesOn : next = none ∨ ∃ userId, next = some (.ownRefresh userId))
    (idle : s.refreshPromise = none) (calls : s.calls = (next.map (⟨·, false⟩)).toList) :
    Tied s := by
  refine ⟨token, ?_⟩
  rcases goesOn with rfl | ⟨userId, rfl⟩
  · exact .inl ⟨calls, idle⟩
  · exact .inr ⟨_, false, calls, idle⟩

theorem proceed_only (next : Option Waits) (call : Call) :
    proceed 0 next [call] = (next.map (⟨·, false⟩)).toList := by
  cases next <;> rfl

/-- A call ends. -/
theorem Tied.ended (tied : Tied s) (one : s.calls = [⟨.answer task retried, early⟩])
    (awaits : s.Awaits (.answer task retried)) (reply : Reply) : Tied (s.ended 0 task reply) := by
  have kept : ∀ fresh, reply = .ok fresh →
      task = .protectedCall ∨ s.browser.hasAccessToken = true := by
    intro fresh _
    cases task with
    | protectedCall => exact .inl rfl
    | restoring userId again => exact .inr awaits.1
  have idle : s.refreshPromise = none := by
    cases task with
    | protectedCall => exact awaits
    | restoring userId again => exact awaits.2
  obtain ⟨token, goesOn⟩ := finish_tied tied.token kept
  refine tied_of_next token goesOn idle ?_
  rw [← proceed_only _ ⟨.answer task retried, early⟩, ← one]
  rfl

/-- A refused call waits for a refresh, or ends. -/
theorem Tied.handleUnauthenticated (tied : Tied s)
    (one : s.calls = [⟨.answer task retried, early⟩]) (awaits : s.Awaits (.answer task retried)) :
    Tied (s.handleUnauthenticated 0 task) := by
  unfold Session.handleUnauthenticated
  split
  · exact tied.ended one awaits _
  · rename_i present
    rw [Bool.not_eq_false] at present
    have waits : ∀ promise : Option Bool, promise.isSome = true →
        Tied { s with refreshPromise := promise, calls := s.calls.set 0 ⟨.refresh task, false⟩ } := by
      intro promise refreshing
      refine ⟨tied.token, .inr ⟨.refresh task, false, by rw [one]; rfl, ?_⟩⟩
      cases task with
      | protectedCall => exact refreshing
      | restoring userId again => exact ⟨present, refreshing⟩
    split
    · rename_i refreshing
      exact waits s.refreshPromise refreshing
    · split
      · exact tied.ended one awaits _
      · exact waits (some false) rfl

theorem resume_only (task : Task) (early : Bool) (b : Browser) :
    resume false [⟨.refresh task, early⟩] b = ((finish task .unauthenticated b).1,
      ((finish task .unauthenticated b).2.map (⟨·, false⟩)).toList) := by
  simp [resume]

/-- The shared refresh is over, and a protected call did not lose the token over it. -/
theorem Tied.answerRefresh (tied : Tied s) (one : s.calls = [⟨.refresh task, early⟩])
    (awaits : s.Awaits (.refresh task)) (whole : s.parts (.answerRefresh answer) = false) :
    Tied { s with
      browser := (resume (s.browser.refreshed answer).1 s.calls (s.browser.refreshed answer).2).1
      calls := (resume (s.browser.refreshed answer).1 s.calls (s.browser.refreshed answer).2).2
      refreshPromise := none } := by
  have ends : ∀ b : Browser, b.user = s.browser.user →
      (task = .protectedCall → b.user.isSome = true → b.hasAccessToken = true) →
      (task ≠ .protectedCall → b.hasAccessToken = true ∨ b.refreshToken = []) →
      Tied { s with
        browser := (resume false s.calls b).1
        calls := (resume false s.calls b).2
        refreshPromise := none } := by
    intro b user own restoring
    rw [one, resume_only]
    cases task with
    | protectedCall => exact tied_of_next (own rfl) (.inl rfl) rfl rfl
    | restoring userId again =>
      rcases restoring (by simp) with present | gone
      · have noProfile : ∀ fresh, Reply.unauthenticated = .ok fresh →
            Task.restoring userId again = .protectedCall ∨ b.hasAccessToken = true :=
          fun fresh same => Reply.noConfusion same
        obtain ⟨token, goesOn⟩ := finish_tied (fun _ => present) noProfile
        exact tied_of_next token goesOn rfl rfl
      · have forgotten : finish (.restoring userId again) .unauthenticated b = (b.forget, none) := by
          cases again with
          | false => rw [finish, if_pos gone]
          | true => rfl
        rw [forgotten]
        exact tied_of_next (fun user => absurd user Bool.false_ne_true) (.inl rfl) rfl rfl
  have before : task ≠ .protectedCall → s.browser.hasAccessToken = true := by
    intro restoring
    cases task with
    | protectedCall => exact absurd rfl restoring
    | restoring userId again => exact awaits.1
  cases answer with
  | none =>
    refine ends s.browser.clearAccessToken rfl (fun own user => ?_) fun _ => .inr rfl
    subst own
    have user : s.browser.user.isSome = true := user
    simp [parts, one, user] at whole
  | some idToken =>
    by_cases empty : idToken = []
    · subst empty
      exact ends s.browser rfl (fun _ => tied.token) fun restoring => .inl (before restoring)
    · rw [Browser.refreshed, if_pos empty, one]
      have present : Browser.hasAccessToken { s.browser with idToken } = true := by
        simp [Browser.hasAccessToken, empty]
      refine ⟨fun _ => present, .inr ⟨.answer task true, false, rfl, ?_⟩⟩
      cases task with
      | protectedCall => rfl
      | restoring userId again => exact ⟨present, rfl⟩

theorem loggedIn_token {result : LoginResult} (given : result.idToken ≠ []) (b : Browser) :
    (b.loggedIn result).hasAccessToken = true := by
  unfold Browser.loggedIn
  rw [if_pos given]
  cases result.user with
  | none => simpa [Browser.hasAccessToken] using given
  | some grpcUser => simpa [Browser.hasAccessToken, Browser.saveUser] using given

theorem refreshed_token {b : Browser} (ok : (b.refreshed answer).1 = true) :
    (b.refreshed answer).2.hasAccessToken = true := by
  cases answer with
  | none => cases ok
  | some idToken =>
    by_cases empty : idToken = []
    · simp [Browser.refreshed, empty] at ok
    · simp [Browser.refreshed, Browser.hasAccessToken, empty]

theorem Tied.step (tied : Tied s) (orderly : s.orderly event = true)
    (whole : s.parts event = false) (stepped : s.step event = some s') : Tied s' := by
  cases event with
  | logout =>
    have free : s.calls = [] := by simpa [Session.orderly] using orderly
    cases stepped
    exact ⟨fun user => absurd user Bool.false_ne_true,
      .inl ⟨by rw [free]; rfl, by rw [tied.idle free]; rfl⟩⟩
  | handleOAuthCallback =>
    have free : s.calls = [] := by simpa [Session.orderly] using orderly
    cases stepped
    exact ⟨tied.token, .inr ⟨.login, false, by rw [free]; rfl, tied.idle free⟩⟩
  | protectedCall =>
    have free : s.calls = [] := by simpa [Session.orderly] using orderly
    cases stepped
    exact ⟨tied.token,
      .inr ⟨.answer .protectedCall false, false, by rw [free]; rfl, tied.idle free⟩⟩
  | restoreSession =>
    have free : s.calls = [] := by simpa [Session.orderly] using orderly
    cases stepped
    unfold Session.restoreSession
    split
    · exact tied
    · rename_i present
      rw [Bool.not_eq_false] at present
      dsimp only
      split
      · exact ⟨fun _ => present, .inl ⟨free, tied.idle free⟩⟩
      · exact ⟨fun _ => present, .inr ⟨.answer (.restoring _ false) false, false, by rw [free]; rfl,
          present, tied.idle free⟩⟩
  | answerLogin place result =>
    obtain ⟨early, here, rfl⟩ := step_answerLogin stepped
    obtain ⟨rfl, one, idle⟩ := tied.only here
    have free : s.calls.eraseIdx 0 = [] := by rw [one]; rfl
    refine ⟨?_, .inl ⟨free, idle⟩⟩
    cases result with
    | none => exact tied.token
    | some result =>
      have given : result.idToken ≠ [] := by simpa [Session.orderly] using orderly
      exact fun _ => loggedIn_token given s.browser
  | answerCall place reply =>
    obtain ⟨task, retried, early, here, steps⟩ := step_answerCall stepped
    obtain ⟨rfl, one, awaits⟩ := tied.only here
    rcases steps with ⟨-, rfl⟩ | ⟨-, rfl⟩
    · exact tied.handleUnauthenticated one awaits
    · exact tied.ended one awaits reply
  | answerRefresh answer =>
    obtain ⟨early, refreshing, rfl⟩ := step_answerRefresh stepped
    rcases tied.alone with ⟨_, idle⟩ | ⟨waits, since, one, awaits⟩
    · rw [idle] at refreshing
      cases refreshing
    · cases waits with
      | refresh task => exact tied.answerRefresh one awaits whole
      | login | ownRefresh _ => exact absurd (awaits.symm.trans refreshing) (by simp)
      | answer task retried =>
        cases task with
        | protectedCall => exact absurd (awaits.symm.trans refreshing) (by simp)
        | restoring userId again => exact absurd (awaits.2.symm.trans refreshing) (by simp)
  | answerOwnRefresh place answer =>
    obtain ⟨userId, early, here, steps⟩ := step_answerOwnRefresh stepped
    obtain ⟨rfl, one, idle⟩ := tied.only here
    rcases steps with ⟨ok, rfl⟩ | ⟨-, rfl⟩
    · have present := refreshed_token ok
      exact ⟨fun _ => present, .inr ⟨.answer (.restoring _ true) false, false, by rw [one]; rfl,
        present, idle⟩⟩
    · exact ⟨fun user => absurd user Bool.false_ne_true, .inl ⟨by rw [one]; rfl, idle⟩⟩

/-- After such a refresh there is a user and no token. -/
theorem parts_disagree (tied : Tied s) (parted : s.parts event = true)
    (stepped : s.step event = some s') : ¬s'.Agrees := by
  cases event with
  | answerRefresh answer =>
    cases answer with
    | some idToken => cases parted
    | none =>
      simp only [parts, Bool.and_eq_true, List.any_eq_true, decide_eq_true_eq] at parted
      obtain ⟨user, call, member, waiting⟩ := parted
      obtain ⟨waits, early⟩ := call
      subst waiting
      obtain ⟨place, here⟩ := List.getElem?_of_mem member
      obtain ⟨-, one, -⟩ := tied.only here
      obtain ⟨early, -, rfl⟩ := step_answerRefresh stepped
      rw [one, Browser.refreshed, resume_only]
      exact fun agrees => Bool.false_ne_true (agrees rfl user)
  | _ => cases parted

/-- The runs in which the two tests agree after every operation are those in which no refresh of
a protected call ends with an error while there is a user. -/
theorem run_agrees_iff (browser : Browser) :
    Run (fun s event s' => OrderlyStep s event s' ∧ s'.Agrees) (loaded browser) events s ↔
      Run (Guarded (fun s event => s.parts event = false) OrderlyStep) (loaded browser) events s := by
  have whole : ∀ s event s', Tied s → s.step event = some s' → s'.Agrees →
      s.parts event = false := by
    intro s event s' tied stepped agrees
    exact Bool.eq_false_iff.mpr fun parted => parts_disagree tied parted stepped agrees
  have start := loaded_tied browser
  refine Run.keeping_iff ⟨start, start.agrees⟩ ?_ ?_
  · rintro s event s' tied - ⟨orderly, stepped⟩ agrees
    exact tied.step orderly (whole s event s' tied stepped agrees) stepped
  · rintro s event s' tied - ⟨orderly, stepped⟩
    exact ⟨whole s event s' tied stepped, fun kept => (tied.step orderly kept stepped).agrees⟩

/-- A login, and a call whose refresh meets a network error. -/
def brokenRefresh : List Event :=
  [.handleOAuthCallback, .answerLogin 0 (some ⟨js "token", js "refresh",
      some ⟨js "ana", js "ana", js "ana", js "Ana", [], [], 0, 0, 0, [], false, false⟩⟩),
    .protectedCall, .answerCall 0 .unauthenticated, .answerRefresh none]

theorem brokenRefresh_parts : ¬∀ (browser : Browser) (events : List Event) (s : Session),
    Run OrderlyStep (loaded browser) events s → s.Agrees := by
  intro agrees
  have ends : (execute (fun s event => if s.orderly event = true then s.step event else none)
      brokenRefresh (loaded .empty)).any
        (fun s => s.calls = [] && s.browser.user.isSome && !s.browser.hasAccessToken) = true := by
    with_unfolding_all decide
  obtain ⟨s, reached, shows⟩ := (Option.any_eq_true ..).mp ends
  simp only [Bool.and_eq_true, decide_eq_true_eq, Bool.not_eq_true'] at shows
  obtain ⟨⟨free, user⟩, tokenless⟩ := shows
  have run : Run OrderlyStep (loaded .empty) brokenRefresh s := guarded_of_execute reached
  rw [agrees .empty _ s run free user] at tokenless
  cases tokenless

end Crown.Client.Session
