import Crown.LogoutFinal

/-! How often a browser sends the requests of its protected calls, and how many refreshes it has
in flight: a session with a record of what was sent for every call. -/
namespace Crown.Client

open Lib

/-- The methods of the generated `UserServiceClient`. -/
def userServiceClient : List JsString :=
  [js "getUserById", js "getUserByHandle", js "updateProfile", js "searchUsers"]

/-- How often the request of a call was sent, and how many refreshes had brought a token when
the call was started. -/
structure Record where
  sent : Nat
  since : Nat

/-- `refreshSince` tells how many refreshes had brought a token when the one that protected
calls share was sent. -/
structure Flight where
  session : Session
  records : List Record
  renewals : Nat
  refreshSince : Nat

namespace Flight

open Session

def start (browser : Browser) : Flight := ⟨.start browser, [], 0, 0⟩

/-- To call a method that a client does not have is a `TypeError`. -/
def possible (methods : List JsString) (f : Flight) : Event → Bool
  | .answerCall place reply =>
    match f.session.calls[place]? with
    | some ⟨.answer (.restoring _ _) _, _⟩ => js "getProfile" ∈ methods || reply = .failed
    | _ => true
  | _ => true

/-- The records of the calls that a shared refresh sends again or ends. -/
def resent (ok : Bool) (renewals : Nat) : List Call → Browser → List Record → List Record
  | ⟨.refresh task, _⟩ :: calls, b, record :: records =>
    if ok then { record with sent := record.sent + 1 } :: resent ok renewals calls b records
    else
      let (b, next) := finish task .unauthenticated b
      (next.map fun _ => ⟨0, renewals⟩).toList ++ resent ok renewals calls b records
  | _ :: calls, b, record :: records => record :: resent ok renewals calls b records
  | _, _, _ => []

/-- The event is a token that a refresh brings. -/
def renews : Event → Bool
  | .answerRefresh (some idToken) | .answerOwnRefresh _ (some idToken) => idToken ≠ []
  | _ => false

/-- The records of the calls of the session that follows. -/
def recorded (f : Flight) (session : Session) (event : Event) : List Record :=
  match event with
  | .logout => f.records
  | .handleOAuthCallback => f.records ++ [⟨0, f.renewals⟩]
  | .protectedCall => f.records ++ [⟨1, f.renewals⟩]
  | .restoreSession =>
    if session.calls.length = f.session.calls.length then f.records
    else f.records ++ [⟨1, f.renewals⟩]
  | .answerLogin place _ => f.records.eraseIdx place
  | .answerCall place _ =>
    if session.calls.length < f.session.calls.length then f.records.eraseIdx place
    else
      match session.calls[place]? with
      | some ⟨.ownRefresh _, _⟩ => f.records.set place ⟨0, f.renewals⟩
      | _ => f.records
  | .answerRefresh answer =>
    let (ok, browser) := f.session.browser.refreshed answer
    resent ok f.renewals f.session.calls browser f.records
  | .answerOwnRefresh place _ =>
    if renews event then f.records.set place ⟨1, f.renewals + 1⟩ else f.records.eraseIdx place

def step (f : Flight) (event : Event) : Option Flight :=
  (f.session.step event).map fun session =>
    { session
      records := f.recorded session event
      renewals := f.renewals + if renews event then 1 else 0
      refreshSince := if f.session.refreshPromise.isSome then f.refreshSince else f.renewals }

/-- How many requests `RefreshAccessToken` are in flight. -/
def requests (f : Flight) : Nat :=
  (if f.session.refreshPromise.isSome then 1 else 0) +
    f.session.calls.countP fun call => match call.waits with
      | .ownRefresh _ => true
      | _ => false

structure SingleFlight (f : Flight) : Prop where
  one : f.requests ≤ 1
  twice : ∀ record ∈ f.records,
    record.sent ≤ 2 ∧ (record.sent = 2 → record.since < f.renewals)

/-- A refresh that fails, and so removes the token, does not remove one that another refresh
has brought since it was sent. -/
def Spares (f : Flight) : Event → Prop
  | .answerRefresh none => f.refreshSince = f.renewals
  | .answerOwnRefresh place none =>
    ∀ record, f.records[place]? = some record → record.since = f.renewals
  | _ => True

/-- What is on record of a call, while no `restoreSession` gets past its call for a profile. -/
def Agrees (renewals : Nat) (call : Call) (record : Record) : Prop :=
  match call.waits with
  | .login => record.sent = 0
  | .answer .protectedCall false | .refresh .protectedCall =>
    record.sent = 1 ∧ record.since ≤ renewals
  | .answer .protectedCall true => record.sent = 2 ∧ record.since < renewals
  | .answer (.restoring _ false) false => record.sent = 1
  | _ => False

structure Invariant (f : Flight) : Prop where
  refresh : f.session.refreshPromise.isSome = true → f.refreshSince = f.renewals
  agrees : List.Forall₂ (Agrees f.renewals) f.session.calls f.records

variable {f f' : Flight} {methods : List JsString} {event : Event} {renewals : Nat}
variable {call : Call} {record : Record}

theorem Agrees.known (agrees : Agrees renewals call record) :
    record.sent ≤ 2 ∧ (record.sent = 2 → record.since < renewals) ∧
      ∀ userId, call.waits ≠ .ownRefresh userId := by
  unfold Agrees at agrees
  split at agrees <;> simp_all

theorem Agrees.mono (agrees : Agrees renewals call record) (later : renewals ≤ renewals') :
    Agrees renewals' call record := by
  unfold Agrees at agrees ⊢
  split at agrees
  · exact agrees
  · exact ⟨agrees.1, agrees.2.trans later⟩
  · exact ⟨agrees.1, agrees.2.trans later⟩
  · exact ⟨agrees.1, Nat.lt_of_lt_of_le agrees.2 later⟩
  · exact agrees
  · exact agrees.elim

/-- The calls that wait for the shared refresh are sent again after it, or are over. -/
theorem resumed {calls : List Call} {records : List Record}
    (agrees : List.Forall₂ (Agrees renewals) calls records) (ok : Bool) (b : Browser) :
    List.Forall₂ (Agrees (renewals + if ok then 1 else 0)) (resume ok calls b).2
      (resent ok renewals calls b records) := by
  induction agrees with
  | nil => exact .nil
  | @cons call record calls records first rest ih =>
    obtain ⟨waits, early⟩ := call
    cases waits with
    | refresh task =>
      cases task with
      | restoring userId again => exact first.elim
      | protectedCall =>
        cases ok with
        | true =>
          refine .cons ⟨congrArg (· + 1) first.1, ?_⟩ ih
          exact Nat.lt_succ_of_le first.2
        | false => exact ih
    | _ => exact .cons (first.mono (Nat.le_add_right _ _)) ih

theorem Invariant.singleFlight (holds : Invariant f) : f.SingleFlight := by
  constructor
  · have none : f.session.calls.countP (fun call => match call.waits with
        | .ownRefresh _ => true
        | _ => false) = 0 := by
      refine List.countP_eq_zero.mpr fun call member => ?_
      obtain ⟨place, here⟩ := List.getElem?_of_mem member
      obtain ⟨record, _, agrees⟩ := InFlight.forall₂_getElem? holds.agrees here
      split
      · rename_i own
        exact absurd own (agrees.known.2.2 _)
      · exact Bool.false_ne_true
    rw [requests, none]
    split <;> omega
  · intro record member
    obtain ⟨place, here⟩ := List.getElem?_of_mem member
    obtain ⟨call, _, agrees⟩ := InFlight.forall₂_getElem? holds.agrees.flip here
    have agrees : Agrees f.renewals call record := agrees
    exact ⟨agrees.known.1, agrees.known.2.1⟩

theorem start_invariant (browser : Browser) : Invariant (start browser) :=
  ⟨fun refreshing => absurd refreshing Bool.false_ne_true, List.Forall₂.nil⟩

/-- An event that brings no token leaves the count, at which a shared refresh was sent. -/
theorem Invariant.refreshSince (holds : Invariant f) :
    (if f.session.refreshPromise.isSome then f.refreshSince else f.renewals) = f.renewals := by
  split
  · rename_i refreshing
    exact holds.refresh refreshing
  · rfl

/-- A call that has ended is dropped with its record. -/
theorem Invariant.dropped (holds : Invariant f) (place : Nat) :
    List.Forall₂ (Agrees f.renewals) (f.session.calls.eraseIdx place) (f.records.eraseIdx place) :=
  InFlight.forall₂_eraseIdx holds.agrees place

/-- The records after the answer to a call that ends with it. -/
theorem recorded_dropped (here : f.session.calls[place]? = some call) (reply : Reply)
    (session : Session) (dropped : session.calls = f.session.calls.eraseIdx place) :
    f.recorded session (.answerCall place reply) = f.records.eraseIdx place := by
  obtain ⟨inside, _⟩ := List.getElem?_eq_some_iff.mp here
  rw [recorded, if_pos]
  rw [dropped, List.length_eraseIdx_of_lt inside]
  omega

/-- The records after the answer to a call that then waits for the shared refresh. -/
theorem recorded_refresh (here : f.session.calls[place]? = some call) (reply : Reply)
    (session : Session) (task : Task) (early : Bool)
    (waiting : session.calls = f.session.calls.set place ⟨.refresh task, early⟩) :
    f.recorded session (.answerCall place reply) = f.records := by
  obtain ⟨inside, _⟩ := List.getElem?_eq_some_iff.mp here
  have there : session.calls[place]? = some ⟨.refresh task, early⟩ := by
    rw [waiting, List.getElem?_set_self inside]
  rw [recorded, if_neg (by rw [waiting, List.length_set]; omega)]
  simp only [there]

/-- Without the method `restoreSession` gets an error that is no `RpcError`. -/
theorem failed_of_possible (missing : js "getProfile" ∉ methods)
    (here : f.session.calls[place]? = some ⟨.answer (.restoring userId again) retried, early⟩)
    (possible : f.possible methods (.answerCall place reply) = true) : reply = .failed := by
  simpa only [Flight.possible, here, missing, decide_false, Bool.false_or, decide_eq_true_eq]
    using possible

theorem Invariant.answerCall (holds : Invariant f) (missing : js "getProfile" ∉ methods)
    (possible : f.possible methods (.answerCall place reply) = true)
    {next : Session} (stepped : f.session.step (.answerCall place reply) = some next) :
    List.Forall₂ (Agrees f.renewals) next.calls (f.recorded next (.answerCall place reply)) := by
  obtain ⟨task, retried, early, here, steps⟩ := step_answerCall stepped
  obtain ⟨record, found, agrees⟩ := InFlight.forall₂_getElem? holds.agrees here
  have ends : ∀ browser, finish task reply browser = (browser, none) := by
    intro browser
    cases task with
    | protectedCall => rfl
    | restoring userId again =>
      obtain rfl := failed_of_possible missing here possible
      cases again with
      | true => cases retried <;> exact agrees.elim
      | false => rfl
  have dropped : ∀ s : Session, s = f.session.ended place task reply →
      List.Forall₂ (Agrees f.renewals) s.calls (f.recorded s (.answerCall place reply)) := by
    rintro s rfl
    have calls : (f.session.ended place task reply).calls = f.session.calls.eraseIdx place := by
      rw [ended, ends]
      rfl
    rw [recorded_dropped here reply _ calls, calls]
    exact holds.dropped place
  rcases steps with ⟨⟨rfl, rfl⟩, rfl⟩ | ⟨-, rfl⟩
  · cases task with
    | restoring userId again =>
      cases failed_of_possible missing here possible
    | protectedCall =>
      have waits : ∀ s : Session,
          s.calls = f.session.calls.set place ⟨.refresh .protectedCall, false⟩ →
          List.Forall₂ (Agrees f.renewals) s.calls
            (f.recorded s (.answerCall place .unauthenticated)) := by
        intro s waiting
        rw [recorded_refresh here _ s _ _ waiting, waiting]
        refine InFlight.forall₂_set holds.agrees fun other same => ?_
        obtain rfl := Option.some.inj (found.symm.trans same)
        exact agrees
      unfold handleUnauthenticated
      split_ifs
      · exact dropped _ rfl
      · exact waits _ rfl
      · exact dropped _ rfl
      · exact waits _ rfl
  · exact dropped _ rfl

/-- The refreshes that succeed are those that bring a token. -/
theorem refreshed_renews (b : Browser) (answer : Option JsString) :
    (if (b.refreshed answer).1 then 1 else 0) =
      if renews (.answerRefresh answer) then 1 else 0 := by
  cases answer with
  | none => rfl
  | some idToken => by_cases empty : idToken = [] <;> simp [Browser.refreshed, renews, empty]

theorem restoreSession_calls (s : Session) : s.restoreSession.calls = s.calls ∨
    ∃ userId, s.restoreSession.calls =
      s.calls ++ [⟨.answer (.restoring userId false) false, false⟩] := by
  unfold Session.restoreSession
  split
  · exact .inl rfl
  · dsimp only
    split
    · exact .inl rfl
    · exact .inr ⟨_, rfl⟩

/-- A step of a client without `getProfile`. -/
theorem Invariant.step (holds : Invariant f) (missing : js "getProfile" ∉ methods)
    (possible : f.possible methods event = true) (stepped : f.step event = some f') :
    Invariant f' ∧ f.Spares event := by
  obtain ⟨next, moved, rfl⟩ := Option.map_eq_some_iff.mp stepped
  have steady : ∀ records, renews event = false → f.Spares event →
      f.recorded next event = records → List.Forall₂ (Agrees f.renewals) next.calls records →
      Invariant ⟨next, f.recorded next event, f.renewals + if renews event then 1 else 0,
        if f.session.refreshPromise.isSome then f.refreshSince else f.renewals⟩ ∧
        f.Spares event := by
    rintro records quiet spares rfl agrees
    simp only [quiet, Bool.false_eq_true, if_false, Nat.add_zero, holds.refreshSince]
    exact ⟨⟨fun _ => rfl, agrees⟩, spares⟩
  have begun : ∀ waits record, Agrees f.renewals ⟨waits, false⟩ record →
      List.Forall₂ (Agrees f.renewals) (f.session.calls ++ [⟨waits, false⟩])
        (f.records ++ [record]) :=
    fun waits record agrees => List.rel_append holds.agrees (.cons agrees .nil)
  cases event with
  | logout =>
    cases moved
    exact steady _ rfl trivial rfl (List.forall₂_map_left_iff.mpr holds.agrees)
  | handleOAuthCallback =>
    cases moved
    exact steady _ rfl trivial rfl (begun _ _ rfl)
  | protectedCall =>
    cases moved
    exact steady _ rfl trivial rfl (begun _ _ ⟨rfl, Nat.le_refl _⟩)
  | restoreSession =>
    cases moved
    refine steady _ rfl trivial rfl ?_
    rw [recorded]
    rcases restoreSession_calls f.session with same | ⟨userId, added⟩
    · rw [if_pos (congrArg List.length same), same]
      exact holds.agrees
    · rw [if_neg (by simp [added]), added]
      exact begun _ _ rfl
  | answerLogin place result =>
    obtain ⟨early, -, rfl⟩ := step_answerLogin moved
    exact steady _ rfl trivial rfl (holds.dropped place)
  | answerCall place reply =>
    exact steady _ rfl trivial rfl (holds.answerCall missing possible moved)
  | answerRefresh answer =>
    obtain ⟨early, refreshing, rfl⟩ := step_answerRefresh moved
    have since := holds.refresh (by rw [refreshing]; rfl)
    refine ⟨⟨fun again => absurd again Bool.false_ne_true, ?_⟩, ?_⟩
    · have agrees := resumed holds.agrees (f.session.browser.refreshed answer).1
        (f.session.browser.refreshed answer).2
      rw [refreshed_renews] at agrees
      exact agrees
    · cases answer with
      | none => exact since
      | some idToken => trivial
  | answerOwnRefresh place answer =>
    obtain ⟨userId, early, here, -⟩ := step_answerOwnRefresh moved
    obtain ⟨record, _, agrees⟩ := InFlight.forall₂_getElem? holds.agrees here
    exact agrees.elim

/-- The runs of a browser whose client of the `UserService` has certain methods. -/
def Runs (methods : List JsString) (browser : Browser) (events : List Event) (f : Flight) : Prop :=
  Run (Guarded (fun f event => f.possible methods event = true)
    fun f event f' => f.step event = some f') (start browser) events f

/-- Without `getProfile` no `restoreSession` sends a refresh of its own. -/
theorem run_missing (missing : js "getProfile" ∉ methods) {browser : Browser}
    (run : Runs methods browser events f) : f.SingleFlight ∧
      Run (fun f event f' => f.step event = some f' ∧ f.Spares event) (start browser) events f := by
  have kept : ∀ f event f', Invariant f →
      Guarded (fun f event => f.possible methods event = true)
        (fun f event f' => f.step event = some f') f event f' → Invariant f' :=
    fun f event f' holds ⟨possible, stepped⟩ => (holds.step missing possible stepped).1
  refine ⟨(run.invariant (start_invariant browser) kept).singleFlight, ?_⟩
  exact run.mono_under (start_invariant browser) kept fun f event f' holds ⟨possible, stepped⟩ =>
    ⟨stepped, (holds.step missing possible stepped).2⟩

theorem getProfile_missing : js "getProfile" ∉ userServiceClient := by
  with_unfolding_all decide

/-- At most one refresh is in flight, every call is sent at most twice and the second time after
a refresh that brought a token, and no refresh that fails removes a token brought meanwhile. -/
theorem run_singleFlight {browser : Browser} (run : Runs userServiceClient browser events f) :
    f.SingleFlight ∧
      Run (fun f event f' => f.step event = some f' ∧ f.Spares event) (start browser) events f :=
  run_missing getProfile_missing run

/-- A browser with both tokens and the id of a user. -/
def remembered : Browser := { tokens with authUserId := js "ana" }

/-- Two calls are refused, a refresh brings a token, and both are sent again. -/
def twoCalls : List Event :=
  [.protectedCall, .restoreSession, .protectedCall, .answerCall 0 .unauthenticated,
    .answerCall 2 .unauthenticated, .answerCall 1 .failed, .answerRefresh (some (js "new"))]

theorem twoCalls_singleFlight : ∃ f, f.SingleFlight ∧
    Run (fun f event f' => f.step event = some f' ∧ f.Spares event) (start remembered) twoCalls f := by
  have ends : (execute (fun (f : Flight) event =>
      if f.possible userServiceClient event = true then f.step event else none) twoCalls
      (start remembered)).isSome = true := by
    with_unfolding_all decide
  obtain ⟨f, reached⟩ := Option.isSome_iff_exists.mp ends
  exact ⟨f, run_singleFlight (guarded_of_execute reached)⟩

/-- It is the method that is missing which keeps the refreshes apart: with it two sessions that
are restored have two refreshes in flight. -/
theorem singleFlight_iff (methods : List JsString) :
    (∀ browser events f, Runs methods browser events f → f.SingleFlight) ↔
      js "getProfile" ∉ methods := by
  constructor
  · intro single present
    have all : ∀ f event, possible methods f event = true := by
      intro f event
      unfold possible
      split
      · split <;> simp [present]
      · rfl
    have ends : (execute step [.restoreSession, .restoreSession, .answerCall 0 .unauthenticated,
        .answerRefresh (some (js "new")), .answerCall 0 .unauthenticated,
        .answerCall 1 .unauthenticated] (start remembered)).any (·.requests = 2) = true := by
      with_unfolding_all decide
    obtain ⟨f, reached, two⟩ := (Option.any_eq_true ..).mp ends
    have agree : ∀ f event f', f.step event = some f' ↔
        Guarded (fun f event => possible methods f event = true)
          (fun f event f' => f.step event = some f') f event f' :=
      fun f event f' => ⟨fun stepped => ⟨all f event, stepped⟩, And.right⟩
    have one := (single remembered _ f ((Run.congr agree).mp (run_of_execute reached))).one
    rw [of_decide_eq_true two] at one
    omega
  · exact fun missing browser events f run => (run_missing missing run).1

end Flight
end Crown.Client
