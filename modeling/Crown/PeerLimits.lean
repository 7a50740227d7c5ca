import Crown.RequestWindows

/-! The limiter as its peers meet it: what connections send as metadata decides in which bucket
their calls are counted. -/
namespace Crown

open Lib

/-- A call as it arrives: the address of the connection, and the metadata it carries. -/
structure PeerCall where
  peer : Text
  method : Text
  metadata : Metadata
  decidedAt : Int
  recordedAt : Int
  deriving DecidableEq

/-- What the interceptor hands to the limiter. -/
def PeerCall.limited (call : PeerCall) : LimitedCall :=
  ⟨call.method, getClientIp call.metadata, call.decidedAt, call.recordedAt⟩

namespace RateLimiter

def allowsAfter (routes : List RouteConfig) (before : List PeerCall) (call : PeerCall) : Bool :=
  (((new routes).after (before.map PeerCall.limited)).serve call.limited).1

def allowedCalls : List PeerCall → RateLimiter → List PeerCall
  | [], _ => []
  | call :: rest, limiter =>
    (if (limiter.serve call.limited).1 then [call] else []) ++
      allowedCalls rest (limiter.serve call.limited).2

/-- The allowed calls of one peer to a method, recorded at a time inside. -/
def allowedOf (inside : Int → Bool) (peer method : Text) (calls : List PeerCall) : List PeerCall :=
  calls.filter fun call => call.peer = peer ∧ call.method = method ∧ inside call.recordedAt

/-- No peer has more calls allowed in a window than the most requests, and no call is refused
that would be allowed without the calls of some other peer. -/
structure PerClient (routes : List RouteConfig) (calls : List PeerCall) : Prop where
  bounded : ∀ peer method route, (new routes).findRoute method = some route → ∀ start,
    ((allowedOf (fun time => start < time ∧ time ≤ start + route.window) peer method
      ((new routes).allowedCalls calls)).length : Int) ≤ route.maxRequests ∧
    ((allowedOf (fun time => start ≤ time ∧ time < start + route.window) peer method
      ((new routes).allowedCalls calls)).length : Int) ≤ route.maxRequests
  apart : ∀ before call later, calls = before ++ call :: later → ∀ peer ≠ call.peer,
    allowsAfter routes (before.filter (·.peer ≠ peer)) call = true →
      allowsAfter routes before call = true

/-- The metadata the peers send tell them apart: all that one sends gives one client, and what
two send gives two. -/
structure Separated (sends : Text → Metadata → Prop) : Prop where
  one : ∀ {peer first second}, sends peer first → sends peer second →
    getClientIp first = getClientIp second
  two : ∀ {peer other first second}, sends peer first → sends other second →
    getClientIp first = getClientIp second → peer = other

/-- The calls of peers which send certain metadata, in the order of the clock. -/
structure Sent (sends : Text → Metadata → Prop) (calls : List PeerCall) : Prop where
  metadata : ∀ call ∈ calls, sends call.peer call.metadata
  ticks : Ticks (calls.map PeerCall.limited)

variable {routes : List RouteConfig} {calls : List PeerCall} {sends : Text → Metadata → Prop}

theorem allowedCalls_limited (calls : List PeerCall) (limiter : RateLimiter) :
    (limiter.allowedCalls calls).map PeerCall.limited =
      limiter.allowed (calls.map PeerCall.limited) := by
  induction calls generalizing limiter with
  | nil => rfl
  | cons call rest ih =>
    rw [allowedCalls, List.map_append, ih, List.map_cons, allowed]
    split <;> rfl

theorem allowedCalls_subset (calls : List PeerCall) (limiter : RateLimiter) :
    ∀ call ∈ limiter.allowedCalls calls, call ∈ calls := by
  induction calls generalizing limiter with
  | nil => exact fun _ member => member
  | cons first rest ih =>
    intro call member
    rw [allowedCalls] at member
    rcases List.mem_append.mp member with now | later
    · split at now
      · exact List.mem_singleton.mp now ▸ List.mem_cons_self
      · cases now
    · exact List.mem_cons_of_mem _ (ih _ call later)

theorem allowedCalls_append (first rest : List PeerCall) (limiter : RateLimiter) :
    limiter.allowedCalls (first ++ rest) = limiter.allowedCalls first ++
      (limiter.after (first.map PeerCall.limited)).allowedCalls rest := by
  induction first generalizing limiter with
  | nil => rfl
  | cons call first ih =>
    rw [List.cons_append, allowedCalls, ih, ← List.append_assoc]
    rfl

theorem serve_routes (call : LimitedCall) (limiter : RateLimiter) :
    (limiter.serve call).2.routes = limiter.routes := by
  unfold serve allowRequest
  split
  · rfl
  · dsimp only
    split <;> rfl

theorem after_findRoute (calls : List LimitedCall) (limiter : RateLimiter) (method : Text) :
    (limiter.after calls).findRoute method = limiter.findRoute method := by
  induction calls generalizing limiter with
  | nil => rfl
  | cons call rest ih =>
    refine (ih _).trans ?_
    rw [findRoute, serve_routes, findRoute]

theorem serve_usage_other {call : LimitedCall} {method clientIp : Text}
    (other : ¬call.Same method clientIp) (limiter : RateLimiter) :
    (limiter.serve call).2.usage clientIp method = limiter.usage clientIp method := by
  have apart : ¬(method = call.method ∧ clientIp = call.clientIp) :=
    fun ⟨m, c⟩ => other ⟨m.symm, c.symm⟩
  unfold serve allowRequest
  split
  · rfl
  · dsimp only
    split <;> exact record_other apart _ _

/-- What becomes of a bucket, and the answer, depend on the routes and that bucket. -/
theorem serve_alone {call : LimitedCall} {limiter other : RateLimiter}
    (routes : other.routes = limiter.routes)
    (usage : other.usage call.clientIp call.method = limiter.usage call.clientIp call.method) :
    (other.serve call).1 = (limiter.serve call).1 ∧
      (other.serve call).2.usage call.clientIp call.method =
        (limiter.serve call).2.usage call.clientIp call.method := by
  unfold serve allowRequest findRoute
  rw [routes]
  split
  · exact ⟨rfl, usage⟩
  · dsimp only
    rw [usage]
    split <;> exact ⟨rfl, by rw [record_self, record_self]⟩

/-- A bucket holds what the calls that are counted in it leave there. -/
theorem after_alone (method clientIp : Text) (calls : List LimitedCall)
    {limiter other : RateLimiter} (routes : other.routes = limiter.routes)
    (usage : other.usage clientIp method = limiter.usage clientIp method) :
    (other.after (calls.filter (LimitedCall.Same method clientIp))).routes =
        (limiter.after calls).routes ∧
      (other.after (calls.filter (LimitedCall.Same method clientIp))).usage clientIp method =
        (limiter.after calls).usage clientIp method := by
  induction calls generalizing limiter other with
  | nil => exact ⟨routes, usage⟩
  | cons call rest ih =>
    by_cases own : call.Same method clientIp
    · rw [List.filter_cons_of_pos (by simpa using own)]
      obtain ⟨rfl, rfl⟩ := own
      exact ih (by rw [serve_routes, serve_routes, routes]) (serve_alone routes usage).2
    · rw [List.filter_cons_of_neg (by simpa using own)]
      exact ih (by rw [serve_routes, routes]) (usage.trans (serve_usage_other own limiter).symm)

theorem serve_after_alone (calls : List LimitedCall) (call : LimitedCall) (limiter : RateLimiter) :
    ((limiter.after (calls.filter (LimitedCall.Same call.method call.clientIp))).serve call).1 =
      ((limiter.after calls).serve call).1 :=
  let ⟨routes, usage⟩ := after_alone call.method call.clientIp calls (rfl : limiter.routes = _) rfl
  (serve_alone routes usage).1

/-- Over separated metadata the calls of one peer are calls of one client. -/
theorem allowedOf_le (separated : Separated sends)
    (sent : ∀ call ∈ calls, sends call.peer call.metadata) (inside : Int → Bool)
    (peer method : Text) : ∃ clientIp, (allowedOf inside peer method calls).length ≤
      (allowedWithin inside method clientIp (calls.map PeerCall.limited)).length := by
  have counted : ∀ clientIp, (∀ call ∈ calls, call.peer = peer →
      getClientIp call.metadata = clientIp) → (allowedOf inside peer method calls).length ≤
        (allowedWithin inside method clientIp (calls.map PeerCall.limited)).length := by
    intro clientIp own
    rw [allowedWithin, List.filter_map, List.length_map, allowedOf,
      ← List.countP_eq_length_filter, ← List.countP_eq_length_filter]
    refine List.countP_mono_left fun call member kept => ?_
    simp only [decide_eq_true_eq] at kept
    simp only [Function.comp_apply, decide_eq_true_eq]
    exact ⟨⟨kept.2.1, own call member kept.1⟩, kept.2.2⟩
  by_cases known : ∃ metadata, sends peer metadata
  · obtain ⟨metadata, known⟩ := known
    refine ⟨getClientIp metadata, counted _ fun call member own => ?_⟩
    exact separated.one (sent call member) (own ▸ known)
  · refine ⟨[], counted _ fun call member own => ?_⟩
    exact absurd ⟨_, own ▸ sent call member⟩ known

theorem perClient_of_separated (most : ∀ route ∈ routes, 0 ≤ route.maxRequests)
    (separated : Separated sends) (sent : Sent sends calls) : PerClient routes calls where
  bounded peer method route found start := by
    have enough := most route (List.mem_of_find?_eq_some found)
    have each : ∀ inside : Int → Bool,
        (∀ a b, inside a = true → inside b = true → b - a < route.window) →
          ((allowedOf inside peer method ((new routes).allowedCalls calls)).length : Int) ≤
            route.maxRequests := by
      intro inside short
      obtain ⟨clientIp, fewer⟩ := allowedOf_le separated
        (fun call member => sent.metadata call (allowedCalls_subset _ _ call member)) inside peer
        method
      rw [allowedCalls_limited] at fewer
      exact (Int.ofNat_le.mpr fewer).trans (allowed_bounded sent.ticks found enough inside short)
    constructor <;> refine each _ fun a b insideA insideB => ?_ <;>
      simp only [decide_eq_true_eq] at insideA insideB <;> omega
  apart before call later split peer other allowed := by
    have whole : (before.map PeerCall.limited).filter
        (LimitedCall.Same call.limited.method call.limited.clientIp) =
          ((before.filter (·.peer ≠ peer)).map PeerCall.limited).filter
            (LimitedCall.Same call.limited.method call.limited.clientIp) := by
      rw [List.filter_map, List.filter_map, List.filter_filter]
      refine congrArg _ (List.filter_congr fun earlier member => ?_)
      by_cases own : earlier.limited.Same call.limited.method call.limited.clientIp
      · have same : earlier.peer = call.peer := by
          have first := sent.metadata earlier (by rw [split]; simp [member])
          have second := sent.metadata call (by rw [split]; simp)
          exact separated.two first second own.2
        simp [own, same, other.symm]
      · simp [own]
    rw [allowsAfter, ← serve_after_alone] at allowed ⊢
    rw [whole]
    exact allowed

theorem serve_burst {call : LimitedCall} {limiter : RateLimiter} {route : RouteConfig} {many : Nat}
    (found : limiter.findRoute call.method = some route) (window : 0 < route.window)
    (once : call.decidedAt = call.recordedAt)
    (usage : limiter.usage call.clientIp call.method = List.replicate many call.recordedAt) :
    (limiter.serve call).1 = decide ((many : Int) < route.maxRequests) ∧
      ((many : Int) < route.maxRequests → (limiter.serve call).2.usage call.clientIp call.method =
        List.replicate (many + 1) call.recordedAt) := by
  have kept : (List.replicate many call.recordedAt).dropWhile
      (· ≤ call.decidedAt - route.window) = List.replicate many call.recordedAt := by
    cases many with
    | zero => rfl
    | succ n => exact List.dropWhile_cons_of_neg (by simp only [decide_eq_true_eq]; omega)
  simp only [serve, allowRequest, found, usage, kept, List.length_replicate]
  by_cases full : route.maxRequests ≤ (many : Int)
  · rw [if_pos full]
    exact ⟨(decide_eq_false (by omega)).symm, fun room => absurd room (by omega)⟩
  · rw [if_neg full]
    refine ⟨(decide_eq_true (by omega)).symm, fun _ => ?_⟩
    rw [record_self, List.replicate_succ']

/-- A peer's calls at one moment are all allowed until the most requests are used up. -/
theorem allowedCalls_burst {call : PeerCall} {limiter : RateLimiter} {route : RouteConfig}
    (found : limiter.findRoute call.method = some route) (window : 0 < route.window)
    (once : call.decidedAt = call.recordedAt) {many : Nat}
    (usage : limiter.usage (getClientIp call.metadata) call.method =
      List.replicate many call.recordedAt) (more : Nat)
    (room : ((many + more : Nat) : Int) ≤ route.maxRequests) :
    limiter.allowedCalls (List.replicate more call) = List.replicate more call ∧
      (limiter.after ((List.replicate more call).map PeerCall.limited)).usage
        (getClientIp call.metadata) call.method = List.replicate (many + more) call.recordedAt := by
  induction more generalizing limiter many with
  | zero => exact ⟨rfl, usage⟩
  | succ more ih =>
    have vacant : (many : Int) < route.maxRequests := by omega
    obtain ⟨allowed, next⟩ := @serve_burst call.limited _ _ _ found window once usage
    have routed : (limiter.serve call.limited).2.findRoute call.method = some route := by
      rw [findRoute, serve_routes]
      exact found
    obtain ⟨rest, usage'⟩ := ih routed (next vacant) (by omega)
    rw [decide_eq_true vacant] at allowed
    constructor
    · rw [List.replicate_succ, allowedCalls, allowed, rest]
      rfl
    · rw [show many + (more + 1) = many + 1 + more by omega, ← usage']
      rfl

/-- Calls of one moment come in the order of the clock. -/
theorem ticks_moment {calls : List LimitedCall} {time : Int}
    (moment : ∀ call ∈ calls, call.decidedAt = time ∧ call.recordedAt = time) : Ticks calls := by
  refine ⟨fun call member => ?_, List.pairwise_of_forall_mem_list fun first before second after => ?_⟩
  · rw [(moment call member).1, (moment call member).2]
  · rw [(moment first before).2, (moment second after).1]

/-- As many calls as a route allows, and one more, which the peers send at one moment. -/
theorem sent_burst {first last : PeerCall} {more : Nat}
    (metadata : sends first.peer first.metadata) (metadata' : sends last.peer last.metadata) {time : Int}
    (moment : first.decidedAt = time ∧ first.recordedAt = time)
    (moment' : last.decidedAt = time ∧ last.recordedAt = time) :
    Sent sends (List.replicate more first ++ [last]) := by
  have among : ∀ call ∈ List.replicate more first ++ [last], call = first ∨ call = last := by
    intro call member
    rcases List.mem_append.mp member with burst | only
    · exact .inl (List.eq_of_mem_replicate burst)
    · exact .inr (List.mem_singleton.mp only)
  refine ⟨fun call member => ?_, @ticks_moment _ time fun limited member => ?_⟩
  · rcases among call member with rfl | rfl
    · exact metadata
    · exact metadata'
  · obtain ⟨call, burst, rfl⟩ := List.mem_map.mp member
    rcases among call burst with rfl | rfl
    · exact moment
    · exact moment'

section

variable {route : RouteConfig} {method : Text}

theorem serve_fresh (found : (new routes).findRoute method = some route)
    (permits : 0 < route.maxRequests) (window : 0 < route.window) {call : LimitedCall}
    (own : call.method = method) (once : call.decidedAt = call.recordedAt) :
    ((new routes).serve call).1 = true := by
  subst own
  exact (@serve_burst call _ _ 0 found window once rfl).1.trans (decide_eq_true permits)

/-- A peer that sends metadata for two clients has more calls allowed than the most requests. -/
theorem one_of_perClient (found : (new routes).findRoute method = some route)
    (permits : 0 < route.maxRequests) (window : 0 < route.window)
    (perClient : ∀ calls, Sent sends calls → PerClient routes calls)
    (known : sends peer first) (known' : sends peer second) :
    getClientIp first = getClientIp second := by
  by_contra apart
  obtain ⟨many, most⟩ := Int.eq_ofNat_of_zero_le permits.le
  let one : PeerCall := ⟨peer, method, first, 0, 0⟩
  let other : PeerCall := ⟨peer, method, second, 0, 0⟩
  have sent : Sent sends (List.replicate many one ++ [other]) :=
    @sent_burst _ one other many known known' 0 ⟨rfl, rfl⟩ ⟨rfl, rfl⟩
  obtain ⟨burst, -⟩ :=
    @allowedCalls_burst one (new routes) route found window rfl 0 rfl many (by omega)
  have unused : ((List.replicate many one).map PeerCall.limited).filter
      (LimitedCall.Same other.limited.method other.limited.clientIp) = [] := by
    refine List.filter_eq_nil_iff.mpr fun limited member => ?_
    rw [List.map_replicate] at member
    rw [List.eq_of_mem_replicate member]
    rw [decide_eq_true_eq]
    exact fun own => apart own.2
  have last : (((new routes).after ((List.replicate many one).map PeerCall.limited)).serve
      other.limited).1 = true := by
    rw [← serve_after_alone, unused]
    exact serve_fresh found permits window rfl rfl
  have all : (new routes).allowedCalls (List.replicate many one ++ [other]) =
      List.replicate many one ++ [other] := by
    rw [allowedCalls_append, burst, allowedCalls, last]
    rfl
  have counted := ((perClient _ sent).bounded peer method route found 0).2
  rw [all, allowedOf, List.filter_eq_self.mpr, List.length_append, List.length_replicate,
    List.length_singleton] at counted
  · omega
  · intro call member
    have moment : call.peer = peer ∧ call.method = method ∧ call.recordedAt = 0 := by
      rcases List.mem_append.mp member with burst | only
      · rw [List.eq_of_mem_replicate burst]
        exact ⟨rfl, rfl, rfl⟩
      · rw [List.mem_singleton.mp only]
        exact ⟨rfl, rfl, rfl⟩
    simpa [moment] using window

/-- A peer whose metadata give another's client has the other's calls refused. -/
theorem two_of_perClient (found : (new routes).findRoute method = some route)
    (permits : 0 < route.maxRequests) (window : 0 < route.window)
    (perClient : ∀ calls, Sent sends calls → PerClient routes calls)
    (known : sends peer first) (known' : sends other second)
    (same : getClientIp first = getClientIp second) : peer = other := by
  by_contra apart
  obtain ⟨many, most⟩ := Int.eq_ofNat_of_zero_le permits.le
  let own : PeerCall := ⟨peer, method, first, 0, 0⟩
  let foreign : PeerCall := ⟨other, method, second, 0, 0⟩
  have sent : Sent sends (List.replicate many foreign ++ [own]) :=
    @sent_burst _ foreign own many known' known 0 ⟨rfl, rfl⟩ ⟨rfl, rfl⟩
  have without : (List.replicate many foreign).filter (·.peer ≠ other) = [] := by
    refine List.filter_eq_nil_iff.mpr fun call member => ?_
    rw [List.eq_of_mem_replicate member]
    simp [foreign]
  have alone : allowsAfter routes ((List.replicate many foreign).filter (·.peer ≠ other)) own =
      true := by
    rw [without]
    exact serve_fresh found permits window rfl rfl
  have allowed := (perClient _ sent).apart _ own [] rfl other (Ne.symm apart) alone
  obtain ⟨-, used⟩ :=
    @allowedCalls_burst foreign (new routes) route found window rfl 0 rfl many (by omega)
  have refused := (@serve_burst own.limited _ _ _ ((after_findRoute _ _ method).trans found)
    window rfl (same ▸ used)).1
  rw [Nat.zero_add, decide_eq_false (by omega)] at refused
  exact Bool.false_ne_true (refused.symm.trans allowed)

theorem separated_of_perClient
    (found : (new routes).findRoute method = some route) (permits : 0 < route.maxRequests)
    (window : 0 < route.window)
    (perClient : ∀ calls, Sent sends calls → PerClient routes calls) : Separated sends :=
  ⟨one_of_perClient found permits window perClient, two_of_perClient found permits window perClient⟩

/-- The limiter counts every peer for itself exactly when the metadata tell the peers apart. -/
theorem perClient_iff_separated (most : ∀ route ∈ routes, 0 ≤ route.maxRequests)
    (found : (new routes).findRoute method = some route) (permits : 0 < route.maxRequests)
    (window : 0 < route.window) :
    (∀ calls, Sent sends calls → PerClient routes calls) ↔ Separated sends :=
  ⟨separated_of_perClient found permits window,
    fun separated _ sent => perClient_of_separated most separated sent⟩

end

/-- Two peers behind a proxy that writes their addresses. -/
def proxied (peer : Text) (metadata : Metadata) : Prop :=
  peer ∈ [lit "10.0.0.7", lit "10.0.0.8"] ∧ metadata = [(lit "x-forwarded-for", peer)]

theorem proxied_perClient :
    (∀ calls, Sent proxied calls → PerClient configuredRoutes calls) ↔ Separated proxied :=
  @perClient_iff_separated configuredRoutes proxied
    ⟨lit "/social.PostService/CreatePost", 5, 60⟩ (lit "/social.PostService/CreatePost")
    (by with_unfolding_all decide) (by with_unfolding_all decide) (by decide) (by decide)

/-- Six posts within a second, each with another forwarded address. -/
def sixPosts : List PeerCall :=
  [lit "1", lit "2", lit "3", lit "4", lit "5", lit "6"].map fun forwarded =>
    ⟨lit "10.0.0.7", lit "/social.PostService/CreatePost", [(lit "x-forwarded-for", forwarded)],
      100, 100⟩

theorem sixPosts_allowed :
    ¬∀ calls, Ticks (calls.map PeerCall.limited) → PerClient configuredRoutes calls := by
  intro perClient
  have kept := perClient sixPosts (by decide)
  have found : (new configuredRoutes).findRoute (lit "/social.PostService/CreatePost") =
      some ⟨lit "/social.PostService/CreatePost", 5, 60⟩ := by
    with_unfolding_all decide
  have counted := (kept.bounded (lit "10.0.0.7") _ _ found 100).2
  exact absurd counted (by with_unfolding_all decide)

end RateLimiter
end Crown
