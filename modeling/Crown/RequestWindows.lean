import Crown.Lib.SlidingWindow
import Crown.Ratelimit

/-! The limiter answers like one that never forgets, which keeps every allowed call and
counts the ones in the window. -/
namespace Crown

open Lib

/-- A call as the limiter sees it: the clock read for the decision, and read again for
the time recorded. -/
structure LimitedCall where
  method : Text
  clientIp : Text
  decidedAt : Int
  recordedAt : Int
  deriving DecidableEq

/-- The readings of the clock never decrease. -/
structure Ticks (calls : List LimitedCall) : Prop where
  each : ∀ call ∈ calls, call.decidedAt ≤ call.recordedAt
  between : calls.Pairwise fun earlier later => earlier.recordedAt ≤ later.decidedAt

instance (calls : List LimitedCall) : Decidable (Ticks calls) :=
  decidable_of_iff ((∀ call ∈ calls, call.decidedAt ≤ call.recordedAt) ∧
      calls.Pairwise fun earlier later => earlier.recordedAt ≤ later.decidedAt)
    ⟨fun ⟨each, between⟩ => ⟨each, between⟩, fun ticks => ⟨ticks.each, ticks.between⟩⟩

namespace LimitedCall

def Same (method clientIp : Text) (call : LimitedCall) : Prop :=
  call.method = method ∧ call.clientIp = clientIp

instance (method clientIp : Text) : DecidablePred (Same method clientIp) := fun _ =>
  inferInstanceAs (Decidable (_ ∧ _))

end LimitedCall

namespace RateLimiter

def new (routes : List RouteConfig) : RateLimiter := ⟨routes, fun _ _ => []⟩

def serve (call : LimitedCall) (limiter : RateLimiter) : Bool × RateLimiter :=
  limiter.allowRequest call.decidedAt call.recordedAt call.method call.clientIp

def after (calls : List LimitedCall) (limiter : RateLimiter) : RateLimiter :=
  calls.foldl (fun limiter call => (limiter.serve call).2) limiter

def answers : List LimitedCall → RateLimiter → List Bool
  | [], _ => []
  | call :: rest, limiter => (limiter.serve call).1 :: answers rest (limiter.serve call).2

def allowed : List LimitedCall → RateLimiter → List LimitedCall
  | [], _ => []
  | call :: rest, limiter =>
    (if (limiter.serve call).1 then [call] else []) ++ allowed rest (limiter.serve call).2

theorem record_self (method clientIp : Text) (timestamps : List Int) (limiter : RateLimiter) :
    (limiter.record method clientIp timestamps).usage clientIp method = timestamps := by
  simp [record]

theorem record_other (other : ¬(method' = method ∧ clientIp' = clientIp)) (timestamps : List Int)
    (limiter : RateLimiter) :
    (limiter.record method clientIp timestamps).usage clientIp' method' =
      limiter.usage clientIp' method' := by
  by_cases client : clientIp' = clientIp
  · subst client
    have method : method' ≠ method := fun same => other ⟨same, rfl⟩
    simp [record, Function.update_of_ne method]
  · simp [record, Function.update_of_ne client]

end RateLimiter

/-- The limiter that never forgets. -/
structure NaiveLimiter where
  routes : List RouteConfig
  allowed : List LimitedCall

namespace NaiveLimiter

def new (routes : List RouteConfig) : NaiveLimiter := ⟨routes, []⟩

/-- The times of the allowed calls of one client and method. -/
def times (method clientIp : Text) (naive : NaiveLimiter) : List Int :=
  (naive.allowed.filter (LimitedCall.Same method clientIp)).map (·.recordedAt)

/-- Allowed while fewer than the most requests were recorded after `now - window` and not
after `now`. -/
def serve (call : LimitedCall) (naive : NaiveLimiter) : Bool × NaiveLimiter :=
  match naive.routes.find? fun route => call.method.contains route.method with
  | none => (true, { naive with allowed := naive.allowed ++ [call] })
  | some route =>
    let recent := (naive.times call.method call.clientIp).filter fun time =>
      call.decidedAt - route.window < time ∧ time ≤ call.decidedAt
    if (recent.length : Int) < route.maxRequests then
      (true, { naive with allowed := naive.allowed ++ [call] })
    else (false, naive)

def after (calls : List LimitedCall) (naive : NaiveLimiter) : NaiveLimiter :=
  calls.foldl (fun naive call => (naive.serve call).2) naive

def answers : List LimitedCall → NaiveLimiter → List Bool
  | [], _ => []
  | call :: rest, naive => (naive.serve call).1 :: answers rest (naive.serve call).2

def admitted : List LimitedCall → NaiveLimiter → List LimitedCall
  | [], _ => []
  | call :: rest, naive =>
    (if (naive.serve call).1 then [call] else []) ++ admitted rest (naive.serve call).2

end NaiveLimiter

theorem NaiveLimiter.times_append (naive : NaiveLimiter) (call : LimitedCall)
    (method clientIp : Text) :
    NaiveLimiter.times method clientIp { naive with allowed := naive.allowed ++ [call] } =
      naive.times method clientIp ++
        if call.Same method clientIp then [call.recordedAt] else [] := by
  simp only [times, List.filter_append, List.map_append]
  by_cases same : call.Same method clientIp <;> simp [same]

/-- What the limiter has kept of the recorded times at `now`. -/
structure Refines (now : Int) (limiter : RateLimiter) (naive : NaiveLimiter) : Prop where
  routes : naive.routes = limiter.routes
  times : ∀ method clientIp, SlidingWindow.Recorded now (naive.times method clientIp)
  usage : ∀ method clientIp, SlidingWindow.Recorded now (limiter.usage clientIp method)
  keeps : ∀ method clientIp route, limiter.findRoute method = some route →
    SlidingWindow.Keeps (now - route.window) (naive.times method clientIp)
      (limiter.usage clientIp method)

namespace Refines

variable {limiter : RateLimiter} {naive : NaiveLimiter} {call : LimitedCall} {now : Int}
variable {route : RouteConfig}

theorem start (routes : List RouteConfig) (now : Int) :
    Refines now (.new routes) (.new routes) :=
  ⟨rfl, fun _ _ => ⟨.nil, by simp [NaiveLimiter.times, NaiveLimiter.new]⟩,
    fun _ _ => ⟨.nil, by simp [RateLimiter.new]⟩, fun _ _ _ _ => .refl _ _⟩

/-- What is left after pruning is what the naive limiter counts. -/
theorem pruned (refines : Refines now limiter naive) (next : now ≤ call.decidedAt)
    (found : limiter.findRoute call.method = some route) :
    (limiter.usage call.clientIp call.method).dropWhile (· ≤ call.decidedAt - route.window) =
      (naive.times call.method call.clientIp).filter fun time =>
        call.decidedAt - route.window < time ∧ time ≤ call.decidedAt := by
  have kept := refines.keeps call.method call.clientIp route found
    (call.decidedAt - route.window) (by omega)
  rw [SlidingWindow.dropWhile_eq_young (refines.usage call.method call.clientIp).sorted, kept]
  refine List.filter_congr fun time member => ?_
  have past := (refines.times call.method call.clientIp).past time member
  have before : time ≤ call.decidedAt := past.trans next
  simp [before]

/-- Both have the time of an allowed call, or neither. -/
theorem recorded (refines : Refines now limiter naive) (next : now ≤ call.decidedAt)
    (each : call.decidedAt ≤ call.recordedAt) (found : limiter.findRoute call.method = some route)
    (kept : SlidingWindow.Keeps (call.decidedAt - route.window)
      (naive.times call.method call.clientIp) timestamps)
    (inOrder : SlidingWindow.Recorded now timestamps) :
    Refines call.recordedAt
      (limiter.record call.method call.clientIp (timestamps ++ [call.recordedAt]))
      { naive with allowed := naive.allowed ++ [call] } := by
  have later : now ≤ call.recordedAt := next.trans each
  refine ⟨refines.routes, fun method clientIp => ?_, fun method clientIp => ?_,
    fun method clientIp route' found' => ?_⟩ <;>
    by_cases same : call.Same method clientIp
  · rw [naive.times_append, if_pos same]
    exact (refines.times method clientIp).append later
  · rw [naive.times_append, if_neg same, List.append_nil]
    exact (refines.times method clientIp).later later
  · obtain ⟨rfl, rfl⟩ := same
    rw [RateLimiter.record_self]
    exact inOrder.append later
  · rw [RateLimiter.record_other fun ⟨m, c⟩ => same ⟨m.symm, c.symm⟩]
    exact (refines.usage method clientIp).later later
  · obtain ⟨rfl, rfl⟩ := same
    obtain rfl : route = route' := Option.some.inj (found.symm.trans found')
    rw [naive.times_append, if_pos ⟨rfl, rfl⟩, RateLimiter.record_self]
    exact (kept.append call.recordedAt).mono (by omega)
  · rw [naive.times_append, if_neg same, List.append_nil,
      RateLimiter.record_other fun ⟨m, c⟩ => same ⟨m.symm, c.symm⟩]
    exact (refines.keeps method clientIp route' found').mono (by omega)

/-- A refused call leaves pruned times behind. -/
theorem refused (refines : Refines now limiter naive) (next : now ≤ call.decidedAt)
    (each : call.decidedAt ≤ call.recordedAt) (found : limiter.findRoute call.method = some route)
    (kept : SlidingWindow.Keeps (call.decidedAt - route.window)
      (naive.times call.method call.clientIp) timestamps)
    (inOrder : SlidingWindow.Recorded now timestamps) :
    Refines call.recordedAt (limiter.record call.method call.clientIp timestamps) naive := by
  have later : now ≤ call.recordedAt := next.trans each
  refine ⟨refines.routes, fun method clientIp => (refines.times method clientIp).later later,
    fun method clientIp => ?_, fun method clientIp route' found' => ?_⟩ <;>
    by_cases same : call.Same method clientIp
  · obtain ⟨rfl, rfl⟩ := same
    rw [RateLimiter.record_self]
    exact inOrder.later later
  · rw [RateLimiter.record_other fun ⟨m, c⟩ => same ⟨m.symm, c.symm⟩]
    exact (refines.usage method clientIp).later later
  · obtain ⟨rfl, rfl⟩ := same
    obtain rfl : route = route' := Option.some.inj (found.symm.trans found')
    rw [RateLimiter.record_self]
    exact kept.mono (by omega)
  · rw [RateLimiter.record_other fun ⟨m, c⟩ => same ⟨m.symm, c.symm⟩]
    exact (refines.keeps method clientIp route' found').mono (by omega)

/-- A call without a route is allowed and recorded by the naive limiter only. -/
theorem unlimited (refines : Refines now limiter naive) (next : now ≤ call.decidedAt)
    (each : call.decidedAt ≤ call.recordedAt) (free : limiter.findRoute call.method = none) :
    Refines call.recordedAt limiter { naive with allowed := naive.allowed ++ [call] } := by
  have later : now ≤ call.recordedAt := next.trans each
  refine ⟨refines.routes, fun method clientIp => ?_,
    fun method clientIp => (refines.usage method clientIp).later later,
    fun method clientIp route found => ?_⟩ <;> rw [naive.times_append]
  · split
    · exact (refines.times method clientIp).append later
    · rw [List.append_nil]
      exact (refines.times method clientIp).later later
  · have other : ¬call.Same method clientIp := by
      rintro ⟨rfl, _⟩
      rw [free] at found
      cases found
    rw [if_neg other, List.append_nil]
    exact (refines.keeps method clientIp route found).mono (by omega)

/-- A call is answered alike. -/
theorem serve (refines : Refines now limiter naive) (next : now ≤ call.decidedAt)
    (each : call.decidedAt ≤ call.recordedAt) :
    (limiter.serve call).1 = (naive.serve call).1 ∧
      Refines call.recordedAt (limiter.serve call).2 (naive.serve call).2 := by
  have routed : (naive.routes.find? fun route => call.method.contains route.method) =
      limiter.findRoute call.method := by
    rw [refines.routes]
    rfl
  simp only [RateLimiter.serve, RateLimiter.allowRequest, NaiveLimiter.serve, routed]
  cases found : limiter.findRoute call.method with
  | none => exact ⟨rfl, refines.unlimited next each found⟩
  | some route =>
    have inOrder := refines.usage call.method call.clientIp
    have young : (limiter.usage call.clientIp call.method).dropWhile
        (· ≤ call.decidedAt - route.window) = SlidingWindow.young _ _ :=
      SlidingWindow.dropWhile_eq_young inOrder.sorted
    have kept : SlidingWindow.Keeps (call.decidedAt - route.window)
        (naive.times call.method call.clientIp)
        ((limiter.usage call.clientIp call.method).dropWhile (· ≤ call.decidedAt - route.window)) := by
      rw [young]
      exact ((refines.keeps call.method call.clientIp route found).mono (by omega)).young
    have pruned := refines.pruned next found
    dsimp only
    rw [← pruned]
    by_cases full : route.maxRequests ≤
        ((limiter.usage call.clientIp call.method).dropWhile
          (· ≤ call.decidedAt - route.window)).length
    · rw [if_pos full, if_neg (by omega)]
      exact ⟨rfl, refines.refused next each found kept (young ▸ inOrder.young _)⟩
    · rw [if_neg full, if_pos (by omega)]
      exact ⟨rfl, refines.recorded next each found kept (young ▸ inOrder.young _)⟩

end Refines

theorem Ticks.cons (ticks : Ticks (call :: rest)) :
    call.decidedAt ≤ call.recordedAt ∧ (∀ later ∈ rest, call.recordedAt ≤ later.decidedAt) ∧
      Ticks rest :=
  ⟨ticks.each call List.mem_cons_self, (List.pairwise_cons.mp ticks.between).1,
    fun later member => ticks.each later (List.mem_cons_of_mem _ member),
    (List.pairwise_cons.mp ticks.between).2⟩

theorem Ticks.sublist {calls some : List LimitedCall} (ticks : Ticks calls)
    (fewer : List.Sublist some calls) : Ticks some :=
  ⟨fun call member => ticks.each call (fewer.subset member), ticks.between.sublist fewer⟩

/-- The calls of a run are answered alike, and so is what comes after. -/
theorem Refines.run {limiter : RateLimiter} {naive : NaiveLimiter}
    (refines : Refines now limiter naive) (ticks : Ticks calls)
    (next : ∀ call ∈ calls, now ≤ call.decidedAt) :
    limiter.answers calls = naive.answers calls ∧ limiter.allowed calls = naive.admitted calls := by
  induction calls generalizing limiter naive now with
  | nil => exact ⟨rfl, rfl⟩
  | cons call rest ih =>
    obtain ⟨each, between, ticks⟩ := ticks.cons
    obtain ⟨same, later⟩ := refines.serve (next call List.mem_cons_self) each
    obtain ⟨answers, allowed⟩ := ih later ticks between
    constructor
    · rw [RateLimiter.answers, NaiveLimiter.answers, same, answers]
    · rw [RateLimiter.allowed, NaiveLimiter.admitted, same, allowed]

namespace NaiveLimiter

variable {naive purged : NaiveLimiter} {call : LimitedCall} {method clientIp : Text}

theorem serve_allowed (naive : NaiveLimiter) (call : LimitedCall) :
    (naive.serve call).2 =
      if (naive.serve call).1 then { naive with allowed := naive.allowed ++ [call] } else naive := by
  unfold serve
  split
  · rfl
  · dsimp only
    split <;> rfl

@[simp] theorem serve_routes (naive : NaiveLimiter) (call : LimitedCall) :
    (naive.serve call).2.routes = naive.routes := by
  rw [serve_allowed]
  split <;> rfl

theorem serve_times (naive : NaiveLimiter) (call : LimitedCall) (method clientIp : Text) :
    (naive.serve call).2.times method clientIp = naive.times method clientIp ++
      if (naive.serve call).1 = true ∧ call.Same method clientIp then [call.recordedAt] else [] := by
  rw [serve_allowed]
  cases (naive.serve call).1 with
  | true => simp only [if_true, times_append, true_and]
  | false => simp

/-- The answer depends on the routes and the times of the same client and method only. -/
theorem serve_congr (routes : purged.routes = naive.routes)
    (times : purged.times call.method call.clientIp = naive.times call.method call.clientIp) :
    (purged.serve call).1 = (naive.serve call).1 := by
  unfold serve
  rw [routes, times]
  split
  · rfl
  · dsimp only
    split <;> rfl

/-- What is refused, or is of others, may be left out. -/
theorem replay (method clientIp : Text) (naive purged : NaiveLimiter) (calls : List LimitedCall)
    (routes : purged.routes = naive.routes)
    (same : purged.times method clientIp = naive.times method clientIp) :
    (purged.after ((naive.admitted calls).filter (LimitedCall.Same method clientIp))).routes =
        (naive.after calls).routes ∧
      (purged.after ((naive.admitted calls).filter (LimitedCall.Same method clientIp))).times
        method clientIp = (naive.after calls).times method clientIp := by
  induction calls generalizing naive purged with
  | nil => exact ⟨routes, same⟩
  | cons call rest ih =>
    have served := naive.serve_times call method clientIp
    rw [admitted, List.filter_append]
    by_cases own : call.Same method clientIp
    · cases allowed : (naive.serve call).1 with
      | true =>
        obtain ⟨rfl, rfl⟩ := own
        have own : call.Same call.method call.clientIp := ⟨rfl, rfl⟩
        have again : (purged.serve call).1 = true := (serve_congr routes same).trans allowed
        have times : (purged.serve call).2.times call.method call.clientIp =
            (naive.serve call).2.times call.method call.clientIp := by
          rw [served, purged.serve_times, same, again, allowed]
        have first : (if true = true then [call] else []).filter
            (LimitedCall.Same call.method call.clientIp) = [call] := by
          simp [own]
        rw [first]
        exact ih _ _ (by rw [serve_routes, serve_routes, routes]) times
      | false =>
        rw [allowed, if_neg (by simp), List.append_nil] at served
        rw [if_neg (by simp), List.filter_nil, List.nil_append]
        exact ih _ _ (by rw [serve_routes, routes]) (same.trans served.symm)
    · rw [if_neg fun kept => own kept.2, List.append_nil] at served
      have first : (if (naive.serve call).1 = true then [call] else []).filter
          (LimitedCall.Same method clientIp) = [] := by
        split <;> simp [own]
      rw [first, List.nil_append]
      exact ih _ _ (by rw [serve_routes, routes]) (same.trans served.symm)

/-- However the intervals of the length of a window are placed, no more are allowed in one
than the most requests. -/
structure Bounded (route : RouteConfig) (times : List Int) : Prop where
  most : 0 ≤ route.maxRequests
  within : ∀ inside : Int → Bool,
    (∀ a b, inside a = true → inside b = true → b - a < route.window) →
      ((times.filter inside).length : Int) ≤ route.maxRequests

theorem bounded_append {route : RouteConfig} {times : List Int} {decidedAt time : Int}
    (bounded : Bounded route times) (past : ∀ earlier ∈ times, earlier ≤ decidedAt)
    (each : decidedAt ≤ time)
    (room : ((times.filter fun earlier =>
      decidedAt - route.window < earlier ∧ earlier ≤ decidedAt).length : Int) < route.maxRequests) :
    Bounded route (times ++ [time]) := by
  refine ⟨bounded.most, fun inside short => ?_⟩
  rw [List.filter_append, List.length_append]
  cases last : inside time with
  | false => simpa [last] using bounded.within inside short
  | true =>
    have fewer : (times.filter inside).length ≤ (times.filter fun earlier =>
        decidedAt - route.window < earlier ∧ earlier ≤ decidedAt).length := by
      rw [← List.countP_eq_length_filter, ← List.countP_eq_length_filter]
      refine List.countP_mono_left fun earlier member kept => ?_
      have close := short earlier time kept last
      have before := past earlier member
      simp only [decide_eq_true_eq]
      omega
    simp only [last, List.filter_cons, if_true, List.filter_nil, List.length_cons, List.length_nil]
    omega

theorem room_of_allowed {route : RouteConfig}
    (found : (naive.routes.find? fun route => call.method.contains route.method) = some route)
    (allowed : (naive.serve call).1 = true) :
    (((naive.times call.method call.clientIp).filter fun time =>
      call.decidedAt - route.window < time ∧ time ≤ call.decidedAt).length : Int) <
        route.maxRequests := by
  simp only [serve, found] at allowed
  split at allowed
  · assumption
  · cases allowed

theorem after_bounded {route : RouteConfig} (calls : List LimitedCall)
    (found : (naive.routes.find? fun route => method.contains route.method) = some route)
    (bounded : Bounded route (naive.times method clientIp))
    (past : ∀ time ∈ naive.times method clientIp, time ≤ now) (ticks : Ticks calls)
    (next : ∀ call ∈ calls, now ≤ call.decidedAt) :
    Bounded route ((naive.after calls).times method clientIp) := by
  induction calls generalizing naive now with
  | nil => exact bounded
  | cons call rest ih =>
    obtain ⟨each, between, ticks⟩ := ticks.cons
    have later := (next call List.mem_cons_self)
    have served := naive.serve_times call method clientIp
    by_cases kept : (naive.serve call).1 = true ∧ call.Same method clientIp
    · rw [if_pos kept] at served
      obtain ⟨allowed, rfl, rfl⟩ := kept
      refine ih (by rwa [serve_routes]) ?_ ?_ ticks between
      · rw [served]
        exact bounded_append bounded (fun time member => (past time member).trans later) each
          (room_of_allowed found allowed)
      · intro time member
        rw [served] at member
        rcases List.mem_append.mp member with earlier | only
        · exact ((past time earlier).trans later).trans each
        · rw [List.mem_singleton.mp only]
    · rw [if_neg kept, List.append_nil] at served
      refine ih (by rwa [serve_routes]) (served ▸ bounded) ?_ ticks between
      intro time member
      exact ((past time (served ▸ member)).trans later).trans each

theorem after_allowed (calls : List LimitedCall) (naive : NaiveLimiter) :
    (naive.after calls).allowed = naive.allowed ++ naive.admitted calls := by
  induction calls generalizing naive with
  | nil => exact (List.append_nil _).symm
  | cons call rest ih =>
    have served : (naive.serve call).2.allowed =
        naive.allowed ++ if (naive.serve call).1 then [call] else [] := by
      rw [serve_allowed]
      split <;> simp
    rw [admitted, ← List.append_assoc, ← served]
    exact ih _

theorem answers_append (calls : List LimitedCall) (call : LimitedCall) (naive : NaiveLimiter) :
    naive.answers (calls ++ [call]) = naive.answers calls ++ [((naive.after calls).serve call).1] := by
  induction calls generalizing naive with
  | nil => rfl
  | cons first rest ih =>
    rw [List.cons_append, answers, ih, answers]
    rfl

theorem new_times (routes : List RouteConfig) (calls : List LimitedCall) (method clientIp : Text) :
    ((new routes).after calls).times method clientIp =
      (((new routes).admitted calls).filter (LimitedCall.Same method clientIp)).map (·.recordedAt) := by
  rw [times, after_allowed]
  rfl

end NaiveLimiter

theorem Ticks.earliest (ticks : Ticks calls) : ∃ now, ∀ call ∈ calls, now ≤ call.decidedAt := by
  cases calls with
  | nil => exact ⟨0, fun call member => by cases member⟩
  | cons first rest =>
    obtain ⟨each, between, _⟩ := ticks.cons
    refine ⟨first.decidedAt, fun call member => ?_⟩
    rcases List.mem_cons.mp member with rfl | later
    · exact Int.le_refl _
    · exact each.trans (between call later)

namespace RateLimiter

theorem answers_append (calls : List LimitedCall) (call : LimitedCall) (limiter : RateLimiter) :
    limiter.answers (calls ++ [call]) =
      limiter.answers calls ++ [((limiter.after calls).serve call).1] := by
  induction calls generalizing limiter with
  | nil => rfl
  | cons first rest ih =>
    rw [List.cons_append, answers, ih, answers]
    rfl

theorem allowed_sublist (calls : List LimitedCall) (limiter : RateLimiter) :
    (limiter.allowed calls).Sublist calls := by
  induction calls generalizing limiter with
  | nil => exact .slnil
  | cons call rest ih =>
    rw [allowed]
    split
    · exact (ih _).cons_cons call
    · exact (ih _).cons call

variable {routes : List RouteConfig} {calls : List LimitedCall} {call : LimitedCall}

theorem new_refines (routes : List RouteConfig) (ticks : Ticks calls) :
    (new routes).answers calls = (NaiveLimiter.new routes).answers calls ∧
      (new routes).allowed calls = (NaiveLimiter.new routes).admitted calls := by
  obtain ⟨now, next⟩ := ticks.earliest
  exact (Refines.start routes now).run ticks next

/-- The last call of a run is answered alike. -/
theorem serve_new (ticks : Ticks (calls ++ [call])) :
    (((new routes).after calls).serve call).1 =
      (((NaiveLimiter.new routes).after calls).serve call).1 := by
  have same := (new_refines routes ticks).1
  rw [answers_append, NaiveLimiter.answers_append] at same
  exact List.head_eq_of_cons_eq (List.append_inj_right' same rfl)

/-- The allowed calls of one client and method, recorded at a time inside. -/
def allowedWithin (inside : Int → Bool) (method clientIp : Text) (calls : List LimitedCall) :
    List LimitedCall :=
  calls.filter fun call => call.Same method clientIp ∧ inside call.recordedAt

theorem allowedWithin_length (inside : Int → Bool) (method clientIp : Text)
    (calls : List LimitedCall) :
    (allowedWithin inside method clientIp calls).length =
      (((calls.filter (LimitedCall.Same method clientIp)).map (·.recordedAt)).filter inside).length := by
  rw [List.filter_map, List.length_map, List.filter_filter, allowedWithin]
  congr 1
  refine List.filter_congr fun call _ => ?_
  rw [Bool.eq_iff_iff]
  simp [and_comm]

/-- In no interval shorter than the window are more calls allowed than the most requests. -/
theorem allowed_bounded {route : RouteConfig} (ticks : Ticks calls)
    (found : (new routes).findRoute method = some route) (most : 0 ≤ route.maxRequests)
    (inside : Int → Bool)
    (short : ∀ a b, inside a = true → inside b = true → b - a < route.window) :
    ((allowedWithin inside method clientIp ((new routes).allowed calls)).length : Int) ≤
      route.maxRequests := by
  obtain ⟨now, next⟩ := ticks.earliest
  rw [allowedWithin_length, (new_refines routes ticks).2, ← NaiveLimiter.new_times]
  have empty : NaiveLimiter.Bounded route ((NaiveLimiter.new routes).times method clientIp) :=
    ⟨most, fun _ _ => most⟩
  have routed : ((NaiveLimiter.new routes).routes.find? fun route =>
      method.contains route.method) = some route := found
  exact (NaiveLimiter.after_bounded calls routed empty (fun _ member => by cases member) ticks
    next).within inside short

/-- Refused calls and calls of others leave no trace in the answer. -/
theorem serve_purged (ticks : Ticks (calls ++ [call])) :
    (((new routes).after calls).serve call).1 = (((new routes).after
      (((new routes).allowed calls).filter
        (LimitedCall.Same call.method call.clientIp))).serve call).1 := by
  have before : Ticks calls := ticks.sublist (List.sublist_append_left ..)
  have own : Ticks (((new routes).allowed calls).filter
      (LimitedCall.Same call.method call.clientIp) ++ [call]) :=
    ticks.sublist ((List.filter_sublist.trans (allowed_sublist calls _)).append_right _)
  obtain ⟨sameRoutes, sameTimes⟩ := NaiveLimiter.replay call.method call.clientIp
    (NaiveLimiter.new routes) (NaiveLimiter.new routes) calls rfl rfl
  rw [serve_new ticks, serve_new own, (new_refines routes before).2]
  exact (NaiveLimiter.serve_congr sameRoutes sameTimes).symm

/-- Over every run the limiter answers like the one that never forgets; in no interval of
the length of the window are more calls allowed than the most requests; and the answer to
a call is the one given after the allowed calls of the same client and method alone. -/
theorem run_refines (routes : List RouteConfig)
    (most : ∀ route ∈ routes, 0 ≤ route.maxRequests ∧ 0 ≤ route.window)
    (calls : List LimitedCall) (ticks : Ticks calls) :
    (new routes).answers calls = (NaiveLimiter.new routes).answers calls ∧
      (∀ method clientIp route, (new routes).findRoute method = some route → ∀ start,
        ((allowedWithin (fun time => start < time ∧ time ≤ start + route.window) method clientIp
          ((new routes).allowed calls)).length : Int) ≤ route.maxRequests ∧
        ((allowedWithin (fun time => start ≤ time ∧ time < start + route.window) method clientIp
          ((new routes).allowed calls)).length : Int) ≤ route.maxRequests) ∧
      ∀ call, Ticks (calls ++ [call]) →
        (((new routes).after calls).serve call).1 = (((new routes).after
          (((new routes).allowed calls).filter
            (LimitedCall.Same call.method call.clientIp))).serve call).1 := by
  refine ⟨(new_refines routes ticks).1, fun method clientIp route found start => ?_,
    fun call ticks => serve_purged ticks⟩
  have enough := (most route (List.mem_of_find?_eq_some found)).1
  constructor <;> refine allowed_bounded ticks found enough _ fun a b insideA insideB => ?_ <;>
    simp only [decide_eq_true_eq] at insideA insideB <;> omega

/-- Two posts of one client within a minute. -/
theorem twoPosts_refine :
    let method := lit "/social.PostService/CreatePost"
    let calls : List LimitedCall := [⟨method, lit "10.0.0.7", 100, 100⟩, ⟨method, lit "10.0.0.7", 130, 131⟩]
    (new configuredRoutes).answers calls = (NaiveLimiter.new configuredRoutes).answers calls ∧
      (∀ method clientIp route, (new configuredRoutes).findRoute method = some route → ∀ start,
        ((allowedWithin (fun time => start < time ∧ time ≤ start + route.window) method clientIp
          ((new configuredRoutes).allowed calls)).length : Int) ≤ route.maxRequests ∧
        ((allowedWithin (fun time => start ≤ time ∧ time < start + route.window) method clientIp
          ((new configuredRoutes).allowed calls)).length : Int) ≤ route.maxRequests) ∧
      ∀ call, Ticks (calls ++ [call]) →
        (((new configuredRoutes).after calls).serve call).1 = (((new configuredRoutes).after
          (((new configuredRoutes).allowed calls).filter
            (LimitedCall.Same call.method call.clientIp))).serve call).1 :=
  run_refines configuredRoutes (by decide) _ (by decide)

end RateLimiter

end Crown
