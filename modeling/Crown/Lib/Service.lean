import Crown.Lib.InFlight
import Crown.Lib.Program
import Crown.Lib.Transition

/-! Calls that run at the same time over one shared state. Each performs the operations of
its program one at a time, in any order with those of the others. A call relies on what
every step of the others keeps. -/
namespace Lib

namespace Program

variable {Op : Type} {Reply : Op → Type} {ε α β σ : Type}

/-- Whenever the others let the program go on, in a valid state grown from the one it left,
its operation keeps the state valid and lets it grow, and the result is as `post` says. -/
def Safe (permits : Op → σ → Prop) (answer : Interpretation Op Reply σ) (valid : σ → Prop)
    (grows : σ → σ → Prop) (post : Except ε α → σ → Prop) : Program Op Reply ε α → σ → Prop
  | done result, s => ∀ t, valid t → grows s t → post result t
  | perform op next, s => ∀ t, valid t → grows s t → permits op t →
      valid (answer op t).2 ∧ grows t (answer op t).2 ∧
        (next (answer op t).1).Safe permits answer valid grows post (answer op t).2

variable {permits : Op → σ → Prop} {answer : Interpretation Op Reply σ} {valid : σ → Prop}
variable {grows : σ → σ → Prop} {post : Except ε α → σ → Prop}

/-- A safe program stays safe while the others take their steps. -/
theorem Safe.mono {p : Program Op Reply ε α} (safe : p.Safe permits answer valid grows post s)
    (trans : ∀ {s t u}, grows s t → grows t u → grows s u) (growth : grows s s') :
    p.Safe permits answer valid grows post s' := by
  cases p with
  | done result => exact fun t held later => safe t held (trans growth later)
  | perform op next => exact fun t held later => safe t held (trans growth later)

/-- A value computed without an operation is taken over, an exception ends the program. -/
theorem safe_done_bind {x : Except ε β} {rest : β → Program Op Reply ε α}
    (failed : ∀ e t, post (.error e) t)
    (later : ∀ b, x = .ok b → (rest b).Safe permits answer valid grows post s) :
    (done x >>= rest).Safe permits answer valid grows post s := by
  cases x with
  | ok b => exact later b rfl
  | error e => exact fun t _ _ => failed e t

/-- What a handler of exceptions makes of a result. -/
def recovered (handler : ε → α) : Except ε α → α
  | .ok a => a
  | .error e => handler e

theorem run_recover (handler : ε → α) (p : Program Op Reply ε α) (s : σ) :
    ((p.recover handler).run answer s).1 = .ok (recovered handler (p.run answer s).1) := by
  induction p generalizing s with
  | done result => cases result <;> rfl
  | perform op next ih => exact ih _ _

theorem safe_recover {handler : ε → α} {p : Program Op Reply ε α}
    (safe : p.Safe permits answer valid grows
      (fun result t => post (.ok (recovered handler result)) t) s) :
    (p.recover handler).Safe permits answer valid grows post s := by
  induction p generalizing s with
  | done result => cases result <;> exact safe
  | perform op next ih =>
    intro t held growth permitted
    obtain ⟨kept, grown, later⟩ := safe t held growth permitted
    exact ⟨kept, grown, ih _ later⟩

/-- Operations that keep the state valid and let it grow make a program safe that performs no
others. -/
theorem safe_of_within {allowed : Op → Prop} {p : Program Op Reply ε α}
    (within : p.Within allowed fun _ _ => True)
    (kept : ∀ op t, allowed op → valid t → permits op t →
      valid (answer op t).2 ∧ grows t (answer op t).2)
    (promised : ∀ result t, post result t) : p.Safe permits answer valid grows post s := by
  induction p generalizing s with
  | done result => exact fun t _ _ => promised result t
  | perform op next ih =>
    intro t held _ permitted
    obtain ⟨still, growth⟩ := kept op t within.1 held permitted
    exact ⟨still, growth, ih _ (within.2 _ trivial)⟩

/-- Behind such operations the rest is safe wherever they may have led. -/
theorem safe_within_bind {allowed : Op → Prop} {p : Program Op Reply ε β}
    {rest : β → Program Op Reply ε α} (within : p.Within allowed fun _ _ => True)
    (kept : ∀ op t, allowed op → valid t → permits op t →
      valid (answer op t).2 ∧ grows t (answer op t).2)
    (refl : ∀ s, grows s s) (trans : ∀ {s t u}, grows s t → grows t u → grows s u)
    (failed : ∀ e t, post (.error e) t)
    (later : ∀ b t, grows s t → (rest b).Safe permits answer valid grows post t) :
    (p >>= rest).Safe permits answer valid grows post s := by
  induction p generalizing s with
  | done result =>
    cases result with
    | ok b => exact later b s (refl s)
    | error e => exact fun t _ _ => failed e t
  | perform op next ih =>
    intro t held growth permitted
    obtain ⟨still, grown⟩ := kept op t within.1 held permitted
    refine ⟨still, grown, ih _ (within.2 _ trivial) fun b u behind => later b u ?_⟩
    exact trans growth (trans grown behind)

end Program

/-- `start` says what a call is to be known by and what its arrival does to the shared state,
`finish` what its end does; `outside` are the changes no call makes. -/
structure Service (Op : Type) (Reply : Op → Type) (ε α σ Tag Arrival Outside : Type) where
  start : Arrival → σ → Tag × σ
  body : Tag → Program Op Reply ε α
  answer : Tag → Program.Interpretation Op Reply σ
  finish : Tag → Except ε α → σ → σ
  outside : Outside → σ → σ

namespace Service

variable {Op : Type} {Reply : Op → Type} {ε α σ Tag Arrival Outside : Type}

/-- A call being served: what it still has to do. -/
structure Call (Op : Type) (Reply : Op → Type) (ε α Tag : Type) where
  tag : Tag
  program : Program Op Reply ε α

structure State (Op : Type) (Reply : Op → Type) (ε α σ Tag : Type) where
  shared : σ
  calls : List (Call Op Reply ε α Tag)

inductive Event (Arrival Outside : Type) where
  | start (arrival : Arrival)
  | advance (place : Nat)
  | finish (place : Nat)
  | outside (change : Outside)

def step (service : Service Op Reply ε α σ Tag Arrival Outside) (s : State Op Reply ε α σ Tag) :
    Event Arrival Outside → Option (State Op Reply ε α σ Tag)
  | .start arrival =>
    let (tag, shared) := service.start arrival s.shared
    some ⟨shared, s.calls ++ [⟨tag, service.body tag⟩]⟩
  | .advance place =>
    match s.calls[place]? with
    | some ⟨tag, .perform op next⟩ =>
      let (reply, shared) := service.answer tag op s.shared
      some ⟨shared, s.calls.set place ⟨tag, next reply⟩⟩
    | _ => none
  | .finish place =>
    match s.calls[place]? with
    | some ⟨tag, .done result⟩ =>
      some ⟨service.finish tag result s.shared, s.calls.eraseIdx place⟩
    | _ => none
  | .outside change => some { s with shared := service.outside change s.shared }

/-- The operation that a call is about to perform is permitted. -/
def Permitted (permits : Tag → Op → σ → Bool) (s : State Op Reply ε α σ Tag) :
    Event Arrival Outside → Bool
  | .advance place =>
    match s.calls[place]? with
    | some ⟨tag, .perform op _⟩ => permits tag op s.shared
    | _ => true
  | _ => true

/-- What makes calls safe together: a new call is safe, and neither an end nor a change from
outside breaks what the others rely on. -/
structure Contract (service : Service Op Reply ε α σ Tag Arrival Outside)
    (permits : Tag → Op → σ → Bool) (valid : σ → Prop) (grows : σ → σ → Prop)
    (post : Tag → Except ε α → σ → Prop) : Prop where
  refl : ∀ s, grows s s
  trans : ∀ {s t u}, grows s t → grows t u → grows s u
  started : ∀ arrival s, valid s →
    valid (service.start arrival s).2 ∧ grows s (service.start arrival s).2 ∧
      (service.body (service.start arrival s).1).Safe
        (fun op t => permits (service.start arrival s).1 op t = true)
        (service.answer (service.start arrival s).1) valid grows
        (post (service.start arrival s).1) (service.start arrival s).2
  finished : ∀ tag result s, valid s → post tag result s →
    valid (service.finish tag result s) ∧ grows s (service.finish tag result s)
  changed : ∀ change s, valid s →
    valid (service.outside change s) ∧ grows s (service.outside change s)

variable {service : Service Op Reply ε α σ Tag Arrival Outside}
variable {permits : Tag → Op → σ → Bool} {valid : σ → Prop} {grows : σ → σ → Prop}
variable {post : Tag → Except ε α → σ → Prop} {s s' : State Op Reply ε α σ Tag}

def SafeCall (service : Service Op Reply ε α σ Tag Arrival Outside)
    (permits : Tag → Op → σ → Bool) (valid : σ → Prop) (grows : σ → σ → Prop)
    (post : Tag → Except ε α → σ → Prop) (call : Call Op Reply ε α Tag) (s : σ) : Prop :=
  call.program.Safe (fun op t => permits call.tag op t = true) (service.answer call.tag) valid grows
    (post call.tag) s

/-- The shared state is valid and every call is safe. -/
structure Invariant (service : Service Op Reply ε α σ Tag Arrival Outside)
    (permits : Tag → Op → σ → Bool) (valid : σ → Prop) (grows : σ → σ → Prop)
    (post : Tag → Except ε α → σ → Prop) (s : State Op Reply ε α σ Tag) : Prop where
  shared : valid s.shared
  calls : ∀ call ∈ s.calls, SafeCall service permits valid grows post call s.shared

/-- A call that is done has the result it promised. -/
theorem Invariant.result (contract : Contract service permits valid grows post)
    (invariant : Invariant service permits valid grows post s)
    {call : Call Op Reply ε α Tag} {result : Except ε α} (member : call ∈ s.calls)
    (ended : call.program = .done result) :
    post call.tag result s.shared := by
  have safe := invariant.calls call member
  rw [SafeCall, ended] at safe
  exact safe s.shared invariant.shared (contract.refl _)

theorem Contract.step (contract : Contract service permits valid grows post)
    (invariant : Invariant service permits valid grows post s)
    (permitted : Permitted permits s event = true) (stepped : service.step s event = some s') :
    Invariant service permits valid grows post s' := by
  cases event with
  | start arrival =>
    obtain ⟨kept, growth, safe⟩ := contract.started arrival s.shared invariant.shared
    cases stepped
    refine ⟨kept, fun call member => ?_⟩
    rcases List.mem_append.mp member with other | new
    · exact (invariant.calls call other).mono contract.trans growth
    · rw [List.mem_singleton.mp new]
      exact safe
  | advance place =>
    simp only [Service.step, Permitted] at stepped permitted
    split at stepped
    · rename_i tag op next here
      rw [here] at permitted
      have own := invariant.calls _ (InFlight.mem_of_getElem? here)
      obtain ⟨kept, growth, safe⟩ :=
        own s.shared invariant.shared (contract.refl _) permitted
      cases stepped
      refine ⟨kept, fun call member => ?_⟩
      rcases (InFlight.mem_set_iff here _).mp member with rfl | other
      · exact safe
      · exact (invariant.calls call (InFlight.mem_of_mem_eraseIdx here other)).mono contract.trans
          growth
    · cases stepped
  | finish place =>
    simp only [Service.step] at stepped
    split at stepped
    · rename_i tag result here
      have promised := invariant.result contract (InFlight.mem_of_getElem? here) rfl
      obtain ⟨kept, growth⟩ := contract.finished tag result s.shared invariant.shared promised
      cases stepped
      refine ⟨kept, fun call member => ?_⟩
      exact (invariant.calls call (InFlight.mem_of_mem_eraseIdx here member)).mono contract.trans
        growth
    · cases stepped
  | outside change =>
    obtain ⟨kept, growth⟩ := contract.changed change s.shared invariant.shared
    cases stepped
    exact ⟨kept, fun call member => (invariant.calls call member).mono contract.trans growth⟩

/-- The runs in which every operation is permitted keep the state valid and the calls safe. -/
theorem Contract.run (contract : Contract service permits valid grows post) {start : σ}
    (first : valid start)
    (run : Run (Guarded (fun s event => Permitted permits s event = true)
      fun s event s' => service.step s event = some s') ⟨start, []⟩ events s) :
    Invariant service permits valid grows post s := by
  have held : Invariant service permits valid grows post ⟨start, []⟩ :=
    ⟨first, fun call member => by cases member⟩
  refine run.invariant held fun s event s' invariant stepped => ?_
  exact contract.step invariant stepped.1 stepped.2

/-- A call that no other interrupts ends as its program run in one go. -/
theorem advance_alone (service : Service Op Reply ε α σ Tag Arrival Outside) (tag : Tag)
    (p : Program Op Reply ε α) (s : σ) :
    ∃ steps : Nat, execute service.step (List.replicate steps (.advance 0)) ⟨s, [⟨tag, p⟩]⟩ =
      some ⟨(p.run (service.answer tag) s).2, [⟨tag, .done (p.run (service.answer tag) s).1⟩]⟩ := by
  induction p generalizing s with
  | done result => exact ⟨0, rfl⟩
  | perform op next ih =>
    obtain ⟨steps, rest⟩ := ih (service.answer tag op s).1 (service.answer tag op s).2
    exact ⟨steps + 1, rest⟩

end Service
end Lib
