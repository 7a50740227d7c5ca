import Mathlib

/-! Runs of labelled transition relations. -/
namespace Lib

variable {σ σ' ε : Type}

/-- The states reached on the way are the ends of shorter runs. -/
inductive Run (step : σ → ε → σ → Prop) : σ → List ε → σ → Prop where
  | nil : Run step s [] s
  | snoc : Run step s events t → step t e u → Run step s (events ++ [e]) u

/-- The steps taken where a condition on the event and the state before it holds. -/
def Guarded (condition : σ → ε → Prop) (step : σ → ε → σ → Prop) (s : σ) (e : ε) (t : σ) : Prop :=
  condition s e ∧ step s e t

namespace Run

variable {step : σ → ε → σ → Prop}

/-- What holds at the start and is kept by every step holds after every run. -/
theorem invariant {Invariant : σ → Prop} (run : Run step s events t) (start : Invariant s)
    (kept : ∀ s e t, Invariant s → step s e t → Invariant t) : Invariant t := by
  induction run with
  | nil => exact start
  | snoc _ last ih => exact kept _ _ _ ih last

/-- A run of a step function. -/
theorem foldl (step : σ → ε → σ) (events : List ε) (s : σ) :
    Run (fun s e t => t = step s e) s events (events.foldl step s) := by
  induction events using List.reverseRecOn with
  | nil => exact .nil
  | append_singleton events e ih =>
    rw [List.foldl_append]
    exact .snoc ih rfl

/-- A run and the run of the kept ones of its events stay related, when what is dropped
changes nothing related. -/
theorem purged {step' : σ' → ε → σ'} {Related : σ → σ' → Prop} {kept : ε → Bool}
    (run : Run step s events t) (start : Related s s')
    (stays : ∀ s e t s', step s e t → kept e = true → Related s s' → Related t (step' s' e))
    (skips : ∀ s e t s', step s e t → kept e = false → Related s s' → Related t s') :
    Related t ((events.filter kept).foldl step' s') := by
  induction run with
  | nil => exact start
  | @snoc _ _ e _ _ last ih =>
    rw [List.filter_append, List.foldl_append]
    cases keep : kept e with
    | true =>
      simp only [List.filter_cons, keep, if_true, List.filter_nil, List.foldl_cons, List.foldl_nil]
      exact stays _ _ _ _ last keep ih
    | false =>
      simp only [List.filter_cons, keep, Bool.false_eq_true, if_false, List.filter_nil, List.foldl_nil]
      exact skips _ _ _ _ last keep ih

/-- Two relations that agree on every step have the same runs. -/
theorem congr {step' : σ → ε → σ → Prop} (agree : ∀ s e t, step s e t ↔ step' s e t) :
    Run step s events t ↔ Run step' s events t := by
  have same : step = step' := by
    funext s e t
    exact propext (agree s e t)
  rw [same]

/-- What every step does where an invariant holds, every step of a run does. -/
theorem mono_under {step' : σ → ε → σ → Prop} {Invariant : σ → Prop} (run : Run step s events t)
    (start : Invariant s) (kept : ∀ s e t, Invariant s → step s e t → Invariant t)
    (more : ∀ s e t, Invariant s → step s e t → step' s e t) : Run step' s events t := by
  induction run with
  | nil => exact .nil
  | snoc earlier last ih =>
    exact .snoc ih (more _ _ _ (earlier.invariant start kept) last)

/-- Two relations that agree where an invariant holds have the same runs from there. -/
theorem congr_under {step' : σ → ε → σ → Prop} {Invariant : σ → Prop} (start : Invariant s)
    (kept : ∀ s e t, Invariant s → step s e t → Invariant t)
    (agree : ∀ s e t, Invariant s → (step s e t ↔ step' s e t)) :
    Run step s events t ↔ Run step' s events t := by
  constructor
  · exact fun run => run.mono_under start kept fun s e t held => (agree s e t held).mp
  · exact fun run => run.mono_under start
      (fun s e t held step => kept s e t held ((agree s e t held).mpr step))
      fun s e t held => (agree s e t held).mpr

/-- Where a step keeps a property exactly when a condition holds before it, the runs that keep
the property in every state are those whose steps all meet the condition. -/
theorem keeping_iff {Invariant Property : σ → Prop} {condition : σ → ε → Prop}
    (start : Invariant s ∧ Property s)
    (kept : ∀ s e t, Invariant s → Property s → step s e t → Property t → Invariant t)
    (exactly : ∀ s e t, Invariant s → Property s → step s e t → (Property t ↔ condition s e)) :
    Run (fun s e t => step s e t ∧ Property t) s events t ↔
      Run (Guarded condition step) s events t := by
  have both : ∀ s e t, Invariant s ∧ Property s → step s e t ∧ Property t →
      Invariant t ∧ Property t := by
    rintro s e t ⟨held, before⟩ ⟨stepped, still⟩
    exact ⟨kept s e t held before stepped still, still⟩
  refine congr_under start both ?_
  rintro s e t ⟨held, before⟩
  constructor
  · rintro ⟨stepped, still⟩
    exact ⟨(exactly s e t held before stepped).mp still, stepped⟩
  · rintro ⟨met, stepped⟩
    exact ⟨stepped, (exactly s e t held before stepped).mpr met⟩

end Run

/-- The state after a list of events of a partial step function, nothing when one of
them is not enabled. -/
def execute (step : σ → ε → Option σ) : List ε → σ → Option σ
  | [], s => some s
  | e :: events, s => (step s e).bind (execute step events)

theorem Run.cons {step : σ → ε → σ → Prop} (first : step s e s') (run : Run step s' events t) :
    Run step s (e :: events) t := by
  induction run with
  | nil => exact .snoc .nil first
  | snoc _ last ih => exact .snoc ih last

/-- What is executed is a run. -/
theorem run_of_execute {step : σ → ε → Option σ} (executed : execute step events s = some t) :
    Run (fun s e t => step s e = some t) s events t := by
  induction events generalizing s with
  | nil =>
    cases executed
    exact .nil
  | cons e events ih =>
    obtain ⟨s', first, rest⟩ := Option.bind_eq_some_iff.mp executed
    exact .cons first (ih rest)

/-- A run executed while a condition is tested before every step. -/
theorem guarded_of_execute {step : σ → ε → Option σ} {condition : σ → ε → Prop}
    [∀ s e, Decidable (condition s e)]
    (executed : execute (fun s e => if condition s e then step s e else none) events s = some t) :
    Run (Guarded condition fun s e t => step s e = some t) s events t := by
  induction events generalizing s with
  | nil =>
    cases executed
    exact .nil
  | cons e events ih =>
    obtain ⟨s', first, rest⟩ := Option.bind_eq_some_iff.mp executed
    dsimp only at first
    split at first
    · rename_i met
      exact .cons ⟨met, first⟩ (ih rest)
    · contradiction

end Lib
