import Mathlib

/-! Programs over a signature of operations. A program is a tree: the operation it
performs next and how it goes on with each reply, down to a value or an exception.
An interpretation answers the operations over a state. -/
namespace Lib

inductive Program (Op : Type) (Reply : Op → Type) (ε α : Type) where
  | done (result : Except ε α)
  | perform (op : Op) (next : Reply op → Program Op Reply ε α)

namespace Program

variable {Op : Type} {Reply : Op → Type} {ε α β σ : Type}

def call (op : Op) : Program Op Reply ε (Reply op) := perform op fun reply => done (.ok reply)

def bind : Program Op Reply ε α → (α → Program Op Reply ε β) → Program Op Reply ε β
  | done (.ok a), rest => rest a
  | done (.error e), _ => done (.error e)
  | perform op next, rest => perform op fun reply => (next reply).bind rest

instance : Monad (Program Op Reply ε) where
  pure a := done (.ok a)
  bind := bind

instance : MonadLift (Except ε) (Program Op Reply ε) where
  monadLift := done

/-- `try` with one `catch` around the whole program. -/
def recover (handler : ε → α) : Program Op Reply ε α → Program Op Reply ε α
  | done (.ok a) => done (.ok a)
  | done (.error e) => done (.ok (handler e))
  | perform op next => perform op fun reply => (next reply).recover handler

abbrev Interpretation (Op : Type) (Reply : Op → Type) (σ : Type) : Type :=
  (op : Op) → σ → Reply op × σ

def run (answer : Interpretation Op Reply σ) : Program Op Reply ε α → σ → Except ε α × σ
  | done result, s => (result, s)
  | perform op next, s => (next (answer op s).1).run answer (answer op s).2

/-- The operations performed, in order. -/
def performed (answer : Interpretation Op Reply σ) : Program Op Reply ε α → σ → List Op
  | done _, _ => []
  | perform op next, s => op :: (next (answer op s).1).performed answer (answer op s).2

variable {answer : Interpretation Op Reply σ}

@[simp] theorem pure_eq (a : α) : (pure a : Program Op Reply ε α) = done (.ok a) := rfl

@[simp] theorem liftM_eq (x : Except ε α) : (liftM x : Program Op Reply ε α) = done x := rfl

@[simp] theorem done_ok_bind (a : α) (rest : α → Program Op Reply ε β) :
    (done (.ok a) >>= rest) = rest a := rfl

@[simp] theorem done_error_bind (e : ε) (rest : α → Program Op Reply ε β) :
    (done (.error e) >>= rest) = done (.error e) := rfl

@[simp] theorem perform_bind (op : Op) (next : Reply op → Program Op Reply ε α)
    (rest : α → Program Op Reply ε β) :
    (perform op next >>= rest) = perform op fun reply => next reply >>= rest := rfl

@[simp] theorem call_bind (op : Op) (rest : Reply op → Program Op Reply ε β) :
    (call op >>= rest) = perform op rest := rfl

@[simp] theorem run_done (result : Except ε α) (s : σ) :
    (done result : Program Op Reply ε α).run answer s = (result, s) := rfl

@[simp] theorem run_perform (op : Op) (next : Reply op → Program Op Reply ε α) (s : σ) :
    (perform op next).run answer s = (next (answer op s).1).run answer (answer op s).2 := rfl

@[simp] theorem performed_done (result : Except ε α) (s : σ) :
    (done result : Program Op Reply ε α).performed answer s = [] := rfl

@[simp] theorem performed_perform (op : Op) (next : Reply op → Program Op Reply ε α) (s : σ) :
    (perform op next).performed answer s =
      op :: (next (answer op s).1).performed answer (answer op s).2 := rfl

/-- A handler of exceptions performs nothing itself. -/
@[simp] theorem performed_recover (handler : ε → α) (p : Program Op Reply ε α) (s : σ) :
    (p.recover handler).performed answer s = p.performed answer s := by
  induction p generalizing s with
  | done result => cases result <;> rfl
  | perform op next ih => simp [recover, ih]

/-- A handler of exceptions changes nothing itself. -/
@[simp] theorem run_recover_state (handler : ε → α) (p : Program Op Reply ε α) (s : σ) :
    ((p.recover handler).run answer s).2 = (p.run answer s).2 := by
  induction p generalizing s with
  | done result => cases result <;> rfl
  | perform op next ih => simp [recover, ih]

theorem run_bind (p : Program Op Reply ε α) (rest : α → Program Op Reply ε β) (s : σ) :
    (p >>= rest).run answer s =
      match p.run answer s with
      | (.ok a, t) => (rest a).run answer t
      | (.error e, t) => (.error e, t) := by
  induction p generalizing s with
  | done result => cases result <;> rfl
  | perform op next ih => simp [ih]

theorem performed_bind (p : Program Op Reply ε α) (rest : α → Program Op Reply ε β) (s : σ) :
    (p >>= rest).performed answer s = p.performed answer s ++
      match p.run answer s with
      | (.ok a, t) => (rest a).performed answer t
      | (.error _, _) => [] := by
  induction p generalizing s with
  | done result => cases result <;> rfl
  | perform op next ih => simp [ih]

/-- What every performed operation keeps, the whole program keeps. -/
theorem run_invariant {Invariant : σ → Prop} (p : Program Op Reply ε α) (s : σ)
    (start : Invariant s)
    (kept : ∀ op ∈ p.performed answer s, ∀ s, Invariant s → Invariant (answer op s).2) :
    Invariant (p.run answer s).2 := by
  induction p generalizing s with
  | done result => exact start
  | perform op next ih =>
    refine ih _ _ (kept op (by simp) s start) fun later member => kept later ?_
    simp [member]

/-- Whatever possible replies it gets, the program performs allowed operations only. -/
def Within (allowed : Op → Prop) (possible : (op : Op) → Reply op → Prop) :
    Program Op Reply ε α → Prop
  | done _ => True
  | perform op next => allowed op ∧ ∀ reply, possible op reply → (next reply).Within allowed possible

section

variable {allowed : Op → Prop} {possible : (op : Op) → Reply op → Prop}

@[simp] theorem within_done (result : Except ε α) :
    (done result : Program Op Reply ε α).Within allowed possible := trivial

@[simp] theorem within_perform (op : Op) (next : Reply op → Program Op Reply ε α) :
    (perform op next).Within allowed possible ↔
      allowed op ∧ ∀ reply, possible op reply → (next reply).Within allowed possible := Iff.rfl

theorem within_bind {p : Program Op Reply ε α} {rest : α → Program Op Reply ε β}
    (first : p.Within allowed possible) (later : ∀ a, (rest a).Within allowed possible) :
    (p >>= rest).Within allowed possible := by
  induction p with
  | done result =>
    cases result with
    | ok a => exact later a
    | error e => trivial
  | perform op next ih => exact ⟨first.1, fun reply arrived => ih reply (first.2 reply arrived)⟩

/-- An allowed operation first, whatever is replied. -/
theorem within_call {op : Op} {rest : Reply op → Program Op Reply ε β} (allows : allowed op)
    (later : ∀ reply, (rest reply).Within allowed fun _ _ => True) :
    (call op >>= rest).Within allowed fun _ _ => True :=
  ⟨allows, fun reply _ => later reply⟩

@[simp] theorem within_recover (handler : ε → α) (p : Program Op Reply ε α) :
    (p.recover handler).Within allowed possible ↔ p.Within allowed possible := by
  induction p with
  | done result => cases result <;> exact Iff.rfl
  | perform op next ih => simp [recover, ih]

theorem Within.mono {allowed' : Op → Prop} {p : Program Op Reply ε α}
    (within : p.Within allowed possible) (weaker : ∀ op, allowed op → allowed' op) :
    p.Within allowed' possible := by
  induction p with
  | done result => trivial
  | perform op next ih =>
    exact ⟨weaker op within.1, fun reply arrived => ih reply (within.2 reply arrived)⟩

/-- Where everything is allowed, every program is within. -/
theorem within_any (p : Program Op Reply ε α) : p.Within (fun _ => True) possible := by
  induction p with
  | done result => trivial
  | perform op next ih => exact ⟨trivial, fun reply _ => ih reply⟩

/-- What every allowed operation keeps, the whole program keeps. -/
theorem Within.invariant {Invariant : σ → Prop} {p : Program Op Reply ε α}
    (within : p.Within allowed possible) (start : Invariant s)
    (kept : ∀ op s, allowed op → Invariant s →
      possible op (answer op s).1 ∧ Invariant (answer op s).2) :
    Invariant (p.run answer s).2 := by
  induction p generalizing s with
  | done result => exact start
  | perform op next ih =>
    obtain ⟨arrived, held⟩ := kept op s within.1 start
    exact ih _ (within.2 _ arrived) held

theorem Within.of_performed {p : Program Op Reply ε α}
    (within : p.Within allowed fun _ _ => True) {op : Op} (taken : op ∈ p.performed answer s) :
    allowed op := by
  induction p generalizing s with
  | done result => cases taken
  | perform first next ih =>
    rcases List.mem_cons.mp taken with rfl | later
    · exact within.1
    · exact ih _ (within.2 _ trivial) later

/-- Two runs of a program stay related when every allowed operation is answered alike in
related states. -/
theorem Within.simulation {Related : σ → σ → Prop} {p : Program Op Reply ε α}
    (within : p.Within allowed fun _ _ => True) (related : Related s s')
    (alike : ∀ op s s', allowed op → Related s s' →
      (answer op s').1 = (answer op s).1 ∧ Related (answer op s).2 (answer op s').2) :
    (p.run answer s').1 = (p.run answer s).1 ∧
      Related (p.run answer s).2 (p.run answer s').2 := by
  induction p generalizing s s' with
  | done result => exact ⟨rfl, related⟩
  | perform op next ih =>
    obtain ⟨same, later⟩ := alike op s s' within.1 related
    rw [run_perform, run_perform, same]
    exact ih _ (within.2 _ trivial) later

end

/-- Whatever replies it gets, the program returns good values only. -/
def Returns (good : α → Prop) : Program Op Reply ε α → Prop
  | done (.ok a) => good a
  | done (.error _) => True
  | perform _ next => ∀ reply, (next reply).Returns good

@[simp] theorem returns_ok (good : α → Prop) (a : α) :
    (done (.ok a) : Program Op Reply ε α).Returns good ↔ good a := Iff.rfl

@[simp] theorem returns_error (good : α → Prop) (e : ε) :
    (done (.error e) : Program Op Reply ε α).Returns good := trivial

@[simp] theorem returns_perform (good : α → Prop) (op : Op)
    (next : Reply op → Program Op Reply ε α) :
    (perform op next).Returns good ↔ ∀ reply, (next reply).Returns good := Iff.rfl

theorem returns_bind {good : β → Prop} {p : Program Op Reply ε α}
    {rest : α → Program Op Reply ε β} (later : ∀ a, (rest a).Returns good) :
    (p >>= rest).Returns good := by
  induction p with
  | done result =>
    cases result with
    | ok a => exact later a
    | error e => trivial
  | perform op next ih => exact fun reply => ih reply

theorem returns_recover {good : α → Prop} {handler : ε → α} {p : Program Op Reply ε α}
    (returns : p.Returns good) (handled : ∀ e, good (handler e)) :
    (p.recover handler).Returns good := by
  induction p with
  | done result =>
    cases result with
    | ok a => exact returns
    | error e => exact handled e
  | perform op next ih => exact fun reply => ih reply (returns reply)

/-- The program with operations that may throw; an operation that throws is the end of it. -/
def throwing {ε' : Type} (lift : ε → ε') :
    Program Op Reply ε α → Program Op (fun op => Except ε' (Reply op)) ε' α
  | done (.ok a) => done (.ok a)
  | done (.error e) => done (.error (lift e))
  | perform op next => perform op fun
    | .ok reply => (next reply).throwing lift
    | .error e => done (.error e)

theorem Returns.throwing {ε' : Type} {lift : ε → ε'} {good : α → Prop} {p : Program Op Reply ε α}
    (returns : p.Returns good) : (p.throwing lift).Returns good := by
  induction p with
  | done result => cases result <;> exact returns
  | perform op next ih =>
    rw [Program.throwing, returns_perform]
    rintro (e | reply)
    · trivial
    · exact ih reply (returns reply)

theorem Returns.run {good : α → Prop} {p : Program Op Reply ε α} (returns : p.Returns good)
    (ran : (p.run answer s).1 = .ok a) : good a := by
  induction p generalizing s with
  | done result =>
    cases ran
    exact returns
  | perform op next ih => exact ih _ (returns _) ran

end Program
end Lib
