import Crown.Lib.Transition

/-! The task queue and the worker threads of `worker/worker.h`. Threads interleave at the
mutex: a thread tests the predicate of its wait and goes on, or sleeps, in one step. -/
namespace Crown

open Lib

variable {Task : Type}

structure TaskQueue (Task : Type) where
  queue : List Task
  running : Bool
  maxSize : Nat

namespace TaskQueue

/-- The predicate of the wait in `push`. -/
def mayPush (q : TaskQueue Task) : Prop := q.queue.length < q.maxSize ∨ q.running = false

/-- The predicate of the wait in `pop`. -/
def mayPop (q : TaskQueue Task) : Prop := q.queue ≠ [] ∨ q.running = false

instance (q : TaskQueue Task) : Decidable q.mayPush := inferInstanceAs (Decidable (_ ∨ _))

instance (q : TaskQueue Task) : Decidable q.mayPop :=
  decidable_of_iff (q.queue.isEmpty = false ∨ q.running = false) (by simp [mayPop])

/-- `push` behind its wait. -/
def push (fn : Task) (q : TaskQueue Task) : Bool × TaskQueue Task :=
  if q.running = false then (false, q) else (true, { q with queue := q.queue ++ [fn] })

/-- `pop` behind its wait; nothing stands for the null task. -/
def pop (q : TaskQueue Task) : Option Task × TaskQueue Task :=
  match q.queue with
  | [] => (none, q)
  | task :: rest => (some task, { q with queue := rest })

/-- `shutdown` under the lock: what it notifies is said by the pool. -/
def shutdown (q : TaskQueue Task) : TaskQueue Task := q

theorem push_closed {q : TaskQueue Task} (closed : q.running = false) (fn : Task) :
    q.push fn = (false, q) := if_pos closed

theorem push_running {q : TaskQueue Task} (running : q.running = true) (fn : Task) :
    q.push fn = (true, { q with queue := q.queue ++ [fn] }) :=
  if_neg (by rw [running]; exact Bool.noConfusion)

end TaskQueue

/-- Where a thread stands: a producer outside of `push`, a thread about to test the
predicate of its wait, or asleep in the wait, a worker in a task or out of its loop. -/
inductive Thread (Task : Type) where
  | outside
  | pushing (fn : Task)
  | asleepInPush (fn : Task)
  | popping
  | asleepInPop
  | working (task : Task)
  | left
  deriving DecidableEq

namespace Thread

def inPush : Thread Task → Bool
  | asleepInPush _ => true
  | _ => false

def inPop : Thread Task → Bool
  | asleepInPop => true
  | _ => false

/-- What a notification makes of a thread that sleeps. -/
def awake : Thread Task → Thread Task
  | asleepInPush fn => pushing fn
  | asleepInPop => popping
  | other => other

end Thread

/-- `accepted` and `handedOut` record the tasks in the order in which `push` took them
and `pop` gave them out, `stopped` that `shutdown` has returned. -/
structure WorkerPool (Task : Type) where
  tasks : TaskQueue Task
  threads : List (Thread Task)
  accepted : List Task
  handedOut : List Task
  stopped : Bool

namespace WorkerPool

inductive Event (Task : Type) where
  | submit (t : Nat) (fn : Task)
  /-- The thread gets the mutex in `push`; `notified` is whom `notify_one` wakes. -/
  | push (t : Nat) (notified : Option Nat)
  | pop (t : Nat) (notified : Option Nat)
  /-- A wait may end without a notification. -/
  | wake (t : Nat)
  /-- The task returns or throws. -/
  | finish (t : Nat)
  | shutdown

def start (maxSize producers workers : Nat) : WorkerPool Task where
  tasks := ⟨[], true, maxSize⟩
  threads := List.replicate producers .outside ++ List.replicate workers .popping
  accepted := []
  handedOut := []
  stopped := false

/-- `notify_one`: one of the sleeping threads, none when none sleeps. -/
def notifyOne (asleep : Thread Task → Bool) (notified : Option Nat) (threads : List (Thread Task)) :
    Option (List (Thread Task)) :=
  match notified with
  | none => if threads.any asleep then none else some threads
  | some t =>
    match threads[t]? with
    | some thread => if asleep thread then some (threads.set t thread.awake) else none
    | none => none

def push (s : WorkerPool Task) (t : Nat) (fn : Task) (notified : Option Nat) :
    Option (WorkerPool Task) :=
  if s.tasks.mayPush then
    match s.tasks.push fn with
    | (false, tasks) => some { s with tasks, threads := s.threads.set t .outside }
    | (true, tasks) =>
      (notifyOne Thread.inPop notified (s.threads.set t .outside)).map fun threads =>
        { s with tasks, threads, accepted := s.accepted ++ [fn] }
  else some { s with threads := s.threads.set t (.asleepInPush fn) }

def pop (s : WorkerPool Task) (t : Nat) (notified : Option Nat) : Option (WorkerPool Task) :=
  if s.tasks.mayPop then
    match s.tasks.pop with
    | (none, tasks) => some { s with tasks, threads := s.threads.set t .left }
    | (some task, tasks) =>
      (notifyOne Thread.inPush notified (s.threads.set t (.working task))).map fun threads =>
        { s with tasks, threads, handedOut := s.handedOut ++ [task] }
  else some { s with threads := s.threads.set t .asleepInPop }

/-- A step, where the thread stands where the event says. -/
def step (s : WorkerPool Task) : Event Task → Option (WorkerPool Task)
  | .submit t fn =>
    match s.threads[t]? with
    | some .outside => some { s with threads := s.threads.set t (.pushing fn) }
    | _ => none
  | .push t notified =>
    match s.threads[t]? with
    | some (.pushing fn) => s.push t fn notified
    | _ => none
  | .pop t notified =>
    match s.threads[t]? with
    | some .popping => s.pop t notified
    | _ => none
  | .wake t =>
    match s.threads[t]? with
    | some thread => some { s with threads := s.threads.set t thread.awake }
    | none => none
  | .finish t =>
    match s.threads[t]? with
    | some (.working _) => some { s with threads := s.threads.set t .popping }
    | _ => none
  | .shutdown =>
    if s.stopped then none
    else some { s with
      tasks := s.tasks.shutdown
      threads := s.threads.map Thread.awake
      stopped := true }

/-- The tasks handed out and the ones waiting are the accepted ones, in order. -/
def InOrder (s : WorkerPool Task) : Prop := s.accepted = s.handedOut ++ s.tasks.queue

def Bounded (s : WorkerPool Task) : Prop := s.tasks.queue.length ≤ s.tasks.maxSize

/-- No thread can be blocked, nothing is accepted, and an empty queue ends the workers. -/
structure Closed (s : WorkerPool Task) : Prop where
  pushes : s.tasks.mayPush
  pops : s.tasks.mayPop
  refuses : ∀ fn, (s.tasks.push fn).1 = false
  ends : s.tasks.queue = [] → s.tasks.pop.1 = none

structure Lifecycle (s : WorkerPool Task) : Prop where
  bounded : s.Bounded
  inOrder : s.InOrder
  closed : s.stopped = true → s.Closed

/-- What a step does to the queue and its records. -/
inductive Effect (s s' : WorkerPool Task) : Prop where
  | none (tasks : s'.tasks = s.tasks) (accepted : s'.accepted = s.accepted)
      (handedOut : s'.handedOut = s.handedOut)
  | accepts (fn : Task) (room : s.tasks.mayPush) (running : s.tasks.running = true)
      (tasks : s'.tasks = { s.tasks with queue := s.tasks.queue ++ [fn] })
      (accepted : s'.accepted = s.accepted ++ [fn]) (handedOut : s'.handedOut = s.handedOut)
  | handsOut (task : Task) (rest : List Task) (first : s.tasks.queue = task :: rest)
      (tasks : s'.tasks = { s.tasks with queue := rest }) (accepted : s'.accepted = s.accepted)
      (handedOut : s'.handedOut = s.handedOut ++ [task])

variable {s s' : WorkerPool Task} {event : Event Task} {events : List (Event Task)}

theorem push_effect (pushed : s.push t fn notified = some s') :
    Effect s s' ∧ s'.stopped = s.stopped := by
  unfold push at pushed
  split at pushed
  · rename_i room
    cases running : s.tasks.running with
    | false =>
      rw [TaskQueue.push_closed running fn] at pushed
      cases pushed
      exact ⟨.none rfl rfl rfl, rfl⟩
    | true =>
      rw [TaskQueue.push_running running fn] at pushed
      obtain ⟨threads, _, rfl⟩ := Option.map_eq_some_iff.mp pushed
      exact ⟨.accepts fn room running rfl rfl rfl, rfl⟩
  · cases pushed
    exact ⟨.none rfl rfl rfl, rfl⟩

theorem pop_effect (popped : s.pop t notified = some s') :
    Effect s s' ∧ s'.stopped = s.stopped := by
  unfold pop at popped
  split at popped
  · unfold TaskQueue.pop at popped
    cases waiting : s.tasks.queue with
    | nil =>
      simp only [waiting, Option.some.injEq] at popped
      subst popped
      exact ⟨.none rfl rfl rfl, rfl⟩
    | cons task rest =>
      simp only [waiting, Option.map_eq_some_iff] at popped
      obtain ⟨threads, _, rfl⟩ := popped
      exact ⟨.handsOut task rest waiting rfl rfl rfl, rfl⟩
  · cases popped
    exact ⟨.none rfl rfl rfl, rfl⟩

theorem step_effect (stepped : s.step event = some s') :
    Effect s s' ∧ (s'.stopped = true ↔ s.stopped = true ∨ event = .shutdown) := by
  cases event with
  | push t notified =>
    simp only [step] at stepped
    split at stepped
    · obtain ⟨effect, stopped⟩ := push_effect stepped
      exact ⟨effect, by simp [stopped]⟩
    · cases stepped
  | pop t notified =>
    simp only [step] at stepped
    split at stepped
    · obtain ⟨effect, stopped⟩ := pop_effect stepped
      exact ⟨effect, by simp [stopped]⟩
    · cases stepped
  | shutdown =>
    simp only [step] at stepped
    split at stepped
    · cases stepped
    · cases stepped
      exact ⟨.none rfl rfl rfl, by simp⟩
  | submit | wake | finish =>
    simp only [step] at stepped
    split at stepped <;> cases stepped
    exact ⟨.none rfl rfl rfl, by simp⟩

/-- What holds in every state: `running_` is never cleared. -/
structure Invariant (s : WorkerPool Task) : Prop where
  running : s.tasks.running = true
  bounded : s.Bounded
  inOrder : s.InOrder

theorem Effect.invariant (effect : Effect s s') (before : Invariant s) : Invariant s' := by
  obtain ⟨running, bounded, inOrder⟩ := before
  unfold Bounded at bounded
  unfold InOrder at inOrder
  cases effect with
  | none tasks accepted handedOut =>
    refine ⟨by rw [tasks, running], ?_, ?_⟩
    · rw [Bounded, tasks]
      exact bounded
    · rw [InOrder, tasks, accepted, handedOut, inOrder]
  | accepts fn room _ tasks accepted handedOut =>
    refine ⟨by rw [tasks]; exact running, ?_, ?_⟩
    · rw [Bounded, tasks]
      rcases room with room | closed
      · simpa using room
      · rw [running] at closed
        cases closed
    · rw [InOrder, tasks, accepted, handedOut, inOrder, List.append_assoc]
  | handsOut task rest first tasks accepted handedOut =>
    rw [first] at bounded inOrder
    refine ⟨by rw [tasks]; exact running, ?_, ?_⟩
    · rw [Bounded, tasks]
      exact (Nat.le_succ _).trans bounded
    · rw [InOrder, tasks, accepted, handedOut, inOrder, List.append_assoc, List.singleton_append]

theorem start_invariant (maxSize producers workers : Nat) :
    Invariant (start maxSize producers workers : WorkerPool Task) :=
  ⟨rfl, Nat.zero_le _, rfl⟩

theorem run_stopped (run : Run (fun s event s' => step s event = some s') s events s') :
    s'.stopped = true ↔ s.stopped = true ∨ Event.shutdown ∈ events := by
  induction run with
  | nil => simp
  | snoc _ stepped ih =>
    rw [(step_effect stepped).2, ih, List.mem_append, List.mem_singleton, eq_comm (a := Event.shutdown)]
    tauto

/-- While `running_` is set the queue is not closed: an empty one blocks the workers, and
another task is accepted. -/
theorem Invariant.not_closed (invariant : Invariant s) : ¬s.Closed := by
  intro closed
  rcases closed.pops with waiting | stopped
  · obtain ⟨fn, rest, _⟩ := List.exists_cons_of_ne_nil waiting
    have refused := closed.refuses fn
    rw [TaskQueue.push_running invariant.running fn] at refused
    cases refused
  · rw [invariant.running] at stopped
    cases stopped

/-- In every run the queue is bounded and in order; the rest of the lifecycle holds as long
as `shutdown` has not returned, and never after. -/
theorem run_lifecycle_iff (maxSize producers workers : Nat)
    (run : Run (fun s event s' => step s event = some s')
      (start maxSize producers workers : WorkerPool Task) events s) :
    s.Bounded ∧ s.InOrder ∧ (s.Lifecycle ↔ Event.shutdown ∉ events) := by
  have invariant : Invariant s :=
    run.invariant (start_invariant maxSize producers workers)
      fun _ _ _ before stepped => (step_effect stepped).1.invariant before
  have stopped : s.stopped = true ↔ Event.shutdown ∈ events := by
    simpa [start] using run_stopped run
  refine ⟨invariant.bounded, invariant.inOrder, fun lifecycle asked => ?_, fun silent => ?_⟩
  · exact invariant.not_closed (lifecycle.closed (stopped.mpr asked))
  · exact ⟨invariant.bounded, invariant.inOrder, fun ended => absurd (stopped.mp ended) silent⟩

/-- A worker sleeps on the empty queue and is woken for a task. -/
theorem task_handedOut :
    let events : List (Event Nat) := [.submit 0 7, .pop 1 none, .push 0 (some 1), .pop 1 none]
    ∃ s, Run (fun s event s' => step s event = some s') (start 1 1 1) events s ∧
      s.handedOut = [7] ∧ s.Bounded ∧ s.InOrder ∧ (s.Lifecycle ↔ Event.shutdown ∉ events) := by
  have run : Run (fun s event s' => step s event = some s') (start 1 1 1)
      [.submit 0 7, .pop 1 none, .push 0 (some 1), .pop 1 none] _ := run_of_execute rfl
  exact ⟨_, run, rfl, run_lifecycle_iff 1 1 1 run⟩

/-- A worker that sleeps on the empty queue when `shutdown` is called sleeps on. -/
theorem shutdown_blocks :
    ∃ s, Run (fun s event s' => step s event = some s') (start 1 0 1 : WorkerPool Nat)
        [.pop 0 none, .shutdown, .pop 0 none] s ∧
      s.threads = [.asleepInPop] ∧ ¬s.tasks.mayPop ∧ ¬s.Lifecycle := by
  have blocked : ¬(⟨[], true, 1⟩ : TaskQueue Nat).mayPop := by decide
  exact ⟨_, run_of_execute rfl, rfl, blocked, fun lifecycle => blocked (lifecycle.closed rfl).pops⟩

end WorkerPool
end Crown
