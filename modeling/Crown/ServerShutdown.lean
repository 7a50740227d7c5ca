import Crown.WorkerPool

/-! How the process ends: `main` of `main.cpp` with its watcher, the command that asks for the
end, and `CdnServer::start`, `CdnServer::shutdown`, `CrownServer::init` and
`CrownServer::shutdown` as the threads run them. -/
namespace Crown

open Lib

namespace WorkerPool

variable {Task : Type} {s s' : WorkerPool Task}

/-- A thread that is in its loop. -/
def InLoop (s : WorkerPool Task) (t : Nat) : Prop :=
  ∃ thread, s.threads[t]? = some thread ∧ thread ≠ .left

theorem InLoop.set {threads : List (Thread Task)} {thread : Thread Task} {i t : Nat}
    (here : threads[t]? = some thread) (inside : thread ≠ .left) {changed : Thread Task}
    (other : changed ≠ .left) :
    ∃ thread', (threads.set i changed)[t]? = some thread' ∧ thread' ≠ .left := by
  have bound := (List.getElem?_eq_some_iff.mp here).1
  by_cases same : i = t
  · subst same
    exact ⟨changed, List.getElem?_set_self bound, other⟩
  · exact ⟨thread, by rw [List.getElem?_set_ne same, here], inside⟩

theorem awake_inLoop {thread : Thread Task} (inside : thread ≠ .left) : thread.awake ≠ .left := by
  cases thread <;> first | exact absurd rfl inside | exact nofun

theorem notifyOne_inLoop {asleep : Thread Task → Bool} {threads threads' : List (Thread Task)}
    (told : notifyOne asleep notified threads = some threads') {thread : Thread Task} {t : Nat}
    (here : threads[t]? = some thread) (inside : thread ≠ .left) :
    ∃ thread', threads'[t]? = some thread' ∧ thread' ≠ .left := by
  unfold notifyOne at told
  split at told
  · split at told
    · cases told
    · cases told
      exact ⟨thread, here, inside⟩
  · rename_i n
    split at told
    · rename_i woken there
      split at told
      · cases told
        by_cases left : woken = .left
        · subst left
          have kept : threads.set n (Thread.awake .left) = threads := by
            obtain ⟨bound, value⟩ := List.getElem?_eq_some_iff.mp there
            have same : Thread.awake (Thread.left : Thread Task) = threads[n] := value.symm
            rw [same, List.set_getElem_self]
          rw [kept]
          exact ⟨thread, here, inside⟩
        · exact InLoop.set here inside (awake_inLoop left)
      · cases told
    · cases told

/-- No thread leaves its loop while `running_` is set. -/
theorem Invariant.inLoop (invariant : Invariant s) (stepped : s.step event = some s')
    (here : s.InLoop t) : s'.InLoop t := by
  obtain ⟨thread, there, inside⟩ := here
  cases event with
  | submit i fn =>
    simp only [step] at stepped
    split at stepped <;> cases stepped
    exact InLoop.set there inside (by simp)
  | push i notified =>
    simp only [step] at stepped
    split at stepped
    · unfold push at stepped
      split at stepped
      · rename_i fn _ _
        rw [TaskQueue.push_running invariant.running fn] at stepped
        obtain ⟨threads, told, rfl⟩ := Option.map_eq_some_iff.mp stepped
        have outside : Thread.outside ≠ (.left : Thread Task) := by simp
        obtain ⟨thread', there', inside'⟩ := InLoop.set (i := i) there inside outside
        exact notifyOne_inLoop told there' inside'
      · cases stepped
        exact InLoop.set there inside (by simp)
    · cases stepped
  | pop i notified =>
    simp only [step] at stepped
    split at stepped
    · unfold pop at stepped
      split at stepped
      · rename_i may
        have waiting : s.tasks.queue ≠ [] := may.resolve_right (by simp [invariant.running])
        obtain ⟨task, rest, first⟩ := List.exists_cons_of_ne_nil waiting
        simp only [TaskQueue.pop, first, Option.map_eq_some_iff] at stepped
        obtain ⟨threads, told, rfl⟩ := stepped
        have works : Thread.working task ≠ .left := by simp
        obtain ⟨thread', there', inside'⟩ := InLoop.set (i := i) there inside works
        exact notifyOne_inLoop told there' inside'
      · cases stepped
        exact InLoop.set there inside (by simp)
    · cases stepped
  | wake i =>
    simp only [step] at stepped
    split at stepped
    · rename_i woken found
      cases stepped
      by_cases left : woken = .left
      · subst left
        by_cases same : i = t
        · subst same
          rw [found] at there
          cases there
          exact absurd rfl inside
        · exact ⟨thread, by rw [List.getElem?_set_ne same, there], inside⟩
      · exact InLoop.set there inside (awake_inLoop left)
    · cases stepped
  | finish i =>
    simp only [step] at stepped
    split at stepped <;> cases stepped
    exact InLoop.set there inside (by simp)
  | shutdown =>
    simp only [step] at stepped
    split at stepped
    · cases stepped
    · cases stepped
      exact ⟨thread.awake, by simp [there], awake_inLoop inside⟩

end WorkerPool

namespace Shutdown

/-- `CdnServer::shutdown`: before the test of `running_`, before `stop`, at the join of the
thread that listens, before `s3_.reset()`, at the joins of `~WorkerPool`, returned. -/
inductive CdnShutdown where
  | testing
  | stopping
  | joiningListener
  | resetting
  | joiningWorkers
  | returned
  deriving DecidableEq

/-- The thread of `main`: in `cdn.start` before `s3_` is set, before `thread_` is, before
`running_` is, in `server.init` up to `BuildAndStart`, in `server_->Wait()`, at the join of the
watcher, in its own `cdn.shutdown()`, returned, or ended by an exception: `watcher` is joinable,
so that leaving the block calls `std::terminate`. -/
inductive MainPhase where
  | buildingS3
  | startingListener
  | settingRunning
  | buildingServer
  | waiting
  | joining
  | shuttingCdn (phase : CdnShutdown)
  | returned
  | aborted
  deriving DecidableEq

/-- The watcher: about to test the flag under the mutex, between a test that failed and its
sleep, asleep, in `cdn.shutdown()`, before `server.shutdown()`, at its end. -/
inductive Watcher where
  | testing
  | blocking
  | asleep
  | shuttingCdn (phase : CdnShutdown)
  | shuttingServer
  | left
  deriving DecidableEq

/-- The thread in which `svr_` listens. -/
inductive Listener where
  | unstarted
  | spawned
  | listening
  | returned
  deriving DecidableEq

/-- `server_`: null, serving, or told to shut down. -/
inductive GrpcServer where
  | none
  | serving
  | shutDown
  deriving DecidableEq

/-- `flag` is `g_shuttingDown`, `notifying` says that a `RequestShutdown` has set it and has yet
to notify, `closed` that the socket of `svr_` is closed, `pool` is the pool of `s3_`. -/
structure Servers (Task : Type) where
  flag : Bool
  notifying : Bool
  watcher : Watcher
  main : MainPhase
  running : Bool
  listener : Listener
  closed : Bool
  pool : Option (WorkerPool Task)
  server : GrpcServer

inductive Event (Task : Type) where
  | setFlag
  | notify
  /-- A wait may end without a notification. -/
  | wake
  | watcher
  /-- `works`: what may fail does not. -/
  | main (works : Bool)
  | throws
  | listener (works : Bool)
  | pool (event : WorkerPool.Event Task)

def start (Task : Type) : Servers Task where
  flag := false
  notifying := false
  watcher := .testing
  main := .buildingS3
  running := false
  listener := .unstarted
  closed := false
  pool := none
  server := .none

section

variable {Task : Type} (producers : Nat)

/-- `S3Context`: a queue of 1024 tasks and four workers. -/
def s3Pool : WorkerPool Task := WorkerPool.start 1024 producers 4

/-- The workers have left their loops. -/
def joined (pool : WorkerPool Task) : Bool :=
  (pool.threads.drop producers).all fun
    | .left => true
    | _ => false

def cdnShutdown (s : Servers Task) : CdnShutdown → Option (CdnShutdown × Servers Task)
  | .testing => if s.running then some (.stopping, { s with running := false })
    else some (.returned, s)
  -- `stop` closes the socket only while the thread listens.
  | .stopping => some (.joiningListener, { s with closed := s.closed || s.listener == .listening })
  | .joiningListener =>
    if s.listener = .unstarted ∨ s.listener = .returned then some (.resetting, s) else none
  | .resetting =>
    match s.pool with
    | none => some (.returned, s)
    | some pool => (pool.step .shutdown).map fun pool =>
      (.joiningWorkers, { s with pool := some pool })
  | .joiningWorkers =>
    if s.pool.all (joined producers) then some (.returned, { s with pool := none }) else none
  | .returned => none

def watcherStep (s : Servers Task) : Option (Servers Task) :=
  match s.watcher with
  | .testing =>
    some { s with watcher := if s.flag then .shuttingCdn .testing else .blocking }
  | .blocking => some { s with watcher := .asleep }
  | .asleep => none
  | .shuttingCdn .returned => some { s with watcher := .shuttingServer }
  | .shuttingCdn phase => (cdnShutdown producers s phase).map fun (phase, s) =>
    { s with watcher := .shuttingCdn phase }
  | .shuttingServer => some { s with
      server := if s.server = .serving then .shutDown else s.server
      watcher := .left }
  | .left => none

def mainStep (s : Servers Task) (works : Bool) : Option (Servers Task) :=
  match s.main with
  | .buildingS3 =>
    if works then some { s with pool := some (s3Pool producers), main := .startingListener }
    else some { s with main := .buildingServer }
  | .startingListener => some { s with listener := .spawned, main := .settingRunning }
  | .settingRunning => some { s with running := true, main := .buildingServer }
  | .buildingServer =>
    if works then some { s with server := .serving, main := .waiting }
    else some { s with main := .joining }
  | .waiting => if s.server = .shutDown then some { s with main := .joining } else none
  | .joining => if s.watcher = .left then some { s with main := .shuttingCdn .testing } else none
  | .shuttingCdn .returned => some { s with main := .returned }
  | .shuttingCdn phase => (cdnShutdown producers s phase).map fun (phase, s) =>
    { s with main := .shuttingCdn phase }
  | .returned => none
  | .aborted => none

/-- Setting up the thread that listens, and `sodium_init`, may throw. -/
def mayThrow : MainPhase → Bool
  | .startingListener | .buildingServer => true
  | _ => false

def listenerStep (s : Servers Task) (works : Bool) : Option (Servers Task) :=
  match s.listener with
  | .spawned => some { s with listener := if works then .listening else .returned }
  | .listening => if s.closed || !works then some { s with listener := .returned } else none
  | .unstarted | .returned => none

/-- What the threads of the pool and those who submit do: the destructor alone shuts the queue
down, and after `s3_.reset()` nothing is submitted. -/
def poolStep (s : Servers Task) (event : WorkerPool.Event Task) : Option (Servers Task) :=
  match s.pool, event with
  | none, _ => none
  | some _, .shutdown => none
  | some pool, .submit t fn =>
    if pool.stopped then none
    else (pool.step (.submit t fn)).map fun pool => { s with pool := some pool }
  | some pool, event => (pool.step event).map fun pool => { s with pool := some pool }

def step (s : Servers Task) : Event Task → Option (Servers Task)
  | .setFlag => if s.notifying then none else some { s with flag := true, notifying := true }
  | .notify =>
    if s.notifying then some { s with
      notifying := false
      watcher := if s.watcher = .asleep then .testing else s.watcher }
    else none
  | .wake => if s.watcher = .asleep then some { s with watcher := .testing } else none
  | .watcher => watcherStep producers s
  | .main works => mainStep producers s works
  | .throws => if mayThrow s.main then some { s with main := .aborted } else none
  | .listener works => listenerStep s works
  | .pool event => poolStep s event

/-- Behind the test of `running_`, before the return. -/
def CdnShutdown.inside : CdnShutdown → Bool
  | .stopping | .joiningListener | .resetting | .joiningWorkers => true
  | .testing | .returned => false

def Watcher.inside : Watcher → Bool
  | .shuttingCdn phase => phase.inside
  | _ => false

namespace MainPhase

/-- In `cdn.start` with `s3_` set. -/
def starting : MainPhase → Bool
  | .startingListener | .settingRunning => true
  | _ => false

/-- Behind `cdn.start` and before its own `cdn.shutdown`. -/
def serving : MainPhase → Bool
  | .buildingServer | .waiting | .joining => true
  | _ => false

def inside : MainPhase → Bool
  | .shuttingCdn phase => phase.inside
  | _ => false

end MainPhase

/-- The four workers are in their loops, and nothing ends them. -/
structure Busy (pool : WorkerPool Task) : Prop where
  invariant : pool.Invariant
  inLoop : ∀ worker < 4, pool.InLoop (producers + worker)

/-- What is left to do for a CDN that has its pool: `cdn.start` has yet to return, or
`running_` is set, or one of the two calls of `cdn.shutdown` is behind its test. -/
def Unfinished (s : Servers Task) : Prop :=
  s.main = .aborted ∨ s.main.starting = true ∨
    s.running = true ∧ (s.main.serving = true ∨ s.main = .shuttingCdn .testing) ∨
    s.watcher.inside = true ∧ s.main.serving = true ∨ s.main.inside = true

structure Sound (s : Servers Task) : Prop where
  built : ∀ pool, s.pool = some pool → Busy producers pool ∧ Unfinished s
  unbuilt : s.pool = none → s.running = false ∧ s.main.starting = false ∧
    s.watcher.inside = false ∧ s.main.inside = false
  serving : s.server = .serving → s.main = .waiting
  waiting : s.main = .waiting → s.server ≠ .none
  joined : (∃ phase, s.main = .shuttingCdn phase) → s.watcher = .left

variable {producers} {s s' : Servers Task}

theorem Busy.step {pool pool' : WorkerPool Task} {event : WorkerPool.Event Task}
    (busy : Busy producers pool) (stepped : pool.step event = some pool') :
    Busy producers pool' where
  invariant := (WorkerPool.step_effect stepped).1.invariant busy.invariant
  inLoop worker small := busy.invariant.inLoop stepped (busy.inLoop worker small)

theorem s3Pool_busy : Busy producers (s3Pool producers : WorkerPool Task) := by
  refine ⟨WorkerPool.start_invariant 1024 producers 4, fun worker small => ⟨.popping, ?_, nofun⟩⟩
  have past : (List.replicate producers (Thread.outside : Thread Task)).length ≤
      producers + worker := by
    simp
  simp only [s3Pool, WorkerPool.start]
  rw [List.getElem?_append_right past, List.length_replicate, Nat.add_sub_cancel_left,
    List.getElem?_replicate_of_lt small]

theorem Busy.not_joined {pool : WorkerPool Task} (busy : Busy producers pool) :
    joined producers pool = false := by
  obtain ⟨thread, here, inside⟩ := busy.inLoop 0 (by decide)
  refine Bool.eq_false_iff.mpr fun all => ?_
  have member : thread ∈ pool.threads.drop producers := by
    refine List.mem_iff_getElem?.mpr ⟨0, ?_⟩
    rw [List.getElem?_drop]
    exact here
  have ended := List.all_eq_true.mp all thread member
  cases thread <;> first | exact inside rfl | cases ended

/-- The call of `cdn.shutdown` of a CDN that has its pool goes into its inside only where
`running_` is set, and does not come out of it. -/
theorem cdnShutdown_built {pool : WorkerPool Task} (built : s.pool = some pool)
    (busy : Busy producers pool) (acted : cdnShutdown producers s phase = some (phase', s')) :
    phase = .testing ∧ s.running = false ∧ phase' = .returned ∧ s' = s ∨
      phase = .testing ∧ s.running = true ∧ phase' = .stopping ∧ s' = { s with running := false } ∨
      phase.inside = true ∧ phase'.inside = true ∧ ∃ closed pool', Busy producers pool' ∧
        s' = { s with closed, pool := some pool' } := by
  have same : s = { s with closed := s.closed, pool := some pool } := by rw [← built]
  cases phase with
  | testing =>
    simp only [cdnShutdown] at acted
    split at acted
    · rename_i running
      cases acted
      exact .inr (.inl ⟨rfl, running, rfl, rfl⟩)
    · rename_i running
      cases acted
      exact .inl ⟨rfl, Bool.not_eq_true _ ▸ running, rfl, rfl⟩
  | stopping =>
    cases acted
    exact .inr (.inr ⟨rfl, rfl, _, pool, busy, by rw [← built]⟩)
  | joiningListener =>
    simp only [cdnShutdown] at acted
    split at acted
    · cases acted
      exact .inr (.inr ⟨rfl, rfl, s.closed, pool, busy, same⟩)
    · cases acted
  | resetting =>
    simp only [cdnShutdown, built] at acted
    obtain ⟨pool', shut, result⟩ := Option.map_eq_some_iff.mp acted
    cases result
    exact .inr (.inr ⟨rfl, rfl, s.closed, pool', busy.step shut, rfl⟩)
  | joiningWorkers =>
    simp only [cdnShutdown, built, Option.all_some, busy.not_joined] at acted
    cases acted
  | returned => cases acted

/-- Without a pool the call returns from its test. -/
theorem cdnShutdown_unbuilt (stopped : s.running = false) (outside : phase.inside = false)
    (acted : cdnShutdown producers s phase = some (phase', s')) :
    phase = .testing ∧ phase' = .returned ∧ s' = s := by
  cases phase with
  | testing =>
    simp only [cdnShutdown, stopped] at acted
    cases acted
    exact ⟨rfl, rfl, rfl⟩
  | returned => cases acted
  | _ => cases outside

/-- A step that changes nothing of what the invariant speaks about, but for the pool. -/
theorem Sound.kept (sound : Sound producers s) (main : s'.main = s.main)
    (running : s'.running = s.running) (server : s'.server = s.server)
    (inside : s'.watcher.inside = s.watcher.inside) (left : s.watcher = .left → s'.watcher = .left)
    (none : s'.pool = none → s.pool = none)
    (busy : ∀ pool', s'.pool = some pool' → ∃ pool, s.pool = some pool ∧
      (Busy producers pool → Busy producers pool')) : Sound producers s' where
  built pool' here := by
    obtain ⟨pool, there, keeps⟩ := busy pool' here
    obtain ⟨held, unfinished⟩ := sound.built pool there
    refine ⟨keeps held, ?_⟩
    unfold Unfinished at unfinished ⊢
    rw [main, running, inside]
    exact unfinished
  unbuilt here := by
    rw [main, running, inside]
    exact sound.unbuilt (none here)
  serving := by
    rw [main, server]
    exact sound.serving
  waiting := by
    rw [main, server]
    exact sound.waiting
  joined := by
    rw [main]
    exact fun calls => left (sound.joined calls)

/-- The watcher goes on to a phase of no call, or to one that has the same inside. -/
theorem Sound.watches (sound : Sound producers s) (watcher : Watcher)
    (inside : watcher.inside = s.watcher.inside) (here : s.watcher ≠ .left) :
    Sound producers { s with watcher } :=
  sound.kept rfl rfl rfl inside (fun left => absurd left here) id fun pool built =>
    ⟨pool, built, id⟩

theorem watcherCall_sound (sound : Sound producers s) (calls : s.watcher = .shuttingCdn phase)
    (acted : cdnShutdown producers s phase = some (phase', s')) :
    Sound producers { s' with watcher := .shuttingCdn phase' } := by
  have here : s.watcher ≠ .left := by
    rw [calls]
    exact nofun
  have inside : s.watcher.inside = phase.inside := by
    rw [calls]
    rfl
  cases built : s.pool with
  | none =>
    obtain ⟨stopped, -, outside, -⟩ := sound.unbuilt built
    obtain ⟨rfl, rfl, rfl⟩ := cdnShutdown_unbuilt stopped (inside.symm.trans outside) acted
    exact sound.watches _ inside.symm here
  | some pool =>
    obtain ⟨busy, unfinished⟩ := sound.built pool built
    rcases cdnShutdown_built built busy acted with ⟨rfl, -, rfl, rfl⟩ | ⟨rfl, running, rfl, rfl⟩ |
      ⟨within, within', closed, pool', busy', rfl⟩
    · exact sound.watches _ inside.symm here
    · refine ⟨fun other same => ⟨(sound.built other same).1, ?_⟩, fun gone => ?_, sound.serving,
        sound.waiting, fun calls => absurd (sound.joined calls) here⟩
      · rcases unfinished with aborted | starting | ⟨-, serving | own⟩ | ⟨entered, -⟩ | own
        · exact .inl aborted
        · exact .inr (.inl starting)
        · exact .inr (.inr (.inr (.inl ⟨rfl, serving⟩)))
        · exact absurd (sound.joined ⟨_, own⟩) here
        · cases inside.symm.trans entered
        · exact .inr (.inr (.inr (.inr own)))
      · cases gone.symm.trans built
    · refine sound.kept rfl rfl rfl (within'.trans (inside.trans within).symm)
        (fun left => absurd left here) nofun fun other same => ⟨pool, built, fun _ => ?_⟩
      cases same
      exact busy'

theorem watcherStep_sound (sound : Sound producers s)
    (stepped : watcherStep producers s = some s') : Sound producers s' := by
  unfold watcherStep at stepped
  split at stepped
  · rename_i testing
    cases stepped
    refine sound.watches _ ?_ (by rw [testing]; exact nofun)
    rw [testing]
    cases s.flag <;> rfl
  · rename_i blocking
    cases stepped
    exact sound.watches _ (by rw [blocking]; rfl) (by rw [blocking]; exact nofun)
  · cases stepped
  · rename_i returned
    cases stepped
    exact sound.watches _ (by rw [returned]; rfl) (by rw [returned]; exact nofun)
  · rename_i calls
    obtain ⟨⟨phase', t⟩, acted, rfl⟩ := Option.map_eq_some_iff.mp stepped
    exact watcherCall_sound sound calls acted
  · rename_i shutting
    cases stepped
    have outside : s.watcher.inside = false := by rw [shutting]; rfl
    refine ⟨fun pool here => ?_, fun here => ?_, fun serves => ?_, fun waits => ?_, fun _ => rfl⟩
    · obtain ⟨busy, unfinished⟩ := sound.built pool here
      refine ⟨busy, ?_⟩
      unfold Unfinished at unfinished ⊢
      rw [outside] at unfinished
      exact unfinished
    · obtain ⟨stopped, starting, -, inside⟩ := sound.unbuilt here
      exact ⟨stopped, starting, rfl, inside⟩
    · by_cases serving : s.server = .serving
      · exact sound.serving serving
      · exact absurd ((if_neg serving).symm.trans serves) serving
    · have waiting := sound.waiting waits
      dsimp only
      split
      · exact nofun
      · exact waiting
  · cases stepped

/-- Behind `cdn.start` the CDN is up, or the watcher is taking it down. -/
theorem Unfinished.up (unfinished : Unfinished s) (serving : s.main.serving = true) :
    s.running = true ∨ s.watcher.inside = true := by
  rcases unfinished with aborted | starting | ⟨running, -⟩ | ⟨inside, -⟩ | own
  · rw [aborted] at serving
    cases serving
  · cases phase : s.main <;> simp [phase, MainPhase.starting, MainPhase.serving] at starting serving
  · exact .inl running
  · exact .inr inside
  · cases phase : s.main <;> simp [phase, MainPhase.inside, MainPhase.serving] at own serving

/-- In its own call `main` has taken the CDN down up to a place inside, or finds it up. -/
theorem Unfinished.own (unfinished : Unfinished s) (calls : s.main = .shuttingCdn phase)
    (left : s.watcher = .left) : phase = .testing ∧ s.running = true ∨ phase.inside = true := by
  unfold Unfinished at unfinished
  rw [calls, left] at unfinished
  rcases unfinished with aborted | starting | ⟨running, serving | testing⟩ | ⟨inside, -⟩ | inside
  · cases aborted
  · cases starting
  · cases serving
  · cases testing
    exact .inl ⟨rfl, running⟩
  · cases inside
  · exact .inr inside

theorem mainCall_sound (sound : Sound producers s) (calls : s.main = .shuttingCdn phase)
    (acted : cdnShutdown producers s phase = some (phase', s')) :
    Sound producers { s' with main := .shuttingCdn phase' } := by
  have left := sound.joined ⟨phase, calls⟩
  have unserved : s.server ≠ .serving := fun serves => by
    cases calls.symm.trans (sound.serving serves)
  cases built : s.pool with
  | none =>
    obtain ⟨stopped, -, outside, inside⟩ := sound.unbuilt built
    rw [calls] at inside
    obtain ⟨rfl, rfl, rfl⟩ := cdnShutdown_unbuilt stopped inside acted
    refine ⟨fun pool here => ?_, fun _ => ⟨stopped, rfl, outside, rfl⟩,
      fun serves => absurd serves unserved, nofun, fun _ => left⟩
    cases here.symm.trans built
  | some pool =>
    obtain ⟨busy, unfinished⟩ := sound.built pool built
    have own := unfinished.own calls left
    rcases cdnShutdown_built built busy acted with ⟨rfl, stopped, -, -⟩ |
      ⟨rfl, -, rfl, rfl⟩ | ⟨-, within', closed, pool', busy', rfl⟩
    · rcases own with ⟨-, running⟩ | inside
      · cases stopped.symm.trans running
      · cases inside
    · refine ⟨fun other same => ⟨(sound.built other same).1, .inr (.inr (.inr (.inr rfl)))⟩,
        fun gone => ?_, fun serves => absurd serves unserved, nofun, fun _ => left⟩
      cases gone.symm.trans built
    · refine ⟨fun other same => ?_, nofun, fun serves => absurd serves unserved, nofun,
        fun _ => left⟩
      cases same
      exact ⟨busy', .inr (.inr (.inr (.inr within')))⟩

/-- `main` goes on behind `cdn.start`. -/
theorem Sound.serves (sound : Sound producers s) (before : s.main.serving = true) (main : MainPhase)
    (after : main.serving = true) (server : GrpcServer)
    (serving : server = .serving → main = .waiting) (waiting : main = .waiting → server ≠ .none) :
    Sound producers { s with main, server } where
  built pool here := by
    obtain ⟨busy, unfinished⟩ := sound.built pool here
    refine ⟨busy, ?_⟩
    rcases unfinished.up before with running | inside
    · exact .inr (.inr (.inl ⟨running, .inl after⟩))
    · exact .inr (.inr (.inr (.inl ⟨inside, after⟩)))
  unbuilt here := by
    obtain ⟨stopped, -, outside, -⟩ := sound.unbuilt here
    cases main <;> first | exact ⟨stopped, rfl, outside, rfl⟩ | cases after
  serving := serving
  waiting := waiting
  joined := by
    rintro ⟨phase, calls⟩
    dsimp only at calls
    rw [calls] at after
    cases after

theorem mainStep_sound (sound : Sound producers s)
    (stepped : mainStep producers s works = some s') : Sound producers s' := by
  unfold mainStep at stepped
  have unserved : s.main ≠ .waiting → s.server ≠ .serving := mt sound.serving
  split at stepped
  · rename_i building
    have quiet := unserved (by rw [building]; exact nofun)
    split at stepped
    · cases stepped
      refine ⟨fun pool here => ?_, nofun, fun serves => absurd serves quiet, nofun,
        fun ⟨_, calls⟩ => (nomatch calls)⟩
      cases here
      exact ⟨s3Pool_busy, .inr (.inl rfl)⟩
    · cases stepped
      have unbuilt : ∀ pool, s.pool ≠ some pool := by
        intro pool here
        have unfinished := (sound.built pool here).2
        unfold Unfinished at unfinished
        rw [building] at unfinished
        simp [MainPhase.starting, MainPhase.serving, MainPhase.inside] at unfinished
      refine ⟨fun pool here => absurd here (unbuilt pool), fun here => ?_,
        fun serves => absurd serves quiet, nofun, fun ⟨_, calls⟩ => (nomatch calls)⟩
      obtain ⟨stopped, -, outside, -⟩ := sound.unbuilt here
      exact ⟨stopped, rfl, outside, rfl⟩
  · rename_i starting
    cases stepped
    have quiet := unserved (by rw [starting]; exact nofun)
    refine ⟨fun pool here => ⟨(sound.built pool here).1, .inr (.inl rfl)⟩, fun here => ?_,
      fun serves => absurd serves quiet, nofun, fun ⟨_, calls⟩ => (nomatch calls)⟩
    have begun := (sound.unbuilt here).2.1
    rw [starting] at begun
    cases begun
  · rename_i setting
    cases stepped
    have quiet := unserved (by rw [setting]; exact nofun)
    refine ⟨fun pool here => ⟨(sound.built pool here).1, .inr (.inr (.inl ⟨rfl, .inl rfl⟩))⟩,
      fun here => ?_, fun serves => absurd serves quiet, nofun, fun ⟨_, calls⟩ => (nomatch calls)⟩
    have begun := (sound.unbuilt here).2.1
    rw [setting] at begun
    cases begun
  · rename_i building
    have serving : s.main.serving = true := by rw [building]; rfl
    split at stepped
    · cases stepped
      exact sound.serves serving .waiting rfl .serving (fun _ => rfl) nofun
    · cases stepped
      have quiet := unserved (by rw [building]; exact nofun)
      exact sound.serves serving .joining rfl s.server (fun serves => absurd serves quiet) nofun
  · rename_i waiting
    split at stepped
    · rename_i down
      cases stepped
      refine sound.serves (by rw [waiting]; rfl) .joining rfl s.server (fun serves => ?_) nofun
      cases down.symm.trans serves
    · cases stepped
  · rename_i joining
    split at stepped
    · rename_i left
      cases stepped
      have quiet := unserved (by rw [joining]; exact nofun)
      have serving : s.main.serving = true := by rw [joining]; rfl
      have outside : s.watcher.inside = false := by rw [left]; rfl
      refine ⟨fun pool here => ?_, fun here => ?_, fun serves => absurd serves quiet, nofun,
        fun _ => left⟩
      · obtain ⟨busy, unfinished⟩ := sound.built pool here
        have running := (unfinished.up serving).resolve_right (by rw [outside]; exact nofun)
        exact ⟨busy, .inr (.inr (.inl ⟨running, .inr rfl⟩))⟩
      · obtain ⟨stopped, -, -, -⟩ := sound.unbuilt here
        exact ⟨stopped, rfl, outside, rfl⟩
    · cases stepped
  · rename_i returned
    cases stepped
    have quiet := unserved (by rw [returned]; exact nofun)
    have left := sound.joined ⟨_, returned⟩
    refine ⟨fun pool here => ?_, fun here => ?_, fun serves => absurd serves quiet, nofun,
      fun ⟨_, calls⟩ => (nomatch calls)⟩
    · rcases (sound.built pool here).2.own returned left with ⟨same, -⟩ | inside
      · cases same
      · cases inside
    · obtain ⟨stopped, -, outside, -⟩ := sound.unbuilt here
      exact ⟨stopped, rfl, outside, rfl⟩
  · rename_i calls
    obtain ⟨⟨phase', t⟩, acted, rfl⟩ := Option.map_eq_some_iff.mp stepped
    exact mainCall_sound sound calls acted
  · cases stepped
  · cases stepped

theorem poolStep_cases (stepped : poolStep s event = some s') : ∃ pool pool',
    s.pool = some pool ∧ pool.step event = some pool' ∧ s' = { s with pool := some pool' } := by
  unfold poolStep at stepped
  split at stepped
  · cases stepped
  · cases stepped
  · rename_i pool t fn built
    split at stepped
    · cases stepped
    · obtain ⟨pool', moved, rfl⟩ := Option.map_eq_some_iff.mp stepped
      exact ⟨pool, pool', built, moved, rfl⟩
  · rename_i pool built _ _
    obtain ⟨pool', moved, rfl⟩ := Option.map_eq_some_iff.mp stepped
    exact ⟨pool, pool', built, moved, rfl⟩

theorem poolStep_sound (sound : Sound producers s) (stepped : poolStep s event = some s') :
    Sound producers s' := by
  obtain ⟨pool, pool', built, moved, rfl⟩ := poolStep_cases stepped
  refine sound.kept rfl rfl rfl rfl id nofun fun other same => ⟨pool, built, fun busy => ?_⟩
  cases same
  exact busy.step moved

theorem step_sound (sound : Sound producers s) (stepped : step producers s event = some s') :
    Sound producers s' := by
  cases event with
  | setFlag =>
    simp only [step] at stepped
    split at stepped
    · cases stepped
    · cases stepped
      exact sound.kept rfl rfl rfl rfl id id fun pool here => ⟨pool, here, id⟩
  | notify =>
    simp only [step] at stepped
    split at stepped
    · cases stepped
      refine sound.kept rfl rfl rfl ?_ ?_ id fun pool here => ⟨pool, here, id⟩
      · dsimp only
        split
        · rename_i asleep
          rw [asleep]
          rfl
        · rfl
      · intro left
        simp [left]
    · cases stepped
  | wake =>
    simp only [step] at stepped
    split at stepped
    · rename_i asleep
      cases stepped
      exact sound.watches .testing (by rw [asleep]; rfl) (by rw [asleep]; exact nofun)
    · cases stepped
  | watcher => exact watcherStep_sound sound stepped
  | main works => exact mainStep_sound sound stepped
  | throws =>
    simp only [step] at stepped
    split at stepped
    · rename_i throws
      cases stepped
      refine ⟨fun pool here => ⟨(sound.built pool here).1, .inl rfl⟩, fun here => ?_,
        fun serves => ?_, nofun, fun ⟨_, calls⟩ => (nomatch calls)⟩
      · obtain ⟨stopped, -, outside, -⟩ := sound.unbuilt here
        exact ⟨stopped, rfl, outside, rfl⟩
      · rw [sound.serving serves] at throws
        cases throws
    · cases stepped
  | listener works =>
    simp only [step, listenerStep] at stepped
    split at stepped
    · cases stepped
      exact sound.kept rfl rfl rfl rfl id id fun pool here => ⟨pool, here, id⟩
    · split at stepped
      · cases stepped
        exact sound.kept rfl rfl rfl rfl id id fun pool here => ⟨pool, here, id⟩
      · cases stepped
    · cases stepped
    · cases stepped
  | pool event => exact poolStep_sound sound stepped

theorem start_sound : Sound producers (start Task) where
  built := nofun
  unbuilt _ := ⟨rfl, rfl, rfl, rfl⟩
  serving := nofun
  waiting := nofun
  joined := fun ⟨_, calls⟩ => (nomatch calls)

end

end Shutdown
end Crown
