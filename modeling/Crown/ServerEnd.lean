import Crown.ServerShutdown

/-! Whether the process ends: when `main` can still return, and whether the server is told to
shut down. -/
namespace Crown.Shutdown

open Lib

section

variable {Task : Type} {producers : Nat} {s s' : Servers Task}

/-- `main` has thrown, or `s3_` is set, or `server_` serves with the watcher gone. -/
def Lost (s : Servers Task) : Prop :=
  s.main = .aborted ∨ s.pool ≠ none ∨ s.server = .serving ∧ s.watcher = .left

theorem Lost.not_returned (lost : Lost s) (sound : Sound producers s) : s.main ≠ .returned := by
  intro returned
  rcases lost with aborted | built | ⟨serving, -⟩
  · cases returned.symm.trans aborted
  · obtain ⟨pool, here⟩ := Option.ne_none_iff_exists'.mp built
    have unfinished := (sound.built pool here).2
    unfold Unfinished at unfinished
    rw [returned] at unfinished
    simp [MainPhase.starting, MainPhase.serving, MainPhase.inside] at unfinished
  · cases returned.symm.trans (sound.serving serving)

/-- The pool is never taken away. -/
theorem cdnShutdown_pool (sound : Sound producers s) (built : s.pool ≠ none)
    (acted : cdnShutdown producers s phase = some (phase', s')) : s'.pool ≠ none := by
  obtain ⟨pool, here⟩ := Option.ne_none_iff_exists'.mp built
  rcases cdnShutdown_built here (sound.built pool here).1 acted with
    ⟨-, -, -, rfl⟩ | ⟨-, -, -, rfl⟩ | ⟨-, -, closed, pool', -, rfl⟩
  · exact built
  · exact built
  · exact nofun

theorem cdnShutdown_frame (acted : cdnShutdown producers s phase = some (phase', s')) :
    s'.main = s.main ∧ s'.watcher = s.watcher ∧ s'.server = s.server ∧ s'.flag = s.flag := by
  cases phase <;> simp only [cdnShutdown] at acted
  case resetting =>
    split at acted
    · cases acted
      exact ⟨rfl, rfl, rfl, rfl⟩
    · obtain ⟨pool', -, result⟩ := Option.map_eq_some_iff.mp acted
      cases result
      exact ⟨rfl, rfl, rfl, rfl⟩
  all_goals
    try split at acted
    all_goals cases acted; try exact ⟨rfl, rfl, rfl, rfl⟩

theorem watcherStep_lost (sound : Sound producers s) (lost : Lost s)
    (stepped : watcherStep producers s = some s') : Lost s' := by
  have moved : s'.main = s.main ∧ (s.pool ≠ none → s'.pool ≠ none) ∧ s.watcher ≠ .left := by
    unfold watcherStep at stepped
    split at stepped
    case h_5 calls =>
      obtain ⟨⟨phase', t⟩, acted, rfl⟩ := Option.map_eq_some_iff.mp stepped
      have kept : s.pool ≠ none → t.pool ≠ none := fun built => cdnShutdown_pool sound built acted
      exact ⟨(cdnShutdown_frame acted).1, kept, by rw [calls]; exact nofun⟩
    all_goals
      rename_i here
      cases stepped
      try exact ⟨rfl, id, by rw [here]; exact nofun⟩
  obtain ⟨main, pool, here⟩ := moved
  rcases lost with aborted | built | ⟨-, left⟩
  · exact .inl (main.trans aborted)
  · exact .inr (.inl (pool built))
  · exact absurd left here

theorem mainStep_lost (sound : Sound producers s) (lost : Lost s)
    (stepped : mainStep producers s works = some s') : Lost s' := by
  have moved : s.main ≠ .aborted ∧ (s.pool ≠ none → s'.pool ≠ none) ∧
      (s.server = .serving → s.main ≠ .waiting) := by
    unfold mainStep at stepped
    split at stepped
    case h_8 calls =>
      obtain ⟨⟨phase', t⟩, acted, rfl⟩ := Option.map_eq_some_iff.mp stepped
      have kept : s.pool ≠ none → t.pool ≠ none := fun built => cdnShutdown_pool sound built acted
      rw [calls]
      exact ⟨nofun, kept, nofun⟩
    all_goals
      rename_i here
      rw [here]
      try split at stepped
      all_goals cases stepped
      all_goals simp_all
  obtain ⟨running, pool, unserved⟩ := moved
  rcases lost with aborted | built | ⟨serving, -⟩
  · exact absurd aborted running
  · exact .inr (.inl (pool built))
  · exact absurd (sound.serving serving) (unserved serving)

/-- Where `main` cannot return it never can again. -/
theorem step_lost (sound : Sound producers s) (lost : Lost s)
    (stepped : step producers s event = some s') : Lost s' := by
  cases event with
  | watcher => exact watcherStep_lost sound lost stepped
  | main works => exact mainStep_lost sound lost stepped
  | throws =>
    simp only [step] at stepped
    split at stepped <;> cases stepped
    exact .inl rfl
  | setFlag =>
    simp only [step] at stepped
    split at stepped <;> cases stepped
    exact lost
  | notify | wake =>
    simp only [step] at stepped
    split at stepped <;> cases stepped
    refine lost.imp_right (Or.imp_right fun unserved => ⟨unserved.1, ?_⟩)
    simp_all
  | listener works =>
    simp only [step, listenerStep] at stepped
    split at stepped
    · cases stepped
      exact lost
    · split at stepped <;> cases stepped
      exact lost
    · cases stepped
    · cases stepped
  | pool event =>
    obtain ⟨pool, pool', built, -, rfl⟩ := poolStep_cases stepped
    exact .inr (.inl (by simp))

/-- Some further steps bring `main` to its return. -/
def MayReturn (producers : Nat) (s : Servers Task) : Prop :=
  ∃ events t, Run (fun s event t => step producers s event = some t) s events t ∧
    t.main = .returned

theorem MayReturn.back (rest : MayReturn producers s') (event : Event Task)
    (stepped : step producers s event = some s') : MayReturn producers s := by
  obtain ⟨events, t, run, returned⟩ := rest
  exact ⟨event :: events, t, .cons stepped run, returned⟩

/-- The pool is not there and `running_` is not set. -/
structure Bare (s : Servers Task) : Prop where
  pool : s.pool = none
  running : s.running = false

/-- At its join, with the watcher gone, `main` returns. -/
theorem returns_joined (bare : Bare s) (joining : s.main = .joining) (left : s.watcher = .left) :
    MayReturn producers s := by
  have last : MayReturn producers { s with main := .returned } := ⟨[], _, .nil, rfl⟩
  have returned := last.back (s := { s with main := .shuttingCdn .returned }) (.main true) rfl
  have testing := returned.back (s := { s with main := .shuttingCdn .testing }) (.main true) <| by
    simp [step, mainStep, cdnShutdown, bare.running]
  exact testing.back (.main true) (by simp [step, mainStep, joining, left])

/-- The server once the watcher is gone. -/
def toldServer (s : Servers Task) : GrpcServer :=
  if s.server = .serving then .shutDown else s.server

/-- A state that differs from `s` in what the watcher and those who ask do. -/
structure Alike (s t : Servers Task) : Prop where
  bare : Bare t
  main : t.main = s.main
  server : t.server = s.server

/-- Every state in which the watcher has come to its end, and told the server on the way, may
have `main` return. -/
def Ending (producers : Nat) (s : Servers Task) : Prop :=
  ∀ t : Servers Task, Bare t → t.watcher = .left → t.main = s.main → t.server = toldServer s →
    MayReturn producers t

variable {t : Servers Task}

theorem leaves_shuttingServer (ending : Ending producers s) (alike : Alike s t)
    (watcher : t.watcher = .shuttingServer) : MayReturn producers t := by
  refine (ending { t with server := toldServer s, watcher := .left }
    ⟨alike.bare.pool, alike.bare.running⟩ rfl alike.main rfl).back .watcher ?_
  simp [step, watcherStep, watcher, alike.server, toldServer]

theorem leaves_returned (ending : Ending producers s) (alike : Alike s t)
    (watcher : t.watcher = .shuttingCdn .returned) : MayReturn producers t := by
  refine (leaves_shuttingServer (t := { t with watcher := .shuttingServer }) ending
    ⟨⟨alike.bare.pool, alike.bare.running⟩, alike.main, alike.server⟩ rfl).back .watcher ?_
  simp [step, watcherStep, watcher]

theorem leaves_called (ending : Ending producers s) (alike : Alike s t)
    (watcher : t.watcher = .shuttingCdn .testing) : MayReturn producers t := by
  refine (leaves_returned (t := { t with watcher := .shuttingCdn .returned }) ending
    ⟨⟨alike.bare.pool, alike.bare.running⟩, alike.main, alike.server⟩ rfl).back .watcher ?_
  simp [step, watcherStep, watcher, cdnShutdown, alike.bare.running]

theorem leaves_asked (ending : Ending producers s) (alike : Alike s t)
    (watcher : t.watcher = .testing) (asked : t.flag = true) : MayReturn producers t := by
  refine (leaves_called (t := { t with watcher := .shuttingCdn .testing }) ending
    ⟨⟨alike.bare.pool, alike.bare.running⟩, alike.main, alike.server⟩ rfl).back .watcher ?_
  simp [step, watcherStep, watcher, asked]

/-- Who asks has notified before, and asks again. -/
theorem leaves_testing (ending : Ending producers s) (alike : Alike s t)
    (watcher : t.watcher = .testing) : MayReturn producers t := by
  have quiet : ∀ u : Servers Task, Alike s u → u.watcher = .testing → u.notifying = false →
      MayReturn producers u := by
    intro u alike watcher silent
    have again : Alike s { u with flag := true, notifying := true } :=
      ⟨⟨alike.bare.pool, alike.bare.running⟩, alike.main, alike.server⟩
    refine (leaves_asked ending again watcher rfl).back .setFlag ?_
    simp [step, silent]
  cases notifying : t.notifying with
  | false => exact quiet t alike watcher notifying
  | true =>
    refine (quiet { t with notifying := false }
      ⟨⟨alike.bare.pool, alike.bare.running⟩, alike.main, alike.server⟩ watcher rfl).back .notify ?_
    simp [step, notifying, watcher]

theorem leaves_asleep (ending : Ending producers s) (alike : Alike s t)
    (watcher : t.watcher = .asleep) : MayReturn producers t := by
  refine (leaves_testing (t := { t with watcher := .testing }) ending
    ⟨⟨alike.bare.pool, alike.bare.running⟩, alike.main, alike.server⟩ rfl).back .wake ?_
  simp [step, watcher]

theorem leaves_blocking (ending : Ending producers s) (alike : Alike s t)
    (watcher : t.watcher = .blocking) : MayReturn producers t := by
  refine (leaves_asleep (t := { t with watcher := .asleep }) ending
    ⟨⟨alike.bare.pool, alike.bare.running⟩, alike.main, alike.server⟩ rfl).back .watcher ?_
  simp [step, watcherStep, watcher]

/-- Where the watcher is not in the inside of its call it can come to its end. -/
theorem watcher_leaves (bare : Bare s) (here : s.watcher ≠ .left)
    (outside : s.watcher.inside = false) (ending : Ending producers s) : MayReturn producers s := by
  have alike : Alike s s := ⟨bare, rfl, rfl⟩
  cases watcher : s.watcher with
  | testing => exact leaves_testing ending alike watcher
  | blocking => exact leaves_blocking ending alike watcher
  | asleep => exact leaves_asleep ending alike watcher
  | shuttingServer => exact leaves_shuttingServer ending alike watcher
  | left => exact absurd watcher here
  | shuttingCdn phase =>
    rw [watcher] at outside
    cases phase with
    | testing => exact leaves_called ending alike watcher
    | returned => exact leaves_returned ending alike watcher
    | _ => cases outside

/-- At its join `main` returns, once the watcher has come to its end. -/
theorem returns_joining (bare : Bare s) (joining : s.main = .joining)
    (outside : s.watcher.inside = false) : MayReturn producers s := by
  by_cases left : s.watcher = .left
  · exact returns_joined bare joining left
  · refine watcher_leaves bare left outside fun t bare gone main _ => ?_
    exact returns_joined bare (main.trans joining) gone

theorem returns_building (bare : Bare s) (building : s.main = .buildingServer)
    (outside : s.watcher.inside = false) : MayReturn producers s := by
  refine (returns_joining (s := { s with main := .joining }) ⟨bare.pool, bare.running⟩ rfl
    outside).back (.main false) ?_
  simp [step, mainStep, building]

/-- A server that has been told to shut down, or can yet be, lets `main` out of `Wait`. -/
theorem returns_waiting (bare : Bare s) (waiting : s.main = .waiting) (served : s.server ≠ .none)
    (outside : s.watcher.inside = false) (told : ¬(s.server = .serving ∧ s.watcher = .left)) :
    MayReturn producers s := by
  have down : ∀ t : Servers Task, Bare t → t.main = .waiting → t.watcher.inside = false →
      t.server = .shutDown → MayReturn producers t := by
    intro t bare waiting outside down
    refine (returns_joining (s := { t with main := .joining }) ⟨bare.pool, bare.running⟩ rfl
      outside).back (.main true) ?_
    simp [step, mainStep, waiting, down]
  cases server : s.server with
  | none => exact absurd server served
  | shutDown => exact down s bare waiting outside server
  | serving =>
    have here : s.watcher ≠ .left := fun left => told ⟨server, left⟩
    refine watcher_leaves bare here outside fun t bare gone main now => ?_
    refine down t bare (main.trans waiting) (by rw [gone]; rfl) ?_
    rw [now, toldServer, if_pos server]

theorem returns_of_not_lost (sound : Sound producers s) (hopeful : ¬Lost s) :
    MayReturn producers s := by
  have pool : s.pool = none := by
    by_contra built
    exact hopeful (.inr (.inl built))
  obtain ⟨stopped, starting, outside, inside⟩ := sound.unbuilt pool
  have bare : Bare s := ⟨pool, stopped⟩
  cases main : s.main with
  | buildingS3 =>
    refine (returns_building (s := { s with main := .buildingServer }) ⟨pool, stopped⟩ rfl
      outside).back (.main false) ?_
    simp [step, mainStep, main]
  | startingListener | settingRunning =>
    rw [main] at starting
    cases starting
  | buildingServer => exact returns_building bare main outside
  | waiting =>
    refine returns_waiting bare main (sound.waiting main) outside fun late => ?_
    exact hopeful (.inr (.inr late))
  | joining => exact returns_joining bare main outside
  | returned => exact ⟨[], s, .nil, main⟩
  | aborted => exact absurd (.inl main) hopeful
  | shuttingCdn phase =>
    have last : MayReturn producers { s with main := .returned } := ⟨[], _, .nil, rfl⟩
    have returned := last.back (s := { s with main := .shuttingCdn .returned }) (.main true) rfl
    rw [main] at inside
    cases phase with
    | testing =>
      refine returned.back (.main true) ?_
      simp [step, mainStep, main, cdnShutdown, stopped]
    | returned => exact last.back (.main true) (by simp [step, mainStep, main])
    | _ => cases inside

/-- In whatever order the threads run, and however often the end is asked for: from a state
reached, `main` can still return exactly if it has not thrown, `s3_` was not built, and the
watcher did not end before there was a server to tell. -/
theorem run_returns_iff (producers : Nat) (run : Run
      (fun s event t => step producers s event = some t) (start Task) events s) :
    (∃ later t, Run (fun s event t => step producers s event = some t) s later t ∧
        t.main = .returned) ↔
      s.main ≠ .aborted ∧ s.pool = none ∧ ¬(s.server = .serving ∧ s.watcher = .left) := by
  have sound : Sound producers s :=
    run.invariant start_sound fun _ _ _ sound stepped => step_sound sound stepped
  have found : Lost s ↔
      ¬(s.main ≠ .aborted ∧ s.pool = none ∧ ¬(s.server = .serving ∧ s.watcher = .left)) := by
    unfold Lost
    tauto
  constructor
  · rintro ⟨later, t, further, returned⟩
    by_contra hopeless
    have kept : ∀ (s : Servers Task) e t, Lost s ∧ Sound producers s → step producers s e = some t →
        Lost t ∧ Sound producers t := fun _ _ _ held stepped =>
      ⟨step_lost held.2 held.1 stepped, step_sound held.2 stepped⟩
    have lost := further.invariant ⟨found.mpr hopeless, sound⟩ kept
    exact lost.1.not_returned lost.2 returned
  · exact fun hopeful => returns_of_not_lost sound fun lost => found.mp lost hopeful

end

/-- `cdn.start` and `server.init` succeed. -/
def startUp : List (Event Nat) := [.main true, .main true, .main true, .main true]

/-- A server that has come up: the end may be asked for as often as one likes. -/
theorem startUp_returns : ∃ s : Servers Nat, Run (fun s event t => step 1 s event = some t)
    (start Nat) startUp s ∧ s.server = .serving ∧
    ¬∃ later t, Run (fun s event t => step 1 s event = some t) s later t ∧ t.main = .returned := by
  have run : Run (fun s event t => step 1 s event = some t) (start Nat) startUp _ :=
    run_of_execute rfl
  refine ⟨_, run, rfl, fun returns => ?_⟩
  obtain ⟨-, unbuilt, -⟩ := (run_returns_iff 1 run).mp returns
  cases unbuilt

section

variable {Task : Type} {producers : Nat} {s s' : Servers Task}

/-- Nobody asks for the end before the CDN is up. -/
def asksUp (s : Servers Task) : Event Task → Bool
  | .setFlag => s.main.serving && s.pool.isSome
  | _ => true

/-- The watcher waits, or is on its way through `cdn.shutdown` of a CDN that is up. -/
structure Standing (s : Servers Task) : Prop where
  asked : s.flag = true → s.pool ≠ none ∧ (s.running = true ∨ s.watcher.inside = true) ∧
    (s.main.serving = true ∨ s.main = .aborted)
  unasked : s.flag = false → s.watcher = .testing ∨ s.watcher = .blocking ∨ s.watcher = .asleep
  watcher : s.watcher ≠ .shuttingCdn .returned ∧ s.watcher ≠ .shuttingServer ∧ s.watcher ≠ .left
  server : s.server ≠ .shutDown

theorem watcherStep_standing (sound : Sound producers s) (standing : Standing s)
    (stepped : watcherStep producers s = some s') : Standing s' := by
  obtain ⟨asked, unasked, ⟨notReturned, notShutting, notLeft⟩, server⟩ := standing
  unfold watcherStep at stepped
  split at stepped
  · rename_i testing
    cases stepped
    cases flag : s.flag with
    | false => exact ⟨nofun, fun _ => .inr (.inl rfl), ⟨nofun, nofun, nofun⟩, server⟩
    | true =>
      obtain ⟨built, up, main⟩ := asked flag
      have running := up.resolve_right (by rw [testing]; exact nofun)
      exact ⟨fun _ => ⟨built, .inl running, main⟩, nofun, ⟨nofun, nofun, nofun⟩, server⟩
  · rename_i blocking
    cases stepped
    refine ⟨fun flag => ?_, fun _ => .inr (.inr rfl), ⟨nofun, nofun, nofun⟩, server⟩
    obtain ⟨built, up, main⟩ := asked flag
    exact ⟨built, .inl (up.resolve_right (by rw [blocking]; exact nofun)), main⟩
  · cases stepped
  · rename_i returned
    exact absurd returned notReturned
  · rename_i phase _ calls
    obtain ⟨⟨phase', t⟩, acted, rfl⟩ := Option.map_eq_some_iff.mp stepped
    obtain ⟨-, -, same, flag⟩ := cdnShutdown_frame acted
    have set : s.flag = true := by
      refine Bool.not_eq_false _ ▸ fun unset => ?_
      have waits := unasked unset
      rw [calls] at waits
      rcases waits with waits | waits | waits <;> cases waits
    obtain ⟨built, up, main⟩ := asked set
    rw [calls] at up
    obtain ⟨pool, here⟩ := Option.ne_none_iff_exists'.mp built
    have unset : ∀ {P : Prop}, t.flag = false → P := fun off => by
      cases off.symm.trans (flag.trans set)
    rcases cdnShutdown_built here (sound.built pool here).1 acted with ⟨rfl, stopped, -, -⟩ |
      ⟨rfl, -, rfl, rfl⟩ | ⟨-, within', closed, pool', -, rfl⟩
    · rcases up with running | inside
      · cases stopped.symm.trans running
      · cases inside
    · exact ⟨fun _ => ⟨built, .inr rfl, main⟩, unset, ⟨nofun, nofun, nofun⟩, server⟩
    · refine ⟨fun _ => ⟨nofun, .inr within', main⟩, unset, ⟨fun returned => ?_, nofun, nofun⟩,
        server⟩
      cases returned
      cases within'
  · rename_i shutting
    exact absurd shutting notShutting
  · rename_i left
    exact absurd left notLeft

/-- `main` does not get past its join. -/
theorem mainStep_standing (standing : Standing s)
    (stepped : mainStep producers s works = some s') : Standing s' := by
  obtain ⟨asked, unasked, outside, server⟩ := standing
  have moved : s'.flag = s.flag ∧ s'.watcher = s.watcher ∧ s'.server ≠ .shutDown ∧
      (s.main.serving = true → s'.pool = s.pool ∧ s'.running = s.running ∧
        s'.main.serving = true) ∧ s.main ≠ .aborted := by
    unfold mainStep at stepped
    split at stepped
    case h_8 calls =>
      obtain ⟨⟨phase', t⟩, acted, rfl⟩ := Option.map_eq_some_iff.mp stepped
      obtain ⟨-, watcher, same, flag⟩ := cdnShutdown_frame acted
      rw [calls]
      exact ⟨flag, watcher, same ▸ server, nofun, nofun⟩
    all_goals
      rename_i here
      rw [here]
      try split at stepped
      all_goals cases stepped
      all_goals simp_all [MainPhase.serving]
  obtain ⟨flag, watcher, up, serves, running⟩ := moved
  refine ⟨fun set => ?_, fun unset => ?_, ?_, up⟩
  · obtain ⟨built, here, main⟩ := asked (flag.symm.trans set)
    obtain ⟨pool, same, serving⟩ := serves (main.resolve_right running)
    rw [pool, same, watcher]
    exact ⟨built, here, .inl serving⟩
  · rw [watcher]
    exact unasked (flag.symm.trans unset)
  · rw [watcher]
    exact outside

theorem Standing.woken (standing : Standing s) (asleep : s.watcher = .asleep) (notifying : Bool) :
    Standing { s with notifying, watcher := .testing } := by
  refine ⟨fun set => ?_, fun _ => .inl rfl, ⟨nofun, nofun, nofun⟩, standing.server⟩
  obtain ⟨built, up, main⟩ := standing.asked set
  exact ⟨built, .inl (up.resolve_right (by rw [asleep]; exact nofun)), main⟩

theorem step_standing (sound : Sound producers s) (standing : Standing s)
    (asks : asksUp s event = true) (stepped : step producers s event = some s') : Standing s' := by
  cases event with
  | watcher => exact watcherStep_standing sound standing stepped
  | main works => exact mainStep_standing standing stepped
  | setFlag =>
    simp only [step] at stepped
    split at stepped <;> cases stepped
    simp only [asksUp, Bool.and_eq_true] at asks
    obtain ⟨serving, there⟩ := asks
    obtain ⟨pool, built⟩ := Option.isSome_iff_exists.mp there
    have up := (sound.built pool built).2.up serving
    exact ⟨fun _ => ⟨by simp [built], up, .inl serving⟩, by simp, standing.watcher,
      standing.server⟩
  | notify =>
    simp only [step] at stepped
    split at stepped <;> cases stepped
    by_cases asleep : s.watcher = .asleep
    · rw [if_pos asleep]
      exact standing.woken asleep false
    · rw [if_neg asleep]
      exact ⟨standing.asked, standing.unasked, standing.watcher, standing.server⟩
  | wake =>
    simp only [step] at stepped
    split at stepped <;> cases stepped
    rename_i asleep
    exact standing.woken asleep s.notifying
  | throws =>
    simp only [step] at stepped
    split at stepped <;> cases stepped
    refine ⟨fun set => ?_, standing.unasked, standing.watcher, standing.server⟩
    obtain ⟨built, up, -⟩ := standing.asked set
    exact ⟨built, up, .inr rfl⟩
  | listener works =>
    simp only [step, listenerStep] at stepped
    split at stepped
    · cases stepped
      exact ⟨standing.asked, standing.unasked, standing.watcher, standing.server⟩
    · split at stepped <;> cases stepped
      exact ⟨standing.asked, standing.unasked, standing.watcher, standing.server⟩
    · cases stepped
    · cases stepped
  | pool event =>
    obtain ⟨pool, pool', built, -, rfl⟩ := poolStep_cases stepped
    refine ⟨fun set => ?_, standing.unasked, standing.watcher, standing.server⟩
    exact ⟨by simp, (standing.asked set).2⟩

/-- Where nobody asks for the end before the CDN is up, the watcher never comes to an end, and
the server is never told to shut down. -/
theorem run_never_told (producers : Nat) (run : Run (Guarded (fun s event => asksUp s event = true)
      fun s event t => step producers s event = some t) (start Task) events s) :
    s.watcher ≠ .left ∧ s.server ≠ .shutDown := by
  have first : Sound producers (start Task) ∧ Standing (start Task) :=
    ⟨start_sound, nofun, fun _ => .inl rfl, ⟨nofun, nofun, nofun⟩, nofun⟩
  have kept : ∀ (s : Servers Task) e t, Sound producers s ∧ Standing s →
      Guarded (fun s event => asksUp s event = true)
        (fun s event t => step producers s event = some t) s e t →
      Sound producers t ∧ Standing t := fun _ _ _ held stepped =>
    ⟨step_sound held.1 stepped.2, step_standing held.1 held.2 stepped.1 stepped.2⟩
  have last := run.invariant first kept
  exact ⟨last.2.watcher.2.2, last.2.server⟩

end

/-- The end is asked for when all is up, and the watcher goes on until it joins the workers. -/
def askedLate : List (Event Nat) :=
  startUp ++ [.setFlag, .notify, .listener true, .watcher, .watcher, .watcher, .listener true,
    .watcher, .watcher]

theorem askedLate_never_told : ∃ s : Servers Nat, s.watcher = .shuttingCdn .joiningWorkers ∧
    s.server = .serving ∧ s.watcher ≠ .left ∧ s.server ≠ .shutDown := by
  have run : Run (Guarded (fun s event => asksUp s event = true)
      fun s event t => step 1 s event = some t) (start Nat) askedLate _ :=
    guarded_of_execute rfl
  exact ⟨_, rfl, rfl, run_never_told 1 run⟩

end Crown.Shutdown
