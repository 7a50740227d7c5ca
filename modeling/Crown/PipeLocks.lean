import Crown.VideoPipes

/-! When calls of `runffmpegpipe` wait for each other: a process also has the ends that other calls
had open when it was forked, and the end of an input comes only when every process has closed it. -/
namespace Crown

open Lib

variable {τ : Type}

/-- The thread is between its first `pipe` and its `fork`. -/
def MainPhase.inSection : MainPhase → Bool
  | .halfPiped | .piped => true
  | _ => false

/-- The thread has not come to its `fork`. -/
def MainPhase.early : MainPhase → Bool
  | .begun | .halfPiped | .piped => true
  | _ => false

/-- The thread is between its first `close` and its return. -/
def MainPhase.closedIn : MainPhase → Bool
  | .halfClosed | .reading | .readAll | .closed | .joined => true
  | _ => false

/-- The thread is between its second `close` and its return. -/
def MainPhase.closedOut : MainPhase → Bool
  | .reading | .readAll | .closed | .joined => true
  | _ => false

namespace PipeCall

variable {place : Nat} {call call' : PipeCall τ}

/-- What the threads have closed, and what the process cannot have. -/
structure Shut (place : Nat) (call : PipeCall τ) : Prop where
  begun : call.main = .begun → call.opened = []
  inRead : call.main.closedIn = true → .inRead ∉ call.opened
  outWrite : call.main.closedOut = true → .outWrite ∉ call.opened
  inWrite : call.writer = .done → .inWrite ∉ call.opened
  held : (∃ t unsent, call.child = .running t unsent) → (place, .inWrite) ∉ call.held
  gone : call.child = .unborn ∨ call.Ended → call.held = []

/-- The process is there. -/
def Alive (call : PipeCall τ) : Prop :=
  call.child = .forked ∨ ∃ t unsent, call.child = .running t unsent

theorem Shut.alive (shut : call.Shut place) (held : x ∈ call.held) : call.Alive := by
  cases child : call.child with
  | forked => exact .inl child
  | running t unsent => exact .inr ⟨t, unsent, child⟩
  | unborn =>
    rw [shut.gone (.inl child)] at held
    cases held
  | ended status =>
    rw [shut.gone (.inr ⟨status, child⟩)] at held
    cases held

end PipeCall

namespace Pipes

open PipeCall

variable {tool : Tool τ} {capacity place : Nat} {s s' : Pipes τ}
variable {call call' : PipeCall τ} {action : Action}

/-- What a step makes of a call, but for the data: a `fork` takes over the ends that are open, and
nothing else adds to what a process has. -/
structure Forks (s : Pipes τ) (call call' : PipeCall τ) : Prop where
  piped : call.main = .piped
  forked : call'.main = .forked
  born : call'.born = s.forks + 1
  held : call'.held = s.openEnds

structure GoesOn (call call' : PipeCall τ) (action : Action) : Prop where
  born : call'.born = call.born
  held : ∀ x ∈ call'.held, x ∈ call.held
  early : call'.main.early = true → call.main.early = true
  inSection : call'.main.inSection = true → call.main.inSection = true ∨ action = .pipeIn

theorem GoesOn.of_main (main : call'.main = call.main) (born : call'.born = call.born)
    (held : ∀ x ∈ call'.held, x ∈ call.held) : GoesOn call call' action :=
  ⟨born, held, fun early => main ▸ early, fun inSection => .inl (main ▸ inSection)⟩

theorem GoesOn.of_past (born : call'.born = call.born) (held : call'.held = call.held)
    (past : call'.main.early = false ∧ call'.main.inSection = false) :
    GoesOn call call' action where
  born := born
  held x member := held ▸ member
  early early := by
    rw [past.1] at early
    cases early
  inSection inSection := by
    rw [past.2] at inSection
    cases inSection

theorem mainAct_cases (acted : mainAct s place call action = some call') :
    (action = .fork ∧ Forks s call call') ∨ (action ≠ .fork ∧ GoesOn call call' action) := by
  unfold mainAct at acted
  split at acted
  case h_1 phase =>
    cases acted
    exact .inr ⟨nofun, rfl, fun _ member => member, fun _ => by rw [phase]; rfl, fun _ => .inr rfl⟩
  case h_3 phase =>
    cases acted
    exact .inr ⟨nofun, rfl, fun _ member => member, fun _ => by rw [phase]; rfl,
      fun _ => .inl (by rw [phase]; rfl)⟩
  case h_5 phase =>
    cases acted
    exact .inl ⟨rfl, phase, rfl, rfl, rfl⟩
  case h_9 | h_10 | h_12 =>
    split at acted
    · cases acted
      refine .inr ⟨nofun, .of_past rfl rfl ?_⟩
      simp [*, MainPhase.early, MainPhase.inSection]
    · cases acted
  case h_13 =>
    split at acted
    · cases acted
      exact .inr ⟨nofun, .of_past rfl rfl ⟨rfl, rfl⟩⟩
    · cases acted
  case h_14 => cases acted
  all_goals
    cases acted
    exact .inr ⟨nofun, .of_past rfl rfl ⟨rfl, rfl⟩⟩

theorem writerAct_cases (acted : writerAct capacity s place call action = some call') :
    action ≠ .fork ∧ GoesOn call call' action := by
  unfold writerAct at acted
  split at acted
  case h_4 =>
    cases acted
    exact ⟨nofun, .of_main rfl rfl fun _ member => member⟩
  case h_5 => cases acted
  all_goals
    split at acted
    · cases acted
      exact ⟨nofun, .of_main rfl rfl fun _ member => member⟩
    · cases acted

theorem childAct_cases (acted : childAct tool capacity s place call action = some call') :
    action ≠ .fork ∧ GoesOn call call' action := by
  unfold childAct at acted
  split at acted
  case h_1 =>
    cases acted
    exact ⟨nofun, .of_main rfl rfl fun _ member => (List.mem_filter.mp member).1⟩
  case h_2 | h_3 | h_9 =>
    cases acted
    exact ⟨nofun, .of_main rfl rfl fun _ member => (nomatch member)⟩
  case h_4 | h_5 =>
    split at acted
    · split at acted
      · cases acted
        exact ⟨nofun, .of_main rfl rfl fun _ member => member⟩
      · cases acted
    · cases acted
  case h_6 | h_7 =>
    split at acted
    · cases acted
      exact ⟨nofun, .of_main rfl rfl fun _ member => member⟩
    · cases acted
  case h_8 =>
    split at acted
    · cases acted
      exact ⟨nofun, .of_main rfl rfl fun _ member => (nomatch member)⟩
    · cases acted
  case h_10 => cases acted

theorem act_cases (acted : act tool capacity s place call action = some call') :
    (action = .fork ∧ Forks s call call') ∨ (action ≠ .fork ∧ GoesOn call call' action) := by
  simp only [act, Option.orElse_eq_orElse, Option.orElse_eq_or, Option.or_eq_some_iff] at acted
  rcases acted with first | ⟨-, second | ⟨-, third⟩⟩
  · exact mainAct_cases first
  · exact .inr (writerAct_cases second)
  · exact .inr (childAct_cases third)

theorem mainAct_shut (shut : call.Shut place) (sound : call.Sound tool place)
    (acted : mainAct s place call action = some call') : call'.Shut place := by
  have main := sound.main
  unfold mainAct at acted
  unfold MainSound at main
  have subset : ∀ {e} {f : PipeEnd → Bool}, e ∈ call.opened.filter f → e ∈ call.opened :=
    fun member => (List.mem_filter.mp member).1
  split at acted
  case h_1 phase =>
    rw [phase] at main
    cases acted
    exact ⟨nofun, nofun, nofun, fun done => (nomatch main.2.symm.trans done), shut.held, shut.gone⟩
  case h_2 phase =>
    cases acted
    exact ⟨nofun, nofun, nofun, shut.inWrite, shut.held, shut.gone⟩
  case h_3 phase =>
    rw [phase] at main
    cases acted
    exact ⟨nofun, nofun, nofun, fun done => (nomatch main.1.2.symm.trans done), shut.held,
      shut.gone⟩
  case h_4 phase =>
    cases acted
    exact ⟨nofun, nofun, nofun, shut.inWrite, shut.held, shut.gone⟩
  case h_5 phase =>
    cases acted
    refine ⟨nofun, nofun, nofun, shut.inWrite, ?_, ?_⟩
    · rintro ⟨t, unsent, running⟩
      cases running
    · rintro (unborn | ⟨status, ended⟩)
      · cases unborn
      · cases ended
  case h_6 phase =>
    cases acted
    exact ⟨nofun, nofun, nofun, shut.inWrite, shut.held, shut.gone⟩
  case h_7 phase =>
    cases acted
    refine ⟨nofun, fun _ member => ?_, nofun, fun done member => ?_, shut.held, shut.gone⟩
    · exact absurd (List.mem_filter.mp member).2 (by decide)
    · exact shut.inWrite done (subset member)
  case h_8 phase =>
    cases acted
    refine ⟨nofun, fun _ member => ?_, fun _ member => ?_, nofun, shut.held, shut.gone⟩
    · exact shut.inRead (by rw [phase]; rfl) (subset member)
    · exact absurd (List.mem_filter.mp member).2 (by decide)
  case h_9 phase =>
    split at acted
    · cases acted
      exact ⟨shut.begun, shut.inRead, shut.outWrite, shut.inWrite, shut.held, shut.gone⟩
    · cases acted
  case h_10 phase =>
    split at acted
    · cases acted
      exact ⟨nofun, fun _ => shut.inRead (by rw [phase]; rfl),
        fun _ => shut.outWrite (by rw [phase]; rfl), shut.inWrite, shut.held, shut.gone⟩
    · cases acted
  case h_11 phase =>
    cases acted
    exact ⟨nofun, fun _ member => shut.inRead (by rw [phase]; rfl) (subset member),
      fun _ member => shut.outWrite (by rw [phase]; rfl) (subset member),
      fun done member => shut.inWrite done (subset member), shut.held, shut.gone⟩
  case h_12 phase =>
    split at acted
    · cases acted
      exact ⟨nofun, fun _ => shut.inRead (by rw [phase]; rfl),
        fun _ => shut.outWrite (by rw [phase]; rfl), shut.inWrite, shut.held, shut.gone⟩
    · cases acted
  case h_13 phase =>
    split at acted
    · cases acted
      exact ⟨nofun, nofun, nofun, shut.inWrite, shut.held, shut.gone⟩
    · cases acted
  case h_14 => cases acted

theorem writerAct_shut (shut : call.Shut place)
    (acted : writerAct capacity s place call action = some call') : call'.Shut place := by
  have closing : ({ call with
      writer := .done, opened := call.opened.filter (· ≠ .inWrite) } : PipeCall τ).Shut place := by
    refine ⟨fun begun => ?_, fun late member => ?_, fun late member => ?_, fun _ member => ?_,
      shut.held, shut.gone⟩
    · dsimp only
      rw [shut.begun begun]
      rfl
    · exact shut.inRead late (List.mem_filter.mp member).1
    · exact shut.outWrite late (List.mem_filter.mp member).1
    · exact absurd (List.mem_filter.mp member).2 (by decide)
  unfold writerAct at acted
  split at acted
  case h_1 phase =>
    split at acted
    · cases acted
      exact ⟨shut.begun, shut.inRead, shut.outWrite, shut.inWrite, shut.held, shut.gone⟩
    · cases acted
  case h_2 phase =>
    split at acted
    · cases acted
      exact ⟨shut.begun, shut.inRead, shut.outWrite, nofun, shut.held, shut.gone⟩
    · cases acted
  case h_3 phase =>
    split at acted
    · cases acted
      exact closing
    · cases acted
  case h_4 phase =>
    cases acted
    exact closing
  case h_5 => cases acted

theorem childAct_shut (shut : call.Shut place)
    (acted : childAct tool capacity s place call action = some call') : call'.Shut place := by
  have kept : ∀ {t unsent inBuffer outBuffer}, (∃ t unsent, call.child = .running t unsent) →
      ({ call with child := .running t unsent, inBuffer := inBuffer, outBuffer := outBuffer } :
        PipeCall τ).Shut place := by
    intro t unsent inBuffer outBuffer running
    refine ⟨shut.begun, shut.inRead, shut.outWrite, shut.inWrite, fun _ => shut.held running, ?_⟩
    rintro (unborn | ⟨status, ended⟩)
    · cases unborn
    · cases ended
  have ending : ∀ {status}, ({ call with child := .ended status, held := [] } :
      PipeCall τ).Shut place := by
    intro status
    exact ⟨shut.begun, shut.inRead, shut.outWrite, shut.inWrite, fun _ => List.not_mem_nil,
      fun _ => rfl⟩
  unfold childAct at acted
  split at acted
  case h_1 phase =>
    cases acted
    refine ⟨shut.begun, shut.inRead, shut.outWrite, shut.inWrite, fun _ member => ?_, ?_⟩
    · exact absurd (List.mem_filter.mp member).2 (by simp)
    · rintro (unborn | ⟨status, ended⟩)
      · cases unborn
      · cases ended
  case h_2 | h_3 | h_9 =>
    cases acted
    exact ending
  case h_4 phase | h_5 phase =>
    split at acted
    · split at acted
      · cases acted
        exact kept ⟨_, _, phase⟩
      · cases acted
    · cases acted
  case h_6 phase | h_7 phase =>
    split at acted
    · cases acted
      exact kept ⟨_, _, phase⟩
    · cases acted
  case h_8 phase =>
    split at acted
    · cases acted
      exact ending
    · cases acted
  case h_10 => cases acted

theorem act_shut (shut : call.Shut place) (sound : call.Sound tool place)
    (acted : act tool capacity s place call action = some call') : call'.Shut place := by
  simp only [act, Option.orElse_eq_orElse, Option.orElse_eq_or, Option.or_eq_some_iff] at acted
  rcases acted with first | ⟨-, second | ⟨-, third⟩⟩
  · exact mainAct_shut shut sound first
  · exact writerAct_shut shut second
  · exact childAct_shut shut third

/-! A state in which nothing goes on. -/

/-- The process of a call waits for the end of its input, which the server has closed. -/
structure Starving (tool : Tool τ) (call : PipeCall τ) : Prop where
  main : call.main = .reading
  writer : call.writer = .done
  empty : call.inBuffer = []
  reads : ∃ t next, call.child = .running t [] ∧ tool.act t = .read next

/-- The process of one call keeps the other's from the end of its input. -/
def Starves (tool : Tool τ) (s : Pipes τ) (i j : Nat) : Prop :=
  (∃ call, s.calls[i]? = some call ∧ Starving tool call) ∧
    ∃ other, s.calls[j]? = some other ∧ (i, .inWrite) ∈ other.held

/-- Every process of these calls waits for another of them. -/
def Locked (tool : Tool τ) (s : Pipes τ) (places : Set Nat) : Prop :=
  ∀ i ∈ places, ∃ j ∈ places, Starves tool s i j

/-- The steps that need no room before the `fork` of another, and no signal. -/
def Action.isFree : Action → Bool
  | .pipeIn | .killed => false
  | _ => true

/-- One of the threads of a call, or its process, goes on. -/
def Moves (tool : Tool τ) (capacity : Nat) (s : Pipes τ) (place : Nat) : Prop :=
  ∃ action s', action.isFree = true ∧ step tool capacity s (.act place action) = some s'

theorem moves_of_act (here : s.calls[place]? = some call) (action : Action)
    (free : action.isFree = true) (acts : (act tool capacity s place call action).isSome = true) :
    Moves tool capacity s place := by
  obtain ⟨call', acted⟩ := Option.isSome_iff_exists.mp acts
  have stepped : ∃ s', step tool capacity s (.act place action) = some s' := by
    simp only [step, here, acted, Option.map_some]
    exact ⟨_, rfl⟩
  obtain ⟨s', stepped⟩ := stepped
  exact ⟨action, s', free, stepped⟩

theorem moves_of_mainAct (here : s.calls[place]? = some call) (action : Action)
    (free : action.isFree = true) (acts : (mainAct s place call action).isSome = true) :
    Moves tool capacity s place := by
  refine moves_of_act here action free ?_
  simp [act, acts]

/-- The thread goes on from a phase in which it waits for nothing. -/
theorem moves_of_phase {at_ : MainPhase} (here : s.calls[place]? = some call)
    (phase : call.main = at_) (action : Action) (free : action.isFree = true)
    (acts : (mainAct s place { call with main := at_ } action).isSome = true) :
    Moves tool capacity s place := by
  have same : { call with main := at_ } = call := by rw [← phase]
  rw [same] at acts
  exact moves_of_mainAct here action free acts

theorem moves_of_writerAct (here : s.calls[place]? = some call) (action : Action)
    (free : action.isFree = true) (acts : (writerAct capacity s place call action).isSome = true) :
    Moves tool capacity s place := by
  refine moves_of_act here action free ?_
  simp [act, acts]

theorem moves_of_childAct (here : s.calls[place]? = some call) (action : Action)
    (free : action.isFree = true)
    (acts : (childAct tool capacity s place call action).isSome = true) :
    Moves tool capacity s place := by
  refine moves_of_act here action free ?_
  simp [act, acts]

/-- The thread waits for nothing but the end of the output or of the thread that writes. -/
theorem main_moves (sound : call.Sound tool place) (here : s.calls[place]? = some call)
    (begun : call.main ≠ .begun) (unreturned : ∀ result, call.main ≠ .returned result) :
    Moves tool capacity s place ∨ call.main = .reading ∨
      call.main = .closed ∧ call.writer ≠ .done := by
  cases phase : call.main with
  | begun => exact absurd phase begun
  | returned result => exact absurd phase (unreturned result)
  | reading => exact .inr (.inl rfl)
  | halfPiped => exact .inl (moves_of_phase here phase .pipeOut rfl rfl)
  | piped => exact .inl (moves_of_phase here phase .fork rfl rfl)
  | forked => exact .inl (moves_of_phase here phase .closeIn rfl rfl)
  | halfClosed => exact .inl (moves_of_phase here phase .closeOut rfl rfl)
  | readAll => exact .inl (moves_of_phase here phase .closeRead rfl rfl)
  | closed =>
    by_cases done : call.writer = .done
    · exact .inl (moves_of_mainAct here .join rfl (by unfold mainAct; simp [phase, done]))
    · exact .inr (.inr ⟨rfl, done⟩)
  | joined =>
    have main := sound.main
    unfold MainSound at main
    rw [phase] at main
    obtain ⟨⟨status, ended⟩, -⟩ := main
    exact .inl (moves_of_mainAct here .wait rfl (by unfold mainAct; simp [phase, ended]))

/-- The thread that writes waits for nothing but room in the pipe. -/
theorem writer_moves (here : s.calls[place]? = some call) (started : call.writer ≠ .unstarted)
    (room : call.inBuffer.length < capacity ∨ s.isHeld place .inRead = false) :
    Moves tool capacity s place ∨ call.writer = .done := by
  cases phase : call.writer with
  | unstarted => exact absurd phase started
  | done => exact .inr rfl
  | broken => exact .inl (moves_of_writerAct here .closeWrite rfl (by simp [writerAct, phase]))
  | writing =>
    refine .inl ?_
    by_cases sent : call.input.length ≤ call.offset
    · exact moves_of_writerAct here .closeWrite rfl (by simp [writerAct, phase, sent])
    · cases held : s.isHeld place .inRead with
      | false =>
        exact moves_of_writerAct here .writeFails rfl (by simp [writerAct, phase, held]; omega)
      | true =>
        have fits := room.resolve_right (by simp [held])
        exact moves_of_writerAct here (.write 1) rfl (by simp [writerAct, phase, held]; omega)

/-- A process waits for nothing but the end of its input. -/
theorem child_moves (positive : 0 < capacity) (sound : call.Sound tool place)
    (here : s.calls[place]? = some call) (alive : call.Alive) (reading : call.main = .reading) :
    Moves tool capacity s place ∨
      Starving tool call ∧ s.isHeld place .inWrite = true := by
  have main := sound.main
  have child := sound.child
  unfold MainSound at main
  unfold ChildSound at child
  rw [reading] at main
  rcases alive with forked | ⟨t, unsent, running⟩
  · exact .inl (moves_of_childAct here .childCloses rfl (by simp [childAct, forked]))
  rw [running] at child
  have held := isHeld_of_held (List.mem_of_getElem? here) child.2.1
  cases unsent with
  | cons c rest =>
    refine .inl ?_
    by_cases room : call.outBuffer.length < capacity
    · exact moves_of_childAct here (.childSends 1) rfl (by simp [childAct, running]; omega)
    · exact moves_of_mainAct here (.read 1) rfl (by unfold mainAct; simp [reading, readSize]; omega)
  | nil =>
    cases next : tool.act t with
    | exit status =>
      exact .inl (moves_of_childAct here .childExits rfl (by simp [childAct, running, next]))
    | write chunk after =>
      exact .inl (moves_of_childAct here .childWrites rfl (by simp [childAct, running, next]))
    | read after =>
      by_cases empty : call.inBuffer = []
      · have room : call.inBuffer.length < capacity := by rw [empty]; exact positive
        have writer : Moves tool capacity s place ∨ call.writer = .done :=
          writer_moves here main.2 (.inl room)
        rcases writer with moves | done
        · exact .inl moves
        · cases kept : s.isHeld place .inWrite with
          | true => exact .inr ⟨⟨reading, done, empty, t, after, running, next⟩, rfl⟩
          | false =>
            refine .inl (moves_of_childAct here .childReadsEnd rfl ?_)
            simp [childAct, running, next, empty, kept]
      · refine .inl (moves_of_childAct here (.childReads 1) rfl ?_)
        simp [childAct, running, next, Nat.one_le_iff_ne_zero, empty]

def Shut (s : Pipes τ) : Prop :=
  ∀ (place : Nat) (call : PipeCall τ), s.calls[place]? = some call → call.Shut place

/-- Somebody's process has the end, or the server. -/
theorem isHeld_cases (held : s.isHeld place e = true) :
    (∃ call, s.calls[place]? = some call ∧ e ∈ call.opened) ∨
      ∃ (other : Nat) (call : PipeCall τ), s.calls[other]? = some call ∧
        (place, e) ∈ call.held := by
  unfold isHeld at held
  rw [Bool.or_eq_true] at held
  rcases held with opened | process
  · obtain ⟨call, here, member⟩ := (Option.any_eq_true ..).mp opened
    exact .inl ⟨call, here, of_decide_eq_true member⟩
  · obtain ⟨call, member, has⟩ := List.any_eq_true.mp process
    obtain ⟨other, here⟩ := List.mem_iff_getElem?.mp member
    exact .inr ⟨other, call, here, of_decide_eq_true has⟩

/-- The thread of a process that is there has forked it and not come further than its reads. -/
theorem alive_main (sound : call.Sound tool place) (alive : call.Alive) :
    call.main = .forked ∨ call.main = .halfClosed ∨ call.main = .reading := by
  have born := born_of_alive alive
  have running := not_ended alive
  have main := sound.main
  unfold MainSound at main
  split at main
  · exact absurd main.1 born
  · exact absurd main.1.1 born
  · exact absurd main.1.1 born
  · exact .inl ‹_›
  · exact .inr (.inl ‹_›)
  · exact .inr (.inr ‹_›)
  · exact absurd main.1 running
  · exact absurd main.1 running
  · exact absurd main.1 running
  · exact absurd main.1 fun either => either.elim (fun unborn => born unborn.1) running

/-- A process goes on, or another keeps it from the end of its input. -/
theorem alive_moves (positive : 0 < capacity) (sound : s.Sound tool) (shut : s.Shut)
    (here : s.calls[place]? = some call) (alive : call.Alive) :
    Moves tool capacity s place ∨ ∃ other, (∃ process, s.calls[other]? = some process ∧
      process.Alive) ∧ Starves tool s place other := by
  rcases alive_main (sound _ _ here) alive with forked | halfClosed | reading
  · exact .inl (moves_of_phase here forked .closeIn rfl rfl)
  · exact .inl (moves_of_phase here halfClosed .closeOut rfl rfl)
  rcases child_moves positive (sound _ _ here) here alive reading with moves | ⟨starving, held⟩
  · exact .inl moves
  rcases isHeld_cases held with ⟨same, there, opened⟩ | ⟨other, process, there, has⟩
  · cases here.symm.trans there
    exact absurd opened ((shut _ _ here).inWrite starving.writer)
  · exact .inr ⟨other, ⟨process, there, (shut _ _ there).alive has⟩, ⟨call, here, starving⟩,
      process, there, has⟩

/-- Without processes the threads go on. -/
theorem threads_move (sound : s.Sound tool) (shut : s.Shut)
    (gone : ∀ call ∈ s.calls, ¬call.Alive) (here : s.calls[place]? = some call)
    (begun : call.main ≠ .begun) (unreturned : ∀ result, call.main ≠ .returned result) :
    Moves tool capacity s place := by
  have closed : ∀ {e}, e ∉ call.opened → s.isHeld place e = false := by
    intro e unopened
    refine Bool.eq_false_iff.mpr fun held => ?_
    rcases isHeld_cases held with ⟨same, there, opened⟩ | ⟨other, process, there, has⟩
    · cases here.symm.trans there
      exact unopened opened
    · exact gone process (List.mem_of_getElem? there) ((shut _ _ there).alive has)
  have own := shut _ _ here
  have main : Moves tool capacity s place ∨ call.main = .reading ∨
      call.main = .closed ∧ call.writer ≠ .done :=
    main_moves (sound _ _ here) here begun unreturned
  rcases main with moves | reading | ⟨phase, waiting⟩
  · exact moves
  · by_cases empty : call.outBuffer = []
    · have unheld := closed (own.outWrite (by rw [reading]; rfl))
      exact moves_of_mainAct here .readEnd rfl (by unfold mainAct; simp [reading, empty, unheld])
    · refine moves_of_mainAct here (.read 1) rfl ?_
      unfold mainAct
      simp [reading, readSize, Nat.one_le_iff_ne_zero, empty]
  · have main := (sound _ _ here).main
    unfold MainSound at main
    rw [phase] at main
    have unheld := closed (own.inRead (by rw [phase]; rfl))
    exact (writer_moves here main.2.2 (.inr unheld)).resolve_right waiting

/-- Where nothing goes on before every call has returned, processes wait for each other. -/
theorem stuck_locked (positive : 0 < capacity) (sound : s.Sound tool) (shut : s.Shut)
    (stuck : ∀ place action, action ≠ .killed → step tool capacity s (.act place action) = none)
    (here : s.calls[place]? = some call) (unreturned : ∀ result, call.main ≠ .returned result) :
    ∃ places : Set Nat, places.Nonempty ∧ Locked tool s places := by
  have still : ∀ other, ¬Moves tool capacity s other := by
    rintro other ⟨action, s', free, stepped⟩
    have unkilled : action ≠ .killed := by
      rintro rfl
      cases free
    rw [stuck other action unkilled] at stepped
    cases stepped
  refine ⟨{other | ∃ process, s.calls[other]? = some process ∧ process.Alive}, ?_, ?_⟩
  · by_contra empty
    refine still place (threads_move sound shut (fun process member alive => ?_) here ?_ unreturned)
    · obtain ⟨other, there⟩ := List.mem_iff_getElem?.mp member
      exact empty ⟨other, process, there, alive⟩
    · intro begun
      have stepped := stuck place .pipeIn nofun
      simp [step, here, act, mainAct, begun] at stepped
  · rintro other ⟨process, there, alive⟩
    obtain ⟨next, found, starves⟩ :=
      (alive_moves positive sound shut there alive).resolve_left (still other)
    exact ⟨next, found, starves⟩

/-! Who waits so waits for ever. -/

/-- But for signals only the server's reads go on, while there is output left to read, where a
process is kept from the end of its input. -/
theorem starving_act (sound : call.Sound tool place) (here : s.calls[place]? = some call)
    (starving : Starving tool call) (held : s.isHeld place .inWrite = true)
    (spared : action ≠ .killed) (acted : act tool capacity s place call action = some call') :
    ∃ n, (0 < n ∧ n ≤ call.outBuffer.length) ∧ call' = { call with
      output := call.output ++ call.outBuffer.take n, outBuffer := call.outBuffer.drop n } := by
  obtain ⟨main, writer, empty, t, next, running, reads⟩ := starving
  have child := sound.child
  unfold ChildSound at child
  rw [running] at child
  have output := isHeld_of_held (List.mem_of_getElem? here) child.2.2
  simp only [act, Option.orElse_eq_orElse, Option.orElse_eq_or, Option.or_eq_some_iff] at acted
  rcases acted with first | ⟨-, second | ⟨-, third⟩⟩
  · cases action with
    | read n =>
      unfold mainAct at first
      split at first
      case h_9 =>
        split at first
        · rename_i action _ fits
          cases first
          exact ⟨_, ⟨fits.1, fits.2.1⟩, rfl⟩
        · cases first
      all_goals simp_all
    | readEnd => simp [mainAct, main, output] at first
    | _ => simp [mainAct, main] at first
  · simp [writerAct, writer] at second
  · cases action with
    | childReads n =>
      simp only [childAct, running, reads, empty, List.length_nil] at third
      split at third
      · omega
      · cases third
    | childReadsEnd => simp [childAct, running, reads, held] at third
    | childWrites => simp [childAct, running, reads] at third
    | childSends n =>
      simp only [childAct, running, List.length_nil] at third
      split at third
      · omega
      · cases third
    | childExits => simp [childAct, running, reads] at third
    | killed => exact absurd rfl spared
    | _ => simp [childAct, running] at third

theorem starving_still (sound : call.Sound tool place) (here : s.calls[place]? = some call)
    (starving : Starving tool call) (held : s.isHeld place .inWrite = true)
    (quiet : call.outBuffer = []) (spared : action ≠ .killed) :
    step tool capacity s (.act place action) = none := by
  simp only [step, here]
  cases acted : act tool capacity s place call action with
  | none => rfl
  | some call' =>
    obtain ⟨n, ⟨positive, fits⟩, -⟩ := starving_act sound here starving held spared acted
    rw [quiet, List.length_nil] at fits
    omega

/-- Nobody sends a signal to a process of these calls. -/
def Spares (places : Set Nat) (event : Event) : Prop :=
  ∀ place ∈ places, event ≠ .act place .killed

theorem locked_step {places : Set Nat} (sound : s.Sound tool) (locked : Locked tool s places)
    (spared : Spares places event) (stepped : step tool capacity s event = some s') :
    Locked tool s' places := by
  have kept : ∀ i ∈ places, ∀ call, s.calls[i]? = some call → Starving tool call →
      ∃ call', s'.calls[i]? = some call' ∧ Starving tool call' ∧ call'.held = call.held := by
    intro i member call here starving
    cases event with
    | call input =>
      cases stepped
      exact ⟨call, List.getElem?_append_left (List.getElem?_eq_some_iff.mp here).1 ▸ here,
        starving, rfl⟩
    | act acting action =>
      simp only [step] at stepped
      split at stepped
      · rename_i old there
        obtain ⟨new, acted, rfl⟩ := Option.map_eq_some_iff.mp stepped
        by_cases same : acting = i
        · subst same
          cases here.symm.trans there
          obtain ⟨j, -, -, other, there', has⟩ := locked acting member
          have held := isHeld_of_held (List.mem_of_getElem? there') has
          have unkilled : action ≠ .killed := fun killed => spared acting member (killed ▸ rfl)
          obtain ⟨n, -, rfl⟩ := starving_act (sound _ _ here) here starving held unkilled acted
          refine ⟨_, List.getElem?_set_self (List.getElem?_eq_some_iff.mp here).1, ?_, rfl⟩
          exact ⟨starving.main, starving.writer, starving.empty, starving.reads⟩
        · exact ⟨call, (List.getElem?_set_ne same).trans here, starving, rfl⟩
      · cases stepped
  intro i member
  obtain ⟨j, next, ⟨call, here, starving⟩, other, there, has⟩ := locked i member
  obtain ⟨call', here', starving', -⟩ := kept i member call here starving
  obtain ⟨-, -, ⟨own, there', hungry⟩, -⟩ := locked j next
  cases there.symm.trans there'
  obtain ⟨other', there'', -, same⟩ := kept j next other there hungry
  exact ⟨j, next, ⟨call', here', starving'⟩, other', there'', same ▸ has⟩

theorem step_shut (shut : s.Shut) (sound : s.Sound tool)
    (stepped : step tool capacity s event = some s') : s'.Shut := by
  intro place call here
  cases event with
  | call input =>
    cases stepped
    dsimp only at here
    rw [List.getElem?_append] at here
    split at here
    · exact shut place call here
    · rw [List.mem_singleton.mp (List.mem_of_getElem? here)]
      exact ⟨fun _ => rfl, nofun, nofun, nofun, fun _ => List.not_mem_nil, fun _ => rfl⟩
  | act acting action =>
    simp only [step] at stepped
    split at stepped
    · rename_i old there
      obtain ⟨new, acted, rfl⟩ := Option.map_eq_some_iff.mp stepped
      dsimp only at here
      rw [List.getElem?_set] at here
      split at here
      · rename_i same
        subst same
        split at here
        · cases here
          exact act_shut (shut _ _ there) (sound _ _ there) acted
        · cases here
      · exact shut place call here
    · cases stepped

/-- What holds of the calls in every state. -/
structure Good (tool : Tool τ) (s : Pipes τ) : Prop where
  sound : s.Sound tool
  shut : s.Shut

theorem Good.none (tool : Tool τ) : Good tool ⟨[], 0⟩ := by
  constructor <;>
  · intro place call here
    rw [List.getElem?_nil] at here
    cases here

theorem Good.step (good : Good tool s) (stepped : step tool capacity s event = some s') :
    Good tool s' :=
  ⟨step_sound good.sound stepped, step_shut good.shut good.sound stepped⟩

/-- Calls that wait for each other among good ones. -/
structure Waiting (tool : Tool τ) (places : Set Nat) (s : Pipes τ) : Prop where
  good : Good tool s
  locked : Locked tool s places

/-- Where nothing goes on although a call has not returned, there are calls that wait for each
other, and none of them ever returns unless one of their processes gets a signal. -/
theorem run_locked (tool : Tool τ) (positive : 0 < capacity)
    (run : Run (fun s event s' => step tool capacity s event = some s') ⟨[], 0⟩ events s)
    (stuck : ∀ place action, action ≠ .killed → step tool capacity s (.act place action) = none)
    {call : PipeCall τ} (member : call ∈ s.calls)
    (unreturned : ∀ result, call.main ≠ .returned result) :
    ∃ places : Set Nat, places.Nonempty ∧ Locked tool s places ∧ ∀ later s',
      Run (Guarded (fun _ event => Spares places event)
        fun s event s' => step tool capacity s event = some s') s later s' →
      ∀ place ∈ places, ∃ waiting, s'.calls[place]? = some waiting ∧ waiting.main = .reading := by
  have good := run.invariant (Good.none tool) fun s event s' good stepped => good.step stepped
  obtain ⟨place, here⟩ := List.mem_iff_getElem?.mp member
  obtain ⟨places, nonempty, locked⟩ :=
    stuck_locked positive good.sound good.shut stuck here unreturned
  refine ⟨places, nonempty, locked, fun later s' further place member => ?_⟩
  have first : Waiting tool places s := ⟨good, locked⟩
  have kept := further.invariant first fun t event t' held stepped =>
    ⟨held.good.step stepped.2, locked_step held.good.sound held.locked stepped.1 stepped.2⟩
  obtain ⟨-, -, ⟨waiting, there, starving⟩, -⟩ := kept.locked place member
  exact ⟨waiting, there, starving.main⟩

/-- Both calls come to their `fork` with the pipes of both open. -/
def overlap : List Event :=
  [.call [], .call [], .act 0 .pipeIn, .act 0 .pipeOut, .act 1 .pipeIn, .act 1 .pipeOut,
    .act 0 .fork, .act 1 .fork, .act 0 .childCloses, .act 1 .childCloses, .act 0 .closeIn,
    .act 0 .closeOut, .act 1 .closeIn, .act 1 .closeOut, .act 0 .closeWrite, .act 1 .closeWrite]

/-- The process of the first call waits, and that of the other keeps its input open. -/
def relayStarves (call other : PipeCall (Option Text)) (place : Nat) : Bool :=
  match call.main, call.writer, call.inBuffer, call.outBuffer, call.child with
  | .reading, .done, [], [], .running none [] => other.held.contains (place, .inWrite)
  | _, _, _, _, _ => false

/-- There are two calls, and the process of either waits and keeps the input of the other open. -/
def relaysStarve (s : Pipes (Option Text)) : Bool :=
  match s.calls with
  | [first, second] => relayStarves first second 0 && relayStarves second first 1
  | _ => false

theorem relayStarves_starving {call other : PipeCall (Option Text)}
    (shows : relayStarves call other place = true) :
    Starving relay call ∧ call.outBuffer = [] ∧ (place, .inWrite) ∈ other.held := by
  unfold relayStarves at shows
  split at shows
  · exact ⟨⟨by assumption, by assumption, by assumption, none, some, by assumption, rfl⟩,
      by assumption, List.contains_iff_mem.mp shows⟩
  · cases shows

theorem relaysStarve_calls {s : Pipes (Option Text)} (shows : relaysStarve s = true) :
    ∃ first second, s.calls = [first, second] ∧ relayStarves first second 0 = true ∧
      relayStarves second first 1 = true := by
  unfold relaysStarve at shows
  split at shows
  · rename_i first second calls
    rw [Bool.and_eq_true] at shows
    exact ⟨first, second, calls, shows.1, shows.2⟩
  · cases shows

theorem overlap_locked : ∃ s : Pipes (Option Text), ∃ places : Set Nat, places.Nonempty ∧
    Locked relay s places ∧ ∀ later s', Run (Guarded (fun _ event => Spares places event)
      fun s event s' => step relay 1 s event = some s') s later s' →
      ∀ place ∈ places, ∃ waiting, s'.calls[place]? = some waiting ∧ waiting.main = .reading := by
  have ends : (execute (step relay 1) overlap ⟨[], 0⟩).any relaysStarve = true := by
    with_unfolding_all decide
  obtain ⟨s, reached, shows⟩ := (Option.any_eq_true ..).mp ends
  have run := run_of_execute reached
  obtain ⟨a, b, calls, shows, shows'⟩ := relaysStarve_calls shows
  obtain ⟨hungry, quiet, has⟩ := relayStarves_starving shows
  obtain ⟨hungry', quiet', has'⟩ := relayStarves_starving shows'
  have good := run.invariant (Good.none relay) fun s event s' good stepped => good.step stepped
  have first : s.calls[0]? = some a := by rw [calls]; rfl
  have second : s.calls[1]? = some b := by rw [calls]; rfl
  have stuck : ∀ place action, action ≠ .killed → step relay 1 s (.act place action) = none := by
    intro place action unkilled
    rcases place with _ | _ | n
    · have held := isHeld_of_held (List.mem_of_getElem? second) has
      exact starving_still (good.sound _ _ first) first hungry held quiet unkilled
    · have held := isHeld_of_held (List.mem_of_getElem? first) has'
      exact starving_still (good.sound _ _ second) second hungry' held quiet' unkilled
    · simp [step, calls]
  obtain ⟨places, nonempty, locked, stays⟩ := run_locked relay Nat.one_pos run stuck
    (List.mem_of_getElem? first) fun result returned => by
      rw [hungry.main] at returned
      cases returned
  exact ⟨s, places, nonempty, locked, stays⟩

/-! Calls whose sections from `pipe` to `fork` do not overlap. -/

/-- No call comes to its `pipe` while another is on its way to its `fork`. -/
def apart (s : Pipes τ) : Event → Bool
  | .act _ .pipeIn => s.calls.all fun call => !call.main.inSection
  | _ => true

/-- A process has ends only of calls that forked theirs before. -/
structure Ordered (s : Pipes τ) : Prop where
  single : ∀ (i j : Nat) (a b : PipeCall τ), s.calls[i]? = some a → s.calls[j]? = some b →
    a.main.inSection = true → b.main.inSection = true → i = j
  born : ∀ (i : Nat) (a : PipeCall τ), s.calls[i]? = some a → a.born ≤ s.forks
  later : ∀ (i j : Nat) (a : PipeCall τ) e, s.calls[i]? = some a → (j, e) ∈ a.held → j = i ∨
    ∃ b, s.calls[j]? = some b ∧ b.main.early = false ∧ b.born < a.born

/-- The process forked last waits for no other. -/
theorem ordered_unlocked {places : Set Nat} (ordered : s.Ordered) (shut : s.Shut)
    (locked : Locked tool s places) (member : place ∈ places) : False := by
  have climb : ∀ n i call, i ∈ places → s.calls[i]? = some call → s.forks - call.born = n →
      False := by
    intro n
    induction n using Nat.strong_induction_on with
    | h n ih =>
      intro i call member here distance
      obtain ⟨j, next, ⟨hungry, here', starving⟩, other, there, has⟩ := locked i member
      cases here.symm.trans here'
      rcases ordered.later j i other _ there has with same | ⟨b, found, -, before⟩
      · subst same
        cases here.symm.trans there
        obtain ⟨t, after, running, -⟩ := starving.reads
        exact (shut i call here).held ⟨t, [], running⟩ has
      · cases here.symm.trans found
        have bound := ordered.born j other there
        exact ih (s.forks - other.born) (by omega) j other next there rfl
  obtain ⟨-, -, ⟨call, here, -⟩, -⟩ := locked place member
  exact climb _ place call member here rfl

theorem early_cases {phase : MainPhase} (early : phase.early = true) :
    phase = .begun ∨ phase.inSection = true := by
  cases phase <;> simp_all [MainPhase.early, MainPhase.inSection]

theorem find_set (here : s.calls[place]? = some call) {i : Nat} {a : PipeCall τ}
    (found : (s.calls.set place call')[i]? = some a) :
    (i = place ∧ a = call') ∨ (i ≠ place ∧ s.calls[i]? = some a) := by
  rw [List.getElem?_set] at found
  split at found
  · rename_i same
    rw [if_pos (List.getElem?_eq_some_iff.mp here).1] at found
    cases found
    exact .inl ⟨same.symm, rfl⟩
  · rename_i other
    exact .inr ⟨Ne.symm other, found⟩

theorem ordered_fork (ordered : s.Ordered) (shut : s.Shut) (here : s.calls[place]? = some call)
    (forks : Forks s call call') :
    (⟨s.calls.set place call', s.forks + 1⟩ : Pipes τ).Ordered := by
  have piping : call.main.inSection = true := by
    rw [forks.piped]
    rfl
  have out : ∀ {i a}, (s.calls.set place call')[i]? = some a → a.main.inSection = true →
      i ≠ place ∧ s.calls[i]? = some a := by
    intro i a found inside
    rcases find_set here found with ⟨-, rfl⟩ | other
    · rw [forks.forked] at inside
      cases inside
    · exact other
  refine ⟨fun i j a b at_i at_j inside inside' => ?_, fun i a at_i => ?_,
    fun i j a e at_i has => ?_⟩
  · exact ordered.single i j a b (out at_i inside).2 (out at_j inside').2 inside inside'
  · rcases find_set here at_i with ⟨-, rfl⟩ | ⟨-, before⟩
    · exact forks.born.le
    · exact Nat.le_succ_of_le (ordered.born i a before)
  · rcases find_set here at_i with ⟨rfl, rfl⟩ | ⟨other, before⟩
    · -- The process takes over what is open, and nobody else is on the way to a `fork`.
      rw [forks.held] at has
      obtain ⟨b, at_j, opened⟩ := mem_openEnds.mp has
      by_cases same : j = i
      · exact .inl same
      refine .inr ⟨b, (List.getElem?_set_ne (Ne.symm same)).trans at_j, ?_, ?_⟩
      · refine Bool.eq_false_iff.mpr fun early => ?_
        rcases early_cases early with begun | inside
        · rw [(shut j b at_j).begun begun] at opened
          cases opened
        · exact same (ordered.single j i b call at_j here inside piping)
      · exact forks.born ▸ Nat.lt_succ_of_le (ordered.born j b at_j)
    · rcases ordered.later i j a e before has with same | ⟨b, at_j, late, older⟩
      · exact .inl same
      · refine .inr ⟨b, ?_, late, older⟩
        refine (List.getElem?_set_ne ?_).trans at_j
        rintro rfl
        cases here.symm.trans at_j
        rw [forks.piped] at late
        cases late

theorem ordered_goesOn (ordered : s.Ordered) (here : s.calls[place]? = some call)
    (kept : apart s (.act place action) = true) (goesOn : GoesOn call call' action) :
    (⟨s.calls.set place call', s.forks⟩ : Pipes τ).Ordered := by
  have inside : place < s.calls.length := (List.getElem?_eq_some_iff.mp here).1
  -- Nobody is in a section beside the call, whether it stays in one or comes to it.
  have alone : ∀ {j b}, s.calls[j]? = some b → b.main.inSection = true →
      call'.main.inSection = true → place = j := by
    intro j b at_j inSection own
    rcases goesOn.inSection own with before | rfl
    · exact ordered.single place j call b here at_j before inSection
    · have none := List.all_eq_true.mp kept b (List.mem_of_getElem? at_j)
      simp [inSection] at none
  refine ⟨fun i j a b at_i at_j own own' => ?_, fun i a at_i => ?_, fun i j a e at_i has => ?_⟩
  · rcases find_set here at_i with ⟨rfl, rfl⟩ | ⟨other, before⟩ <;>
      rcases find_set here at_j with ⟨rfl, rfl⟩ | ⟨other', before'⟩
    · rfl
    · exact alone before' own' own
    · exact (alone before own own').symm
    · exact ordered.single i j a b before before' own own'
  · rcases find_set here at_i with ⟨rfl, rfl⟩ | ⟨-, before⟩
    · exact goesOn.born ▸ ordered.born i call here
    · exact ordered.born i a before
  · -- What is known of the call that keeps an end open is known of it still.
    have moved : ∀ {n : Nat}, (∃ b, s.calls[j]? = some b ∧ b.main.early = false ∧ b.born < n) →
        ∃ b, (s.calls.set place call')[j]? = some b ∧ b.main.early = false ∧ b.born < n := by
      rintro n ⟨b, at_j, late, older⟩
      by_cases same : j = place
      · subst same
        cases here.symm.trans at_j
        refine ⟨call', List.getElem?_set_self inside, ?_, goesOn.born ▸ older⟩
        exact Bool.eq_false_iff.mpr fun early => by simp [goesOn.early early] at late
      · exact ⟨b, (List.getElem?_set_ne (Ne.symm same)).trans at_j, late, older⟩
    rcases find_set here at_i with ⟨rfl, rfl⟩ | ⟨other, before⟩
    · exact (ordered.later i j call e here (goesOn.held _ has)).imp id
        fun found => moved (goesOn.born ▸ found)
    · exact (ordered.later i j a e before has).imp id moved

theorem ordered_step (ordered : s.Ordered) (shut : s.Shut) (kept : apart s event = true)
    (stepped : step tool capacity s event = some s') : s'.Ordered := by
  cases event with
  | call input =>
    cases stepped
    have find : ∀ {i : Nat} {a : PipeCall τ}, (s.calls ++ [begin input])[i]? = some a →
        s.calls[i]? = some a ∨ a = begin input := by
      intro i a found
      rw [List.getElem?_append] at found
      split at found
      · exact .inl found
      · exact .inr (List.mem_singleton.mp (List.mem_of_getElem? found))
    refine ⟨fun i j a b at_i at_j own own' => ?_, fun i a at_i => ?_, fun i j a e at_i has => ?_⟩
    · rcases find at_i with before | rfl
      · rcases find at_j with before' | rfl
        · exact ordered.single i j a b before before' own own'
        · cases own'
      · cases own
    · rcases find at_i with before | rfl
      · exact ordered.born i a before
      · exact Nat.zero_le _
    · rcases find at_i with before | rfl
      · refine (ordered.later i j a e before has).imp id ?_
        rintro ⟨b, at_j, late, older⟩
        have inside := (List.getElem?_eq_some_iff.mp at_j).1
        exact ⟨b, List.getElem?_append_left inside ▸ at_j, late, older⟩
      · cases has
  | act place action =>
    simp only [step] at stepped
    split at stepped
    · rename_i call here
      obtain ⟨call', acted, rfl⟩ := Option.map_eq_some_iff.mp stepped
      rcases act_cases acted with ⟨rfl, forks⟩ | ⟨unforked, goesOn⟩
      · exact ordered_fork ordered shut here forks
      · have other : action.isFork = false := by
          cases action <;> first | rfl | exact absurd rfl unforked
        rw [other]
        exact ordered_goesOn ordered here kept goesOn
    · cases stepped

/-- The states in which the sections did not overlap. -/
structure Apart (tool : Tool τ) (s : Pipes τ) : Prop where
  good : Good tool s
  ordered : s.Ordered

theorem Apart.none (tool : Tool τ) : Apart tool ⟨[], 0⟩ := by
  refine ⟨Good.none tool, ⟨fun i j a b at_i => ?_, fun i a at_i => ?_, fun i j a e at_i => ?_⟩⟩ <;>
  · rw [List.getElem?_nil] at at_i
    cases at_i

/-- While no call comes to its `pipe` before the others are past their `fork`, something goes on as
long as a call has not returned. -/
theorem run_progress (tool : Tool τ) (positive : 0 < capacity)
    (run : Run (Guarded (fun s event => apart s event = true)
      fun s event s' => step tool capacity s event = some s') ⟨[], 0⟩ events s)
    {call : PipeCall τ} (member : call ∈ s.calls)
    (unreturned : ∀ result, call.main ≠ .returned result) :
    ∃ place action s', action ≠ .killed ∧ apart s (.act place action) = true ∧
      step tool capacity s (.act place action) = some s' := by
  have held := run.invariant (Apart.none tool) fun s event s' held stepped =>
    ⟨held.good.step stepped.2, ordered_step held.ordered held.good.shut stepped.1 stepped.2⟩
  obtain ⟨place, here⟩ := List.mem_iff_getElem?.mp member
  by_contra none
  have still : ∀ other, ¬Moves tool capacity s other := by
    rintro other ⟨action, s', free, stepped⟩
    refine none ⟨other, action, s', ?_, ?_, stepped⟩
    · rintro rfl
      cases free
    · cases action <;> first | rfl | cases free
  -- A call that is kept from its `pipe` is kept by one that goes on.
  have quiet : apart s (.act place .pipeIn) = true := by
    refine List.all_eq_true.mpr fun other there => ?_
    rw [Bool.not_eq_true', Bool.eq_false_iff]
    intro inside
    obtain ⟨at_, found⟩ := List.mem_iff_getElem?.mp there
    cases phase : other.main with
    | halfPiped => exact still at_ (moves_of_phase found phase .pipeOut rfl rfl)
    | piped => exact still at_ (moves_of_phase found phase .fork rfl rfl)
    | _ =>
      rw [phase] at inside
      cases inside
  have stuck : ∀ other action, action ≠ .killed →
      step tool capacity s (.act other action) = .none := by
    intro other action unkilled
    cases stepped : step tool capacity s (.act other action) with
    | none => rfl
    | some s' =>
      refine absurd ⟨other, action, s', unkilled, ?_, stepped⟩ none
      cases action <;> first | rfl | exact quiet
  obtain ⟨places, ⟨first, inside⟩, locked⟩ :=
    stuck_locked positive held.good.sound held.good.shut stuck here unreturned
  exact ordered_unlocked held.ordered held.good.shut locked inside

/-- A call before its `fork`, when another is past its own. -/
def secondCall : List Event :=
  [.call [], .act 0 .pipeIn, .act 0 .pipeOut, .act 0 .fork, .call [], .act 1 .pipeIn]

theorem secondCall_progress : ∃ s : Pipes (Option Text), s.calls.length = 2 ∧
    ∃ place action s', action ≠ .killed ∧ apart s (.act place action) = true ∧
      step relay 1 s (.act place action) = some s' := by
  have ends : (execute (fun s event => if apart s event = true then step relay 1 s event else none)
      secondCall ⟨[], 0⟩).any (fun s => s.calls.length = 2 &&
        s.calls.any fun call => call.main.inSection) = true := by
    with_unfolding_all decide
  obtain ⟨s, reached, shows⟩ := (Option.any_eq_true ..).mp ends
  rw [Bool.and_eq_true, decide_eq_true_eq] at shows
  obtain ⟨call, member, piping⟩ := List.any_eq_true.mp shows.2
  refine ⟨s, shows.1, run_progress relay Nat.one_pos (guarded_of_execute reached) member ?_⟩
  intro result returned
  rw [returned] at piping
  cases piping

end Pipes
end Crown
