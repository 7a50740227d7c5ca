import Crown.Lib.Transition
import Crown.MediaFormats

/-! The two pipes of `runffmpegpipe` as it is built for POSIX, while any number of calls run at
the same time: each with its thread of the server, the thread that writes the input and the process
of ffmpeg, which also has the ends that were open in the server when it was forked. -/
namespace Crown

open Lib

/-- The ends of the pipes of a call, `inPipe` and `outPipe`. -/
inductive PipeEnd where
  | inRead
  | inWrite
  | outRead
  | outWrite
  deriving DecidableEq

/-- What a process does next. It goes on with what it read, which is nothing at the end of its
input. -/
inductive ToolAct (τ : Type) where
  | read (next : Text → τ)
  | write (chunk : Text) (next : τ)
  | exit (status : Nat)

structure Tool (τ : Type) where
  start : τ
  act : τ → ToolAct τ

namespace Tool

variable {τ : Type}

/-- The tool has come here on its own, with `left` of its input and `unsent` of its output to go. -/
inductive Fed (tool : Tool τ) (input : Text) : τ → (unsent left output : Text) → Prop where
  | start : Fed tool input tool.start [] input []
  | read : Fed tool input t [] (chunk ++ left) output → tool.act t = .read next → chunk ≠ [] →
      Fed tool input (next chunk) [] left output
  | readEnd : Fed tool input t [] [] output → tool.act t = .read next →
      Fed tool input (next []) [] [] output
  | write : Fed tool input t [] left output → tool.act t = .write chunk next →
      Fed tool input next chunk left output
  | send : Fed tool input t (sent ++ unsent) left output →
      Fed tool input t unsent left (output ++ sent)

/-- How the tool may end, alone with its input: by itself, by a signal, or before it is executed. -/
inductive Ends (tool : Tool τ) (input : Text) : Option Nat → (output : Text) → Prop where
  | exit : Fed tool input t [] left output → tool.act t = .exit status →
      Ends tool input (some status) output
  | killed : Fed tool input t unsent left output → Ends tool input none output
  | unexecuted : Ends tool input (some 127) []
  | killedBefore : Ends tool input none []

/-- The runs of ffmpeg that there may be for an input. -/
inductive Yields (tool : Tool τ) (input : Text) : FfmpegRun → Prop where
  | noPipes : Yields tool input (.unstarted (lit "Falha ao criar pipes."))
  | noProcess : Yields tool input (.unstarted (lit "Falha ao criar processo ffmpeg."))
  | exited : Ends tool input status output → Yields tool input (.exited status output)

end Tool

/-- Where a process of ffmpeg stands: forked and not yet executed, or executed. -/
inductive Child (τ : Type) where
  | unborn
  | forked
  | running (tool : τ) (unsent : Text)
  | ended (status : Option Nat)

/-- Where the thread of the server stands, between its calls of the system. -/
inductive MainPhase where
  | begun
  | halfPiped
  | piped
  | forked
  | halfClosed
  | reading
  | readAll
  | closed
  | joined
  | returned (result : CodecResult)

/-- The thread that writes the input: not started, in its loop, behind a `break`, or behind its
`close`. -/
inductive Writer where
  | unstarted
  | writing
  | broken
  | done
  deriving DecidableEq

/-- A call of `runffmpegpipe`: `opened` are the ends that are open in the server, `held` those,
of this call and of others by their places, that the process has. -/
structure PipeCall (τ : Type) where
  input : Text
  main : MainPhase
  opened : List PipeEnd
  writer : Writer
  offset : Nat
  inBuffer : Text
  outBuffer : Text
  output : Text
  child : Child τ
  held : List (Nat × PipeEnd)
  born : Nat

/-- `forks` counts the processes forked so far. -/
structure Pipes (τ : Type) where
  calls : List (PipeCall τ)
  forks : Nat

namespace Pipes

variable {τ : Type}

/-- A call of the system that returns, or fails where it may. The numbers are of bytes. -/
inductive Action where
  | pipeIn | pipeInFails | pipeOut | pipeOutFails | fork | forkFails | closeIn | closeOut
  | read (n : Nat) | readEnd | closeRead | join | wait
  | write (n : Nat) | writeFails | closeWrite
  | childCloses | execFails | childReads (n : Nat) | childReadsEnd | childWrites
  | childSends (n : Nat) | childExits | killed

def Action.isFork : Action → Bool
  | fork => true
  | _ => false

inductive Event where
  | call (input : Text)
  | act (place : Nat) (action : Action)

/-- Some process has the end of the pipe of a call: the server, or a process of ffmpeg. -/
def isHeld (s : Pipes τ) (place : Nat) (e : PipeEnd) : Bool :=
  (s.calls[place]?).any (fun call => e ∈ call.opened) ||
    s.calls.any fun call => (place, e) ∈ call.held

/-- The ends that are open in the server. -/
def openEnds (s : Pipes τ) : List (Nat × PipeEnd) :=
  s.calls.zipIdx.flatMap fun (call, place) => call.opened.map (place, ·)

/-- The buffer of the server's reads. -/
def readSize : Nat := 65536

/-- The thread that called `runffmpegpipe`. -/
def mainAct (s : Pipes τ) (place : Nat) (call : PipeCall τ) (action : Action) :
    Option (PipeCall τ) :=
  match call.main, action with
  | .begun, .pipeIn => some { call with main := .halfPiped, opened := [.inRead, .inWrite] }
  | .begun, .pipeInFails =>
    some { call with main := .returned (.failed (lit "Falha ao criar pipes.")) }
  | .halfPiped, .pipeOut =>
    some { call with main := .piped, opened := call.opened ++ [.outRead, .outWrite] }
  | .halfPiped, .pipeOutFails =>
    some { call with main := .returned (.failed (lit "Falha ao criar pipes.")) }
  | .piped, .fork =>
    some { call with main := .forked, child := .forked, held := s.openEnds, born := s.forks + 1 }
  | .piped, .forkFails =>
    some { call with main := .returned (.failed (lit "Falha ao criar processo ffmpeg.")) }
  | .forked, .closeIn =>
    some { call with main := .halfClosed, opened := call.opened.filter (· ≠ .inRead) }
  | .halfClosed, .closeOut =>
    some { call with
      main := .reading, writer := .writing, opened := call.opened.filter (· ≠ .outWrite) }
  | .reading, .read n =>
    if 0 < n ∧ n ≤ call.outBuffer.length ∧ n ≤ readSize then
      some { call with
        output := call.output ++ call.outBuffer.take n, outBuffer := call.outBuffer.drop n }
    else none
  | .reading, .readEnd =>
    if call.outBuffer = [] ∧ s.isHeld place .outWrite = false then
      some { call with main := .readAll }
    else none
  | .readAll, .closeRead =>
    some { call with main := .closed, opened := call.opened.filter (· ≠ .outRead) }
  | .closed, .join => if call.writer = .done then some { call with main := .joined } else none
  | .joined, .wait =>
    match call.child with
    | .ended status =>
      some { call with main := .returned (Codec.posixPipe (.exited status call.output) call.input) }
    | _ => none
  | _, _ => none

/-- The thread that writes; a pipe takes up to `capacity` bytes. -/
def writerAct (capacity : Nat) (s : Pipes τ) (place : Nat) (call : PipeCall τ) (action : Action) :
    Option (PipeCall τ) :=
  match call.writer, action with
  | .writing, .write n =>
    if 0 < n ∧ n ≤ call.input.length - call.offset ∧ call.inBuffer.length + n ≤ capacity ∧
        s.isHeld place .inRead then
      some { call with
        offset := call.offset + n
        inBuffer := call.inBuffer ++ (call.input.drop call.offset).take n }
    else none
  | .writing, .writeFails =>
    if call.offset < call.input.length ∧ s.isHeld place .inRead = false then
      some { call with writer := .broken }
    else none
  | .writing, .closeWrite =>
    if call.input.length ≤ call.offset then
      some { call with writer := .done, opened := call.opened.filter (· ≠ .inWrite) }
    else none
  | .broken, .closeWrite =>
    some { call with writer := .done, opened := call.opened.filter (· ≠ .inWrite) }
  | _, _ => none

/-- The process. Its standard input and output are the two ends of its call that it keeps. -/
def childAct (tool : Tool τ) (capacity : Nat) (s : Pipes τ) (place : Nat) (call : PipeCall τ)
    (action : Action) : Option (PipeCall τ) :=
  match call.child, action with
  | .forked, .childCloses =>
    some { call with
      child := .running tool.start []
      held := call.held.filter fun (other, e) => other ≠ place ∨ e = .inRead ∨ e = .outWrite }
  | .forked, .execFails => some { call with child := .ended (some 127), held := [] }
  | .forked, .killed => some { call with child := .ended none, held := [] }
  | .running t [], .childReads n =>
    match tool.act t with
    | .read next =>
      if 0 < n ∧ n ≤ call.inBuffer.length then
        some { call with
          child := .running (next (call.inBuffer.take n)) [], inBuffer := call.inBuffer.drop n }
      else none
    | _ => none
  | .running t [], .childReadsEnd =>
    match tool.act t with
    | .read next =>
      if call.inBuffer = [] ∧ s.isHeld place .inWrite = false then
        some { call with child := .running (next []) [] }
      else none
    | _ => none
  | .running t [], .childWrites =>
    match tool.act t with
    | .write chunk next => some { call with child := .running next chunk }
    | _ => none
  | .running t unsent, .childSends n =>
    if 0 < n ∧ n ≤ unsent.length ∧ call.outBuffer.length + n ≤ capacity then
      some { call with
        child := .running t (unsent.drop n), outBuffer := call.outBuffer ++ unsent.take n }
    else none
  | .running t [], .childExits =>
    match tool.act t with
    | .exit status => some { call with child := .ended (some status), held := [] }
    | _ => none
  | .running _ _, .killed => some { call with child := .ended none, held := [] }
  | _, _ => none

def act (tool : Tool τ) (capacity : Nat) (s : Pipes τ) (place : Nat) (call : PipeCall τ)
    (action : Action) : Option (PipeCall τ) :=
  mainAct s place call action <|> writerAct capacity s place call action <|>
    childAct tool capacity s place call action

def begin (input : Text) : PipeCall τ :=
  ⟨input, .begun, [], .unstarted, 0, [], [], [], .unborn, [], 0⟩

def step (tool : Tool τ) (capacity : Nat) (s : Pipes τ) : Event → Option (Pipes τ)
  | .call input => some { s with calls := s.calls ++ [begin input] }
  | .act place action =>
    match s.calls[place]? with
    | some call => (act tool capacity s place call action).map fun call' =>
      ⟨s.calls.set place call', if action.isFork then s.forks + 1 else s.forks⟩
    | none => none

end Pipes

namespace PipeCall

variable {τ : Type} {tool : Tool τ} {place : Nat} {call call' : PipeCall τ}

/-- The input that the process has not read. -/
def left (call : PipeCall τ) : Text := call.inBuffer ++ call.input.drop call.offset

/-- The output that the process has written. -/
def written (call : PipeCall τ) : Text := call.output ++ call.outBuffer

def Ended (call : PipeCall τ) : Prop := ∃ status, call.child = .ended status

/-- The process is on a run of the tool with its input, and has its ends of the pipes. -/
def ChildSound (tool : Tool τ) (place : Nat) (call : PipeCall τ) : Prop :=
  match call.child with
  | .unborn => call.left = call.input ∧ call.written = []
  | .forked => (call.left = call.input ∧ call.written = []) ∧ ∀ e, (place, e) ∈ call.held
  | .running t unsent => tool.Fed call.input t unsent call.left call.written ∧
      (place, .inRead) ∈ call.held ∧ (place, .outWrite) ∈ call.held
  | .ended status => tool.Ends call.input status call.written

/-- The input is written to its end unless nobody is left to read it. -/
def WriterSound (call : PipeCall τ) : Prop :=
  match call.writer with
  | .unstarted => True
  | .writing => .inWrite ∈ call.opened
  | .broken => call.Ended
  | .done => call.input.length ≤ call.offset ∨ call.Ended

def MainSound (tool : Tool τ) (call : PipeCall τ) : Prop :=
  match call.main with
  | .begun => call.child = .unborn ∧ call.writer = .unstarted
  | .halfPiped => (call.child = .unborn ∧ call.writer = .unstarted) ∧
      call.opened = [.inRead, .inWrite]
  | .piped => (call.child = .unborn ∧ call.writer = .unstarted) ∧
      call.opened = [.inRead, .inWrite, .outRead, .outWrite]
  | .forked | .halfClosed =>
    call.child ≠ .unborn ∧ call.writer = .unstarted ∧ .inWrite ∈ call.opened
  | .reading => call.child ≠ .unborn ∧ call.writer ≠ .unstarted
  | .readAll | .closed => call.Ended ∧ call.outBuffer = [] ∧ call.writer ≠ .unstarted
  | .joined => call.Ended ∧ call.outBuffer = []
  | .returned result => (call.child = .unborn ∧ call.writer = .unstarted ∨ call.Ended) ∧
      ∃ run, tool.Yields call.input run ∧ result = Codec.posixPipe run call.input

structure Sound (tool : Tool τ) (place : Nat) (call : PipeCall τ) : Prop where
  main : call.MainSound tool
  writer : call.WriterSound
  child : call.ChildSound tool place

theorem ChildSound.congr (sound : call.ChildSound tool place) (input : call'.input = call.input)
    (child : call'.child = call.child) (left : call'.left = call.left)
    (written : call'.written = call.written) (held : call'.held = call.held) :
    call'.ChildSound tool place := by
  unfold ChildSound at sound ⊢
  rw [child, left, written, held, input]
  exact sound

/-- What the thread that writes does is nothing to the other one. -/
theorem MainSound.congr (sound : call.MainSound tool) (started : call.writer ≠ .unstarted)
    (input : call'.input = call.input) (main : call'.main = call.main)
    (child : call'.child = call.child) (outBuffer : call'.outBuffer = call.outBuffer)
    (still : call'.writer ≠ .unstarted) : call'.MainSound tool := by
  unfold MainSound Ended at sound ⊢
  rw [main, child, outBuffer, input]
  split at sound
  · exact absurd sound.2 started
  · exact absurd sound.1.2 started
  · exact absurd sound.1.2 started
  · exact absurd sound.2.1 started
  · exact absurd sound.2.1 started
  · exact ⟨sound.1, still⟩
  · exact ⟨sound.1, sound.2.1, still⟩
  · exact ⟨sound.1, sound.2.1, still⟩
  · exact sound
  · exact ⟨sound.1.imp (fun unborn => absurd unborn.2 started) id, sound.2⟩

theorem MainSound.born (sound : call.MainSound tool) (started : call.writer ≠ .unstarted) :
    call.child ≠ .unborn := by
  intro unborn
  have alive : ¬call.Ended := by
    rintro ⟨status, ended⟩
    rw [unborn] at ended
    cases ended
  unfold MainSound at sound
  split at sound
  · exact started sound.2
  · exact started sound.1.2
  · exact started sound.1.2
  · exact started sound.2.1
  · exact started sound.2.1
  · exact sound.1 unborn
  · exact alive sound.1
  · exact alive sound.1
  · exact alive sound.1
  · exact sound.1.elim (fun unborn => started unborn.2) alive

/-- What a process does until it has ended is nothing to the threads. -/
theorem MainSound.alive (sound : call.MainSound tool) (born : call.child ≠ .unborn)
    (running : ¬call.Ended) (main : call'.main = call.main) (writer : call'.writer = call.writer)
    (opened : call'.opened = call.opened) (still : call'.child ≠ .unborn) :
    call'.MainSound tool := by
  unfold MainSound at sound ⊢
  rw [main, writer, opened]
  split at sound
  · exact absurd sound.1 born
  · exact absurd sound.1.1 born
  · exact absurd sound.1.1 born
  · exact ⟨still, sound.2⟩
  · exact ⟨still, sound.2⟩
  · exact ⟨still, sound.2⟩
  · exact absurd sound.1 running
  · exact absurd sound.1 running
  · exact absurd sound.1 running
  · exact absurd sound.1 fun either => either.elim (fun unborn => born unborn.1) running

theorem WriterSound.alive (sound : call.WriterSound) (running : ¬call.Ended)
    (writer : call'.writer = call.writer) (opened : call'.opened = call.opened)
    (offset : call'.offset = call.offset) (input : call'.input = call.input) :
    call'.WriterSound := by
  unfold WriterSound at sound ⊢
  rw [writer, opened, offset, input]
  split at sound
  · trivial
  · exact sound
  · exact absurd sound running
  · exact .inl (sound.resolve_right running)

/-- The end of the input is open in the server until the thread that writes closes it. -/
theorem MainSound.inWrite (sound : call.MainSound tool) (unstarted : call.writer = .unstarted)
    (born : call.child ≠ .unborn) (running : ¬call.Ended) : .inWrite ∈ call.opened := by
  unfold MainSound at sound
  split at sound
  · exact absurd sound.1 born
  · exact absurd sound.1.1 born
  · exact absurd sound.1.1 born
  · exact sound.2.2
  · exact sound.2.2
  · exact absurd unstarted sound.2
  · exact absurd sound.1 running
  · exact absurd sound.1 running
  · exact absurd sound.1 running
  · exact absurd sound.1 fun either => either.elim (fun unborn => born unborn.1) running

/-- The thread that writes has not started, or has its end open unless it is done. -/
theorem WriterSound.filtered (writer : call.WriterSound) (other : e ≠ .inWrite) :
    ({ call with main := phase, opened := call.opened.filter (· ≠ e) } :
      PipeCall τ).WriterSound := by
  unfold WriterSound at writer ⊢
  dsimp only
  split
  · trivial
  · rename_i writing
    rw [writing] at writer
    exact List.mem_filter.mpr ⟨writer, decide_eq_true other.symm⟩
  · rename_i broken
    rw [broken] at writer
    exact writer
  · rename_i done
    rw [done] at writer
    exact writer

theorem writerSound_unstarted (unstarted : call.writer = .unstarted) : call.WriterSound := by
  unfold WriterSound
  rw [unstarted]
  trivial

theorem not_ended (alive : call.child = .forked ∨ ∃ t unsent, call.child = .running t unsent) :
    ¬call.Ended := by
  rintro ⟨status, ended⟩
  rw [ended] at alive
  rcases alive with same | ⟨t, unsent, same⟩ <;> cases same

theorem born_of_alive
    (alive : call.child = .forked ∨ ∃ t unsent, call.child = .running t unsent) :
    call.child ≠ .unborn := by
  intro unborn
  rw [unborn] at alive
  rcases alive with same | ⟨t, unsent, same⟩ <;> cases same

/-- A step of a process keeps what its threads have made sure of. -/
theorem Sound.stepped (sound : call.Sound tool place)
    (alive : call.child = .forked ∨ ∃ t unsent, call.child = .running t unsent)
    (main : call'.main = call.main) (writer : call'.writer = call.writer)
    (opened : call'.opened = call.opened) (offset : call'.offset = call.offset)
    (input : call'.input = call.input) (still : call'.child ≠ .unborn)
    (child : call'.ChildSound tool place) : call'.Sound tool place where
  main := sound.main.alive (born_of_alive alive) (not_ended alive) main writer opened still
  writer := sound.writer.alive (not_ended alive) writer opened offset input
  child := child

end PipeCall

namespace Pipes

open PipeCall

variable {τ : Type} {tool : Tool τ} {capacity place : Nat} {s s' : Pipes τ}
variable {call call' : PipeCall τ} {action : Action}

theorem isHeld_of_held {other : PipeCall τ} (member : other ∈ s.calls)
    (held : (place, e) ∈ other.held) : s.isHeld place e = true := by
  unfold isHeld
  rw [Bool.or_eq_true]
  exact .inr (List.any_eq_true.mpr ⟨other, member, decide_eq_true held⟩)

theorem isHeld_of_opened (here : s.calls[place]? = some call) (opened : e ∈ call.opened) :
    s.isHeld place e = true := by
  unfold isHeld
  rw [here, Bool.or_eq_true]
  exact .inl (decide_eq_true opened)

theorem mem_openEnds : (place, e) ∈ s.openEnds ↔
    ∃ call, s.calls[place]? = some call ∧ e ∈ call.opened := by
  simp only [openEnds, List.mem_flatMap, Prod.exists, List.mem_zipIdx_iff_getElem?, List.mem_map,
    Prod.mk.injEq]
  constructor
  · rintro ⟨call, other, here, e', opened, rfl, rfl⟩
    exact ⟨call, here, opened⟩
  · rintro ⟨call, here, opened⟩
    exact ⟨call, place, here, e, opened, rfl, rfl⟩

/-- Nobody has an end that the process of the call would keep: the process has ended. -/
theorem ended_of_unheld (sound : call.Sound tool place) (here : s.calls[place]? = some call)
    (born : call.child ≠ .unborn) (kept : e = .inRead ∨ e = .outWrite)
    (unheld : s.isHeld place e = false) : call.Ended := by
  have member := List.mem_of_getElem? here
  have absent : (place, e) ∉ call.held := by
    intro held
    rw [isHeld_of_held member held] at unheld
    cases unheld
  have own := sound.child
  unfold ChildSound at own
  split at own
  · contradiction
  · exact absurd (own.2 e) absent
  · rcases kept with rfl | rfl
    · exact absurd own.2.1 absent
    · exact absurd own.2.2 absent
  · exact ⟨_, by assumption⟩

theorem mainAct_sound (sound : call.Sound tool place) (here : s.calls[place]? = some call)
    (acted : mainAct s place call action = some call') : call'.Sound tool place := by
  have main := sound.main
  have writer := sound.writer
  have child := sound.child
  unfold mainAct at acted
  unfold MainSound at main
  split at acted
  case h_1 phase =>
    rw [phase] at main
    cases acted
    exact ⟨⟨main, rfl⟩, writerSound_unstarted main.2, child⟩
  case h_2 phase =>
    rw [phase] at main
    cases acted
    exact ⟨⟨.inl main, _, .noPipes, rfl⟩, writerSound_unstarted main.2, child⟩
  case h_3 phase =>
    rw [phase] at main
    cases acted
    refine ⟨⟨main.1, ?_⟩, writerSound_unstarted main.1.2, child⟩
    dsimp only
    rw [main.2]
    rfl
  case h_4 phase =>
    rw [phase] at main
    cases acted
    exact ⟨⟨.inl main.1, _, .noPipes, rfl⟩, writerSound_unstarted main.1.2, child⟩
  case h_5 phase =>
    rw [phase] at main
    cases acted
    unfold ChildSound at child
    rw [main.1.1] at child
    have all : ∀ e, e ∈ call.opened := by
      intro e
      rw [main.2]
      cases e <;> decide
    refine ⟨⟨fun born => (nomatch born), main.1.2, all _⟩, writerSound_unstarted main.1.2, ?_⟩
    exact ⟨child, fun e => mem_openEnds.mpr ⟨call, here, all e⟩⟩
  case h_6 phase =>
    rw [phase] at main
    cases acted
    exact ⟨⟨.inl main.1, _, .noProcess, rfl⟩, writerSound_unstarted main.1.2, child⟩
  case h_7 phase =>
    rw [phase] at main
    cases acted
    refine ⟨⟨main.1, main.2.1, ?_⟩, writer.filtered (by decide), child⟩
    exact List.mem_filter.mpr ⟨main.2.2, by decide⟩
  case h_8 phase =>
    rw [phase] at main
    cases acted
    refine ⟨⟨main.1, fun writing => nomatch writing⟩, ?_, child⟩
    exact List.mem_filter.mpr ⟨main.2.2, by decide⟩
  case h_9 phase =>
    rw [phase] at main
    split at acted
    · cases acted
      refine ⟨?_, writer, child.congr rfl rfl rfl ?_ rfl⟩
      · unfold MainSound
        rw [phase]
        exact main
      · simp [written]
    · cases acted
  case h_10 phase =>
    rw [phase] at main
    split at acted
    · rename_i ended
      cases acted
      have gone := ended_of_unheld sound here main.1 (.inr rfl) ended.2
      exact ⟨⟨gone, ended.1, main.2⟩, writer, child⟩
    · cases acted
  case h_11 phase =>
    rw [phase] at main
    cases acted
    exact ⟨main, writer.filtered (by decide), child⟩
  case h_12 phase =>
    rw [phase] at main
    split at acted
    · cases acted
      exact ⟨⟨main.1, main.2.1⟩, writer, child⟩
    · cases acted
  case h_13 phase =>
    rw [phase] at main
    split at acted
    · rename_i status ended
      cases acted
      have whole : call.written = call.output := by rw [written, main.2, List.append_nil]
      have ends := child
      unfold ChildSound at ends
      rw [ended, whole] at ends
      exact ⟨⟨.inr main.1, _, .exited ends, rfl⟩, writer, child⟩
    · cases acted
  case h_14 => cases acted

theorem writerAct_sound (sound : call.Sound tool place) (here : s.calls[place]? = some call)
    (acted : writerAct capacity s place call action = some call') : call'.Sound tool place := by
  have main := sound.main
  have writer := sound.writer
  have child := sound.child
  unfold writerAct at acted
  unfold WriterSound at writer
  split at acted
  case h_1 phase =>
    have started : call.writer ≠ .unstarted := by rw [phase]; decide
    rw [phase] at writer
    split at acted
    · cases acted
      refine ⟨main.congr started rfl rfl rfl rfl started, ?_, child.congr rfl rfl ?_ rfl rfl⟩
      · unfold WriterSound
        rw [phase]
        exact writer
      · simp only [left, List.append_assoc, ← List.drop_drop, List.take_append_drop]
    · cases acted
  case h_2 phase =>
    have started : call.writer ≠ .unstarted := by rw [phase]; decide
    split at acted
    · rename_i failed
      cases acted
      have gone := ended_of_unheld sound here (main.born started) (.inl rfl) failed.2
      exact ⟨main.congr started rfl rfl rfl rfl (fun same => (nomatch same)), gone, child⟩
    · cases acted
  case h_3 phase =>
    have started : call.writer ≠ .unstarted := by rw [phase]; decide
    split at acted
    · rename_i sent
      cases acted
      exact ⟨main.congr started rfl rfl rfl rfl (fun same => (nomatch same)), .inl sent, child⟩
    · cases acted
  case h_4 phase =>
    have started : call.writer ≠ .unstarted := by rw [phase]; decide
    rw [phase] at writer
    cases acted
    exact ⟨main.congr started rfl rfl rfl rfl (fun same => (nomatch same)), .inr writer, child⟩
  case h_5 => cases acted

/-- The end of the input comes behind all of it. -/
theorem left_eq_nil (sound : call.Sound tool place) (here : s.calls[place]? = some call)
    (alive : call.child = .running t unsent) (empty : call.inBuffer = [])
    (unheld : s.isHeld place .inWrite = false) : call.left = [] := by
  have closed : .inWrite ∉ call.opened := by
    intro opened
    rw [isHeld_of_opened here opened] at unheld
    cases unheld
  have running := not_ended (.inr ⟨_, _, alive⟩)
  have main := sound.main
  have writer := sound.writer
  unfold WriterSound at writer
  split at writer
  · rename_i unstarted
    exact absurd (main.inWrite unstarted (born_of_alive (.inr ⟨_, _, alive⟩)) running) closed
  · exact absurd writer closed
  · exact absurd writer running
  · rw [left, empty, List.drop_eq_nil_of_le (writer.resolve_right running), List.append_nil]

theorem childAct_sound (sound : call.Sound tool place) (here : s.calls[place]? = some call)
    (acted : childAct tool capacity s place call action = some call') :
    call'.Sound tool place := by
  have child := sound.child
  unfold ChildSound at child
  unfold childAct at acted
  split at acted
  case h_1 phase =>
    rw [phase] at child
    cases acted
    refine sound.stepped (.inl phase) rfl rfl rfl rfl rfl (fun h => (nomatch h)) ⟨?_, ?_, ?_⟩
    · show tool.Fed call.input tool.start [] call.left call.written
      rw [child.1.1, child.1.2]
      exact .start
    · exact List.mem_filter.mpr ⟨child.2 _, by simp⟩
    · exact List.mem_filter.mpr ⟨child.2 _, by simp⟩
  case h_2 phase =>
    rw [phase] at child
    cases acted
    refine sound.stepped (.inl phase) rfl rfl rfl rfl rfl (fun h => (nomatch h)) ?_
    show tool.Ends call.input (some 127) call.written
    rw [child.1.2]
    exact .unexecuted
  case h_3 phase =>
    rw [phase] at child
    cases acted
    refine sound.stepped (.inl phase) rfl rfl rfl rfl rfl (fun h => (nomatch h)) ?_
    show tool.Ends call.input none call.written
    rw [child.1.2]
    exact .killedBefore
  case h_4 t n phase =>
    rw [phase] at child
    split at acted
    · rename_i next reads
      split at acted
      · rename_i fits
        cases acted
        refine sound.stepped (.inr ⟨_, _, phase⟩) rfl rfl rfl rfl rfl (fun h => (nomatch h))
          ⟨?_, child.2⟩
        have parts : call.left = call.inBuffer.take n ++ (call.inBuffer.drop n ++
            call.input.drop call.offset) := by
          rw [left, ← List.append_assoc, List.take_append_drop]
        have nonempty : call.inBuffer.take n ≠ [] := by
          intro empty
          have length := congrArg List.length empty
          rw [List.length_take, Nat.min_eq_left fits.2] at length
          exact absurd length (Nat.ne_of_gt fits.1)
        exact .read (parts ▸ child.1) reads nonempty
      · cases acted
    · cases acted
  case h_5 t phase =>
    rw [phase] at child
    split at acted
    · rename_i next reads
      split at acted
      · rename_i ended
        cases acted
        refine sound.stepped (.inr ⟨_, _, phase⟩) rfl rfl rfl rfl rfl (fun h => (nomatch h))
          ⟨?_, child.2⟩
        have nothing := left_eq_nil sound here phase ended.1 ended.2
        show tool.Fed call.input (next []) [] call.left call.written
        rw [nothing] at child ⊢
        exact .readEnd child.1 reads
      · cases acted
    · cases acted
  case h_6 t phase =>
    rw [phase] at child
    split at acted
    · rename_i chunk next writes
      cases acted
      refine sound.stepped (.inr ⟨_, _, phase⟩) rfl rfl rfl rfl rfl (fun h => (nomatch h))
        ⟨?_, child.2⟩
      exact .write child.1 writes
    · cases acted
  case h_7 t unsent n phase =>
    rw [phase] at child
    split at acted
    · cases acted
      refine sound.stepped (.inr ⟨_, _, phase⟩) rfl rfl rfl rfl rfl (fun h => (nomatch h))
        ⟨?_, child.2⟩
      have sent := child.1
      rw [← List.take_append_drop n unsent] at sent
      have further := sent.send
      rw [written, List.append_assoc] at further
      exact further
    · cases acted
  case h_8 t phase =>
    rw [phase] at child
    split at acted
    · rename_i status exits
      cases acted
      refine sound.stepped (.inr ⟨_, _, phase⟩) rfl rfl rfl rfl rfl (fun h => (nomatch h)) ?_
      exact .exit child.1 exits
    · cases acted
  case h_9 t unsent phase =>
    rw [phase] at child
    cases acted
    refine sound.stepped (.inr ⟨_, _, phase⟩) rfl rfl rfl rfl rfl (fun h => (nomatch h)) ?_
    exact .killed child.1
  case h_10 => cases acted

theorem act_sound (sound : call.Sound tool place) (here : s.calls[place]? = some call)
    (acted : act tool capacity s place call action = some call') : call'.Sound tool place := by
  simp only [act, Option.orElse_eq_orElse, Option.orElse_eq_or, Option.or_eq_some_iff] at acted
  rcases acted with first | ⟨-, second | ⟨-, third⟩⟩
  · exact mainAct_sound sound here first
  · exact writerAct_sound sound here second
  · exact childAct_sound sound here third

theorem begin_sound (tool : Tool τ) (place : Nat) (input : Text) :
    (begin input : PipeCall τ).Sound tool place :=
  ⟨⟨rfl, rfl⟩, trivial, ⟨rfl, rfl⟩⟩

def Sound (tool : Tool τ) (s : Pipes τ) : Prop :=
  ∀ (place : Nat) (call : PipeCall τ), s.calls[place]? = some call → call.Sound tool place

theorem step_sound (sound : s.Sound tool) (stepped : step tool capacity s event = some s') :
    s'.Sound tool := by
  intro place call here
  cases event with
  | call input =>
    cases stepped
    dsimp only at here
    rw [List.getElem?_append] at here
    split at here
    · exact sound place call here
    · rw [List.mem_singleton.mp (List.mem_of_getElem? here)]
      exact begin_sound tool place input
  | act acting action =>
    simp only [step] at stepped
    split at stepped
    · rename_i old there
      obtain ⟨new, acted, rfl⟩ := Option.map_eq_some_iff.mp stepped
      dsimp only at here
      rw [List.getElem?_set] at here
      split at here
      · rename_i same
        subst same
        split at here
        · cases here
          exact act_sound (sound _ _ there) there acted
        · cases here
      · exact sound place call here
    · cases stepped

/-- While any number of calls run at the same time, in any order of the steps of their threads and
processes, a call that returns returns what it would with the run of ffmpeg alone on its input. -/
theorem run_alone (tool : Tool τ) (capacity : Nat)
    (run : Run (fun s event s' => step tool capacity s event = some s') ⟨[], 0⟩ events s)
    {call : PipeCall τ} (member : call ∈ s.calls) {result : CodecResult}
    (returned : call.main = .returned result) :
    ∃ ffmpeg, tool.Yields call.input ffmpeg ∧ result = Codec.posixPipe ffmpeg call.input := by
  have first : (⟨[], 0⟩ : Pipes τ).Sound tool := fun place call here => by
    rw [List.getElem?_nil] at here
    cases here
  have sound := run.invariant first fun s event s' held stepped => step_sound held stepped
  obtain ⟨place, here⟩ := List.mem_iff_getElem?.mp member
  have main := (sound place call here).main
  unfold MainSound at main
  rw [returned] at main
  exact main.2

/-- A tool that writes what it reads. -/
def relay : Tool (Option Text) where
  start := none
  act
    | none => .read some
    | some [] => .exit 0
    | some (c :: rest) => .write (c :: rest) none

/-- Two bytes through pipes of one. -/
def twoBytes : List Event :=
  .call (lit "ab") :: ([.pipeIn, .pipeOut, .fork, .childCloses, .closeIn, .closeOut, .write 1,
    .childReads 1, .childWrites, .childSends 1, .read 1, .write 1, .closeWrite, .childReads 1,
    .childWrites, .childSends 1, .read 1, .childReadsEnd, .childExits, .readEnd, .closeRead, .join,
    .wait] : List Action).map (.act 0)

/-- The data of a call that has returned it. -/
def returnedData (call : PipeCall τ) : Option Text :=
  match call.main with
  | .returned result => result.taken
  | _ => none

theorem twoBytes_alone : ∃ s : Pipes (Option Text), ∃ call ∈ s.calls, ∃ result ffmpeg,
    call.main = .returned result ∧ result.taken = some (lit "ab") ∧
      relay.Yields call.input ffmpeg ∧ result = Codec.posixPipe ffmpeg call.input := by
  have ends : (execute (step relay 1) twoBytes ⟨[], 0⟩).any
      (fun s => s.calls.any fun call => returnedData call = some (lit "ab")) = true := by
    with_unfolding_all decide
  obtain ⟨s, reached, shows⟩ := (Option.any_eq_true ..).mp ends
  obtain ⟨call, member, data⟩ := List.any_eq_true.mp shows
  have given := of_decide_eq_true data
  unfold returnedData at given
  split at given
  · rename_i result returned
    obtain ⟨ffmpeg, yields, same⟩ := run_alone relay 1 (run_of_execute reached) member returned
    exact ⟨s, call, member, result, ffmpeg, returned, given, yields, same⟩
  · cases given

end Pipes
end Crown
