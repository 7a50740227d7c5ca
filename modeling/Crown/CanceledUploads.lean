import Crown.ImageCdn

/-! One `upload` while `abort` is called at any moment: when it ends with a URL all the same. -/
namespace Crown.Client

open Lib
open ImageCdn (Completion Next Outcome Resumes Upload)

/-- A composable with no upload under way. -/
structure IdleCdn extends ImageCdn where
  idle : uploads = []

/-- The composable with an upload and how that ended. On record is whether `abort` was called
while it was pending, and what was sent since. -/
structure CancelWatch where
  cdn : ImageCdn
  outcome : Option Outcome
  canceled : Bool
  sent : List CdnRequest

inductive CancelEvent where
  | abort
  | complete (completion : Completion)

namespace CancelWatch

def start (s : IdleCdn) (file : File) (options : UploadOptions) : CancelWatch :=
  ⟨s.toImageCdn.upload file options, none, false, []⟩

def noted (w : CancelWatch) (cdn : ImageCdn) : Next → CancelWatch
  | .waits request _ =>
    { w with cdn, sent := w.sent ++ if w.canceled then request.toList else [] }
  | .ends outcome => { w with cdn, outcome := some outcome }

def step (w : CancelWatch) : CancelEvent → Option CancelWatch
  | .abort =>
    let (rejected, cdn) := w.cdn.abort
    some { w with
      cdn
      outcome := w.outcome <|> rejected.head?.map fun u => .error (ImageCdn.givenUp u)
      canceled := w.canceled || !w.cdn.uploads.isEmpty }
  | .complete completion =>
    (w.cdn.complete 0 completion).map fun (next, cdn) => w.noted cdn next

/-- An upload that was cancelled does not end with a URL, and no image is registered since. -/
def Wins (w : CancelWatch) : Prop :=
  w.canceled = true →
    (∀ result, w.outcome = some (.ok result) → result.url = []) ∧
      ∀ request ∈ w.sent, request.isRegister = false

/-- When the upload was cancelled, no image is found that is there already, and the answer to
the registration is not waited for, or there is no URL. -/
def Looked (w : CancelWatch) : CancelEvent → Prop
  | .abort => True
  | .complete completion => w.canceled = true →
      ∀ u ∈ w.cdn.uploads, ∀ url ∈ u.foundUrl completion, url = []

/-- The upload is pending with a controller of its own, which was aborted when it was cancelled;
then no fetch can be given up any more. -/
structure Pending (w : CancelWatch) (u : Upload) (signal : Nat) : Prop where
  only : w.cdn.uploads = [u]
  own : w.cdn.abortController = some signal
  aborted : w.cdn.controllers[signal]? = some w.canceled
  fetching : ∀ other, u.waits.signal = some other → other = signal ∧ w.canceled = false
  outcome : w.outcome = none

structure Watched (w : CancelWatch) : Prop where
  quiet : ∀ request ∈ w.sent, request.isRegister = false
  stage : w.cdn.uploads = [] ∨ ∃ u signal, Pending w u signal

variable {w w' : CancelWatch} {u : Upload} {signal : Nat} {completion : Completion} {next : Next}

theorem start_watched (s : IdleCdn) (file : File) (options : UploadOptions) :
    Watched (start s file options) := by
  refine ⟨fun _ none => ?_, .inr ⟨⟨file, options, .computeFileHash⟩, s.controllers.length,
    ⟨?_, rfl, ?_, fun _ none => ?_, rfl⟩⟩⟩
  · cases none
  · show s.uploads ++ [_] = _
    rw [s.idle]
    rfl
  · exact List.getElem?_concat_length
  · cases none

theorem start_wins (s : IdleCdn) (file : File) (options : UploadOptions) :
    Wins (start s file options) := by
  intro canceled
  cases canceled

/-- All requests on record are other ones, so that only the end of the upload matters. -/
theorem wins_iff (quiet : ∀ request ∈ w.sent, request.isRegister = false) :
    w.Wins ↔ (w.canceled = true → ∀ result, w.outcome = some (.ok result) → result.url = []) := by
  unfold Wins
  exact forall_congr' fun _ => and_iff_left quiet

theorem Pending.silent (pending : Pending w u signal) (kept : w.cdn.givesUp u = false) :
    u.waits.signal = none := by
  cases fetch : u.waits.signal with
  | none => rfl
  | some other =>
    obtain ⟨rfl, -⟩ := pending.fetching other fetch
    simp [ImageCdn.givesUp, ImageCdn.listens, pending.own, fetch] at kept

/-- A fetch of an upload that goes on can be given up, since it was not cancelled. -/
theorem Pending.goesOn {waits : ImageCdn.Waits} (pending : Pending w u signal)
    (fetching : ∀ other, waits.signal = some other → u.waits.signal = some other ∨
      w.cdn.abortController = some other ∧ w.cdn.isAborted other = false) (other : Nat)
    (fetch : waits.signal = some other) : other = signal ∧ w.canceled = false := by
  rcases fetching other fetch with since | ⟨current, live⟩
  · exact pending.fetching other since
  · cases pending.own.symm.trans current
    rw [ImageCdn.isAborted, pending.aborted] at live
    exact ⟨rfl, live⟩

/-- An upload that was cancelled registers nothing. -/
theorem Pending.registers {request : Option CdnRequest} (pending : Pending w u signal)
    (register : ∀ sent ∈ request, sent.isRegister = true → u.waits.signal.isSome = true) :
    ∀ sent ∈ if w.canceled then request.toList else [], sent.isRegister = false := by
  intro sent member
  cases canceled : w.canceled with
  | false => simp [canceled] at member
  | true =>
    rw [canceled, if_pos rfl] at member
    by_contra registers
    rw [Bool.not_eq_false] at registers
    obtain ⟨other, fetch⟩ := Option.isSome_iff_exists.mp
      (register sent (Option.mem_toList.mp member) registers)
    cases canceled.symm.trans (pending.fetching other fetch).2

/-- A call of `abort` gives up the fetch of the upload, or leaves the upload aborted. -/
theorem abort_step (watched : Watched w) (wins : w.Wins) (stepped : w.step .abort = some w') :
    Watched w' ∧ w'.Wins := by
  obtain ⟨quiet, stage⟩ := watched
  have after : w' = { w with
      cdn := w.cdn.abort.2
      outcome := w.outcome <|> w.cdn.abort.1.head?.map fun u => .error (ImageCdn.givenUp u)
      canceled := w.canceled || !w.cdn.uploads.isEmpty } := (Option.some.inj stepped).symm
  subst after
  have rejected := w.cdn.abort_rejected
  have uploads := w.cdn.abort_uploads
  rcases stage with none | ⟨u, signal, pending⟩
  · rw [none] at rejected uploads
    refine ⟨⟨quiet, .inl uploads⟩, fun canceled => ⟨fun result ended => ?_, quiet⟩⟩
    simp only [none, List.isEmpty_nil, Bool.not_true, Bool.or_false] at canceled
    simp only [rejected, List.filter_nil, List.head?_nil, Option.map_none,
      Option.orElse_eq_orElse, Option.orElse_eq_or, Option.or_none] at ended
    exact (wins canceled).1 result ended
  · have only := pending.only
    rw [only] at rejected uploads
    cases gives : w.cdn.givesUp u with
    | true =>
      rw [List.filter_cons_of_pos gives, List.filter_nil] at rejected
      rw [List.filter_cons_of_neg (by simp [gives]), List.filter_nil] at uploads
      refine ⟨⟨quiet, .inl uploads⟩, fun canceled => ⟨fun result ended => ?_, quiet⟩⟩
      simp [rejected, pending.outcome] at ended
    | false =>
      have nobody : w.cdn.uploads.filter w.cdn.givesUp = [] := by simp [only, gives]
      obtain ⟨own, controllers⟩ := ImageCdn.abort_of_none pending.own nobody
      rw [List.filter_cons_of_neg (by simp [gives]), List.filter_nil] at rejected
      rw [List.filter_cons_of_pos (by simp [gives]), List.filter_nil] at uploads
      have known : signal < w.cdn.controllers.length :=
        (List.getElem?_eq_some_iff.mp pending.aborted).1
      refine ⟨⟨quiet, .inr ⟨u, signal, uploads, own, ?_, ?_, ?_⟩⟩,
        fun canceled => ⟨fun result ended => ?_, quiet⟩⟩
      · simp [controllers, only, known]
      · intro other fetch
        rw [pending.silent gives] at fetch
        cases fetch
      · simp [rejected, pending.outcome]
      · simp [rejected, pending.outcome] at ended

/-- A completion that ends the upload with a URL may not come after it was cancelled. -/
theorem complete_step (watched : Watched w)
    (stepped : w.step (.complete completion) = some w') :
    Watched w' ∧ (w'.Wins ↔ w.Looked (.complete completion)) := by
  obtain ⟨⟨next, cdn⟩, completed, rfl⟩ := Option.map_eq_some_iff.mp stepped
  obtain ⟨u, here, resumes, rfl⟩ := ImageCdn.complete_cases completed
  show Watched (w.noted _ next) ∧ ((w.noted _ next).Wins ↔ _)
  obtain ⟨quiet, none | ⟨pendingUpload, signal, pending⟩⟩ := watched
  · rw [none] at here
    cases here
  have only := pending.only
  rw [only] at here
  cases here
  have looked : w.Looked (.complete completion) ↔
      (w.canceled = true → ∀ url ∈ u.foundUrl completion, url = []) := by
    simp [Looked, only]
  rw [looked]
  have ended : ∀ outcome, (w.cdn.proceed 0 u (.ends outcome)).uploads = [] := by
    intro outcome
    show w.cdn.uploads.eraseIdx 0 = []
    rw [only]
    rfl
  cases resumes with
  | resolves result found =>
    refine ⟨⟨quiet, .inl (ended _)⟩, (wins_iff (w := w.noted _ (.ends _)) quiet).trans ?_⟩
    simp [noted, found]
  | rejects err found =>
    refine ⟨⟨quiet, .inl (ended _)⟩, (wins_iff (w := w.noted _ (.ends _)) quiet).trans ?_⟩
    simp [noted, found]
  | waits request waits found fails fetching register =>
    have still : ∀ sent ∈ (w.noted (w.cdn.proceed 0 u (.waits request waits))
        (.waits request waits)).sent, sent.isRegister = false := by
      intro sent member
      rcases List.mem_append.mp member with earlier | new
      · exact quiet sent earlier
      · exact pending.registers register sent new
    refine ⟨⟨still, .inr ⟨{ u with waits }, signal, ?_, pending.own, pending.aborted,
      pending.goesOn fetching, pending.outcome⟩⟩, (wins_iff still).trans ?_⟩
    · show w.cdn.uploads.set 0 { u with waits } = _
      rw [only]
      rfl
    · simp [noted, found, pending.outcome]

theorem step_wins_iff {event : CancelEvent} (watched : Watched w) (wins : w.Wins)
    (stepped : w.step event = some w') : Watched w' ∧ (w'.Wins ↔ w.Looked event) := by
  cases event with
  | abort =>
    obtain ⟨after, still⟩ := abort_step watched wins stepped
    exact ⟨after, iff_of_true still trivial⟩
  | complete completion => exact complete_step watched stepped

/-- The runs in which cancelling wins are those in which no completion brings a URL, of an image
that is there already or of one that was just registered, after `abort` was called. -/
theorem run_wins_iff (s : IdleCdn) (file : File) (options : UploadOptions)
    (events : List CancelEvent) (w : CancelWatch) :
    Run (fun w event w' => w.step event = some w' ∧ w'.Wins) (start s file options) events w ↔
      Run (Guarded Looked fun w event w' => w.step event = some w') (start s file options)
        events w := by
  refine Run.keeping_iff ⟨start_watched s file options, start_wins s file options⟩ ?_ ?_
  · intro w event w' watched wins stepped _
    exact (step_wins_iff watched wins stepped).1
  · intro w event w' watched wins stepped
    exact (step_wins_iff watched wins stepped).2

/-- The upload has ended with a URL although it was cancelled. -/
def endedWithUrl (w : CancelWatch) : Bool :=
  match w.outcome with
  | some (.ok result) => w.canceled && result.url ≠ []
  | _ => false

theorem not_wins_of_endedWithUrl (ended : w.endedWithUrl = true) : ¬w.Wins := by
  intro wins
  rw [endedWithUrl] at ended
  split at ended
  · rename_i result known
    obtain ⟨canceled, url⟩ := Bool.and_eq_true_iff.mp ended
    exact of_decide_eq_true url ((wins canceled).1 result known)
  · cases ended

/-- `abort` is called while the check is under way, which then finds the image. -/
theorem found_after_abort : ¬∀ (s : IdleCdn) (file : File) (options : UploadOptions)
    (events : List CancelEvent) (w : CancelWatch),
    Run (fun w event w' => w.step event = some w') (start s file options) events w → w.Wins := by
  intro always
  let s : IdleCdn := ⟨.initial, rfl⟩
  have ends : (execute step [.complete (.hashed (.ok [255])), .abort,
      .complete (.checked (some ⟨true, some [98], some [99]⟩))]
        (start s ⟨0, [97], [], 1⟩ ⟨none, none⟩)).any endedWithUrl = true := by
    decide
  obtain ⟨w, reached, ends⟩ := (Option.any_eq_true ..).mp ends
  exact not_wins_of_endedWithUrl ends (always s _ _ _ w (run_of_execute reached))

end CancelWatch
end Crown.Client
