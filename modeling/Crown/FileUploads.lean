import Crown.ImageCdn

/-! The upload field of a new post, `components/ui/FiLeUpload.vue`: when the URL that is bound to
it belongs to the selected file. -/
namespace Crown.Client

open Lib
open ImageCdn (Completion Next Outcome Resumes Upload)

structure FileUploadProps where
  accept : List JsString
  folder : JsString
  tags : List JsString
  /-- In megabytes. -/
  maxSizes : JsString → Option Nat

def FileUploadProps.defaults : FileUploadProps where
  accept := [js "image/png", js "image/jpeg", js "image/gif", js "image/webp", js "video/mp4"]
  folder := js "/posts"
  tags := []
  maxSizes type :=
    if type = js "image/*" then some 10 else if type = js "video/*" then some 25 else none

inductive FileUploadEmit where
  | updateModelValue (url : JsString)
  | uploaded (url : JsString)
  | error (message : JsString)
  | fileSelected (file : File)
  deriving DecidableEq

def megabyte : Nat := 1024 * 1024

/-- `toFixed(1)` of a quotient. -/
def toFixed1 (dividend divisor : Nat) : JsString :=
  let tenths := (20 * dividend + divisor) / (2 * divisor)
  (Text.decimal (tenths / 10 : Nat)).map unit ++ [unit '.'] ++
    (Text.decimal (tenths % 10 : Nat)).map unit

def formatSize (bytes : Nat) : JsString :=
  if bytes < 1024 then (Text.decimal bytes).map unit ++ js " B"
  else if bytes < megabyte then toFixed1 bytes 1024 ++ js " KB"
  else toFixed1 bytes megabyte ++ js " MB"

/-- `toUpperCase`, for the ASCII of a media type. -/
def upper (u : UInt16) : UInt16 := if between 'a' 'z' u then u - 0x20 else u

/-- `t.split("/")[1]?.toUpperCase() || t`. -/
def extension (type : JsString) : JsString :=
  match (type.splitOn (unit '/'))[1]? with
  | some (u :: name) => (u :: name).map upper
  | _ => type

namespace FileUploadProps

def getMaxSizeBytes (props : FileUploadProps) (file : File) : Nat :=
  match props.maxSizes file.type with
  | some size => size * megabyte
  | none =>
    match props.maxSizes ((file.type.splitOn (unit '/')).headD [] ++ js "/*") with
    | some size => size * megabyte
    | none => 10 * megabyte

def validateFile (props : FileUploadProps) (file : File) : Option JsString :=
  if !props.accept.contains file.type then
    some (js "Tipo de arquivo nao permitido. Aceitos: " ++
      (js ", ").intercalate (props.accept.map extension))
  else if props.getMaxSizeBytes file < file.size then
    some (js "Arquivo muito grande. Maximo: " ++ formatSize (props.getMaxSizeBytes file))
  else none

end FileUploadProps

/-- The field without its preview. On record are the URLs that uploads returned, with their
files. -/
structure FileUpload where
  selectedFile : Option File
  localError : Option JsString
  modelValue : JsString
  emitted : List FileUploadEmit
  cdn : ImageCdn
  returned : List (File × JsString)

namespace FileUpload

inductive Event where
  | handleFile (file : File)
  | startUpload
  | cancelUpload
  | removeFile
  | complete (place : Nat) (completion : Completion)

def initial : FileUpload where
  selectedFile := none
  localError := none
  modelValue := []
  emitted := []
  cdn := .initial
  returned := []

def emit (s : FileUpload) (event : FileUploadEmit) : FileUpload :=
  { s with emitted := s.emitted ++ [event] }

def handleFile (props : FileUploadProps) (s : FileUpload) (file : File) : FileUpload :=
  match props.validateFile file with
  | some validationError =>
    { s with localError := some validationError }.emit (.error validationError)
  | none => { s with localError := none, selectedFile := some file }.emit (.fileSelected file)

def removeFile (s : FileUpload) : FileUpload :=
  { s with selectedFile := none, localError := none, cdn := s.cdn.reset }

/-- `startUpload` up to its wait. -/
def startUpload (props : FileUploadProps) (s : FileUpload) : FileUpload :=
  match s.selectedFile with
  | none => s
  | some file =>
    if s.cdn.uploading then s
    else { s with cdn := s.cdn.upload file ⟨some props.folder, some props.tags⟩ }

/-- The parent binds the URL that it is given, and the watcher is called when it is another. -/
def updateModelValue (s : FileUpload) (url : JsString) : FileUpload :=
  let bound := { s with modelValue := url }.emit (.updateModelValue url)
  if url ≠ s.modelValue ∧ url = [] ∧ s.selectedFile.isSome = true then bound.removeFile else bound

/-- `startUpload` from the end of the upload on. -/
def ended (s : FileUpload) (file : File) : Outcome → FileUpload
  | .ok result =>
    ({ s with returned := (file, result.url) :: s.returned }.updateModelValue result.url).emit
      (.uploaded result.url)
  | .error .abortError => s
  | .error (.other _) =>
    s.emit (.error (match s.cdn.error with | some (u :: error) => u :: error | _ => uploadFailed))

def cancelUpload (s : FileUpload) : FileUpload :=
  let (rejected, cdn) := s.cdn.abort
  rejected.foldl (fun s u => s.ended u.file (.error (ImageCdn.givenUp u))) { s with cdn }

def completed (s : FileUpload) (u : Upload) : Next × ImageCdn → FileUpload
  | (.waits .., cdn) => { s with cdn }
  | (.ends outcome, cdn) => { s with cdn }.ended u.file outcome

def step (props : FileUploadProps) (s : FileUpload) : Event → Option FileUpload
  | .handleFile file => some (s.handleFile props file)
  | .startUpload => some (s.startUpload props)
  | .cancelUpload => some s.cancelUpload
  | .removeFile => some s.removeFile
  | .complete place completion => do
    let u ← s.cdn.uploads[place]?
    let next ← s.cdn.complete place completion
    return s.completed u next

/-- There is no URL, or an upload of the selected file returned it. -/
def Matches (s : FileUpload) (url : JsString) : Prop :=
  url = [] ∨ ∃ file, s.selectedFile = some file ∧ (file, url) ∈ s.returned

/-- When no upload is in flight, the URL that is bound is one of the selected file. -/
def Bound (s : FileUpload) : Prop := s.cdn.uploads = [] → s.Matches s.modelValue

/-- No event that leaves no upload in flight parts the URL from the selected file: the file is not
removed while there is a URL, no other one is selected than one that returned it, and when the
last upload ends its file is still selected, or, if it ends without a URL, the file of the URL
before. -/
def Keeps (props : FileUploadProps) (s : FileUpload) : Event → Prop
  | .handleFile file => props.validateFile file = none → s.cdn.uploads = [] →
      s.modelValue = [] ∨ (file, s.modelValue) ∈ s.returned
  | .startUpload => True
  | .cancelUpload => (∀ u ∈ s.cdn.uploads, s.cdn.givesUp u = true) → s.Matches s.modelValue
  | .removeFile => s.cdn.uploads = [] → s.modelValue = []
  | .complete _ completion => ∀ u, s.cdn.uploads = [u] →
      (∀ url ∈ u.foundUrl completion, s.selectedFile = some u.file ∨ s.Matches url) ∧
        (s.cdn.fails u completion = true → s.Matches s.modelValue)

section

variable {props : FileUploadProps} {s s' : FileUpload} {u : Upload} {completion : Completion}

theorem initial_bound : Bound initial := fun _ => .inl rfl

/-- An upload that ends with an error changes nothing that is bound. -/
theorem ended_error (s : FileUpload) (file : File) (err : UploadError) :
    ∃ emitted, s.ended file (.error err) = { s with emitted } := by
  cases err with
  | abortError => exact ⟨s.emitted, rfl⟩
  | other message => exact ⟨_, rfl⟩

theorem foldl_ended (rejected : List Upload) (s : FileUpload) :
    ∃ emitted, rejected.foldl (fun s u => s.ended u.file (.error (ImageCdn.givenUp u))) s =
      { s with emitted } := by
  induction rejected generalizing s with
  | nil => exact ⟨s.emitted, rfl⟩
  | cons u rejected ih =>
    obtain ⟨emitted, same⟩ := ended_error s u.file (ImageCdn.givenUp u)
    obtain ⟨later, rest⟩ := ih { s with emitted }
    rw [List.foldl_cons, same]
    exact ⟨later, rest⟩

theorem handleFile_bound_iff (bound : s.Bound) (file : File) :
    (s.handleFile props file).Bound ↔ s.Keeps props (.handleFile file) := by
  unfold handleFile
  cases valid : props.validateFile file with
  | some validationError =>
    refine iff_of_true bound fun none => ?_
    rw [valid] at none
    cases none
  | none =>
    show (s.cdn.uploads = [] → s.modelValue = [] ∨
      ∃ other, some file = some other ∧ (other, s.modelValue) ∈ s.returned) ↔ _
    simp [Keeps, valid]

theorem startUpload_bound (bound : s.Bound) : (s.startUpload props).Bound := by
  unfold startUpload
  split
  · exact bound
  · split
    · exact bound
    · intro none
      exact absurd none (List.append_ne_nil_of_right_ne_nil _ (List.cons_ne_nil _ _))

theorem cancelUpload_bound_iff :
    s.cancelUpload.Bound ↔ s.Keeps props .cancelUpload := by
  obtain ⟨emitted, same⟩ := foldl_ended s.cdn.abort.1 { s with cdn := s.cdn.abort.2 }
  have after : s.cancelUpload = { s with cdn := s.cdn.abort.2, emitted } := same
  rw [after]
  show (s.cdn.abort.2.uploads = [] → s.Matches s.modelValue) ↔ _
  rw [ImageCdn.abort_uploads, List.filter_eq_nil_iff]
  simp [Keeps]

theorem removeFile_bound_iff : s.removeFile.Bound ↔ s.Keeps props .removeFile := by
  show (s.cdn.uploads = [] → s.modelValue = [] ∨
    ∃ file, none = some file ∧ (file, s.modelValue) ∈ s.returned) ↔ _
  simp [Keeps]

theorem updateModelValue_modelValue (s : FileUpload) (url : JsString) :
    (s.updateModelValue url).modelValue = url := by
  unfold updateModelValue
  split <;> rfl

/-- An upload that ends with a URL has it bound, whatever is selected by then. -/
theorem ended_ok_bound_iff (s : FileUpload) (file : File) (result : UploadResult) :
    (s.ended file (.ok result)).Bound ↔
      (s.cdn.uploads = [] → s.selectedFile = some file ∨ s.Matches result.url) := by
  by_cases empty : result.url = []
  · refine iff_of_true (fun _ => .inl ?_) fun _ => .inr (.inl empty)
    exact (updateModelValue_modelValue _ _).trans empty
  · have after : { s with returned := (file, result.url) :: s.returned }.updateModelValue
        result.url = { s with
          returned := (file, result.url) :: s.returned
          modelValue := result.url
          emitted := s.emitted ++ [.updateModelValue result.url] } :=
      if_neg fun cleared => empty cleared.2.1
    rw [ended, after]
    show (s.cdn.uploads = [] → result.url = [] ∨ ∃ other, s.selectedFile = some other ∧
      (other, result.url) ∈ (file, result.url) :: s.returned) ↔ _
    refine imp_congr_right fun _ => ?_
    simp [Matches, empty, exists_or, and_or_left]

/-- Only a completion that ends the last upload can part the URL from the selected file. -/
theorem complete_bound_iff {place : Nat}
    (stepped : s.step props (.complete place completion) = some s') :
    s'.Bound ↔ s.Keeps props (.complete place completion) := by
  obtain ⟨u, here, rest⟩ := Option.bind_eq_some_iff.mp stepped
  obtain ⟨⟨next, cdn⟩, answered, same⟩ := Option.bind_eq_some_iff.mp rest
  cases same
  obtain ⟨other, there, resumes, rfl⟩ := ImageCdn.complete_cases answered
  cases here.symm.trans there
  have keeps : s.Keeps props (.complete place completion) ↔ (s.cdn.uploads.eraseIdx place = [] →
      (∀ url ∈ u.foundUrl completion, s.selectedFile = some u.file ∨ s.Matches url) ∧
        (s.cdn.fails u completion = true → s.Matches s.modelValue)) := by
    rw [InFlight.eraseIdx_eq_nil_iff here]
    constructor
    · exact fun keeps only => keeps u only
    · intro keeps other only
      rw [only] at here
      cases List.mem_singleton.mp (List.mem_of_getElem? here)
      exact keeps only
  rw [keeps]
  cases resumes with
  | resolves result found fails =>
    refine (ended_ok_bound_iff _ _ _).trans (imp_congr_right fun _ => ?_)
    simp [found, fails, Matches]
  | rejects err found fails =>
    obtain ⟨emitted, same⟩ := ended_error
      { s with cdn := s.cdn.proceed place u (.ends (.error err)) } u.file err
    rw [completed, same]
    refine imp_congr_right fun _ => ?_
    simp [found, fails, Matches]
  | waits request waits found fails =>
    refine iff_of_true (fun none => ?_) fun _ => ⟨fun url member => ?_, fun failed => ?_⟩
    · have set : s.cdn.uploads.set place { u with waits } = [] := none
      rw [List.set_eq_nil_iff] at set
      rw [set] at here
      cases here
    · rw [found] at member
      cases member
    · rw [fails] at failed
      cases failed

theorem step_bound_iff {event : Event} (bound : s.Bound) (stepped : s.step props event = some s') :
    s'.Bound ↔ s.Keeps props event := by
  cases event with
  | handleFile file =>
    cases stepped
    exact handleFile_bound_iff bound file
  | startUpload =>
    cases stepped
    exact iff_of_true (startUpload_bound bound) trivial
  | cancelUpload =>
    cases stepped
    exact cancelUpload_bound_iff
  | removeFile =>
    cases stepped
    exact removeFile_bound_iff
  | complete place completion => exact complete_bound_iff stepped

/-- The runs in which the URL always belongs to the selected file are those whose events all keep
the two together. -/
theorem run_bound_iff (props : FileUploadProps) (events : List Event) (s : FileUpload) :
    Run (fun s event s' => s.step props event = some s' ∧ s'.Bound) initial events s ↔
      Run (Guarded (Keeps props) fun s event s' => s.step props event = some s') initial
        events s := by
  refine Run.keeping_iff ⟨trivial, initial_bound⟩ (fun _ _ _ _ _ _ _ => trivial) ?_
  intro s event s' _ bound stepped
  exact step_bound_iff bound stepped

end

/-- There is a URL, no file and no upload in flight. -/
def leftOver (s : FileUpload) : Bool :=
  s.cdn.uploads.isEmpty && s.selectedFile.isNone && !s.modelValue.isEmpty

theorem not_bound_of_leftOver {s : FileUpload} (left : s.leftOver = true) : ¬s.Bound := by
  intro bound
  simp only [leftOver, Bool.and_eq_true, List.isEmpty_iff, Option.isNone_iff_eq_none,
    Bool.not_eq_true', List.isEmpty_eq_false_iff] at left
  obtain ⟨⟨none, unselected⟩, url⟩ := left
  rcases bound none with empty | ⟨file, selected, -⟩
  · exact url empty
  · cases unselected.symm.trans selected

/-- A file is removed that was uploaded. -/
theorem removed_leftOver : ¬∀ (props : FileUploadProps) (events : List Event) (s : FileUpload),
    Run (fun s event s' => s.step props event = some s') initial events s → s.Bound := by
  intro always
  let png : File := ⟨0, [97], js "image/png", 1⟩
  have ends : (execute (step .defaults) [.handleFile png, .startUpload,
      .complete 0 (.hashed (.ok [255])), .complete 0 (.checked (some ⟨true, some [98], some [99]⟩)),
      .removeFile] initial).any leftOver = true := by
    with_unfolding_all decide
  obtain ⟨s, reached, ends⟩ := (Option.any_eq_true ..).mp ends
  exact not_bound_of_leftOver ends (always _ _ s (run_of_execute reached))

end FileUpload
end Crown.Client
