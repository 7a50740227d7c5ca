import Crown.ClientSanitize
import Crown.Lib.InFlight
import Crown.Lib.Transition

/-! Uploads to the image CDN, `composables/useImageCdn.ts`, with the waits of `upload` answered
in any order. The progress that is shown is left out. -/
namespace Crown.Client

open Lib

/-- Two files of the same name, type and size are other objects. -/
structure File where
  object : Nat
  name : JsString
  type : JsString
  size : Nat
  deriving DecidableEq

structure UploadOptions where
  folder : Option JsString
  tags : Option (List JsString)
  deriving DecidableEq

structure UploadResult where
  url : JsString
  fileId : JsString
  filePath : JsString
  name : JsString
  width : Option Nat
  height : Option Nat
  size : Option Nat
  thumbnailUrl : Option JsString
  deriving DecidableEq

/-- The members of a reply to `/api/cdn/check`. -/
structure CheckReply where
  found : Bool
  url : Option JsString
  fileId : Option JsString
  deriving DecidableEq

/-- The members of a reply to `/api/cdn/upload`. -/
structure UploadReply where
  url : Option JsString
  fileId : Option JsString
  name : Option JsString
  width : Option Nat
  height : Option Nat
  size : Option Nat
  thumbnailUrl : Option JsString
  error : Option JsString
  deriving DecidableEq

structure ExistingImage where
  url : JsString
  fileId : JsString
  deriving DecidableEq

/-- What `upload` throws: a `DOMException` of that name, or any other error with its message. -/
inductive UploadError where
  | abortError
  | other (message : JsString)
  deriving DecidableEq

/-- What the composable sends. A fetch with a signal is given up when that controller is
aborted. -/
inductive CdnRequest where
  | check (hash : JsString)
  | upload (file fileName : JsString) (folder : Option JsString) (tags : Option (List JsString))
      (signal : Nat)
  | register (hash : JsString) (url fileId : Option JsString)
  deriving DecidableEq

def CdnRequest.isRegister : CdnRequest → Bool
  | .register .. => true
  | _ => false

def uploadCanceled : JsString := js "Upload cancelado"
def readFailed : JsString := js "Falha ao ler arquivo"
def uploadFailed : JsString := js "Erro ao fazer upload"

/-- The message of the `TypeError` for `abortController.signal` when there is no controller. -/
def noController : JsString := js "Cannot read properties of null (reading 'signal')"

def lowerHex (value : Nat) : UInt16 :=
  if value < 10 then unit '0' + UInt16.ofNat value else unit 'a' + UInt16.ofNat (value - 10)

/-- The text that `computeFileHash` makes of a digest. -/
def fileHash (digest : List UInt8) : JsString :=
  digest.flatMap fun byte => [lowerHex (byte.toNat / 16), lowerHex (byte.toNat % 16)]

/-- `checkExistingImage` from the reply on; nothing in place of a request that failed, a status
that is not ok and a body that is no JSON. -/
def existingImage : Option CheckReply → Option ExistingImage
  | some ⟨true, some url, some fileId⟩ =>
    if url = [] ∨ fileId = [] then none else some ⟨url, fileId⟩
  | _ => none

/-- `dataUrl.split(",")[1] ?? ""`. -/
def fileToBase64 (dataUrl : JsString) : JsString := (dataUrl.splitOn (unit ','))[1]?.getD []

/-- `name.replace(/[^a-zA-Z0-9._-]/g, "_")`. -/
def uploadName (name : JsString) : JsString :=
  name.map fun u => if isWord u || u = unit '.' || u = unit '-' then u else unit '_'

def statusOk (status : Nat) : Bool := 200 ≤ status && status ≤ 299

/-- The error for a status that is not ok; nothing in place of a body that is no JSON. -/
def refusedUpload (status : Nat) (body : Option UploadReply) : UploadError :=
  match body.bind UploadReply.error with
  | some (u :: error) => .other (u :: error)
  | _ => .other (js "Erro ao enviar arquivo (" ++ (Text.decimal status).map unit ++ js ")")

namespace ImageCdn

/-- What an `upload` waits for. The response of the upload request is its status, the reply its
body. -/
inductive Waits where
  | computeFileHash
  | checkExistingImage (hash : JsString)
  | fileToBase64 (hash : JsString)
  | response (hash : JsString) (signal : Nat)
  | reply (hash : JsString) (signal status : Nat)
  | registerImageHash (data : UploadReply)
  deriving DecidableEq

/-- The controller that ends a wait. -/
def Waits.signal : Waits → Option Nat
  | response _ signal | reply _ signal _ => some signal
  | _ => none

structure Upload where
  file : File
  options : UploadOptions
  waits : Waits
  deriving DecidableEq

inductive Completion where
  | hashed (answer : Except JsString (List UInt8))
  | checked (answer : Option CheckReply)
  | read (dataUrl : Option JsString)
  | responded (answer : Except JsString Nat)
  | replied (answer : Except JsString UploadReply)
  | registered

abbrev Outcome := Except UploadError UploadResult

/-- How an `upload` goes on. -/
inductive Next where
  | waits (request : Option CdnRequest) (waits : Waits)
  | ends (outcome : Outcome)

end ImageCdn

open ImageCdn (Waits Upload Completion Outcome Next)

structure ImageCdn where
  uploading : Bool
  error : Option JsString
  abortController : Option Nat
  /-- Every controller made, and whether it was aborted; a reference is a place here. -/
  controllers : List Bool
  uploads : List Upload

namespace ImageCdn

def initial : ImageCdn where
  uploading := false
  error := none
  abortController := none
  controllers := []
  uploads := []

def existingResult (image : ExistingImage) (u : Upload) : UploadResult where
  url := image.url
  fileId := image.fileId
  filePath := []
  name := u.file.name
  width := none
  height := none
  size := none
  thumbnailUrl := none

def uploadedResult (data : UploadReply) (u : Upload) : UploadResult where
  url := data.url.getD []
  fileId := data.fileId.getD []
  filePath := []
  name := data.name.getD (uploadName u.file.name)
  width := data.width
  height := data.height
  size := data.size
  thumbnailUrl := data.thumbnailUrl

def uploadRequest (base64 : JsString) (u : Upload) (signal : Nat) : CdnRequest :=
  .upload base64 (uploadName u.file.name) (u.options.folder.filter (· ≠ [])) u.options.tags signal

/-- The controller that the composable has by now was aborted. -/
def isAborted (s : ImageCdn) (signal : Nat) : Bool := s.controllers[signal]?.getD false

/-- `upload` from the end of a wait to its next wait or its end. -/
def resume (s : ImageCdn) (u : Upload) (completion : Completion) : Option Next :=
  match u.waits, completion with
  | .computeFileHash, .hashed answer =>
    match answer with
    | .error message => some (.ends (.error (.other message)))
    | .ok digest =>
      some (.waits (some (.check (fileHash digest))) (.checkExistingImage (fileHash digest)))
  | .checkExistingImage hash, .checked answer =>
    match existingImage answer with
    | some image => some (.ends (.ok (existingResult image u)))
    | none => some (.waits none (.fileToBase64 hash))
  | .fileToBase64 hash, .read dataUrl =>
    match dataUrl, s.abortController with
    | none, _ => some (.ends (.error (.other readFailed)))
    | some _, none => some (.ends (.error (.other noController)))
    | some dataUrl, some signal =>
      if s.isAborted signal then some (.ends (.error .abortError))
      else some (.waits (some (uploadRequest (Client.fileToBase64 dataUrl) u signal))
        (.response hash signal))
  | .response hash signal, .responded answer =>
    match answer with
    | .error message => some (.ends (.error (.other message)))
    | .ok status => some (.waits none (.reply hash signal status))
  | .reply hash _ status, .replied answer =>
    if statusOk status then
      match answer with
      | .error message => some (.ends (.error (.other message)))
      | .ok data => some (.waits (some (.register hash data.url data.fileId))
          (.registerImageHash data))
    else some (.ends (.error (refusedUpload status answer.toOption)))
  | .registerImageHash data, .registered => some (.ends (.ok (uploadedResult data u)))
  | _, _ => none

/-- What is shown for an error. -/
def errorText : UploadError → JsString
  | .abortError => uploadCanceled
  | .other message => if message = [] then uploadFailed else message

/-- The `catch` and the `finally` of `upload`. -/
def settle (s : ImageCdn) (outcome : Outcome) : ImageCdn :=
  { s with
    uploading := false
    abortController := none
    error :=
      match outcome with
      | .ok _ => s.error
      | .error err => some (errorText err) }

/-- `upload` up to its first wait. -/
def upload (s : ImageCdn) (file : File) (options : UploadOptions) : ImageCdn :=
  { uploading := true
    error := none
    abortController := some s.controllers.length
    controllers := s.controllers ++ [false]
    uploads := s.uploads ++ [⟨file, options, .computeFileHash⟩] }

def proceed (s : ImageCdn) (place : Nat) (u : Upload) : Next → ImageCdn
  | .waits _ waits => { s with uploads := s.uploads.set place { u with waits } }
  | .ends outcome => settle { s with uploads := s.uploads.eraseIdx place } outcome

/-- A wait of the upload at a place is over. -/
def complete (s : ImageCdn) (place : Nat) (completion : Completion) :
    Option (Next × ImageCdn) := do
  let u ← s.uploads[place]?
  let next ← s.resume u completion
  return (next, s.proceed place u next)

def listens (signal : Nat) (u : Upload) : Bool := u.waits.signal = some signal

/-- What a fetch that is given up makes `upload` throw. The body of a reply that is not ok is
read without a look at why that fails. -/
def givenUp (u : Upload) : UploadError :=
  match u.waits with
  | .reply _ _ status => if statusOk status then .abortError else refusedUpload status none
  | _ => .abortError

/-- `abort`, with the uploads whose fetch is given up. -/
def abort (s : ImageCdn) : List Upload × ImageCdn :=
  match s.abortController with
  | none => ([], s)
  | some signal =>
    let rejected := s.uploads.filter (listens signal)
    (rejected, rejected.foldl (fun s u => s.settle (.error (givenUp u))) { s with
      controllers := s.controllers.set signal true
      uploads := s.uploads.filter fun u => !listens signal u })

def reset (s : ImageCdn) : ImageCdn :=
  { s with uploading := false, error := none, abortController := none }

section

/-- The URL with which a completion ends an upload: of an image that is there already, or of one
that was uploaded. -/
def Upload.foundUrl (u : Upload) (completion : Completion) : Option JsString :=
  match u.waits, completion with
  | .checkExistingImage _, .checked answer => (existingImage answer).map ExistingImage.url
  | .registerImageHash data, .registered => some (data.url.getD [])
  | _, _ => none

/-- A completion ends an upload without a URL. -/
def fails (s : ImageCdn) (u : Upload) (completion : Completion) : Bool :=
  match u.waits, completion with
  | .computeFileHash, .hashed (.error _) => true
  | .fileToBase64 _, .read none => true
  | .fileToBase64 _, .read (some _) => s.abortController.all s.isAborted
  | .response .., .responded (.error _) => true
  | .reply _ _ status, .replied answer => !(statusOk status && answer.toOption.isSome)
  | _, _ => false

/-- All that a completion can make of an upload. A fetch that can be given up begins with a
controller that was not aborted, and the image is registered after such a fetch. -/
inductive Resumes (s : ImageCdn) (u : Upload) (completion : Completion) : Next → Prop where
  | resolves (result : UploadResult) (found : u.foundUrl completion = some result.url)
      (fails : s.fails u completion = false) : Resumes s u completion (.ends (.ok result))
  | rejects (err : UploadError) (found : u.foundUrl completion = none)
      (fails : s.fails u completion = true) : Resumes s u completion (.ends (.error err))
  | waits (request : Option CdnRequest) (waits : Waits) (found : u.foundUrl completion = none)
      (fails : s.fails u completion = false)
      (signal : ∀ signal, waits.signal = some signal → u.waits.signal = some signal ∨
        s.abortController = some signal ∧ s.isAborted signal = false)
      (register : ∀ sent ∈ request, sent.isRegister = true → u.waits.signal.isSome = true) :
      Resumes s u completion (.waits request waits)

variable {s s' : ImageCdn} {u : Upload} {completion : Completion} {next : Next} {file : File}
  {options : UploadOptions} {hash : JsString}

theorem Resumes.of_checked {answer : Option CheckReply}
    (resumed : s.resume ⟨file, options, .checkExistingImage hash⟩ (.checked answer) = some next) :
    Resumes s ⟨file, options, .checkExistingImage hash⟩ (.checked answer) next := by
  have found : Upload.foundUrl ⟨file, options, .checkExistingImage hash⟩ (.checked answer) =
      (existingImage answer).map ExistingImage.url := rfl
  unfold resume at resumed
  dsimp only at resumed
  split at resumed
  · rename_i image there
    cases resumed
    exact .resolves _ (by rw [found, there]; rfl) rfl
  · rename_i absent
    cases resumed
    exact .waits _ _ (by rw [found, absent]; rfl) rfl (fun _ none => by cases none)
      (fun _ none => by cases none)

theorem Resumes.of_read {dataUrl : Option JsString}
    (resumed : s.resume ⟨file, options, .fileToBase64 hash⟩ (.read dataUrl) = some next) :
    Resumes s ⟨file, options, .fileToBase64 hash⟩ (.read dataUrl) next := by
  unfold resume at resumed
  dsimp only at resumed
  split at resumed
  · cases resumed
    exact .rejects _ rfl rfl
  · rename_i missing
    cases resumed
    exact .rejects _ rfl (by simp [fails, missing])
  · rename_i signal current
    split at resumed
    · rename_i aborted
      cases resumed
      exact .rejects _ rfl (by simp [fails, current, aborted])
    · rename_i live
      rw [Bool.not_eq_true] at live
      cases resumed
      refine .waits _ _ rfl (by simp [fails, current, live]) ?_ ?_
      · rintro other ⟨⟩
        exact .inr ⟨current, live⟩
      · rintro sent ⟨⟩ register
        cases register

theorem Resumes.of_replied {signal status : Nat} {answer : Except JsString UploadReply}
    (resumed : s.resume ⟨file, options, .reply hash signal status⟩ (.replied answer) = some next) :
    Resumes s ⟨file, options, .reply hash signal status⟩ (.replied answer) next := by
  unfold resume at resumed
  dsimp only at resumed
  split at resumed
  · rename_i ok
    cases answer with
    | error message =>
      cases resumed
      exact .rejects _ rfl (by simp [fails, Except.toOption])
    | ok data =>
      cases resumed
      exact .waits _ _ rfl (by simp [fails, ok, Except.toOption]) (fun _ none => by cases none)
        (fun _ _ _ => rfl)
  · rename_i refused
    cases resumed
    exact .rejects _ rfl (by simp [fails, refused])

/-- A completion of another wait is not enabled. -/
theorem Resumes.of_resume (resumed : s.resume u completion = some next) :
    Resumes s u completion next := by
  obtain ⟨file, options, waits⟩ := u
  cases waits with
  | computeFileHash =>
    cases completion with
    | hashed answer =>
      cases answer with
      | error message =>
        cases resumed
        exact .rejects _ rfl rfl
      | ok digest =>
        cases resumed
        refine .waits _ _ rfl rfl (fun _ none => by cases none) ?_
        rintro sent ⟨⟩ register
        cases register
    | _ => cases resumed
  | checkExistingImage hash =>
    cases completion with
    | checked answer => exact .of_checked resumed
    | _ => cases resumed
  | fileToBase64 hash =>
    cases completion with
    | read dataUrl => exact .of_read resumed
    | _ => cases resumed
  | response hash signal =>
    cases completion with
    | responded answer =>
      cases answer with
      | error message =>
        cases resumed
        exact .rejects _ rfl rfl
      | ok status =>
        cases resumed
        exact .waits _ _ rfl rfl (fun _ same => .inl same) (fun _ none => by cases none)
    | _ => cases resumed
  | reply hash signal status =>
    cases completion with
    | replied answer => exact .of_replied resumed
    | _ => cases resumed
  | registerImageHash data =>
    cases completion with
    | registered =>
      cases resumed
      exact .resolves _ rfl rfl
    | _ => cases resumed

theorem complete_cases {place : Nat} (completed : s.complete place completion = some (next, s')) :
    ∃ u, s.uploads[place]? = some u ∧ Resumes s u completion next ∧ s' = s.proceed place u next := by
  obtain ⟨u, here, rest⟩ := Option.bind_eq_some_iff.mp completed
  obtain ⟨_, resumed, same⟩ := Option.bind_eq_some_iff.mp rest
  cases same
  exact ⟨u, here, .of_resume resumed, rfl⟩

/-- The fetch of an upload is given up by `abort`. -/
def givesUp (s : ImageCdn) (u : Upload) : Bool := s.abortController.any (listens · u)

theorem settled_uploads (rejected : List Upload) (s : ImageCdn) :
    (rejected.foldl (fun s u => s.settle (.error (givenUp u))) s).uploads = s.uploads ∧
      (rejected.foldl (fun s u => s.settle (.error (givenUp u))) s).controllers = s.controllers := by
  induction rejected generalizing s with
  | nil => exact ⟨rfl, rfl⟩
  | cons u rejected ih => exact ih _

theorem abort_rejected (s : ImageCdn) : s.abort.1 = s.uploads.filter s.givesUp := by
  obtain ⟨uploading, error, controller, controllers, uploads⟩ := s
  cases controller with
  | none => exact (List.filter_eq_nil_iff.mpr fun u _ => Bool.false_ne_true).symm
  | some signal => rfl

theorem abort_uploads (s : ImageCdn) :
    s.abort.2.uploads = s.uploads.filter fun u => !s.givesUp u := by
  obtain ⟨uploading, error, controller, controllers, uploads⟩ := s
  cases controller with
  | none => exact (List.filter_eq_self.mpr fun u _ => rfl).symm
  | some signal => exact (settled_uploads _ _).1

/-- A controller that gives nothing up is aborted all the same. -/
theorem abort_of_none {signal : Nat} (own : s.abortController = some signal)
    (none : s.uploads.filter s.givesUp = []) :
    s.abort.2.abortController = some signal ∧
      s.abort.2.controllers = s.controllers.set signal true := by
  obtain ⟨uploading, error, controller, controllers, uploads⟩ := s
  dsimp only at own
  subst own
  have rejected : uploads.filter (listens signal) = [] := none
  simp only [abort, rejected, List.foldl_nil]
  exact ⟨trivial, trivial⟩

end

end ImageCdn
end Crown.Client
