import Crown.HttpServer

/-! The codec of `codec/codec.cpp`, and the name and type under which an upload is stored.
What vips and ffmpeg make of their input is open. -/
namespace Crown

open Lib Program

/-- How a process of ffmpeg ends; it has no status when a signal ended it. -/
inductive FfmpegRun where
  | unstarted (error : Text)
  | exited (status : Option Nat) (output : Text)

structure CodecResult where
  ok : Bool
  data : Text
  error : Text

namespace CodecResult

def done (data : Text) : CodecResult := ⟨true, data, []⟩

def failed (error : Text) : CodecResult := ⟨false, [], error⟩

/-- The data where the result is good. -/
def taken (result : CodecResult) : Option Text := if result.ok then some result.data else none

end CodecResult

/-- The platform the codec is built for, with vips and ffmpeg: an image is read from a buffer,
scaled down to a dimension and written in the format of a suffix. -/
structure Codec where
  windows : Bool
  vips : (input : Text) → (maxDimension : Nat) → (suffix : Text) → Except Text Text
  ffmpeg : (args : List Text) → (input : Text) → FfmpegRun

namespace Codec

def jpgQuality : Int := 60
def webpQuality : Int := 70
def gifQuality : Int := 65

/-- A suffix that names the quality, where it is not given its default. -/
def qualitySuffix (name : Text) (default quality : Int) : Text :=
  name ++ lit "[Q=" ++ Text.decimal (if 0 < quality then quality else default) ++ lit ",strip]"

def suffixBuilders : List (Text × (Int → Text)) :=
  [(lit "png", fun _ => lit ".png[compression=9,strip]"),
    (lit "webp", qualitySuffix (lit ".webp") webpQuality),
    (lit "jpg", qualitySuffix (lit ".jpg") jpgQuality),
    (lit "jpeg", qualitySuffix (lit ".jpg") jpgQuality),
    (lit "gif", qualitySuffix (lit ".webp") gifQuality),
    (lit "avif", qualitySuffix (lit ".avif") webpQuality),
    (lit "heic", qualitySuffix (lit ".jpg") jpgQuality),
    (lit "bmp", qualitySuffix (lit ".jpg") jpgQuality),
    (lit "tiff", qualitySuffix (lit ".jpg") jpgQuality)]

def suffix (ext : Text) (quality : Int) : Text :=
  match suffixBuilders.find? (·.1 = ext) with
  | some (_, build) => build quality
  | none => lit ".jpg[Q=" ++ Text.decimal jpgQuality ++ lit ",strip]"

def compressImage (codec : Codec) (input ext : Text) (quality : Int) (maxDimension : Nat) :
    CodecResult :=
  match codec.vips input maxDimension (suffix ext quality) with
  | .ok output => .done (if output.length < input.length then output else input)
  | .error e => .failed e

def ffmpegFailed (status : Option Nat) : CodecResult :=
  .failed (lit "ffmpeg falhou (exit " ++
    Text.decimal (match status with | some code => (code : Int) | none => -1) ++ lit ").")

/-- `runffmpegpipe` as it is built for Windows. -/
def windowsPipe (run : FfmpegRun) (input : Text) : CodecResult :=
  match run with
  | .unstarted error => .failed error
  | .exited status output =>
    if status = some 0 ∧ output ≠ [] then
      .done (if input.length < output.length then input else output)
    else ffmpegFailed status

/-- `runffmpegpipe` as it is built for the others. -/
def posixPipe (run : FfmpegRun) (_input : Text) : CodecResult :=
  match run with
  | .unstarted error => .failed error
  | .exited status output =>
    if status = some 0 ∧ output ≠ [] then .done output else ffmpegFailed status

def runFfmpegPipe (codec : Codec) (input : Text) (args : List Text) : CodecResult :=
  if codec.windows then windowsPipe (codec.ffmpeg args input) input
  else posixPipe (codec.ffmpeg args input) input

def videoArgs (crf maxHeight : Int) : List Text :=
  [lit "-y", lit "-i", lit "pipe:0", lit "-vf",
    lit "scale=-2:'min(" ++ Text.decimal maxHeight ++ lit ",ih)'", lit "-c:v", lit "libx264",
    lit "-crf", Text.decimal crf, lit "-preset", lit "veryfast", lit "-c:a", lit "aac",
    lit "-b:a", lit "96k", lit "-movflags", lit "frag_keyframe+empty_moov+default_base_moof",
    lit "-f", lit "mp4", lit "pipe:1"]

def compressVideo (codec : Codec) (input : Text) (crf maxHeight : Int) : CodecResult :=
  codec.runFfmpegPipe input (videoArgs crf maxHeight)

end Codec

/-- The formats in which media are stored. -/
inductive Format where
  | png | jpeg | webp | gif | mp4 | webm | mov | avi | mkv | m4v
  deriving DecidableEq

namespace Format

def contentType : Format → Text
  | png => lit "image/png"
  | jpeg => lit "image/jpeg"
  | webp => lit "image/webp"
  | gif => lit "image/gif"
  | mp4 => lit "video/mp4"
  | webm => lit "video/webm"
  | mov => lit "video/quicktime"
  | avi => lit "video/x-msvideo"
  | mkv => lit "video/x-matroska"
  | m4v => lit "video/x-m4v"

end Format

namespace Codec

/-- A GIF that gets smaller, and a video that gets larger on Windows. -/
def Mislabels (codec : Codec) (ext input : Text) : Prop :=
  (ext = lit "gif" ∧ ∃ output, codec.vips input 1920 (suffix ext 0) = .ok output ∧
    output ≠ [] ∧ output.length < input.length) ∨
  (codec.windows = true ∧ (lookupMedia ext).map (·.1) = some .video ∧ ext ≠ lit "mp4" ∧
    ∃ output, codec.ffmpeg (videoArgs 28 1080) input = .exited (some 0) output ∧
      input ≠ [] ∧ input.length < output.length)

/-- What `compress` makes of an upload: the data that is stored and its extension. -/
def stored (codec : Codec) (ext input : Text) : Text × Text :=
  match lookupMedia ext with
  | some (.image, _) => ((codec.compressImage input ext 0 1920).taken.getD input, ext)
  | some (.video, _) =>
    match (codec.compressVideo input 28 1080).taken with
    | some data => (data, lit "mp4")
    | none => (input, ext)
  | none => (input, ext)

section

variable {codec : Codec} {σ : Type} {answer : Interpretation CdnOp CdnOp.Reply σ} {s : σ}
variable {ext input type : Text} {config : CdnConfig}

theorem mem_of_lookupMedia {kind : MediaKind} {type : Text}
    (found : lookupMedia ext = some (kind, type)) : (ext, kind, type) ∈ mediaTable := by
  obtain ⟨entry, here, same⟩ := Option.map_eq_some_iff.mp found
  have own : entry.1 = ext := by simpa using List.find?_some here
  rw [← own, ← same]
  exact List.mem_of_find?_eq_some here

/-- What an image is stored as. -/
theorem stored_image (accepted : lookupMedia ext = some (.image, type)) :
    codec.stored ext input =
      ((match codec.vips input 1920 (suffix ext 0) with
        | .ok output => if output.length < input.length then output else input
        | .error _ => input), ext) := by
  unfold stored compressImage
  rw [accepted]
  cases codec.vips input 1920 (suffix ext 0) <;> rfl

/-- What a video is stored as. -/
theorem stored_video (accepted : lookupMedia ext = some (.video, type)) :
    (∃ output, codec.ffmpeg (videoArgs 28 1080) input = .exited (some 0) output ∧ output ≠ [] ∧
      codec.stored ext input = (if codec.windows = true ∧ input.length < output.length then input
        else output, lit "mp4")) ∨
    (∀ output, codec.ffmpeg (videoArgs 28 1080) input = .exited (some 0) output → output = []) ∧
      codec.stored ext input = (input, ext) := by
  unfold stored compressVideo runFfmpegPipe windowsPipe posixPipe
  rw [accepted]
  cases codec.ffmpeg (videoArgs 28 1080) input with
  | unstarted error =>
    refine .inr ⟨fun _ same => ?_, ?_⟩
    · cases same
    · cases codec.windows <;> rfl
  | exited status output =>
    by_cases good : status = some 0 ∧ output ≠ []
    · obtain ⟨rfl, filled⟩ := good
      refine .inl ⟨output, rfl, filled, ?_⟩
      by_cases larger : input.length < output.length <;>
        cases codec.windows <;> simp [filled, larger, CodecResult.taken, CodecResult.done]
    · refine .inr ⟨fun other same => ?_, ?_⟩
      · cases same
        by_contra filled
        exact good ⟨rfl, filled⟩
      · cases codec.windows <;>
          simp [good, CodecResult.taken, ffmpegFailed, CodecResult.failed]

/-- A mislabelled upload stores something. -/
theorem Mislabels.stored (mislabels : codec.Mislabels ext input) :
    (lookupMedia ext).isSome ∧ (codec.stored ext input).1 ≠ [] := by
  rcases mislabels with ⟨rfl, output, made, filled, smaller⟩ |
    ⟨windows, kind, -, output, made, filled, larger⟩
  · have gif : lookupMedia (lit "gif") = some (.image, lit "image/gif") := by
      simp [lookupMedia, mediaTable]
    refine ⟨by rw [gif]; rfl, ?_⟩
    rw [stored_image gif, made]
    simpa [smaller] using filled
  · obtain ⟨⟨_, type⟩, found, rfl⟩ := Option.map_eq_some_iff.mp kind
    refine ⟨by rw [found]; rfl, ?_⟩
    rcases stored_video found with ⟨other, made', -, stored⟩ | ⟨failed, stored⟩
    · rw [made] at made'
      cases made'
      rw [stored, if_pos ⟨windows, larger⟩]
      exact filled
    · rw [stored]
      exact filled

end

/-- The routes of a server whose codec this is and whose object store takes everything. -/
def served (codec : Codec) : Interpretation CdnOp CdnOp.Reply Unit
  | .select _, s => (.empty, s)
  | .upsert .., s => (201, s)
  | .getObject .., s => (none, s)
  | .putObject .., s => (true, s)
  | .compressImage fileData ext, s => ((codec.compressImage fileData ext 0 1920).taken, s)
  | .compressVideo fileData, s => ((codec.compressVideo fileData 28 1080).taken, s)
  | .randomHex _, s => ([], s)

end Codec
end Crown
