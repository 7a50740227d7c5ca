import Crown.CryptBaby
import Crown.Json
import Crown.Lib.Program
import Crown.QueryBuilder

/-! The routes of the CDN server in `server/http_server.h`: check, serve, upload and
register. A route is a program over the requests it makes to the database, the object
store and the codec. -/
namespace Crown

open Lib

inductive MediaKind where
  | image
  | video
  deriving DecidableEq

def mediaTable : List (Text × MediaKind × Text) :=
  [(lit "png", .image, lit "image/png"), (lit "jpg", .image, lit "image/jpeg"),
    (lit "jpeg", .image, lit "image/jpeg"), (lit "webp", .image, lit "image/webp"),
    (lit "gif", .image, lit "image/gif"), (lit "mp4", .video, lit "video/mp4"),
    (lit "webm", .video, lit "video/webm"), (lit "mov", .video, lit "video/quicktime"),
    (lit "avi", .video, lit "video/x-msvideo"), (lit "mkv", .video, lit "video/x-matroska"),
    (lit "m4v", .video, lit "video/x-m4v")]

def lookupMedia (ext : Text) : Option (MediaKind × Text) :=
  (mediaTable.find? (·.1 = ext)).map (·.2)

/-- What follows the last dot, in lower case; nothing without a dot or with one in front. -/
def getFileExtension (fileName : Text) : Text :=
  let ext := (fileName.reverse.takeWhile (· ≠ '.')).reverse
  if '.' ∉ fileName ∨ ext.length + 1 = fileName.length then [] else Text.lower ext

def getMediaTypeLabel (ext : Text) : Text :=
  match lookupMedia ext with
  | some (.video, _) => lit "video"
  | some (.image, _) => lit "imagem"
  | none => lit "arquivo"

def getContentType (ext : Text) : Text :=
  match lookupMedia ext with
  | some (_, contentType) => contentType
  | none => lit "application/octet-stream"

/-- The settings of the CDN server; `ready` while the client of the object store exists. -/
structure CdnConfig where
  ready : Bool
  bucket : Text
  limitImageBytes : Nat
  limitVideoBytes : Nat

def CdnConfig.maxSize (config : CdnConfig) (ext : Text) : Nat :=
  match lookupMedia ext with
  | some (.video, _) => config.limitVideoBytes
  | some (.image, _) => config.limitImageBytes
  | none => 0

/-- The text a select returns: none at all, one that is no JSON, or a JSON text. -/
inductive SelectReply where
  | empty
  | malformed (e : Exception)
  | parsed (value : Json)

inductive CdnOp where
  | select (query : QueryBuilder)
  | upsert (table : Text) (row : Json)
  | getObject (bucket objectKey : Text)
  | putObject (bucket objectKey contentType fileData : Text)
  | compressImage (fileData ext : Text)
  | compressVideo (fileData : Text)
  | randomHex (len : Nat)

abbrev CdnOp.Reply : CdnOp → Type
  | select _ => SelectReply
  | upsert .. => Int
  | getObject .. | compressImage .. | compressVideo _ => Option Text
  | putObject .. => Bool
  | randomHex _ => Text

/-- A body is given as it is written, or as the value that is dumped. -/
inductive HttpBody where
  | text (text : Text)
  | dumped (value : Json)

structure HttpAnswer where
  status : Nat
  contentType : Text
  body : HttpBody

namespace HttpAnswer

def json (status : Nat) (text : Text) : HttpAnswer := ⟨status, lit "application/json", .text text⟩

def dumped (status : Nat) (value : Json) : HttpAnswer :=
  ⟨status, lit "application/json", .dumped value⟩

/-- What the HTTP library sends when a route throws. -/
def uncaught : HttpAnswer := ⟨500, [], .text []⟩

end HttpAnswer

abbrev Route : Type := Program CdnOp CdnOp.Reply Exception HttpAnswer

def serveRoute : Text := lit "/api/cdn/serve/"

/-- The URL under which an object is served. -/
def servedUrl (host objectKey : Text) : Text := lit "http://" ++ host ++ serveRoute ++ objectKey

namespace CdnServer

def notReady : HttpAnswer := .json 500 (lit "\x7b\"error\":\"Servico CDN nao inicializado.\"\x7d")

def notFound : HttpAnswer := .json 200 (lit "\x7b\"found\":false\x7d")

def incompleteRow : HttpAnswer :=
  .json 500 (lit "\x7b\"error\":\"Registro incompleto no banco.\",\"found\":false\x7d")

def lookupFailed (e : Exception) : HttpAnswer :=
  .json 500 (lit "\x7b\"error\":\"Falha ao consultar banco: \"" ++ e.what ++ lit "\",\"found\":false\x7d")

def invalidJson : HttpAnswer := .json 400 (lit "\x7b\"error\":\"JSON invalido.\"\x7d")

def withoutSlash : Text → Text
  | '/' :: rest => rest
  | other => other

/-- The answer made of the row that was found. -/
def foundRow (host : Text) (row : Json) : Except Exception HttpAnswer :=
  match row.find (lit "url"), row.find (lit "file_id") with
  | some url, some fileId => do
    let dbUrl ← url.getString
    return .dumped 200 (.object [(lit "file_id", fileId), (lit "found", .boolean true),
      (lit "url", .string (servedUrl host (withoutSlash dbUrl)))])
  | _, _ => return incompleteRow

/-- The lookup of a hash. -/
def hashLookup (hash : Text) : QueryBuilder :=
  ((fromTable (lit "midia_hashes")).eq .hash hash).limit 1

def checkReply (host : Text) : SelectReply → HttpAnswer
  | .empty => notFound
  | .malformed e => lookupFailed e
  | .parsed (.array (row :: _)) =>
    match foundRow host row with
    | .ok answer => answer
    | .error e => lookupFailed e
  | .parsed _ => notFound

/-- `GET /api/cdn/check`, with the parameter `hash` if there is one. -/
def check (host : Text) (hash : Option Text) : Route :=
  match hash with
  | none | some [] =>
    return .json 400 (lit "\x7b\"error\":\"Parametro 'hash' obrigatorio.\"\x7d")
  | some hash => do
    let result ← Program.call (CdnOp.select (hashLookup hash))
    return checkReply host result

/-- `GET /api/cdn/serve/(.*)`. -/
def serve (config : CdnConfig) (objectKey : Text) : Route :=
  if !config.ready then return notReady
  else if objectKey = [] then return ⟨400, [], .text []⟩
  else do
    let object ← Program.call (CdnOp.getObject config.bucket objectKey)
    match object with
    | none => return .json 404 (lit "\x7b\"error\":\"Arquivo nao encontrado.\"\x7d")
    | some bytes => return ⟨200, getContentType (getFileExtension objectKey), .text bytes⟩

/-- A size in megabytes up to the first decimal place: `std::to_string` rounds to six
places, half to even, and the rest is cut off. -/
def megabytes (size : Nat) : Text :=
  let scaled := size * 10 ^ 6
  let below := scaled / 2 ^ 20
  let rest := scaled % 2 ^ 20
  let rounded := if 2 ^ 20 < 2 * rest ∨ 2 * rest = 2 ^ 20 ∧ below % 2 = 1 then below + 1 else below
  Text.decimal (rounded / 10 ^ 6 : Nat) ++ lit "." ++ Text.decimal (rounded / 10 ^ 5 % 10 : Nat)

def tooLarge (ext : Text) (size maxSize : Nat) : HttpAnswer :=
  .dumped 413 (.object [(lit "error", .string (lit "Arquivo muito grande. " ++
    getMediaTypeLabel ext ++ lit " " ++ megabytes size ++ lit "MB, limite " ++
    Text.decimal (maxSize / 2 ^ 20 : Nat) ++ lit "MB."))])

/-- The data that is stored and its extension: the codec's, or else the client's. -/
def compress (ext fileData : Text) : Program CdnOp CdnOp.Reply Exception (Text × Text) :=
  match lookupMedia ext with
  | some (.image, _) => do
    let result ← Program.call (CdnOp.compressImage fileData ext)
    match result with
    | some data => return (data, ext)
    | none => return (fileData, ext)
  | some (.video, _) => do
    let result ← Program.call (CdnOp.compressVideo fileData)
    match result with
    | some data => return (data, lit "mp4")
    | none => return (fileData, ext)
  | none => return (fileData, ext)

/-- `S3PutObject` refuses empty data. -/
def putObject (config : CdnConfig) (objectKey contentType fileData : Text) :
    Program CdnOp CdnOp.Reply Exception Bool :=
  if fileData = [] then return false
  else Program.call (CdnOp.putObject config.bucket objectKey contentType fileData)

/-- The folder of the request, `posts` without one. -/
def uploadFolder (body : Json) : Except Exception Text :=
  match body.find (lit "folder") with
  | none => .ok (lit "posts")
  | some stored => stored.getString.map fun folder => if folder = [] then lit "posts" else folder

def uploaded (host objectKey fileName : Text) : Json :=
  .object [(lit "fileId", .string objectKey), (lit "name", .string fileName),
    (lit "url", .string (servedUrl host objectKey))]

/-- The upload of a file whose extension is accepted. -/
def storeFile (config : CdnConfig) (host ext : Text) (body : Json) (fileName fileBase64 : Text) :
    Route := do
  let (fileData, finalExt) ← compress ext (CryptBaby.base64Decode fileBase64)
  if config.maxSize ext < fileData.length then
    return tooLarge ext fileData.length (config.maxSize ext)
  else
    let folder ← uploadFolder body
    let hex ← Program.call (CdnOp.randomHex 16)
    let objectKey := folder ++ lit "/" ++ hex ++ lit "." ++ finalExt
    let stored ← putObject config objectKey (getContentType finalExt) fileData
    if stored then return .dumped 200 (uploaded host objectKey fileName)
    else return .json 502 (lit "\x7b\"error\":\"Falha ao enviar arquivo para CDN.\"\x7d")

/-- The body of the upload route, inside its `try`; a request that does not parse is
given by nothing. -/
def uploadBody (config : CdnConfig) (host : Text) (request : Option Json) : Route :=
  if !config.ready then return notReady
  else
    match request with
    | none => return invalidJson
    | some body =>
      match body.find (lit "file"), body.find (lit "fileName") with
      | some file, some name => do
        let fileBase64 ← file.getString
        let fileName ← name.getString
        let ext := getFileExtension fileName
        if ext = [] then
          return .json 400 (lit "\x7b\"error\":\"Extensao do arquivo invalida.\"\x7d")
        else if config.maxSize ext = 0 then
          return .json 415 (lit "\x7b\"error\":\"Formato nao suportado. Aceitos: PNG, JPG, WEBP, " ++
            lit "GIF, MP4, WEBM, MOV, AVI, MKV, M4V.\"\x7d")
        else storeFile config host ext body fileName fileBase64
      | _, _ =>
        return .json 400 (lit "\x7b\"error\":\"Campos 'file' e 'fileName' obrigatorios.\"\x7d")

/-- `POST /api/cdn/upload`. -/
def upload (config : CdnConfig) (host : Text) (request : Option Json) : Route :=
  (uploadBody config host request).recover fun _ =>
    .json 500 (lit "\x7b\"error\":\"Excecao interna no upload.\"\x7d")

def hashRow (hash url fileId : Text) : Json :=
  .object [(lit "file_id", .string fileId), (lit "hash", .string hash), (lit "url", .string url)]

def registerBody (request : Option Json) : Route :=
  match request with
  | none => return invalidJson
  | some body =>
    match body.find (lit "hash"), body.find (lit "url"), body.find (lit "file_id") with
    | some hash, some url, some fileId => do
      let hash ← hash.getString
      let url ← url.getString
      let fileId ← fileId.getString
      let status ← Program.call (CdnOp.upsert (lit "midia_hashes") (hashRow hash url fileId))
      if 200 ≤ status ∧ status < 300 then return .json 200 (lit "\x7b\"ok\":true\x7d")
      else return .json 500 (lit "\x7b\"error\":\"Falha ao registrar hash no banco.\"\x7d")
    | _, _, _ =>
      return .json 400
        (lit "\x7b\"error\":\"Campos 'hash', 'url' e 'file_id' obrigatorios.\"\x7d")

/-- `POST /api/cdn/register`; its accesses are outside any `try`. -/
def register (request : Option Json) : Route :=
  (registerBody request).recover fun _ => .uncaught

end CdnServer
end Crown
