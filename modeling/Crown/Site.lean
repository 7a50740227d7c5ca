import Crown.Server
import Crown.Tables

/-! The server and the CDN server over one database and one object store. -/
namespace Crown

open Lib

inductive CdnRequest where
  | check (host : Text) (hash : Option Text)
  | serve (objectKey : Text)
  | upload (host : Text) (request : Option Json)
  | register (request : Option Json)

def CdnServer.route (config : CdnConfig) : CdnRequest → Route
  | .check host hash => check host hash
  | .serve objectKey => serve config objectKey
  | .upload host request => upload config host request
  | .register request => register request

/-- What the two servers are run with. The object store takes an object or fails, as
`takes` says of the moment. -/
structure Platform where
  app : AppContext
  cdn : CdnConfig
  service : DatabaseService
  glob : Text → Text → Bool
  randomHex : Nat → Nat → Text
  secId : Nat → Text
  compressImage : Text → Text → Option Text
  compressVideo : Text → Option Text
  takes : Nat → Bool

def Platform.backend (platform : Platform) : Backend Tables :=
  ⟨platform.app, platform.glob, Tables.database platform.service, platform.randomHex, platform.secId⟩

/-- Only an insert that returns its row adds a post, and what is there changes but in its likes. -/
theorem Platform.answer_posts (platform : Platform) (env : Environment) (op : Op)
    (w : World Tables) (adds : ∀ table row, op ≠ .insertReturn table row) :
    ∀ post ∈ (platform.backend.answer env op w).2.database.posts,
      ∃ old ∈ w.database.posts, { old with likesCount := post.likesCount } = post := by
  have same : ∀ post ∈ w.database.posts,
      ∃ old ∈ w.database.posts, { old with likesCount := post.likesCount } = post :=
    fun post member => ⟨post, member, rfl⟩
  cases op with
  | insert table row =>
    exact fun post member => same post (w.database.insert_posts row table ▸ member)
  | insertReturn table row => exact absurd rfl (adds table row)
  | update query row =>
    exact fun post member => same post (w.database.update_posts platform.service query row ▸ member)
  | delete query =>
    exact fun post member =>
      same post ((w.database.delete_cases platform.service query).2 post member)
  | rpc function params =>
    cases function with
    | toggleLike => exact w.database.toggleLike_posts params
    | _ => exact same
  | _ => exact same

/-- A platform for runs on fixed inputs. -/
def Platform.plain : Platform where
  app := ⟨lit "cdn", none, none, ⟨fun _ => none, fun _ => [], false⟩,
    ⟨fun _ => .error (.parseError []), fun _ => [], fun _ _ _ _ => false⟩⟩
  cdn := ⟨true, lit "cdn", 10485760, 26214400⟩
  service := ⟨.plain, .stable, Text.decimal⟩
  glob pattern key := pattern.dropLast.isPrefixOf key
  randomHex len _ := List.replicate (2 * len) '0'
  secId drawn := List.replicate 26 'p' ++ Text.decimal drawn
  compressImage _ _ := none
  compressVideo _ := none
  takes _ := true

/-- `objects` is what the object store holds in each bucket. -/
structure Site where
  world : World Tables
  objects : Text × Text → Option Text

namespace Site

def withTables (s : Site) (database : Tables) : Site := { s with world := { s.world with database } }

/-- The replies the CDN server meets. -/
def answer (platform : Platform) : (op : CdnOp) → Site → op.Reply × Site
  | .select query, s =>
    if query.table = lit "midia_hashes" then
      match s.world.database.selectMedia platform.service query with
      | some rows => (.parsed (.array (rows.map MediaRow.json)), s)
      | none => (.empty, s)
    else (.empty, s)
  | .upsert table row, s =>
    if table = lit "midia_hashes" then
      (201, s.withTables (s.world.database.upsertMedia
        ⟨row.text (lit "hash"), row.text (lit "url"), row.text (lit "file_id")⟩))
    else (404, s)
  | .getObject bucket objectKey, s => (s.objects (bucket, objectKey), s)
  | .putObject bucket objectKey _ fileData, s =>
    if platform.takes s.world.drawn then
      (true, { s with objects := Function.update s.objects (bucket, objectKey) (some fileData) })
    else (false, s)
  | .compressImage fileData ext, s => (platform.compressImage fileData ext, s)
  | .compressVideo fileData, s => (platform.compressVideo fileData, s)
  | .randomHex len, s =>
    (platform.randomHex len s.world.drawn,
      { s with world := { s.world with drawn := s.world.drawn + 1 } })

/-- One request to the CDN server. -/
def route (platform : Platform) (request : CdnRequest) (s : Site) :
    Except Exception HttpAnswer × Site :=
  (CdnServer.route platform.cdn request).run (answer platform) s

/-- The world a handler called by `user` runs in, or by nobody known. -/
def calledBy (s : Site) (context : Address) (user : Option AuthenticatedUser) : World Tables :=
  { s.world with auth := { s.world.auth with
      users := Function.update s.world.auth.users context user } }

/-- One call to the server. Who the caller is, is said anew for each call. -/
def handle (platform : Platform) (user : Option AuthenticatedUser) (env : Environment)
    (request : Request) (s : Site) : Except Exception (Except Status Response) × Site :=
  let ran := (CrownServer.handle platform.app request).run (platform.backend.answer env)
    (s.calledBy env.context user)
  (ran.1, { s with world := { ran.2 with
      auth := { ran.2.auth with users := s.world.auth.users } } })

inductive Event where
  | call (user : Option AuthenticatedUser) (env : Environment) (request : Request)
  | cdn (request : CdnRequest)
  /-- The worker takes up the removal that waits longest, which may fail. -/
  | work (removed : Bool)
  | expire (key : Text)
  | clock (now : Int)

def work (s : Site) (removed : Bool) : Site :=
  match s.world.removals with
  | [] => s
  | object :: waiting =>
    { world := { s.world with removals := waiting }
      objects := if removed then Function.update s.objects object none else s.objects }

def step (platform : Platform) (s : Site) : Event → Site
  | .call user env request => (s.handle platform user env request).2
  | .cdn request => (s.route platform request).2
  | .work removed => s.work removed
  | .expire key => { s with world := { s.world with cache := s.world.cache.expire key } }
  | .clock now => s.withTables { s.world.database with now }

/-- Nothing stored, nobody known. -/
def empty : Site where
  world := ⟨⟨[], [], [], [], 0⟩, ⟨true, fun _ => none⟩, ⟨fun _ => none, ⟨[], 0⟩⟩, 0, []⟩
  objects _ := none

end Site
end Crown
