import Crown.AuthMiddle
import Crown.Cache
import Crown.QueryBuilder
import Crown.Sanitize
import Crown.Lib.Program

/-! What a handler asks of its surroundings, and how these answer: the database
behind `db/supabase.cpp`, the cache, the users, the token endpoint. -/
namespace Crown

open Lib

/-- The functions of `sql/001_new.sql` called through `Client::rpc`. -/
inductive StoredFunction where
  | getFeed
  | getUserPosts
  | getPost
  | toggleLike
  deriving DecidableEq

def StoredFunction.name : StoredFunction → Text
  | .getFeed => lit "get_feed"
  | .getUserPosts => lit "get_user_posts"
  | .getPost => lit "get_post"
  | .toggleLike => lit "toggle_like"

structure HttpReply where
  status : Int
  body : Text

/-- One request of a handler. Request bodies and replies of the database are given by
the JSON they denote, a reply that does not parse by nothing. -/
inductive Op where
  | getUser
  | cacheGet (key : Text)
  | cacheSet (key : Text) (value : Json) (ttlSeconds : Nat)
  | cacheDel (key : Text)
  | cacheDelPattern (pattern : Text)
  | select (query : QueryBuilder)
  | count (query : QueryBuilder)
  | insert (table : Text) (row : Json)
  | insertReturn (table : Text) (row : Json)
  | update (query : QueryBuilder) (row : Json)
  | delete (query : QueryBuilder)
  | rpc (function : StoredFunction) (params : Json)
  | s3Delete (bucket objectKey : Text)
  | postToken (body : Json)
  | validateIdToken (idToken : Text)
  | randomHex (len : Nat)
  | secId

namespace Op

abbrev Reply : Op → Type
  | getUser => Option AuthenticatedUser
  | cacheGet _ => Json
  | cacheSet .. | cacheDel _ | cacheDelPattern _ | s3Delete .. => Unit
  | select _ | insertReturn .. | rpc .. => Option Json
  | count _ | insert .. | update .. | delete _ => Int
  | postToken _ => Option HttpReply
  | validateIdToken _ => Except Exception (Option AuthenticatedUser)
  | randomHex _ | secId => Text

/-- The requests that may change the database or the cache. -/
def isWrite : Op → Bool
  | cacheSet .. | cacheDel _ | cacheDelPattern _ => true
  | insert .. | insertReturn .. | update .. | delete _ => true
  | rpc function _ => function = .toggleLike
  | getUser | cacheGet _ | select _ | count _ | s3Delete .. => false
  | postToken _ | validateIdToken _ | randomHex _ | secId => false

end Op

/-- The database, over its states. The functions other than `toggle_like` only read. -/
structure Database (σ : Type) where
  select : QueryBuilder → σ → Option Json
  count : QueryBuilder → σ → Int
  call : StoredFunction → Json → σ → Option Json
  toggleLike : Json → σ → Option Json × σ
  insert : Text → Json → σ → Int × σ
  insertReturn : Text → Json → σ → Option Json × σ
  update : QueryBuilder → Json → σ → Int × σ
  delete : QueryBuilder → σ → Int × σ

/-- The world a call runs in. `drawn` counts the random texts taken so far and
`removals` is what the worker has been asked to remove from the object store. -/
structure World (σ : Type) where
  database : σ
  cache : Cache
  auth : AuthMiddleware
  drawn : Nat
  removals : List (Text × Text)

/-- What the call itself brings: its context and the replies it meets outside. -/
structure Environment where
  context : Address
  tokenEndpoint : Json → Option HttpReply
  around : Surroundings

/-- The settings and the libraries of the process. -/
structure AppContext where
  cdnBucket : Text
  googleClientId : Option Text
  googleClientSecret : Option Text
  html : HtmlLibrary
  lib : Libraries

/-- The services behind the server. -/
structure Backend (σ : Type) where
  app : AppContext
  glob : Text → Text → Bool
  database : Database σ
  randomHex : Nat → Nat → Text
  secId : Nat → Text

namespace Backend

variable {σ : Type}

def answer (backend : Backend σ) (env : Environment) : (op : Op) → World σ → op.Reply × World σ
  | .getUser, w => (w.auth.getUser env.context, w)
  | .cacheGet key, w => (w.cache.getJson key, w)
  | .cacheSet key value _, w => ((), { w with cache := w.cache.setJson key value })
  | .cacheDel key, w => ((), { w with cache := w.cache.del key })
  | .cacheDelPattern pattern, w => ((), { w with cache := w.cache.delPattern backend.glob pattern })
  | .select query, w => (backend.database.select query w.database, w)
  | .count query, w => (backend.database.count query w.database, w)
  | .insert table row, w =>
    let (status, database) := backend.database.insert table row w.database
    (status, { w with database })
  | .insertReturn table row, w =>
    let (created, database) := backend.database.insertReturn table row w.database
    (created, { w with database })
  | .update query row, w =>
    let (status, database) := backend.database.update query row w.database
    (status, { w with database })
  | .delete query, w =>
    let (status, database) := backend.database.delete query w.database
    (status, { w with database })
  | .rpc .toggleLike params, w =>
    let (result, database) := backend.database.toggleLike params w.database
    (result, { w with database })
  | .rpc function params, w => (backend.database.call function params w.database, w)
  | .s3Delete bucket objectKey, w => ((), { w with removals := w.removals ++ [(bucket, objectKey)] })
  | .postToken body, w => (env.tokenEndpoint body, w)
  | .validateIdToken idToken, w =>
    let (result, auth) := w.auth.validateIdToken backend.app.lib env.around idToken
    (result, { w with auth })
  | .randomHex len, w => (backend.randomHex len w.drawn, { w with drawn := w.drawn + 1 })
  | .secId, w => (backend.secId w.drawn, { w with drawn := w.drawn + 1 })

/-- A request that is no write leaves the database and the cache alone. -/
theorem answer_read (backend : Backend σ) (env : Environment) (op : Op) (w : World σ)
    (read : op.isWrite = false) :
    (backend.answer env op w).2.database = w.database ∧
      (backend.answer env op w).2.cache = w.cache := by
  cases op with
  | rpc function params => cases function <;> first | exact ⟨rfl, rfl⟩ | simp [Op.isWrite] at read
  | _ => first | exact ⟨rfl, rfl⟩ | simp [Op.isWrite] at read

end Backend
end Crown
