import Crown.CacheKeys
import Crown.CachedReads
import Crown.CountRaces
import Crown.Lib.Service
import Crown.Ownership

/-! What a read may answer while calls of every kind are served at the same time: what the server
would have answered without its cache, over a state that the database was in. -/
namespace Crown

open Lib Program

variable {σ : Type}

/-! What the reading handlers make of a reply. -/

namespace CrownServer

/-- The parameters of `get_post`. -/
def postParams (viewer : Option AuthenticatedUser) (postId : Text) : Json :=
  .object [(lit "p_user_id", .string (match viewer with
    | some user => user.id
    | none => [])), (lit "p_post_id", .string postId)]

def postAnswer (reply : Option Json) : Except Exception (Except Status Response) :=
  match reply with
  | some parsed =>
    if (parsed.present (lit "id")).isSome then
      (parsePost parsed).map fun post => .ok (.post (post.getD default))
    else .ok (.error ⟨.notFound, lit "Post nao encontrado"⟩)
  | none => .ok (.error ⟨.notFound, lit "Post nao encontrado"⟩)

def pageAnswer (reply : Option Json) : Except Exception (Except Status Response) :=
  match rows? reply with
  | some rows => (parsePosts rows).map fun posts => .ok (.postList posts)
  | none => .ok (.ok (.postList []))

def userAnswer (missing : Status) (reply : Option Json) :
    Except Exception (Except Status Response) :=
  match firstRow? reply with
  | some first => (parseUser first).map fun user => .ok (.user (user.getD default))
  | none => .ok (.error missing)

/-- The way of a read: an entry of the kind looked for, or else a reply, whose value is stored. -/
def fetched (key : Text) (found : Json → Bool) (read : Handler (Option Json))
    (value : Option Json → Option Json) (ttl : Nat)
    (hit : Json → Except Exception (Except Status Response))
    (answer : Option Json → Except Exception (Except Status Response)) :
    Handler (Except Status Response) := do
  let cached ← cacheGetJson key
  if found cached then done (hit cached)
  else
    let reply ← read
    match value reply with
    | some value =>
      cacheSetJson key value ttl
      done (answer reply)
    | none => done (answer reply)

theorem getPost_fetched (postId : Text) : getPost postId =
    fetched (Cache.postKey postId) Json.isObject
      (do let user ← Crown.getUser; rpc .getPost (postParams user postId)) storedPost cacheTtlPost
      (fun cached => (parsePost cached).map fun post => .ok (.post (post.getD default)))
      postAnswer := by
  unfold getPost fetched
  congr 1
  funext cached
  cases cached.isObject with
  | true => cases read : parsePost cached <;> simp [read, Except.map]
  | false =>
    rw [if_neg Bool.false_ne_true, if_neg Bool.false_ne_true]
    simp only [call_bind, perform_bind]
    congr 1
    funext user
    congr 1
    funext reply
    cases reply with
    | none => rfl
    | some parsed =>
      cases found : parsed.present (lit "id") with
      | none => simp [storedPost, postAnswer, found]
      | some stored =>
        cases read : parsePost parsed <;>
          simp [storedPost, postAnswer, found, read, Except.toOption, Except.map]

theorem listPosts_fetched (cacheKey : Text) (function : StoredFunction) (params : Json) :
    listPosts cacheKey function params =
      fetched cacheKey (fun cached => (rows? cached).isSome) (rpc function params) storedPage
        cacheTtlFeed (fun cached => pageAnswer (some cached)) pageAnswer := by
  unfold listPosts fetched
  congr 1
  funext cached
  cases found : rows? cached with
  | some rows => cases read : parsePosts rows <;> simp [pageAnswer, found, read, Except.map]
  | none =>
    simp only [call_bind, found, Option.isSome_none, Bool.false_eq_true, if_false]
    congr 1
    funext reply
    cases replied : rows? reply with
    | none => simp [storedPage, pageAnswer, replied]
    | some rows =>
      cases read : parsePosts rows <;>
        simp [storedPage, pageAnswer, replied, read, Except.toOption, Except.map]

theorem lookupUser_fetched (cacheKey : Text) (query : QueryBuilder) (missing : Status) :
    lookupUser cacheKey query missing =
      fetched cacheKey Json.isObject query.execute storedUser cacheTtlUser
        (fun cached => (parseUser cached).map fun user => .ok (.user (user.getD default)))
        (userAnswer missing) := by
  unfold lookupUser fetched
  congr 1
  funext cached
  cases cached.isObject with
  | true => cases read : parseUser cached <;> simp [read, Except.map]
  | false =>
    rw [if_neg Bool.false_ne_true, if_neg Bool.false_ne_true]
    simp only [call_bind]
    congr 1
    funext reply
    cases replied : firstRow? reply with
    | none => simp [storedUser, userAnswer, replied]
    | some first =>
      cases read : parseUser first <;>
        simp [storedUser, userAnswer, replied, read, Except.toOption, Except.map]

/-- What a handler sends for an exception. -/
def caught (result : Except Exception (Except Status Response)) :
    Except Exception (Except Status Response) :=
  .ok (recovered (fun e => .error ⟨.internal, e.what⟩) result)

end CrownServer

open CrownServer
open CachingCall (postRow_iff storedPost_eq_some storedPage_eq_some storedUser_eq_some)

namespace Backend

/-- What a call answers alone, without a cache, over a state of the database. -/
def uncached (backend : Backend σ) (env : Environment) (viewer : Option AuthenticatedUser)
    (database : σ) (request : Request) : Except Exception (Except Status Response) :=
  ((CrownServer.handle backend.app request).run (backend.answer env)
    ⟨database, ⟨false, fun _ => none⟩, ⟨fun _ => viewer, ⟨[], 0⟩⟩, 0, []⟩).1

/-- The values that a state of the database has for an entry, for any viewer where they differ. -/
def Gives (backend : Backend σ) (database : σ) (value : Json) : CacheKey → Prop
  | .post id => ∃ viewer, storedPost
      (backend.database.call .getPost (postParams viewer id) database) = some value
  | .user id => storedUser (backend.database.select (userLookup .id id) database) = some value
  | .handle name =>
    storedUser (backend.database.select (userLookup .handle name) database) = some value
  | .feed page limit => ∃ viewer : AuthenticatedUser, storedPage
      (backend.database.call .getFeed (feedParams viewer.id page limit) database) = some value
  | .userPosts userId page limit => ∃ viewer : AuthenticatedUser, storedPage
      (backend.database.call .getUserPosts (userPostsParams viewer.id userId page limit)
        database) = some value
  | .postCount userId => value = storedCount
      (backend.database.count ((fromTable (lit "posts")).eq .authorId userId) database)

variable {backend : Backend σ} {env : Environment} {viewer : Option AuthenticatedUser}
variable {database : σ}

theorem uncached_eq (request : Request) : backend.uncached env viewer database request =
    caught ((CrownServer.body backend.app request).run (backend.answer env)
      ⟨database, ⟨false, fun _ => none⟩, ⟨fun _ => viewer, ⟨[], 0⟩⟩, 0, []⟩).1 :=
  run_recover _ _ _

/-- Without a cache an entry is not found, and storing one changes nothing. -/
theorem uncached_fetched {key : Text} {found : Json → Bool} {value : Option Json → Option Json}
    {ttl : Nat} {hit : Json → Except Exception (Except Status Response)}
    {answer : Option Json → Except Exception (Except Status Response)}
    {read : Handler (Option Json)} {w : World σ} (without : w.cache.connected = false)
    (absent : found .null = false)
    (replied : read.run (backend.answer env) w = (.ok reply, w)) :
    ((fetched key found read value ttl hit answer).run (backend.answer env) w).1 =
      answer reply := by
  have nothing : (backend.answer env (.cacheGet key) w).1 = Json.null := by
    show w.cache.getJson key = _
    rw [Cache.getJson, without]
    rfl
  rw [fetched, call_bind, run_perform, nothing, absent]
  show (Program.run _ _ w).1 = _
  rw [if_neg Bool.false_ne_true, run_bind, replied]
  cases stored : value reply <;> simp only [stored] <;> rfl

theorem uncached_getPost (postId : Text) :
    backend.uncached env viewer database (.getPost postId) =
      caught (postAnswer (backend.database.call .getPost (postParams viewer postId) database)) := by
  rw [uncached_eq]
  congr 1
  show ((getPost postId).run (backend.answer env) _).1 = _
  rw [getPost_fetched]
  exact uncached_fetched rfl rfl rfl

theorem uncached_listFeed (user : AuthenticatedUser) (page limit : UInt32) :
    backend.uncached env (some user) database (.listFeed page limit) =
      caught (pageAnswer
        (backend.database.call .getFeed (feedParams user.id page limit) database)) := by
  rw [uncached_eq]
  congr 1
  show ((listPosts _ _ _).run (backend.answer env) _).1 = _
  rw [listPosts_fetched]
  exact uncached_fetched rfl rfl rfl

theorem uncached_listUserPosts (user : AuthenticatedUser) (userId : Text) (page limit : UInt32) :
    backend.uncached env (some user) database (.listUserPosts userId page limit) =
      caught (pageAnswer (backend.database.call .getUserPosts
        (userPostsParams user.id userId page limit) database)) := by
  rw [uncached_eq]
  congr 1
  show ((listPosts _ _ _).run (backend.answer env) _).1 = _
  rw [listPosts_fetched]
  exact uncached_fetched rfl rfl rfl

theorem run_lookupUser (key : Text) (query : QueryBuilder) (missing : Status) {w : World σ}
    (without : w.cache.connected = false) :
    ((lookupUser key query missing).run (backend.answer env) w).1 =
      userAnswer missing (backend.database.select query w.database) := by
  rw [lookupUser_fetched]
  exact uncached_fetched without rfl rfl

end Backend

/-- A call in progress. -/
structure Reader where
  request : Request
  env : Environment

/-- What the calls share: every state that the database was in, from the present one back. -/
structure Archive (σ : Type) where
  world : World σ
  past : List σ

/-- What happens beside the calls; others may do anything to the database. -/
inductive Elsewhere (σ : Type) where
  | expire (key : Text)
  | database (after : σ)

namespace Archive

def service (backend : Backend σ) :
    Service Op Op.Reply Exception (Except Status Response) (Archive σ) Reader CallArrival
      (Elsewhere σ) where
  start arrival s :=
    (⟨arrival.request, arrival.env⟩,
      { s with world := { s.world with
          auth := (s.world.auth.interceptToken backend.app.lib arrival.env.around
            arrival.env.context arrival.request.method arrival.metadata).2 } })
  body reader := CrownServer.handle backend.app reader.request
  answer reader op s :=
    let (reply, world) := backend.answer reader.env op s.world
    (reply, ⟨world, world.database :: s.past⟩)
  finish _ _ s := s
  outside
    | .expire key, s => { s with world := { s.world with cache := s.world.cache.expire key } }
    | .database after, s => ⟨{ s.world with database := after }, after :: s.past⟩

/-- Every entry is one that some state of the database had a value for. -/
structure Valid (backend : Backend σ) (s : Archive σ) : Prop where
  present : s.world.database ∈ s.past
  entries : ∀ (key : CacheKey) value, s.world.cache.entries key.stored = some value →
    ∃ database ∈ s.past, backend.Gives database value key

def Grows (s t : Archive σ) : Prop := ∀ database ∈ s.past, database ∈ t.past

theorem Grows.refl (s : Archive σ) : Grows s s := fun _ member => member

theorem Grows.trans {s t u : Archive σ} (first : Grows s t) (second : Grows t u) : Grows s u :=
  fun _ member => second _ (first _ member)

/-- The answer to a read is what the server without its cache answers in a state that the database
was in. The number of posts in the answer to a login is the number in such a state, or zero. -/
def Truthful (backend : Backend σ) (reader : Reader)
    (result : Except Exception (Except Status Response)) (s : Archive σ) : Prop :=
  match reader.request with
  | .getPost _ | .listFeed .. | .listUserPosts .. | .getUserById _ | .getUserByHandle _ =>
    ∃ database ∈ s.past, ∃ viewer,
      result = backend.uncached reader.env viewer database reader.request
  | .login .. => ∀ login user, result = .ok (.ok (.login login)) → login.user = some user →
    user.postsCount = 0 ∨ ∃ database ∈ s.past, user.postsCount = toUInt32 (countOf
      (backend.database.count ((fromTable (lit "posts")).eq .authorId user.id) database))
  | _ => True

section

variable {backend : Backend σ} {reader : Reader} {s t : Archive σ} {key : CacheKey} {value : Json}

/-- An entry that is found is one of the entries there are. -/
theorem Valid.found (valid : Valid backend s) (some : s.world.cache.getJson key.stored ≠ .null) :
    ∃ database ∈ s.past, backend.Gives database (s.world.cache.getJson key.stored) key := by
  unfold Cache.getJson at some ⊢
  split at some
  · rename_i connected
    rw [if_pos connected]
    cases entry : s.world.cache.entries key.stored with
    | none =>
      rw [entry] at some
      exact absurd rfl some
    | some value => exact valid.entries key value entry
  · exact absurd rfl some

/-- Storing a value that the database had. -/
theorem Valid.cacheSet (valid : Valid backend s) {database : σ} (member : database ∈ s.past)
    (gives : backend.Gives database value key) (ttl : Nat) :
    Valid backend ((service backend).answer reader (.cacheSet key.stored value ttl) s).2 := by
  refine ⟨List.mem_cons_self, fun other held found => ?_⟩
  by_cases same : other = key
  · subst same
    by_cases connected : s.world.cache.connected = true
    · have stored : (s.world.cache.setJson other.stored value).entries other.stored = some value :=
        Cache.setJson_self connected value
      cases stored.symm.trans found
      exact ⟨database, List.mem_cons_of_mem _ member, gives⟩
    · have unchanged : s.world.cache.setJson other.stored value = s.world.cache :=
        if_neg connected
      obtain ⟨before, earlier, gave⟩ := valid.entries other held
        ((congrArg (fun cache => cache.entries other.stored) unchanged).symm.trans found)
      exact ⟨before, List.mem_cons_of_mem _ earlier, gave⟩
  · have apart : other.stored ≠ key.stored := fun built => same (CacheKey.eq_of_stored built)
    have unchanged : (s.world.cache.setJson key.stored value).entries other.stored =
        s.world.cache.entries other.stored := Cache.setJson_other apart value
    obtain ⟨before, earlier, gave⟩ := valid.entries other held (unchanged.symm.trans found)
    exact ⟨before, List.mem_cons_of_mem _ earlier, gave⟩

/-- The operations that store no entry. -/
def Storeless : Op → Prop
  | .cacheSet .. => False
  | _ => True

theorem storeless_kept (reader : Reader) (op : Op) (storeless : Storeless op)
    (valid : Valid backend s) :
    Valid backend ((service backend).answer reader op s).2 ∧
      Grows s ((service backend).answer reader op s).2 := by
  refine ⟨⟨List.mem_cons_self, fun key value found => ?_⟩, fun _ => List.mem_cons_of_mem _⟩
  have before : s.world.cache.entries key.stored = some value := by
    cases op with
    | cacheSet => exact storeless.elim
    | cacheDel => exact Cache.del_found found
    | cacheDelPattern => exact Cache.delPattern_found found
    | rpc function params => cases function <;> exact found
    | _ => exact found
  obtain ⟨database, member, gives⟩ := valid.entries key value before
  exact ⟨database, List.mem_cons_of_mem _ member, gives⟩

/-- A program that, from this state on, is safe to run beside the others; its result is not yet
what a handler makes of an exception. -/
abbrev SafeFrom (backend : Backend σ) (reader : Reader) (p : Handler (Except Status Response))
    (s : Archive σ) : Prop :=
  p.Safe (fun _ _ => True) ((service backend).answer reader) (Valid backend) Grows
    (fun result t => Truthful backend reader (caught result) t) s

/-- A program by which a call comes to a reply that a state of the database gives. -/
def Obtains (backend : Backend σ) (reader : Reader) (replies : σ → Option Json → Prop)
    (read : Handler (Option Json)) : Prop :=
  ∀ (rest : Option Json → Handler (Except Status Response)) s,
    (∀ reply t, Grows s t → (∃ database ∈ t.past, replies database reply) →
      SafeFrom backend reader (rest reply) t) → SafeFrom backend reader (read >>= rest) s

theorem obtains_call (op : Op) (reply : op.Reply → Option Json) (storeless : Storeless op)
    (replied : ∀ w, replies w.database (reply (backend.answer reader.env op w).1)) :
    Obtains backend reader replies (do let result ← Program.call op; pure (reply result)) := by
  intro rest s later t valid growth _
  obtain ⟨kept, grown⟩ := storeless_kept reader op storeless valid
  refine ⟨kept, grown, later _ _ (growth.trans grown) ⟨t.world.database, ?_, replied t.world⟩⟩
  exact grown _ valid.present

/-- A read of one entry, and what it makes of it. -/
structure Fetch (backend : Backend σ) (reader : Reader) where
  key : CacheKey
  found : Json → Bool
  value : Option Json → Option Json
  hit : Json → Except Exception (Except Status Response)
  answer : Option Json → Except Exception (Except Status Response)
  replies : σ → Option Json → Prop
  absent : found .null = false
  gives : ∀ {database entry}, backend.Gives database entry key ↔
    ∃ reply, replies database reply ∧ value reply = some entry
  fits : ∀ {reply entry}, value reply = some entry → hit entry = answer reply
  truthful : ∀ {reply t}, (∃ database ∈ t.past, replies database reply) →
    Truthful backend reader (caught (answer reply)) t

/-- An entry is what a reply gave, and a reply is stored as what it gives. -/
theorem Fetch.safe (fetch : Fetch backend reader) {read : Handler (Option Json)} (ttl : Nat)
    (obtains : Obtains backend reader fetch.replies read) :
    SafeFrom backend reader
      (fetched fetch.key.stored fetch.found read fetch.value ttl fetch.hit fetch.answer) s := by
  intro t valid _ _
  obtain ⟨kept, grown⟩ := storeless_kept reader (.cacheGet fetch.key.stored) trivial valid
  refine ⟨kept, grown, ?_⟩
  show SafeFrom backend reader (if fetch.found (t.world.cache.getJson fetch.key.stored) then _
    else _) _
  cases found : fetch.found (t.world.cache.getJson fetch.key.stored) with
  | true =>
    have some : t.world.cache.getJson fetch.key.stored ≠ .null := by
      intro nothing
      rw [nothing, fetch.absent] at found
      cases found
    obtain ⟨database, member, gives⟩ := valid.found some
    obtain ⟨reply, replied, value⟩ := fetch.gives.mp gives
    have answered := fetch.fits value
    rw [if_pos rfl]
    intro u _ later
    show Truthful backend reader
      (caught (fetch.hit (t.world.cache.getJson fetch.key.stored))) u
    rw [answered]
    exact fetch.truthful ⟨database, later _ (grown _ member), replied⟩
  | false =>
    rw [if_neg Bool.false_ne_true]
    refine obtains _ _ fun reply u _ replied => ?_
    have ended : ∀ v, Grows u v → SafeFrom backend reader (done (fetch.answer reply)) v := by
      intro v growth w _ later
      obtain ⟨database, member, given⟩ := replied
      exact fetch.truthful ⟨database, later _ (growth _ member), given⟩
    cases value : fetch.value reply with
    | none => exact ended u (Grows.refl u)
    | some entry =>
      intro v valid growth _
      obtain ⟨database, member, given⟩ := replied
      have gives := fetch.gives.mpr ⟨reply, given, value⟩
      have further : Grows v ((service backend).answer reader
          (.cacheSet fetch.key.stored entry ttl) v).2 := fun _ => List.mem_cons_of_mem _
      exact ⟨valid.cacheSet (growth _ member) gives ttl, further,
        ended _ (growth.trans further)⟩

/-! The reads. -/

theorem pageOrFirst_idem (page : UInt32) : pageOrFirst (pageOrFirst page) = pageOrFirst page := by
  unfold pageOrFirst
  split <;> simp_all

theorem limitOrDefault_idem (limit : UInt32) :
    limitOrDefault (limitOrDefault limit) = limitOrDefault limit := by
  unfold limitOrDefault
  split <;> simp_all

def postFetch (asked : reader.request = .getPost postId) : Fetch backend reader where
  key := .post postId
  found := Json.isObject
  value := storedPost
  hit cached := (parsePost cached).map fun post => .ok (.post (post.getD default))
  answer := postAnswer
  replies database reply :=
    ∃ viewer, backend.database.call .getPost (postParams viewer postId) database = reply
  absent := rfl
  gives := by simp [Backend.Gives]
  fits stored := by
    obtain ⟨rfl, row⟩ := storedPost_eq_some.mp stored
    rw [postAnswer, if_pos (postRow_iff.mp row).1]
  truthful := by
    rintro reply t ⟨database, member, viewer, rfl⟩
    unfold Truthful
    rw [asked]
    exact ⟨database, member, viewer, (Backend.uncached_getPost postId).symm⟩

def feedFetch (asked : reader.request = .listFeed page limit) : Fetch backend reader where
  key := .feed (pageOrFirst page) (limitOrDefault limit)
  found cached := (rows? (some cached)).isSome
  value := storedPage
  hit cached := pageAnswer (some cached)
  answer := pageAnswer
  replies database reply := ∃ viewer : AuthenticatedUser,
    backend.database.call .getFeed (feedParams viewer.id page limit) database = reply
  absent := rfl
  gives := by simp [Backend.Gives, feedParams, pageOrFirst_idem, limitOrDefault_idem]
  fits stored := by
    obtain ⟨rows, rfl, _, rfl⟩ := storedPage_eq_some.mp stored
    rfl
  truthful := by
    rintro reply t ⟨database, member, viewer, rfl⟩
    unfold Truthful
    rw [asked]
    exact ⟨database, member, some viewer, (Backend.uncached_listFeed viewer page limit).symm⟩

def userPostsFetch (asked : reader.request = .listUserPosts userId page limit) :
    Fetch backend reader where
  key := .userPosts userId (pageOrFirst page) (limitOrDefault limit)
  found cached := (rows? (some cached)).isSome
  value := storedPage
  hit cached := pageAnswer (some cached)
  answer := pageAnswer
  replies database reply := ∃ viewer : AuthenticatedUser, backend.database.call .getUserPosts
    (userPostsParams viewer.id userId page limit) database = reply
  absent := rfl
  gives := by simp [Backend.Gives, userPostsParams, pageOrFirst_idem, limitOrDefault_idem]
  fits stored := by
    obtain ⟨rows, rfl, _, rfl⟩ := storedPage_eq_some.mp stored
    rfl
  truthful := by
    rintro reply t ⟨database, member, viewer, rfl⟩
    unfold Truthful
    rw [asked]
    exact ⟨database, member, some viewer,
      (Backend.uncached_listUserPosts viewer userId page limit).symm⟩

/-- What a lookup finds is an object with an id. -/
theorem userAnswer_fits {missing : Status} {reply : Option Json} {entry : Json}
    (stored : storedUser reply = some entry) :
    (parseUser entry).map (fun user => .ok (.user (user.getD default))) =
      userAnswer missing reply := by
  obtain ⟨rest, rfl, _⟩ := storedUser_eq_some.mp stored
  rfl

def userFetch (asked : reader.request = .getUserById userId) (nonempty : userId ≠ []) :
    Fetch backend reader where
  key := .user userId
  found := Json.isObject
  value := storedUser
  hit cached := (parseUser cached).map fun user => .ok (.user (user.getD default))
  answer := userAnswer ⟨.notFound, lit "User not found"⟩
  replies database reply := backend.database.select (userLookup .id userId) database = reply
  absent := rfl
  gives := by simp [Backend.Gives]
  fits := userAnswer_fits
  truthful := by
    rintro reply t ⟨database, member, rfl⟩
    unfold Truthful
    rw [asked]
    refine ⟨database, member, none, ?_⟩
    rw [Backend.uncached_eq, CrownServer.body, CrownServer.getUserById, if_neg nonempty,
      Backend.run_lookupUser _ _ _ rfl]

def handleFetch {name : Text} (asked : reader.request = .getUserByHandle name)
    (nonempty : name ≠ []) : Fetch backend reader where
  key := .handle (bareHandle name)
  found := Json.isObject
  value := storedUser
  hit cached := (parseUser cached).map fun user => .ok (.user (user.getD default))
  answer := userAnswer ⟨.notFound, lit "User not found for this handle"⟩
  replies database reply :=
    backend.database.select (userLookup .handle (bareHandle name)) database = reply
  absent := rfl
  gives := by simp [Backend.Gives]
  fits := userAnswer_fits
  truthful := by
    rintro reply t ⟨database, member, rfl⟩
    unfold Truthful
    rw [asked]
    refine ⟨database, member, none, ?_⟩
    rw [Backend.uncached_eq, CrownServer.body, CrownServer.getUserByHandle, if_neg nonempty,
      Backend.run_lookupUser _ _ _ rfl]

theorem obtains_select (query : QueryBuilder) : Obtains backend reader
    (fun database reply => backend.database.select query database = reply) query.execute :=
  obtains_call (.select query) id trivial fun _ => rfl

theorem obtains_rpc (function : StoredFunction) (params : Json) (reads : function ≠ .toggleLike)
    {replies : σ → Option Json → Prop}
    (replied : ∀ database, replies database (backend.database.call function params database)) :
    Obtains backend reader replies (rpc function params) := by
  refine obtains_call (.rpc function params) id trivial fun w => ?_
  cases function with
  | toggleLike => exact absurd rfl reads
  | _ => exact replied w.database

theorem obtains_getPost (postId : Text) : Obtains backend reader
    (fun database reply =>
      ∃ viewer, backend.database.call .getPost (postParams viewer postId) database = reply)
    (do let user ← Crown.getUser; rpc .getPost (postParams user postId)) := by
  intro rest s later t valid growth _
  obtain ⟨kept, grown⟩ := storeless_kept reader .getUser trivial valid
  refine ⟨kept, grown, ?_⟩
  have viewed : Obtains backend reader (fun database reply =>
      ∃ viewer, backend.database.call .getPost (postParams viewer postId) database = reply)
      (rpc .getPost (postParams ((service backend).answer reader .getUser t).1 postId)) :=
    obtains_rpc _ _ (by decide) fun database => ⟨_, rfl⟩
  exact viewed rest _ fun reply u further => later reply u (growth.trans (grown.trans further))

/-- Where an answer is settled before anything is read. -/
theorem refused_safe {status : Status}
    (truthful : ∀ t : Archive σ, (∃ database, database ∈ t.past) →
      Truthful backend reader (.ok (.error status)) t) :
    SafeFrom backend reader (done (.ok (.error status))) s :=
  fun t valid _ => truthful t ⟨_, valid.present⟩

theorem listFeed_safe (asked : reader.request = .listFeed page limit) :
    SafeFrom backend reader (CrownServer.listFeed page limit) s := by
  intro t valid _ _
  obtain ⟨kept, grown⟩ := storeless_kept reader .getUser trivial valid
  refine ⟨kept, grown, ?_⟩
  cases viewer : ((service backend).answer reader .getUser t).1 with
  | none =>
    refine refused_safe fun u ⟨database, member⟩ => ?_
    unfold Truthful
    rw [asked]
    exact ⟨database, member, none, rfl⟩
  | some user =>
    show SafeFrom backend reader (CrownServer.listPosts _ _ _) _
    rw [listPosts_fetched]
    exact (feedFetch asked).safe _ (obtains_rpc _ _ (by decide) fun database => ⟨user, rfl⟩)

theorem listUserPosts_safe (asked : reader.request = .listUserPosts userId page limit) :
    SafeFrom backend reader (CrownServer.listUserPosts userId page limit) s := by
  intro t valid _ _
  obtain ⟨kept, grown⟩ := storeless_kept reader .getUser trivial valid
  refine ⟨kept, grown, ?_⟩
  cases viewer : ((service backend).answer reader .getUser t).1 with
  | none =>
    refine refused_safe fun u ⟨database, member⟩ => ?_
    unfold Truthful
    rw [asked]
    exact ⟨database, member, none, rfl⟩
  | some user =>
    show SafeFrom backend reader (CrownServer.listPosts _ _ _) _
    rw [listPosts_fetched]
    exact (userPostsFetch asked).safe _ (obtains_rpc _ _ (by decide) fun database => ⟨user, rfl⟩)

theorem getUserById_safe (asked : reader.request = .getUserById userId) :
    SafeFrom backend reader (CrownServer.getUserById userId) s := by
  unfold CrownServer.getUserById
  by_cases empty : userId = []
  · rw [if_pos empty]
    refine refused_safe fun u ⟨database, member⟩ => ?_
    unfold Truthful
    rw [asked]
    refine ⟨database, member, none, ?_⟩
    rw [Backend.uncached_eq, CrownServer.body, CrownServer.getUserById, if_pos empty]
    rfl
  · rw [if_neg empty, lookupUser_fetched]
    exact (userFetch asked empty).safe _ (obtains_select _)

theorem getUserByHandle_safe {name : Text} (asked : reader.request = .getUserByHandle name) :
    SafeFrom backend reader (CrownServer.getUserByHandle name) s := by
  unfold CrownServer.getUserByHandle
  by_cases empty : name = []
  · rw [if_pos empty]
    refine refused_safe fun u ⟨database, member⟩ => ?_
    unfold Truthful
    rw [asked]
    refine ⟨database, member, none, ?_⟩
    rw [Backend.uncached_eq, CrownServer.body, CrownServer.getUserByHandle, if_pos empty]
    rfl
  · rw [if_neg empty, lookupUser_fetched]
    exact (handleFetch asked empty).safe _ (obtains_select _)

theorem getPost_safe (asked : reader.request = .getPost postId) :
    SafeFrom backend reader (CrownServer.getPost postId) s := by
  rw [getPost_fetched]
  exact (postFetch asked).safe _ (obtains_getPost postId)

/-- A program that stores nothing is safe where nothing is promised of its result. -/
theorem safe_storeless {p : Handler (Except Status Response)}
    (within : p.Within Storeless fun _ _ => True)
    (promised : ∀ result t, Truthful backend reader (caught result) t) :
    SafeFrom backend reader p s :=
  safe_of_within within (fun op _ storeless valid _ => storeless_kept reader op storeless valid)
    promised

theorem Uncaching.storeless (op : Op) (uncaching : Uncaching op) : Storeless op := by
  cases op with
  | cacheSet => exact uncaching.elim
  | _ => trivial

/-- The number of posts that a state of the database counts for a user. -/
abbrev Counted (backend : Backend σ) (userId : Text) (count : Int) (s : Archive σ) : Prop :=
  ∃ database ∈ s.past, count = countOf
    (backend.database.count ((fromTable (lit "posts")).eq .authorId userId) database)

theorem cachedInt_storedCount (total : Int) : cachedInt (storedCount total) = countOf total := by
  have fits : -2 ^ 31 ≤ countOf total ∧ countOf total < 2 ^ 31 := by
    unfold countOf
    split
    · exact toInt32_range total
    · exact ⟨by decide, by decide⟩
  show (if -2 ^ 31 ≤ countOf total ∧ countOf total < 2 ^ 31 then countOf total else 0) = _
  exact if_pos fits

/-- A count was right at some time, or the entry went between the two reads of it. -/
theorem count_safe {rest : Int → Handler (Except Status Response)}
    (later : ∀ count t, Grows s t → (count = 0 ∨ Counted backend userId count t) →
      SafeFrom backend reader (rest count) t) :
    SafeFrom backend reader (Crown.countUserPosts userId >>= rest) s := by
  intro t valid growth _
  obtain ⟨kept, grown⟩ := storeless_kept reader (.cacheGet (CacheKey.postCount userId).stored)
    trivial valid
  refine ⟨kept, grown, ?_⟩
  show SafeFrom backend reader
    ((if (t.world.cache.getJson (CacheKey.postCount userId).stored).isNumber then readAgain userId
      else countRows userId) >>= rest) _
  split
  · intro u valid' growth' _
    obtain ⟨kept', grown'⟩ := storeless_kept reader (.cacheGet (CacheKey.postCount userId).stored)
      trivial valid'
    refine ⟨kept', grown', later _ _ (growth.trans (grown.trans (growth'.trans grown'))) ?_⟩
    show cachedInt (u.world.cache.getJson (CacheKey.postCount userId).stored) = 0 ∨ Counted _ _
      (cachedInt (u.world.cache.getJson (CacheKey.postCount userId).stored)) _
    by_cases nothing : u.world.cache.getJson (CacheKey.postCount userId).stored = .null
    · rw [nothing]
      exact .inl rfl
    · obtain ⟨database, member, gives⟩ := valid'.found nothing
      exact .inr ⟨database, grown' _ member, gives ▸ cachedInt_storedCount _⟩
  · intro u valid' growth' _
    obtain ⟨kept', grown'⟩ := storeless_kept reader
      (.count ((fromTable (lit "posts")).eq .authorId userId)) trivial valid'
    refine ⟨kept', grown', fun v valid'' growth'' _ => ?_⟩
    have member := growth'' _ (grown' _ valid'.present)
    have further : Grows v ((service backend).answer reader (.cacheSet (Cache.postCountKey userId)
      (.integer (countOf (backend.database.count ((fromTable (lit "posts")).eq .authorId userId)
        u.world.database))) cacheTtlPostCount) v).2 := fun _ => List.mem_cons_of_mem _
    have stored : backend.Gives u.world.database _ (.postCount userId) := rfl
    refine ⟨valid''.cacheSet member stored _, further, ?_⟩
    refine later _ _ (growth.trans (grown.trans (growth'.trans (grown'.trans
      (growth''.trans further))))) (.inr ⟨_, further _ member, rfl⟩)

/-- Programs that store nothing, in front of others. -/
theorem safe_storeless_bind {p : Handler α} {rest : α → Handler (Except Status Response)}
    (within : p.Within Uncaching fun _ _ => True)
    (failed : ∀ e t, Truthful backend reader (caught (.error e)) t)
    (later : ∀ a t, SafeFrom backend reader (rest a) t) :
    SafeFrom backend reader (p >>= rest) s :=
  safe_within_bind (within.mono Uncaching.storeless)
    (fun op _ storeless valid _ => storeless_kept reader op storeless valid) Grows.refl Grows.trans
    failed fun a t _ => later a t

theorem login_safe (asked : reader.request = .login code uri) :
    SafeFrom backend reader (CrownServer.login backend.app code uri) s := by
  have failed : ∀ status (t : Archive σ), Truthful backend reader (.ok (.error status)) t := by
    intro status t
    unfold Truthful
    rw [asked]
    rintro login user answered -
    cases answered
  have refused : ∀ status (t : Archive σ), SafeFrom backend reader (done (.ok (.error status))) t :=
    fun status t => refused_safe fun u _ => failed status u
  unfold CrownServer.login
  split
  · exact refused _ s
  split
  · exact refused _ s
  refine safe_storeless_bind (exchangeCodeForToken_uncaching backend.app code uri)
    (fun e t => failed _ t) fun exchanged t => ?_
  split
  · exact refused _ t
  rename_i idToken refreshToken
  intro u valid _ _
  obtain ⟨kept, grown⟩ := storeless_kept reader (.validateIdToken idToken) trivial valid
  refine ⟨kept, grown, safe_done_bind (fun e t => failed _ t) fun validated _ =>
    safe_done_bind (fun e t => failed _ t) fun user _ => ?_⟩
  split
  · exact refused _ _
  rename_i user _
  refine safe_storeless_bind (upsertUser_uncaching user) (fun e t => failed _ t) fun _ v => ?_
  refine count_safe fun count v' _ counted => ?_
  intro w valid' growth _
  obtain ⟨kept', grown'⟩ := storeless_kept reader (.cacheDel (Cache.userKey user.id)) trivial valid'
  refine ⟨kept', grown', fun x _ later => ?_⟩
  unfold Truthful
  rw [asked]
  rintro login shown answered own
  cases answered
  cases own
  rcases counted with rfl | ⟨database, member, rfl⟩
  · exact .inl rfl
  · exact .inr ⟨database, later _ (grown' _ (growth _ member)), rfl⟩

theorem handle_safe (reader : Reader) :
    (CrownServer.handle backend.app reader.request).Safe (fun _ _ => True)
      ((service backend).answer reader) (Valid backend) Grows (Truthful backend reader) s := by
  refine safe_recover ?_
  have quiet : ∀ {p : Handler (Except Status Response)}, p.Within Uncaching (fun _ _ => True) →
      (∀ result t, Truthful backend reader (caught result) t) → SafeFrom backend reader p s :=
    fun within promised => safe_storeless (within.mono Uncaching.storeless) promised
  cases asked : reader.request with
  | getPost postId => exact getPost_safe asked
  | listFeed page limit => exact listFeed_safe asked
  | listUserPosts userId page limit => exact listUserPosts_safe asked
  | getUserById userId => exact getUserById_safe asked
  | getUserByHandle handle => exact getUserByHandle_safe asked
  | login code uri => exact login_safe asked
  | createPost title content imageUrl =>
    exact quiet (createPost_uncaching _ _ _ _) fun _ _ => by simp [Truthful, asked]
  | deletePost postId => exact quiet (deletePost_uncaching _ _) fun _ _ => by simp [Truthful, asked]
  | toggleLike postId => exact quiet (toggleLike_uncaching _) fun _ _ => by simp [Truthful, asked]
  | refreshAccessToken refreshToken =>
    exact quiet (refreshAccessToken_uncaching _ _) fun _ _ => by simp [Truthful, asked]

theorem changed_kept (change : Elsewhere σ) (valid : Valid backend s) :
    Valid backend ((service backend).outside change s) ∧
      Grows s ((service backend).outside change s) := by
  cases change with
  | expire key =>
    refine ⟨⟨valid.present, fun other value found => ?_⟩, Grows.refl s⟩
    exact valid.entries other value (Cache.update_none_found found)
  | database after =>
    have growth : Grows s ((service backend).outside (.database after) s) :=
      fun _ => List.mem_cons_of_mem _
    refine ⟨⟨List.mem_cons_self, fun key value found => ?_⟩, growth⟩
    obtain ⟨database, member, gives⟩ := valid.entries key value found
    exact ⟨database, growth _ member, gives⟩

theorem contract (backend : Backend σ) : Service.Contract (service backend) (fun _ _ _ => true)
    (Valid backend) Grows (Truthful backend) where
  refl := Grows.refl
  trans := Grows.trans
  started arrival s valid := by
    refine ⟨⟨valid.present, valid.entries⟩, Grows.refl s, ?_⟩
    simp only
    exact handle_safe _
  finished _ _ s valid _ := ⟨valid, Grows.refl s⟩
  changed change s valid := changed_kept change valid

end

abbrev Calls (σ : Type) : Type :=
  Service.State Op Op.Reply Exception (Except Status Response) (Archive σ) Reader

def quiet (world : World σ) : Calls σ := ⟨⟨world, [world.database]⟩, []⟩

/-- Reads answered while any calls run at the same time, in any order of their operations, and
entries expire and others change the database. -/
theorem run_truthful (backend : Backend σ) (world : World σ)
    (empty : ∀ key, world.cache.entries key = none) {s : Calls σ}
    (run : Run (fun s event s' => (service backend).step s event = some s') (quiet world) events s)
    {call : Service.Call Op Op.Reply Exception (Except Status Response) Reader}
    (member : call ∈ s.calls) {result : Except Exception (Except Status Response)}
    (ended : call.program = .done result) : Truthful backend call.tag result s.shared := by
  have first : Valid backend ⟨world, [world.database]⟩ := by
    refine ⟨List.mem_singleton_self _, fun key value found => ?_⟩
    rw [empty] at found
    cases found
  have guarded : Run (Guarded (fun s event => Service.Permitted (fun _ _ _ => true) s event = true)
      fun s event s' => (service backend).step s event = some s') (quiet world) events s := by
    refine (Run.congr fun s event s' => ?_).mp run
    refine ⟨fun stepped => ⟨?_, stepped⟩, fun guarded => guarded.2⟩
    cases event with
    | advance place =>
      simp only [Service.Permitted]
      split <;> rfl
    | _ => rfl
  exact ((contract backend).run first guarded).result (contract backend) member ended

/-- Ana's row is gone when her profile is asked for again. -/
def profileRead : List (Service.Event CallArrival (Elsewhere Tables)) :=
  .start ⟨.getUserById Site.ana.id, [], Site.localEnvironment⟩ ::
    List.replicate 3 (.advance 0) ++ [.finish 0, .outside (.database Site.empty.world.database),
      .start ⟨.getUserById Site.ana.id, [], Site.localEnvironment⟩, .advance 0]

/-- The tables once Ana has posted. -/
def knownAna : Tables :=
  (Site.empty.step .plain (.call (some Site.ana) Site.localEnvironment
    (.createPost (lit "one") (lit "one") []))).world.database

/-- A call is answered with a user. -/
def answersUser (call : Service.Call Op Op.Reply Exception (Except Status Response) Reader) :
    Bool :=
  match call.program with
  | .done (.ok (.ok (.user _))) => true
  | _ => false

/-- The profile comes from the cache, and was right once. -/
theorem profileRead_truthful : ∃ s : Calls Tables, ∃ call ∈ s.calls, ∃ user,
    s.shared.world.database.users.length = 0 ∧ call.program = .done (.ok (.ok (.user user))) ∧
      Truthful Platform.plain.backend call.tag (.ok (.ok (.user user))) s.shared := by
  have ends : (execute (service Platform.plain.backend).step profileRead
      (quiet { Site.empty.world with database := knownAna })).any
        (fun s => s.shared.world.database.users.length = 0 && s.calls.any answersUser) = true := by
    with_unfolding_all decide
  obtain ⟨s, reached, shows⟩ := (Option.any_eq_true ..).mp ends
  simp only [Bool.and_eq_true, decide_eq_true_eq] at shows
  obtain ⟨call, member, answers⟩ := List.any_eq_true.mp shows.2
  unfold answersUser at answers
  split at answers
  · rename_i user ended
    refine ⟨s, call, member, user, shows.1, ended, ?_⟩
    exact run_truthful Platform.plain.backend { Site.empty.world with database := knownAna }
      (fun _ => rfl) (run_of_execute reached) member ended
  · cases answers

end Archive
end Crown
