import Crown.Site

/-! Which answers of the database end up in the cache. The functions of `db/supabase.cpp`
report a failed read in the reply itself: an empty text, the text of a number, a negative
count. Every handler has to tell these from an answer before it stores anything. -/
namespace Crown

open Lib Program

/-- What the HTTP library hands back of an answered request. -/
structure HttpResponse where
  status : Int
  body : Text
  contentRange : Option Text

/-- A white space character of the C locale. -/
def isCSpace (c : Char) : Bool := c = ' ' || (9 ≤ c.toNat && c.toNat ≤ 13)

/-- The sign in front of a number, and what follows it. -/
def takeSign : Text → Int × Text
  | '-' :: rest => (-1, rest)
  | '+' :: rest => (1, rest)
  | rest => (1, rest)

/-- `std::stoll`: nothing where it throws. -/
def stoll (s : Text) : Option Int :=
  let (sign, rest) := takeSign (s.dropWhile isCSpace)
  let digits := rest.takeWhile Char.isDigit
  let value := sign * Nat.ofDigitChars 10 digits 0
  if digits = [] then none
  else if -2 ^ 63 ≤ value ∧ value < 2 ^ 63 then some value
  else none

namespace Supabase

/-! The reads of `Client`, from the response they get. They catch every exception and go on
as without a response. -/

def doSelect : Option HttpResponse → Text
  | none => []
  | some res =>
    if 400 ≤ res.status then []
    else if 200 ≤ res.status ∧ res.status < 300 then res.body
    else []

def doCount : Option HttpResponse → Int
  | none => -1
  | some res =>
    if 400 ≤ res.status then -1
    else
      match res.contentRange with
      | none => -1
      | some contentRange =>
        -- Empty also when there is no slash.
        let total := Text.after '/' contentRange
        if total = [] then -1
        else if total = lit "*" then -1
        else (stoll total).getD (-1)

def rpc : Option HttpResponse → Text
  | some res =>
    if 200 ≤ res.status ∧ res.status < 300 then res.body else Text.decimal res.status
  | none => Text.decimal (-100)

end Supabase

/-- `json::parse` without exceptions: nothing for a discarded value. -/
def parseReply (lib : Libraries) (reply : Text) : Option Json := (lib.parse reply).toOption

/-- The backend when its database answers one read with the given outcome. -/
def Backend.reading (backend : Backend σ) (outcome : Option HttpResponse) : Backend σ :=
  { backend with
    database := { backend.database with
      select := fun _ _ => parseReply backend.app.lib (Supabase.doSelect outcome)
      count := fun _ _ => Supabase.doCount outcome
      call := fun _ _ _ => parseReply backend.app.lib (Supabase.rpc outcome) } }

/-- The calls that fill the cache. -/
inductive CachingCall where
  | getPost (postId : Text)
  | listFeed (page limit : UInt32)
  | listUserPosts (userId : Text) (page limit : UInt32)
  | getUserById (userId : Text)
  | getUserByHandle (handle : Text)
  | countUserPosts (userId : Text)

namespace CachingCall

/-- The call without its result. -/
def program (app : AppContext) : CachingCall → Handler Unit
  | getPost postId => do let _ ← CrownServer.handle app (.getPost postId)
  | listFeed page limit => do let _ ← CrownServer.handle app (.listFeed page limit)
  | listUserPosts userId page limit => do
    let _ ← CrownServer.handle app (.listUserPosts userId page limit)
  | getUserById userId => do let _ ← CrownServer.handle app (.getUserById userId)
  | getUserByHandle handle => do let _ ← CrownServer.handle app (.getUserByHandle handle)
  | countUserPosts userId => do let _ ← Crown.countUserPosts userId

/-- The cache entry the call fills. -/
def key : CachingCall → Text
  | getPost postId => Cache.postKey postId
  | listFeed page limit => CrownServer.feedPageKey page limit
  | listUserPosts userId page limit => CrownServer.userPostsPageKey userId page limit
  | getUserById userId => Cache.userKey userId
  | getUserByHandle handle => Cache.handleKey (CrownServer.bareHandle handle)
  | countUserPosts userId => Cache.postCountKey userId

/-- A row that is read as a post. -/
def PostRow (row : Json) : Prop := ∃ post, parsePost row = .ok (some post)

def UserRow (row : Json) : Prop := ∃ user, parseUser row = .ok (some user)

/-- The total of a `Content-Range`: the decimal digits behind the slash. -/
def Total (contentRange : Text) (total : Nat) : Prop :=
  Text.after '/' contentRange ≠ [] ∧ (∀ c ∈ Text.after '/' contentRange, c.isDigit = true) ∧
    total = Nat.ofDigitChars 10 (Text.after '/' contentRange) 0

/-- The database answered, and with success. -/
def Succeeded (outcome : Option HttpResponse) (res : HttpResponse) : Prop :=
  outcome = some res ∧ 200 ≤ res.status ∧ res.status < 300

/-- The read succeeded with a well-formed answer, and the value is what was asked for. -/
def Answers (lib : Libraries) (outcome : Option HttpResponse) (value : Json) : CachingCall → Prop
  | getPost _ => ∃ res, Succeeded outcome res ∧ lib.parse res.body = .ok value ∧ PostRow value
  | listFeed .. | listUserPosts .. => ∃ res rows, Succeeded outcome res ∧
      lib.parse res.body = .ok (.array rows) ∧ (∀ row ∈ rows, PostRow row) ∧ value = .array rows
  | getUserById _ | getUserByHandle _ => ∃ res rest, Succeeded outcome res ∧
      lib.parse res.body = .ok (.array (value :: rest)) ∧ UserRow value
  | countUserPosts _ => ∃ res contentRange, ∃ total : Nat, Succeeded outcome res ∧
      res.contentRange = some contentRange ∧ Total contentRange total ∧ value = .integer total

/-- A failed read is never cached: what is stored is what a well-formed answer holds, and
without one the cache stays as it was. -/
structure CachesAnswers (backend : Backend σ) (env : Environment) (w : World σ)
    (outcome : Option HttpResponse) (call : CachingCall) : Prop where
  stored : w.cache.connected = true → ∀ key value ttl,
    .cacheSet key value ttl ∈ (call.program backend.app).performed
      ((backend.reading outcome).answer env) w →
    key = call.key ∧ call.Answers backend.app.lib outcome value
  kept : (∀ value, ¬call.Answers backend.app.lib outcome value) →
    ((call.program backend.app).run ((backend.reading outcome).answer env) w).2.cache = w.cache

end CachingCall

/-! What the handlers write, from what they find in the cache and in the reply. -/

/-- The requests that may change the database or the cache. -/
def writes (backend : Backend σ) (env : Environment) (p : Handler α) (w : World σ) : List Op :=
  (p.performed (backend.answer env) w).filter Op.isWrite

section

variable {σ : Type} {backend : Backend σ} {env : Environment} {w : World σ}

@[simp] theorem writes_done (result : Except Exception α) :
    writes backend env (done result) w = [] := rfl

theorem writes_perform (op : Op) (next : op.Reply → Handler α) :
    writes backend env (perform op next) w =
      let later := writes backend env (next (backend.answer env op w).1) (backend.answer env op w).2
      if op.isWrite then op :: later else later := by
  simp only [writes, performed_perform, List.filter_cons]

@[simp] theorem writes_getUser (next : Option AuthenticatedUser → Handler α) :
    writes backend env (perform .getUser next) w =
      writes backend env (next (w.auth.getUser env.context)) w := writes_perform ..

@[simp] theorem writes_cacheGet (key : Text) (next : Json → Handler α) :
    writes backend env (perform (.cacheGet key) next) w =
      writes backend env (next (w.cache.getJson key)) w := writes_perform ..

@[simp] theorem writes_select (query : QueryBuilder) (next : Option Json → Handler α) :
    writes backend env (perform (.select query) next) w =
      writes backend env (next (backend.database.select query w.database)) w := writes_perform ..

@[simp] theorem writes_count (query : QueryBuilder) (next : Int → Handler α) :
    writes backend env (perform (.count query) next) w =
      writes backend env (next (backend.database.count query w.database)) w := writes_perform ..

theorem writes_rpc (reading : function ≠ .toggleLike) (params : Json)
    (next : Option Json → Handler α) :
    writes backend env (perform (.rpc function params) next) w =
      writes backend env (next (backend.database.call function params w.database)) w := by
  rw [writes_perform]
  cases function <;> first | rfl | exact absurd rfl reading

/-- A handler that ends after its entry is stored. -/
@[simp] theorem writes_cacheSet (key : Text) (value : Json) (ttlSeconds : Nat)
    (result : Except Exception α) :
    writes backend env (perform (.cacheSet key value ttlSeconds) fun _ => done result) w =
      [.cacheSet key value ttlSeconds] := rfl

@[simp] theorem writes_recover (handler : Exception → α) (p : Handler α) :
    writes backend env (p.recover handler) w = writes backend env p w := by
  rw [writes, performed_recover, writes]

/-- The result of a program is dropped without a request. -/
@[simp] theorem writes_discard (p : Handler α) :
    writes backend env (p >>= fun _ => done (.ok ())) w = writes backend env p w := by
  rw [writes, performed_bind]
  split <;> simp [writes]

/-- What `GetPost` stores of a reply. -/
def storedPost (reply : Option Json) : Option Json :=
  reply.bind fun parsed =>
    if (parsed.present (lit "id")).isSome then (parsePost parsed).toOption.map fun _ => parsed
    else none

/-- What a listing stores of a reply. -/
def storedPage (reply : Option Json) : Option Json :=
  (rows? reply).bind fun rows => (parsePosts rows).toOption.map fun _ => .array rows

/-- What the lookup of a user stores of a reply. -/
def storedUser (reply : Option Json) : Option Json :=
  (firstRow? reply).bind fun first => (parseUser first).toOption.map fun _ => first

/-- What `CountUserPosts` stores of a count. -/
def storedCount (total : Int) : Json := .integer (if 0 ≤ total then toInt32 total else 0)

theorem getPost_writes (postId : Text) :
    writes backend env (CrownServer.getPost postId) w =
      if (w.cache.getJson (Cache.postKey postId)).isObject then []
      else ((storedPost (backend.database.call .getPost
        (.object [(lit "p_user_id", .string (match w.auth.getUser env.context with
          | some user => user.id
          | none => [])), (lit "p_post_id", .string postId)]) w.database)).map
            (.cacheSet (Cache.postKey postId) · cacheTtlPost)).toList := by
  simp only [CrownServer.getPost, call_bind, writes_cacheGet]
  split
  · cases parsePost (w.cache.getJson (Cache.postKey postId)) <;> simp
  · rw [writes_getUser, writes_rpc (by decide)]
    cases backend.database.call .getPost _ w.database with
    | none => simp [storedPost]
    | some parsed =>
      cases found : parsed.present (lit "id") with
      | none => simp [storedPost, found]
      | some stored => cases read : parsePost parsed <;> simp [storedPost, found, read, Except.toOption]

theorem listPosts_writes (cacheKey : Text) (reading : function ≠ .toggleLike) (params : Json) :
    writes backend env (CrownServer.listPosts cacheKey function params) w =
      if (rows? (w.cache.getJson cacheKey)).isSome then []
      else ((storedPage (backend.database.call function params w.database)).map
        (.cacheSet cacheKey · cacheTtlFeed)).toList := by
  simp only [CrownServer.listPosts, call_bind, writes_cacheGet]
  cases rows? (w.cache.getJson cacheKey) with
  | some rows => cases parsed : parsePosts rows <;> simp [parsed]
  | none =>
    dsimp only
    rw [writes_rpc reading]
    cases found : rows? (backend.database.call function params w.database) with
    | none => simp [storedPage, found]
    | some rows => cases parsed : parsePosts rows <;> simp [storedPage, found, parsed, Except.toOption]

theorem lookupUser_writes (cacheKey : Text) (query : QueryBuilder) (missing : Status) :
    writes backend env (CrownServer.lookupUser cacheKey query missing) w =
      if (w.cache.getJson cacheKey).isObject then []
      else ((storedUser (backend.database.select query w.database)).map
        (.cacheSet cacheKey · cacheTtlUser)).toList := by
  simp only [CrownServer.lookupUser, call_bind, writes_cacheGet]
  split
  · cases parseUser (w.cache.getJson cacheKey) <;> simp
  · rw [writes_select]
    cases found : firstRow? (backend.database.select query w.database) with
    | none => simp [storedUser, found]
    | some first => cases parsed : parseUser first <;> simp [storedUser, found, parsed, Except.toOption]

theorem countUserPosts_writes (userId : Text) :
    writes backend env (countUserPosts userId) w =
      if (w.cache.getJson (Cache.postCountKey userId)).isNumber then []
      else [.cacheSet (Cache.postCountKey userId) (storedCount (backend.database.count
        ((fromTable (lit "posts")).eq .authorId userId) w.database)) cacheTtlPostCount] := by
  simp only [countUserPosts, call_bind, writes_cacheGet]
  split
  · simp
  · simp [storedCount]

end

namespace CachingCall

section

variable {σ : Type} (lib : Libraries) (outcome : Option HttpResponse)

/-- The call comes to its read: the caller and the request pass its checks, and there is no
entry of the kind it looks for. -/
def reads (env : Environment) (w : World σ) : CachingCall → Bool
  | getPost postId => !(w.cache.getJson (getPost postId).key).isObject
  | listFeed page limit =>
    (w.auth.getUser env.context).isSome && (rows? (w.cache.getJson (listFeed page limit).key)).isNone
  | listUserPosts userId page limit =>
    (w.auth.getUser env.context).isSome &&
      (rows? (w.cache.getJson (listUserPosts userId page limit).key)).isNone
  | getUserById userId =>
    decide (userId ≠ []) && !(w.cache.getJson (getUserById userId).key).isObject
  | getUserByHandle handle =>
    decide (handle ≠ []) && !(w.cache.getJson (getUserByHandle handle).key).isObject
  | countUserPosts userId => !(w.cache.getJson (countUserPosts userId).key).isNumber

def ttl : CachingCall → Nat
  | getPost _ => cacheTtlPost
  | listFeed .. | listUserPosts .. => cacheTtlFeed
  | getUserById _ | getUserByHandle _ => cacheTtlUser
  | countUserPosts _ => cacheTtlPostCount

/-- What the call stores once it comes to its read. -/
def storedValue : CachingCall → Option Json
  | getPost _ => storedPost (parseReply lib (Supabase.rpc outcome))
  | listFeed .. | listUserPosts .. => storedPage (parseReply lib (Supabase.rpc outcome))
  | getUserById _ | getUserByHandle _ => storedUser (parseReply lib (Supabase.doSelect outcome))
  | countUserPosts _ => some (storedCount (Supabase.doCount outcome))

theorem writes_program (backend : Backend σ) (env : Environment) (w : World σ)
    (call : CachingCall) :
    writes (backend.reading outcome) env (call.program backend.app) w =
      bif call.reads env w then
        ((call.storedValue backend.app.lib outcome).map (.cacheSet call.key · call.ttl)).toList
      else [] := by
  cases call with
  | getPost postId =>
    simp only [program, CrownServer.handle, CrownServer.body, pure_eq, writes_discard,
      writes_recover, getPost_writes, reads, key]
    cases (w.cache.getJson (Cache.postKey postId)).isObject <;> rfl
  | listFeed page limit =>
    simp only [program, CrownServer.handle, CrownServer.body, CrownServer.listFeed, pure_eq,
      writes_discard, writes_recover, call_bind, writes_getUser, reads, key]
    cases w.auth.getUser env.context with
    | none => rfl
    | some user =>
      dsimp only
      rw [listPosts_writes _ (by decide)]
      cases rows? (w.cache.getJson (CrownServer.feedPageKey page limit)) <;> rfl
  | listUserPosts userId page limit =>
    simp only [program, CrownServer.handle, CrownServer.body, CrownServer.listUserPosts, pure_eq,
      writes_discard, writes_recover, call_bind, writes_getUser, reads, key]
    cases w.auth.getUser env.context with
    | none => rfl
    | some user =>
      dsimp only
      rw [listPosts_writes _ (by decide)]
      cases rows? (w.cache.getJson (CrownServer.userPostsPageKey userId page limit)) <;> rfl
  | getUserById userId =>
    simp only [program, CrownServer.handle, CrownServer.body, CrownServer.getUserById, pure_eq,
      writes_discard, writes_recover, reads, key]
    by_cases empty : userId = []
    · simp [empty]
    · rw [if_neg empty, lookupUser_writes, decide_eq_true empty]
      cases (w.cache.getJson (Cache.userKey userId)).isObject <;> rfl
  | getUserByHandle handle =>
    simp only [program, CrownServer.handle, CrownServer.body, CrownServer.getUserByHandle, pure_eq,
      writes_discard, writes_recover, reads, key]
    by_cases empty : handle = []
    · simp [empty]
    · rw [if_neg empty, lookupUser_writes, decide_eq_true empty]
      cases (w.cache.getJson (Cache.handleKey (CrownServer.bareHandle handle))).isObject <;> rfl
  | countUserPosts userId =>
    simp only [program, pure_eq, writes_discard, countUserPosts_writes, reads, key]
    cases (w.cache.getJson (Cache.postCountKey userId)).isNumber <;> rfl

/-- The handler can tell the outcome of its read from a failure. Only `GetPost` does by itself:
the others leave it to the database that every row has an id, and that a count succeeds. -/
def Recognised : CachingCall → Prop
  | getPost _ => True
  | listFeed .. | listUserPosts .. => ∀ res rows posts, Succeeded outcome res →
      lib.parse res.body = .ok (.array rows) → parsePosts rows = .ok posts →
      ∀ row ∈ rows, (row.present (lit "id")).isSome = true
  | getUserById _ | getUserByHandle _ => ∀ res first rest, Succeeded outcome res →
      lib.parse res.body = .ok (.array (first :: rest)) → (first.present (lit "id")).isSome = true
  | countUserPosts _ => ∃ res contentRange total, Succeeded outcome res ∧
      res.contentRange = some contentRange ∧ Total contentRange total ∧ total < 2 ^ 31

/-- What JSON says of the texts that stand for failures: an empty text is no document, and a
number is nothing else. -/
structure JsonGrammar (lib : Libraries) : Prop where
  empty : ∀ value, lib.parse [] ≠ .ok value
  number : ∀ n value, lib.parse (Text.decimal n) = .ok value → value.isNumber = true

end

section

variable {lib : Libraries} {outcome : Option HttpResponse} {row value : Json}

theorem parseReply_eq_some {reply : Text} :
    parseReply lib reply = some value ↔ lib.parse reply = .ok value := by
  unfold parseReply
  cases lib.parse reply <;> simp [Except.toOption]

theorem parseReply_doSelect (grammar : JsonGrammar lib) :
    parseReply lib (Supabase.doSelect outcome) = some value ↔
      ∃ res, Succeeded outcome res ∧ lib.parse res.body = .ok value := by
  rw [parseReply_eq_some]
  constructor
  · intro parsed
    unfold Supabase.doSelect at parsed
    split at parsed
    · exact absurd parsed (grammar.empty value)
    · split at parsed
      · exact absurd parsed (grammar.empty value)
      · split at parsed
        · rename_i res _ success
          exact ⟨res, ⟨rfl, success⟩, parsed⟩
        · exact absurd parsed (grammar.empty value)
  · rintro ⟨res, ⟨rfl, low, high⟩, parsed⟩
    have accepted : ¬400 ≤ res.status := by omega
    simpa [Supabase.doSelect, accepted, low, high] using parsed

theorem parseReply_rpc (grammar : JsonGrammar lib) (structured : value.isNumber = false) :
    parseReply lib (Supabase.rpc outcome) = some value ↔
      ∃ res, Succeeded outcome res ∧ lib.parse res.body = .ok value := by
  have noNumber : ∀ n, lib.parse (Text.decimal n) ≠ .ok value := fun n parsed =>
    Bool.false_ne_true (structured.symm.trans (grammar.number n value parsed))
  rw [parseReply_eq_some]
  constructor
  · intro parsed
    unfold Supabase.rpc at parsed
    split at parsed
    · split at parsed
      · rename_i res success
        exact ⟨res, ⟨rfl, success⟩, parsed⟩
      · exact absurd parsed (noNumber _)
    · exact absurd parsed (noNumber _)
  · rintro ⟨res, ⟨rfl, success⟩, parsed⟩
    simpa [Supabase.rpc, success] using parsed

theorem isNumber_of_present {member : Text} (found : (value.present member).isSome = true) :
    value.isNumber = false := by
  cases value with
  | object members => rfl
  | _ => exact absurd found (by simp [Json.present, Json.find])

/-- A row is a post when it has an id and its fields have their types. -/
theorem postRow_iff : PostRow row ↔
    (row.present (lit "id")).isSome = true ∧ ∃ post, parsePost row = .ok post := by
  unfold PostRow
  cases found : row.present (lit "id") with
  | none => simp [parsePost, found, pure, Except.pure]
  | some stored =>
    have some_of_ok : ∀ post, parsePost row = .ok post → ∃ p, post = some p := by
      intro post read
      simp only [parsePost, found, bind_eq_ok] at read
      obtain ⟨_, _, _, _, _, _, _, _, _, _, _, _, _, _, _, _, withAuthor⟩ := read
      split at withAuthor
      all_goals
        obtain ⟨_, _, shown⟩ := bind_eq_ok.mp withAuthor
        cases shown
        exact ⟨_, rfl⟩
    constructor
    · rintro ⟨post, read⟩
      exact ⟨rfl, _, read⟩
    · rintro ⟨_, post, read⟩
      obtain ⟨p, rfl⟩ := some_of_ok post read
      exact ⟨p, read⟩

theorem userRow_iff : UserRow row ↔
    (row.present (lit "id")).isSome = true ∧ ∃ user, parseUser row = .ok user := by
  unfold UserRow
  cases found : row.present (lit "id") with
  | none => simp [parseUser, found, pure, Except.pure]
  | some stored =>
    have some_of_ok : ∀ user, parseUser row = .ok user → ∃ u, user = some u := by
      intro user read
      simp only [parseUser, found, bind_eq_ok] at read
      obtain ⟨_, _, u, _, shown⟩ := read
      cases shown
      exact ⟨u, rfl⟩
    constructor
    · rintro ⟨user, read⟩
      exact ⟨rfl, _, read⟩
    · rintro ⟨_, user, read⟩
      obtain ⟨u, rfl⟩ := some_of_ok user read
      exact ⟨u, read⟩

/-- Without an id there is nothing to fail on. -/
theorem parseUser_of_absent (absent : row.present (lit "id") = none) :
    parseUser row = .ok none := by
  simp only [parseUser, absent]
  rfl

theorem parsePosts_ok_iff (rows : List Json) : (∃ posts, parsePosts rows = .ok posts) ↔
    ∀ row ∈ rows, ∃ post, parsePost row = .ok post := by
  induction rows with
  | nil => simp [parsePosts, pure, Except.pure]
  | cons first rest ih =>
    rw [List.forall_mem_cons, ← ih]
    simp only [parsePosts, bind_eq_ok]
    constructor
    · rintro ⟨_, post, read, posts, later, _⟩
      exact ⟨⟨post, read⟩, posts, later⟩
    · rintro ⟨⟨post, read⟩, posts, later⟩
      exact ⟨_, post, read, posts, later, rfl⟩

theorem storedPost_eq_some {reply : Option Json} :
    storedPost reply = some value ↔ reply = some value ∧ PostRow value := by
  rw [postRow_iff]
  cases reply with
  | none => simp [storedPost]
  | some parsed =>
    rw [storedPost, Option.bind_some, Option.some.injEq]
    constructor
    · intro stored
      split at stored
      · rename_i found
        cases read : parsePost parsed with
        | error e => simp [read, Except.toOption] at stored
        | ok post =>
          obtain rfl : parsed = value := by simpa [read, Except.toOption] using stored
          exact ⟨rfl, found, post, read⟩
      · cases stored
    · rintro ⟨rfl, found, post, read⟩
      rw [if_pos found, read]
      rfl

theorem rows?_eq_some {reply : Option Json} {rows : List Json} :
    rows? reply = some rows ↔ reply = some (.array rows) := by
  unfold rows?
  split <;> simp_all

theorem firstRow?_eq_some {reply : Option Json} :
    firstRow? reply = some row ↔ ∃ rest, reply = some (.array (row :: rest)) := by
  simp only [firstRow?, Option.bind_eq_some_iff, rows?_eq_some, List.head?_eq_some_iff]
  constructor
  · rintro ⟨_, found, rest, rfl⟩
    exact ⟨rest, found⟩
  · rintro ⟨rest, found⟩
    exact ⟨_, found, rest, rfl⟩

theorem storedPage_eq_some {reply : Option Json} :
    storedPage reply = some value ↔ ∃ rows, reply = some (.array rows) ∧
      (∃ posts, parsePosts rows = .ok posts) ∧ value = .array rows := by
  simp only [storedPage, Option.bind_eq_some_iff, rows?_eq_some]
  refine exists_congr fun rows => and_congr_right fun _ => ?_
  cases parsePosts rows <;> simp [Except.toOption, eq_comm]

theorem storedUser_eq_some {reply : Option Json} :
    storedUser reply = some value ↔
      ∃ rest, reply = some (.array (value :: rest)) ∧ ∃ user, parseUser value = .ok user := by
  simp only [storedUser, Option.bind_eq_some_iff, firstRow?_eq_some]
  constructor
  · rintro ⟨first, ⟨rest, found⟩, kept⟩
    cases read : parseUser first with
    | error e => simp [read, Except.toOption] at kept
    | ok user =>
      obtain rfl : first = value := by simpa [read, Except.toOption] using kept
      exact ⟨rest, found, user, read⟩
  · rintro ⟨rest, found, user, read⟩
    exact ⟨value, ⟨rest, found⟩, by simp [read, Except.toOption]⟩

/-- Digits are read as the number they denote when it fits. -/
theorem stoll_digits {digits : Text} (nonempty : digits ≠ [])
    (digit : ∀ c ∈ digits, c.isDigit = true) (fits : Nat.ofDigitChars 10 digits 0 < 2 ^ 63) :
    stoll digits = some ((Nat.ofDigitChars 10 digits 0 : Nat) : Int) := by
  obtain ⟨first, rest, rfl⟩ := List.exists_cons_of_ne_nil nonempty
  have plain : first.isDigit = true := digit first (List.mem_cons_self ..)
  have code : 48 ≤ first.toNat ∧ first.toNat ≤ 57 := by
    simpa [Char.isDigit, UInt32.le_iff_toNat_le] using plain
  have noSpace : isCSpace first = false := by
    have blank : first ≠ ' ' := by
      rintro rfl
      exact absurd plain (by decide)
    simp only [isCSpace, blank, decide_false, Bool.false_or, Bool.and_eq_false_iff,
      decide_eq_false_iff_not]
    omega
  have unsigned : takeSign (first :: rest) = (1, first :: rest) := by
    unfold takeSign
    split
    · rename_i same
      exact absurd (List.cons.inj same).1 fun minus => absurd (minus ▸ plain) (by decide)
    · rename_i same
      exact absurd (List.cons.inj same).1 fun plus => absurd (plus ▸ plain) (by decide)
    · rfl
  have all : (first :: rest).takeWhile Char.isDigit = first :: rest :=
    List.takeWhile_eq_self_iff.mpr digit
  unfold stoll
  rw [List.dropWhile_cons_of_neg (by simp [noSpace]), unsigned]
  simp only [all, one_mul, nonempty, if_false]
  exact if_pos ⟨by omega, by omega⟩

theorem doCount_total {res : HttpResponse} {contentRange : Text} {total : Nat}
    (success : Succeeded outcome res) (found : res.contentRange = some contentRange)
    (denotes : Total contentRange total) (fits : total < 2 ^ 63) :
    Supabase.doCount outcome = total := by
  obtain ⟨rfl, low, high⟩ := success
  obtain ⟨nonempty, digit, rfl⟩ := denotes
  have accepted : ¬400 ≤ res.status := by omega
  have known : Text.after '/' contentRange ≠ lit "*" := by
    intro star
    have member : '*' ∈ Text.after '/' contentRange := star ▸ by with_unfolding_all decide
    exact absurd (digit _ member) (by decide)
  simp only [Supabase.doCount, accepted, if_false, found, nonempty, known,
    stoll_digits nonempty digit fits, Option.getD_some]

theorem storedCount_total {total : Nat} (fits : total < 2 ^ 31) :
    storedCount total = .integer total := by
  have same : toInt32 total = total := toInt32_eq_self (by omega) (by omega)
  simp [storedCount, same]

/-- What is stored of a count fits into an `int`. -/
theorem storedCount_small {n : Int} {total : Nat} (same : storedCount n = .integer total) :
    total < 2 ^ 31 := by
  have small := (toInt32_range n).2
  unfold storedCount at same
  injection same with same
  split at same <;> omega

theorem storedPage_answers_iff (grammar : JsonGrammar lib) (page limit : UInt32) :
    (∀ value, storedPage (parseReply lib (Supabase.rpc outcome)) = some value →
      (listFeed page limit).Answers lib outcome value) ↔
      (listFeed page limit).Recognised lib outcome := by
  constructor
  · intro answers res rows posts success parsed read
    have found : parseReply lib (Supabase.rpc outcome) = some (.array rows) :=
      (parseReply_rpc grammar rfl).mpr ⟨res, success, parsed⟩
    obtain ⟨_, rows', _, _, good, same⟩ := answers (.array rows)
      (storedPage_eq_some.mpr ⟨rows, found, ⟨posts, read⟩, rfl⟩)
    obtain rfl : rows = rows' := by simpa using same
    exact fun row member => (postRow_iff.mp (good row member)).1
  · intro recognised value stored
    obtain ⟨rows, found, ⟨posts, read⟩, rfl⟩ := storedPage_eq_some.mp stored
    obtain ⟨res, success, parsed⟩ := (parseReply_rpc grammar rfl).mp found
    have readable := (parsePosts_ok_iff rows).mp ⟨posts, read⟩
    refine ⟨res, rows, success, parsed, fun row member => ?_, rfl⟩
    exact postRow_iff.mpr ⟨recognised res rows posts success parsed read row member,
      readable row member⟩

theorem storedUser_answers_iff (grammar : JsonGrammar lib) (userId : Text) :
    (∀ value, storedUser (parseReply lib (Supabase.doSelect outcome)) = some value →
      (getUserById userId).Answers lib outcome value) ↔
      (getUserById userId).Recognised lib outcome := by
  constructor
  · intro answers res first rest success parsed
    cases absent : first.present (lit "id") with
    | some stored => rfl
    | none =>
      have found := (parseReply_doSelect grammar).mpr ⟨res, success, parsed⟩
      obtain ⟨_, _, _, _, good⟩ := answers first
        (storedUser_eq_some.mpr ⟨rest, found, none, parseUser_of_absent absent⟩)
      exact absent ▸ (userRow_iff.mp good).1
  · intro recognised value stored
    obtain ⟨rest, found, user, read⟩ := storedUser_eq_some.mp stored
    obtain ⟨res, success, parsed⟩ := (parseReply_doSelect grammar).mp found
    exact ⟨res, rest, success, parsed,
      userRow_iff.mpr ⟨recognised res value rest success parsed, user, read⟩⟩

theorem storedCount_answers_iff (userId : Text) :
    (countUserPosts userId).Answers lib outcome (storedCount (Supabase.doCount outcome)) ↔
      (countUserPosts userId).Recognised lib outcome := by
  constructor
  · rintro ⟨res, contentRange, total, success, found, denotes, same⟩
    exact ⟨res, contentRange, total, success, found, denotes, storedCount_small same⟩
  · rintro ⟨res, contentRange, total, success, found, denotes, fits⟩
    have counted := doCount_total success found denotes (by omega)
    have same := (congrArg storedCount counted).trans (storedCount_total fits)
    exact ⟨res, contentRange, total, success, found, denotes, same⟩

/-- What the handler stores is what a well-formed answer holds exactly if the handler can
tell the outcome from a failure. -/
theorem storedValue_answers_iff (grammar : JsonGrammar lib) (call : CachingCall) :
    (∀ value, call.storedValue lib outcome = some value → call.Answers lib outcome value) ↔
      call.Recognised lib outcome := by
  cases call with
  | getPost postId =>
    refine ⟨fun _ => trivial, fun _ value stored => ?_⟩
    obtain ⟨found, post⟩ := storedPost_eq_some.mp stored
    have structured := isNumber_of_present (postRow_iff.mp post).1
    obtain ⟨res, success, parsed⟩ := (parseReply_rpc grammar structured).mp found
    exact ⟨res, success, parsed, post⟩
  | listFeed page limit => exact storedPage_answers_iff grammar page limit
  | listUserPosts userId page limit => exact storedPage_answers_iff grammar page limit
  | getUserById userId => exact storedUser_answers_iff grammar userId
  | getUserByHandle handle => exact storedUser_answers_iff grammar handle
  | countUserPosts userId =>
    rw [← storedCount_answers_iff]
    simp [storedValue]

section

variable {σ : Type} {backend : Backend σ} {env : Environment} {w : World σ} {call : CachingCall}

/-- A call that can tell its outcome from a failure stores nothing but an answer. -/
theorem performed_write {op : Op} (grammar : JsonGrammar backend.app.lib)
    (recognised : w.cache.connected = true → call.reads env w = true →
      call.Recognised backend.app.lib outcome)
    (member : op ∈ (call.program backend.app).performed ((backend.reading outcome).answer env) w)
    (isWrite : op.isWrite = true) : ∃ value, op = .cacheSet call.key value call.ttl ∧
      (w.cache.connected = true → call.Answers backend.app.lib outcome value) := by
  have among : op ∈ writes (backend.reading outcome) env (call.program backend.app) w :=
    List.mem_filter.mpr ⟨member, isWrite⟩
  rw [writes_program outcome backend env w call] at among
  cases comes : call.reads env w with
  | false => simp [comes] at among
  | true =>
    obtain ⟨value, stored, rfl⟩ : ∃ value, call.storedValue backend.app.lib outcome =
        some value ∧ .cacheSet call.key value call.ttl = op := by simpa [comes] using among
    exact ⟨value, rfl, fun connected =>
      (storedValue_answers_iff grammar call).mpr (recognised connected comes) value stored⟩

/-- What is no answer leaves the cache alone. -/
theorem cache_unchanged (grammar : JsonGrammar backend.app.lib)
    (recognised : w.cache.connected = true → call.reads env w = true →
      call.Recognised backend.app.lib outcome)
    (failed : ∀ value, ¬call.Answers backend.app.lib outcome value) :
    ((call.program backend.app).run ((backend.reading outcome).answer env) w).2.cache =
      w.cache := by
  have unchanged : ∀ op ∈ (call.program backend.app).performed
      ((backend.reading outcome).answer env) w, ∀ v : World σ, v.cache = w.cache →
      ((backend.reading outcome).answer env op v).2.cache = w.cache := by
    intro op member v same
    cases isWrite : op.isWrite with
    | false => exact (Backend.answer_read _ env op v isWrite).2.trans same
    | true =>
      obtain ⟨value, rfl, answers⟩ := performed_write grammar recognised member isWrite
      have disconnected : ¬w.cache.connected = true := fun connected =>
        failed value (answers connected)
      simp [Backend.answer, Cache.setJson, same, disconnected]
  let Invariant (v : World σ) : Prop := v.cache = w.cache
  have kept : Invariant ((call.program backend.app).run
      ((backend.reading outcome).answer env) w).2 := run_invariant _ w rfl unchanged
  exact kept

end

/-- Failed reads are never cached exactly if the call does not come to its read, has no cache
to store in, or can tell the outcome of the read from a failure. -/
theorem cachesAnswers_iff (backend : Backend σ) (grammar : JsonGrammar backend.app.lib)
    (env : Environment) (w : World σ) (outcome : Option HttpResponse) (call : CachingCall) :
    call.CachesAnswers backend env w outcome ↔
      (w.cache.connected = true → call.reads env w = true →
        call.Recognised backend.app.lib outcome) := by
  constructor
  · intro caches connected comes
    refine (storedValue_answers_iff grammar call).mp fun value stored => ?_
    have among : .cacheSet call.key value call.ttl ∈
        writes (backend.reading outcome) env (call.program backend.app) w := by
      simp [writes_program outcome backend env w call, comes, stored]
    exact (caches.stored connected _ _ _ (List.mem_filter.mp among).1).2
  · intro recognised
    refine ⟨fun connected key value ttl member => ?_, cache_unchanged grammar recognised⟩
    obtain ⟨_, same, answers⟩ := performed_write grammar recognised member rfl
    injection same with keys values
    subst keys values
    exact ⟨rfl, answers connected⟩

end

/-! A count of the empty site, with nothing cached. -/

/-- A library that reads numbers and nothing else. -/
def numberApp : AppContext :=
  { Platform.plain.app with
    lib := { Platform.plain.app.lib with
      parse := fun text => match stoll text with
        | some n => .ok (.integer n)
        | none => .error (.parseError []) } }

def numberPlatform : Platform := { Platform.plain with app := numberApp }

theorem numberApp_grammar : JsonGrammar numberApp.lib where
  empty value parsed := by simp [numberApp, stoll, takeSign] at parsed
  number n value parsed := by
    dsimp only [numberApp] at parsed
    split at parsed
    · cases parsed
      rfl
    · cases parsed

def quietEnvironment : Environment := ⟨0, fun _ => none, ⟨0, ⟨none, 0⟩, ⟨none, 0⟩, 0⟩⟩

theorem twoPosts_total : Total (lit "0-1/2") 2 := by
  have digits : Text.after '/' (lit "0-1/2") = ['2'] := by with_unfolding_all decide
  rw [Total, digits]
  exact ⟨by simp, by simp, by simp [Nat.ofDigitChars_cons]⟩

/-- Two posts are counted. -/
theorem twoPosts_cached : (countUserPosts (lit "u")).CachesAnswers numberPlatform.backend
    quietEnvironment Site.empty.world (some ⟨200, [], some (lit "0-1/2")⟩) :=
  (cachesAnswers_iff numberPlatform.backend numberApp_grammar _ _ _ _).mpr fun _ _ =>
    ⟨_, _, 2, ⟨rfl, by decide, by decide⟩, rfl, twoPosts_total, by decide⟩

/-- Without a response a count of zero is cached. -/
theorem unansweredCount_cached : ¬(countUserPosts (lit "u")).CachesAnswers
    Platform.plain.backend quietEnvironment Site.empty.world none := by
  intro caches
  have stored : .cacheSet (Cache.postCountKey (lit "u")) (.integer 0) cacheTtlPostCount ∈
      ((countUserPosts (lit "u")).program Platform.plain.backend.app).performed
        ((Platform.plain.backend.reading none).answer quietEnvironment) Site.empty.world :=
    List.mem_cons_of_mem _ (List.mem_cons_of_mem _ (List.mem_cons_self ..))
  obtain ⟨_, _, _, ⟨impossible, _⟩, _⟩ := (caches.stored rfl _ _ _ stored).2
  cases impossible

end CachingCall
end Crown
