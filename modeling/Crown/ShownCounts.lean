import Crown.PostCounts
import Crown.UserHandles

/-! The number of posts the handlers show of a user, which they read from a column, against the
rows of `posts`. No operation of the server writes the column. -/
namespace Crown

open Lib Program

namespace Tables

/-- Every user is an earlier one with its number of posts, or a new one with none. -/
structure CountsUnwritten (t t' : Tables) : Prop where
  stay : UsersStay t t'
  users : ∀ row ∈ t'.users, (∃ old ∈ t.users, old.id = row.id ∧ old.postsCount = row.postsCount) ∨
    row.postsCount = 0 ∧ ∀ old ∈ t.users, old.id ≠ row.id

/-- The column is the number of rows. -/
def CountsAgree (t : Tables) : Prop :=
  ∀ row ∈ t.users, (toUInt32 row.postsCount).toNat = (t.postsOf row.id).length

instance (t : Tables) : Decidable t.CountsAgree :=
  inferInstanceAs (Decidable (∀ row ∈ t.users, _))

variable {t t' t'' : Tables}

theorem CountsUnwritten.of_users (same : t'.users = t.users) : CountsUnwritten t t' := by
  refine ⟨fun u member => ⟨u, same ▸ member, rfl⟩, fun row member => .inl ?_⟩
  exact ⟨row, same ▸ member, rfl, rfl⟩

theorem CountsUnwritten.trans (first : CountsUnwritten t t') (second : CountsUnwritten t' t'') :
    CountsUnwritten t t'' := by
  refine ⟨first.stay.trans second.stay, fun row member => ?_⟩
  rcases second.users row member with ⟨middle, between, id, count⟩ | ⟨zero, absent⟩
  · rcases first.users middle between with ⟨old, stored, id', count'⟩ | ⟨zero, absent⟩
    · exact .inl ⟨old, stored, id'.trans id, count'.trans count⟩
    · exact .inr ⟨count ▸ zero, fun old stored => id ▸ absent old stored⟩
  · refine .inr ⟨zero, fun old stored same => ?_⟩
    obtain ⟨later, present, kept⟩ := first.stay old stored
    exact absent later present (kept.trans same)

/-- What keeps the posts and does not write the column keeps the agreement. -/
theorem CountsAgree.unwritten (agree : t.CountsAgree) (known : t.AuthorsKnown)
    (unwritten : CountsUnwritten t t') (posts : t'.posts = t.posts) : t'.CountsAgree := by
  intro row member
  rw [postsOf, posts]
  rcases unwritten.users row member with ⟨old, stored, id, count⟩ | ⟨zero, absent⟩
  · rw [← id, ← count]
    exact agree old stored
  · have none : t.posts.filter (·.authorId = row.id) = [] := by
      refine List.filter_eq_nil_iff.mpr fun post stored own => ?_
      obtain ⟨u, author, same⟩ := author_isSome.mp (known post stored)
      exact absent u author (same.trans (of_decide_eq_true own))
    rw [none, zero]
    rfl

end Tables

section

variable (platform : Platform) (env : Environment)

theorem answer_unwritten (op : Op) (w : World Tables) :
    Tables.CountsUnwritten w.database (platform.backend.answer env op w).2.database := by
  cases op with
  | insert table row =>
    show Tables.CountsUnwritten w.database (w.database.insert table row).2
    rcases w.database.insert_cases row table with refused | ⟨fresh, added⟩
    · exact .of_users (congrArg Tables.users refused)
    · refine ⟨answer_users platform env (.insert table row) w, fun user member => ?_⟩
      rw [added] at member
      rcases List.mem_append.mp member with old | new
      · exact .inl ⟨user, old, rfl, rfl⟩
      · rw [List.mem_singleton.mp new]
        exact .inr ⟨rfl, fresh⟩
  | insertReturn table row =>
    exact .of_users (w.database.insertReturn_users platform.service row table)
  | update query row =>
    show Tables.CountsUnwritten w.database (w.database.update platform.service query row).2
    rcases w.database.update_cases platform.service query row with refused | ⟨_, overwritten⟩
    · exact .of_users (congrArg Tables.users refused)
    · refine ⟨answer_users platform env (.update query row) w, fun user member => .inl ?_⟩
      rw [overwritten] at member
      obtain ⟨old, stored, rfl⟩ := List.mem_map.mp member
      refine ⟨old, stored, ?_⟩
      split <;> exact ⟨rfl, rfl⟩
  | delete query => exact .of_users (w.database.delete_cases platform.service query).1
  | rpc function params =>
    cases function with
    | toggleLike => exact .of_users (w.database.toggleLike_counts params).1
    | _ => exact .of_users rfl
  | _ => exact .of_users rfl

theorem run_unwritten (p : Handler α) (w : World Tables) :
    Tables.CountsUnwritten w.database (p.run (platform.backend.answer env) w).2.database := by
  have kept : ∀ op ∈ p.performed (platform.backend.answer env) w, ∀ w' : World Tables,
      Tables.CountsUnwritten w.database w'.database →
        Tables.CountsUnwritten w.database (platform.backend.answer env op w').2.database :=
    fun op _ w' earlier => earlier.trans (answer_unwritten platform env op w')
  exact p.run_invariant w (.of_users rfl) kept

theorem run_connected (p : Handler α) (w : World Tables) :
    (p.run (platform.backend.answer env) w).2.cache.connected = w.cache.connected := by
  have kept : ∀ op ∈ p.performed (platform.backend.answer env) w, ∀ w' : World Tables,
      w'.cache.connected = w.cache.connected →
        (platform.backend.answer env op w').2.cache.connected = w.cache.connected := by
    intro op _ w' earlier
    cases op with
    | cacheSet key value ttlSeconds => exact (Cache.setJson_connected ..).trans earlier
    | cacheDel key => exact (Cache.del_connected ..).trans earlier
    | cacheDelPattern pattern => exact (Cache.delPattern_connected ..).trans earlier
    | rpc function params => cases function <;> exact earlier
    | _ => exact earlier
  exact p.run_invariant w (Eq.refl w.cache.connected) kept

end

/-- The users in a response. -/
def Response.users : Response → List User
  | .user found => [found]
  | .post found => found.author.toList
  | .postList found => found.filterMap (·.author)
  | .login result => result.user.toList
  | .toggleLike _ | .empty => []

/-- The calls that show users with the number of their posts. -/
def Request.showsUsers : Request → Bool
  | .getUserById _ | .getUserByHandle _ | .listFeed .. | .getPost _ => true
  | _ => false

/-- Whoever is shown is shown with the number of rows, and so many are counted. -/
structure ShowsCounts (platform : Platform) (s : Site) : Prop where
  shown : ∀ user env request response, request.showsUsers = true →
    (s.handle platform user env request).1 = .ok (.ok response) → ∀ shown ∈ response.users,
      shown.postsCount.toNat = (s.world.database.postsOf shown.id).length
  counted : ∀ env userId found,
    s.world.database.selectPosts platform.service (authorPosts userId) = some found →
    found.Perm (s.world.database.postsOf userId) →
    ∃ n, ((countUserPosts userId).run (platform.backend.answer env) s.world).1 = .ok n ∧
      (toUInt32 n).toNat = (s.world.database.postsOf userId).length

theorem UserRow.parseUser_json (timestamp : Int → Text) (row : UserRow) :
    parseUser (row.json timestamp) = .ok (some (row.user timestamp)) := by
  have found : (row.json timestamp).find (lit "id") = some (.string row.id) := by
    simp [json, members, Json.find]
  have read : readAuthor (row.json timestamp) = readUser row.id (row.json timestamp) := by
    have object : readAuthor (row.json timestamp) =
        ((row.json timestamp).jsonOr Json.getString (lit "id") [] >>= fun id =>
          readUser id (row.json timestamp)) := rfl
    rw [object, Json.jsonOr, found]
    rfl
  rw [UserRow.readAuthor_json] at read
  simp only [parseUser, Json.present, found, Json.getString]
  show (readUser row.id (row.json timestamp) >>= fun user => .ok (some user)) = _
  rw [← read]
  rfl

/-- What a direct query comes to: the first row it selects, or the status. -/
def Tables.direct (service : DatabaseService) (t : Tables) (query : QueryBuilder)
    (missing : Status) : Except Status Response :=
  match t.selectUsers service query with
  | some (row :: _) => .ok (.user (row.user service.timestamp))
  | _ => .error missing

section

variable {platform : Platform} {env : Environment} {w : World Tables} {response : Response}
variable {key : Text} {query : QueryBuilder} {missing : Status}

theorem lookupUser_hit {row : UserRow}
    (cached : w.cache.getJson key = row.json platform.service.timestamp) :
    (CrownServer.lookupUser key query missing).run (platform.backend.answer env) w =
      (.ok (.ok (.user (row.user platform.service.timestamp))), w) := by
  have got : platform.backend.answer env (.cacheGet key) w =
      (row.json platform.service.timestamp, w) := congrArg (·, w) cached
  have object : (row.json platform.service.timestamp).isObject = true := rfl
  simp only [CrownServer.lookupUser, call_bind, run_perform, got, object, if_true,
    UserRow.parseUser_json, liftM_eq, done_ok_bind]
  rfl

/-- Without an entry the first row is answered, and cached. -/
theorem lookupUser_miss (platform : Platform) (env : Environment) (missing : Status)
    (missed : (w.cache.getJson key).isObject = false) (users : query.table = lit "users") :
    let ran := (CrownServer.lookupUser key query missing).run (platform.backend.answer env) w
    ran.1 = .ok (w.database.direct platform.service query missing) ∧
      (ran.2 = w ∨ ∃ row rest, w.database.selectUsers platform.service query = some (row :: rest) ∧
        ran.2 = { w with
          cache := w.cache.setJson key (row.json platform.service.timestamp) }) := by
  have got : platform.backend.answer env (.cacheGet key) w = (w.cache.getJson key, w) := rfl
  have selected : platform.backend.answer env (.select query) w =
      ((w.database.selectUsers platform.service query).map fun rows =>
        .array (rows.map (UserRow.json platform.service.timestamp)), w) :=
    congrArg (·, w) (Tables.select_users platform.service w.database users)
  simp only [CrownServer.lookupUser, call_bind, run_perform, got, missed, Bool.false_eq_true, if_false,
    selected, Tables.direct]
  rcases w.database.selectUsers platform.service query with _ | _ | ⟨row, rest⟩
  · exact ⟨rfl, .inl rfl⟩
  · exact ⟨rfl, .inl rfl⟩
  · simp only [firstRow?, rows?, Option.map_some, List.map_cons, Option.bind_some, List.head?_cons,
      UserRow.parseUser_json, liftM_eq, done_ok_bind, run_perform]
    exact ⟨rfl, .inr ⟨row, rest, rfl, rfl⟩⟩

/-- Users that are shown are in the table. -/
def FromTable (platform : Platform) (t : Tables) (response : Response) : Prop :=
  ∀ shown ∈ response.users, ∃ row ∈ t.users, shown = row.user platform.service.timestamp

theorem getJson_unconnected {cache : Cache} (unconnected : cache.connected = false) (key : Text) :
    cache.getJson key = .null := by
  rw [Cache.getJson, unconnected]
  rfl

theorem lookupUser_shown (unconnected : w.cache.connected = false)
    (users : query.table = lit "users")
    (answered : ((CrownServer.lookupUser key query missing).run (platform.backend.answer env) w).1 =
      .ok (.ok response)) : FromTable platform w.database response := by
  have missed : (w.cache.getJson key).isObject = false :=
    congrArg Json.isObject (getJson_unconnected unconnected key)
  rw [(lookupUser_miss platform env missing missed users).1, Except.ok.injEq, Tables.direct] at answered
  split at answered
  · rename_i row rest selected
    cases answered
    intro shown member
    have stored := platform.service.selection.filtered selected row (List.mem_cons_self ..)
    exact ⟨row, stored.1, List.mem_singleton.mp member⟩
  · cases answered

theorem getPost_shown (unconnected : w.cache.connected = false)
    (answered : ((CrownServer.getPost postId).run (platform.backend.answer env) w).1 =
      .ok (.ok response)) : FromTable platform w.database response := by
  have got : platform.backend.answer env (.cacheGet (Cache.postKey postId)) w = (.null, w) :=
    congrArg (·, w) (getJson_unconnected unconnected _)
  have replied : (platform.backend.answer env .getUser w).2 = w := rfl
  have called : ∀ params, platform.backend.answer env (.rpc .getPost params) w =
      (w.database.call platform.service .getPost params, w) := fun _ => rfl
  have null : Json.isObject .null = false := rfl
  simp only [CrownServer.getPost, call_bind, run_perform, got, null, Bool.false_eq_true, if_false,
    replied, called] at answered
  generalize found : w.database.call platform.service .getPost _ = reply at answered
  rcases Tables.call_getPost found with rfl | ⟨post, author, _, _, written, rfl⟩
  · cases answered
  · have known : ∀ viewer, ((w.database.viewedJson platform.service viewer post author).present
        (lit "id")).isSome = true := fun viewer => by
      simp [Tables.viewedJson, Tables.viewedMembers, PostRow.members, Json.present, Json.find]
    simp only [known, if_true, Tables.parsePost_viewedJson, liftM_eq, done_ok_bind, run_perform]
      at answered
    cases answered
    intro shown member
    exact ⟨author, List.mem_of_find?_eq_some written, List.mem_singleton.mp member⟩

theorem Tables.page_authors {t : Tables} {service : DatabaseService} {posts : List PostRow}
    {rows : List (PostRow × UserRow)} (paged : t.page service posts limit offset = some rows) :
    ∀ row ∈ rows, row.2 ∈ t.users := by
  intro row member
  unfold page at paged
  split at paged
  · cases paged
  · cases paged
    obtain ⟨post, _, joined⟩ :=
      List.mem_filterMap.mp (List.mem_of_mem_drop (List.mem_of_mem_take member))
    obtain ⟨author, written, rfl⟩ := Option.map_eq_some_iff.mp joined
    exact List.mem_of_find?_eq_some written

theorem listFeed_shown {s : Site} (unconnected : s.world.cache.connected = false)
    {user : Option AuthenticatedUser} {page limit : UInt32}
    (answered : (s.handle platform user env (.listFeed page limit)).1 = .ok (.ok response)) :
    FromTable platform s.world.database response := by
  have listing : (Request.listFeed page limit).listing = some (CrownServer.feedPageKey page limit,
      .getFeed, fun viewer => CrownServer.feedParams viewer page limit) := rfl
  have missed : rows? (s.world.cache.getJson (CrownServer.feedPageKey page limit)) = none := by
    rw [getJson_unconnected unconnected]
    rfl
  cases user with
  | none =>
    have unknown := s.getUser_calledBy env.context none
    rw [Site.handle, listing_anonymous (by exact listing) unknown] at answered
    cases answered
  | some caller =>
    cases read : (Request.listFeed page limit).rows platform.service s.world.database with
    | none =>
      rw [Site.handle_refused _ listing missed read] at answered
      cases answered
      intro shown member
      cases member
    | some rows =>
      rw [Site.handle_miss _ listing missed read] at answered
      cases answered
      intro shown member
      obtain ⟨post, listed, author⟩ := List.mem_filterMap.mp member
      obtain ⟨row, stored, rfl⟩ := List.mem_map.mp listed
      exact ⟨row.2, Tables.page_authors read row stored, (Option.some.inj author).symm⟩

/-- The readers show users of the table. -/
theorem handle_shown {s : Site} (unconnected : s.world.cache.connected = false)
    {user : Option AuthenticatedUser} {request : Request} (shows : request.showsUsers = true)
    (answered : (s.handle platform user env request).1 = .ok (.ok response)) :
    FromTable platform s.world.database response := by
  have users : ∀ column value, (CrownServer.userLookup column value).table = lit "users" :=
    fun _ _ => rfl
  cases request with
  | listFeed page limit => exact listFeed_shown unconnected answered
  | getPost postId =>
    exact getPost_shown (w := s.calledBy env.context user) unconnected (Site.handle_ok answered)
  | getUserById userId =>
    have returned := Site.handle_ok answered
    simp only [CrownServer.body, CrownServer.getUserById] at returned
    split at returned
    · cases returned
    · exact lookupUser_shown (w := s.calledBy env.context user) unconnected (users _ _) returned
  | getUserByHandle handle =>
    have returned := Site.handle_ok answered
    simp only [CrownServer.body, CrownServer.getUserByHandle] at returned
    split at returned
    · cases returned
    · exact lookupUser_shown (w := s.calledBy env.context user) unconnected (users _ _) returned
  | _ => cases shows

end

namespace Site

variable {platform : Platform} {s : Site}

/-- What holds after every run. The cache is not consulted where it is not connected. -/
structure CountsKept (s : Site) : Prop where
  unconnected : s.world.cache.connected = false
  known : s.world.database.AuthorsKnown
  agree : s.world.database.CountsAgree

theorem CountsKept.shows (kept : CountsKept s) : ShowsCounts platform s := by
  refine ⟨fun user env request response shows answered shown member => ?_,
    fun env userId found selected all => ?_⟩
  · obtain ⟨row, stored, rfl⟩ := handle_shown kept.unconnected shows answered shown member
    exact kept.agree row stored
  · have few : (s.world.database.postsOf userId).length < 2 ^ 32 := by
      cases own : s.world.database.postsOf userId with
      | nil => decide
      | cons post rest =>
        have stored : post ∈ s.world.database.postsOf userId := own ▸ List.mem_cons_self ..
        obtain ⟨present, author⟩ := List.mem_filter.mp stored
        obtain ⟨u, known, same⟩ := Tables.author_isSome.mp (kept.known post present)
        have agree := kept.agree u known
        rw [same, of_decide_eq_true author, own] at agree
        rw [← agree]
        exact UInt32.toNat_lt _
    refine ⟨_, congrArg Prod.fst (countUserPosts_run platform env s.world userId), ?_⟩
    have rows := CountWatch.count_authorPosts selected all
    have null : Json.isNumber .null = false := rfl
    have natural : (0 : Int) ≤ (s.world.database.postsOf userId).length := Int.natCast_nonneg _
    simp only [counted, getJson_unconnected kept.unconnected, null, Bool.false_eq_true, if_false, rows,
      natural, if_true]
    exact toUInt32_toInt32 few

/-- The calls that may change users or posts. Time passes between them. -/
def Event.writesPosts : Event → Bool
  | .call _ _ (.login ..) | .call _ _ (.createPost ..) | .call _ _ (.deletePost _) | .clock _ => true
  | _ => false

/-- No post is created or deleted: who creates one is unknown or sends what is refused, and who
deletes one has none. -/
def PostsStay (platform : Platform) (s : Site) : Event → Prop
  | .call user _ (.createPost title content imageUrl) =>
    user = none ∨ checkPost title content imageUrl ≠ none
  | .call user _ (.deletePost postId) =>
    ∀ first found, ¬Tables.Deletes platform.service s.world.database user postId first found
  | _ => True

theorem step_posts {event : Event} (writes : event.writesPosts = true)
    (stay : PostsStay platform s event) :
    (s.step platform event).world.database.posts = s.world.database.posts := by
  cases event with
  | call user env request =>
    obtain ⟨database, _⟩ := step_call platform s user env request
    rw [database]
    have known := s.getUser_calledBy env.context user
    cases request with
    | login authorizationCode redirectUri =>
      exact (login_run platform env (s.calledBy env.context user) authorizationCode redirectUri).1
    | createPost title content imageUrl =>
      cases user with
      | none =>
        rw [CrownServer.body, createPost_refused platform env _ title content imageUrl known]
        rfl
      | some caller =>
        obtain ⟨status, refused⟩ :=
          Option.ne_none_iff_exists'.mp (stay.resolve_left (Option.some_ne_none _))
        have replied : platform.backend.answer env .getUser (s.calledBy env.context (some caller)) =
            (some caller, s.calledBy env.context (some caller)) := congrArg (·, _) known
        simp only [CrownServer.body, CrownServer.createPost, call_bind, run_perform, replied, refused]
        rfl
    | deletePost postId =>
      rcases deletePost_run platform env (s.calledBy env.context user) postId with
        ⟨first, found, deletes, _⟩ | ⟨_, posts, _⟩
      · rw [known] at deletes
        exact absurd deletes (stay first found)
      · exact posts
    | _ => cases writes
  | clock now => rfl
  | _ => cases writes

theorem step_countsKept {event : Event} (writes : event.writesPosts = true)
    (stay : PostsStay platform s event) (kept : CountsKept s) :
    CountsKept (s.step platform event) := by
  have posts := step_posts writes stay
  cases event with
  | call user env request =>
    obtain ⟨database, cache⟩ := step_call platform s user env request
    refine ⟨?_, ?_, ?_⟩
    · rw [cache, run_connected]
      exact kept.unconnected
    · rw [database]
      exact run_known platform env _ _ kept.known
    · rw [database] at posts ⊢
      exact kept.agree.unwritten kept.known
        (run_unwritten platform env _ (s.calledBy env.context user)) posts
  | clock now => exact ⟨kept.unconnected, kept.known, kept.agree⟩
  | _ => cases writes

/-- In every run of such calls in which no post is created or deleted, the numbers that are shown
and counted are those of the rows. -/
theorem run_showsCounts (platform : Platform) {start s : Site} {events : List Event}
    (unconnected : start.world.cache.connected = false)
    (known : start.world.database.AuthorsKnown) (agree : start.world.database.CountsAgree)
    (run : Run (Guarded (PostsStay platform)
      fun s event s' => event.writesPosts = true ∧ s' = s.step platform event) start events s) :
    ShowsCounts platform s := by
  have first : CountsKept start := ⟨unconnected, known, agree⟩
  have kept : ∀ (s : Site) (event : Event) (s' : Site), CountsKept s →
      Guarded (PostsStay platform)
        (fun s event s' => event.writesPosts = true ∧ s' = s.step platform event) s event s' →
      CountsKept s' := by
    rintro s event _ kept ⟨stay, writes, rfl⟩
    exact step_countsKept writes stay kept
  exact (run.invariant first kept).shows

def uncached : Site := { keyed with world := { keyed.world with cache := ⟨false, fun _ => none⟩ } }

/-- A login of a new user, who posts nothing. -/
theorem newUser_showsCounts : ShowsCounts .signing
    ([signsIn, signedCalls (.createPost [] (lit "one") [])].foldl (step .signing) uncached) := by
  have stays : PostsStay .signing (step .signing uncached signsIn)
      (signedCalls (.createPost [] (lit "one") [])) := .inr (by decide)
  have run : Run (Guarded (PostsStay .signing)
      fun s event s' => event.writesPosts = true ∧ s' = s.step .signing event) uncached
      [signsIn, signedCalls (.createPost [] (lit "one") [])]
      ([signsIn, signedCalls (.createPost [] (lit "one") [])].foldl (step .signing) uncached) :=
    .cons ⟨trivial, rfl, rfl⟩ (.cons ⟨stays, rfl, rfl⟩ .nil)
  exact run_showsCounts .signing rfl (fun _ member => absurd member List.not_mem_nil)
    (fun _ member => absurd member List.not_mem_nil) run

def shownUser (result : Except Exception (Except Status Response)) : Option User :=
  match result with
  | .ok (.ok (.user shown)) => some shown
  | _ => none

theorem shownUser_eq_some {result : Except Exception (Except Status Response)}
    (shown : shownUser result = some u) : result = .ok (.ok (.user u)) := by
  unfold shownUser at shown
  split at shown
  · cases shown
    rfl
  · cases shown

/-- Ana has one post and is shown with none. -/
theorem anaPosts_unshown : ¬∀ (platform : Platform) (start : Site) (events : List Event) (s : Site),
    start.world.cache.connected = false → start.world.database.AuthorsKnown →
    start.world.database.CountsAgree →
    Run (fun s event s' => event.writesPosts = true ∧ s' = s.step platform event) start events s →
    ShowsCounts platform s := by
  intro shows
  let posted := anaCalls (.createPost (lit "one") (lit "one") [])
  have run : Run (fun s event s' => event.writesPosts = true ∧ s' = s.step Platform.plain event) uncached
      [posted] (step .plain uncached posted) := .cons ⟨rfl, rfl⟩ .nil
  obtain ⟨shown, _⟩ := shows .plain uncached _ _ rfl
    (fun _ member => absurd member List.not_mem_nil)
    (fun _ member => absurd member List.not_mem_nil) run
  have seen : (shownUser ((step .plain uncached posted).handle .plain none localEnvironment
        (.getUserById ana.id)).1).map (fun u => (u.id, u.postsCount)) = some (ana.id, 0) ∧
      ((step .plain uncached posted).world.database.postsOf ana.id).length = 1 := by
    with_unfolding_all decide
  obtain ⟨seen, one⟩ := seen
  obtain ⟨u, answered, same⟩ := Option.map_eq_some_iff.mp seen
  have count := shown none localEnvironment (.getUserById ana.id) (.user u) rfl
    (shownUser_eq_some answered) u (List.mem_singleton_self u)
  rw [Prod.mk.injEq] at same
  rw [same.1, same.2, one] at count
  exact absurd count (by decide)

end Site

end Crown
