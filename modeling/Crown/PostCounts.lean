import Crown.FeedEntries
import Crown.JwtAcceptance
import Crown.Lib.Service

/-! The number of posts that `Login` answers against the rows, over whole runs of complete
calls. `CreatePost` takes the cached number out of the cache, `DeletePost` leaves it there. -/
namespace Crown

open Lib Program

theorem cachedInt_toInt32 (n : Int) : cachedInt (.integer (toInt32 n)) = toInt32 n :=
  if_pos (toInt32_range n)

/-- The request that counts an author's posts. -/
def authorPosts (userId : Text) : QueryBuilder := (fromTable (lit "posts")).eq .authorId userId

/-- What `CountUserPosts` returns, and the cache it leaves. -/
def counted (service : DatabaseService) (t : Tables) (userId : Text) (cache : Cache) : Int × Cache :=
  let cached := cache.getJson (Cache.postCountKey userId)
  if cached.isNumber then (cachedInt cached, cache)
  else
    let total := t.count service (authorPosts userId)
    let count := if 0 ≤ total then toInt32 total else 0
    (count, cache.setJson (Cache.postCountKey userId) (.integer count))

section

variable {platform : Platform} {env : Environment} {w : World Tables}

theorem countUserPosts_run (platform : Platform) (env : Environment) (w : World Tables)
    (userId : Text) :
    (countUserPosts userId).run (platform.backend.answer env) w =
      (.ok (counted platform.service w.database userId w.cache).1,
        { w with cache := (counted platform.service w.database userId w.cache).2 }) := by
  have got : ∀ key, platform.backend.answer env (.cacheGet key) w = (w.cache.getJson key, w) :=
    fun _ => rfl
  have counts : ∀ query, platform.backend.answer env (.count query) w =
      (w.database.count platform.service query, w) := fun _ => rfl
  unfold countUserPosts counted
  simp only [call_bind, run_perform, got]
  split
  · simp only [run_perform, got, pure_eq, run_done]
  · simp only [run_perform, counts, pure_eq, run_done]
    rfl

theorem count_posts (service : DatabaseService) {t t' : Tables} (posts : t'.posts = t.posts)
    (query : QueryBuilder) : t'.count service query = t.count service query := by
  unfold Tables.count Tables.selectPosts
  rw [posts]

theorem counted_posts (service : DatabaseService) {t t' : Tables} (posts : t'.posts = t.posts)
    (userId : Text) (cache : Cache) :
    counted service t' userId cache = counted service t userId cache := by
  unfold counted
  rw [count_posts service posts]

/-- The user whose token the authorization code is exchanged for. -/
def exchangedUser (platform : Platform) (env : Environment) (w : World Tables)
    (authorizationCode redirectUri : Text) : Option AuthenticatedUser :=
  match ((CrownServer.exchangeCodeForToken platform.app authorizationCode redirectUri).run
      (platform.backend.answer env) w).1 with
  | .ok (.ok (idToken, _)) =>
    match (w.auth.validateIdToken platform.app.lib env.around idToken).1 with
    | .ok user => user
    | .error _ => none
  | _ => none

theorem exchangeCodeForToken_world (platform : Platform) (env : Environment) (w : World Tables)
    (authorizationCode redirectUri : Text) :
    ((CrownServer.exchangeCodeForToken platform.app authorizationCode redirectUri).run
      (platform.backend.answer env) w).2 = w := by
  unfold CrownServer.exchangeCodeForToken
  split
  · simp only [call_bind, run_perform, liftM_eq, run_done]
    rfl
  · rfl

/-- What `Login` answers and leaves: the count of its user, as `CountUserPosts` takes it. -/
theorem login_run (platform : Platform) (env : Environment) (w : World Tables)
    (authorizationCode redirectUri : Text) :
    let ran := (CrownServer.login platform.app authorizationCode redirectUri).run
      (platform.backend.answer env) w
    ran.2.database.posts = w.database.posts ∧
      ((∃ user result shown, exchangedUser platform env w authorizationCode redirectUri = some user ∧
          ran.1 = .ok (.ok (.login result)) ∧ result.user = some shown ∧ shown.id = user.id ∧
          shown.postsCount = toUInt32 (counted platform.service w.database user.id w.cache).1 ∧
          ran.2.cache = (counted platform.service w.database user.id w.cache).2.del
            (Cache.userKey user.id)) ∨
        ran.2.cache = w.cache ∧ ∀ result, ran.1 ≠ .ok (.ok (.login result))) := by
  unfold CrownServer.login exchangedUser
  dsimp only
  split
  · exact ⟨rfl, .inr ⟨rfl, by simp⟩⟩
  split
  · exact ⟨rfl, .inr ⟨rfl, by simp⟩⟩
  have same := exchangeCodeForToken_world platform env w authorizationCode redirectUri
  rw [run_bind]
  generalize (CrownServer.exchangeCodeForToken platform.app authorizationCode redirectUri).run
    (platform.backend.answer env) w = exchanged at same ⊢
  obtain ⟨result, left⟩ := exchanged
  obtain rfl : w = left := same.symm
  rcases result with _ | status | ⟨idToken, refreshToken⟩
  · exact ⟨rfl, .inr ⟨rfl, by simp⟩⟩
  · exact ⟨rfl, .inr ⟨rfl, by simp⟩⟩
  have validates : platform.backend.answer env (.validateIdToken idToken) w =
      ((w.auth.validateIdToken platform.app.lib env.around idToken).1, { w with
        auth := (w.auth.validateIdToken platform.app.lib env.around idToken).2 }) := rfl
  simp only [call_bind, run_perform, validates]
  generalize w.auth.validateIdToken platform.app.lib env.around idToken = validation
  obtain ⟨validated, auth⟩ := validation
  rcases validated with _ | _ | user
  · exact ⟨rfl, .inr ⟨rfl, by simp⟩⟩
  · exact ⟨rfl, .inr ⟨rfl, by simp⟩⟩
  simp only [liftM_eq, done_ok_bind]
  rw [run_bind]
  have aside := beside_of_within (upsertUser_aside user) platform env { w with auth }
  generalize (upsertUser user).run (platform.backend.answer env) { w with auth } = upserted at aside ⊢
  obtain ⟨result, w'⟩ := upserted
  have cache : w'.cache = w.cache := aside.cache
  have posts : w'.database.posts = w.database.posts := aside.posts
  cases result with
  | error e => exact ⟨posts, .inr ⟨cache, by simp⟩⟩
  | ok done =>
    have counts := counted_posts platform.service posts user.id w'.cache
    rw [cache] at counts
    simp only [run_bind, countUserPosts_run, cache, counts]
    exact ⟨posts, .inl ⟨user, _, _, rfl, rfl, rfl, rfl, rfl, rfl⟩⟩

end

/-- What a call of the server is answered. -/
theorem Site.handle_result (platform : Platform) (s : Site) (user : Option AuthenticatedUser)
    (env : Environment) (request : Request) :
    (s.handle platform user env request).1 = .ok (recovered (fun e => .error ⟨.internal, e.what⟩)
      ((CrownServer.body platform.app request).run (platform.backend.answer env)
        (s.calledBy env.context user)).1) := by
  show ((CrownServer.handle platform.app request).run (platform.backend.answer env)
    (s.calledBy env.context user)).1 = _
  unfold CrownServer.handle
  exact run_recover _ _ _

/-- A call that succeeds returns what its body returns. -/
theorem Site.handle_ok {platform : Platform} {s : Site} {user : Option AuthenticatedUser}
    {env : Environment} {request : Request} {response : Response}
    (answered : (s.handle platform user env request).1 = .ok (.ok response)) :
    ((CrownServer.body platform.app request).run (platform.backend.answer env)
      (s.calledBy env.context user)).1 = .ok (.ok response) := by
  rw [Site.handle_result, Except.ok.injEq] at answered
  cases ended : ((CrownServer.body platform.app request).run (platform.backend.answer env)
      (s.calledBy env.context user)).1 with
  | error e =>
    rw [ended] at answered
    cases answered
  | ok value =>
    rw [ended] at answered
    exact congrArg _ answered

/-- A site, with the users of whose posts some were removed since their number was cached. -/
structure CountWatch where
  site : Site
  outdated : List Text

namespace CountWatch

def start (site : Site) : CountWatch := ⟨site, []⟩

/-- The authors of the posts that are there no more. -/
def removedAuthors (before after : Tables) : List Text :=
  (before.posts.filter (· ∉ after.posts)).map (·.authorId)

def step (platform : Platform) (watch : CountWatch) (event : Site.Event) : CountWatch :=
  let site := watch.site.step platform event
  ⟨site, (removedAuthors watch.site.world.database site.world.database ++ watch.outdated).filter
    fun user => (site.world.cache.entries (Cache.postCountKey user)).isSome⟩

/-- The calls that concern the number of a user's posts. Time passes between them. -/
def onCounts : Site.Event → Bool
  | .call _ _ (.createPost ..) | .call _ _ (.deletePost _) | .call _ _ (.login ..) | .clock _ => true
  | _ => false

def Step (platform : Platform) (watch : CountWatch) (event : Site.Event) (after : CountWatch) :
    Prop :=
  onCounts event = true ∧ after = watch.step platform event

/-- The number of posts in the answer of a login is that of its user's rows. -/
def AnswersCount (platform : Platform) (watch : CountWatch) : Site.Event → Prop
  | .call user env (.login authorizationCode redirectUri) => ∀ result shown,
    (watch.site.handle platform user env (.login authorizationCode redirectUri)).1 =
        .ok (.ok (.login result)) → result.user = some shown →
      shown.postsCount.toNat = ((watch.step platform (.call user env
        (.login authorizationCode redirectUri))).site.world.database.postsOf shown.id).length
  | _ => True

/-- The request that counts the posts of a login's user selects them. -/
def CountsExactly (platform : Platform) (watch : CountWatch) : Site.Event → Prop
  | .call user env (.login authorizationCode redirectUri) =>
    ∀ u ∈ exchangedUser platform env (watch.site.calledBy env.context user) authorizationCode
        redirectUri,
      ∃ found, watch.site.world.database.selectPosts platform.service (authorPosts u.id) =
        some found ∧ found.Perm (watch.site.world.database.postsOf u.id)
  | _ => True

/-- A login's user has had no post removed since the number of its posts was cached, and has
fewer posts than there are unsigned numbers. -/
def CountsCurrent (platform : Platform) (watch : CountWatch) : Site.Event → Prop
  | .call user env (.login authorizationCode redirectUri) =>
    ∀ u ∈ exchangedUser platform env (watch.site.calledBy env.context user) authorizationCode
        redirectUri,
      u.id ∉ watch.outdated ∧ (watch.site.world.database.postsOf u.id).length < 2 ^ 32
  | _ => True

/-- What holds after every run. -/
structure Kept (watch : CountWatch) : Prop where
  connected : watch.site.world.cache.connected = true
  counts : ∀ user entry, watch.site.world.cache.entries (Cache.postCountKey user) = some entry →
    user ∉ watch.outdated →
      entry = .integer (toInt32 (watch.site.world.database.postsOf user).length)

section

variable {t t' : Tables} {userId : Text}

/-- Nobody's posts get fewer where none is removed. -/
theorem postsOf_filter {stays : PostRow → Bool} (posts : t'.posts = t.posts.filter stays)
    (kept : userId ∉ removedAuthors t t') : t'.postsOf userId = t.postsOf userId := by
  rw [Tables.postsOf, Tables.postsOf, posts, List.filter_filter]
  refine List.filter_congr fun post stored => ?_
  by_cases own : post.authorId = userId
  · have there : post ∈ t'.posts := by
      by_contra removed
      exact kept (List.mem_map.mpr ⟨post, List.mem_filter.mpr ⟨stored, by simpa using removed⟩, own⟩)
    rw [posts] at there
    simp [own, (List.mem_filter.mp there).2]
  · simp [own]

/-- The number that is counted for a user. -/
theorem count_authorPosts {service : DatabaseService} {found : List PostRow}
    (selected : t.selectPosts service (authorPosts userId) = some found)
    (exactly : found.Perm (t.postsOf userId)) :
    t.count service (authorPosts userId) = (t.postsOf userId).length := by
  have posts : (authorPosts userId).table = lit "posts" := rfl
  rw [Tables.count, selected, ← exactly.length_eq]
  exact if_pos posts

end

variable {platform : Platform} {watch after : CountWatch} {event : Site.Event}

theorem current_of_step {userId : Text} {entry : Json}
    (stored : (watch.step platform event).site.world.cache.entries (Cache.postCountKey userId) =
      some entry)
    (current : userId ∉ (watch.step platform event).outdated) :
    userId ∉ removedAuthors watch.site.world.database
        (watch.site.step platform event).world.database ∧
      userId ∉ watch.outdated := by
  have stored : (watch.site.step platform event).world.cache.entries (Cache.postCountKey userId) =
    some entry := stored
  simp only [step, List.mem_filter, List.mem_append, stored, Option.isSome_some, and_true,
    not_or] at current
  exact current

/-- The posts and the cache of a user are as before, or nothing is cached for the user. -/
theorem Kept.stepped (kept : Kept watch)
    (fewer : Lessens watch.site.world.cache (watch.site.step platform event).world.cache)
    (posts : ∀ userId, userId ∉ removedAuthors watch.site.world.database
        (watch.site.step platform event).world.database →
      (watch.site.step platform event).world.database.postsOf userId =
          watch.site.world.database.postsOf userId ∨
        (watch.site.step platform event).world.cache.entries (Cache.postCountKey userId) = none) :
    Kept (watch.step platform event) := by
  refine ⟨fewer.connected.trans kept.connected, fun userId entry stored current => ?_⟩
  obtain ⟨remains, earlier⟩ := current_of_step stored current
  have stored : (watch.site.step platform event).world.cache.entries (Cache.postCountKey userId) =
    some entry := stored
  rcases posts userId remains with same | gone
  · have counted := kept.counts userId entry (fewer.entries _ entry stored) earlier
    rw [← same] at counted
    exact counted
  · rw [gone] at stored
    cases stored

theorem Kept.createPost (kept : Kept watch) (ids : ∀ drawn, platform.secId drawn ≠ [])
    (user : Option AuthenticatedUser) (env : Environment) (title content imageUrl : Text) :
    Kept (watch.step platform (.call user env (.createPost title content imageUrl))) := by
  obtain ⟨database, cache⟩ :=
    Site.step_call platform watch.site user env (.createPost title content imageUrl)
  refine kept.stepped ?_ fun userId _ => ?_
  · rw [cache]
    exact lessens_of_within (createPost_uncaching ..) platform env
      (watch.site.calledBy env.context user)
  · rw [database, cache, CrownServer.body]
    have known := watch.site.getUser_calledBy env.context user
    cases user with
    | none =>
      rw [createPost_refused platform env _ title content imageUrl known]
      exact .inl rfl
    | some caller =>
      rcases createPost_run platform env _ title content imageUrl known with
        posts | ⟨post, posts, own, _, _, out⟩
      · exact .inl (congrArg (List.filter _) posts)
      · obtain ⟨counts, _⟩ := out ids kept.connected
        by_cases mine : userId = caller.id
        · exact .inr (mine ▸ counts)
        · have foreign : post.authorId ≠ userId := own ▸ Ne.symm mine
          refine .inl ?_
          rw [Tables.postsOf, posts, List.filter_append]
          simp [foreign, Tables.postsOf, Site.calledBy]

theorem Kept.deletePost (kept : Kept watch) (user : Option AuthenticatedUser) (env : Environment)
    (postId : Text) : Kept (watch.step platform (.call user env (.deletePost postId))) := by
  obtain ⟨database, cache⟩ := Site.step_call platform watch.site user env (.deletePost postId)
  refine kept.stepped ?_ fun userId remains => .inl ?_
  · rw [cache]
    exact lessens_of_within (deletePost_uncaching ..) platform env
      (watch.site.calledBy env.context user)
  · rw [database] at remains ⊢
    rcases deletePost_run platform env (watch.site.calledBy env.context user) postId with
      ⟨first, found, _, posts, _⟩ | ⟨_, posts, _⟩
    · exact postsOf_filter posts remains
    · exact congrArg (List.filter _) posts

/-- A count whose entry, where there is one, is the number of rows. -/
theorem counted_current {service : DatabaseService} {t : Tables} {cache : Cache} {userId : Text}
    {n : Nat} (connected : cache.connected = true)
    (current : ∀ entry, cache.entries (Cache.postCountKey userId) = some entry →
      entry = .integer (toInt32 n))
    (rows : t.count service (authorPosts userId) = n) :
    (counted service t userId cache).1 = toInt32 n ∧
      ((counted service t userId cache).2 = cache ∨ (counted service t userId cache).2 =
        cache.setJson (Cache.postCountKey userId) (.integer (toInt32 n))) := by
  have natural : (0 : Int) ≤ n := Int.natCast_nonneg n
  unfold counted
  simp only [Cache.getJson, connected, if_true, rows, natural]
  cases stored : cache.entries (Cache.postCountKey userId) with
  | none => simp [Json.isNumber]
  | some entry =>
    cases current entry stored
    simp [Json.isNumber, cachedInt_toInt32]

section

variable {user : Option AuthenticatedUser} {env : Environment}
variable {authorizationCode redirectUri : Text} {u : AuthenticatedUser}

/-- What is counted for the user of a login. -/
theorem Kept.counted (kept : Kept watch)
    (exactly : CountsExactly platform watch (.call user env (.login authorizationCode redirectUri)))
    (current : CountsCurrent platform watch (.call user env (.login authorizationCode redirectUri)))
    (exchanged : exchangedUser platform env (watch.site.calledBy env.context user) authorizationCode
      redirectUri = some u) :
    let w := watch.site.calledBy env.context user
    (counted platform.service w.database u.id w.cache).1 =
        toInt32 (w.database.postsOf u.id).length ∧
      ((counted platform.service w.database u.id w.cache).2 = w.cache ∨
        (counted platform.service w.database u.id w.cache).2 = w.cache.setJson
          (Cache.postCountKey u.id) (.integer (toInt32 (w.database.postsOf u.id).length))) := by
  obtain ⟨found, selected, all⟩ := exactly u exchanged
  obtain ⟨fresh, _⟩ := current u exchanged
  exact counted_current kept.connected
    (fun entry stored => kept.counts u.id entry stored fresh) (count_authorPosts selected all)

theorem Kept.login (kept : Kept watch)
    (exactly : CountsExactly platform watch (.call user env (.login authorizationCode redirectUri)))
    (current : CountsCurrent platform watch
      (.call user env (.login authorizationCode redirectUri))) :
    Kept (watch.step platform (.call user env (.login authorizationCode redirectUri))) := by
  obtain ⟨database, cache⟩ :=
    Site.step_call platform watch.site user env (.login authorizationCode redirectUri)
  obtain ⟨posts, cases⟩ := login_run platform env (watch.site.calledBy env.context user)
    authorizationCode redirectUri
  have sameOf : ∀ userId, (watch.step platform (.call user env
      (.login authorizationCode redirectUri))).site.world.database.postsOf userId =
        watch.site.world.database.postsOf userId := by
    intro userId
    show (watch.site.step platform _).world.database.postsOf userId = _
    rw [database]
    exact congrArg (List.filter _) posts
  rcases cases with ⟨u, _, _, exchanged, _, _, _, _, left⟩ | ⟨left, _⟩
  · obtain ⟨_, counts⟩ := kept.counted exactly current exchanged
    have left : (watch.step platform (.call user env
        (.login authorizationCode redirectUri))).site.world.cache =
          (Crown.counted platform.service watch.site.world.database u.id
            watch.site.world.cache).2.del (Cache.userKey u.id) := cache.trans left
    refine ⟨?_, fun userId entry stored fresh => ?_⟩
    · rw [left, Cache.del_connected]
      rcases counts with same | set
      · exact (congrArg Cache.connected same).trans kept.connected
      · exact (congrArg Cache.connected set).trans
          ((Cache.setJson_connected ..).trans kept.connected)
    · obtain ⟨_, earlier⟩ := current_of_step stored fresh
      rw [left] at stored
      have found := Cache.del_found stored
      rw [sameOf]
      rcases counts with same | set
      · have same : (Crown.counted platform.service watch.site.world.database u.id
          watch.site.world.cache).2 = watch.site.world.cache := same
        rw [same] at found
        exact kept.counts userId entry found earlier
      · have set : (Crown.counted platform.service watch.site.world.database u.id
            watch.site.world.cache).2 = watch.site.world.cache.setJson (Cache.postCountKey u.id)
              (.integer (toInt32 (watch.site.world.database.postsOf u.id).length)) := set
        rw [set] at found
        by_cases own : userId = u.id
        · subst own
          rw [Cache.setJson_self kept.connected] at found
          exact (Option.some.inj found).symm
        · have apart : Cache.postCountKey userId ≠ Cache.postCountKey u.id :=
            fun same => own (List.append_cancel_left same)
          rw [Cache.setJson_other apart] at found
          exact kept.counts userId entry found earlier
  · have left : (watch.site.step platform (.call user env
        (.login authorizationCode redirectUri))).world.cache = watch.site.world.cache :=
      cache.trans left
    refine kept.stepped ?_ fun userId _ => .inl (sameOf userId)
    rw [left]
    exact .refl _

/-- What a login answers whose user's cached number is current. -/
theorem Kept.answers (kept : Kept watch) (exactly : CountsExactly platform watch event)
    (current : CountsCurrent platform watch event) :
    AnswersCount platform watch event := by
  unfold AnswersCount
  split
  · rename_i user env authorizationCode redirectUri
    intro result shown answered of
    obtain ⟨database, _⟩ :=
      Site.step_call platform watch.site user env (.login authorizationCode redirectUri)
    obtain ⟨posts, cases⟩ := login_run platform env (watch.site.calledBy env.context user)
      authorizationCode redirectUri
    have returned := Site.handle_ok answered
    rcases cases with ⟨u, _, _, exchanged, ran, member, own, count, _⟩ | ⟨_, other⟩
    · obtain ⟨number, _⟩ := kept.counted exactly current exchanged
      obtain ⟨_, few⟩ := current u exchanged
      obtain rfl : result = _ := Response.login.inj
        (Except.ok.inj (Except.ok.inj (returned.symm.trans ran)))
      obtain rfl := Option.some.inj (of.symm.trans member)
      have same : (watch.step platform (.call user env
          (.login authorizationCode redirectUri))).site.world.database.postsOf u.id =
            watch.site.world.database.postsOf u.id := by
        show (watch.site.step platform _).world.database.postsOf u.id = _
        rw [database]
        exact congrArg (List.filter _) posts
      rw [own, count, number, same]
      exact toUInt32_toInt32 few
    · exact absurd returned (other result)
  · trivial

end

theorem step_kept (ids : ∀ drawn, platform.secId drawn ≠ []) (kept : Kept watch)
    (exactly : CountsExactly platform watch event) (current : CountsCurrent platform watch event)
    (stepped : Step platform watch event after) : Kept after := by
  obtain ⟨concerns, rfl⟩ := stepped
  cases event with
  | clock now => exact kept.stepped (.refl _) fun _ _ => .inl rfl
  | call user env request =>
    cases request with
    | createPost title content imageUrl => exact kept.createPost ids user env title content imageUrl
    | deletePost postId => exact kept.deletePost user env postId
    | login authorizationCode redirectUri => exact kept.login exactly current
    | _ => cases concerns
  | _ => cases concerns

/-- In every run of such calls in which logins find current numbers only, every login answers
the number of its user's posts. -/
theorem run_counts (platform : Platform) (ids : ∀ drawn, platform.secId drawn ≠ []) {site : Site}
    {events : List Site.Event} (connected : site.world.cache.connected = true)
    (uncached : ∀ user, site.world.cache.entries (Cache.postCountKey user) = none)
    (run : Run (Guarded (fun watch event => CountsExactly platform watch event ∧
      CountsCurrent platform watch event) (Step platform)) (start site) events watch) :
    Run (fun watch event after => Step platform watch event after ∧
      AnswersCount platform watch event) (start site) events watch := by
  have first : Kept (start site) := by
    refine ⟨connected, fun user entry stored _ => ?_⟩
    rw [show (start site).site = site from rfl, uncached] at stored
    cases stored
  have kept : ∀ (watch : CountWatch) (event : Site.Event) (after : CountWatch), Kept watch →
      Guarded (fun watch event => CountsExactly platform watch event ∧
        CountsCurrent platform watch event) (Step platform) watch event after → Kept after :=
    fun _ _ _ kept ⟨⟨exactly, current⟩, stepped⟩ => step_kept ids kept exactly current stepped
  exact run.mono_under first kept fun _ _ _ kept ⟨⟨exactly, current⟩, stepped⟩ =>
    ⟨stepped, kept.answers exactly current⟩

end CountWatch

open JwtValidator (publishedKey tokenLibraries tokenSurroundings tokenUser signedToken ownPart)

def tokenBody : Text :=
  lit "\x7b\"access_token\":\"a\",\"id_token\":\"" ++ signedToken ownPart ++ lit "\"\x7d"

/-- A platform on which the authorization code is exchanged for a signed token. -/
def Platform.signing : Platform :=
  { Platform.plain with
    app := { Platform.plain.app with
      googleClientId := some (lit "crown")
      googleClientSecret := some (lit "secret")
      lib := { tokenLibraries with
        parse := fun text =>
          if text = tokenBody then .ok (.object [(lit "access_token", .string (lit "a")),
            (lit "id_token", .string (signedToken ownPart))])
          else tokenLibraries.parse text } } }

namespace Site

/-- Nothing stored, and the key of the signed token known. -/
def keyed : Site :=
  { empty with world := { empty.world with auth := ⟨fun _ => none, ⟨[publishedKey], 0⟩⟩ } }

def tokenEnvironment : Environment := ⟨0, fun _ => some ⟨200, tokenBody⟩, tokenSurroundings⟩

def signsIn : Event := .call none tokenEnvironment (.login (lit "code") (lit "uri"))

def signedCalls (request : Request) : Event := .call (some tokenUser) tokenEnvironment request

end Site

namespace CountWatch

open Site (keyed tokenEnvironment signsIn signedCalls)

def counting : List Site.Event := [signedCalls (.createPost (lit "one") (lit "one") []), signsIn,
  signedCalls (.createPost (lit "two") (lit "two") []), signsIn]

/-- One post and then two. -/
theorem counting_counts :
    Run (fun watch event after => Step .signing watch event after ∧
      AnswersCount .signing watch event) (start .keyed) counting
      (counting.foldl (step .signing) (start .keyed)) := by
  have current : ∀ n ∈ [1, 3], ∀ u ∈ exchangedUser .signing tokenEnvironment
      (((counting.take n).foldl (step .signing) (start .keyed)).site.calledBy 0 none) (lit "code")
      (lit "uri"),
      ((counting.take n).foldl (step .signing) (start .keyed)).site.world.database.selectPosts
          Platform.signing.service (authorPosts u.id) = some (((counting.take n).foldl (step .signing)
            (start .keyed)).site.world.database.postsOf u.id) ∧
        u.id ∉ ((counting.take n).foldl (step .signing) (start .keyed)).outdated ∧
        (((counting.take n).foldl (step .signing) (start .keyed)).site.world.database.postsOf
          u.id).length < 2 ^ 32 := by
    decide +kernel
  have first := current 1 (List.mem_cons_self ..)
  have second := current 3 (List.mem_cons_of_mem _ (List.mem_cons_self ..))
  have run : Run (Guarded (fun watch event => CountsExactly .signing watch event ∧
      CountsCurrent .signing watch event) (Step .signing)) (start .keyed) counting
      (counting.foldl (step .signing) (start .keyed)) :=
    .cons ⟨⟨trivial, trivial⟩, rfl, rfl⟩
      (.cons ⟨⟨fun u signed => ⟨_, (first u signed).1, .refl _⟩, fun u signed => (first u signed).2⟩,
        rfl, rfl⟩
        (.cons ⟨⟨trivial, trivial⟩, rfl, rfl⟩
          (.cons ⟨⟨fun u signed => ⟨_, (second u signed).1, .refl _⟩,
            fun u signed => (second u signed).2⟩, rfl, rfl⟩ .nil)))
  exact run_counts .signing Site.plain_ids rfl (fun _ => rfl) run

/-- The number of posts a login answers. -/
def loginCount (result : Except Exception (Except Status Response)) : Option UInt32 :=
  match result with
  | .ok (.ok (.login result)) => result.user.map (·.postsCount)
  | _ => none

theorem loginCount_eq_some {result : Except Exception (Except Status Response)}
    (count : loginCount result = some n) : ∃ answer shown, result = .ok (.ok (.login answer)) ∧
      answer.user = some shown ∧ shown.postsCount = n := by
  unfold loginCount at count
  split at count
  · obtain ⟨shown, found, rfl⟩ := Option.map_eq_some_iff.mp count
    exact ⟨_, shown, rfl, found, rfl⟩
  · cases count

/-- One post is counted, and deleted. -/
theorem deletedPost_counted : ¬∀ (platform : Platform) (site : Site) (events : List Site.Event)
    (watch : CountWatch) (event : Site.Event), (∀ drawn, platform.secId drawn ≠ []) →
    site.world.cache.connected = true →
    (∀ user, site.world.cache.entries (Cache.postCountKey user) = none) →
    Run (Guarded (CountsExactly platform) (Step platform)) (start site) events watch →
    onCounts event = true → CountsExactly platform watch event →
    AnswersCount platform watch event := by
  intro answers
  let events := [signedCalls (.createPost (lit "one") (lit "one") []), signsIn,
    signedCalls (.deletePost (List.replicate 26 'p' ++ lit "0"))]
  let watch := events.foldl (step .signing) (start .keyed)
  have counted : (∀ n ∈ [1, 3], ∀ u ∈ exchangedUser .signing tokenEnvironment
      (((events.take n).foldl (step .signing) (start .keyed)).site.calledBy 0 none) (lit "code")
      (lit "uri"),
      ((events.take n).foldl (step .signing) (start .keyed)).site.world.database.selectPosts
          Platform.signing.service (authorPosts u.id) = some (((events.take n).foldl (step .signing)
            (start .keyed)).site.world.database.postsOf u.id)) ∧
      loginCount (watch.site.handle .signing none tokenEnvironment
        (.login (lit "code") (lit "uri"))).1 = some 1 ∧
      (watch.step .signing signsIn).site.world.database.posts = [] := by
    decide +kernel
  obtain ⟨exactly, one, none⟩ := counted
  have first := exactly 1 (List.mem_cons_self ..)
  have last := exactly 3 (List.mem_cons_of_mem _ (List.mem_cons_self ..))
  have run : Run (Guarded (CountsExactly .signing) (Step .signing)) (start .keyed) events watch :=
    .cons ⟨trivial, rfl, rfl⟩ (.cons ⟨fun u signed => ⟨_, first u signed, .refl _⟩, rfl, rfl⟩
      (.cons ⟨trivial, rfl, rfl⟩ .nil))
  obtain ⟨answer, shown, answered, user, number⟩ := loginCount_eq_some one
  have same := answers .signing .keyed events watch signsIn Site.plain_ids rfl (fun _ => rfl) run rfl
    (fun u signed => ⟨_, last u signed, .refl _⟩) answer shown answered user
  rw [number, Tables.postsOf] at same
  have none : (watch.step .signing (.call .none tokenEnvironment
    (.login (lit "code") (lit "uri")))).site.world.database.posts = [] := none
  rw [none, List.filter_nil] at same
  exact absurd same (by decide)

end CountWatch

end Crown
