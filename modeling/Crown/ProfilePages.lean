import Crown.FeedEntries

/-! What `ListUserPosts` answers against `get_user_posts`, over whole runs of complete calls.
A deletion takes the pages of its author out of the cache; a new post and a like do not. -/
namespace Crown

open Lib

/-- Which posts are answered, in their order and with their likes. -/
def shownPosts (posts : List Post) : List (Text × UInt32) := posts.map fun p => (p.id, p.likesCount)

def storedPosts (rows : List (PostRow × UserRow)) : List (Text × UInt32) :=
  rows.map fun row => (row.1.id, toUInt32 row.1.likesCount)

/-- Since the page was cached its author has created no post, and no post on it has changed its
number of likes, nor, where two of the author's posts are of one time, any of these. -/
structure Unchanged (now : Tables) (userId : Text) (cached : Page) : Prop where
  created : (now.postsOf userId).length ≤ (cached.tables.postsOf userId).length
  liked : ∀ post ∈ now.postsOf userId, ∀ old ∈ cached.tables.postsOf userId, old.id = post.id →
    (old ∈ cached.rows.map (·.1) ∨ ¬((now.postsOf userId).map (·.createdAt)).Nodup) →
    post.likesCount = old.likesCount

instance (now : Tables) (userId : Text) (cached : Page) : Decidable (Unchanged now userId cached) :=
  decidable_of_iff (_ ∧ _) ⟨fun ⟨created, liked⟩ => ⟨created, liked⟩,
    fun unchanged => ⟨unchanged.created, unchanged.liked⟩⟩

namespace Profile

/-- The calls that concern the pages of an author. Time passes between them. -/
def onProfile : Site.Event → Bool
  | .call _ _ (.createPost ..) | .call _ _ (.deletePost _) | .call _ _ (.toggleLike _)
  | .call _ _ (.listUserPosts ..) | .clock _ => true
  | _ => false

def ProfileStep (platform : Platform) (watch : Watch) (event : Site.Event) (after : Watch) : Prop :=
  onProfile event = true ∧ after = watch.step platform event

/-- A known caller's `ListUserPosts` answers with the posts of `get_user_posts`. -/
def AnswersStored (platform : Platform) (watch : Watch) : Site.Event → Prop
  | .call (some caller) env (.listUserPosts userId page limit) =>
    ∃ posts, (watch.site.handle platform (some caller) env
        (.listUserPosts userId page limit)).1 = .ok (.ok (.postList posts)) ∧
      shownPosts posts = storedPosts (((Request.listUserPosts userId page limit).rows
        platform.service watch.site.world.database).getD [])
  | _ => True

/-- A page is found only unchanged, and what a deletion deletes are posts of its caller, whose
id has no character with a meaning in a pattern. -/
def FindsUnchanged (platform : Platform) (watch : Watch) : Site.Event → Prop
  | .call (some caller) _ (.deletePost postId) => ∀ first found,
    Tables.Deletes platform.service watch.site.world.database (some caller) postId first found →
      (∀ c ∈ caller.id, c ∉ Cache.globChars) ∧ ∀ post ∈ found, post.authorId = caller.id
  | .call (some _) _ (.listUserPosts userId page limit) =>
    ∀ cached ∈ watch.cachedPage (CrownServer.userPostsPageKey userId page limit),
      (rows? (watch.site.world.cache.getJson
        (CrownServer.userPostsPageKey userId page limit))).isSome →
      Unchanged watch.site.world.database userId cached
  | _ => True

/-- What a cached page was read from, and that the author's posts have only been added to or
liked since. -/
structure Since (service : DatabaseService) (userId : Text) (page limit : UInt32) (cached : Page)
    (now : Tables) : Prop where
  rows : (Request.listUserPosts userId page limit).rows service cached.tables = some cached.rows
  known : cached.tables.AuthorsKnown
  posts : (cached.tables.postsOf userId).map PostRow.unliked <+:
    (now.postsOf userId).map PostRow.unliked

/-- What holds after every run. -/
structure Kept (platform : Platform) (watch : Watch) : Prop where
  connected : watch.site.world.cache.connected = true
  known : watch.site.world.database.AuthorsKnown
  pages : Holds platform.service watch.cachedPage watch.site.world.cache
  since : ∀ userId page limit cached,
    watch.cachedPage (CrownServer.userPostsPageKey userId page limit) = some cached →
    watch.site.world.cache.entries (CrownServer.userPostsPageKey userId page limit) ≠ none →
    Since platform.service userId page limit cached watch.site.world.database

/-- Posts of pairwise different times have one order. -/
theorem arrange_unliked (order : NewestFirst) {now old : List PostRow}
    (same : old.map PostRow.unliked = now.map PostRow.unliked)
    (apart : (now.map (·.createdAt)).Nodup) :
    (order.arrange old).map PostRow.unliked = (order.arrange now).map PostRow.unliked := by
  have sorted : ∀ posts, ((order.arrange posts).map PostRow.unliked).Pairwise PostRow.NotOlder :=
    fun posts => List.pairwise_map.mpr (order.sorted posts)
  have permuted : ((order.arrange old).map PostRow.unliked).Perm
      ((order.arrange now).map PostRow.unliked) := by
    refine ((order.perm old).map _).trans ?_
    rw [same]
    exact ((order.perm now).map _).symm
  have times : ((now.map PostRow.unliked).map (·.createdAt)).Nodup := by
    rw [List.map_map]
    exact apart
  have stored : ∀ post ∈ (order.arrange now).map PostRow.unliked, post ∈ now.map PostRow.unliked :=
    fun post member => ((order.perm now).map PostRow.unliked).mem_iff.mp member
  refine permuted.eq_of_pairwise (fun a b left right older newer => ?_) (sorted old) (sorted now)
  exact List.inj_on_of_nodup_map times (stored a (permuted.mem_iff.mp left)) (stored b right)
    (Int.le_antisymm newer older)

section

variable {service : DatabaseService} {now : Tables} {userId : Text} {page limit : UInt32}
variable {cached : Page} {rows : List (PostRow × UserRow)}

theorem shownPosts_page (service : DatabaseService) (cached : Page) :
    shownPosts (cached.posts service) = storedPosts cached.rows := by
  simp only [shownPosts, storedPosts, Page.posts, List.map_map]
  rfl

theorem storedPosts_posts (rows : List (PostRow × UserRow)) :
    storedPosts rows = (rows.map (·.1)).map fun post => (post.id, toUInt32 post.likesCount) := by
  simp only [storedPosts, List.map_map]
  rfl

/-- An unchanged page is still what the database returns. -/
theorem Since.storedPosts (since : Since service userId page limit cached now)
    (known : now.AuthorsKnown) (unchanged : Unchanged now userId cached) :
    ∃ rows, (Request.listUserPosts userId page limit).rows service now = some rows ∧
      Crown.storedPosts cached.rows = Crown.storedPosts rows := by
  have authored : ∀ t : Tables, t.AuthorsKnown → ∀ post ∈ t.postsOf userId, (t.author post).isSome :=
    fun t known post member => known post (List.mem_of_mem_filter member)
  obtain ⟨positive, start, old⟩ := Tables.page_posts since.rows (authored _ since.known)
  obtain ⟨rows, read⟩ := now.page_isSome service (now.postsOf userId) ⟨positive, start⟩
  obtain ⟨_, _, new⟩ := Tables.page_posts read (authored _ known)
  refine ⟨rows, read, ?_⟩
  have same : (cached.tables.postsOf userId).map PostRow.unliked =
      (now.postsOf userId).map PostRow.unliked :=
    since.posts.eq_of_length_le (by simpa only [List.length_map] using unchanged.created)
  rw [storedPosts_posts, storedPosts_posts]
  by_cases apart : ((now.postsOf userId).map (·.createdAt)).Nodup
  · have arranged := arrange_unliked service.newestFirst same apart
    have pages : (cached.rows.map (·.1)).map PostRow.unliked =
        (rows.map (·.1)).map PostRow.unliked := by
      rw [old, new]
      simp only [List.map_take, List.map_drop]
      rw [show cached.tables.posts.filter (·.authorId = userId) = cached.tables.postsOf userId from rfl,
        arranged]
    have stored : ∀ post ∈ rows.map (·.1), post ∈ now.postsOf userId := fun post member =>
      (service.newestFirst.perm _).mem_iff.mp (List.mem_of_mem_drop (List.mem_of_mem_take (new ▸ member)))
    have earlier : ∀ post ∈ cached.rows.map (·.1), post ∈ cached.tables.postsOf userId :=
      fun post member =>
        (service.newestFirst.perm _).mem_iff.mp (List.mem_of_mem_drop (List.mem_of_mem_take (old ▸ member)))
    rw [PostRow.eq_of_unliked pages fun post listed other listed' id =>
      (unchanged.liked other (stored other listed') post (earlier post listed) id (.inl listed)).symm]
  · have posts : cached.tables.postsOf userId = now.postsOf userId :=
      PostRow.eq_of_unliked same fun post stored other stored' id =>
        (unchanged.liked other stored' post stored id (.inr apart)).symm
    have listed : cached.tables.posts.filter (·.authorId = userId) =
        now.posts.filter (·.authorId = userId) := posts
    rw [old, listed, new]
    rfl

end

/-- An author's posts, but for their likes, are at most added to, or none of their pages is left
in the cache. -/
def Leaves (t : Tables) (w : World Tables) (userId : Text) : Prop :=
  (t.postsOf userId).map PostRow.unliked <+: (w.database.postsOf userId).map PostRow.unliked ∨
    ∀ page limit, w.cache.entries (CrownServer.userPostsPageKey userId page limit) = none

theorem Leaves.of_posts {t : Tables} {w : World Tables} (posts : w.database.posts = t.posts)
    (userId : Text) : Leaves t w userId := by
  refine .inl ?_
  rw [Tables.postsOf, Tables.postsOf, posts]

section

variable {platform : Platform} (env : Environment) (w : World Tables)

theorem createPost_leaves (title content imageUrl userId : Text) :
    Leaves w.database ((CrownServer.createPost platform.app title content imageUrl).run
      (platform.backend.answer env) w).2 userId := by
  cases known : w.auth.getUser env.context with
  | none =>
    rw [createPost_refused platform env w title content imageUrl known]
    exact .of_posts rfl userId
  | some user =>
    rcases createPost_run platform env w title content imageUrl known with
      posts | ⟨post, posts, _⟩
    · exact .of_posts posts userId
    · refine .inl ?_
      rw [Tables.postsOf, Tables.postsOf, posts, List.filter_append, List.map_append]
      exact List.prefix_append _ _

theorem toggleLike_leaves (postId userId : Text) :
    Leaves w.database ((CrownServer.toggleLike postId).run (platform.backend.answer env) w).2
      userId := by
  rcases toggleLike_run platform env w postId with posts | ⟨count, posts, _⟩
  · exact .of_posts posts userId
  · refine .inl ?_
    have same : ((Tables.setCount w.database.posts postId count).filter (·.authorId = userId)).map
        PostRow.unliked = (w.database.posts.filter (·.authorId = userId)).map PostRow.unliked := by
      induction w.database.posts with
      | nil => rfl
      | cons post rest ih =>
        simp only [Tables.setCount, List.map_cons, List.filter_cons] at ih ⊢
        by_cases toggled : post.id = postId <;> by_cases own : post.authorId = userId <;>
          simp [toggled, own, PostRow.unliked, ih]
    rw [Tables.postsOf, Tables.postsOf, posts, same]

/-- A deletion of own posts leaves those of other authors, and takes the author's pages out. -/
theorem deletePost_leaves (stars : Cache.StarMatches platform.glob)
    (connected : w.cache.connected = true) {caller : AuthenticatedUser}
    (known : w.auth.getUser env.context = some caller) (postId userId : Text)
    (own : ∀ first found,
      Tables.Deletes platform.service w.database (some caller) postId first found →
        (∀ c ∈ caller.id, c ∉ Cache.globChars) ∧ ∀ post ∈ found, post.authorId = caller.id) :
    Leaves w.database ((CrownServer.deletePost platform.app postId).run
      (platform.backend.answer env) w).2 userId := by
  rcases deletePost_run platform env w postId with
    ⟨first, found, deletes, posts, _, cache⟩ | ⟨_, posts, _⟩
  · rw [known] at deletes
    obtain ⟨plain, written⟩ := own first found deletes
    by_cases author : userId = caller.id
    · refine .inr fun page limit => ?_
      obtain ⟨_, same, mine⟩ := deletes.own
      cases same
      have matched : platform.glob (Cache.userPostsPattern first.authorId)
          (CrownServer.userPostsPageKey userId page limit) = true := by
        rw [mine, author]
        exact userPostsPattern_matches stars plain page limit
      rw [cache]
      simp [cacheWithout, Cache.delPattern, Cache.del_connected, connected, matched]
    · refine .inl ?_
      have others : (w.database.posts.filter (· ∉ found)).filter (·.authorId = userId) =
          w.database.posts.filter (·.authorId = userId) := by
        rw [List.filter_filter]
        refine List.filter_congr fun post _ => ?_
        by_cases deleted : post ∈ found
        · simp [deleted, written post deleted, Ne.symm author]
        · simp [deleted]
      rw [Tables.postsOf, Tables.postsOf, posts, others]
  · exact .of_posts posts userId

end

variable {platform : Platform} {watch after : Watch} {event : Site.Event}

/-- The database has written, and the cache has at most lost entries. -/
theorem Kept.written (kept : Kept platform watch) {site : Site}
    (known : site.world.database.AuthorsKnown) (fewer : Lessens watch.site.world.cache site.world.cache)
    (leaves : ∀ userId, Leaves watch.site.world.database site.world userId) :
    Kept platform { watch with site } := by
  refine ⟨fewer.connected.trans kept.connected, known,
    kept.pages.mono fun key _ entry found => fewer.entries key entry found,
    fun userId page limit cached recorded stored => ?_⟩
  obtain ⟨entry, present⟩ := Option.ne_none_iff_exists'.mp stored
  have earlier := kept.since userId page limit cached recorded
    (Option.ne_none_iff_exists'.mpr ⟨entry, fewer.entries _ entry present⟩)
  rcases leaves userId with posts | gone
  · exact ⟨earlier.rows, earlier.known, earlier.posts.trans posts⟩
  · exact absurd (gone page limit) stored

/-- A listing. -/
theorem Kept.listed (kept : Kept platform watch) (caller : AuthenticatedUser) (env : Environment)
    (userId : Text) (page limit : UInt32) :
    Kept platform (watch.step platform (.call (some caller) env
      (.listUserPosts userId page limit))) := by
  have listing : (Request.listUserPosts userId page limit).listing =
      some (CrownServer.userPostsPageKey userId page limit, .getUserPosts,
        fun viewer => CrownServer.userPostsParams viewer userId page limit) := rfl
  have pages : Holds platform.service
      (watch.listed platform caller env (.listUserPosts userId page limit) _).cachedPage
      (watch.listed platform caller env (.listUserPosts userId page limit) _).site.world.cache :=
    Watch.listed_holds listing kept.pages
  show Kept platform (watch.listed platform caller env _ _)
  cases found : rows? (watch.site.world.cache.getJson
      (CrownServer.userPostsPageKey userId page limit)) with
  | some elements =>
    obtain ⟨_, cached, _, _, rfl⟩ := kept.pages.hit (listingKey_of_listing listing) found
    refine ⟨?_, ?_, pages, ?_⟩ <;>
      simp only [Watch.listed, Watch.readPage, found, Site.handle_hit _ listing found]
    · exact kept.connected
    · exact kept.known
    · exact kept.since
  | none =>
    cases read : (Request.listUserPosts userId page limit).rows platform.service
        watch.site.world.database with
    | none =>
      refine ⟨?_, ?_, pages, ?_⟩ <;>
        simp only [Watch.listed, Watch.readPage, found, read, Option.map_none,
          Site.handle_refused _ listing found read]
      · exact kept.connected
      · exact kept.known
      · exact kept.since
    | some rows =>
      refine ⟨?_, ?_, pages, ?_⟩ <;>
        simp only [Watch.listed, Watch.readPage, found, read, Option.map_some,
          Site.handle_miss _ listing found read, Watch.recorded, kept.connected, if_true,
          Cache.setJson_connected]
      · exact kept.known
      · intro author page' limit' cached recorded stored
        by_cases same : CrownServer.userPostsPageKey author page' limit' =
            CrownServer.userPostsPageKey userId page limit
        · obtain ⟨rfl, pages, limits⟩ := userPostsPageKey_inj same
          rw [same, Function.update_self] at recorded
          cases recorded
          refine ⟨?_, kept.known, List.prefix_refl _⟩
          simpa only [Request.rows, pages, limits] using read
        · rw [Function.update_of_ne same] at recorded
          rw [Cache.setJson_other same] at stored
          exact kept.since author page' limit' cached recorded stored

/-- A call that lists nothing leaves what its body leaves. -/
theorem Kept.called (kept : Kept platform watch) {user : Option AuthenticatedUser}
    {env : Environment} {request : Request}
    (uncaching : (CrownServer.body platform.app request).Within Uncaching fun _ _ => True)
    (unlisted : (Site.Event.call user env request).lister = none)
    (leaves : ∀ userId, Leaves watch.site.world.database
      ((CrownServer.body platform.app request).run (platform.backend.answer env)
        (watch.site.calledBy env.context user)).2 userId) :
    Kept platform (watch.step platform (.call user env request)) := by
  obtain ⟨database, cache⟩ := Site.step_call platform watch.site user env request
  rw [Watch.step_unlisted _ unlisted]
  refine kept.written ?_ ?_ fun userId => ?_
  · rw [database]
    exact run_known platform env _ _ kept.known
  · rw [cache]
    exact lessens_of_within uncaching platform env (watch.site.calledBy env.context user)
  · unfold Leaves
    rw [database, cache]
    exact leaves userId

theorem step_kept (stars : Cache.StarMatches platform.glob) (kept : Kept platform watch)
    (finds : FindsUnchanged platform watch event) (stepped : ProfileStep platform watch event after) :
    Kept platform after := by
  obtain ⟨concerns, rfl⟩ := stepped
  cases event with
  | clock now =>
    rw [Watch.step_unlisted _ rfl]
    exact kept.written kept.known (.refl _) (.of_posts rfl)
  | call user env request =>
    cases request with
    | createPost title content imageUrl =>
      have unlisted : (Site.Event.call user env (.createPost title content imageUrl)).lister = none := by
        cases user <;> rfl
      exact kept.called (createPost_uncaching ..) unlisted
        (createPost_leaves env (watch.site.calledBy env.context user) title content imageUrl)
    | toggleLike postId =>
      have unlisted : (Site.Event.call user env (.toggleLike postId)).lister = none := by
        cases user <;> rfl
      exact kept.called (toggleLike_uncaching _) unlisted
        (toggleLike_leaves env (watch.site.calledBy env.context user) postId)
    | deletePost postId =>
      have unlisted : (Site.Event.call user env (.deletePost postId)).lister = none := by
        cases user <;> rfl
      refine kept.called (deletePost_uncaching ..) unlisted fun userId => ?_
      have known := watch.site.getUser_calledBy env.context user
      cases user with
      | none =>
        rcases deletePost_run platform env (watch.site.calledBy env.context none) postId with
          ⟨first, found, deletes, _⟩ | ⟨_, posts, _⟩
        · obtain ⟨author, impossible, _⟩ := deletes.own
          rw [known] at impossible
          cases impossible
        · exact .of_posts posts userId
      | some caller =>
        exact deletePost_leaves env (watch.site.calledBy env.context (some caller)) stars kept.connected
          known postId userId finds
    | listUserPosts userId page limit =>
      cases user with
      | none =>
        have silent : watch.step platform (.call none env (.listUserPosts userId page limit)) =
            watch := by
          rw [Watch.step_unlisted _ rfl, Site.step, Site.handle_anonymous rfl]
        rw [silent]
        exact kept
      | some caller => exact kept.listed caller env userId page limit
    | _ => cases concerns
  | _ => cases concerns

/-- What a listing answers that finds its page unchanged or not at all. -/
theorem Kept.answers (kept : Kept platform watch) (finds : FindsUnchanged platform watch event) :
    AnswersStored platform watch event := by
  unfold AnswersStored
  split
  · rename_i caller env userId page limit
    have listing : (Request.listUserPosts userId page limit).listing =
        some (CrownServer.userPostsPageKey userId page limit, .getUserPosts,
          fun viewer => CrownServer.userPostsParams viewer userId page limit) := rfl
    cases found : rows? (watch.site.world.cache.getJson
        (CrownServer.userPostsPageKey userId page limit)) with
    | some elements =>
      obtain ⟨_, cached, recorded, stored, rfl⟩ :=
        kept.pages.hit (listingKey_of_listing listing) found
      have since := kept.since userId page limit cached recorded (by rw [stored]; simp)
      obtain ⟨rows, read, same⟩ := since.storedPosts kept.known
        (finds cached recorded (by rw [found]; rfl))
      rw [Site.handle_hit _ listing found, read]
      exact ⟨_, rfl, (shownPosts_page ..).trans same⟩
    | none =>
      cases read : (Request.listUserPosts userId page limit).rows platform.service
          watch.site.world.database with
      | none =>
        rw [Site.handle_refused _ listing found read]
        exact ⟨_, rfl, rfl⟩
      | some rows =>
        rw [Site.handle_miss _ listing found read]
        exact ⟨_, rfl, shownPosts_page ..⟩
  · trivial

/-- In every run of such calls in which listings find unchanged pages only, every one answers
what the database would. -/
theorem run_answers (platform : Platform) (stars : Cache.StarMatches platform.glob) {site : Site}
    {events : List Site.Event} (connected : site.world.cache.connected = true)
    (known : site.world.database.AuthorsKnown)
    (uncached : ∀ key, ListingKey key → site.world.cache.entries key = none)
    (run : Run (Guarded (FindsUnchanged platform) (ProfileStep platform)) (Watch.start site) events
      watch) :
    Run (fun watch event after => ProfileStep platform watch event after ∧
      AnswersStored platform watch event) (Watch.start site) events watch := by
  have first : Kept platform (Watch.start site) := by
    refine ⟨connected, known, fun key listed entry found => ?_, fun _ _ _ _ recorded => ?_⟩
    · rw [show (Watch.start site).site = site from rfl, uncached key listed] at found
      cases found
    · cases recorded
  have kept : ∀ (watch : Watch) (event : Site.Event) (after : Watch), Kept platform watch →
      Guarded (FindsUnchanged platform) (ProfileStep platform) watch event after →
      Kept platform after :=
    fun _ _ _ kept ⟨finds, stepped⟩ => step_kept stars kept finds stepped
  exact run.mono_under first kept fun _ _ _ kept ⟨finds, stepped⟩ => ⟨stepped, kept.answers finds⟩

def anaLists : Site.Event := Site.anaCalls (.listUserPosts Site.ana.id 1 20)

def anaPosts (title : Text) : Site.Event := Site.anaCalls (.createPost title title [])

def rereads : List Site.Event := [anaPosts (lit "one"), anaLists, anaLists,
  Site.anaCalls (.deletePost (List.replicate 26 'p' ++ lit "0")), anaLists]

/-- A page that is found again unchanged, and gone once the post is deleted. -/
theorem rereads_answered :
    Run (fun watch event after => ProfileStep .plain watch event after ∧
      AnswersStored .plain watch event) (Watch.start .empty) rereads
      (rereads.foldl (Watch.step .plain) (Watch.start .empty)) := by
  let second := (rereads.take 2).foldl (Watch.step .plain) (Watch.start .empty)
  let third := (rereads.take 3).foldl (Watch.step .plain) (Watch.start .empty)
  have unchanged : ∀ cached ∈ second.cachedPage (CrownServer.userPostsPageKey Site.ana.id 1 20),
      Unchanged second.site.world.database Site.ana.id cached := by
    with_unfolding_all decide
  have plain : ∀ c ∈ Site.ana.id, c ∉ Cache.globChars := Text.forall_of_all (by with_unfolding_all decide)
  have written : ∀ post ∈ third.site.world.database.posts, post.authorId = Site.ana.id := by
    with_unfolding_all decide
  have selected : third.site.world.database.selectPosts Platform.plain.service
      (Tables.postDeletion (List.replicate 26 'p' ++ lit "0")) =
        some third.site.world.database.posts := by
    with_unfolding_all decide
  have own : FindsUnchanged .plain third
      (Site.anaCalls (.deletePost (List.replicate 26 'p' ++ lit "0"))) := by
    intro first found deletes
    obtain rfl : third.site.world.database.posts = found :=
      Option.some.inj (selected.symm.trans deletes.selected)
    exact ⟨plain, written⟩
  have gone : ∀ watch : Watch, (rows? (watch.site.world.cache.getJson
      (CrownServer.userPostsPageKey Site.ana.id 1 20))).isNone →
      FindsUnchanged .plain watch anaLists := by
    intro watch missed cached _ stored
    exact absurd stored (by simpa using missed)
  have run : Run (Guarded (FindsUnchanged .plain) (ProfileStep .plain)) (Watch.start .empty) rereads
      (rereads.foldl (Watch.step .plain) (Watch.start .empty)) :=
    .cons ⟨trivial, rfl, rfl⟩ (.cons ⟨gone _ (by with_unfolding_all decide), rfl, rfl⟩
      (.cons ⟨fun cached recorded _ => unchanged cached recorded, rfl, rfl⟩
        (.cons ⟨own, rfl, rfl⟩ (.cons ⟨gone _ (by with_unfolding_all decide), rfl, rfl⟩ .nil))))
  exact run_answers .plain Site.plain_stars rfl (fun _ member => absurd member List.not_mem_nil)
    (fun _ _ => rfl) run

/-- The second post is missing on the page that was cached before it. -/
theorem secondPost_unlisted : ¬∀ (platform : Platform) (site : Site) (events : List Site.Event)
    (watch : Watch) (event : Site.Event), Cache.StarMatches platform.glob →
    site.world.cache.connected = true → site.world.database.AuthorsKnown →
    (∀ key, ListingKey key → site.world.cache.entries key = none) →
    Run (ProfileStep platform) (Watch.start site) events watch → onProfile event = true →
    AnswersStored platform watch event := by
  intro answers
  let watch := [anaPosts (lit "one"), anaLists, anaPosts (lit "two")].foldl (Watch.step .plain)
    (Watch.start .empty)
  have run : Run (ProfileStep .plain) (Watch.start .empty)
      [anaPosts (lit "one"), anaLists, anaPosts (lit "two")] watch :=
    .cons ⟨rfl, rfl⟩ (.cons ⟨rfl, rfl⟩ (.cons ⟨rfl, rfl⟩ .nil))
  obtain ⟨posts, answered, same⟩ := answers .plain .empty _ watch anaLists Site.plain_stars rfl
    (fun _ member => absurd member List.not_mem_nil) (fun _ _ => rfl) run rfl
  have stale : shownPosts (Answer.posts ⟨Site.ana.id, [], (watch.site.handle .plain (some Site.ana)
      Site.localEnvironment (.listUserPosts Site.ana.id 1 20)).1⟩) ≠
      storedPosts (((Request.listUserPosts Site.ana.id 1 20).rows Platform.plain.service
        watch.site.world.database).getD []) := by
    decide +kernel
  rw [answered] at stale
  exact stale same

end Profile

end Crown
