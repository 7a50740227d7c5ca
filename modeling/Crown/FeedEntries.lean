import Crown.AuthorPosts
import Crown.ViewerAnswers

/-! The entries of the feed and of single posts against the tables, over whole runs of
complete calls. -/
namespace Crown

open Lib

/-- A page of the feed as `get_feed` returns it at this moment, but for what depends on the
viewer and the authors. -/
def FeedEntry (service : DatabaseService) (t : Tables) (page limit : UInt32) (entry : Json) : Prop :=
  ∃ stored : Page, entry = stored.json service ∧
    ∃ rows, (Request.listFeed page limit).rows service t = some rows ∧
      stored.rows.map (·.1) = rows.map (·.1)

/-- The post as its row is at this moment, but for the same. -/
def PostEntry (service : DatabaseService) (t : Tables) (postId : Text) (entry : Json) : Prop :=
  ∃ post ∈ t.posts, post.id = postId ∧
    ∃ viewer author, ∃ tables : Tables, entry = tables.viewedJson service viewer post author

theorem feedPageKey_feed (page limit : UInt32) :
    lit "feed:" <+: CrownServer.feedPageKey page limit := by
  simp only [CrownServer.feedPageKey, Cache.feedKey, List.append_assoc]
  exact List.prefix_append _ _

theorem postKey_not_feed (postId : Text) : ¬lit "feed:" <+: Cache.postKey postId :=
  fun feed => postKey_unlisted postId (.inl feed)

/-- Every entry of the feed is a page as it is now, every entry of a post its row. -/
structure Coherent (service : DatabaseService) (t : Tables) (cache : Cache) : Prop where
  listed : ∀ key, lit "feed:" <+: key → ∀ entry, cache.entries key = some entry →
    ∃ page limit, key = CrownServer.feedPageKey page limit
  feed : ∀ page limit entry, cache.entries (CrownServer.feedPageKey page limit) = some entry →
    FeedEntry service t page limit entry
  posts : ∀ postId entry, cache.entries (Cache.postKey postId) = some entry →
    PostEntry service t postId entry

namespace Coherent

/-- What holds after every run. -/
structure Kept (service : DatabaseService) (t : Tables) (cache : Cache) : Prop where
  connected : cache.connected = true
  known : t.AuthorsKnown
  coherent : Coherent service t cache

variable {service : DatabaseService} {t t' : Tables} {cache cache' : Cache}

theorem of_posts (holds : FeedEntry service t page limit entry) (known : t.AuthorsKnown)
    (known' : t'.AuthorsKnown) (posts : t'.posts = t.posts) :
    FeedEntry service t' page limit entry := by
  obtain ⟨stored, rfl, rows, read, same⟩ := holds
  obtain ⟨positive, start, paged⟩ := Tables.page_posts read known
  obtain ⟨rows', read'⟩ := t'.page_isSome service t'.posts ⟨positive, start⟩
  obtain ⟨_, _, paged'⟩ := Tables.page_posts read' known'
  refine ⟨stored, rfl, rows', read', ?_⟩
  rw [same, paged, paged', posts]

/-- The posts are as before, and entries were at most taken out. -/
theorem Kept.unwritten (kept : Kept service t cache) (known : t'.AuthorsKnown)
    (posts : t'.posts = t.posts) (fewer : Lessens cache cache') : Kept service t' cache' := by
  refine ⟨fewer.connected.trans kept.connected, known, fun key feed entry found => ?_,
    fun page limit entry found => ?_, fun postId entry found => ?_⟩
  · exact kept.coherent.listed key feed entry (fewer.entries key entry found)
  · exact of_posts (kept.coherent.feed page limit entry (fewer.entries _ entry found)) kept.known
      known posts
  · obtain ⟨post, stored, own⟩ := kept.coherent.posts postId entry (fewer.entries _ entry found)
    exact ⟨post, posts ▸ stored, own⟩

/-- The posts are written, the pages of the feed are taken out, and so is every entry of a post
whose row is not there as before. -/
theorem Kept.written (kept : Kept service t cache) (known : t'.AuthorsKnown)
    (fewer : Lessens cache cache') (feed : ∀ key, lit "feed:" <+: key → cache'.entries key = none)
    (rows : ∀ post ∈ t.posts, post ∈ t'.posts ∨ cache'.entries (Cache.postKey post.id) = none) :
    Kept service t' cache' := by
  refine ⟨fewer.connected.trans kept.connected, known, fun key listed entry found => ?_,
    fun page limit entry found => ?_, fun postId entry found => ?_⟩
  · rw [feed key listed] at found
    cases found
  · rw [feed _ (feedPageKey_feed page limit)] at found
    cases found
  · obtain ⟨post, stored, rfl, rest⟩ :=
      kept.coherent.posts postId entry (fewer.entries _ entry found)
    rcases rows post stored with there | out
    · exact ⟨post, there, rfl, rest⟩
    · rw [out] at found
      cases found

section

variable {platform : Platform} (env : Environment) (w : World Tables)

theorem createPost_kept (stars : Cache.StarMatches platform.glob)
    (ids : ∀ drawn, platform.secId drawn ≠ []) (title content imageUrl : Text)
    (kept : Kept platform.service w.database w.cache) :
    let after := ((CrownServer.createPost platform.app title content imageUrl).run
      (platform.backend.answer env) w).2
    Kept platform.service after.database after.cache := by
  have authors := run_known platform env
    (CrownServer.createPost platform.app title content imageUrl) w kept.known
  have fewer := lessens_of_within (createPost_uncaching platform.app title content imageUrl) platform
    env w
  cases known : w.auth.getUser env.context with
  | none =>
    dsimp only
    rw [createPost_refused platform env w title content imageUrl known]
    exact kept
  | some user =>
    rcases createPost_run platform env w title content imageUrl known with
      posts | ⟨post, posts, own, fresh, author, out⟩
    · exact kept.unwritten authors posts fewer
    · obtain ⟨_, pages⟩ := out ids kept.connected
      refine kept.written authors fewer
        (fun key feed => pages key (feedPattern_matches stars feed)) fun other stored => .inl ?_
      rw [posts]
      exact List.mem_append_left _ stored

theorem toggleLike_kept (stars : Cache.StarMatches platform.glob) (postId : Text)
    (kept : Kept platform.service w.database w.cache) :
    let after := ((CrownServer.toggleLike postId).run (platform.backend.answer env) w).2
    Kept platform.service after.database after.cache := by
  have authors := run_known platform env (CrownServer.toggleLike postId) w kept.known
  have fewer := lessens_of_within (toggleLike_uncaching postId) platform env w
  rcases toggleLike_run platform env w postId with posts | ⟨count, posts, out⟩
  · exact kept.unwritten authors posts fewer
  · obtain ⟨entry, pages⟩ := out kept.connected
    refine kept.written authors fewer (fun key feed => pages key (feedPattern_matches stars feed))
      fun post stored => ?_
    by_cases toggled : post.id = postId
    · exact .inr (toggled ▸ entry)
    · refine .inl ?_
      rw [posts]
      exact List.mem_map.mpr ⟨post, stored, if_neg toggled⟩

theorem deletePost_kept (stars : Cache.StarMatches platform.glob) (postId : Text)
    (faithful : w.database.selectPosts platform.service (Tables.postDeletion postId) =
      some (w.database.posts.filter (·.id = postId)))
    (kept : Kept platform.service w.database w.cache) :
    let after := ((CrownServer.deletePost platform.app postId).run (platform.backend.answer env) w).2
    Kept platform.service after.database after.cache := by
  have authors := run_known platform env (CrownServer.deletePost platform.app postId) w kept.known
  have fewer := lessens_of_within (deletePost_uncaching platform.app postId) platform env w
  rcases deletePost_run platform env w postId with
    ⟨first, found, deletes, posts, _, cache⟩ | ⟨_, posts, _⟩
  · have selected := deletes.selected
    rw [faithful] at selected
    cases selected
    refine kept.written authors fewer (fun key feed => ?_) fun post stored => ?_
    · rw [cache]
      refine Option.eq_none_iff_forall_ne_some.mpr fun entry there => ?_
      have earlier := Cache.delPattern_found there
      simp [Cache.delPattern, Cache.del_connected, kept.connected, feedPattern_matches stars feed]
        at earlier
    · by_cases deleted : post.id = postId
      · refine .inr ?_
        rw [cache]
        refine Option.eq_none_iff_forall_ne_some.mpr fun entry there => ?_
        have earlier := Cache.delPattern_found (Cache.delPattern_found there)
        simp [Cache.del, kept.connected, deleted] at earlier
      · refine .inl ?_
        rw [posts]
        exact List.mem_filter.mpr ⟨stored, by simp [deleted]⟩
  · exact kept.unwritten authors posts fewer

theorem getPost_kept (postId : Text) (kept : Kept platform.service w.database w.cache) :
    let after := ((CrownServer.getPost postId).run (platform.backend.answer env) w).2
    Kept platform.service after.database after.cache := by
  obtain ⟨database, same | ⟨viewer, post, author, stored, own, cache⟩⟩ :=
    getPost_run platform env w postId
  · dsimp only
    rw [database, same]
    exact kept
  · dsimp only
    rw [database, cache]
    have other : ∀ key, lit "feed:" <+: key → key ≠ Cache.postKey postId := fun key feed same =>
      postKey_not_feed postId (same ▸ feed)
    refine ⟨(Cache.setJson_connected ..).trans kept.connected, kept.known,
      fun key feed entry found => ?_, fun page limit entry found => ?_,
      fun asked entry found => ?_⟩
    · rw [Cache.setJson_other (other key feed)] at found
      exact kept.coherent.listed key feed entry found
    · rw [Cache.setJson_other (other _ (feedPageKey_feed page limit))] at found
      exact kept.coherent.feed page limit entry found
    · by_cases here : asked = postId
      · subst here
        rw [Cache.setJson_self kept.connected] at found
        cases found
        exact ⟨post, stored, own, viewer, author, w.database, rfl⟩
      · have apart : Cache.postKey asked ≠ Cache.postKey postId := fun same =>
          here (List.append_cancel_left same)
        rw [Cache.setJson_other apart] at found
        exact kept.coherent.posts asked entry found

/-- A page of the feed just read is put into the cache. -/
theorem listed_kept (viewer : Text) {rows : List (PostRow × UserRow)}
    (read : (Request.listFeed page limit).rows platform.service w.database = some rows)
    (kept : Kept platform.service w.database w.cache) :
    Kept platform.service w.database (w.cache.setJson (CrownServer.feedPageKey page limit)
      (Page.json platform.service ⟨viewer, w.database, rows⟩)) := by
  refine ⟨(Cache.setJson_connected ..).trans kept.connected, kept.known,
    fun key feed entry found => ?_, fun page' limit' entry found => ?_,
    fun postId entry found => ?_⟩
  · by_cases same : key = CrownServer.feedPageKey page limit
    · exact ⟨page, limit, same⟩
    · rw [Cache.setJson_other same] at found
      exact kept.coherent.listed key feed entry found
  · by_cases same : CrownServer.feedPageKey page' limit' = CrownServer.feedPageKey page limit
    · rw [same, Cache.setJson_self kept.connected] at found
      cases found
      obtain ⟨pages, limits⟩ := feedPageKey_inj same
      refine ⟨_, rfl, rows, ?_, rfl⟩
      simpa only [Request.rows, pages, limits] using read
    · rw [Cache.setJson_other same] at found
      exact kept.coherent.feed page' limit' entry found
  · have apart : Cache.postKey postId ≠ CrownServer.feedPageKey page limit := fun same =>
      postKey_not_feed postId (same ▸ feedPageKey_feed page limit)
    rw [Cache.setJson_other apart] at found
    exact kept.coherent.posts postId entry found

end

end Coherent

namespace Site

/-- The calls that concern the feed. Time passes between them. -/
def Event.onFeed : Event → Bool
  | .call _ _ (.createPost ..) | .call _ _ (.deletePost _) | .call _ _ (.toggleLike _)
  | .call _ _ (.listFeed ..) | .call _ _ (.getPost _) | .clock _ => true
  | _ => false

/-- The requests by which a deletion looks a post up and deletes it select the row with its
id. -/
def AnswersFaithfully (platform : Platform) (s : Site) : Event → Prop
  | .call _ _ (.deletePost postId) =>
    s.world.database.selectPosts platform.service (postLookup postId) =
        some ((s.world.database.posts.filter (·.id = postId)).take 1) ∧
      s.world.database.selectPosts platform.service (Tables.postDeletion postId) =
        some (s.world.database.posts.filter (·.id = postId))
  | _ => True

/-- What a call of the server does to the database and to the cache. -/
theorem step_call (platform : Platform) (s : Site) (user : Option AuthenticatedUser)
    (env : Environment) (request : Request) :
    let after := ((CrownServer.body platform.app request).run (platform.backend.answer env)
      (s.calledBy env.context user)).2
    (s.step platform (.call user env request)).world.database = after.database ∧
      (s.step platform (.call user env request)).world.cache = after.cache := by
  have state : ((CrownServer.handle platform.app request).run (platform.backend.answer env)
      (s.calledBy env.context user)).2 = ((CrownServer.body platform.app request).run
        (platform.backend.answer env) (s.calledBy env.context user)).2 :=
    Program.run_recover_state ..
  dsimp only
  rw [← state]
  exact ⟨rfl, rfl⟩

theorem listFeed_kept {platform : Platform} {s : Site} (user : Option AuthenticatedUser)
    (env : Environment) (page limit : UInt32)
    (kept : Coherent.Kept platform.service s.world.database s.world.cache) :
    Coherent.Kept platform.service
      (s.step platform (.call user env (.listFeed page limit))).world.database
      (s.step platform (.call user env (.listFeed page limit))).world.cache := by
  have listing : (Request.listFeed page limit).listing = some (CrownServer.feedPageKey page limit,
      .getFeed, fun viewer => CrownServer.feedParams viewer page limit) := rfl
  cases user with
  | none =>
    rw [step, handle_anonymous (by rw [listing]; rfl)]
    exact kept
  | some caller =>
    cases cached : rows? (s.world.cache.getJson (CrownServer.feedPageKey page limit)) with
    | some elements =>
      have found : ∃ stored : Page, rows? (s.world.cache.getJson
          (CrownServer.feedPageKey page limit)) = some (stored.elements platform.service) := by
        unfold Cache.getJson at cached ⊢
        rw [if_pos kept.connected] at cached ⊢
        cases entry : s.world.cache.entries (CrownServer.feedPageKey page limit) with
        | none =>
          rw [entry] at cached
          cases cached
        | some json =>
          obtain ⟨stored, rfl, _⟩ := kept.coherent.feed page limit json entry
          exact ⟨stored, rfl⟩
      obtain ⟨stored, hit⟩ := found
      rw [step, handle_hit _ listing hit]
      exact kept
    | none =>
      cases read : (Request.listFeed page limit).rows platform.service s.world.database with
      | none =>
        rw [step, handle_refused _ listing cached read]
        exact kept
      | some rows =>
        rw [step, handle_miss _ listing cached read]
        exact Coherent.listed_kept s.world caller.id read kept

theorem step_kept {platform : Platform} (stars : Cache.StarMatches platform.glob)
    (ids : ∀ drawn, platform.secId drawn ≠ []) {s : Site} {event : Event}
    (onFeed : event.onFeed = true) (faithful : AnswersFaithfully platform s event)
    (kept : Coherent.Kept platform.service s.world.database s.world.cache) :
    Coherent.Kept platform.service (s.step platform event).world.database
      (s.step platform event).world.cache := by
  cases event with
  | call user env request =>
    cases request with
    | listFeed page limit => exact listFeed_kept user env page limit kept
    | createPost title content imageUrl =>
      obtain ⟨database, cache⟩ := step_call platform s user env (.createPost title content imageUrl)
      rw [database, cache]
      exact Coherent.createPost_kept env (s.calledBy env.context user) stars ids title content
        imageUrl kept
    | getPost postId =>
      obtain ⟨database, cache⟩ := step_call platform s user env (.getPost postId)
      rw [database, cache]
      exact Coherent.getPost_kept env (s.calledBy env.context user) postId kept
    | deletePost postId =>
      obtain ⟨database, cache⟩ := step_call platform s user env (.deletePost postId)
      rw [database, cache]
      exact Coherent.deletePost_kept env (s.calledBy env.context user) stars postId faithful.2 kept
    | toggleLike postId =>
      obtain ⟨database, cache⟩ := step_call platform s user env (.toggleLike postId)
      rw [database, cache]
      exact Coherent.toggleLike_kept env (s.calledBy env.context user) stars postId kept
    | _ => cases onFeed
  | clock now => exact kept.unwritten kept.known rfl (.refl _)
  | _ => cases onFeed

/-- In every run of such calls, while the database selects the rows with the ids it is asked
for, the entries of the feed and of the posts say what the tables say. -/
theorem run_coherent (platform : Platform) (stars : Cache.StarMatches platform.glob)
    (ids : ∀ drawn, platform.secId drawn ≠ []) {start s : Site} {events : List Event}
    (connected : start.world.cache.connected = true) (known : start.world.database.AuthorsKnown)
    (coherent : Coherent platform.service start.world.database start.world.cache)
    (run : Run (Guarded (AnswersFaithfully platform)
      fun s event s' => event.onFeed = true ∧ s' = s.step platform event) start events s) :
    Coherent platform.service s.world.database s.world.cache := by
  have first : Coherent.Kept platform.service start.world.database start.world.cache :=
    ⟨connected, known, coherent⟩
  have kept : ∀ (s : Site) (event : Event) (s' : Site),
      Coherent.Kept platform.service s.world.database s.world.cache →
      Guarded (AnswersFaithfully platform)
        (fun s event s' => event.onFeed = true ∧ s' = s.step platform event) s event s' →
      Coherent.Kept platform.service s'.world.database s'.world.cache := by
    rintro s event _ kept ⟨faithful, onFeed, rfl⟩
    exact step_kept stars ids onFeed faithful kept
  exact (run.invariant first kept).coherent

theorem plain_stars : Cache.StarMatches Platform.plain.glob := by
  intro start rest _
  have star : lit "*" = ['*'] := by with_unfolding_all decide
  show (start ++ lit "*").dropLast.isPrefixOf (start ++ rest) = true
  rw [star, List.dropLast_concat, List.isPrefixOf_iff_prefix]
  exact List.prefix_append _ _

theorem plain_ids (drawn : Nat) : Platform.plain.secId drawn ≠ [] := by
  show List.replicate 26 'p' ++ _ ≠ []
  simp

def anaCalls (request : Request) : Event := .call (some ana) localEnvironment request

def feedCalls : List Event := [anaCalls (.createPost (lit "one") (lit "one") []),
  anaCalls (.createPost (lit "two") (lit "two") []), anaCalls (.listFeed 1 20),
  anaCalls (.deletePost (List.replicate 26 'p' ++ lit "0")),
  anaCalls (.getPost (List.replicate 26 'p' ++ lit "1")), anaCalls (.listFeed 1 20)]

/-- Two posts, one of which is deleted; the other one and the feed are in the cache. -/
theorem feedCalls_coherent :
    let s := feedCalls.foldl (step .plain) empty
    Coherent Platform.plain.service s.world.database s.world.cache ∧
      (s.world.cache.entries (CrownServer.feedPageKey 1 20)).isSome ∧
      (s.world.cache.entries (Cache.postKey (List.replicate 26 'p' ++ lit "1"))).isSome := by
  refine ⟨?_, by decide +kernel, by decide +kernel⟩
  have free : ∀ key entry, empty.world.cache.entries key ≠ some entry := by
    rintro key entry ⟨⟩
  have nothing : Coherent Platform.plain.service empty.world.database empty.world.cache :=
    ⟨fun _ _ _ found => absurd found (free _ _), fun _ _ _ found => absurd found (free _ _),
      fun _ _ found => absurd found (free _ _)⟩
  have faithful : AnswersFaithfully .plain ((feedCalls.take 3).foldl (step .plain) empty)
      (anaCalls (.deletePost (List.replicate 26 'p' ++ lit "0"))) :=
    ⟨by decide +kernel, by decide +kernel⟩
  have run : Run (Guarded (AnswersFaithfully .plain)
      fun s event s' => event.onFeed = true ∧ s' = s.step .plain event) empty feedCalls
      (feedCalls.foldl (step .plain) empty) :=
    .cons ⟨trivial, rfl, rfl⟩ (.cons ⟨trivial, rfl, rfl⟩ (.cons ⟨trivial, rfl, rfl⟩
      (.cons ⟨faithful, rfl, rfl⟩ (.cons ⟨trivial, rfl, rfl⟩ (.cons ⟨trivial, rfl, rfl⟩ .nil)))))
  exact run_coherent .plain plain_stars plain_ids rfl
    (fun _ member => absurd member List.not_mem_nil) nothing run

end Site
end Crown
