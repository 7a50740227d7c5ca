import Crown.Server

/-! Which cache entries the handlers touch. The pages of `ListFeed` and `ListUserPosts`
are read and written by these two only; the other handlers at most remove them. -/
namespace Crown

open Lib Program

/-- The keys of listed pages begin like this. -/
def ListingKey (key : Text) : Prop := lit "feed:" <+: key ∨ lit "uposts:" <+: key

theorem feedPageKey_listing (page limit : UInt32) :
    ListingKey (CrownServer.feedPageKey page limit) := by
  simp only [CrownServer.feedPageKey, Cache.feedKey, List.append_assoc]
  exact Or.inl (List.prefix_append _ _)

theorem userPostsPageKey_listing (userId : Text) (page limit : UInt32) :
    ListingKey (CrownServer.userPostsPageKey userId page limit) := by
  simp only [CrownServer.userPostsPageKey, Cache.userPostsKey, List.append_assoc]
  exact Or.inr (List.prefix_append _ _)

theorem feedPageKey_inj
    (same : CrownServer.feedPageKey page limit = CrownServer.feedPageKey page' limit') :
    CrownServer.pageOrFirst page = CrownServer.pageOrFirst page' ∧
      CrownServer.limitOrDefault limit = CrownServer.limitOrDefault limit' := by
  obtain ⟨pages, limits⟩ := Cache.feedKey_inj same
  exact ⟨toInt32_toNat_inj pages, toInt32_toNat_inj limits⟩

theorem userPostsPageKey_inj (same : CrownServer.userPostsPageKey userId page limit =
      CrownServer.userPostsPageKey userId' page' limit') :
    userId = userId' ∧ CrownServer.pageOrFirst page = CrownServer.pageOrFirst page' ∧
      CrownServer.limitOrDefault limit = CrownServer.limitOrDefault limit' := by
  obtain ⟨users, pages, limits⟩ := Cache.userPostsKey_inj same
  exact ⟨users, toInt32_toNat_inj pages, toInt32_toNat_inj limits⟩

/-- The pattern of `invalidate_feed` matches what begins like a page of the feed. -/
theorem feedPattern_matches {glob : Text → Text → Bool} (stars : Cache.StarMatches glob)
    (feed : lit "feed:" <+: key) : glob Cache.feedPattern key = true := by
  obtain ⟨rest, rfl⟩ := feed
  have pattern : Cache.feedPattern = lit "feed:" ++ lit "*" := by with_unfolding_all decide
  rw [pattern]
  exact stars _ rest (Text.forall_of_all (by with_unfolding_all decide))

/-- The pattern of `invalidate_user_posts` matches every page of the user's posts. -/
theorem userPostsPattern_matches {glob : Text → Text → Bool} (stars : Cache.StarMatches glob)
    (plain : ∀ c ∈ userId, c ∉ Cache.globChars) (page limit : UInt32) :
    glob (Cache.userPostsPattern userId) (CrownServer.userPostsPageKey userId page limit) = true := by
  have ends : lit ":*" = lit ":" ++ lit "*" := by with_unfolding_all decide
  have literal : (∀ c ∈ lit "uposts:", c ∉ Cache.globChars) ∧ ∀ c ∈ lit ":", c ∉ Cache.globChars :=
    ⟨Text.forall_of_all (by with_unfolding_all decide), Text.forall_of_all (by with_unfolding_all decide)⟩
  have pattern : Cache.userPostsPattern userId = (lit "uposts:" ++ userId ++ lit ":") ++ lit "*" := by
    rw [Cache.userPostsPattern, ends, List.append_assoc, List.append_assoc, List.append_assoc]
  have key : CrownServer.userPostsPageKey userId page limit = (lit "uposts:" ++ userId ++ lit ":") ++
      (Text.decimal (toInt32 (CrownServer.pageOrFirst page).toNat) ++ lit ":" ++
        Text.decimal (toInt32 (CrownServer.limitOrDefault limit).toNat)) := by
    simp only [CrownServer.userPostsPageKey, Cache.userPostsKey, List.append_assoc]
  rw [pattern, key]
  refine stars _ _ fun c member => ?_
  simp only [List.mem_append] at member
  rcases member with (start | user) | colon
  · exact literal.1 c start
  · exact plain c user
  · exact literal.2 c colon

theorem starts_apart : ∀ start ∈ [lit "post:", lit "user:", lit "handleuser:", lit "pcount:"],
    (¬lit "feed:" <+: start ∧ ¬start <+: lit "feed:") ∧
      ¬lit "uposts:" <+: start ∧ ¬start <+: lit "uposts:" := by
  with_unfolding_all decide

/-- A key that begins otherwise is none of a listed page. -/
theorem not_listingKey {start : Text}
    (other : start ∈ [lit "post:", lit "user:", lit "handleuser:", lit "pcount:"]) (rest : Text) :
    ¬ListingKey (start ++ rest) := by
  obtain ⟨⟨feed, feed'⟩, posts, posts'⟩ := starts_apart start other
  rintro (listed | listed)
  · rcases List.prefix_or_prefix_of_prefix listed (List.prefix_append start rest) with h | h
    · exact feed h
    · exact feed' h
  · rcases List.prefix_or_prefix_of_prefix listed (List.prefix_append start rest) with h | h
    · exact posts h
    · exact posts' h

theorem postKey_unlisted (id : Text) : ¬ListingKey (Cache.postKey id) :=
  not_listingKey (by simp) id

theorem userKey_unlisted (id : Text) : ¬ListingKey (Cache.userKey id) :=
  not_listingKey (by simp) id

theorem handleKey_unlisted (handle : Text) : ¬ListingKey (Cache.handleKey handle) :=
  not_listingKey (by simp) handle

theorem postCountKey_unlisted (userId : Text) : ¬ListingKey (Cache.postCountKey userId) :=
  not_listingKey (by simp) userId

/-- A request that neither reads a cache entry nor stores one. -/
def Uncaching : Op → Prop
  | .cacheGet _ | .cacheSet .. => False
  | _ => True

/-- A request that neither reads nor writes the entry of a listed page. -/
def Unlisted : Op → Prop
  | .cacheGet key | .cacheSet key _ _ => ¬ListingKey key
  | _ => True

/-- A program of unlisted requests, whatever is replied. -/
abbrev Unlisting (p : Handler α) : Prop := p.Within Unlisted fun _ _ => True

/-- A request that reads and stores entries under keys of one kind only. -/
def OnKeys (kind : Text → Prop) : Op → Prop
  | .cacheGet key | .cacheSet key _ _ => kind key
  | _ => True

/-- A program that reads and stores entries under keys of one kind only, whatever is replied. -/
abbrev Keyed (kind : Text → Prop) (p : Handler α) : Prop := p.Within (OnKeys kind) fun _ _ => True

theorem OnKeys.mono (wider : ∀ key, kind key → kind' key) (op : Op) (keyed : OnKeys kind op) :
    OnKeys kind' op := by
  cases op with
  | cacheGet | cacheSet => exact wider _ keyed
  | _ => trivial

theorem OnKeys.unlisted (op : Op) (keyed : OnKeys (¬ListingKey ·) op) : Unlisted op := by
  cases op <;> exact keyed

theorem Uncaching.onKeys (op : Op) (uncaching : Uncaching op) : OnKeys kind op := by
  cases op with
  | cacheGet | cacheSet => exact uncaching.elim
  | _ => trivial

/-- The caller's row is looked up, and then changed or written. -/
theorem upsertUser_within {allowed : Op → Prop} (looks : ∀ query, allowed (.select query))
    (changes : ∀ query row, allowed (.update query row))
    (writes : ∀ table row, allowed (.insert table row)) (draws : ∀ len, allowed (.randomHex len))
    (u : AuthenticatedUser) : (upsertUser u).Within allowed fun _ _ => True := by
  unfold upsertUser
  split
  · trivial
  · refine within_call (looks _) fun check => ?_
    split
    · split
      · exact within_call (changes _ _) fun _ => trivial
      · trivial
    · refine within_call (looks _) fun taken => ?_
      dsimp only
      split
      · exact within_call (draws _) fun suffix => within_bind trivial fun handle =>
          within_call (writes _ _) fun _ => trivial
      · exact within_bind trivial fun handle => within_call (writes _ _) fun _ => trivial

theorem upsertUser_uncaching (u : AuthenticatedUser) :
    (upsertUser u).Within Uncaching fun _ _ => True :=
  upsertUser_within (fun _ => trivial) (fun _ _ => trivial) (fun _ _ => trivial)
    (fun _ => trivial) u

theorem countUserPosts_keys (userId : Text) :
    Keyed (· = Cache.postCountKey userId) (countUserPosts userId) := by
  refine within_call rfl fun cached => ?_
  split
  · exact within_call rfl fun _ => trivial
  · exact within_call trivial fun total => within_call rfl fun _ => trivial

theorem createPost_uncaching (app : AppContext) (title content imageUrl : Text) :
    (CrownServer.createPost app title content imageUrl).Within Uncaching fun _ _ => True := by
  refine within_call trivial fun user => ?_
  split
  · trivial
  · split
    · trivial
    · refine within_bind (upsertUser_uncaching _) fun _ => within_call trivial fun idSec =>
        within_call trivial fun created => within_bind trivial fun postId => ?_
      split
      · trivial
      · exact within_call trivial fun result => within_bind trivial fun post =>
          within_call trivial fun _ => within_call trivial fun _ => trivial

theorem getPost_keys (postId : Text) :
    Keyed (· = Cache.postKey postId) (CrownServer.getPost postId) := by
  refine within_call rfl fun cached => ?_
  split
  · exact within_bind trivial fun post => trivial
  · refine within_call trivial fun user => within_call trivial fun result => ?_
    split
    · split
      · exact within_bind trivial fun post => within_call rfl fun _ => trivial
      · trivial
    · trivial

theorem removePost_uncaching (app : AppContext) (postId authorId imageUrl : Text) :
    (CrownServer.removePost app postId authorId imageUrl).Within Uncaching fun _ _ => True := by
  have invalidated : (do
      invalidatePost postId
      invalidateFeed
      invalidateUserPosts authorId
      return .ok .empty : Handler (Except Status Response)).Within Uncaching fun _ _ => True :=
    within_call trivial fun _ => within_call trivial fun _ => within_call trivial fun _ => trivial
  refine within_call trivial fun delStatus => ?_
  split
  · trivial
  · split
    · refine within_call trivial fun hashes => ?_
      split
      · refine within_bind trivial fun fileId => within_call trivial fun _ => ?_
        split
        · exact within_call trivial fun _ => invalidated
        · exact invalidated
      · exact invalidated
    · exact invalidated

theorem deletePost_uncaching (app : AppContext) (postId : Text) :
    (CrownServer.deletePost app postId).Within Uncaching fun _ _ => True := by
  refine within_call trivial fun user => ?_
  split
  · trivial
  · split
    · trivial
    · refine within_call trivial fun result => ?_
      split
      · refine within_bind trivial fun authorId => ?_
        split
        · trivial
        · exact within_bind trivial fun imageUrl => removePost_uncaching app postId _ _
      · trivial

theorem listPosts_keys (cacheKey : Text) (function : StoredFunction) (params : Json) :
    Keyed (· = cacheKey) (CrownServer.listPosts cacheKey function params) := by
  refine within_call rfl fun cached => ?_
  split
  · exact within_bind trivial fun posts => trivial
  · refine within_call trivial fun result => ?_
    split
    · exact within_bind trivial fun posts => within_call rfl fun _ => trivial
    · trivial

theorem lookupUser_keys (cacheKey : Text) (query : QueryBuilder) (missing : Status) :
    Keyed (· = cacheKey) (CrownServer.lookupUser cacheKey query missing) := by
  refine within_call rfl fun cached => ?_
  split
  · exact within_bind trivial fun user => trivial
  · refine within_call trivial fun result => ?_
    split
    · exact within_bind trivial fun user => within_call rfl fun _ => trivial
    · trivial

theorem toggleLike_uncaching (postId : Text) :
    (CrownServer.toggleLike postId).Within Uncaching fun _ _ => True := by
  refine within_call trivial fun user => ?_
  split
  · trivial
  · split
    · trivial
    · refine within_call trivial fun result => ?_
      split
      · exact within_bind trivial fun isLiked => within_bind trivial fun count =>
          within_call trivial fun _ => within_call trivial fun _ =>
            within_call trivial fun _ => trivial
      · trivial

theorem exchangeCodeForToken_uncaching (app : AppContext) (authorizationCode redirectUri : Text) :
    (CrownServer.exchangeCodeForToken app authorizationCode redirectUri).Within Uncaching
      fun _ _ => True := by
  unfold CrownServer.exchangeCodeForToken
  split
  · exact within_call trivial fun _ => trivial
  · trivial

theorem login_keys (app : AppContext) (authorizationCode redirectUri : Text) :
    Keyed (fun key => ∃ userId, key = Cache.postCountKey userId)
      (CrownServer.login app authorizationCode redirectUri) := by
  unfold CrownServer.login
  split
  · trivial
  · split
    · trivial
    · refine within_bind ((exchangeCodeForToken_uncaching app _ _).mono Uncaching.onKeys)
        fun exchanged => ?_
      split
      · trivial
      · refine within_call trivial fun validated => within_bind trivial fun user => ?_
        split
        · trivial
        · refine within_bind ((upsertUser_uncaching _).mono Uncaching.onKeys) fun _ => ?_
          refine within_bind ((countUserPosts_keys _).mono (OnKeys.mono fun key own => ⟨_, own⟩))
            fun count => ?_
          exact within_call trivial fun _ => trivial

theorem refreshAccessToken_uncaching (app : AppContext) (refreshToken : Text) :
    (CrownServer.refreshAccessToken app refreshToken).Within Uncaching fun _ _ => True := by
  unfold CrownServer.refreshAccessToken
  split
  · trivial
  · refine within_bind ?_ fun exchanged => by split <;> trivial
    unfold CrownServer.exchangeRefreshToken
    split
    · exact within_call trivial fun _ => trivial
    · trivial

/-- The keys under which a handler reads and stores entries. -/
def Request.UsesKey : Request → Text → Prop
  | .getPost postId, key => key = Cache.postKey postId
  | .listFeed page limit, key => key = CrownServer.feedPageKey page limit
  | .listUserPosts userId page limit, key => key = CrownServer.userPostsPageKey userId page limit
  | .getUserById userId, key => key = Cache.userKey userId
  | .getUserByHandle handle, key => key = Cache.handleKey (CrownServer.bareHandle handle)
  | .login .., key => ∃ userId, key = Cache.postCountKey userId
  | _, _ => False

theorem handle_keys (app : AppContext) (request : Request) :
    Keyed request.UsesKey (CrownServer.handle app request) := by
  rw [Keyed, CrownServer.handle, within_recover]
  cases request with
  | createPost title content imageUrl =>
    exact (createPost_uncaching app title content imageUrl).mono Uncaching.onKeys
  | getPost postId => exact getPost_keys postId
  | deletePost postId => exact (deletePost_uncaching app postId).mono Uncaching.onKeys
  | listFeed page limit =>
    refine within_call trivial fun user => ?_
    split
    · trivial
    · exact listPosts_keys _ _ _
  | listUserPosts userId page limit =>
    refine within_call trivial fun user => ?_
    split
    · trivial
    · exact listPosts_keys _ _ _
  | getUserById userId =>
    simp only [CrownServer.body, CrownServer.getUserById]
    split
    · trivial
    · exact lookupUser_keys _ _ _
  | getUserByHandle handle =>
    simp only [CrownServer.body, CrownServer.getUserByHandle]
    split
    · trivial
    · exact lookupUser_keys _ _ _
  | toggleLike postId => exact (toggleLike_uncaching postId).mono Uncaching.onKeys
  | login authorizationCode redirectUri => exact login_keys app authorizationCode redirectUri
  | refreshAccessToken refreshToken =>
    exact (refreshAccessToken_uncaching app refreshToken).mono Uncaching.onKeys

/-- The listings: the cache key, the stored function, and its parameters for a viewer. -/
def Request.listing : Request → Option (Text × StoredFunction × (Text → Json))
  | .listFeed page limit => some (CrownServer.feedPageKey page limit, .getFeed,
      fun viewer => CrownServer.feedParams viewer page limit)
  | .listUserPosts userId page limit => some (CrownServer.userPostsPageKey userId page limit,
      .getUserPosts, fun viewer => CrownServer.userPostsParams viewer userId page limit)
  | _ => none

theorem listingKey_of_listing {request : Request}
    (listing : request.listing = some (key, function, params)) : ListingKey key := by
  cases request <;> cases listing
  · exact feedPageKey_listing _ _
  · exact userPostsPageKey_listing _ _ _

/-- The other requests use keys that begin otherwise. -/
theorem not_listingKey_of_usesKey {request : Request} (other : request.listing = none)
    (uses : request.UsesKey key) : ¬ListingKey key := by
  cases request with
  | listFeed | listUserPosts => cases other
  | getPost postId =>
    cases uses
    exact postKey_unlisted postId
  | getUserById userId =>
    cases uses
    exact userKey_unlisted userId
  | getUserByHandle handle =>
    cases uses
    exact handleKey_unlisted _
  | login authorizationCode redirectUri =>
    obtain ⟨userId, rfl⟩ := uses
    exact postCountKey_unlisted userId
  | _ => exact uses.elim

theorem handle_unlisting (app : AppContext) (request : Request) (other : request.listing = none) :
    Unlisting (CrownServer.handle app request) :=
  (handle_keys app request).mono fun _ keyed =>
    (keyed.mono fun _ uses => not_listingKey_of_usesKey other uses).unlisted

end Crown
