import Crown.ListingKeys
import Crown.Site

/-! What a viewer reads on a page: the rows of the stored functions, parsed. -/
namespace Crown

open Lib

namespace UserRow

/-- The author as the handlers parse it. -/
def user (timestamp : Int → Text) (row : UserRow) : User :=
  ⟨row.id, row.username, row.handle, row.displayName, row.avatar, row.bio,
    toUInt32 row.followersCount, toUInt32 row.followingCount, toUInt32 row.postsCount,
    timestamp row.createdAt⟩

theorem members_distinct (timestamp : Int → Text) (row : UserRow) :
    ((row.members timestamp).map (·.1)).Nodup := by
  have distinct : [lit "id", lit "username", lit "handle", lit "display_name", lit "avatar",
      lit "bio", lit "followers_count", lit "following_count", lit "posts_count",
      lit "created_at"].Nodup := by simp
  exact distinct

theorem readAuthor_json (timestamp : Int → Text) (row : UserRow) :
    readAuthor (row.json timestamp) = .ok (row.user timestamp) := by
  have found : ∀ member ∈ row.members timestamp,
      (row.json timestamp).find member.1 = some member.2 :=
    Json.find_object (row.members_distinct timestamp)
  simp only [members, List.forall_mem_cons] at found
  obtain ⟨id, username, handle, displayName, avatar, bio, followers, following, posts, created, _⟩ :=
    found
  have object : readAuthor (row.json timestamp) =
      ((row.json timestamp).jsonOr Json.getString (lit "id") [] >>= fun id =>
        readUser id (row.json timestamp)) := rfl
  simp only [object, readUser, Json.jsonOr, id, username, handle, displayName, avatar, bio, followers,
    following, posts, created]
  rfl

end UserRow

namespace Tables

variable {t : Tables} {service : DatabaseService}

/-- The post as the handlers parse it. -/
def viewedPost (service : DatabaseService) (t : Tables) (viewer : Text) (post : PostRow)
    (author : UserRow) : Post :=
  ⟨post.id, some (author.user service.timestamp), post.title, post.content, post.imageUrl,
    toUInt32 post.likesCount, toUInt32 post.commentsCount, decide ((viewer, post.id) ∈ t.likes),
    service.timestamp post.createdAt⟩

theorem viewedMembers_distinct (viewer : Text) (post : PostRow) (author : UserRow) :
    ((t.viewedMembers service viewer post author).map (·.1)).Nodup := by
  have distinct : [lit "id", lit "title", lit "content", lit "image_url", lit "likes_count",
      lit "comments_count", lit "created_at", lit "author", lit "is_liked_by_me"].Nodup := by
    simp
  exact distinct

theorem parsePost_viewedJson (viewer : Text) (post : PostRow) (author : UserRow) :
    parsePost (t.viewedJson service viewer post author) =
      .ok (some (t.viewedPost service viewer post author)) := by
  have found : ∀ member ∈ t.viewedMembers service viewer post author,
      (t.viewedJson service viewer post author).find member.1 = some member.2 :=
    Json.find_object (viewedMembers_distinct viewer post author)
  simp only [viewedMembers, PostRow.members, List.cons_append, List.nil_append,
    List.forall_mem_cons] at found
  obtain ⟨id, title, content, imageUrl, likes, comments, created, writer, liked, _⟩ := found
  have embedded : (t.viewedJson service viewer post author).present (lit "author") =
      some (author.json service.timestamp) := by
    simp only [Json.present, writer]
    rfl
  have known : (t.viewedJson service viewer post author).present (lit "id") =
      some (.string post.id) := by
    simp only [Json.present, id]
  simp only [parsePost, known, embedded, UserRow.readAuthor_json, Json.jsonOr, title, content,
    imageUrl, likes, comments, created, liked]
  rfl

end Tables

/-- A page of posts as it was read for a viewer. -/
structure Page where
  viewer : Text
  tables : Tables
  rows : List (PostRow × UserRow)

namespace Page

def elements (service : DatabaseService) (page : Page) : List Json :=
  page.rows.map fun row => page.tables.viewedJson service page.viewer row.1 row.2

def json (service : DatabaseService) (page : Page) : Json := .array (page.elements service)

def posts (service : DatabaseService) (page : Page) : List Post :=
  page.rows.map fun row => page.tables.viewedPost service page.viewer row.1 row.2

theorem parsePosts_elements (service : DatabaseService) (page : Page) :
    parsePosts (page.elements service) = .ok (page.posts service) := by
  obtain ⟨viewer, tables, rows⟩ := page
  unfold elements posts
  induction rows with
  | nil => rfl
  | cons row rows ih =>
    simp only [List.map_cons, parsePosts, Tables.parsePost_viewedJson]
    dsimp only at ih
    rw [ih]
    rfl

end Page

/-- The rows a listing asks the database for; nothing when the page is refused. -/
def Request.rows (service : DatabaseService) (t : Tables) :
    Request → Option (List (PostRow × UserRow))
  | .listFeed page limit => t.page service t.posts
      (toInt32 (CrownServer.limitOrDefault limit).toNat)
      (CrownServer.pageOffset (CrownServer.pageOrFirst page) (CrownServer.limitOrDefault limit))
  | .listUserPosts userId page limit => t.page service (t.posts.filter (·.authorId = userId))
      (toInt32 (CrownServer.limitOrDefault limit).toNat)
      (CrownServer.pageOffset (CrownServer.pageOrFirst page) (CrownServer.limitOrDefault limit))
  | _ => none

variable {request : Request} {key : Text} {function : StoredFunction} {params : Text → Json}

theorem call_listing (listing : request.listing = some (key, function, params))
    (service : DatabaseService) (t : Tables) (viewer : Text) :
    t.call service function (params viewer) =
      t.pageReply service viewer (request.rows service t) := by
  have names : lit "p_user_id" ≠ lit "p_limit" ∧ lit "p_user_id" ≠ lit "p_offset" ∧
      lit "p_limit" ≠ lit "p_offset" ∧ lit "p_user_id" ≠ lit "p_author_id" ∧
      lit "p_author_id" ≠ lit "p_limit" ∧ lit "p_author_id" ≠ lit "p_offset" := by
    simp
  obtain ⟨userLimit, userOffset, limitOffset, userAuthor, authorLimit, authorOffset⟩ := names
  cases request <;> cases listing
  · simp [Tables.call, CrownServer.feedParams, Json.text, Json.int, Json.find, userLimit, userOffset,
      limitOffset, Request.rows]
  · simp [Tables.call, CrownServer.userPostsParams, Json.text, Json.int, Json.find, userLimit,
      userOffset, limitOffset, userAuthor, authorLimit, authorOffset, Request.rows]

theorem listing_reads (listing : request.listing = some (key, function, params)) :
    function = .getFeed ∨ function = .getUserPosts := by
  cases request <;> cases listing
  · exact Or.inl rfl
  · exact Or.inr rfl

/-- A listing asks who its caller is, and lists. -/
theorem body_listing (listing : request.listing = some (key, function, params)) (app : AppContext) :
    CrownServer.body app request = .perform .getUser fun
      | none => .done (.ok (.error notAuthenticated))
      | some user => CrownServer.listPosts key function (params user.id) := by
  cases request <;> cases listing <;> 
    refine congrArg (Program.perform Op.getUser) (funext fun user => ?_) <;>
    cases user <;> rfl

section

variable {platform : Platform} {env : Environment} {w : World Tables}

theorem listing_anonymous (listing : request.listing = some (key, function, params))
    (unknown : w.auth.getUser env.context = none) :
    (CrownServer.handle platform.app request).run (platform.backend.answer env) w =
      (.ok (.error notAuthenticated), w) := by
  simp only [CrownServer.handle, body_listing listing, Program.recover, Program.run_perform,
    Backend.answer, unknown]
  rfl

/-- What a known caller's listing begins with. -/
theorem listing_known (listing : request.listing = some (key, function, params))
    (known : w.auth.getUser env.context = some user) :
    (CrownServer.handle platform.app request).run (platform.backend.answer env) w =
      ((CrownServer.listPosts key function (params user.id)).recover
        fun e => .error ⟨.internal, e.what⟩).run (platform.backend.answer env) w := by
  have replied : platform.backend.answer env .getUser w = (some user, w) := congrArg (·, w) known
  simp only [CrownServer.handle, body_listing listing, Program.recover, Program.run_perform, replied]

/-- The page is in the cache already. -/
theorem listing_hit (listing : request.listing = some (key, function, params))
    (known : w.auth.getUser env.context = some user)
    (cached : rows? (w.cache.getJson key) = some elements)
    (readable : parsePosts elements = .ok posts) :
    (CrownServer.handle platform.app request).run (platform.backend.answer env) w =
      (.ok (.ok (.postList posts)), w) := by
  have replied : platform.backend.answer env (.cacheGet key) w = (w.cache.getJson key, w) := rfl
  rw [listing_known listing known]
  simp only [CrownServer.listPosts, Program.call_bind, Program.recover, Program.run_perform, replied,
    cached, readable, Program.liftM_eq, Program.done_ok_bind]
  rfl

/-- The page is read for the caller and put into the cache. -/
theorem listing_miss (listing : request.listing = some (key, function, params))
    (known : w.auth.getUser env.context = some user) (missed : rows? (w.cache.getJson key) = none)
    (read : request.rows platform.service w.database = some rows) :
    (CrownServer.handle platform.app request).run (platform.backend.answer env) w =
      (.ok (.ok (.postList (Page.posts platform.service ⟨user.id, w.database, rows⟩))),
        { w with
          cache := w.cache.setJson key (Page.json platform.service ⟨user.id, w.database, rows⟩) }) := by
  have replied : platform.backend.answer env (.cacheGet key) w = (w.cache.getJson key, w) := rfl
  have called : platform.backend.answer env (.rpc function (params user.id)) w =
      (some (Page.json platform.service ⟨user.id, w.database, rows⟩), w) := by
    have reply := call_listing listing platform.service w.database user.id
    rw [read] at reply
    rcases listing_reads listing with rfl | rfl <;> exact congrArg (·, w) reply
  have elements : rows? (some (Page.json platform.service ⟨user.id, w.database, rows⟩)) =
      some (Page.elements platform.service ⟨user.id, w.database, rows⟩) := rfl
  rw [listing_known listing known]
  simp only [CrownServer.listPosts, Program.call_bind, Program.recover, Program.run_perform, replied,
    missed, called, elements, Page.parsePosts_elements, Program.liftM_eq, Program.done_ok_bind]
  rfl

theorem listing_refused (listing : request.listing = some (key, function, params))
    (known : w.auth.getUser env.context = some user) (missed : rows? (w.cache.getJson key) = none)
    (refused : request.rows platform.service w.database = none) :
    (CrownServer.handle platform.app request).run (platform.backend.answer env) w =
      (.ok (.ok (.postList [])), w) := by
  have replied : platform.backend.answer env (.cacheGet key) w = (w.cache.getJson key, w) := rfl
  have called : platform.backend.answer env (.rpc function (params user.id)) w =
      (some Tables.failedCall, w) := by
    have reply := call_listing listing platform.service w.database user.id
    rw [refused] at reply
    rcases listing_reads listing with rfl | rfl <;> exact congrArg (·, w) reply
  have nothing : rows? (some Tables.failedCall) = none := rfl
  rw [listing_known listing known]
  simp only [CrownServer.listPosts, Program.call_bind, Program.recover, Program.run_perform, replied,
    missed, called, nothing]
  rfl

end

end Crown
