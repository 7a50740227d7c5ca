import Crown.MediaDeletion
import Crown.ViewedPosts

/-! The rows of an author's posts, and what `CreatePost`, `ToggleLike` and `DeletePost` do to
them and to the cache entries that depend on them. -/
namespace Crown

open Lib Program

/-- A post but for its likes. -/
def PostRow.unliked (post : PostRow) : PostRow := { post with likesCount := 0 }

/-- Posts with the same likes that are the same but for their likes. -/
theorem PostRow.eq_of_unliked {xs ys : List PostRow} (same : xs.map unliked = ys.map unliked)
    (likes : ∀ x ∈ xs, ∀ y ∈ ys, x.id = y.id → x.likesCount = y.likesCount) : xs = ys := by
  induction xs generalizing ys with
  | nil => exact (List.map_eq_nil_iff.mp same.symm).symm
  | cons x xs ih =>
    cases ys with
    | nil => cases same
    | cons y ys =>
      obtain ⟨first, rest⟩ := List.cons.inj same
      have id : x.unliked.id = y.unliked.id := congrArg PostRow.id first
      have count := likes x (List.mem_cons_self ..) y (List.mem_cons_self ..) id
      have head : x = y := by
        obtain ⟨_, _, _, _, _, _, _, _⟩ := x
        obtain ⟨_, _, _, _, _, _, _, _⟩ := y
        simp only [unliked, PostRow.mk.injEq] at first count ⊢
        tauto
      have tail := ih rest fun a member b member' =>
        likes a (List.mem_cons_of_mem _ member) b (List.mem_cons_of_mem _ member')
      rw [head, tail]

namespace Tables

def postsOf (userId : Text) (t : Tables) : List PostRow := t.posts.filter (·.authorId = userId)

/-- The foreign key from `posts` to `users`. -/
def AuthorsKnown (t : Tables) : Prop := ∀ post ∈ t.posts, (t.author post).isSome

/-- No user is removed. -/
def UsersStay (t t' : Tables) : Prop := ∀ u ∈ t.users, ∃ u' ∈ t'.users, u'.id = u.id

variable {t t' t'' : Tables} {service : DatabaseService}

theorem UsersStay.refl (t : Tables) : UsersStay t t := fun u member => ⟨u, member, rfl⟩

theorem UsersStay.of_users (same : t'.users = t.users) : UsersStay t t' :=
  fun u member => ⟨u, same ▸ member, rfl⟩

theorem UsersStay.trans (first : UsersStay t t') (second : UsersStay t' t'') : UsersStay t t'' := by
  intro u member
  obtain ⟨middle, between, same⟩ := first u member
  obtain ⟨last, later, same'⟩ := second middle between
  exact ⟨last, later, same'.trans same⟩

theorem author_isSome {post : PostRow} :
    (t.author post).isSome ↔ ∃ u ∈ t.users, u.id = post.authorId := by
  simp [author, List.find?_isSome]

theorem UsersStay.author {post : PostRow} (stay : UsersStay t t') (known : (t.author post).isSome) :
    (t'.author post).isSome := by
  obtain ⟨u, member, own⟩ := author_isSome.mp known
  obtain ⟨u', later, same⟩ := stay u member
  exact author_isSome.mpr ⟨u', later, same.trans own⟩

end Tables

namespace Tables

variable {service : DatabaseService}

theorem postJson_id (t : Tables) (service : DatabaseService) (post : PostRow) :
    (t.postJson service post).jsonOr Json.getString (lit "id") [] = .ok post.id := by
  simp [postJson, PostRow.members, Json.jsonOr, Json.find, Json.getString]

/-- What a select returns of a post can be parsed. -/
theorem parsePost_postJson (t : Tables) (service : DatabaseService) (post : PostRow) :
    ∃ parsed, parsePost (t.postJson service post) = .ok parsed := by
  have distinct : [lit "id", lit "title", lit "content", lit "image_url", lit "likes_count",
      lit "comments_count", lit "created_at", lit "author_id", lit "author",
      lit "is_liked_by_me"].Nodup := by simp
  simp only [List.nodup_cons, List.mem_cons, List.not_mem_nil, or_false, not_or,
    not_false_eq_true, List.nodup_nil, and_true] at distinct
  cases author : t.author post with
  | none =>
    simp only [parsePost, postJson, PostRow.members, author, Json.present, Json.jsonOr, Json.find,
      distinct, List.cons_append, List.nil_append, List.find?_cons, List.find?_nil, Option.map_none,
      Option.toList_none, List.append_nil, decide_true, decide_false, Option.map_some]
    exact ⟨_, rfl⟩
  | some u =>
    simp only [parsePost, postJson, PostRow.members, author, Json.present, Json.jsonOr, Json.find,
      distinct, List.cons_append, List.nil_append, List.find?_cons, List.find?_nil, Option.map_none,
      Option.toList_some, decide_true, decide_false, Option.map_some]
    rw [show UserRow.json service.timestamp u = .object (u.members service.timestamp) from rfl]
    dsimp only
    rw [show Json.object (u.members service.timestamp) = u.json service.timestamp from rfl,
      UserRow.readAuthor_json]
    exact ⟨_, rfl⟩

/-- The first row of a select from `posts`, parsed. -/
theorem firstPost_select (t : Tables) (service : DatabaseService) {query : QueryBuilder}
    (posts : query.table = lit "posts") :
    ∃ post, firstPost (t.select service query) = .ok post := by
  unfold select
  rw [if_pos posts]
  rcases t.selectPosts service query with _ | _ | ⟨row, rows⟩
  · exact ⟨none, rfl⟩
  · exact ⟨none, rfl⟩
  · exact t.parsePost_postJson service row

/-- An insertion is refused, or adds a post of a known author. -/
theorem insertReturn_cases (t : Tables) (service : DatabaseService) (row : Json) :
    t.insertReturn service (lit "posts") row = (none, t) ∨
      (t.author (t.newPost row)).isSome ∧ (∀ other ∈ t.posts, other.id ≠ (t.newPost row).id) ∧
        t.insertReturn service (lit "posts") row = (some (t.postJson service (t.newPost row)),
          { t with posts := t.posts ++ [t.newPost row] }) := by
  unfold insertReturn
  rw [if_pos rfl]
  dsimp only
  split
  · exact .inl rfl
  · rename_i accepted
    obtain ⟨fresh, known⟩ := not_or.mp accepted
    push Not at fresh
    exact .inr ⟨Option.isSome_iff_ne_none.mpr known, fresh, rfl⟩

end Tables

section

variable {platform : Platform} {env : Environment} {w : World Tables}

/-- No operation removes a user. -/
theorem answer_users (platform : Platform) (env : Environment) (op : Op) (w : World Tables) :
    Tables.UsersStay w.database (platform.backend.answer env op w).2.database := by
  cases op with
  | insert table row =>
    show Tables.UsersStay w.database (w.database.insert table row).2
    rcases w.database.insert_cases row table with refused | ⟨_, added⟩
    · rw [refused]
      exact .refl _
    · rw [added]
      exact fun u member => ⟨u, List.mem_append_left _ member, rfl⟩
  | insertReturn table row =>
    exact .of_users (w.database.insertReturn_users platform.service row table)
  | update query row =>
    show Tables.UsersStay w.database (w.database.update platform.service query row).2
    rcases w.database.update_cases platform.service query row with refused | ⟨_, overwritten⟩
    · rw [refused]
      exact .refl _
    · rw [overwritten]
      intro u member
      refine ⟨_, List.mem_map_of_mem member, ?_⟩
      split <;> rfl
  | delete query => exact .of_users (w.database.delete_cases platform.service query).1
  | rpc function params =>
    cases function with
    | toggleLike => exact .of_users (w.database.toggleLike_counts params).1
    | _ => exact .refl _
  | _ => exact .refl _

/-- Every post has the author of an earlier one, or a known one. -/
theorem answer_authors (platform : Platform) (env : Environment) (op : Op) (w : World Tables) :
    ∀ post ∈ (platform.backend.answer env op w).2.database.posts,
      (∃ old ∈ w.database.posts, old.authorId = post.authorId) ∨
        ((platform.backend.answer env op w).2.database.author post).isSome := by
  intro post member
  by_cases adds : ∀ table row, op ≠ .insertReturn table row
  · obtain ⟨old, stored, like⟩ := platform.answer_posts env op w adds post member
    have author := congrArg PostRow.authorId like
    exact .inl ⟨old, stored, author⟩
  · push Not at adds
    obtain ⟨table, row, rfl⟩ := adds
    have inserted : post ∈ (w.database.insertReturn platform.service table row).2.posts := member
    show _ ∨ ((w.database.insertReturn platform.service table row).2.author post).isSome
    by_cases posts : table = lit "posts"
    · subst posts
      rcases w.database.insertReturn_cases platform.service row with refused | ⟨known, _, added⟩
      · rw [refused] at inserted
        exact .inl ⟨post, inserted, rfl⟩
      · rw [added] at inserted
        rcases List.mem_append.mp inserted with old | new
        · exact .inl ⟨post, old, rfl⟩
        · rw [added, List.mem_singleton.mp new]
          exact .inr known
    · rw [Tables.insertReturn, if_neg posts] at inserted
      exact .inl ⟨post, inserted, rfl⟩

/-- The foreign key is kept. -/
theorem run_known (platform : Platform) (env : Environment) (p : Handler α) (w : World Tables)
    (known : w.database.AuthorsKnown) :
    (p.run (platform.backend.answer env) w).2.database.AuthorsKnown := by
  have kept : ∀ op ∈ p.performed (platform.backend.answer env) w, ∀ w' : World Tables,
      w'.database.AuthorsKnown → (platform.backend.answer env op w').2.database.AuthorsKnown := by
    intro op _ w' earlier post member
    rcases answer_authors platform env op w' post member with ⟨old, stored, same⟩ | there
    · have stays := (answer_users platform env op w').author (earlier old stored)
      rw [Tables.author_isSome] at stays ⊢
      rwa [← same]
    · exact there
  exact p.run_invariant w known kept

/-- Every entry of the second cache is in the first one. -/
structure Lessens (cache cache' : Cache) : Prop where
  connected : cache'.connected = cache.connected
  entries : ∀ key entry, cache'.entries key = some entry → cache.entries key = some entry

theorem Lessens.refl (cache : Cache) : Lessens cache cache := ⟨rfl, fun _ _ found => found⟩

theorem Lessens.trans {cache cache' cache'' : Cache} (first : Lessens cache cache')
    (second : Lessens cache' cache'') : Lessens cache cache'' :=
  ⟨second.connected.trans first.connected,
    fun key entry found => first.entries key entry (second.entries key entry found)⟩

theorem answer_lessens (op : Op) (w : World Tables) (uncaching : Uncaching op) :
    Lessens w.cache (platform.backend.answer env op w).2.cache := by
  cases op with
  | cacheDel key => exact ⟨Cache.del_connected .., fun _ _ => Cache.del_found⟩
  | cacheDelPattern pattern =>
    exact ⟨Cache.delPattern_connected .., fun _ _ => Cache.delPattern_found⟩
  | rpc function params => cases function <;> exact .refl _
  | cacheSet | cacheGet => exact uncaching.elim
  | _ => exact .refl _

/-- A program that stores no entry at most removes some. -/
theorem lessens_of_within {p : Handler α} (within : p.Within Uncaching fun _ _ => True)
    (platform : Platform) (env : Environment) (w : World Tables) :
    Lessens w.cache (p.run (platform.backend.answer env) w).2.cache := by
  have kept : ∀ op w', Uncaching op → Lessens w.cache w'.cache →
      True ∧ Lessens w.cache (platform.backend.answer env op w').2.cache :=
    fun op w' uncaching earlier => ⟨trivial, earlier.trans (answer_lessens op w' uncaching)⟩
  exact within.invariant (.refl _) kept

/-- An operation that changes neither the posts nor the cache. -/
def Aside : Op → Prop
  | .cacheSet .. | .cacheDel _ | .cacheDelPattern _ => False
  | .insertReturn .. | .delete _ => False
  | .rpc function _ => function ≠ .toggleLike
  | _ => True

/-- What such operations leave alone. -/
structure Beside (w w' : World Tables) : Prop where
  cache : w'.cache = w.cache
  posts : w'.database.posts = w.database.posts

theorem Beside.refl (w : World Tables) : Beside w w := ⟨rfl, rfl⟩

theorem Beside.trans {w w' w'' : World Tables} (first : Beside w w') (second : Beside w' w'') :
    Beside w w'' :=
  ⟨second.cache.trans first.cache, second.posts.trans first.posts⟩

theorem answer_aside (op : Op) (w : World Tables) (aside : Aside op) :
    Beside w (platform.backend.answer env op w).2 := by
  cases op with
  | insert table row => exact ⟨rfl, w.database.insert_posts row table⟩
  | update query row => exact ⟨rfl, w.database.update_posts platform.service query row⟩
  | rpc function params =>
    cases function with
    | toggleLike => exact absurd rfl aside
    | _ => exact .refl w
  | cacheSet | cacheDel | cacheDelPattern | insertReturn | delete => exact aside.elim
  | _ => exact ⟨rfl, rfl⟩

theorem beside_of_within {p : Handler α} (within : p.Within Aside fun _ _ => True)
    (platform : Platform) (env : Environment) (w : World Tables) :
    Beside w (p.run (platform.backend.answer env) w).2 := by
  have kept : ∀ op w', Aside op → Beside w w' →
      True ∧ Beside w (platform.backend.answer env op w').2 :=
    fun op w' aside earlier => ⟨trivial, earlier.trans (answer_aside op w' aside)⟩
  exact within.invariant (.refl w) kept

end

theorem upsertUser_aside (u : AuthenticatedUser) : (upsertUser u).Within Aside fun _ _ => True :=
  upsertUser_within (fun _ => trivial) (fun _ _ => trivial) (fun _ _ => trivial)
    (fun _ => trivial) u

/-- What `CreatePost` does to the posts: nothing, or it adds one of its caller's, and then the
pages of the feed and the caller's count are taken out of the cache. -/
def Creation (platform : Platform) (user : AuthenticatedUser) (w after : World Tables) : Prop :=
  after.database.posts = w.database.posts ∨
    ∃ post, after.database.posts = w.database.posts ++ [post] ∧ post.authorId = user.id ∧
      (∀ other ∈ w.database.posts, other.id ≠ post.id) ∧ (after.database.author post).isSome ∧
      ((∀ drawn, platform.secId drawn ≠ []) → w.cache.connected = true →
        after.cache.entries (Cache.postCountKey user.id) = none ∧
        ∀ key, platform.glob Cache.feedPattern key = true → after.cache.entries key = none)

section

variable {platform : Platform} {env : Environment} {w w' after : World Tables}
variable {user : AuthenticatedUser}

theorem Creation.of_beside (aside : Beside w w') (created : Creation platform user w' after) :
    Creation platform user w after := by
  unfold Creation
  rw [← aside.cache, ← aside.posts]
  exact created

/-- The end of `CreatePost`, from the insertion on. -/
theorem publish_run (row : Json) (status : Status) (drawn : Nat)
    (id : row.text (lit "id") = platform.secId drawn) (own : row.text (lit "author_id") = user.id) :
    Creation platform user w ((do
      let created ← insertReturn (lit "posts") row
      let postId ← createdId created
      if postId = [] then return .error status
      else
        let result ← ((((fromTable (lit "posts")).select postSelect).eq .id postId).limit 1).execute
        let post ← firstPost result
        invalidateFeed
        invalidatePostCount user.id
        return .ok (.post (post.getD default)) : Handler (Except Status Response)).run
          (platform.backend.answer env) w).2 := by
  have inserted : platform.backend.answer env (.insertReturn (lit "posts") row) w =
      ((w.database.insertReturn platform.service (lit "posts") row).1,
        { w with database := (w.database.insertReturn platform.service (lit "posts") row).2 }) := rfl
  simp only [call_bind, run_perform, inserted]
  rcases w.database.insertReturn_cases platform.service row with
    refused | ⟨known, fresh, added⟩
  · rw [refused]
    have nothing : createdId none = .ok [] := rfl
    simp only [nothing, liftM_eq, done_ok_bind, if_true]
    exact .inl rfl
  · rw [added]
    have created : createdId (some (w.database.postJson platform.service (w.database.newPost row))) =
        .ok (platform.secId drawn) := by
      have read := w.database.postJson_id platform.service (w.database.newPost row)
      rw [show (w.database.newPost row).id = platform.secId drawn from id] at read
      exact read
    simp only [created, liftM_eq, done_ok_bind]
    by_cases noId : platform.secId drawn = []
    · simp only [noId, if_true]
      exact .inr ⟨_, rfl, own, fresh, known, fun ids => absurd noId (ids drawn)⟩
    · have selected : ∀ query w', platform.backend.answer env (.select query) w' =
          (w'.database.select platform.service query, w') := fun _ _ => rfl
      simp only [noId, if_false, run_perform, selected]
      obtain ⟨post, parsed⟩ := Tables.firstPost_select
        { w.database with posts := w.database.posts ++ [w.database.newPost row] } platform.service
        (rfl : ((((fromTable (lit "posts")).select postSelect).eq .id
          (platform.secId drawn)).limit 1).table = lit "posts")
      rw [parsed]
      simp only [done_ok_bind, run_perform, pure_eq, run_done, Backend.answer]
      refine .inr ⟨_, rfl, own, fresh, known, fun _ connected => ⟨?_, fun key matched => ?_⟩⟩
      · simp [Cache.del, connected, Cache.delPattern_connected]
      · refine Option.eq_none_iff_forall_ne_some.mpr fun entry found => ?_
        have matched : platform.backend.glob Cache.feedPattern key = true := matched
        have earlier := Cache.del_found found
        simp [Cache.delPattern, connected, matched] at earlier

end

/-- Nobody known creates a post. -/
theorem createPost_refused (platform : Platform) (env : Environment) (w : World Tables)
    (title content imageUrl : Text) (unknown : w.auth.getUser env.context = none) :
    (CrownServer.createPost platform.app title content imageUrl).run
      (platform.backend.answer env) w = (.ok (.error notAuthenticated), w) := by
  have replied : platform.backend.answer env .getUser w = (w.auth.getUser env.context, w) := rfl
  simp only [CrownServer.createPost, call_bind, run_perform, replied, unknown]
  rfl

/-- What a known user's `CreatePost` does. -/
theorem createPost_run (platform : Platform) (env : Environment) (w : World Tables)
    (title content imageUrl : Text) (known : w.auth.getUser env.context = some user) :
    Creation platform user w ((CrownServer.createPost platform.app title content imageUrl).run
      (platform.backend.answer env) w).2 := by
  have replied : platform.backend.answer env .getUser w = (w.auth.getUser env.context, w) := rfl
  simp only [CrownServer.createPost, call_bind, run_perform, replied, known]
  cases checked : checkPost title content imageUrl with
  | some status => exact .inl rfl
  | none =>
    dsimp only
    rw [run_bind]
    have aside := beside_of_within (upsertUser_aside user) platform env w
    generalize (upsertUser user).run (platform.backend.answer env) w = upserted at aside ⊢
    obtain ⟨result, w'⟩ := upserted
    cases result with
    | error e => exact .inl aside.posts
    | ok done =>
      have others : lit "id" ≠ lit "author_id" := by simp
      have named : Beside w (platform.backend.answer env .secId w').2 :=
        aside.trans (answer_aside .secId w' trivial)
      have drawn : (platform.backend.answer env .secId w').1 = platform.secId w'.drawn := rfl
      refine .of_beside named (publish_run _ _ w'.drawn ?_ ?_) <;>
        simp [Json.text, Json.find, others, drawn]

namespace Tables

/-- A toggle fails, or changes the count of the post. -/
theorem toggleLike_cases (t : Tables) (userId postId : Text) :
    let toggled := t.toggleLike (.object [(lit "p_user_id", .string userId),
      (lit "p_post_id", .string postId)])
    toggled = (some failedCall, t) ∨ ∃ liked count, toggled.1 = some (.object
        [(lit "is_liked", .boolean liked), (lit "likes_count", .integer count)]) ∧
      toggled.2.posts = setCount t.posts postId count := by
  have names : lit "p_user_id" ≠ lit "p_post_id" := by simp
  have user : (Json.object [(lit "p_user_id", .string userId),
      (lit "p_post_id", .string postId)]).text (lit "p_user_id") = userId := by
    simp [Json.text, Json.find]
  have post : (Json.object [(lit "p_user_id", .string userId),
      (lit "p_post_id", .string postId)]).text (lit "p_post_id") = postId := by
    simp [Json.text, Json.find, names]
  dsimp only
  unfold toggleLike
  rw [user, post]
  dsimp only
  split
  · exact .inl rfl
  · split
    · exact .inl rfl
    · split
      · exact .inl rfl
      · exact .inr ⟨_, _, rfl, rfl⟩

end Tables

/-- What `ToggleLike` does to the posts: nothing, or it changes the count of the post, and then
the entry of the post and the pages of the feed are taken out of the cache. -/
theorem toggleLike_run (platform : Platform) (env : Environment) (w : World Tables)
    (postId : Text) :
    let after := ((CrownServer.toggleLike postId).run (platform.backend.answer env) w).2
    after.database.posts = w.database.posts ∨
      ∃ count, after.database.posts = Tables.setCount w.database.posts postId count ∧
        (w.cache.connected = true → after.cache.entries (Cache.postKey postId) = none ∧
          ∀ key, platform.glob Cache.feedPattern key = true → after.cache.entries key = none) := by
  have replied : platform.backend.answer env .getUser w = (w.auth.getUser env.context, w) := rfl
  simp only [CrownServer.toggleLike, call_bind, run_perform, replied]
  cases known : w.auth.getUser env.context with
  | none => exact .inl rfl
  | some user =>
    by_cases empty : postId = []
    · simp only [empty, if_true]
      exact .inl rfl
    simp only [empty, if_false, run_perform]
    have called : ∀ params, platform.backend.answer env (.rpc .toggleLike params) w =
        ((w.database.toggleLike params).1, { w with database := (w.database.toggleLike params).2 }) :=
      fun _ => rfl
    rw [called]
    rcases w.database.toggleLike_cases user.id postId with failed | ⟨liked, count, reply, posts⟩
    · rw [failed]
      exact .inl rfl
    · have names : lit "is_liked" ≠ lit "likes_count" := by simp
      rw [reply]
      simp only [Json.jsonOr, Json.find, List.find?_cons, names, decide_true, decide_false,
        Option.map_some, Json.getBool, Json.getInt, Json.getNumber, Except.map, liftM_eq,
        done_ok_bind, run_perform, pure_eq, run_done, Backend.answer]
      refine .inr ⟨count, posts, fun connected => ⟨?_, fun key matched => ?_⟩⟩
      · refine Option.eq_none_iff_forall_ne_some.mpr fun entry found => ?_
        have earlier := Cache.del_found (Cache.delPattern_found found)
        simp [Cache.del, connected] at earlier
      · have matched : platform.backend.glob Cache.feedPattern key = true := matched
        simp [Cache.delPattern, connected, matched, Cache.del_connected]

/-- The reply of `get_post`. -/
theorem Tables.call_getPost {t : Tables} {service : DatabaseService} (called : t.call service .getPost
      (.object [(lit "p_user_id", .string viewer), (lit "p_post_id", .string postId)]) = reply) :
    reply = some .null ∨ ∃ post author, post ∈ t.posts ∧ post.id = postId ∧
      t.author post = some author ∧ reply = some (t.viewedJson service viewer post author) := by
  have names : lit "p_user_id" ≠ lit "p_post_id" := by simp
  subst called
  simp only [Tables.call, Json.text, Json.find, List.find?_cons, names, decide_true, decide_false,
    Option.map_some]
  split
  · rename_i post author rest found
    refine .inr ⟨post, author, ?_⟩
    have member := found ▸ List.mem_cons_self ..
    obtain ⟨stored, chosen, joined⟩ := List.mem_filterMap.mp member
    obtain ⟨_, known, same⟩ := Option.map_eq_some_iff.mp joined
    cases same
    obtain ⟨present, own⟩ := List.mem_filter.mp chosen
    exact ⟨present, of_decide_eq_true own, known, rfl⟩
  · exact .inl rfl

/-- What `GetPost` does: it changes nothing, or it stores the post as the database has it. -/
theorem getPost_run (platform : Platform) (env : Environment) (w : World Tables) (postId : Text) :
    let after := ((CrownServer.getPost postId).run (platform.backend.answer env) w).2
    after.database = w.database ∧ (after.cache = w.cache ∨ ∃ viewer post author,
      post ∈ w.database.posts ∧ post.id = postId ∧ after.cache = w.cache.setJson
        (Cache.postKey postId) (w.database.viewedJson platform.service viewer post author)) := by
  have cached : platform.backend.answer env (.cacheGet (Cache.postKey postId)) w =
      (w.cache.getJson (Cache.postKey postId), w) := rfl
  have replied : (platform.backend.answer env .getUser w).2 = w := rfl
  have called : ∀ params, platform.backend.answer env (.rpc .getPost params) w =
      (w.database.call platform.service .getPost params, w) := fun _ => rfl
  simp only [CrownServer.getPost, call_bind, run_perform, cached]
  split
  · cases parsePost (w.cache.getJson (Cache.postKey postId)) <;> exact ⟨rfl, .inl rfl⟩
  · simp only [run_perform, replied, called]
    generalize found : w.database.call platform.service .getPost _ = reply
    rcases Tables.call_getPost found with rfl | ⟨post, author, stored, own, _, rfl⟩
    · exact ⟨rfl, .inl rfl⟩
    · have known : ∀ viewer, ((w.database.viewedJson platform.service viewer post author).present
          (lit "id")).isSome = true := fun viewer => by
        simp [Tables.viewedJson, Tables.viewedMembers, PostRow.members, Json.present, Json.find]
      simp only [known, if_true, Tables.parsePost_viewedJson, liftM_eq, done_ok_bind, run_perform]
      exact ⟨rfl, .inr ⟨_, post, author, stored, own, rfl⟩⟩

namespace Tables

variable {t : Tables} {service : DatabaseService} {posts : List PostRow}
variable {rows : List (PostRow × UserRow)}

theorem filterMap_author (known : ∀ post ∈ posts, (t.author post).isSome) :
    (posts.filterMap fun post => (t.author post).map (post, ·)).map (·.1) = posts := by
  induction posts with
  | nil => rfl
  | cons post posts ih =>
    obtain ⟨author, found⟩ := Option.isSome_iff_exists.mp (known post (List.mem_cons_self ..))
    have rest := ih fun other member => known other (List.mem_cons_of_mem _ member)
    simp only [List.filterMap_cons, found, Option.map_some, List.map_cons, rest]

/-- The posts on a page, where every author is known. -/
theorem page_posts (paged : t.page service posts limit offset = some rows)
    (known : ∀ post ∈ posts, (t.author post).isSome) :
    0 ≤ limit ∧ 0 ≤ offset ∧ rows.map (·.1) =
      ((service.newestFirst.arrange posts).drop offset.toNat).take limit.toNat := by
  unfold page at paged
  split at paged
  · cases paged
  · rename_i valid
    cases paged
    have arranged : ∀ post ∈ service.newestFirst.arrange posts, (t.author post).isSome :=
      fun post member => known post ((service.newestFirst.perm posts).mem_iff.mp member)
    rw [List.map_take, List.map_drop, filterMap_author arranged]
    exact ⟨by omega, by omega, rfl⟩

theorem page_isSome (t : Tables) (service : DatabaseService) (posts : List PostRow)
    {limit offset : Int} (valid : 0 ≤ limit ∧ 0 ≤ offset) :
    ∃ rows, t.page service posts limit offset = some rows := by
  unfold page
  rw [if_neg (by omega)]
  exact ⟨_, rfl⟩

end Tables

end Crown
