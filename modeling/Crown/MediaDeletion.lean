import Crown.Lib.Transition
import Crown.QueryReading
import Crown.Site

/-! What the deletion of a post does to other posts and to the objects they show. -/
namespace Crown

open Lib

theorem postKeys_ne : (∀ key ∈ [lit "id", lit "title", lit "content", lit "image_url",
      lit "likes_count", lit "comments_count", lit "created_at"], key ≠ lit "author_id") ∧
    ∀ key ∈ [lit "id", lit "title", lit "content"], key ≠ lit "image_url" := by
  simp

namespace Tables

variable {t : Tables} {service : DatabaseService}

theorem postJson_authorId (post : PostRow) :
    (t.postJson service post).jsonOr Json.getString (lit "author_id") [] = .ok post.authorId := by
  obtain ⟨others, _⟩ := postKeys_ne
  simp only [List.mem_cons, forall_eq_or_imp, List.not_mem_nil, false_implies, implies_true] at others
  simp [postJson, PostRow.members, Json.jsonOr, Json.find, others, Json.getString]

theorem postJson_imageUrl (post : PostRow) :
    (t.postJson service post).jsonOr Json.getString (lit "image_url") [] = .ok post.imageUrl := by
  obtain ⟨_, others⟩ := postKeys_ne
  simp only [List.mem_cons, forall_eq_or_imp, List.not_mem_nil, false_implies, implies_true] at others
  simp [postJson, PostRow.members, Json.jsonOr, Json.find, others, Json.getString]

theorem mediaJson_fileId (row : MediaRow) :
    row.json.jsonOr Json.getString (lit "file_id") [] = .ok row.fileId := by
  have others : lit "hash" ≠ lit "file_id" ∧ lit "url" ≠ lit "file_id" := by simp
  simp [MediaRow.json, Json.jsonOr, Json.find, others, Json.getString]

/-- The request that removes the row of a post. -/
def postDeletion (postId : Text) : QueryBuilder := (fromTable (lit "posts")).eq .id postId

/-- `DeletePost` by this user gets to the deletion: `first` is the row it looked up, which
is the user's own, and `found` are the rows it deletes. -/
structure Deletes (service : DatabaseService) (t : Tables) (user : Option AuthenticatedUser)
    (postId : Text) (first : PostRow) (found : List PostRow) : Prop where
  asked : postId ≠ []
  own : ∃ author, user = some author ∧ first.authorId = author.id
  looked : ∃ rest, t.selectPosts service (postLookup postId) = some (first :: rest)
  selected : t.selectPosts service (postDeletion postId) = some found

theorem Deletes.unique {first first' : PostRow} {found found' : List PostRow}
    (deletes : Deletes service t user postId first found)
    (again : Deletes service t user postId first' found') : first' = first ∧ found' = found := by
  obtain ⟨rest, looked⟩ := deletes.looked
  obtain ⟨rest', looked'⟩ := again.looked
  have selected := again.selected
  rw [looked] at looked'
  rw [deletes.selected] at selected
  cases looked'
  cases selected
  exact ⟨rfl, rfl⟩

/-- The object registered under the image URL of a deleted post. -/
def registered (service : DatabaseService) (t : Tables) (imageUrl : Text) : Option Text :=
  if imageUrl = [] then none
  else
    match t.selectMedia service (CrownServer.mediaLookup imageUrl) with
    | some (row :: _) => if row.fileId = [] then none else some row.fileId
    | _ => none

/-- The tables once the rows of posts are deleted. -/
def withoutPosts (t : Tables) (found : List PostRow) : Tables :=
  { t with
    posts := t.posts.filter (· ∉ found)
    likes := t.likes.filter fun like => ∀ post ∈ found, post.id ≠ like.2 }

theorem delete_posts (service : DatabaseService) (t : Tables) (postId : Text) :
    t.delete service (postDeletion postId) =
      match t.selectPosts service (postDeletion postId) with
      | some found => (204, t.withoutPosts found)
      | none => (400, t) := by
  have posts : (postDeletion postId).table = lit "posts" := rfl
  simp only [delete, posts, if_true]
  rfl

theorem delete_media_posts (service : DatabaseService) (t : Tables) (imageUrl : Text) :
    (t.delete service ((fromTable (lit "midia_hashes")).eq .url imageUrl)).2.posts = t.posts := by
  have media : ((fromTable (lit "midia_hashes")).eq .url imageUrl).table = lit "midia_hashes" := rfl
  have other : lit "midia_hashes" ≠ lit "posts" := by simp
  simp only [delete, media, other, if_false, if_true]
  split <;> rfl

theorem select_posts (service : DatabaseService) (t : Tables) (postId : Text) :
    t.select service (postLookup postId) =
      (t.selectPosts service (postLookup postId)).map fun rows =>
        .array (rows.map (t.postJson service)) := by
  have posts : (postLookup postId).table = lit "posts" := rfl
  simp only [select, posts, if_true]

theorem select_media (service : DatabaseService) (t : Tables) (imageUrl : Text) :
    t.select service (CrownServer.mediaLookup imageUrl) =
      (t.selectMedia service (CrownServer.mediaLookup imageUrl)).map fun rows =>
        .array (rows.map MediaRow.json) := by
  have media : (CrownServer.mediaLookup imageUrl).table = lit "midia_hashes" := rfl
  have other : lit "midia_hashes" ≠ lit "posts" := by simp
  simp only [select, media, other, if_false, if_true]

end Tables

section

open Tables

variable {platform : Platform} {env : Environment} {w : World Tables}
  {postId authorId imageUrl : Text} {found : List PostRow}

theorem answer_delete (query : QueryBuilder) (w : World Tables) :
    platform.backend.answer env (.delete query) w =
      ((w.database.delete platform.service query).1,
        { w with database := (w.database.delete platform.service query).2 }) := rfl

theorem answer_select (query : QueryBuilder) (w : World Tables) :
    platform.backend.answer env (.select query) w = (w.database.select platform.service query, w) := rfl

/-- The cache once a post and the pages it may stand on are taken out. -/
def cacheWithout (glob : Text → Text → Bool) (postId authorId : Text) (cache : Cache) : Cache :=
  ((cache.del (Cache.postKey postId)).delPattern glob Cache.feedPattern).delPattern glob
    (Cache.userPostsPattern authorId)

/-- The rows are deleted, the removal of the registered object is asked for and the entries are
taken out of the cache. -/
theorem removePost_run
    (selected : w.database.selectPosts platform.service (postDeletion postId) = some found) :
    let after := ((CrownServer.removePost platform.app postId authorId imageUrl).run
      (platform.backend.answer env) w).2
    after.database.posts = w.database.posts.filter (· ∉ found) ∧
      after.removals = w.removals ++ ((w.database.registered platform.service imageUrl).toList.map
        (platform.app.cdnBucket, ·)) ∧
      after.cache = cacheWithout platform.glob postId authorId w.cache := by
  have deleted : w.database.delete platform.service ((fromTable (lit "posts")).eq .id postId) =
      (204, w.database.withoutPosts found) := by
    have cases := delete_posts platform.service w.database postId
    rw [selected] at cases
    exact cases
  have accepted : ¬((204 : Int) < 200 ∨ 300 ≤ (204 : Int)) := by decide
  have same : (w.database.withoutPosts found).selectMedia platform.service
      (CrownServer.mediaLookup imageUrl) =
        w.database.selectMedia platform.service (CrownServer.mediaLookup imageUrl) := rfl
  simp only [CrownServer.removePost, Program.call_bind, Program.run_perform, answer_delete, deleted,
    accepted, if_false, registered, cacheWithout]
  have glob : platform.backend.glob = platform.glob := rfl
  by_cases noImage : imageUrl = []
  · simp [noImage, Backend.answer, withoutPosts, glob]
  · simp only [noImage, ne_eq, not_false_eq_true, if_true, if_false, Program.run_perform,
      answer_select, select_media, same]
    cases w.database.selectMedia platform.service (CrownServer.mediaLookup imageUrl) with
    | none => simp [firstRow?, rows?, Backend.answer, withoutPosts, glob]
    | some rows =>
      cases rows with
      | nil => simp [firstRow?, rows?, Backend.answer, withoutPosts, glob]
      | cons row rest =>
        simp only [firstRow?, rows?, Option.map_some, List.map_cons, Option.bind_some,
          List.head?_cons, mediaJson_fileId, Program.liftM_eq, Program.done_ok_bind,
          Program.run_perform, answer_delete]
        by_cases noFile : row.fileId = [] <;>
          simp [noFile, Backend.answer, delete_media_posts, withoutPosts, glob]

theorem removePost_failed
    (failed : w.database.selectPosts platform.service (postDeletion postId) = none) :
    let after := ((CrownServer.removePost platform.app postId authorId imageUrl).run
      (platform.backend.answer env) w).2
    after.database.posts = w.database.posts ∧ after.removals = w.removals := by
  have deleted : w.database.delete platform.service ((fromTable (lit "posts")).eq .id postId) =
      (400, w.database) := by
    have cases := delete_posts platform.service w.database postId
    rw [failed] at cases
    exact cases
  simp [CrownServer.removePost, answer_delete, deleted]

/-- `DeletePost` deletes rows in one case only. -/
theorem deletePost_run (platform : Platform) (env : Environment) (w : World Tables)
    (postId : Text) :
    let after := ((CrownServer.deletePost platform.app postId).run (platform.backend.answer env) w).2
    (∃ first found, Deletes platform.service w.database (w.auth.getUser env.context) postId first
        found ∧
      after.database.posts = w.database.posts.filter (· ∉ found) ∧
      after.removals = w.removals ++
        ((w.database.registered platform.service first.imageUrl).toList.map
          (platform.app.cdnBucket, ·)) ∧
      after.cache = cacheWithout platform.glob postId first.authorId w.cache) ∨
    (∀ first found, ¬Deletes platform.service w.database (w.auth.getUser env.context) postId first
        found) ∧
      after.database.posts = w.database.posts ∧ after.removals = w.removals := by
  simp only [CrownServer.deletePost, Program.call_bind, Program.run_perform, Backend.answer]
  cases known : w.auth.getUser env.context with
  | none =>
    refine Or.inr ⟨fun first found deletes => ?_, rfl, rfl⟩
    obtain ⟨author, impossible, _⟩ := deletes.own
    cases impossible
  | some user =>
    by_cases empty : postId = []
    · refine Or.inr ⟨fun first found deletes => deletes.asked empty, ?_⟩
      simp [empty]
    · have answered : platform.backend.database.select (postLookup postId) w.database =
          w.database.select platform.service (postLookup postId) := rfl
      simp only [empty, if_false, Program.run_perform, Backend.answer, answered, select_posts]
      cases looked : w.database.selectPosts platform.service (postLookup postId) with
      | none =>
        refine Or.inr ⟨fun first found deletes => ?_, by simp [firstRow?, rows?]⟩
        obtain ⟨rest, impossible⟩ := deletes.looked
        rw [looked] at impossible
        cases impossible
      | some rows =>
        cases rows with
        | nil =>
          refine Or.inr ⟨fun first found deletes => ?_, by simp [firstRow?, rows?]⟩
          obtain ⟨rest, impossible⟩ := deletes.looked
          rw [looked] at impossible
          cases impossible
        | cons first rest =>
          simp only [firstRow?, rows?, Option.map_some, List.map_cons, Option.bind_some,
            List.head?_cons, postJson_authorId, Program.liftM_eq, Program.done_ok_bind]
          by_cases own : first.authorId = user.id
          · simp only [own, ne_eq, not_true_eq_false, if_false, postJson_imageUrl,
              Program.done_ok_bind]
            cases selected : w.database.selectPosts platform.service (postDeletion postId) with
            | none =>
              refine Or.inr ⟨fun _ found deletes => ?_, removePost_failed selected⟩
              have impossible := deletes.selected
              rw [selected] at impossible
              cases impossible
            | some found =>
              refine Or.inl ⟨first, found, ⟨empty, ⟨user, rfl, own⟩, ⟨rest, looked⟩, selected⟩, ?_⟩
              rw [own]
              exact removePost_run selected
          · refine Or.inr ⟨fun other found deletes => ?_, by simp [own]⟩
            obtain ⟨author, same, written⟩ := deletes.own
            obtain ⟨others, again⟩ := deletes.looked
            rw [looked] at again
            cases again
            cases same
            exact own written

end

namespace Site

/-- The object is stored and its removal is not under way. -/
def Keeps (s : Site) (object : Text × Text) : Prop :=
  (s.objects object).isSome ∧ object ∉ s.world.removals

/-- The rows deleted for an id the database reads as it was sent have this id. -/
theorem plain_deletion (platform : Platform) (t : Tables) (postId : Text)
    (plain : Clean (Tables.postDeletion postId).calls)
    (selected : t.selectPosts platform.service (Tables.postDeletion postId) = some found) :
    ∀ post ∈ found, post.id = postId := by
  intro post chosen
  have read : Tables.pairs (Tables.postDeletion postId) =
      QueryBuilder.requested (Tables.postDeletion postId) :=
    QueryBuilder.read_clean (lit "posts") (by with_unfolding_all decide) (by with_unfolding_all decide) plain
  have asked : (lit "id", lit "eq." ++ postId) ∈ Tables.pairs (Tables.postDeletion postId) := by
    rw [read]
    simp [Tables.postDeletion, QueryBuilder.requested, QueryBuilder.eq, QueryBuilder.call, fromTable,
      Call.name, Call.value, Column.id, FilterOp.opening, FilterOp.closing]
  exact (platform.service.selection.filtered selected post chosen).2 _ _ _ asked post.column_id

def ana : AuthenticatedUser := ⟨lit "1", lit "ana@example.org", lit "Ana", []⟩
def bia : AuthenticatedUser := ⟨lit "2", lit "bia@example.org", lit "Bia", []⟩

def localEnvironment : Environment := ⟨0, fun _ => none, ⟨0, ⟨none, 0⟩, ⟨none, 0⟩, 0⟩⟩

end Site

end Crown
