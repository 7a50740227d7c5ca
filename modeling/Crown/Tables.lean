import Crown.Backend
import Crown.HttpServer
import Crown.Lib.Url
import Crown.ToggleLike

/-! The tables of `sql/001_new.sql` with `midia_hashes` beside them, the stored functions
over them, and the database they make behind the server. -/
namespace Crown

open Lib

structure UserRow where
  id : Text
  username : Text
  handle : Text
  displayName : Text
  avatar : Text
  bio : Text
  followersCount : Int
  followingCount : Int
  postsCount : Int
  createdAt : Int
  deriving DecidableEq

structure PostRow where
  id : Text
  authorId : Text
  title : Text
  content : Text
  imageUrl : Text
  likesCount : Int
  commentsCount : Int
  createdAt : Int
  deriving DecidableEq

structure MediaRow where
  hash : Text
  url : Text
  fileId : Text
  deriving DecidableEq

/-- The text columns a filter can name. -/
def UserRow.column (row : UserRow) (name : Text) : Option Text :=
  if name = lit "id" then some row.id
  else if name = lit "username" then some row.username
  else if name = lit "handle" then some row.handle
  else if name = lit "display_name" then some row.displayName
  else if name = lit "avatar" then some row.avatar
  else if name = lit "bio" then some row.bio
  else none

def PostRow.column (row : PostRow) (name : Text) : Option Text :=
  if name = lit "id" then some row.id
  else if name = lit "author_id" then some row.authorId
  else if name = lit "title" then some row.title
  else if name = lit "content" then some row.content
  else if name = lit "image_url" then some row.imageUrl
  else none

def MediaRow.column (row : MediaRow) (name : Text) : Option Text :=
  if name = lit "hash" then some row.hash
  else if name = lit "url" then some row.url
  else if name = lit "file_id" then some row.fileId
  else none

@[simp] theorem PostRow.column_id (row : PostRow) : row.column (lit "id") = some row.id := if_pos rfl

@[simp] theorem MediaRow.column_hash (row : MediaRow) :
    row.column (lit "hash") = some row.hash := if_pos rfl

/-- The rows chosen by the parameters of a request: at most those that have the value of
every equality filter. What other parameters do, and in which order rows come, is left open. -/
structure RowSelection where
  select : {Row : Type} → (Row → Text → Option Text) → List (Text × Text) → List Row →
    Option (List Row)
  filtered : ∀ {Row : Type} {column : Row → Text → Option Text} {pairs rows found},
    select column pairs rows = some found → ∀ row ∈ found, row ∈ rows ∧
      ∀ name value actual, (name, lit "eq." ++ value) ∈ pairs → column row name = some actual →
        actual = value

/-- The selection for the requests the server means to make: equality filters and a
limit of one. -/
def RowSelection.plain : RowSelection where
  select column pairs rows :=
    let kept := rows.filter fun row => pairs.all fun (name, value) =>
      match column row name with
      | some actual => value = lit "eq." ++ actual
      | none => true
    some (if (lit "limit", lit "1") ∈ pairs then kept.take 1 else kept)
  filtered := by
    intro Row column pairs rows found selected row member
    have kept : row ∈ rows.filter fun row => pairs.all fun (name, value) =>
        match column row name with
        | some actual => value = lit "eq." ++ actual
        | none => true := by
      simp only [Option.some.injEq] at selected
      subst selected
      split at member
      · exact List.mem_of_mem_take member
      · exact member
    obtain ⟨stored, passes⟩ := List.mem_filter.mp kept
    refine ⟨stored, fun name value actual asked present => ?_⟩
    have equal := List.all_eq_true.mp passes _ asked
    simp only [present, decide_eq_true_eq, List.append_cancel_left_eq] at equal
    exact equal.symm

/-- `ORDER BY created_at DESC`; rows of one time come in any order. -/
structure NewestFirst where
  arrange : List PostRow → List PostRow
  perm : ∀ rows, (arrange rows).Perm rows
  sorted : ∀ rows, (arrange rows).Pairwise fun a b => b.createdAt ≤ a.createdAt

def PostRow.NotOlder (a b : PostRow) : Prop := b.createdAt ≤ a.createdAt

instance : DecidableRel PostRow.NotOlder := fun _ _ => inferInstanceAs (Decidable (_ ≤ _))

instance : Std.Total PostRow.NotOlder := ⟨fun a b => Int.le_total b.createdAt a.createdAt⟩

instance : IsTrans PostRow PostRow.NotOlder := ⟨fun _ _ _ ab bc => Int.le_trans bc ab⟩

def NewestFirst.stable : NewestFirst where
  arrange rows := rows.insertionSort PostRow.NotOlder
  perm rows := List.perm_insertionSort _ rows
  sorted rows := List.pairwise_insertionSort PostRow.NotOlder rows

structure DatabaseService where
  selection : RowSelection
  newestFirst : NewestFirst
  timestamp : Int → Text

structure Tables where
  users : List UserRow
  posts : List PostRow
  likes : List (Text × Text)
  media : List MediaRow
  now : Int

def UserRow.members (timestamp : Int → Text) (row : UserRow) : List (Text × Json) :=
  [(lit "id", .string row.id), (lit "username", .string row.username),
    (lit "handle", .string row.handle), (lit "display_name", .string row.displayName),
    (lit "avatar", .string row.avatar), (lit "bio", .string row.bio),
    (lit "followers_count", .integer row.followersCount),
    (lit "following_count", .integer row.followingCount),
    (lit "posts_count", .integer row.postsCount),
    (lit "created_at", .string (timestamp row.createdAt))]

def UserRow.json (timestamp : Int → Text) (row : UserRow) : Json := .object (row.members timestamp)

def PostRow.members (timestamp : Int → Text) (row : PostRow) : List (Text × Json) :=
  [(lit "id", .string row.id), (lit "title", .string row.title),
    (lit "content", .string row.content), (lit "image_url", .string row.imageUrl),
    (lit "likes_count", .integer row.likesCount),
    (lit "comments_count", .integer row.commentsCount),
    (lit "created_at", .string (timestamp row.createdAt))]

def MediaRow.json (row : MediaRow) : Json :=
  .object [(lit "hash", .string row.hash), (lit "url", .string row.url),
    (lit "file_id", .string row.fileId)]

/-- An integer parameter of a stored function. -/
def Json.int (key : Text) (j : Json) : Int :=
  match j.find key with
  | some (.integer n) => n
  | _ => 0

namespace Tables

def author (t : Tables) (post : PostRow) : Option UserRow :=
  t.users.find? (·.id = post.authorId)

/-- A post as a select returns it: every column, and the author where one is embedded. -/
def postJson (service : DatabaseService) (t : Tables) (post : PostRow) : Json :=
  .object (post.members service.timestamp ++ [(lit "author_id", .string post.authorId)] ++
    ((t.author post).map fun u => (lit "author", u.json service.timestamp)).toList)

def viewedMembers (service : DatabaseService) (t : Tables) (viewer : Text) (post : PostRow)
    (author : UserRow) : List (Text × Json) :=
  post.members service.timestamp ++ [(lit "author", author.json service.timestamp),
    (lit "is_liked_by_me", .boolean (decide ((viewer, post.id) ∈ t.likes)))]

/-- The object the stored functions build of a post and its author for a viewer. -/
def viewedJson (service : DatabaseService) (t : Tables) (viewer : Text) (post : PostRow)
    (author : UserRow) : Json :=
  .object (t.viewedMembers service viewer post author)

/-- The posts among some with their authors, on one page; a negative limit or offset
is an error. -/
def page (service : DatabaseService) (t : Tables) (posts : List PostRow) (limit offset : Int) :
    Option (List (PostRow × UserRow)) :=
  if limit < 0 ∨ offset < 0 then none
  else some ((((service.newestFirst.arrange posts).filterMap fun post =>
    (t.author post).map (post, ·)).drop offset.toNat).take limit.toNat)

/-- The status text `Client::rpc` returns for a failed call, as JSON. -/
def failedCall : Json := .integer 400

def pageReply (service : DatabaseService) (t : Tables) (viewer : Text) :
    Option (List (PostRow × UserRow)) → Option Json
  | some rows => some (.array (rows.map fun row => t.viewedJson service viewer row.1 row.2))
  | none => some failedCall

/-- `get_feed`, `get_user_posts` and `get_post`. -/
def call (service : DatabaseService) (function : StoredFunction) (params : Json) (t : Tables) :
    Option Json :=
  let viewer := params.text (lit "p_user_id")
  match function with
  | .getFeed =>
    t.pageReply service viewer
      (t.page service t.posts (params.int (lit "p_limit")) (params.int (lit "p_offset")))
  | .getUserPosts =>
    t.pageReply service viewer
      (t.page service (t.posts.filter (·.authorId = params.text (lit "p_author_id")))
        (params.int (lit "p_limit")) (params.int (lit "p_offset")))
  | .getPost =>
    match (t.posts.filter (·.id = params.text (lit "p_post_id"))).filterMap fun post =>
      (t.author post).map (post, ·) with
    | (post, author) :: _ => some (t.viewedJson service viewer post author)
    | [] => some .null
  | .toggleLike => some failedCall

def setCount (posts : List PostRow) (id : Text) (count : Int) : List PostRow :=
  posts.map fun post => if post.id = id then { post with likesCount := count } else post

/-- `toggle_like`, run alone. -/
def toggleLike (params : Json) (t : Tables) : Option Json × Tables :=
  let user := params.text (lit "p_user_id")
  let id := params.text (lit "p_post_id")
  let post := t.posts.find? (·.id = id)
  let liked := decide ((user, id) ∈ t.likes)
  let change := if liked then LikeChange.unliked true else .liked
  match post with
  | none => (some failedCall, t)
  | some post =>
    match change.count post.likesCount with
    | none => (some failedCall, t)
    | some count =>
      if !liked ∧ ∀ u ∈ t.users, u.id ≠ user then (some failedCall, t)
      else
        (some (.object [(lit "is_liked", .boolean (!liked)), (lit "likes_count", .integer count)]),
          { t with
            likes := if liked then t.likes.filter (· ≠ (user, id)) else (user, id) :: t.likes
            posts := setCount t.posts id count })

/-- The pairs a request's URL is read as. -/
def pairs (query : QueryBuilder) : List (Text × Text) := Url.read query.urlQuery

def selectPosts (service : DatabaseService) (query : QueryBuilder) (t : Tables) :
    Option (List PostRow) :=
  service.selection.select PostRow.column (pairs query) t.posts

def selectMedia (service : DatabaseService) (query : QueryBuilder) (t : Tables) :
    Option (List MediaRow) :=
  service.selection.select MediaRow.column (pairs query) t.media

def selectUsers (service : DatabaseService) (query : QueryBuilder) (t : Tables) :
    Option (List UserRow) :=
  service.selection.select UserRow.column (pairs query) t.users

def select (service : DatabaseService) (query : QueryBuilder) (t : Tables) : Option Json :=
  if query.table = lit "posts" then
    (t.selectPosts service query).map fun rows => .array (rows.map (t.postJson service))
  else if query.table = lit "midia_hashes" then
    (t.selectMedia service query).map fun rows => .array (rows.map MediaRow.json)
  else if query.table = lit "users" then
    (t.selectUsers service query).map fun rows => .array (rows.map (UserRow.json service.timestamp))
  else none

/-- The number of rows, -1 for a failed request. -/
def count (service : DatabaseService) (query : QueryBuilder) (t : Tables) : Int :=
  match t.selectPosts service query with
  | some rows => if query.table = lit "posts" then rows.length else -1
  | none => -1

def newUser (t : Tables) (row : Json) : UserRow :=
  ⟨row.text (lit "id"), row.text (lit "username"), row.text (lit "handle"),
    row.text (lit "display_name"), row.text (lit "avatar"), [], 0, 0, 0, t.now⟩

def newPost (t : Tables) (row : Json) : PostRow :=
  ⟨row.text (lit "id"), row.text (lit "author_id"), row.text (lit "title"),
    row.text (lit "content"), row.text (lit "image_url"), 0, 0, t.now⟩

/-- A taken key is a conflict. -/
def insert (table : Text) (row : Json) (t : Tables) : Int × Tables :=
  if table = lit "users" then
    if ∃ u ∈ t.users, u.id = row.text (lit "id") then (409, t)
    else (201, { t with users := t.users ++ [t.newUser row] })
  else (404, t)

/-- A taken key and an unknown author are conflicts; the reply is then empty. -/
def insertReturn (service : DatabaseService) (table : Text) (row : Json) (t : Tables) :
    Option Json × Tables :=
  if table = lit "posts" then
    let post := t.newPost row
    if (∃ p ∈ t.posts, p.id = post.id) ∨ t.author post = none then (none, t)
    else (some (t.postJson service post), { t with posts := t.posts ++ [post] })
  else (none, t)

def overwrite (values : Json) (row : UserRow) : UserRow :=
  let value (key : Text) (old : Text) : Text :=
    match values.find key with
    | some (.string s) => s
    | _ => old
  { row with
    username := value (lit "username") row.username
    displayName := value (lit "display_name") row.displayName
    handle := value (lit "handle") row.handle
    avatar := value (lit "avatar") row.avatar }

def update (service : DatabaseService) (query : QueryBuilder) (values : Json) (t : Tables) :
    Int × Tables :=
  if query.table = lit "users" then
    match t.selectUsers service query with
    | some found =>
      (204, { t with users := t.users.map fun u => if u ∈ found then overwrite values u else u })
    | none => (400, t)
  else (404, t)

/-- The likes of a deleted post go with it. -/
def delete (service : DatabaseService) (query : QueryBuilder) (t : Tables) : Int × Tables :=
  if query.table = lit "posts" then
    match t.selectPosts service query with
    | some found =>
      (204, { t with
        posts := t.posts.filter (· ∉ found)
        likes := t.likes.filter fun like => ∀ post ∈ found, post.id ≠ like.2 })
    | none => (400, t)
  else if query.table = lit "midia_hashes" then
    match t.selectMedia service query with
    | some found => (204, { t with media := t.media.filter (· ∉ found) })
    | none => (400, t)
  else (404, t)

def database (service : DatabaseService) : Database Tables where
  select := select service
  count := count service
  call := call service
  toggleLike := toggleLike
  insert := insert
  insertReturn := insertReturn service
  update := update service
  delete := delete service

section

variable (service : DatabaseService) (query : QueryBuilder) (row : Json) (t : Tables)

/-- An insertion is refused, or adds a user of a new id. -/
theorem insert_cases (table : Text) :
    (t.insert table row).2 = t ∨ (∀ u ∈ t.users, u.id ≠ (t.newUser row).id) ∧
      (t.insert table row).2 = { t with users := t.users ++ [t.newUser row] } := by
  unfold insert
  split
  · split
    · exact .inl rfl
    · rename_i fresh
      push Not at fresh
      exact .inr ⟨fresh, rfl⟩
  · exact .inl rfl

theorem insert_posts (table : Text) : (t.insert table row).2.posts = t.posts := by
  rcases t.insert_cases row table with refused | ⟨_, added⟩
  · rw [refused]
  · rw [added]

theorem insertReturn_users (table : Text) :
    (t.insertReturn service table row).2.users = t.users := by
  unfold insertReturn
  split
  · dsimp only
    split <;> rfl
  · rfl

/-- An update is refused, or overwrites some users. -/
theorem update_cases :
    (t.update service query row).2 = t ∨ ∃ found : List UserRow, (t.update service query row).2 =
      { t with users := t.users.map fun u => if u ∈ found then overwrite row u else u } := by
  unfold update
  split
  · split
    · exact .inr ⟨_, rfl⟩
    · exact .inl rfl
  · exact .inl rfl

theorem update_posts : (t.update service query row).2.posts = t.posts := by
  rcases t.update_cases service query row with refused | ⟨_, overwritten⟩
  · rw [refused]
  · rw [overwritten]

/-- A deletion leaves the users alone and adds no post. -/
theorem delete_cases :
    (t.delete service query).2.users = t.users ∧
      ∀ post ∈ (t.delete service query).2.posts, post ∈ t.posts := by
  unfold delete
  split
  · split
    · exact ⟨rfl, fun _ => List.mem_of_mem_filter⟩
    · exact ⟨rfl, fun _ => id⟩
  · split
    · split <;> exact ⟨rfl, fun _ => id⟩
    · exact ⟨rfl, fun _ => id⟩

/-- A toggled like leaves the users alone and changes at most the count of one post. -/
theorem toggleLike_counts :
    (t.toggleLike row).2.users = t.users ∧ ((t.toggleLike row).2.posts = t.posts ∨
      ∃ id count, (t.toggleLike row).2.posts = setCount t.posts id count) := by
  unfold toggleLike
  dsimp only
  split
  · exact ⟨rfl, .inl rfl⟩
  · split
    · exact ⟨rfl, .inl rfl⟩
    · split
      · exact ⟨rfl, .inl rfl⟩
      · exact ⟨rfl, .inr ⟨_, _, rfl⟩⟩

/-- But for its count, every post was there before. -/
theorem toggleLike_posts :
    ∀ post ∈ (t.toggleLike row).2.posts,
      ∃ old ∈ t.posts, { old with likesCount := post.likesCount } = post := by
  intro post member
  rcases (t.toggleLike_counts row).2 with same | ⟨id, count, counted⟩
  · exact ⟨post, same ▸ member, rfl⟩
  · rw [counted] at member
    obtain ⟨old, stored, rfl⟩ := List.mem_map.mp member
    refine ⟨old, stored, ?_⟩
    split <;> rfl

end

/-- An upsert merges on the hash. -/
def upsertMedia (row : MediaRow) (t : Tables) : Tables :=
  if ∃ m ∈ t.media, m.hash = row.hash then
    { t with media := t.media.map fun m => if m.hash = row.hash then row else m }
  else { t with media := t.media ++ [row] }

end Tables
end Crown
