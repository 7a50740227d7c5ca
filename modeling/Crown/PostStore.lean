import Crown.Lib.Utf16

/-! The post store of the client, `stores/post-store.ts`. The posts are objects that an action
may hold on to while it waits, so the store has them by reference; an action is split where it
waits for the server. -/
namespace Crown.Client

open Lib

structure User where
  id : JsString
  username : JsString
  handle : JsString
  displayName : JsString
  avatar : JsString
  bio : JsString
  followersCount : Int
  followingCount : Int
  postsCount : Int
  createdAt : JsString
  isFollowingMe : Bool
  isFollowedByMe : Bool
  deriving DecidableEq

structure Post where
  id : JsString
  author : Option User
  title : JsString
  content : JsString
  imageUrl : JsString
  likesCount : Int
  commentsCount : Int
  isLikedByMe : Bool
  createdAt : JsString
  deriving DecidableEq

/-- A copy without an author that has no id. -/
def toPlain (post : Post) : Post :=
  { post with author := post.author.filter fun author => author.id ≠ [] }

/-- A caught error: the code of an `RpcError` and the text of any error. -/
structure Failure where
  code : Option JsString
  text : JsString
  deriving DecidableEq

structure FeedRequest where
  page : Nat
  limit : Nat
  deriving DecidableEq

structure ToggleLikeResult where
  isLiked : Bool
  updatedLikesCount : Int
  deriving DecidableEq

def minPageFeed : Nat := 1
def maxPageFeed : Nat := 50

structure PostState where
  /-- Every object an action made; a reference is a place here. -/
  objects : List Post
  posts : List Nat
  isLoading : Bool
  error : Option JsString
  page : Nat
  hasMore : Bool
  likeVersions : JsString → Option Nat
  pendingLikes : JsString → Bool

/-- What a call of `toggleLike` keeps while it waits. -/
structure Toggle where
  id : JsString
  post : Nat
  version : Nat
  prevLiked : Bool
  prevCount : Int
  deriving DecidableEq

/-- The like fields of a post, as `toggleLike` is answered. -/
def Post.like (post : Post) : ToggleLikeResult := ⟨post.isLikedByMe, post.likesCount⟩

def Toggle.prev (call : Toggle) : ToggleLikeResult := ⟨call.prevLiked, call.prevCount⟩

instance : Inhabited Post := ⟨⟨[], none, [], [], [], 0, 0, false, []⟩⟩

namespace PostState

def initial : PostState where
  objects := []
  posts := []
  isLoading := false
  error := none
  page := 1
  hasMore := true
  likeVersions := fun _ => none
  pendingLikes := fun _ => false

def object (s : PostState) (ref : Nat) : Post := s.objects.getD ref default

/-- What `this.posts` shows. -/
def shown (s : PostState) : List Post := s.posts.map s.object

/-- New objects, one for each post. -/
def made (s : PostState) (posts : List Post) : List Nat :=
  (List.range posts.length).map (s.objects.length + ·)

def make (posts : List Post) (s : PostState) : PostState :=
  { s with objects := s.objects ++ posts }

/-- `fetchPosts` up to its wait, nothing when it returns at once. -/
def fetchPosts (s : PostState) : Option (FeedRequest × PostState) :=
  if s.isLoading then none
  else some (⟨minPageFeed, maxPageFeed⟩, { s with isLoading := true, error := none })

/-- `fetchPosts` from the answer on; `signedIn` is what `isAuthenticated` says then. -/
def fetchedPosts (signedIn : Bool) (answer : Except Failure (List Post)) (s : PostState) :
    PostState :=
  match answer with
  | .ok posts =>
    { s.make (posts.map toPlain) with
      posts := s.made (posts.map toPlain)
      page := 1
      hasMore := posts.length = 20
      isLoading := false }
  | .error err =>
    { s with
      posts := if err.code = some (js "UNAUTHENTICATED") ∧ signedIn = false then [] else s.posts
      error := some (js "Falha ao carregar feed: " ++ err.text)
      isLoading := false }

/-- `loadMore` up to its wait, nothing when it returns at once. -/
def loadMore (s : PostState) : Option (FeedRequest × PostState) :=
  if s.isLoading || !s.hasMore then none
  else some (⟨s.page + 1, 20⟩, { s with isLoading := true })

/-- `loadMore` from the answer to its request on. -/
def loadedMore (request : FeedRequest) (answer : Except Failure (List Post)) (s : PostState) :
    PostState :=
  match answer with
  | .ok posts =>
    { s.make (posts.map toPlain) with
      posts := s.posts ++ s.made (posts.map toPlain)
      page := request.page
      hasMore := posts.length = 20
      isLoading := false }
  | .error err =>
    { s with
      error := some (js "Falha ao carregar mais posts: " ++ err.text)
      isLoading := false }

/-- A write to the like fields of an object. -/
def setLike (ref : Nat) (liked : Bool) (count : Int) (s : PostState) : PostState :=
  { s with
    objects := s.objects.modify ref fun post =>
      { post with isLikedByMe := liked, likesCount := count } }

/-- `this.posts.find(p => p.id === id)`. -/
def find (s : PostState) (id : JsString) : Option Nat :=
  s.posts.find? fun ref => (s.object ref).id = id

/-- `toggleLike` up to its wait, nothing when it returns at once. -/
def toggleLike (id : JsString) (s : PostState) : Option (Toggle × PostState) :=
  match s.find id with
  | none => none
  | some post =>
    if s.pendingLikes id then none
    else
      let version := (s.likeVersions id).getD 0 + 1
      let liked := (s.object post).isLikedByMe
      let count := (s.object post).likesCount
      some (⟨id, post, version, liked, count⟩,
        { s.setLike post (!liked) (count + if liked then -1 else 1) with
          likeVersions := Function.update s.likeVersions id (some version)
          pendingLikes := Function.update s.pendingLikes id true })

/-- `toggleLike` from the answer on, nothing in place of the answer when the call failed. -/
def toggledLike (call : Toggle) (answer : Option ToggleLikeResult) (s : PostState) : PostState :=
  let settled :=
    if s.likeVersions call.id = some call.version then
      match answer with
      | some result => s.setLike call.post result.isLiked result.updatedLikesCount
      | none => s.setLike call.post call.prevLiked call.prevCount
    else s
  { settled with pendingLikes := Function.update settled.pendingLikes call.id false }

theorem object_make_old (s : PostState) {ref : Nat} (old : ref < s.objects.length)
    (posts : List Post) : (s.make posts).object ref = s.object ref := by
  simp only [object, make, List.getD_eq_getElem?_getD, List.getElem?_append_left old]

theorem object_made (s : PostState) (posts : List Post) :
    (s.made posts).map (s.make posts).object = posts := by
  refine List.ext_getElem (by simp [made]) fun place _ _ => ?_
  simp only [made, make, object, List.getElem_map, List.getElem_range, List.getD_eq_getElem?_getD]
  rw [List.getElem?_append_right (Nat.le_add_right _ _), Nat.add_sub_cancel_left,
    List.getElem?_eq_getElem ‹_›, Option.getD_some]

theorem mem_made {s : PostState} {posts : List Post} {ref : Nat} :
    ref ∈ s.made posts ↔ s.objects.length ≤ ref ∧ ref < s.objects.length + posts.length := by
  simp only [made, List.mem_map, List.mem_range]
  constructor
  · rintro ⟨place, small, rfl⟩
    omega
  · rintro ⟨low, high⟩
    exact ⟨ref - s.objects.length, by omega, by omega⟩

@[simp] theorem setLike_length (s : PostState) (ref : Nat) (liked : Bool) (count : Int) :
    (s.setLike ref liked count).objects.length = s.objects.length :=
  List.length_modify ..

theorem object_setLike_self (s : PostState) {ref : Nat} (made : ref < s.objects.length)
    (liked : Bool) (count : Int) : (s.setLike ref liked count).object ref =
      { s.object ref with isLikedByMe := liked, likesCount := count } := by
  simp only [object, setLike, List.getD_eq_getElem?_getD, List.getElem?_modify_eq,
    List.getElem?_eq_getElem made, Option.map_eq_map, Option.map_some, Option.getD_some]

theorem object_setLike_other (s : PostState) {ref other : Nat} (apart : other ≠ ref)
    (liked : Bool) (count : Int) : (s.setLike ref liked count).object other = s.object other := by
  simp only [object, setLike, List.getD_eq_getElem?_getD, List.getElem?_modify_ne _ _ apart.symm]

/-- A like changes no id. -/
@[simp] theorem id_setLike (s : PostState) (ref other : Nat) (liked : Bool) (count : Int) :
    ((s.setLike ref liked count).object other).id = (s.object other).id := by
  by_cases same : other = ref
  · subst same
    by_cases made : other < s.objects.length
    · rw [object_setLike_self s made]
    · have outside : s.objects.modify other (fun post =>
          { post with isLikedByMe := liked, likesCount := count }) = s.objects :=
        List.modify_eq_self (Nat.le_of_not_lt made)
      rw [object, setLike, outside, object]
  · rw [object_setLike_other s same]

theorem fetchPosts_some {s s' : PostState} {request : FeedRequest}
    (called : s.fetchPosts = some (request, s')) : s.isLoading = false ∧
      request = ⟨minPageFeed, maxPageFeed⟩ ∧ s' = { s with isLoading := true, error := none } := by
  unfold fetchPosts at called
  split at called
  · cases called
  · rename_i idle
    cases called
    exact ⟨Bool.eq_false_iff.mpr idle, rfl, rfl⟩

/-- A call that goes to the server holds a shown post whose likes no other call waits for. -/
theorem toggleLike_some {s s' : PostState} {id : JsString} {call : Toggle}
    (called : s.toggleLike id = some (call, s')) :
    call.id = id ∧ call.post ∈ s.posts ∧ (s.object call.post).id = id ∧
      s.pendingLikes id = false ∧ call.prev = (s.object call.post).like ∧
      ∃ liked count, s' = { s.setLike call.post liked count with
        likeVersions := Function.update s.likeVersions id (some call.version)
        pendingLikes := Function.update s.pendingLikes id true } := by
  unfold toggleLike at called
  split at called
  · cases called
  · rename_i post found
    split at called
    · cases called
    · rename_i free
      cases called
      exact ⟨rfl, List.mem_of_find?_eq_some found, by simpa using List.find?_some found,
        Bool.eq_false_iff.mpr free, rfl, _, _, rfl⟩

theorem toggledLike_current {s : PostState} {call : Toggle}
    (current : s.likeVersions call.id = some call.version) (answer : Option ToggleLikeResult) :
    s.toggledLike call answer =
      { s.setLike call.post (answer.getD call.prev).isLiked
          (answer.getD call.prev).updatedLikesCount with
        pendingLikes := Function.update s.pendingLikes call.id false } := by
  unfold toggledLike
  rw [if_pos current]
  cases answer <;> rfl

end PostState
end Crown.Client
