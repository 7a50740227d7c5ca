import Crown.PostStore
import Crown.Lib.InFlight
import Crown.Lib.Transition

/-! The ids of the posts in the client's store, over every interleaving of its actions with their
answers. Only the two actions that load the feed wait for each other. -/
namespace Crown.Client

open Lib

/-- The store with the marks that its other actions set. -/
structure EditState extends PostState where
  isCreating : Bool
  isDeleting : Bool

/-- What `createPost` is sent. -/
structure Draft where
  title : JsString
  content : JsString
  imageUrl : JsString

/-- What a call of `removePost` keeps while it waits. -/
structure Removal where
  id : JsString
  index : Nat
  removed : Nat

namespace EditState

def initial : EditState := { PostState.initial with isCreating := false, isDeleting := false }

/-- `criarPost` up to its wait. -/
def criarPost (post : Post) (s : EditState) : Draft × EditState :=
  (⟨post.title, post.content, post.imageUrl⟩, { s with isCreating := true, error := none })

/-- `criarPost` from the answer on. -/
def createdPost (answer : Except Failure Post) (s : EditState) : EditState :=
  match answer with
  | .ok created =>
    { s with
      toPostState := { s.make [toPlain created] with posts := s.made [toPlain created] ++ s.posts }
      isCreating := false }
  | .error err =>
    { s with error := some (js "Falha ao criar post: " ++ err.text), isCreating := false }

/-- `removePost` up to its wait, nothing when it returns at once. -/
def removePost (id : JsString) (s : EditState) : Option (Removal × EditState) :=
  match s.posts.findIdx? fun ref => (s.object ref).id = id with
  | none => none
  | some index =>
    s.posts[index]?.map fun removed =>
      (⟨id, index, removed⟩, { s with posts := s.posts.eraseIdx index, isDeleting := true })

/-- `removePost` from the answer on: a post that could not be deleted is put back where it was,
at the end of a list that has become shorter. -/
def removedPost (call : Removal) (failure : Option Failure) (s : EditState) : EditState :=
  match failure with
  | none => { s with isDeleting := false }
  | some err =>
    { s with
      posts := s.posts.take call.index ++ call.removed :: s.posts.drop call.index
      error := some (js "Falha ao excluir post: " ++ err.text)
      isDeleting := false }

end EditState

/-- The call that loads the feed. -/
inductive FeedLoad where
  | fetchPosts (request : FeedRequest)
  | loadMore (request : FeedRequest)

/-- The store with the calls that wait for the server. -/
structure PostActions where
  store : EditState
  feed : Option FeedLoad
  drafts : List Draft
  removals : List Removal
  likes : List Toggle

namespace PostActions

inductive Event where
  | fetchPosts
  | loadMore
  | answerFeed (signedIn : Bool) (answer : Except Failure (List Post))
  | criarPost (post : Post)
  | answerCreate (place : Nat) (answer : Except Failure Post)
  | removePost (id : JsString)
  | answerRemove (place : Nat) (failure : Option Failure)
  | toggleLike (id : JsString)
  | answerToggle (place : Nat) (answer : Option ToggleLikeResult)

def start : PostActions := ⟨.initial, none, [], [], []⟩

def load (s : PostActions) (load : FeedRequest → FeedLoad) :
    Option (FeedRequest × PostState) → PostActions
  | none => s
  | some (request, store) =>
    { s with store := { s.store with toPostState := store }, feed := some (load request) }

/-- The answers come in any order; nothing is said of what the server answers. -/
def step (s : PostActions) : Event → Option PostActions
  | .fetchPosts => some (s.load .fetchPosts s.store.fetchPosts)
  | .loadMore => some (s.load .loadMore s.store.loadMore)
  | .answerFeed signedIn answer =>
    match s.feed with
    | none => none
    | some (.fetchPosts _) =>
      some { s with
        store := { s.store with toPostState := s.store.fetchedPosts signedIn answer }
        feed := none }
    | some (.loadMore request) =>
      some { s with
        store := { s.store with toPostState := s.store.loadedMore request answer }
        feed := none }
  | .criarPost post =>
    some { s with store := (s.store.criarPost post).2, drafts := s.drafts ++ [(s.store.criarPost post).1] }
  | .answerCreate place answer =>
    s.drafts[place]?.map fun _ =>
      { s with store := s.store.createdPost answer, drafts := s.drafts.eraseIdx place }
  | .removePost id =>
    match s.store.removePost id with
    | none => some s
    | some (call, store) => some { s with store, removals := s.removals ++ [call] }
  | .answerRemove place failure =>
    s.removals[place]?.map fun call =>
      { s with store := s.store.removedPost call failure, removals := s.removals.eraseIdx place }
  | .toggleLike id =>
    match s.store.toggleLike id with
    | none => some s
    | some (call, store) =>
      some { s with store := { s.store with toPostState := store }, likes := s.likes ++ [call] }
  | .answerToggle place answer =>
    s.likes[place]?.map fun call =>
      { s with
        store := { s.store with toPostState := s.store.toggledLike call answer }
        likes := s.likes.eraseIdx place }

/-- The server returns no post twice in one answer. -/
def Distinct : Event → Prop
  | .answerFeed _ (.ok posts) => (posts.map Post.id).Nodup
  | _ => True

instance : DecidablePred Distinct
  | .answerFeed _ (.ok posts) => inferInstanceAs (Decidable (posts.map Post.id).Nodup)
  | .answerFeed _ (.error _) | .fetchPosts | .loadMore | .criarPost _ | .answerCreate _ _
  | .removePost _ | .answerRemove _ _ | .toggleLike _ | .answerToggle _ _ => .isTrue trivial

end PostActions

namespace PostState

variable {s : PostState}

/-- The ids of `this.posts`. -/
def ids (s : PostState) : List JsString := s.shown.map Post.id

/-- Every reference is to an object. -/
def Made (s : PostState) : Prop := ∀ ref ∈ s.posts, ref < s.objects.length

theorem ids_eq (s : PostState) : s.ids = s.posts.map fun ref => (s.object ref).id := by
  rw [ids, shown, List.map_map]
  rfl

theorem ids_made (s : PostState) (posts : List Post) :
    (s.made posts).map (fun ref => ((s.make posts).object ref).id) = posts.map Post.id := by
  have shown := congrArg (List.map Post.id) (s.object_made posts)
  rw [List.map_map] at shown
  exact shown

theorem ids_make_old (made : s.Made) (posts : List Post) :
    s.posts.map (fun ref => ((s.make posts).object ref).id) = s.ids := by
  rw [ids_eq]
  exact List.map_congr_left fun ref member => congrArg Post.id (s.object_make_old (made ref member) posts)

theorem ids_toPlain (posts : List Post) : (posts.map toPlain).map Post.id = posts.map Post.id := by
  rw [List.map_map]
  rfl

theorem ids_fetchedPosts (s : PostState) (signedIn : Bool) (posts : List Post) :
    (s.fetchedPosts signedIn (.ok posts)).ids = posts.map Post.id := by
  rw [ids_eq, ← ids_toPlain posts, ← s.ids_made (posts.map toPlain)]
  rfl

theorem ids_loadedMore (made : s.Made) (request : FeedRequest) (posts : List Post) :
    (s.loadedMore request (.ok posts)).ids = s.ids ++ posts.map Post.id := by
  rw [ids_eq, ← ids_toPlain posts, ← s.ids_made (posts.map toPlain),
    ← ids_make_old made (posts.map toPlain), ← List.map_append]
  rfl

/-- No object is lost, and none changes its id. -/
structure Extends (s s' : PostState) : Prop where
  length : s.objects.length ≤ s'.objects.length
  same : ∀ ref < s.objects.length, (s'.object ref).id = (s.object ref).id

variable {s' : PostState}

theorem extends_of_objects (objects : s'.objects = s.objects) : Extends s s' :=
  ⟨Nat.le_of_eq (congrArg _ objects.symm), fun ref _ => by rw [object, object, objects]⟩

theorem extends_of_make (posts : List Post) (objects : s'.objects = (s.make posts).objects) :
    Extends s s' := by
  have longer : s'.objects.length = s.objects.length + posts.length := by
    rw [objects]
    exact List.length_append
  refine ⟨by omega, fun ref old => ?_⟩
  have made : s'.object ref = (s.make posts).object ref := by rw [object, object, objects]
  rw [made, s.object_make_old old]

theorem extends_of_setLike (ref : Nat) {liked : Bool} {count : Int}
    (objects : s'.objects = (s.setLike ref liked count).objects) : Extends s s' := by
  refine ⟨?_, fun other _ => ?_⟩
  · rw [objects, setLike_length]
  · have set : s'.object other = (s.setLike ref liked count).object other := by
      rw [object, object, objects]
    rw [set, id_setLike]

namespace Extends

theorem ids (grown : Extends s s') (made : s.Made) (posts : s'.posts = s.posts) : s'.ids = s.ids := by
  rw [ids_eq, ids_eq, posts]
  exact List.map_congr_left fun ref member => grown.same ref (made ref member)

/-- References to old objects stay references. -/
theorem made (grown : Extends s s') (made : s.Made) (old : ∀ ref ∈ s'.posts, ref ∈ s.posts) :
    s'.Made :=
  fun ref member => Nat.lt_of_lt_of_le (made ref (old ref member)) grown.length

end Extends

theorem fetchedPosts_extends (signedIn : Bool) (answer : Except Failure (List Post)) :
    Extends s (s.fetchedPosts signedIn answer) := by
  cases answer with
  | ok posts => exact extends_of_make (posts.map toPlain) rfl
  | error err => exact extends_of_objects rfl

theorem loadedMore_extends (request : FeedRequest) (answer : Except Failure (List Post)) :
    Extends s (s.loadedMore request answer) := by
  cases answer with
  | ok posts => exact extends_of_make (posts.map toPlain) rfl
  | error err => exact extends_of_objects rfl

theorem made_of_make (posts : List Post) (made : s.Made) (objects : s'.objects = (s.make posts).objects)
    (refs : ∀ ref ∈ s'.posts, ref ∈ s.posts ∨ ref ∈ s.made posts) : s'.Made := by
  intro ref member
  have longer : s'.objects.length = s.objects.length + posts.length := by
    rw [objects]
    exact List.length_append
  rcases refs ref member with old | new
  · exact Nat.lt_of_lt_of_le (made ref old) (by omega)
  · exact Nat.lt_of_lt_of_eq (mem_made.mp new).2 longer.symm

theorem fetchedPosts_made (made : s.Made) (signedIn : Bool) (answer : Except Failure (List Post)) :
    (s.fetchedPosts signedIn answer).Made := by
  cases answer with
  | ok posts => exact made_of_make (posts.map toPlain) made rfl fun _ => .inr
  | error err =>
    refine (fetchedPosts_extends signedIn (.error err)).made made fun ref member => ?_
    simp only [fetchedPosts] at member
    split at member
    · cases member
    · exact member

theorem loadedMore_made (made : s.Made) (request : FeedRequest) (answer : Except Failure (List Post)) :
    (s.loadedMore request answer).Made := by
  cases answer with
  | ok posts => exact made_of_make (posts.map toPlain) made rfl fun _ => List.mem_append.mp
  | error err => exact made

theorem loadMore_some {request : FeedRequest} (called : s.loadMore = some (request, s')) :
    s' = { s with isLoading := true } := by
  unfold loadMore at called
  split at called
  · cases called
  · cases called
    rfl

/-- An answer to `toggleLike` changes the likes of one object. -/
theorem toggledLike_objects (call : Toggle) (answer : Option ToggleLikeResult) :
    Extends s (s.toggledLike call answer) ∧ (s.toggledLike call answer).posts = s.posts := by
  unfold toggledLike
  split
  · cases answer with
    | some result => exact ⟨extends_of_setLike call.post rfl, rfl⟩
    | none => exact ⟨extends_of_setLike call.post rfl, rfl⟩
  · exact ⟨extends_of_objects rfl, rfl⟩

end PostState

namespace EditState

variable {s s' : EditState} {call : Removal}

theorem removePost_some {id : JsString} (called : s.removePost id = some (call, s')) :
    call.id = id ∧ call.removed ∈ s.posts ∧ (s.object call.removed).id = id ∧
      s' = { s with posts := s.posts.eraseIdx call.index, isDeleting := true } := by
  unfold removePost at called
  split at called
  · cases called
  · rename_i index found
    obtain ⟨removed, here, same⟩ := Option.map_eq_some_iff.mp called
    cases same
    obtain ⟨inside, titled, -⟩ := List.findIdx?_eq_some_iff_getElem.mp found
    obtain ⟨_, rfl⟩ := List.getElem?_eq_some_iff.mp here
    exact ⟨rfl, List.getElem_mem inside, of_decide_eq_true titled, rfl⟩

theorem ids_createdPost (made : s.Made) (created : Post) :
    (s.createdPost (.ok created)).ids = created.id :: s.ids := by
  have own := s.ids_made [toPlain created]
  have others := PostState.ids_make_old made [toPlain created]
  rw [PostState.ids_eq]
  exact (List.map_append ..).trans (congrArg₂ _ own others)

theorem ids_removedPost (named : (s.object call.removed).id = call.id) (err : Failure) :
    (s.removedPost call (some err)).ids =
      s.ids.take call.index ++ call.id :: s.ids.drop call.index := by
  rw [PostState.ids_eq, PostState.ids_eq, ← List.map_take, ← List.map_drop, ← named]
  exact List.map_append ..

end EditState

namespace PostActions

variable {s s' : PostActions} {event : Event}

/-- No two posts of the store have one id. -/
def UniqueIds (s : PostActions) : Prop := s.store.ids.Nodup

/-- What is put into the store is not there already: the posts of a later page, a created post,
and a post that could not be deleted. -/
def Fresh (s : PostActions) : Event → Prop
  | .answerFeed _ (.ok posts) => ∀ request, s.feed = some (.loadMore request) →
      ∀ post ∈ posts, post.id ∉ s.store.ids
  | .answerCreate _ (.ok created) => created.id ∉ s.store.ids
  | .answerRemove place (some _) => ∀ call, s.removals[place]? = some call → call.id ∉ s.store.ids
  | _ => True

/-- What the store and the waiting calls refer to exists. -/
structure Invariant (s : PostActions) : Prop where
  made : s.store.Made
  removed : ∀ call ∈ s.removals, call.removed < s.store.objects.length ∧
    (s.store.object call.removed).id = call.id

theorem start_invariant : Invariant start := by
  refine ⟨fun ref member => ?_, fun call member => ?_⟩ <;> cases member

/-- What every action does to the objects keeps the references. -/
theorem Invariant.grow (before : Invariant s)
    (grown : PostState.Extends s.store.toPostState s'.store.toPostState) (made : s'.store.Made)
    (removals : ∀ call ∈ s'.removals, call ∈ s.removals) : Invariant s' := by
  refine ⟨made, fun call member => ?_⟩
  obtain ⟨inside, named⟩ := before.removed call (removals call member)
  exact ⟨Nat.lt_of_lt_of_le inside grown.length, (grown.same _ inside).trans named⟩

/-- An action that leaves the list and the objects alone. -/
theorem Invariant.still (before : Invariant s) (posts : s'.store.posts = s.store.posts)
    (grown : PostState.Extends s.store.toPostState s'.store.toPostState)
    (removals : ∀ call ∈ s'.removals, call ∈ s.removals) :
    Invariant s' ∧ s'.store.ids = s.store.ids :=
  ⟨before.grow grown (grown.made before.made fun _ member => posts ▸ member) removals,
    grown.ids before.made posts⟩

/-- The feed is replaced by an answer, kept, or emptied. -/
theorem Invariant.fetched (before : Invariant s) (unique : s.UniqueIds) (signedIn : Bool)
    (answer : Except Failure (List Post)) (distinct : Distinct (.answerFeed signedIn answer))
    (store : s'.store.toPostState = s.store.fetchedPosts signedIn answer)
    (removals : ∀ call ∈ s'.removals, call ∈ s.removals) : Invariant s' ∧ s'.UniqueIds := by
  have grown := @PostState.fetchedPosts_extends s.store.toPostState signedIn answer
  have made := PostState.fetchedPosts_made before.made signedIn answer
  rw [← store] at grown made
  refine ⟨before.grow grown made removals, ?_⟩
  rw [UniqueIds, store]
  cases answer with
  | ok posts =>
    rw [PostState.ids_fetchedPosts]
    exact distinct
  | error err =>
    rw [PostState.ids_eq]
    simp only [PostState.fetchedPosts]
    split
    · exact List.nodup_nil
    · have kept : s.store.ids.Nodup := unique
      rw [PostState.ids_eq] at kept
      exact kept

/-- A later page is added at the end. -/
theorem Invariant.loaded (before : Invariant s) (unique : s.UniqueIds) (request : FeedRequest)
    {posts : List Post} (distinct : (posts.map Post.id).Nodup)
    (store : s'.store.toPostState = s.store.loadedMore request (.ok posts))
    (removals : ∀ call ∈ s'.removals, call ∈ s.removals) :
    Invariant s' ∧ (s'.UniqueIds ↔ ∀ post ∈ posts, post.id ∉ s.store.ids) := by
  have grown := @PostState.loadedMore_extends s.store.toPostState request (.ok posts)
  have made := PostState.loadedMore_made before.made request (.ok posts)
  rw [← store] at grown made
  refine ⟨before.grow grown made removals, ?_⟩
  rw [UniqueIds, store, PostState.ids_loadedMore before.made, List.nodup_append]
  constructor
  · rintro ⟨-, -, apart⟩ post member here
    exact apart _ here _ (List.mem_map_of_mem member) rfl
  · refine fun apart => ⟨unique, distinct, ?_⟩
    rintro _ here _ added rfl
    obtain ⟨post, member, rfl⟩ := List.mem_map.mp added
    exact apart post member here

/-- A created post is put in front. -/
theorem Invariant.created (before : Invariant s) (unique : s.UniqueIds) (created : Post)
    (store : s'.store = s.store.createdPost (.ok created))
    (removals : ∀ call ∈ s'.removals, call ∈ s.removals) :
    Invariant s' ∧ (s'.UniqueIds ↔ created.id ∉ s.store.ids) := by
  have grown : PostState.Extends s.store.toPostState s'.store.toPostState := by
    rw [store]
    exact PostState.extends_of_make [toPlain created] rfl
  have made : s'.store.Made := by
    rw [store]
    exact PostState.made_of_make [toPlain created] before.made rfl fun _ member =>
      (List.mem_append.mp member).symm
  refine ⟨before.grow grown made removals, ?_⟩
  rw [UniqueIds, store, EditState.ids_createdPost before.made, List.nodup_cons]
  exact and_iff_left unique

/-- A post is taken out, and its call waits. -/
theorem Invariant.removing {id : JsString} {store : EditState} {call : Removal} (before : Invariant s)
    (unique : s.UniqueIds) (called : s.store.removePost id = some (call, store)) :
    Invariant { s with store, removals := s.removals ++ [call] } ∧ store.ids.Nodup := by
  obtain ⟨named, shown, titled, rfl⟩ := EditState.removePost_some called
  refine ⟨⟨fun ref member => before.made ref (List.mem_of_mem_eraseIdx member), ?_⟩, ?_⟩
  · intro waiting member
    rcases List.mem_append.mp member with earlier | new
    · exact before.removed waiting earlier
    · rw [List.mem_singleton.mp new]
      exact ⟨before.made _ shown, titled.trans named.symm⟩
  · have kept : s.store.ids.Nodup := unique
    rw [PostState.ids_eq] at kept ⊢
    exact kept.sublist ((List.eraseIdx_sublist ..).map _)

/-- A post that could not be deleted is put back. -/
theorem Invariant.restored {call : Removal} (before : Invariant s) (unique : s.UniqueIds)
    (waiting : call ∈ s.removals) (err : Failure)
    (store : s'.store = s.store.removedPost call (some err))
    (removals : ∀ call ∈ s'.removals, call ∈ s.removals) :
    Invariant s' ∧ (s'.UniqueIds ↔ call.id ∉ s.store.ids) := by
  obtain ⟨inside, named⟩ := before.removed call waiting
  have made : s'.store.Made := by
    rw [store]
    intro ref member
    rcases List.mem_append.mp member with early | late
    · exact before.made ref (List.mem_of_mem_take early)
    · rcases List.mem_cons.mp late with rfl | late
      · exact inside
      · exact before.made ref (List.mem_of_mem_drop late)
  have grown : PostState.Extends s.store.toPostState s'.store.toPostState := by
    rw [store]
    exact PostState.extends_of_objects rfl
  refine ⟨before.grow grown made removals, ?_⟩
  rw [UniqueIds, store, EditState.ids_removedPost named, List.nodup_middle, List.take_append_drop,
    List.nodup_cons]
  exact and_iff_left unique

/-- A step that lists no other ids is fresh. -/
theorem unique_of_same (unique : s.UniqueIds) (fresh : s.Fresh event)
    (same : Invariant s' ∧ s'.store.ids = s.store.ids) :
    Invariant s' ∧ (s'.UniqueIds ↔ s.Fresh event) := by
  refine ⟨same.1, iff_of_true ?_ fresh⟩
  rw [UniqueIds, same.2]
  exact unique

/-- A page of the feed may be put behind posts that are listed. -/
theorem answerFeed_step {signedIn : Bool} {answer : Except Failure (List Post)}
    (before : Invariant s) (unique : s.UniqueIds) (distinct : Distinct (.answerFeed signedIn answer))
    (stepped : s.step (.answerFeed signedIn answer) = some s') :
    Invariant s' ∧ (s'.UniqueIds ↔ s.Fresh (.answerFeed signedIn answer)) := by
  simp only [step] at stepped
  split at stepped
  · cases stepped
  · rename_i request feed
    cases stepped
    refine And.imp_right (fun kept => iff_of_true kept ?_)
      (before.fetched unique signedIn answer distinct rfl fun _ => id)
    cases answer with
    | ok posts =>
      intro request loading
      rw [feed] at loading
      cases loading
    | error err => trivial
  · rename_i request feed
    cases stepped
    cases answer with
    | ok posts =>
      exact And.imp_right (fun kept => kept.trans
        ⟨fun apart other loading => apart, fun apart => apart request feed⟩)
        (before.loaded unique request distinct rfl fun _ => id)
    | error err =>
      exact unique_of_same unique trivial
        (before.still rfl (PostState.extends_of_objects rfl) fun _ => id)

/-- A removal that failed puts its post back. -/
theorem answerRemove_step {place : Nat} {failure : Option Failure} (before : Invariant s)
    (unique : s.UniqueIds) (stepped : s.step (.answerRemove place failure) = some s') :
    Invariant s' ∧ (s'.UniqueIds ↔ s.Fresh (.answerRemove place failure)) := by
  obtain ⟨call, here, rfl⟩ := Option.map_eq_some_iff.mp stepped
  have fewer : ∀ other ∈ s.removals.eraseIdx place, other ∈ s.removals :=
    fun other => InFlight.mem_of_mem_eraseIdx here
  cases failure with
  | none =>
    exact unique_of_same unique trivial
      (before.still rfl (PostState.extends_of_objects rfl) fewer)
  | some err =>
    refine And.imp_right (fun kept => kept.trans
      ⟨fun apart other waiting => ?_, fun apart => apart call here⟩)
      (before.restored unique (InFlight.mem_of_getElem? here) err rfl fewer)
    rw [here] at waiting
    cases waiting
    exact apart

/-- One step keeps the references, and keeps the ids unique just when what it puts into the store
is not there already. -/
theorem step_unique_iff (before : Invariant s) (unique : s.UniqueIds) (distinct : Distinct event)
    (stepped : s.step event = some s') : Invariant s' ∧ (s'.UniqueIds ↔ s.Fresh event) := by
  cases event with
  | fetchPosts =>
    cases stepped
    refine unique_of_same unique trivial ?_
    cases called : s.store.fetchPosts with
    | none => exact ⟨before, rfl⟩
    | some sent =>
      obtain ⟨request, store⟩ := sent
      obtain ⟨-, -, rfl⟩ := PostState.fetchPosts_some called
      exact before.still rfl (PostState.extends_of_objects rfl) fun _ => id
  | loadMore =>
    cases stepped
    refine unique_of_same unique trivial ?_
    cases called : s.store.loadMore with
    | none => exact ⟨before, rfl⟩
    | some sent =>
      obtain ⟨request, store⟩ := sent
      obtain rfl := PostState.loadMore_some called
      exact before.still rfl (PostState.extends_of_objects rfl) fun _ => id
  | answerFeed signedIn answer => exact answerFeed_step before unique distinct stepped
  | criarPost post =>
    cases stepped
    exact unique_of_same unique trivial
      (before.still rfl (PostState.extends_of_objects rfl) fun _ => id)
  | answerCreate place answer =>
    obtain ⟨draft, -, rfl⟩ := Option.map_eq_some_iff.mp stepped
    cases answer with
    | ok created => exact before.created unique created rfl fun _ => id
    | error err =>
      exact unique_of_same unique trivial
        (before.still rfl (PostState.extends_of_objects rfl) fun _ => id)
  | removePost id =>
    simp only [step] at stepped
    split at stepped
    · cases stepped
      exact unique_of_same unique trivial ⟨before, rfl⟩
    · rename_i called
      cases stepped
      obtain ⟨after, kept⟩ := before.removing unique called
      exact ⟨after, iff_of_true kept trivial⟩
  | answerRemove place failure => exact answerRemove_step before unique stepped
  | toggleLike id =>
    simp only [step] at stepped
    split at stepped
    · cases stepped
      exact unique_of_same unique trivial ⟨before, rfl⟩
    · rename_i call store called
      cases stepped
      obtain ⟨-, -, -, -, -, liked, count, rfl⟩ := PostState.toggleLike_some called
      exact unique_of_same unique trivial
        (before.still rfl (PostState.extends_of_setLike call.post rfl) fun _ member => member)
  | answerToggle place answer =>
    obtain ⟨call, -, rfl⟩ := Option.map_eq_some_iff.mp stepped
    obtain ⟨grown, posts⟩ := @PostState.toggledLike_objects s.store.toPostState call answer
    exact unique_of_same unique trivial (before.still posts grown fun _ => id)

/-- The runs in which the ids are unique in every state reached are those in which nothing is put
into the store that is there already. -/
theorem run_uniqueIds_iff :
    Run (Guarded (fun _ event => Distinct event)
      fun s event s' => s.step event = some s' ∧ s'.UniqueIds) start events s ↔
    Run (Guarded (fun s event => Distinct event ∧ s.Fresh event)
      fun s event s' => s.step event = some s') start events s := by
  have kept : ∀ s event s', Invariant s ∧ s.UniqueIds → Guarded (fun _ event => Distinct event)
      (fun s event s' => s.step event = some s' ∧ s'.UniqueIds) s event s' →
        Invariant s' ∧ s'.UniqueIds := by
    rintro s event s' ⟨before, unique⟩ ⟨distinct, stepped, still⟩
    exact ⟨(step_unique_iff before unique distinct stepped).1, still⟩
  refine Run.congr_under ⟨start_invariant, List.nodup_nil⟩ kept ?_
  rintro s event s' ⟨before, unique⟩
  constructor
  · rintro ⟨distinct, stepped, still⟩
    exact ⟨⟨distinct, (step_unique_iff before unique distinct stepped).2.mp still⟩, stepped⟩
  · rintro ⟨⟨distinct, fresh⟩, stepped⟩
    exact ⟨distinct, stepped, (step_unique_iff before unique distinct stepped).2.mpr fresh⟩

/-- The feed is answered with the post that is being created, and then the creation is answered. -/
theorem createdPost_doubled : ¬∀ (events : List Event) (s : PostActions),
    Run (Guarded (fun _ event => Distinct event) fun s event s' => s.step event = some s')
      start events s → s.UniqueIds := by
  intro always
  have ends : (execute (fun s event => if Distinct event then step s event else none)
      [.criarPost default, .fetchPosts, .answerFeed true (.ok [default]), .answerCreate 0 (.ok default)]
      start).any (fun s => s.store.ids = [[], []]) = true := by
    decide
  obtain ⟨s, reached, twice⟩ := (Option.any_eq_true ..).mp ends
  have unique := always _ s (guarded_of_execute reached)
  rw [UniqueIds, of_decide_eq_true twice] at unique
  exact (List.nodup_cons.mp unique).1 (List.mem_singleton_self _)

end PostActions
end Crown.Client
