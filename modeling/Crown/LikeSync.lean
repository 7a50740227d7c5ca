import Crown.FeedPaging
import Crown.Lib.InFlight
import Crown.Lib.Transition

/-! Optimistic likes: calls of `toggleLike` and `fetchPosts` of one client, whose requests the
server executes and answers in any order. -/
namespace Crown.Client

open Lib

/-- The posts as the server has them for this client. -/
structure Feed where
  posts : List Post
  distinct : (posts.map Post.id).Nodup

def toggled (post : Post) : Post :=
  { post with
    isLikedByMe := !post.isLikedByMe
    likesCount := post.likesCount + if post.isLikedByMe then -1 else 1 }

namespace Feed

theorem toggle_distinct (feed : Feed) (id : JsString) :
    ((feed.posts.map fun post => if post.id = id then toggled post else post).map Post.id).Nodup := by
  have same : (feed.posts.map fun post => if post.id = id then toggled post else post).map Post.id =
      feed.posts.map Post.id := by
    rw [List.map_map]
    refine List.map_congr_left fun post _ => ?_
    rw [Function.comp_apply]
    split <;> rfl
  rw [same]
  exact feed.distinct

/-- The server's `ToggleLike`, nothing without the post. -/
def toggle (feed : Feed) (id : JsString) : Option (ToggleLikeResult × Feed) :=
  (feed.posts.find? fun post => post.id = id).map fun post =>
    ((toggled post).like,
      ⟨feed.posts.map fun post => if post.id = id then toggled post else post,
        feed.toggle_distinct id⟩)

end Feed

/-- A call of `toggleLike` that waits, and what the server has answered. -/
structure LikeCall where
  toggle : Toggle
  result : Option ToggleLikeResult

def LikeCall.id (call : LikeCall) : JsString := call.toggle.id

/-- The call of `fetchPosts` that waits: what the server has answered, and the posts whose
likes it has toggled since. -/
structure FeedCall where
  request : FeedRequest
  answer : Option (List Post)
  toggled : List JsString

/-- A client and its server; `left` records the likes of a post as the client's last executed
request on it left or listed them. -/
structure Tab where
  store : PostState
  likes : List LikeCall
  feed : Option FeedCall
  server : Feed
  left : JsString → Option ToggleLikeResult

namespace Tab

inductive Event where
  | toggleLike (id : JsString)
  | executeToggle (place : Nat)
  | answerToggle (place : Nat)
  /-- The error of a request that was not executed. -/
  | failToggle (place : Nat)
  | fetchPosts
  | readFeed
  | answerFeed
  | failFeed (signedIn : Bool) (err : Failure)
  /-- Other users change the posts. -/
  | others (server : Feed)

def start (server : Feed) : Tab where
  store := .initial
  likes := []
  feed := none
  server := server
  left := fun _ => none

/-- What is left on record when the posts of an answer are listed. -/
def listed (left : JsString → Option ToggleLikeResult) (posts : List Post) (id : JsString) :
    Option ToggleLikeResult :=
  ((posts.find? fun post => post.id = id).map Post.like).or (left id)

def step (s : Tab) : Event → Option Tab
  | .toggleLike id =>
    match s.store.toggleLike id with
    | none => some s
    | some (call, store) => some { s with store, likes := s.likes ++ [⟨call, none⟩] }
  | .executeToggle place =>
    match s.likes[place]? with
    | some ⟨call, none⟩ =>
      (s.server.toggle call.id).map fun (result, server) =>
        { s with
          server
          likes := s.likes.set place ⟨call, some result⟩
          feed := s.feed.map fun waiting => { waiting with toggled := call.id :: waiting.toggled }
          left := Function.update s.left call.id (some result) }
    | _ => none
  | .answerToggle place =>
    match s.likes[place]? with
    | some ⟨call, some result⟩ =>
      some { s with
        store := s.store.toggledLike call (some result)
        likes := s.likes.eraseIdx place }
    | _ => none
  | .failToggle place =>
    match s.likes[place]? with
    | some ⟨call, none⟩ =>
      some { s with store := s.store.toggledLike call none, likes := s.likes.eraseIdx place }
    | _ => none
  | .fetchPosts =>
    match s.store.fetchPosts with
    | none => some s
    | some (request, store) => some { s with store, feed := some ⟨request, none, []⟩ }
  | .readFeed =>
    match s.feed with
    | some ⟨request, none, _⟩ =>
      some { s with
        feed := some ⟨request, some (listFeed s.server.posts request), []⟩
        left := listed s.left (listFeed s.server.posts request) }
    | _ => none
  | .answerFeed =>
    match s.feed with
    | some ⟨_, some posts, _⟩ =>
      some { s with store := s.store.fetchedPosts true (.ok posts), feed := none }
    | _ => none
  | .failFeed signedIn err =>
    match s.feed with
    | some ⟨_, none, _⟩ =>
      some { s with store := s.store.fetchedPosts signedIn (.error err), feed := none }
    | _ => none
  | .others server => some { s with server }

/-- No request is in flight. -/
def Quiet (s : Tab) : Prop := s.likes = [] ∧ s.feed = none

/-- Every post shows its likes as the last executed request left them. -/
def Converged (s : Tab) : Prop := ∀ post ∈ s.store.shown, s.left post.id = some post.like

/-- No two requests to toggle the like of one post are in flight. -/
def Single (s : Tab) : Prop := InFlight.Apart LikeCall.id s.likes

/-- A toggle is executed while its call holds the post that is shown, and an answer with the
feed arrives before the likes of its posts are toggled again. -/
def undisturbed (s : Tab) : Event → Bool
  | .executeToggle place =>
    match s.likes[place]? with
    | some call => s.store.posts.all fun ref =>
      (s.store.object ref).id ≠ call.id || ref = call.toggle.post
    | none => true
  | .answerFeed =>
    match s.feed with
    | some ⟨_, some posts, toggled⟩ => posts.all fun post => !toggled.contains post.id
    | _ => true
  | _ => true

/-- What holds in every state: a call in flight holds a post that exists, under the version
and the mark that keep other calls for the post away. -/
structure Invariant (s : Tab) : Prop where
  loading : s.store.isLoading = s.feed.isSome
  made : ∀ ref ∈ s.store.posts, ref < s.store.objects.length
  holds : ∀ call ∈ s.likes, call.toggle.post < s.store.objects.length ∧
    (s.store.object call.toggle.post).id = call.id
  current : ∀ call ∈ s.likes, s.store.likeVersions call.id = some call.toggle.version
  pending : ∀ call ∈ s.likes, s.store.pendingLikes call.id = true
  single : s.Single

variable {s s' : Tab}

/-- All that an event can do. -/
inductive Steps (s : Tab) : Event → Tab → Prop where
  | unchanged : Steps s event s
  | toggleLike {id : JsString} {store : PostState}
      (called : s.store.toggleLike id = some (call, store)) :
      Steps s (.toggleLike id) { s with store, likes := s.likes ++ [⟨call, none⟩] }
  | executed (result : ToggleLikeResult) (server : Feed)
      (here : s.likes[place]? = some ⟨call, none⟩) :
      Steps s (.executeToggle place) { s with
        server
        likes := s.likes.set place ⟨call, some result⟩
        feed := s.feed.map fun waiting => { waiting with toggled := call.id :: waiting.toggled }
        left := Function.update s.left call.id (some result) }
  | settled (here : s.likes[place]? = some call) :
      Steps s event { s with
        store := s.store.toggledLike call.toggle call.result
        likes := s.likes.eraseIdx place }
  | fetchPosts {store : PostState} (called : s.store.fetchPosts = some (request, store)) :
      Steps s .fetchPosts { s with store, feed := some ⟨request, none, []⟩ }
  | readFeed (reading : s.feed = some ⟨request, none, since⟩) :
      Steps s .readFeed { s with
        feed := some ⟨request, some (listFeed s.server.posts request), []⟩
        left := listed s.left (listFeed s.server.posts request) }
  | answerFeed (reading : s.feed = some ⟨request, some posts, since⟩) :
      Steps s .answerFeed { s with store := s.store.fetchedPosts true (.ok posts), feed := none }
  | failFeed (reading : s.feed = some ⟨request, none, since⟩) :
      Steps s (.failFeed signedIn err) { s with
        store := s.store.fetchedPosts signedIn (.error err)
        feed := none }
  | others (server : Feed) : Steps s (.others server) { s with server }

theorem Steps.of_step (stepped : s.step event = some s') : Steps s event s' := by
  cases event with
  | toggleLike id =>
    simp only [step] at stepped
    split at stepped
    · cases stepped
      exact .unchanged
    · rename_i called
      cases stepped
      exact .toggleLike called
  | executeToggle place =>
    simp only [step] at stepped
    split at stepped
    · rename_i here
      obtain ⟨⟨result, server⟩, -, rfl⟩ := Option.map_eq_some_iff.mp stepped
      exact .executed result server here
    · cases stepped
  | answerToggle place | failToggle place =>
    simp only [step] at stepped
    split at stepped
    · rename_i here
      cases stepped
      exact .settled here
    · cases stepped
  | fetchPosts =>
    simp only [step] at stepped
    split at stepped
    · cases stepped
      exact .unchanged
    · rename_i called
      cases stepped
      exact .fetchPosts called
  | readFeed =>
    simp only [step] at stepped
    split at stepped
    · rename_i reading
      cases stepped
      exact .readFeed reading
    · cases stepped
  | answerFeed =>
    simp only [step] at stepped
    split at stepped
    · rename_i reading
      cases stepped
      exact .answerFeed reading
    · cases stepped
  | failFeed signedIn err =>
    simp only [step] at stepped
    split at stepped
    · rename_i reading
      cases stepped
      exact .failFeed reading
    · cases stepped
  | others server =>
    cases stepped
    exact .others server

/-- A call starts. -/
theorem Invariant.toggleLike {id : JsString} {store : PostState} {call : Toggle} (before : Invariant s)
    (called : s.store.toggleLike id = some (call, store)) :
    Invariant { s with store, likes := s.likes ++ [⟨call, none⟩] } := by
  obtain ⟨named, shown, titled, free, -, liked, count, rfl⟩ := PostState.toggleLike_some called
  have other : ∀ waiting ∈ s.likes, waiting.id ≠ id := by
    rintro waiting member rfl
    rw [before.pending waiting member] at free
    cases free
  refine ⟨before.loading, fun ref member => ?_, ?_, ?_, ?_, ?_⟩
  · rw [PostState.setLike_length]
    exact before.made ref member
  all_goals simp only [List.mem_append, List.mem_singleton]
  · rintro waiting (member | rfl)
    · rw [PostState.setLike_length]
      exact ⟨(before.holds waiting member).1, (PostState.id_setLike ..).trans (before.holds waiting member).2⟩
    · rw [PostState.setLike_length]
      exact ⟨before.made _ shown, (PostState.id_setLike ..).trans (titled.trans named.symm)⟩
  · rintro waiting (member | rfl)
    · rw [Function.update_of_ne (other waiting member)]
      exact before.current waiting member
    · rw [LikeCall.id, named, Function.update_self]
  · rintro waiting (member | rfl)
    · rw [Function.update_of_ne (other waiting member)]
      exact before.pending waiting member
    · rw [LikeCall.id, named, Function.update_self]
  · exact before.single.start fun waiting member same => other waiting member (same.trans named)

/-- A call is answered or fails. -/
theorem Invariant.settled (before : Invariant s) (here : s.likes[place]? = some call)
    (answer : Option ToggleLikeResult) :
    Invariant { s with
      store := s.store.toggledLike call.toggle answer
      likes := s.likes.eraseIdx place } := by
  have own := InFlight.mem_of_getElem? here
  rw [PostState.toggledLike_current (before.current call own)]
  refine ⟨before.loading, fun ref member => ?_, fun waiting member => ?_, fun waiting member => ?_,
    fun waiting member => ?_, before.single.answered place⟩
  · rw [PostState.setLike_length]
    exact before.made ref member
  all_goals have still := InFlight.mem_of_mem_eraseIdx here member
  · rw [PostState.setLike_length]
    exact ⟨(before.holds waiting still).1, (PostState.id_setLike ..).trans (before.holds waiting still).2⟩
  · exact before.current waiting still
  · have apart : waiting.id ≠ call.toggle.id := before.single.ne here member
    exact (Function.update_of_ne apart ..).trans (before.pending waiting still)

/-- An answer with the feed makes new posts. -/
theorem Invariant.fetched (before : Invariant s) (signedIn : Bool) (posts : List Post) :
    Invariant { s with store := s.store.fetchedPosts signedIn (.ok posts), feed := none } := by
  refine ⟨rfl, fun ref member => ?_, fun call member => ?_, before.current, before.pending,
    before.single⟩
  · have fresh := (PostState.mem_made.mp member).2
    exact Nat.lt_of_lt_of_eq fresh List.length_append.symm
  · obtain ⟨inside, named⟩ := before.holds call member
    refine ⟨?_, (congrArg Post.id (PostState.object_make_old _ inside _)).trans named⟩
    exact Nat.lt_of_lt_of_eq (Nat.lt_add_right _ inside) List.length_append.symm

theorem step_invariant (before : Invariant s) (stepped : s.step event = some s') :
    Invariant s' := by
  cases Steps.of_step stepped with
  | unchanged => exact before
  | toggleLike called => exact before.toggleLike called
  | executed result server here =>
    have own := InFlight.mem_of_getElem? here
    have holds := before.holds _ own
    have current := before.current _ own
    have pending := before.pending _ own
    refine ⟨?_, before.made, ?_, ?_, ?_, before.single.advanced here rfl⟩
    · simpa using before.loading
    all_goals
      intro waiting member
      rcases (InFlight.mem_set_iff here _).mp member with rfl | member
    · exact holds
    · exact before.holds waiting (InFlight.mem_of_mem_eraseIdx here member)
    · exact current
    · exact before.current waiting (InFlight.mem_of_mem_eraseIdx here member)
    · exact pending
    · exact before.pending waiting (InFlight.mem_of_mem_eraseIdx here member)
  | settled here => exact before.settled here _
  | fetchPosts called =>
    obtain ⟨-, -, rfl⟩ := PostState.fetchPosts_some called
    exact ⟨rfl, before.made, before.holds, before.current, before.pending, before.single⟩
  | readFeed reading =>
    refine ⟨?_, before.made, before.holds, before.current, before.pending, before.single⟩
    rw [before.loading, reading]
    rfl
  | answerFeed reading => exact before.fetched true _
  | failFeed reading =>
    refine ⟨rfl, fun ref member => ?_, before.holds, before.current, before.pending, before.single⟩
    simp only [PostState.fetchedPosts] at member
    split at member
    · cases member
    · exact before.made ref member
  | others server =>
    exact ⟨before.loading, before.made, before.holds, before.current, before.pending, before.single⟩

theorem start_invariant (server : Feed) : Invariant (start server) := by
  refine ⟨rfl, ?_, ?_, ?_, ?_, List.nodup_nil⟩ <;> exact fun _ member => nomatch member

/-- What a shown post owes to the record: while a call holds it, the record is what the server
has answered or the likes the call goes back to; otherwise it is what the post shows. -/
structure Due (s : Tab) (ref : Nat) : Prop where
  held : ∀ call ∈ s.likes, call.toggle.post = ref →
    s.left call.id = some (call.result.getD call.toggle.prev)
  free : (∀ call ∈ s.likes, call.toggle.post ≠ ref) →
    s.left (s.store.object ref).id = some (s.store.object ref).like

/-- What holds of the posts that are shown, or in the answer that is to replace them. -/
structure Tracked (s : Tab) : Prop where
  shown : (∀ waiting, s.feed = some waiting → waiting.answer = none) →
    ∀ ref ∈ s.store.posts, s.Due ref
  answered : ∀ waiting posts, s.feed = some waiting → waiting.answer = some posts →
    ∀ post ∈ posts, post.id ∉ waiting.toggled → s.left post.id = some post.like

theorem start_tracked (server : Feed) : Tracked (start server) :=
  ⟨fun _ _ member => (nomatch member), fun _ _ reading => (nomatch reading)⟩

/-- A call starts: what it goes back to is on record. -/
theorem Tracked.toggleLike {id : JsString} {store : PostState} {call : Toggle} (tracked : Tracked s)
    (before : Invariant s) (called : s.store.toggleLike id = some (call, store)) :
    Tracked { s with store, likes := s.likes ++ [⟨call, none⟩] } := by
  obtain ⟨named, shown, titled, free, prev, liked, count, rfl⟩ := PostState.toggleLike_some called
  refine ⟨fun unread ref member => ?_, tracked.answered⟩
  have due := tracked.shown unread ref member
  constructor
  · intro waiting member holds
    rcases List.mem_append.mp member with member | new
    · exact due.held waiting member holds
    · obtain rfl := List.mem_singleton.mp new
      obtain rfl : call.post = ref := holds
      have unheld : ∀ waiting ∈ s.likes, waiting.toggle.post ≠ call.post := by
        intro waiting member same
        have pending := before.pending waiting member
        rw [← (before.holds waiting member).2, same, titled, free] at pending
        cases pending
      have now := due.free unheld
      rw [titled, ← prev] at now
      rw [LikeCall.id, named]
      exact now
  · intro unheld
    have other : ref ≠ call.post :=
      fun same => unheld ⟨call, none⟩ (List.mem_append_right _ List.mem_cons_self) same.symm
    have same : (s.store.setLike call.post liked count).object ref = s.store.object ref :=
      PostState.object_setLike_other _ other ..
    have now := due.free fun waiting member => unheld waiting (List.mem_append_left _ member)
    rw [← same] at now
    exact now

/-- A call ends with the likes that are on record for it. -/
theorem Tracked.settled {call : LikeCall} {place : Nat} (tracked : Tracked s) (before : Invariant s)
    (here : s.likes[place]? = some call) (answer : Option ToggleLikeResult)
    (same : answer = call.result) :
    Tracked { s with
      store := s.store.toggledLike call.toggle answer
      likes := s.likes.eraseIdx place } := by
  have own := InFlight.mem_of_getElem? here
  obtain ⟨inside, named⟩ := before.holds call own
  rw [PostState.toggledLike_current (before.current call own), same]
  refine ⟨fun unread ref member => ?_, tracked.answered⟩
  have due := tracked.shown unread ref member
  constructor
  · intro waiting still holds
    exact due.held waiting (InFlight.mem_of_mem_eraseIdx here still) holds
  · intro unheld
    by_cases holds : ref = call.toggle.post
    · subst holds
      have now := due.held call own rfl
      have shows := PostState.object_setLike_self s.store inside
        (call.result.getD call.toggle.prev).isLiked (call.result.getD call.toggle.prev).updatedLikesCount
      rw [← named] at now
      exact (congrArg s.left (PostState.id_setLike ..)).trans
        (now.trans (congrArg (some ∘ Post.like) shows).symm)
    · have now := due.free fun waiting member => by
        rcases (InFlight.mem_iff here).mp member with rfl | member
        · exact Ne.symm holds
        · exact unheld waiting member
      have same : (s.store.setLike call.toggle.post (call.result.getD call.toggle.prev).isLiked
          (call.result.getD call.toggle.prev).updatedLikesCount).object ref = s.store.object ref :=
        PostState.object_setLike_other _ holds ..
      rw [← same] at now
      exact now

/-- A toggle is executed: only posts its call holds show other likes than the new ones. -/
theorem Tracked.executed {call : LikeCall} {place : Nat} (tracked : Tracked s) (before : Invariant s)
    (here : s.likes[place]? = some call) (result : ToggleLikeResult) (server : Feed)
    (guard : s.undisturbed (.executeToggle place) = true) :
    Tracked { s with
      server
      likes := s.likes.set place ⟨call.toggle, some result⟩
      feed := s.feed.map fun waiting => { waiting with toggled := call.id :: waiting.toggled }
      left := Function.update s.left call.id (some result) } := by
  have own := InFlight.mem_of_getElem? here
  simp only [undisturbed, here, List.all_eq_true, Bool.or_eq_true, decide_eq_true_eq,
    ne_eq] at guard
  constructor
  · intro unread ref member
    have due : s.Due ref := by
      refine tracked.shown (fun waiting reading => ?_) ref member
      exact unread { waiting with toggled := call.id :: waiting.toggled }
        (congrArg (Option.map _) reading)
    constructor
    · intro waiting still holds
      rcases (InFlight.mem_set_iff here _).mp still with rfl | still
      · exact Function.update_self ..
      · exact (Function.update_of_ne (before.single.ne here still) ..).trans
          (due.held waiting (InFlight.mem_of_mem_eraseIdx here still) holds)
    · intro unheld
      have other : ref ≠ call.toggle.post :=
        fun same => unheld ⟨call.toggle, some result⟩ ((InFlight.mem_set_iff here _).mpr (.inl rfl)) same.symm
      refine (Function.update_of_ne ((guard ref member).resolve_right other) ..).trans
        (due.free fun waiting member => ?_)
      rcases (InFlight.mem_iff here).mp member with rfl | member
      · exact Ne.symm other
      · exact unheld waiting ((InFlight.mem_set_iff here _).mpr (.inr member))
  · intro waiting posts reading answer post member untouched
    obtain ⟨earlier, waits, rfl⟩ := Option.map_eq_some_iff.mp reading
    have other : post.id ≠ call.id := fun same => untouched (same ▸ List.mem_cons_self)
    exact (Function.update_of_ne other ..).trans (tracked.answered earlier posts waits answer post
      member fun touched => untouched (List.mem_cons_of_mem _ touched))

/-- The posts of a listing are on record as they were listed. -/
theorem listed_of_mem {posts : List Post} (distinct : (posts.map Post.id).Nodup) (member : post ∈ posts)
    (left : JsString → Option ToggleLikeResult) : listed left posts post.id = some post.like := by
  have found : (posts.find? fun other => other.id = post.id) = some post := by
    cases first : posts.find? fun other => decide (other.id = post.id) with
    | none => exact absurd (List.find?_eq_none.mp first post member) (by simp)
    | some other =>
      have same : other.id = post.id := by simpa using List.find?_some first
      have apart : InFlight.Apart Post.id posts := distinct
      rw [apart.unique (List.mem_of_find?_eq_some first) member same]
  rw [listed, found]
  rfl

theorem listFeed_distinct (feed : Feed) (request : FeedRequest) :
    ((listFeed feed.posts request).map Post.id).Nodup := by
  have within : (listFeed feed.posts request).Sublist feed.posts :=
    (List.take_sublist ..).trans (List.drop_sublist ..)
  exact feed.distinct.sublist (within.map Post.id)

/-- New posts show what was listed, and no call holds them. -/
theorem Tracked.fetched {waiting : FeedCall} {posts : List Post} (tracked : Tracked s)
    (before : Invariant s) (reading : s.feed = some waiting) (answer : waiting.answer = some posts)
    (untouched : ∀ post ∈ posts, post.id ∉ waiting.toggled) :
    Tracked { s with store := s.store.fetchedPosts true (.ok posts), feed := none } := by
  refine ⟨fun _ ref member => ?_, fun _ _ reading => (nomatch reading)⟩
  constructor
  · intro call still holds
    have inside := (before.holds call still).1
    have fresh := (PostState.mem_made.mp member).1
    omega
  · intro _
    have shows : (s.store.make (posts.map toPlain)).object ref ∈
        (s.store.made (posts.map toPlain)).map (s.store.make (posts.map toPlain)).object :=
      List.mem_map_of_mem member
    rw [PostState.object_made] at shows
    obtain ⟨post, listed, plain⟩ := List.mem_map.mp shows
    have left := tracked.answered waiting posts reading answer post listed (untouched post listed)
    have named : (toPlain post).id = post.id := rfl
    have same : (toPlain post).like = post.like := rfl
    rw [← named, ← same, plain] at left
    exact left

theorem step_tracked (before : Invariant s) (tracked : Tracked s)
    (guard : s.undisturbed event = true) (stepped : s.step event = some s') : Tracked s' := by
  cases Steps.of_step stepped with
  | unchanged => exact tracked
  | toggleLike called => exact tracked.toggleLike before called
  | executed result server here => exact tracked.executed before here result server guard
  | settled here => exact tracked.settled before here _ rfl
  | fetchPosts called =>
    obtain ⟨idle, -, rfl⟩ := PostState.fetchPosts_some called
    have quiet : s.feed = none := by
      rw [before.loading] at idle
      exact Option.not_isSome_iff_eq_none.mp (Bool.eq_false_iff.mp idle)
    refine ⟨fun _ ref member => ?_, ?_⟩
    · have due := tracked.shown (fun waiting reading => by rw [quiet] at reading; cases reading)
        ref member
      exact ⟨due.held, due.free⟩
    · rintro waiting posts reading answer
      cases reading
      cases answer
  | readFeed reading =>
    refine ⟨fun unread => ?_, ?_⟩
    · cases unread _ rfl
    · rintro waiting posts reading answer post member -
      cases reading
      cases answer
      exact listed_of_mem (listFeed_distinct _ _) member _
  | answerFeed reading =>
    simp only [undisturbed, reading, List.all_eq_true, Bool.not_eq_true', List.contains_eq_mem,
      decide_eq_false_iff_not] at guard
    exact tracked.fetched before reading rfl guard
  | failFeed reading =>
    refine ⟨fun _ ref member => ?_, fun _ _ reading => (nomatch reading)⟩
    have kept : ref ∈ s.store.posts := by
      simp only [PostState.fetchedPosts] at member
      split at member
      · cases member
      · exact member
    have due := tracked.shown (fun waiting same => by rw [reading] at same; cases same; rfl) ref kept
    exact ⟨due.held, due.free⟩
  | others server =>
    exact ⟨fun unread ref member => ⟨(tracked.shown unread ref member).held,
      (tracked.shown unread ref member).free⟩, tracked.answered⟩

/-- At rest every post shows what is on record. -/
theorem Tracked.converged (tracked : Tracked s) (quiet : s.Quiet) : s.Converged := by
  intro post member
  obtain ⟨ref, shown, rfl⟩ := List.mem_map.mp member
  refine (tracked.shown (fun waiting reading => ?_) ref shown).free fun call waiting => ?_
  · rw [quiet.2] at reading
    cases reading
  · rw [quiet.1] at waiting
    cases waiting

/-- In every run no two requests to toggle the like of one post are in flight. -/
theorem run_single (server : Feed)
    (run : Run (fun s event s' => s.step event = some s') (start server) events s) : s.Single :=
  (run.invariant (start_invariant server) fun _ _ _ => step_invariant).single

/-- Likes converge in every run in which no toggle is executed for a post that is shown no
longer and no answer with the feed is older than a toggle of its posts. -/
theorem run_converges (server : Feed)
    (run : Run (Guarded (fun s event => s.undisturbed event = true)
      fun s event s' => s.step event = some s') (start server) events s) :
    s.Single ∧ (s.Quiet → s.Converged) := by
  have kept : ∀ s event s', Invariant s ∧ Tracked s →
      Guarded (fun s event => s.undisturbed event = true) (fun s event s' => s.step event = some s')
        s event s' → Invariant s' ∧ Tracked s' := by
    rintro s event s' ⟨before, tracked⟩ ⟨guard, stepped⟩
    exact ⟨step_invariant before stepped, step_tracked before tracked guard stepped⟩
  obtain ⟨before, tracked⟩ := run.invariant ⟨start_invariant server, start_tracked server⟩ kept
  exact ⟨before.single, tracked.converged⟩

/-- A server with one post nobody likes. -/
def onePost : Feed := ⟨[{ (default : Post) with id := js "a" }], List.nodup_singleton _⟩

theorem like_converges : ∃ s : Tab,
    Run (Guarded (fun s event => s.undisturbed event = true) fun s event s' => s.step event = some s')
      (start onePost) [.fetchPosts, .readFeed, .answerFeed, .toggleLike (js "a"), .executeToggle 0,
        .answerToggle 0] s ∧ s.Quiet ∧ s.Converged := by
  have ends : (execute (fun s event => if s.undisturbed event = true then s.step event else none)
      [.fetchPosts, .readFeed, .answerFeed, .toggleLike (js "a"), .executeToggle 0, .answerToggle 0]
      (start onePost)).any (fun s => s.likes.isEmpty && s.feed.isNone) = true := by
    with_unfolding_all decide
  obtain ⟨s, reached, quiet⟩ := (Option.any_eq_true ..).mp ends
  have quiet : s.Quiet := by simpa [Quiet] using quiet
  have run := guarded_of_execute reached
  exact ⟨s, run, quiet, (run_converges onePost run).2 quiet⟩

/-- The feed is read, then the toggle is executed and answered, and the older answer with the
feed shows the post without the like. -/
theorem staleFeed_shown : ¬∀ (server : Feed) (events : List Event) (s : Tab),
    Run (fun s event s' => s.step event = some s') (start server) events s →
      s.Single ∧ (s.Quiet → s.Converged) := by
  intro always
  have ends : (execute step [.fetchPosts, .readFeed, .answerFeed, .toggleLike (js "a"), .fetchPosts,
      .readFeed, .executeToggle 0, .answerToggle 0, .answerFeed] (start onePost)).any (fun s =>
        s.likes.isEmpty && s.feed.isNone &&
          s.store.shown.any fun post => s.left post.id ≠ some post.like) = true := by
    with_unfolding_all decide
  obtain ⟨s, reached, shows⟩ := (Option.any_eq_true ..).mp ends
  simp only [Bool.and_eq_true, List.isEmpty_iff, Option.isNone_iff_eq_none, List.any_eq_true,
    decide_eq_true_eq] at shows
  obtain ⟨quiet, post, shown, stale⟩ := shows
  exact stale ((always onePost _ s (run_of_execute reached)).2 quiet post shown)

end Tab
end Crown.Client
