import Crown.AuthorPosts
import Crown.Lib.Toggling

/-! Whole calls of `toggle_like`, one after the other: the likes as a set of pairs, and the
counters beside it. -/
namespace Crown

open Lib
open Toggling (toggled toggledRows)

namespace Tables

def likeRows (t : Tables) (postId : Text) : Nat := t.likes.countP (·.2 = postId)

/-- No pair is stored twice, and every counter is the number of rows. -/
structure LikesCounted (t : Tables) : Prop where
  rows : t.likes.Nodup
  counts : ∀ post ∈ t.posts, post.likesCount = t.likeRows post.id

def likeSet (t : Tables) : Set (Text × Text) := {pair | pair ∈ t.likes}

end Tables

/-- A complete call of `toggle_like` with what it returned. -/
structure ToggleCall where
  userId : Text
  postId : Text
  isLiked : Bool
  likesCount : Int

namespace ToggleCall

def pair (call : ToggleCall) : Text × Text := (call.userId, call.postId)

def params (call : ToggleCall) : Json :=
  .object [(lit "p_user_id", .string call.userId), (lit "p_post_id", .string call.postId)]

def reply (call : ToggleCall) : Json :=
  .object [(lit "is_liked", .boolean call.isLiked), (lit "likes_count", .integer call.likesCount)]

def Completed (t : Tables) (call : ToggleCall) (t' : Tables) : Prop :=
  t.toggleLike call.params = (some call.reply, t')

/-- Every call for a known user and post completes, unless the counter would be no `int`. -/
def AllComplete (t : Tables) : Prop :=
  ∀ userId postId, (∃ u ∈ t.users, u.id = userId) → (∃ post ∈ t.posts, post.id = postId) →
    ((∃ call t', call.pair = (userId, postId) ∧ Completed t call t') ↔
      (t.likeRows postId : Int) + (if (userId, postId) ∈ t.likes then -1 else 1) < 2 ^ 31)

/-- The call returned what is stored after it, and its `GREATEST` changed nothing. -/
structure Right (t : Tables) (call : ToggleCall) (t' : Tables) : Prop where
  counted : t'.LikesCounted
  unclamped : call.pair ∈ t.likes → ∀ post ∈ t.posts, post.id = call.postId →
    max (post.likesCount - 1) 0 = post.likesCount - 1
  isLiked : call.isLiked = decide (call.pair ∈ t'.likes)
  likesCount : call.likesCount = t'.likeRows call.postId

/-- What calls for some pairs leave: those that were called for an odd number of times are
flipped, the counters follow, and everything else is as it was. -/
structure Flipped (t : Tables) (pairs : List (Text × Text)) (t' : Tables) : Prop where
  likes : ∀ pair, pair ∈ t'.likes ↔ (pair ∈ t.likes ↔ Even (pairs.count pair))
  posts : t'.posts = t.posts.map fun post => { post with likesCount := t'.likeRows post.id }
  others : t' = { t with likes := t'.likes, posts := t'.posts }

end ToggleCall

namespace Tables

variable {t t' : Tables} {call : ToggleCall}

theorem reply_iff {isLiked : Bool} {likesCount : Int} :
    Json.object [(lit "is_liked", .boolean isLiked), (lit "likes_count", .integer likesCount)] =
      call.reply ↔ call.isLiked = isLiked ∧ call.likesCount = likesCount := by
  simp only [ToggleCall.reply, Json.object.injEq, List.cons.injEq, Prod.mk.injEq, true_and,
    Json.boolean.injEq, Json.integer.injEq, and_true]
  exact and_congr eq_comm eq_comm

/-- What a complete call writes. -/
theorem completed_iff : call.Completed t t' ↔ ∃ post,
    t.posts.find? (·.id = call.postId) = some post ∧
    (if call.pair ∈ t.likes then LikeChange.unliked true else .liked).count post.likesCount =
      some call.likesCount ∧ (call.pair ∉ t.likes → ∃ u ∈ t.users, u.id = call.userId) ∧
    call.isLiked = decide (call.pair ∉ t.likes) ∧ t' = { t with
      likes := toggledRows t.likes call.pair
      posts := setCount t.posts call.postId call.likesCount } := by
  have userId : call.params.text (lit "p_user_id") = call.userId := by
    simp [ToggleCall.params, Json.text, Json.find]
  have postId : call.params.text (lit "p_post_id") = call.postId := by
    simp [ToggleCall.params, Json.text, Json.find]
  have other : ∀ u, (some failedCall, u) ≠ (some call.reply, t') := by
    intro u same
    cases (Prod.mk.inj same).1
  have pair : (call.userId, call.postId) = call.pair := rfl
  rw [ToggleCall.Completed, toggleLike, userId, postId, pair]
  cases found : t.posts.find? (·.id = call.postId) with
  | none => simp [other]
  | some post =>
    by_cases liked : call.pair ∈ t.likes
    · cases counted : (LikeChange.unliked true).count post.likesCount with
      | none => simp [liked, counted, other]
      | some count =>
        simp only [liked, counted, toggledRows, decide_true, if_true, Bool.not_true, Bool.false_eq_true,
          false_and, if_false, Prod.mk.injEq, Option.some.injEq, reply_iff, not_true]
        constructor
        · rintro ⟨⟨answer, rfl⟩, rfl⟩
          exact ⟨post, rfl, counted, fun impossible => impossible.elim, answer, rfl⟩
        · rintro ⟨_, rfl, same, -, answer, rfl⟩
          rw [counted, Option.some.injEq] at same
          subst same
          exact ⟨⟨answer, rfl⟩, rfl⟩
    · cases counted : LikeChange.liked.count post.likesCount with
      | none => simp [liked, counted, other]
      | some count =>
        by_cases known : ∃ u ∈ t.users, u.id = call.userId
        · have allowed : ¬∀ u ∈ t.users, u.id ≠ call.userId := by simpa using known
          simp only [liked, counted, toggledRows, decide_false, if_false, Bool.not_false, allowed,
            and_false, Bool.false_eq_true, Prod.mk.injEq, Option.some.injEq, reply_iff, not_false_eq_true,
            decide_true]
          constructor
          · rintro ⟨⟨answer, rfl⟩, rfl⟩
            exact ⟨post, rfl, counted, fun _ => known, answer, rfl⟩
          · rintro ⟨_, rfl, same, -, answer, rfl⟩
            rw [counted, Option.some.injEq] at same
            subst same
            exact ⟨⟨answer, rfl⟩, rfl⟩
        · have unknown : ∀ u ∈ t.users, u.id ≠ call.userId := by simpa using known
          simp only [liked, counted, decide_false, if_false, Bool.not_false, true_and,
            Bool.false_eq_true]
          rw [if_pos unknown]
          constructor
          · exact fun same => absurd same (other t)
          · rintro ⟨_, -, -, allowed, -⟩
            exact absurd (allowed not_false) known

theorem LikesCounted.unclamped (counted : t.LikesCounted) (liked : (userId, postId) ∈ t.likes)
    {post : PostRow} (stored : post ∈ t.posts) (own : post.id = postId) :
    max (post.likesCount - 1) 0 = post.likesCount - 1 := by
  have counts := counted.counts post stored
  have positive : 0 < t.likeRows post.id := by
    apply List.countP_pos_iff.mpr
    exact ⟨_, liked, decide_eq_true own.symm⟩
  omega

/-- The counter that a complete call returns is the number of rows it leaves. -/
theorem LikesCounted.likesCount (counted : t.LikesCounted) (completed : call.Completed t t') :
    call.likesCount = t'.likeRows call.postId := by
  rw [completed_iff] at completed
  obtain ⟨post, found, counts, -, -, rfl⟩ := completed
  have stored := List.mem_of_find?_eq_some found
  have own : post.id = call.postId := by simpa using List.find?_some found
  have before := counted.counts post stored
  have after := Toggling.countP_toggledRows (k := call.pair) counted.rows (·.2 = call.postId)
  have theirs : decide (call.pair.2 = call.postId) = true := decide_eq_true rfl
  rw [own] at before
  rw [theirs, if_pos rfl] at after
  unfold likeRows at before ⊢
  rw [after]
  by_cases liked : call.pair ∈ t.likes
  · have unclamped := counted.unclamped liked stored own
    rw [if_pos liked] at counts ⊢
    simp only [LikeChange.count, LikeChange.int4] at counts
    split at counts
    · simp only [Option.map_some, Option.some.injEq] at counts
      omega
    · cases counts
  · rw [if_neg liked] at counts ⊢
    simp only [LikeChange.count, LikeChange.int4] at counts
    split at counts
    · rw [Option.some.injEq] at counts
      omega
    · cases counts

theorem LikesCounted.completed (counted : t.LikesCounted) (completed : call.Completed t t') :
    t'.LikesCounted := by
  have returned := counted.likesCount completed
  rw [completed_iff] at completed
  obtain ⟨_, -, -, -, -, rfl⟩ := completed
  refine ⟨Toggling.toggledRows_nodup counted.rows, fun post member => ?_⟩
  obtain ⟨old, stored, rfl⟩ := List.mem_map.mp member
  by_cases own : old.id = call.postId
  · rw [if_pos own]
    dsimp only
    rw [own]
    exact returned
  · have others := Toggling.countP_toggledRows (k := call.pair) counted.rows (·.2 = old.id)
    have foreign : decide (call.pair.2 = old.id) = false := decide_eq_false (Ne.symm own)
    rw [foreign, if_neg Bool.false_ne_true, Int.add_zero] at others
    rw [if_neg own]
    exact (counted.counts old stored).trans others.symm

theorem completed_likeSet (completed : call.Completed t t') :
    t'.likeSet = toggled t.likeSet call.pair := by
  rw [completed_iff] at completed
  obtain ⟨_, -, -, -, -, rfl⟩ := completed
  ext pair
  change pair ∈ toggledRows t.likes call.pair ↔ pair ∈ toggled t.likeSet call.pair
  rw [Toggling.mem_toggledRows, Toggling.mem_toggled]
  rfl

theorem completed_right (counted : t.LikesCounted) (completed : call.Completed t t') :
    call.Right t t' where
  counted := counted.completed completed
  unclamped liked post stored own := counted.unclamped liked stored own
  isLiked := by
    rw [completed_iff] at completed
    obtain ⟨_, -, -, -, answer, rfl⟩ := completed
    rw [answer, decide_eq_decide]
    simp [Toggling.mem_toggledRows]
  likesCount := counted.likesCount completed

theorem int4_iff {n : Int} : (∃ m, LikeChange.int4 n = some m) ↔ -2 ^ 31 ≤ n ∧ n < 2 ^ 31 := by
  unfold LikeChange.int4
  split
  · rename_i fits
    exact ⟨fun _ => fits, fun _ => ⟨n, rfl⟩⟩
  · rename_i out
    exact ⟨fun present => absurd present (by simp), fun fits => absurd fits out⟩

theorem LikesCounted.allComplete (counted : t.LikesCounted) : ToggleCall.AllComplete t := by
  intro userId postId known stored
  obtain ⟨post, found⟩ : ∃ post, t.posts.find? (·.id = postId) = some post := by
    apply Option.isSome_iff_exists.mp
    apply List.find?_isSome.mpr
    simpa using stored
  have own : post.id = postId := by simpa using List.find?_some found
  have rows := counted.counts post (List.mem_of_find?_eq_some found)
  rw [own] at rows
  have fits : (∃ count, (if (userId, postId) ∈ t.likes then LikeChange.unliked true
      else .liked).count post.likesCount = some count) ↔
      (t.likeRows postId : Int) + (if (userId, postId) ∈ t.likes then -1 else 1) < 2 ^ 31 := by
    rw [rows]
    split
    · simp only [LikeChange.count, Option.map_eq_some_iff, exists_comm, exists_eq_right', int4_iff]
      omega
    · rw [LikeChange.count, int4_iff]
      omega
  rw [← fits]
  constructor
  · rintro ⟨call, t', same, completed⟩
    obtain ⟨rfl, rfl⟩ := Prod.mk.inj same
    rw [completed_iff] at completed
    obtain ⟨first, seen, counts, -⟩ := completed
    rw [found, Option.some.injEq] at seen
    subst seen
    exact ⟨_, counts⟩
  · rintro ⟨count, counts⟩
    exact ⟨⟨userId, postId, decide ((userId, postId) ∉ t.likes), count⟩, _, rfl,
      completed_iff.mpr ⟨post, found, counts, fun _ => known, rfl, rfl⟩⟩

end Tables

namespace ToggleCall

open Tables

variable {t t' : Tables} {calls : List ToggleCall}

theorem run_likeSet (run : Run Completed t calls t') :
    t'.likeSet = (calls.map pair).foldl toggled t.likeSet := by
  induction run with
  | nil => rfl
  | snoc _ last ih =>
    rw [List.map_append, List.foldl_append, ← ih]
    exact completed_likeSet last

/-- Calls write nothing but likes and counters. -/
theorem run_others (run : Run Completed t calls t') :
    t' = { t with likes := t'.likes, posts := t'.posts } ∧
      t'.posts.map PostRow.unliked = t.posts.map PostRow.unliked := by
  induction run with
  | nil => exact ⟨rfl, rfl⟩
  | snoc _ last ih =>
    rw [completed_iff] at last
    obtain ⟨_, -, -, -, -, rfl⟩ := last
    obtain ⟨others, posts⟩ := ih
    refine ⟨?_, ?_⟩
    · rw [others]
    · rw [← posts, setCount, List.map_map]
      apply List.map_congr_left
      intro post _
      rw [Function.comp_apply]
      split <;> rfl

/-- Complete calls, one after the other, flip the likes of their pairs. -/
theorem run_flipped (counted : t.LikesCounted)
    (run : Run Completed t calls t') :
    t'.LikesCounted ∧ Flipped t (calls.map pair) t' := by
  have kept : ∀ t call t', LikesCounted t → Completed t call t' → LikesCounted t' :=
    fun t call t' counted completed => counted.completed completed
  have after := run.invariant counted kept
  obtain ⟨others, posts⟩ := run_others run
  refine ⟨after, fun like => ?_, ?_, others⟩
  · have flips := Toggling.mem_foldl_toggled (calls.map pair) t.likeSet like
    rw [← run_likeSet run] at flips
    exact flips
  · have recounted : ∀ rows : List PostRow, rows.map (fun post =>
        { post with likesCount := (t'.likeRows post.id : Int) }) =
          (rows.map PostRow.unliked).map fun post =>
            { post with likesCount := (t'.likeRows post.id : Int) } := by
      intro rows
      rw [List.map_map]
      rfl
    have same : t'.posts.map (fun post =>
        { post with likesCount := (t'.likeRows post.id : Int) }) = t'.posts := by
      conv_rhs => rw [← List.map_id t'.posts]
      apply List.map_congr_left
      intro post stored
      rw [← after.counts post stored]
      rfl
    rw [recounted, ← posts, ← recounted, same]

/-- Every one of any number of complete calls, one after the other, returns what is stored then,
and what is stored in the end does not depend on their order. -/
theorem run_toggles (counted : t.LikesCounted)
    (run : Run Completed t calls t') :
    Run (fun t call t' => call.Completed t t' ∧ call.Right t t') t calls t' ∧
      Flipped t (calls.map pair) t' ∧ AllComplete t' ∧
      ∀ others t'', Run Completed t others t'' →
        (others.map pair).Perm (calls.map pair) →
          t''.likes.Perm t'.likes ∧ t''.posts = t'.posts := by
  have kept : ∀ t call t', LikesCounted t → Completed t call t' → LikesCounted t' :=
    fun t call t' counted completed => counted.completed completed
  obtain ⟨after, flipped⟩ := run_flipped counted run
  refine ⟨run.mono_under counted kept fun t call t' counted completed =>
    ⟨completed, completed_right counted completed⟩, flipped,
    after.allComplete, fun others t'' run' perm => ?_⟩
  obtain ⟨after', flipped'⟩ := run_flipped counted run'
  have likes : t''.likes.Perm t'.likes := by
    apply (List.perm_ext_iff_of_nodup after'.rows after.rows).mpr
    intro like
    rw [flipped'.likes, flipped.likes, perm.count_eq]
  refine ⟨likes, ?_⟩
  have rows : ∀ postId, t''.likeRows postId = t'.likeRows postId := fun postId =>
    likes.countP_eq _
  rw [flipped'.posts, flipped.posts]
  simp only [rows]

/-- A post of its only user, with the likes it has. -/
def onePost (likes : List (Text × Text)) : Tables where
  users := [⟨lit "ana", lit "ana", lit "ana", lit "Ana", [], [], 0, 0, 1, 0⟩]
  posts := [⟨lit "1", lit "ana", lit "One", [], [], likes.length, 0, 0⟩]
  likes := likes
  media := []
  now := 1

/-- A like that is taken back. -/
def likedTwice : List ToggleCall :=
  [⟨lit "ana", lit "1", true, 1⟩, ⟨lit "ana", lit "1", false, 0⟩]

theorem likedTwice_toggles : ∃ t', Run (fun t call t' => call.Completed t t' ∧ call.Right t t')
    (onePost []) likedTwice t' ∧ Flipped (onePost []) (likedTwice.map pair) t' := by
  have counted : (onePost []).LikesCounted := ⟨List.nodup_nil, by decide⟩
  have stored : ∀ likes, (onePost likes).posts.find? (·.id = lit "1") =
      (onePost likes).posts.head? := fun likes => by simp [onePost]
  have known : ∀ likes, ∃ u ∈ (onePost likes).users, u.id = lit "ana" := fun likes => by
    simp [onePost]
  have liked : Completed (onePost []) ⟨lit "ana", lit "1", true, 1⟩
      (onePost [(lit "ana", lit "1")]) := by
    refine completed_iff.mpr ⟨_, stored _, rfl, fun _ => known _, rfl, ?_⟩
    simp [onePost, setCount, toggledRows, pair]
  have unliked : Completed (onePost [(lit "ana", lit "1")]) ⟨lit "ana", lit "1", false, 0⟩
      (onePost []) := by
    refine completed_iff.mpr ⟨_, stored _, ?_, fun _ => known _, ?_, ?_⟩
    · simp [pair, onePost, LikeChange.count, LikeChange.int4]
    · simp [pair, onePost]
    · simp [onePost, setCount, toggledRows, pair]
  obtain ⟨answered, flipped, -⟩ := run_toggles counted (.cons liked (.cons unliked .nil))
  exact ⟨_, answered, flipped⟩

/-- `ToggleLike` answers what the call returned. -/
theorem toggleLike_answers (platform : Platform) (env : Environment) {w : World Tables}
    {user : AuthenticatedUser} {call : ToggleCall} (known : w.auth.getUser env.context = some user)
    (own : call.userId = user.id) (named : call.postId ≠ [])
    (completed : call.Completed w.database t') :
    let done := (CrownServer.toggleLike call.postId).run (platform.backend.answer env) w
    done.1 = .ok (.ok (.toggleLike ⟨call.isLiked, toUInt32 call.likesCount⟩)) ∧
      done.2.database = t' := by
  have replied : platform.backend.answer env .getUser w = (some user, w) := by
    rw [← known]
    rfl
  have called : platform.backend.answer env (.rpc .toggleLike call.params) w =
      (some call.reply, { w with database := t' }) := by
    have effect : platform.backend.answer env (.rpc .toggleLike call.params) w =
        ((w.database.toggleLike call.params).1,
          { w with database := (w.database.toggleLike call.params).2 }) := rfl
    rw [effect, completed]
  have params : call.params = .object [(lit "p_user_id", .string user.id),
      (lit "p_post_id", .string call.postId)] := by rw [params, own]
  rw [params] at called
  simp only [CrownServer.toggleLike, Program.call_bind, Program.run_perform, replied, named,
    if_false, called, reply]
  have counts : toUInt32 (toInt32 call.likesCount) = toUInt32 call.likesCount := by
    rw [toUInt32, toInt32_emod, toUInt32]
  simp [Json.jsonOr, Json.find, Json.getBool, Json.getInt, Json.getNumber, Except.map, counts,
    Program.done_ok_bind, Backend.answer]

end ToggleCall
end Crown
