import Crown.Lib.Service
import Crown.PostCounts

/-! Whose rows a call may change, while calls of every kind are served at the same time. -/
namespace Crown

open Lib Program

/-! The lookup and the deletion of `DeletePost` read one id, whatever the caller sent. -/

section

variable {service : DatabaseService} {t : Tables} {postId : Text} {found : List PostRow}

/-- The id that a request for a post is read as. -/
def idRead (postId : Text) : Text := Text.percentDecode (postId.takeWhile Url.inPart)

theorem percentDecode_comparison (s : Text) :
    Text.percentDecode (lit "eq." ++ s) = lit "eq." ++ Text.percentDecode s := by
  have opening : lit "eq." = ['e', 'q'] ++ ['.'] := by with_unfolding_all decide
  have plain : Text.percentDecode ['e', 'q'] = ['e', 'q'] := rfl
  rw [opening, List.append_assoc, List.singleton_append,
    Text.percentDecode_append_cons (by decide) (by decide), plain, List.append_assoc,
    List.singleton_append]

theorem takeWhile_eq (s : Text) :
    (lit "eq." ++ s).takeWhile Url.inPart = lit "eq." ++ s.takeWhile Url.inPart := by
  refine List.takeWhile_append_of_pos ?_
  exact Text.forall_of_all (by with_unfolding_all decide)

/-- The rows that `DeletePost` deletes have the id it read. -/
theorem selectPosts_deletion
    (selected : t.selectPosts service (Tables.postDeletion postId) = some found) :
    ∀ row ∈ found, row ∈ t.posts ∧ row.id = idRead postId := by
  have asked :
      (lit "id", lit "eq." ++ idRead postId) ∈ Tables.pairs (Tables.postDeletion postId) := by
    have read : Url.read (Tables.postDeletion postId).urlQuery =
        QueryBuilder.parts [.filter .eq .id postId] :=
      QueryBuilder.read_eq_parts (lit "posts") _ [] (by with_unfolding_all decide)
        (by with_unfolding_all decide)
    have first := QueryBuilder.read_first (.filter .eq .id postId) []
    rw [Tables.pairs, read, QueryBuilder.parts_eq, QueryBuilder.joined, ← List.append_nil
      (Call.filter .eq .id postId).text, first]
    refine List.mem_cons.mpr (.inl ?_)
    have value : (Call.filter .eq .id postId).value = lit "eq." ++ postId := List.append_nil _
    rw [List.append_nil, value, takeWhile_eq, percentDecode_comparison]
    rfl
  intro row member
  obtain ⟨stored, equal⟩ := service.selection.filtered selected row member
  exact ⟨stored, equal _ _ _ asked row.column_id⟩

/-- So have the rows that it looks up, where ids have no question mark. -/
theorem selectPosts_lookup (plain : ∀ post ∈ t.posts, '?' ∉ post.id)
    (selected : t.selectPosts service (postLookup postId) = some found) :
    ∀ row ∈ found, row ∈ t.posts ∧ row.id = idRead postId := by
  have read : Url.read (postLookup postId).urlQuery = QueryBuilder.parts
      [.select (lit "id,author_id,image_url"), .filter .eq .id postId, .limit 1] :=
    QueryBuilder.read_eq_parts (lit "posts") _ _ (by with_unfolding_all decide)
      (by with_unfolding_all decide)
  have value : (Call.filter .eq .id postId).value = lit "eq." ++ postId := List.append_nil _
  have asked : (lit "id", lit "eq." ++ Text.percentDecode ((postId ++
      (QueryBuilder.separator (.filter .eq .id postId) ++ (Call.limit 1).text)).takeWhile
        Url.inPart)) ∈ Tables.pairs (postLookup postId) := by
    rw [Tables.pairs, read, QueryBuilder.parts_cons _ _ _ (by with_unfolding_all decide)
      (by with_unfolding_all decide), QueryBuilder.parts_eq, QueryBuilder.joined,
      QueryBuilder.joined, List.append_assoc, QueryBuilder.read_first, value, List.append_assoc,
      takeWhile_eq, percentDecode_comparison]
    exact List.mem_cons_of_mem _ List.mem_cons_self
  intro row member
  obtain ⟨stored, equal⟩ := service.selection.filtered selected row member
  have id := equal _ _ _ asked row.column_id
  refine ⟨stored, id.trans ?_⟩
  by_cases uncut : ∀ c ∈ postId, Url.inPart c = true
  · have whole : postId.takeWhile Url.inPart = postId := List.takeWhile_eq_self_iff.mpr uncut
    rw [List.takeWhile_append_of_pos uncut] at id ⊢
    by_cases question : (Call.filter .eq .id postId).value.getLast? = some '?'
    · -- The limit was glued to the id.
      rw [value] at question
      have nonempty : postId ≠ [] := by
        rintro rfl
        have dot : (lit "eq." ++ []).getLast? = some '.' := by with_unfolding_all decide
        rw [dot] at question
        cases question
      obtain ⟨begun, rfl⟩ : ∃ begun, postId = begun ++ ['?'] := by
        refine List.getLast?_eq_some_iff.mp ?_
        rwa [List.getLast?_append_of_ne_nil _ nonempty] at question
      rw [List.append_assoc, List.singleton_append,
        Text.percentDecode_append_cons (by decide) (by decide)] at id
      refine absurd ?_ (plain row stored)
      rw [id]
      exact List.mem_append_right _ List.mem_cons_self
    · have apart : (QueryBuilder.separator (.filter .eq .id postId) ++
          (Call.limit 1).text).takeWhile Url.inPart = [] := by
        rw [QueryBuilder.separator, if_neg question]
        rfl
      rw [apart, List.append_nil, idRead, whole]
  · rw [idRead, List.takeWhile_append, if_neg]
    intro same
    exact uncut (List.takeWhile_eq_self_iff.mp ((List.takeWhile_prefix _).eq_of_length same))

end

/-- The requests that change posts or likes. -/
def Request.changes : Request → Bool
  | .createPost .. | .deletePost _ | .toggleLike _ => true
  | _ => false

/-- A call in progress, with the user that `GetUser` knows it by. -/
structure Caller where
  request : Request
  env : Environment
  user : Option AuthenticatedUser

def Caller.Is (caller : Caller) (id : Text) : Prop := ∃ user, caller.user = some user ∧ user.id = id

/-- A post with other likes. -/
theorem PostRow.like {old post : PostRow} (same : { old with likesCount := n } = post) :
    post.id = old.id ∧ post.authorId = old.authorId := by
  subst same
  exact ⟨rfl, rfl⟩

/-- What one operation of a call made of the tables. -/
structure Change where
  caller : Caller
  before : Tables
  after : Tables

namespace Change

/-- The author deletes the post. -/
def Deletes (change : Change) (post : PostRow) : Prop :=
  (∃ postId, change.caller.request = .deletePost postId) ∧ change.caller.Is post.authorId

/-- The author creates the post. -/
def Creates (change : Change) (post : PostRow) : Prop :=
  (∃ title content imageUrl, change.caller.request = .createPost title content imageUrl) ∧
    change.caller.Is post.authorId

/-- The user of a like, a user and a post, toggles it. -/
def Toggles (change : Change) (like : Text × Text) : Prop :=
  change.caller.request = .toggleLike like.2 ∧ change.caller.Is like.1

/-- What a call may do to posts and likes: a post is its author's, but for the count of its likes,
and a like is its user's, as long as there is the post. -/
structure Owned (change : Change) : Prop where
  posts : ∀ post ∈ change.before.posts, change.Deletes post ∨ ∃ kept ∈ change.after.posts,
    kept = post ∨ change.caller.request = .toggleLike post.id ∧
      { post with likesCount := kept.likesCount } = kept
  created : ∀ post ∈ change.after.posts, change.Creates post ∨ ∃ old ∈ change.before.posts,
    { old with likesCount := post.likesCount } = post
  liked : ∀ like ∈ change.after.likes, like ∈ change.before.likes ∨ change.Toggles like
  unliked : ∀ like ∈ change.before.likes, like ∈ change.after.likes ∨ change.Toggles like ∨
    ∃ post ∈ change.before.posts, post.id = like.2 ∧ change.Deletes post

end Change

/-- What the calls share: the number of calls so far, and every change from the last one back. -/
structure Ledger where
  world : World Tables
  started : Nat
  history : List Change

structure CallArrival where
  request : Request
  metadata : Metadata
  env : Environment

/-- What happens to the tables and the cache beside the calls. -/
inductive Aloof where
  | expire (key : Text)
  | clock (now : Int)
  | register (row : MediaRow)

namespace Ledger

def intercepted (platform : Platform) (arrival : CallArrival) (s : Ledger) : AuthMiddleware :=
  (s.world.auth.interceptToken platform.app.lib arrival.env.around s.started
    arrival.request.method arrival.metadata).2

/-- Calls of every kind at the same time. A call has a context of its own, in which the interceptor
leaves the user of the token. -/
def service (platform : Platform) :
    Service Op Op.Reply Exception (Except Status Response) Ledger Caller CallArrival Aloof where
  start arrival s :=
    (⟨arrival.request, { arrival.env with context := s.started },
      (s.intercepted platform arrival).getUser s.started⟩,
    { s with
      started := s.started + 1
      world := { s.world with auth := s.intercepted platform arrival } })
  body caller := CrownServer.handle platform.app caller.request
  answer caller op s :=
    let (reply, world) := platform.backend.answer caller.env op s.world
    (reply, { s with world, history := ⟨caller, s.world.database, world.database⟩ :: s.history })
  finish _ _ s := s
  outside
    | .expire key, s => { s with world := { s.world with cache := s.world.cache.expire key } }
    | .clock now, s =>
      { s with world := { s.world with database := { s.world.database with now } } }
    | .register row, s =>
      { s with world := { s.world with database := s.world.database.upsertMedia row } }

/-- Every post there was, as it was. -/
def known (s : Ledger) : List PostRow :=
  s.world.database.posts ++ s.history.flatMap (·.before.posts)

/-- No id is given to a post that another post had which is gone. -/
def permits (_ : Caller) (op : Op) (s : Ledger) : Bool :=
  match op with
  | .insertReturn _ row => s.known.all fun post => post.id ≠ row.text (lit "id") ||
      s.world.database.posts.any fun other => other.id = post.id
  | _ => true

/-- From the tables at the start the changes lead to the posts and the likes there are. -/
def Leads (start : Tables) : List Change → Tables → Prop
  | [], t => t.posts = start.posts ∧ t.likes = start.likes
  | change :: earlier, t =>
    (t.posts = change.after.posts ∧ t.likes = change.after.likes) ∧
      Leads start earlier change.before

structure Valid (start : Tables) (s : Ledger) : Prop where
  owned : ∀ change ∈ s.history, change.Owned
  leads : Leads start s.history s.world.database
  plain : ∀ post ∈ s.world.database.posts, '?' ∉ post.id
  authors : ∀ post ∈ s.known, ∀ other ∈ s.known, post.id = other.id →
    post.authorId = other.authorId

theorem Leads.congr {history : List Change} (leads : Leads start history t)
    (posts : t'.posts = t.posts) (likes : t'.likes = t.likes) : Leads start history t' := by
  cases history with
  | nil => exact ⟨posts.trans leads.1, likes.trans leads.2⟩
  | cons change earlier =>
    exact ⟨⟨posts.trans leads.1.1, likes.trans leads.1.2⟩, leads.2⟩

/-- What a call relies on: its user, and the authors of posts. -/
structure Grows (s t : Ledger) : Prop where
  started : s.started ≤ t.started
  users : ∀ context < s.started, t.world.auth.getUser context = s.world.auth.getUser context
  known : ∀ post ∈ s.known, post ∈ t.known

theorem Grows.refl (s : Ledger) : Grows s s :=
  ⟨Nat.le_refl _, fun _ _ => rfl, fun _ member => member⟩

theorem Grows.trans {s t u : Ledger} (first : Grows s t) (second : Grows t u) : Grows s u := by
  refine ⟨first.started.trans second.started, fun context early => ?_,
    fun post member => second.known post (first.known post member)⟩
  exact (second.users context (Nat.lt_of_lt_of_le early first.started)).trans
    (first.users context early)

/-! What the operations change. -/

section

variable {platform : Platform} {start : Tables} {s t : Ledger} {caller : Caller}

/-- The change that an operation makes. -/
def change (platform : Platform) (caller : Caller) (op : Op) (s : Ledger) : Change :=
  ⟨caller, s.world.database, (platform.backend.answer caller.env op s.world).2.database⟩

/-- No operation gives a call another user. -/
theorem answer_getUser (env : Environment) (op : Op) (w : World Tables) (context : Address) :
    (platform.backend.answer env op w).2.auth.getUser context = w.auth.getUser context := by
  cases op with
  | rpc function params => cases function <;> rfl
  | _ => rfl

/-- An operation of which every post is an earlier one but for its likes, or the one that is
added under a new id. -/
theorem answer_kept (valid : Valid start s) (owned : (change platform caller op s).Owned)
    (added : Option PostRow)
    (rows : ∀ post ∈ (change platform caller op s).after.posts, added = some post ∨
      ∃ old ∈ s.world.database.posts, { old with likesCount := post.likesCount } = post)
    (fresh : ∀ post, added = some post → '?' ∉ post.id ∧ ∀ other ∈ s.known, other.id ≠ post.id) :
    Valid start ((service platform).answer caller op s).2 ∧
      Grows s ((service platform).answer caller op s).2 := by
  have known : ∀ post, post ∈ ((service platform).answer caller op s).2.known ↔
      post ∈ (change platform caller op s).after.posts ∨ post ∈ s.known := by
    intro post
    simp only [Ledger.known, service, change, List.flatMap_cons, List.mem_append]
  -- Ids and authors are those of a post known before, unless it is the one that is added.
  have traced : ∀ post ∈ ((service platform).answer caller op s).2.known, added = some post ∨
      ∃ old ∈ s.known, old.id = post.id ∧ old.authorId = post.authorId := by
    intro post member
    rcases (known post).mp member with now | earlier
    · rcases rows post now with new | ⟨old, stored, same⟩
      · exact .inl new
      · have id := congrArg PostRow.id same
        have author := congrArg PostRow.authorId same
        exact .inr ⟨old, List.mem_append_left _ stored, id, author⟩
    · exact .inr ⟨post, earlier, rfl, rfl⟩
  refine ⟨⟨?_, ?_, ?_, ?_⟩, ⟨Nat.le_refl _, fun context _ => ?_, fun post member => ?_⟩⟩
  · exact List.forall_mem_cons.mpr ⟨owned, valid.owned⟩
  · exact ⟨⟨rfl, rfl⟩, valid.leads⟩
  · intro post member
    rcases rows post member with new | ⟨old, stored, same⟩
    · exact (fresh post new).1
    · have id := congrArg PostRow.id same
      exact id ▸ valid.plain old stored
  · intro post member other member' same
    rcases traced post member with new | ⟨old, stored, id, author⟩ <;>
      rcases traced other member' with new' | ⟨old', stored', id', author'⟩
    · cases Option.some.inj (new.symm.trans new')
      rfl
    · exact absurd (id'.trans same.symm) ((fresh post new).2 old' stored')
    · exact absurd (id.trans same) ((fresh other new').2 old stored)
    · have one := valid.authors old stored old' stored' (id.trans (same.trans id'.symm))
      exact author.symm.trans (one.trans author')
  · exact answer_getUser caller.env op s.world context
  · exact (known post).mpr (.inr member)

theorem owned_of_same {change : Change} (posts : change.after.posts = change.before.posts)
    (likes : change.after.likes = change.before.likes) : change.Owned where
  posts post member := .inr ⟨post, posts ▸ member, .inl rfl⟩
  created post member := .inr ⟨post, posts ▸ member, rfl⟩
  liked _ member := .inl (likes ▸ member)
  unliked _ member := .inl (likes ▸ member)

/-- The operations that leave posts and likes alone. -/
def Quiet : Op → Prop
  | .insertReturn .. => False
  | .delete query => query.table ≠ lit "posts"
  | .rpc function _ => function ≠ .toggleLike
  | _ => True

theorem answer_quiet (env : Environment) (op : Op) (w : World Tables) (quiet : Quiet op) :
    (platform.backend.answer env op w).2.database.posts = w.database.posts ∧
      (platform.backend.answer env op w).2.database.likes = w.database.likes := by
  cases op with
  | insert table row =>
    show (w.database.insert table row).2.posts = _ ∧ (w.database.insert table row).2.likes = _
    rcases w.database.insert_cases row table with refused | ⟨_, added⟩
    · rw [refused]
      exact ⟨rfl, rfl⟩
    · rw [added]
      exact ⟨rfl, rfl⟩
  | update query row =>
    show (w.database.update platform.service query row).2.posts = _ ∧
      (w.database.update platform.service query row).2.likes = _
    rcases w.database.update_cases platform.service query row with refused | ⟨_, overwritten⟩
    · rw [refused]
      exact ⟨rfl, rfl⟩
    · rw [overwritten]
      exact ⟨rfl, rfl⟩
  | delete query =>
    show (w.database.delete platform.service query).2.posts = _ ∧
      (w.database.delete platform.service query).2.likes = _
    unfold Tables.delete
    rw [if_neg quiet]
    split
    · split <;> exact ⟨rfl, rfl⟩
    · exact ⟨rfl, rfl⟩
  | rpc function params =>
    cases function with
    | toggleLike => exact absurd rfl quiet
    | _ => exact ⟨rfl, rfl⟩
  | insertReturn => exact quiet.elim
  | _ => exact ⟨rfl, rfl⟩

theorem quiet_kept (platform : Platform) (caller : Caller) (op : Op) (quiet : Quiet op)
    (valid : Valid start s) :
    Valid start ((service platform).answer caller op s).2 ∧
      Grows s ((service platform).answer caller op s).2 := by
  obtain ⟨posts, likes⟩ := answer_quiet caller.env op s.world quiet
  have rows : ∀ post ∈ (change platform caller op s).after.posts,
      post ∈ s.world.database.posts := fun post member => posts ▸ member
  exact answer_kept valid (owned_of_same posts likes) none
    (fun post member => .inr ⟨post, rows post member, rfl⟩) (fun post none => nomatch none)

/-- Nothing is promised of a result. -/
def promised (_ : Caller) (_ : Except Exception α) (_ : Ledger) : Prop := True

/-- A program that, from this state on, is safe to run beside the others. -/
abbrev SafeFrom (platform : Platform) (start : Tables) (caller : Caller) (p : Handler α)
    (s : Ledger) : Prop :=
  p.Safe (fun op t => permits caller op t = true) ((service platform).answer caller) (Valid start)
    Grows (promised caller) s

theorem safe_quiet {p : Handler α} (within : p.Within Quiet fun _ _ => True) :
    SafeFrom platform start caller p s :=
  safe_of_within within (fun op _ quiet valid _ => quiet_kept platform caller op quiet valid)
    fun _ _ => trivial

theorem safe_quiet_bind {p : Handler β} {rest : β → Handler α}
    (within : p.Within Quiet fun _ _ => True)
    (later : ∀ b t, Grows s t → SafeFrom platform start caller (rest b) t) :
    SafeFrom platform start caller (p >>= rest) s :=
  safe_within_bind within (fun op _ quiet valid _ => quiet_kept platform caller op quiet valid)
    Grows.refl Grows.trans (fun _ _ => trivial) later

/-- The call has a context of its own, which gives its user. -/
def Knows (caller : Caller) (s : Ledger) : Prop :=
  caller.env.context < s.started ∧ s.world.auth.getUser caller.env.context = caller.user

theorem Knows.grows (knows : Knows caller s) (growth : Grows s t) : Knows caller t :=
  ⟨Nat.lt_of_lt_of_le knows.1 growth.started, (growth.users _ knows.1).trans knows.2⟩

theorem safe_getUser (knows : Knows caller s) {next : Option AuthenticatedUser → Handler α}
    (later : ∀ t, Grows s t → SafeFrom platform start caller (next caller.user) t) :
    SafeFrom platform start caller (.perform .getUser next) s := by
  intro t valid growth _
  obtain ⟨kept, grown⟩ := quiet_kept platform caller .getUser trivial valid
  refine ⟨kept, grown, ?_⟩
  have known : (platform.backend.answer caller.env .getUser t.world).1 = caller.user :=
    (knows.grows growth).2
  show SafeFrom platform start caller
    (next (platform.backend.answer caller.env .getUser t.world).1) _
  rw [known]
  exact later _ (growth.trans grown)

/-- The insertion of a post of the caller's. -/
theorem insertion_kept {row : Json} (valid : Valid start s)
    (request : ∃ title content imageUrl, caller.request = .createPost title content imageUrl)
    (own : caller.Is (row.text (lit "author_id"))) (plain : '?' ∉ row.text (lit "id"))
    (permitted : permits caller (.insertReturn (lit "posts") row) s = true) :
    Valid start ((service platform).answer caller (.insertReturn (lit "posts") row) s).2 ∧
      Grows s ((service platform).answer caller (.insertReturn (lit "posts") row) s).2 := by
  have after : (change platform caller (.insertReturn (lit "posts") row) s).after =
      (s.world.database.insertReturn platform.service (lit "posts") row).2 := rfl
  rcases s.world.database.insertReturn_cases platform.service row with
    refused | ⟨-, fresh, added⟩
  · rw [refused] at after
    have posts := congrArg Tables.posts after
    refine answer_kept valid (owned_of_same posts (congrArg Tables.likes after)) none
      (fun post member => .inr ⟨post, posts ▸ member, rfl⟩) fun post none => nomatch none
  · rw [added] at after
    have posts := congrArg Tables.posts after
    have likes := congrArg Tables.likes after
    have created : (change platform caller (.insertReturn (lit "posts") row) s).Creates
        (s.world.database.newPost row) := ⟨request, own⟩
    refine answer_kept valid ⟨?_, ?_, ?_, ?_⟩ (some (s.world.database.newPost row)) ?_ ?_
    · intro post member
      exact .inr ⟨post, posts ▸ List.mem_append_left _ member, .inl rfl⟩
    · intro post member
      rcases List.mem_append.mp (posts ▸ member) with old | new
      · exact .inr ⟨post, old, rfl⟩
      · exact .inl (List.mem_singleton.mp new ▸ created)
    · exact fun like member => .inl (likes ▸ member)
    · exact fun like member => .inl (likes ▸ member)
    · intro post member
      rcases List.mem_append.mp (posts ▸ member) with old | new
      · exact .inr ⟨post, old, rfl⟩
      · exact .inl (congrArg some (List.mem_singleton.mp new).symm)
    · intro post new
      cases new
      refine ⟨plain, fun other member same => ?_⟩
      have taken := List.all_eq_true.mp permitted other member
      simp only [Bool.or_eq_true, decide_eq_true_eq, List.any_eq_true] at taken
      rcases taken with apart | ⟨now, stored, here⟩
      · exact apart same
      · exact fresh now stored (here.trans same)

/-- The deletion of a post of the caller's. -/
theorem deletion_kept {postId authorId : Text} (valid : Valid start s)
    (request : caller.request = .deletePost postId) (own : caller.Is authorId)
    (read : ∃ post ∈ s.known, post.id = idRead postId ∧ post.authorId = authorId) :
    Valid start ((service platform).answer caller (.delete (Tables.postDeletion postId)) s).2 ∧
      Grows s ((service platform).answer caller (.delete (Tables.postDeletion postId)) s).2 := by
  have after : (change platform caller (.delete (Tables.postDeletion postId)) s).after =
      (s.world.database.delete platform.service (Tables.postDeletion postId)).2 := rfl
  rw [Tables.delete_posts] at after
  split at after
  · rename_i found selected
    have posts := congrArg Tables.posts after
    have likes := congrArg Tables.likes after
    have deletes : ∀ post ∈ found,
        (change platform caller (.delete (Tables.postDeletion postId)) s).Deletes post := by
      intro post member
      obtain ⟨stored, id⟩ := selectPosts_deletion selected post member
      obtain ⟨looked, earlier, sameId, author⟩ := read
      have same := valid.authors post (List.mem_append_left _ stored) looked earlier
        (id.trans sameId.symm)
      exact ⟨⟨postId, request⟩, (same.trans author) ▸ own⟩
    have rows : ∀ post ∈
        (change platform caller (.delete (Tables.postDeletion postId)) s).after.posts,
        post ∈ s.world.database.posts := by
      intro post member
      rw [posts] at member
      exact List.mem_of_mem_filter member
    refine answer_kept valid ⟨?_, ?_, ?_, ?_⟩ none
      (fun post member => .inr ⟨post, rows post member, rfl⟩) fun post none => nomatch none
    · intro post member
      by_cases gone : post ∈ found
      · exact .inl (deletes post gone)
      · refine .inr ⟨post, posts ▸ List.mem_filter.mpr ⟨member, decide_eq_true gone⟩, .inl rfl⟩
    · exact fun post member => .inr ⟨post, rows post member, rfl⟩
    · intro like member
      rw [likes] at member
      exact .inl (List.mem_of_mem_filter member)
    · intro like member
      by_cases gone : ∃ post ∈ found, post.id = like.2
      · obtain ⟨post, chosen, same⟩ := gone
        exact .inr (.inr ⟨post, (selectPosts_deletion selected post chosen).1, same,
          deletes post chosen⟩)
      · push Not at gone
        rw [likes]
        exact .inl (List.mem_filter.mpr ⟨member, decide_eq_true gone⟩)
  · have posts := congrArg Tables.posts after
    refine answer_kept valid (owned_of_same posts (congrArg Tables.likes after)) none
      (fun post member => .inr ⟨post, posts ▸ member, rfl⟩) fun post none => nomatch none

/-- A like of the caller's is toggled. -/
theorem toggle_kept {userId postId : Text} (valid : Valid start s)
    (request : caller.request = .toggleLike postId) (own : caller.Is userId) :
    let op := Op.rpc .toggleLike (.object [(lit "p_user_id", .string userId),
      (lit "p_post_id", .string postId)])
    Valid start ((service platform).answer caller op s).2 ∧
      Grows s ((service platform).answer caller op s).2 := by
  intro op
  have names : lit "p_user_id" ≠ lit "p_post_id" := by simp
  have after : (change platform caller op s).after = (s.world.database.toggleLike (.object
      [(lit "p_user_id", .string userId), (lit "p_post_id", .string postId)])).2 := rfl
  have toggles : (change platform caller op s).Toggles (userId, postId) := ⟨request, own⟩
  have same (unchanged : (change platform caller op s).after = s.world.database) :
      Valid start ((service platform).answer caller op s).2 ∧
        Grows s ((service platform).answer caller op s).2 := by
    have posts := congrArg Tables.posts unchanged
    exact answer_kept valid (owned_of_same posts (congrArg Tables.likes unchanged)) none
      (fun post member => .inr ⟨post, posts ▸ member, rfl⟩) fun post none => nomatch none
  unfold Tables.toggleLike at after
  simp only [Json.text, Json.find, List.find?_cons, names, decide_true, decide_false,
    Option.map_some] at after
  split at after
  · exact same after
  · split at after
    · exact same after
    · rename_i count _
      split at after
      · exact same after
      · have posts := congrArg Tables.posts after
        have likes := congrArg Tables.likes after
        refine answer_kept valid ⟨?_, ?_, ?_, ?_⟩ none ?_ fun post none => nomatch none
        · intro post member
          have kept : (if post.id = postId then { post with likesCount := count } else post) ∈
              (change platform caller op s).after.posts := by
            rw [posts]
            exact List.mem_map.mpr ⟨post, member, rfl⟩
          refine .inr ⟨_, kept, ?_⟩
          split
          · rename_i here
            exact .inr ⟨here ▸ request, rfl⟩
          · exact .inl rfl
        · intro post member
          rw [posts] at member
          obtain ⟨old, stored, rfl⟩ := List.mem_map.mp member
          refine .inr ⟨old, stored, ?_⟩
          split <;> rfl
        · intro like member
          rw [likes] at member
          dsimp only at member
          split at member
          · exact .inl (List.mem_of_mem_filter member)
          · rcases List.mem_cons.mp member with rfl | earlier
            · exact .inr toggles
            · exact .inl earlier
        · intro like member
          by_cases here : like = (userId, postId)
          · exact .inr (.inl (here ▸ toggles))
          · left
            rw [likes]
            dsimp only
            split
            · exact List.mem_filter.mpr ⟨member, decide_eq_true here⟩
            · exact List.mem_cons_of_mem _ member
        · intro post member
          rw [posts] at member
          obtain ⟨old, stored, rfl⟩ := List.mem_map.mp member
          refine .inr ⟨old, stored, ?_⟩
          split <;> rfl

/-! The handlers. -/

theorem upsertUser_quiet (user : AuthenticatedUser) :
    (upsertUser user).Within Quiet fun _ _ => True := by
  refine (upsertUser_aside user).mono fun op aside => ?_
  cases op with
  | rpc function params => exact aside
  | insertReturn | delete => exact aside.elim
  | _ => trivial

theorem createPost_safe {title content imageUrl : Text}
    (request : caller.request = .createPost title content imageUrl) (knows : Knows caller s)
    (letters : ∀ drawn, '?' ∉ platform.secId drawn) :
    SafeFrom platform start caller (CrownServer.handle platform.app caller.request) s := by
  rw [request]
  refine safe_recover ?_
  simp only [CrownServer.body, CrownServer.createPost, call_bind]
  refine safe_getUser knows fun t grown => ?_
  split
  · exact fun _ _ _ => trivial
  · rename_i user known
    split
    · exact fun _ _ _ => trivial
    · refine safe_quiet_bind (upsertUser_quiet user) fun _ t _ => ?_
      intro drawing valid growth _
      obtain ⟨kept, grown⟩ := quiet_kept platform caller .secId trivial valid
      refine ⟨kept, grown, ?_⟩
      intro t valid growth permitted
      have names : lit "id" ≠ lit "author_id" := by simp
      have plain : '?' ∉ ((service platform).answer caller .secId drawing).1 := letters _
      obtain ⟨still, grown⟩ := insertion_kept valid ⟨title, content, imageUrl, request⟩
        ⟨user, known, by simp [Json.text, Json.find, names]⟩
        (by simpa [Json.text, Json.find] using plain) permitted
      refine ⟨still, grown, safe_quiet (within_bind trivial fun postId => ?_)⟩
      split
      · trivial
      · refine ⟨trivial, fun _ _ => within_bind trivial fun post => ?_⟩
        exact ⟨trivial, fun _ _ => ⟨trivial, fun _ _ => trivial⟩⟩

theorem toggleLike_safe {postId : Text} (request : caller.request = .toggleLike postId)
    (knows : Knows caller s) :
    SafeFrom platform start caller (CrownServer.handle platform.app caller.request) s := by
  rw [request]
  refine safe_recover ?_
  simp only [CrownServer.body, CrownServer.toggleLike, call_bind]
  refine safe_getUser knows fun t grown => ?_
  split
  · exact fun _ _ _ => trivial
  · rename_i user known
    split
    · exact fun _ _ _ => trivial
    · intro t valid growth permitted
      obtain ⟨still, grown⟩ := toggle_kept valid request ⟨user, known, rfl⟩
      refine ⟨still, grown, safe_quiet ?_⟩
      dsimp only
      split
      · refine within_bind trivial fun isLiked => within_bind trivial fun likesCount => ?_
        exact ⟨trivial, fun _ _ => ⟨trivial, fun _ _ => ⟨trivial, fun _ _ => trivial⟩⟩⟩
      · trivial

theorem removePost_safe {postId authorId imageUrl : Text}
    (request : caller.request = .deletePost postId) (own : caller.Is authorId)
    (read : ∃ post ∈ s.known, post.id = idRead postId ∧ post.authorId = authorId) :
    SafeFrom platform start caller (CrownServer.removePost platform.app postId authorId imageUrl)
      s := by
  have media : Quiet (.delete ((fromTable (lit "midia_hashes")).eq .url imageUrl)) := by
    show lit "midia_hashes" ≠ lit "posts"
    simp
  simp only [CrownServer.removePost, call_bind]
  intro t valid growth _
  obtain ⟨post, earlier, id, author⟩ := read
  obtain ⟨still, grown⟩ := deletion_kept valid request own
    ⟨post, growth.known post earlier, id, author⟩
  have forgets : (.perform (.cacheDel (Cache.postKey postId)) fun _ =>
      .perform (.cacheDelPattern Cache.feedPattern) fun _ =>
      .perform (.cacheDelPattern (Cache.userPostsPattern authorId)) fun _ =>
      .done (.ok (.ok .empty)) : Handler (Except Status Response)).Within Quiet fun _ _ => True :=
    ⟨trivial, fun _ _ => ⟨trivial, fun _ _ => ⟨trivial, fun _ _ => trivial⟩⟩⟩
  refine ⟨still, grown, safe_quiet ?_⟩
  dsimp only
  split
  · trivial
  · split
    · refine ⟨trivial, fun hashes _ => ?_⟩
      dsimp only
      split
      · refine within_bind trivial fun fileId => ⟨media, fun _ _ => ?_⟩
        dsimp only
        split
        · exact ⟨trivial, fun _ _ => forgets⟩
        · exact forgets
      · exact forgets
    · exact forgets

theorem deletePost_safe {postId : Text} (request : caller.request = .deletePost postId)
    (knows : Knows caller s) :
    SafeFrom platform start caller (CrownServer.handle platform.app caller.request) s := by
  rw [request]
  refine safe_recover ?_
  simp only [CrownServer.body, CrownServer.deletePost, call_bind]
  refine safe_getUser knows fun t grown => ?_
  split
  · exact fun _ _ _ => trivial
  · rename_i user known
    split
    · exact fun _ _ _ => trivial
    · intro t valid growth _
      obtain ⟨kept, grown⟩ := quiet_kept platform caller (.select (postLookup postId)) trivial valid
      refine ⟨kept, grown, ?_⟩
      have looked : ((service platform).answer caller (.select (postLookup postId)) t).1 =
          t.world.database.select platform.service (postLookup postId) := rfl
      rw [looked, Tables.select_posts]
      cases selected : t.world.database.selectPosts platform.service (postLookup postId) with
      | none => exact fun _ _ _ => trivial
      | some rows =>
        cases rows with
        | nil => exact fun _ _ _ => trivial
        | cons first rest =>
          obtain ⟨stored, id⟩ := selectPosts_lookup valid.plain selected first List.mem_cons_self
          have earlier := grown.known first (List.mem_append_left _ stored)
          simp only [firstRow?, rows?, Option.map_some, List.map_cons, Option.bind_some,
            List.head?_cons, Tables.postJson_authorId, liftM_eq, done_ok_bind]
          split
          · exact fun _ _ _ => trivial
          · rename_i own
            rw [not_not] at own
            simp only [Tables.postJson_imageUrl, done_ok_bind]
            exact removePost_safe request ⟨user, known, own.symm⟩ ⟨first, earlier, id, rfl⟩

theorem countUserPosts_quiet (userId : Text) :
    (countUserPosts userId).Within Quiet fun _ _ => True := by
  simp only [countUserPosts, call_bind]
  refine ⟨trivial, fun cached _ => ?_⟩
  dsimp only
  split
  · exact ⟨trivial, fun _ _ => trivial⟩
  · exact ⟨trivial, fun _ _ => ⟨trivial, fun _ _ => trivial⟩⟩

theorem listPosts_quiet {function : StoredFunction} (other : function ≠ .toggleLike) (key : Text)
    (params : Json) : (CrownServer.listPosts key function params).Within Quiet fun _ _ => True := by
  simp only [CrownServer.listPosts, call_bind]
  refine ⟨trivial, fun cached _ => ?_⟩
  dsimp only
  split
  · exact within_bind trivial fun _ => trivial
  · refine ⟨other, fun result _ => ?_⟩
    dsimp only
    split
    · exact within_bind trivial fun _ => ⟨trivial, fun _ _ => trivial⟩
    · trivial

theorem lookupUser_quiet (key : Text) (query : QueryBuilder) (missing : Status) :
    (CrownServer.lookupUser key query missing).Within Quiet fun _ _ => True := by
  simp only [CrownServer.lookupUser, call_bind]
  refine ⟨trivial, fun cached _ => ?_⟩
  dsimp only
  split
  · exact within_bind trivial fun _ => trivial
  · refine ⟨trivial, fun result _ => ?_⟩
    dsimp only
    split
    · exact within_bind trivial fun _ => ⟨trivial, fun _ _ => trivial⟩
    · trivial

/-- The other handlers change neither posts nor likes. -/
theorem body_quiet (app : AppContext) {request : Request} (other : request.changes = false) :
    (CrownServer.body app request).Within Quiet fun _ _ => True := by
  cases request with
  | createPost | deletePost | toggleLike => cases other
  | getPost postId =>
    simp only [CrownServer.body, CrownServer.getPost, call_bind]
    refine ⟨trivial, fun cached _ => ?_⟩
    dsimp only
    split
    · exact within_bind trivial fun _ => trivial
    · refine ⟨trivial, fun user _ => ⟨by simp [Quiet], fun result _ => ?_⟩⟩
      dsimp only
      split
      · split
        · exact within_bind trivial fun _ => ⟨trivial, fun _ _ => trivial⟩
        · trivial
      · trivial
  | listFeed page limit =>
    refine ⟨trivial, fun user _ => ?_⟩
    cases user with
    | none => trivial
    | some user => exact listPosts_quiet (by simp) _ _
  | listUserPosts userId page limit =>
    refine ⟨trivial, fun user _ => ?_⟩
    cases user with
    | none => trivial
    | some user => exact listPosts_quiet (by simp) _ _
  | getUserById userId =>
    simp only [CrownServer.body, CrownServer.getUserById]
    split
    · trivial
    · exact lookupUser_quiet _ _ _
  | getUserByHandle handle =>
    simp only [CrownServer.body, CrownServer.getUserByHandle]
    split
    · trivial
    · exact lookupUser_quiet _ _ _
  | login authorizationCode redirectUri =>
    simp only [CrownServer.body, CrownServer.login]
    split
    · trivial
    split
    · trivial
    refine within_bind ?_ fun exchanged => ?_
    · unfold CrownServer.exchangeCodeForToken
      split
      · exact ⟨trivial, fun _ _ => trivial⟩
      · trivial
    · cases exchanged with
      | error status => trivial
      | ok tokens =>
        simp only [call_bind]
        refine ⟨trivial, fun validated _ => within_bind trivial fun user => ?_⟩
        cases user with
        | none => trivial
        | some user =>
          refine within_bind (upsertUser_quiet user) fun _ => ?_
          refine within_bind (countUserPosts_quiet user.id) fun _ => ?_
          exact ⟨trivial, fun _ _ => trivial⟩
  | refreshAccessToken refreshToken =>
    simp only [CrownServer.body, CrownServer.refreshAccessToken]
    split
    · trivial
    refine within_bind ?_ fun exchanged => ?_
    · unfold CrownServer.exchangeRefreshToken
      split
      · exact ⟨trivial, fun _ _ => trivial⟩
      · trivial
    · cases exchanged <;> trivial

theorem upsertMedia_rows (row : MediaRow) (t : Tables) :
    (t.upsertMedia row).posts = t.posts ∧ (t.upsertMedia row).likes = t.likes := by
  unfold Tables.upsertMedia
  split <;> exact ⟨rfl, rfl⟩

theorem changed_kept (change : Aloof) (valid : Valid start s) :
    Valid start ((service platform).outside change s) ∧
      Grows s ((service platform).outside change s) := by
  have same : ((service platform).outside change s).world.database.posts = s.world.database.posts ∧
      ((service platform).outside change s).world.database.likes = s.world.database.likes := by
    cases change with
    | register row => exact upsertMedia_rows row s.world.database
    | _ => exact ⟨rfl, rfl⟩
  have history : ((service platform).outside change s).history = s.history := by
    cases change <;> rfl
  have known : ((service platform).outside change s).known = s.known := by
    rw [Ledger.known, same.1, history]
    rfl
  refine ⟨⟨?_, ?_, ?_, ?_⟩, ⟨?_, ?_, ?_⟩⟩
  · exact history ▸ valid.owned
  · exact history ▸ valid.leads.congr same.1 same.2
  · exact same.1 ▸ valid.plain
  · exact known ▸ valid.authors
  · cases change <;> exact Nat.le_refl _
  · cases change <;> exact fun _ _ => rfl
  · exact known ▸ fun _ member => member

/-- The interceptor sets the user of no other call. -/
theorem intercepted_getUser (platform : Platform) (arrival : CallArrival) (s : Ledger)
    (other : context ≠ s.started) :
    (s.intercepted platform arrival).getUser context = s.world.auth.getUser context := by
  unfold Ledger.intercepted AuthMiddleware.interceptToken
  split
  · rfl
  split
  · rfl
  split
  · rename_i same
    exact congrArg (fun r => AuthMiddleware.getUser context r.2) same.symm
  · rename_i same
    exact congrArg (fun r => AuthMiddleware.getUser context r.2) same.symm
  · rename_i user auth same
    have kept : auth.getUser context = s.world.auth.getUser context :=
      congrArg (fun r => AuthMiddleware.getUser context r.2) same.symm
    exact (AuthMiddleware.getUser_setUser_ne other user auth).trans kept

theorem handle_safe (knows : Knows caller s) (letters : ∀ drawn, '?' ∉ platform.secId drawn) :
    SafeFrom platform start caller (CrownServer.handle platform.app caller.request) s := by
  cases changes : caller.request.changes with
  | false => exact safe_recover (safe_quiet (body_quiet platform.app changes))
  | true =>
    cases request : caller.request with
    | createPost title content imageUrl => exact request ▸ createPost_safe request knows letters
    | deletePost postId => exact request ▸ deletePost_safe request knows
    | toggleLike postId => exact request ▸ toggleLike_safe request knows
    | _ =>
      rw [request] at changes
      cases changes

theorem contract (platform : Platform) (start : Tables)
    (letters : ∀ drawn, '?' ∉ platform.secId drawn) :
    Service.Contract (service platform) permits (Valid start) Grows promised where
  refl := Grows.refl
  trans := Grows.trans
  started arrival s valid := by
    refine ⟨⟨valid.owned, valid.leads, valid.plain, valid.authors⟩,
      ⟨Nat.le_succ _, fun context early => ?_, fun _ member => member⟩, ?_⟩
    · exact intercepted_getUser platform arrival s (Nat.ne_of_lt early)
    · exact handle_safe ⟨Nat.lt_succ_self _, rfl⟩ letters
  finished _ _ s valid _ := ⟨valid, Grows.refl s⟩
  changed change s valid := changed_kept change valid

end

/-- The calls in progress. -/
abbrev Calls : Type := Service.State Op Op.Reply Exception (Except Status Response) Ledger Caller

/-- Nobody is being served yet. -/
def quiet (world : World Tables) : Calls := ⟨⟨world, 0, []⟩, []⟩

open JwtValidator (signedToken ownPart)

def signed (request : Request) : CallArrival :=
  ⟨request, [(lit "authorization", lit "Bearer " ++ signedToken ownPart)], Site.tokenEnvironment⟩

end Ledger
end Crown
