import Crown.Lib.Service
import Crown.MediaDeletion

/-! Concurrent calls on posts, one request of a call at a time. A post whose deletion was
answered is not to be answered to those who ask later. -/
namespace Crown

open Lib Program

inductive PostCall where
  | getPost (postId : Text)
  | toggleLike (postId : Text)
  | deletePost (postId : Text)
  deriving DecidableEq

namespace PostCall

def request : PostCall → Request
  | getPost postId => .getPost postId
  | toggleLike postId => .toggleLike postId
  | deletePost postId => .deletePost postId

/-- The post whose entry a deletion takes out of the cache. -/
def invalidates : PostCall → Op → Option Text
  | deletePost postId, .cacheDel key => if key = Cache.postKey postId then some postId else none
  | _, _ => none

/-- The post whose deletion is answered with OK. -/
def deletes : PostCall → Except Exception (Except Status Response) → Option Text
  | deletePost postId, .ok (.ok _) => some postId
  | _, _ => none

end PostCall

/-- How a call in progress is known: `late` when it asks for a post whose deletion was
answered before the call began. -/
structure CallTag where
  asked : PostCall
  env : Environment
  late : Bool

/-- What the calls share, with the posts whose entry a deletion took out of the cache and
those whose deletion was answered. -/
structure Traffic where
  world : World Tables
  invalidated : List Text
  deleted : List Text

structure PostArrival where
  user : Option AuthenticatedUser
  env : Environment
  asked : PostCall

namespace Traffic

/-- `GetPost`, `ToggleLike` and `DeletePost` at the same time. Entries of the cache expire
at any moment. -/
def service (platform : Platform) : Service Op Op.Reply Exception (Except Status Response) Traffic
    CallTag PostArrival Text where
  start arrival s :=
    (⟨arrival.asked, arrival.env, match arrival.asked with
      | .getPost postId => decide (postId ∈ s.deleted)
      | _ => false⟩,
    { s with world := { s.world with auth := { s.world.auth with
        users := Function.update s.world.auth.users arrival.env.context arrival.user } } })
  body tag := CrownServer.handle platform.app tag.asked.request
  answer tag op s :=
    let (reply, world) := platform.backend.answer tag.env op s.world
    (reply, { s with
      world, invalidated := (tag.asked.invalidates op).toList ++ s.invalidated })
  finish tag result s := { s with deleted := (tag.asked.deletes result).toList ++ s.deleted }
  outside key s := { s with world := { s.world with cache := s.world.cache.expire key } }

/-- A `GetPost` stores no post whose entry a deletion has taken out already, and a deletion
selects every row with the id it was asked for. -/
def permits (platform : Platform) (tag : CallTag) (op : Op) (s : Traffic) : Bool :=
  match tag.asked, op with
  | .getPost postId, .cacheSet .. => postId ∉ s.invalidated
  | .deletePost postId, .delete query =>
    match s.world.database.selectPosts platform.service query with
    | some found => query.table ≠ lit "posts" ∨
        ∀ post ∈ s.world.database.posts, post.id = postId → post ∈ found
    | none => true
  | _, _ => true

def Gone (s : Traffic) (postId : Text) : Prop :=
  ∀ post ∈ s.world.database.posts, post.id ≠ postId

def Unstored (cache : Cache) (key : Text) : Prop :=
  cache.connected = true → cache.entries key = none

/-- Of a post whose entry was taken out, neither a row nor an entry is left. -/
structure Valid (s : Traffic) : Prop where
  gone : ∀ postId ∈ s.invalidated, s.Gone postId
  unstored : ∀ postId ∈ s.invalidated, Unstored s.world.cache (Cache.postKey postId)
  told : ∀ postId ∈ s.deleted, postId ∈ s.invalidated

/-- What every step does at most: rows are not added. -/
structure Grows (s t : Traffic) : Prop where
  invalidated : ∀ postId ∈ s.invalidated, postId ∈ t.invalidated
  rows : ∀ post ∈ t.world.database.posts, ∃ old ∈ s.world.database.posts, old.id = post.id

/-- What a call promises of its result. -/
def Promised (tag : CallTag) (result : Except Exception (Except Status Response)) (s : Traffic) :
    Prop :=
  match tag.asked, result with
  | .getPost _, .ok (.ok (.post _)) => tag.late = false
  | .deletePost postId, .ok (.ok _) => postId ∈ s.invalidated
  | _, _ => True

theorem Grows.refl (s : Traffic) : Grows s s :=
  ⟨fun _ member => member, fun post member => ⟨post, member, rfl⟩⟩

theorem Grows.trans {s t u : Traffic} (first : Grows s t) (second : Grows t u) : Grows s u := by
  refine ⟨fun postId member => second.invalidated postId (first.invalidated postId member), ?_⟩
  intro post member
  obtain ⟨middle, between, same⟩ := second.rows post member
  obtain ⟨old, earlier, same'⟩ := first.rows middle between
  exact ⟨old, earlier, same'.trans same⟩

theorem Grows.gone {s t : Traffic} (growth : Grows s t) (gone : s.Gone postId) : t.Gone postId := by
  intro post member
  obtain ⟨old, earlier, same⟩ := growth.rows post member
  rw [← same]
  exact gone old earlier

theorem Unstored.getJson {cache : Cache} (unstored : Unstored cache key) :
    cache.getJson key = .null := by
  unfold Cache.getJson
  split
  · rename_i connected
    rw [unstored connected]
    rfl
  · rfl

theorem Unstored.fewer {cache cache' : Cache} (unstored : Unstored cache key)
    (connected : cache'.connected = cache.connected)
    (fewer : ∀ entry, cache'.entries key = some entry → cache.entries key = some entry) :
    Unstored cache' key := by
  intro there
  rw [connected] at there
  refine Option.eq_none_iff_forall_ne_some.mpr fun entry found => ?_
  have present := fewer entry found
  rw [unstored there] at present
  cases present

end Traffic

theorem Cache.postKey_inj : Cache.postKey a = Cache.postKey b ↔ a = b :=
  List.append_right_inj _

namespace Traffic

variable {platform : Platform} {s t : Traffic}

/-- The operations that store nothing in the cache and add no post. -/
def Storeless : Op → Prop
  | .cacheSet .. | .insertReturn .. => False
  | _ => True

theorem answer_rows (env : Environment) (op : Op) (w : World Tables) (storeless : Storeless op) :
    ∀ post ∈ (platform.backend.answer env op w).2.database.posts,
      ∃ old ∈ w.database.posts, old.id = post.id := by
  have adds : ∀ table row, op ≠ .insertReturn table row := by
    rintro table row rfl
    exact storeless
  intro post member
  obtain ⟨old, stored, like⟩ := platform.answer_posts env op w adds post member
  have id := congrArg PostRow.id like
  exact ⟨old, stored, id⟩

theorem answer_unstored (platform : Platform) (env : Environment) (op : Op) (w : World Tables)
    (storeless : Storeless op) (unstored : Unstored w.cache key) :
    Unstored (platform.backend.answer env op w).2.cache key := by
  cases op with
  | cacheDel removed =>
    exact unstored.fewer (Cache.del_connected ..) fun entry => Cache.del_found
  | cacheDelPattern pattern =>
    exact unstored.fewer (Cache.delPattern_connected ..) fun entry => Cache.delPattern_found
  | rpc function params => cases function <;> exact unstored
  | cacheSet | insertReturn => exact storeless.elim
  | _ => exact unstored

/-- A program that, from this state on, is safe to run beside the others. -/
abbrev SafeFrom (platform : Platform) (tag : CallTag)
    (post : Except Exception α → Traffic → Prop) (p : Handler α) (s : Traffic) : Prop :=
  p.Safe (fun op t => permits platform tag op t = true) ((service platform).answer tag) Valid Grows
    post s

section

variable {tag : CallTag} {post : Except Exception α → Traffic → Prop}

/-- An operation that stores nothing and invalidates nothing. -/
theorem quiet_kept (platform : Platform) (tag : CallTag) (op : Op) (storeless : Storeless op)
    (silent : tag.asked.invalidates op = none) (valid : Valid s) :
    Valid ((service platform).answer tag op s).2 ∧
      Grows s ((service platform).answer tag op s).2 := by
  have growth : Grows s ((service platform).answer tag op s).2 :=
    ⟨fun _ member => List.mem_append_right _ member, answer_rows tag.env op s.world storeless⟩
  have invalidated : ((service platform).answer tag op s).2.invalidated = s.invalidated := by
    simp only [service, silent, Option.toList_none, List.nil_append]
  refine ⟨⟨fun postId member => ?_, fun postId member => ?_, fun postId member => ?_⟩, growth⟩
  · exact growth.gone (valid.gone postId (invalidated ▸ member))
  · exact answer_unstored platform tag.env op s.world storeless
      (valid.unstored postId (invalidated ▸ member))
  · exact growth.invalidated postId (valid.told postId member)

theorem safe_quiet (op : Op) (storeless : Storeless op) (silent : tag.asked.invalidates op = none)
    {next : op.Reply → Handler α}
    (later : ∀ t, Valid t → Grows s t → Grows s ((service platform).answer tag op t).2 →
      SafeFrom platform tag post (next (platform.backend.answer tag.env op t.world).1)
        ((service platform).answer tag op t).2) :
    SafeFrom platform tag post (.perform op next) s := by
  intro t valid growth permitted
  obtain ⟨kept, grown⟩ := quiet_kept platform tag op storeless silent valid
  exact ⟨kept, grown, later t valid growth (growth.trans grown)⟩

end

/-- The database knows nothing of a post that is gone. -/
theorem gone_call (service : DatabaseService) (gone : s.Gone postId) (userId : Text) :
    s.world.database.call service .getPost (.object [(lit "p_user_id", .string userId),
      (lit "p_post_id", .string postId)]) = some .null := by
  have names : lit "p_user_id" ≠ lit "p_post_id" := by simp
  have none : (s.world.database.posts.filter fun post => post.id = postId) = [] := by
    refine List.filter_eq_nil_iff.mpr fun post member => ?_
    simpa using gone post member
  simp [Tables.call, Json.text, Json.find, names, none]

/-- Storing a post whose entry no deletion has taken out. -/
theorem store_kept (platform : Platform) (tag : CallTag) (value : Json) (ttlSeconds : Nat) (valid : Valid s)
    (asked : tag.asked = .getPost postId) (current : postId ∉ s.invalidated) :
    let after := ((service platform).answer tag (.cacheSet (Cache.postKey postId) value ttlSeconds) s).2
    Valid after ∧ Grows s after := by
  have invalidated : ((service platform).answer tag
      (.cacheSet (Cache.postKey postId) value ttlSeconds) s).2.invalidated = s.invalidated := by
    simp only [service, asked]
    rfl
  refine ⟨⟨fun other member => ?_, fun other member => ?_, fun other member => ?_⟩,
    ⟨fun other member => ?_, fun post member => ⟨post, member, rfl⟩⟩⟩
  · exact valid.gone other (invalidated ▸ member)
  · have earlier : other ∈ s.invalidated := invalidated ▸ member
    have different : Cache.postKey other ≠ Cache.postKey postId := fun same =>
      current (Cache.postKey_inj.mp same ▸ earlier)
    intro connected
    refine (Cache.setJson_other different value).trans (valid.unstored other earlier ?_)
    exact (Cache.setJson_connected _ value s.world.cache).symm.trans connected
  · exact invalidated ▸ valid.told other member
  · exact invalidated ▸ member

theorem getPost_safe (postId : Text) (env : Environment) (late : Bool)
    (after : late = true → postId ∈ s.invalidated) :
    SafeFrom platform ⟨.getPost postId, env, late⟩ (Promised ⟨.getPost postId, env, late⟩)
      (CrownServer.handle platform.app (.getPost postId)) s := by
  refine safe_recover ?_
  simp only [CrownServer.body, CrownServer.getPost, call_bind]
  refine safe_quiet (.cacheGet _) trivial rfl fun t valid growth reading => ?_
  split
  · rename_i cached
    refine safe_done_bind (fun _ _ => trivial) fun post _ => fun _ _ _ => ?_
    refine Bool.eq_false_iff.mpr fun isLate => ?_
    have null := (valid.unstored postId (growth.invalidated postId (after isLate))).getJson
    have object : (t.world.cache.getJson (Cache.postKey postId)).isObject = true := cached
    rw [null] at object
    cases object
  · refine safe_quiet .getUser trivial rfl fun t valid growth asking => ?_
    refine safe_quiet (.rpc .getPost _) trivial rfl fun t valid growth calling => ?_
    split
    · rename_i parsed result
      split
      · rename_i known
        have early : late = false := by
          refine Bool.eq_false_iff.mpr fun isLate => ?_
          have earlier := asking.invalidated postId (reading.invalidated postId (after isLate))
          have gone := valid.gone postId (growth.invalidated postId earlier)
          have null := result.symm.trans (gone_call platform.service gone _)
          cases null
          cases known
        refine safe_done_bind (fun _ _ => trivial) fun post _ => ?_
        intro u valid growth permitted
        have current : postId ∉ u.invalidated := of_decide_eq_true permitted
        obtain ⟨kept, grown⟩ := store_kept platform
          ⟨.getPost postId, env, late⟩ parsed cacheTtlPost valid rfl current
        exact ⟨kept, grown, fun _ _ _ => early⟩
      · exact fun _ _ _ => trivial
    · exact fun _ _ _ => trivial

theorem toggleLike_safe (postId : Text) (env : Environment) (late : Bool) :
    SafeFrom platform ⟨.toggleLike postId, env, late⟩ (Promised ⟨.toggleLike postId, env, late⟩)
      (CrownServer.handle platform.app (.toggleLike postId)) s := by
  refine safe_recover ?_
  simp only [CrownServer.body, CrownServer.toggleLike, call_bind]
  refine safe_quiet .getUser trivial rfl fun t valid growth asking => ?_
  split
  · exact fun _ _ _ => trivial
  · split
    · exact fun _ _ _ => trivial
    · refine safe_quiet (.rpc .toggleLike _) trivial rfl fun t valid growth calling => ?_
      split
      · refine safe_done_bind (fun _ _ => trivial) fun isLiked _ => ?_
        refine safe_done_bind (fun _ _ => trivial) fun count _ => ?_
        refine safe_quiet (.cacheDel _) trivial rfl fun t valid growth _ => ?_
        refine safe_quiet (.cacheDel _) trivial rfl fun t valid growth _ => ?_
        refine safe_quiet (.cacheDelPattern _) trivial rfl fun t valid growth _ => ?_
        exact fun _ _ _ => trivial
      · exact fun _ _ _ => trivial

/-- Taking out the entry of a post that is gone. -/
theorem invalidate_kept (platform : Platform) (tag : CallTag) (valid : Valid s) (asked : tag.asked = .deletePost postId)
    (gone : s.Gone postId) :
    let after := ((service platform).answer tag (.cacheDel (Cache.postKey postId)) s).2
    Valid after ∧ Grows s after ∧ postId ∈ after.invalidated := by
  have invalidated : ((service platform).answer tag
      (.cacheDel (Cache.postKey postId)) s).2.invalidated = postId :: s.invalidated := by
    simp only [service, asked, PostCall.invalidates, if_true]
    rfl
  have fewer : ∀ other, Unstored s.world.cache (Cache.postKey other) →
      Unstored (s.world.cache.del (Cache.postKey postId)) (Cache.postKey other) := fun other =>
    answer_unstored platform tag.env (.cacheDel (Cache.postKey postId)) s.world trivial
  have removed : Unstored (s.world.cache.del (Cache.postKey postId)) (Cache.postKey postId) := by
    intro connected
    have there : s.world.cache.connected = true := (Cache.del_connected ..).symm.trans connected
    simp [Cache.del, there]
  refine ⟨⟨fun other member => ?_, fun other member => ?_, fun other member => ?_⟩,
    ⟨fun other member => ?_, fun post member => ⟨post, member, rfl⟩⟩, ?_⟩
  · rcases List.mem_cons.mp (invalidated ▸ member) with rfl | earlier
    · exact gone
    · exact valid.gone other earlier
  · rcases List.mem_cons.mp (invalidated ▸ member) with rfl | earlier
    · exact removed
    · exact fewer other (valid.unstored other earlier)
  · rw [invalidated]
    exact List.mem_cons_of_mem _ (valid.told other member)
  · rw [invalidated]
    exact List.mem_cons_of_mem _ member
  · rw [invalidated]
    exact List.mem_cons_self ..

/-- A deletion that succeeds leaves no row with the id. -/
theorem deletion_gone (query : QueryBuilder) (env : Environment) (late : Bool)
    (posts : query.table = lit "posts")
    (permitted : permits platform ⟨.deletePost postId, env, late⟩ (.delete query) s = true)
    (succeeded : (s.world.database.delete platform.service query).1 < 300) :
    Gone ((service platform).answer ⟨.deletePost postId, env, late⟩ (.delete query) s).2 postId := by
  intro post member same
  have member : post ∈ (s.world.database.delete platform.service query).2.posts := member
  unfold Tables.delete at member succeeded
  rw [if_pos posts] at member succeeded
  cases selected : s.world.database.selectPosts platform.service query with
  | none =>
    rw [selected] at succeeded
    have failed : (400 : Int) < 300 := succeeded
    omega
  | some found =>
    simp only [permits, selected, posts, ne_eq, not_true_eq_false, false_or,
      decide_eq_true_eq] at permitted
    rw [selected] at member
    obtain ⟨stored, kept⟩ := List.mem_filter.mp member
    exact of_decide_eq_true kept (permitted post stored same)

section

variable {postId : Text} {env : Environment} {late : Bool}

/-- The end of a deletion, once the row is gone. -/
theorem forget_safe (authorId : Text) (handler : Exception → Except Status Response)
    (gone : s.Gone postId) :
    SafeFrom platform ⟨.deletePost postId, env, late⟩
      (fun result t => Promised ⟨.deletePost postId, env, late⟩ (.ok (recovered handler result)) t)
      (.perform (.cacheDel (Cache.postKey postId)) fun _ =>
        .perform (.cacheDelPattern Cache.feedPattern) fun _ =>
        .perform (.cacheDelPattern (Cache.userPostsPattern authorId)) fun _ =>
        .done (.ok (.ok .empty))) s := by
  intro t valid growth _
  obtain ⟨kept, grown, member⟩ := invalidate_kept platform
    ⟨.deletePost postId, env, late⟩ valid rfl (growth.gone gone)
  refine ⟨kept, grown, ?_⟩
  refine safe_quiet (.cacheDelPattern _) trivial rfl fun _ _ _ feed => ?_
  refine safe_quiet (.cacheDelPattern _) trivial rfl fun _ _ _ pages => fun u _ later => ?_
  exact later.invalidated postId (pages.invalidated postId (feed.invalidated postId member))

theorem removePost_safe (app : AppContext) (authorId imageUrl : Text)
    (handler : Exception → Except Status Response) (failed : ∀ e, ∃ status, handler e = .error status) :
    SafeFrom platform ⟨.deletePost postId, env, late⟩
      (fun result t => Promised ⟨.deletePost postId, env, late⟩ (.ok (recovered handler result)) t)
      (CrownServer.removePost app postId authorId imageUrl) s := by
  have thrown : ∀ e t, Promised ⟨.deletePost postId, env, late⟩ (.ok (handler e)) t := by
    intro e t
    obtain ⟨status, same⟩ := failed e
    rw [same]
    exact trivial
  simp only [CrownServer.removePost, call_bind]
  intro t valid growth permitted
  obtain ⟨kept, grown⟩ := quiet_kept platform ⟨.deletePost postId, env, late⟩
    (.delete ((fromTable (lit "posts")).eq .id postId)) trivial rfl valid
  refine ⟨kept, grown, ?_⟩
  dsimp only
  split
  · exact fun _ _ _ => trivial
  · rename_i accepted
    have succeeded := Int.not_le.mp (not_or.mp accepted).2
    have gone := deletion_gone _ env late rfl permitted succeeded
    split
    · refine safe_quiet (.select _) trivial rfl fun _ _ _ looked => ?_
      split
      · refine safe_done_bind thrown fun fileId _ => ?_
        refine safe_quiet (.delete _) trivial rfl fun _ _ _ unregistered => ?_
        split
        · refine safe_quiet (.s3Delete ..) trivial rfl fun _ _ _ asked => ?_
          exact forget_safe authorId handler (asked.gone (unregistered.gone (looked.gone gone)))
        · exact forget_safe authorId handler (unregistered.gone (looked.gone gone))
      · exact forget_safe authorId handler (looked.gone gone)
    · exact forget_safe authorId handler gone

theorem deletePost_safe :
    SafeFrom platform ⟨.deletePost postId, env, late⟩ (Promised ⟨.deletePost postId, env, late⟩)
      (CrownServer.handle platform.app (.deletePost postId)) s := by
  refine safe_recover ?_
  simp only [CrownServer.body, CrownServer.deletePost, call_bind]
  refine safe_quiet .getUser trivial rfl fun _ _ _ _ => ?_
  split
  · exact fun _ _ _ => trivial
  · split
    · exact fun _ _ _ => trivial
    · refine safe_quiet (.select _) trivial rfl fun _ _ _ _ => ?_
      split
      · refine safe_done_bind (fun _ _ => trivial) fun authorId _ => ?_
        split
        · exact fun _ _ _ => trivial
        · refine safe_done_bind (fun _ _ => trivial) fun imageUrl _ => ?_
          exact removePost_safe platform.app authorId imageUrl _ fun e => ⟨_, rfl⟩
      · exact fun _ _ _ => trivial

end

theorem contract (platform : Platform) :
    Service.Contract (service platform) (permits platform) Valid Grows Promised where
  refl := Grows.refl
  trans := Grows.trans
  started arrival s valid := by
    refine ⟨⟨valid.gone, valid.unstored, valid.told⟩,
      ⟨fun _ member => member, fun post member => ⟨post, member, rfl⟩⟩, ?_⟩
    obtain ⟨user, env, asked⟩ := arrival
    cases asked with
    | getPost postId =>
      exact getPost_safe postId env _ fun late => valid.told postId (of_decide_eq_true late)
    | toggleLike postId => exact toggleLike_safe postId env false
    | deletePost postId => exact deletePost_safe
  finished tag result s valid promised := by
    refine ⟨⟨valid.gone, valid.unstored, fun postId member => ?_⟩,
      ⟨fun _ member => member, fun post member => ⟨post, member, rfl⟩⟩⟩
    obtain ⟨asked, env, late⟩ := tag
    rcases List.mem_append.mp member with now | earlier
    · cases asked with
      | deletePost deleted =>
        match result, now, promised with
        | .ok (.ok _), now, promised =>
          obtain rfl : postId = deleted := List.mem_singleton.mp now
          exact promised
      | _ => cases now
    · exact valid.told postId earlier
  changed key s valid := by
    refine ⟨⟨valid.gone, fun postId member => ?_, valid.told⟩,
      ⟨fun _ member => member, fun post member => ⟨post, member, rfl⟩⟩⟩
    exact (valid.unstored postId member).fewer rfl fun entry => Cache.update_none_found

/-- The state the calls run in, with the calls in progress. -/
abbrev Calls : Type := Service.State Op Op.Reply Exception (Except Status Response) Traffic CallTag

abbrev Call : Type := Service.Call Op Op.Reply Exception (Except Status Response) CallTag

/-- Nobody is being served yet. -/
def quiet (world : World Tables) : Calls := ⟨⟨world, [], []⟩, []⟩

/-- The call is about to answer with a post. -/
def answersPost (call : Call) : Bool :=
  match call.program with
  | .done (.ok (.ok (.post _))) => true
  | _ => false

theorem run_world (platform : Platform) (tag : CallTag) (p : Handler α) (s : Traffic) :
    (p.run ((service platform).answer tag) s).1 =
        (p.run (platform.backend.answer tag.env) s.world).1 ∧
      (p.run ((service platform).answer tag) s).2.world =
        (p.run (platform.backend.answer tag.env) s.world).2 := by
  induction p generalizing s with
  | done result => exact ⟨rfl, rfl⟩
  | perform op next ih => exact ih _ _

/-- A call that no other interrupts is the call of the site. -/
theorem handle_alone (platform : Platform) (site : Site) (arrival : PostArrival) :
    let handled := site.handle platform arrival.user arrival.env arrival.asked.request
    ∃ (steps : Nat) (s : Calls) (call : Call),
      execute (service platform).step (.start arrival :: List.replicate steps (.advance 0))
        (quiet site.world) = some s ∧
      s.calls = [call] ∧ call.program = .done handled.1 ∧
      s.shared.world.database = handled.2.world.database ∧
      s.shared.world.cache = handled.2.world.cache := by
  let tag := ((service platform).start arrival ⟨site.world, [], []⟩).1
  let shared := ((service platform).start arrival ⟨site.world, [], []⟩).2
  obtain ⟨steps, ran⟩ := Service.advance_alone (service platform) tag ((service platform).body tag)
    shared
  obtain ⟨result, world⟩ := run_world platform tag ((service platform).body tag) shared
  refine ⟨steps, _, _, ran, rfl, congrArg Program.done result, ?_, ?_⟩
  · exact (congrArg World.database world).trans rfl
  · exact (congrArg World.cache world).trans rfl

/-- While no `GetPost` stores a post whose entry a deletion has taken out already, and deletions
select every row with their id, no `GetPost` that begins after a deletion of its post was
answered with OK answers with a post. -/
theorem run_stays_deleted (platform : Platform) (world : World Tables) {s : Calls}
    (run : Run (Guarded (fun s event => Service.Permitted (permits platform) s event = true)
      fun s event s' => (service platform).step s event = some s') (quiet world) events s) :
    ∀ call ∈ s.calls, ∀ postId, call.tag.asked = .getPost postId → call.tag.late = true →
      answersPost call = false := by
  have first : Valid ⟨world, [], []⟩ :=
    ⟨fun _ member => (nomatch member), fun _ member => (nomatch member),
      fun _ member => (nomatch member)⟩
  have invariant := (contract platform).run first run
  intro call member postId asked late
  refine Bool.eq_false_iff.mpr fun answers => ?_
  unfold answersPost at answers
  split at answers
  · rename_i post ended
    have promised := invariant.result (contract platform) member ended
    rw [Promised.eq_def, asked] at promised
    exact Bool.false_ne_true (promised.symm.trans late)
  · cases answers

/-- Ana has posted. -/
def posted : World Tables :=
  (Site.empty.step .plain (.call (some Site.ana) Site.localEnvironment
    (.createPost (lit "one") (lit "one") []))).world

def firstPost : Text := List.replicate 26 'p' ++ lit "0"

def anaDeletes : PostArrival := ⟨some Site.ana, Site.localEnvironment, .deletePost firstPost⟩
def biaReads : PostArrival := ⟨some Site.bia, ⟨1, Site.localEnvironment.tokenEndpoint,
  Site.localEnvironment.around⟩, .getPost firstPost⟩

/-- The six requests of a deletion, and its end. -/
def deletion (place : Nat) : List (Service.Event PostArrival Text) :=
  List.replicate 6 (.advance place) ++ [.finish place]

/-- One call after the other. -/
theorem laterRead_refused : ∃ s : Calls, ∃ call ∈ s.calls, call.tag.late = true ∧
    answersPost call = false := by
  have ends : (execute (fun s event => if Service.Permitted (permits .plain) s event = true then
      (service .plain).step s event else none)
        (.start anaDeletes :: deletion 0 ++ .start biaReads :: List.replicate 3 (.advance 0))
        (quiet posted)).any (fun s => s.calls.any fun call =>
          call.tag.asked = .getPost firstPost && call.tag.late) = true := by
    with_unfolding_all decide
  obtain ⟨s, reached, shows⟩ := (Option.any_eq_true ..).mp ends
  obtain ⟨call, member, known⟩ := List.any_eq_true.mp shows
  simp only [Bool.and_eq_true, decide_eq_true_eq] at known
  exact ⟨s, call, member, known.2, run_stays_deleted .plain posted (guarded_of_execute reached)
    call member firstPost known.1 known.2⟩

/-- Bia has the row, Ana deletes the post, Bia stores the row, and the next one who asks is
answered with it. -/
theorem storedLate_answered : ¬∀ events (s : Calls),
    Run (fun s event s' => (service .plain).step s event = some s') (quiet posted) events s →
      ∀ call ∈ s.calls, ∀ postId, call.tag.asked = .getPost postId → call.tag.late = true →
        answersPost call = false := by
  intro stays
  have ends : (execute (service .plain).step
      (.start biaReads :: List.replicate 3 (.advance 0) ++ .start anaDeletes :: deletion 1 ++
        [.advance 0, .finish 0, .start biaReads, .advance 0]) (quiet posted)).any
        (fun s => s.calls.any fun call =>
          call.tag.asked = .getPost firstPost && call.tag.late && answersPost call) = true := by
    with_unfolding_all decide
  obtain ⟨s, reached, shows⟩ := (Option.any_eq_true ..).mp ends
  obtain ⟨call, member, known⟩ := List.any_eq_true.mp shows
  simp only [Bool.and_eq_true, decide_eq_true_eq] at known
  have none := stays _ s (run_of_execute reached) call member firstPost known.1.1 known.1.2
  exact Bool.false_ne_true (none.symm.trans known.2)

end Traffic
end Crown
