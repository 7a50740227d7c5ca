import Crown.ShownCounts

/-! What `GetUserById` and `GetUserByHandle` answer against the table of users, over whole runs of
complete calls. `UpsertUser` changes a user in `Login` and in `CreatePost`. `Login` takes the entry
under the user's id out of the cache, no call takes out one under a handle. -/
namespace Crown

open Lib Program

/-- The row meets the equality filters among the parameters. -/
def meets {Row : Type} (column : Row → Text → Option Text) (pairs : List (Text × Text)) (row : Row) :
    Bool :=
  pairs.all fun (name, value) =>
    match column row name with
    | some actual => !(lit "eq.").isPrefixOf value || decide (value = lit "eq." ++ actual)
    | none => true

/-- What is selected depends only on the rows that meet the filters. -/
def RowSelection.Local (selection : RowSelection) : Prop :=
  ∀ {Row : Type} (column : Row → Text → Option Text) (pairs : List (Text × Text))
    (rows rows' : List Row), rows.filter (meets column pairs) = rows'.filter (meets column pairs) →
      selection.select column pairs rows = selection.select column pairs rows'

/-- The lookups: the cache key, the query, and what is answered when there is no row. -/
def Request.lookup : Request → Option (Text × QueryBuilder × Status)
  | .getUserById userId =>
    if userId = [] then none
    else some (Cache.userKey userId, CrownServer.userLookup .id userId,
      ⟨.notFound, lit "User not found"⟩)
  | .getUserByHandle handle =>
    if handle = [] then none
    else some (Cache.handleKey (CrownServer.bareHandle handle),
      CrownServer.userLookup .handle (CrownServer.bareHandle handle),
      ⟨.notFound, lit "User not found for this handle"⟩)
  | _ => none

/-- A site, with the tables from which lookups read what they cached. -/
structure UserWatch where
  site : Site
  readFrom : Text → Option Tables

theorem keys_apart : (∀ id handle, Cache.userKey id ≠ Cache.handleKey handle) ∧
    ∀ userId, (∀ id, Cache.postCountKey userId ≠ Cache.userKey id) ∧
      ∀ handle, Cache.postCountKey userId ≠ Cache.handleKey handle := by
  have user : lit "user:" = 'u' :: lit "ser:" := by with_unfolding_all decide
  have named : lit "handleuser:" = 'h' :: lit "andleuser:" := by with_unfolding_all decide
  have count : lit "pcount:" = 'p' :: lit "count:" := by with_unfolding_all decide
  simp [Cache.userKey, Cache.handleKey, Cache.postCountKey, user, named, count]

theorem lookup_cases (looks : Request.lookup request = some (key, query, missing)) :
    (∃ id, key = Cache.userKey id ∧ query = CrownServer.userLookup .id id) ∨
      ∃ handle, key = Cache.handleKey handle ∧ query = CrownServer.userLookup .handle handle := by
  unfold Request.lookup at looks
  split at looks
  · split at looks
    · cases looks
    · cases looks
      exact .inl ⟨_, rfl, rfl⟩
  · split at looks
    · cases looks
    · cases looks
      exact .inr ⟨_, rfl, rfl⟩
  · cases looks

theorem lookup_table (looks : Request.lookup request = some (key, query, missing)) :
    query.table = lit "users" := by
  rcases lookup_cases looks with ⟨_, _, rfl⟩ | ⟨_, _, rfl⟩ <;> rfl

/-- A key says what is looked up. -/
theorem lookup_key_inj (looks : Request.lookup request = some (key, query, missing))
    (looks' : Request.lookup request' = some (key, query', missing')) : query = query' := by
  obtain ⟨apart, _⟩ := keys_apart
  rcases lookup_cases looks with ⟨id, rfl, rfl⟩ | ⟨handle, rfl, rfl⟩ <;>
    rcases lookup_cases looks' with ⟨id', same, rfl⟩ | ⟨handle', same, rfl⟩
  · rw [List.append_cancel_left same]
  · exact absurd same (apart id handle')
  · exact absurd same.symm (apart id' handle)
  · rw [List.append_cancel_left same]

/-- A lookup is run as one. -/
theorem body_lookup (looks : Request.lookup request = some (key, query, missing)) (app : AppContext) :
    CrownServer.body app request = CrownServer.lookupUser key query missing := by
  unfold Request.lookup at looks
  split at looks
  · split at looks
    · cases looks
    · rename_i nonempty
      cases looks
      simp only [CrownServer.body, CrownServer.getUserById, nonempty, if_false]
  · split at looks
    · cases looks
    · rename_i nonempty
      cases looks
      simp only [CrownServer.body, CrownServer.getUserByHandle, nonempty, if_false]
  · cases looks

namespace UserWatch

def start (site : Site) : UserWatch := ⟨site, fun _ => none⟩

def step (platform : Platform) (watch : UserWatch) (event : Site.Event) : UserWatch where
  site := watch.site.step platform event
  readFrom :=
    match event with
    | .call _ _ request =>
      match request.lookup with
      | some (key, _) =>
        if (watch.site.world.cache.getJson key).isObject then watch.readFrom
        else Function.update watch.readFrom key (some watch.site.world.database)
      | none => watch.readFrom
    | _ => watch.readFrom

/-- The calls that concern the profiles. Time passes between them. -/
def onProfiles : Site.Event → Bool
  | .call _ _ (.login ..) | .call _ _ (.createPost ..) | .call _ _ (.getUserById _)
  | .call _ _ (.getUserByHandle _) | .clock _ => true
  | _ => false

def Step (platform : Platform) (watch : UserWatch) (event : Site.Event) (after : UserWatch) : Prop :=
  onProfiles event = true ∧ after = watch.step platform event

/-- A lookup answers what a direct query would. -/
def AnswersDirect (platform : Platform) (watch : UserWatch) : Site.Event → Prop
  | .call user env request => ∀ key query missing, request.lookup = some (key, query, missing) →
    (watch.site.handle platform user env request).1 =
      .ok (watch.site.world.database.direct platform.service query missing)
  | _ => True

/-- Where a lookup finds an entry, the rows that meet its filter are those of when it was
cached. -/
def FindsCurrent (watch : UserWatch) : Site.Event → Prop
  | .call _ _ request => ∀ key query missing, request.lookup = some (key, query, missing) →
    (watch.site.world.cache.getJson key).isObject = true → ∀ t ∈ watch.readFrom key,
      watch.site.world.database.users.filter (meets UserRow.column (Tables.pairs query)) =
        t.users.filter (meets UserRow.column (Tables.pairs query))
  | _ => True

/-- What holds after every run. -/
structure Kept (platform : Platform) (watch : UserWatch) : Prop where
  connected : watch.site.world.cache.connected = true
  entries : ∀ request key query missing, Request.lookup request = some (key, query, missing) →
    ∀ entry, watch.site.world.cache.entries key = some entry →
      ∃ t row rest, watch.readFrom key = some t ∧
        t.selectUsers platform.service query = some (row :: rest) ∧
        entry = row.json platform.service.timestamp

variable {platform : Platform} {watch after : UserWatch} {event : Site.Event}
variable {user : Option AuthenticatedUser} {env : Environment} {request : Request}

/-- At the keys of lookups the cache has at most lost entries. -/
theorem Kept.fewer (kept : Kept platform watch) {site : Site}
    (connected : site.world.cache.connected = true)
    (fewer : ∀ request key query missing, Request.lookup request = some (key, query, missing) →
      ∀ entry, site.world.cache.entries key = some entry →
        watch.site.world.cache.entries key = some entry) :
    Kept platform { watch with site } :=
  ⟨connected, fun request key query missing looks entry stored =>
    kept.entries request key query missing looks entry
      (fewer request key query missing looks entry stored)⟩

/-- What is found at the key of a lookup was read by it. -/
theorem Kept.hit (kept : Kept platform watch) (looks : request.lookup = some (key, query, missing))
    (found : (watch.site.world.cache.getJson key).isObject = true) :
    ∃ t row rest, watch.readFrom key = some t ∧
      t.selectUsers platform.service query = some (row :: rest) ∧
      watch.site.world.cache.getJson key = row.json platform.service.timestamp := by
  unfold Cache.getJson at found ⊢
  rw [if_pos kept.connected] at found ⊢
  cases stored : watch.site.world.cache.entries key with
  | none =>
    rw [stored] at found
    cases found
  | some entry =>
    obtain ⟨t, row, rest, recorded, selected, rfl⟩ :=
      kept.entries request key query missing looks entry stored
    exact ⟨t, row, rest, recorded, selected, rfl⟩

theorem Kept.absent (kept : Kept platform watch)
    (looks : request.lookup = some (key, query, missing))
    (missed : (watch.site.world.cache.getJson key).isObject = false) :
    watch.site.world.cache.entries key = none := by
  cases stored : watch.site.world.cache.entries key with
  | none => rfl
  | some entry =>
    obtain ⟨t, row, rest, _, _, rfl⟩ := kept.entries request key query missing looks entry stored
    rw [Cache.getJson, if_pos kept.connected, stored] at missed
    cases missed

/-- A lookup that finds nothing in the cache at most stores the first row. -/
theorem looked_cache (platform : Platform) (s : Site) (user : Option AuthenticatedUser)
    (env : Environment) (looks : request.lookup = some (key, query, missing))
    (missed : (s.world.cache.getJson key).isObject = false) :
    (s.step platform (.call user env request)).world.cache = s.world.cache ∨
      ∃ row rest, s.world.database.selectUsers platform.service query = some (row :: rest) ∧
        (s.step platform (.call user env request)).world.cache =
          s.world.cache.setJson key (row.json platform.service.timestamp) := by
  obtain ⟨_, cache⟩ := Site.step_call platform s user env request
  have missed : ((s.calledBy env.context user).cache.getJson key).isObject = false := missed
  obtain ⟨_, left⟩ := lookupUser_miss platform env missing missed (lookup_table looks)
  rw [body_lookup looks] at cache
  rcases left with same | ⟨row, rest, selected, set⟩
  · rw [same] at cache
    exact .inl cache
  · rw [set] at cache
    exact .inr ⟨row, rest, selected, cache⟩

theorem Kept.looked (kept : Kept platform watch)
    (looks : request.lookup = some (key, query, missing)) :
    Kept platform (watch.step platform (.call user env request)) := by
  cases found : (watch.site.world.cache.getJson key).isObject with
  | true =>
    obtain ⟨t, row, rest, _, _, cached⟩ := kept.hit looks found
    obtain ⟨_, cache⟩ := Site.step_call platform watch.site user env request
    have cached : (watch.site.calledBy env.context user).cache.getJson key =
      row.json platform.service.timestamp := cached
    rw [body_lookup looks, lookupUser_hit cached] at cache
    have same : watch.step platform (.call user env request) =
        { watch with site := watch.site.step platform (.call user env request) } := by
      simp only [step, looks, found, if_true]
    rw [same]
    exact kept.fewer ((congrArg Cache.connected cache).trans kept.connected)
      fun _ _ _ _ _ _ stored => by rwa [cache] at stored
  | false =>
    have absent := kept.absent looks found
    have same : watch.step platform (.call user env request) =
        ⟨watch.site.step platform (.call user env request),
          Function.update watch.readFrom key (some watch.site.world.database)⟩ := by
      simp only [step, looks, found, Bool.false_eq_true, if_false]
    rw [same]
    rcases looked_cache platform watch.site user env looks found with
      cache | ⟨row, rest, selected, cache⟩
    · refine ⟨(congrArg Cache.connected cache).trans kept.connected,
        fun request' key' query' missing' looks' entry stored => ?_⟩
      dsimp only at stored ⊢
      rw [cache] at stored
      have other : key' ≠ key := by
        rintro rfl
        rw [absent] at stored
        cases stored
      rw [Function.update_of_ne other]
      exact kept.entries request' key' query' missing' looks' entry stored
    · refine ⟨(congrArg Cache.connected cache).trans
          ((Cache.setJson_connected ..).trans kept.connected),
        fun request' key' query' missing' looks' entry stored => ?_⟩
      dsimp only at stored ⊢
      rw [cache] at stored
      by_cases here : key' = key
      · subst here
        rw [Cache.setJson_self kept.connected] at stored
        cases stored
        rw [lookup_key_inj looks' looks, Function.update_self]
        exact ⟨watch.site.world.database, row, rest, rfl, selected, rfl⟩
      · rw [Cache.setJson_other here] at stored
        rw [Function.update_of_ne here]
        exact kept.entries request' key' query' missing' looks' entry stored

/-- `Login` stores a number of posts, and nothing where lookups look. -/
theorem login_fewer (platform : Platform) (env : Environment) (w : World Tables)
    (authorizationCode redirectUri : Text) :
    let after := ((CrownServer.login platform.app authorizationCode redirectUri).run
      (platform.backend.answer env) w).2
    ∀ request key query missing, Request.lookup request = some (key, query, missing) →
      ∀ entry, after.cache.entries key = some entry → w.cache.entries key = some entry := by
  intro after request key query missing looks entry stored
  obtain ⟨_, counts⟩ := keys_apart
  rcases (login_run platform env w authorizationCode redirectUri).2 with
    ⟨u, _, _, _, _, _, _, _, cache⟩ | ⟨cache, _⟩
  · have other : key ≠ Cache.postCountKey u.id := by
      obtain ⟨byId, byHandle⟩ := counts u.id
      rcases lookup_cases looks with ⟨id, rfl, _⟩ | ⟨handle, rfl, _⟩
      · exact (byId id).symm
      · exact (byHandle handle).symm
    have stored : ((counted platform.service w.database u.id w.cache).2.del
      (Cache.userKey u.id)).entries key = some entry := cache ▸ stored
    have found := Cache.del_found stored
    unfold counted at found
    dsimp only at found
    split at found
    · exact found
    · rwa [Cache.setJson_other other] at found
  · exact cache ▸ stored

theorem step_kept (kept : Kept platform watch) (stepped : Step platform watch event after) :
    Kept platform after := by
  obtain ⟨concerns, rfl⟩ := stepped
  cases event with
  | clock now => exact kept.fewer kept.connected fun _ _ _ _ _ _ stored => stored
  | call user env request =>
    obtain ⟨_, cache⟩ := Site.step_call platform watch.site user env request
    have connected : (watch.site.step platform (.call user env request)).world.cache.connected =
        true := by
      rw [cache, run_connected]
      exact kept.connected
    cases looks : request.lookup with
    | some asked => exact kept.looked looks
    | none =>
      have same : watch.step platform (.call user env request) =
          { watch with site := watch.site.step platform (.call user env request) } := by
        simp only [step, looks]
      rw [same]
      refine kept.fewer connected fun request' key query missing looks' entry stored => ?_
      rw [cache] at stored
      cases request with
      | createPost title content imageUrl =>
        exact (lessens_of_within (createPost_uncaching ..) platform env
          (watch.site.calledBy env.context user)).entries key entry stored
      | login authorizationCode redirectUri =>
        exact login_fewer platform env (watch.site.calledBy env.context user) authorizationCode
          redirectUri request' key query missing looks' entry stored
      | getUserById userId =>
        have empty : userId = [] := by simpa [Request.lookup] using looks
        subst empty
        exact stored
      | getUserByHandle handle =>
        have empty : handle = [] := by simpa [Request.lookup] using looks
        subst empty
        exact stored
      | _ => cases concerns
  | _ => cases concerns

/-- What a lookup answers that finds a current entry or none. -/
theorem Kept.answers (kept : Kept platform watch) (only : platform.service.selection.Local)
    (finds : FindsCurrent watch event) : AnswersDirect platform watch event := by
  unfold AnswersDirect
  split
  · rename_i user env request
    intro key query missing looks
    rw [Site.handle_result, body_lookup looks]
    cases found : (watch.site.world.cache.getJson key).isObject with
    | true =>
      obtain ⟨t, row, rest, recorded, selected, cached⟩ := kept.hit looks found
      have cached : (watch.site.calledBy env.context user).cache.getJson key =
        row.json platform.service.timestamp := cached
      have same := only UserRow.column (Tables.pairs query) _ _
        (finds key query missing looks found t recorded)
      have current : watch.site.world.database.selectUsers platform.service query =
        some (row :: rest) := same.trans selected
      rw [lookupUser_hit cached, Tables.direct, current]
      rfl
    | false =>
      have missed : ((watch.site.calledBy env.context user).cache.getJson key).isObject = false :=
        found
      rw [(lookupUser_miss platform env missing missed (lookup_table looks)).1]
      rfl
  · trivial

open Site (ana anaCalls)

end UserWatch

end Crown
