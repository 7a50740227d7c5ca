import Crown.MediaDeletion
import Crown.ViewedPosts

/-! What the listings answer each viewer over whole runs of the site. A listed page is
cached under a key that does not say whom it was read for. -/
namespace Crown

open Lib

/-- What a listing answered a viewer, with the likes of that moment. -/
structure Answer where
  viewer : Text
  likes : List (Text × Text)
  result : Except Exception (Except Status Response)

def Answer.posts (answer : Answer) : List Post :=
  match answer.result with
  | .ok (.ok (.postList posts)) => posts
  | _ => []

/-- Every post says whether the viewer likes it. -/
def Answer.OwnLikes (answer : Answer) : Prop :=
  ∀ post ∈ answer.posts, post.isLikedByMe = decide ((answer.viewer, post.id) ∈ answer.likes)

instance (answer : Answer) : Decidable answer.OwnLikes :=
  inferInstanceAs (Decidable (∀ post ∈ answer.posts, _))

/-- Whom an event lists for. -/
def Site.Event.lister : Site.Event → Option Text
  | .call (some viewer) _ request => if request.listing.isSome then some viewer.id else none
  | _ => none

/-- A site, with the pages its listings last cached and what they answered. -/
structure Watch where
  site : Site
  cachedPage : Text → Option Page
  answers : List Answer

namespace Watch

def start (site : Site) : Watch := ⟨site, fun _ => none, []⟩

/-- The page a listing reads, which it does when it finds none. -/
def readPage (platform : Platform) (w : World Tables) (viewer key : Text) (request : Request) :
    Option Page :=
  match rows? (w.cache.getJson key) with
  | some _ => none
  | none => (request.rows platform.service w.database).map fun rows => ⟨viewer, w.database, rows⟩

/-- The pages cached, once another one is to be. -/
def recorded (cachedPage : Text → Option Page) (cache : Cache) (key : Text) (page : Page) :
    Text → Option Page :=
  if cache.connected then Function.update cachedPage key (some page) else cachedPage

def listed (platform : Platform) (watch : Watch) (viewer : AuthenticatedUser) (env : Environment)
    (request : Request) (key : Text) : Watch where
  site := (watch.site.handle platform (some viewer) env request).2
  cachedPage :=
    match readPage platform watch.site.world viewer.id key request with
    | some page => recorded watch.cachedPage watch.site.world.cache key page
    | none => watch.cachedPage
  answers := watch.answers ++ [⟨viewer.id, watch.site.world.database.likes,
    (watch.site.handle platform (some viewer) env request).1⟩]

def step (platform : Platform) (watch : Watch) (event : Site.Event) : Watch :=
  match event with
  | .call (some viewer) env request =>
    match request.listing with
    | some (key, _) => watch.listed platform viewer env request key
    | none => { watch with site := watch.site.step platform event }
  | _ => { watch with site := watch.site.step platform event }

def answersTo (watch : Watch) (viewer : Text) : List Answer :=
  watch.answers.filter (·.viewer = viewer)

/-- There is no page at the key, or one cached for the same viewer since when the viewer's
likes of the posts on it have not changed. -/
def OwnPage (watch : Watch) (viewer key : Text) : Prop :=
  (rows? (watch.site.world.cache.getJson key)).isSome →
    ∃ page ∈ watch.cachedPage key, page.viewer = viewer ∧ ∀ row ∈ page.rows,
      ((viewer, row.1.id) ∈ page.tables.likes ↔
        (viewer, row.1.id) ∈ watch.site.world.database.likes)

instance (watch : Watch) (viewer key : Text) : Decidable (watch.OwnPage viewer key) := by
  unfold OwnPage
  infer_instance

/-- A listing finds at its key no page but an own one. -/
def FindsOwn (watch : Watch) : Site.Event → Prop
  | .call (some viewer) _ request => ∀ listing ∈ request.listing, watch.OwnPage viewer.id listing.1
  | _ => True

end Watch

/-- What is cached of listed pages are pages as they were read. -/
def Holds (service : DatabaseService) (cachedPage : Text → Option Page) (cache : Cache) : Prop :=
  ∀ key, ListingKey key → ∀ entry, cache.entries key = some entry →
    ∃ page, cachedPage key = some page ∧ entry = page.json service

/-- The listed pages of the second cache are in the first one. -/
def Fewer (cache cache' : Cache) : Prop :=
  ∀ key, ListingKey key → ∀ entry, cache'.entries key = some entry → cache.entries key = some entry

/-- Two caches that differ in pages read for others than the viewer only, which the
second one lacks. -/
structure Alike (viewer : Text) (cachedPage : Text → Option Page) (cache cache' : Cache) : Prop where
  connected : cache'.connected = cache.connected
  entries : ∀ key, cache'.entries key = cache.entries key ∨
    ListingKey key ∧ cache'.entries key = none ∧
      ∃ page, cachedPage key = some page ∧ page.viewer ≠ viewer

section

variable {service : DatabaseService} {viewer : Text} {cachedPage : Text → Option Page}
variable {cache cache' : Cache} {key : Text} {page : Page}

namespace Holds

theorem mono (holds : Holds service cachedPage cache) (fewer : Fewer cache cache') :
    Holds service cachedPage cache' :=
  fun key listed entry found => holds key listed entry (fewer key listed entry found)

/-- The page found at a key is the one that was cached there. -/
theorem hit (holds : Holds service cachedPage cache) (listed : ListingKey key)
    (cached : rows? (cache.getJson key) = some elements) :
    cache.connected = true ∧
      ∃ page, cachedPage key = some page ∧ cache.entries key = some (page.json service) ∧
        elements = page.elements service := by
  unfold Cache.getJson at cached
  split at cached
  · rename_i connected
    refine ⟨connected, ?_⟩
    cases found : cache.entries key with
    | none =>
      rw [found] at cached
      cases cached
    | some entry =>
      obtain ⟨page, known, rfl⟩ := holds key listed entry found
      rw [found] at cached
      cases cached
      exact ⟨page, known, rfl, rfl⟩
  · cases cached

/-- Without a page at its key nothing is stored there. -/
theorem miss (holds : Holds service cachedPage cache) (listed : ListingKey key)
    (missed : rows? (cache.getJson key) = none) (connected : cache.connected = true) :
    cache.entries key = none := by
  cases found : cache.entries key with
  | none => rfl
  | some entry =>
    obtain ⟨page, known, rfl⟩ := holds key listed entry found
    simp only [Cache.getJson, connected, if_true, found, Option.getD_some] at missed
    cases missed

theorem recorded (holds : Holds service cachedPage cache) :
    Holds service (Watch.recorded cachedPage cache key page)
      (cache.setJson key (page.json service)) := by
  unfold Watch.recorded
  split
  · rename_i connected
    intro other listed entry found
    by_cases same : other = key
    · subst same
      rw [Cache.setJson_self connected] at found
      cases found
      exact ⟨page, Function.update_self .., rfl⟩
    · rw [Cache.setJson_other same] at found
      rw [Function.update_of_ne same]
      exact holds other listed entry found
  · rename_i unconnected
    rwa [Cache.setJson, if_neg unconnected]

end Holds

namespace Alike

theorem refl (cache : Cache) : Alike viewer cachedPage cache cache := ⟨rfl, fun _ => Or.inl rfl⟩

/-- Nothing stored in the one, nothing stored in the other. -/
theorem absent (alike : Alike viewer cachedPage cache cache') (free : cache.entries key = none) :
    cache'.entries key = none := by
  rcases alike.entries key with same | ⟨_, lacks, _⟩
  · rw [same, free]
  · exact lacks

theorem getJson_own (alike : Alike viewer cachedPage cache cache')
    (own : ∀ page, ListingKey key → cachedPage key = some page → page.viewer = viewer) :
    cache'.getJson key = cache.getJson key := by
  have same : cache'.entries key = cache.entries key := by
    rcases alike.entries key with same | ⟨listed, _, page, known, other⟩
    · exact same
    · exact absurd (own page listed known) other
  simp only [Cache.getJson, alike.connected, same]

theorem getJson_missed (alike : Alike viewer cachedPage cache cache')
    (holds : Holds service cachedPage cache) (listed : ListingKey key)
    (missed : rows? (cache.getJson key) = none) : rows? (cache'.getJson key) = none := by
  unfold Cache.getJson
  rw [alike.connected]
  split
  · rename_i connected
    rw [alike.absent (holds.miss listed missed connected)]
    rfl
  · rfl

/-- Both are changed at one key, to the same. -/
theorem update (alike : Alike viewer cachedPage cache cache') (key : Text) (entry : Option Json) :
    Alike viewer cachedPage { cache with entries := Function.update cache.entries key entry }
      { cache' with entries := Function.update cache'.entries key entry } := by
  refine ⟨alike.connected, fun other => ?_⟩
  by_cases same : other = key
  · subst same
    exact Or.inl (by simp only [Function.update_self])
  · simp only [Function.update_of_ne same]
    exact alike.entries other

theorem whenConnected (alike : Alike viewer cachedPage cache cache') {changed changed' : Cache}
    (change : Alike viewer cachedPage changed changed') :
    Alike viewer cachedPage (if cache.connected then changed else cache)
      (if cache'.connected then changed' else cache') := by
  rw [alike.connected]
  split
  · exact change
  · exact alike

theorem setJson (alike : Alike viewer cachedPage cache cache') (key : Text) (value : Json) :
    Alike viewer cachedPage (cache.setJson key value) (cache'.setJson key value) :=
  alike.whenConnected (alike.update key (some value))

theorem del (alike : Alike viewer cachedPage cache cache') (key : Text) :
    Alike viewer cachedPage (cache.del key) (cache'.del key) :=
  alike.whenConnected (alike.update key none)

theorem delPattern (alike : Alike viewer cachedPage cache cache') (glob : Text → Text → Bool)
    (pattern : Text) :
    Alike viewer cachedPage (cache.delPattern glob pattern) (cache'.delPattern glob pattern) := by
  refine alike.whenConnected ⟨alike.connected, fun key => ?_⟩
  by_cases matched : glob pattern key
  · exact Or.inl (by simp only [matched, if_true])
  · simp only [matched, Bool.false_eq_true, if_false]
    exact alike.entries key

/-- A page read and cached in both. -/
theorem readBoth (alike : Alike viewer cachedPage cache cache') :
    Alike viewer (Watch.recorded cachedPage cache key page)
      (cache.setJson key (page.json service)) (cache'.setJson key (page.json service)) := by
  unfold Watch.recorded
  split
  · rename_i connected
    refine ⟨by simpa using alike.connected, fun other => ?_⟩
    by_cases same : other = key
    · subst same
      rw [Cache.setJson_self connected, Cache.setJson_self (alike.connected.trans connected)]
      exact Or.inl rfl
    · rw [Cache.setJson_other same, Cache.setJson_other same, Function.update_of_ne same]
      exact alike.entries other
  · exact alike.setJson key _

/-- A page read for somebody else, cached in the first only. -/
theorem readOther (alike : Alike viewer cachedPage cache cache') (listed : ListingKey key)
    (free : cache.connected = true → cache.entries key = none) (foreign : page.viewer ≠ viewer) :
    Alike viewer (Watch.recorded cachedPage cache key page)
      (cache.setJson key (page.json service)) cache' := by
  unfold Watch.recorded
  split
  · rename_i connected
    refine ⟨by simpa using alike.connected, fun other => ?_⟩
    by_cases same : other = key
    · subst same
      exact Or.inr ⟨listed, alike.absent (free connected), page, Function.update_self .., foreign⟩
    · rw [Cache.setJson_other same, Function.update_of_ne same]
      exact alike.entries other
  · rename_i unconnected
    rwa [Cache.setJson, if_neg unconnected]

end Alike

end

section

variable {backend : Backend Tables} {env : Environment}

/-- An unlisted request at most removes listed pages. -/
theorem answer_fewer (op : Op) (unlisted : Unlisted op) (w : World Tables) :
    Fewer w.cache (backend.answer env op w).2.cache := by
  intro key listed entry found
  cases op with
  | rpc function params => cases function <;> exact found
  | cacheSet other value ttlSeconds =>
    have different : key ≠ other := by
      rintro rfl
      exact unlisted listed
    exact (Cache.setJson_other different value).symm.trans found
  | cacheDel other => exact Cache.del_found found
  | cacheDelPattern pattern => exact Cache.delPattern_found found
  | _ => exact found

variable {viewer : Text} {cachedPage : Text → Option Page}

/-- A world, and the same with a cache that lacks pages read for others. -/
def AlikeWorlds (viewer : Text) (cachedPage : Text → Option Page) (w w' : World Tables) : Prop :=
  ∃ cache, w' = { w with cache } ∧ Alike viewer cachedPage w.cache cache

/-- An unlisted request is answered alike. -/
theorem answer_alike (op : Op) (w w' : World Tables) (unlisted : Unlisted op)
    (alike : AlikeWorlds viewer cachedPage w w') :
    (backend.answer env op w').1 = (backend.answer env op w).1 ∧
      AlikeWorlds viewer cachedPage (backend.answer env op w).2 (backend.answer env op w').2 := by
  obtain ⟨cache, rfl, alike⟩ := alike
  cases op with
  | rpc function params => cases function <;> exact ⟨rfl, cache, rfl, alike⟩
  | cacheGet key =>
    exact ⟨alike.getJson_own fun page listed _ => absurd listed unlisted, cache, rfl, alike⟩
  | cacheSet key value ttlSeconds => exact ⟨rfl, _, rfl, alike.setJson key value⟩
  | cacheDel key => exact ⟨rfl, _, rfl, alike.del key⟩
  | cacheDelPattern pattern => exact ⟨rfl, _, rfl, alike.delPattern backend.glob pattern⟩
  | _ => exact ⟨rfl, cache, rfl, alike⟩

end

namespace Site

variable {platform : Platform} {viewer : Text} {cachedPage : Text → Option Page}
variable {user : Option AuthenticatedUser} {env : Environment} {request : Request}

def withCache (s : Site) (cache : Cache) : Site := { s with world := { s.world with cache } }

/-- A site, and the same with a cache that lacks pages read for others. -/
def AlikeSites (viewer : Text) (cachedPage : Text → Option Page) (s s' : Site) : Prop :=
  ∃ cache, s' = s.withCache cache ∧ Alike viewer cachedPage s.world.cache cache

theorem handle_anonymous (listing : request.listing.isSome) (s : Site) :
    (s.handle platform none env request).2 = s := by
  obtain ⟨⟨key, function, params⟩, listing⟩ := Option.isSome_iff_exists.mp listing
  have unknown : (s.calledBy env.context none).auth.getUser env.context = none := by
    simp [calledBy, AuthMiddleware.getUser]
  simp only [handle, listing_anonymous listing unknown]
  rfl

theorem handle_fewer (other : request.listing = none) (s : Site) :
    Fewer s.world.cache (s.handle platform user env request).2.world.cache := by
  have kept : ∀ op w, Unlisted op → Fewer s.world.cache w.cache →
      True ∧ Fewer s.world.cache (platform.backend.answer env op w).2.cache :=
    fun op w unlisted fewer => ⟨trivial, fun key listed entry found =>
      fewer key listed entry (answer_fewer op unlisted w key listed entry found)⟩
  exact Program.Within.invariant (handle_unlisting platform.app request other)
    (fun _ _ _ found => found) kept

theorem handle_alike (other : request.listing = none) (s s' : Site)
    (alike : AlikeSites viewer cachedPage s s') :
    AlikeSites viewer cachedPage (s.handle platform user env request).2
      (s'.handle platform user env request).2 := by
  obtain ⟨cache, rfl, alike⟩ := alike
  have called : AlikeWorlds viewer cachedPage (s.calledBy env.context user)
      { s.calledBy env.context user with cache } := ⟨cache, rfl, alike⟩
  have answered : ∀ op w w', Unlisted op → AlikeWorlds viewer cachedPage w w' →
      (platform.backend.answer env op w').1 = (platform.backend.answer env op w).1 ∧
        AlikeWorlds viewer cachedPage (platform.backend.answer env op w).2
          (platform.backend.answer env op w').2 := answer_alike
  obtain ⟨_, cache', same, later⟩ := Program.Within.simulation
    (handle_unlisting platform.app request other) called answered
  refine ⟨cache', ?_, later⟩
  exact congrArg (fun w : World Tables =>
    { s with world := { w with auth := { w.auth with users := s.world.auth.users } } }) same

theorem cdn_cache (op : CdnOp) (s : Site) :
    (answer platform op s).2.world.cache = s.world.cache := by
  cases op with
  | select query =>
    simp only [answer]
    split
    · split <;> rfl
    · rfl
  | upsert table row =>
    simp only [answer]
    split <;> rfl
  | putObject =>
    simp only [answer]
    split <;> rfl
  | _ => rfl

theorem route_cache (request : CdnRequest) (s : Site) :
    (s.route platform request).2.world.cache = s.world.cache := by
  have kept : ∀ op s', True → s'.world.cache = s.world.cache →
      True ∧ (answer platform op s').2.world.cache = s.world.cache :=
    fun op s' _ same => ⟨trivial, (cdn_cache op s').trans same⟩
  have any : (CdnServer.route platform.cdn request).Within (fun _ => True) fun _ _ => True :=
    Program.within_any _
  refine any.invariant ?_ kept
  rfl

theorem cdn_alike (op : CdnOp) (s s' : Site) (alike : AlikeSites viewer cachedPage s s') :
    (answer platform op s').1 = (answer platform op s).1 ∧
      AlikeSites viewer cachedPage (answer platform op s).2 (answer platform op s').2 := by
  obtain ⟨cache, rfl, alike⟩ := alike
  cases op with
  | select query =>
    simp only [answer, withCache]
    split
    · split <;> exact ⟨rfl, cache, rfl, alike⟩
    · exact ⟨rfl, cache, rfl, alike⟩
  | upsert table row =>
    simp only [answer, withCache]
    split <;> exact ⟨rfl, cache, rfl, alike⟩
  | putObject =>
    by_cases takes : platform.takes s.world.drawn
    · simp only [answer, withCache, takes, if_true]
      exact ⟨trivial, cache, rfl, alike⟩
    · simp only [answer, withCache, takes, Bool.false_eq_true, if_false]
      exact ⟨trivial, cache, rfl, alike⟩
  | _ => exact ⟨rfl, cache, rfl, alike⟩

theorem route_alike (request : CdnRequest) (s s' : Site)
    (alike : AlikeSites viewer cachedPage s s') :
    AlikeSites viewer cachedPage (s.route platform request).2 (s'.route platform request).2 :=
  (Program.Within.simulation (Program.within_any _) alike
    fun op s s' _ alike => cdn_alike op s s' alike).2

theorem work_cache (s : Site) (removed : Bool) : (s.work removed).world.cache = s.world.cache := by
  unfold work
  split <;> rfl

/-- What is not a listing for somebody at most removes listed pages. -/
theorem step_fewer (event : Event) (s : Site) (unlisted : event.lister = none) :
    Fewer s.world.cache (s.step platform event).world.cache := by
  intro key listed entry found
  cases event with
  | call user env request =>
    cases listing : request.listing with
    | none => exact handle_fewer listing s key listed entry found
    | some asked =>
      cases user with
      | none =>
        rw [step, handle_anonymous (by simp [listing])] at found
        exact found
      | some user => simp [Event.lister, listing] at unlisted
  | cdn request =>
    rw [step, route_cache] at found
    exact found
  | work removed =>
    rw [step, work_cache] at found
    exact found
  | expire other => exact Cache.update_none_found found
  | clock now => exact found

/-- What is not a listing for somebody goes alike. -/
theorem step_alike (event : Event) (s s' : Site) (unlisted : event.lister = none)
    (alike : AlikeSites viewer cachedPage s s') :
    AlikeSites viewer cachedPage (s.step platform event) (s'.step platform event) := by
  cases event with
  | call user env request =>
    cases listing : request.listing with
    | none => exact handle_alike listing s s' alike
    | some asked =>
      cases user with
      | none =>
        rw [step, step, handle_anonymous (by simp [listing]), handle_anonymous (by simp [listing])]
        exact alike
      | some user => simp [Event.lister, listing] at unlisted
  | cdn request => exact route_alike request s s' alike
  | work removed =>
    obtain ⟨cache, rfl, alike⟩ := alike
    simp only [step, work, withCache]
    split <;> exact ⟨cache, rfl, alike⟩
  | expire key =>
    obtain ⟨cache, rfl, alike⟩ := alike
    exact ⟨_, rfl, alike.update key none⟩
  | clock now =>
    obtain ⟨cache, rfl, alike⟩ := alike
    exact ⟨cache, rfl, alike⟩

section

variable {caller : AuthenticatedUser} {key : Text} {function : StoredFunction}
variable {params : Text → Json} {page : Page} (s : Site)

theorem getUser_calledBy (context : Address) (user : Option AuthenticatedUser) :
    (s.calledBy context user).auth.getUser context = user := by
  simp [calledBy, AuthMiddleware.getUser]

theorem handle_hit (listing : request.listing = some (key, function, params))
    (cached : rows? (s.world.cache.getJson key) = some (page.elements platform.service)) :
    s.handle platform (some caller) env request =
      (.ok (.ok (.postList (page.posts platform.service))), s) := by
  simp only [handle, listing_hit listing (s.getUser_calledBy env.context (some caller)) cached
    (page.parsePosts_elements platform.service)]
  rfl

theorem handle_miss (listing : request.listing = some (key, function, params))
    (missed : rows? (s.world.cache.getJson key) = none)
    (read : request.rows platform.service s.world.database = some rows) :
    s.handle platform (some caller) env request =
      (.ok (.ok (.postList (Page.posts platform.service ⟨caller.id, s.world.database, rows⟩))),
        { s with world := { s.world with
          cache := s.world.cache.setJson key
            (Page.json platform.service ⟨caller.id, s.world.database, rows⟩) } }) := by
  simp only [handle, listing_miss listing (s.getUser_calledBy env.context (some caller)) missed read]
  rfl

theorem handle_refused (listing : request.listing = some (key, function, params))
    (missed : rows? (s.world.cache.getJson key) = none)
    (refused : request.rows platform.service s.world.database = none) :
    s.handle platform (some caller) env request = (.ok (.ok (.postList [])), s) := by
  simp only [handle, listing_refused listing (s.getUser_calledBy env.context (some caller)) missed
    refused]
  rfl

end

end Site

theorem Page.posts_flag {page : Page} {service : DatabaseService} {post : Post}
    (shown : post ∈ page.posts service) :
    ∃ row ∈ page.rows, post.id = row.1.id ∧
      post.isLikedByMe = decide ((page.viewer, row.1.id) ∈ page.tables.likes) := by
  obtain ⟨row, member, rfl⟩ := List.mem_map.mp shown
  exact ⟨row, member, rfl, rfl⟩

namespace Watch

variable {platform : Platform} {watch : Watch}

theorem step_unlisted (event : Site.Event) (unlisted : event.lister = none) :
    watch.step platform event = { watch with site := watch.site.step platform event } := by
  cases event with
  | call user env request =>
    cases user with
    | none => rfl
    | some caller =>
      cases listing : request.listing with
      | none => simp only [step, listing]
      | some asked => simp [Site.Event.lister, listing] at unlisted
  | _ => rfl

theorem step_listed (platform : Platform) (event : Site.Event) (viewer : Text) (listed : event.lister = some viewer) :
    ∃ caller env request key function params, event = .call (some caller) env request ∧
      caller.id = viewer ∧ request.listing = some (key, function, params) ∧
      ∀ watch : Watch, watch.step platform event = watch.listed platform caller env request key := by
  cases event with
  | call user env request =>
    cases user with
    | none => cases listed
    | some caller =>
      cases listing : request.listing with
      | none => simp [Site.Event.lister, listing] at listed
      | some asked =>
        obtain ⟨key, function, params⟩ := asked
        have same : caller.id = viewer := by simpa [Site.Event.lister, listing] using listed
        exact ⟨caller, env, request, key, function, params, rfl, same, listing,
          fun watch => by simp only [step, listing]⟩
  | _ => cases listed

section

variable {caller : AuthenticatedUser} {env : Environment} {request : Request}
variable {key : Text} {function : StoredFunction} {params : Text → Json}

theorem listed_holds (listing : request.listing = some (key, function, params))
    (holds : Holds platform.service watch.cachedPage watch.site.world.cache) :
    Holds platform.service (watch.listed platform caller env request key).cachedPage
      (watch.listed platform caller env request key).site.world.cache := by
  simp only [listed, readPage]
  cases found : rows? (watch.site.world.cache.getJson key) with
  | some elements =>
    obtain ⟨_, page, _, _, rfl⟩ := holds.hit (listingKey_of_listing listing) found
    rw [Site.handle_hit _ listing found]
    exact holds
  | none =>
    cases read : request.rows platform.service watch.site.world.database with
    | none =>
      rw [Site.handle_refused _ listing found read]
      exact holds
    | some rows =>
      rw [Site.handle_miss _ listing found read]
      exact holds.recorded

/-- What a listing that finds an own page or none answers. -/
theorem listed_ownLikes (listing : request.listing = some (key, function, params))
    (holds : Holds platform.service watch.cachedPage watch.site.world.cache)
    (own : watch.OwnPage caller.id key) :
    Answer.OwnLikes ⟨caller.id, watch.site.world.database.likes,
      (watch.site.handle platform (some caller) env request).1⟩ := by
  intro post shown
  simp only [Answer.posts] at shown ⊢
  cases found : rows? (watch.site.world.cache.getJson key) with
  | some elements =>
    obtain ⟨_, page, known, _, rfl⟩ := holds.hit (listingKey_of_listing listing) found
    obtain ⟨page', known', viewer, unchanged⟩ := own (by rw [found]; rfl)
    obtain rfl : page = page' := Option.some.inj (known.symm.trans known')
    rw [Site.handle_hit _ listing found] at shown
    obtain ⟨row, member, id, flag⟩ := Page.posts_flag shown
    rw [flag, id, viewer]
    exact decide_eq_decide.mpr (unchanged row member)
  | none =>
    cases read : request.rows platform.service watch.site.world.database with
    | none =>
      rw [Site.handle_refused _ listing found read] at shown
      cases shown
    | some rows =>
      rw [Site.handle_miss _ listing found read] at shown
      obtain ⟨row, member, id, flag⟩ := Page.posts_flag shown
      rw [flag, id]

end

/-- What holds after every run in which listings find own pages only. -/
structure Kept (platform : Platform) (watch : Watch) : Prop where
  pages : Holds platform.service watch.cachedPage watch.site.world.cache
  answers : ∀ answer ∈ watch.answers, answer.OwnLikes

theorem step_kept (event : Site.Event) (kept : Kept platform watch) (own : watch.FindsOwn event) :
    Kept platform (watch.step platform event) := by
  cases lists : event.lister with
  | none =>
    rw [step_unlisted event lists]
    exact ⟨kept.pages.mono (Site.step_fewer event watch.site lists), kept.answers⟩
  | some viewer =>
    obtain ⟨caller, env, request, key, function, params, rfl, rfl, listing, stepped⟩ :=
      step_listed platform event viewer lists
    rw [stepped]
    refine ⟨listed_holds listing kept.pages, fun answer member => ?_⟩
    rcases List.mem_append.mp member with earlier | last
    · exact kept.answers answer earlier
    · rw [List.mem_singleton.mp last]
      exact listed_ownLikes listing kept.pages (own _ listing)

/-- A watch, and one in which only the viewer has listed: they answer the viewer the same. -/
structure Twin (platform : Platform) (viewer : Text) (watch twin : Watch) : Prop where
  pages : Holds platform.service watch.cachedPage watch.site.world.cache
  sites : Site.AlikeSites viewer watch.cachedPage watch.site twin.site
  answers : twin.answersTo viewer = watch.answersTo viewer

section

variable {caller : AuthenticatedUser} (env : Environment) {request : Request}
variable {key : Text} {function : StoredFunction} {params : Text → Json} {s' : Site}

/-- The viewer's own listing is answered the same. -/
theorem listed_same (listing : request.listing = some (key, function, params))
    (holds : Holds platform.service watch.cachedPage watch.site.world.cache)
    (own : watch.OwnPage caller.id key)
    (alike : Site.AlikeSites caller.id watch.cachedPage watch.site s') :
    (s'.handle platform (some caller) env request).1 =
        (watch.site.handle platform (some caller) env request).1 ∧
      Site.AlikeSites caller.id (watch.listed platform caller env request key).cachedPage
        (watch.listed platform caller env request key).site
        (s'.handle platform (some caller) env request).2 := by
  obtain ⟨cache, rfl, alike⟩ := alike
  have listingKey := listingKey_of_listing listing
  simp only [listed, readPage]
  cases found : rows? (watch.site.world.cache.getJson key) with
  | some elements =>
    obtain ⟨_, page, known, _, rfl⟩ := holds.hit listingKey found
    obtain ⟨page', known', viewer, _⟩ := own (by rw [found]; rfl)
    obtain rfl : page = page' := Option.some.inj (known.symm.trans known')
    have same : cache.getJson key = watch.site.world.cache.getJson key :=
      alike.getJson_own fun page' _ known' => by
        rw [← Option.some.inj (known.symm.trans known'), viewer]
    rw [Site.handle_hit _ listing found,
      Site.handle_hit (watch.site.withCache cache) listing (same ▸ found)]
    exact ⟨rfl, cache, rfl, alike⟩
  | none =>
    have missed : rows? (cache.getJson key) = none := alike.getJson_missed holds listingKey found
    cases read : request.rows platform.service watch.site.world.database with
    | none =>
      rw [Site.handle_refused _ listing found read,
        Site.handle_refused (watch.site.withCache cache) listing missed read]
      exact ⟨rfl, cache, rfl, alike⟩
    | some rows =>
      rw [Site.handle_miss _ listing found read,
        Site.handle_miss (watch.site.withCache cache) listing missed read]
      exact ⟨rfl, _, rfl, alike.readBoth⟩

/-- A listing of somebody else adds a page that the viewer's site lacks. -/
theorem listed_skipped {viewer : Text} (other : caller.id ≠ viewer)
    (listing : request.listing = some (key, function, params))
    (holds : Holds platform.service watch.cachedPage watch.site.world.cache)
    (alike : Site.AlikeSites viewer watch.cachedPage watch.site s') :
    Site.AlikeSites viewer (watch.listed platform caller env request key).cachedPage
      (watch.listed platform caller env request key).site s' := by
  obtain ⟨cache, rfl, alike⟩ := alike
  have listingKey := listingKey_of_listing listing
  simp only [listed, readPage]
  cases found : rows? (watch.site.world.cache.getJson key) with
  | some elements =>
    obtain ⟨_, page, _, _, rfl⟩ := holds.hit listingKey found
    rw [Site.handle_hit _ listing found]
    exact ⟨cache, rfl, alike⟩
  | none =>
    cases read : request.rows platform.service watch.site.world.database with
    | none =>
      rw [Site.handle_refused _ listing found read]
      exact ⟨cache, rfl, alike⟩
    | some rows =>
      rw [Site.handle_miss _ listing found read]
      exact ⟨cache, rfl, alike.readOther listingKey (holds.miss listingKey found) other⟩

end

variable {viewer : Text} {twin : Watch}

theorem step_twin (event : Site.Event) (own : watch.FindsOwn event)
    (kept : ∀ lister ∈ event.lister, lister = viewer) (related : Twin platform viewer watch twin) :
    Twin platform viewer (watch.step platform event) (twin.step platform event) := by
  cases lists : event.lister with
  | none =>
    rw [step_unlisted event lists, step_unlisted event lists]
    exact ⟨related.pages.mono (Site.step_fewer event watch.site lists),
      Site.step_alike event watch.site twin.site lists related.sites, related.answers⟩
  | some lister =>
    obtain ⟨caller, env, request, key, function, params, rfl, rfl, listing, stepped⟩ :=
      step_listed platform event lister lists
    obtain rfl : caller.id = viewer := kept _ lists
    obtain ⟨same, sites⟩ := listed_same env listing related.pages (own _ listing) related.sites
    rw [stepped, stepped]
    refine ⟨listed_holds listing related.pages, sites, ?_⟩
    have likes : twin.site.world.database.likes = watch.site.world.database.likes := by
      obtain ⟨cache, site, _⟩ := related.sites
      rw [site]
      rfl
    have answers := related.answers
    simp only [answersTo, listed, List.filter_append, same, likes] at answers ⊢
    rw [answers]

theorem step_skipped (event : Site.Event) (lists : event.lister = some lister)
    (other : lister ≠ viewer) (related : Twin platform viewer watch twin) :
    Twin platform viewer (watch.step platform event) twin := by
  obtain ⟨caller, env, request, key, function, params, rfl, rfl, listing, stepped⟩ :=
    step_listed platform event lister lists
  rw [stepped]
  refine ⟨listed_holds listing related.pages,
    listed_skipped env other listing related.pages related.sites, ?_⟩
  have answers := related.answers
  simp only [answersTo, listed, List.filter_append, List.filter_cons, other, decide_false,
    Bool.false_eq_true, if_false, List.filter_nil, List.append_nil] at answers ⊢
  exact answers

/-- The events without the listings of others. -/
def without (viewer : Text) (events : List Site.Event) : List Site.Event :=
  events.filter fun event => event.lister.all (· = viewer)

/-- While every listing finds at its key no page but an own one, every post answered says
whether its viewer likes it, and each viewer is answered as if nobody else had listed. -/
theorem run_ownAnswers (platform : Platform) (site : Site)
    (uncached : ∀ key, ListingKey key → site.world.cache.entries key = none)
    (run : Run (Guarded FindsOwn fun watch event after => after = watch.step platform event)
      (start site) events watch) :
    (∀ answer ∈ watch.answers, answer.OwnLikes) ∧ ∀ viewer, watch.answersTo viewer =
      ((without viewer events).foldl (step platform) (start site)).answersTo viewer := by
  have pages : Holds platform.service (start site).cachedPage (start site).site.world.cache := by
    intro key listed entry found
    rw [show (start site).site = site from rfl, uncached key listed] at found
    cases found
  constructor
  · have first : Kept platform (start site) := ⟨pages, fun answer member => by cases member⟩
    have last : Kept platform watch := run.invariant first fun before event after kept stepped => by
      obtain ⟨own, rfl⟩ := stepped
      exact step_kept event kept own
    exact last.answers
  · intro viewer
    have first : Twin platform viewer (start site) (start site) :=
      ⟨pages, ⟨_, rfl, .refl _⟩, rfl⟩
    have stays : ∀ before event after twin,
        Guarded FindsOwn (fun watch event after => after = watch.step platform event) before event
          after → event.lister.all (· = viewer) = true → Twin platform viewer before twin →
        Twin platform viewer after (twin.step platform event) := by
      rintro before event after twin ⟨own, rfl⟩ kept related
      refine step_twin event own (fun lister lists => ?_) related
      simpa [Option.mem_def.mp lists] using kept
    have skips : ∀ before event after twin,
        Guarded FindsOwn (fun watch event after => after = watch.step platform event) before event
          after → event.lister.all (· = viewer) = false → Twin platform viewer before twin →
        Twin platform viewer after twin := by
      rintro before event after twin ⟨_, rfl⟩ dropped related
      cases lists : event.lister with
      | none => simp [lists] at dropped
      | some lister => exact step_skipped event lists (by simpa [lists] using dropped) related
    have last := run.purged first stays skips
    exact last.answers.symm

def anasOnlyPost : Text := List.replicate 26 'p' ++ lit "0"

def anaPosts : Site.Event :=
  .call (some Site.ana) Site.localEnvironment (.createPost (lit "one") (lit "one") [])
def anaLikes : Site.Event :=
  .call (some Site.ana) Site.localEnvironment (.toggleLike anasOnlyPost)
def anaLists : Site.Event := .call (some Site.ana) Site.localEnvironment (.listFeed 1 20)
def biaLists : Site.Event := .call (some Site.bia) Site.localEnvironment (.listFeed 1 20)

/-- The second listing finds the page of the first one. -/
theorem anaLists_ownAnswers :
    let events := [anaPosts, anaLikes, anaLists, anaLists]
    let watch := events.foldl (step .plain) (start Site.empty)
    (∀ answer ∈ watch.answers, answer.OwnLikes) ∧ ∀ viewer, watch.answersTo viewer =
      ((without viewer events).foldl (step .plain) (start Site.empty)).answersTo viewer := by
  have own : ∀ watch : Watch, watch.OwnPage Site.ana.id (CrownServer.feedPageKey 1 20) →
      watch.FindsOwn anaLists := by
    rintro watch own _ ⟨⟩
    exact own
  have posts : ∀ watch : Watch, watch.FindsOwn anaPosts := by
    rintro watch _ ⟨⟩
  have likes : ∀ watch : Watch, watch.FindsOwn anaLikes := by
    rintro watch _ ⟨⟩
  have first : Run (Guarded FindsOwn fun watch event after => after = watch.step .plain event)
      (start Site.empty) [anaPosts, anaLikes]
        ([anaPosts, anaLikes].foldl (step .plain) (start Site.empty)) :=
    .cons ⟨posts _, rfl⟩ (.cons ⟨likes _, rfl⟩ .nil)
  have run := (first.snoc ⟨own _ (by with_unfolding_all decide), rfl⟩).snoc ⟨own _ (by with_unfolding_all decide), rfl⟩
  exact run_ownAnswers .plain Site.empty (fun _ _ => rfl) run

/-- Bia, who likes nothing, is told that she likes the post. -/
theorem anasPage_answered :
    let events := [anaPosts, anaLikes, anaLists, biaLists]
    Run (fun watch event after => after = watch.step .plain event) (start Site.empty) events
        (events.foldl (step .plain) (start Site.empty)) ∧
      ∃ answer ∈ (events.foldl (step .plain) (start Site.empty)).answers, ¬answer.OwnLikes :=
  ⟨Run.foldl (step .plain) _ _, by with_unfolding_all decide⟩

end Watch

end Crown
