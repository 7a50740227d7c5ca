import Crown.RefusedCalls
import Crown.ShownCounts

/-! Whom `GetPost` answers. The method is public, so the interceptor reads no token of the call,
and the handler takes its viewer from what `users_` holds for the address of the context. -/
namespace Crown

open Lib Program

/-- The user of the valid token a call carries, whatever its method. -/
def tokenHolder (lib : Libraries) (arrival : Arrival) (auth : AuthMiddleware) :
    Option AuthenticatedUser :=
  if requestToken arrival.metadata = [] then none
  else
    match (auth.validator.validateToken lib arrival.env.around (requestToken arrival.metadata)).1 with
    | .ok (some user) => some user
    | _ => none

/-- The viewer `get_post` is called with. -/
def AuthMiddleware.viewerId (auth : AuthMiddleware) (context : Address) : Text :=
  match auth.getUser context with
  | some user => user.id
  | none => []

namespace Tables

/-- The row `get_post` finds. -/
def joinedPost (t : Tables) (postId : Text) : Option (PostRow × UserRow) :=
  ((t.posts.filter (·.id = postId)).filterMap fun post => (t.author post).map (post, ·)).head?

variable {t : Tables} {service : DatabaseService} {viewer postId : Text}

theorem joinedPost_id (joined : t.joinedPost postId = some row) : row.1.id = postId := by
  obtain ⟨post, member, author⟩ := List.mem_filterMap.mp (List.mem_of_head? joined)
  obtain ⟨_, -, rfl⟩ := Option.map_eq_some_iff.mp author
  exact of_decide_eq_true (List.mem_filter.mp member).2

theorem call_joinedPost : t.call service .getPost
    (.object [(lit "p_user_id", .string viewer), (lit "p_post_id", .string postId)]) =
      some (((t.joinedPost postId).map fun row =>
        t.viewedJson service viewer row.1 row.2).getD .null) := by
  have names : lit "p_user_id" ≠ lit "p_post_id" := by simp
  simp only [Tables.call, Json.text, Json.find, List.find?_cons, names, decide_true, decide_false,
    Option.map_some, joinedPost]
  cases (t.posts.filter (·.id = postId)).filterMap fun post => (t.author post).map (post, ·) <;> rfl

end Tables

section

variable {platform : Platform} {env : Environment} {w : World Tables} {postId : Text}

/-- What `GetPost` answers where it finds no entry. -/
theorem getPost_answer (missed : (w.cache.getJson (Cache.postKey postId)).isObject = false) :
    ((CrownServer.handle platform.app (.getPost postId)).run (platform.backend.answer env) w).1 =
      .ok (match w.database.joinedPost postId with
        | some row => .ok (.post (w.database.viewedPost platform.service
            (w.auth.viewerId env.context) row.1 row.2))
        | none => .error ⟨.notFound, lit "Post nao encontrado"⟩) := by
  have cached : platform.backend.answer env (.cacheGet (Cache.postKey postId)) w =
      (w.cache.getJson (Cache.postKey postId), w) := rfl
  have replied : platform.backend.answer env .getUser w = (w.auth.getUser env.context, w) := rfl
  have called : ∀ params, platform.backend.answer env (.rpc .getPost params) w =
      (w.database.call platform.service .getPost params, w) := fun _ => rfl
  rw [CrownServer.handle, run_recover]
  simp only [CrownServer.body, CrownServer.getPost, call_bind, run_perform, cached, missed,
    Bool.false_eq_true, if_false, replied, called, Tables.call_joinedPost]
  cases joined : w.database.joinedPost postId with
  | none => rfl
  | some row =>
    have known : ∀ viewer, ((w.database.viewedJson platform.service viewer row.1 row.2).present
        (lit "id")).isSome = true := fun viewer => by
      simp [Tables.viewedJson, Tables.viewedMembers, PostRow.members, Json.present, Json.find]
    simp only [Option.map_some, Option.getD_some, known, if_true, Tables.parsePost_viewedJson,
      liftM_eq, done_ok_bind, run_perform]
    rfl

end

/-- Every `GetPost` answer says whether the holder of the call's valid token likes the post, and
that a caller without a token does not. -/
def AnswersCaller (platform : Platform) (arrival : Arrival) (server : Server Tables) : Prop :=
  ∀ outcome after post, platform.backend.serve arrival server = some (outcome, after) →
    outcome.substituted = none → outcome.answered = .ok (.ok (.post post)) →
      (∀ user ∈ tokenHolder platform.app.lib arrival server.world.auth,
        post.isLikedByMe = decide ((user.id, post.id) ∈ server.world.database.likes)) ∧
      (requestToken arrival.metadata = [] → post.isLikedByMe = false)

section

variable {platform : Platform} {arrival : Arrival} {server : Server Tables} {postId : Text}

/-- A call of `GetPost` passes the interceptors as it came. -/
theorem serve_getPost (asked : arrival.request = .getPost postId)
    (configured : server.limiter.routes = configuredRoutes)
    (missed : (server.world.cache.getJson (Cache.postKey postId)).isObject = false) :
    ∃ outcome after, platform.backend.serve arrival server = some (outcome, after) ∧
      outcome.substituted = none ∧ outcome.answered =
        .ok (match server.world.database.joinedPost postId with
          | some row => .ok (.post (server.world.database.viewedPost platform.service
              (server.world.auth.viewerId arrival.env.context) row.1 row.2))
          | none => .error ⟨.notFound, lit "Post nao encontrado"⟩) := by
  have isPublic : isPublicMethod arrival.request.method = true := by
    rw [asked, isPublicMethod_method]
  have ran : server.world.auth.interceptToken platform.backend.app.lib arrival.env.around
      arrival.env.context arrival.request.method arrival.metadata = (.ok true, server.world.auth) := by
    rw [AuthMiddleware.interceptToken, if_pos isPublic]
  have allowed : server.limiter.allowRequest arrival.decidedAt arrival.recordedAt
      arrival.request.method (getClientIp arrival.metadata) = (true, server.limiter) := by
    rw [RateLimiter.allowRequest, findRoute_of_public configured _ isPublic]
  unfold Backend.serve
  simp only [ran, allowed]
  refine ⟨_, _, rfl, rfl, ?_⟩
  have answered := @getPost_answer platform arrival.env server.world postId missed
  rw [← asked] at answered
  exact answered

/-- `GetPost` answers its caller if and only if the viewer it takes from `users_` likes the post
just when the holder of the token does, and without a token does not. -/
theorem answersCaller_iff (asked : arrival.request = .getPost postId)
    (configured : server.limiter.routes = configuredRoutes)
    (missed : (server.world.cache.getJson (Cache.postKey postId)).isObject = false) :
    AnswersCaller platform arrival server ↔
      ((server.world.database.joinedPost postId).isSome →
        (∀ user ∈ tokenHolder platform.app.lib arrival server.world.auth,
          ((server.world.auth.viewerId arrival.env.context, postId) ∈ server.world.database.likes ↔
            (user.id, postId) ∈ server.world.database.likes)) ∧
        (requestToken arrival.metadata = [] →
          (server.world.auth.viewerId arrival.env.context, postId) ∉ server.world.database.likes)) := by
  obtain ⟨outcome, after, served, sent, answered⟩ :=
    @serve_getPost platform arrival server postId asked configured missed
  cases joined : server.world.database.joinedPost postId with
  | none =>
    rw [joined] at answered
    refine iff_of_true ?_ fun some => absurd some Bool.false_ne_true
    intro outcome' after' post served' _ answered'
    rw [served] at served'
    cases served'
    rw [answered] at answered'
    cases answered'
  | some row =>
    rw [joined] at answered
    have own := Tables.joinedPost_id joined
    constructor
    · intro answers _
      obtain ⟨holder, anonymous⟩ := answers outcome after _ served sent answered
      simp only [Tables.viewedPost, own, decide_eq_decide, decide_eq_false_iff_not] at holder anonymous
      exact ⟨holder, anonymous⟩
    · intro agree outcome' after' post served' _ answered'
      rw [served] at served'
      cases served'
      rw [answered] at answered'
      cases answered'
      simp only [Tables.viewedPost, own, decide_eq_decide, decide_eq_false_iff_not]
      exact agree rfl

/-- Who likes the post is told otherwise where `users_` names nobody who does. -/
theorem not_answersCaller_of_liked (asked : arrival.request = .getPost postId)
    (configured : server.limiter.routes = configuredRoutes)
    (missed : (server.world.cache.getJson (Cache.postKey postId)).isObject = false)
    (joined : server.world.database.joinedPost postId = some row)
    (holder : tokenHolder platform.app.lib arrival server.world.auth = some user)
    (liked : (user.id, postId) ∈ server.world.database.likes)
    (unknown : (server.world.auth.viewerId arrival.env.context, postId) ∉
      server.world.database.likes) :
    ¬AnswersCaller platform arrival server := by
  intro answers
  obtain ⟨outcome, after, served, sent, answered⟩ :=
    @serve_getPost platform arrival server postId asked configured missed
  rw [joined] at answered
  have told := (answers outcome after _ served sent answered).1 user holder
  simp only [Tables.viewedPost, Tables.joinedPost_id joined, decide_eq_decide] at told
  exact unknown (told.mpr liked)

end

open JwtValidator (publishedKey tokenLibraries tokenSurroundings tokenUser signedToken ownPart)

/-- One post, which the holder of the token wrote and likes. -/
def likedTables : Tables where
  users := [⟨tokenUser.id, [], [], [], [], [], 0, 0, 0, 0⟩]
  posts := [⟨['p'], tokenUser.id, [], [], [], 1, 0, 0⟩]
  likes := [(tokenUser.id, ['p'])]
  media := []
  now := 0

def likedServer (users : Address → Option AuthenticatedUser) : Server Tables where
  world := ⟨likedTables, ⟨true, fun _ => none⟩, ⟨users, ⟨[publishedKey], 0⟩⟩, 0, []⟩
  limiter := ⟨configuredRoutes, fun _ _ => []⟩

def tokenPlatform : Platform := { Platform.plain with app := likesBackend.app }

def tokenArrival : Arrival where
  metadata := [(lit "authorization", lit "Bearer " ++ signedToken ownPart)]
  request := .getPost ['p']
  env := ⟨0, fun _ => none, tokenSurroundings⟩
  decidedAt := 120
  recordedAt := 120

theorem tokenArrival_holder (users : Address → Option AuthenticatedUser) :
    requestToken tokenArrival.metadata ≠ [] ∧
      tokenHolder tokenPlatform.app.lib tokenArrival (likedServer users).world.auth =
        some tokenUser := by
  have nonempty : signedToken ownPart ≠ [] :=
    List.append_ne_nil_of_right_ne_nil _ (List.cons_ne_nil _ _)
  have carried : requestToken tokenArrival.metadata = signedToken ownPart :=
    requestToken_bearer nonempty
  have validated : (likedServer users).world.auth.validator.validateToken tokenPlatform.app.lib
      tokenArrival.env.around (signedToken ownPart) = (.ok (some tokenUser), ⟨[publishedKey], 0⟩) :=
    JwtValidator.validateToken_own
  rw [tokenHolder, carried, if_neg nonempty, validated]
  exact ⟨nonempty, rfl⟩

/-- An earlier call of the same user has left its entry at the address. -/
theorem enteredUser_answered :
    AnswersCaller tokenPlatform tokenArrival (likedServer fun _ => some tokenUser) := by
  obtain ⟨nonempty, holder⟩ := tokenArrival_holder fun _ => some tokenUser
  have asked : tokenArrival.request = .getPost ['p'] := rfl
  refine (answersCaller_iff asked rfl rfl).mpr fun _ => ⟨fun user member => ?_, ?_⟩
  · rw [holder] at member
    cases member
    exact Iff.rfl
  · exact fun missing => absurd missing nonempty

theorem unknownUser_misanswered :
    ¬AnswersCaller tokenPlatform tokenArrival (likedServer fun _ => none) := by
  have unknown : ([], ['p']) ∉ likedTables.likes := by
    have named : lit "7" ≠ [] := by with_unfolding_all decide
    simp [likedTables, tokenUser, named]
  have joined : (likedTables.joinedPost ['p']).isSome = true := by
    simp [Tables.joinedPost, Tables.author, likedTables]
  obtain ⟨row, joined⟩ := Option.isSome_iff_exists.mp joined
  exact not_answersCaller_of_liked rfl rfl rfl joined (tokenArrival_holder _).2
    (List.mem_singleton_self _) unknown

end Crown
