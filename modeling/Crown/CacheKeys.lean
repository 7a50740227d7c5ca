import Crown.ListingKeys

/-! The keys under which entries are stored. Page and limit are `int`s in a key, and ids and
handles are any text of a client; still a key says which builder made it and of what. -/
namespace Crown

open Lib Program

/-- A builder of `CacheManager` and its arguments, page and limit as a request has them. -/
inductive CacheKey where
  | post (id : Text)
  | user (id : Text)
  | handle (name : Text)
  | feed (page limit : UInt32)
  | userPosts (userId : Text) (page limit : UInt32)
  | postCount (userId : Text)

namespace CacheKey

/-- The key that is built; page and limit become `int`s on the way. -/
def stored : CacheKey → Text
  | .post id => Cache.postKey id
  | .user id => Cache.userKey id
  | .handle name => Cache.handleKey name
  | .feed page limit => Cache.feedKey (toInt32 page.toNat) (toInt32 limit.toNat)
  | .userPosts userId page limit =>
    Cache.userPostsKey userId (toInt32 page.toNat) (toInt32 limit.toNat)
  | .postCount userId => Cache.postCountKey userId

/-- What the builder puts in front of the first colon. -/
def start : CacheKey → Text
  | .post _ => lit "post"
  | .user _ => lit "user"
  | .handle _ => lit "handleuser"
  | .feed .. => lit "feed"
  | .userPosts .. => lit "uposts"
  | .postCount _ => lit "pcount"

theorem before_prefixed (name prefixed : Text) (ends : prefixed = name ++ [':'] ∧ ':' ∉ name)
    (arguments : Text) : Text.before ':' (prefixed ++ arguments) = name := by
  obtain ⟨rfl, plain⟩ := ends
  rw [List.append_assoc, Text.before_append plain]
  simp

/-- No argument stands in front of the first colon. -/
theorem before_stored (key : CacheKey) : Text.before ':' key.stored = key.start := by
  cases key with
  | post id => exact before_prefixed (lit "post") (lit "post:") (by with_unfolding_all decide) id
  | user id => exact before_prefixed (lit "user") (lit "user:") (by with_unfolding_all decide) id
  | handle name =>
    exact before_prefixed (lit "handleuser") (lit "handleuser:") (by with_unfolding_all decide) name
  | feed page limit =>
    simp only [stored, Cache.feedKey, List.append_assoc]
    exact before_prefixed (lit "feed") (lit "feed:") (by with_unfolding_all decide) _
  | userPosts userId page limit =>
    simp only [stored, Cache.userPostsKey, List.append_assoc]
    exact before_prefixed (lit "uposts") (lit "uposts:") (by with_unfolding_all decide) _
  | postCount userId =>
    exact before_prefixed (lit "pcount") (lit "pcount:") (by with_unfolding_all decide) userId

/-- The builder is told by its start; the numbers are read from behind. -/
theorem eq_of_stored {a b : CacheKey} (same : a.stored = b.stored) : a = b := by
  have starts : a.start = b.start := by rw [← before_stored, ← before_stored, same]
  cases a <;> cases b <;> simp only [start, lit_inj, String.reduceEq] at starts
  case post.post id id' => exact congrArg post (List.append_cancel_left same)
  case user.user id id' => exact congrArg user (List.append_cancel_left same)
  case handle.handle name name' => exact congrArg handle (List.append_cancel_left same)
  case postCount.postCount userId userId' =>
    exact congrArg postCount (List.append_cancel_left same)
  case feed.feed page limit page' limit' =>
    obtain ⟨pages, limits⟩ := Cache.feedKey_inj same
    rw [toInt32_toNat_inj pages, toInt32_toNat_inj limits]
  case userPosts.userPosts userId page limit userId' page' limit' =>
    obtain ⟨users, pages, limits⟩ := Cache.userPostsKey_inj same
    rw [users, toInt32_toNat_inj pages, toInt32_toNat_inj limits]

theorem stored_injective : Function.Injective stored := fun _ _ same => eq_of_stored same

end CacheKey

/-- A handler reads and stores entries under built keys only. -/
theorem stored_of_usesKey {request : Request} (uses : request.UsesKey key) :
    ∃ entry : CacheKey, entry.stored = key := by
  cases request with
  | getPost postId =>
    cases uses
    exact ⟨.post postId, rfl⟩
  | listFeed page limit =>
    cases uses
    exact ⟨.feed (CrownServer.pageOrFirst page) (CrownServer.limitOrDefault limit), rfl⟩
  | listUserPosts userId page limit =>
    cases uses
    exact ⟨.userPosts userId (CrownServer.pageOrFirst page) (CrownServer.limitOrDefault limit), rfl⟩
  | getUserById userId =>
    cases uses
    exact ⟨.user userId, rfl⟩
  | getUserByHandle handle =>
    cases uses
    exact ⟨.handle (CrownServer.bareHandle handle), rfl⟩
  | login authorizationCode redirectUri =>
    obtain ⟨userId, rfl⟩ := uses
    exact ⟨.postCount userId, rfl⟩
  | _ => exact uses.elim

/-- Every entry that a handler reads or stores is the entry of one builder and its arguments. -/
theorem handle_stored (app : AppContext) (request : Request) :
    Keyed (fun key => ∃! entry : CacheKey, entry.stored = key) (CrownServer.handle app request) :=
  (handle_keys app request).mono (OnKeys.mono fun _ uses => by
    obtain ⟨entry, built⟩ := stored_of_usesKey uses
    exact ⟨entry, built, fun other same => CacheKey.eq_of_stored (same.trans built.symm)⟩)

end Crown
