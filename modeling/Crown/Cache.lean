import Crown.Json

/-! The Redis cache of `cache/cache.h`. An entry is the JSON value whose text is
stored; entries may expire at any moment after their time to live was set. -/
namespace Crown

open Lib

def cacheTtlPost : Nat := 300
def cacheTtlUser : Nat := 600
def cacheTtlFeed : Nat := 30
def cacheTtlPostCount : Nat := 300

/-- `CacheManager`: without a connection nothing is found and nothing is stored. -/
structure Cache where
  connected : Bool
  entries : Text → Option Json

namespace Cache

def postKey (id : Text) : Text := lit "post:" ++ id
def userKey (id : Text) : Text := lit "user:" ++ id
def handleKey (handle : Text) : Text := lit "handleuser:" ++ handle
def feedKey (page limit : Int) : Text :=
  lit "feed:" ++ Text.decimal page ++ lit ":" ++ Text.decimal limit
def userPostsKey (userId : Text) (page limit : Int) : Text :=
  lit "uposts:" ++ userId ++ lit ":" ++ Text.decimal page ++ lit ":" ++ Text.decimal limit
def likeKey (userId postId : Text) : Text := lit "like:" ++ userId ++ lit ":" ++ postId
def postCountKey (userId : Text) : Text := lit "pcount:" ++ userId

/-- A key of the feed says page and limit. -/
theorem feedKey_inj (same : feedKey page limit = feedKey page' limit') :
    page = page' ∧ limit = limit' := by
  have colon : lit ":" = [':'] := by with_unfolding_all decide
  simp only [feedKey, colon, List.append_assoc, List.singleton_append,
    List.append_cancel_left_eq] at same
  obtain ⟨pages, limits⟩ := Text.last_field_inj (Text.not_mem_decimal _ (by decide) (by decide))
    (Text.not_mem_decimal _ (by decide) (by decide)) same
  exact ⟨Text.decimal_inj pages, Text.decimal_inj limits⟩

/-- A key of an author's posts says author, page and limit; it is read from the right, as the
author's id may have colons of its own. -/
theorem userPostsKey_inj
    (same : userPostsKey userId page limit = userPostsKey userId' page' limit') :
    userId = userId' ∧ page = page' ∧ limit = limit' := by
  have colon : lit ":" = [':'] := by with_unfolding_all decide
  simp only [userPostsKey, colon, List.append_assoc, List.singleton_append,
    List.append_cancel_left_eq] at same
  have fields : ∀ (user first last : Text), user ++ (':' :: first ++ ':' :: last) =
      (user ++ ':' :: first) ++ ':' :: last := fun user first last => by simp
  rw [fields, fields] at same
  obtain ⟨fronts, limits⟩ := Text.last_field_inj (Text.not_mem_decimal _ (by decide) (by decide))
    (Text.not_mem_decimal _ (by decide) (by decide)) same
  obtain ⟨users, pages⟩ := Text.last_field_inj (Text.not_mem_decimal _ (by decide) (by decide))
    (Text.not_mem_decimal _ (by decide) (by decide)) fronts
  exact ⟨users, Text.decimal_inj pages, Text.decimal_inj limits⟩

/-- The pattern of `invalidate_feed`. -/
def feedPattern : Text := lit "feed:*"

/-- The pattern of `invalidate_user_posts`. -/
def userPostsPattern (userId : Text) : Text := lit "uposts:" ++ userId ++ lit ":*"

/-- The characters that have a meaning in a pattern. -/
def globChars : Text := ['*', '?', '[', ']', '\\', '^']

/-- What the server documents of patterns: a star matches everything, other characters
themselves. -/
def StarMatches (glob : Text → Text → Bool) : Prop :=
  ∀ start rest : Text, (∀ c ∈ start, c ∉ globChars) → glob (start ++ lit "*") (start ++ rest) = true

/-- `get_json`: null for what is not there. -/
def getJson (key : Text) (cache : Cache) : Json :=
  if cache.connected then (cache.entries key).getD .null else .null

def setJson (key : Text) (value : Json) (cache : Cache) : Cache :=
  if cache.connected then { cache with entries := Function.update cache.entries key (some value) }
  else cache

def del (key : Text) (cache : Cache) : Cache :=
  if cache.connected then { cache with entries := Function.update cache.entries key none }
  else cache

/-- `del_pattern`; the server matches keys against patterns by `glob`. -/
def delPattern (glob : Text → Text → Bool) (pattern : Text) (cache : Cache) : Cache :=
  if cache.connected then
    { cache with entries := fun key => if glob pattern key then none else cache.entries key }
  else cache

/-- The time to live of an entry runs out. -/
def expire (key : Text) (cache : Cache) : Cache :=
  { cache with entries := Function.update cache.entries key none }

section

variable {cache : Cache} {key other : Text} {entry : Json}

@[simp] theorem setJson_connected (key : Text) (value : Json) (cache : Cache) :
    (cache.setJson key value).connected = cache.connected := by
  unfold setJson
  split <;> rfl

theorem setJson_self (connected : cache.connected = true) (value : Json) :
    (cache.setJson key value).entries key = some value := by
  simp [setJson, connected]

theorem setJson_other (different : other ≠ key) (value : Json) :
    (cache.setJson key value).entries other = cache.entries other := by
  unfold setJson
  split
  · exact Function.update_of_ne different ..
  · rfl

theorem del_connected (key : Text) (cache : Cache) :
    (cache.del key).connected = cache.connected := by
  unfold del
  split <;> rfl

theorem delPattern_connected (glob : Text → Text → Bool) (pattern : Text) (cache : Cache) :
    (cache.delPattern glob pattern).connected = cache.connected := by
  unfold delPattern
  split <;> rfl

theorem update_none_found
    (found : Function.update cache.entries key none other = some entry) :
    cache.entries other = some entry := by
  by_cases same : other = key
  · subst same
    rw [Function.update_self] at found
    cases found
  · rwa [Function.update_of_ne same] at found

theorem del_found (found : (cache.del key).entries other = some entry) :
    cache.entries other = some entry := by
  unfold del at found
  split at found
  · exact update_none_found found
  · exact found

theorem delPattern_found {glob : Text → Text → Bool} {pattern : Text}
    (found : (cache.delPattern glob pattern).entries other = some entry) :
    cache.entries other = some entry := by
  unfold delPattern at found
  split at found
  · dsimp only at found
    split at found
    · cases found
    · exact found
  · exact found

end

end Cache
end Crown
