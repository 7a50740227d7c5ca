import Crown.Lib.Paging
import Crown.AuthorPosts
import Crown.PageWindows

/-! Reading a list page after page. The stored functions order posts by their time alone, so
each query arranges the posts of one time as it likes. -/
namespace Crown

open Lib
open Paging (Walk Falling Falls)

/-- What the keys of the schema promise of posts. -/
structure Tables.Keyed (t : Tables) : Prop where
  ids : (t.posts.map (·.id)).Nodup
  authors : ∀ post ∈ t.posts, ∃ u ∈ t.users, u.id = post.authorId

namespace Listing

def arguments (listing : Listing) (viewer : Text) (limit offset : Nat) : Json :=
  match listing with
  | .feed => .object [(lit "p_user_id", .string viewer), (lit "p_limit", .integer limit),
      (lit "p_offset", .integer offset)]
  | .userPosts userId => .object [(lit "p_user_id", .string viewer),
      (lit "p_author_id", .string userId), (lit "p_limit", .integer limit),
      (lit "p_offset", .integer offset)]

/-- The rows on a page; the query for each page has an order of its own. -/
def answer (listing : Listing) (t : Tables) (service : DatabaseService)
    (orders : Nat → NewestFirst) (viewer : Text) (limit page : Nat) : Option (List Json) :=
  match t.call { service with newestFirst := orders page } listing.function
    (listing.arguments viewer limit (page * limit)) with
  | some (.array rows) => some rows
  | _ => none

/-- Page after page until an empty one, the answers contain every post once. -/
def ListsOnce (listing : Listing) (t : Tables) (limit : Nat) : Prop :=
  ∀ service orders viewer, ∃ rows, Walk (listing.answer t service orders viewer limit) 0 rows ∧
    (rows.map (Json.text (lit "id"))).Perm ((listing.posts t).map (·.id))

/-- The times of the posts, the newest first. -/
def times (listing : Listing) (t : Tables) : List Int :=
  (NewestFirst.stable.arrange (listing.posts t)).map (·.createdAt)

/-- A page starts with the time at which the one before it ended. -/
def Straddled (listing : Listing) (t : Tables) (limit : Nat) : Prop :=
  ∃ page, (page + 1) * limit < (listing.times t).length ∧
    (listing.times t)[(page + 1) * limit - 1]? = (listing.times t)[(page + 1) * limit]?

theorem author_isSome_of_keyed {t : Tables} (keyed : t.Keyed) (listing : Listing) :
    ∀ post ∈ listing.posts t, (t.author post).isSome := by
  intro post member
  have stored : post ∈ t.posts := by
    cases listing with
    | feed => exact member
    | userPosts userId => exact List.mem_of_mem_filter member
  obtain ⟨author, known, own⟩ := keyed.authors post stored
  apply List.find?_isSome.mpr
  exact ⟨author, known, decide_eq_true own⟩

/-- The posts with their authors as a query arranges them. -/
def arranged (listing : Listing) (t : Tables) (order : NewestFirst) : List (PostRow × UserRow) :=
  (order.arrange (listing.posts t)).filterMap fun post => (t.author post).map (post, ·)

theorem call_arguments (listing : Listing) (t : Tables) (service : DatabaseService)
    (viewer : Text) (limit offset : Nat) :
    t.call service listing.function (listing.arguments viewer limit offset) =
      t.pageReply service viewer (t.page service (listing.posts t) limit offset) := by
  cases listing <;>
    simp [function, arguments, posts, Tables.call, Json.text, Json.int, Json.find]

theorem answer_eq (listing : Listing) (t : Tables) (service : DatabaseService)
    (orders : Nat → NewestFirst) (viewer : Text) (limit page : Nat) :
    listing.answer t service orders viewer limit page =
      some ((((listing.arranged t (orders page)).drop (page * limit)).take limit).map
        fun row => t.viewedJson service viewer row.1 row.2) := by
  rw [answer, call_arguments, Tables.page, if_neg (by omega), Int.toNat_natCast,
    Int.toNat_natCast]
  rfl

section

variable {t : Tables} {limit : Nat} {listing : Listing}

theorem arranged_posts (keyed : t.Keyed) (listing : Listing) (order : NewestFirst) :
    (listing.arranged t order).map (·.1) = order.arrange (listing.posts t) := by
  apply Tables.filterMap_author
  intro post member
  exact author_isSome_of_keyed keyed listing post ((order.perm _).mem_iff.mp member)

theorem arranged_perm (listing : Listing) (t : Tables) (order order' : NewestFirst) :
    (listing.arranged t order).Perm (listing.arranged t order') :=
  ((order.perm _).trans (order'.perm _).symm).filterMap _

theorem arranged_falling (keyed : t.Keyed) (listing : Listing) (order : NewestFirst) :
    Falling (·.1.createdAt) (listing.arranged t order) := by
  have sorted := order.sorted (listing.posts t)
  rw [← arranged_posts keyed] at sorted
  exact List.pairwise_map.mp sorted

theorem arranged_times (keyed : t.Keyed) (listing : Listing) (order : NewestFirst) :
    (listing.arranged t order).map (·.1.createdAt) = listing.times t := by
  rw [Paging.keys_eq (arranged_falling keyed listing order)
    (arranged_falling keyed listing .stable) (arranged_perm ..), times, ← arranged_posts keyed,
    List.map_map]
  rfl

theorem author_of_arranged {order : NewestFirst} {row : PostRow × UserRow}
    (member : row ∈ listing.arranged t order) : t.author row.1 = some row.2 := by
  obtain ⟨post, -, shown⟩ := List.mem_filterMap.mp member
  obtain ⟨author, own, rfl⟩ := Option.map_eq_some_iff.mp shown
  exact own

theorem viewedJson_id (service : DatabaseService) (t : Tables) (viewer : Text)
    (row : PostRow × UserRow) :
    (t.viewedJson service viewer row.1 row.2).text (lit "id") = row.1.id := by
  simp [Tables.viewedJson, Tables.viewedMembers, PostRow.members, Json.text, Json.find]

/-- The keys fall where pages start, unless one starts with the time at which another ended. -/
theorem falls_of_not_straddled (keyed : t.Keyed) (listing : Listing)
    (apart : ¬listing.Straddled t limit) (page : Nat) :
    Falls (listing.times t) (page * limit) := by
  have falling : (listing.times t).Pairwise fun a b => b ≤ a := by
    rw [← arranged_times keyed listing .stable]
    exact List.pairwise_map.mpr (arranged_falling keyed listing .stable)
  apply (Paging.falls_iff falling _).mpr
  intro later inside tied
  cases page with
  | zero => omega
  | succ page => exact apart ⟨page, inside, tied⟩

theorem listsOnce_of_not_straddled (keyed : t.Keyed) (positive : 0 < limit)
    (apart : ¬listing.Straddled t limit) : listing.ListsOnce t limit := by
  intro service orders viewer
  have falls := falls_of_not_straddled keyed listing apart
  rw [← arranged_times keyed listing .stable] at falls
  obtain ⟨rows, walk, perm⟩ := Paging.walk_perm positive
    (listing.answer_eq t service orders viewer limit)
    (fun page => listing.arranged_perm t (orders page) .stable)
    (fun page => (arranged_times keyed listing _).trans (arranged_times keyed listing _).symm)
    falls 0
  refine ⟨rows, walk, ?_⟩
  rw [Nat.zero_mul, List.drop_zero] at perm
  have shown : ((listing.arranged t .stable).map fun row =>
      t.viewedJson service viewer row.1 row.2).map (Json.text (lit "id")) =
        (NewestFirst.stable.arrange (listing.posts t)).map (·.id) := by
    rw [← arranged_posts keyed, List.map_map, List.map_map]
    exact List.map_congr_left fun row _ => viewedJson_id service t viewer row
  apply (perm.map _).trans
  rw [shown]
  exact (NewestFirst.stable.perm _).map _

end

end Listing

/-- The posts of one list arranged as given. -/
def NewestFirst.choosing (posts arranged : List PostRow) (perm : arranged.Perm posts)
    (sorted : arranged.Pairwise fun a b => b.createdAt ≤ a.createdAt) : NewestFirst where
  arrange rows := if rows = posts then arranged else stable.arrange rows
  perm rows := by
    split
    · rename_i same
      rw [same]
      exact perm
    · exact stable.perm rows
  sorted rows := by
    split
    · exact sorted
    · exact stable.sorted rows

theorem NewestFirst.choosing_arrange {posts arranged : List PostRow} (perm : arranged.Perm posts)
    (sorted : arranged.Pairwise fun a b => b.createdAt ≤ a.createdAt) :
    (choosing posts arranged perm sorted).arrange posts = arranged := if_pos rfl

namespace Listing

section

variable {t : Tables} {limit : Nat} {listing : Listing}

/-- Any arrangement of the rows that has the newest first is one a query may choose. -/
theorem exists_order (keyed : t.Keyed) (listing : Listing) {rows : List (PostRow × UserRow)}
    (perm : rows.Perm (listing.arranged t .stable)) (falling : Falling (·.1.createdAt) rows) :
    ∃ order, listing.arranged t order = rows := by
  have posts : (rows.map (·.1)).Perm (listing.posts t) := by
    have mapped := perm.map (·.1)
    rw [arranged_posts keyed] at mapped
    exact mapped.trans (NewestFirst.stable.perm _)
  have authors : ∀ row ∈ rows, (t.author row.1).map (row.1, ·) = some row := by
    intro row member
    rw [author_of_arranged (perm.mem_iff.mp member)]
    rfl
  have sorted : (rows.map (·.1)).Pairwise fun a b => b.createdAt ≤ a.createdAt :=
    List.pairwise_map.mpr falling
  refine ⟨.choosing _ _ posts sorted, ?_⟩
  rw [arranged, NewestFirst.choosing_arrange, List.filterMap_map]
  calc rows.filterMap ((fun post => (t.author post).map (post, ·)) ∘ (·.1))
      = rows.filterMap some := List.filterMap_congr authors
    _ = rows := List.filterMap_some

/-- Where a page starts with the time at which the one before it ended, a post can be listed
on both. -/
theorem not_listsOnce_of_straddled (keyed : t.Keyed) (positive : 0 < limit)
    (straddled : listing.Straddled t limit) : ¬listing.ListsOnce t limit := by
  obtain ⟨page, inside, tied⟩ := straddled
  have times := arranged_times keyed listing .stable
  have length : (listing.times t).length = (listing.arranged t .stable).length := by
    rw [← times, List.length_map]
  rw [length] at inside
  rw [← times] at tied
  have later : 0 < (page + 1) * limit := Nat.mul_pos (by omega) positive
  obtain ⟨rows, x, perm, falling, closes, opens⟩ :=
    Paging.exists_swapped (arranged_falling keyed listing .stable) later inside tied
  obtain ⟨order, arranges⟩ := exists_order keyed listing perm falling
  intro once
  obtain ⟨listed, walk, all⟩ := once Platform.plain.service
    (fun query => if query = page + 1 then order else .stable) []
  have distinct : listed.Nodup :=
    List.Nodup.of_map _ (all.nodup_iff.mpr (listing.posts_nodup keyed.ids))
  have ends : (listing.arranged t (if page = page + 1 then order else .stable))[
      (page + 1) * limit - 1]? = some x := by
    rw [if_neg (by omega)]
    exact closes
  have starts : (listing.arranged t (if page + 1 = page + 1 then order else .stable))[
      (page + 1) * limit]? = some x := by
    rw [if_pos rfl, arranges]
    exact opens
  exact walk.twice positive (listing.answer_eq t _ _ _ limit)
    (fun query => (listing.arranged_perm t _ .stable).length_eq) inside ends starts distinct

end

/-- The pages list every post once exactly when no page starts with the time at which the one
before it ended. -/
theorem listsOnce_iff {t : Tables} (keyed : t.Keyed) {limit : Nat} (positive : 0 < limit)
    (listing : Listing) : listing.ListsOnce t limit ↔ ¬listing.Straddled t limit :=
  ⟨fun once straddled => not_listsOnce_of_straddled keyed positive straddled once,
    listsOnce_of_not_straddled keyed positive⟩

/-- Two posts of one author, with their times. -/
def twoPosts (first second : Int) : Tables where
  users := [⟨lit "ana", lit "ana", lit "ana", lit "Ana", [], [], 0, 0, 2, 0⟩]
  posts := [⟨lit "1", lit "ana", lit "One", [], [], 0, 0, first⟩,
    ⟨lit "2", lit "ana", lit "Two", [], [], 0, 0, second⟩]
  likes := []
  media := []
  now := 3

theorem twoPosts_keyed (first second : Int) : (twoPosts first second).Keyed where
  ids := by simp [twoPosts]
  authors := by simp [twoPosts]

theorem apartPosts_listed : Listing.feed.ListsOnce (twoPosts 2 1) 1 := by
  apply (listsOnce_iff (twoPosts_keyed 2 1) Nat.one_pos .feed).mpr
  rintro ⟨page, inside, tied⟩
  have times : Listing.feed.times (twoPosts 2 1) = [2, 1] := by decide
  rw [times] at inside tied
  obtain rfl : page = 0 := by
    rw [List.length_cons, List.length_cons, List.length_nil] at inside
    omega
  cases tied

/-- The second query may put the post of page 1 on page 2 again. -/
theorem tiedPosts_relisted : ¬∀ (listing : Listing) (t : Tables) (limit : Nat), t.Keyed →
    0 < limit → listing.ListsOnce t limit := by
  intro always
  have straddled : Listing.feed.Straddled (twoPosts 1 1) 1 := ⟨0, by decide, by decide⟩
  exact not_listsOnce_of_straddled (twoPosts_keyed 1 1) Nat.one_pos straddled
    (always .feed _ 1 (twoPosts_keyed 1 1) Nat.one_pos)

end Listing
end Crown
