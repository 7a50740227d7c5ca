import Crown.PostStore

/-! Paging through a fixed feed: `fetchPosts` asks for the first fifty posts, `loadMore` for
pages of twenty, and both take twenty posts in an answer as the sign that more remain. -/
namespace Crown.Client

open Lib

/-- The server's page of a feed. -/
def listFeed (feed : List Post) (request : FeedRequest) : List Post :=
  (feed.drop ((request.page - 1) * request.limit)).take request.limit

namespace PostState

/-- `fetchPosts` with its answer. -/
def fetchPostsFrom (feed : List Post) (s : PostState) : PostState :=
  match s.fetchPosts with
  | none => s
  | some (request, waiting) => waiting.fetchedPosts true (.ok (listFeed feed request))

/-- `loadMore` with its answer. -/
def loadMoreFrom (feed : List Post) (s : PostState) : PostState :=
  match s.loadMore with
  | none => s
  | some (request, waiting) => waiting.loadedMore request (.ok (listFeed feed request))

/-- The store after `fetchPosts` and as many times `loadMore`. -/
def paged (feed : List Post) (s : PostState) : Nat → PostState
  | 0 => s.fetchPostsFrom feed
  | times + 1 => (s.paged feed times).loadMoreFrom feed

end PostState

/-- Paging from a store ends with the whole feed, and never says too early that it ends. -/
def PagesAll (s : PostState) (feed : List Post) : Prop :=
  ∃ times, (∀ earlier < times, (s.paged feed earlier).hasMore = true) ∧
    (s.paged feed times).hasMore = false ∧ (s.paged feed times).shown = feed.map toPlain ∧
    ∀ step ≤ times, (s.paged feed step).shown.length < feed.length →
      (s.paged feed step).hasMore = true

namespace PostState

theorem paged_zero {s : PostState} (idle : s.isLoading = false) (feed : List Post) :
    (s.paged feed 0).shown = (feed.take 50).map toPlain ∧
      (s.paged feed 0).hasMore = decide ((feed.take 50).length = 20) ∧
      (s.paged feed 0).isLoading = false ∧ (s.paged feed 0).page = 1 := by
  have sent : s.fetchPosts =
      some (⟨1, 50⟩, { s with isLoading := true, error := none }) := by
    rw [fetchPosts, if_neg (by rw [idle]; exact Bool.noConfusion)]
    rfl
  have answered : s.paged feed 0 =
      fetchedPosts true (.ok (feed.take 50)) { s with isLoading := true, error := none } := by
    rw [paged, fetchPostsFrom, sent]
    simp only [listFeed, Nat.sub_self, Nat.zero_mul, List.drop_zero]
  rw [answered]
  exact ⟨object_made _ _, rfl, rfl, rfl⟩

/-- The page after a feed of one page is empty. -/
theorem loadMoreFrom_end {s : PostState} (idle : s.isLoading = false) (more : s.hasMore = true)
    (first : s.page = 1) {feed : List Post} (short : feed.length ≤ 20) :
    (s.loadMoreFrom feed).shown = s.shown ∧ (s.loadMoreFrom feed).hasMore = false := by
  have sent : s.loadMore = some (⟨2, 20⟩, { s with isLoading := true }) := by
    rw [loadMore, if_neg (by simp [idle, more]), first]
  have nothing : listFeed feed ⟨2, 20⟩ = [] := by
    rw [listFeed, List.drop_of_length_le (by omega), List.take_nil]
  rw [loadMoreFrom, sent]
  simp only [nothing, loadedMore, List.map_nil, List.length_nil]
  refine ⟨?_, rfl⟩
  simp [shown, made, make, object]

end PostState

open PostState in
/-- The first page of a longer feed has fifty posts, which ends the paging. -/
theorem not_pagesAll_of_long {s : PostState} (idle : s.isLoading = false) {feed : List Post}
    (long : 50 < feed.length) : ¬PagesAll s feed := by
  rintro ⟨times, going, -, whole, -⟩
  obtain ⟨shown, more, -, -⟩ := paged_zero idle feed
  have stops : (s.paged feed 0).hasMore = false := by
    rw [more, List.length_take, Nat.min_eq_left (by omega)]
    rfl
  have here : times = 0 := by
    by_contra later
    rw [going 0 (Nat.pos_of_ne_zero later)] at stops
    cases stops
  rw [here, shown] at whole
  have lengths := congrArg List.length whole
  simp only [List.length_map, List.length_take] at lengths
  omega

open PostState in
/-- Paging from any store at rest loads exactly the feeds of at most fifty posts. -/
theorem pagesAll_iff (s : PostState) (idle : s.isLoading = false) (feed : List Post) :
    PagesAll s feed ↔ feed.length ≤ 50 := by
  constructor
  · intro all
    by_contra long
    exact not_pagesAll_of_long idle (by omega) all
  · intro short
    obtain ⟨shown, more, still, page⟩ := paged_zero idle feed
    rw [List.take_of_length_le short] at shown more
    by_cases twenty : feed.length = 20
    · rw [decide_eq_true twenty] at more
      obtain ⟨same, ended⟩ := loadMoreFrom_end still more page (Nat.le_of_eq twenty)
      have all : (s.paged feed 1).shown = feed.map toPlain := same.trans shown
      refine ⟨1, ?_, ended, all, ?_⟩
      · intro earlier first
        rw [Nat.lt_one_iff.mp first]
        exact more
      · intro step _ missing
        interval_cases step
        · exact more
        · rw [all, List.length_map] at missing
          omega
    · rw [decide_eq_false twenty] at more
      refine ⟨0, fun _ early => absurd early (Nat.not_lt_zero _), more, shown, ?_⟩
      intro step first missing
      rw [Nat.le_zero.mp first, shown, List.length_map] at missing
      omega

/-- A feed of one post is paged from the initial store. -/
theorem single_paged : PagesAll .initial [default] :=
  (pagesAll_iff .initial rfl [default]).2 (by decide)

/-- Of fifty-one posts one is never loaded. -/
theorem fiftyOne_unpaged :
    ¬∀ feed : List Post, (feed.map Post.id).Nodup → PagesAll .initial feed := by
  intro pages
  let feed : List Post := (List.range 51).map fun n => { (default : Post) with id := [UInt16.ofNat n] }
  have distinct : (feed.map Post.id).Nodup := by decide
  have long : 50 < feed.length := by decide
  exact not_pagesAll_of_long rfl long (pages feed distinct)

end Crown.Client
