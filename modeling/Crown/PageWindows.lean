import Crown.ViewerAnswers

/-! The rows `ListFeed` and `ListUserPosts` ask the database for. The offset is multiplied out
in 32 unsigned bits and sent as a signed number. -/
namespace Crown

open Lib

/-- The two lists that are read in pages. -/
inductive Listing where
  | feed
  | userPosts (userId : Text)

namespace Listing

def request (listing : Listing) (page limit : UInt32) : Request :=
  match listing with
  | .feed => .listFeed page limit
  | .userPosts userId => .listUserPosts userId page limit

/-- The requests to the database that a call makes, by their parameters. -/
def sent (listing : Listing) (platform : Platform) (env : Environment) (w : World Tables)
    (page limit : UInt32) : List Json :=
  ((CrownServer.handle platform.app (listing.request page limit)).performed
    (platform.backend.answer env) w).filterMap fun
      | .rpc _ params => some params
      | _ => none

/-- The row with this number is among those asked for. -/
def Asks (params : Json) (row : Int) : Prop :=
  params.int (lit "p_offset") ≤ row ∧
    row < params.int (lit "p_offset") + params.int (lit "p_limit")

/-- The ids of the posts that a call is answered. -/
def answeredIds (listing : Listing) (platform : Platform) (env : Environment) (w : World Tables)
    (page limit : UInt32) : List Text :=
  match ((CrownServer.handle platform.app (listing.request page limit)).run
      (platform.backend.answer env) w).1 with
  | .ok (.ok (.postList posts)) => posts.map (·.id)
  | _ => []

/-- Whatever is sent for the page has its offset exactly and no negative number. -/
def SendsExactly (listing : Listing) (page limit : UInt32) : Prop :=
  ∀ platform env w, ∀ params ∈ listing.sent platform env w page limit,
    params.int (lit "p_offset") = ((CrownServer.pageOrFirst page).toNat - 1 : Int) *
        (CrownServer.limitOrDefault limit).toNat ∧
      0 ≤ params.int (lit "p_limit") ∧ 0 ≤ params.int (lit "p_offset")

/-- Two calls that both ask the same database ask for different rows, and no post is answered
to both. -/
def Apart (listing : Listing) (page page' limit : UInt32) : Prop :=
  ∀ platform env env' w w', w'.database = w.database →
    ∀ params ∈ listing.sent platform env w page limit,
      ∀ params' ∈ listing.sent platform env' w' page' limit,
        (∀ row, ¬(Asks params row ∧ Asks params' row)) ∧
          ((w.database.posts.map (·.id)).Nodup →
            (listing.answeredIds platform env w page limit).Disjoint
              (listing.answeredIds platform env' w' page' limit))

/-- The page is asked for as it should be, and apart from all others of the same limit that are. -/
def Right (listing : Listing) (page limit : UInt32) : Prop :=
  listing.SendsExactly page limit ∧ ∀ page', listing.SendsExactly page' limit →
    CrownServer.pageOrFirst page ≠ CrownServer.pageOrFirst page' → listing.Apart page page' limit

/-- The limit and the offset are signed numbers. -/
def Fits (page limit : UInt32) : Prop :=
  (CrownServer.limitOrDefault limit).toNat < 2 ^ 31 ∧
    ((CrownServer.pageOrFirst page).toNat - 1) * (CrownServer.limitOrDefault limit).toNat < 2 ^ 31

instance (page limit : UInt32) : Decidable (Fits page limit) :=
  inferInstanceAs (Decidable (_ ∧ _))

def key (listing : Listing) (page limit : UInt32) : Text :=
  match listing with
  | .feed => CrownServer.feedPageKey page limit
  | .userPosts userId => CrownServer.userPostsPageKey userId page limit

def function : Listing → StoredFunction
  | .feed => .getFeed
  | .userPosts _ => .getUserPosts

def params (listing : Listing) (viewer : Text) (page limit : UInt32) : Json :=
  match listing with
  | .feed => CrownServer.feedParams viewer page limit
  | .userPosts userId => CrownServer.userPostsParams viewer userId page limit

section

variable {platform : Platform} {env : Environment} {w : World Tables} {listing : Listing}
variable {page limit : UInt32} {sentParams : Json}

end

theorem pageOrFirst_pos (page : UInt32) : 0 < (CrownServer.pageOrFirst page).toNat := by
  unfold CrownServer.pageOrFirst
  split
  · rename_i positive
    exact UInt32.lt_iff_toNat_lt.mp positive
  · decide

theorem natCast_offset {page limit : Nat} (first : 0 < page) :
    (page - 1 : Int) * limit = ((page - 1) * limit : Nat) := by
  rw [Int.natCast_mul, Int.natCast_sub first]
  rfl

theorem pageOffset_exact_iff {page : UInt32} (first : 0 < page.toNat) (limit : UInt32) :
    CrownServer.pageOffset page limit = (page.toNat - 1 : Int) * limit.toNat ↔
      (page.toNat - 1) * limit.toNat < 2 ^ 31 := by
  have before : (page - 1).toNat = page.toNat - 1 := by
    have positive : (1 : UInt32) ≤ page := UInt32.le_iff_toNat_le.mpr first
    rw [UInt32.toNat_sub_of_le page 1 positive]
    rfl
  rw [CrownServer.pageOffset, natCast_offset first, UInt32.toNat_mul, before]
  generalize (page.toNat - 1) * limit.toNat = n
  obtain ⟨_, high⟩ := toInt32_range ((n % 2 ^ 32 : Nat) : Int)
  constructor
  · intro exact
    omega
  · intro low
    rw [Nat.mod_eq_of_lt (by omega)]
    exact toInt32_eq_self (by omega) (by omega)

theorem Fits.numbers {page limit : UInt32} (fits : Fits page limit) :
    toInt32 (CrownServer.limitOrDefault limit).toNat = (CrownServer.limitOrDefault limit).toNat ∧
      CrownServer.pageOffset (CrownServer.pageOrFirst page) (CrownServer.limitOrDefault limit) =
        (((CrownServer.pageOrFirst page).toNat - 1) *
          (CrownServer.limitOrDefault limit).toNat : Nat) := by
  obtain ⟨limited, low⟩ := fits
  have first := pageOrFirst_pos page
  refine ⟨toInt32_eq_self (by omega) (by omega), ?_⟩
  rw [(pageOffset_exact_iff first _).mpr low, natCast_offset first]

/-- The posts a list is about. -/
def posts (listing : Listing) (t : Tables) : List PostRow :=
  match listing with
  | .feed => t.posts
  | .userPosts userId => t.posts.filter (·.authorId = userId)

/-- The ids of all posts of a list, in its order. -/
def ids (listing : Listing) (service : DatabaseService) (t : Tables) : List Text :=
  ((service.newestFirst.arrange (listing.posts t)).filterMap fun post =>
    (t.author post).map (post, ·)).map (·.1.id)

theorem posts_nodup (listing : Listing) {t : Tables} (distinct : (t.posts.map (·.id)).Nodup) :
    ((listing.posts t).map (·.id)).Nodup := by
  cases listing with
  | feed => exact distinct
  | userPosts userId => exact distinct.sublist (List.filter_sublist.map _)

end Listing

end Crown
