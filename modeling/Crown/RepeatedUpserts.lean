import Crown.QueryReading
import Crown.UserHandles

/-! `UpsertUser` for one profile twice in a row: when the second run leaves the users as
the first one did. -/
namespace Crown

open Lib

/-- The database answers the requests by an id: the lookup finds a row when one has the
id, and the update addresses the rows that have it. -/
structure FindsById (service : DatabaseService) (userId : Text) : Prop where
  check : ∀ t : Tables, ∃ found, t.selectUsers service (userCheck userId) = some found ∧
    (found ≠ [] ↔ ∃ row ∈ t.users, row.id = userId)
  update : ∀ t : Tables, ∃ found, t.selectUsers service (userUpdate userId) = some found ∧
    ∀ row ∈ t.users, row ∈ found ↔ row.id = userId

namespace Tables

variable {t t' : Tables} {service : DatabaseService} {u : AuthenticatedUser}

theorem known_iff (finds : FindsById service u.id) :
    t.known service u = true ↔ ∃ row ∈ t.users, row.id = u.id := by
  obtain ⟨found, selected, some⟩ := finds.check t
  rw [Tables.known, selected, ← some]
  cases found <;> simp [anyRow]

theorem update_byId {userId : Text} (finds : FindsById service userId) (values : Json) :
    (t.update service (userUpdate userId) values).2.users =
      t.users.map fun row => if row.id = userId then overwrite values row else row := by
  obtain ⟨found, selected, exactly⟩ := finds.update t
  rw [update_users, selected]
  refine List.map_congr_left fun row stored => ?_
  simp only [exactly row stored]

theorem overwrite_profile (u : AuthenticatedUser) (row : UserRow) :
    overwrite (.object (profileUpdate u)) row =
      { row with
        username := if u.name = [] then row.username else u.name
        displayName := if u.name = [] then row.displayName else u.name
        handle := if u.name = [] then row.handle else sanitizeHandle u.name
        avatar := if u.picture = [] then row.avatar else u.picture } := by
  by_cases noName : u.name = [] <;> by_cases noPicture : u.picture = [] <;>
    simp [overwrite, profileUpdate, Json.find, noName, noPicture]

/-- What a profile makes of a row of its own. -/
def updated (u : AuthenticatedUser) (row : UserRow) : UserRow :=
  if row.id = u.id then overwrite (.object (profileUpdate u)) row else row

@[simp] theorem updated_id (u : AuthenticatedUser) (row : UserRow) : (updated u row).id = row.id := by
  rw [updated, overwrite_profile]
  split <;> rfl

theorem updated_updated (u : AuthenticatedUser) (row : UserRow) :
    updated u (updated u row) = updated u row := by
  by_cases own : row.id = u.id
  · have again : (updated u row).id = u.id := (updated_id u row).trans own
    rw [updated, if_pos again, updated, if_pos own, overwrite_profile, overwrite_profile]
    by_cases noName : u.name = [] <;> by_cases noPicture : u.picture = [] <;>
      simp [noName, noPicture]
  · rw [updated, updated, if_neg own, if_neg own]

theorem newUser_eq (t : Tables) (handle : Text) (u : AuthenticatedUser) :
    t.newUser (userRow handle u) =
      ⟨u.id, u.name, handle, u.name, u.picture, [], 0, 0, 0, t.now⟩ := by
  simp [newUser, userRow, Json.text, Json.find]

/-- A row that was just made is left alone but for its handle. -/
theorem updated_new_iff (t : Tables) (handle : Text) (u : AuthenticatedUser) :
    updated u (t.newUser (userRow handle u)) = t.newUser (userRow handle u) ↔
      u.name = [] ∨ sanitizeHandle u.name = handle := by
  rw [newUser_eq, updated, if_pos rfl, overwrite_profile]
  by_cases noName : u.name = [] <;> by_cases noPicture : u.picture = [] <;>
    simp [noName, noPicture]

/-- The branch of a known user, whether or not there is something to write. -/
theorem usersAfter_known (finds : FindsById service u.id) (someId : u.id ≠ [])
    (known : t.known service u = true) (suffix : Text) :
    t.usersAfter service suffix u = t.users.map (updated u) := by
  rw [usersAfter, if_neg someId, if_pos known]
  by_cases writes : profileUpdate u ≠ []
  · rw [if_pos writes, update_byId finds]
    rfl
  · have unchanged : ∀ row, updated u row = row := by
      intro row
      rw [updated, not_not.mp writes]
      split <;> rfl
    rw [if_neg writes, List.map_congr_left fun row _ => unchanged row, List.map_id']

/-- The branch of a new user. -/
theorem usersAfter_new (finds : FindsById service u.id) (someId : u.id ≠ [])
    (unknown : t.known service u = false) (suffix : Text) :
    t.usersAfter service suffix u =
      t.users ++ [t.newUser (userRow (t.newHandle service suffix u) u)] := by
  have absent : ¬ ∃ row ∈ t.users, row.id = u.id := by
    rw [← known_iff finds, unknown]
    exact Bool.false_ne_true
  rw [usersAfter, if_neg someId, unknown, if_neg Bool.false_ne_true, insert_users, if_neg absent]

/-- A suffix makes another handle. -/
theorem newHandle_eq_iff (suffix : Text) :
    sanitizeHandle u.name = t.newHandle service suffix u ↔ t.handleTaken service u = false := by
  rw [newHandle]
  cases t.handleTaken service u with
  | false => simp
  | true =>
    have underscore : lit "_" ≠ [] := by with_unfolding_all decide
    simp [underscore]

/-- Before the first run: nothing is written, no name is, the user is known, or nobody has
its handle. -/
def Stable (service : DatabaseService) (t : Tables) (u : AuthenticatedUser) : Prop :=
  u.id = [] ∨ u.name = [] ∨ t.known service u = true ∨ t.handleTaken service u = false

instance : Decidable (t.Stable service u) := inferInstanceAs (Decidable (_ ∨ _ ∨ _ ∨ _))

theorem usersAfter_again_iff (finds : FindsById service u.id)
    (first : t'.users = t.usersAfter service suffix u) (suffix' : Text) :
    t'.usersAfter service suffix' u = t'.users ↔ t.Stable service u := by
  by_cases noId : u.id = []
  · exact iff_of_true (if_pos noId) (.inl noId)
  · cases known : t.known service u with
    | true =>
      rw [usersAfter_known finds noId known] at first
      have again : t'.known service u = true := by
        obtain ⟨row, stored, own⟩ := (known_iff finds).mp known
        rw [known_iff finds, first]
        exact ⟨updated u row, List.mem_map_of_mem stored, (updated_id u row).trans own⟩
      refine iff_of_true ?_ (.inr (.inr (.inl known)))
      rw [usersAfter_known finds noId again, first, List.map_map]
      exact List.map_congr_left fun row _ => updated_updated u row
    | false =>
      rw [usersAfter_new finds noId known] at first
      have again : t'.known service u = true := by
        rw [known_iff finds, first]
        exact ⟨_, List.mem_append_right _ List.mem_cons_self, by rw [newUser_eq]⟩
      have others : t.users.map (updated u) = t.users := by
        have absent : ¬ ∃ row ∈ t.users, row.id = u.id := by
          rw [← known_iff finds, known]
          exact Bool.false_ne_true
        refine (List.map_congr_left fun row stored => ?_).trans (List.map_id _)
        exact if_neg fun own => absent ⟨row, stored, own⟩
      rw [usersAfter_known finds noId again, first, List.map_append, others,
        List.append_cancel_left_eq, List.map_singleton, List.singleton_inj, updated_new_iff,
        newHandle_eq_iff, Stable, known]
      simp [noId]

end Tables

/-- Two runs for one profile, one right after the other: the second leaves the users as they
are exactly when the profile was stable before the first. -/
theorem upsertUser_again_iff (platform : Platform) (env env' : Environment) (w : World Tables)
    (u : AuthenticatedUser) (finds : FindsById platform.service u.id) :
    let first := ((upsertUser u).run (platform.backend.answer env) w).2
    let second := ((upsertUser u).run (platform.backend.answer env') first).2
    second.database.users = first.database.users ↔ w.database.Stable platform.service u := by
  intro first second
  rw [upsertUser_users platform env' first u]
  exact Tables.usersAfter_again_iff finds (upsertUser_users platform env w u) _

/-- The plain selection finds users by an id that is read as it was asked for. -/
theorem plain_findsById {userId : Text}
    (check : Tables.pairs (userCheck userId) = (userCheck userId).requested)
    (update : Tables.pairs (userUpdate userId) = (userUpdate userId).requested) :
    FindsById Platform.plain.service userId := by
  have columns : ∀ row : UserRow, row.column (lit "select") = none ∧
      row.column (lit "limit") = none ∧ row.column (lit "id") = some row.id := by
    intro row
    simp [UserRow.column]
  have one : Text.decimal ((1 : Nat) : Int) = lit "1" := by with_unfolding_all decide
  have checked : (userCheck userId).requested = [(lit "select", lit "id"),
      (lit "id", lit "eq." ++ userId), (lit "limit", lit "1")] := by
    rw [← one]
    simp [userCheck, fromTable, QueryBuilder.select, QueryBuilder.eq, QueryBuilder.limit,
      QueryBuilder.call, QueryBuilder.requested, Call.name, Call.value, FilterOp.opening,
      FilterOp.closing, Column.id]
  have addressed : (userUpdate userId).requested = [(lit "id", lit "eq." ++ userId)] := by
    simp [userUpdate, fromTable, QueryBuilder.eq, QueryBuilder.call, QueryBuilder.requested,
      Call.name, Call.value, FilterOp.opening, FilterOp.closing, Column.id]
  constructor
  · intro t
    refine ⟨(t.users.filter fun row => row.id = userId).take 1, ?_, ?_⟩
    · rw [Tables.selectUsers, check, checked]
      refine (congrArg some (if_pos (by simp))).trans ?_
      simp [columns, eq_comm]
    · simp
  · intro t
    refine ⟨t.users.filter fun row => row.id = userId, ?_, ?_⟩
    · rw [Tables.selectUsers, update, addressed]
      refine (congrArg some (if_neg (by simp))).trans ?_
      simp [columns, eq_comm]
    · intro row stored
      simp [stored]

namespace Upsert

def ana : AuthenticatedUser := ⟨lit "2", [], lit "Ana", []⟩

def anaEnvironment : Environment := ⟨0, fun _ => none, ⟨0, ⟨none, 0⟩, ⟨none, 0⟩, 0⟩⟩

theorem ana_found : FindsById Platform.plain.service ana.id :=
  plain_findsById
    (QueryBuilder.read_clean _ (by with_unfolding_all decide) (by with_unfolding_all decide)
      (by with_unfolding_all decide))
    (QueryBuilder.read_clean _ (by with_unfolding_all decide) (by with_unfolding_all decide)
      (by with_unfolding_all decide))

/-- Among no users, the second run for Ana changes nothing. -/
theorem firstAna_kept :
    let first := ((upsertUser ana).run (Platform.plain.backend.answer anaEnvironment)
      Site.empty.world).2
    let second := ((upsertUser ana).run (Platform.plain.backend.answer anaEnvironment) first).2
    second.database.users = first.database.users :=
  (upsertUser_again_iff .plain anaEnvironment anaEnvironment Site.empty.world ana ana_found).mpr
    (by with_unfolding_all decide)

/-- The users with another Ana among them. -/
def otherAna : World Tables :=
  { Site.empty.world with
    database := { Site.empty.world.database with
      users := [⟨lit "1", lit "Ana", lit "ana", lit "Ana", [], [], 0, 0, 0, 0⟩] } }

/-- The first run makes the handle unique, the second takes the suffix off again. -/
theorem suffix_lost : ¬∀ (platform : Platform) (env env' : Environment) (w : World Tables)
    (u : AuthenticatedUser), FindsById platform.service u.id →
      let first := ((upsertUser u).run (platform.backend.answer env) w).2
      let second := ((upsertUser u).run (platform.backend.answer env') first).2
      second.database.users = first.database.users := by
  intro kept
  have stable := (upsertUser_again_iff .plain anaEnvironment anaEnvironment otherAna ana ana_found).mp
    (kept .plain anaEnvironment anaEnvironment otherAna ana ana_found)
  exact absurd stable (by with_unfolding_all decide)

end Upsert
end Crown
