import Crown.Lib.Transition
import Crown.Site

/-! The handles of the users as `UpsertUser` writes them: a new user gets a handle nobody has,
a known one the handle of its name. -/
namespace Crown

open Lib

/-- The requests of `UpsertUser`. -/
def userCheck (id : Text) : QueryBuilder :=
  (((fromTable (lit "users")).select (lit "id")).eq .id id).limit 1

def handleCheck (handle : Text) : QueryBuilder :=
  (((fromTable (lit "users")).select (lit "id")).eq .handle handle).limit 1

def userUpdate (id : Text) : QueryBuilder := (fromTable (lit "users")).eq .id id

theorem sanitizeHandle_eq_nil : sanitizeHandle name = [] ↔ name = [] := by
  simp [sanitizeHandle, Text.lower]

namespace Tables

variable {t : Tables} {service : DatabaseService} {u : AuthenticatedUser}

/-- A reply with a row. -/
def anyRow {Row : Type} : Option (List Row) → Bool
  | some (_ :: _) => true
  | _ => false

def known (service : DatabaseService) (t : Tables) (u : AuthenticatedUser) : Bool :=
  anyRow (t.selectUsers service (userCheck u.id))

def handleTaken (service : DatabaseService) (t : Tables) (u : AuthenticatedUser) : Bool :=
  anyRow (t.selectUsers service (handleCheck (sanitizeHandle u.name)))

/-- The handle a new user gets. -/
def newHandle (service : DatabaseService) (suffix : Text) (t : Tables) (u : AuthenticatedUser) :
    Text :=
  if t.handleTaken service u then sanitizeHandle u.name ++ lit "_" ++ suffix
  else sanitizeHandle u.name

def userRow (handle : Text) (u : AuthenticatedUser) : Json :=
  .object [(lit "id", .string u.id), (lit "username", .string u.name), (lit "handle", .string handle),
    (lit "display_name", .string u.name), (lit "avatar", .string u.picture)]

/-- The users `UpsertUser` leaves. -/
def usersAfter (service : DatabaseService) (suffix : Text) (t : Tables) (u : AuthenticatedUser) :
    List UserRow :=
  if u.id = [] then t.users
  else if t.known service u then
    if profileUpdate u ≠ [] then (t.update service (userUpdate u.id) (.object (profileUpdate u))).2.users
    else t.users
  else (t.insert (lit "users") (userRow (t.newHandle service suffix u) u)).2.users

def HandlesApart (a b : UserRow) : Prop := a.handle ≠ [] → a.handle ≠ b.handle

instance : DecidableRel HandlesApart := fun _ _ => inferInstanceAs (Decidable (_ → _))

/-- No two users have one handle that is not empty. -/
def UniqueHandles (t : Tables) : Prop := t.users.Pairwise HandlesApart

theorem select_users (service : DatabaseService) (t : Tables) {query : QueryBuilder}
    (users : query.table = lit "users") : t.select service query =
      (t.selectUsers service query).map fun rows =>
        .array (rows.map (UserRow.json service.timestamp)) := by
  have posts : lit "users" ≠ lit "posts" := by simp
  have media : lit "users" ≠ lit "midia_hashes" := by simp
  rw [select, users, if_neg posts, if_neg media, if_pos rfl]

/-- The handlers test whether the reply has a first row. -/
theorem firstRow?_users (service : DatabaseService) (t : Tables) {query : QueryBuilder}
    (users : query.table = lit "users") :
    (firstRow? (t.select service query)).isSome = anyRow (t.selectUsers service query) := by
  rw [select_users service t users]
  rcases t.selectUsers service query with _ | _ | ⟨row, rows⟩ <;> rfl

end Tables

/-- What `UpsertUser` does to the users. -/
theorem upsertUser_users (platform : Platform) (env : Environment) (w : World Tables)
    (u : AuthenticatedUser) :
    ((upsertUser u).run (platform.backend.answer env) w).2.database.users =
      w.database.usersAfter platform.service (platform.randomHex 4 w.drawn) u := by
  have selected : ∀ query w, platform.backend.answer env (.select query) w =
      (w.database.select platform.service query, w) := fun _ _ => rfl
  have check := Tables.firstRow?_users platform.service w.database (rfl : (userCheck u.id).table = _)
  have taken := Tables.firstRow?_users platform.service w.database
    (rfl : (handleCheck (sanitizeHandle u.name)).table = _)
  unfold upsertUser Tables.usersAfter
  by_cases noId : u.id = []
  · simp only [noId, if_true, Program.pure_eq, Program.run_done]
  simp only [noId, if_false, Program.call_bind, Program.run_perform, selected]
  cases first : firstRow? (w.database.select platform.service
      ((((fromTable (lit "users")).select (lit "id")).eq .id u.id).limit 1)) with
  | some row =>
    have known : w.database.known platform.service u = true :=
      check.symm.trans (congrArg Option.isSome first)
    simp only [known, if_true]
    by_cases writes : profileUpdate u = []
    · simp only [writes, ne_eq, not_true_eq_false, if_false, Program.pure_eq, Program.run_done]
    · simp only [writes, ne_eq, not_false_eq_true, if_true, Program.run_perform]
      rfl
  | none =>
    have unknown : w.database.known platform.service u = false :=
      check.symm.trans (congrArg Option.isSome first)
    simp only [unknown, Bool.false_eq_true, if_false, Program.run_perform, selected, Tables.newHandle,
      Tables.handleTaken, ← taken]
    rw [handleCheck]
    cases firstRow? (w.database.select platform.service ((((fromTable (lit "users")).select
        (lit "id")).eq .handle (sanitizeHandle u.name)).limit 1)) with
    | some row => rfl
    | none => rfl

namespace Tables

variable {t : Tables} {service : DatabaseService} {u : AuthenticatedUser}

theorem overwrite_handle (u : AuthenticatedUser) (row : UserRow) :
    (overwrite (.object (profileUpdate u)) row).handle =
      if u.name = [] then row.handle else sanitizeHandle u.name := by
  have others : lit "username" ≠ lit "handle" ∧ lit "display_name" ≠ lit "handle" ∧
      lit "avatar" ≠ lit "handle" := by
    simp
  by_cases noName : u.name = [] <;> by_cases noPicture : u.picture = [] <;>
    simp [overwrite, profileUpdate, Json.find, noName, noPicture, others]

theorem newUser_userRow (t : Tables) (handle : Text) (u : AuthenticatedUser) :
    (t.newUser (userRow handle u)).handle = handle ∧ (userRow handle u).text (lit "id") = u.id := by
  have others : lit "id" ≠ lit "handle" ∧ lit "username" ≠ lit "handle" := by simp
  simp [newUser, userRow, Json.text, Json.find, others]

theorem handlesApart_symm {a b : UserRow} (apart : HandlesApart a b) : HandlesApart b a :=
  fun nonempty same => apart (same ▸ nonempty) same.symm

/-- The rows a login renames: at most one, to a handle no other row has. -/
structure RenamesApart (t : Tables) (handle : Text) (found : List UserRow) : Prop where
  single : t.users.Pairwise fun a b => ¬(a ∈ found ∧ b ∈ found)
  free : ∀ row ∈ t.users, row ∈ found → ∀ other ∈ t.users, other ∉ found → other.handle ≠ handle

theorem renamed_iff (before : t.UniqueHandles) {handle : Text} (nonempty : handle ≠ [])
    {found : List UserRow} {rename : UserRow → UserRow} (renamed : ∀ row, (rename row).handle = handle) :
    (t.users.map fun row => if row ∈ found then rename row else row).Pairwise HandlesApart ↔
      t.RenamesApart handle found := by
  rw [List.pairwise_map]
  constructor
  · intro apart
    have symmetric : Std.Symm fun a b : UserRow => HandlesApart
        (if a ∈ found then rename a else a) (if b ∈ found then rename b else b) :=
      ⟨fun _ _ => handlesApart_symm⟩
    refine ⟨apart.imp fun differ both => ?_, fun row stored chosen other present unchosen same => ?_⟩
    · rw [if_pos both.1, if_pos both.2, HandlesApart, renamed, renamed] at differ
      exact differ nonempty rfl
    · have differ := apart.forall stored present fun equal => unchosen (equal ▸ chosen)
      rw [if_pos chosen, if_neg unchosen, HandlesApart, renamed, same] at differ
      exact differ nonempty rfl
  · rintro ⟨single, free⟩
    refine (before.and single).imp_of_mem fun {a b} first second both => ?_
    obtain ⟨differ, notBoth⟩ := both
    by_cases chosen : a ∈ found
    · have unchosen : b ∉ found := fun also => notBoth ⟨chosen, also⟩
      rw [if_pos chosen, if_neg unchosen, HandlesApart, renamed]
      exact fun _ => (free a first chosen b second unchosen).symm
    · rw [if_neg chosen]
      by_cases also : b ∈ found
      · rw [if_pos also, HandlesApart, renamed]
        exact fun _ => free b second also a first chosen
      · rwa [if_neg also]

/-- The handle that is written is the only one of its kind: a login renames at most one row,
to a handle no other row has, and when a new user's handle is there, the lookup finds it. -/
def KeepsApart (service : DatabaseService) (t : Tables) (u : AuthenticatedUser) : Prop :=
  u.id ≠ [] → u.name ≠ [] →
    if t.known service u then
      ∀ found, t.selectUsers service (userUpdate u.id) = some found →
        t.RenamesApart (sanitizeHandle u.name) found
    else
      (∀ row ∈ t.users, row.id ≠ u.id) → (∃ row ∈ t.users, row.handle = sanitizeHandle u.name) →
        t.handleTaken service u = true

/-- A suffix that is drawn makes a handle nobody has. -/
def FreshSuffix (service : DatabaseService) (suffix : Text) (t : Tables) (u : AuthenticatedUser) :
    Prop :=
  t.known service u = false → t.handleTaken service u = true →
    ∀ row ∈ t.users, row.handle ≠ sanitizeHandle u.name ++ lit "_" ++ suffix

theorem update_users (service : DatabaseService) (t : Tables) (id : Text) (values : Json) :
    (t.update service (userUpdate id) values).2.users =
      match t.selectUsers service (userUpdate id) with
      | some found => t.users.map fun row => if row ∈ found then overwrite values row else row
      | none => t.users := by
  have users : (userUpdate id).table = lit "users" := rfl
  rw [update, if_pos users]
  cases t.selectUsers service (userUpdate id) <;> rfl

theorem insert_users (t : Tables) (handle : Text) (u : AuthenticatedUser) :
    (t.insert (lit "users") (userRow handle u)).2.users =
      if ∃ row ∈ t.users, row.id = u.id then t.users
      else t.users ++ [t.newUser (userRow handle u)] := by
  rw [insert, if_pos rfl, (newUser_userRow t handle u).2]
  split <;> rfl

/-- A name of a known user is kept apart or not written at all. -/
theorem usersAfter_known_iff (before : t.UniqueHandles) (someId : u.id ≠ [])
    (known : t.known service u = true) (suffix : Text) :
    (t.usersAfter service suffix u).Pairwise HandlesApart ↔ t.KeepsApart service u := by
  have condition : t.KeepsApart service u ↔ (u.name ≠ [] → ∀ found,
      t.selectUsers service (userUpdate u.id) = some found →
        t.RenamesApart (sanitizeHandle u.name) found) := by
    simp only [KeepsApart, known, if_true, someId, ne_eq, not_false_eq_true, true_imp_iff]
  have handles : ∀ row, (overwrite (.object (profileUpdate u)) row).handle =
      if u.name = [] then row.handle else sanitizeHandle u.name := overwrite_handle u
  rw [condition, usersAfter, if_neg someId, if_pos known, update_users]
  by_cases noName : u.name = []
  · refine iff_of_true ?_ fun named => absurd noName named
    have same : ∀ row, (overwrite (.object (profileUpdate u)) row).handle = row.handle :=
      fun row => (handles row).trans (if_pos noName)
    have unchanged : ∀ found : List UserRow, (t.users.map fun row =>
        if row ∈ found then overwrite (.object (profileUpdate u)) row else row).Pairwise
          HandlesApart := by
      intro found
      refine List.pairwise_map.mpr (before.imp fun {a b} apart => ?_)
      have left : (if a ∈ found then overwrite (.object (profileUpdate u)) a else a).handle =
          a.handle := by split <;> simp only [same]
      have right : (if b ∈ found then overwrite (.object (profileUpdate u)) b else b).handle =
          b.handle := by split <;> simp only [same]
      rwa [HandlesApart, left, right]
    split
    · split
      · exact unchanged _
      · exact before
    · exact before
  · have writes : profileUpdate u ≠ [] := by simp [profileUpdate, noName]
    rw [if_pos writes]
    cases selected : t.selectUsers service (userUpdate u.id) with
    | none => exact iff_of_true before fun _ found impossible => nomatch impossible
    | some found =>
      refine (renamed_iff before (mt sanitizeHandle_eq_nil.mp noName) fun row =>
        (handles row).trans (if_neg noName)).trans ?_
      exact ⟨fun apart _ other same => Option.some.inj same ▸ apart, fun apart => apart noName found rfl⟩

/-- A new user's handle is kept apart by the lookup and the suffix. -/
theorem usersAfter_unknown_iff (before : t.UniqueHandles) (someId : u.id ≠ [])
    (unknown : t.known service u = false) (fresh : t.FreshSuffix service suffix u) :
    (t.usersAfter service suffix u).Pairwise HandlesApart ↔ t.KeepsApart service u := by
  have condition : t.KeepsApart service u ↔ (u.name ≠ [] → (∀ row ∈ t.users, row.id ≠ u.id) →
      (∃ row ∈ t.users, row.handle = sanitizeHandle u.name) → t.handleTaken service u = true) := by
    simp only [KeepsApart, unknown, Bool.false_eq_true, if_false, someId, ne_eq, not_false_eq_true,
      true_imp_iff]
  rw [condition, usersAfter, if_neg someId, unknown, if_neg Bool.false_ne_true, insert_users]
  split
  · rename_i there
    obtain ⟨row, stored, same⟩ := there
    exact iff_of_true before fun _ absent => absurd same (absent row stored)
  · rename_i absent
    have handle := (newUser_userRow t (t.newHandle service suffix u) u).1
    have joined : (t.users ++ [t.newUser (userRow (t.newHandle service suffix u) u)]).Pairwise
        HandlesApart ↔ ∀ row ∈ t.users, row.handle ≠ [] → row.handle ≠ t.newHandle service suffix u := by
      rw [List.pairwise_append]
      simp only [List.pairwise_cons, List.not_mem_nil, false_imp_iff, implies_true, List.Pairwise.nil,
        and_self, List.mem_singleton, forall_eq, true_and, HandlesApart, handle]
      exact and_iff_right before
    rw [joined, newHandle]
    cases taken : t.handleTaken service u with
    | true =>
      refine iff_of_true (fun row stored _ => ?_) fun _ _ _ => rfl
      exact fresh unknown taken row stored
    | false =>
      simp only [Bool.false_eq_true, if_false]
      constructor
      · rintro differ named - ⟨row, stored, same⟩
        have nonempty := mt sanitizeHandle_eq_nil.mp named
        exact absurd same (differ row stored (same ▸ nonempty))
      · intro found row stored nonempty same
        have named : u.name ≠ [] := mt sanitizeHandle_eq_nil.mpr (same ▸ nonempty)
        have missing : ∀ row ∈ t.users, row.id ≠ u.id := fun row stored same => absent ⟨row, stored, same⟩
        exact found named missing ⟨row, stored, same⟩

theorem usersAfter_iff (before : t.UniqueHandles) (fresh : t.FreshSuffix service suffix u) :
    (t.usersAfter service suffix u).Pairwise HandlesApart ↔ t.KeepsApart service u := by
  by_cases noId : u.id = []
  · rw [usersAfter, if_pos noId]
    exact iff_of_true before fun someId => absurd noId someId
  · cases known : t.known service u with
    | true => exact usersAfter_known_iff before noId known suffix
    | false => exact usersAfter_unknown_iff before noId known fresh

instance (suffix : Text) : Decidable (t.FreshSuffix service suffix u) :=
  inferInstanceAs (Decidable (_ → _ → ∀ row ∈ t.users, _))

instance : Decidable t.UniqueHandles := inferInstanceAs (Decidable (t.users.Pairwise HandlesApart))

end Tables

/-- A call of `UpsertUser`. -/
structure Upsert where
  env : Environment
  user : AuthenticatedUser

namespace Upsert

def after (platform : Platform) (w : World Tables) (call : Upsert) : World Tables :=
  ((upsertUser call.user).run (platform.backend.answer call.env) w).2

/-- A call in which a suffix that is drawn is fresh. -/
def Step (platform : Platform) (w : World Tables) (call : Upsert) (w' : World Tables) : Prop :=
  w.database.FreshSuffix platform.service (platform.randomHex 4 w.drawn) call.user ∧
    w' = call.after platform w

/-- The world with an empty table of users. -/
def withoutUsers (w : World Tables) : World Tables :=
  { w with database := { w.database with users := [] } }

theorem step_unique_iff {platform : Platform} {w w' : World Tables} {call : Upsert}
    (before : w.database.UniqueHandles) (stepped : Step platform w call w') :
    w'.database.UniqueHandles ↔ w.database.KeepsApart platform.service call.user := by
  obtain ⟨fresh, rfl⟩ := stepped
  rw [Tables.UniqueHandles, after, upsertUser_users]
  exact Tables.usersAfter_iff before fresh

/-- The runs in which the handles stay unique are those in which every call keeps the handle it
writes apart from the others. -/
theorem run_unique_iff (platform : Platform) (w : World Tables) :
    Run (fun w call w' => Step platform w call w' ∧ w'.database.UniqueHandles) (withoutUsers w) calls w' ↔
      Run (Guarded (fun w call => w.database.KeepsApart platform.service call.user) (Step platform))
        (withoutUsers w) calls w' := by
  have start : (withoutUsers w).database.UniqueHandles := List.Pairwise.nil
  refine Run.keeping_iff ⟨trivial, start⟩ (fun _ _ _ _ _ _ _ => trivial) ?_
  intro w call w' _ before stepped
  exact step_unique_iff before stepped

/-- Two users are called Ana. The second gets a suffix at first, and loses it at the next login. -/
theorem secondAna_renamed : ¬∀ (platform : Platform) (w : World Tables) (calls : List Upsert)
    (w' : World Tables), Run (Step platform) (withoutUsers w) calls w' → w'.database.UniqueHandles := by
  intro unique
  let ana (id : Text) : Upsert :=
    ⟨⟨0, fun _ => none, ⟨0, ⟨none, 0⟩, ⟨none, 0⟩, 0⟩⟩, ⟨id, [], lit "Ana", []⟩⟩
  let first := (ana (lit "1")).after .plain (withoutUsers Site.empty.world)
  let second := (ana (lit "2")).after .plain first
  have run : Run (Step .plain) (withoutUsers Site.empty.world)
      [ana (lit "1"), ana (lit "2"), ana (lit "2")] ((ana (lit "2")).after .plain second) :=
    .cons ⟨by with_unfolding_all decide, rfl⟩ (.cons ⟨by with_unfolding_all decide, rfl⟩
      (.cons ⟨by with_unfolding_all decide, rfl⟩ .nil))
  have same : ¬((ana (lit "2")).after .plain second).database.UniqueHandles := by with_unfolding_all decide
  exact same (unique .plain Site.empty.world _ _ run)

end Upsert
end Crown
