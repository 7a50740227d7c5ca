import Crown.Lib.RowStore
import Crown.Lib.Transition
import Crown.Lib.Text

/-! The function `toggle_like` of `sql/001_new.sql`, run by many transactions under
READ COMMITTED. A statement sees what is committed when it starts; one that meets a row
locked by another transaction is not enabled until that one has ended. -/
namespace Crown

open Lib

/-- What a transaction has done to the `likes` table: `DELETE` may find nothing. -/
inductive LikeChange where
  | unliked (removed : Bool)
  | liked
  deriving DecidableEq

namespace LikeChange

/-- An `int` of the database, nothing when out of range. -/
def int4 (n : Int) : Option Int := if -2 ^ 31 ≤ n ∧ n < 2 ^ 31 then some n else none

/-- The counter the `UPDATE` after the change writes. -/
def count (change : LikeChange) (likesCount : Int) : Option Int :=
  match change with
  | unliked _ => (int4 (likesCount - 1)).map (max · 0)
  | liked => int4 (likesCount + 1)

def isLiked : LikeChange → Bool
  | unliked _ => false
  | liked => true

end LikeChange

namespace ToggleLike

/-- The statement a transaction runs next. `locking` is a `DELETE` that has taken its
snapshot and found the row `seen`, or none. -/
inductive Phase where
  | idle
  | testing (user post : Text)
  | deleting (user post : Text)
  | locking (user post : Text) (seen : Option Nat)
  | decrementing (user post : Text) (removed : Bool)
  | inserting (user post : Text)
  | incrementing (user post : Text)
  | counting (user post : Text) (change : LikeChange)
  | returning (user post : Text) (change : LikeChange) (likesCount : Option Int)
  | committed (isLiked : Bool) (likesCount : Option Int)
  | rolledBack
  deriving DecidableEq

def Phase.ended : Phase → Bool
  | idle | committed .. | rolledBack => true
  | _ => false

/-- A row of `likes` is known by a number of its own: a row inserted later under the
same key is another row. Of `posts` only the counter is kept. -/
structure LikeTables where
  users : Text → Bool
  likes : RowStore Nat (Text × Text) Nat
  posts : RowStore Nat Text Int
  nextRow : Nat
  phase : Nat → Phase

inductive Event where
  | begin (t : Nat) (user post : Text)
  | advance (t : Nat)
  /-- The client is gone, or a deadlock was detected. -/
  | rollback (t : Nat)

def Event.transaction : Event → Nat
  | begin t _ _ | advance t | rollback t => t

namespace LikeTables

def start (users : Text → Bool) (likes : Text × Text → Option Nat) (posts : Text → Option Int)
    (nextRow : Nat) : LikeTables :=
  ⟨users, .unlocked likes, .unlocked posts, nextRow, fun _ => .idle⟩

def enter (s : LikeTables) (t : Nat) (phase : Phase) : LikeTables :=
  { s with phase := Function.update s.phase t phase }

def rollback (s : LikeTables) (t : Nat) : LikeTables :=
  { s with likes := s.likes.rollback t, posts := s.posts.rollback t }.enter t .rolledBack

def commit (s : LikeTables) (t : Nat) (isLiked : Bool) (likesCount : Option Int) : LikeTables :=
  { s with likes := s.likes.commit t, posts := s.posts.commit t }.enter t
    (.committed isLiked likesCount)

/-- `DELETE FROM likes`, once its snapshot is taken: a row deleted meanwhile is passed
over, a locked one is waited for. -/
def delete (s : LikeTables) (t : Nat) (user post : Text) (seen : Option Nat) : Option LikeTables :=
  if seen.isSome ∧ s.likes.committed (user, post) = seen then
    if s.likes.Free t (user, post) then
      some ({ s with likes := s.likes.write t (user, post) none }.enter t
        (.decrementing user post true))
    else none
  else some (s.enter t (.decrementing user post false))

/-- `INSERT INTO likes`: a locked key is waited for; a duplicate key or a missing user
or post aborts the transaction. -/
def insert (s : LikeTables) (t : Nat) (user post : Text) : Option LikeTables :=
  if s.likes.Free t (user, post) then
    if (s.likes.read t (user, post)).isSome ∨ s.users user = false ∨ s.posts.read t post = none then
      some (s.rollback t)
    else
      some ({ s with
        likes := s.likes.write t (user, post) (some s.nextRow)
        nextRow := s.nextRow + 1 }.enter t (.incrementing user post))
  else none

/-- `UPDATE posts SET likes_count`: it waits for the row and takes its last version. -/
def update (s : LikeTables) (t : Nat) (user post : Text) (change : LikeChange) : Option LikeTables :=
  if s.posts.Free t post then
    match s.posts.read t post with
    | none => some (s.enter t (.counting user post change))
    | some likesCount =>
      match change.count likesCount with
      | none => some (s.rollback t)
      | some count =>
        some ({ s with posts := s.posts.write t post (some count) }.enter t
          (.counting user post change))
  else none

def advance (s : LikeTables) (t : Nat) : Option LikeTables :=
  match s.phase t with
  | .idle | .committed .. | .rolledBack => none
  | .testing user post =>
    if (s.likes.read t (user, post)).isSome then some (s.enter t (.deleting user post))
    else some (s.enter t (.inserting user post))
  | .deleting user post =>
    some (s.enter t (.locking user post (s.likes.read t (user, post))))
  | .locking user post seen => s.delete t user post seen
  | .decrementing user post removed => s.update t user post (.unliked removed)
  | .inserting user post => s.insert t user post
  | .incrementing user post => s.update t user post .liked
  | .counting user post change =>
    some (s.enter t (.returning user post change (s.posts.read t post)))
  | .returning _ _ change likesCount => some (s.commit t change.isLiked likesCount)

def step (s : LikeTables) : Event → Option LikeTables
  | .begin t user post => if s.phase t = .idle then some (s.enter t (.testing user post)) else none
  | .advance t => s.advance t
  | .rollback t => if (s.phase t).ended then none else some (s.rollback t)

end LikeTables
end ToggleLike
end Crown
