import Crown.ToggleLike

/-! The counter of a post against its rows in `likes`, over whole runs of concurrent
`toggle_like` transactions. -/
namespace Crown.ToggleLike

open Lib

def likers (likes : Text × Text → Option Nat) (post : Text) : Set Text :=
  {user | (likes (user, post)).isSome}

/-- Every counter is the number of rows. -/
def Counted (likes : Text × Text → Option Nat) (posts : Text → Option Int) : Prop :=
  ∀ post likesCount, posts post = some likesCount →
    (likers likes post).Finite ∧ likesCount = (likers likes post).ncard

/-- The post whose counter a transaction about to commit took a like off although its
`DELETE` found the row gone that its `EXISTS` had seen. -/
def Phase.missed : Phase → Option Text
  | .returning _ post (.unliked false) _ => some post
  | _ => none

namespace LikeTables

def Consistent (s : LikeTables) : Prop := Counted s.likes.committed s.posts.committed

/-- No transaction is under way. -/
def Settled (s : LikeTables) : Prop := ∀ t, (s.phase t).ended = true

/-- Each like taken off a counter had its row removed, or the counter was zero. -/
def RowRemoved (s : LikeTables) : Event → Prop
  | .advance t => ∀ post ∈ (s.phase t).missed, ∀ likesCount ∈ s.posts.committed post, likesCount ≤ 0
  | _ => True

instance (s : LikeTables) : (event : Event) → Decidable (s.RowRemoved event)
  | .advance t => inferInstanceAs (Decidable
      (∀ post ∈ (s.phase t).missed, ∀ likesCount ∈ s.posts.committed post, likesCount ≤ 0))
  | .begin .. | .rollback _ => .isTrue trivial

/-- The single row a transaction has written. -/
abbrev One [DecidableEq κ] (k : κ) (v : Option ν) : κ → Option (Option ν) :=
  Function.update (fun _ => none) k (some v)

def LikeWritten (s : LikeTables) (t : Nat) (user post : Text) : LikeChange → Prop
  | .unliked false => s.likes.writes t = fun _ => none
  | .unliked true => (s.likes.committed (user, post)).isSome ∧
      s.likes.writes t = One (user, post) none
  | .liked => s.likes.committed (user, post) = none ∧
      ∃ row, s.likes.writes t = One (user, post) (some row)

def CountWritten (s : LikeTables) (t : Nat) (post : Text) (change : LikeChange) : Prop :=
  (s.posts.committed post = none ∧ s.posts.writes t = fun _ => none) ∨
  ∃ likesCount count, s.posts.committed post = some likesCount ∧
    change.count likesCount = some count ∧ s.posts.writes t = One post (some count)

/-- What a transaction holds at each of its statements. -/
def Holds (s : LikeTables) (t : Nat) : Phase → Prop
  | .decrementing user post removed =>
    s.LikeWritten t user post (.unliked removed) ∧ s.posts.writes t = fun _ => none
  | .incrementing user post => s.LikeWritten t user post .liked ∧ s.posts.writes t = fun _ => none
  | .counting user post change | .returning user post change _ =>
    s.LikeWritten t user post change ∧ s.CountWritten t post change
  | _ => (s.likes.writes t = fun _ => none) ∧ s.posts.writes t = fun _ => none

structure Invariant (s : LikeTables) : Prop where
  locks : ∀ t, s.Holds t (s.phase t)
  consistent : s.Consistent

/-- What a step of another transaction leaves alone. -/
structure Undisturbed (s s' : LikeTables) (t : Nat) : Prop where
  phase : s'.phase t = s.phase t
  likeWrites : s'.likes.writes t = s.likes.writes t
  countWrites : s'.posts.writes t = s.posts.writes t
  likeRows : ∀ k v, s.likes.writes t k = some v → s'.likes.committed k = s.likes.committed k
  countRows : ∀ post v, s.posts.writes t post = some v →
    s'.posts.committed post = s.posts.committed post
  missing : ∀ post, s.posts.committed post = none → s'.posts.committed post = none

variable {s s' : LikeTables}

theorem LikeWritten.undisturbed (written : s.LikeWritten t user post change)
    (others : Undisturbed s s' t) : s'.LikeWritten t user post change := by
  rcases change with ⟨_ | _⟩ | _
  · exact others.likeWrites.trans written
  · obtain ⟨present, one⟩ := written
    have kept := others.likeRows (user, post) none (by rw [one]; simp)
    exact ⟨by rwa [kept], others.likeWrites.trans one⟩
  · obtain ⟨absent, row, one⟩ := written
    have kept := others.likeRows (user, post) (some row) (by rw [one]; simp)
    exact ⟨by rwa [kept], row, others.likeWrites.trans one⟩

theorem CountWritten.undisturbed (written : s.CountWritten t post change)
    (others : Undisturbed s s' t) : s'.CountWritten t post change := by
  rcases written with ⟨missing, nothing⟩ | ⟨likesCount, count, found, next, one⟩
  · exact Or.inl ⟨others.missing post missing, others.countWrites.trans nothing⟩
  · have kept := others.countRows post (some count) (by rw [one]; simp)
    exact Or.inr ⟨likesCount, count, kept.trans found, next, others.countWrites.trans one⟩

theorem Holds.undisturbed (holds : s.Holds t (s.phase t)) (others : Undisturbed s s' t) :
    s'.Holds t (s'.phase t) := by
  rw [others.phase]
  cases phase : s.phase t <;> rw [phase] at holds
  case decrementing | incrementing =>
    exact ⟨holds.1.undisturbed others, others.countWrites.trans holds.2⟩
  case counting | returning =>
    exact ⟨holds.1.undisturbed others, holds.2.undisturbed others⟩
  all_goals exact ⟨others.likeWrites.trans holds.1, others.countWrites.trans holds.2⟩

/-- A step of one transaction that is no commit. -/
structure Uncommitted (s s' : LikeTables) (t : Nat) : Prop where
  likes : s'.likes.committed = s.likes.committed
  posts : s'.posts.committed = s.posts.committed
  phase : ∀ other, other ≠ t → s'.phase other = s.phase other
  likeWrites : ∀ other, other ≠ t → s'.likes.writes other = s.likes.writes other
  countWrites : ∀ other, other ≠ t → s'.posts.writes other = s.posts.writes other

theorem Uncommitted.invariant (moved : Uncommitted s s' t) (invariant : Invariant s)
    (own : s'.Holds t (s'.phase t)) : Invariant s' where
  locks other := by
    by_cases same : other = t
    · exact same ▸ own
    · exact (invariant.locks other).undisturbed
        { phase := moved.phase other same
          likeWrites := moved.likeWrites other same
          countWrites := moved.countWrites other same
          likeRows := fun k _ _ => congrFun moved.likes k
          countRows := fun post _ _ => congrFun moved.posts post
          missing := fun post missing => (congrFun moved.posts post).trans missing }
  consistent := by
    unfold Consistent
    rw [moved.likes, moved.posts]
    exact invariant.consistent

@[simp] theorem enter_phase (s : LikeTables) : (s.enter t next).phase t = next := by simp [enter]

theorem enter_phase_ne (s : LikeTables) (other : t' ≠ t) :
    (s.enter t next).phase t' = s.phase t' := by
  simp [enter, other]

theorem advance_phase_ne (advanced : s.advance t = some s') (other : t' ≠ t) :
    s'.phase t' = s.phase t' := by
  unfold advance at advanced
  cases reached : s.phase t <;> rw [reached] at advanced <;> dsimp only at advanced
  case idle | committed | rolledBack => contradiction
  case testing =>
    split at advanced <;> cases advanced <;> exact enter_phase_ne _ other
  case deleting | counting | returning =>
    cases advanced
    exact enter_phase_ne _ other
  case locking =>
    unfold delete at advanced
    split at advanced
    · split at advanced
      · cases advanced
        exact enter_phase_ne _ other
      · contradiction
    · cases advanced
      exact enter_phase_ne _ other
  case inserting =>
    unfold insert at advanced
    split at advanced
    · split at advanced <;> cases advanced <;> exact enter_phase_ne _ other
    · contradiction
  case decrementing | incrementing =>
    unfold update at advanced
    split at advanced
    · split at advanced
      · cases advanced
        exact enter_phase_ne _ other
      · split at advanced <;> cases advanced <;> exact enter_phase_ne _ other
    · contradiction

/-- A transaction is moved by its own events only. -/
theorem step_phase_ne (stepped : s.step event = some s') (other : event.transaction ≠ t) :
    s'.phase t = s.phase t := by
  cases event with
  | begin =>
    simp only [step] at stepped
    split at stepped
    · cases stepped
      exact enter_phase_ne _ other.symm
    · contradiction
  | advance => exact advance_phase_ne stepped other.symm
  | rollback =>
    simp only [step] at stepped
    split at stepped
    · contradiction
    · cases stepped
      exact enter_phase_ne _ other.symm

theorem execute_phase_ne (quiet : ∀ event ∈ events, event.transaction ≠ t)
    (executed : execute step events s = some s') : s'.phase t = s.phase t := by
  induction events generalizing s with
  | nil =>
    cases executed
    rfl
  | cons event events ih =>
    obtain ⟨middle, first, rest⟩ := Option.bind_eq_some_iff.mp executed
    rw [ih (fun e member => quiet e (List.mem_cons_of_mem _ member)) rest]
    exact step_phase_ne first (quiet event List.mem_cons_self)

@[simp] theorem enter_likes (s : LikeTables) : (s.enter t next).likes = s.likes := rfl

@[simp] theorem enter_posts (s : LikeTables) : (s.enter t next).posts = s.posts := rfl

theorem enter_holds (s : LikeTables) : (s.enter t next).Holds t' held = s.Holds t' held := by
  cases held <;> rfl

theorem enter_uncommitted (s : LikeTables) : Uncommitted s (s.enter t next) t :=
  ⟨rfl, rfl, fun _ other => s.enter_phase_ne other, fun _ _ => rfl, fun _ _ => rfl⟩

/-- The transaction holds at its next statement what it held at the last. -/
theorem enter_invariant (invariant : Invariant s) (held : s.Holds t next) :
    Invariant (s.enter t next) := by
  refine s.enter_uncommitted.invariant invariant ?_
  rw [enter_phase, enter_holds]
  exact held

theorem writeLike_invariant (invariant : Invariant s) (free : s.likes.Free t k) (nextRow : Nat)
    (held : { s with likes := s.likes.write t k v, nextRow }.Holds t next) :
    Invariant ({ s with likes := s.likes.write t k v, nextRow }.enter t next) := by
  have moved : Uncommitted s ({ s with likes := s.likes.write t k v, nextRow }.enter t next) t :=
    ⟨rfl, rfl, fun _ other => enter_phase_ne _ other,
      fun _ other => RowStore.writes_write_ne free other v, fun _ _ => rfl⟩
  refine moved.invariant invariant ?_
  rw [enter_phase, enter_holds]
  exact held

theorem writeCount_invariant (invariant : Invariant s) (free : s.posts.Free t post)
    (held : { s with posts := s.posts.write t post v }.Holds t next) :
    Invariant ({ s with posts := s.posts.write t post v }.enter t next) := by
  have moved : Uncommitted s ({ s with posts := s.posts.write t post v }.enter t next) t :=
    ⟨rfl, rfl, fun _ other => enter_phase_ne _ other, fun _ _ => rfl,
      fun _ other => RowStore.writes_write_ne free other v⟩
  refine moved.invariant invariant ?_
  rw [enter_phase, enter_holds]
  exact held

theorem rollback_invariant (invariant : Invariant s) : Invariant (s.rollback t) := by
  have moved : Uncommitted s (s.rollback t) t :=
    ⟨rfl, rfl, fun _ other => enter_phase_ne _ other,
      fun _ other => RowStore.writes_rollback_ne other,
      fun _ other => RowStore.writes_rollback_ne other⟩
  refine moved.invariant invariant ?_
  have ended : (s.rollback t).phase t = .rolledBack := enter_phase _
  rw [ended]
  exact ⟨RowStore.writes_rollback, RowStore.writes_rollback⟩

theorem delete_invariant (invariant : Invariant s) (reached : s.phase t = .locking user post seen)
    (deleted : s.delete t user post seen = some s') : Invariant s' := by
  have held := invariant.locks t
  rw [reached] at held
  obtain ⟨noLike, noCount⟩ := held
  unfold delete at deleted
  split at deleted
  · rename_i still
    split at deleted
    · rename_i free
      cases deleted
      have present : (s.likes.committed (user, post)).isSome := still.2 ▸ still.1
      refine writeLike_invariant invariant free s.nextRow ⟨⟨present, ?_⟩, noCount⟩
      rw [RowStore.writes_write, noLike]
    · contradiction
  · cases deleted
    exact enter_invariant invariant ⟨noLike, noCount⟩

theorem insert_invariant (invariant : Invariant s) (reached : s.phase t = .inserting user post)
    (inserted : s.insert t user post = some s') : Invariant s' := by
  have held := invariant.locks t
  rw [reached] at held
  obtain ⟨noLike, noCount⟩ := held
  unfold insert at inserted
  split at inserted
  · rename_i free
    split at inserted
    · cases inserted
      exact rollback_invariant invariant
    · rename_i accepted
      cases inserted
      have absent : s.likes.committed (user, post) = none := by
        rw [← RowStore.read_of_no_writes noLike]
        simpa using fun present => accepted (Or.inl present)
      refine writeLike_invariant invariant free (s.nextRow + 1) ⟨⟨absent, s.nextRow, ?_⟩, noCount⟩
      rw [RowStore.writes_write, noLike]
  · contradiction

theorem update_invariant (invariant : Invariant s) (written : s.LikeWritten t user post change)
    (noCount : s.posts.writes t = fun _ => none)
    (updated : s.update t user post change = some s') : Invariant s' := by
  have read := RowStore.read_of_no_writes noCount
  unfold update at updated
  split at updated
  · rename_i free
    split at updated
    · rename_i missing
      cases updated
      exact enter_invariant invariant ⟨written, Or.inl ⟨by rw [← read]; exact missing, noCount⟩⟩
    · rename_i likesCount found
      split at updated
      · cases updated
        exact rollback_invariant invariant
      · rename_i count accepted
        cases updated
        refine writeCount_invariant invariant free ⟨?_, Or.inr ⟨likesCount, count, ?_, accepted, ?_⟩⟩
        · exact written
        · rw [← found, read]
          rfl
        · rw [RowStore.writes_write, noCount]
  · contradiction

theorem likers_update_ne (likes : Text × Text → Option Nat) (other : post' ≠ post)
    (row : Option Nat) :
    likers (Function.update likes (user, post) row) post' = likers likes post' := by
  ext liker
  simp [likers, other]

theorem likers_update_none (likes : Text × Text → Option Nat) :
    likers (Function.update likes (user, post) none) post = likers likes post \ {user} := by
  ext liker
  by_cases same : liker = user <;> simp [likers, Function.update_apply, same]

theorem likers_update_some (likes : Text × Text → Option Nat) :
    likers (Function.update likes (user, post) (some row)) post =
      Insert.insert user (likers likes post) := by
  ext liker
  by_cases same : liker = user <;> simp [likers, Function.update_apply, same]

theorem LikeWritten.likers_other (written : s.LikeWritten t user post change)
    (other : post' ≠ post) : likers (s.likes.read t) post' = likers s.likes.committed post' := by
  rcases change with ⟨_ | _⟩ | _
  · rw [RowStore.read_of_no_writes written]
  · rw [RowStore.read_of_one_write written.2, likers_update_ne _ other]
  · obtain ⟨_, row, one⟩ := written
    rw [RowStore.read_of_one_write one, likers_update_ne _ other]

/-- The rows a transaction adds to a post. -/
def added : LikeChange → Int
  | .unliked false => 0
  | .unliked true => -1
  | .liked => 1

theorem LikeWritten.likers_own (written : s.LikeWritten t user post change)
    (finite : (likers s.likes.committed post).Finite) :
    (likers (s.likes.read t) post).Finite ∧
      ((likers (s.likes.read t) post).ncard : Int) =
        (likers s.likes.committed post).ncard + added change := by
  rcases change with ⟨_ | _⟩ | _
  · rw [RowStore.read_of_no_writes written]
    exact ⟨finite, by simp [added]⟩
  · obtain ⟨present, one⟩ := written
    rw [RowStore.read_of_one_write one, likers_update_none]
    have member : user ∈ likers s.likes.committed post := present
    have fewer := Set.ncard_sdiff_singleton_add_one member finite
    refine ⟨finite.subset Set.sdiff_subset, ?_⟩
    simp only [added]
    omega
  · obtain ⟨absent, row, one⟩ := written
    rw [RowStore.read_of_one_write one, likers_update_some]
    have stranger : user ∉ likers s.likes.committed post := by simp [likers, absent]
    have more := Set.ncard_insert_of_notMem stranger finite
    refine ⟨finite.insert user, ?_⟩
    simp only [added]
    omega

theorem CountWritten.read_other (written : s.CountWritten t post change) (other : post' ≠ post) :
    s.posts.read t post' = s.posts.committed post' := by
  rcases written with ⟨_, nothing⟩ | ⟨_, _, _, _, one⟩
  · rw [RowStore.read_of_no_writes nothing]
  · rw [RowStore.read_of_one_write one, Function.update_of_ne other]

theorem count_unliked (accepted : (LikeChange.unliked removed).count likesCount = some count) :
    count = max (likesCount - 1) 0 := by
  simp only [LikeChange.count, LikeChange.int4] at accepted
  split at accepted
  · simpa using accepted.symm
  · contradiction

theorem count_liked (accepted : LikeChange.liked.count likesCount = some count) :
    count = likesCount + 1 := by
  simp only [LikeChange.count, LikeChange.int4] at accepted
  split at accepted
  · simpa using accepted.symm
  · contradiction

/-- The counter follows the rows unless nothing was removed from a positive counter. -/
theorem count_follows (accepted : change.count likesCount = some count) (positive : 0 ≤ likesCount)
    (present : change = .unliked true → 0 < likesCount) :
    count = likesCount + added change ↔ (change = .unliked false → likesCount ≤ 0) := by
  rcases change with ⟨_ | _⟩ | _
  · have := count_unliked accepted
    simp only [added, forall_const]
    omega
  · have := count_unliked accepted
    have := present rfl
    simp [added]
    omega
  · have := count_liked accepted
    simp [added]
    omega

/-- A commit keeps the counters right exactly under its condition. -/
theorem commit_consistent_iff (invariant : Invariant s)
    (reached : s.phase t = .returning user post change answer) :
    (s.commit t isLiked answer).Consistent ↔ s.RowRemoved (.advance t) := by
  have held := invariant.locks t
  rw [reached] at held
  obtain ⟨liked, counted⟩ := held
  have removed : s.RowRemoved (.advance t) ↔
      (change = .unliked false → ∀ likesCount ∈ s.posts.committed post, likesCount ≤ 0) := by
    rcases change with ⟨_ | _⟩ | _ <;> simp [RowRemoved, reached, Phase.missed]
  have elsewhere : ∀ post' likesCount, post' ≠ post → s.posts.read t post' = some likesCount →
      (likers (s.likes.read t) post').Finite ∧
        likesCount = (likers (s.likes.read t) post').ncard := by
    intro post' likesCount other found
    rw [counted.read_other other] at found
    rw [liked.likers_other other]
    exact invariant.consistent post' likesCount found
  rw [removed]
  rcases counted with ⟨missing, nothing⟩ | ⟨likesCount, count, found, accepted, one⟩
  · refine iff_of_true (fun post' likesCount found => ?_) (by simp [missing])
    by_cases same : post' = post
    · subst same
      have found : s.posts.read t post' = some likesCount := found
      rw [RowStore.read_of_no_writes nothing, missing] at found
      contradiction
    · exact elsewhere post' likesCount same found
  · obtain ⟨finite, before⟩ := invariant.consistent post likesCount found
    obtain ⟨finite', after⟩ := liked.likers_own finite
    have present : change = .unliked true → 0 < likesCount := by
      rintro rfl
      have positive : 0 < (likers s.likes.committed post).ncard :=
        (Set.ncard_pos finite).mpr ⟨user, liked.1⟩
      omega
    have own : s.posts.read t post = some count := by
      rw [RowStore.read_of_one_write one, Function.update_self]
    have follows := count_follows accepted (by omega) present
    have here : (change = .unliked false → ∀ c ∈ s.posts.committed post, c ≤ 0) ↔
        count = (likers (s.likes.read t) post).ncard := by
      rw [after, ← before, follows, found]
      simp
    rw [here]
    refine ⟨fun consistent => (consistent post count own).2, fun right post' count' found' => ?_⟩
    by_cases same : post' = post
    · subst same
      have found' : s.posts.read t post' = some count' := found'
      rw [own] at found'
      cases found'
      exact ⟨finite', right⟩
    · exact elsewhere post' count' same found'

theorem commit_invariant (invariant : Invariant s)
    (reached : s.phase t = .returning user post change answer)
    (removed : s.RowRemoved (.advance t)) : Invariant (s.commit t isLiked answer) where
  locks other := by
    by_cases same : other = t
    · subst same
      have ended : (s.commit other isLiked answer).phase other = .committed isLiked answer :=
        enter_phase _
      rw [ended]
      exact ⟨RowStore.writes_commit, RowStore.writes_commit⟩
    · have held := invariant.locks t
      rw [reached] at held
      refine (invariant.locks other).undisturbed
        { phase := enter_phase_ne _ same
          likeWrites := RowStore.writes_commit_ne same
          countWrites := RowStore.writes_commit_ne same
          likeRows := fun _ _ written => RowStore.committed_commit_of_writes written same
          countRows := fun _ _ written => RowStore.committed_commit_of_writes written same
          missing := fun post' missing => ?_ }
      change s.posts.read t post' = none
      rcases held.2 with ⟨_, nothing⟩ | ⟨likesCount, _, found, _, one⟩
      · rw [RowStore.read_of_no_writes nothing, missing]
      · have differs : post' ≠ post := by
          rintro rfl
          rw [missing] at found
          contradiction
        rw [RowStore.read_of_one_write one, Function.update_of_ne differs, missing]
  consistent := (commit_consistent_iff invariant reached).mpr removed

theorem advance_invariant (invariant : Invariant s) (removed : s.RowRemoved (.advance t))
    (advanced : s.advance t = some s') : Invariant s' := by
  have held := invariant.locks t
  unfold advance at advanced
  cases reached : s.phase t <;> rw [reached] at advanced held <;> dsimp only at advanced
  case idle | committed | rolledBack => contradiction
  case testing =>
    split at advanced <;> cases advanced <;> exact enter_invariant invariant held
  case deleting =>
    cases advanced
    exact enter_invariant invariant held
  case locking => exact delete_invariant invariant reached advanced
  case decrementing | incrementing => exact update_invariant invariant held.1 held.2 advanced
  case inserting => exact insert_invariant invariant reached advanced
  case counting =>
    cases advanced
    exact enter_invariant invariant held
  case returning =>
    cases advanced
    exact commit_invariant invariant reached removed

theorem step_invariant (invariant : Invariant s) (removed : s.RowRemoved event)
    (stepped : s.step event = some s') : Invariant s' := by
  cases event with
  | begin t user post =>
    simp only [step] at stepped
    split at stepped
    · rename_i idle
      cases stepped
      have held := invariant.locks t
      rw [idle] at held
      exact enter_invariant invariant held
    · contradiction
  | advance t => exact advance_invariant invariant removed stepped
  | rollback t =>
    simp only [step] at stepped
    split at stepped
    · contradiction
    · cases stepped
      exact rollback_invariant invariant

variable {users : Text → Bool} {likes : Text × Text → Option Nat} {posts : Text → Option Int}
  {nextRow : Nat}

theorem start_invariant (counted : Counted likes posts) :
    Invariant (start users likes posts nextRow) :=
  ⟨fun _ => ⟨rfl, rfl⟩, counted⟩

/-- In every run in which each like taken off a counter had a row removed for it, the
committed counters are the numbers of committed rows in every state. -/
theorem run_consistent (counted : Counted likes posts)
    (run : Run (Guarded RowRemoved fun s e s' => step s e = some s')
      (start users likes posts nextRow) events s) : s.Consistent :=
  (run.invariant (start_invariant counted) fun _ _ _ invariant stepped =>
    step_invariant invariant stepped.1 stepped.2).consistent

def ana : Text := lit "ana"
def bia : Text := lit "bia"
def photo : Text := lit "photo"

/-- One post, liked by two users. -/
def twoLikes : Text × Text → Option Nat := fun key =>
  if key = (ana, photo) then some 0 else if key = (bia, photo) then some 1 else none

def twoCounted : Text → Option Int := fun post => if post = photo then some 2 else none

theorem twoLikes_counted : Counted twoLikes twoCounted := by
  intro post likesCount found
  have same : post = photo ∧ likesCount = 2 := by
    simp only [twoCounted] at found
    split at found
    · rename_i same
      exact ⟨same, (Option.some.inj found).symm⟩
    · contradiction
  obtain ⟨rfl, rfl⟩ := same
  have differ : ana ≠ bia := by with_unfolding_all decide
  have both : likers twoLikes photo = {ana, bia} := by
    ext liker
    by_cases isAna : liker = ana <;> by_cases isBia : liker = bia <;>
      simp [likers, twoLikes, isAna, isBia, differ.symm]
  rw [both]
  exact ⟨by simp, by simp [Set.ncard_pair differ]⟩

def twoLiked : LikeTables := start (fun _ => true) twoLikes twoCounted 2

/-- The statements of one transaction that takes a like back. -/
def unlike : List Event := .begin 0 ana photo :: List.replicate 6 (.advance 0)

theorem unlike_consistent : ∃ s,
    Run (Guarded RowRemoved fun s e s' => step s e = some s') twoLiked unlike s ∧
      s.posts.committed photo = some 1 ∧ s.Consistent := by
  have seen : (execute (fun s e => if RowRemoved s e then step s e else none) unlike twoLiked).map
      (·.posts.committed photo) = some (some 1) := by
    with_unfolding_all decide
  obtain ⟨s, executed, one⟩ := Option.map_eq_some_iff.mp seen
  exact ⟨s, guarded_of_execute executed, one,
    run_consistent twoLikes_counted (guarded_of_execute executed)⟩

/-- Two transactions of one user see the same like. -/
def unlikeTwice : List Event :=
  [.begin 0 ana photo, .begin 1 ana photo, .advance 0, .advance 1] ++
    List.replicate 5 (.advance 0) ++ List.replicate 5 (.advance 1)

theorem unlikeTwice_drifts : Counted twoLikes twoCounted ∧
    ∃ s, execute step unlikeTwice twoLiked = some s ∧ s.Settled ∧ ¬s.Consistent := by
  have seen : (execute step unlikeTwice twoLiked).map (fun s =>
      (s.posts.committed photo, s.likes.committed (bia, photo), (s.phase 0).ended && (s.phase 1).ended)) =
        some (some 0, some 1, true) := by
    with_unfolding_all decide
  obtain ⟨s, executed, seen⟩ := Option.map_eq_some_iff.mp seen
  simp only [Prod.mk.injEq, Bool.and_eq_true] at seen
  obtain ⟨zero, kept, first, second⟩ := seen
  refine ⟨twoLikes_counted, s, executed, fun t => ?_, fun consistent => ?_⟩
  · by_cases isFirst : t = 0
    · exact isFirst ▸ first
    · by_cases isSecond : t = 1
      · exact isSecond ▸ second
      · have quiet : ∀ event ∈ unlikeTwice, event.transaction ≠ t := by
          simp [unlikeTwice, Event.transaction, Ne.symm isFirst, Ne.symm isSecond]
        rw [execute_phase_ne quiet executed]
        rfl
  · obtain ⟨finite, nobody⟩ := consistent photo 0 zero
    have liker : bia ∈ likers s.likes.committed photo := by simp [likers, kept]
    have positive := (Set.ncard_pos finite).mpr ⟨bia, liker⟩
    omega

end LikeTables
end Crown.ToggleLike
