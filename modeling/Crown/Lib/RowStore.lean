import Mathlib

/-! A table whose rows are changed under row locks: what is committed, and for every
locked row who holds it and what it becomes when the holder commits. -/
namespace Lib

structure RowStore (τ κ ν : Type) where
  committed : κ → Option ν
  held : κ → Option (τ × Option ν)

namespace RowStore

variable {τ κ ν : Type} {store : RowStore τ κ ν} {t t' : τ} {k : κ}

/-- A table nobody has locked a row of. -/
def unlocked (rows : κ → Option ν) : RowStore τ κ ν := ⟨rows, fun _ => none⟩

/-- No other transaction holds the row. -/
def Free (store : RowStore τ κ ν) (t : τ) (k : κ) : Prop := ∀ lock ∈ store.held k, lock.1 = t

def write [DecidableEq κ] (store : RowStore τ κ ν) (t : τ) (k : κ) (v : Option ν) :
    RowStore τ κ ν :=
  { store with held := Function.update store.held k (some (t, v)) }

@[simp] theorem committed_unlocked (rows : κ → Option ν) :
    (unlocked rows : RowStore τ κ ν).committed = rows := rfl

@[simp] theorem committed_write [DecidableEq κ] (v : Option ν) :
    (store.write t k v).committed = store.committed := rfl

variable [DecidableEq τ]

instance : Decidable (store.Free t k) := inferInstanceAs (Decidable (∀ lock ∈ store.held k, lock.1 = t))

/-- What the transaction has written and not committed. -/
def writes (store : RowStore τ κ ν) (t : τ) (k : κ) : Option (Option ν) :=
  match store.held k with
  | some (owner, v) => if owner = t then some v else none
  | none => none

/-- A transaction sees what is committed and what it has written itself. -/
def read (store : RowStore τ κ ν) (t : τ) (k : κ) : Option ν :=
  (store.writes t k).getD (store.committed k)

def rollback (store : RowStore τ κ ν) (t : τ) : RowStore τ κ ν :=
  { store with held := fun k => if (store.writes t k).isSome then none else store.held k }

def commit (store : RowStore τ κ ν) (t : τ) : RowStore τ κ ν :=
  { store.rollback t with committed := store.read t }

@[simp] theorem writes_unlocked (rows : κ → Option ν) :
    (unlocked rows : RowStore τ κ ν).writes t = fun _ => none := rfl

@[simp] theorem committed_rollback : (store.rollback t).committed = store.committed := rfl

theorem committed_commit : (store.commit t).committed = store.read t := rfl

theorem held_of_writes (written : store.writes t k = some v) : store.held k = some (t, v) := by
  unfold writes at written
  split at written
  · rename_i owner w found
    split at written
    · rename_i same
      cases written
      rw [found, same]
    · contradiction
  · contradiction

/-- A row is written by one transaction at a time. -/
theorem writes_exclusive (written : store.writes t k = some v) (other : t' ≠ t) :
    store.writes t' k = none := by
  simp [writes, held_of_writes written, other.symm]

theorem writes_rollback : (store.rollback t).writes t = fun _ => none := by
  funext k
  have kept : (store.rollback t).held k =
    if (store.writes t k).isSome then none else store.held k := rfl
  cases written : store.writes t k with
  | some v =>
    rw [written] at kept
    simp only [writes, kept]
    rfl
  | none =>
    rw [written] at kept
    simp only [writes, kept]
    exact written

theorem writes_rollback_ne (other : t' ≠ t) : (store.rollback t).writes t' = store.writes t' := by
  funext k
  have kept : (store.rollback t).held k =
    if (store.writes t k).isSome then none else store.held k := rfl
  cases written : store.writes t k with
  | some v =>
    rw [written] at kept
    rw [writes_exclusive written other]
    simp only [writes, kept]
    rfl
  | none =>
    rw [written] at kept
    simp only [writes, kept]
    rfl

theorem writes_commit : (store.commit t).writes t = fun _ => none :=
  (writes_rollback : (store.rollback t).writes t = _)

theorem writes_commit_ne (other : t' ≠ t) : (store.commit t).writes t' = store.writes t' :=
  (writes_rollback_ne other : (store.rollback t).writes t' = _)

/-- A commit leaves the rows of the other transactions as they were. -/
theorem committed_commit_of_writes (written : store.writes t' k = some v) (other : t' ≠ t) :
    (store.commit t).committed k = store.committed k := by
  simp [committed_commit, read, writes_exclusive written other.symm]

theorem read_of_no_writes (nothing : store.writes t = fun _ => none) :
    store.read t = store.committed := by
  funext k
  simp [read, nothing]

variable [DecidableEq κ]

/-- A transaction that wrote one row changes this row when it commits. -/
theorem read_of_one_write (one : store.writes t = Function.update (fun _ => none) k (some v)) :
    store.read t = Function.update store.committed k v := by
  funext k'
  by_cases same : k' = k
  · subst same
    simp [read, one]
  · simp [read, one, same]

theorem writes_write (v : Option ν) :
    (store.write t k v).writes t = Function.update (store.writes t) k (some v) := by
  funext k'
  by_cases same : k' = k
  · subst same
    simp [writes, write]
  · simp [writes, write, same]

theorem writes_write_ne (free : store.Free t k) (other : t' ≠ t) (v : Option ν) :
    (store.write t k v).writes t' = store.writes t' := by
  funext k'
  by_cases same : k' = k
  · subst same
    cases locked : store.held k' with
    | none => simp [writes, write, locked, other.symm]
    | some lock =>
      obtain ⟨owner, w⟩ := lock
      have own : owner = t := free (owner, w) locked
      simp [writes, write, locked, own, other.symm]
  · simp [writes, write, same]

end RowStore
end Lib
