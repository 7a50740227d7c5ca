import Mathlib

/-! Recorded times in order. What is too old stands in front, so dropping from the
front forgets exactly what is out of the window, now and ever after. -/
namespace Lib.SlidingWindow

variable {τ : Type} [LinearOrder τ]

/-- The times not forgotten at a cutoff. -/
def young (cutoff : τ) (times : List τ) : List τ := times.filter (cutoff < ·)

/-- Times in order, none later than `now`. -/
structure Recorded (now : τ) (times : List τ) : Prop where
  sorted : times.Pairwise (· ≤ ·)
  past : ∀ time ∈ times, time ≤ now

variable {now cutoff cutoff' time : τ} {times kept : List τ}

theorem dropWhile_eq_young (sorted : times.Pairwise (· ≤ ·)) :
    times.dropWhile (· ≤ cutoff) = young cutoff times := by
  unfold young
  induction times with
  | nil => rfl
  | cons first rest ih =>
    obtain ⟨later, sorted⟩ := List.pairwise_cons.mp sorted
    by_cases old : first ≤ cutoff
    · rw [List.dropWhile_cons_of_pos (by simpa using old), ih sorted,
        List.filter_cons_of_neg (by simpa using old)]
    · have young : cutoff < first := not_le.mp old
      rw [List.dropWhile_cons_of_neg (by simpa using old), eq_comm, List.filter_eq_self]
      intro time member
      rcases List.mem_cons.mp member with rfl | member
      · simpa using young
      · simpa using lt_of_lt_of_le young (later time member)

theorem young_young (later : cutoff ≤ cutoff') : young cutoff' (young cutoff times) = young cutoff' times := by
  unfold young
  rw [List.filter_filter]
  refine List.filter_congr fun time _ => ?_
  simpa using lt_of_le_of_lt later

theorem Recorded.young (recorded : Recorded now times) (cutoff : τ) :
    Recorded now (young cutoff times) :=
  ⟨recorded.sorted.sublist List.filter_sublist,
    fun time member => recorded.past time (List.mem_of_mem_filter member)⟩

theorem Recorded.later (recorded : Recorded now times) (later : now ≤ now') : Recorded now' times :=
  ⟨recorded.sorted, fun time member => (recorded.past time member).trans later⟩

theorem Recorded.append (recorded : Recorded now times) (next : now ≤ time) :
    Recorded time (times ++ [time]) := by
  constructor
  · rw [List.pairwise_append]
    refine ⟨recorded.sorted, List.pairwise_singleton .., fun old member new only => ?_⟩
    rw [List.mem_singleton.mp only]
    exact (recorded.past old member).trans next
  · intro old member
    rcases List.mem_append.mp member with member | only
    · exact (recorded.past old member).trans next
    · rw [List.mem_singleton.mp only]

/-- What is kept of the times: whatever is out of the window at `cutoff` may be missing. -/
def Keeps (cutoff : τ) (times kept : List τ) : Prop :=
  ∀ later, cutoff ≤ later → young later kept = young later times

theorem Keeps.refl (cutoff : τ) (times : List τ) : Keeps cutoff times times := fun _ _ => rfl

theorem Keeps.mono (keeps : Keeps cutoff times kept) (later : cutoff ≤ cutoff') :
    Keeps cutoff' times kept :=
  fun last after => keeps last (later.trans after)

theorem Keeps.young (keeps : Keeps cutoff times kept) : Keeps cutoff times (young cutoff kept) := by
  intro later after
  rw [young_young after, keeps later after]

theorem Keeps.append (keeps : Keeps cutoff times kept) (time : τ) :
    Keeps cutoff (times ++ [time]) (kept ++ [time]) := by
  intro later after
  have same := keeps later after
  unfold SlidingWindow.young at same ⊢
  rw [List.filter_append, List.filter_append, same]

end Lib.SlidingWindow
