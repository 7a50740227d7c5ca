import Mathlib

/-! Sets of which every step puts one element in or takes it out. -/
namespace Lib.Toggling

variable {κ : Type} {s : Set κ} {k x : κ}

def toggled (s : Set κ) (k : κ) : Set κ := symmDiff s {k}

theorem mem_toggled : x ∈ toggled s k ↔ (x ∈ s ↔ x ≠ k) := by
  rw [toggled, Set.mem_symmDiff, Set.mem_singleton_iff]
  tauto

/-- Steps flip the elements whose turn came an odd number of times. -/
theorem mem_foldl_toggled [BEq κ] [LawfulBEq κ] (keys : List κ) (s : Set κ) (x : κ) :
    x ∈ keys.foldl toggled s ↔ (x ∈ s ↔ Even (keys.count x)) := by
  induction keys generalizing s with
  | nil => simp
  | cons k keys ih =>
    rw [List.foldl_cons, ih, mem_toggled, List.count_cons]
    by_cases same : k = x
    · subst same
      rw [if_pos (beq_self_eq_true k), Nat.even_add_one]
      tauto
    · have other : x ≠ k := Ne.symm same
      rw [if_neg (by simpa using same), Nat.add_zero]
      tauto

section

variable [DecidableEq κ] {rows : List κ}

/-- A set kept as its rows, none of them twice. -/
def toggledRows (rows : List κ) (k : κ) : List κ :=
  if k ∈ rows then rows.filter (· ≠ k) else k :: rows

theorem mem_toggledRows : x ∈ toggledRows rows k ↔ (x ∈ rows ↔ x ≠ k) := by
  unfold toggledRows
  by_cases same : x = k
  · subst same
    by_cases present : x ∈ rows <;> simp [present]
  · split <;> simp [same]

theorem toggledRows_nodup (distinct : rows.Nodup) : (toggledRows rows k).Nodup := by
  unfold toggledRows
  split
  · exact distinct.filter _
  · rename_i absent
    exact List.nodup_cons.mpr ⟨absent, distinct⟩

/-- One row more or one row less. -/
theorem countP_toggledRows (distinct : rows.Nodup) (p : κ → Bool) :
    ((toggledRows rows k).countP p : Int) =
      rows.countP p + if p k then (if k ∈ rows then -1 else 1) else 0 := by
  unfold toggledRows
  by_cases present : k ∈ rows
  · have erased : rows.filter (· ≠ k) = rows.erase k := by
      rw [distinct.erase_eq_filter]
      exact List.filter_congr fun x _ => by simp [bne, BEq.beq]
    have counted := List.countP_erase p rows k
    have positive : p k = true → 0 < rows.countP p := fun holds =>
      List.countP_pos_iff.mpr ⟨k, present, holds⟩
    rw [if_pos present, if_pos present, erased, counted]
    by_cases holds : p k = true
    · have stored := positive holds
      simp only [present, holds, and_self, if_true]
      omega
    · simp [holds]
  · rw [if_neg present, if_neg present, List.countP_cons]
    split <;> simp

end

end Lib.Toggling
