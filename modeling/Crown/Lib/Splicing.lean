import Mathlib

/-! A list out of which elements are taken, and into which they are put back at a place
that was remembered when the list was another one. -/
namespace Lib.Splicing

variable {α : Type} [DecidableEq α] {x : α} {original gone gone' front back : List α}

/-- Behind the end there is only the end. -/
def insertAt (i : Nat) (x : α) (xs : List α) : List α := xs.take i ++ x :: xs.drop i

/-- What is left of a list, in its order. -/
def kept (gone original : List α) : List α := original.filter (· ∉ gone)

theorem kept_congr (same : ∀ y, y ∈ gone ↔ y ∈ gone') : kept gone original = kept gone' original := by
  rw [kept, kept]
  simp only [same]

theorem mem_kept : x ∈ kept gone original ↔ x ∈ original ∧ x ∉ gone := by
  simp [kept]

/-- Taking an element out of its place takes it out of what is left. -/
theorem kept_eraseIdx (distinct : original.Nodup) (here : (kept gone original)[i]? = some x) :
    (kept gone original).eraseIdx i = kept (x :: gone) original := by
  obtain ⟨inside, same⟩ := List.getElem?_eq_some_iff.mp here
  have apart : (kept gone original).Nodup := distinct.filter _
  rw [← apart.erase_getElem i inside, same, apart.erase_eq_filter, kept, List.filter_filter, kept]
  refine List.filter_congr fun y _ => ?_
  simp [bne, beq_eq_decide]

theorem insertAt_eq_iff (before : x ∉ front) (after : x ∉ back) (i : Nat) :
    insertAt i x (front ++ back) = front ++ x :: back ↔
      min i (front ++ back).length = front.length := by
  constructor
  · intro same
    have absent : x ∉ (front ++ back).take i := fun member =>
      (List.mem_append.mp (List.mem_of_mem_take member)).elim before after
    have places := congrArg (List.idxOf x) same
    rw [insertAt, List.idxOf_append_of_notMem absent, List.idxOf_append_of_notMem before,
      List.idxOf_cons_self, List.idxOf_cons_self, List.length_take] at places
    simpa using places
  · intro place
    have taken : (front ++ back).take i = front := by
      have same : (front ++ back).take i = (front ++ back).take front.length :=
        List.take_eq_take_iff.mpr (by rw [place]; simp)
      rw [same, List.take_left]
    have dropped : (front ++ back).drop i = back := by
      have whole := List.take_append_drop i (front ++ back)
      rw [taken] at whole
      exact List.append_cancel_left whole
    rw [insertAt, taken, dropped]

/-- An element is put back into what is left exactly when the place, or the end of the
list if that comes first, has as many elements in front of it as are left of those that
stood in front of it at first. -/
theorem insertAt_kept_iff (distinct : original.Nodup) (member : x ∈ original)
    (taken : ∀ y, y ∈ gone ↔ y = x ∨ y ∈ gone') (back : x ∉ gone') (i : Nat) :
    insertAt i x (kept gone original) = kept gone' original ↔
      min i (kept gone original).length =
        (kept gone (original.takeWhile (· ≠ x))).length := by
  obtain ⟨before, after, rfl, absent⟩ := List.eq_append_cons_of_mem member
  have behind : x ∉ after := by
    have apart := distinct
    rw [List.nodup_middle, List.nodup_cons] at apart
    exact fun later => apart.1 (List.mem_append_right _ later)
  have out (part : List α) (without : x ∉ part) : kept gone part = kept gone' part := by
    refine List.filter_congr fun y inside => ?_
    have other : y ≠ x := fun same => without (same ▸ inside)
    simp [taken, other]
  have start : (before ++ x :: after).takeWhile (· ≠ x) = before := by
    rw [List.takeWhile_append_of_pos fun y inside => by
      simpa using fun same : y = x => absent (same ▸ inside)]
    simp
  have left : kept gone (before ++ x :: after) = kept gone before ++ kept gone after := by
    have gone_x : x ∈ gone := (taken x).mpr (.inl rfl)
    simp [kept, List.filter_append, gone_x]
  have right : kept gone' (before ++ x :: after) = kept gone before ++ x :: kept gone after := by
    rw [out before absent, out after behind]
    simp [kept, List.filter_append, back]
  rw [start, left, right]
  exact insertAt_eq_iff (fun inside => absent (mem_kept.mp inside).1)
    (fun inside => behind (mem_kept.mp inside).1) i

end Lib.Splicing
