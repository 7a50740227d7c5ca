import Mathlib

/-! Parts of a text that begin at a word boundary, as `\b` has them in front of a word. -/
namespace Lib.Boundary

variable {α : Type} {word : α → Bool} {Part : List α → Prop}
variable {after : Bool} {u : α} {s front : List α}

/-- The text begins with such a part. -/
def Starts (Part : List α → Prop) (s : List α) : Prop := ∃ part, Part part ∧ part <+: s

/-- Whether a word character stands at the end, or in front of a text where that is empty. -/
def behind (word : α → Bool) (after : Bool) (before : List α) : Bool :=
  (before.getLast?.map word).getD after

/-- The text has such a part with no word character in front of it; `after` says whether one
stands in front of the text. -/
def Found (word : α → Bool) (Part : List α → Prop) (after : Bool) (s : List α) : Prop :=
  ∃ before part rest, s = before ++ (part ++ rest) ∧ Part part ∧ behind word after before = false

theorem behind_cons (u : α) (before : List α) :
    behind word after (u :: before) = behind word (word u) before := by
  unfold behind
  rw [List.getLast?_cons]
  cases before.getLast? <;> rfl

theorem behind_concat (before : List α) (u : α) :
    behind word after (before ++ [u]) = word u := by
  rw [behind, List.getLast?_concat]
  rfl

theorem starts_of_eq {part : List α} (same : s = part ++ front) (has : Part part) :
    Starts Part s := ⟨part, has, front, same.symm⟩

theorem found_nil (filled : ∀ part, Part part → part ≠ []) : ¬Found word Part after [] := by
  rintro ⟨before, part, rest, same, has, -⟩
  have empty := (List.append_eq_nil_iff.mp same.symm).2
  exact filled part has (List.append_eq_nil_iff.mp empty).1

theorem found_cons : Found word Part after (u :: s) ↔
    (after = false ∧ Starts Part (u :: s)) ∨ Found word Part (word u) s := by
  constructor
  · rintro ⟨before, part, rest, same, has, boundary⟩
    cases before with
    | nil => exact .inl ⟨boundary, part, has, rest, same.symm⟩
    | cons v before =>
      obtain ⟨rfl, rfl⟩ := List.cons.inj same
      rw [behind_cons] at boundary
      exact .inr ⟨before, part, rest, rfl, has, boundary⟩
  · rintro (⟨rfl, part, has, rest, same⟩ | ⟨before, part, rest, rfl, has, boundary⟩)
    · exact ⟨[], part, rest, same.symm, has, rfl⟩
    · refine ⟨u :: before, part, rest, rfl, has, ?_⟩
      rw [behind_cons]
      exact boundary

/-- Nothing is found in the middle of a word. -/
theorem found_word (inside : ∀ u ∈ front, word u = true) :
    Found word Part true (front ++ s) ↔ Found word Part true s := by
  induction front with
  | nil => exact Iff.rfl
  | cons u front ih =>
    obtain ⟨letter, later⟩ := List.forall_mem_cons.mp inside
    rw [List.cons_append, found_cons, letter, ih later]
    simp

/-- Nothing is found where nothing begins, and the next word begins at a boundary. -/
theorem found_between (between : ∀ u ∈ front, word u = false ∧ ∀ s, ¬Starts Part (u :: s)) :
    Found word Part false (front ++ s) ↔ Found word Part false s := by
  induction front with
  | nil => exact Iff.rfl
  | cons u front ih =>
    obtain ⟨⟨gap, none⟩, later⟩ := List.forall_mem_cons.mp between
    rw [List.cons_append, found_cons, gap, ih later]
    simp [none]

/-- The same holds behind a word. -/
theorem found_behind (between : ∀ u ∈ front, word u = false ∧ ∀ s, ¬Starts Part (u :: s))
    (filled : front ≠ []) (after : Bool) :
    Found word Part after (front ++ s) ↔ Found word Part false s := by
  cases front with
  | nil => exact absurd rfl filled
  | cons u front =>
    obtain ⟨⟨gap, none⟩, later⟩ := List.forall_mem_cons.mp between
    rw [List.cons_append, found_cons, gap, found_between later]
    simp [none]

/-- A run of characters of a kind ends here. -/
def Stops (kind : α → Bool) (rest : List α) : Prop := ∀ u ∈ rest.head?, kind u = false

section

variable {kind : α → Bool} {run run' rest rest' : List α}

theorem stops_nil : Stops kind [] := by
  rintro u ⟨⟩

theorem stops_cons : Stops kind (u :: rest) ↔ kind u = false := by
  simp [Stops]

theorem stops_dropWhile (kind : α → Bool) (s : List α) : Stops kind (s.dropWhile kind) := by
  have stop := List.head?_dropWhile_not kind s
  intro u head
  rw [Option.mem_def.mp head] at stop
  simpa using stop

theorem run_taken (all : ∀ u ∈ run, kind u = true) (stop : Stops kind rest) :
    (run ++ rest).takeWhile kind = run ∧ (run ++ rest).dropWhile kind = rest := by
  rw [List.takeWhile_append_of_pos all, List.dropWhile_append_of_pos all]
  cases rest with
  | nil => exact ⟨List.append_nil run, rfl⟩
  | cons u rest =>
    rw [stops_cons] at stop
    have other : ¬kind u = true := by simp [stop]
    rw [List.takeWhile_cons_of_neg other, List.dropWhile_cons_of_neg other]
    exact ⟨List.append_nil run, rfl⟩

theorem dropWhile_of_stops (stop : Stops kind rest) : rest.dropWhile kind = rest :=
  (run_taken (by simp : ∀ u ∈ ([] : List α), kind u = true) stop).2

theorem Stops.start (stop : Stops kind rest) (start : run <+: rest) : Stops kind run := by
  obtain ⟨more, rfl⟩ := start
  cases run with
  | nil => exact stops_nil
  | cons u run =>
    rw [List.cons_append, stops_cons] at stop
    rw [stops_cons]
    exact stop

/-- Where a run ends is determined by the text. -/
theorem run_unique (all : ∀ u ∈ run, kind u = true) (all' : ∀ u ∈ run', kind u = true)
    (stop : Stops kind rest) (stop' : Stops kind rest') (same : run ++ rest = run' ++ rest') :
    run = run' ∧ rest = rest' := by
  obtain ⟨taken, dropped⟩ := run_taken all stop
  obtain ⟨taken', dropped'⟩ := run_taken all' stop'
  rw [same] at taken dropped
  exact ⟨taken.symm.trans taken', dropped.symm.trans dropped'⟩

end

end Lib.Boundary
