import Mathlib

/-! Pieces written one after the other by a writer that looks only at the last
element it has written: it puts a separator before the next piece unless what it
holds is empty or ends in a mark. -/
namespace Lib.Gluing

variable {α : Type} [DecidableEq α]

def glue (mark separator : α) (held piece : List α) : List α :=
  (if held ≠ [] ∧ held.getLast? ≠ some mark then held ++ [separator] else held) ++ piece

/-- What stands between a piece and the next one. -/
def gap (mark separator : α) (piece : List α) : List α :=
  if piece.getLast? = some mark then [] else [separator]

/-- What the writer adds for the pieces, the first one apart. -/
def glued (mark separator : α) : List (List α) → List α
  | [] => []
  | [piece] => piece
  | piece :: next :: rest => piece ++ gap mark separator piece ++ glued mark separator (next :: rest)

variable {mark separator : α}

@[simp] theorem glued_nil : glued mark separator [] = [] := rfl

@[simp] theorem glued_singleton (piece : List α) : glued mark separator [piece] = piece := rfl

@[simp] theorem glued_cons_cons (piece next : List α) (rest : List (List α)) :
    glued mark separator (piece :: next :: rest) =
      piece ++ gap mark separator piece ++ glued mark separator (next :: rest) := rfl

theorem glue_nonempty (held : List α) (nonempty : piece ≠ []) :
    glue mark separator (held ++ piece) next = held ++ piece ++ gap mark separator piece ++ next := by
  have last : (held ++ piece).getLast? = piece.getLast? := List.getLast?_append_of_ne_nil _ nonempty
  have written : held ++ piece ≠ [] := by simp [nonempty]
  by_cases marked : piece.getLast? = some mark
  · rw [glue, gap, if_pos marked, if_neg (by simp [last, marked]), List.append_nil]
  · rw [glue, gap, if_neg marked, if_pos ⟨written, last ▸ marked⟩]

theorem foldl_glue (held : List α) (nonempty : ∀ part ∈ piece :: pieces, part ≠ []) :
    pieces.foldl (glue mark separator) (held ++ piece) =
      held ++ glued mark separator (piece :: pieces) := by
  induction pieces generalizing held piece with
  | nil => simp
  | cons next rest ih =>
    have later : ∀ part ∈ next :: rest, part ≠ [] :=
      fun part member => nonempty part (List.mem_cons_of_mem _ member)
    rw [List.foldl_cons, glue_nonempty held (nonempty _ List.mem_cons_self), ih _ later]
    simp

/-- A writer that starts on the mark puts nothing before the first piece. -/
theorem foldl_glue_mark (front : List α) (nonempty : ∀ piece ∈ pieces, piece ≠ []) :
    pieces.foldl (glue mark separator) (front ++ [mark]) =
      front ++ mark :: glued mark separator pieces := by
  cases pieces with
  | nil => simp
  | cons piece rest =>
    have first : glue mark separator (front ++ [mark]) piece = front ++ [mark] ++ piece := by
      simp [glue]
    rw [List.foldl_cons, first, foldl_glue _ nonempty]
    simp

/-- Every piece that ends in the mark costs the separator behind it. -/
theorem intercalate_length (mark separator : α) (pieces : List (List α)) :
    (List.intercalate [separator] pieces).length =
      (glued mark separator pieces).length +
        pieces.dropLast.countP (fun piece => piece.getLast? = some mark) := by
  fun_induction glued mark separator pieces with
  | case1 => simp
  | case2 piece => simp
  | case3 piece next rest ih =>
    rw [List.intercalate_cons_cons, List.dropLast_cons_cons, List.countP_cons]
    simp only [List.length_append, ih, gap]
    split <;> simp_all <;> omega

theorem glued_eq_intercalate_iff (pieces : List (List α)) :
    glued mark separator pieces = List.intercalate [separator] pieces ↔
      ∀ piece ∈ pieces.dropLast, piece.getLast? ≠ some mark := by
  constructor
  · intro same
    have lengths := intercalate_length mark separator pieces
    rw [← same] at lengths
    have none : pieces.dropLast.countP (fun piece => piece.getLast? = some mark) = 0 := by omega
    simpa [List.countP_eq_zero] using none
  · intro unmarked
    fun_induction glued mark separator pieces with
    | case1 => simp
    | case2 piece => simp
    | case3 piece next rest ih =>
      rw [List.dropLast_cons_cons, List.forall_mem_cons] at unmarked
      rw [List.intercalate_cons_cons, gap, if_neg unmarked.1, ih unmarked.2]

end Lib.Gluing
