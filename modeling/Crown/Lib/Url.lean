import Crown.Lib.Text

/-! Reading the query of a URL: the fragment is dropped, what follows the first
question mark is split at the ampersands, every part at its first equals sign,
and both sides are percent-decoded. -/
namespace Lib.Url

open Text

def query (url : Text) : Text := after '?' (before '#' url)

def pair (part : Text) : Text × Text :=
  (percentDecode (before '=' part), percentDecode (after '=' part))

/-- An empty query carries no pair at all. -/
def pairs (query : Text) : List (Text × Text) :=
  if query = [] then [] else (query.splitOn '&').map pair

def read (url : Text) : List (Text × Text) := pairs (query url)

/-- Splitting peels off what stands before the first separator. -/
theorem splitOn_eq (c : Char) (s : Text) :
    s.splitOn c = before c s :: (if c ∈ s then (after c s).splitOn c else []) := by
  induction s with
  | nil => simp [before]
  | cons x s ih =>
    rw [List.splitOn_cons_eq_if_modifyHead]
    by_cases same : x = c
    · subst same
      simp [after]
    · have other : c ≠ x := Ne.symm same
      rw [if_neg (by simpa using same), ih]
      simp [before, after, same, other]

/-- The parts hold nothing that the text does not. -/
theorem mem_of_mem_splitOn {s part : Text} (inside : part ∈ s.splitOn c) (member : x ∈ part) :
    x ∈ s := by
  induction s generalizing part with
  | nil =>
    rw [List.splitOn_nil, List.mem_singleton] at inside
    exact inside ▸ member
  | cons y s ih =>
    rw [List.splitOn_cons_eq_if_modifyHead] at inside
    split at inside
    · rcases List.mem_cons.mp inside with rfl | later
      · cases member
      · exact List.mem_cons_of_mem _ (ih later member)
    · obtain ⟨first, rest, split⟩ := List.exists_cons_of_ne_nil (List.splitOn_ne_nil c s)
      rw [split] at inside ih
      rcases List.mem_cons.mp inside with rfl | later
      · rcases List.mem_cons.mp member with rfl | member
        · exact List.mem_cons_self
        · exact List.mem_cons_of_mem _ (ih List.mem_cons_self member)
      · exact List.mem_cons_of_mem _ (ih (List.mem_cons_of_mem _ later) member)

/-- Where a part of a query ends: at an ampersand or at the fragment. -/
def inPart (c : Char) : Bool := c ≠ '#' && c ≠ '&'

theorem before_amp_before_hash (s : Text) : before '&' (before '#' s) = s.takeWhile inPart := by
  simp only [before, List.takeWhile_takeWhile]
  congr 1
  funext c
  simp [inPart, Bool.and_comm]

theorem query_append (question : '?' ∉ table) (hash : '#' ∉ table) (rest : Text) :
    query (table ++ '?' :: rest) = before '#' rest := by
  have cut : before '#' (table ++ '?' :: rest) = table ++ '?' :: before '#' rest := by
    rw [before_append hash]
    simp [before]
  rw [query, cut, after_append question]

theorem pair_signed (sign : '=' ∉ name) (value : Text) :
    pair (name ++ '=' :: value) = (percentDecode name, percentDecode value) := by
  rw [pair, after_append sign, before_append sign, before_cons_self, List.append_nil]

/-- A part made of a plain name, an equals sign and a value is read as the name
and the decoded value. -/
theorem pair_append (sign : '=' ∉ name) (plain : hasEscape name = false) (value : Text) :
    pair (name ++ '=' :: value) = (name, percentDecode value) := by
  rw [pair_signed sign, percentDecode_eq_self plain]

end Lib.Url
