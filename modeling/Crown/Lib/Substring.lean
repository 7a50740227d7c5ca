import Crown.Lib.Text

/-! Where a text is first found in a text that is put together of fields. -/
namespace Lib.Text

variable {needle name key s : Text} {c : Char}

/-- What has no `c` does not reach over one. -/
theorem prefix_append_cons_iff (apart : c ∉ needle) (s rest : Text) :
    needle <+: s ++ c :: rest ↔ needle <+: s := by
  constructor
  · intro found
    rcases List.prefix_or_prefix_of_prefix found (List.prefix_append s (c :: rest)) with
      inside | ⟨more, longer⟩
    · exact inside
    · cases more with
      | nil => exact ⟨[], by rw [List.append_nil, ← longer, List.append_nil]⟩
      | cons d more =>
        obtain ⟨tail, same⟩ := found
        rw [← longer, List.append_assoc, List.append_cancel_left_eq] at same
        obtain ⟨rfl, _⟩ := List.cons.inj same
        exact absurd (longer ▸ List.mem_append_right s (List.mem_cons_self ..)) apart
  · exact fun inside => inside.trans (List.prefix_append _ _)

theorem afterFirst_nil (filled : needle ≠ []) : afterFirst needle [] = none := if_neg filled

theorem afterFirst_isSome_iff (filled : needle ≠ []) (s : Text) :
    (afterFirst needle s).isSome = true ↔ needle <:+: s := by
  induction s with
  | nil => simp [afterFirst_nil filled, filled]
  | cons c s ih =>
    rw [afterFirst, List.infix_cons_iff]
    by_cases start : needle <+: c :: s
    · simp [start]
    · rw [if_neg start, ih]
      simp [start]

/-- The search passes over a character that the text does not have. -/
theorem afterFirst_skip (filled : needle ≠ []) (apart : c ∉ needle) (rest : Text) :
    afterFirst needle (c :: rest) = afterFirst needle rest := by
  have none : ¬needle <+: [] ++ c :: rest := by
    rw [prefix_append_cons_iff apart, List.prefix_nil]
    exact filled
  rw [afterFirst]
  exact if_neg none

/-- The search goes through a field and then through what follows it. -/
theorem afterFirst_append_cons (filled : needle ≠ []) (apart : c ∉ needle) (s rest : Text) :
    afterFirst needle (s ++ c :: rest) =
      ((afterFirst needle s).map (· ++ c :: rest)).or (afterFirst needle rest) := by
  induction s with
  | nil =>
    rw [afterFirst_nil filled]
    exact afterFirst_skip filled apart rest
  | cons d s ih =>
    have same : needle <+: d :: (s ++ c :: rest) ↔ needle <+: d :: s :=
      prefix_append_cons_iff apart (d :: s) rest
    rw [List.cons_append, afterFirst, afterFirst]
    by_cases start : needle <+: d :: s
    · rw [if_pos (same.mpr start), if_pos start, ← List.cons_append,
        List.drop_append_of_le_length start.length_le]
      rfl
    · rw [if_neg (mt same.mp start), if_neg start]
      exact ih

/-- A name and its sign stand before a key's own sign just when the key is the name. -/
theorem prefix_key_iff (name_plain : c ∉ name) (key_plain : c ∉ key) (rest : Text) :
    name ++ [c] <+: key ++ c :: rest ↔ name = key := by
  constructor
  · rintro ⟨tail, same⟩
    have fields := congrArg (before c) same
    rw [List.append_assoc, before_append name_plain, before_append key_plain] at fields
    simpa using fields
  · rintro rfl
    exact ⟨rest, by simp⟩

/-- The search stops at the sign of a key that ends in the name. -/
theorem afterFirst_key (name_plain : c ∉ name) (key_plain : c ∉ key) (rest : Text) :
    afterFirst (name ++ [c]) (key ++ c :: rest) =
      if name <:+ key then some rest else afterFirst (name ++ [c]) rest := by
  induction key with
  | nil =>
    have start : name ++ [c] <+: c :: rest ↔ name = [] := prefix_key_iff name_plain key_plain rest
    rw [List.nil_append, afterFirst]
    by_cases empty : name = []
    · rw [if_pos (start.mpr empty), if_pos (List.suffix_nil.mpr empty), empty]
      rfl
    · rw [if_neg (mt start.mp empty), if_neg (mt List.suffix_nil.mp empty)]
  | cons d key ih =>
    have start : name ++ [c] <+: d :: (key ++ c :: rest) ↔ name = d :: key :=
      prefix_key_iff name_plain key_plain rest
    rw [List.cons_append, afterFirst]
    by_cases whole : name = d :: key
    · subst whole
      rw [if_pos (start.mpr rfl), if_pos (List.suffix_refl _)]
      simp
    · have later : name <:+ d :: key ↔ name <:+ key := by
        rw [List.suffix_cons_iff]
        exact or_iff_right whole
      rw [if_neg (mt start.mp whole), ih (List.not_mem_of_not_mem_cons key_plain)]
      simp only [later]

end Lib.Text
