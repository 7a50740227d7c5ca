import Crown.ClientSanitize
import Crown.Lib.Boundary

/-! What `stripHtml` of `composables/sanitize.ts` leaves of a text. Tags are taken out once, and
then attributes that handle events; what stood around an attribute is joined. -/
namespace Crown.Client

open Lib
open Boundary (Starts Found Stops)

/-- A match of `HTML_TAG_RE`. -/
def IsTag (part : JsString) : Prop :=
  ∃ inner, part = unit '<' :: (inner ++ [unit '>']) ∧ unit '>' ∉ inner

/-- No part of the text is a tag. -/
def Tagless (s : JsString) : Prop := ∀ part, IsTag part → ¬part <:+: s

/-- The text that is left of an input when its tags are taken out, from left to right. -/
inductive Untagged : JsString → JsString → Prop where
  | done : Untagged [] []
  | tag {inner rest text : JsString} (closed : unit '>' ∉ inner) (left : Untagged rest text) :
      Untagged (unit '<' :: (inner ++ unit '>' :: rest)) text
  | kept {u : UInt16} {rest text : JsString} (single : u = unit '<' → unit '>' ∉ rest)
      (left : Untagged rest text) : Untagged (u :: rest) (u :: text)

/-- `on\w+`. -/
def EventName (name : JsString) : Prop :=
  ∃ o n word, name = o :: n :: word ∧ lower o = unit 'o' ∧ lower n = unit 'n' ∧ word ≠ [] ∧
    ∀ u ∈ word, isWord u = true

def Spaces (s : JsString) : Prop := ∀ u ∈ s, isSpace u = true

/-- `on\w+\s*=`. -/
def Attr (part : JsString) : Prop :=
  ∃ name spaces, part = name ++ (spaces ++ [unit '=']) ∧ EventName name ∧ Spaces spaces

/-- `(?:\s|on\w+\s*=)*`. -/
inductive Gap : JsString → Prop where
  | done : Gap []
  | space {u : UInt16} {gap : JsString} (space : isSpace u = true) (more : Gap gap) :
      Gap (u :: gap)
  | attr {part gap : JsString} (attr : Attr part) (more : Gap gap) : Gap (part ++ gap)

/-- `on\w+\s+on\w+\s*=(?:\s|on\w+\s*=)*=`. -/
def Rejoining (part : JsString) : Prop :=
  ∃ name spaces attr gap, part = name ++ (spaces ++ (attr ++ (gap ++ [unit '=']))) ∧
    EventName name ∧ Spaces spaces ∧ spaces ≠ [] ∧ Attr attr ∧ Gap gap

/-- `DANGEROUS_ATTRS_RE` does not match. -/
def Attrless (s : JsString) : Prop := ¬Found isWord Attr false s

/-- An event's name is separated from an equals sign by attributes that are taken out. -/
def Rejoined (s : JsString) : Prop := Found isWord Rejoining false s

/-- No opening bracket stands anywhere before a closing one. -/
theorem tagless_iff {s : JsString} : Tagless s ↔ ¬[unit '<', unit '>'].Sublist s := by
  constructor
  · intro tagless found
    obtain ⟨before, rest, rfl, opens, closes⟩ := List.append_sublist_iff.mp
      (show ([unit '<'] ++ [unit '>']).Sublist s from found)
    obtain ⟨front, back, rfl⟩ := List.append_of_mem (List.singleton_sublist.mp opens)
    obtain ⟨inner, after, split, single⟩ := List.eq_append_cons_of_mem
      (List.mem_append_right back (List.singleton_sublist.mp closes))
    refine tagless _ ⟨inner, rfl, single⟩ ⟨front, after, ?_⟩
    simp only [List.append_assoc, List.cons_append, List.nil_append, split]
  · rintro none _ ⟨inner, rfl, -⟩ part
    refine none (List.Sublist.trans ?_ part.sublist)
    exact .cons_cons _ (List.singleton_sublist.mpr (by simp))

theorem trim_sublist (s : JsString) : (trim s).Sublist s := by
  unfold trim
  have back := List.dropWhile_sublist (l := (s.dropWhile isSpace).reverse) isSpace
  exact (List.reverse_reverse (s.dropWhile isSpace) ▸ back.reverse).trans
    (List.dropWhile_sublist isSpace)

theorem withoutTags_sublist (inTag : Bool) (s : JsString) : (withoutTags inTag s).Sublist s := by
  induction s generalizing inTag with
  | nil => exact .slnil
  | cons u rest ih =>
    cases inTag with
    | true => exact (ih _).cons u
    | false =>
      rw [withoutTags]
      split
      · exact (ih _).cons u
      · exact (ih _).cons_cons u

theorem withoutAttrs_sublist (afterWord : Bool) (matched : Nat) (s : JsString) :
    (withoutAttrs afterWord matched s).Sublist s := by
  induction s generalizing afterWord matched with
  | nil => exact .slnil
  | cons u rest ih =>
    cases matched with
    | succ matched => exact (ih _ _).cons u
    | zero =>
      rw [withoutAttrs]
      split
      · exact (ih _ _).cons u
      · exact (ih _ _).cons_cons u

/-- Behind a bracket that is left no closing one follows. -/
theorem withoutTags_closed (inTag : Bool) (s : JsString) :
    ¬[unit '<', unit '>'].Sublist (withoutTags inTag s) := by
  induction s generalizing inTag with
  | nil => exact fun found => List.cons_ne_nil _ _ (List.sublist_nil.mp found)
  | cons u rest ih =>
    cases inTag with
    | true => exact ih _
    | false =>
      rw [withoutTags]
      split
      · exact ih _
      · rename_i unopened
        intro found
        cases found with
        | cons _ later => exact ih _ later
        | cons_cons _ later =>
          have closing := (withoutTags_sublist false rest).subset (List.singleton_sublist.mp later)
          simp [closing] at unopened

theorem stripHtml_closed (input : JsString) : ¬[unit '<', unit '>'].Sublist (stripHtml input) :=
  fun found => withoutTags_closed false input
    (found.trans ((trim_sublist _).trans (withoutAttrs_sublist ..)))

/-- Neither what `stripHtml` leaves nor any beginning of it has a tag. -/
theorem stripHtml_tagless (input : JsString) :
    Tagless (stripHtml input) ∧ ∀ max, Tagless (sanitizeString input max) := by
  refine ⟨tagless_iff.mpr (stripHtml_closed input), fun max => tagless_iff.mpr fun found => ?_⟩
  exact stripHtml_closed input (found.trans (List.take_sublist max _))

theorem word_ascii {u : UInt16} (word : isWord u = true) : u.toNat < 0x80 := by
  simp only [isWord, between, Bool.or_eq_true, Bool.and_eq_true, decide_eq_true_eq,
    UInt16.le_iff_toNat_le] at word
  have small : (unit 'z').toNat = 122 := by decide
  have capital : (unit 'Z').toNat = 90 := by decide
  have nine : (unit '9').toNat = 57 := by decide
  rcases word with ((word | word) | word) | rfl
  · omega
  · omega
  · omega
  · decide

theorem word_not_space {u : UInt16} (word : isWord u = true) : isSpace u = false := by
  have table : ∀ n < 0x80, isWord (UInt16.ofNat n) = true → isSpace (UInt16.ofNat n) = false := by
    decide
  simpa using table u.toNat (word_ascii word) (by simpa using word)

theorem space_not_word {u : UInt16} (space : isSpace u = true) : isWord u = false := by
  by_contra word
  rw [word_not_space (Bool.of_not_eq_false word)] at space
  cases space

theorem equals_apart : isWord (unit '=') = false ∧ isSpace (unit '=') = false := by
  decide

theorem word_of_lower {u c : UInt16} (lowered : lower u = c) (letter : between 'a' 'z' c = true) :
    isWord u = true := by
  unfold lower at lowered
  split at lowered
  · rename_i upper
    simp [isWord, upper]
  · simp [isWord, lowered, letter]

theorem EventName.word {name : JsString} (named : EventName name) :
    name ≠ [] ∧ ∀ u ∈ name, isWord u = true := by
  obtain ⟨o, n, word, rfl, first, second, -, letters⟩ := named
  refine ⟨List.cons_ne_nil _ _, List.forall_mem_cons.mpr ⟨word_of_lower first (by decide), ?_⟩⟩
  exact List.forall_mem_cons.mpr ⟨word_of_lower second (by decide), letters⟩

/-- What follows an event's name in an attribute does not go on with the word. -/
theorem stop_spaces {spaces : JsString} (space : Spaces spaces) (rest : JsString) :
    Stops isWord (spaces ++ unit '=' :: rest) := by
  cases spaces with
  | nil => exact Boundary.stops_cons.mpr equals_apart.1
  | cons v spaces => exact Boundary.stops_cons.mpr (space_not_word (space _ List.mem_cons_self))

theorem stop_equals (rest : JsString) : Stops isSpace (unit '=' :: rest) :=
  Boundary.stops_cons.mpr equals_apart.2

theorem attrLength_attr {part : JsString} (attr : Attr part) (after : JsString) :
    attrLength (part ++ after) = some part.length := by
  obtain ⟨name, spaces, rfl, ⟨o, n, word, rfl, first, second, filled, letters⟩, space⟩ := attr
  obtain ⟨taken, dropped⟩ := Boundary.run_taken letters (stop_spaces space after)
  have passed := (Boundary.run_taken space (stop_equals after)).2
  have parts : o :: n :: word ++ (spaces ++ [unit '=']) ++ after =
      o :: n :: (word ++ (spaces ++ unit '=' :: after)) := by simp
  rw [parts, attrLength, if_pos ⟨first, second, taken.symm ▸ filled⟩, dropped, passed]
  simp only [if_true, Option.some.injEq, List.length_cons, List.length_append, List.length_nil]
  omega

theorem attr_of_attrLength {s : JsString} {length : Nat} (found : attrLength s = some length) :
    ∃ part after, s = part ++ after ∧ Attr part ∧ length = part.length := by
  unfold attrLength at found
  split at found
  · rename_i o n rest
    split at found
    · rename_i named
      obtain ⟨first, second, filled⟩ := named
      split at found
      · rename_i equals after split
        split at found
        · rename_i sign
          cases found
          subst sign
          have word := List.takeWhile_append_dropWhile (p := isWord) (l := rest)
          have spaces := List.takeWhile_append_dropWhile (p := isSpace) (l := rest.dropWhile isWord)
          rw [split] at spaces
          refine ⟨o :: n :: rest.takeWhile isWord ++
            ((rest.dropWhile isWord).takeWhile isSpace ++ [unit '=']), after, ?_, ?_, ?_⟩
          · conv_lhs => rw [← word, ← spaces]
            simp
          · exact ⟨_, _, rfl, ⟨o, n, _, rfl, first, second, filled,
              fun u member => List.mem_takeWhile_imp member⟩, fun u member => List.mem_takeWhile_imp member⟩
          · conv_lhs => rw [← word, ← spaces]
            simp only [List.length_cons, List.length_append, List.length_nil]
            omega
        · cases found
      · cases found
    · cases found
  · cases found

theorem starts_attr_iff {s : JsString} : Starts Attr s ↔ attrLength s ≠ none := by
  constructor
  · rintro ⟨part, attr, after, rfl⟩
    rw [attrLength_attr attr]
    exact Option.some_ne_none _
  · intro found
    obtain ⟨length, found⟩ := Option.ne_none_iff_exists'.mp found
    obtain ⟨part, after, same, attr, -⟩ := attr_of_attrLength found
    exact Boundary.starts_of_eq same attr

theorem withoutAttrs_matched (afterWord : Bool) (front s : JsString) :
    withoutAttrs afterWord front.length (front ++ s) =
      withoutAttrs (Boundary.behind isWord afterWord front) 0 s := by
  induction front generalizing afterWord with
  | nil => rfl
  | cons u front ih =>
    rw [Boundary.behind_cons]
    exact ih (isWord u)

/-- An attribute is passed over. -/
theorem withoutAttrs_attr {part : JsString} (attr : Attr part) (after : JsString) :
    withoutAttrs false 0 (part ++ after) = withoutAttrs false 0 after := by
  have length := attrLength_attr attr after
  obtain ⟨name, spaces, rfl, ⟨o, n, word, rfl, -⟩, -⟩ := attr
  have last : Boundary.behind isWord (isWord o) (n :: word ++ (spaces ++ [unit '='])) = false := by
    rw [← List.append_assoc, Boundary.behind_concat]
    exact equals_apart.1
  have passed := withoutAttrs_matched (isWord o) (n :: word ++ (spaces ++ [unit '='])) after
  rw [last] at passed
  simp only [List.cons_append] at length passed ⊢
  rw [withoutAttrs, if_neg Bool.false_ne_true, length]
  exact passed

/-- A unit where no attribute begins is kept. -/
theorem withoutAttrs_kept {afterWord : Bool} {u : UInt16} {rest : JsString}
    (kept : afterWord = true ∨ ¬Starts Attr (u :: rest)) :
    withoutAttrs afterWord 0 (u :: rest) = u :: withoutAttrs (isWord u) 0 rest := by
  have none : (if afterWord = true then none else attrLength (u :: rest)) = none := by
    rcases kept with rfl | unmatched
    · rfl
    · rw [not_not.mp (mt starts_attr_iff.mpr unmatched)]
      exact ite_self _
  rw [withoutAttrs, none]

/-- The pass over a text: its end, an attribute, or a unit that is kept. -/
theorem scan_induction {motive : Bool → JsString → Prop} (ends : ∀ afterWord, motive afterWord [])
    (cut : ∀ part after, Attr part → motive false after → motive false (part ++ after))
    (keep : ∀ afterWord u rest, (afterWord = true ∨ ¬Starts Attr (u :: rest)) →
      motive (isWord u) rest → motive afterWord (u :: rest))
    (afterWord : Bool) (s : JsString) : motive afterWord s := by
  induction size : s.length using Nat.strong_induction_on generalizing afterWord s with
  | _ n ih =>
    cases s with
    | nil => exact ends afterWord
    | cons u rest =>
      by_cases kept : afterWord = true ∨ ¬Starts Attr (u :: rest)
      · refine keep afterWord u rest kept (ih _ ?_ _ rest rfl)
        rw [← size]
        exact Nat.lt_succ_self _
      · obtain ⟨boundary, matched⟩ := not_or.mp kept
        obtain ⟨part, attr, after, same⟩ := not_not.mp matched
        obtain rfl := Bool.eq_false_of_not_eq_true boundary
        rw [← same]
        refine cut part after attr (ih _ ?_ _ after rfl)
        have filled : part ≠ [] := by
          obtain ⟨name, spaces, rfl, -⟩ := attr
          simp
        have longer := List.length_pos_of_ne_nil filled
        rw [← size, ← same, List.length_append]
        omega

/-- White space and attributes stand before an equals sign. -/
def Clears (s : JsString) : Prop := ∃ gap after, s = gap ++ unit '=' :: after ∧ Gap gap

theorem Attr.head {part : JsString} (attr : Attr part) :
    ∃ u rest, part = u :: rest ∧ lower u = unit 'o' := by
  obtain ⟨name, spaces, rfl, ⟨o, n, word, rfl, first, -⟩, -⟩ := attr
  exact ⟨o, _, rfl, first⟩

theorem not_space_of_lower {u : UInt16} (lowered : lower u = unit 'o') :
    isSpace u = false ∧ u ≠ unit '=' := by
  have word := word_of_lower lowered (by decide)
  refine ⟨word_not_space word, ?_⟩
  rintro rfl
  rw [equals_apart.1] at word
  cases word

theorem Attr.unique {part part' after after' : JsString} (attr : Attr part) (attr' : Attr part')
    (same : part ++ after = part' ++ after') : part = part' ∧ after = after' := by
  have length := attrLength_attr attr after
  rw [same, attrLength_attr attr' after'] at length
  exact List.append_inj same (Option.some.inj length).symm

theorem clears_cons {u : UInt16} {rest : JsString} (none : ¬Starts Attr (u :: rest)) :
    Clears (u :: rest) ↔ u = unit '=' ∨ isSpace u = true ∧ Clears rest := by
  constructor
  · rintro ⟨gap, after, same, blank⟩
    cases blank with
    | done => exact .inl (List.cons.inj same).1
    | space space more =>
      obtain ⟨rfl, rfl⟩ := List.cons.inj same
      exact .inr ⟨space, _, after, rfl, more⟩
    | attr attr more =>
      rw [List.append_assoc] at same
      exact absurd (Boundary.starts_of_eq same attr) none
  · rintro (rfl | ⟨space, gap, after, rfl, blank⟩)
    · exact ⟨[], rest, rfl, .done⟩
    · exact ⟨u :: gap, after, rfl, .space space blank⟩

theorem clears_attr {part after : JsString} (attr : Attr part) :
    Clears (part ++ after) ↔ Clears after := by
  constructor
  · rintro ⟨gap, rest, same, blank⟩
    obtain ⟨u, front, rfl, first⟩ := attr.head
    cases blank with
    | done => exact absurd (List.cons.inj same).1 (not_space_of_lower first).2
    | space space more =>
      rw [(List.cons.inj same).1.symm, (not_space_of_lower first).1] at space
      cases space
    | attr attr' more =>
      rw [List.append_assoc] at same
      exact ⟨_, rest, (attr.unique attr' same).2, more⟩
  · rintro ⟨gap, rest, rfl, blank⟩
    exact ⟨part ++ gap, rest, (List.append_assoc ..).symm, .attr attr blank⟩

/-- An equals sign stands behind white space. -/
def Signed (s : JsString) : Prop := ∃ spaces after, s = spaces ++ unit '=' :: after ∧ Spaces spaces

theorem signed_cons {u : UInt16} {rest : JsString} :
    Signed (u :: rest) ↔ u = unit '=' ∨ isSpace u = true ∧ Signed rest := by
  constructor
  · rintro ⟨spaces, after, same, space⟩
    cases spaces with
    | nil => exact .inl (List.cons.inj same).1
    | cons v spaces =>
      obtain ⟨rfl, rfl⟩ := List.cons.inj same
      obtain ⟨first, later⟩ := List.forall_mem_cons.mp space
      exact .inr ⟨first, spaces, after, rfl, later⟩
  · rintro (rfl | ⟨first, spaces, after, rfl, later⟩)
    · exact ⟨[], rest, rfl, fun u member => absurd member List.not_mem_nil⟩
    · exact ⟨u :: spaces, after, rfl, List.forall_mem_cons.mpr ⟨first, later⟩⟩

/-- An equals sign comes to stand behind white space where a text clears. -/
theorem signed_withoutAttrs (s : JsString) : Signed (withoutAttrs false 0 s) ↔ Clears s := by
  have scan : ∀ afterWord s, afterWord = false →
      (Signed (withoutAttrs afterWord 0 s) ↔ Clears s) := by
    refine scan_induction ?_ ?_ ?_
    · rintro afterWord -
      constructor
      · rintro ⟨spaces, after, same, -⟩
        exact absurd same.symm (List.append_ne_nil_of_right_ne_nil _ (List.cons_ne_nil _ _))
      · rintro ⟨gap, after, same, -⟩
        exact absurd same.symm (List.append_ne_nil_of_right_ne_nil _ (List.cons_ne_nil _ _))
    · intro part after attr ih _
      rw [withoutAttrs_attr attr, clears_attr attr]
      exact ih rfl
    · rintro _ u rest kept ih rfl
      have unmatched := kept.resolve_left Bool.false_ne_true
      rw [withoutAttrs_kept kept, signed_cons, clears_cons unmatched]
      refine or_congr_right (and_congr_right fun space => ?_)
      rw [ih (space_not_word space)]
  exact scan false s rfl

/-- Units inside a word are kept. -/
theorem withoutAttrs_word {word : JsString} (letters : ∀ u ∈ word, isWord u = true)
    (rest : JsString) :
    withoutAttrs true 0 (word ++ rest) = word ++ withoutAttrs true 0 rest := by
  induction word with
  | nil => rfl
  | cons u word ih =>
    obtain ⟨letter, later⟩ := List.forall_mem_cons.mp letters
    rw [List.cons_append, withoutAttrs_kept (.inl rfl), letter, ih later, List.cons_append]

/-- The pass goes through a word whole, and starts anew behind it. -/
theorem withoutAttrs_run {run rest : JsString} {u : UInt16} (filled : run ≠ [])
    (letters : ∀ u ∈ run, isWord u = true) (other : isWord u = false)
    (unmatched : ¬Starts Attr (run ++ u :: rest)) :
    withoutAttrs false 0 (run ++ u :: rest) = run ++ u :: withoutAttrs false 0 rest := by
  cases run with
  | nil => exact absurd rfl filled
  | cons o run =>
    obtain ⟨letter, later⟩ := List.forall_mem_cons.mp letters
    rw [List.cons_append] at unmatched ⊢
    rw [withoutAttrs_kept (.inr unmatched), letter, withoutAttrs_word later,
      withoutAttrs_kept (.inl rfl), other, List.cons_append]

theorem Gap.cases {gap : JsString} (blank : Gap gap) : Spaces gap ∨
    ∃ spaces attr more, gap = spaces ++ (attr ++ more) ∧ Spaces spaces ∧ Attr attr ∧ Gap more := by
  induction blank with
  | done => exact .inl fun u member => absurd member List.not_mem_nil
  | @space u gap space _ ih =>
    rcases ih with spaces | ⟨spaces, attr, more, rfl, all, isAttr, later⟩
    · exact .inl (List.forall_mem_cons.mpr ⟨space, spaces⟩)
    · refine .inr ⟨u :: spaces, attr, more, rfl, ?_, isAttr, later⟩
      exact List.forall_mem_cons.mpr ⟨space, all⟩
  | @attr part gap attr more ih =>
    exact .inr ⟨[], part, gap, rfl, fun u member => absurd member List.not_mem_nil, attr, more⟩

theorem Gap.spaces {spaces gap : JsString} (space : Spaces spaces) (blank : Gap gap) :
    Gap (spaces ++ gap) := by
  induction spaces with
  | nil => exact blank
  | cons u spaces ih =>
    obtain ⟨first, later⟩ := List.forall_mem_cons.mp space
    exact .space first (ih later)

theorem head_withoutAttrs {s : JsString} (unmatched : ¬Starts Attr s) :
    (withoutAttrs false 0 s).head? = s.head? := by
  cases s with
  | nil => rfl
  | cons u rest =>
    rw [withoutAttrs_kept (.inr unmatched)]
    rfl

theorem EventName.not_stops {name : JsString} (named : EventName name) (rest : JsString) :
    ¬Stops isWord (name ++ rest) := by
  obtain ⟨filled, letters⟩ := named.word
  cases name with
  | nil => exact absurd rfl filled
  | cons u name =>
    intro stop
    have other := Boundary.stops_cons.mp stop
    rw [letters u List.mem_cons_self] at other
    cases other

/-- A match begins in what is left of a text just where a rejoining one begins in the text. -/
theorem starts_withoutAttrs {s : JsString} (unmatched : ¬Starts Attr s) :
    Starts Attr (withoutAttrs false 0 s) ↔ Starts Rejoining s := by
  constructor
  · rintro ⟨_, ⟨name, spaces, rfl, named, space⟩, after, left⟩
    have parts : withoutAttrs false 0 s = name ++ (spaces ++ unit '=' :: after) := by
      rw [← left]
      simp
    have split := List.takeWhile_append_dropWhile (p := isWord) (l := s)
    have stop := Boundary.stops_dropWhile isWord s
    have inside : ∀ u ∈ s.takeWhile isWord, isWord u = true := fun u => List.mem_takeWhile_imp
    have filled : s.takeWhile isWord ≠ [] := by
      intro empty
      rw [empty, List.nil_append] at split
      rw [split, Stops, ← head_withoutAttrs unmatched, parts] at stop
      exact named.not_stops _ stop
    generalize s.takeWhile isWord = run at split inside filled
    cases next : s.dropWhile isWord with
    | nil =>
      have sign : unit '=' ∈ s := by
        refine (withoutAttrs_sublist false 0 s).subset ?_
        rw [parts]
        simp
      rw [← split, next, List.append_nil] at sign
      exact absurd (inside _ sign) (by simp [equals_apart.1])
    | cons v rest =>
      rw [next] at split stop
      have other := Boundary.stops_cons.mp stop
      subst split
      rw [withoutAttrs_run filled inside other unmatched] at parts
      obtain ⟨rfl, follows⟩ := Boundary.run_unique inside named.word.2
        (Boundary.stops_cons.mpr other) (stop_spaces space _) parts
      have unsigned : ¬Signed (v :: rest) := by
        rintro ⟨front, more, same, space⟩
        refine unmatched ⟨run ++ (front ++ [unit '=']), ⟨run, front, rfl, named, space⟩, more, ?_⟩
        rw [same]
        simp
      rw [signed_cons] at unsigned
      rcases signed_cons.mp ⟨spaces, after, follows, space⟩ with sign | ⟨first, signed⟩
      · exact absurd (.inl sign) unsigned
      · obtain ⟨gap, after, rfl, blank⟩ := (signed_withoutAttrs rest).mp signed
        rcases blank.cases with space | ⟨more, attr, gap, rfl, space, isAttr, blank⟩
        · exact absurd (.inr ⟨first, gap, after, rfl, space⟩) unsigned
        · refine ⟨run ++ (v :: more ++ (attr ++ (gap ++ [unit '=']))), ?_, after, by simp⟩
          exact ⟨run, v :: more, attr, gap, rfl, named, List.forall_mem_cons.mpr ⟨first, space⟩,
            List.cons_ne_nil _ _, isAttr, blank⟩
  · rintro ⟨_, ⟨name, spaces, attr, gap, rfl, named, space, apart, isAttr, blank⟩, after, rfl⟩
    cases spaces with
    | nil => exact absurd rfl apart
    | cons u spaces =>
      obtain ⟨first, later⟩ := List.forall_mem_cons.mp space
      obtain ⟨filled, letters⟩ := named.word
      have parts : name ++ (u :: spaces ++ (attr ++ (gap ++ [unit '=']))) ++ after =
          name ++ u :: (spaces ++ (attr ++ gap) ++ unit '=' :: after) := by simp
      have clears : Clears (spaces ++ (attr ++ gap) ++ unit '=' :: after) :=
        ⟨_, after, rfl, .spaces later (.attr isAttr blank)⟩
      obtain ⟨more, rest, left, all⟩ := (signed_withoutAttrs _).mpr clears
      rw [parts] at unmatched ⊢
      rw [withoutAttrs_run filled letters (space_not_word first) unmatched, left]
      have isAttr : Attr (name ++ (u :: more ++ [unit '='])) :=
        ⟨name, u :: more, rfl, named, List.forall_mem_cons.mpr ⟨first, all⟩⟩
      exact ⟨_, isAttr, rest, by simp⟩

theorem Rejoining.head {part : JsString} (rejoining : Rejoining part) :
    ∃ u rest, part = u :: rest ∧ lower u = unit 'o' := by
  obtain ⟨name, spaces, attr, gap, rfl, ⟨o, n, word, rfl, first, -⟩, -⟩ := rejoining
  exact ⟨o, _, rfl, first⟩

/-- Nothing that begins as an event's name begins with another unit. -/
theorem not_starts {Part : JsString → Prop}
    (head : ∀ part, Part part → ∃ u rest, part = u :: rest ∧ lower u = unit 'o') {v : UInt16}
    (other : lower v ≠ unit 'o') (s : JsString) : ¬Starts Part (v :: s) := by
  rintro ⟨part, has, after, same⟩
  obtain ⟨u, rest, rfl, first⟩ := head part has
  rw [List.cons_append] at same
  exact other ((List.cons.inj same).1 ▸ first)

theorem space_not_lower {u : UInt16} (space : isSpace u = true) : lower u ≠ unit 'o' := by
  intro lowered
  rw [(not_space_of_lower lowered).1] at space
  cases space

theorem Attr.not_rejoining {part : JsString} (attr : Attr part) (after : JsString) :
    ¬Starts Rejoining (part ++ after) := by
  rintro ⟨_, ⟨name', spaces', attr', gap, rfl, named', space', apart, isAttr, -⟩, after', same⟩
  obtain ⟨name, spaces, rfl, named, space⟩ := attr
  obtain ⟨o, rest, rfl, first⟩ := isAttr.head
  have stop : Stops isWord (spaces' ++ (o :: rest ++ (gap ++ unit '=' :: after'))) := by
    cases spaces' with
    | nil => exact absurd rfl apart
    | cons u spaces' =>
      exact Boundary.stops_cons.mpr (space_not_word (space' u List.mem_cons_self))
  have parts : name' ++ (spaces' ++ (o :: rest ++ (gap ++ unit '=' :: after'))) =
      name ++ (spaces ++ unit '=' :: after) := by simpa using same
  obtain ⟨-, follows⟩ :=
    Boundary.run_unique named'.word.2 named.word.2 stop (stop_spaces space _) parts
  have letter := not_space_of_lower first
  obtain ⟨-, sign⟩ := Boundary.run_unique space' space (Boundary.stops_cons.mpr letter.1)
    (stop_equals after) follows
  exact letter.2 (List.cons.inj sign).1

/-- No rejoining match begins in an attribute. -/
theorem rejoined_attr {part after : JsString} (attr : Attr part) :
    Found isWord Rejoining false (part ++ after) ↔ Found isWord Rejoining false after := by
  have unmatched := attr.not_rejoining after
  obtain ⟨name, spaces, rfl, ⟨o, n, word, rfl, first, second, filled, letters⟩, space⟩ := attr
  have letter := word_of_lower first (by decide)
  have inside : ∀ u ∈ n :: word, isWord u = true :=
    List.forall_mem_cons.mpr ⟨word_of_lower second (by decide), letters⟩
  have between : ∀ u ∈ spaces ++ [unit '='],
      isWord u = false ∧ ∀ s, ¬Starts Rejoining (u :: s) := by
    intro u member
    rcases List.mem_append.mp member with gap | sign
    · exact ⟨space_not_word (space u gap),
        not_starts (fun _ => Rejoining.head) (space_not_lower (space u gap))⟩
    · rw [List.mem_singleton.mp sign]
      exact ⟨equals_apart.1, not_starts (fun _ => Rejoining.head) (by decide)⟩
  have parts : o :: n :: word ++ (spaces ++ [unit '=']) ++ after =
      o :: (n :: word ++ (spaces ++ [unit '='] ++ after)) := by simp
  rw [parts] at unmatched ⊢
  rw [Boundary.found_cons, letter, Boundary.found_word inside,
    Boundary.found_behind between (by simp)]
  exact or_iff_right fun here => unmatched here.2

/-- What is left of a text has a match just where the text has a rejoining one. -/
theorem found_withoutAttrs (s : JsString) : Found isWord Attr false (withoutAttrs false 0 s) ↔
    Found isWord Rejoining false s := by
  have scan : ∀ afterWord s, Found isWord Attr afterWord (withoutAttrs afterWord 0 s) ↔
      Found isWord Rejoining afterWord s := by
    refine scan_induction ?_ ?_ ?_
    · intro afterWord
      refine iff_of_false (Boundary.found_nil ?_) (Boundary.found_nil ?_)
      · intro part attr
        obtain ⟨u, rest, rfl, -⟩ := attr.head
        exact List.cons_ne_nil _ _
      · intro part rejoining
        obtain ⟨u, rest, rfl, -⟩ := Rejoining.head rejoining
        exact List.cons_ne_nil _ _
    · intro part after attr ih
      rw [withoutAttrs_attr attr, rejoined_attr attr]
      exact ih
    · intro afterWord u rest kept ih
      rw [withoutAttrs_kept kept, Boundary.found_cons, Boundary.found_cons, ih]
      refine or_congr_left (and_congr_right ?_)
      rintro rfl
      have unmatched := kept.resolve_left Bool.false_ne_true
      rw [← withoutAttrs_kept kept]
      exact starts_withoutAttrs unmatched
  exact scan false s

theorem withoutAttrs_eq_self_iff (s : JsString) :
    withoutAttrs false 0 s = s ↔ ¬Found isWord Attr false s := by
  have scan : ∀ afterWord s, withoutAttrs afterWord 0 s = s ↔ ¬Found isWord Attr afterWord s := by
    refine scan_induction ?_ ?_ ?_
    · intro afterWord
      refine iff_of_true rfl (Boundary.found_nil fun part attr => ?_)
      obtain ⟨u, rest, rfl, -⟩ := attr.head
      exact List.cons_ne_nil _ _
    · intro part after attr _
      refine iff_of_false (fun same => ?_) (not_not.mpr ?_)
      · have shorter := (withoutAttrs_sublist false 0 after).length_le
        rw [withoutAttrs_attr attr] at same
        obtain ⟨u, rest, rfl, -⟩ := attr.head
        rw [same, List.length_append, List.length_cons] at shorter
        omega
      · exact ⟨[], part, after, rfl, attr, rfl⟩
    · intro afterWord u rest kept ih
      rw [withoutAttrs_kept kept, List.cons_inj_right, ih, Boundary.found_cons]
      refine not_congr (or_iff_right ?_).symm
      rintro ⟨rfl, matched⟩
      exact kept.resolve_left Bool.false_ne_true matched
  exact scan false s

theorem attr_between {spaces : JsString} (space : Spaces spaces) :
    ∀ u ∈ spaces, isWord u = false ∧ ∀ s, ¬Starts Attr (u :: s) := fun u member =>
  ⟨space_not_word (space u member),
    not_starts (fun _ => Attr.head) (space_not_lower (space u member))⟩

/-- White space behind a text is in no match. -/
theorem starts_append_spaces {spaces : JsString} (space : Spaces spaces) (s : JsString) :
    Starts Attr (s ++ spaces) ↔ Starts Attr s := by
  constructor
  · rintro ⟨part, attr, start⟩
    refine ⟨part, attr, ?_⟩
    rcases List.prefix_or_prefix_of_prefix start (List.prefix_append s spaces) with
      inside | ⟨more, rfl⟩
    · exact inside
    · obtain ⟨name, gap, parts, -⟩ := attr
      rw [← List.append_assoc] at parts
      obtain ⟨after, same⟩ := start
      rw [List.append_assoc, List.append_cancel_left_eq] at same
      rcases List.eq_nil_or_concat more with rfl | ⟨front, u, rfl⟩
      · rw [List.append_nil]
      · rw [List.concat_eq_append, ← List.append_assoc] at parts
        obtain rfl := (List.append_inj' parts rfl).2 |> List.singleton_inj.mp
        have blank := space (unit '=') (by simp [← same])
        rw [equals_apart.2] at blank
        cases blank
  · rintro ⟨part, attr, start⟩
    exact ⟨part, attr, start.trans (List.prefix_append _ _)⟩

theorem found_append_spaces {spaces : JsString} (space : Spaces spaces) (afterWord : Bool)
    (s : JsString) :
    Found isWord Attr afterWord (s ++ spaces) ↔ Found isWord Attr afterWord s := by
  have none : ∀ afterWord, ¬Found isWord Attr afterWord [] := by
    refine fun _ => Boundary.found_nil fun part attr => ?_
    obtain ⟨u, rest, rfl, -⟩ := attr.head
    exact List.cons_ne_nil _ _
  induction s generalizing afterWord with
  | nil =>
    refine iff_of_false ?_ (none afterWord)
    by_cases empty : spaces = []
    · rw [empty]
      exact none afterWord
    · have blank := Boundary.found_behind (s := []) (attr_between space) empty afterWord
      rw [List.append_nil] at blank
      exact mt blank.mp (none false)
  | cons u s ih =>
    have later := ih (isWord u)
    have here := starts_append_spaces space (u :: s)
    rw [List.cons_append] at here ⊢
    exact Boundary.found_cons.trans ((or_congr (and_congr_right' here) later).trans
      Boundary.found_cons.symm)

/-- What `trim` takes away is white space in front and behind. -/
theorem trim_within (s : JsString) :
    ∃ front back, s = front ++ (trim s ++ back) ∧ Spaces front ∧ Spaces back := by
  have front := List.takeWhile_append_dropWhile (p := isSpace) (l := s)
  have back := List.takeWhile_append_dropWhile (p := isSpace) (l := (s.dropWhile isSpace).reverse)
  have turned := congrArg List.reverse back
  rw [List.reverse_append, List.reverse_reverse] at turned
  refine ⟨s.takeWhile isSpace, ((s.dropWhile isSpace).reverse.takeWhile isSpace).reverse, ?_,
    fun u => List.mem_takeWhile_imp, fun u member => ?_⟩
  · rw [trim, turned, front]
  · exact List.mem_takeWhile_imp (List.mem_reverse.mp member)

theorem found_trim (s : JsString) :
    Found isWord Attr false (trim s) ↔ Found isWord Attr false s := by
  obtain ⟨front, back, parts, blank, blank'⟩ := trim_within s
  conv_rhs => rw [parts]
  rw [Boundary.found_between (attr_between blank), found_append_spaces blank']

theorem trim_trim (s : JsString) : trim (trim s) = trim s := by
  have last : Stops isSpace (trim s).reverse := by
    rw [trim, List.reverse_reverse]
    exact Boundary.stops_dropWhile _ _
  have first : Stops isSpace (trim s) := by
    refine (Boundary.stops_dropWhile isSpace s).start ?_
    have back := List.dropWhile_suffix (l := (s.dropWhile isSpace).reverse) isSpace
    rw [← List.reverse_prefix, List.reverse_reverse] at back
    exact back
  conv_lhs => rw [trim]
  rw [Boundary.dropWhile_of_stops first, Boundary.dropWhile_of_stops last, List.reverse_reverse]

theorem withoutTags_inside {inner : JsString} (closed : unit '>' ∉ inner) (rest : JsString) :
    withoutTags true (inner ++ unit '>' :: rest) = withoutTags false rest := by
  induction inner with
  | nil => simp [withoutTags]
  | cons u inner ih =>
    obtain ⟨other, later⟩ := List.ne_and_not_mem_of_not_mem_cons closed
    rw [List.cons_append, withoutTags, decide_eq_true (Ne.symm other)]
    exact ih later

theorem withoutTags_untagged (input : JsString) : Untagged input (withoutTags false input) := by
  induction size : input.length using Nat.strong_induction_on generalizing input with
  | _ n ih =>
    cases input with
    | nil => exact .done
    | cons u rest =>
      rw [withoutTags]
      split
      · rename_i opens
        simp only [Bool.and_eq_true, decide_eq_true_eq, List.contains_iff_mem] at opens
        obtain ⟨rfl, closes⟩ := opens
        obtain ⟨inner, after, rfl, closed⟩ := List.eq_append_cons_of_mem closes
        rw [withoutTags_inside closed]
        refine .tag closed (ih _ ?_ after rfl)
        rw [← size, List.length_cons, List.length_append, List.length_cons]
        omega
      · rename_i single
        refine .kept (fun sign closes => single ?_) (ih _ ?_ rest rfl)
        · simp [sign, closes]
        · rw [← size]
          exact Nat.lt_succ_self _

theorem untagged_iff {input text : JsString} :
    Untagged input text ↔ withoutTags false input = text := by
  constructor
  · intro untagged
    induction untagged with
    | done => rfl
    | @tag inner rest text closed _ ih =>
      rw [withoutTags, if_pos (by simp), withoutTags_inside closed, ih]
    | @kept u rest text single _ ih =>
      rw [withoutTags, if_neg, ih]
      simpa using single
  · rintro rfl
    exact withoutTags_untagged input

theorem withoutTags_eq_self {s : JsString} (closed : ¬[unit '<', unit '>'].Sublist s) :
    withoutTags false s = s := by
  refine untagged_iff.mp ?_
  induction s with
  | nil => exact .done
  | cons u s ih =>
    refine .kept ?_ (ih fun found => closed (found.cons u))
    rintro rfl member
    exact closed (.cons_cons _ (List.singleton_sublist.mpr member))

theorem stripHtml_eq_self_iff (input : JsString) :
    stripHtml (stripHtml input) = stripHtml input ↔ Attrless (stripHtml input) := by
  have again : stripHtml (stripHtml input) = trim (withoutAttrs false 0 (stripHtml input)) := by
    rw [stripHtml, withoutTags_eq_self (stripHtml_closed input)]
  rw [Attrless, ← withoutAttrs_eq_self_iff, again]
  constructor
  · intro same
    refine (withoutAttrs_sublist false 0 _).eq_of_length_le ?_
    have shorter := (trim_sublist (withoutAttrs false 0 (stripHtml input))).length_le
    rwa [same] at shorter
  · intro same
    rw [same, stripHtml, trim_trim]

/-- No attribute that handles an event is left exactly when none is rejoined, and just then does a
second application change nothing. -/
theorem stripHtml_attrless_iff (input : JsString) :
    (Attrless (stripHtml input) ↔ ∀ text, Untagged input text → ¬Rejoined text) ∧
      (stripHtml (stripHtml input) = stripHtml input ↔ Attrless (stripHtml input)) := by
  refine ⟨?_, stripHtml_eq_self_iff input⟩
  rw [Attrless, stripHtml, found_trim, found_withoutAttrs]
  constructor
  · intro none text untagged
    rw [← untagged_iff.mp untagged]
    exact none
  · exact fun none => none _ (withoutTags_untagged input)

/-- Where `onx=` is taken out, `onclick` comes to stand before the second equals sign. -/
theorem onclick_rejoined : ¬∀ input, Attrless (stripHtml input) := by
  intro attrless
  refine attrless (js "onclick onx==") ?_
  have left : stripHtml (js "onclick onx==") = js "onclick" ++ (js " " ++ [unit '=']) := by
    with_unfolding_all decide
  have named : EventName (js "onclick") :=
    ⟨unit 'o', unit 'n', js "click", by with_unfolding_all decide, by with_unfolding_all decide, by with_unfolding_all decide,
      by with_unfolding_all decide, List.all_eq_true.mp (by with_unfolding_all decide)⟩
  have space : Spaces (js " ") := List.all_eq_true.mp (by with_unfolding_all decide)
  rw [left]
  exact ⟨[], _, [], (List.append_nil _).symm, ⟨_, _, rfl, named, space⟩, rfl⟩

end Crown.Client
