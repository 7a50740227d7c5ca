import Crown.Lib.Boundary
import Crown.Lib.Substring
import Crown.PostLimits

/-! The two filters of `utils/sanitize.cpp` against the URL as a browser reads it, which drops
what the filters compare. -/
namespace Crown

open Lib
open Client (visible_of_toLower)

def isLineBreak (c : Char) : Bool := c = '\t' || c = '\n' || c = '\r'

/-- A URL as a browser takes its scheme: without control characters and spaces in front, without
tabs and line ends, in lower case. -/
def normalisedUrl (url : Text) : Text :=
  Text.lower ((url.dropWhile fun c => decide (c.toNat ≤ 0x20)).filter (!isLineBreak ·))

/-- The schemes that both filters block. -/
def scriptSchemes : List Text := [lit "javascript:", lit "vbscript:", lit "data:", lit "file:"]

/-- A browser finds one of the schemes in front. -/
def Dangerous (url : Text) : Prop := ∃ scheme ∈ scriptSchemes, scheme <+: normalisedUrl url

instance (url : Text) : Decidable (Dangerous url) :=
  inferInstanceAs (Decidable (∃ scheme ∈ scriptSchemes, _))

/-- Both filters refuse the URL. -/
def Refused (url : Text) : Prop := sanitizeUrl url = [] ∧ isValidUrl url = false

theorem isValidUrl_eq_false_iff (url : Text) :
    isValidUrl url = false ↔ ∃ scheme ∈ scriptSchemes, scheme <+: Text.lower url := by
  simp only [isValidUrl, scriptSchemes, List.exists_mem_cons_iff, List.not_mem_nil, false_and,
    exists_false, or_false, ← List.isPrefixOf_iff_prefix]
  simp only [← Bool.not_eq_true, Bool.and_eq_true, Bool.not_eq_true']
  grind

/-- A scheme is a visible name and a colon. -/
theorem scriptSchemes_named : ∀ scheme ∈ scriptSchemes, ∃ name, scheme = name ++ [':'] ∧
    ∀ c ∈ name, c ≠ ':' ∧ 0x20 < c.toNat ∧ c.toNat < 0x80 := by
  have table : ∀ scheme ∈ scriptSchemes, scheme = scheme.dropLast ++ [':'] ∧
      (scheme.dropLast.all fun c =>
        decide (c ≠ ':' ∧ 0x20 < c.toNat ∧ c.toNat < 0x80)) = true := by
    with_unfolding_all decide
  intro scheme known
  obtain ⟨parts, name⟩ := table scheme known
  exact ⟨scheme.dropLast, parts, Text.forall_of_all name⟩

theorem toLower_colon {c : Char} (lowered : c.toLower = ':') : c = ':' := by
  have table : ∀ n < 0x80, (Char.ofNat n).toLower = ':' → Char.ofNat n = ':' := by
    decide
  have ascii := (visible_of_toLower (c := c) (by rw [lowered]; decide)).2
  simpa using table c.toNat ascii (by simpa using lowered)

theorem colon_not_mem_lower {front : Text} (apart : ':' ∉ front) : ':' ∉ Text.lower front := by
  intro member
  obtain ⟨c, present, lowered⟩ := List.mem_map.mp member
  exact apart (toLower_colon lowered ▸ present)

theorem visible_plain {c : Char} (visible : 0x20 < c.toNat) :
    isLineBreak c = false ∧ isSpace c = false := by
  constructor
  · by_contra ends
    simp only [isLineBreak, Bool.not_eq_false, Bool.or_eq_true, decide_eq_true_eq] at ends
    rcases ends with (rfl | rfl) | rfl <;> exact absurd visible (by decide)
  · by_contra space
    simp only [isSpace, Bool.not_eq_false, Bool.or_eq_true, decide_eq_true_eq] at space
    rcases space with ((rfl | rfl) | rfl) | rfl <;> exact absurd visible (by decide)

theorem lower_key (front more : Text) :
    Text.lower (front ++ ':' :: more) = Text.lower front ++ ':' :: Text.lower more := by
  simp [Text.lower]

/-- Nothing is dropped of a URL up to its first colon where all of that is visible. -/
theorem normalisedUrl_visible {front : Text} (visible : ∀ c ∈ front, 0x20 < c.toNat) (more : Text) :
    normalisedUrl (front ++ ':' :: more) =
      Text.lower front ++ ':' :: Text.lower (more.filter (!isLineBreak ·)) := by
  have kept : front.filter (!isLineBreak ·) = front :=
    List.filter_eq_self.mpr fun c member => by rw [(visible_plain (visible c member)).1]; rfl
  have undropped : (front ++ ':' :: more).dropWhile (fun c => decide (c.toNat ≤ 0x20)) =
      front ++ ':' :: more := by
    cases front with
    | nil => exact List.dropWhile_cons_of_neg (by decide)
    | cons c front =>
      have first := visible c List.mem_cons_self
      exact List.dropWhile_cons_of_neg (by simpa using first)
  have colon : (!isLineBreak ':') = true := by decide
  rw [normalisedUrl, undropped, List.filter_append, kept, List.filter_cons_of_pos (by exact colon)]
  exact lower_key ..

/-- With nothing to drop before the colon a browser reads the scheme that is written. -/
theorem written_of_normalised {scheme url : Text} (known : scheme ∈ scriptSchemes)
    (starts : scheme <+: normalisedUrl url) (visible : ∀ c ∈ Text.before ':' url, 0x20 < c.toNat) :
    scheme <+: Text.lower url := by
  obtain ⟨name, rfl, named⟩ := scriptSchemes_named scheme known
  have plain : ':' ∉ name := fun member => (named _ member).1 rfl
  by_cases colon : ':' ∈ url
  · have parts := Text.before_cons_after colon
    have apart := colon_not_mem_lower (Text.not_mem_before ':' url)
    rw [parts, normalisedUrl_visible visible] at starts
    have same := (Text.prefix_key_iff plain apart _).mp starts
    rw [parts, same, lower_key]
    exact ⟨_, List.append_assoc ..⟩
  · exfalso
    have found : ':' ∈ normalisedUrl url := starts.subset (List.mem_append_right _ List.mem_cons_self)
    obtain ⟨c, member, lowered⟩ := List.mem_map.mp found
    have kept := (List.dropWhile_sublist _).subset (List.mem_of_mem_filter member)
    exact colon (toLower_colon lowered ▸ kept)

/-- What is written of a scheme is visible, up to the first colon. -/
theorem written_visible {scheme url : Text} (known : scheme ∈ scriptSchemes)
    (starts : scheme <+: Text.lower url) :
    ∃ front more, url = front ++ ':' :: more ∧ scheme = Text.lower front ++ [':'] ∧
      ':' ∉ front ∧ ∀ c ∈ front, 0x20 < c.toNat := by
  obtain ⟨name, rfl, named⟩ := scriptSchemes_named scheme known
  obtain ⟨more, starts⟩ := starts
  rw [List.append_assoc] at starts
  obtain ⟨front, back, rfl, lowered, rest⟩ := List.map_eq_append_iff.mp starts.symm
  obtain ⟨c, more, rfl, colon, -⟩ := List.map_eq_cons_iff.mp rest
  obtain rfl := toLower_colon colon
  have letters : ∀ c ∈ front, c.toLower ∈ name := by
    intro c member
    rw [← lowered]
    exact List.mem_map_of_mem member
  refine ⟨front, more, rfl, by rw [Text.lower, lowered], fun member => ?_, fun c member => ?_⟩
  · exact (named _ (letters _ member)).1 (by decide)
  · exact (visible_of_toLower (named _ (letters c member)).2).1

/-- Trimming takes nothing away up to the last visible character. -/
theorem prefix_trimmed {front : Text} (visible : ∀ c ∈ front, isSpace c = false) (more : Text) :
    front <+: trimmed (front ++ more) := by
  cases front with
  | nil => exact List.nil_prefix
  | cons c front =>
    have first : ¬isSpace c = true := by simp [visible c List.mem_cons_self]
    have back : ((c :: front).reverse).dropWhile isSpace = (c :: front).reverse :=
      Boundary.dropWhile_of_stops fun d last =>
        visible d (List.mem_reverse.mp (List.mem_of_mem_head? last))
    rw [trimmed, List.cons_append, List.dropWhile_cons_of_neg first, ← List.cons_append,
      List.reverse_append, List.dropWhile_append]
    split
    · rw [back, List.reverse_reverse]
    · rw [List.reverse_append, List.reverse_reverse]
      exact List.prefix_append _ _

theorem refused_of_written {scheme url : Text} (known : scheme ∈ scriptSchemes)
    (starts : scheme <+: Text.lower url) : Refused url := by
  refine ⟨?_, (isValidUrl_eq_false_iff url).mpr ⟨scheme, known, starts⟩⟩
  have blocked : ∀ scheme ∈ scriptSchemes, scheme ∈ blockedSchemes := by with_unfolding_all decide
  obtain ⟨front, more, rfl, rfl, -, visible⟩ := written_visible known starts
  have plain : ∀ c ∈ front ++ [':'], isSpace c = false := by
    intro c member
    rcases List.mem_append.mp member with letter | colon
    · exact (visible_plain (visible c letter)).2
    · rw [List.mem_singleton.mp colon]
      decide
  have kept := (prefix_trimmed plain more).map Char.toLower
  rw [List.append_assoc, List.map_append] at kept
  rw [sanitizeUrl, if_pos]
  refine List.any_eq_true.mpr ⟨_, blocked _ known, List.isPrefixOf_iff_prefix.mpr kept⟩

theorem visible_of_written {scheme url : Text} (known : scheme ∈ scriptSchemes)
    (starts : scheme <+: Text.lower url) : ∀ c ∈ Text.before ':' url, 0x20 < c.toNat := by
  obtain ⟨front, more, rfl, -, apart, visible⟩ := written_visible known starts
  rw [Text.before_append apart, Text.before_cons_self, List.append_nil]
  exact visible

/-- A URL in which a browser finds a scheme is refused exactly when nothing that the browser drops
stands before its colon. -/
theorem refused_iff {url : Text} (dangerous : Dangerous url) :
    Refused url ↔ ∀ c ∈ Text.before ':' url, 0x20 < c.toNat := by
  obtain ⟨scheme, known, starts⟩ := dangerous
  constructor
  · rintro ⟨-, invalid⟩
    obtain ⟨written, known, starts⟩ := (isValidUrl_eq_false_iff url).mp invalid
    exact visible_of_written known starts
  · intro visible
    exact refused_of_written known (written_of_normalised known starts visible)

/-- A script URL in capitals is refused. -/
theorem capitalScript_refused : Refused (lit "JavaScript:alert(1)") := by
  have visible : ∀ c ∈ Text.before ':' (lit "JavaScript:alert(1)"), 0x20 < c.toNat :=
    Text.forall_of_all (by with_unfolding_all decide)
  exact (refused_iff (by with_unfolding_all decide)).mpr visible

/-- A tab in the scheme of a script URL, which a browser drops. -/
theorem tabbedScript_passed : ¬∀ url, Dangerous url → Refused url := by
  intro refused
  have passed := (refused (lit "java\tscript:alert(1)") (by with_unfolding_all decide)).2
  revert passed
  with_unfolding_all decide

end Crown
