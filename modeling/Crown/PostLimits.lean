import Crown.ClientSanitize
import Crown.Server

/-! The limits of the client against the limits of the server, which counts the bytes that
were sent. -/
namespace Crown.Client

open Lib

namespace PostInput

/-- The server's checks on what is sent. -/
def accepted (data : PostInput) : Prop :=
  checkPost data.title.utf8 data.content.utf8 data.imageUrl.utf8 = none

/-- No field is longer in bytes than the server takes. -/
structure Fits (data : PostInput) : Prop where
  title : data.title.utf8Size ≤ Crown.maxTitleChars
  content : data.content.utf8Size ≤ Crown.maxContentChars
  imageUrl : (Crown.trimmed data.imageUrl.utf8).length ≤ Crown.maxImageChars

end PostInput

theorem lower_unit {c : Char} (ascii : c.toNat < 0x80) : lower (unit c) = unit c.toLower := by
  have table : ∀ n < 0x80, lower (unit (Char.ofNat n)) = unit (Char.ofNat n).toLower := by
    decide
  simpa using table c.toNat ascii

theorem blockedSchemes_dangerous : ∀ scheme ∈ Crown.blockedSchemes, ∃ name ∈ dangerousSchemes,
    scheme.map unit = name ++ [unit ':'] := by
  with_unfolding_all decide

/-- Lower-casing takes nothing else into visible ASCII. -/
theorem visible_of_toLower {c : Char} (visible : 0x20 < c.toLower.toNat ∧ c.toLower.toNat < 0x80) :
    0x20 < c.toNat ∧ c.toNat < 0x80 := by
  unfold Char.toLower at visible
  split at visible
  · rename_i upper
    obtain ⟨low, high⟩ := upper
    simp only [UInt32.le_iff_toNat_le] at low high
    exact ⟨Nat.lt_of_lt_of_le (by decide) low, Nat.lt_of_le_of_lt high (by decide)⟩
  · exact visible

/-- What lower-casing takes into a scheme is neither white space nor outside ASCII. -/
theorem scheme_visible {c : Char} {scheme : Text} (blocked : scheme ∈ Crown.blockedSchemes)
    (member : c.toLower ∈ scheme) : 0x20 < c.toNat ∧ c.toNat < 0x80 := by
  have table : ∀ scheme ∈ Crown.blockedSchemes,
      (scheme.all fun c => decide (0x20 < c.toNat ∧ c.toNat < 0x80)) = true := by
    with_unfolding_all decide
  exact visible_of_toLower (Text.forall_of_all (table scheme blocked) _ member)

/-- Nothing visible is dropped or passed over by the client. -/
theorem visible_unit {c : Char} (visible : 0x20 < c.toNat ∧ c.toNat < 0x80) :
    isSpace (unit c) = false ∧ isBreak (unit c) = false := by
  have table : ∀ n < 0x80, 0x20 < n →
      isSpace (UInt16.ofNat n) = false ∧ isBreak (UInt16.ofNat n) = false := by
    decide
  exact table c.toNat visible.2 visible.1

theorem breaks_spaces {c : Char} (space : Crown.isSpace c = true) :
    c.toNat < 0x80 ∧ isSpace (unit c) = true := by
  simp only [Crown.isSpace, Bool.or_eq_true, decide_eq_true_eq] at space
  rcases space with ((rfl | rfl) | rfl) | rfl <;> decide

/-- What the server trims is white space, what is left of a URL and white space again. -/
theorem trimmed_within (text : Text) :
    ∃ before after, text = before ++ (Crown.trimmed text ++ after) ∧
      ∀ c ∈ before, Crown.isSpace c = true := by
  have front := List.takeWhile_append_dropWhile (p := Crown.isSpace) (l := text)
  obtain ⟨after, back⟩ := List.dropWhile_suffix (l := (text.dropWhile Crown.isSpace).reverse)
    Crown.isSpace
  refine ⟨text.takeWhile Crown.isSpace, after.reverse, ?_, fun c => List.mem_takeWhile_imp⟩
  rw [Crown.trimmed, ← List.reverse_append, back, List.reverse_reverse, front]

theorem eq_colon {u : UInt16} (lowered : lower u = unit ':') : u = unit ':' := by
  unfold lower at lowered
  split at lowered
  · rename_i upper
    simp only [between, unit, Bool.and_eq_true, decide_eq_true_eq, UInt16.le_iff_toNat_le] at upper
    rw [← UInt16.toNat_inj, UInt16.toNat_add] at lowered
    have low : (UInt16.ofNat 'A'.toNat).toNat = 65 := by decide
    have high : (UInt16.ofNat 'Z'.toNat).toNat = 90 := by decide
    have colon : (unit ':').toNat = 58 := by decide
    have shift : (0x20 : UInt16).toNat = 32 := by decide
    omega
  · exact lowered

/-- The scheme is recognised at the first unit that is not white space. -/
theorem isDangerous_append {spaces name after : JsString} {letters : JsString}
    (space : ∀ u ∈ spaces, isSpace u = true) (dangerous : name ∈ dangerousSchemes)
    (letter : ∀ u ∈ letters, isSpace u = false) (spelled : letters.map lower = name ++ [unit ':']) :
    isDangerous (spaces ++ (letters ++ after)) = true := by
  obtain ⟨word, colon, rfl, named, rest⟩ := List.map_eq_append_iff.mp spelled
  obtain ⟨u, rfl, lowered⟩ := List.map_eq_singleton_iff.mp rest
  have colon := eq_colon lowered
  subst colon
  have start : (spaces ++ (word ++ [unit ':'] ++ after)).dropWhile isSpace =
      word ++ [unit ':'] ++ after := by
    rw [List.dropWhile_append_of_pos space]
    match word, letter with
    | [], letter => exact List.dropWhile_cons_of_neg (by simp [letter])
    | first :: word, letter => exact List.dropWhile_cons_of_neg (by simp [letter])
  have length : word.length = name.length := by rw [← named, List.length_map]
  refine List.any_eq_true.mpr ⟨name, dangerous, ?_⟩
  simp only [start, Bool.and_eq_true, decide_eq_true_eq, List.isPrefixOf_iff_prefix]
  constructor
  · rw [List.map_append, List.map_append, named, List.append_assoc]
    exact List.prefix_append _ _
  · rw [List.append_assoc, ← length, List.drop_left]
    rfl

/-- The client gives up every URL whose scheme the server blocks. -/
theorem isDangerous_of_blocked {url : JsString} {scheme : Text}
    (blocked : scheme ∈ Crown.blockedSchemes)
    (starts : scheme <+: Text.lower (Crown.trimmed url.utf8)) :
    isDangerous (url.filter fun u => !isBreak u) = true := by
  obtain ⟨before, after, split, spaces⟩ := trimmed_within url.utf8
  obtain ⟨more, starts⟩ := starts
  obtain ⟨front, back, parts, lowered, -⟩ := List.map_eq_append_iff.mp starts.symm
  have letters : ∀ c ∈ front, c.toLower ∈ scheme := by
    intro c member
    rw [← lowered]
    exact List.mem_map_of_mem member
  rw [parts, List.append_assoc, ← List.append_assoc] at split
  obtain ⟨others, units⟩ := JsString.utf8_prefix split (by
    intro c member
    rcases List.mem_append.mp member with space | letter
    · exact (breaks_spaces (spaces c space)).1
    · exact (scheme_visible blocked (letters c letter)).2)
  obtain ⟨name, dangerous, spelled⟩ := blockedSchemes_dangerous scheme blocked
  have kept : (front.map unit).filter (fun u => !isBreak u) = front.map unit := by
    refine List.filter_eq_self.mpr fun u member => ?_
    obtain ⟨c, letter, rfl⟩ := List.mem_map.mp member
    rw [(visible_unit (scheme_visible blocked (letters c letter))).2, Bool.not_false]
  have normal : url.filter (fun u => !isBreak u) = (before.map unit).filter (fun u => !isBreak u) ++
      (front.map unit ++ others.filter fun u => !isBreak u) := by
    rw [units, List.map_append, List.append_assoc, List.filter_append, List.filter_append]
    exact congrArg _ (congrArg (· ++ _) kept)
  rw [normal]
  refine isDangerous_append ?_ dangerous ?_ ?_
  · intro u member
    obtain ⟨c, space, rfl⟩ := List.mem_map.mp (List.mem_of_mem_filter member)
    exact (breaks_spaces (spaces c space)).2
  · intro u member
    obtain ⟨c, letter, rfl⟩ := List.mem_map.mp member
    exact (visible_unit (scheme_visible blocked (letters c letter))).1
  · rw [← spelled, ← lowered, List.map_map, List.map_map]
    refine List.map_congr_left fun c letter => ?_
    exact lower_unit (scheme_visible blocked (letters c letter)).2

theorem sanitizeUrl_cases (input : JsString) : sanitizeUrl input = [] ∨
    isDangerous ((sanitizeUrl input).filter fun u => !isBreak u) = false := by
  unfold sanitizeUrl
  split
  · exact .inl rfl
  · dsimp only
    split
    · exact .inl rfl
    · rename_i harmless
      exact .inr (Bool.eq_false_iff.mpr harmless)

/-- The server blocks no URL the client sends; it only trims it. -/
theorem sent_url_trimmed (input : JsString) :
    Crown.sanitizeUrl (sanitizeUrl input).utf8 = Crown.trimmed (sanitizeUrl input).utf8 := by
  rcases sanitizeUrl_cases input with empty | harmless
  · rw [empty, Crown.sanitizeUrl]
    split <;> rfl
  · unfold Crown.sanitizeUrl
    refine if_neg fun blocked => ?_
    obtain ⟨scheme, blocked, starts⟩ := List.any_eq_true.mp blocked
    rw [isDangerous_of_blocked blocked (List.isPrefixOf_iff_prefix.mp starts)] at harmless
    cases harmless

theorem checkPost_eq_none_iff (title content imageUrl : Text) :
    checkPost title content imageUrl = none ↔ title ≠ [] ∧ title.length ≤ Crown.maxTitleChars ∧
      content ≠ [] ∧ content.length ≤ Crown.maxContentChars ∧
      (Crown.sanitizeUrl imageUrl).length ≤ Crown.maxImageChars := by
  unfold checkPost
  by_cases noTitle : title = []
  · simp [noTitle]
  by_cases longTitle : title.length > Crown.maxTitleChars
  · simp [noTitle, longTitle]
  by_cases noContent : content = []
  · simp [noTitle, longTitle, noContent]
  by_cases longContent : content.length > Crown.maxContentChars
  · simp [noTitle, longTitle, noContent, longContent]
  simp only [noTitle, longTitle, noContent, longContent, if_false, ite_eq_right_iff, reduceCtorEq,
    imp_false, Nat.not_lt, gt_iff_lt, ne_eq, not_false_eq_true, true_and]
  simp only [Nat.le_of_not_gt longTitle, Nat.le_of_not_gt longContent, true_and]

/-- A post the client takes has a title and a content, and what is sent of them is not empty. -/
theorem validated_nonempty {data : PostInput} (valid : validateCreatePost data = true) :
    data.title.utf8 ≠ [] ∧ data.content.utf8 ≠ [] := by
  simp only [validateCreatePost, Bool.and_eq_true, decide_eq_true_eq] at valid
  obtain ⟨⟨⟨⟨title, -⟩, content⟩, -⟩, -⟩ := valid
  exact ⟨JsString.utf8_ne_nil (List.ne_nil_of_length_pos title),
    JsString.utf8_ne_nil (List.ne_nil_of_length_pos content)⟩

theorem sent_imageUrl_trimmed (title content : JsString) (imageUrl : Option JsString) :
    Crown.sanitizeUrl (sanitizePost title content imageUrl).imageUrl.utf8 =
      Crown.trimmed (sanitizePost title content imageUrl).imageUrl.utf8 := by
  unfold sanitizePost
  dsimp only
  split
  · rw [Crown.sanitizeUrl]
    split <;> rfl
  · exact sent_url_trimmed _

/-- The server takes a post the client sends exactly when it fits in bytes. -/
theorem accepted_iff_fits (title content : JsString) (imageUrl : Option JsString)
    (valid : validateCreatePost (sanitizePost title content imageUrl) = true) :
    (sanitizePost title content imageUrl).accepted ↔
      (sanitizePost title content imageUrl).Fits := by
  obtain ⟨someTitle, someContent⟩ := validated_nonempty valid
  rw [PostInput.accepted, checkPost_eq_none_iff, JsString.utf8_length, JsString.utf8_length,
    sent_imageUrl_trimmed]
  constructor
  · rintro ⟨-, shortTitle, -, shortContent, shortUrl⟩
    exact ⟨shortTitle, shortContent, shortUrl⟩
  · intro fits
    exact ⟨someTitle, fits.title, someContent, fits.content, fits.imageUrl⟩

/-- A greeting of ASCII characters is taken. -/
theorem greeting_accepted :
    (sanitizePost (js "Hello") (js "World") none).accepted := by
  have valid : validateCreatePost (sanitizePost (js "Hello") (js "World") none) = true := by
    with_unfolding_all decide
  exact (accepted_iff_fits _ _ _ valid).2 ⟨by with_unfolding_all decide, by with_unfolding_all decide, by with_unfolding_all decide⟩

/-- Two hundred letters with an accent are a title for the client and too many for the server. -/
theorem accented_refused :
    ¬∀ title content imageUrl,
      validateCreatePost (sanitizePost title content imageUrl) = true →
        (sanitizePost title content imageUrl).accepted := by
  intro accepts
  have accepted := accepts (List.replicate 200 0x00E9) (js "World") none (by decide +kernel)
  revert accepted
  unfold PostInput.accepted
  decide +kernel

/-- In ASCII the two limits agree. -/
theorem ascii_fits {title content : JsString} {imageUrl : Option JsString}
    (ascii : ∀ text ∈ [(sanitizePost title content imageUrl).title,
      (sanitizePost title content imageUrl).content], ∀ u ∈ text, u.toNat < 0x80)
    (valid : validateCreatePost (sanitizePost title content imageUrl) = true) :
    (sanitizePost title content imageUrl).title.utf8Size ≤ Crown.maxTitleChars ∧
      (sanitizePost title content imageUrl).content.utf8Size ≤ Crown.maxContentChars := by
  simp only [validateCreatePost, Bool.and_eq_true, decide_eq_true_eq] at valid
  obtain ⟨⟨⟨⟨-, shortTitle⟩, -⟩, shortContent⟩, -⟩ := valid
  rw [JsString.utf8Size_ascii (ascii _ (by simp)), JsString.utf8Size_ascii (ascii _ (by simp))]
  exact ⟨shortTitle, shortContent⟩

end Crown.Client
