import Crown.PostLimits
import Crown.PostStore

/-! The posts a client shows: `decodeUrl` and `decodePost` of `composables/useSocialClient.ts`
against the schemes that `SanitizeUrl` blocks. The server filters the bytes it is sent, and the
escapes in them are read by the client. -/
namespace Crown.Client

open Lib

def decodeUrl (url : JsString) : JsString := if url = [] then url else decodeUnicodeEscapes url

/-- A `TextDecoder` drops a byte order mark in front. -/
def textDecoder (bytes : Text) : JsString :=
  match JsString.ofUtf8 bytes with
  | 0xFEFF :: rest => rest
  | units => units

/-- The bytes of a `Uint8Array` are what is left of each unit. -/
def utf8 (textoIncorreto : JsString) : JsString :=
  textDecoder (textoIncorreto.map fun u => Char.ofNat (u.toNat % 0x100))

def decodePost (post : Post) : Post where
  id := post.id
  author := post.author.map fun author =>
    if author.avatar = [] then author else { author with avatar := decodeUrl author.avatar }
  title := utf8 post.title
  content := utf8 post.content
  imageUrl := if post.imageUrl = [] then post.imageUrl else decodeUrl post.imageUrl
  likesCount := post.likesCount
  commentsCount := post.commentsCount
  isLikedByMe := post.isLikedByMe
  createdAt := post.createdAt

/-- A URL as a browser takes its scheme: without control characters and spaces in front, without
tabs and line ends, in lower case. -/
def normalised (url : JsString) : JsString :=
  ((url.dropWhile (· ≤ 0x20)).filter (!isBreak ·)).map lower

/-- No browser finds a scheme in front that the server blocks. -/
def Harmless (url : JsString) : Prop :=
  ∀ scheme ∈ blockedSchemes, ¬scheme.map unit <+: normalised url

/-- The URL a reader uses of a post for which the server stored the URL it was sent. -/
def readUrl (imageUrl : Text) (received : Post) : JsString :=
  (decodePost { received with imageUrl := JsString.ofUtf8 (Crown.sanitizeUrl imageUrl) }).imageUrl

/-- A character stands for itself or is written as an escape. -/
inductive Written (c : Char) : Text → Prop where
  | plain (ascii : c.toNat < 0x80) (opens : c ≠ '\\' ∧ c ≠ '/') : Written c [c]
  | escape {slash x y z w : Char} (opens : slash = '\\' ∨ slash = '/')
      (hex : ∀ digit ∈ [x, y, z, w], Text.isHex digit = true)
      (code : c.toNat = Text.hexValue x * 0x1000 + Text.hexValue y * 0x100 +
        Text.hexValue z * 0x10 + Text.hexValue w) : Written c [slash, 'u', x, y, z, w]

/-- A text that begins with a word in either case; tabs and line ends may stand in it. -/
inductive Spells : Text → Text → Prop where
  | done (rest : Text) : Spells [] rest
  | letter {c : Char} {sign word rest : Text} (written : Written c sign)
      (spelled : Spells word rest) : Spells (c.toLower :: word) (sign ++ rest)
  | lineBreak {c : Char} {sign word rest : Text} (written : Written c sign)
      (ends : c = '\t' ∨ c = '\n' ∨ c = '\r') (spelled : Spells word rest) :
      Spells word (sign ++ rest)

/-- A text that spells a word behind control characters and spaces. -/
inductive Opens (word : Text) : Text → Prop where
  | spelled {text : Text} (spells : Spells word text) : Opens word text
  | control {c : Char} {sign rest : Text} (written : Written c sign) (low : c.toNat ≤ 0x20)
      (opens : Opens word rest) : Opens word (sign ++ rest)

/-- A URL that opens with a blocked scheme but does not begin with its letters. -/
def Disguised (imageUrl : Text) : Prop :=
  (∃ scheme ∈ blockedSchemes, Opens scheme (Crown.trimmed imageUrl)) ∧
    ∀ scheme ∈ blockedSchemes, ¬scheme <+: Text.lower (Crown.trimmed imageUrl)

theorem hexDigit_unit {c : Char} (ascii : c.toNat < 0x80) : hexDigit (unit c) =
    if Text.isHex c = true then some (UInt16.ofNat (Text.hexValue c)) else none := by
  have table : ∀ n < 0x80, hexDigit (unit (Char.ofNat n)) =
      if Text.isHex (Char.ofNat n) = true then some (UInt16.ofNat (Text.hexValue (Char.ofNat n)))
      else none := by
    decide
  simpa using table c.toNat ascii

theorem isHex_ascii {c : Char} (hex : Text.isHex c = true) : c.toNat < 0x80 := by
  simp only [Text.isHex, Bool.or_eq_true, Bool.and_eq_true, decide_eq_true_eq, Char.le_def,
    UInt32.le_iff_toNat_le] at hex
  change c.val.toNat < 0x80
  rcases hex with (⟨-, high⟩ | ⟨-, high⟩) | ⟨-, high⟩ <;> exact Nat.lt_of_le_of_lt high (by decide)

theorem hexValue_lt {c : Char} (hex : Text.isHex c = true) : Text.hexValue c < 0x10 := by
  have table : ∀ n < 0x80, Text.isHex (Char.ofNat n) = true →
      Text.hexValue (Char.ofNat n) < 0x10 := by
    decide
  simpa using table c.toNat (isHex_ascii hex) (by simpa using hex)

theorem escaped_units {x y z w : Char} (ascii : ∀ digit ∈ [x, y, z, w], digit.toNat < 0x80) :
    escaped (unit x) (unit y) (unit z) (unit w) =
      if ∀ digit ∈ [x, y, z, w], Text.isHex digit = true then
        some (UInt16.ofNat (Text.hexValue x * 0x1000 + Text.hexValue y * 0x100 +
          Text.hexValue z * 0x10 + Text.hexValue w))
      else none := by
  simp only [List.forall_mem_cons, List.not_mem_nil, false_implies, implies_true, and_true] at ascii ⊢
  obtain ⟨hx, hy, hz, hw⟩ := ascii
  simp only [escaped, hexDigit_unit hx, hexDigit_unit hy, hexDigit_unit hz, hexDigit_unit hw]
  by_cases x' : Text.isHex x <;> by_cases y' : Text.isHex y <;> by_cases z' : Text.isHex z <;>
    by_cases w' : Text.isHex w <;> simp [x', y', z', w', UInt16.ofNat_add, UInt16.ofNat_mul]

theorem decodeUnicodeEscapes_plain {u : UInt16} (other : u ≠ unit '\\' ∧ u ≠ unit '/')
    (rest : JsString) :
    decodeUnicodeEscapes (u :: rest) = u :: decodeUnicodeEscapes rest := by
  rw [decodeUnicodeEscapes.eq_def]
  split
  · rename_i equal
    obtain ⟨rfl, rfl⟩ := List.cons.inj equal
    simp [other]
  · rename_i equal
    obtain ⟨rfl, rfl⟩ := List.cons.inj equal
    rfl
  · rename_i equal
    cases equal

theorem unit_ascii {c : Char} (ascii : c.toNat < 0x80) : (unit c).toNat = c.toNat := by
  rw [unit, UInt16.toNat_ofNat']
  omega

theorem unit_inj {c d : Char} (first : c.toNat < 0x80) (second : d.toNat < 0x80)
    (same : unit c = unit d) : c = d := by
  have numbers := congrArg UInt16.toNat same
  rw [unit_ascii first, unit_ascii second] at numbers
  exact Char.toNat_inj.mp numbers

theorem ofUtf8_unit {c : Char} (ascii : c.toNat < 0x80) (rest : Text) :
    JsString.ofUtf8 (c :: rest) = unit c :: JsString.ofUtf8 rest := JsString.ofUtf8_cons ascii rest

theorem decodeUnicodeEscapes_escape {slash a b c d value : UInt16}
    (opens : slash = unit '\\' ∨ slash = unit '/') (code : escaped a b c d = some value)
    (rest : JsString) : decodeUnicodeEscapes (slash :: unit 'u' :: a :: b :: c :: d :: rest) =
      value :: decodeUnicodeEscapes rest := by
  rw [decodeUnicodeEscapes]
  simp [opens, code]

theorem decodeUnicodeEscapes_cases {u v : UInt16} {others more : JsString}
    (read : decodeUnicodeEscapes (v :: others) = u :: more) :
    (u = v ∧ more = decodeUnicodeEscapes others) ∨
      ∃ a b c d rest, others = unit 'u' :: a :: b :: c :: d :: rest ∧
        (v = unit '\\' ∨ v = unit '/') ∧ escaped a b c d = some u ∧
        more = decodeUnicodeEscapes rest := by
  rw [decodeUnicodeEscapes.eq_def] at read
  split at read
  · rename_i slash letter a b c d rest equal
    obtain ⟨rfl, rfl⟩ := List.cons.inj equal
    split at read
    · rename_i code chosen
      obtain ⟨rfl, rfl⟩ := List.cons.inj read
      split at chosen
      · rename_i opens
        simp only [Bool.and_eq_true, Bool.or_eq_true, decide_eq_true_eq] at opens
        obtain ⟨slashed, rfl⟩ := opens
        exact .inr ⟨a, b, c, d, rest, rfl, slashed, chosen, rfl⟩
      · cases chosen
    · obtain ⟨rfl, rfl⟩ := List.cons.inj read
      exact .inl ⟨rfl, rfl⟩
  · rename_i equal
    obtain ⟨rfl, rfl⟩ := List.cons.inj equal
    obtain ⟨rfl, rfl⟩ := List.cons.inj read
    exact .inl ⟨rfl, rfl⟩
  · rename_i equal
    cases equal

theorem hexDigit_ascii {u value : UInt16} (digit : hexDigit u = some value) : u.toNat < 0x80 := by
  unfold hexDigit at digit
  simp only [between, Bool.and_eq_true, decide_eq_true_eq, UInt16.le_iff_toNat_le] at digit
  have nine : (unit '9').toNat = 57 := by decide
  have small : (unit 'f').toNat = 102 := by decide
  have capital : (unit 'F').toNat = 70 := by decide
  split at digit
  · omega
  · split at digit
    · omega
    · split at digit
      · omega
      · cases digit

theorem escaped_ascii {a b c d value : UInt16} (code : escaped a b c d = some value) :
    ∀ u ∈ [a, b, c, d], u.toNat < 0x80 := by
  simp only [escaped, Option.bind_eq_bind, Option.bind_eq_some_iff] at code
  obtain ⟨_, first, _, second, _, third, _, fourth, -⟩ := code
  simp only [List.forall_mem_cons, List.not_mem_nil, false_implies, implies_true, and_true]
  exact ⟨hexDigit_ascii first, hexDigit_ascii second, hexDigit_ascii third, hexDigit_ascii fourth⟩

/-- A reader reads a written character, and then the rest. -/
theorem read_written {c : Char} {sign : Text} (written : Written c sign) (rest : Text) :
    decodeUnicodeEscapes (JsString.ofUtf8 (sign ++ rest)) =
      unit c :: decodeUnicodeEscapes (JsString.ofUtf8 rest) := by
  cases written with
  | plain ascii opens =>
    have other : unit c ≠ unit '\\' ∧ unit c ≠ unit '/' :=
      ⟨fun same => opens.1 (unit_inj ascii (by decide) same),
        fun same => opens.2 (unit_inj ascii (by decide) same)⟩
    rw [List.singleton_append, ofUtf8_unit ascii]
    exact decodeUnicodeEscapes_plain other _
  | @escape slash x y z w opens hex code =>
    have ascii : ∀ digit ∈ [x, y, z, w], digit.toNat < 0x80 := fun digit member =>
      isHex_ascii (hex digit member)
    have value := escaped_units ascii
    rw [if_pos hex, ← code] at value
    simp only [List.forall_mem_cons] at ascii
    obtain ⟨ascii_x, ascii_y, ascii_z, ascii_w, -⟩ := ascii
    have letter : 'u'.toNat < 0x80 := by decide
    have slashed : slash.toNat < 0x80 ∧ (unit slash = unit '\\' ∨ unit slash = unit '/') := by
      rcases opens with rfl | rfl
      · exact ⟨by decide, .inl rfl⟩
      · exact ⟨by decide, .inr rfl⟩
    simp only [List.cons_append, List.nil_append, ofUtf8_unit slashed.1, ofUtf8_unit letter,
      ofUtf8_unit ascii_x, ofUtf8_unit ascii_y, ofUtf8_unit ascii_z, ofUtf8_unit ascii_w]
    exact decodeUnicodeEscapes_escape slashed.2 value _

theorem ofUtf8_front {bytes : Text} {front more : JsString}
    (starts : JsString.ofUtf8 bytes = front ++ more) (ascii : ∀ u ∈ front, u.toNat < 0x80) :
    ∃ chars rest, bytes = chars ++ rest ∧ front = chars.map unit ∧
      (∀ c ∈ chars, c.toNat < 0x80) ∧ more = JsString.ofUtf8 rest := by
  induction front generalizing bytes with
  | nil => exact ⟨[], bytes, rfl, rfl, by simp, starts.symm⟩
  | cons u front ih =>
    obtain ⟨c, rest, rfl, small, rfl, others⟩ :=
      JsString.ofUtf8_head starts (ascii u List.mem_cons_self)
    obtain ⟨chars, rest, rfl, rfl, smalls, rfl⟩ :=
      ih others.symm fun v member => ascii v (List.mem_cons_of_mem _ member)
    exact ⟨c :: chars, rest, rfl, rfl, List.forall_mem_cons.mpr ⟨small, smalls⟩, rfl⟩

/-- What a reader reads first, when it is ASCII, is written in front. -/
theorem written_of_read {text : Text} {u : UInt16} {more : JsString}
    (read : decodeUnicodeEscapes (JsString.ofUtf8 text) = u :: more) (ascii : u.toNat < 0x80)
    (other : u ≠ unit '\\' ∧ u ≠ unit '/') :
    ∃ c sign rest, text = sign ++ rest ∧ Written c sign ∧ u = unit c ∧ c.toNat < 0x80 ∧
      more = decodeUnicodeEscapes (JsString.ofUtf8 rest) := by
  cases units : JsString.ofUtf8 text with
  | nil =>
    rw [units] at read
    cases read
  | cons v others =>
    rw [units] at read
    rcases decodeUnicodeEscapes_cases read with
      ⟨rfl, rfl⟩ | ⟨a, b, c, d, rest, rfl, opens, code, rfl⟩
    · obtain ⟨c, rest, rfl, small, rfl, rfl⟩ := JsString.ofUtf8_head units ascii
      refine ⟨c, [c], rest, rfl, .plain small ?_, rfl, small, rfl⟩
      exact ⟨fun same => other.1 (congrArg unit same), fun same => other.2 (congrArg unit same)⟩
    · have small : ∀ w ∈ [v, unit 'u', a, b, c, d], w.toNat < 0x80 := by
        have slashed : v.toNat < 0x80 := by rcases opens with rfl | rfl <;> decide
        have digits : ∀ w ∈ [unit 'u', a, b, c, d], w.toNat < 0x80 :=
          List.forall_mem_cons.mpr ⟨by decide, escaped_ascii code⟩
        exact List.forall_mem_cons.mpr ⟨slashed, digits⟩
      obtain ⟨chars, rest, rfl, mapped, smalls, rfl⟩ :=
        @ofUtf8_front _ [v, unit 'u', a, b, c, d] _ units small
      replace mapped := mapped.symm
      simp only [List.map_eq_cons_iff, List.map_eq_nil_iff] at mapped
      obtain ⟨slash, _, rfl, rfl, letter, _, rfl, same, x, _, rfl, rfl, y, _, rfl, rfl, z, _, rfl, rfl,
        w, _, rfl, rfl, rfl⟩ := mapped
      obtain ⟨slashed, smalls⟩ := List.forall_mem_cons.mp smalls
      obtain ⟨lettered, digits⟩ := List.forall_mem_cons.mp smalls
      obtain rfl := unit_inj lettered (by decide) same
      rw [escaped_units digits] at code
      split at code
      · rename_i hex
        obtain rfl := Option.some.inj code
        have values := hex
        simp only [List.forall_mem_cons] at values
        obtain ⟨hex_x, hex_y, hex_z, hex_w, -⟩ := values
        have value_x := hexValue_lt hex_x
        have value_y := hexValue_lt hex_y
        have value_z := hexValue_lt hex_z
        have value_w := hexValue_lt hex_w
        rw [UInt16.toNat_ofNat', Nat.mod_eq_of_lt (by omega)] at ascii
        have number := JsString.toNat_ofNat (Nat.lt_trans ascii (by decide))
        refine ⟨Char.ofNat _, _, rest, rfl, .escape ?_ hex number, ?_, ?_, rfl⟩
        · rcases opens with first | first
          · exact .inl (unit_inj slashed (by decide) first)
          · exact .inr (unit_inj slashed (by decide) first)
        · rw [unit, number]
        · rw [number]
          exact ascii
      · cases code

/-- The characters of a scheme: visible ASCII with which no escape begins. -/
structure Sign (c : Char) : Prop where
  visible : 0x20 < c.toNat ∧ c.toNat < 0x80
  opens : c ≠ '\\' ∧ c ≠ '/'

theorem toLower_ascii {c : Char} (ascii : c.toNat < 0x80) : c.toLower.toNat < 0x80 := by
  have table : ∀ n < 0x80, (Char.ofNat n).toLower.toNat < 0x80 := by
    decide
  simpa using table c.toNat ascii

theorem isBreak_unit {c : Char} (ascii : c.toNat < 0x80) :
    isBreak (unit c) = true ↔ c = '\t' ∨ c = '\n' ∨ c = '\r' := by
  simp only [isBreak, Bool.or_eq_true, decide_eq_true_eq, or_assoc]
  refine or_congr ⟨unit_inj ascii (by decide), congrArg unit⟩ (or_congr ?_ ?_)
  · exact ⟨unit_inj ascii (by decide), congrArg unit⟩
  · exact ⟨unit_inj ascii (by decide), congrArg unit⟩

theorem break_low {u : UInt16} (ends : isBreak u = true) : u.toNat ≤ 0x20 := by
  simp only [isBreak, Bool.or_eq_true, decide_eq_true_eq] at ends
  rcases ends with (rfl | rfl) | rfl <;> decide

/-- No escape begins with a control character. -/
theorem low_opens {u : UInt16} (low : u.toNat ≤ 0x20) :
    u.toNat < 0x80 ∧ u ≠ unit '\\' ∧ u ≠ unit '/' := by
  refine ⟨by omega, ?_, ?_⟩
  · rintro rfl
    exact absurd low (by decide)
  · rintro rfl
    exact absurd low (by decide)

theorem low_unit {c : Char} (ascii : c.toNat < 0x80) : unit c ≤ 0x20 ↔ c.toNat ≤ 0x20 := by
  rw [UInt16.le_iff_toNat_le, unit_ascii ascii]
  rfl

theorem lower_other {u : UInt16} (small : (lower u).toNat < 0x80) : u.toNat < 0x80 := by
  unfold lower at small
  split at small
  · rename_i upper
    simp only [between, Bool.and_eq_true, decide_eq_true_eq, UInt16.le_iff_toNat_le] at upper
    have high : (unit 'Z').toNat = 90 := by decide
    omega
  · exact small

/-- The letters of a spelled word come out in lower case. -/
theorem Spells.filtered {word text : Text} (spelled : Spells word text)
    (signs : ∀ c ∈ word, Sign c) :
    word.map unit <+:
      ((decodeUnicodeEscapes (JsString.ofUtf8 text)).filter (!isBreak ·)).map lower := by
  induction spelled with
  | done rest => exact List.nil_prefix
  | @letter c sign word rest written spelled ih =>
    obtain ⟨first, signs⟩ := List.forall_mem_cons.mp signs
    have visible := visible_of_toLower first.visible
    have kept : (!isBreak (unit c)) = true := by rw [(visible_unit visible).2, Bool.not_false]
    rw [read_written written, List.filter_cons_of_pos (by exact kept), List.map_cons, List.map_cons,
      lower_unit visible.2]
    exact List.prefix_cons_inj _ |>.mpr (ih signs)
  | @lineBreak c sign word rest written ends spelled ih =>
    have ascii : c.toNat < 0x80 := by rcases ends with rfl | rfl | rfl <;> decide
    have dropped : ¬(!isBreak (unit c)) = true := by rw [(isBreak_unit ascii).mpr ends]; simp
    rw [read_written written, List.filter_cons_of_neg (by exact dropped)]
    exact ih signs

theorem Spells.of_filtered {word text : Text} {read : JsString} (signs : ∀ c ∈ word, Sign c)
    (reads : decodeUnicodeEscapes (JsString.ofUtf8 text) = read)
    (starts : word.map unit <+: (read.filter (!isBreak ·)).map lower) : Spells word text := by
  induction read generalizing word text with
  | nil =>
    obtain rfl := List.map_eq_nil_iff.mp (List.prefix_nil.mp starts)
    exact .done text
  | cons u more ih =>
    match word, signs with
    | [], _ => exact .done text
    | first :: word, signs =>
      by_cases ends : isBreak u = true
      · obtain ⟨small, other⟩ := low_opens (break_low ends)
        obtain ⟨c, sign, rest, rfl, written, rfl, ascii, rfl⟩ := written_of_read reads small other
        rw [List.filter_cons_of_neg (by simp [ends])] at starts
        exact .lineBreak written ((isBreak_unit ascii).mp ends) (ih signs rfl starts)
      · rw [List.filter_cons_of_pos (by simp [ends])] at starts
        obtain ⟨same, after⟩ := List.cons_prefix_cons.mp starts
        obtain ⟨⟨visible, opens⟩, later⟩ := List.forall_mem_cons.mp signs
        have lowered : (lower u).toNat < 0x80 := by
          rw [← same, unit_ascii visible.2]
          exact visible.2
        have small := lower_other lowered
        have other : u ≠ unit '\\' ∧ u ≠ unit '/' :=
          ⟨fun slash => opens.1 (unit_inj visible.2 (by decide) (by rw [same, slash]; decide)),
            fun slash => opens.2 (unit_inj visible.2 (by decide) (by rw [same, slash]; decide))⟩
        obtain ⟨c, sign, rest, rfl, written, rfl, ascii, rfl⟩ := written_of_read reads small other
        rw [lower_unit ascii] at same
        obtain rfl := unit_inj visible.2 (toLower_ascii ascii) same
        exact .letter written (ih later rfl after)

theorem normalised_low {u : UInt16} (low : u ≤ 0x20) (rest : JsString) :
    normalised (u :: rest) = normalised rest := by
  rw [normalised, List.dropWhile_cons_of_pos (by simpa using low), normalised]

theorem normalised_high {u : UInt16} (high : ¬u ≤ 0x20) (rest : JsString) :
    normalised (u :: rest) = ((u :: rest).filter (!isBreak ·)).map lower := by
  rw [normalised, List.dropWhile_cons_of_neg (by simpa using high)]

theorem Spells.normalised {word text : Text} (spelled : Spells word text)
    (signs : ∀ c ∈ word, Sign c) :
    word.map unit <+: normalised (decodeUnicodeEscapes (JsString.ofUtf8 text)) := by
  have whole := spelled.filtered signs
  induction spelled with
  | done rest => exact List.nil_prefix
  | @letter c sign word rest written spelled ih =>
    have visible := visible_of_toLower (signs _ List.mem_cons_self).visible
    rw [read_written written] at whole ⊢
    have high : ¬unit c ≤ 0x20 := mt (low_unit visible.2).mp (Nat.not_le_of_gt visible.1)
    rw [normalised_high high]
    exact whole
  | @lineBreak c sign word rest written ends spelled ih =>
    have ascii : c.toNat < 0x80 := by rcases ends with rfl | rfl | rfl <;> decide
    rw [read_written written, normalised_low (by rcases ends with rfl | rfl | rfl <;> decide)]
    exact ih signs (spelled.filtered signs)

/-- A browser finds the word in front exactly when the text opens with it. -/
theorem opens_iff {word : Text} (signs : ∀ c ∈ word, Sign c) (text : Text) :
    Opens word text ↔
      word.map unit <+: normalised (decodeUnicodeEscapes (JsString.ofUtf8 text)) := by
  constructor
  · intro opens
    induction opens with
    | spelled spells => exact spells.normalised signs
    | @control c sign rest written low opens ih =>
      have ascii : c.toNat < 0x80 := Nat.lt_of_le_of_lt low (by decide)
      rw [read_written written, normalised_low ((low_unit ascii).mpr low)]
      exact ih
  · generalize reads : decodeUnicodeEscapes (JsString.ofUtf8 text) = read
    intro starts
    induction read generalizing text with
    | nil => exact .spelled (.of_filtered signs reads starts)
    | cons u more ih =>
      by_cases low : u ≤ 0x20
      · rw [normalised_low low] at starts
        obtain ⟨small, other⟩ := low_opens (UInt16.le_iff_toNat_le.mp low)
        obtain ⟨c, sign, rest, rfl, written, rfl, ascii, rfl⟩ := written_of_read reads small other
        exact .control written ((low_unit ascii).mp low) (ih rest rfl starts)
      · rw [normalised_high low] at starts
        exact .spelled (.of_filtered signs reads starts)

theorem blockedSchemes_signs : ∀ scheme ∈ blockedSchemes, ∀ c ∈ scheme, Sign c := by
  have table : ∀ scheme ∈ blockedSchemes, (scheme.all fun c =>
      decide ((0x20 < c.toNat ∧ c.toNat < 0x80) ∧ c ≠ '\\' ∧ c ≠ '/')) = true := by
    with_unfolding_all decide
  intro scheme blocked c member
  obtain ⟨visible, opens⟩ := Text.forall_of_all (table scheme blocked) c member
  exact ⟨visible, opens⟩

theorem decodePost_imageUrl (post : Post) :
    (decodePost post).imageUrl = decodeUnicodeEscapes post.imageUrl := by
  by_cases empty : post.imageUrl = []
  · simp [decodePost, empty, decodeUnicodeEscapes]
  · simp [decodePost, decodeUrl, empty]

/-- What a reader uses is harmless exactly when the URL was not disguised. -/
theorem readUrl_harmless_iff (imageUrl : Text) (received : Post) :
    Harmless (readUrl imageUrl received) ↔ ¬Disguised imageUrl := by
  rw [readUrl, decodePost_imageUrl, Crown.sanitizeUrl]
  simp only [List.any_eq_true, List.isPrefixOf_iff_prefix]
  split
  · rename_i blocked
    obtain ⟨scheme, blocked, starts⟩ := blocked
    constructor
    · rintro - ⟨-, unblocked⟩
      exact unblocked scheme blocked starts
    · intro _ scheme blocked starts
      obtain ⟨name, -, spelled⟩ := blockedSchemes_dangerous scheme blocked
      rw [spelled] at starts
      exact List.append_ne_nil_of_right_ne_nil name (by simp) (List.prefix_nil.mp starts)
  · rename_i unblocked
    have plain : ∀ scheme ∈ blockedSchemes, ¬scheme <+: Text.lower (Crown.trimmed imageUrl) :=
      fun scheme blocked starts => unblocked ⟨scheme, blocked, starts⟩
    constructor
    · rintro harmless ⟨⟨scheme, blocked, opens⟩, -⟩
      exact harmless scheme blocked ((opens_iff (blockedSchemes_signs scheme blocked) _).mp opens)
    · intro undisguised scheme blocked starts
      have opens := (opens_iff (blockedSchemes_signs scheme blocked) _).mpr starts
      exact undisguised ⟨⟨scheme, blocked, opens⟩, plain⟩

/-- The letter `j` of a script URL is written as an escape. -/
def hiddenScript : Text := lit "\\u006aavascript:alert(1)"

theorem hiddenScript_harmful :
    ¬∀ (imageUrl : Text) (received : Post), Harmless (readUrl imageUrl received) := by
  intro harmless
  let received : Post := ⟨js "p", none, [], [], [], 0, 0, false, []⟩
  have blocked : lit "javascript:" ∈ blockedSchemes := List.mem_cons_self
  have found : (lit "javascript:").map unit <+: normalised (readUrl hiddenScript received) := by
    with_unfolding_all decide
  exact harmless hiddenScript received _ blocked found

end Crown.Client
