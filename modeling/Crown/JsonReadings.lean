import Crown.JsonRoundTrip
import Crown.Lib.WellFormed

/-! Whatever `parse` of `libs/json.hpp` reads is canonical: it can be written, and it is read again
from what is written. -/
namespace Crown

open Lib Lib.JsonText Serializer

namespace Lexer

/-! Strings are in UTF-8. -/

/-- A text that the due bytes and whole characters make up. -/
def Fills : List (Nat × Nat) → Text → Prop
  | [], s => Utf8 s
  | _ :: _, [] => False
  | (low, high) :: due, c :: s => (low ≤ c.toNat ∧ c.toNat ≤ high) ∧ Fills due s

theorem fills_tails (s : Text) (n : Nat) : Due low high n s ↔
    Fills ((low, high) :: List.replicate n (0x80, 0xBF)) s := by
  induction n generalizing low high s with
  | zero => cases s <;> simp [Due, Fills]
  | succ n ih =>
    cases s with
    | nil => simp [Due, Fills]
    | cons c s =>
      rw [List.replicate_succ, Fills, ← ih]
      simp [Due]

/-- The bytes that a first byte announces make up its character. -/
theorem followers_utf8 (announced : followers c.toNat = some due) (fills : Fills due s) :
    Utf8 (c :: s) := by
  rw [Utf8.cons_iff]
  simp only [fills_tails, List.replicate_succ, List.replicate_zero]
  unfold followers at announced
  split_ifs at announced
  all_goals
    cases announced
    grind [Fills]

/-- A code point that is no surrogate is encoded. -/
theorem codepointBytes_utf8 {point : Nat} (scalar : JsString.Scalar point) (rest : Utf8 s) :
    Utf8 (codepointBytes point ++ s) := by
  unfold JsString.Scalar at scalar
  have code {n : Nat} (small : n < 0x100) : (Char.ofNat n).toNat = n :=
    JsString.toNat_ofNat (by omega)
  unfold codepointBytes JsString.utf8Bytes
  split
  · exact .one (by rw [code (by omega)]; assumption) rest
  split
  · refine .two ?_ ?_ rest
    · rw [code (by omega)]
      omega
    · unfold Tail
      rw [code (by omega)]
      omega
  split
  · refine .three ?_ ?_ rest
    · unfold OfThree Tail
      rw [code (by omega), code (by omega)]
      omega
    · unfold Tail
      rw [code (by omega)]
      omega
  · refine .four ?_ ?_ ?_ rest
    · unfold OfFour Tail
      rw [code (by omega), code (by omega)]
      omega
    · unfold Tail
      rw [code (by omega)]
      omega
    · unfold Tail
      rw [code (by omega)]
      omega

/-- Four digits make a code unit. -/
theorem getCodepoint_lt (known : getCodepoint [a, b, c, d] = some point) : point < 0x10000 := by
  have digit : ∀ c, Text.isHex c = true → Text.hexValue c < 16 := by
    intro c hex
    simp only [Text.isHex, Bool.or_eq_true, Bool.and_eq_true, decide_eq_true_eq, Char.le_def,
      UInt32.le_iff_toNat_le] at hex
    simp only [Text.hexValue, Char.le_def, UInt32.le_iff_toNat_le, Char.toNat] at hex ⊢
    simp at hex ⊢
    grind
  unfold getCodepoint at known
  split at known
  · rename_i all
    simp only [List.all_cons, List.all_nil, Bool.and_true, Bool.and_eq_true] at all
    obtain ⟨first, second, third, fourth⟩ := all
    have := digit a first
    have := digit b second
    have := digit c third
    have := digit d fourth
    simp only [List.foldl_cons, List.foldl_nil, Option.some.injEq] at known
    omega
  · cases known

theorem scanStringFrom_fills (due : List (Nat × Nat)) (text : Text)
    (scanned : scanStringFrom due text = .ok (s, rest)) : Fills due s := by
  fun_induction scanStringFrom due text generalizing s
  all_goals
    simp only [adding_eq_ok, reduceCtorEq, Except.ok.injEq, Prod.mk.injEq] at scanned
  case case2 range ih =>
    obtain ⟨later, scanned, rfl⟩ := scanned
    exact ⟨range, ih scanned⟩
  case case5 =>
    obtain ⟨rfl, -⟩ := scanned
    exact Utf8.nil
  case case8 codepoint1 _ high _ _ _ _ _ codepoint2 _ low ih =>
    obtain ⟨later, scanned, same⟩ := scanned
    have scalar : JsString.Scalar (codepoint1 * 2 ^ 10 + codepoint2 - 0x35FDC00) := by
      unfold JsString.Scalar
      omega
    rw [same]
    exact codepointBytes_utf8 scalar (ih scanned)
  case case13 codepoint known high low ih =>
    obtain ⟨later, scanned, rfl⟩ := scanned
    have small := getCodepoint_lt known
    refine codepointBytes_utf8 ?_ (ih scanned)
    unfold JsString.Scalar
    omega
  case case15 letter _ _ _ added known ih =>
    obtain ⟨later, scanned, rfl⟩ := scanned
    have ascii : ∀ pair ∈ escapeChars, pair.2.toNat < 0x80 := by decide
    refine Utf8.one ?_ (ih scanned)
    obtain ⟨front, back, same, -⟩ := List.lookup_eq_some_iff.mp known
    have member : (letter, added) ∈ escapeChars := by
      rw [same]
      exact List.mem_append_right front List.mem_cons_self
    exact ascii _ member
  case case19 due announced ih =>
    obtain ⟨later, scanned, rfl⟩ := scanned
    exact followers_utf8 announced (ih scanned)

theorem scanString_utf8 (scanned : scanString text = .ok (s, rest)) : Utf8 s :=
  scanStringFrom_fills [] text scanned

/-! Tokens carry what canonical values are made of. -/

/-- What is known of a token that the lexer returns. -/
def Sound (strtod : Text → Option Rat) : TokenType → Prop
  | .valueString s => Utf8 s
  | .valueUnsigned n => n < 2 ^ 64
  | .valueInteger n => -2 ^ 63 ≤ n ∧ n ≤ 0
  | .valueFloat number x => strtod number = x
  | _ => True

theorem numberToken_sound (strtod : Text → Option Rat) (buffer : Text) (type : NumberType) :
    Sound strtod (numberToken strtod buffer type) := by
  cases type with
  | unsigned =>
    simp only [numberToken]
    split
    · assumption
    · rfl
  | integer =>
    simp only [numberToken]
    split
    · rename_i small
      simp only [Sound]
      omega
    · rfl
  | float => rfl

theorem scanLiteral_sound (strtod : Text → Option Rat) (letters : Text) (rest : Text)
    (plain : Sound strtod token) : Sound strtod (scanLiteral letters token rest).1 := by
  unfold scanLiteral
  split
  · exact plain
  · trivial

theorem scanFrom_sound (strtod : Text → Option Rat) (c : Char) (rest : Text) :
    Sound strtod (scanFrom strtod c rest).1 := by
  have either {p : Prop} [Decidable p] {a b : TokenType × Text} (yes : Sound strtod a.1)
      (no : Sound strtod b.1) : Sound strtod (if p then a else b).1 := by
    split
    · exact yes
    · exact no
  have literal := fun letters token => @scanLiteral_sound token strtod letters rest
  unfold scanFrom
  iterate 6 refine either trivial ?_
  iterate 3 refine either (literal _ _ trivial) ?_
  refine either ?_ (either ?_ (either trivial trivial))
  · split
    · rename_i scanned
      exact scanString_utf8 scanned
    · trivial
  · split
    · exact numberToken_sound strtod _ _
    · trivial

theorem tokensWithin_sound (strtod : Text → Option Rat) (limit : Nat) (s : Text) :
    ∀ token ∈ tokensWithin strtod limit s, Sound strtod token := by
  induction limit generalizing s with
  | zero => simp [tokensWithin]
  | succ limit ih =>
    have first : Sound strtod (scan strtod s).1 := by
      unfold scan
      split
      · trivial
      · exact scanFrom_sound strtod _ _
    unfold tokensWithin
    split
    · simp [Sound]
    · simp [Sound]
    · rename_i token rest _ _ scanned
      rw [scanned] at first
      exact List.forall_mem_cons.mpr ⟨first, ih rest⟩

theorem tokens_sound (strtod : Text → Option Rat) (s : Text) :
    ∀ token ∈ tokens strtod s, Sound strtod token := by
  unfold tokens
  split
  · exact tokensWithin_sound strtod _ _
  · simp [Sound]
  · exact tokensWithin_sound strtod _ _

end Lexer

namespace Json

variable {floats : FloatDigits} {strtod : Text → Option Rat} {key : Text} {value : Json}
  {members : List (Text × Json)}

theorem canonicalItems_iff {items : List Json} :
    CanonicalItems floats strtod items ↔ ∀ item ∈ items, item.Canonical floats strtod := by
  induction items with
  | nil => simp [CanonicalItems]
  | cons item rest ih => rw [CanonicalItems, ih, List.forall_mem_cons]

theorem canonicalMembers_iff {members : List (Text × Json)} :
    CanonicalMembers floats strtod members ↔
      ∀ member ∈ members, Utf8 member.1 ∧ member.2.Canonical floats strtod := by
  induction members with
  | nil => simp [CanonicalMembers]
  | cons member rest ih => rw [CanonicalMembers, ih, List.forall_mem_cons]

/-- What a member that is set leaves in an object. -/
theorem mem_setMember {member : Text × Json} (present : member ∈ setMember key value members) :
    member = (key, value) ∨ member ∈ members := by
  induction members with
  | nil => exact .inl (List.mem_singleton.mp present)
  | cons first rest ih =>
    obtain ⟨k, old⟩ := first
    unfold setMember at present
    split at present
    · exact (List.mem_cons.mp present)
    · split at present
      · rename_i same
        rcases List.mem_cons.mp present with rfl | later
        · exact .inl (by rw [same])
        · exact .inr (List.mem_cons_of_mem _ later)
      · rcases List.mem_cons.mp present with rfl | later
        · exact .inr List.mem_cons_self
        · exact (ih later).imp_right (List.mem_cons_of_mem _)

/-- The members stay in the order of their keys. -/
theorem setMember_sorted (sorted : (members.map (·.1)).Pairwise (· < ·)) (key : Text)
    (value : Json) : ((setMember key value members).map (·.1)).Pairwise (· < ·) := by
  induction members with
  | nil => simp [setMember]
  | cons first rest ih =>
    obtain ⟨k, old⟩ := first
    obtain ⟨before, sorted⟩ := List.pairwise_cons.mp sorted
    unfold setMember
    split
    · rename_i less
      refine List.pairwise_cons.mpr ⟨?_, List.pairwise_cons.mpr ⟨before, sorted⟩⟩
      intro other member
      rcases List.mem_cons.mp member with rfl | later
      · exact less
      · exact less.trans (before other later)
    · split
      · exact List.pairwise_cons.mpr ⟨before, sorted⟩
      · rename_i notLess different
        have greater : k < key := lt_of_le_of_ne (not_lt.mp notLess) (Ne.symm different)
        refine List.pairwise_cons.mpr ⟨?_, ih sorted⟩
        intro other member
        obtain ⟨found, present, rfl⟩ := List.mem_map.mp member
        rcases mem_setMember present with rfl | later
        · exact greater
        · exact before _ (List.mem_map_of_mem later)

end Json

/-- What is canonical of an open array or object. -/
def OpenValue.Canonical (floats : FloatDigits) (strtod : Text → Option Rat) : OpenValue → Prop
  | .array items => (Json.array items).Canonical floats strtod
  | .object members key => (Json.object members).Canonical floats strtod ∧ Utf8 key

namespace Parser

open Json

variable {floats : FloatDigits} {strtod : Text → Option Rat} {value : Json}

theorem handleValue_canonical {frame : OpenValue} (partly : frame.Canonical floats strtod)
    (whole : value.Canonical floats strtod) :
    (frame.handleValue value).Canonical floats strtod := by
  cases frame with
  | array items =>
    simp only [OpenValue.Canonical, OpenValue.handleValue, Canonical,
      canonicalItems_iff] at partly ⊢
    simp only [List.mem_append, List.mem_singleton]
    rintro item (member | rfl)
    · exact partly item member
    · exact whole
  | object members key =>
    simp only [OpenValue.Canonical, OpenValue.handleValue, Canonical,
      canonicalMembers_iff] at partly ⊢
    obtain ⟨⟨known, sorted⟩, encoded⟩ := partly
    refine ⟨?_, setMember_sorted sorted key value⟩
    intro member present
    rcases mem_setMember present with rfl | old
    · exact ⟨encoded, whole⟩
    · exact known member old

theorem integer_canonical {n : Int} (low : -2 ^ 63 ≤ n) (high : n < 2 ^ 64) :
    (Json.integer n).Canonical floats strtod := by
  simp only [Canonical]
  exact ⟨low, high⟩

theorem array_canonical (whole : value.Canonical floats strtod)
    (partly : OpenValue.Canonical floats strtod (.array items)) :
    OpenValue.Canonical floats strtod (.array (items ++ [value])) :=
  handleValue_canonical partly whole

theorem object_canonical (whole : value.Canonical floats strtod)
    (partly : OpenValue.Canonical floats strtod (.object members key)) (encoded : Utf8 next) :
    OpenValue.Canonical floats strtod (.object (setMember key value members) next) :=
  ⟨handleValue_canonical partly whole, encoded⟩

/-- In canonical arrays and objects the parser reads canonical values. -/
theorem parse_canonical_both
    (readBack : ∀ number x, strtod number = some x → strtod (toChars floats x) = some x) :
    (∀ stack read, (∀ frame ∈ stack, OpenValue.Canonical floats strtod frame) →
      (∀ token ∈ read, Lexer.Sound strtod token) → ∀ j rest, parseValue stack read = .ok (j, rest) →
      j.Canonical floats strtod) ∧
    (∀ stack value read, (∀ frame ∈ stack, OpenValue.Canonical floats strtod frame) →
      (∀ token ∈ read, Lexer.Sound strtod token) → value.Canonical floats strtod →
      ∀ j rest, evaluate stack value read = .ok (j, rest) → j.Canonical floats strtod) := by
  have empty : (Json.object []).Canonical floats strtod ∧ (Json.array []).Canonical floats strtod ∧
      Json.null.Canonical floats strtod ∧ ∀ b, (Json.boolean b).Canonical floats strtod := by
    simp [Canonical, CanonicalMembers, CanonicalItems]
  obtain ⟨noMembers, noItems, null, boolean⟩ := empty
  apply parseValue.mutual_induct
  case case3 | case13 | case17 | case19 | case21 => intros; simp_all [parseValue, evaluate]
  case case1 =>
    intro stack read ih frames tokens j rest parsed
    simp only [List.forall_mem_cons] at tokens
    exact ih frames tokens.2.2 noMembers j rest parsed
  case case2 =>
    intro stack key read ih frames tokens j rest parsed
    simp only [List.forall_mem_cons] at tokens
    exact ih (List.forall_mem_cons.mpr ⟨⟨noMembers, tokens.2.1⟩, frames⟩) tokens.2.2.2 j rest parsed
  case case4 =>
    intro stack read ih frames tokens j rest parsed
    simp only [List.forall_mem_cons] at tokens
    exact ih frames tokens.2.2 noItems j rest parsed
  case case5 =>
    intro stack read other ih frames tokens j rest parsed
    have opened : ∀ frame ∈ OpenValue.array [] :: stack, OpenValue.Canonical floats strtod frame :=
      List.forall_mem_cons.mpr ⟨noItems, frames⟩
    rw [parseValue] at parsed
    · exact ih opened (List.forall_mem_cons.mp tokens).2 j rest parsed
    · exact other
  case case6 =>
    intro stack number x read ih frames tokens j rest parsed
    obtain ⟨float, tokens⟩ := List.forall_mem_cons.mp tokens
    have canonical : (Json.float x).Canonical floats strtod := by
      simpa [Canonical] using readBack number x float
    exact ih frames tokens canonical j rest parsed
  case case7 =>
    intro stack read ih frames tokens j rest parsed
    exact ih frames (List.forall_mem_cons.mp tokens).2 (boolean false) j rest parsed
  case case8 =>
    intro stack read ih frames tokens j rest parsed
    exact ih frames (List.forall_mem_cons.mp tokens).2 null j rest parsed
  case case9 =>
    intro stack read ih frames tokens j rest parsed
    exact ih frames (List.forall_mem_cons.mp tokens).2 (boolean true) j rest parsed
  case case10 =>
    intro stack n read ih frames tokens j rest parsed
    obtain ⟨⟨low, high⟩, tokens⟩ := List.forall_mem_cons.mp tokens
    exact ih frames tokens (integer_canonical low (by omega)) j rest parsed
  case case11 =>
    intro stack s read ih frames tokens j rest parsed
    obtain ⟨encoded, tokens⟩ := List.forall_mem_cons.mp tokens
    have canonical : (Json.string s).Canonical floats strtod := by
      simp only [Canonical]
      exact encoded
    exact ih frames tokens canonical j rest parsed
  case case12 =>
    intro stack n read ih frames tokens j rest parsed
    obtain ⟨small, tokens⟩ := List.forall_mem_cons.mp tokens
    have range : (n : Int) < 2 ^ 64 := by
      have small : n < 2 ^ 64 := small
      omega
    exact ih frames tokens (integer_canonical (by omega) range) j rest parsed
  case case14 =>
    intro value read _ _ whole j rest parsed
    rw [evaluate] at parsed
    cases parsed
    exact whole
  case case15 =>
    intro items stack value read ih frames tokens whole j rest parsed
    obtain ⟨partly, frames⟩ := List.forall_mem_cons.mp frames
    exact ih (List.forall_mem_cons.mpr ⟨array_canonical whole partly, frames⟩)
      (List.forall_mem_cons.mp tokens).2 j rest parsed
  case case16 =>
    intro items stack value read ih frames tokens whole j rest parsed
    obtain ⟨partly, frames⟩ := List.forall_mem_cons.mp frames
    exact ih frames (List.forall_mem_cons.mp tokens).2 (handleValue_canonical partly whole) j rest
      parsed
  case case18 =>
    intro members key stack value next read ih frames tokens whole j rest parsed
    obtain ⟨partly, frames⟩ := List.forall_mem_cons.mp frames
    simp only [List.forall_mem_cons] at tokens
    exact ih (List.forall_mem_cons.mpr ⟨object_canonical whole partly tokens.2.1, frames⟩)
      tokens.2.2.2 j rest parsed
  case case20 =>
    intro members key stack value read ih frames tokens whole j rest parsed
    obtain ⟨partly, frames⟩ := List.forall_mem_cons.mp frames
    exact ih frames (List.forall_mem_cons.mp tokens).2 (handleValue_canonical partly whole) j rest
      parsed

end Parser

namespace Json

variable {floats : FloatDigits} {strtod : Text → Option Rat}

/-- The parser makes canonical values only. -/
theorem parse_canonical {j : Json}
    (readBack : ∀ number x, strtod number = some x → strtod (toChars floats x) = some x)
    (parsed : parse strtod s = .ok j) : j.Canonical floats strtod := by
  unfold parse at parsed
  split at parsed
  · cases parsed
  · unfold Parser.parseTokens at parsed
    split at parsed
    · cases parsed
    · rename_i value rest same
      cases parsed
      have tokens := Lexer.tokens_sound strtod s
      exact (Parser.parse_canonical_both readBack).1 [] _ (by simp) tokens _ _ same
    · cases parsed

/-- Canonical values are written and read back. -/
theorem parse_dump {j : Json} (canonical : j.Canonical floats strtod) :
    ∃ text, j.dump floats = .ok text ∧ parse strtod text = .ok j := by
  obtain ⟨text, written⟩ := canonical.encoded.dump floats
  exact ⟨text, written, parse_dumped canonical written⟩

/-- What is parsed is written without an exception, and parsed from that to the same value. -/
theorem dump_parse {j : Json}
    (readBack : ∀ number x, strtod number = some x → strtod (toChars floats x) = some x)
    (parsed : parse strtod s = .ok j) :
    ∃ text, j.dump floats = .ok text ∧ parse strtod text = .ok j := by
  have canonical := parse_canonical readBack parsed
  obtain ⟨text, written⟩ := canonical.encoded.dump floats
  exact ⟨text, written, parse_dumped canonical written⟩

/-- As `grisu2` for 0.5. -/
def halfDigits : FloatDigits where
  digits _ := ['5']
  exponent _ := -1
  digits_isDigit _ c member := by
    rw [List.mem_singleton.mp member]
    rfl
  digits_leading _ _ := ⟨'5', [], rfl, by decide⟩
  exponent_bounded _ _ := by decide

def halfRead (number : Text) : Option Rat := if number = ['0', '.', '5'] then some (1 / 2) else none

theorem halfRead_back (number : Text) (x : Rat) (read : halfRead number = some x) :
    halfRead (toChars halfDigits x) = some x := by
  unfold halfRead at read
  split at read
  · cases read
    decide +kernel
  · cases read

/-- A float, a key twice, an escaped letter and blanks. -/
def twiceB : Text :=
  ['\x7b', '"', 'b', '"', ':', 'n', 'u', 'l', 'l', ',', ' ', '"', 'a', '"', ' ', ':', ' ', '[', '-',
   '1', ',', '0', '.', '5', ']', ',', '"', 'b', '"', ':', '"', '\\', 'u', '0', '0', '4', '1', '"',
   '\x7d']

def onceB : Json :=
  .object [(['a'], .array [.integer (-1), .float (1 / 2)]), (['b'], .string ['A'])]

theorem dump_parse_twiceB :
    parse halfRead twiceB = .ok onceB ∧
      ∃ text, onceB.dump halfDigits = .ok text ∧ parse halfRead text = .ok onceB := by
  have parsed : parse halfRead twiceB = .ok onceB := by rfl
  exact ⟨parsed, dump_parse halfRead_back parsed⟩

theorem parse_dump_onceB :
    ∃ text, onceB.dump halfDigits = .ok text ∧ parse halfRead text = .ok onceB := by
  refine parse_dump ?_
  simp only [onceB, Canonical, CanonicalItems, CanonicalMembers]
  refine ⟨⟨⟨.one (by decide) .nil, ⟨by decide, by decide⟩, by decide +kernel, trivial⟩,
    ⟨.one (by decide) .nil, .one (by decide) .nil⟩, trivial⟩, by decide⟩

end Json
end Crown
