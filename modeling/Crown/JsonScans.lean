import Crown.JsonParser
import Crown.Lib.JsonAcceptance

/-! What the lexer of `libs/json.hpp` makes of the pieces that its serializer writes. -/
namespace Crown

open Lib Lib.JsonText Serializer

namespace Lexer

/-! Every token takes some of the text. -/

theorem adding_eq_ok {x : Except Text (Text × Text)} :
    adding added x = .ok (s, rest) ↔ ∃ later, x = .ok (later, rest) ∧ s = added ++ later := by
  cases x with
  | error message => simp [adding]
  | ok scanned =>
    simp only [adding, Except.ok.injEq, Prod.ext_iff]
    grind

theorem scanStringFrom_shortens (due : List (Nat × Nat)) (text : Text)
    (scanned : scanStringFrom due text = .ok (s, rest)) : rest.length < text.length := by
  fun_induction scanStringFrom due text generalizing s
  all_goals
    simp only [adding_eq_ok, reduceCtorEq, Except.ok.injEq, Prod.mk.injEq] at scanned
  all_goals
    simp only [List.length_cons]
    grind

theorem scanNumberFrom_append (state : NumberState) (type : NumberType) (text : Text)
    (scanned : scanNumberFrom state type text = .ok (final, buffer, rest)) :
    text = buffer ++ rest := by
  fun_induction scanNumberFrom state type text generalizing final buffer
  all_goals
    grind

theorem scanLiteral_length (letters : Text) (token : TokenType) (rest : Text) :
    (scanLiteral letters token rest).2.length ≤ rest.length := by
  unfold scanLiteral
  split <;> simp

theorem scanFrom_length (strtod : Text → Option Rat) (c : Char) (rest : Text) :
    (scanFrom strtod c rest).2.length ≤ rest.length := by
  have either {p : Prop} [Decidable p] {a b : TokenType × Text} (yes : a.2.length ≤ rest.length)
      (no : b.2.length ≤ rest.length) : (if p then a else b).2.length ≤ rest.length := by
    split
    · exact yes
    · exact no
  have same : rest.length ≤ rest.length := Nat.le_refl _
  have literal := fun letters token => scanLiteral_length letters token rest
  unfold scanFrom
  refine either same (either same (either same (either same (either same (either same ?_)))))
  refine either (literal _ _) (either (literal _ _) (either (literal _ _) ?_))
  refine either ?_ (either ?_ ?_)
  · split
    · rename_i scanned
      exact (scanStringFrom_shortens _ _ scanned).le
    · exact same
  · split
    · rename_i scanned
      rw [scanNumberFrom_append _ _ _ scanned, List.length_append]
      exact Nat.le_add_left _ _
    · exact same
  · exact either same same

theorem scan_shortens (scanned : scan strtod s = (token, rest)) (more : token ≠ .endOfInput) :
    rest.length < s.length := by
  have blanks : (s.dropWhile isBlank).length ≤ s.length := (List.dropWhile_suffix _).length_le
  unfold scan at scanned
  split at scanned
  · cases scanned
    exact absurd rfl more
  · rename_i c behind same
    have within := scanFrom_length strtod c behind
    rw [scanned] at within
    rw [same, List.length_cons] at blanks
    exact Nat.lt_of_le_of_lt within blanks

/-- More tokens than a text has characters do not come. -/
theorem tokensWithin_eq (enough : s.length < limit) (other : s.length < more) :
    tokensWithin strtod limit s = tokensWithin strtod more s := by
  induction limit generalizing s more with
  | zero => exact absurd enough (Nat.not_lt_zero _)
  | succ limit ih =>
    cases more with
    | zero => exact absurd other (Nat.not_lt_zero _)
    | succ more =>
      unfold tokensWithin
      split
      · rfl
      · rfl
      · rename_i token rest _ last scanned
        have shorter := scan_shortens scanned last
        rw [@ih more rest (by omega) (by omega)]

/-- The tokens of a text that begins with a token. -/
theorem tokensOf_cons (scanned : scan strtod s = (token, rest)) (more : token ≠ .endOfInput)
    (fine : ∀ message, token ≠ .parseError message) :
    tokensOf strtod s = token :: tokensOf strtod rest := by
  have shorter := scan_shortens scanned more
  unfold tokensOf
  rw [← tokensWithin_eq shorter (Nat.lt_succ_self _), tokensWithin, scanned]
  split
  · rename_i same
    exact absurd (congrArg Prod.fst same) (fine _)
  · rename_i same
    exact absurd (congrArg Prod.fst same) more
  · rename_i same
    cases same
    rfl

/-! Strings. -/

/-- The bytes that are due in a state of the serializer's decoder. -/
def dueIn (state : Nat) : List (Nat × Nat) :=
  match state with
  | 2 => [(0x80, 0xBF)]
  | 3 => [(0x80, 0xBF), (0x80, 0xBF)]
  | 4 => [(0xA0, 0xBF), (0x80, 0xBF)]
  | 5 => [(0x80, 0x9F), (0x80, 0xBF)]
  | 6 => [(0x90, 0xBF), (0x80, 0xBF), (0x80, 0xBF)]
  | 7 => [(0x80, 0xBF), (0x80, 0xBF), (0x80, 0xBF)]
  | 8 => [(0x80, 0x8F), (0x80, 0xBF), (0x80, 0xBF)]
  | _ => []

theorem dueIn_zero : dueIn 0 = [] := rfl

theorem dueIn_inside {row : Inside} (inside : row ∈ insides) :
    dueIn row.state = (row.low, row.high) :: dueIn row.next := by
  revert row
  decide

/-- The lexer and the decoder agree on what a first byte announces. -/
theorem followers_start (codep byte : Nat) (high : 0x80 ≤ byte)
    (taken : (decode 0 codep byte).1 ≠ 1) :
    followers byte = some (dueIn (decode 0 codep byte).1) := by
  rcases utf8Type_cases byte with ⟨range, known, bounds, type⟩ | ⟨large, type⟩
  · simp only [utf8Types, List.mem_cons, List.not_mem_nil, or_false] at known
    rcases known with rfl | rfl | rfl | rfl | rfl | rfl | rfl | rfl | rfl | rfl | rfl | rfl | rfl |
        rfl
    all_goals
      simp only at bounds
      simp only [decode, type, utf8States, List.getD_cons_zero, List.getD_cons_succ] at taken ⊢
    all_goals
      first
      | exact absurd rfl taken
      | simp only [followers, dueIn]
        grind
  · simp [decode, type, utf8States] at taken

theorem scanStringFrom_plain (stands : isPlain c = true) (rest : Text) :
    scanStringFrom [] (c :: rest) =
      match followers c.toNat with
      | some due => adding [c] (scanStringFrom due rest)
      | none => .error illFormed := by
  simp only [isPlain, Bool.and_eq_true, decide_eq_true_eq] at stands
  obtain ⟨⟨printed, quote⟩, backslash⟩ := stands
  rw [scanStringFrom.eq_def]
  grind

theorem scanStringFrom_letter (known : (letter, c) ∈ escapeChars) (rest : Text) :
    scanStringFrom [] ('\\' :: letter :: rest) = adding [c] (scanStringFrom [] rest) := by
  simp only [escapeChars, List.mem_cons, Prod.mk.injEq, List.not_mem_nil, or_false] at known
  rcases known with ⟨rfl, rfl⟩ | ⟨rfl, rfl⟩ | ⟨rfl, rfl⟩ | ⟨rfl, rfl⟩ | ⟨rfl, rfl⟩ | ⟨rfl, rfl⟩ |
    ⟨rfl, rfl⟩ | ⟨rfl, rfl⟩ <;> rfl

/-- The control characters are written with four digits. -/
theorem scanStringFrom_control (control : c.toNat ≤ 0x1F) (rest : Text) :
    scanStringFrom [] ('\\' :: 'u' :: '0' :: '0' :: Nat.digitChar (c.toNat / 16) ::
      Nat.digitChar (c.toNat % 16) :: rest) = adding [c] (scanStringFrom [] rest) := by
  have digits : ∀ n ≤ 0x1F,
      getCodepoint ['0', '0', Nat.digitChar (n / 16), Nat.digitChar (n % 16)] = some n := by
    decide
  have bytes : codepointBytes c.toNat = [c] := by
    rw [codepointBytes, JsString.utf8Bytes, if_pos (by omega)]
    simp
  rw [scanStringFrom, digits _ control]
  simp only
  rw [if_neg (by omega), if_neg (by omega), bytes]

/-- What is written for a character below 0x80 is read as that character. -/
theorem scanStringFrom_escaped (ascii : c.toNat < 0x80) (rest : Text) :
    scanStringFrom [] (escaped c.toNat c ++ rest) = adding [c] (scanStringFrom [] rest) := by
  unfold escaped
  split
  · rename_i code letter found
    have known : (code, letter) ∈ escapeLetters := List.mem_of_find?_eq_some found
    have same : code = c.toNat := by simpa using List.find?_some found
    have letters : ∀ pair ∈ escapeLetters, (pair.2, Char.ofNat pair.1) ∈ escapeChars := by decide
    have readable := letters _ known
    rw [same, Char.ofNat_toNat] at readable
    exact scanStringFrom_letter readable rest
  · rename_i other
    simp [escapeLetters] at other
    split
    · rename_i control
      exact scanStringFrom_control control rest
    · have stands : isPlain c = true := isPlain_of_code (by omega) (by omega) (by omega)
      have single : followers c.toNat = some [] := if_pos (by omega)
      rw [List.singleton_append, scanStringFrom_plain stands, single]

theorem scanStringFrom_due (range : low ≤ c.toNat ∧ c.toNat ≤ high) (due : List (Nat × Nat))
    (rest : Text) : scanStringFrom ((low, high) :: due) (c :: rest) =
      adding [c] (scanStringFrom due rest) :=
  if_pos range

/-- A byte above 0x7F is read as it is, and the lexer is then where the decoder is. -/
theorem scanStringFrom_high (least : state = 0 ∨ Least state codep) (high : 0x80 ≤ c.toNat)
    (taken : (decode state codep c.toNat).1 ≠ 1) (rest : Text) :
    scanStringFrom (dueIn state) (c :: rest) =
      adding [c] (scanStringFrom (dueIn (decode state codep c.toNat).1) rest) := by
  rcases least with rfl | ⟨row, inside, rfl, -⟩
  · have stands : isPlain c = true := isPlain_of_code (by omega) (by omega) (by omega)
    have announced := followers_start codep c.toNat high taken
    rw [dueIn_zero, scanStringFrom_plain stands, announced]
  · rw [decode_inside inside] at taken ⊢
    split at taken
    · rename_i range
      rw [if_pos range, dueIn_inside inside]
      exact scanStringFrom_due range _ _
    · exact absurd rfl taken

/-- The lexer reads what the serializer writes, byte by byte. -/
theorem scanStringFrom_dumpEscapedFrom {s text : Text} {i : Nat}
    (least : state = 0 ∨ Least state codep)
    (written : dumpEscapedFrom s state codep i rest = .ok text) (r : Text) :
    scanStringFrom (dueIn state) (text ++ '"' :: r) = .ok (rest, r) := by
  induction rest generalizing state codep i text with
  | nil =>
    unfold dumpEscapedFrom at written
    split at written
    · rename_i between
      subst between
      cases written
      rfl
    · cases written
  | cons c rest ih =>
    unfold dumpEscapedFrom at written
    rcases decode_cases least c.toNat with refused | ⟨ascii, rfl, whole⟩ | ⟨high, later⟩
    · simp only [refused, if_true] at written
      cases written
    · simp only [whole] at written
      obtain ⟨more, behind, same⟩ := bind_eq_ok.mp written
      cases same
      have read := ih (.inl rfl) behind
      rw [dueIn_zero] at read ⊢
      rw [if_pos trivial, List.append_assoc, scanStringFrom_escaped ascii, read]
      rfl
    · have inside : (decode state codep c.toNat).1 = 0 ∨
          Least (decode state codep c.toNat).1 (decode state codep c.toNat).2 :=
        later.imp_left And.left
      have taken : (decode state codep c.toNat).1 ≠ 1 := by
        rcases inside with between | begun
        · simp [between]
        · have inside := begun.two_le
          omega
      have piece : (if (decode state codep c.toNat).1 = 0
          then escaped (decode state codep c.toNat).2 c else [c]) = [c] := by
        rcases later with ⟨-, large⟩ | begun
        · rw [escaped_high _ _ large, ite_self]
        · have inside := begun.two_le
          exact if_neg (by omega)
      simp only [taken, if_false, piece] at written
      obtain ⟨more, behind, same⟩ := bind_eq_ok.mp written
      cases same
      rw [List.append_assoc, List.singleton_append, scanStringFrom_high least high taken,
        ih inside behind]
      rfl

theorem scanString_dumpEscaped (written : dumpEscaped s = .ok text) (r : Text) :
    scanString (text ++ '"' :: r) = .ok (s, r) :=
  scanStringFrom_dumpEscapedFrom (.inl rfl) written r

/-! Numbers. -/

/-- From the label on the lexer goes to a place in the text. -/
def Scans (state : NumberState) (s r : Text) : Prop :=
  ∀ type, ∃ final buffer, scanNumberFrom state type s = .ok (final, buffer, r)

theorem Scans.cons {state next : NumberState} (taken : state.next c = some next)
    (later : Scans next s r) : Scans state (c :: s) r := by
  intro type
  obtain ⟨final, buffer, scanned⟩ := later (next.numberType type)
  exact ⟨final, c :: buffer, by simp [scanNumberFrom, taken, scanned]⟩

theorem Scans.digits {state : NumberState}
    (passes : ∀ c, c.isDigit = true → state.next c = some state) (digits : Digits s t)
    (later : Scans state t r) : Scans state s r := by
  induction digits with
  | none => exact later
  | more digit rest ih => exact .cons (passes _ digit) (ih later)

theorem Scans.someDigits {first state : NumberState}
    (begins : ∀ c, c.isDigit = true → first.next c = some state)
    (passes : ∀ c, c.isDigit = true → state.next c = some state) (digits : SomeDigits s t)
    (later : Scans state t r) : Scans first s r := by
  cases digits with
  | some digit rest => exact .cons (begins _ digit) (.digits passes rest later)

/-- A number ends in front of a delimiter. -/
theorem Scans.whole {state : NumberState} (number : state ∈ [.zero, .any1, .decimal2, .any2])
    (delimited : Delimited r) : Scans state r r := by
  intro type
  simp only [List.mem_cons, List.not_mem_nil, or_false] at number
  cases r with
  | nil => exact ⟨type, [], by rcases number with rfl | rfl | rfl | rfl <;> rfl⟩
  | cons c r =>
    obtain ⟨dot, letter, digit⟩ := delimiter_apart (delimited c rfl)
    have stopped : state.next c = none := by
      rcases number with rfl | rfl | rfl | rfl <;>
        simp [NumberState.next, dot, letter, digit]
    refine ⟨type, [], ?_⟩
    rw [scanNumberFrom, stopped]
    rcases number with rfl | rfl | rfl | rfl <;> rfl

theorem digit_not_letter (digit : c.isDigit = true) : c ≠ '.' ∧ ¬(c = 'e' ∨ c = 'E') := by
  refine ⟨?_, ?_⟩
  · rintro rfl
    cases digit
  · rintro (rfl | rfl) <;> cases digit

theorem Scans.exponent {state : NumberState} (number : state ∈ [.zero, .any1, .decimal2])
    (exponent : Exponent s r) (delimited : Delimited r) : Scans state s r := by
  have power {c : Char} (digit : c.isDigit = true) :
      NumberState.next .any2 c = some .any2 ∧ NumberState.next .sign c = some .any2 ∧
        NumberState.next .exponent c = some .any2 :=
    ⟨if_pos digit, if_pos digit, (if_neg (digit_apart digit)).trans (if_pos digit)⟩
  have whole : Scans .any2 r r := .whole (by simp) delimited
  have letters {e : Char} (letter : e = 'e' ∨ e = 'E') : state.next e = some .exponent := by
    simp only [List.mem_cons, List.not_mem_nil, or_false] at number
    rcases letter with rfl | rfl <;> rcases number with rfl | rfl | rfl <;> rfl
  cases exponent with
  | none =>
    refine .whole ?_ delimited
    simp only [List.mem_cons, List.not_mem_nil, or_false] at number
    rcases number with rfl | rfl | rfl <;> simp
  | unsigned letter digits =>
    exact .cons (letters letter) (.someDigits (fun c digit => (power digit).2.2)
      (fun c digit => (power digit).1) digits whole)
  | signed letter sign digits =>
    have signed : NumberState.next .exponent _ = some .sign := if_pos sign
    refine .cons (letters letter) (.cons signed ?_)
    exact .someDigits (fun c digit => (power digit).2.1) (fun c digit => (power digit).1) digits
      whole

theorem Scans.fraction {state : NumberState} (number : state ∈ [.zero, .any1])
    (fraction : Fraction s r) (delimited : Delimited r) : Scans state s r := by
  simp only [List.mem_cons, List.not_mem_nil, or_false] at number
  cases fraction with
  | none exponent =>
    refine .exponent ?_ exponent delimited
    rcases number with rfl | rfl <;> simp
  | some digits exponent =>
    have point : state.next '.' = some .decimal1 := by rcases number with rfl | rfl <;> rfl
    have begins : ∀ c, c.isDigit = true → NumberState.next .decimal1 c = some .decimal2 :=
      fun c digit => if_pos digit
    have passes : ∀ c, c.isDigit = true → NumberState.next .decimal2 c = some .decimal2 :=
      fun c digit => if_pos digit
    exact .cons point (.someDigits begins passes digits (.exponent (by simp) exponent delimited))

theorem Scans.unsigned (number : Unsigned s r) (delimited : Delimited r) :
    ∃ c t, s = c :: t ∧ c.isDigit = true ∧ Scans (if c = '0' then .zero else .any1) t r := by
  cases number with
  | zero fraction => exact ⟨_, _, rfl, rfl, .fraction (by simp) fraction delimited⟩
  | integer digit nonzero digits fraction =>
    refine ⟨_, _, rfl, digit, ?_⟩
    rw [if_neg nonzero]
    exact .digits (fun c digit => if_pos digit) digits (.fraction (by simp) fraction delimited)

/-- A number of the grammar is scanned up to its end. -/
theorem Scans.number (number : Number s r) (delimited : Delimited r) :
    ∃ c t, s = c :: t ∧ (c = '-' ∨ c.isDigit = true) ∧ Scans (firstState c) t r := by
  cases number with
  | positive unsigned =>
    obtain ⟨c, t, rfl, digit, scans⟩ := Scans.unsigned unsigned delimited
    have sign : c ≠ '-' := fun same => digit_apart digit (.inr same)
    refine ⟨c, t, rfl, .inr digit, ?_⟩
    rwa [firstState, if_neg sign]
  | negative unsigned =>
    obtain ⟨c, t, rfl, digit, scans⟩ := Scans.unsigned unsigned delimited
    refine ⟨'-', c :: t, rfl, .inl rfl, .cons ?_ scans⟩
    rw [firstState, if_pos rfl, NumberState.next]
    split <;> simp

/-- What makes a number a float. -/
def floatMark (c : Char) : Bool := c = '.' || c = 'e' || c = 'E'

theorem next_numberType {state next : NumberState} (taken : state.next c = some next)
    (type : NumberType) : next.numberType type = if floatMark c then .float else type := by
  unfold NumberState.next at taken
  split at taken
  all_goals
    simp only [floatMark, Bool.or_eq_true, decide_eq_true_eq]
    grind [NumberState.numberType, digit_not_letter]

theorem scanNumberFrom_type (state : NumberState) (type : NumberType) (text : Text)
    (scanned : scanNumberFrom state type text = .ok (final, buffer, rest)) :
    final = if buffer.any floatMark then .float else type := by
  fun_induction scanNumberFrom state type text generalizing final buffer
  all_goals
    grind [next_numberType]

theorem scan_cons (strtod : Text → Option Rat) (nonblank : isBlank c = false) (rest : Text) :
    scan strtod (c :: rest) = scanFrom strtod c rest := by
  simp [scan, nonblank]

/-- A number that the grammar knows is one token. -/
theorem scanFrom_number {text : Text} (number : ∀ r, Number (text ++ r) r) (delimited : Delimited r)
    (strtod : Text → Option Rat) :
    ∃ c t, text = c :: t ∧ (c = '-' ∨ c.isDigit = true) ∧ scanFrom strtod c (t ++ r) =
      (numberToken strtod text
        (if t.any floatMark then .float else (firstState c).numberType .unsigned), r) := by
  obtain ⟨c, t, same, first, scans⟩ := Scans.number (number r) delimited
  obtain ⟨final, buffer, scanned⟩ := scans ((firstState c).numberType .unsigned)
  have whole := scanNumberFrom_append _ _ _ scanned
  have type := scanNumberFrom_type _ _ _ scanned
  subst whole
  have text_eq : text = c :: buffer := List.append_cancel_right same
  subst text_eq
  refine ⟨c, buffer, rfl, first, ?_⟩
  have other : c ≠ '[' ∧ c ≠ ']' ∧ c ≠ '\x7b' ∧ c ≠ '\x7d' ∧ c ≠ ':' ∧ c ≠ ',' ∧ c ≠ 't' ∧ c ≠ 'f' ∧
      c ≠ 'n' ∧ c ≠ '"' := by
    refine ⟨?_, ?_, ?_, ?_, ?_, ?_, ?_, ?_, ?_, ?_⟩
    all_goals
      rintro rfl
      rcases first with sign | digit
      · cases sign
      · cases digit
  obtain ⟨h1, h2, h3, h4, h5, h6, h7, h8, h9, h10⟩ := other
  rw [scanFrom, if_neg h1, if_neg h2, if_neg h3, if_neg h4, if_neg h5, if_neg h6, if_neg h7,
    if_neg h8, if_neg h9, if_neg h10, if_pos first, scanned, ← type]

theorem scan_number {text : Text} (number : ∀ r, Number (text ++ r) r) (delimited : Delimited r)
    (strtod : Text → Option Rat) :
    scan strtod (text ++ r) = (numberToken strtod text (if text.any floatMark then .float else
      (firstState (text.headD '0')).numberType .unsigned), r) := by
  obtain ⟨c, t, rfl, first, scanned⟩ := scanFrom_number number delimited strtod
  have plain : isBlank c = false ∧ floatMark c = false := by
    rcases first with rfl | digit
    · decide
    · have apart := digit_not_letter digit
      constructor
      · by_contra blank
        rw [Bool.not_eq_false] at blank
        exact absurd digit (by simp [delimiter_apart (.inl blank)])
      · simpa [floatMark, and_assoc] using apart
  rw [List.cons_append, scan_cons strtod plain.1, scanned]
  simp [plain.2]

/-- The token of an integer. -/
def integerToken (n : Int) : TokenType :=
  if 0 ≤ n then .valueUnsigned n.toNat else .valueInteger n

theorem scan_decimal (low : -2 ^ 63 ≤ n) (high : n < 2 ^ 64) (delimited : Delimited r)
    (strtod : Text → Option Rat) : scan strtod (Text.decimal n ++ r) = (integerToken n, r) := by
  have unmarked : (Text.decimal n).any floatMark = false := by
    rw [List.any_eq_false]
    intro c member
    rcases Text.digit_or_sign n c member with digit | rfl
    · simpa [floatMark, and_assoc] using digit_not_letter digit
    · decide
  rw [scan_number (decimal_number n) delimited, unmarked]
  congr 1
  cases n with
  | ofNat m =>
    have first :
        (firstState ((Nat.toDigits 10 m).headD '0')).numberType .unsigned = .unsigned := by
      have digit : ((Nat.toDigits 10 m).headD '0').isDigit = true := by
        cases split : Nat.toDigits 10 m with
        | nil => rfl
        | cons c rest =>
          exact Nat.isDigit_of_mem_toDigits (by decide) (by decide) (split ▸ List.mem_cons_self)
      have sign : (Nat.toDigits 10 m).headD '0' ≠ '-' := fun same => digit_apart digit (.inr same)
      rw [firstState, if_neg sign]
      split <;> rfl
    have small : m < 2 ^ 64 := by
      simpa using Int.ofNat_lt.mp high
    simp only [Text.decimal, first, Bool.false_eq_true, if_false, numberToken, digitsValue,
      Nat.ofDigitChars_ten_toDigits, if_pos small]
    rfl
  | negSucc m =>
    have small : m + 1 ≤ 2 ^ 63 := by omega
    simp only [Text.decimal, List.headD_cons, firstState, if_true, Bool.false_eq_true, if_false,
      NumberState.numberType, numberToken, List.drop_one, List.tail_cons, digitsValue,
      Nat.ofDigitChars_ten_toDigits, if_pos small]
    rfl

/-- A float is written with a point or an exponent. -/
theorem toChars_floatMark (floats : FloatDigits) (x : Rat) :
    (toChars floats x).any floatMark = true := by
  have point : floatMark '.' = true ∧ floatMark 'e' = true := by decide
  have buffer : ∀ digits exponent, (formatBuffer digits exponent).any floatMark = true := by
    intro digits exponent
    unfold formatBuffer
    simp only
    split_ifs <;> simp [point]
  have unsigned : ∀ value : Rat, (if value = 0 then ['0', '.', '0']
      else formatBuffer (floats.digits value) (floats.exponent value)).any floatMark = true := by
    intro value
    split
    · rfl
    · exact buffer _ _
  unfold toChars
  simp only [List.any_append, Bool.or_eq_true]
  exact .inr (unsigned _)

theorem scan_toChars (floats : FloatDigits) (x : Rat) (delimited : Delimited r)
    (strtod : Text → Option Rat) : scan strtod (toChars floats x ++ r) =
      (.valueFloat (toChars floats x) (strtod (toChars floats x)), r) := by
  rw [scan_number (toChars_number floats x) delimited, toChars_floatMark]
  rfl

theorem scan_dumpEscaped (written : dumpEscaped s = .ok text) (r : Text)
    (strtod : Text → Option Rat) :
    scan strtod ('"' :: (text ++ '"' :: r)) = (.valueString s, r) := by
  have scanned := scanString_dumpEscaped written r
  rw [scan_cons strtod rfl]
  simp [scanFrom, scanned]

end Lexer
end Crown
