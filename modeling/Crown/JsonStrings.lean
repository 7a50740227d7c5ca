import Crown.Json
import Crown.Lib.JsonGrammar

/-! How the vendored `libs/json.hpp` writes strings: a text in UTF-8 is escaped, and any other
raises `type_error` 316. -/
namespace Crown

open Lib Lib.JsonText

namespace Serializer

/-- The classes of bytes in the table `utf8d`: the first and the last byte of a range, and its
class. -/
def utf8Types : List (Nat × Nat × Nat) :=
  [(0x00, 0x7F, 0), (0x80, 0x8F, 1), (0x90, 0x9F, 9), (0xA0, 0xBF, 7), (0xC0, 0xC1, 8),
    (0xC2, 0xDF, 2), (0xE0, 0xE0, 10), (0xE1, 0xEC, 3), (0xED, 0xED, 4), (0xEE, 0xEF, 3),
    (0xF0, 0xF0, 11), (0xF1, 0xF3, 6), (0xF4, 0xF4, 5), (0xF5, 0xFF, 8)]

def utf8Type (byte : Nat) : Nat :=
  ((utf8Types.find? fun (first, last, _) => first ≤ byte ∧ byte ≤ last).map (·.2.2)).getD 8

/-- The rest of `utf8d`: a row for each state. -/
def utf8States : List (List Nat) :=
  [[0, 1, 2, 3, 5, 8, 7, 1, 1, 1, 4, 6, 1, 1, 1, 1],
    [1, 1, 1, 1, 1, 1, 1, 1, 1, 1, 1, 1, 1, 1, 1, 1],
    [1, 0, 1, 1, 1, 1, 1, 0, 1, 0, 1, 1, 1, 1, 1, 1],
    [1, 2, 1, 1, 1, 1, 1, 2, 1, 2, 1, 1, 1, 1, 1, 1],
    [1, 1, 1, 1, 1, 1, 1, 2, 1, 1, 1, 1, 1, 1, 1, 1],
    [1, 2, 1, 1, 1, 1, 1, 1, 1, 2, 1, 1, 1, 1, 1, 1],
    [1, 1, 1, 1, 1, 1, 1, 3, 1, 3, 1, 1, 1, 1, 1, 1],
    [1, 3, 1, 1, 1, 1, 1, 3, 1, 3, 1, 1, 1, 1, 1, 1],
    [1, 3, 1, 1, 1, 1, 1, 1, 1, 1, 1, 1, 1, 1, 1, 1]]

/-- `decode`: the next state and the bits of the code point so far. State 0 is between characters,
state 1 refuses. -/
def decode (state codep byte : Nat) : Nat × Nat :=
  let type := utf8Type byte
  ((utf8States.getD state []).getD type 1,
    if state ≠ 0 then codep * 64 + byte % 64 else byte % 2 ^ (8 - type))

/-- `hex_bytes`. -/
def hexBytes (byte : Nat) : Text :=
  [(Nat.digitChar (byte / 16)).toUpper, (Nat.digitChar (byte % 16)).toUpper]

/-- The code points that are escaped by a letter. -/
def escapeLetters : List (Nat × Char) :=
  [(0x08, 'b'), (0x09, 't'), (0x0A, 'n'), (0x0C, 'f'), (0x0D, 'r'), (0x22, '"'), (0x5C, '\\')]

/-- What is written for a code point; `c` is its last byte. -/
def escaped (codep : Nat) (c : Char) : Text :=
  match escapeLetters.find? (·.1 = codep) with
  | some (_, letter) => ['\\', letter]
  | none =>
    if codep ≤ 0x1F then
      ['\\', 'u', '0', '0', Nat.digitChar (codep / 16), Nat.digitChar (codep % 16)]
    else [c]

/-- `type_error` 316. -/
def notUtf8 (what : Text) : Exception := .typeError (lit "[json.exception.type_error.316] " ++ what)

/-- The loop of `dump_escaped` over what is left of `s` at the index `i`. -/
def dumpEscapedFrom (s : Text) (state codep i : Nat) : Text → Except Exception Text
  | [] =>
    if state = 0 then .ok []
    else .error (notUtf8 (lit "incomplete UTF-8 string; last byte: 0x" ++
      hexBytes (s.getLastD '\x00').toNat))
  | c :: rest =>
    let (state', codep') := decode state codep c.toNat
    if state' = 1 then
      .error (notUtf8 (lit "invalid UTF-8 byte at index " ++ Text.decimal i ++ lit ": 0x" ++
        hexBytes c.toNat))
    else do
      let later ← dumpEscapedFrom s state' codep' (i + 1) rest
      return (if state' = 0 then escaped codep' c else [c]) ++ later

def dumpEscaped (s : Text) : Except Exception Text := dumpEscapedFrom s 0 0 0 s

/-- What a text in UTF-8 may go on with in a state. -/
def Waits (state : Nat) (s : Text) : Prop :=
  match state with
  | 0 => Utf8 s
  | 2 => Due 0x80 0xBF 0 s
  | 3 => Due 0x80 0xBF 1 s
  | 4 => Due 0xA0 0xBF 1 s
  | 5 => Due 0x80 0x9F 1 s
  | 6 => Due 0x90 0xBF 2 s
  | 7 => Due 0x80 0xBF 2 s
  | 8 => Due 0x80 0x8F 2 s
  | _ => False

/-- A state inside a character: the least that the code point may be so far, the range of the next
byte, and the state behind it. -/
structure Inside where
  state : Nat
  least : Nat
  low : Nat
  high : Nat
  next : Nat

def insides : List Inside :=
  [⟨2, 2, 0x80, 0xBF, 0⟩, ⟨3, 1, 0x80, 0xBF, 2⟩, ⟨4, 0, 0xA0, 0xBF, 2⟩, ⟨5, 1, 0x80, 0x9F, 2⟩,
    ⟨6, 0, 0x90, 0xBF, 3⟩, ⟨7, 1, 0x80, 0xBF, 3⟩, ⟨8, 1, 0x80, 0x8F, 3⟩]

/-- The code point is not less than the state says. -/
def Least (state codep : Nat) : Prop := ∃ row ∈ insides, row.state = state ∧ row.least ≤ codep

theorem utf8Type_cases (byte : Nat) :
    (∃ range ∈ utf8Types, (range.1 ≤ byte ∧ byte ≤ range.2.1) ∧ utf8Type byte = range.2.2) ∨
    0xFF < byte ∧ utf8Type byte = 8 := by
  unfold utf8Type
  cases found : utf8Types.find? fun (first, last, _) => first ≤ byte ∧ byte ≤ last with
  | some range =>
    exact .inl ⟨range, List.mem_of_find?_eq_some found, by simpa using List.find?_some found, rfl⟩
  | none =>
    refine .inr ⟨?_, rfl⟩
    simp [utf8Types] at found
    omega

/-- The first byte of a character is the whole of it, or refused, or it announces others. -/
theorem decode_start (codep byte : Nat) :
    byte < 0x80 ∧ decode 0 codep byte = (0, byte) ∨
    (decode 0 codep byte).1 = 1 ∨
    0x80 ≤ byte ∧ Least (decode 0 codep byte).1 (decode 0 codep byte).2 := by
  unfold Least
  simp only [insides, List.mem_cons, List.not_mem_nil, or_false, exists_eq_or_imp, exists_eq_left]
  rcases utf8Type_cases byte with ⟨range, known, bounds, type⟩ | ⟨large, type⟩
  · simp only [utf8Types, List.mem_cons, List.not_mem_nil, or_false] at known
    rcases known with rfl | rfl | rfl | rfl | rfl | rfl | rfl | rfl | rfl | rfl | rfl | rfl | rfl |
        rfl
    all_goals
      simp only at bounds
      simp [decode, type, utf8States] <;> omega
  · simp [decode, type, utf8States]

theorem waits_start (codep : Nat) (c : Char) (s : Text) :
    Utf8 (c :: s) ↔ Waits (decode 0 codep c.toNat).1 s := by
  rw [Utf8.cons_iff]
  rcases utf8Type_cases c.toNat with ⟨range, known, bounds, type⟩ | ⟨large, type⟩
  · simp only [utf8Types, List.mem_cons, List.not_mem_nil, or_false] at known
    rcases known with rfl | rfl | rfl | rfl | rfl | rfl | rfl | rfl | rfl | rfl | rfl | rfl | rfl |
        rfl
    all_goals
      simp only at bounds
      simp only [decode, type, utf8States, List.getD_cons_zero, List.getD_cons_succ, Waits]
      grind
  · simp only [decode, type, utf8States, List.getD_cons_zero, List.getD_cons_succ, Waits]
    grind

/-- The classes of the bytes that go on with a character, and the others. -/
theorem utf8Type_tail (byte : Nat) :
    (0x80 ≤ byte ∧ byte ≤ 0x8F) ∧ utf8Type byte = 1 ∨
    (0x90 ≤ byte ∧ byte ≤ 0x9F) ∧ utf8Type byte = 9 ∨
    (0xA0 ≤ byte ∧ byte ≤ 0xBF) ∧ utf8Type byte = 7 ∨
    (byte < 0x80 ∨ 0xBF < byte) ∧ utf8Type byte ∈ [0, 2, 3, 4, 5, 6, 8, 10, 11] := by
  rcases utf8Type_cases byte with ⟨range, known, bounds, type⟩ | ⟨large, type⟩
  · simp only [utf8Types, List.mem_cons, List.not_mem_nil, or_false] at known
    rcases known with rfl | rfl | rfl | rfl | rfl | rfl | rfl | rfl | rfl | rfl | rfl | rfl | rfl |
        rfl
    all_goals
      simp only at bounds
      simp [type]
      omega
  · simp [type]
    omega

/-- What a state inside a character makes of a byte. -/
theorem decode_inside {row : Inside} (inside : row ∈ insides) (codep byte : Nat) :
    decode row.state codep byte =
      (if row.low ≤ byte ∧ byte ≤ row.high then row.next else 1, codep * 64 + byte % 64) := by
  have refused : ∀ type ∈ [0, 2, 3, 4, 5, 6, 8, 10, 11],
      (utf8States.getD row.state []).getD type 1 = 1 := by
    revert row
    decide
  simp only [insides, List.mem_cons, List.not_mem_nil, or_false] at inside
  rcases utf8Type_tail byte with ⟨range, type⟩ | ⟨range, type⟩ | ⟨range, type⟩ | ⟨outside, other⟩
  case inr.inr.inr =>
    have state := refused _ other
    rcases inside with rfl | rfl | rfl | rfl | rfl | rfl | rfl
    all_goals
      simp only [decode, state]
      simp
      omega
  all_goals
    rcases inside with rfl | rfl | rfl | rfl | rfl | rfl | rfl
    all_goals
      simp [decode, type, utf8States]
      omega

theorem waits_inside {row : Inside} (inside : row ∈ insides) (c : Char) (s : Text) :
    Waits row.state (c :: s) ↔ (row.low ≤ c.toNat ∧ c.toNat ≤ row.high) ∧ Waits row.next s := by
  simp only [insides, List.mem_cons, List.not_mem_nil, or_false] at inside
  rcases inside with rfl | rfl | rfl | rfl | rfl | rfl | rfl <;> simp [Waits, Due]

theorem low_inside {row : Inside} (inside : row ∈ insides) : 0x80 ≤ row.low := by
  revert row
  decide

theorem least_inside {row : Inside} (inside : row ∈ insides) (least : row.least ≤ codep)
    (range : row.low ≤ byte ∧ byte ≤ row.high) :
    row.next = 0 ∧ 0x80 ≤ codep * 64 + byte % 64 ∨ Least row.next (codep * 64 + byte % 64) := by
  unfold Least
  simp only [insides, List.mem_cons, List.not_mem_nil, or_false, exists_eq_or_imp,
    exists_eq_left] at inside ⊢
  rcases inside with rfl | rfl | rfl | rfl | rfl | rfl | rfl
  all_goals
    simp only at least range ⊢
    simp
    omega

theorem Least.two_le (least : Least state codep) : 2 ≤ state := by
  obtain ⟨row, inside, rfl, -⟩ := least
  revert row
  decide

theorem not_waits_nil {row : Inside} (inside : row ∈ insides) : ¬Waits row.state [] := by
  simp only [insides, List.mem_cons, List.not_mem_nil, or_false] at inside
  rcases inside with rfl | rfl | rfl | rfl | rfl | rfl | rfl <;> simp [Waits, Due]

/-- The decoder follows the encoding byte by byte. -/
theorem waits_cons (least : state = 0 ∨ Least state codep) (c : Char) (s : Text) :
    Waits state (c :: s) ↔ Waits (decode state codep c.toNat).1 s := by
  rcases least with rfl | ⟨row, inside, rfl, -⟩
  · exact waits_start codep c s
  · rw [decode_inside inside, waits_inside inside]
    split
    · rename_i range
      exact and_iff_right range
    · rename_i outside
      exact iff_of_false (fun both => outside both.1) id

/-- A byte is refused, or a character of its own, or it has a place in a longer character. -/
theorem decode_cases (least : state = 0 ∨ Least state codep) (byte : Nat) :
    (decode state codep byte).1 = 1 ∨
    byte < 0x80 ∧ state = 0 ∧ decode state codep byte = (0, byte) ∨
    0x80 ≤ byte ∧ ((decode state codep byte).1 = 0 ∧ 0x80 ≤ (decode state codep byte).2 ∨
      Least (decode state codep byte).1 (decode state codep byte).2) := by
  rcases least with rfl | ⟨row, inside, rfl, enough⟩
  · rcases decode_start codep byte with ⟨ascii, whole⟩ | refused | ⟨high, begun⟩
    · exact .inr (.inl ⟨ascii, rfl, whole⟩)
    · exact .inl refused
    · exact .inr (.inr ⟨high, .inr begun⟩)
  · rw [decode_inside inside]
    split
    · rename_i range
      exact .inr (.inr ⟨(low_inside inside).trans range.1, least_inside inside enough range⟩)
    · exact .inl rfl

/-- What comes of writing: a text of the shape if everything is encoded, and otherwise an exception
of the library. -/
def Writes (encoded : Prop) (shape : Text → Prop) : Except Exception Text → Prop
  | .ok text => encoded ∧ shape text
  | .error e => ¬encoded ∧ ∃ rest, e.what = '[' :: rest

theorem Writes.bind {x : Except Exception Text} {f : Text → Except Exception Text}
    (first : Writes a p x) (later : ∀ text, p text → Writes b q (f text)) :
    Writes (a ∧ b) q (x >>= f) := by
  cases x with
  | error e => exact ⟨fun both => first.1 both.1, first.2⟩
  | ok text =>
    obtain ⟨encoded, shape⟩ := first
    show Writes (a ∧ b) q (f text)
    have written := later text shape
    cases again : f text with
    | ok more =>
      rw [again] at written
      exact ⟨⟨encoded, written.1⟩, written.2⟩
    | error e =>
      rw [again] at written
      exact ⟨fun both => written.1 both.2, written.2⟩

theorem Writes.map {x : Except Exception Text} {f : Text → Text} (first : Writes a p x)
    (shape : ∀ text, p text → q (f text)) : Writes a q (x >>= fun text => pure (f text)) := by
  cases x with
  | error e => exact first
  | ok text => exact ⟨first.1, shape text first.2⟩

theorem Writes.mono {x : Except Exception Text} (first : Writes a p x)
    (shape : ∀ text, p text → q text) : Writes a q x := by
  cases x with
  | error e => exact first
  | ok text => exact ⟨first.1, shape text first.2⟩

theorem Writes.congr {x : Except Exception Text} (first : Writes a p x) (same : a ↔ b) :
    Writes b p x := by
  rwa [← propext same]

theorem notUtf8_what (what : Text) : ∃ rest, (notUtf8 what).what = '[' :: rest := by
  have bracket : lit "[json.exception.type_error.316] " = '[' :: _ :=
    lit_bracket "json.exception.type_error.316] "
  exact ⟨_, by rw [notUtf8, Exception.what, bracket, List.cons_append]⟩

/-- The characters of a string, in front of its closing quotation mark. -/
def Inner (text : Text) : Prop := ∀ r, Chars (text ++ '"' :: r) r

theorem Inner.plain (stands : isPlain c = true) (inner : Inner text) : Inner (c :: text) :=
  fun r => .plain stands (inner r)

theorem isPlain_of_code (printed : 0x20 ≤ c.toNat) (quote : c.toNat ≠ 0x22)
    (backslash : c.toNat ≠ 0x5C) : isPlain c = true := by
  have notQuote : c ≠ '"' := fun same => quote (congrArg Char.toNat same)
  have notBackslash : c ≠ '\\' := fun same => backslash (congrArg Char.toNat same)
  simp [isPlain, printed, notQuote, notBackslash]

theorem escaped_high (codep : Nat) (c : Char) (high : 0x80 ≤ codep) : escaped codep c = [c] := by
  have other : escapeLetters.find? (·.1 = codep) = none := by
    simp [escapeLetters]
    omega
  have printed : ¬codep ≤ 0x1F := by omega
  rw [escaped, other]
  exact if_neg printed

/-- A byte below 0x80 is written as something that stands for it in a string. -/
theorem escaped_ascii (low : c.toNat < 0x80) :
    (∀ d ∈ escaped c.toNat c, d.toNat < 0x80) ∧
      ∀ text, Inner text → Inner (escaped c.toNat c ++ text) := by
  unfold escaped
  split
  · rename_i code letter found
    have known : (code, letter) ∈ escapeLetters := List.mem_of_find?_eq_some found
    have letters : ∀ pair ∈ escapeLetters, pair.2.toNat < 0x80 ∧ pair.2 ∈ escapable := by decide
    obtain ⟨ascii, standing⟩ := letters _ known
    constructor
    · simpa using ascii
    · exact fun text inner r => .escape standing (inner r)
  · rename_i other
    simp [escapeLetters] at other
    split
    · rename_i control
      have digits : ∀ n ≤ 0x1F, (Nat.digitChar (n / 16)).toNat < 0x80 ∧
          (Nat.digitChar (n % 16)).toNat < 0x80 ∧ Text.isHex (Nat.digitChar (n / 16)) = true ∧
            Text.isHex (Nat.digitChar (n % 16)) = true := by decide
      obtain ⟨firstAscii, lastAscii, first, last⟩ := digits _ control
      constructor
      · simp [firstAscii, lastAscii]
      · exact fun text inner r => .unit rfl rfl first last (inner r)
    · rename_i printed
      have stands : isPlain c = true := isPlain_of_code (by omega) (by omega) (by omega)
      constructor
      · simpa using low
      · exact fun text inner => inner.plain stands

theorem dumpEscapedFrom_writes (s : Text) (state codep i : Nat) (rest : Text)
    (least : state = 0 ∨ Least state codep) :
    Writes (Waits state rest) (fun text => Waits state text ∧ Inner text)
      (dumpEscapedFrom s state codep i rest) := by
  induction rest generalizing state codep i with
  | nil =>
    unfold dumpEscapedFrom
    split
    · rename_i between
      subst between
      exact ⟨.nil, .nil, fun r => .closed⟩
    · rename_i within
      obtain ⟨row, inside, rfl, -⟩ := least.resolve_left within
      exact ⟨not_waits_nil inside, notUtf8_what _⟩
  | cons c rest ih =>
    have follows := waits_cons least c
    unfold dumpEscapedFrom
    rcases decode_cases least c.toNat with refused | ⟨ascii, rfl, whole⟩ | ⟨high, later⟩
    · simp only [refused, if_true]
      refine ⟨?_, notUtf8_what _⟩
      rw [follows, refused]
      exact id
    · simp only [whole] at follows ⊢
      obtain ⟨bytes, standing⟩ := escaped_ascii ascii
      refine ((ih 0 c.toNat (i + 1) (.inl rfl)).map fun text shape => ?_).congr (follows rest).symm
      exact ⟨(Utf8.of_ascii bytes).append shape.1, standing text shape.2⟩
    · have piece : (if (decode state codep c.toNat).1 = 0
          then escaped (decode state codep c.toNat).2 c else [c]) = [c] := by
        rcases later with ⟨-, large⟩ | begun
        · rw [escaped_high _ _ large, ite_self]
        · have inside := begun.two_le
          exact if_neg (by omega)
      have taken : (decode state codep c.toNat).1 ≠ 1 := by
        rcases later with ⟨between, -⟩ | begun
        · simp [between]
        · have inside := begun.two_le
          omega
      simp only [taken, if_false, piece]
      refine ((ih _ _ (i + 1) (later.imp_left And.left)).map fun text shape => ?_).congr
        (follows rest).symm
      have stands : isPlain c = true := isPlain_of_code (by omega) (by omega) (by omega)
      exact ⟨(follows text).mpr shape.1, shape.2.plain stands⟩

theorem dumpEscaped_writes (s : Text) :
    Writes (Utf8 s) (fun text => Utf8 text ∧ Inner text) (dumpEscaped s) :=
  dumpEscapedFrom_writes s 0 0 0 s (.inl rfl)

end Serializer
end Crown
