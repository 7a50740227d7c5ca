import Crown.Json
import Crown.Lib.JsonGrammar
import Crown.Lib.Utf16

/-! The lexer of the vendored `libs/json.hpp`. -/
namespace Crown

open Lib Lib.JsonText

/-- A float is nothing where `strtod` gives no finite number. -/
inductive TokenType where
  | literalTrue
  | literalFalse
  | literalNull
  | valueString (s : Text)
  | valueUnsigned (n : Nat)
  | valueInteger (n : Int)
  | valueFloat (number : Text) (x : Option Rat)
  | beginArray
  | beginObject
  | endArray
  | endObject
  | nameSeparator
  | valueSeparator
  | parseError (message : Text)
  | endOfInput
  deriving DecidableEq

def TokenType.name : TokenType → Text
  | .literalTrue => lit "true literal"
  | .literalFalse => lit "false literal"
  | .literalNull => lit "null literal"
  | .valueString _ => lit "string literal"
  | .valueUnsigned _ | .valueInteger _ | .valueFloat .. => lit "number literal"
  | .beginArray => lit "'['"
  | .beginObject => lit "'\x7b'"
  | .endArray => lit "']'"
  | .endObject => lit "'\x7d'"
  | .nameSeparator => lit "':'"
  | .valueSeparator => lit "','"
  | .parseError _ => lit "<parse error>"
  | .endOfInput => lit "end of input"

namespace Lexer

/-! Strings. -/

/-- The number of a code unit written with four hexadecimal digits. -/
def getCodepoint (digits : List Char) : Option Nat :=
  if digits.all Text.isHex then some (digits.foldl (fun n c => 16 * n + Text.hexValue c) 0)
  else none

/-- The characters that are escaped by a letter. -/
def escapeChars : List (Char × Char) :=
  [('"', '"'), ('\\', '\\'), ('/', '/'), ('b', '\x08'), ('f', '\x0c'), ('n', '\n'), ('r', '\r'),
    ('t', '\t')]

def controlNames : List String :=
  ["NUL", "SOH", "STX", "ETX", "EOT", "ENQ", "ACK", "BEL", "BS", "HT", "LF", "VT", "FF", "CR", "SO",
    "SI", "DLE", "DC1", "DC2", "DC3", "DC4", "NAK", "SYN", "ETB", "CAN", "EM", "SUB", "ESC", "FS",
    "GS", "RS", "US"]

/-- The letter that is proposed for a control character, besides its number. -/
def controlLetters : List (Nat × Text) :=
  [(0x08, lit " or \\b"), (0x09, lit " or \\t"), (0x0A, lit " or \\n"), (0x0C, lit " or \\f"),
    (0x0D, lit " or \\r")]

def controlCharacter (code : Nat) : Text :=
  let number := ['0', '0', (Nat.digitChar (code / 16)).toUpper, (Nat.digitChar (code % 16)).toUpper]
  lit "invalid string: control character U+" ++ number ++ lit " (" ++
    lit (controlNames.getD code "") ++ lit ") must be escaped to \\u" ++ number ++
    (controlLetters.lookup code).getD []

def missingQuote : Text := lit "invalid string: missing closing quote"

def forbiddenEscape : Text := lit "invalid string: forbidden character after backslash"

def hexExpected : Text := lit "invalid string: '\\u' must be followed by 4 hex digits"

def loneHigh : Text :=
  lit "invalid string: surrogate U+D800..U+DBFF must be followed by U+DC00..U+DFFF"

def loneLow : Text :=
  lit "invalid string: surrogate U+DC00..U+DFFF must follow U+D800..U+DBFF"

def illFormed : Text := lit "invalid string: ill-formed UTF-8 byte"

/-- The ranges that the bytes after a first byte have to be in; no character begins with the
others. -/
def followers (byte : Nat) : Option (List (Nat × Nat)) :=
  if 0x20 ≤ byte ∧ byte ≤ 0x7F then some []
  else if 0xC2 ≤ byte ∧ byte ≤ 0xDF then some [(0x80, 0xBF)]
  else if byte = 0xE0 then some [(0xA0, 0xBF), (0x80, 0xBF)]
  else if 0xE1 ≤ byte ∧ byte ≤ 0xEC ∨ 0xEE ≤ byte ∧ byte ≤ 0xEF then
    some [(0x80, 0xBF), (0x80, 0xBF)]
  else if byte = 0xED then some [(0x80, 0x9F), (0x80, 0xBF)]
  else if byte = 0xF0 then some [(0x90, 0xBF), (0x80, 0xBF), (0x80, 0xBF)]
  else if 0xF1 ≤ byte ∧ byte ≤ 0xF3 then some [(0x80, 0xBF), (0x80, 0xBF), (0x80, 0xBF)]
  else if byte = 0xF4 then some [(0x80, 0x8F), (0x80, 0xBF), (0x80, 0xBF)]
  else none

/-- What is scanned goes behind some bytes that were added before. -/
def adding (added : Text) : Except Text (Text × Text) → Except Text (Text × Text)
  | .ok (s, rest) => .ok (added ++ s, rest)
  | .error message => .error message

def codepointBytes (codepoint : Nat) : Text := (JsString.utf8Bytes codepoint).map Char.ofNat

/-- The loop of `scan_string`, with the ranges `next_byte_in_range` still reads a byte for: the
string up to its closing quotation mark, and what is left behind that. -/
def scanStringFrom : List (Nat × Nat) → Text → Except Text (Text × Text)
  | _ :: _, [] => .error illFormed
  | (low, high) :: due, c :: rest =>
    if low ≤ c.toNat ∧ c.toNat ≤ high then adding [c] (scanStringFrom due rest)
    else .error illFormed
  | [], [] => .error missingQuote
  | [], '"' :: rest => .ok ([], rest)
  | [], '\\' :: 'u' :: a :: b :: c :: d :: rest =>
    match getCodepoint [a, b, c, d] with
    | none => .error hexExpected
    | some codepoint1 =>
      if 0xD800 ≤ codepoint1 ∧ codepoint1 ≤ 0xDBFF then
        match rest with
        | '\\' :: 'u' :: e :: f :: g :: h :: rest =>
          match getCodepoint [e, f, g, h] with
          | none => .error hexExpected
          | some codepoint2 =>
            if 0xDC00 ≤ codepoint2 ∧ codepoint2 ≤ 0xDFFF then
              adding (codepointBytes (codepoint1 * 2 ^ 10 + codepoint2 - 0x35FDC00))
                (scanStringFrom [] rest)
            else .error loneHigh
        | '\\' :: 'u' :: _ => .error hexExpected
        | _ => .error loneHigh
      else if 0xDC00 ≤ codepoint1 ∧ codepoint1 ≤ 0xDFFF then .error loneLow
      else adding (codepointBytes codepoint1) (scanStringFrom [] rest)
  | [], '\\' :: 'u' :: _ => .error hexExpected
  | [], '\\' :: c :: rest =>
    match escapeChars.lookup c with
    | some added => adding [added] (scanStringFrom [] rest)
    | none => .error forbiddenEscape
  | [], ['\\'] => .error forbiddenEscape
  | [], c :: rest =>
    if c.toNat ≤ 0x1F then .error (controlCharacter c.toNat)
    else
      match followers c.toNat with
      | some due => adding [c] (scanStringFrom due rest)
      | none => .error illFormed

def scanString (s : Text) : Except Text (Text × Text) := scanStringFrom [] s

/-! Numbers. -/

/-- The labels of `scan_number`. -/
inductive NumberState where
  | minus
  | zero
  | any1
  | decimal1
  | decimal2
  | exponent
  | sign
  | any2

inductive NumberType where
  | unsigned
  | integer
  | float

namespace NumberState

def next : NumberState → Char → Option NumberState
  | minus, c => if c = '0' then some zero else if c.isDigit then some any1 else none
  | zero, c => if c = '.' then some decimal1 else if c = 'e' ∨ c = 'E' then some exponent else none
  | any1, c =>
    if c.isDigit then some any1
    else if c = '.' then some decimal1
    else if c = 'e' ∨ c = 'E' then some exponent
    else none
  | decimal1, c => if c.isDigit then some decimal2 else none
  | decimal2, c =>
    if c.isDigit then some decimal2 else if c = 'e' ∨ c = 'E' then some exponent else none
  | exponent, c =>
    if c = '+' ∨ c = '-' then some sign else if c.isDigit then some any2 else none
  | sign, c => if c.isDigit then some any2 else none
  | any2, c => if c.isDigit then some any2 else none

/-- The message where no character fits; the others are done there. -/
def message : NumberState → Option Text
  | minus => some (lit "invalid number; expected digit after '-'")
  | decimal1 => some (lit "invalid number; expected digit after '.'")
  | exponent => some (lit "invalid number; expected '+', '-', or digit after exponent")
  | sign => some (lit "invalid number; expected digit after exponent sign")
  | zero | any1 | decimal2 | any2 => none

/-- The type of the number when a label is reached. -/
def numberType (before : NumberType) : NumberState → NumberType
  | minus => .integer
  | decimal1 | exponent => .float
  | zero | any1 | decimal2 | sign | any2 => before

end NumberState

/-- The characters of a number from a label on, its type, and what is left. -/
def scanNumberFrom : NumberState → NumberType → Text → Except Text (NumberType × Text × Text)
  | state, type, [] =>
    match state.message with
    | some message => .error message
    | none => .ok (type, [], [])
  | state, type, c :: rest =>
    match state.next c with
    | some next =>
      match scanNumberFrom next (next.numberType type) rest with
      | .ok (type, buffer, rest) => .ok (type, c :: buffer, rest)
      | .error message => .error message
    | none =>
      match state.message with
      | some message => .error message
      | none => .ok (type, [], c :: rest)

/-- The label behind the first character of a number. -/
def firstState (c : Char) : NumberState :=
  if c = '-' then .minus else if c = '0' then .zero else .any1

def digitsValue (digits : Text) : Nat := Nat.ofDigitChars 10 digits 0

/-- The token of the scanned characters: `strtoull` and `strtoll` where the number is in their
range, `strtod` elsewhere. -/
def numberToken (strtod : Text → Option Rat) (buffer : Text) : NumberType → TokenType
  | .unsigned =>
    if digitsValue buffer < 2 ^ 64 then .valueUnsigned (digitsValue buffer)
    else .valueFloat buffer (strtod buffer)
  | .integer =>
    if digitsValue (buffer.drop 1) ≤ 2 ^ 63 then .valueInteger (-digitsValue (buffer.drop 1))
    else .valueFloat buffer (strtod buffer)
  | .float => .valueFloat buffer (strtod buffer)

def invalidLiteral : Text := lit "invalid literal"

/-- `scan_literal`; `letters` are those behind the first. -/
def scanLiteral (letters : Text) (token : TokenType) (rest : Text) : TokenType × Text :=
  if letters <+: rest then (token, rest.drop letters.length) else (.parseError invalidLiteral, rest)

/-- The token that begins with a character. -/
def scanFrom (strtod : Text → Option Rat) (c : Char) (rest : Text) : TokenType × Text :=
  if c = '[' then (.beginArray, rest)
  else if c = ']' then (.endArray, rest)
  else if c = '\x7b' then (.beginObject, rest)
  else if c = '\x7d' then (.endObject, rest)
  else if c = ':' then (.nameSeparator, rest)
  else if c = ',' then (.valueSeparator, rest)
  else if c = 't' then scanLiteral ['r', 'u', 'e'] .literalTrue rest
  else if c = 'f' then scanLiteral ['a', 'l', 's', 'e'] .literalFalse rest
  else if c = 'n' then scanLiteral ['u', 'l', 'l'] .literalNull rest
  else if c = '"' then
    match scanString rest with
    | .ok (s, rest) => (.valueString s, rest)
    | .error message => (.parseError message, rest)
  else if c = '-' ∨ c.isDigit then
    match scanNumberFrom (firstState c) ((firstState c).numberType .unsigned) rest with
    | .ok (type, buffer, rest) => (numberToken strtod (c :: buffer) type, rest)
    | .error message => (.parseError message, rest)
  else if c = '\x00' then (.endOfInput, rest)
  else (.parseError invalidLiteral, rest)

/-- `scan`, behind the byte order mark. -/
def scan (strtod : Text → Option Rat) (s : Text) : TokenType × Text :=
  match s.dropWhile isBlank with
  | [] => (.endOfInput, [])
  | c :: rest => scanFrom strtod c rest

/-- What `get_token` returns, time after time, up to the first error or the end of the input;
`limit` bounds the number of tokens. -/
def tokensWithin (strtod : Text → Option Rat) : Nat → Text → List TokenType
  | 0, _ => []
  | limit + 1, s =>
    match scan strtod s with
    | (.parseError message, _) => [.parseError message]
    | (.endOfInput, _) => [.endOfInput]
    | (token, rest) => token :: tokensWithin strtod limit rest

/-- No text has more tokens than characters and its end. -/
def tokensOf (strtod : Text → Option Rat) (s : Text) : List TokenType :=
  tokensWithin strtod (s.length + 1) s

/-- The tokens of a whole input; `skip_bom` takes a byte order mark in front. -/
def tokens (strtod : Text → Option Rat) : Text → List TokenType
  | '\xef' :: '\xbb' :: '\xbf' :: rest => tokensOf strtod rest
  | '\xef' :: _ => [.parseError (lit "invalid BOM; must be 0xEF 0xBB 0xBF if given")]
  | s => tokensOf strtod s

end Lexer
end Crown
