import Crown.JsonDump
import Crown.JsonLexer

/-! The parser of the vendored `libs/json.hpp`, which keeps a stack of the arrays and objects it is
in. -/
namespace Crown

open Lib Lib.JsonText Lexer

/-- `operator[]` of the ordered map and the assignment to it: the members stay in the order of their
keys, and a key that is there already gets the new value. -/
def setMember (key : Text) (value : Json) : List (Text × Json) → List (Text × Json)
  | [] => [(key, value)]
  | (k, old) :: rest =>
    if key < k then (key, value) :: (k, old) :: rest
    else if key = k then (k, value) :: rest
    else (k, old) :: setMember key value rest

/-- An open array or object: what it holds so far and, in an object, the key whose value comes
next. -/
inductive OpenValue where
  | array (items : List Json)
  | object (members : List (Text × Json)) (key : Text)

/-- `handle_value`. -/
def OpenValue.handleValue (value : Json) : OpenValue → Json
  | array items => .array (items ++ [value])
  | object members key => .object (setMember key value members)

namespace Parser

/-- The part of `exception_message` behind which the last read characters are quoted. -/
def exceptionMessage (last : TokenType) (expected : Option Text) (context : Text) : Text :=
  lit "syntax error while parsing " ++ context ++ lit " - " ++
    (match last with
    | .parseError message => message
    | token => lit "unexpected " ++ token.name) ++
    (match expected with
    | some name => lit "; expected " ++ name
    | none => [])

def syntaxError (read : List TokenType) (expected : Option Text) (context : Text) : Exception :=
  .parseError (exceptionMessage (read.headD .endOfInput) expected context)

def literalOrValue : Text := lit "'[', '\x7b', or a literal"

/-- The failure where a value has to begin. -/
def noValue : List TokenType → Exception
  | .valueFloat number _ :: _ =>
    .outOfRange (lit "number overflow parsing '" ++ number ++ lit "'")
  | .parseError message :: _ => syntaxError [.parseError message] none (lit "value")
  | read => syntaxError read (some literalOrValue) (lit "value")

/-- The failure where a key and its separator have to stand. -/
def noKey : List TokenType → Exception
  | .valueString _ :: read =>
    syntaxError read (some TokenType.nameSeparator.name) (lit "object separator")
  | read => syntaxError read (some (TokenType.valueString []).name) (lit "object key")

mutual

/-- `sax_parse_internal` where a value begins, within the open arrays and objects: the value of the
outermost one, and the tokens behind it. -/
def parseValue : List OpenValue → List TokenType → Except Exception (Json × List TokenType)
  | stack, .beginObject :: .endObject :: read => evaluate stack (.object []) read
  | stack, .beginObject :: .valueString key :: .nameSeparator :: read =>
    parseValue (.object [] key :: stack) read
  | _, .beginObject :: read => .error (noKey read)
  | stack, .beginArray :: .endArray :: read => evaluate stack (.array []) read
  | stack, .beginArray :: read => parseValue (.array [] :: stack) read
  | stack, .valueFloat _ (some x) :: read => evaluate stack (.float x) read
  | stack, .literalFalse :: read => evaluate stack (.boolean false) read
  | stack, .literalNull :: read => evaluate stack .null read
  | stack, .literalTrue :: read => evaluate stack (.boolean true) read
  | stack, .valueInteger n :: read => evaluate stack (.integer n) read
  | stack, .valueString s :: read => evaluate stack (.string s) read
  | stack, .valueUnsigned n :: read => evaluate stack (.integer n) read
  | _, read => .error (noValue read)

/-- `sax_parse_internal` behind a value. -/
def evaluate : List OpenValue → Json → List TokenType → Except Exception (Json × List TokenType)
  | [], value, read => .ok (value, read)
  | .array items :: stack, value, .valueSeparator :: read =>
    parseValue (.array (items ++ [value]) :: stack) read
  | .array items :: stack, value, .endArray :: read =>
    evaluate stack ((OpenValue.array items).handleValue value) read
  | .array _ :: _, _, read =>
    .error (syntaxError read (some TokenType.endArray.name) (lit "array"))
  | .object members key :: stack, value,
      .valueSeparator :: .valueString next :: .nameSeparator :: read =>
    parseValue (.object (setMember key value members) next :: stack) read
  | .object .. :: _, _, .valueSeparator :: read => .error (noKey read)
  | .object members key :: stack, value, .endObject :: read =>
    evaluate stack ((OpenValue.object members key).handleValue value) read
  | .object .. :: _, _, read =>
    .error (syntaxError read (some TokenType.endObject.name) (lit "object"))

end

def emptyInput : Text :=
  lit "attempting to parse an empty input; check that your input string or stream contains " ++
  lit "the expected JSON"

/-- `parse`, in strict mode: nothing but the end may follow the value. -/
def parseTokens (read : List TokenType) : Except Exception Json :=
  match parseValue [] read with
  | .error e => .error e
  | .ok (value, .endOfInput :: _) => .ok value
  | .ok (_, read) => .error (syntaxError read (some TokenType.endOfInput.name) (lit "value"))

end Parser

/-- `json::parse`; `what` begins with the position in front of these texts. -/
def Json.parse (strtod : Text → Option Rat) (s : Text) : Except Exception Json :=
  if s.head?.getD '\x00' = '\x00' then .error (.parseError Parser.emptyInput)
  else Parser.parseTokens (tokens strtod s)

end Crown
