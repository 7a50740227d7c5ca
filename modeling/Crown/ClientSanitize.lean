import Crown.Lib.Utf16

/-! What the client does to a post before it is sent: `composables/sanitize.ts` and
`composables/validators.ts`. -/
namespace Crown.Client

open Lib

/-- The code unit of an ASCII character. -/
def unit (c : Char) : UInt16 := UInt16.ofNat c.toNat

def between (low high : Char) (u : UInt16) : Bool := unit low ≤ u && u ≤ unit high

/-- `\w`. -/
def isWord (u : UInt16) : Bool :=
  between 'a' 'z' u || between 'A' 'Z' u || between '0' '9' u || u = unit '_'

/-- `\s`, which is also what `trim` takes away. -/
def isSpace (u : UInt16) : Bool :=
  between '\t' '\r' u || u = unit ' ' || u = 0x00A0 || u = 0x1680 || (0x2000 ≤ u && u ≤ 0x200A) ||
    u = 0x2028 || u = 0x2029 || u = 0x202F || u = 0x205F || u = 0x3000 || u = 0xFEFF

/-- `[\t\n\r]`. -/
def isBreak (u : UInt16) : Bool := u = unit '\t' || u = unit '\n' || u = unit '\r'

/-- The flag `i` folds nothing into ASCII but ASCII. -/
def lower (u : UInt16) : UInt16 := if between 'A' 'Z' u then u + 0x20 else u

def trim (s : JsString) : JsString := ((s.dropWhile isSpace).reverse.dropWhile isSpace).reverse

/-- Without the matches of `HTML_TAG_RE`: from a `<` that some `>` follows to the next `>`. -/
def withoutTags : (inTag : Bool) → JsString → JsString
  | _, [] => []
  | true, u :: rest => withoutTags (u ≠ unit '>') rest
  | false, u :: rest =>
    if u = unit '<' && rest.contains (unit '>') then withoutTags true rest
    else u :: withoutTags false rest

/-- How long a match of `on\w+\s*=` in front is. -/
def attrLength : JsString → Option Nat
  | o :: n :: rest =>
    if lower o = unit 'o' ∧ lower n = unit 'n' ∧ rest.takeWhile isWord ≠ [] then
      match (rest.dropWhile isWord).dropWhile isSpace with
      | equals :: after =>
        if equals = unit '=' then some ((o :: n :: rest).length - after.length) else none
      | [] => none
    else none
  | _ => none

/-- Without the matches of `DANGEROUS_ATTRS_RE`; `afterWord` says whether a word character
stands in front, `matched` how many units of a match are still to be passed. -/
def withoutAttrs : (afterWord : Bool) → (matched : Nat) → JsString → JsString
  | _, _, [] => []
  | _, matched + 1, u :: rest => withoutAttrs (isWord u) matched rest
  | afterWord, 0, u :: rest =>
    match if afterWord then none else attrLength (u :: rest) with
    | some length => withoutAttrs (isWord u) (length - 1) rest
    | none => u :: withoutAttrs (isWord u) 0 rest

def stripHtml (input : JsString) : JsString :=
  trim (withoutAttrs false 0 (withoutTags false input))

def sanitizeString (input : JsString) (max : Nat) : JsString := (stripHtml input).take max

/-- The value of a hexadecimal digit. -/
def hexDigit (u : UInt16) : Option UInt16 :=
  if between '0' '9' u then some (u - unit '0')
  else if between 'a' 'f' u then some (u - unit 'a' + 10)
  else if between 'A' 'F' u then some (u - unit 'A' + 10)
  else none

def escaped (a b c d : UInt16) : Option UInt16 := do
  let a ← hexDigit a
  let b ← hexDigit b
  let c ← hexDigit c
  let d ← hexDigit d
  return a * 0x1000 + b * 0x100 + c * 0x10 + d

def decodeUnicodeEscapes : JsString → JsString
  | slash :: u :: a :: b :: c :: d :: rest =>
    match if (slash = unit '\\' || slash = unit '/') && u = unit 'u' then escaped a b c d else none with
    | some code => code :: decodeUnicodeEscapes rest
    | none => slash :: decodeUnicodeEscapes (u :: a :: b :: c :: d :: rest)
  | u :: rest => u :: decodeUnicodeEscapes rest
  | [] => []

def dangerousSchemes : List JsString :=
  [js "javascript", js "vbscript", js "data", js "file", js "blob"]

/-- `DANGEROUS_SCHEMES_RE`. -/
def isDangerous (url : JsString) : Bool :=
  dangerousSchemes.any fun scheme =>
    let start := url.dropWhile isSpace
    scheme.isPrefixOf (start.map lower) &&
      ((start.drop scheme.length).dropWhile isSpace).head? = some (unit ':')

def sanitizeUrl (input : JsString) : JsString :=
  if trim input = [] then []
  else
    let decoded := decodeUnicodeEscapes (trim input)
    if isDangerous (decoded.filter fun u => !isBreak u) then [] else decoded

def maxTitleChars : Nat := 256
def maxContentChars : Nat := 5000
def maxImageChars : Nat := 2048

structure PostInput where
  title : JsString
  content : JsString
  imageUrl : JsString
  deriving DecidableEq

def sanitizePost (title content : JsString) (imageUrl : Option JsString) : PostInput where
  title := sanitizeString title maxTitleChars
  content := sanitizeString content maxContentChars
  imageUrl := if imageUrl.getD [] = [] then [] else sanitizeUrl (imageUrl.getD [])

/-- Whether `CreatePostSchema` takes the fields. -/
def validateCreatePost (data : PostInput) : Bool :=
  1 ≤ data.title.length && data.title.length ≤ maxTitleChars &&
    1 ≤ data.content.length && data.content.length ≤ maxContentChars &&
    (data.imageUrl.length ≤ maxImageChars || data.imageUrl = [])

end Crown.Client
