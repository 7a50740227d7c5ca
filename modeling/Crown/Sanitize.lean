import Crown.Lib.Text

/-! The HTML and URL filters of `utils/sanitize.cpp` over the trees of libxml2. -/
namespace Crown

open Lib

/-- The attributes of an element: no name occurs twice. -/
structure Attributes where
  entries : List (Text × Text)
  distinct : (entries.map (·.1)).Nodup

/-- What an `xmlNode *` leads to: the node and, through `next`, its later siblings. -/
inductive XmlNode where
  | null
  | element (name : Text) (attributes : Attributes) (children next : XmlNode)
  | text (content : Text) (next : XmlNode)
  /-- A comment, a processing instruction, a CDATA section. -/
  | other (content : Text) (next : XmlNode)

namespace Attributes

def getProp (name : Text) (a : Attributes) : Option Text := a.entries.lookup name

def setProp (name value : Text) (a : Attributes) : Attributes where
  entries := a.entries.map fun entry => if entry.1 = name then (name, value) else entry
  distinct := by
    have names : (a.entries.map fun entry => if entry.1 = name then (name, value) else entry).map
        (·.1) = a.entries.map (·.1) := by
      rw [List.map_map]
      refine List.map_congr_left fun entry _ => ?_
      by_cases same : entry.1 = name <;> simp [same]
    rw [names]
    exact a.distinct

def removeProp (name : Text) (a : Attributes) : Attributes where
  entries := a.entries.filter (·.1 ≠ name)
  distinct := a.distinct.sublist ( List.filter_sublist.map _)

end Attributes

namespace XmlNode

def append : XmlNode → XmlNode → XmlNode
  | null, later => later
  | element name attributes children next, later =>
    element name attributes children (next.append later)
  | text content next, later => text content (next.append later)
  | other content next, later => other content (next.append later)

/-- A text is put behind the siblings; `coalesce` says whether the library then joins
it with a text in front of it. -/
def appendText (coalesce : Bool) (content : Text) : XmlNode → XmlNode
  | null => text content null
  | element name attributes children next =>
    element name attributes children (next.appendText coalesce content)
  | text before null =>
    if coalesce then text (before ++ content) null else text before (text content null)
  | text before next => text before (next.appendText coalesce content)
  | other before next => other before (next.appendText coalesce content)

end XmlNode

def allowedTags : List Text :=
  [lit "html", lit "head", lit "body", lit "p", lit "br", lit "b", lit "i",
    lit "u", lit "strong", lit "em", lit "s", lit "del", lit "ins", lit "sub",
    lit "sup", lit "span", lit "a", lit "img", lit "h1", lit "h2", lit "h3",
    lit "h4", lit "h5", lit "h6", lit "ul", lit "ol", lit "li", lit "blockquote",
    lit "pre", lit "code", lit "div", lit "table", lit "thead", lit "tbody", lit "tr",
    lit "th", lit "td"]

def allowedAttributes : List Text :=
  [lit "href", lit "src", lit "alt", lit "title", lit "width", lit "height", lit "class"]

def startsWithCaseInsensitive (str start : Text) : Bool :=
  decide (start.length ≤ str.length) && Text.lower (str.take start.length) == Text.lower start

def isValidUrl (url : Text) : Bool :=
  let lower := Text.lower url
  !(lit "javascript:").isPrefixOf lower && !(lit "vbscript:").isPrefixOf lower &&
    !(lit "data:").isPrefixOf lower && !(lit "file:").isPrefixOf lower

/-- The loop body over the attributes of an allowed element. -/
def sanitizeAttribute (a : Attributes) (attrName : Text) : Attributes :=
  let lowerAttr := Text.lower attrName
  if startsWithCaseInsensitive lowerAttr (lit "on") ∨ lowerAttr = lit "style" ∨
      lowerAttr ∉ allowedAttributes then a.removeProp attrName
  else if lowerAttr = lit "href" ∨ lowerAttr = lit "src" then
    match a.getProp attrName with
    | some url => if isValidUrl url then a else a.setProp attrName []
    | none => a
  else a

def sanitizeAttributes (a : Attributes) : Attributes :=
  (a.entries.map (·.1)).foldl sanitizeAttribute a

namespace XmlNode

/-- The children of a removed element are put, one by one, before it: behind the
siblings already passed. -/
def promote (coalesce : Bool) (passed : XmlNode) : XmlNode → XmlNode
  | null => passed
  | element name attributes children next =>
    promote coalesce (passed.append (element name attributes children null)) next
  | text content next => promote coalesce (passed.appendText coalesce content) next
  | other content next => promote coalesce (passed.append (other content null)) next

/-- `SanitizeNode`: the loop over the siblings. The pointer to the next sibling is
taken before the children of a removed element are put in front of it. -/
def sanitizeNode (coalesce : Bool) (passed : XmlNode) : XmlNode → XmlNode
  | null => passed
  | element name attributes children next =>
    if Text.lower name ∈ allowedTags then
      sanitizeNode coalesce
        (passed.append (element name (sanitizeAttributes attributes)
          (sanitizeNode coalesce null children) null)) next
    else sanitizeNode coalesce (promote coalesce passed children) next
  | text content next => sanitizeNode coalesce (passed.append (text content null)) next
  | other content next => sanitizeNode coalesce (passed.append (other content null)) next

end XmlNode

/-- What the filter needs of libxml2: reading gives the root element, or nothing. -/
structure HtmlLibrary where
  read : Text → Option XmlNode
  dump : XmlNode → Text
  coalesce : Bool

def isSpace (c : Char) : Bool := c = ' ' || c = '\t' || c = '\n' || c = '\r'

def trimmed (s : Text) : Text := ((s.dropWhile isSpace).reverse.dropWhile isSpace).reverse

namespace XmlNode

/-- The children of the first `body` among the siblings. -/
def body : XmlNode → Option XmlNode
  | null => none
  | element name _ children next =>
    if Text.lower name = lit "body" then some children else next.body
  | text _ next | other _ next => next.body

/-- The siblings dumped one after the other. -/
def dumpAll (dump : XmlNode → Text) : XmlNode → Text
  | null => []
  | element name attributes children next =>
    dump (element name attributes children null) ++ next.dumpAll dump
  | text content next => dump (text content null) ++ next.dumpAll dump
  | other content next => dump (other content null) ++ next.dumpAll dump

end XmlNode

/-- A root that is not an element, or whose name is not allowed, does not occur:
the parser puts every document below an `html` element. -/
def sanitizeString (html : HtmlLibrary) (input : Text) : Text :=
  if input = [] then []
  else
    match html.read input with
    | none => []
    | some root =>
      match XmlNode.sanitizeNode html.coalesce .null root with
      | .element _ _ children _ => trimmed ((children.body.getD children).dumpAll html.dump)
      | _ => []

def blockedSchemes : List Text :=
  [lit "javascript:", lit "vbscript:", lit "data:", lit "file:", lit "blob:"]

def sanitizeUrl (input : Text) : Text :=
  if blockedSchemes.any (·.isPrefixOf (Text.lower (trimmed input))) then []
  else trimmed input

end Crown
