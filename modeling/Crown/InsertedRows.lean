import Crown.CreationReports
import Crown.UnwrappedText

/-! The lengths of what `CreatePost` inserts. It checks the title and the content it is sent and
writes what `SanitizeString` makes of them, which may be shorter or longer. -/
namespace Crown

open Lib
open Lib.Program

namespace XmlNode

def isNull : XmlNode → Bool
  | null => true
  | _ => false

/-- What the filter keeps of a document: elements that are not allowed give way to their
children, which are kept as they are. -/
def kept : XmlNode → XmlNode
  | null => null
  | element name attributes children next =>
    if Text.lower name ∈ allowedTags then
      element name (sanitizeAttributes attributes) children.kept next.kept
    else children.append next.kept
  | text content next => text content next.kept
  | other content next => other content next.kept

end XmlNode

namespace XmlNode

@[simp] theorem isNull_null : null.isNull = true := rfl

@[simp] theorem isNull_element (name : Text) (attributes : Attributes) (children next : XmlNode) :
    (element name attributes children next).isNull = false := rfl

@[simp] theorem isNull_text (content : Text) (next : XmlNode) :
    (text content next).isNull = false := rfl

@[simp] theorem isNull_other (content : Text) (next : XmlNode) :
    (other content next).isNull = false := rfl

theorem collects_isNull : Collects isNull (· && ·) where
  assoc := Bool.and_assoc
  null_op := Bool.true_and
  op_null := Bool.and_true
  element _ _ _ _ := rfl
  text _ _ := rfl
  other _ _ := rfl
  joined _ _ := rfl

@[simp] theorem isNull_append (nodes later : XmlNode) :
    (nodes.append later).isNull = (nodes.isNull && later.isNull) :=
  Collects.append collects_isNull nodes later

@[simp] theorem isNull_promote (coalesce : Bool) (passed nodes : XmlNode) :
    (promote coalesce passed nodes).isNull = (passed.isNull && nodes.isNull) :=
  Collects.promote collects_isNull coalesce passed nodes

theorem isNull_sanitizeNode (coalesce : Bool) (passed nodes : XmlNode) :
    (sanitizeNode coalesce passed nodes).isNull = (passed.isNull && nodes.kept.isNull) := by
  induction nodes generalizing passed with
  | null => exact (Bool.and_true _).symm
  | element name attributes children next _ later =>
    unfold sanitizeNode kept
    split
    · simp [later]
    · simp [later, Bool.and_assoc]
  | text content next ih => simp [sanitizeNode, kept, ih]
  | other content next ih => simp [sanitizeNode, kept, ih]

theorem appendText_element (coalesce : Bool) (content : Text) (name : Text) (attributes : Attributes)
    (children next : XmlNode) : (element name attributes children next).appendText coalesce content =
      element name attributes children (next.appendText coalesce content) := by
  rw [appendText]

/-- The first of the siblings that are passed stays. -/
theorem promote_element (coalesce : Bool) (name : Text) (attributes : Attributes)
    (children nodes : XmlNode) : ∀ next, ∃ rest,
      promote coalesce (element name attributes children next) nodes =
        element name attributes children rest := by
  induction nodes with
  | null => exact fun next => ⟨next, rfl⟩
  | element _ _ _ _ _ ih => exact fun next => ih _
  | text content _ ih =>
    intro next
    rw [promote, appendText_element]
    exact ih _
  | other _ _ ih => exact fun next => ih _

theorem sanitizeNode_element (coalesce : Bool) (name : Text) (attributes : Attributes)
    (children nodes : XmlNode) : ∀ next, ∃ rest,
      sanitizeNode coalesce (element name attributes children next) nodes =
        element name attributes children rest := by
  induction nodes with
  | null => exact fun next => ⟨next, rfl⟩
  | element _ _ inside _ _ ih =>
    intro next
    unfold sanitizeNode
    split
    · exact ih _
    · obtain ⟨rest, first⟩ := promote_element coalesce name attributes children inside next
      rw [first]
      exact ih rest
  | text _ _ ih => exact fun next => ih _
  | other _ _ ih => exact fun next => ih _

theorem collects_body : Collects body Option.or where
  assoc _ _ _ := Option.or_assoc
  null_op _ := Option.none_or
  op_null _ := Option.or_none
  element _ _ _ _ := by
    simp only [body]
    split <;> simp
  text _ _ := rfl
  other _ _ := rfl
  joined _ _ := rfl

theorem body_append (nodes later : XmlNode) :
    (nodes.append later).body = nodes.body.or later.body :=
  Collects.append collects_body nodes later

theorem body_promote (coalesce : Bool) (passed nodes : XmlNode) :
    (promote coalesce passed nodes).body = passed.body.or nodes.body :=
  Collects.promote collects_body coalesce passed nodes

end XmlNode

/-- A text with no white space at either end, and something in it. -/
def Solid (s : Text) : Prop :=
  (∃ c ∈ s.head?, isSpace c = false) ∧ ∃ c ∈ s.getLast?, isSpace c = false

/-- What is relied on of libxml2: a document has the root `html`, a character of a text is written
as itself or as an entity, and an element as its tags around its children. -/
structure Documented (html : HtmlLibrary) where
  escape : Char → Text
  emptyTag : Text → Attributes → Text
  startTag : Text → Attributes → Text
  endTag : Text → Attributes → Text
  rooted : ∀ {input root}, html.read input = some root →
    ∃ attributes children next, root = .element (lit "html") attributes children next
  ampersand : escape '&' = lit "&amp;"
  escaped : ∀ c, escape c = [c] ∨ Solid (escape c)
  solid : ∀ name attributes, Solid (emptyTag name attributes) ∧ Solid (startTag name attributes) ∧
    Solid (endTag name attributes)
  marked : ∀ content, Solid (html.dump (.other content .null))
  text : ∀ content, html.dump (.text content .null) = content.flatMap escape
  empty : ∀ name attributes,
    html.dump (.element name attributes .null .null) = emptyTag name attributes
  filled : ∀ {name attributes children}, children.isNull = false →
    html.dump (.element name attributes children .null) =
      startTag name attributes ++ (children.dumpAll html.dump ++ endTag name attributes)

/-- What is written of a document, piece by piece. -/
inductive Piece where
  | mark (written : Text)
  | char (c : Char)

namespace Documented

variable {html : HtmlLibrary} (library : Documented html)

def written : Piece → Text
  | .mark written => written
  | .char c => library.escape c

/-- A character of white space that is written as itself. -/
def isBlank : Piece → Bool
  | .mark _ => false
  | .char c => isSpace c && library.escape c = [c]

def pieces : XmlNode → List Piece
  | .null => []
  | .element name attributes children next =>
    (if children.isNull then [.mark (library.emptyTag name attributes)]
      else .mark (library.startTag name attributes) ::
        (pieces children ++ [.mark (library.endTag name attributes)])) ++ pieces next
  | .text content next => content.map .char ++ pieces next
  | .other content next => .mark (html.dump (.other content .null)) :: pieces next

/-- What a document's body is written as once the filter is done with it. -/
def documentPieces : XmlNode → List Piece
  | .element _ _ children _ => library.pieces (children.kept.body.getD children.kept)
  | _ => []

/-- Without the blank characters at both ends. -/
def inner (pieces : List Piece) : List Piece :=
  ((pieces.dropWhile library.isBlank).reverse.dropWhile library.isBlank).reverse

/-- The document that is read from the input has something in it between blank characters, and
its characters, as they are escaped, and its tags are no longer than the limit. -/
def Fits (limit : Nat) (input : Text) : Prop :=
  ∃ root, html.read input = some root ∧ library.inner (library.documentPieces root) ≠ [] ∧
    ((library.inner (library.documentPieces root)).map fun piece =>
      (library.written piece).length).sum ≤ limit

/-- The siblings are written piece by piece. -/
theorem dumpAll_eq (nodes : XmlNode) :
    nodes.dumpAll html.dump = (library.pieces nodes).flatMap library.written := by
  induction nodes with
  | null => rfl
  | element name attributes children next inner later =>
    rw [XmlNode.dumpAll, later, pieces]
    by_cases empty : children.isNull = true
    · have none : children = .null := by cases children <;> first | rfl | cases empty
      rw [none, library.empty]
      rfl
    · rw [library.filled (Bool.eq_false_iff.mpr empty), if_neg empty, inner]
      simp [written]
  | text content next ih =>
    have letters : (content.map Piece.char).flatMap library.written = content.flatMap library.escape :=
      List.flatMap_map ..
    rw [XmlNode.dumpAll, ih, library.text, pieces, List.flatMap_append, letters]
  | other content next ih =>
    rw [XmlNode.dumpAll, ih, pieces, List.flatMap_cons]
    rfl

theorem collects_pieces : XmlNode.Collects library.pieces (· ++ ·) where
  assoc := List.append_assoc
  null_op _ := rfl
  op_null := List.append_nil
  element _ _ _ _ := by simp [pieces]
  text _ _ := by simp [pieces]
  other _ _ := rfl
  joined _ _ := by simp [pieces]

theorem pieces_append (nodes later : XmlNode) :
    library.pieces (nodes.append later) = library.pieces nodes ++ library.pieces later :=
  library.collects_pieces.append nodes later

theorem pieces_promote (coalesce : Bool) (passed nodes : XmlNode) :
    library.pieces (XmlNode.promote coalesce passed nodes) =
      library.pieces passed ++ library.pieces nodes :=
  library.collects_pieces.promote coalesce passed nodes

/-- The filter leaves what is kept; texts that are joined are written as they are apart. -/
theorem pieces_sanitizeNode (coalesce : Bool) (passed nodes : XmlNode) :
    library.pieces (XmlNode.sanitizeNode coalesce passed nodes) =
      library.pieces passed ++ library.pieces nodes.kept := by
  induction nodes generalizing passed with
  | null => exact (List.append_nil _).symm
  | element name attributes children next inner later =>
    have alone := XmlNode.isNull_sanitizeNode coalesce .null children
    unfold XmlNode.sanitizeNode XmlNode.kept
    split
    · rw [later, pieces_append, List.append_assoc]
      simp only [pieces, inner, alone, XmlNode.isNull_null, Bool.true_and, List.nil_append,
        List.append_nil]
    · rw [later, pieces_promote, pieces_append, List.append_assoc]
  | text content next ih =>
    simp [XmlNode.sanitizeNode, XmlNode.kept, ih, pieces_append, pieces]
  | other content next ih =>
    simp [XmlNode.sanitizeNode, XmlNode.kept, ih, pieces_append, pieces]

/-- And in the body that is written. -/
theorem body_sanitizeNode (coalesce : Bool) (passed nodes : XmlNode) :
    (XmlNode.sanitizeNode coalesce passed nodes).body.map library.pieces =
      (passed.body.or nodes.kept.body).map library.pieces := by
  induction nodes generalizing passed with
  | null => exact congrArg _ Option.or_none.symm
  | element name attributes children next inner later =>
    unfold XmlNode.sanitizeNode XmlNode.kept
    split
    · rw [later, XmlNode.body_append, Option.or_assoc]
      simp only [XmlNode.body]
      have same : library.pieces (XmlNode.sanitizeNode coalesce .null children) =
          library.pieces children.kept := library.pieces_sanitizeNode coalesce .null children
      cases passed.body with
      | some chosen => rfl
      | none => split <;> simp [same]
    · rw [later, XmlNode.body_promote, XmlNode.body_append, Option.or_assoc]
  | text content next ih =>
    rw [XmlNode.sanitizeNode, ih, XmlNode.body_append, Option.or_assoc]
    rfl
  | other content next ih =>
    rw [XmlNode.sanitizeNode, ih, XmlNode.body_append, Option.or_assoc]
    rfl

section

variable {piece : Piece} {pieces : List Piece}

theorem written_blank (blank : library.isBlank piece = true) :
    ∃ c, library.written piece = [c] ∧ isSpace c = true := by
  cases piece with
  | mark written => cases blank
  | char c =>
    obtain ⟨space, itself⟩ := Bool.and_eq_true_iff.mp blank
    exact ⟨c, of_decide_eq_true itself, space⟩

/-- Marks that are written are solid. -/
def Sound (piece : Piece) : Prop := ∀ written, piece = .mark written → Solid written

theorem written_solid (sound : Sound piece) (visible : library.isBlank piece = false) :
    Solid (library.written piece) := by
  cases piece with
  | mark written => exact sound written rfl
  | char c =>
    rcases library.escaped c with itself | solid
    · have plain : isSpace c = false := by simpa [isBlank, itself] using visible
      rw [written, itself]
      exact ⟨⟨c, rfl, plain⟩, c, rfl, plain⟩
    · exact solid

theorem pieces_sound (nodes : XmlNode) : ∀ piece ∈ library.pieces nodes, Sound piece := by
  have mark : ∀ {t}, Solid t → Sound (.mark t) := by
    rintro t solid _ ⟨⟩
    exact solid
  induction nodes with
  | null => exact fun _ member => (List.not_mem_nil member).elim
  | element name attributes children next inner later =>
    obtain ⟨empty, start, ending⟩ := library.solid name attributes
    rw [Documented.pieces, List.forall_mem_append]
    refine ⟨?_, later⟩
    split
    · exact List.forall_mem_singleton.mpr (mark empty)
    · refine List.forall_mem_cons.mpr ⟨mark start, List.forall_mem_append.mpr ⟨inner, ?_⟩⟩
      exact List.forall_mem_singleton.mpr (mark ending)
  | text content next ih =>
    refine List.forall_mem_append.mpr ⟨fun piece member => ?_, ih⟩
    obtain ⟨c, -, rfl⟩ := List.mem_map.mp member
    rintro written ⟨⟩
  | other content next ih =>
    exact List.forall_mem_cons.mpr ⟨mark (library.marked content), ih⟩

end

end Documented

/-- Blank parts at the front of a text are dropped one by one. -/
theorem dropWhile_flatMap {α : Type} {write : α → Text} {blank : α → Bool} {parts : List α}
    (blanks : ∀ part ∈ parts, blank part = true → ∃ c, write part = [c] ∧ isSpace c = true)
    (solids : ∀ part ∈ parts, blank part = false → ∃ c ∈ (write part).head?, isSpace c = false) :
    (parts.flatMap write).dropWhile isSpace = (parts.dropWhile blank).flatMap write := by
  induction parts with
  | nil => rfl
  | cons part parts ih =>
    obtain ⟨first, blanks⟩ := List.forall_mem_cons.mp blanks
    obtain ⟨solid, solids⟩ := List.forall_mem_cons.mp solids
    cases empty : blank part with
    | true =>
      obtain ⟨c, written, space⟩ := first empty
      rw [List.flatMap_cons, written, List.dropWhile_cons_of_pos empty, List.singleton_append,
        List.dropWhile_cons_of_pos space, ih blanks solids]
    | false =>
      obtain ⟨c, head, visible⟩ := solid empty
      obtain ⟨rest, written⟩ := List.head?_eq_some_iff.mp head
      rw [List.dropWhile_cons_of_neg (by simp [empty]), List.flatMap_cons, written,
        List.cons_append, List.dropWhile_cons_of_neg (by simp [visible])]

namespace Documented

variable {html : HtmlLibrary} (library : Documented html)

/-- What is trimmed of a written text are its blank pieces. -/
theorem trimmed_pieces {pieces : List Piece} (sound : ∀ piece ∈ pieces, Sound piece) :
    trimmed (pieces.flatMap library.written) = (library.inner pieces).flatMap library.written := by
  have front := dropWhile_flatMap (fun piece _ => library.written_blank)
    fun piece member visible => (library.written_solid (sound piece member) visible).1
  have back : ((pieces.dropWhile library.isBlank).reverse.flatMap
      (List.reverse ∘ library.written)).dropWhile isSpace =
        ((pieces.dropWhile library.isBlank).reverse.dropWhile library.isBlank).flatMap
          (List.reverse ∘ library.written) := by
    refine dropWhile_flatMap (fun piece _ blank => ?_) fun piece member visible => ?_
    · obtain ⟨c, written, space⟩ := library.written_blank blank
      exact ⟨c, by rw [Function.comp_apply, written, List.reverse_singleton], space⟩
    · have present := (List.dropWhile_sublist _).subset (List.mem_reverse.mp member)
      rw [Function.comp_apply, List.head?_reverse]
      exact (library.written_solid (sound piece present) visible).2
  rw [trimmed, front, List.reverse_flatMap, back, List.reverse_flatMap, inner]
  congr 1
  funext piece
  exact List.reverse_reverse _

/-- What `SanitizeString` makes of a document. -/
theorem sanitizeString_document {input : Text} {root : XmlNode} (filled : input ≠ [])
    (read : html.read input = some root) : sanitizeString html input =
      (library.inner (library.documentPieces root)).flatMap library.written := by
  obtain ⟨attributes, children, next, rfl⟩ := library.rooted read
  have allowed : Text.lower (lit "html") ∈ allowedTags := by with_unfolding_all decide
  obtain ⟨rest, first⟩ := XmlNode.sanitizeNode_element html.coalesce (lit "html")
    (sanitizeAttributes attributes) (XmlNode.sanitizeNode html.coalesce .null children) next .null
  have root : XmlNode.sanitizeNode html.coalesce .null
      (.element (lit "html") attributes children next) = .element (lit "html")
        (sanitizeAttributes attributes) (XmlNode.sanitizeNode html.coalesce .null children) rest := by
    rw [XmlNode.sanitizeNode, if_pos allowed]
    exact first
  have whole : library.pieces (XmlNode.sanitizeNode html.coalesce .null children) =
      library.pieces children.kept := library.pieces_sanitizeNode html.coalesce .null children
  have body : (XmlNode.sanitizeNode html.coalesce .null children).body.map library.pieces =
      children.kept.body.map library.pieces := library.body_sanitizeNode html.coalesce .null children
  have same : library.pieces ((XmlNode.sanitizeNode html.coalesce .null children).body.getD
      (XmlNode.sanitizeNode html.coalesce .null children)) =
        library.pieces (children.kept.body.getD children.kept) := by
    rw [← Option.getD_map library.pieces, ← Option.getD_map library.pieces, body, whole]
  unfold sanitizeString
  rw [if_neg filled, read]
  simp only [root]
  rw [library.dumpAll_eq, same]
  exact library.trimmed_pieces (library.pieces_sound _)

theorem written_ne_nil {piece : Piece} (sound : Sound piece) : library.written piece ≠ [] := by
  cases visible : library.isBlank piece with
  | true =>
    obtain ⟨c, written, -⟩ := library.written_blank visible
    rw [written]
    exact List.cons_ne_nil _ _
  | false =>
    obtain ⟨⟨c, head, -⟩, -⟩ := library.written_solid sound visible
    rintro empty
    rw [empty] at head
    cases head

/-- A text keeps within its limit exactly when the document fits. -/
theorem fits_iff {input : Text} (filled : input ≠ []) (limit : Nat) :
    (sanitizeString html input ≠ [] ∧ (sanitizeString html input).length ≤ limit) ↔
      library.Fits limit input := by
  cases read : html.read input with
  | none => simp [sanitizeString, filled, read, Fits]
  | some root =>
    have result := library.sanitizeString_document filled read
    have sound : ∀ piece ∈ library.inner (library.documentPieces root), Sound piece := by
      intro piece member
      have outer := (List.dropWhile_sublist _).subset (List.mem_reverse.mp member)
      have present := (List.dropWhile_sublist _).subset (List.mem_reverse.mp outer)
      obtain ⟨attributes, children, next, rfl⟩ := library.rooted read
      exact library.pieces_sound _ piece present
    have size := congrArg List.length result
    rw [List.length_flatMap] at size
    have filled : sanitizeString html input ≠ [] ↔
        library.inner (library.documentPieces root) ≠ [] := by
      rw [result]
      refine not_congr ⟨fun empty => ?_, fun empty => by rw [empty]; rfl⟩
      refine List.eq_nil_iff_forall_not_mem.mpr fun piece member => ?_
      exact library.written_ne_nil (sound piece member) (List.flatMap_eq_nil_iff.mp empty piece member)
    rw [filled, size, Fits, read]
    simp only [Option.some.injEq, exists_eq_left']

end Documented

/-- The texts of a row keep within the limits that `CreatePost` checks. -/
def WithinLimits (row : Json) : Prop :=
  (row.text (lit "title") ≠ [] ∧ (row.text (lit "title")).length ≤ maxTitleChars) ∧
    row.text (lit "content") ≠ [] ∧ (row.text (lit "content")).length ≤ maxContentChars

/-- What is sent to be inserted into `posts` is what the filter makes of a checked request. -/
structure Cleaned (app : AppContext) (title content : Text) (row : Json) : Prop where
  filled : title ≠ [] ∧ content ≠ []
  title : row.text (lit "title") = sanitizeString app.html title
  content : row.text (lit "content") = sanitizeString app.html content

theorem createPost_within (app : AppContext) (title content imageUrl : Text) :
    (CrownServer.createPost app title content imageUrl).Within
      (fun op => ∀ row, op = .insertReturn (lit "posts") row → Cleaned app title content row)
      fun _ _ => True := by
  have other : ∀ op, Aside op → ∀ row, op = .insertReturn (lit "posts") row →
      Cleaned app title content row := by
    rintro _ aside row rfl
    exact aside.elim
  unfold CrownServer.createPost
  simp only [call_bind, within_perform]
  refine ⟨other _ trivial, fun user _ => ?_⟩
  cases user with
  | none => trivial
  | some user =>
    dsimp only
    cases checked : checkPost title content imageUrl with
    | some status => trivial
    | none =>
      have filled : title ≠ [] ∧ content ≠ [] := by
        unfold checkPost at checked
        grind
      refine within_bind ((upsertUser_aside user).mono other) fun _ => ?_
      refine ⟨other _ trivial, fun idSec _ => ⟨?_, fun created _ => ?_⟩⟩
      · rintro row ⟨⟩
        refine ⟨filled, ?_, ?_⟩ <;> simp [Json.text, Json.find]
      · refine within_bind trivial fun postId => ?_
        split
        · trivial
        · refine ⟨other _ trivial, fun result _ => within_bind trivial fun post => ?_⟩
          refine ⟨?_, fun _ _ => ⟨?_, fun _ _ => trivial⟩⟩
          · rintro row ⟨⟩
          · rintro row ⟨⟩

theorem createPost_inserts {r : Replies} {user : AuthenticatedUser} {request : PostRequest}
    (app : AppContext) (known : r.caller = some user) (valid : request.check = none) :
    Op.insertReturn (lit "posts") (request.row app r user) ∈
      (CrownServer.handle app (.createPost request.title request.content
        request.imageUrl)).performed r.answer ⟨0, []⟩ := by
  have caller : r.answer .getUser ⟨0, []⟩ = (r.caller, ⟨1, []⟩) := rfl
  have valid : checkPost request.title request.content request.imageUrl = none := valid
  rw [CrownServer.handle, performed_recover, CrownServer.body]
  simp only [CrownServer.createPost, call_bind, valid]
  rw [performed_perform, caller]
  simp only [known, performed_bind, PostRequest.upsertUser_run]
  refine List.mem_cons_of_mem _ (List.mem_append_right _ (List.mem_cons_of_mem _ ?_))
  exact List.mem_cons_self

/-- A row that is inserted keeps within the limits exactly when the documents of the title and the
content do. -/
theorem insertedRow_withinLimits_iff {app : AppContext} (library : Documented app.html) {σ : Type}
    {answer : Interpretation Op Op.Reply σ} {s : σ} {title content imageUrl : Text} {row : Json}
    (inserted : Op.insertReturn (lit "posts") row ∈
      (CrownServer.handle app (.createPost title content imageUrl)).performed answer s) :
    WithinLimits row ↔ library.Fits maxTitleChars title ∧ library.Fits maxContentChars content := by
  rw [CrownServer.handle, performed_recover] at inserted
  obtain ⟨filled, titled, filtered⟩ :=
    (createPost_within app title content imageUrl).of_performed inserted row rfl
  rw [WithinLimits, titled, filtered, library.fits_iff filled.1, library.fits_iff filled.2]

def entity (name : Text) : Text := '&' :: (name ++ [';'])

def tag (inside : Text) : Text := '<' :: (inside ++ ['>'])

/-- The characters that XML gives a meaning to in a text. -/
def escapeChar (c : Char) : Text :=
  if c = '&' then entity (lit "amp")
  else if c = '<' then entity (lit "lt")
  else if c = '>' then entity (lit "gt")
  else [c]

def writeAttributes (attributes : Attributes) : Text :=
  attributes.entries.flatMap fun entry =>
    ' ' :: (entry.1 ++ lit "=\"" ++ entry.2.flatMap escapeChar ++ ['"'])

/-- The siblings as XML. -/
def writeNodes : XmlNode → Text
  | .null => []
  | .element name attributes children next =>
    (if children.isNull then tag (name ++ writeAttributes attributes ++ ['/'])
      else tag (name ++ writeAttributes attributes) ++ (writeNodes children ++ tag ('/' :: name))) ++
      writeNodes next
  | .text content next => content.flatMap escapeChar ++ writeNodes next
  | .other content next => tag (lit "!--" ++ content ++ lit "--") ++ writeNodes next

/-- A document of one paragraph, as libxml2 reads a text without tags. -/
def paragraph (content : Text) : XmlNode :=
  .element (lit "html") XmlNode.bare (.element (lit "body") XmlNode.bare
    (.element (lit "p") XmlNode.bare (.text content .null) .null) .null) .null

def paragraphs : HtmlLibrary := ⟨fun input => some (paragraph input), writeNodes, true⟩

theorem solid_between {first last : Char} (front : isSpace first = false)
    (back : isSpace last = false) (inside : Text) : Solid (first :: (inside ++ [last])) := by
  refine ⟨⟨first, rfl, front⟩, last, ?_, back⟩
  rw [← List.cons_append, List.getLast?_concat]
  rfl

theorem tag_solid (inside : Text) : Solid (tag inside) := solid_between (by decide) (by decide) _

theorem escapeChar_cases (c : Char) : escapeChar c = [c] ∨ Solid (escapeChar c) := by
  have solid : ∀ name, Solid (entity name) := solid_between (by decide) (by decide)
  unfold escapeChar
  split
  · exact .inr (solid _)
  · split
    · exact .inr (solid _)
    · split
      · exact .inr (solid _)
      · exact .inl rfl

theorem dumpAll_writeNodes (nodes : XmlNode) : nodes.dumpAll writeNodes = writeNodes nodes := by
  induction nodes with
  | null => rfl
  | element name attributes children next _ ih => simp [XmlNode.dumpAll, writeNodes, ih]
  | text content next ih => simp [XmlNode.dumpAll, writeNodes, ih]
  | other content next ih => simp [XmlNode.dumpAll, writeNodes, ih]

def paragraphs_documented : Documented paragraphs where
  escape := escapeChar
  emptyTag name attributes := tag (name ++ writeAttributes attributes ++ ['/'])
  startTag name attributes := tag (name ++ writeAttributes attributes)
  endTag name _ := tag ('/' :: name)
  rooted read := ⟨_, _, _, (Option.some.inj read).symm⟩
  ampersand := by with_unfolding_all decide
  escaped := escapeChar_cases
  solid _ _ := ⟨tag_solid _, tag_solid _, tag_solid _⟩
  marked _ := by
    simp only [paragraphs, writeNodes, List.append_nil]
    exact tag_solid _
  text _ := List.append_nil _
  empty _ _ := List.append_nil _
  filled full := by
    simp only [paragraphs, writeNodes, full, List.append_nil, dumpAll_writeNodes]
    rfl

theorem Documented.inner_between {html : HtmlLibrary} (library : Documented html)
    (first last : Text) (pieces : List Piece) :
    library.inner (.mark first :: (pieces ++ [.mark last])) =
      .mark first :: (pieces ++ [.mark last]) := by
  have marked : ∀ written, ¬library.isBlank (.mark written) = true := fun _ => Bool.false_ne_true
  rw [Documented.inner, List.dropWhile_cons_of_neg (marked first), ← List.cons_append,
    List.reverse_append, List.reverse_singleton, List.singleton_append,
    List.dropWhile_cons_of_neg (marked last), List.reverse_cons, List.reverse_reverse]

/-- A text without tags comes back in a paragraph. -/
theorem sanitizeString_paragraphs {input : Text} (filled : input ≠ []) :
    sanitizeString paragraphs input =
      tag (lit "p") ++ (input.flatMap escapeChar ++ tag ('/' :: lit "p")) := by
  have written := paragraphs_documented.sanitizeString_document filled rfl
  have allowed : Text.lower (lit "body") ∈ allowedTags ∧ Text.lower (lit "p") ∈ allowedTags ∧
      Text.lower (lit "body") = lit "body" := by
    with_unfolding_all decide
  have document : paragraphs_documented.documentPieces (paragraph input) =
      .mark (tag (lit "p")) :: (input.map .char ++ [.mark (tag ('/' :: lit "p"))]) := by
    have plain : paragraphs_documented.startTag (lit "p") (sanitizeAttributes XmlNode.bare) =
        tag (lit "p") := congrArg tag (List.append_nil _)
    simp only [Documented.documentPieces, paragraph, XmlNode.kept, if_pos allowed.1,
      if_pos allowed.2.1, XmlNode.body, if_pos allowed.2.2, Option.getD_some, Documented.pieces,
      XmlNode.isNull_text, Bool.false_eq_true, if_false, plain, List.append_nil]
    rfl
  have letters : (input.map Piece.char).flatMap paragraphs_documented.written =
      input.flatMap escapeChar := List.flatMap_map ..
  rw [written, document, paragraphs_documented.inner_between, List.flatMap_cons,
    List.flatMap_append, letters, List.flatMap_singleton]
  rfl

def paragraphApp : AppContext := { Platform.plain.app with html := paragraphs }

/-- A database that takes the row is sent it. -/
theorem paragraphApp_inserts (request : PostRequest) (valid : request.check = none) : ∃ row,
    Op.insertReturn (lit "posts") row ∈ (CrownServer.handle paragraphApp (.createPost request.title
      request.content request.imageUrl)).performed PostRequest.silent.answer ⟨0, []⟩ :=
  ⟨_, createPost_inserts paragraphApp
    (Site.getUser_calledBy Site.empty Site.localEnvironment.context (some Site.ana)) valid⟩

theorem sanitizeUrl_nil : sanitizeUrl [] = [] := by
  unfold sanitizeUrl
  split <;> rfl

theorem shortTitle_valid {title : Text} (filled : title ≠ []) (short : title.length ≤ maxTitleChars) :
    PostRequest.check ⟨title, ['C'], []⟩ = none := by
  rw [PostRequest.check, checkPost, sanitizeUrl_nil, if_neg filled, if_neg (Nat.not_lt_of_le short)]
  rfl

/-- A title and a content without anything to escape. -/
theorem shortPost_withinLimits : ∃ row, Op.insertReturn (lit "posts") row ∈
    (CrownServer.handle paragraphApp (.createPost ['T'] ['C'] [])).performed
      PostRequest.silent.answer ⟨0, []⟩ ∧ WithinLimits row := by
  have fits : ∀ input limit, input ≠ [] → (input.flatMap escapeChar).length + 7 ≤ limit →
      paragraphs_documented.Fits limit input := by
    intro input limit filled short
    refine (paragraphs_documented.fits_iff filled limit).mp ?_
    rw [sanitizeString_paragraphs filled]
    refine ⟨List.append_ne_nil_of_left_ne_nil (List.cons_ne_nil _ _) _, ?_⟩
    have tags : (tag (lit "p")).length = 3 ∧ (tag ('/' :: lit "p")).length = 4 := by
      with_unfolding_all decide
    rw [List.length_append, List.length_append, tags.1, tags.2]
    omega
  obtain ⟨row, inserted⟩ := paragraphApp_inserts ⟨['T'], ['C'], []⟩
    (shortTitle_valid (by simp) (by decide))
  refine ⟨row, inserted, (insertedRow_withinLimits_iff paragraphs_documented inserted).mpr ?_⟩
  exact ⟨fits _ _ (by simp) (by decide), fits _ _ (by simp) (by decide)⟩

/-- A title of as many ampersands as it may have characters. -/
theorem ampersands_overlong : ∃ row, Op.insertReturn (lit "posts") row ∈
    (CrownServer.handle paragraphApp (.createPost (List.replicate 256 '&') ['C'] [])).performed
      PostRequest.silent.answer ⟨0, []⟩ ∧ ¬WithinLimits row := by
  have five : (escapeChar '&').length = 5 := by with_unfolding_all decide
  have size : (List.replicate 256 '&').length = 256 := List.length_replicate
  have long : ((List.replicate 256 '&').flatMap escapeChar).length = 1280 := by
    rw [List.length_flatMap, List.map_replicate, List.sum_replicate, five]
    rfl
  generalize List.replicate 256 '&' = title at size long ⊢
  have filled : title ≠ [] := List.ne_nil_of_length_pos (by omega)
  obtain ⟨row, inserted⟩ := paragraphApp_inserts ⟨title, ['C'], []⟩
    (shortTitle_valid filled (Nat.le_of_eq size))
  refine ⟨row, inserted, ?_⟩
  rintro ⟨⟨-, short⟩, -⟩
  rw [CrownServer.handle, performed_recover] at inserted
  have cleaned := (createPost_within paragraphApp _ _ _).of_performed inserted row rfl
  have titled : row.text (lit "title") = sanitizeString paragraphs title := cleaned.title
  rw [titled, sanitizeString_paragraphs filled, List.length_append, List.length_append, long,
    maxTitleChars] at short
  omega

end Crown
