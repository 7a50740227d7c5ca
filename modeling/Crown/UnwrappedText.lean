import Crown.HtmlSoundness

/-! What `SanitizeNode` keeps of a document's text. The children of a removed element are put
before it one by one, and the element is freed without them. -/
namespace Crown

open Lib

/-- A document as it is read from front to back. -/
inductive Token where
  | enter (name : Text)
  | leave
  | char (c : Char)
  | other (content : Text)
  deriving DecidableEq

/-- The marks of removed elements are taken out of a stream, and nothing else is. -/
inductive Unwraps : List Token → List Token → Prop where
  | done : Unwraps [] []
  | kept (token : Token) {before after : List Token} (more : Unwraps before after) :
      Unwraps (token :: before) (token :: after)
  | enter {name : Text} {before after : List Token} (removed : Text.lower name ∉ allowedTags)
      (more : Unwraps before after) : Unwraps (.enter name :: before) after
  | leave {before after : List Token} (more : Unwraps before after) :
      Unwraps (.leave :: before) after

def Token.text : Token → Text
  | .char c => [c]
  | _ => []

namespace XmlNode

/-- The contents of all texts, in document order. -/
def textContent : XmlNode → Text
  | null => []
  | element _ _ children next => children.textContent ++ next.textContent
  | text content next => content ++ next.textContent
  | other _ next => next.textContent

def tokens : XmlNode → List Token
  | null => []
  | element name _ children next => .enter name :: (children.tokens ++ .leave :: next.tokens)
  | text content next => content.map .char ++ next.tokens
  | other content next => .other content :: next.tokens

end XmlNode

namespace Unwraps

variable {before after more rest : List Token}

theorem refl (stream : List Token) : Unwraps stream stream := by
  induction stream with
  | nil => exact .done
  | cons token stream ih => exact .kept token ih

theorem append (first : Unwraps before after) (second : Unwraps more rest) :
    Unwraps (before ++ more) (after ++ rest) := by
  induction first with
  | done => exact second
  | kept token _ ih => exact .kept token ih
  | enter removed _ ih => exact .enter removed ih
  | leave _ ih => exact .leave ih

/-- Behind a stream that stays. -/
theorem behind (stream : List Token) (second : Unwraps more rest) :
    Unwraps (stream ++ more) (stream ++ rest) := (refl stream).append second

theorem trans (first : Unwraps before after) (second : Unwraps after rest) :
    Unwraps before rest := by
  induction first generalizing rest with
  | done => exact second
  | kept token _ ih =>
    cases second with
    | kept _ more => exact .kept token (ih more)
    | enter removed more => exact .enter removed (ih more)
    | leave more => exact .leave (ih more)
  | enter removed _ ih => exact .enter removed (ih second)
  | leave _ ih => exact .leave (ih second)

theorem text_eq (unwraps : Unwraps before after) :
    after.flatMap Token.text = before.flatMap Token.text := by
  induction unwraps with
  | done => rfl
  | kept token _ ih => rw [List.flatMap_cons, List.flatMap_cons, ih]
  | enter _ _ ih => exact ih
  | leave _ ih => exact ih

end Unwraps

namespace XmlNode

@[simp] theorem tokens_null : null.tokens = [] := rfl

@[simp] theorem tokens_element (name : Text) (attributes : Attributes) (children next : XmlNode) :
    (element name attributes children next).tokens =
      .enter name :: (children.tokens ++ .leave :: next.tokens) := rfl

@[simp] theorem tokens_text (content : Text) (next : XmlNode) :
    (text content next).tokens = content.map .char ++ next.tokens := rfl

@[simp] theorem tokens_other (content : Text) (next : XmlNode) :
    (other content next).tokens = .other content :: next.tokens := rfl

theorem textContent_eq (nodes : XmlNode) : nodes.textContent = nodes.tokens.flatMap Token.text := by
  induction nodes with
  | null => rfl
  | element name attributes children next inner later =>
    rw [textContent, inner, later, tokens_element, List.flatMap_cons, List.flatMap_append,
      List.flatMap_cons]
    rfl
  | text content next ih =>
    have letters : (content.map Token.char).flatMap Token.text = content := by
      rw [List.flatMap_map]
      exact List.flatMap_singleton' content
    rw [textContent, ih, tokens_text, List.flatMap_append, letters]
  | other content next ih =>
    rw [textContent, ih]
    rfl

/-- Whether a text is joined with the one in front of it does not show. -/
theorem collects_tokens : Collects tokens (· ++ ·) where
  assoc := List.append_assoc
  null_op _ := rfl
  op_null := List.append_nil
  element _ _ _ _ := by simp
  text _ _ := by simp
  other _ _ := rfl
  joined _ _ := by simp

theorem tokens_append (nodes later : XmlNode) :
    (nodes.append later).tokens = nodes.tokens ++ later.tokens :=
  Collects.append collects_tokens nodes later

/-- Each child is put once, behind what is in front of it already. -/
theorem tokens_promote (coalesce : Bool) (passed nodes : XmlNode) :
    (promote coalesce passed nodes).tokens = passed.tokens ++ nodes.tokens :=
  Collects.promote collects_tokens coalesce passed nodes

/-- The walk over the siblings, behind those that it has passed. -/
theorem unwraps_sanitizeNode (coalesce : Bool) (passed nodes : XmlNode) :
    Unwraps (passed.tokens ++ nodes.tokens) (sanitizeNode coalesce passed nodes).tokens := by
  induction nodes generalizing passed with
  | null =>
    rw [tokens_null, List.append_nil]
    exact .refl _
  | element name attributes children next inner later =>
    unfold sanitizeNode
    split
    · rename_i allowed
      have inside : Unwraps children.tokens (sanitizeNode coalesce null children).tokens := inner null
      have rest := later (passed.append (element name (sanitizeAttributes attributes)
        (sanitizeNode coalesce null children) null))
      rw [tokens_append, tokens_element, tokens_null, List.append_assoc, List.cons_append,
        List.append_assoc, List.cons_append, List.nil_append] at rest
      exact (Unwraps.behind _ (.kept _ (inside.append (.refl _)))).trans rest
    · rename_i removed
      have rest := later (promote coalesce passed children)
      rw [tokens_promote, List.append_assoc] at rest
      exact (Unwraps.behind _ (.enter removed (Unwraps.behind _ (.leave (.refl _))))).trans rest
  | text content next ih =>
    have rest := ih (passed.append (text content null))
    rwa [tokens_append, tokens_text, tokens_null, List.append_nil, List.append_assoc] at rest
  | other content next ih =>
    have rest := ih (passed.append (other content null))
    rwa [tokens_append, tokens_other, tokens_null, List.append_assoc] at rest

/-- Whatever the tree, its text is what it was, and every character is where it was: only the
marks of removed elements around it are gone. -/
theorem sanitizeNode_text (coalesce : Bool) (root : XmlNode) :
    (sanitizeNode coalesce null root).textContent = root.textContent ∧
      Unwraps root.tokens (sanitizeNode coalesce null root).tokens := by
  have unwraps : Unwraps root.tokens (sanitizeNode coalesce null root).tokens :=
    unwraps_sanitizeNode coalesce null root
  refine ⟨?_, unwraps⟩
  rw [textContent_eq, textContent_eq]
  exact unwraps.text_eq

end XmlNode
end Crown
