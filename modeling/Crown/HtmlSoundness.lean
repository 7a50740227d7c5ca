import Crown.Sanitize

/-! What `SanitizeNode` guarantees of the tree it leaves. The children of a removed
element are put where the walk has already been. -/
namespace Crown

open Lib

/-- An attribute that may stay. -/
def Permitted (entry : Text × Text) : Prop :=
  Text.lower entry.1 ∈ allowedAttributes ∧
  startsWithCaseInsensitive (Text.lower entry.1) (lit "on") = false ∧
  (Text.lower entry.1 = lit "href" ∨ Text.lower entry.1 = lit "src" → isValidUrl entry.2 = true)

instance (entry : Text × Text) : Decidable (Permitted entry) := by
  unfold Permitted
  infer_instance

namespace XmlNode

/-- Every element of the siblings and below them, in document order. -/
def elements : XmlNode → List (Text × Attributes)
  | null => []
  | element name attributes children next =>
    (name, attributes) :: (children.elements ++ next.elements)
  | text _ next | other _ next => next.elements

@[simp] theorem elements_null : null.elements = [] := rfl

@[simp] theorem elements_element (name : Text) (attributes : Attributes)
    (children next : XmlNode) : (element name attributes children next).elements =
      (name, attributes) :: (children.elements ++ next.elements) := rfl

@[simp] theorem elements_text (content : Text) (next : XmlNode) :
    (text content next).elements = next.elements := rfl

@[simp] theorem elements_other (content : Text) (next : XmlNode) :
    (other content next).elements = next.elements := rfl

/-- The filter's promise: only permitted elements and attributes remain. -/
def Sound (nodes : XmlNode) : Prop :=
  ∀ e ∈ nodes.elements, Text.lower e.1 ∈ allowedTags ∧ ∀ entry ∈ e.2.entries, Permitted entry

instance (nodes : XmlNode) : Decidable nodes.Sound := by
  unfold Sound
  infer_instance

/-- What stands inside the outermost elements with a forbidden name. -/
def unwrapped : XmlNode → XmlNode
  | null => null
  | element name _ children next =>
    if Text.lower name ∈ allowedTags then children.unwrapped.append next.unwrapped
    else children.append next.unwrapped
  | text _ next | other _ next => next.unwrapped

/-! What is collected from siblings in document order does not show how `SanitizeNode` builds
them up. -/

/-- What `read` finds in the first of some siblings comes before what it finds in the rest, and
texts that are joined are read as they are apart. -/
structure Collects {α : Type} (read : XmlNode → α) (op : α → α → α) : Prop where
  assoc : ∀ a b c, op (op a b) c = op a (op b c)
  null_op : ∀ a, op (read null) a = a
  op_null : ∀ a, op a (read null) = a
  element : ∀ name attributes children next, read (element name attributes children next) =
    op (read (element name attributes children null)) (read next)
  text : ∀ content next, read (text content next) = op (read (text content null)) (read next)
  other : ∀ content next, read (other content next) = op (read (other content null)) (read next)
  joined : ∀ before content, read (XmlNode.text (before ++ content) null) =
    op (read (XmlNode.text before null)) (read (XmlNode.text content null))

namespace Collects

variable {α : Type} {read : XmlNode → α} {op : α → α → α}

theorem append (collects : Collects read op) (nodes later : XmlNode) :
    read (nodes.append later) = op (read nodes) (read later) := by
  induction nodes with
  | null => exact (collects.null_op _).symm
  | element name attributes children next _ ih =>
    rw [XmlNode.append, collects.element, ih, ← collects.assoc, ← collects.element]
  | text content next ih =>
    rw [XmlNode.append, collects.text, ih, ← collects.assoc, ← collects.text]
  | other content next ih =>
    rw [XmlNode.append, collects.other, ih, ← collects.assoc, ← collects.other]

theorem appendText (collects : Collects read op) (coalesce : Bool) (content : Text)
    (nodes : XmlNode) : read (nodes.appendText coalesce content) =
      op (read nodes) (read (XmlNode.text content null)) := by
  fun_induction XmlNode.appendText coalesce content nodes with
  | case1 => exact (collects.null_op _).symm
  | case2 name attributes children next ih =>
    rw [collects.element, ih, ← collects.assoc, ← collects.element]
  | case3 before => rw [collects.joined]
  | case4 before => rw [collects.text before]
  | case5 before next _ ih => rw [collects.text, ih, ← collects.assoc, ← collects.text]
  | case6 before next ih => rw [collects.other, ih, ← collects.assoc, ← collects.other]

theorem promote (collects : Collects read op) (coalesce : Bool) (passed nodes : XmlNode) :
    read (XmlNode.promote coalesce passed nodes) = op (read passed) (read nodes) := by
  induction nodes generalizing passed with
  | null => exact (collects.op_null _).symm
  | element name attributes children next _ ih =>
    rw [XmlNode.promote, ih, collects.append, collects.assoc, ← collects.element]
  | text content next ih =>
    rw [XmlNode.promote, ih, collects.appendText, collects.assoc, ← collects.text]
  | other content next ih =>
    rw [XmlNode.promote, ih, collects.append, collects.assoc, ← collects.other]

end Collects

theorem collects_elements : Collects elements (· ++ ·) where
  assoc := List.append_assoc
  null_op _ := rfl
  op_null := List.append_nil
  element _ _ _ _ := by simp
  text _ _ := rfl
  other _ _ := rfl
  joined _ _ := rfl

@[simp] theorem elements_append (nodes later : XmlNode) :
    (nodes.append later).elements = nodes.elements ++ later.elements :=
  Collects.append collects_elements nodes later

/-- Promoting keeps every element, in order. -/
@[simp] theorem elements_promote (coalesce : Bool) (passed nodes : XmlNode) :
    (promote coalesce passed nodes).elements = passed.elements ++ nodes.elements :=
  Collects.promote collects_elements coalesce passed nodes

@[simp] theorem sound_null : null.Sound := by
  simp [Sound]

theorem sound_append {nodes later : XmlNode} :
    (nodes.append later).Sound ↔ nodes.Sound ∧ later.Sound := by
  simp only [Sound, elements_append, List.forall_mem_append]

theorem sound_promote {passed nodes : XmlNode} :
    (promote coalesce passed nodes).Sound ↔ passed.Sound ∧ nodes.Sound := by
  simp only [Sound, elements_promote, List.forall_mem_append]

theorem sound_element {name : Text} {attributes : Attributes} {children : XmlNode} :
    (element name attributes children null).Sound ↔
      (Text.lower name ∈ allowedTags ∧ ∀ entry ∈ attributes.entries, Permitted entry) ∧
        children.Sound := by
  simp only [Sound, elements_element, elements_null, List.append_nil, List.forall_mem_cons]

end XmlNode

theorem lookup_of_nodup {entries : List (Text × Text)} (distinct : (entries.map (·.1)).Nodup)
    (member : entry ∈ entries) : entries.lookup entry.1 = some entry.2 := by
  induction entries with
  | nil => simp at member
  | cons first entries ih =>
    obtain ⟨name, value⟩ := first
    simp only [List.map_cons, List.nodup_cons] at distinct
    rcases List.mem_cons.mp member with rfl | later
    · simp
    · have apart : entry.1 ≠ name := by
        rintro rfl
        exact distinct.1 (List.mem_map_of_mem later)
      rw [List.lookup_cons, beq_false_of_ne apart]
      exact ih distinct.2 later

theorem isValidUrl_nil : isValidUrl [] = true := by with_unfolding_all decide

/-- One step of the attribute loop settles the attribute it looks at and leaves the
others alone. -/
theorem sanitizeAttribute_cases
    (member : entry ∈ (sanitizeAttribute attributes attrName).entries) :
    Permitted entry ∨ entry ∈ attributes.entries ∧ entry.1 ≠ attrName := by
  unfold sanitizeAttribute at member
  dsimp only at member
  split at member
  · simp only [Attributes.removeProp, List.mem_filter, decide_eq_true_eq] at member
    exact Or.inr member
  · rename_i kept
    simp only [not_or, Bool.not_eq_true, Decidable.not_not] at kept
    obtain ⟨handler, _, listed⟩ := kept
    split at member
    · split at member
      · rename_i url found
        split at member
        · rename_i valid
          by_cases same : entry.1 = attrName
          · subst same
            have value := lookup_of_nodup attributes.distinct member
            rw [Attributes.getProp, value, Option.some.injEq] at found
            exact Or.inl ⟨listed, handler, fun _ => found ▸ valid⟩
          · exact Or.inr ⟨member, same⟩
        · simp only [Attributes.setProp, List.mem_map] at member
          obtain ⟨stored, storedMember, rfl⟩ := member
          split
          · exact Or.inl ⟨listed, handler, fun _ => isValidUrl_nil⟩
          · rename_i apart
            exact Or.inr ⟨storedMember, apart⟩
      · rename_i missing
        refine Or.inr ⟨member, fun same => ?_⟩
        have value := lookup_of_nodup attributes.distinct member
        rw [same] at value
        simp [Attributes.getProp, value] at missing
    · rename_i plain
      by_cases same : entry.1 = attrName
      · subst same
        exact Or.inl ⟨listed, handler, fun url => absurd url plain⟩
      · exact Or.inr ⟨member, same⟩

theorem foldl_sanitizeAttribute_cases {names : List Text} {attributes : Attributes}
    (member : entry ∈ (names.foldl sanitizeAttribute attributes).entries) :
    Permitted entry ∨ entry ∈ attributes.entries ∧ entry.1 ∉ names := by
  induction names generalizing attributes with
  | nil => exact Or.inr ⟨member, by simp⟩
  | cons attrName names ih =>
    rcases ih member with permitted | ⟨earlier, later⟩
    · exact Or.inl permitted
    · rcases sanitizeAttribute_cases earlier with permitted | ⟨first, apart⟩
      · exact Or.inl permitted
      · exact Or.inr ⟨first, by simp [apart, later]⟩

/-- The loop runs over all attributes, so nothing is left unsettled. -/
theorem sanitizeAttributes_permitted (attributes : Attributes) :
    ∀ entry ∈ (sanitizeAttributes attributes).entries, Permitted entry := by
  intro entry member
  rcases foldl_sanitizeAttribute_cases member with permitted | ⟨present, unnamed⟩
  · exact permitted
  · exact absurd (List.mem_map_of_mem present) unnamed

namespace XmlNode

/-- What the walk leaves is sound exactly when what it had passed was, and what
stands inside removed elements is: that is never visited. -/
theorem sound_sanitizeNode_passed (coalesce : Bool) (passed nodes : XmlNode) :
    (sanitizeNode coalesce passed nodes).Sound ↔ passed.Sound ∧ nodes.unwrapped.Sound := by
  induction nodes generalizing passed with
  | null => simp [sanitizeNode, unwrapped]
  | element name attributes children next inner later =>
    unfold sanitizeNode unwrapped
    split
    · rename_i allowed
      have permitted := iff_true_intro (sanitizeAttributes_permitted attributes)
      rw [later, sound_append, sound_element, inner, sound_append]
      simp only [allowed, permitted, sound_null, true_and, and_assoc]
    · rw [later, sound_promote, sound_append, and_assoc]
  | text content next ih =>
    rw [sanitizeNode, ih, sound_append]
    simp [unwrapped, Sound]
  | other content next ih =>
    rw [sanitizeNode, ih, sound_append]
    simp [unwrapped, Sound]

/-- The filtered tree is sound exactly when nothing inside an outermost element with a
forbidden name needed filtering. -/
theorem sanitizeNode_sound_iff (coalesce : Bool) (root : XmlNode) :
    (sanitizeNode coalesce null root).Sound ↔ root.unwrapped.Sound := by
  simp [sound_sanitizeNode_passed]

def bare : Attributes := ⟨[], by simp⟩

/-- A script inside a custom element. -/
def wrappedScript : XmlNode :=
  element (lit "html") bare (element (lit "body") bare (element (lit "x") bare
    (element (lit "script") bare (text (lit "alert(1)") null) null) null) null) null

theorem wrappedScript_kept : ¬(sanitizeNode false null wrappedScript).Sound := by
  with_unfolding_all decide

end XmlNode
end Crown
