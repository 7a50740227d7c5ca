import Crown.Lib.Gluing
import Crown.QueryBuilder

/-! The builder with any text for a column: when its query string is the table, a
question mark and the parameters with an ampersand between any two of them. -/
namespace Crown

open Lib Lib.Gluing

/-- The calls of `QueryBuilder` as its interface takes them. -/
inductive ChainCall where
  | filter (op : FilterOp) (column value : Text)
  | order (column direction : Text) (nullsFirst : Bool)
  | limit (count : Nat)
  | offset (count : Int)
  | select (columns : Text)
  deriving DecidableEq

namespace ChainCall

/-- The parameter a call appends. -/
def text : ChainCall → Text
  | filter op column value => column ++ '=' :: op.opening ++ value ++ op.closing
  | order column direction nullsFirst =>
    lit "order=" ++ column ++ lit "." ++ direction ++ lit "." ++
      if nullsFirst then lit "nullsfirst" else lit "nullslast"
  | limit count => lit "limit=" ++ Text.decimal count
  | offset count => lit "offset=" ++ Text.decimal count
  | select columns => lit "select=" ++ columns

/-- The last character of the parameter comes from the caller, and it is a question mark. -/
def EndsInQuestion : ChainCall → Prop
  | filter op _ value => op.closing = [] ∧ value.getLast? = some '?'
  | select columns => columns.getLast? = some '?'
  | _ => False

instance (call : ChainCall) : Decidable call.EndsInQuestion := by
  cases call <;> unfold EndsInQuestion <;> infer_instance

theorem text_ne_nil (call : ChainCall) : call.text ≠ [] := by
  have order : lit "order=" ≠ [] := by with_unfolding_all decide
  have limit : lit "limit=" ≠ [] := by with_unfolding_all decide
  have offset : lit "offset=" ≠ [] := by with_unfolding_all decide
  have select : lit "select=" ≠ [] := by with_unfolding_all decide
  cases call <;> simp [text, order, limit, offset, select]

/-- Behind a text that does not end in the mark, only the value can bring it. -/
theorem getLast?_value {front : Text} (last : front.getLast? ≠ some '?') (value : Text) :
    (front ++ value).getLast? = some '?' ↔ value.getLast? = some '?' := by
  by_cases empty : value = []
  · simp [empty, last]
  · rw [List.getLast?_append_of_ne_nil _ empty]

theorem opening_last (op : FilterOp) (front : Text) :
    (front ++ op.opening).getLast? ≠ some '?' := by
  have opening : op.opening ≠ [] ∧ op.opening.getLast? ≠ some '?' := by
    cases op <;> with_unfolding_all decide
  rw [List.getLast?_append_of_ne_nil _ opening.1]
  exact opening.2

theorem closing_last (op : FilterOp) : op.closing.getLast? ≠ some '?' := by
  cases op <;> with_unfolding_all decide

theorem nulls_last (nullsFirst : Bool) (front : Text) :
    (front ++ if nullsFirst then lit "nullsfirst" else lit "nullslast").getLast? ≠ some '?' := by
  have first : lit "nullsfirst" ≠ [] ∧ (lit "nullsfirst").getLast? ≠ some '?' := by
    with_unfolding_all decide
  have last : lit "nullslast" ≠ [] ∧ (lit "nullslast").getLast? ≠ some '?' := by
    with_unfolding_all decide
  cases nullsFirst
  · rw [if_neg (by simp), List.getLast?_append_of_ne_nil _ last.1]
    exact last.2
  · rw [if_pos rfl, List.getLast?_append_of_ne_nil _ first.1]
    exact first.2

theorem decimal_last (count : Int) : (Text.decimal count).getLast? ≠ some '?' := fun question =>
  Text.not_mem_decimal count (by decide) (by decide) (List.mem_of_getLast? question)

theorem text_last_iff (call : ChainCall) : call.text.getLast? = some '?' ↔ call.EndsInQuestion := by
  cases call with
  | filter op column value =>
    have opening : (column ++ '=' :: op.opening).getLast? ≠ some '?' := by
      simpa using opening_last op (column ++ ['='])
    rw [text, EndsInQuestion]
    by_cases closing : op.closing = []
    · rw [closing, List.append_nil, getLast?_value opening]
      simp
    · rw [List.getLast?_append_of_ne_nil _ closing]
      simp [closing, closing_last op]
  | order column direction nullsFirst =>
    exact iff_of_false (nulls_last nullsFirst _) id
  | limit count =>
    rw [text, getLast?_value (by with_unfolding_all decide)]
    simp [EndsInQuestion, decimal_last]
  | offset count =>
    rw [text, getLast?_value (by with_unfolding_all decide)]
    simp [EndsInQuestion, decimal_last]
  | select columns =>
    rw [text, getLast?_value (by with_unfolding_all decide)]
    rfl

end ChainCall

/-- The string held after `Client::from` and the calls. -/
def chainQuery (table : Text) (calls : List ChainCall) : Text :=
  calls.foldl (fun urlQuery call => QueryBuilder.checkLastString urlQuery ++ call.text)
    (table ++ ['?'])

theorem chainQuery_eq (table : Text) (calls : List ChainCall) :
    chainQuery table calls = table ++ '?' :: glued '?' '&' (calls.map ChainCall.text) := by
  have nonempty : ∀ part ∈ calls.map ChainCall.text, part ≠ [] := by
    intro part member
    obtain ⟨call, -, rfl⟩ := List.mem_map.mp member
    exact call.text_ne_nil
  rw [← foldl_glue_mark table nonempty, List.foldl_map]
  rfl

/-- The parameters stand one after the other with a single ampersand between any
two, for any texts, unless a parameter before the last ends in a question mark. -/
theorem chainQuery_separated_iff (table : Text) (calls : List ChainCall) :
    chainQuery table calls =
        table ++ '?' :: List.intercalate ['&'] (calls.map ChainCall.text) ↔
      ∀ call ∈ calls.dropLast, ¬ call.EndsInQuestion := by
  rw [chainQuery_eq, List.append_cancel_left_eq, List.cons.injEq, and_iff_right rfl,
    glued_eq_intercalate_iff, ← List.map_dropLast, List.forall_mem_map]
  simp only [ne_eq, ChainCall.text_last_iff]

/-- `posts?id=eq.a?limit=1`: the limit runs into the value of the filter. -/
theorem question_runs_on : ¬ ∀ (table : Text) (calls : List ChainCall), '?' ∉ table →
    chainQuery table calls =
      table ++ '?' :: List.intercalate ['&'] (calls.map ChainCall.text) := by
  intro separated
  have query := separated (lit "posts") [.filter .eq (lit "id") (lit "a?"), .limit 1]
    (by with_unfolding_all decide)
  rw [chainQuery_separated_iff] at query
  exact query (.filter .eq (lit "id") (lit "a?")) (by simp) (by with_unfolding_all decide)

/-- The same call with the column taken as any text. -/
def Call.chained : Call → ChainCall
  | .filter op column value => .filter op column.text value
  | .order column direction nullsFirst => .order column direction nullsFirst
  | .limit count => .limit count
  | .offset count => .offset count
  | .select columns => .select columns

/-- The builder with literal columns is this one. -/
theorem QueryBuilder.urlQuery_chained (builder : QueryBuilder) :
    builder.urlQuery = chainQuery builder.table (builder.calls.map Call.chained) := by
  have same : ∀ call : Call, call.chained.text = call.text := by
    intro call
    cases call <;> rfl
  rw [chainQuery, List.foldl_map, urlQuery]
  simp only [same]
  rfl

end Crown
