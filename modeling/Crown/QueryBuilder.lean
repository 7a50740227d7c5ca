import Crown.Lib.Text

/-! The PostgREST query builder of `db/supabase.cpp`. A builder is kept as the
table and the calls made on it; `urlQuery` replays the calls on the string the
source holds. -/
namespace Crown

open Lib

/-- A column name as the callers write it, a literal of letters, digits and
underscores. -/
structure Column where
  text : Text
  plain : ∀ c ∈ text, c.isAlphanum ∨ c = '_'

namespace Column

def id : Column := ⟨lit "id", Text.forall_of_all (by with_unfolding_all decide)⟩
def authorId : Column := ⟨lit "author_id", Text.forall_of_all (by with_unfolding_all decide)⟩
def handle : Column := ⟨lit "handle", Text.forall_of_all (by with_unfolding_all decide)⟩
def hash : Column := ⟨lit "hash", Text.forall_of_all (by with_unfolding_all decide)⟩
def url : Column := ⟨lit "url", Text.forall_of_all (by with_unfolding_all decide)⟩

end Column

inductive FilterOp where
  | eq | gt | gte | lt | lte | neq | is
  | within | cs | cd | ov | sl | sr | nxr | nxl | adj
  deriving DecidableEq, Repr

/-- The text between the equals sign and the value. -/
def FilterOp.opening : FilterOp → Text
  | .eq => lit "eq."
  | .gt => lit "gt."
  | .gte => lit "gte."
  | .lt => lit "lt."
  | .lte => lit "lte."
  | .neq => lit "neq."
  | .is => lit "is."
  | .within => lit "in.("
  | .cs => lit "cs.\x7b"
  | .cd => lit "cd.\x7b"
  | .ov => lit "ov.\x7b"
  | .sl => lit "sl.("
  | .sr => lit "sr.("
  | .nxr => lit "nxr.("
  | .nxl => lit "nxl.("
  | .adj => lit "adj.("

def FilterOp.closing : FilterOp → Text
  | .eq | .gt | .gte | .lt | .lte | .neq | .is => []
  | .cs | .cd | .ov => lit "\x7d"
  | .within | .sl | .sr | .nxr | .nxl | .adj => lit ")"

inductive Call where
  | filter (op : FilterOp) (column : Column) (value : Text)
  | order (column direction : Text) (nullsFirst : Bool)
  | limit (count : Nat)
  | offset (count : Int)
  | select (columns : Text)

namespace Call

/-- The parameter a call appends. -/
def text : Call → Text
  | .filter op column value => column.text ++ '=' :: op.opening ++ value ++ op.closing
  | .order column direction nullsFirst =>
    lit "order=" ++ column ++ lit "." ++ direction ++ lit "." ++
      if nullsFirst then lit "nullsfirst" else lit "nullslast"
  | .limit count => lit "limit=" ++ Text.decimal count
  | .offset count => lit "offset=" ++ Text.decimal count
  | .select columns => lit "select=" ++ columns

/-- The pair a call asks for. -/
def name : Call → Text
  | .filter _ column _ => column.text
  | .order .. => lit "order"
  | .limit _ => lit "limit"
  | .offset _ => lit "offset"
  | .select _ => lit "select"

def value : Call → Text
  | .filter op _ value => op.opening ++ value ++ op.closing
  | .order column direction nullsFirst =>
    column ++ lit "." ++ direction ++ lit "." ++
      if nullsFirst then lit "nullsfirst" else lit "nullslast"
  | .limit count => Text.decimal count
  | .offset count => Text.decimal count
  | .select columns => columns

theorem text_eq (call : Call) : call.text = call.name ++ '=' :: call.value := by
  have order : lit "order=" = lit "order" ++ ['='] := by with_unfolding_all decide
  have limit : lit "limit=" = lit "limit" ++ ['='] := by with_unfolding_all decide
  have offset : lit "offset=" = lit "offset" ++ ['='] := by with_unfolding_all decide
  have select : lit "select=" = lit "select" ++ ['='] := by with_unfolding_all decide
  cases call <;> simp [text, name, value, order, limit, offset, select]

end Call

structure QueryBuilder where
  table : Text
  calls : List Call

namespace QueryBuilder

/-- `check_last_string`: a separator, unless the string is empty or ends in a
question mark. -/
def checkLastString (urlQuery : Text) : Text :=
  if urlQuery ≠ [] ∧ urlQuery.getLast? ≠ some '?' then urlQuery ++ ['&'] else urlQuery

def append (urlQuery : Text) (call : Call) : Text := checkLastString urlQuery ++ call.text

/-- The string held after `Client::from` and the calls. -/
def urlQuery (builder : QueryBuilder) : Text :=
  builder.calls.foldl append (builder.table ++ ['?'])

/-- The pairs that were asked for, in call order. -/
def requested (builder : QueryBuilder) : List (Text × Text) :=
  builder.calls.map fun call => (call.name, call.value)

def call (builder : QueryBuilder) (call : Call) : QueryBuilder :=
  { builder with calls := builder.calls ++ [call] }

def eq (builder : QueryBuilder) (column : Column) (value : Text) : QueryBuilder :=
  builder.call (.filter .eq column value)

def limit (builder : QueryBuilder) (count : Nat) : QueryBuilder := builder.call (.limit count)

def select (builder : QueryBuilder) (columns : Text) : QueryBuilder :=
  builder.call (.select columns)

end QueryBuilder

/-- `Client::from`. -/
def fromTable (table : Text) : QueryBuilder := ⟨table, []⟩

/-- The lookup `DeletePost` makes before it removes anything. -/
def postLookup (postId : Text) : QueryBuilder :=
  (((fromTable (lit "posts")).select (lit "id,author_id,image_url")).eq .id postId).limit 1

end Crown
