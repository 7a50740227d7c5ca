import Crown.Backend
import Crown.Lib.Url
import Crown.QueryChains

/-! The C interface over the tables, `supabase_update` and `supabase_select`: which
rows the two ask for under one condition. A C string has no zero byte. -/
namespace Crown

open Lib Lib.Text

inductive TableOp where
  | patch (url json : Text)
  | get (url : Text)

namespace TableOp

/-- Without a reply there is no status. -/
abbrev Reply : TableOp → Type
  | patch .. => Option Int
  | get _ => Option HttpReply

def url : TableOp → Text
  | patch url _ | get url => url

end TableOp

section

variable (answer : Program.Interpretation TableOp TableOp.Reply σ) (s : σ)

end

end Crown
