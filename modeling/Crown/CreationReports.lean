import Crown.AuthorPosts
import Crown.Lib.Service
import Crown.RefusedCalls
import Crown.ViewerAnswers

/-! What `CreatePost` reports of the row it inserts, whatever the database replies. The row is
known to the caller only through the replies to the insertion and to the `SELECT` after it. -/
namespace Crown

open Lib Program

/-- A reply of the database to an insertion; a body that does not parse is nothing. -/
structure InsertReply where
  status : Int
  body : Option Json

def InsertReply.Success (reply : InsertReply) : Prop := 200 ≤ reply.status ∧ reply.status < 300

instance (reply : InsertReply) : Decidable reply.Success := inferInstanceAs (Decidable (_ ∧ _))

/-- `Client::insert_return`, nothing for the empty text. -/
def insertReturned : Option InsertReply → Option Json
  | none => none
  | some reply =>
    if 400 ≤ reply.status then none
    else if reply.Success then firstRow? reply.body
    else none

/-- An insertion takes place or not, and the reply, where one arrives, tells the truth about it. -/
structure Insertion where
  tookPlace : Bool
  reply : Option InsertReply
  truthful : ∀ arrived ∈ reply, tookPlace = true ↔ arrived.Success

/-- The replies to the requests of a call, one after the other. -/
structure Replies where
  reply : Nat → (op : Op) → op.Reply
  insertion : Nat → Json → Insertion

/-- How many requests were made, and the rows inserted into `posts`. -/
@[ext] structure Exchange where
  asked : Nat
  inserted : List Json

namespace Replies

def answer (r : Replies) : Interpretation Op Op.Reply Exchange
  | .insertReturn table row, s =>
    (insertReturned (r.insertion s.asked row).reply, ⟨s.asked + 1,
      if table = lit "posts" ∧ (r.insertion s.asked row).tookPlace = true then s.inserted ++ [row]
      else s.inserted⟩)
  | op, s => (r.reply s.asked op, ⟨s.asked + 1, s.inserted⟩)

def caller (r : Replies) : Option AuthenticatedUser := r.reply 0 .getUser

/-- The requests before the id of the new post is drawn. -/
def before (r : Replies) (user : AuthenticatedUser) : Nat :=
  ((upsertUser user).run r.answer ⟨1, []⟩).2.asked

end Replies

/-- A request for a new post. -/
structure PostRequest where
  title : Text
  content : Text
  imageUrl : Text

namespace PostRequest

def check (request : PostRequest) : Option Status :=
  checkPost request.title request.content request.imageUrl

/-- The row `CreatePost` sends. -/
def row (request : PostRequest) (app : AppContext) (r : Replies) (user : AuthenticatedUser) :
    Json :=
  .object [(lit "id", .string (r.reply (r.before user) .secId)),
    (lit "author_id", .string user.id),
    (lit "title", .string (sanitizeString app.html request.title)),
    (lit "content", .string (sanitizeString app.html request.content)),
    (lit "image_url", .string (sanitizeUrl request.imageUrl))]

/-- The answer to the call, and what was exchanged with the database. -/
def served (request : PostRequest) (app : AppContext) (r : Replies) :
    Except Exception (Except Status Response) × Exchange :=
  (CrownServer.handle app (.createPost request.title request.content request.imageUrl)).run
    r.answer ⟨0, []⟩

/-- A post is answered exactly when it was inserted, the caller's and under its id. -/
def Reports (request : PostRequest) (app : AppContext) (r : Replies) : Prop :=
  match request.served app r with
  | (.ok (.ok (.post post)), s) => ∃ row user, s.inserted = [row] ∧ r.caller = some user ∧
      row.text (lit "author_id") = user.id ∧ row.text (lit "id") = post.id
  | (_, s) => s.inserted = []

def byId (postId : Text) : QueryBuilder :=
  (((fromTable (lit "posts")).select postSelect).eq .id postId).limit 1

/-- The replies to the insertion of a row and to the `SELECT` after it tell its id. -/
def Confirmed (r : Replies) (place : Nat) (row : Json) : Prop :=
  ∃ postId post, createdId (insertReturned (r.insertion place row).reply) = .ok postId ∧
    postId ≠ [] ∧ firstPost (r.reply (place + 1) (.select (byId postId))) = .ok post ∧
      (post.getD default).id = row.text (lit "id")

/-- Whatever row of a valid request is inserted is confirmed. -/
def AllConfirmed (request : PostRequest) (app : AppContext) (r : Replies) : Prop :=
  ∀ user, r.caller = some user → request.check = none →
    (r.insertion (r.before user + 1) (request.row app r user)).tookPlace = true →
      Confirmed r (r.before user + 1) (request.row app r user)

variable {r : Replies} {user : AuthenticatedUser} {request : PostRequest}

theorem upsertUser_run (user : AuthenticatedUser) :
    (upsertUser user).run r.answer ⟨1, []⟩ = (.ok (), ⟨r.before user, []⟩) := by
  have kept : ∀ op (s : Exchange), Aside op → s.inserted = [] →
      True ∧ (r.answer op s).2.inserted = [] := by
    intro op s aside none
    cases op with
    | insertReturn => exact aside.elim
    | _ => exact ⟨trivial, none⟩
  have nothing : ((upsertUser user).run r.answer ⟨1, []⟩).2.inserted = [] := by
    refine (upsertUser_aside user).invariant ?_ kept
    rfl
  exact Prod.ext (upsertUser_returns user _) (Exchange.ext rfl nothing)

def notCreated : Status := ⟨.internal,
  lit "Nao foi possivel obter o ID do post criado, então " ++
  lit "não foi postado o post. Mas não foi falha sua, e " ++
  lit "sim dos nossos servidores :( "⟩

/-- The answer of `CreatePost` once its row was sent. -/
def answered (r : Replies) (place : Nat) (row : Json) :
    Except Exception (Except Status Response) :=
  match createdId (insertReturned (r.insertion place row).reply) with
  | .error e => .error e
  | .ok postId =>
    if postId = [] then .ok (.error notCreated)
    else match firstPost (r.reply (place + 1) (.select (byId postId))) with
      | .error e => .error e
      | .ok post => .ok (.ok (.post (post.getD default)))

theorem createPost_stopped (app : AppContext) (stops : r.caller = none ∨ request.check ≠ none) :
    ∃ status asked, (CrownServer.createPost app request.title request.content
      request.imageUrl).run r.answer ⟨0, []⟩ = (.ok (.error status), ⟨asked, []⟩) := by
  have caller : r.answer .getUser ⟨0, []⟩ = (r.caller, ⟨1, []⟩) := rfl
  simp only [CrownServer.createPost, call_bind, run_perform, caller]
  cases known : r.caller with
  | none => exact ⟨_, _, rfl⟩
  | some user =>
    cases checked : checkPost request.title request.content request.imageUrl with
    | some status => exact ⟨status, _, rfl⟩
    | none => exact absurd stops (by simp [known, check, checked])

theorem publish_answered (place : Nat) (row : Json) (userId : Text) :
    ∃ asked, (do
      let created ← insertReturn (lit "posts") row
      let postId ← createdId created
      if postId = [] then return .error notCreated
      else
        let result ← (byId postId).execute
        let post ← firstPost result
        invalidateFeed
        invalidatePostCount userId
        return .ok (.post (post.getD default)) : Handler (Except Status Response)).run r.answer
          ⟨place, []⟩ = (answered r place row,
            ⟨asked, if (r.insertion place row).tookPlace = true then [row] else []⟩) := by
  have inserted : r.answer (.insertReturn (lit "posts") row) ⟨place, []⟩ =
      (insertReturned (r.insertion place row).reply,
        ⟨place + 1, if (r.insertion place row).tookPlace = true then [row] else []⟩) := by
    simp [Replies.answer]
  have selected : ∀ postId rows, r.answer (.select (byId postId)) ⟨place + 1, rows⟩ =
      (r.reply (place + 1) (.select (byId postId)), ⟨place + 2, rows⟩) := fun _ _ => rfl
  simp only [call_bind, run_perform, inserted, answered]
  generalize (if (r.insertion place row).tookPlace = true then [row] else []) = rows
  cases createdId (insertReturned (r.insertion place row).reply) with
  | error e => exact ⟨_, rfl⟩
  | ok postId =>
    simp only [liftM_eq, done_ok_bind]
    by_cases empty : postId = []
    · rw [if_pos empty, if_pos empty]
      exact ⟨_, rfl⟩
    · rw [if_neg empty, if_neg empty, run_perform, selected]
      cases firstPost (r.reply (place + 1) (.select (byId postId))) <;> exact ⟨_, rfl⟩

theorem createPost_answered (app : AppContext) (known : r.caller = some user)
    (valid : request.check = none) :
    ∃ asked, (CrownServer.createPost app request.title request.content request.imageUrl).run
      r.answer ⟨0, []⟩ = (answered r (r.before user + 1) (request.row app r user), ⟨asked,
        if (r.insertion (r.before user + 1) (request.row app r user)).tookPlace = true then
          [request.row app r user] else []⟩) := by
  obtain ⟨asked, published⟩ :=
    publish_answered (r := r) (r.before user + 1) (request.row app r user) user.id
  refine ⟨asked, ?_⟩
  have caller : r.answer .getUser ⟨0, []⟩ = (r.caller, ⟨1, []⟩) := rfl
  have valid : checkPost request.title request.content request.imageUrl = none := valid
  rw [← published]
  simp only [CrownServer.createPost, call_bind, valid]
  rw [run_perform, caller]
  simp only [known, run_bind, upsertUser_run]
  rfl

theorem served_of_run {app : AppContext} {result : Except Exception (Except Status Response)}
    {s : Exchange}
    (ran : (CrownServer.createPost app request.title request.content request.imageUrl).run
      r.answer ⟨0, []⟩ = (result, s)) :
    request.served app r = (.ok (recovered (fun e => .error ⟨.internal, e.what⟩) result), s) := by
  have ran : (CrownServer.body app (.createPost request.title request.content
      request.imageUrl)).run r.answer ⟨0, []⟩ = (result, s) := ran
  refine Prod.ext ?_ ?_
  · rw [served, CrownServer.handle, run_recover, ran]
  · rw [served, CrownServer.handle, run_recover_state, ran]

/-- Without an insertion nothing is returned. -/
theorem insertReturned_failed {insertion : Insertion} (failed : insertion.tookPlace = false) :
    insertReturned insertion.reply = none := by
  cases arrived : insertion.reply with
  | none => rfl
  | some reply =>
    have refused : ¬reply.Success := by
      intro success
      have placed := (insertion.truthful reply arrived).mpr success
      rw [failed] at placed
      cases placed
    rw [insertReturned, if_neg refused, ite_self]

theorem row_author (request : PostRequest) (app : AppContext) (r : Replies)
    (user : AuthenticatedUser) : (request.row app r user).text (lit "author_id") = user.id := by
  simp [row, Json.text, Json.find]

/-- A row that was inserted is reported exactly when the replies confirm it. -/
theorem reports_inserted_iff {app : AppContext} (known : r.caller = some user)
    (valid : request.check = none)
    (placed : (r.insertion (r.before user + 1) (request.row app r user)).tookPlace = true) :
    request.Reports app r ↔ Confirmed r (r.before user + 1) (request.row app r user) := by
  have own := row_author request app r user
  obtain ⟨asked, ran⟩ := createPost_answered app known valid
  rw [Reports, served_of_run ran, placed, if_pos rfl]
  generalize request.row app r user = row at own
  unfold answered Confirmed
  cases created : createdId (insertReturned (r.insertion (r.before user + 1) row).reply) with
  | error e => simp [recovered]
  | ok postId =>
    by_cases empty : postId = []
    · simp [recovered, empty]
    · cases read : firstPost (r.reply (r.before user + 2) (.select (byId postId))) with
      | error e => simp [recovered, empty, read]
      | ok post =>
        simp [recovered, empty, read, known, own]
        exact eq_comm

/-- `CreatePost` reports what it did exactly when the replies confirm every row it inserts. -/
theorem reports_iff (request : PostRequest) (app : AppContext) (r : Replies) :
    request.Reports app r ↔ request.AllConfirmed app r := by
  by_cases stops : r.caller = none ∨ request.check ≠ none
  · obtain ⟨status, asked, ran⟩ := createPost_stopped app stops
    have reports : request.Reports app r := by
      rw [Reports, served_of_run ran]
      rfl
    refine iff_of_true reports fun user known valid => ?_
    rcases stops with none | invalid
    · rw [none] at known
      cases known
    · exact absurd valid invalid
  · obtain ⟨someone, accepted⟩ := not_or.mp stops
    obtain ⟨user, known⟩ := Option.ne_none_iff_exists'.mp someone
    have valid : request.check = none := not_not.mp accepted
    cases placed : (r.insertion (r.before user + 1) (request.row app r user)).tookPlace with
    | true =>
      rw [reports_inserted_iff known valid placed]
      constructor
      · intro confirmed other also _ _
        rw [known] at also
        cases also
        exact confirmed
      · intro all
        exact all user known valid placed
    | false =>
      obtain ⟨asked, ran⟩ := createPost_answered app known valid
      have reports : request.Reports app r := by
        rw [Reports, served_of_run ran, answered, insertReturned_failed placed, placed]
        rfl
      refine iff_of_true reports fun other also _ inserted => ?_
      rw [known] at also
      cases also
      rw [placed] at inserted
      cases inserted

/-- A database that inserts the row and answers 201 without a body. -/
def silent : Replies where
  reply _ op := (Platform.plain.backend.answer Site.localEnvironment op
    (Site.empty.calledBy Site.localEnvironment.context (some Site.ana))).1
  insertion _ _ := ⟨true, some ⟨201, none⟩, by simp [InsertReply.Success]⟩

/-- The post is inserted, and `INTERNAL` is answered. -/
theorem silentInsertion_refused : ¬∀ (request : PostRequest) (app : AppContext) (r : Replies),
    request.Reports app r := by
  intro always
  have known : silent.caller = some Site.ana :=
    Site.getUser_calledBy Site.empty Site.localEnvironment.context (some Site.ana)
  have url : sanitizeUrl [] = [] := by
    unfold sanitizeUrl
    split <;> rfl
  have valid : PostRequest.check ⟨['T'], ['C'], []⟩ = none := by
    rw [check, checkPost, url]
    rfl
  have reports : PostRequest.Reports ⟨['T'], ['C'], []⟩ Platform.plain.app silent :=
    always _ _ silent
  obtain ⟨postId, _, created, named, -⟩ := (reports_inserted_iff known valid rfl).mp reports
  cases created
  exact named rfl

end PostRequest
end Crown
