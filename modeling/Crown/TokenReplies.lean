import Crown.Site

/-! What the two exchanges with the token endpoint make of its replies, in
`middlewares/authMiddle.cpp`: when a reply is reported by a status and when it ends in
an exception. -/
namespace Crown

open Lib

namespace Json

/-- `value` with a string for a default. -/
theorem value_getString_eq (j : Json) (default : Text) :
    j.value getString key default =
      if j.isObject = true then (j.find key).elim (.ok default) getString
      else .error (.typeError
        (lit "[json.exception.type_error.306] cannot use value() with " ++ j.typeName)) := by
  rw [value]
  cases j.find key <;> rfl

end Json

namespace CrownServer

/-- The text behind an error status: the reply's own, or the default one. -/
def described (lib : Libraries) (failure body : Text) : Text :=
  match lib.parse body with
  | .ok erro =>
    match erro.find (lit "error_description") with
    | some (.string message) => message
    | _ => failure
  | .error _ => failure

/-- A body from which an id token can be taken. -/
def UsableIdToken (lib : Libraries) (body : Text) : Prop :=
  ∃ dados token, lib.parse body = .ok dados ∧
    dados.find (lit "id_token") = some (.string token) ∧ token ≠ []

/-- The status that is meant for a reply. -/
def Meant (lib : Libraries) (failure : Text) (outcome : Except Status α) : Option HttpReply → Prop
  | none => ∃ message, outcome = .error ⟨.unavailable, message⟩
  | some reply =>
    if reply.status ≠ 200 then
      outcome = .error ⟨.unauthenticated, described lib failure reply.body⟩
    else ¬ UsableIdToken lib reply.body → ∃ message, outcome = .error ⟨.internal, message⟩

/-- The function returns, with the status that is meant, and succeeds only with an id token. -/
def Reported (lib : Libraries) (failure : Text) (idToken : α → Text) (reply : Option HttpReply)
    (result : Except Exception (Except Status α)) : Prop :=
  ∃ outcome, result = .ok outcome ∧ Meant lib failure outcome reply ∧
    ∀ value, outcome = .ok value → idToken value ≠ []

/-- The accesses to a reply find the types they ask for. -/
def Readable (lib : Libraries) (keys : List Text) : Option HttpReply → Prop
  | none => True
  | some reply =>
    if reply.status ≠ 200 then
      ∃ erro, lib.parse reply.body = .ok erro ∧ Json.StringOrAbsent (lit "error_description") erro
    else (∃ what, lib.parse reply.body = .error (.parseError what)) ∨
      ∃ dados, lib.parse reply.body = .ok dados ∧ ∀ key ∈ keys, Json.StringOrAbsent key dados

/-- What is taken from the body of a success: the members under the keys as strings, and
a value with the id token when there is one. -/
structure Takes (read : Json → Except Exception (Except Status α)) (keys : List Text)
    (idToken : α → Text) : Prop where
  readable : ∀ dados, (∀ key ∈ keys, Json.StringOrAbsent key dados) →
    dados.text (lit "id_token") = [] ∧ read dados = .ok (.error noIdToken) ∨
    ∃ value, dados.text (lit "id_token") ≠ [] ∧ idToken value = dados.text (lit "id_token") ∧
      read dados = .ok (.ok value)
  unreadable : ∀ dados outcome, read dados = .ok outcome →
    ∀ key ∈ keys, Json.StringOrAbsent key dados

/-- An error status comes without a value. -/
theorem ok_of_error {good : α → Prop} (status : Status) (value : α)
    (same : Except.error status = Except.ok value) : good value := by
  cases same

theorem error_message_iff (erro : Json) (failure : Text) :
    (∃ message, erro.value Json.getString (lit "error_description") failure = .ok message) ↔
      Json.StringOrAbsent (lit "error_description") erro := by
  rw [Json.value_getString_eq, Json.StringOrAbsent]
  cases erro.isObject <;> cases erro.find (lit "error_description") <;>
    simp [Json.getString_eq_ok]

theorem error_message_eq {lib : Libraries} {text : Text} (failure : Text)
    (parsed : lib.parse text = .ok erro)
    (readable : Json.StringOrAbsent (lit "error_description") erro) :
    erro.value Json.getString (lit "error_description") failure =
      .ok (described lib failure text) := by
  obtain ⟨object, strings⟩ := readable
  rw [Json.value_getString_eq, if_pos object, described, parsed]
  cases found : erro.find (lit "error_description") with
  | none => simp [found]
  | some stored =>
    obtain ⟨message, rfl⟩ := strings stored found
    simp [found, Json.getString]

section

variable {lib : Libraries} {failure : Text} {reply : HttpReply}
  {read : Json → Except Exception (Except Status α)}

/-- An answer that is no success is reported when its description can be read. -/
theorem failure_reported_iff (failed : reply.status ≠ 200) :
    Reported lib failure idToken (some reply) (tokenReply lib failure read (some reply)) ↔
      Readable lib keys (some reply) := by
  rw [Readable, if_pos failed, tokenReply, if_pos failed]
  cases parsed : lib.parse reply.body with
  | error e =>
    -- the value built in the handler of the parse error is null, which has no members
    refine iff_of_false ?_ ?_
    · rintro ⟨outcome, returned, -⟩
      obtain ⟨message, read, -⟩ := bind_eq_ok.mp returned
      have object := ((error_message_iff _ _).mp ⟨message, read⟩).1
      exact Bool.false_ne_true object
    · rintro ⟨erro, same, -⟩
      cases same
  | ok erro =>
    constructor
    · rintro ⟨outcome, returned, -⟩
      obtain ⟨message, read, -⟩ := bind_eq_ok.mp returned
      exact ⟨erro, rfl, (error_message_iff _ _).mp ⟨message, read⟩⟩
    · rintro ⟨erro, same, readable⟩
      cases same
      refine ⟨.error ⟨.unauthenticated, described lib failure reply.body⟩, ?_, ?_, ok_of_error _⟩
      · simp only [error_message_eq failure parsed readable]
        rfl
      · rw [Meant, if_pos failed]

/-- An id token is usable when its text is not empty. -/
theorem usable_iff (parsed : lib.parse reply.body = .ok dados) :
    UsableIdToken lib reply.body ↔ dados.text (lit "id_token") ≠ [] := by
  rw [Json.text]
  constructor
  · rintro ⟨_, token, same, found, nonempty⟩
    cases parsed.symm.trans same
    rw [found]
    exact nonempty
  · intro nonempty
    split at nonempty
    · rename_i token found
      exact ⟨dados, token, parsed, found, nonempty⟩
    · exact absurd rfl nonempty

/-- A success is reported when its body does not parse, or when all that is taken from it
can be read. -/
theorem success_reported_iff (takes : Takes read keys idToken) (succeeded : reply.status = 200) :
    Reported lib failure idToken (some reply) (tokenReply lib failure read (some reply)) ↔
      Readable lib keys (some reply) := by
  have not_failed : ¬ reply.status ≠ 200 := not_not.mpr succeeded
  rw [Readable, if_neg not_failed, tokenReply, if_neg not_failed]
  cases parsed : lib.parse reply.body with
  | error e =>
    cases e with
    | parseError what =>
      refine iff_of_true ⟨_, rfl, ?_, ok_of_error _⟩ (.inl ⟨what, rfl⟩)
      rw [Meant, if_neg not_failed]
      exact fun _ => ⟨_, rfl⟩
    | outOfRange what | typeError what =>
      refine iff_of_false ?_ ?_
      · rintro ⟨_, returned, -⟩
        cases returned
      · rintro (⟨_, same⟩ | ⟨_, same, -⟩) <;> cases same
  | ok dados =>
    constructor
    · rintro ⟨outcome, returned, -⟩
      exact .inr ⟨dados, rfl, takes.unreadable dados outcome returned⟩
    · rintro (⟨what, same⟩ | ⟨_, same, readable⟩)
      · cases same
      · cases same
        rcases takes.readable dados readable with ⟨empty, read⟩ | ⟨value, nonempty, token, read⟩
        · refine ⟨_, read, ?_, ok_of_error _⟩
          rw [Meant, if_neg not_failed]
          exact fun _ => ⟨_, rfl⟩
        · refine ⟨_, read, ?_, ?_⟩
          · rw [Meant, if_neg not_failed]
            exact fun unusable => absurd ((usable_iff parsed).mpr nonempty) unusable
          · rintro _ ⟨⟩
            rw [token]
            exact nonempty

end

theorem tokenReply_reported_iff {read : Json → Except Exception (Except Status α)}
    (takes : Takes read keys idToken) (lib : Libraries) (failure : Text)
    (reply : Option HttpReply) :
    Reported lib failure idToken reply (tokenReply lib failure read reply) ↔
      Readable lib keys reply := by
  cases reply with
  | none => exact iff_of_true ⟨_, rfl, ⟨_, rfl⟩, ok_of_error _⟩ trivial
  | some reply =>
    by_cases failed : reply.status ≠ 200
    · exact failure_reported_iff failed
    · exact success_reported_iff takes (not_not.mp failed)

/-- What `ExchangeCodeForToken` takes. -/
def takeTokens (dados : Json) : Except Exception (Except Status (Text × Text)) := do
  let _ ← dados.valueString (lit "access_token")
  let refreshToken ← dados.valueString (lit "refresh_token")
  let idToken ← dados.valueString (lit "id_token")
  if idToken = [] then return .error noIdToken else return .ok (idToken, refreshToken)

/-- What `RefreshAccessToken` takes. -/
def takeIdToken (dados : Json) : Except Exception (Except Status Text) := do
  let idToken ← dados.valueString (lit "id_token")
  if idToken = [] then return .error noIdToken else return .ok idToken

theorem takeTokens_takes :
    Takes takeTokens [lit "access_token", lit "refresh_token", lit "id_token"] (·.1) where
  readable dados strings := by
    have access := Json.valueString_eq_text (strings (lit "access_token") (by simp))
    have refresh := Json.valueString_eq_text (strings (lit "refresh_token") (by simp))
    have token := Json.valueString_eq_text (strings (lit "id_token") (by simp))
    rw [takeTokens, access, refresh, token]
    by_cases empty : dados.text (lit "id_token") = []
    · exact .inl ⟨empty, by simp [empty, bind, Except.bind, pure, Except.pure]⟩
    · exact .inr ⟨(dados.text (lit "id_token"), dados.text (lit "refresh_token")), empty, rfl,
        by simp [empty, bind, Except.bind, pure, Except.pure]⟩
  unreadable dados outcome returned := by
    obtain ⟨access, first, returned⟩ := bind_eq_ok.mp returned
    obtain ⟨refresh, second, returned⟩ := bind_eq_ok.mp returned
    obtain ⟨token, third, -⟩ := bind_eq_ok.mp returned
    simp only [List.forall_mem_cons, ← Json.valueString_isOk_iff]
    exact ⟨⟨_, first⟩, ⟨_, second⟩, ⟨_, third⟩, by simp⟩

theorem takeIdToken_takes : Takes takeIdToken [lit "id_token"] id where
  readable dados strings := by
    have token := Json.valueString_eq_text (strings (lit "id_token") (by simp))
    rw [takeIdToken, token]
    by_cases empty : dados.text (lit "id_token") = []
    · exact .inl ⟨empty, by simp [empty, bind, Except.bind, pure, Except.pure]⟩
    · exact .inr ⟨dados.text (lit "id_token"), empty, rfl,
        by simp [empty, bind, Except.bind, pure, Except.pure]⟩
  unreadable dados outcome returned := by
    obtain ⟨token, first, -⟩ := bind_eq_ok.mp returned
    simp only [List.forall_mem_singleton, ← Json.valueString_isOk_iff]
    exact ⟨_, first⟩

section

variable (backend : Backend σ) (env : Environment) (w : World σ) (clientId clientSecret : Text)

/-- The server with its client configured. -/
def configured : AppContext :=
  { backend.app with googleClientId := some clientId, googleClientSecret := some clientSecret }

def codeRequest (authorizationCode redirectUri : Text) : Json :=
  .object [(lit "code", .string authorizationCode), (lit "client_id", .string clientId),
    (lit "client_secret", .string clientSecret), (lit "redirect_uri", .string redirectUri),
    (lit "grant_type", .string (lit "authorization_code"))]

def refreshRequest (refreshToken : Text) : Json :=
  .object [(lit "client_id", .string clientId), (lit "client_secret", .string clientSecret),
    (lit "refresh_token", .string refreshToken), (lit "grant_type", .string (lit "refresh_token"))]

/-- `ExchangeCodeForToken` reports what the endpoint replies. -/
def CodeReported (authorizationCode redirectUri : Text) : Prop :=
  Reported backend.app.lib (lit "Failed to exchange authorization code") (·.1)
    (env.tokenEndpoint (codeRequest clientId clientSecret authorizationCode redirectUri))
    ((exchangeCodeForToken (configured backend clientId clientSecret) authorizationCode
      redirectUri).run (backend.answer env) w).1

/-- `RefreshAccessToken` reports what the endpoint replies. -/
def RefreshReported (refreshToken : Text) : Prop :=
  Reported backend.app.lib (lit "Failed to refresh access token") id
    (env.tokenEndpoint (refreshRequest clientId clientSecret refreshToken))
    ((exchangeRefreshToken (configured backend clientId clientSecret) refreshToken).run
      (backend.answer env) w).1

/-- Whatever the endpoint replies, each exchange reports it exactly when the reply can be read. -/
theorem exchanges_reported_iff (authorizationCode redirectUri refreshToken : Text) :
    (CodeReported backend env w clientId clientSecret authorizationCode redirectUri ↔
      Readable backend.app.lib [lit "access_token", lit "refresh_token", lit "id_token"]
        (env.tokenEndpoint (codeRequest clientId clientSecret authorizationCode redirectUri))) ∧
    (RefreshReported backend env w clientId clientSecret refreshToken ↔
      Readable backend.app.lib [lit "id_token"]
        (env.tokenEndpoint (refreshRequest clientId clientSecret refreshToken))) :=
  ⟨tokenReply_reported_iff takeTokens_takes _ _ _, tokenReply_reported_iff takeIdToken_takes _ _ _⟩

end

/-- A proxy's `502` with a text for a body: the recovery asks null for a member, and the
exchange ends in the exception of that. -/
theorem badGateway_thrown : ¬ ∀ (env : Environment) (clientId clientSecret refreshToken : Text),
    RefreshReported Platform.plain.backend env Site.empty.world clientId clientSecret
      refreshToken := by
  intro reported
  let badGateway : Environment :=
    ⟨0, fun _ => some ⟨502, lit "Bad Gateway"⟩, ⟨0, ⟨none, 0⟩, ⟨none, 0⟩, 0⟩⟩
  have refresh := reported badGateway (lit "crown") (lit "secret") (lit "r")
  have readable := ((exchanges_reported_iff _ badGateway Site.empty.world _ _ [] [] _).2).mp refresh
  obtain ⟨erro, parsed, -⟩ : ∃ erro, Platform.plain.app.lib.parse (lit "Bad Gateway") = .ok erro ∧
      Json.StringOrAbsent (lit "error_description") erro := readable
  cases parsed

end CrownServer
end Crown
