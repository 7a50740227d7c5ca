import Crown.JwtAcceptance

/-! The time check of `validateToken`. It reads `exp` as an `int`, the type of the default, and
compares it with the seconds of the clock. -/
namespace Crown.JwtValidator

open Lib

/-- The time check: whether it rejects. -/
def timeCheck (nowSeconds : Int) (payload : Json) : Except Exception Bool := do
  let exp ← payload.value Json.getInt (lit "exp") 0
  .ok (decide (exp ≤ nowSeconds))

/-- What is read of the claims after the time check. -/
def readUser (payload : Json) : Except Exception (Option AuthenticatedUser) := do
  let id ← payload.valueString (lit "sub")
  let email ← payload.valueString (lit "email")
  let name ← payload.valueString (lit "given_name")
  let picture ← payload.valueString (lit "picture")
  if id = [] then .ok none
  else .ok (some ⟨id, email, name, picture⟩)

/-- The checks of the claims around the time check. -/
def checkClaims (check : Except Exception Bool) (payload : Json) :
    Except Exception (Option AuthenticatedUser) := do
  let iss ← payload.valueString (lit "iss")
  if iss ∉ issuers then .ok none
  else if ← check then .ok none
  else readUser payload

/-- The validation comes to the payload: the token is signed with the key that its header names. -/
def SignedPayload (lib : Libraries) (around : Surroundings) (token : Text) (v : JwtValidator)
    (payload : Json) (v' : JwtValidator) : Prop :=
  ∃ header part signature headerJson kid key,
    splitJwt token = some (header, part, signature) ∧
    lib.parse (base64urlDecode lib header) = .ok headerJson ∧
    readHeader headerJson = .ok (some kid) ∧ v.obtainKey lib around kid = (.ok (some key), v') ∧
    verifySignature lib (header ++ '.' :: part) signature key.n key.e = true ∧
    lib.parse (base64urlDecode lib part) = .ok payload

section

variable {lib : Libraries} {around : Surroundings} {token : Text} {v v' : JwtValidator}
variable {payload : Json} {stored nowSeconds : Int}

theorem readClaims_eq (nowSeconds : Int) (payload : Json) :
    readClaims nowSeconds payload = checkClaims (timeCheck nowSeconds payload) payload := by
  unfold readClaims checkClaims timeCheck
  cases payload.valueString (lit "iss") with
  | error e => rfl
  | ok iss =>
    by_cases google : iss ∈ issuers
    · cases payload.value Json.getInt (lit "exp") 0 with
      | error e => simp only [bind, Except.bind, google, not_true, if_false]
      | ok exp =>
        by_cases passed : exp ≤ nowSeconds <;>
          simp [bind, Except.bind, google, passed, readUser]
    · simp only [bind, Except.bind, google, not_false_eq_true, if_true]

/-- What the validation of a signed token comes to. -/
theorem validateToken_signed (signed : SignedPayload lib around token v payload v') :
    validateToken lib around token v =
      (checkClaims (timeCheck around.nowSeconds payload) payload, v') := by
  obtain ⟨header, part, signature, headerJson, kid, key, cut, headerParsed, headerRead, obtained,
    verified, payloadParsed⟩ := signed
  unfold validateToken
  simp only [cut, headerParsed, headerRead, obtained, verified, if_true, payloadParsed, readClaims_eq]

theorem timeCheck_integer (integer : payload.find (lit "exp") = some (.integer stored)) :
    timeCheck nowSeconds payload = .ok (decide (toInt32 stored ≤ nowSeconds)) := by
  have object : payload.isObject = true := by
    cases payload with
    | object members => rfl
    | _ => cases integer
  simp only [timeCheck, Json.value, object, if_true, integer, Json.getInt, Json.getNumber, Except.map,
    bind, Except.bind]

/-- The time check of a signed token is exact if and only if the time is not between `exp` and
what is left of it in an `int`. -/
theorem timeCheck_exact_iff (signed : SignedPayload lib around token v payload v')
    (integer : payload.find (lit "exp") = some (.integer stored)) :
    validateToken lib around token v =
      (checkClaims (timeCheck around.nowSeconds payload) payload, v') ∧
    ((timeCheck around.nowSeconds payload = .ok true ↔ stored ≤ around.nowSeconds) ↔
      ¬(min stored (toInt32 stored) ≤ around.nowSeconds ∧
        around.nowSeconds < max stored (toInt32 stored))) := by
  refine ⟨validateToken_signed signed, ?_⟩
  rw [timeCheck_integer integer, Except.ok.injEq, decide_eq_true_iff]
  omega

/-- An integer `exp` is checked exactly at all times if and only if it is an `int`. -/
theorem timeCheck_always_exact_iff (integer : payload.find (lit "exp") = some (.integer stored)) :
    (∀ nowSeconds, timeCheck nowSeconds payload = .ok true ↔ stored ≤ nowSeconds) ↔
      -2 ^ 31 ≤ stored ∧ stored < 2 ^ 31 := by
  simp only [timeCheck_integer integer, Except.ok.injEq, decide_eq_true_iff]
  constructor
  · intro exact
    have upper := (exact (toInt32 stored)).mp le_rfl
    have lower := (exact stored).mpr le_rfl
    have same : toInt32 stored = stored := le_antisymm lower upper
    exact same ▸ toInt32_range stored
  · rintro ⟨low, high⟩ nowSeconds
    rw [toInt32_eq_self low high]

end

/-- Signed, and expired at -2294967296, which an `int` takes for 2000000000. -/
theorem expiredToken_signed : SignedPayload tokenLibraries tokenSurroundings
    (signedToken expiredPart) ⟨[publishedKey], 0⟩ (claims "crown" (-2294967296))
    ⟨[publishedKey], 0⟩ := by
  have evaluated : base64urlDecode tokenLibraries headerPart =
        lit "\x7b\"alg\":\"RS256\",\"kid\":\"k\"\x7d" ∧
      base64urlDecode tokenLibraries expiredPart = lit
        "\x7b\"iss\":\"accounts.google.com\",\"aud\":\"crown\",\"exp\":-2294967296,\"sub\":\"7\"\x7d" ∧
      '.' ∉ headerPart ∧ '.' ∉ expiredPart ∧ lit "k" ≠ [] ∧
      verifySignature tokenLibraries (headerPart ++ '.' :: expiredPart)
        ((signatureOf.lookup expiredPart).getD []) publishedKey.n publishedKey.e = true := by
    decide +kernel
  obtain ⟨header, part, first, second, named, verified⟩ := evaluated
  refine ⟨headerPart, expiredPart, (signatureOf.lookup expiredPart).getD [],
    .object [(lit "alg", .string (lit "RS256")), (lit "kid", .string (lit "k"))], lit "k",
    publishedKey, splitJwt_eq_some.mpr ⟨rfl, first, second⟩, ?_, ?_, ?_, verified, ?_⟩
  · rw [header]
    simp [tokenLibraries]
  · simp [readHeader, Json.valueString, Json.value, Json.isObject, Json.find, Json.getString, bind,
      Except.bind, named]
  · simp [obtainKey, needsRefresh, tokenSurroundings, keyTtlSeconds, nanoseconds, findKey,
      publishedKey]
  · rw [part]
    simp [tokenLibraries]

theorem expiredToken_integer : (claims "crown" (-2294967296)).find (lit "exp") =
    some (.integer (-2294967296)) := by
  simp [claims, Json.find]

theorem expiredToken_checked :
    (timeCheck tokenSurroundings.nowSeconds (claims "crown" (-2294967296)) = .ok true ↔
      -2294967296 ≤ tokenSurroundings.nowSeconds) ↔
      ¬(min (-2294967296) (toInt32 (-2294967296)) ≤ tokenSurroundings.nowSeconds ∧
        tokenSurroundings.nowSeconds < max (-2294967296) (toInt32 (-2294967296))) :=
  (timeCheck_exact_iff expiredToken_signed expiredToken_integer).2

/-- At 1700000000 the token is not rejected. -/
theorem expiredToken_passed :
    SignedPayload tokenLibraries tokenSurroundings (signedToken expiredPart) ⟨[publishedKey], 0⟩
      (claims "crown" (-2294967296)) ⟨[publishedKey], 0⟩ ∧
    (claims "crown" (-2294967296)).find (lit "exp") = some (.integer (-2294967296)) ∧
    ¬(timeCheck tokenSurroundings.nowSeconds (claims "crown" (-2294967296)) = .ok true ↔
      -2294967296 ≤ tokenSurroundings.nowSeconds) := by
  have small : toInt32 (-2294967296) = 2000000000 := by decide
  have now : tokenSurroundings.nowSeconds = 1700000000 := by decide
  refine ⟨expiredToken_signed, expiredToken_integer, ?_⟩
  rw [timeCheck_integer expiredToken_integer, small, now]
  decide

end Crown.JwtValidator
