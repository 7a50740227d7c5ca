import Crown.Json

/-! The validation of Google id tokens, `jwt/validator.cpp`. OpenSSL, the JSON
parser, the clocks and the JWKS endpoint are parameters. -/
namespace Crown

open Lib

structure PublicKey where
  kid : Text
  n : Text
  e : Text
  deriving DecidableEq

structure AuthenticatedUser where
  id : Text
  email : Text
  name : Text
  picture : Text
  deriving DecidableEq

/-- The third-party code the validator calls. -/
structure Libraries where
  parse : Text → Except Exception Json
  /-- The bytes `EVP_DecodeBlock` writes. -/
  decodeBlock : Text → Text
  /-- RSA with SHA-256 under the public key of modulus `n` and exponent `e`. -/
  rs256 : (n e signature data : Text) → Bool

structure JwksReply where
  status : Int
  body : Text

/-- One request to the JWKS endpoint: no reply when the connection fails. -/
structure Fetch where
  reply : Option JwksReply
  completedAt : Int

/-- What one validation meets outside the process, in the order in which it asks:
clocks are read in nanoseconds. -/
structure Surroundings where
  steadyNow : Int
  refresh : Fetch
  retry : Fetch
  systemNow : Int

def nanoseconds : Int := 1000000000

/-- `duration_cast` to seconds. -/
def Surroundings.nowSeconds (around : Surroundings) : Int := around.systemNow.tdiv nanoseconds

structure JwtValidator where
  keys : List PublicKey
  lastFetch : Int
  deriving DecidableEq

def keyTtlSeconds : Int := 3600

namespace JwtValidator

/-- The constructor: the first validation finds the keys expired. -/
def start (steadyNow : Int) : JwtValidator :=
  ⟨[], steadyNow - (keyTtlSeconds + 1) * nanoseconds⟩

def standardAlphabet (c : Char) : Char :=
  if c = '-' then '+' else if c = '_' then '/' else c

def padded (s : Text) : Text := s ++ List.replicate ((4 - s.length % 4) % 4) '='

def decodedLength (s : Text) : Nat :=
  s.length / 4 * 3 - (if 2 ≤ s.length ∧ s[s.length - 1]? = some '=' then 1 else 0) -
    (if 1 ≤ s.length ∧ s[s.length - 2]? = some '=' then 1 else 0)

/-- The output buffer holds zeros where nothing was written. -/
def base64urlDecode (lib : Libraries) (input : Text) : Text :=
  let s := padded (input.map standardAlphabet)
  (lib.decodeBlock s ++ List.replicate (decodedLength s) '\x00').take (decodedLength s)

/-- Header, payload and signature: cut at the first two dots. -/
def splitJwt (token : Text) : Option (Text × Text × Text) :=
  if '.' ∈ token then
    let rest := Text.after '.' token
    if '.' ∈ rest then some (Text.before '.' token, Text.before '.' rest, Text.after '.' rest)
    else none
  else none

def verifySignature (lib : Libraries) (signedData signature n e : Text) : Bool :=
  lib.rs256 (base64urlDecode lib n) (base64urlDecode lib e) (base64urlDecode lib signature)
    signedData

def needsRefresh (around : Surroundings) (v : JwtValidator) : Bool :=
  decide (keyTtlSeconds * nanoseconds ≤ around.steadyNow - v.lastFetch)

/-- The loop over `dados["keys"]`. -/
def readKeys : List Json → Except Exception (List PublicKey)
  | [] => .ok []
  | chave :: rest => do
    let kid ← chave.valueString (lit "kid")
    let n ← chave.valueString (lit "n")
    let e ← chave.valueString (lit "e")
    let keys ← readKeys rest
    .ok (if kid ≠ [] ∧ n ≠ [] ∧ e ≠ [] then ⟨kid, n, e⟩ :: keys else keys)

/-- Only `parse_error` is caught. -/
def fetchGoogleKeys (lib : Libraries) (fetch : Fetch) (v : JwtValidator) :
    Except Exception JwtValidator :=
  match fetch.reply with
  | none => .ok v
  | some reply =>
    if reply.status = 200 then
      match lib.parse reply.body with
      | .error (.parseError _) => .ok v
      | .error e => .error e
      | .ok dados =>
        match dados.find (lit "keys") with
        | some (.array items) => (readKeys items).map (⟨·, fetch.completedAt⟩)
        | _ => .ok v
    else .ok v

def findKey (kid : Text) (v : JwtValidator) : Option PublicKey := v.keys.find? (·.kid = kid)

/-- The key id of a header the validator supports. -/
def readHeader (header : Json) : Except Exception (Option Text) := do
  let kid ← header.valueString (lit "kid")
  let alg ← header.valueString (lit "alg")
  if alg ≠ lit "RS256" then .ok none
  else if kid = [] then .ok none
  else .ok (some kid)

/-- The key named by the header, after a refresh of expired keys and one retry. -/
def obtainKey (lib : Libraries) (around : Surroundings) (kid : Text) (v : JwtValidator) :
    Except Exception (Option PublicKey) × JwtValidator :=
  match if v.needsRefresh around then v.fetchGoogleKeys lib around.refresh else .ok v with
  | .error e => (.error e, v)
  | .ok v =>
    match v.findKey kid with
    | some key => (.ok (some key), v)
    | none =>
      match v.fetchGoogleKeys lib around.retry with
      | .error e => (.error e, v)
      | .ok v => (.ok (v.findKey kid), v)

def issuers : List Text := [lit "https://accounts.google.com", lit "accounts.google.com"]

/-- The checks of the claims and the user they describe. -/
def readClaims (nowSeconds : Int) (payload : Json) :
    Except Exception (Option AuthenticatedUser) := do
  let iss ← payload.valueString (lit "iss")
  if iss ∉ issuers then .ok none
  else
    let exp ← payload.value Json.getInt (lit "exp") 0
    if exp ≤ nowSeconds then .ok none
    else
      let id ← payload.valueString (lit "sub")
      let email ← payload.valueString (lit "email")
      let name ← payload.valueString (lit "given_name")
      let picture ← payload.valueString (lit "picture")
      if id = [] then .ok none
      else .ok (some ⟨id, email, name, picture⟩)

/-- An exception that leaves this function has left the keys as the last complete
fetch set them. -/
def validateToken (lib : Libraries) (around : Surroundings) (token : Text) (v : JwtValidator) :
    Except Exception (Option AuthenticatedUser) × JwtValidator :=
  match splitJwt token with
  | none => (.ok none, v)
  | some (header, payload, signature) =>
    match lib.parse (base64urlDecode lib header) with
    | .error _ => (.ok none, v)
    | .ok headerJson =>
      match readHeader headerJson with
      | .error e => (.error e, v)
      | .ok none => (.ok none, v)
      | .ok (some kid) =>
        match v.obtainKey lib around kid with
        | (.error e, v) => (.error e, v)
        | (.ok none, v) => (.ok none, v)
        | (.ok (some key), v) =>
          if verifySignature lib (header ++ '.' :: payload) signature key.n key.e then
            match lib.parse (base64urlDecode lib payload) with
            | .error _ => (.ok none, v)
            | .ok payloadJson => (readClaims around.nowSeconds payloadJson, v)
          else (.ok none, v)

theorem splitJwt_eq_some : splitJwt token = some (header, payload, signature) ↔
    token = header ++ '.' :: (payload ++ '.' :: signature) ∧ '.' ∉ header ∧ '.' ∉ payload := by
  constructor
  · intro cut
    unfold splitJwt at cut
    split at cut
    · rename_i first
      dsimp only at cut
      split at cut
      · rename_i second
        simp only [Option.some.injEq, Prod.mk.injEq] at cut
        obtain ⟨rfl, rfl, rfl⟩ := cut
        refine ⟨?_, Text.not_mem_before _ _, Text.not_mem_before _ _⟩
        rw [← Text.before_cons_after second, ← Text.before_cons_after first]
      · contradiction
    · contradiction
  · rintro ⟨rfl, first, second⟩
    have rest := Text.after_append first (payload ++ '.' :: signature)
    simp [splitJwt, rest, Text.before_append first, Text.before_append second,
      Text.after_append second]

end JwtValidator
end Crown
