import Crown.JwtValidator
import Crown.Lib.Base64

/-! Soundness of `validateToken`: what has been checked of a token when its user
is returned. No step looks at the audience, and the expiry is read modulo `2 ^ 32`. -/
namespace Crown.JwtValidator

open Lib

theorem readHeader_eq_some (read : readHeader header = .ok (some kid)) :
    header.find (lit "alg") = some (.string (lit "RS256")) ∧
    header.find (lit "kid") = some (.string kid) ∧ kid ≠ [] := by
  simp only [readHeader, bind_eq_ok] at read
  obtain ⟨named, kidRead, alg, algRead, checked⟩ := read
  split at checked
  · simp at checked
  · rename_i supported
    split at checked
    · simp at checked
    · rename_i nonempty
      simp only [ne_eq, Decidable.not_not] at supported
      simp only [Except.ok.injEq, Option.some.injEq] at checked
      subst supported checked
      exact ⟨Json.find_of_valueString algRead (by with_unfolding_all decide),
        Json.find_of_valueString kidRead nonempty, nonempty⟩

theorem issuers_nonempty (member : iss ∈ issuers) : iss ≠ [] := by
  have all : ∀ iss ∈ issuers, iss ≠ [] := by with_unfolding_all decide
  exact all iss member

/-- A 512-bit key as the JWKS endpoint publishes it. -/
def publishedKey : PublicKey where
  kid := lit "k"
  n := lit "uXDdyUSXyD4Oqkfwp7CN1Xzj2J0oUNLIjYMCCq4r2vNbEZzqG0NAgxx1SxuAGnQQZnJamLmWnU7zU-xDDbH0pw"
  e := lit "AQAB"

def headerPart : Text := lit "eyJhbGciOiJSUzI1NiIsImtpZCI6ImsifQ"

/-- Issued to the client `crown`, expiring at 2000000000. -/
def ownPart : Text := lit "eyJpc3MiOiJhY2NvdW50cy5nb29nbGUuY29tIiwiYXVkIjoiY3Jvd24iLCJleHAiOjIwMDAwMDAwMDAsInN1YiI6IjcifQ"

/-- Issued to the client `other`, expiring at 2000000000. -/
def foreignPart : Text := lit "eyJpc3MiOiJhY2NvdW50cy5nb29nbGUuY29tIiwiYXVkIjoib3RoZXIiLCJleHAiOjIwMDAwMDAwMDAsInN1YiI6IjcifQ"

/-- Issued to the client `crown`, expired at -2294967296. -/
def expiredPart : Text := lit "eyJpc3MiOiJhY2NvdW50cy5nb29nbGUuY29tIiwiYXVkIjoiY3Jvd24iLCJleHAiOi0yMjk0OTY3Mjk2LCJzdWIiOiI3In0"

/-- The signatures made with the private half of `publishedKey`. -/
def signatureOf : List (Text × Text) := [
  (ownPart, lit "eDf4hsgUlR8wdJHuaYMTLf_oKSO57tJYoWSonvRmVy_lQhXnj0qhjoWmv01_Dg8aosvWMKwvG_CaEfTWrE6pNQ"),
  (foreignPart, lit "Whzij07oxEde65LjFrrNzw3r2E3h3zWGEZfCDm57oyk65Ui0QJgAPiZB_QKeVrKnxVvuRKjUpuCB6xXEoZHocg"),
  (expiredPart, lit "F0HMJSZpl1ASRJF7WQh5kuUG4KLhCeQLaIqoIuXvAlwEofpzjm986eOogRihYWs6ixpQS2Jvhnru6xtFQldQ7w")]

def signedToken (part : Text) : Text :=
  headerPart ++ '.' :: (part ++ '.' :: (signatureOf.lookup part).getD [])

def claims (aud : String) (exp : Int) : Json :=
  .object [(lit "iss", .string (lit "accounts.google.com")), (lit "aud", .string (lit aud)),
    (lit "exp", .integer exp), (lit "sub", .string (lit "7"))]

/-- The libraries on the texts of these three tokens. -/
def tokenLibraries : Libraries where
  parse text :=
    if text = lit "\x7b\"alg\":\"RS256\",\"kid\":\"k\"\x7d" then
      .ok (.object [(lit "alg", .string (lit "RS256")), (lit "kid", .string (lit "k"))])
    else if text = lit "\x7b\"iss\":\"accounts.google.com\",\"aud\":\"crown\",\"exp\":2000000000,\"sub\":\"7\"\x7d"
    then .ok (claims "crown" 2000000000)
    else if text = lit "\x7b\"iss\":\"accounts.google.com\",\"aud\":\"other\",\"exp\":2000000000,\"sub\":\"7\"\x7d"
    then .ok (claims "other" 2000000000)
    else if text = lit "\x7b\"iss\":\"accounts.google.com\",\"aud\":\"crown\",\"exp\":-2294967296,\"sub\":\"7\"\x7d"
    then .ok (claims "crown" (-2294967296))
    else .error (.parseError [])
  decodeBlock := Base64.decodeBlock
  rs256 _ _ signature data := signatureOf.any fun (part, signed) =>
    data = headerPart ++ '.' :: part ∧
      signature = (Base64.decodeBlock (padded (signed.map standardAlphabet))).take 64

/-- At 1700000000 seconds, with the keys just fetched. -/
def tokenSurroundings : Surroundings :=
  ⟨0, ⟨none, 0⟩, ⟨none, 0⟩, 1700000000 * nanoseconds⟩

/-- `GOOGLE_CLIENT_ID` of this application. -/
def googleClientId : Text := lit "crown"

def tokenUser : AuthenticatedUser := ⟨lit "7", [], [], []⟩

theorem validateToken_own :
    validateToken tokenLibraries tokenSurroundings (signedToken ownPart) ⟨[publishedKey], 0⟩ =
      (.ok (some tokenUser), ⟨[publishedKey], 0⟩) := by
  decide +kernel

end Crown.JwtValidator
