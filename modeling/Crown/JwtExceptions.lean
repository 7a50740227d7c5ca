import Crown.JwtAcceptance

/-! When `validateToken` lets an exception escape. Only the two `parse` calls of the
token and the `parse_error` of a JWKS body are caught; every typed access is not. -/
namespace Crown.JwtValidator

open Lib

/-- The three members of a JWKS entry may be read as strings. -/
def ReadableKey (chave : Json) : Prop :=
  Json.StringOrAbsent (lit "kid") chave ∧ Json.StringOrAbsent (lit "n") chave ∧
    Json.StringOrAbsent (lit "e") chave

/-- A reply of the endpoint that raises nothing, or only the exception caught. -/
def ReadableReply (lib : Libraries) (reply : Option JwksReply) : Prop :=
  ∀ body, reply = some ⟨200, body⟩ →
    (∀ e, lib.parse body = .error e → ∃ what, e = .parseError what) ∧
    ∀ dados items, lib.parse body = .ok dados → dados.find (lit "keys") = some (.array items) →
      ∀ chave ∈ items, ReadableKey chave

/-- The keys a reply publishes: the entries whose three members are not empty. -/
def publishedKeys (lib : Libraries) (reply : Option JwksReply) : Option (List PublicKey) :=
  match reply with
  | some ⟨200, body⟩ =>
    match lib.parse body with
    | .ok dados =>
      match dados.find (lit "keys") with
      | some (.array items) => some ((items.map fun chave =>
          ⟨chave.text (lit "kid"), chave.text (lit "n"), chave.text (lit "e")⟩).filter fun key =>
            key.kid ≠ [] ∧ key.n ≠ [] ∧ key.e ≠ [])
      | _ => none
    | _ => none
  | _ => none

/-- The keys known once expired ones have been refreshed. -/
def keysAfterRefresh (lib : Libraries) (around : Surroundings) (v : JwtValidator) :
    List PublicKey :=
  if v.needsRefresh around then (publishedKeys lib around.refresh.reply).getD v.keys else v.keys

/-- The two fetches of `obtainKey` run when the keys have expired and when the key id
is not among those then known. -/
def FetchesReadable (lib : Libraries) (around : Surroundings) (kid : Text) (v : JwtValidator) :
    Prop :=
  (v.needsRefresh around → ReadableReply lib around.refresh.reply) ∧
  ((∀ key ∈ keysAfterRefresh lib around v, key.kid ≠ kid) →
    ReadableReply lib around.retry.reply)

/-- The key a key id stands for: looked up among the known keys, then among those of
a second reply. -/
def namedKey (lib : Libraries) (around : Surroundings) (kid : Text) (v : JwtValidator) :
    Option PublicKey :=
  let known := keysAfterRefresh lib around v
  match known.find? (·.kid = kid) with
  | some key => some key
  | none => ((publishedKeys lib around.retry.reply).getD known).find? (·.kid = kid)

/-- The claims may be read with the types `validateToken` expects, as far as it reads. -/
def ReadableClaims (nowSeconds : Int) (payload : Json) : Prop :=
  Json.StringOrAbsent (lit "iss") payload ∧
  ∀ iss ∈ issuers, payload.find (lit "iss") = some (.string iss) →
    Json.NumberOrAbsent (lit "exp") payload ∧
    ∀ exp, payload.value Json.getInt (lit "exp") 0 = .ok exp → nowSeconds < exp →
      ∀ claim ∈ [lit "sub", lit "email", lit "given_name", lit "picture"],
        Json.StringOrAbsent claim payload

/-- Nothing the validation of this token reads has an unexpected type. -/
def Harmless (lib : Libraries) (around : Surroundings) (token : Text) (v : JwtValidator) : Prop :=
  ∀ header payload signature headerJson, splitJwt token = some (header, payload, signature) →
    lib.parse (base64urlDecode lib header) = .ok headerJson →
    Json.StringOrAbsent (lit "kid") headerJson ∧ Json.StringOrAbsent (lit "alg") headerJson ∧
    ∀ kid, kid ≠ [] → headerJson.find (lit "kid") = some (.string kid) →
      headerJson.find (lit "alg") = some (.string (lit "RS256")) →
      FetchesReadable lib around kid v ∧
      ∀ key payloadJson, namedKey lib around kid v = some key →
        verifySignature lib (header ++ '.' :: payload) signature key.n key.e →
        lib.parse (base64urlDecode lib payload) = .ok payloadJson →
        ReadableClaims around.nowSeconds payloadJson

theorem readHeader_isOk_iff (header : Json) : (∃ kid, readHeader header = .ok kid) ↔
    Json.StringOrAbsent (lit "kid") header ∧ Json.StringOrAbsent (lit "alg") header := by
  simp only [← Json.valueString_isOk_iff]
  constructor
  · rintro ⟨kid, read⟩
    simp only [readHeader, bind_eq_ok] at read
    obtain ⟨named, kidRead, alg, algRead, _⟩ := read
    exact ⟨⟨named, kidRead⟩, ⟨alg, algRead⟩⟩
  · rintro ⟨⟨named, kidRead⟩, ⟨alg, algRead⟩⟩
    simp only [readHeader, kidRead, algRead, bind, Except.bind]
    split
    · exact ⟨_, rfl⟩
    · split <;> exact ⟨_, rfl⟩

theorem readHeader_of_find (read : readHeader header = .ok answer) (nonempty : kid ≠ [])
    (named : header.find (lit "kid") = some (.string kid))
    (algorithm : header.find (lit "alg") = some (.string (lit "RS256"))) : answer = some kid := by
  simp only [readHeader, bind_eq_ok] at read
  obtain ⟨kid', kidRead, alg, algRead, checked⟩ := read
  rw [Json.valueString_eq_ok, named] at kidRead
  rw [Json.valueString_eq_ok, algorithm] at algRead
  simp only [Option.some.injEq, Json.string.injEq, reduceCtorEq, false_and, or_false] at kidRead algRead
  simpa [← kidRead.2, ← algRead.2, nonempty, eq_comm] using checked

theorem readable_of_readKeys (read : readKeys items = .ok loaded) : ∀ chave ∈ items, ReadableKey chave := by
  induction items generalizing loaded with
  | nil => simp
  | cons chave rest ih =>
    simp only [readKeys, bind_eq_ok] at read
    obtain ⟨kid, kidRead, n, nRead, e, eRead, others, othersRead, _⟩ := read
    intro entry member
    rcases List.mem_cons.mp member with rfl | later
    · exact ⟨(Json.valueString_isOk_iff _).mp ⟨_, kidRead⟩, (Json.valueString_isOk_iff _).mp ⟨_, nRead⟩,
        (Json.valueString_isOk_iff _).mp ⟨_, eRead⟩⟩
    · exact ih othersRead entry later

theorem readKeys_eq (readable : ∀ chave ∈ items, ReadableKey chave) :
    readKeys items = .ok ((items.map fun chave =>
      ⟨chave.text (lit "kid"), chave.text (lit "n"), chave.text (lit "e")⟩).filter fun key =>
        key.kid ≠ [] ∧ key.n ≠ [] ∧ key.e ≠ []) := by
  induction items with
  | nil => rfl
  | cons chave rest ih =>
    obtain ⟨kid, n, e⟩ := readable chave List.mem_cons_self
    have others := ih fun entry member => readable entry (List.mem_cons_of_mem _ member)
    simp only [readKeys, Json.valueString_eq_text kid, Json.valueString_eq_text n,
      Json.valueString_eq_text e, others, bind, Except.bind, List.map_cons, List.filter_cons]
    simp

theorem readable_of_fetch (fetched : fetchGoogleKeys lib fetch v = .ok v') :
    ReadableReply lib fetch.reply := by
  intro body replied
  simp only [fetchGoogleKeys, replied, if_true] at fetched
  constructor
  · intro e failed
    rw [failed] at fetched
    cases e with
    | parseError what => exact ⟨what, rfl⟩
    | outOfRange what => simp at fetched
    | typeError what => simp at fetched
  · intro dados items parsed array
    simp only [parsed, array] at fetched
    cases read : readKeys items with
    | error e => simp [read, Except.map] at fetched
    | ok loaded => exact readable_of_readKeys read

/-- A readable reply replaces the keys by those it publishes, if it publishes any list. -/
theorem fetchGoogleKeys_eq (readable : ReadableReply lib fetch.reply) (v : JwtValidator) :
    ∃ lastFetch, fetchGoogleKeys lib fetch v =
      .ok ⟨(publishedKeys lib fetch.reply).getD v.keys, lastFetch⟩ := by
  cases replied : fetch.reply with
  | none => exact ⟨v.lastFetch, by simp [fetchGoogleKeys, replied, publishedKeys]⟩
  | some reply =>
    obtain ⟨status, body⟩ := reply
    by_cases success : status = 200
    · subst success
      obtain ⟨caught, entries⟩ := readable body replied
      cases parsed : lib.parse body with
      | error e =>
        obtain ⟨what, rfl⟩ := caught e parsed
        exact ⟨v.lastFetch, by simp [fetchGoogleKeys, replied, publishedKeys, parsed]⟩
      | ok dados =>
        cases found : dados.find (lit "keys") with
        | none => exact ⟨v.lastFetch, by simp [fetchGoogleKeys, replied, publishedKeys, parsed, found]⟩
        | some listed =>
          cases listed with
          | array items =>
            refine ⟨fetch.completedAt, ?_⟩
            simp [fetchGoogleKeys, replied, publishedKeys, parsed, found,
              readKeys_eq (entries dados items parsed found), Except.map]
          | _ => exact ⟨v.lastFetch, by simp [fetchGoogleKeys, replied, publishedKeys, parsed, found]⟩
    · refine ⟨v.lastFetch, ?_⟩
      have other : publishedKeys lib (some ⟨status, body⟩) = none := by
        unfold publishedKeys
        split
        · rename_i same
          simp only [Option.some.injEq, JwksReply.mk.injEq] at same
          exact absurd same.1 success
        · rfl
      simp [fetchGoogleKeys, replied, success, other]

theorem refresh_eq {v : JwtValidator} {around : Surroundings}
    (readable : v.needsRefresh around → ReadableReply lib around.refresh.reply) :
    ∃ lastFetch, (if v.needsRefresh around then v.fetchGoogleKeys lib around.refresh else .ok v) =
      .ok ⟨keysAfterRefresh lib around v, lastFetch⟩ := by
  unfold keysAfterRefresh
  cases expired : v.needsRefresh around with
  | true => simpa [expired] using fetchGoogleKeys_eq (readable expired) v
  | false => exact ⟨v.lastFetch, rfl⟩

theorem findKey_eq_none : (⟨known, fetched⟩ : JwtValidator).findKey kid = none ↔
    ∀ key ∈ known, key.kid ≠ kid := by
  simp [findKey]

theorem obtainKey_eq (readable : FetchesReadable lib around kid v) :
    (obtainKey lib around kid v).1 = .ok (namedKey lib around kid v) := by
  obtain ⟨lastFetch, refreshed⟩ := refresh_eq readable.1
  simp only [obtainKey, refreshed, namedKey]
  cases found : (⟨keysAfterRefresh lib around v, lastFetch⟩ : JwtValidator).findKey kid with
  | some key =>
    have listed : (keysAfterRefresh lib around v).find? (·.kid = kid) = some key := found
    simp [listed]
  | none =>
    have unlisted : (keysAfterRefresh lib around v).find? (·.kid = kid) = none := found
    rw [findKey_eq_none] at found
    obtain ⟨retried, fetched⟩ := fetchGoogleKeys_eq (readable.2 found)
      ⟨keysAfterRefresh lib around v, lastFetch⟩
    simp [fetched, unlisted, findKey]

theorem fetchesReadable_of_obtainKey (obtained : (obtainKey lib around kid v).1 = .ok found) :
    FetchesReadable lib around kid v := by
  have refresh : v.needsRefresh around → ReadableReply lib around.refresh.reply := by
    intro expired
    cases fetched : v.fetchGoogleKeys lib around.refresh with
    | error e => simp [obtainKey, expired, fetched] at obtained
    | ok v' => exact readable_of_fetch fetched
  refine ⟨refresh, fun unknown => ?_⟩
  obtain ⟨lastFetch, refreshed⟩ := refresh_eq refresh
  have missing :
      (⟨keysAfterRefresh lib around v, lastFetch⟩ : JwtValidator).findKey kid = none := by
    rw [findKey_eq_none]
    exact unknown
  simp only [obtainKey, refreshed, missing] at obtained
  cases fetched : (⟨keysAfterRefresh lib around v, lastFetch⟩ : JwtValidator).fetchGoogleKeys lib
      around.retry with
  | error e => simp [fetched] at obtained
  | ok v' => exact readable_of_fetch fetched

theorem readClaims_isOk_iff (nowSeconds : Int) (payload : Json) :
    (∃ user, readClaims nowSeconds payload = .ok user) ↔ ReadableClaims nowSeconds payload := by
  constructor
  · rintro ⟨user, read⟩
    simp only [readClaims, bind_eq_ok] at read
    obtain ⟨iss, issRead, checked⟩ := read
    refine ⟨(Json.valueString_isOk_iff _).mp ⟨iss, issRead⟩, fun iss' google found => ?_⟩
    rw [Json.valueString_eq_ok, found] at issRead
    simp only [Option.some.injEq, Json.string.injEq, reduceCtorEq, false_and, or_false] at issRead
    obtain ⟨_, rfl⟩ := issRead
    rw [if_neg (by simpa using google), bind_eq_ok] at checked
    obtain ⟨exp, expRead, checked⟩ := checked
    refine ⟨(Json.valueInt_isOk_iff _ _).mp ⟨exp, expRead⟩, fun exp' expRead' unexpired => ?_⟩
    rw [expRead, Except.ok.injEq] at expRead'
    subst expRead'
    rw [if_neg (by omega)] at checked
    simp only [bind_eq_ok] at checked
    obtain ⟨id, idRead, email, emailRead, name, nameRead, picture, pictureRead, _⟩ := checked
    simp only [List.forall_mem_cons, ← Json.valueString_isOk_iff]
    exact ⟨⟨_, idRead⟩, ⟨_, emailRead⟩, ⟨_, nameRead⟩, ⟨_, pictureRead⟩, by simp⟩
  · rintro ⟨issuer, later⟩
    simp only [readClaims, Json.valueString_eq_text issuer, bind, Except.bind]
    split
    · exact ⟨_, rfl⟩
    · rename_i google
      simp only [Decidable.not_not] at google
      have found := Json.find_of_valueString (Json.valueString_eq_text issuer)
        (issuers_nonempty google)
      obtain ⟨expiry, claims⟩ := later _ google found
      obtain ⟨exp, expRead⟩ := (Json.valueInt_isOk_iff _ 0).mpr expiry
      simp only [expRead]
      split
      · exact ⟨_, rfl⟩
      · have readable := claims exp expRead (by omega)
        simp only [List.forall_mem_cons] at readable
        obtain ⟨id, email, name, picture, _⟩ := readable
        simp only [Json.valueString_eq_text id, Json.valueString_eq_text email,
          Json.valueString_eq_text name, Json.valueString_eq_text picture]
        split <;> exact ⟨_, rfl⟩

/-- No exception escapes exactly when nothing that is read has an unexpected type. -/
theorem validateToken_isOk_iff (lib : Libraries) (around : Surroundings) (token : Text)
    (v : JwtValidator) :
    (∃ answer, (validateToken lib around token v).1 = .ok answer) ↔
      Harmless lib around token v := by
  constructor
  · rintro ⟨answer, validated⟩ header payload signature headerJson cut headerParsed
    simp only [validateToken, cut, headerParsed] at validated
    cases headerRead : readHeader headerJson with
    | error e => simp [headerRead] at validated
    | ok named =>
      obtain ⟨kidReadable, algReadable⟩ := (readHeader_isOk_iff _).mp ⟨named, headerRead⟩
      refine ⟨kidReadable, algReadable, fun kid nonempty kidFound algFound => ?_⟩
      obtain rfl := readHeader_of_find headerRead nonempty kidFound algFound
      simp only [headerRead] at validated
      cases obtained : obtainKey lib around kid v with
      | mk found v' =>
        cases found with
        | error e => simp [obtained] at validated
        | ok found =>
          have fetches : FetchesReadable lib around kid v :=
            fetchesReadable_of_obtainKey
              (show (obtainKey lib around kid v).1 = .ok found by rw [obtained])
          refine ⟨fetches, fun key payloadJson keyNamed signed payloadParsed => ?_⟩
          have same := obtainKey_eq fetches
          rw [obtained, keyNamed, Except.ok.injEq] at same
          subst same
          simp only [obtained, signed, payloadParsed, if_true] at validated
          exact (readClaims_isOk_iff _ _).mp ⟨answer, validated⟩
  · intro harmless
    unfold validateToken
    split
    · exact ⟨_, rfl⟩
    · rename_i header payload signature cut
      split
      · exact ⟨_, rfl⟩
      · rename_i headerJson headerParsed
        obtain ⟨kidReadable, algReadable, later⟩ :=
          harmless header payload signature headerJson cut headerParsed
        obtain ⟨named, headerRead⟩ := (readHeader_isOk_iff _).mpr ⟨kidReadable, algReadable⟩
        cases named with
        | none => simp only [headerRead]; exact ⟨_, rfl⟩
        | some kid =>
          obtain ⟨algorithm, found, nonempty⟩ := readHeader_eq_some headerRead
          obtain ⟨fetches, claims⟩ := later kid nonempty found algorithm
          have obtained := obtainKey_eq fetches
          cases run : obtainKey lib around kid v with
          | mk key v' =>
            rw [run] at obtained
            subst obtained
            simp only [headerRead, run]
            cases keyNamed : namedKey lib around kid v with
            | none => exact ⟨_, rfl⟩
            | some key =>
              simp only
              split
              · rename_i signed
                split
                · exact ⟨_, rfl⟩
                · rename_i payloadJson payloadParsed
                  exact (readClaims_isOk_iff _ _).mpr
                    (claims key payloadJson keyNamed signed payloadParsed)
              · exact ⟨_, rfl⟩

/-- A token whose header part is the encoding of an empty array. -/
def arrayToken : Text := lit "W10.."

def arrayLibraries : Libraries where
  parse text := if text = lit "[]" then .ok (.array []) else .error (.parseError [])
  decodeBlock := Base64.decodeBlock
  rs256 _ _ _ _ := false

theorem validateToken_array_header :
    validateToken arrayLibraries tokenSurroundings arrayToken ⟨[publishedKey], 0⟩ =
      (.error (.typeError (lit "[json.exception.type_error.306] cannot use value() with array")),
        ⟨[publishedKey], 0⟩) := by with_unfolding_all decide

end Crown.JwtValidator
