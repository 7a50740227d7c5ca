import Crown.AuthMiddle
import Crown.Lib.Substring

/-! Which value `ExtractCookie` finds. It searches the header for the name and the sign, wherever
they stand: in front of the value, at the end of another name, or within a value. -/
namespace Crown

open Lib

def CookieName (name : Text) : Prop := '=' ∉ name ∧ ';' ∉ name ∧ ' ' ∉ name

instance (name : Text) : Decidable (CookieName name) := inferInstanceAs (Decidable (_ ∧ _ ∧ _))

/-- The cookies a client sends. -/
structure Cookies where
  pairs : List (Text × Text)
  distinct : (pairs.map (·.1)).Nodup
  names : ∀ pair ∈ pairs, CookieName pair.1
  values : ∀ pair ∈ pairs, ';' ∉ pair.2

/-- The pairs as they are joined in the header. -/
def cookieText (pairs : List (Text × Text)) : Text :=
  [';', ' '].intercalate (pairs.map fun pair => pair.1 ++ '=' :: pair.2)

/-- What the search takes of a pair: the value, if the name asked for ends its name, or else what
follows the name asked for within the value. -/
def takenFrom (name : Text) (pair : Text × Text) : Option Text :=
  if name <:+ pair.1 then some pair.2 else Text.afterFirst (name ++ ['=']) pair.2

def misleads (name : Text) (pair : Text × Text) : Bool :=
  decide (name <:+ pair.1) || decide (name ++ ['='] <:+: pair.2)

section

variable {name : Text} {pair : Text × Text} {pairs : List (Text × Text)}

theorem takenFrom_isSome (name : Text) (pair : Text × Text) :
    (takenFrom name pair).isSome = misleads name pair := by
  have filled : name ++ ['='] ≠ [] := List.append_ne_nil_of_right_ne_nil _ (List.cons_ne_nil _ _)
  rw [Bool.eq_iff_iff, takenFrom, misleads, Bool.or_eq_true, decide_eq_true_iff, decide_eq_true_iff]
  by_cases ends : name <:+ pair.1
  · simp [ends]
  · rw [if_neg ends, Text.afterFirst_isSome_iff filled]
    exact (or_iff_right ends).symm

/-- What is taken from a value ends with it. -/
theorem takenFrom_plain (plain : ';' ∉ pair.2) (taken : takenFrom name pair = some t) : ';' ∉ t := by
  unfold takenFrom at taken
  split at taken
  · cases taken
    exact plain
  · exact fun member => plain ((Text.suffix_of_afterFirst taken).subset member)

theorem asked_filled (name : Text) : name ++ ['='] ≠ [] :=
  List.append_ne_nil_of_right_ne_nil _ (List.cons_ne_nil _ _)

theorem asked_plain (asked : CookieName name) : ';' ∉ name ++ ['='] ∧ ' ' ∉ name ++ ['='] := by
  obtain ⟨-, semicolon, blank⟩ := asked
  simp [semicolon, blank]

/-- The search in the last pair. -/
theorem search_last (asked : CookieName name) (named : CookieName pair.1) :
    Text.afterFirst (name ++ ['=']) (pair.1 ++ '=' :: pair.2) = takenFrom name pair :=
  Text.afterFirst_key asked.1 named.1 pair.2

/-- The search in a pair that others follow. -/
theorem search_pair (asked : CookieName name) (named : CookieName pair.1) (rest : Text) :
    Text.afterFirst (name ++ ['=']) (pair.1 ++ '=' :: (pair.2 ++ ';' :: ' ' :: rest)) =
      ((takenFrom name pair).map (· ++ ';' :: ' ' :: rest)).or
        (Text.afterFirst (name ++ ['=']) rest) := by
  obtain ⟨semicolon, blank⟩ := asked_plain asked
  rw [Text.afterFirst_key asked.1 named.1, takenFrom,
    Text.afterFirst_append_cons (asked_filled name) semicolon,
    Text.afterFirst_skip (asked_filled name) blank]
  by_cases ends : name <:+ pair.1
  · rw [if_pos ends, if_pos ends, Option.map_some, Option.some_or]
  · rw [if_neg ends, if_neg ends]

/-- The search in the header finds what it takes of the first pair that it takes something of. -/
theorem search_cookieText (asked : CookieName name) (named : ∀ pair ∈ pairs, CookieName pair.1)
    (plain : ∀ pair ∈ pairs, ';' ∉ pair.2) :
    (Text.afterFirst (name ++ ['=']) (cookieText pairs)).map (Text.before ';') =
      pairs.findSome? (takenFrom name) := by
  induction pairs with
  | nil =>
    rw [cookieText, List.map_nil, List.intercalate_nil, Text.afterFirst_nil (asked_filled name)]
    rfl
  | cons pair pairs ih =>
    obtain ⟨own, others⟩ := List.forall_mem_cons.mp named
    obtain ⟨ownPlain, othersPlain⟩ := List.forall_mem_cons.mp plain
    rw [List.findSome?_cons]
    cases pairs with
    | nil =>
      rw [cookieText, List.map_singleton, List.intercalate_singleton, search_last asked own]
      cases taken : takenFrom name pair with
      | none => rfl
      | some t => exact congrArg some (Text.before_eq_self (takenFrom_plain ownPlain taken))
    | cons next pairs =>
      have joined : cookieText (pair :: next :: pairs) =
          pair.1 ++ '=' :: (pair.2 ++ ';' :: ' ' :: cookieText (next :: pairs)) := by
        simp [cookieText]
      rw [joined, search_pair asked own]
      cases taken : takenFrom name pair with
      | none => exact ih others othersPlain
      | some t =>
        have found : Text.before ';' (t ++ ';' :: ' ' :: cookieText (next :: pairs)) = t := by
          rw [Text.before_append (takenFrom_plain ownPlain taken), Text.before_cons_self,
            List.append_nil]
        exact congrArg some found

/-- The first pair that gives something stands before the named one and misleads, or is the named
one. -/
theorem findSome_takenFrom (name : Text) (pairs : List (Text × Text)) :
    pairs.findSome? (takenFrom name) =
      match (pairs.takeWhile (·.1 ≠ name)).find? (misleads name) with
      | some pair => takenFrom name pair
      | none => pairs.lookup name := by
  induction pairs with
  | nil => rfl
  | cons pair pairs ih =>
    have taken := takenFrom_isSome name pair
    by_cases same : pair.1 = name
    · have own : takenFrom name pair = some pair.2 := if_pos (same ▸ List.suffix_refl _)
      simp [own, same, List.lookup]
    · by_cases mislead : misleads name pair = true
      · obtain ⟨t, found⟩ := Option.isSome_iff_exists.mp (taken.trans mislead)
        simp [found, same, mislead]
      · have nothing : takenFrom name pair = none := by
          rw [Bool.not_eq_true] at mislead
          rw [mislead] at taken
          exact Option.not_isSome_iff_eq_none.mp (Bool.eq_false_iff.mp taken)
        have other : (name == pair.1) = false := by simpa using Ne.symm same
        simp only [List.findSome?_cons, nothing, ih, List.lookup, other]
        simp [same, mislead]

end

/-- The value of the cookie with the name, or nothing. -/
def Cookies.value (cookies : Cookies) (name : Text) : Text := (cookies.pairs.lookup name).getD []

theorem extractCookie_eq (cookies : Cookies) {name : Text} (asked : CookieName name) :
    extractCookie (cookieText cookies.pairs) name =
      (cookies.pairs.findSome? (takenFrom name)).getD [] := by
  have sign : lit "=" = ['='] := by with_unfolding_all decide
  rw [← search_cookieText asked cookies.names cookies.values, extractCookie, sign]
  cases Text.afterFirst (name ++ ['=']) (cookieText cookies.pairs) <;> rfl

/-- The lookup finds the named cookie if and only if the first cookie before it that misleads the
search, if there is one, happens to give the same text. -/
theorem extractCookie_eq_iff (cookies : Cookies) {name : Text} (asked : CookieName name) :
    extractCookie (cookieText cookies.pairs) name = cookies.value name ↔
      ∀ pair, (cookies.pairs.takeWhile (·.1 ≠ name)).find? (misleads name) = some pair →
        takenFrom name pair = some (cookies.value name) := by
  rw [extractCookie_eq cookies asked, findSome_takenFrom]
  cases first : (cookies.pairs.takeWhile (·.1 ≠ name)).find? (misleads name) with
  | none =>
    refine iff_of_true rfl fun pair found => ?_
    cases found
  | some pair =>
    obtain ⟨t, taken⟩ : ∃ t, takenFrom name pair = some t := by
      rw [← Option.isSome_iff_exists, takenFrom_isSome]
      exact List.find?_some first
    simp [taken]

/-- A cookie of another service, and the one of this one. -/
def tokenPairs : List (Text × Text) := [(lit "old_id_token", ['a']), (lit "id_token", ['b'])]

theorem tokenPairs_cookies : (tokenPairs.map (·.1)).Nodup ∧
    (∀ pair ∈ tokenPairs, CookieName pair.1) ∧ ∀ pair ∈ tokenPairs, ';' ∉ pair.2 := by
  with_unfolding_all decide

def tokenCookies : Cookies :=
  ⟨tokenPairs, tokenPairs_cookies.1, tokenPairs_cookies.2.1, tokenPairs_cookies.2.2⟩

theorem firstCookie_found : extractCookie (cookieText tokenCookies.pairs) (lit "old_id_token") =
    tokenCookies.value (lit "old_id_token") := by
  have named := tokenCookies.names _ (List.mem_cons_self ..)
  refine (extractCookie_eq_iff tokenCookies named).mpr fun pair found => ?_
  simp [tokenCookies, tokenPairs] at found

/-- The search for the second cookie stops in the name of the first. -/
theorem secondCookie_missed : CookieName (lit "id_token") ∧
    extractCookie (cookieText tokenCookies.pairs) (lit "id_token") = ['a'] ∧
    tokenCookies.value (lit "id_token") = ['b'] := by
  with_unfolding_all decide

end Crown
