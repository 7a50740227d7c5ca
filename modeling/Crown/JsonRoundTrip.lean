import Crown.JsonScans

/-! What `dump` of `libs/json.hpp` writes is read by `parse` as the value that was written, and what
`parse` reads can be written. -/
namespace Crown

open Lib Lib.JsonText Serializer Lexer

namespace Json

variable {floats : FloatDigits} {strtod : Text → Option Rat} {text r : Text}

mutual

/-- A value as the parser makes them: strings in UTF-8, integers of 64 bits, floats that are read
back from their digits, and the keys of objects in their order. -/
def Canonical (floats : FloatDigits) (strtod : Text → Option Rat) : Json → Prop
  | .null | .boolean _ => True
  | .integer n => -2 ^ 63 ≤ n ∧ n < 2 ^ 64
  | .float x => strtod (toChars floats x) = some x
  | .string s => Utf8 s
  | .array items => CanonicalItems floats strtod items
  | .object members =>
    CanonicalMembers floats strtod members ∧ (members.map (·.1)).Pairwise (· < ·)

def CanonicalItems (floats : FloatDigits) (strtod : Text → Option Rat) : List Json → Prop
  | [] => True
  | item :: rest => item.Canonical floats strtod ∧ CanonicalItems floats strtod rest

def CanonicalMembers (floats : FloatDigits) (strtod : Text → Option Rat) :
    List (Text × Json) → Prop
  | [] => True
  | (key, value) :: rest =>
    (Utf8 key ∧ value.Canonical floats strtod) ∧ CanonicalMembers floats strtod rest

end

mutual

/-- The tokens that a value is written with. -/
def tokens (floats : FloatDigits) : Json → List TokenType
  | .null => [.literalNull]
  | .boolean true => [.literalTrue]
  | .boolean false => [.literalFalse]
  | .integer n => [integerToken n]
  | .float x => [.valueFloat (toChars floats x) (some x)]
  | .string s => [.valueString s]
  | .array items => .beginArray :: (tokensItems floats items ++ [.endArray])
  | .object members => .beginObject :: (tokensMembers floats members ++ [.endObject])

def tokensItems (floats : FloatDigits) : List Json → List TokenType
  | [] => []
  | [last] => last.tokens floats
  | item :: next :: rest =>
    item.tokens floats ++ .valueSeparator :: tokensItems floats (next :: rest)

def tokensMembers (floats : FloatDigits) : List (Text × Json) → List TokenType
  | [] => []
  | [(key, value)] => .valueString key :: .nameSeparator :: value.tokens floats
  | (key, value) :: next :: rest =>
    .valueString key :: .nameSeparator ::
      (value.tokens floats ++ .valueSeparator :: tokensMembers floats (next :: rest))

end

/-! The lexer finds the tokens. -/

/-- The token that a character is on its own. -/
def singleToken : Char → Option TokenType
  | '[' => some .beginArray
  | ']' => some .endArray
  | '\x7b' => some .beginObject
  | '\x7d' => some .endObject
  | ':' => some .nameSeparator
  | ',' => some .valueSeparator
  | _ => none

theorem tokensOf_single (known : singleToken c = some token) (r : Text) :
    tokensOf strtod (c :: r) = token :: tokensOf strtod r := by
  unfold singleToken at known
  split at known
  all_goals cases known
  all_goals exact tokensOf_cons rfl (by simp) (by simp)

theorem tokensOf_string (written : dumpEscaped s = .ok text) (r : Text) :
    tokensOf strtod ('"' :: (text ++ '"' :: r)) = .valueString s :: tokensOf strtod r :=
  tokensOf_cons (scan_dumpEscaped written r strtod) (by simp) (by simp)

theorem tokensOf_key (written : dumpEscaped s = .ok text) (r : Text) :
    tokensOf strtod ('"' :: (text ++ '"' :: ':' :: r)) =
      .valueString s :: .nameSeparator :: tokensOf strtod r := by
  rw [tokensOf_string written, tokensOf_single rfl]

theorem bind_pure_eq_ok {x : Except ε α} {f : α → β} :
    (x >>= fun a => pure (f a)) = Except.ok b ↔ ∃ a, x = .ok a ∧ f a = b := by
  cases x <;> simp [bind, Except.bind, pure, Except.pure]

mutual

theorem tokensOf_dump : ∀ {j : Json} {text r : Text}, j.Canonical floats strtod →
    j.dump floats = .ok text → Delimited r →
    tokensOf strtod (text ++ r) = j.tokens floats ++ tokensOf strtod r
  | .null, text, r, _, written, _ => by
    cases written
    exact tokensOf_cons rfl (by simp) (by simp)
  | .boolean true, text, r, _, written, _ => by
    cases written
    exact tokensOf_cons rfl (by simp) (by simp)
  | .boolean false, text, r, _, written, _ => by
    cases written
    exact tokensOf_cons rfl (by simp) (by simp)
  | .integer n, text, r, canonical, written, delimited => by
    cases written
    simp only [Canonical] at canonical
    refine tokensOf_cons (scan_decimal canonical.1 canonical.2 delimited strtod) ?_ ?_
    · unfold integerToken
      split <;> simp
    · unfold integerToken
      split <;> simp
  | .float x, text, r, canonical, written, delimited => by
    cases written
    simp only [Canonical] at canonical
    have scanned := scan_toChars floats x delimited strtod
    rw [canonical] at scanned
    exact tokensOf_cons scanned (by simp) (by simp)
  | .string s, text, r, _, written, _ => by
    rw [dump, bind_pure_eq_ok] at written
    obtain ⟨chars, escaped, rfl⟩ := written
    simpa [tokens] using tokensOf_string escaped r
  | .array [], text, r, _, written, _ => by
    cases written
    show tokensOf strtod ('[' :: ']' :: r) = _
    rw [tokensOf_single rfl, tokensOf_single rfl]
    rfl
  | .array (item :: rest), text, r, canonical, written, _ => by
    rw [dump, bind_pure_eq_ok] at written
    obtain ⟨inner, items, rfl⟩ := written
    rw [Canonical] at canonical
    have within := tokensOf_dumpItems (List.cons_ne_nil item rest) canonical items
      (delimited_cons (by simp) r : Delimited (']' :: r))
    rw [tokensOf_single rfl] at within
    simp only [List.cons_append, List.append_assoc, List.nil_append]
    rw [tokensOf_single rfl, within, tokens]
    simp
  | .object [], text, r, _, written, _ => by
    cases written
    show tokensOf strtod ('\x7b' :: '\x7d' :: r) = _
    rw [tokensOf_single rfl,
      tokensOf_single rfl]
    rfl
  | .object (member :: rest), text, r, canonical, written, _ => by
    rw [dump, bind_pure_eq_ok] at written
    obtain ⟨inner, members, rfl⟩ := written
    rw [Canonical] at canonical
    have within := tokensOf_dumpMembers (List.cons_ne_nil member rest) canonical.1 members
      (delimited_cons (by simp) r : Delimited ('\x7d' :: r))
    rw [tokensOf_single rfl] at within
    simp only [List.cons_append, List.append_assoc, List.nil_append]
    rw [tokensOf_single rfl, within, tokens]
    simp

theorem tokensOf_dumpItems : ∀ {items : List Json} {text r : Text}, items ≠ [] →
    CanonicalItems floats strtod items → dumpItems floats items = .ok text → Delimited r →
    tokensOf strtod (text ++ r) = tokensItems floats items ++ tokensOf strtod r
  | [], _, _, nonempty, _, _, _ => absurd rfl nonempty
  | [last], text, r, _, canonical, written, delimited => by
    rw [CanonicalItems] at canonical
    exact tokensOf_dump canonical.1 written delimited
  | item :: next :: rest, text, r, _, canonical, written, delimited => by
    rw [CanonicalItems] at canonical
    obtain ⟨first, dumped, written⟩ := bind_eq_ok.mp written
    obtain ⟨more, later, rfl⟩ := bind_pure_eq_ok.mp written
    have front := tokensOf_dump canonical.1 dumped
      (delimited_cons (by simp) (more ++ r) : Delimited (',' :: (more ++ r)))
    have back := tokensOf_dumpItems (List.cons_ne_nil next rest) canonical.2 later delimited
    rw [List.append_assoc, List.cons_append, front, tokensOf_single rfl,
      back, tokensItems]
    simp

theorem tokensOf_dumpMembers : ∀ {members : List (Text × Json)} {text r : Text}, members ≠ [] →
    CanonicalMembers floats strtod members → dumpMembers floats members = .ok text → Delimited r →
    tokensOf strtod (text ++ r) = tokensMembers floats members ++ tokensOf strtod r
  | [], _, _, nonempty, _, _, _ => absurd rfl nonempty
  | [(key, value)], text, r, _, canonical, written, delimited => by
    rw [CanonicalMembers] at canonical
    obtain ⟨chars, escaped, written⟩ := bind_eq_ok.mp written
    obtain ⟨inner, dumped, rfl⟩ := bind_pure_eq_ok.mp written
    have behind := tokensOf_dump canonical.1.2 dumped delimited
    have front := @tokensOf_key strtod _ _ escaped (inner ++ r)
    rw [behind] at front
    simpa [tokensMembers] using front
  | (key, value) :: next :: rest, text, r, _, canonical, written, delimited => by
    rw [CanonicalMembers] at canonical
    obtain ⟨chars, escaped, written⟩ := bind_eq_ok.mp written
    obtain ⟨inner, dumped, written⟩ := bind_eq_ok.mp written
    obtain ⟨more, later, rfl⟩ := bind_pure_eq_ok.mp written
    have front := @tokensOf_key strtod _ _ escaped (inner ++ ',' :: (more ++ r))
    have middle := tokensOf_dump canonical.1.2 dumped
      (delimited_cons (by simp) (more ++ r) : Delimited (',' :: (more ++ r)))
    have back := tokensOf_dumpMembers (List.cons_ne_nil next rest) canonical.2 later delimited
    rw [middle, tokensOf_single (c := ',') rfl, back] at front
    simpa [tokensMembers] using front

end

/-! The parser makes the value of the tokens. -/

/-- No value begins with the end of an array. -/
theorem tokens_head : ∀ j : Json, ∃ token rest, j.tokens floats = token :: rest ∧ token ≠ .endArray
  | .null => ⟨_, _, rfl, by simp⟩
  | .boolean true => ⟨_, _, rfl, by simp⟩
  | .boolean false => ⟨_, _, rfl, by simp⟩
  | .integer n => by
    refine ⟨_, _, rfl, ?_⟩
    unfold integerToken
    split <;> simp
  | .float x => ⟨_, _, rfl, by simp⟩
  | .string s => ⟨_, _, rfl, by simp⟩
  | .array items => ⟨_, _, rfl, by simp⟩
  | .object members => ⟨_, _, rfl, by simp⟩

theorem tokensItems_head (item : Json) (rest : List Json) :
    ∃ token more, tokensItems floats (item :: rest) = token :: more ∧ token ≠ .endArray := by
  obtain ⟨token, more, same, other⟩ := @tokens_head floats item
  cases rest with
  | nil => exact ⟨token, more, same, other⟩
  | cons next rest =>
    refine ⟨token, more ++ .valueSeparator :: tokensItems floats (next :: rest), ?_, other⟩
    rw [tokensItems, same, List.cons_append]

/-- A key behind all others gets its member at the end. -/
theorem setMember_last (later : ∀ k ∈ members.map (·.1), k < key) (value : Json) :
    setMember key value members = members ++ [(key, value)] := by
  induction members with
  | nil => rfl
  | cons first rest ih =>
    obtain ⟨k, old⟩ := first
    rw [List.map_cons, List.forall_mem_cons] at later
    have before : ¬key < k := lt_asymm later.1
    have other : key ≠ k := later.1.ne'
    rw [setMember, if_neg before, if_neg other, ih later.2, List.cons_append]

/-- In the order of the keys the first of the later ones is behind all earlier ones. -/
theorem keys_before {value : Json} {done rest : List (Text × Json)}
    (sorted : ((done ++ (key, value) :: rest).map (·.1)).Pairwise (· < ·)) :
    ∀ k ∈ done.map (·.1), k < key := by
  rw [List.map_append, List.pairwise_append] at sorted
  exact fun k member => sorted.2.2 k member key (by simp)

theorem parseValue_begin (stack : List OpenValue) (other : token ≠ .endArray)
    (read : List TokenType) : Parser.parseValue stack (.beginArray :: token :: read) =
      Parser.parseValue (.array [] :: stack) (token :: read) := by
  cases token <;> first | rfl | exact absurd rfl other

mutual

theorem parseValue_tokens : ∀ (j : Json) (stack : List OpenValue) (read : List TokenType),
    j.Canonical floats strtod →
    Parser.parseValue stack (j.tokens floats ++ read) = Parser.evaluate stack j read
  | .null, _, _, _ => rfl
  | .boolean true, _, _, _ => rfl
  | .boolean false, _, _, _ => rfl
  | .integer n, stack, read, _ => by
    simp only [tokens, integerToken]
    split
    · rename_i sign
      show Parser.evaluate stack (.integer n.toNat) read = _
      rw [Int.toNat_of_nonneg sign]
    · rfl
  | .float x, _, _, _ => rfl
  | .string s, _, _, _ => rfl
  | .array [], _, _, _ => rfl
  | .array (item :: rest), stack, read, canonical => by
    rw [Canonical] at canonical
    obtain ⟨token, more, same, other⟩ := @tokensItems_head floats item rest
    have items := parseValue_tokensItems (item :: rest) [] stack read (List.cons_ne_nil _ _)
      canonical
    rw [same, List.cons_append] at items
    rw [tokens, same]
    simp only [List.cons_append, List.append_assoc]
    rw [parseValue_begin stack other]
    exact items
  | .object [], _, _, _ => rfl
  | .object (member :: rest), stack, read, canonical => by
    rw [Canonical] at canonical
    obtain ⟨key, later, same, members⟩ := parseValue_tokensMembers (member :: rest) [] stack read
      (List.cons_ne_nil _ _) canonical.1 canonical.2
    rw [tokens, same]
    simp only [List.cons_append, List.append_assoc, List.nil_append]
    exact members

theorem parseValue_tokensItems : ∀ (items done : List Json) (stack : List OpenValue)
    (read : List TokenType), items ≠ [] → CanonicalItems floats strtod items →
    Parser.parseValue (.array done :: stack) (tokensItems floats items ++ .endArray :: read) =
      Parser.evaluate stack (.array (done ++ items)) read
  | [], _, _, _, nonempty, _ => absurd rfl nonempty
  | [last], done, stack, read, _, canonical => by
    rw [CanonicalItems] at canonical
    rw [tokensItems, parseValue_tokens last _ _ canonical.1]
    rfl
  | item :: next :: rest, done, stack, read, _, canonical => by
    rw [CanonicalItems] at canonical
    have later := parseValue_tokensItems (next :: rest) (done ++ [item]) stack read
      (List.cons_ne_nil _ _) canonical.2
    rw [tokensItems, List.append_assoc, List.cons_append, parseValue_tokens item _ _ canonical.1,
      Parser.evaluate, later, List.append_assoc, List.singleton_append]

/-- Behind the first key and its separator the members are read. -/
theorem parseValue_tokensMembers : ∀ (members done : List (Text × Json)) (stack : List OpenValue)
    (read : List TokenType), members ≠ [] → CanonicalMembers floats strtod members →
    ((done ++ members).map (·.1)).Pairwise (· < ·) →
    ∃ key later, tokensMembers floats members = .valueString key :: .nameSeparator :: later ∧
      Parser.parseValue (.object done key :: stack) (later ++ .endObject :: read) =
        Parser.evaluate stack (.object (done ++ members)) read
  | [], _, _, _, nonempty, _, _ => absurd rfl nonempty
  | [(key, value)], done, stack, read, _, canonical, sorted => by
    rw [CanonicalMembers] at canonical
    refine ⟨key, _, rfl, ?_⟩
    rw [parseValue_tokens value _ _ canonical.1.2, ← setMember_last (keys_before sorted)]
    rfl
  | (key, value) :: next :: rest, done, stack, read, _, canonical, sorted => by
    rw [CanonicalMembers] at canonical
    have again : ((done ++ [(key, value)] ++ next :: rest).map (·.1)).Pairwise (· < ·) := by
      simpa using sorted
    obtain ⟨following, later, same, members⟩ := parseValue_tokensMembers (next :: rest)
      (done ++ [(key, value)]) stack read (List.cons_ne_nil _ _) canonical.2 again
    refine ⟨key, _, rfl, ?_⟩
    rw [same, List.append_assoc, parseValue_tokens value _ _ canonical.1.2, List.cons_append,
      List.cons_append, List.cons_append, Parser.evaluate, setMember_last (keys_before sorted),
      members]
    simp

end

mutual

theorem Canonical.encoded : ∀ {j : Json}, j.Canonical floats strtod → j.Encoded
  | .null, _ | .boolean _, _ | .integer _, _ | .float _, _ => by simp [Encoded]
  | .string s, canonical => by simpa [Canonical, Encoded] using canonical
  | .array items, canonical => by
    rw [Canonical] at canonical
    rw [Encoded]
    exact canonicalItems_encoded canonical
  | .object members, canonical => by
    rw [Canonical] at canonical
    rw [Encoded]
    exact canonicalMembers_encoded canonical.1

theorem canonicalItems_encoded : ∀ {items : List Json},
    CanonicalItems floats strtod items → EncodedItems items
  | [], _ => by simp [EncodedItems]
  | item :: rest, canonical => by
    rw [CanonicalItems] at canonical
    rw [EncodedItems]
    exact ⟨canonical.1.encoded, canonicalItems_encoded canonical.2⟩

theorem canonicalMembers_encoded : ∀ {members : List (Text × Json)},
    CanonicalMembers floats strtod members → EncodedMembers members
  | [], _ => by simp [EncodedMembers]
  | (key, value) :: rest, canonical => by
    rw [CanonicalMembers] at canonical
    rw [EncodedMembers]
    exact ⟨canonical.1.imp_right Canonical.encoded, canonicalMembers_encoded canonical.2⟩

end

/-- A value in UTF-8 is written. -/
theorem Encoded.dump {j : Json} (encoded : j.Encoded) (floats : FloatDigits) :
    ∃ text, j.dump floats = .ok text := by
  have written := dump_writes floats j
  cases result : j.dump floats with
  | ok text => exact ⟨text, rfl⟩
  | error e =>
    rw [result] at written
    exact absurd encoded written.1

/-- What is written is neither empty nor begins with a byte order mark. -/
theorem dump_head {j : Json} (written : j.dump floats = .ok text) :
    ∃ c rest, text = c :: rest ∧ c.toNat < 0x80 ∧ c ≠ '\x00' := by
  have number : ∀ {s : Text}, (∀ r, Number (s ++ r) r) →
      ∃ c rest, s = c :: rest ∧ c.toNat < 0x80 ∧ c ≠ '\x00' := by
    intro s grammar
    have delimited : Delimited [] := by simp [Delimited]
    obtain ⟨c, t, rfl, first, -⟩ := scanFrom_number grammar delimited fun _ => none
    refine ⟨c, t, rfl, ?_, ?_⟩
    · rcases first with rfl | digit
      · decide
      · exact digit_ascii digit
    · rintro rfl
      rcases first with sign | digit
      · cases sign
      · cases digit
  cases j with
  | null => cases written; exact ⟨_, _, rfl, by decide, by decide⟩
  | boolean b => cases b <;> cases written <;> exact ⟨_, _, rfl, by decide, by decide⟩
  | integer n =>
    cases written
    exact number (decimal_number n)
  | float x =>
    cases written
    exact number (toChars_number floats x)
  | string s =>
    rw [dump, bind_pure_eq_ok] at written
    obtain ⟨_, _, rfl⟩ := written
    exact ⟨_, _, rfl, by decide, by decide⟩
  | array items =>
    rw [dump, bind_pure_eq_ok] at written
    obtain ⟨_, _, rfl⟩ := written
    exact ⟨_, _, rfl, by decide, by decide⟩
  | object members =>
    rw [dump, bind_pure_eq_ok] at written
    obtain ⟨_, _, rfl⟩ := written
    exact ⟨_, _, rfl, by decide, by decide⟩

/-- Without a byte order mark nothing is skipped. -/
theorem tokens_of_ascii (ascii : c.toNat < 0x80) (rest : Text) :
    Lexer.tokens strtod (c :: rest) = tokensOf strtod (c :: rest) := by
  have other : c ≠ '\xef' := by
    rintro rfl
    exact absurd ascii (by decide)
  unfold Lexer.tokens
  split
  · rename_i same
    exact absurd (List.cons.inj same).1 other
  · rename_i same
    exact absurd (List.cons.inj same).1 other
  · rfl

theorem parse_dumped {j : Json} (canonical : j.Canonical floats strtod)
    (written : j.dump floats = .ok text) : Json.parse strtod text = .ok j := by
  have delimited : Delimited [] := by simp [Delimited]
  have lexed := tokensOf_dump canonical written delimited
  have parsed := parseValue_tokens j [] (tokensOf strtod []) canonical
  obtain ⟨c, rest, rfl, ascii, nul⟩ := dump_head written
  have begins : ¬(c :: rest).head?.getD '\x00' = '\x00' := nul
  rw [List.append_nil] at lexed
  rw [Json.parse, if_neg begins, tokens_of_ascii ascii, lexed, Parser.parseTokens, parsed]
  rfl

end Json
end Crown
